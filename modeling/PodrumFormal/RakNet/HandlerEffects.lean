import PodrumFormal.RakNet.Recovery
import PodrumFormal.RakNet.ReceiveWindow

/-!
# What handling a frame set does to the server

The handlers of a connection's datagrams send to its own address only, post
messages that carry that address, and leave the table of connections alone.
-/

set_option autoImplicit false

namespace PodrumRakNet.HandlerEffects

open PodrumRakNet.Frame PodrumRakNet.FrameSet PodrumRakNet.Packet PodrumRakNet.Connections
open PodrumRakNet.SendQueue PodrumRakNet.Handler PodrumRakNet.ReceiveWindow
open PodrumRakNet.Recovery

/-- The packets that `handle_frame` answers itself. -/
def ownPacketIds : List UInt8 :=
  [idConnectionRequest, idConnectedPing, idDisconnectNotification, idNewIncomingConnection]

def ForRaknet (frame : MiscFrame) : Prop :=
  ∃ packetId ∈ ownPacketIds, frame.stream.head? = some packetId

/-- The messages that handling a frame can post to the workers. -/
def FromPeer (connected : Bool) (address : MiscAddress) : InternalMessage → Prop
  | .frame frame sender => sender = address ∧ connected = true ∧ ¬ ForRaknet frame
  | .newIncomingConnection sender => sender = address
  | .disconnectNotification _ => False

def IsFrameSet (datagram : Datagram) : Prop := ∃ set, datagram = .frameSet set

/-- What a connection's own traffic does to the server, `kind` being the
datagrams it may send. -/
structure Posts (kind : Datagram → Prop) (before after : Connection × RaknetServer) : Prop where
  address : after.1.address = before.1.address
  connections : after.2.connections = before.2.connections
  sent : ∃ datagrams : List Datagram, (∀ datagram ∈ datagrams, kind datagram) ∧
    after.2.sent = before.2.sent ++ datagrams.map fun datagram => (before.1.address, datagram)
  toMain : ∃ count, after.2.threadedToMain = before.2.threadedToMain ++
    List.replicate count (.disconnectNotification before.1.address)
  toThreaded : ∃ messages, after.2.mainToThreaded = before.2.mainToThreaded ++ messages ∧
    ∀ message ∈ messages,
      FromPeer (hasRaknetConnection before.1.address before.2) before.1.address message

section Posts

variable {kind : Datagram → Prop} {before after first second third : Connection × RaknetServer}

theorem Posts.connected (posts : Posts kind before after) :
    hasRaknetConnection after.1.address after.2 =
      hasRaknetConnection before.1.address before.2 := by
  rw [hasRaknetConnection, hasRaknetConnection, posts.connections, posts.address]

theorem Posts.refl (state : Connection × RaknetServer) : Posts kind state state where
  address := rfl
  connections := rfl
  sent := ⟨[], by simp, by simp⟩
  toMain := ⟨0, by simp⟩
  toThreaded := ⟨[], by simp, by simp⟩

theorem Posts.trans (left : Posts kind first second) (right : Posts kind second third) :
    Posts kind first third where
  address := right.address.trans left.address
  connections := right.connections.trans left.connections
  sent := by
    obtain ⟨datagrams, allowed, before⟩ := left.sent
    obtain ⟨more, others, after⟩ := right.sent
    refine ⟨datagrams ++ more, fun datagram member => ?_, ?_⟩
    · rcases List.mem_append.mp member with early | late
      · exact allowed datagram early
      · exact others datagram late
    · rw [after, before, left.address, List.map_append, List.append_assoc]
  toMain := by
    obtain ⟨count, before⟩ := left.toMain
    obtain ⟨more, after⟩ := right.toMain
    exact ⟨count + more, by
      rw [after, before, left.address, List.append_assoc, List.replicate_append_replicate]⟩
  toThreaded := by
    obtain ⟨messages, before, each⟩ := left.toThreaded
    obtain ⟨more, after, others⟩ := right.toThreaded
    refine ⟨messages ++ more, by rw [after, before, List.append_assoc], ?_⟩
    intro message member
    rcases List.mem_append.mp member with early | late
    · exact each message early
    · have peer := others message late
      rwa [left.connected, left.address] at peer

theorem Posts.mono {wider : Datagram → Prop} (posts : Posts kind before after)
    (each : ∀ datagram, kind datagram → wider datagram) : Posts wider before after where
  address := posts.address
  connections := posts.connections
  sent := by
    obtain ⟨datagrams, allowed, sent⟩ := posts.sent
    exact ⟨datagrams, fun datagram member => each datagram (allowed datagram member), sent⟩
  toMain := posts.toMain
  toThreaded := posts.toThreaded

/-- Sending posts nothing. -/
theorem posts_of_sending (sending : Sending before after) : Posts IsFrameSet before after := by
  rcases sending with ⟨sets, sends⟩
  have others := sends.server
  refine ⟨sends.owner, ?_, ⟨sets.map Datagram.frameSet, ?_, ?_⟩, ⟨0, ?_⟩, ⟨[], ?_, by simp⟩⟩
  · rw [others]
  · intro datagram member
    obtain ⟨set, _, same⟩ := List.mem_map.mp member
    exact ⟨set, same.symm⟩
  · rw [sends.sent, List.map_map]
    rfl
  · rw [others]
    simp
  · rw [others]
    simp

theorem posts_connection {before after : Connection} (server : RaknetServer)
    (sameAddress : after.address = before.address) :
    Posts kind (before, server) (after, server) where
  address := sameAddress
  connections := rfl
  sent := ⟨[], by simp, by simp⟩
  toMain := ⟨0, by simp⟩
  toThreaded := ⟨[], by simp, by simp⟩

theorem posts_timestamp (connection : Connection) (server : RaknetServer) (reads : Nat) :
    Posts kind (connection, server) (connection, { server with timestampReads := reads }) where
  address := rfl
  connections := rfl
  sent := ⟨[], by simp, by simp⟩
  toMain := ⟨0, by simp⟩
  toThreaded := ⟨[], by simp, by simp⟩

theorem posts_toThreaded (connection : Connection) (server : RaknetServer)
    {message : InternalMessage}
    (fromPeer : FromPeer (hasRaknetConnection connection.address server) connection.address
      message) :
    Posts kind (connection, server)
      (connection, { server with mainToThreaded := server.mainToThreaded ++ [message] }) where
  address := rfl
  connections := rfl
  sent := ⟨[], by simp, by simp⟩
  toMain := ⟨0, by simp⟩
  toThreaded := ⟨[message], rfl, List.forall_mem_singleton.mpr fromPeer⟩

theorem posts_sendData (before after : Connection) (server : RaknetServer) {datagram : Datagram}
    (allowed : kind datagram) (sameAddress : after.address = before.address) :
    Posts kind (before, server) (after, sendData before.address datagram server) where
  address := sameAddress
  connections := rfl
  sent := ⟨[datagram], List.forall_mem_singleton.mpr allowed, rfl⟩
  toMain := ⟨0, by simp [sendData]⟩
  toThreaded := ⟨[], by simp [sendData], by simp⟩

end Posts

section Frames

variable {environment : Environment} {connection next : Connection}
  {server nextServer : RaknetServer}

theorem handleWholeFrame_posts {frame : MiscFrame}
    (success : handleWholeFrame environment frame connection server = some (next, nextServer)) :
    Posts IsFrameSet (connection, server) (next, nextServer) := by
  obtain ⟨stream, added⟩ | ⟨rfl, rfl⟩ | ⟨rfl, rfl⟩ | ⟨packetId, first, foreign, rfl, rfl⟩ :=
    handleWholeFrame_cases success
  · exact (posts_timestamp _ _ _).trans (posts_of_sending (addToRaknetQueue_sending added))
  · exact ⟨rfl, rfl, ⟨[], by simp, by simp⟩, ⟨1, rfl⟩, ⟨[], by simp, by simp⟩⟩
  · exact posts_toThreaded _ _ rfl
  · unfold sendRaknetFrame
    split
    · rename_i connected
      refine posts_toThreaded _ _ ⟨rfl, connected, ?_⟩
      intro forRaknet
      rcases forRaknet with ⟨own, member, same⟩
      obtain rfl := Option.some.inj (first.symm.trans same)
      exact foreign member
    · exact Posts.refl _

theorem handleFrame_posts {frame : MiscFrame}
    (success : handleFrame environment frame connection server = some (next, nextServer)) :
    Posts IsFrameSet (connection, server) (next, nextServer) := by
  simp only [handleFrame] at success
  split at success
  · have held : Posts IsFrameSet (connection, server) ({ connection with
        frameHolder := (handleFragmentedFrame frame connection.frameHolder).1 }, server) :=
      posts_connection server rfl
    split at success
    · exact held.trans (handleWholeFrame_posts success)
    · cases success
      exact held
  · exact handleWholeFrame_posts success

theorem handleFrames_posts {address : MiscAddress} (frames : List MiscFrame)
    (connection : Connection) (server : RaknetServer)
    (success : handleFrames environment address frames connection server =
      some (next, nextServer)) :
    Posts IsFrameSet (connection, server) (next, nextServer) :=
  handleFrames_relates Posts.refl Posts.trans handleFrame_posts frames connection server
    (next, nextServer) success

theorem receiveSequenceNumber_address {sequenceNumber : UInt32}
    (success : receiveSequenceNumber sequenceNumber connection = some next) :
    next.address = connection.address ∧ next.mtuSize = connection.mtuSize ∧
      connection.ackQueue.append sequenceNumber = some next.ackQueue := by
  obtain ⟨ackQueue, acknowledged, success⟩ := Option.bind_eq_some_iff.mp success
  obtain ⟨nackQueue, _, success⟩ := Option.bind_eq_some_iff.mp success
  cases success
  exact ⟨rfl, rfl, acknowledged⟩

theorem handleFrameSet_posts {stream : List UInt8}
    (success : handleFrameSet environment stream connection server = some (next, nextServer)) :
    Posts IsFrameSet (connection, server) (next, nextServer) := by
  obtain ⟨⟨frameSet, rest⟩, _, success⟩ := Option.bind_eq_some_iff.mp success
  obtain ⟨received, windowed, success⟩ := Option.bind_eq_some_iff.mp success
  exact (posts_connection server (receiveSequenceNumber_address windowed).1).trans
    (handleFrames_posts _ _ _ success)

/-- A frame set's own number, and nothing else, joins the numbers to
acknowledge. -/
theorem handleFrameSet_ackQueue {stream : List UInt8}
    (success : handleFrameSet environment stream connection server = some (next, nextServer)) :
    ∃ frameSet rest, getPacketFrameSet stream = some (frameSet, rest) ∧
      ∀ number, number ∈ next.ackQueue.numbers ↔
        number ∈ connection.ackQueue.numbers ∨ number = frameSet.sequenceNumber := by
  obtain ⟨⟨frameSet, rest⟩, decoded, success⟩ := Option.bind_eq_some_iff.mp success
  obtain ⟨received, windowed, success⟩ := Option.bind_eq_some_iff.mp success
  refine ⟨frameSet, rest, decoded, fun number => ?_⟩
  rw [(handleFrames_queues _ _ _ success).ackQueue]
  exact SequenceQueue.append_numbers (receiveSequenceNumber_address windowed).2.2 number

end Frames

/-! ## Flushing -/

theorem sendRaknetAckQueue_posts (connection : Connection) (server : RaknetServer) :
    Posts (fun _ => True) (connection, server) (sendRaknetAckQueue connection server) := by
  unfold sendRaknetAckQueue
  split
  · exact posts_sendData _ _ _ trivial rfl
  · exact Posts.refl _

theorem sendRaknetNackQueue_posts (connection : Connection) (server : RaknetServer) :
    Posts (fun _ => True) (connection, server) (sendRaknetNackQueue connection server) := by
  unfold sendRaknetNackQueue
  split
  · exact posts_sendData _ _ _ trivial rfl
  · exact Posts.refl _

theorem sendRaknetQueue_posts (connection : Connection) (server : RaknetServer) :
    Posts IsFrameSet (connection, server) (sendRaknetQueue connection server) :=
  posts_of_sending (sendRaknetQueue_sending connection server)

end PodrumRakNet.HandlerEffects

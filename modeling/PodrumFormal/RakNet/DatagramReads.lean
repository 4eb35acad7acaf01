import PodrumFormal.RakNet.HandlerEffects
import PodrumFormal.RakNet.Threads

/-!
# The reads of a datagram

What `handle_raknet_packet` and the handlers it calls read of a datagram and of
the payloads in it, `none` being a read at or past the end.  A write outside an
array of another kind does not stop them here; a division by zero does.
-/

set_option autoImplicit false

namespace PodrumRakNet.DatagramReads

open ByteReader PodrumStream.BinaryStream PodrumRakNet.Frame PodrumRakNet.FrameSet
open PodrumRakNet.Acknowledge PodrumRakNet.Packet PodrumRakNet.Connections
open PodrumRakNet.SendQueue PodrumRakNet.Handler PodrumRakNet.Handshake PodrumRakNet.Server
open PodrumRakNet.ReceiveWindow PodrumRakNet.HandlerEffects PodrumRakNet.Threads

/-- That the reader stays inside the bytes. -/
def readsOf {α : Type} (reader : Reader α) (stream : List UInt8) : Option Unit :=
  (reader stream).map fun _ => ()

/-! ## Payloads -/

/-- `handle_frame` puts an answer to these into the send queue. -/
def answered (stream : List UInt8) : Bool :=
  stream.head? = some idConnectionRequest || stream.head? = some idConnectedPing

/-- `handle_frame` on a whole frame. -/
def payloadReads (stream : List UInt8) : Option Unit := do
  let packetId ← stream.head?
  if packetId = idConnectionRequest then readsOf getPacketConnectionRequest stream
  else if packetId = idConnectedPing then readsOf getPacketConnectedPing stream
  else some ()

/-- The frame that `handle_frame` goes on with, if it does, and the holder. -/
def wholeFrame (frame : MiscFrame) (frameHolder : FrameHolder) : FrameHolder × Option MiscFrame :=
  if frame.isFragmented ≠ 0 then handleFragmentedFrame frame frameHolder
  else (frameHolder, some frame)

/-- The frames of a datagram in turn. -/
def framesReads (mtuSize : UInt16) : List MiscFrame → FrameHolder → Option Unit
  | [], _ => some ()
  | frame :: rest, frameHolder =>
      match wholeFrame frame frameHolder with
      | (held, none) => framesReads mtuSize rest held
      | (held, some whole) => do
          payloadReads whole.stream
          -- `add_to_raknet_queue` divides by `mtu_size - 60`.
          if answered whole.stream ∧ maxSize mtuSize = 0 then some ()
          else framesReads mtuSize rest held

/-! ## Datagrams -/

def getRecordsOnly : Reader (List AckRecord) := do
  skip 1
  let recordCount ← getUnsignedShortBe
  readCount getRecord recordCount.toNat

def frameSetReads (stream : List UInt8) (connection : Connection) : Option Unit := do
  let (frameSet, _) ← getPacketFrameSet stream
  framesReads connection.mtuSize frameSet.frames connection.frameHolder

/-- What is read for a connection, which nothing is without one. -/
def onKnown (connection : Option Connection) (reads : Connection → Option Unit) : Option Unit :=
  match connection with
  | none => some ()
  | some connection => reads connection

/-- `handle_raknet_packet` on a datagram, `connection` being what
`get_raknet_connection` finds for the peer. -/
def datagramReads (inetNtop : List UInt8 → List UInt8) (stream : List UInt8)
    (connection : Option Connection) : Option Unit :=
  match stream.head? with
  | none => some ()
  | some packetId =>
      if packetId = idUnconnectedPing then readsOf getPacketUnconnectedPing stream
      else if packetId = idOpenConnectionRequest1 then
        readsOf getPacketOpenConnectionRequest1 stream
      else if packetId = idOpenConnectionRequest2 then
        readsOf (getPacketOpenConnectionRequest2 inetNtop) stream
      else if packetId = idAck then onKnown connection fun _ => readsOf getRecordsOnly stream
      else if packetId = idNack then onKnown connection fun _ => readsOf getRecordsOnly stream
      else if packetId &&& idFrameSet ≠ 0 then onKnown connection (frameSetReads stream)
      else some ()

/-! ## They are the reads of the handlers -/

section Frames

variable {environment : Environment} {connection : Connection} {server : RaknetServer}

theorem readsOf_isSome {α : Type} (reader : Reader α) (stream : List UInt8) :
    readsOf reader stream = some () ↔ (reader stream).isSome := by
  rw [readsOf]
  cases reader stream <;> simp

/-- A reply is queued unless a fragment has no room for a byte of it. -/
theorem addReply_isSome {reply : List UInt8} (some' : reply ≠ []) :
    (addToRaknetQueue { stream := reply, isFragmented := 0, reliability := reliabilityUnreliable }
      connection server).isSome ↔ maxSize connection.mtuSize ≠ 0 := by
  have indexed : indexFrame
      { stream := reply, isFragmented := 0, reliability := reliabilityUnreliable } connection =
      some ({ stream := reply, isFragmented := 0, reliability := reliabilityUnreliable },
        connection) := rfl
  have positive : 0 < reply.length := List.length_pos_iff.mpr some'
  have zero : (maxSize connection.mtuSize).toNat = 0 ↔ maxSize connection.mtuSize = 0 := by
    rw [← UInt16.toNat_inj]
    rfl
  rw [addToRaknetQueue, indexed]
  simp only [Option.bind_eq_bind, Option.bind_some]
  by_cases none : (maxSize connection.mtuSize).toNat = 0
  · rw [if_pos (by omega), if_pos none]
    simp [zero.mp none]
  · rw [if_neg none]
    have other : maxSize connection.mtuSize ≠ 0 := fun same => none (zero.mpr same)
    split <;> simp [other]

theorem handleConnectionRequest_isSome {stream : List UInt8} {address : MiscAddress} :
    (handleConnectionRequest environment stream address server).isSome ↔
      readsOf getPacketConnectionRequest stream = some () := by
  rw [readsOf_isSome, handleConnectionRequest]
  cases getPacketConnectionRequest stream <;> simp

theorem handleConnectedPing_isSome (environment : Environment) (server : RaknetServer)
    {stream : List UInt8} :
    (handleConnectedPing environment stream server).isSome ↔
      readsOf getPacketConnectedPing stream = some () := by
  rw [readsOf_isSome, handleConnectedPing]
  cases getPacketConnectedPing stream <;> simp

theorem handleWholeFrame_isSome {frame : MiscFrame} :
    (handleWholeFrame environment frame connection server).isSome ↔
      payloadReads frame.stream = some () ∧
        (answered frame.stream = true → maxSize connection.mtuSize ≠ 0) := by
  unfold handleWholeFrame payloadReads answered
  cases first : frame.stream.head? with
  | none => simp
  | some packetId =>
      simp only [Option.bind_eq_bind, Option.bind_some, Option.some.injEq, Bool.or_eq_true,
        decide_eq_true_eq]
      by_cases request : packetId = idConnectionRequest
      · rw [if_pos request, if_pos request, ← handleConnectionRequest_isSome]
        cases handled :
            handleConnectionRequest environment frame.stream connection.address server with
        | none => simp
        | some result =>
            have reply : result.1 ≠ [] := by
              obtain ⟨_, _, success⟩ := Option.bind_eq_some_iff.mp handled
              cases success
              exact List.cons_ne_nil _ _
            rw [Option.bind_some, addReply_isSome reply]
            simp [request]
      · rw [if_neg request, if_neg request]
        by_cases ping : packetId = idConnectedPing
        · rw [if_pos ping, if_pos ping,
            ← handleConnectedPing_isSome environment server]
          cases handled : handleConnectedPing environment frame.stream server with
          | none => simp
          | some result =>
              have reply : result.1 ≠ [] := by
                obtain ⟨_, _, success⟩ := Option.bind_eq_some_iff.mp handled
                cases success
                exact List.cons_ne_nil _ _
              rw [Option.bind_some, addReply_isSome reply]
              simp [ping]
        · rw [if_neg ping, if_neg ping]
          simp only [request, ping, or_self, false_implies, and_true, iff_true]
          split
          · rfl
          · split <;> rfl

theorem handleFrame_whole (frame : MiscFrame) :
    handleFrame environment frame connection server =
      match wholeFrame frame connection.frameHolder with
      | (frameHolder, none) => some ({ connection with frameHolder }, server)
      | (frameHolder, some whole) =>
          handleWholeFrame environment whole { connection with frameHolder } server := by
  unfold handleFrame wholeFrame
  split
  · dsimp only
    cases handleFragmentedFrame frame connection.frameHolder with
    | mk held output => cases output <;> rfl
  · rfl

/-- One frame: it is handled if its reads are inside and an answer to it has
room, and nothing that later reads depend on has changed. -/
theorem handleFrame_isSome (frame : MiscFrame) :
    (handleFrame environment frame connection server).isSome ↔
      ∀ whole, (wholeFrame frame connection.frameHolder).2 = some whole →
        payloadReads whole.stream = some () ∧
          (answered whole.stream = true → maxSize connection.mtuSize ≠ 0) := by
  rw [handleFrame_whole]
  cases wholeFrame frame connection.frameHolder with
  | mk frameHolder output =>
      cases output with
      | none => simp
      | some whole => simp [handleWholeFrame_isSome]

theorem handleFrame_keeps {frame : MiscFrame} {next : Connection} {nextServer : RaknetServer}
    (handled : handleFrame environment frame connection server = some (next, nextServer)) :
    next.mtuSize = connection.mtuSize ∧
      next.frameHolder = (wholeFrame frame connection.frameHolder).1 ∧
      nextServer.connections = server.connections := by
  refine ⟨(handleFrame_queues handled).mtuSize, ?_, (handleFrame_posts handled).connections⟩
  rw [handleFrame_whole] at handled
  cases shape : wholeFrame frame connection.frameHolder with
  | mk frameHolder output =>
      rw [shape] at handled
      cases output with
      | none =>
          cases handled
          rfl
      | some whole => exact (handleWholeFrame_receiver handled).frameHolder

/-- An answer that the fragments have no room for. -/
def Stops (mtuSize : UInt16) (output : Option MiscFrame) : Prop :=
  ∃ whole, output = some whole ∧ answered whole.stream = true ∧ maxSize mtuSize = 0

theorem framesReads_cons (mtuSize : UInt16) (frame : MiscFrame) (rest : List MiscFrame)
    (frameHolder : FrameHolder) :
    framesReads mtuSize (frame :: rest) frameHolder = some () ↔
      (∀ whole, (wholeFrame frame frameHolder).2 = some whole →
        payloadReads whole.stream = some ()) ∧
      (Stops mtuSize (wholeFrame frame frameHolder).2 ∨
        framesReads mtuSize rest (wholeFrame frame frameHolder).1 = some ()) := by
  rw [framesReads, Stops]
  cases wholeFrame frame frameHolder with
  | mk held output =>
      cases output with
      | none => simp
      | some whole =>
          simp only [Option.some.injEq, forall_eq', exists_eq_left', Option.bind_eq_bind]
          cases payloadReads whole.stream with
          | none => simp
          | some _ =>
              simp only [Option.bind_some, true_and]
              split
              · rename_i stops
                exact iff_of_true rfl (.inl stops)
              · rename_i goesOn
                exact (or_iff_right goesOn).symm

/-- Frames that are all handled are read inside their payloads. -/
theorem handleFrames_reads {address : MiscAddress} : ∀ (frames : List MiscFrame)
    (connection : Connection) (server : RaknetServer),
    hasRaknetConnection address server = true →
    (handleFrames environment address frames connection server).isSome →
    framesReads connection.mtuSize frames connection.frameHolder = some () := by
  intro frames
  induction frames with
  | nil => intro _ _ _ _; rfl
  | cons frame rest ih =>
      intro connection server connected success
      rw [handleFrames, if_pos connected] at success
      obtain ⟨result, success⟩ := Option.isSome_iff_exists.mp success
      obtain ⟨⟨next, nextServer⟩, handled, others⟩ := Option.bind_eq_some_iff.mp success
      obtain ⟨sameMtu, holder, table⟩ := handleFrame_keeps handled
      have each := (handleFrame_isSome frame).mp (Option.isSome_of_eq_some handled)
      have later := ih next nextServer (by rwa [hasRaknetConnection, table])
        (Option.isSome_of_eq_some others)
      rw [sameMtu, holder] at later
      exact (framesReads_cons _ _ _ _).mpr ⟨fun whole output => (each whole output).1, .inr later⟩

end Frames

section Datagrams

theorem readsOf_of_some {α : Type} {reader : Reader α} {stream : List UInt8}
    {result : α × List UInt8} (success : reader stream = some result) :
    readsOf reader stream = some () := by
  rw [readsOf, success, Option.map_some]

/-- What an answer is made of was read. -/
theorem readsOf_of_bind {α β : Type} {reader : Reader α} {stream : List UInt8}
    {next : α × List UInt8 → Option β} {answer : β}
    (success : (reader stream).bind next = some answer) : readsOf reader stream = some () := by
  obtain ⟨result, read, -⟩ := Option.bind_eq_some_iff.mp success
  exact readsOf_of_some read

/-- The records are read one by one, whatever becomes of them. -/
theorem getRecords_reads : ∀ {count : Nat} {packet : PacketAcknowledge} {bytes : List UInt8}
    {result : PacketAcknowledge × List UInt8}, getRecords count packet bytes = some result →
    ∃ records, readCount getRecord count bytes = some (records, result.2) := by
  intro count
  induction count with
  | zero =>
      intro packet bytes result success
      cases success
      exact ⟨[], rfl⟩
  | succ count ih =>
      intro packet bytes result success
      obtain ⟨⟨record, rest⟩, first, success⟩ := Option.bind_eq_some_iff.mp success
      obtain ⟨⟨stored, same⟩, store, success⟩ := Option.bind_eq_some_iff.mp success
      obtain ⟨written, -, kept⟩ := Option.bind_eq_some_iff.mp store
      cases kept
      obtain ⟨records, others⟩ := ih success
      refine ⟨record :: records, ?_⟩
      rw [readCount, bind_apply, first, Option.bind_some, bind_apply, others]
      rfl

theorem getPacketAcknowledge_reads {stream : List UInt8} {result : PacketAcknowledge × List UInt8}
    (success : getPacketAcknowledge stream = some result) :
    readsOf getRecordsOnly stream = some () := by
  obtain ⟨⟨recordCount, rest⟩, counted, success⟩ := Option.bind_eq_some_iff.mp success
  obtain ⟨records, read⟩ := getRecords_reads success
  have all : getRecordsOnly stream = some (records, result.2) :=
    Option.bind_eq_some_iff.mpr ⟨(recordCount, rest), counted, read⟩
  exact readsOf_of_some all

variable {environment : Environment} {connection : Connection} {server : RaknetServer}
  {stream : List UInt8}

theorem acknowledgedNumbers_reads {numbers : List UInt32}
    (acknowledged : acknowledgedNumbers stream = some numbers) :
    readsOf getRecordsOnly stream = some () := by
  obtain ⟨result, decoded, -⟩ := Option.bind_eq_some_iff.mp acknowledged
  exact getPacketAcknowledge_reads decoded

theorem handleAck_reads {next : Connection} (handled : handleAck stream connection = some next) :
    readsOf getRecordsOnly stream = some () := by
  obtain ⟨numbers, acknowledged, -⟩ := Option.bind_eq_some_iff.mp handled
  exact acknowledgedNumbers_reads acknowledged

theorem handleNack_reads {result : Connection × RaknetServer}
    (handled : handleNack stream connection server = some result) :
    readsOf getRecordsOnly stream = some () := by
  obtain ⟨numbers, acknowledged, -⟩ := Option.bind_eq_some_iff.mp handled
  exact acknowledgedNumbers_reads acknowledged

theorem handleFrameSet_reads {result : Connection × RaknetServer}
    (connected : hasRaknetConnection connection.address server = true)
    (handled : handleFrameSet environment stream connection server = some result) :
    frameSetReads stream connection = some () := by
  obtain ⟨⟨frameSet, rest⟩, decoded, handled⟩ := Option.bind_eq_some_iff.mp handled
  obtain ⟨received, windowed, handled⟩ := Option.bind_eq_some_iff.mp handled
  have sameMtu := (receiveSequenceNumber_address windowed).2.1
  obtain ⟨ackQueue, -, windowed⟩ := Option.bind_eq_some_iff.mp windowed
  obtain ⟨nackQueue, -, windowed⟩ := Option.bind_eq_some_iff.mp windowed
  cases windowed
  have reads := handleFrames_reads frameSet.frames _ server connected
    (Option.isSome_of_eq_some handled)
  exact Option.bind_eq_some_iff.mpr ⟨(frameSet, rest), decoded, reads⟩

theorem withConnection_reads {address : MiscAddress}
    {action : Connection → RaknetServer → Option (Connection × RaknetServer)}
    {reads : Connection → Option Unit} {next : RaknetServer}
    (each : ∀ connection result, hasRaknetConnection connection.address server = true →
      action connection server = some result → reads connection = some ())
    (handled : withConnection address action server = some next) :
    onKnown (getRaknetConnection address server) reads = some () := by
  unfold withConnection at handled
  cases found : getRaknetConnection address server with
  | none => rfl
  | some connection =>
      rw [found] at handled
      obtain ⟨result, acted, -⟩ := Option.map_eq_some_iff.mp handled
      refine each connection result ?_ acted
      have key := getRaknetConnection_key found
      have present := (hasRaknetConnection_iff address server).mpr ⟨connection, found⟩
      rw [hasRaknetConnection] at present ⊢
      rwa [← key] at present

/-- A datagram that is handled is read inside its bytes. -/
theorem dispatch_reads {α : Type} {configuration : Configuration} {address : MiscAddress}
    {podrum next : Podrum α}
    (handled : dispatch configuration stream address podrum = some next) :
    datagramReads configuration.inetNtop stream (getRaknetConnection address podrum.raknet) =
      some () := by
  unfold dispatch at handled
  unfold datagramReads
  cases first : stream.head? with
  | none => rfl
  | some packetId =>
      rw [first] at handled
      dsimp only at handled ⊢
      split at handled
      · rename_i ping
        obtain ⟨reply, answered, -⟩ := Option.map_eq_some_iff.mp handled
        rw [if_pos ping]
        exact readsOf_of_bind answered
      rename_i notPing
      rw [if_neg notPing]
      split at handled
      · rename_i request
        obtain ⟨reply, answered, -⟩ := Option.map_eq_some_iff.mp handled
        rw [if_pos request]
        exact readsOf_of_bind answered
      rename_i notRequest1
      rw [if_neg notRequest1]
      split at handled
      · rename_i request
        obtain ⟨reply, answered, -⟩ := Option.bind_eq_some_iff.mp handled
        rw [if_pos request]
        exact readsOf_of_bind answered
      rename_i notRequest2
      rw [if_neg notRequest2]
      split at handled
      · rename_i ack
        obtain ⟨raknet, acted, -⟩ := Option.map_eq_some_iff.mp handled
        rw [if_pos ack]
        refine withConnection_reads (fun connection result _ action => ?_) acted
        obtain ⟨after, acknowledged, -⟩ := Option.map_eq_some_iff.mp action
        exact handleAck_reads acknowledged
      rename_i notAck
      rw [if_neg notAck]
      split at handled
      · rename_i nack
        obtain ⟨raknet, acted, -⟩ := Option.map_eq_some_iff.mp handled
        rw [if_pos nack]
        exact withConnection_reads (fun _ _ _ action => handleNack_reads action) acted
      rename_i notNack
      rw [if_neg notNack]
      split at handled
      · rename_i frameSet
        obtain ⟨raknet, acted, -⟩ := Option.map_eq_some_iff.mp handled
        rw [if_pos frameSet]
        exact withConnection_reads (fun _ _ => handleFrameSet_reads) acted
      · rename_i other
        rw [if_neg other]

end Datagrams

end PodrumRakNet.DatagramReads

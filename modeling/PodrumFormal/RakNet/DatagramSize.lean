import PodrumFormal.RakNet.Recovery
import PodrumFormal.RakNet.Server

/-!
# The size of a frame set datagram

The pending frames stay within `mtu_size - 36` bytes, a fragment that is sent
alone within a little more, and what a NACK sends again is as long as it was.
So no frame set exceeds the MTU less its 28 bytes of IP and UDP header.
-/

set_option autoImplicit false

namespace PodrumRakNet.DatagramSize

open EventRun PodrumStream.BinaryStream PodrumRakNet.Frame PodrumRakNet.FrameSet
open PodrumRakNet.Packet PodrumRakNet.Connections PodrumRakNet.SendQueue PodrumRakNet.SendLedger
open PodrumRakNet.Fragments PodrumRakNet.Handler PodrumRakNet.NackRecovery
open PodrumRakNet.Recovery PodrumRakNet.Server

def frameSetSize (packet : PacketFrameSet) : Nat := 4 + (packet.frames.map getFrameSize).sum

theorem putPacketFrameSet_length (packet : PacketFrameSet) :
    (putPacketFrameSet packet).length = frameSetSize packet := by
  have frames : (packet.frames.flatMap putMiscFrame).length =
      (packet.frames.map getFrameSize).sum := by
    rw [List.length_flatMap]
    simp only [putMiscFrame_length]
  rw [putPacketFrameSet, List.length_append, List.length_append, frames, putUnsignedTriadLe_length,
    frameSetSize]
  rfl

theorem queueLimit_toNat {mtuSize : UInt16} (mtuFits : 36 ≤ mtuSize.toNat) :
    queueLimit mtuSize = mtuSize.toNat - 36 := by
  have above : (36 : UInt64) ≤ mtuSize.toUInt64 := by
    rw [UInt64.le_iff_toNat_le, UInt16.toNat_toUInt64]
    exact mtuFits
  rw [queueLimit, UInt64.toNat_sub_of_le _ _ above, UInt16.toNat_toUInt64]
  rfl

/-- The header of a frame takes at most 13 bytes, with the fields of a fragment
at most 23. -/
theorem getFrameSize_le (frame : MiscFrame) :
    getFrameSize frame ≤ 13 + frame.stream.length + (if frame.isFragmented = 0 then 0 else 10) := by
  have flag : (frame.isFragmented != 0) = !decide (frame.isFragmented = 0) := rfl
  simp only [getFrameSize, flag]
  by_cases whole : frame.isFragmented = 0 <;> simp only [whole] <;> split <;> split <;> split <;>
    simp <;> omega

theorem piece_length_le (payload : List UInt8) (maxSize i : Nat) :
    (piece payload maxSize i).length ≤ maxSize := by
  have pieceFits : pieceSize payload.length maxSize i ≤ maxSize := by
    simp only [pieceSize]
    split
    · exact Nat.sub_le _ _
    · exact Nat.le_refl _
  exact Nat.le_trans (List.length_take_le _ _) pieceFits

/-! ## One connection -/

/-- What is pending and what may be sent again. -/
structure Sized (mtuSize : UInt16) (connection : Connection) : Prop where
  sameMtu : connection.mtuSize = mtuSize
  pending : frameSetSize connection.queue + 36 ≤ mtuSize.toNat
  recovered : ∀ set ∈ connection.recoveryQueue.slots, frameSetSize set + 28 ≤ mtuSize.toNat

/-- Every frame set sent in between fits the MTU with its headers. -/
def Fit (mtuSize : UInt16) (before after : RaknetServer) : Prop :=
  ∃ more, after.sent = before.sent ++ more ∧
    ∀ entry ∈ more, ∀ set, entry.2 = .frameSet set →
      (putPacketFrameSet set).length + 28 ≤ mtuSize.toNat

section Connection

variable {mtuSize : UInt16}

theorem Fit.refl (server : RaknetServer) : Fit mtuSize server server := ⟨[], by simp, by simp⟩

theorem Fit.trans {first second third : RaknetServer} (left : Fit mtuSize first second)
    (right : Fit mtuSize second third) : Fit mtuSize first third := by
  rcases left with ⟨sets, before, each⟩
  rcases right with ⟨more, after, others⟩
  refine ⟨sets ++ more, by rw [after, before, List.append_assoc], fun entry member => ?_⟩
  rcases List.mem_append.mp member with early | late
  · exact each entry early
  · exact others entry late

theorem fit_sendData (address : MiscAddress) (server : RaknetServer) {set : PacketFrameSet}
    (fits : frameSetSize set + 28 ≤ mtuSize.toNat) :
    Fit mtuSize server (sendData address (.frameSet set) server) := by
  refine ⟨[(address, .frameSet set)], rfl, List.forall_mem_singleton.mpr fun other same => ?_⟩
  cases same
  rwa [putPacketFrameSet_length]

/-- Sending what is pending, however it came to be within 8 bytes more than a
queue may hold. -/
theorem sendRaknetQueue_sized {connection : Connection} (server : RaknetServer)
    (mtuFits : 61 ≤ mtuSize.toNat) (sameMtu : connection.mtuSize = mtuSize)
    (pending : frameSetSize connection.queue + 28 ≤ mtuSize.toNat)
    (recovered : ∀ set ∈ connection.recoveryQueue.slots, frameSetSize set + 28 ≤ mtuSize.toNat) :
    Sized mtuSize (sendRaknetQueue connection server).1 ∧
      Fit mtuSize server (sendRaknetQueue connection server).2 ∧
      (sendRaknetQueue connection server).1.queue.frames = [] := by
  have empty : 4 + 36 ≤ mtuSize.toNat := by omega
  unfold sendRaknetQueue
  split
  · refine ⟨⟨sameMtu, empty, fun set member => ?_⟩, fit_sendData _ server pending, rfl⟩
    rcases KeyedArray.mem_append member with old | rfl
    · exact recovered set old
    · exact pending
  · rename_i none
    have frames : connection.queue.frames = [] := List.length_eq_zero_iff.mp (by omega)
    refine ⟨⟨sameMtu, ?_, recovered⟩, Fit.refl server, frames⟩
    rw [frameSetSize, frames]
    exact empty

theorem Sized.send {connection : Connection} (sized : Sized mtuSize connection)
    (server : RaknetServer) (mtuFits : 61 ≤ mtuSize.toNat) :
    Sized mtuSize (sendRaknetQueue connection server).1 ∧
      Fit mtuSize server (sendRaknetQueue connection server).2 ∧
      (sendRaknetQueue connection server).1.queue.frames = [] :=
  have pending := sized.pending
  sendRaknetQueue_sized server mtuFits sized.sameMtu (by omega) sized.recovered

theorem frameSetSize_push (frame : MiscFrame) (connection : Connection) :
    frameSetSize (pushFrame frame connection).queue = queueSize frame connection.queue := by
  simp only [frameSetSize, pushFrame, queueSize, List.map_append, List.sum_append, List.map_cons,
    List.map_nil, List.sum_cons, List.sum_nil]
  omega

/-- The flush before a frame that does not fit leaves room for it. -/
theorem Sized.flush {connection : Connection} (sized : Sized mtuSize connection)
    (frame : MiscFrame) (server : RaknetServer) (mtuFits : 61 ≤ mtuSize.toNat) :
    Sized mtuSize (flushIfFull frame connection server).1 ∧
      Fit mtuSize server (flushIfFull frame connection server).2 ∧
      (queueSize frame (flushIfFull frame connection server).1.queue + 36 ≤ mtuSize.toNat ∨
        queueSize frame (flushIfFull frame connection server).1.queue =
          4 + getFrameSize frame) := by
  have limit := queueLimit_toNat (show 36 ≤ mtuSize.toNat by omega)
  unfold flushIfFull
  split
  · obtain ⟨sent, fit, empty⟩ := sized.send server mtuFits
    refine ⟨sent, fit, Or.inr ?_⟩
    rw [queueSize, empty]
    rfl
  · rename_i room
    rw [sized.sameMtu, limit] at room
    exact ⟨sized, Fit.refl server, Or.inl (by dsimp only; omega)⟩

/-- A frame that is sent at once may be 8 bytes longer than one that waits. -/
theorem Sized.append {connection : Connection} (sized : Sized mtuSize connection)
    (frame : MiscFrame) (opts : Bool) (server : RaknetServer) (mtuFits : 61 ≤ mtuSize.toNat)
    (fits : 4 + getFrameSize frame + (if opts then 28 else 36) ≤ mtuSize.toNat) :
    Sized mtuSize (appendRaknetFrame frame opts connection server).1 ∧
      Fit mtuSize server (appendRaknetFrame frame opts connection server).2 := by
  obtain ⟨flushed, fit, room⟩ := sized.flush frame server mtuFits
  rw [← frameSetSize_push] at room
  simp only [appendRaknetFrame]
  split at fits
  · rename_i atOnce
    rw [if_pos atOnce]
    have pending : frameSetSize
        (pushFrame frame (flushIfFull frame connection server).1).queue + 28 ≤ mtuSize.toNat := by
      omega
    have sameMtu : (pushFrame frame (flushIfFull frame connection server).1).mtuSize = mtuSize :=
      flushed.sameMtu
    obtain ⟨sent, sendFit, _⟩ := sendRaknetQueue_sized (flushIfFull frame connection server).2
      mtuFits sameMtu pending flushed.recovered
    exact ⟨sent, fit.trans sendFit⟩
  · rename_i waits
    rw [if_neg waits]
    have pending : frameSetSize
        (pushFrame frame (flushIfFull frame connection server).1).queue + 36 ≤ mtuSize.toNat := by
      omega
    exact ⟨⟨flushed.sameMtu, pending, flushed.recovered⟩, fit⟩

theorem Sized.count {connection : Connection} (sized : Sized mtuSize connection)
    (reliability : UInt8) : Sized mtuSize (countReliable reliability connection) := by
  unfold countReliable
  split
  · exact ⟨sized.sameMtu, sized.pending, sized.recovered⟩
  · exact sized

/-- Induction on the turns of the fragment loop. -/
theorem addFragment_sized (frame : MiscFrame) {size : Nat} (mtuFits : 61 ≤ mtuSize.toNat)
    (sizeFits : size + 60 ≤ mtuSize.toNat) (indices : List Nat) :
    ∀ state : Connection × RaknetServer, Sized mtuSize state.1 →
      Sized mtuSize (indices.foldl (addFragment frame size) state).1 ∧
        Fit mtuSize state.2 (indices.foldl (addFragment frame size) state).2 := by
  induction indices with
  | nil => exact fun state sized => ⟨sized, Fit.refl _⟩
  | cons i rest ih =>
      intro state sized
      have pieceFits := piece_length_le frame.stream size i
      have bound := getFrameSize_le (compoundEntry frame size i state.1)
      have flag : (compoundEntry frame size i state.1).isFragmented = 1 := rfl
      have payload : (compoundEntry frame size i state.1).stream = piece frame.stream size i := rfl
      rw [flag, payload, if_neg (by decide)] at bound
      have added : Sized mtuSize (addFragment frame size state i).1 ∧
          Fit mtuSize state.2 (addFragment frame size state i).2 :=
        (sized.count frame.reliability).append (compoundEntry frame size i state.1) true state.2
          mtuFits (by rw [if_pos rfl]; omega)
      obtain ⟨others, rest⟩ := ih (addFragment frame size state i) added.1
      rw [List.foldl_cons]
      exact ⟨others, added.2.trans rest⟩

theorem addToRaknetQueue_sized {frame : MiscFrame} {connection : Connection}
    {server : RaknetServer} {next : Connection × RaknetServer} (mtuFits : 61 ≤ mtuSize.toNat)
    (whole : frame.isFragmented = 0) (sized : Sized mtuSize connection)
    (success : addToRaknetQueue frame connection server = some next) :
    Sized mtuSize next.1 ∧ Fit mtuSize server next.2 := by
  simp only [addToRaknetQueue] at success
  obtain ⟨⟨indexed, counted⟩, indexing, success⟩ := Option.bind_eq_some_iff.mp success
  obtain ⟨sameFlag, countedSized⟩ : indexed.isFragmented = 0 ∧ Sized mtuSize counted := by
    obtain ⟨-, cell, -, rfl, rfl⟩ | ⟨-, -, cell, -, rfl, rfl⟩ | ⟨-, rfl, rfl⟩ :=
      indexFrame_cases indexing
    · exact ⟨whole, sized.sameMtu, sized.pending, sized.recovered⟩
    · exact ⟨whole, sized.sameMtu, sized.pending, sized.recovered⟩
    · exact ⟨whole, sized⟩
  have exactSize := maxSize_toNat (Nat.le_of_succ_le mtuFits)
  rw [← countedSized.sameMtu] at exactSize
  have sameMtu := congrArg UInt16.toNat countedSized.sameMtu
  dsimp only at success
  split at success
  · split at success
    · cases success
    · obtain rfl := Option.some.inj success
      have sizeFits : (maxSize counted.mtuSize).toNat + 60 ≤ mtuSize.toNat := by omega
      obtain ⟨fragmented, fit⟩ := addFragment_sized indexed mtuFits sizeFits
        (List.range (frameCount indexed.stream.length (maxSize counted.mtuSize).toNat))
        (counted, server) countedSized
      exact ⟨⟨fragmented.sameMtu, fragmented.pending, fragmented.recovered⟩, fit⟩
  · rename_i short
    obtain rfl := Option.some.inj success
    have bound := getFrameSize_le (numberReliable indexed counted)
    have flag : (numberReliable indexed counted).isFragmented = 0 := sameFlag
    have payload : (numberReliable indexed counted).stream = indexed.stream := rfl
    rw [flag, payload, if_pos rfl] at bound
    exact (countedSized.count indexed.reliability).append _ false server mtuFits
      (by rw [if_neg (by decide)]; omega)

theorem retransmit_sized (state : Connection × RaknetServer) (number : UInt32)
    (sized : Sized mtuSize state.1) :
    Sized mtuSize (retransmit state number).1 ∧
      Fit mtuSize state.2 (retransmit state number).2 := by
  have deducted : ∀ set ∈ (state.1.recoveryQueue.deduct number).slots,
      frameSetSize set + 28 ≤ mtuSize.toNat :=
    fun set member => sized.recovered set ((KeyedArray.mem_deduct set number _).mp member).1
  cases finding : state.1.recoveryQueue.find number with
  | none =>
      rw [retransmit_absent (KeyedArray.find_none.mp finding)]
      exact ⟨sized, Fit.refl _⟩
  | some frameSet =>
      have fits := sized.recovered frameSet (KeyedArray.find_some finding).1
      by_cases resendable : Resendable frameSet
      · rw [retransmit_resent finding resendable]
        refine ⟨⟨sized.sameMtu, sized.pending, fun set member => ?_⟩, fit_sendData _ _ fits⟩
        rcases KeyedArray.mem_append member with old | rfl
        · exact deducted set old
        · exact fits
      · rw [retransmit_dropped finding resendable]
        exact ⟨⟨sized.sameMtu, sized.pending, deducted⟩, Fit.refl _⟩

theorem foldl_retransmit_sized (numbers : List UInt32) :
    ∀ state : Connection × RaknetServer, Sized mtuSize state.1 →
      Sized mtuSize (numbers.foldl retransmit state).1 ∧
        Fit mtuSize state.2 (numbers.foldl retransmit state).2 := by
  induction numbers with
  | nil => exact fun state sized => ⟨sized, Fit.refl _⟩
  | cons number rest ih =>
      intro state sized
      obtain ⟨again, fit⟩ := retransmit_sized state number sized
      obtain ⟨others, rest⟩ := ih (retransmit state number) again
      exact ⟨others, fit.trans rest⟩

end Connection

/-! ## Runs on one connection -/

inductive OwnerEvent where
  | add (frame : MiscFrame)
  | flush
  | disconnect
  | nack (stream : List UInt8)

def ownerStep (address : MiscAddress) (server : RaknetServer) : OwnerEvent → Option RaknetServer
  | .add frame => withConnection address (addToRaknetQueue frame) server
  | .flush => withConnection address
      (fun connection server => some (sendRaknetQueue connection server)) server
  | .disconnect => some (disconnectRaknetClient address server)
  | .nack stream => withConnection address (handleNack stream) server

def unfragmented : OwnerEvent → Prop
  | .add frame => frame.isFragmented = 0
  | _ => True

section Run

variable {address : MiscAddress} {mtuSize : UInt16} {server next : RaknetServer}

def OwnerSized (address : MiscAddress) (mtuSize : UInt16) (server : RaknetServer) : Prop :=
  ∀ connection, getRaknetConnection address server = some connection → Sized mtuSize connection

theorem ownerSized_store {connection : Connection} {after : Connection × RaknetServer}
    (found : getRaknetConnection address server = some connection)
    (sending : Sending (connection, server) after) (sized : Sized mtuSize after.1) :
    OwnerSized address mtuSize (storeConnection after) := by
  rcases sending with ⟨sets, sends⟩
  have table : after.2.connections = server.connections := by
    rw [sends.server]
  intro stored lookup
  rw [getRaknetConnection_store found sends.owner table] at lookup
  exact Option.some.inj lookup ▸ sized

theorem withConnection_sized
    {action : Connection → RaknetServer → Option (Connection × RaknetServer)}
    (sending : ∀ connection after, action connection server = some after →
      Sending (connection, server) after)
    (keeps : ∀ connection after, Sized mtuSize connection →
      action connection server = some after → Sized mtuSize after.1 ∧ Fit mtuSize server after.2)
    (sized : OwnerSized address mtuSize server)
    (success : withConnection address action server = some next) :
    OwnerSized address mtuSize next ∧ Fit mtuSize server next := by
  simp only [withConnection] at success
  split at success
  · rename_i connection found
    obtain ⟨after, acted, rfl⟩ := Option.map_eq_some_iff.mp success
    obtain ⟨afterSized, fit⟩ := keeps connection after (sized connection found) acted
    exact ⟨ownerSized_store found (sending connection after acted) afterSized, fit⟩
  · cases success
    exact ⟨sized, Fit.refl server⟩

theorem disconnect_sized (mtuFits : 61 ≤ mtuSize.toNat)
    (sized : OwnerSized address mtuSize server) :
    OwnerSized address mtuSize (disconnectRaknetClient address server) ∧
      Fit mtuSize server (disconnectRaknetClient address server) := by
  refine ⟨fun connection found => ?_, ?_⟩
  · simp only [disconnectRaknetClient] at found
    rw [getRaknetConnection_remove] at found
    cases found
  · have size : getFrameSize disconnectFrame = 4 := by decide
    simp only [disconnectRaknetClient]
    split
    · rename_i connection found
      have fit := ((sized connection found).append disconnectFrame true
        (notifyThreaded address server) mtuFits (by rw [size, if_pos rfl]; omega)).2
      generalize appendRaknetFrame disconnectFrame true connection (notifyThreaded address server) =
        flushed at fit ⊢
      exact fit
    · exact Fit.refl server

theorem ownerStep_sized {event : OwnerEvent} (mtuFits : 61 ≤ mtuSize.toNat)
    (whole : unfragmented event) (sized : OwnerSized address mtuSize server)
    (stepped : ownerStep address server event = some next) :
    OwnerSized address mtuSize next ∧ Fit mtuSize server next := by
  cases event with
  | add frame =>
      exact withConnection_sized (fun _ _ => addToRaknetQueue_sending)
        (fun _ _ => addToRaknetQueue_sized mtuFits whole) sized stepped
  | flush =>
      simp only [ownerStep] at stepped
      refine withConnection_sized ?_ ?_ sized stepped
      · intro connection after sent
        obtain rfl := Option.some.inj sent
        exact sendRaknetQueue_sending connection server
      · intro connection after connectionSized sent
        obtain rfl := Option.some.inj sent
        obtain ⟨sentSized, fit, _⟩ := connectionSized.send server mtuFits
        exact ⟨sentSized, fit⟩
  | disconnect =>
      cases stepped
      exact disconnect_sized mtuFits sized
  | nack stream =>
      refine withConnection_sized (fun _ _ => handleNack_sending) ?_ sized stepped
      intro connection after connectionSized handled
      obtain ⟨numbers, _, result⟩ := Option.bind_eq_some_iff.mp handled
      obtain rfl := Option.some.inj result
      exact foldl_retransmit_sized numbers (connection, server) connectionSized

end Run

theorem frameSet_fits_mtu (address : MiscAddress) (mtuSize : UInt16)
    (mtuFits : 61 ≤ mtuSize.toNat) (server : RaknetServer)
    (absent : hasRaknetConnection address server = false) (events : List OwnerEvent)
    (whole : ∀ event ∈ events, unfragmented event) (final : RaknetServer)
    (returned : run (ownerStep address) events (addRaknetConnection address mtuSize server) =
      some final) :
    ∃ more, final.sent = server.sent ++ more ∧
      ∀ entry ∈ more, ∀ set, entry.2 = .frameSet set →
        (putPacketFrameSet set).length + 28 ≤ mtuSize.toNat := by
  have opened : OwnerSized address mtuSize (addRaknetConnection address mtuSize server) := by
    intro connection found
    rw [getRaknetConnection_add mtuSize absent] at found
    obtain rfl := Option.some.inj found
    refine ⟨rfl, ?_, fun set member => absurd member List.not_mem_nil⟩
    have empty : frameSetSize (newConnection address mtuSize).queue = 4 := rfl
    omega
  have along := run_preserves (fun history state => (∀ event ∈ history, unfragmented event) →
    OwnerSized address mtuSize state ∧ Fit mtuSize server state) ?step events [] _ final
    (fun _ => ⟨opened, Fit.refl server⟩) returned
  case step =>
    intro history state event next before stepped each
    obtain ⟨sized, fit⟩ := before fun other member => each other (List.mem_append_left _ member)
    obtain ⟨nextSized, more⟩ :=
      ownerStep_sized mtuFits (each event (by simp)) sized stepped
    exact ⟨nextSized, fit.trans more⟩
  exact (along whole).2

/-- Whole frames up to the limit, fragments, a retransmission and the
notification of the end. -/
def ownerRun : List OwnerEvent :=
  [.add { reliability := 2, stream := [1] }, .add { stream := [2] }, .flush,
    .add { reliability := 4, stream := [3, 4, 5] }, .nack [0xa0, 0, 1, 1, 1, 0, 0], .disconnect]

theorem frameSet_fits_mtu_smallest :
    ∃ final, run (ownerStep ⟨4, [0x31], 19132⟩) ownerRun
        (addRaknetConnection ⟨4, [0x31], 19132⟩ 61 {}) = some final ∧
      ∃ more, final.sent = [] ++ more ∧
        ∀ entry ∈ more, ∀ set, entry.2 = .frameSet set →
          (putPacketFrameSet set).length + 28 ≤ (61 : UInt16).toNat := by
  have computed : (run (ownerStep ⟨4, [0x31], 19132⟩) ownerRun
      (addRaknetConnection ⟨4, [0x31], 19132⟩ 61 {})).isSome := by decide
  obtain ⟨final, returned⟩ := Option.isSome_iff_exists.mp computed
  refine ⟨final, returned, frameSet_fits_mtu ⟨4, [0x31], 19132⟩ 61 (by decide) {} (by decide)
    ownerRun ?_ final returned⟩
  simp [ownerRun, unfragmented]

end PodrumRakNet.DatagramSize

import PodrumFormal.RakNet.Assembly
import PodrumFormal.RakNet.AckSafety
import PodrumFormal.RakNet.DatagramSize

/-!
# The frames of a sender's messages

Over any run of one side of a link, with retransmissions, every frame that is
put out is a message or a fragment of one, and all frames of each message are
put out.  Indices lose their upper bits on the wire, payloads nothing.
-/

set_option autoImplicit false

namespace PodrumRakNet.SentMessages

open ByteReader Endian PodrumStream.BinaryStream PodrumRakNet.Frame PodrumRakNet.FrameSet
open PodrumRakNet.Packet PodrumRakNet.Connections PodrumRakNet.SendQueue PodrumRakNet.SendLedger
open PodrumRakNet.Fragments PodrumRakNet.Handler PodrumRakNet.NackRecovery PodrumRakNet.Recovery
open PodrumRakNet.Reassembly PodrumRakNet.Assembly

/-! ## Frames on the wire -/

/-- What the header can say of a frame, its indices apart. -/
structure Carriable (frame : MiscFrame) : Prop where
  reliability : frame.reliability.toNat ≤ 7
  stream : frame.stream.length < 8192

/-- The frame with the 24 bits of each index that are on the wire. -/
def truncated (frame : MiscFrame) : MiscFrame :=
  { frame with
    reliableFrameIndex := wireNumber frame.reliableFrameIndex
    sequencedFrameIndex := wireNumber frame.sequencedFrameIndex
    orderedFrameIndex := wireNumber frame.orderedFrameIndex }

/-- The frame as it arrives. -/
def received (frame : MiscFrame) : MiscFrame := wireFrame (truncated frame)

theorem littleBytes_mod (width value : Nat) :
    littleBytes width (value % 256 ^ width) = littleBytes width value := by
  rw [← littleValue_littleBytes]
  have same := littleBytes_littleValue (littleBytes width value)
  rwa [littleBytes_length] at same

theorem putUnsignedTriadLe_wireNumber (number : UInt32) :
    putUnsignedTriadLe (wireNumber number) = putUnsignedTriadLe number := by
  rw [putUnsignedTriadLe, wireNumber_toNat]
  exact littleBytes_mod 3 number.toNat

theorem putMiscFrame_truncated (frame : MiscFrame) :
    putMiscFrame (truncated frame) = putMiscFrame frame := by
  simp only [putMiscFrame, truncated, putUnsignedTriadLe_wireNumber]
  rfl

theorem encodable_truncated {frame : MiscFrame} (carriable : Carriable frame) :
    Encodable (truncated frame) := by
  have small (number : UInt32) : (wireNumber number).toNat < 2 ^ 24 := by
    rw [wireNumber_toNat]
    exact Nat.mod_lt _ (by decide)
  exact ⟨carriable.reliability, small _, small _, small _, carriable.stream⟩

/-- Whatever their indices, the frames of a frame set arrive. -/
theorem getPacketFrameSet_received (packet : PacketFrameSet)
    (carriable : ∀ frame ∈ packet.frames, Carriable frame) :
    getPacketFrameSet (putPacketFrameSet packet) =
      some (⟨wireNumber packet.sequenceNumber, packet.frames.map received⟩, []) := by
  have small : (wireNumber packet.sequenceNumber).toNat < 2 ^ 24 := by
    rw [wireNumber_toNat]
    exact Nat.mod_lt _ (by decide)
  have same : putPacketFrameSet packet =
      putPacketFrameSet ⟨wireNumber packet.sequenceNumber, packet.frames.map truncated⟩ := by
    simp only [putPacketFrameSet, putUnsignedTriadLe_wireNumber, List.flatMap_map,
      putMiscFrame_truncated]
  rw [same, getPacketFrameSet_putPacketFrameSet _ small, List.map_map]
  · rfl
  · intro frame member
    obtain ⟨original, listed, rfl⟩ := List.mem_map.mp member
    exact encodable_truncated (carriable original listed)

theorem received_isFragmented (frame : MiscFrame) :
    (received frame).isFragmented = 0 ↔ frame.isFragmented = 0 := by
  by_cases whole : frame.isFragmented = 0 <;> simp [received, wireFrame, truncated, whole]

/-! ## What is put out for a message -/

/-- A message as its frames arrive: one frame, or its fragments. -/
inductive Sent where
  | whole (frame : MiscFrame) (unsplit : frame.isFragmented = 0)
  | split (compound : Compound)

def Sent.frames : Sent → List MiscFrame
  | .whole frame _ => [frame]
  | .split compound => compound.fragments

def Sent.payload : Sent → List UInt8
  | .whole frame _ => frame.stream
  | .split compound => compound.payload

def Sent.compound? : Sent → Option Compound
  | .whole _ _ => none
  | .split compound => some compound

/-- The message is too long for one frame. -/
def Long (mtuSize : UInt16) (message : MiscFrame) : Prop :=
  mtuSize.toNat - 60 < message.stream.length

instance (mtuSize : UInt16) (message : MiscFrame) : Decidable (Long mtuSize message) :=
  inferInstanceAs (Decidable (_ < _))

/-- What `add_to_raknet_queue` is called with: a whole frame that its header
and a 32-bit count of fragments can describe. -/
structure Sendable (mtuSize : UInt16) (message : MiscFrame) : Prop where
  whole : message.isFragmented = 0
  reliability : message.reliability.toNat ≤ 7
  fewer : message.stream.length / (mtuSize.toNat - 60) + 1 < 2 ^ 32

section Built

variable {message indexed : MiscFrame} {connection counted next : Connection}
  {server nextServer : RaknetServer}

theorem fragmentRun_received (frame : MiscFrame) (maxSize : Nat) (connection : Connection)
    (fewer : frameCount frame.stream.length maxSize < 2 ^ 32) :
    FragmentRun connection.compoundId.toUInt16 (frameCount frame.stream.length maxSize)
      fun i => received (fragmentAt frame maxSize connection i) where
  fits := fewer
  id := fragmentAt_compoundId frame maxSize connection
  index _ := rfl
  size _ := rfl

/-- The fragments of a long message. -/
def builtCompound (frame : MiscFrame) (maxSize : Nat) (connection : Connection)
    (fewer : frameCount frame.stream.length maxSize < 2 ^ 32) : Compound where
  compoundId := connection.compoundId.toUInt16
  count := frameCount frame.stream.length maxSize
  fragment i := received (fragmentAt frame maxSize connection i)
  numbered := fragmentRun_received frame maxSize connection fewer
  positive := Nat.succ_pos _
  fragmented _ := show (1 : UInt8) ≠ 0 by decide

theorem builtCompound_payload (frame : MiscFrame) {maxSize : Nat} (connection : Connection)
    (fewer : frameCount frame.stream.length maxSize < 2 ^ 32) (positive : 0 < maxSize) :
    (builtCompound frame maxSize connection fewer).payload = frame.stream := by
  rw [Compound.payload, Compound.fragments, fragmentList, List.map_map]
  exact flatten_pieces frame.stream maxSize positive

/-- All that the frames built for a message are. -/
structure Built (mtuSize : UInt16) (message : MiscFrame) (compoundId : UInt32)
    (frames : List MiscFrame) (sent : Sent) : Prop where
  arrive : frames.map received = sent.frames
  payload : sent.payload = message.stream
  carriable : ∀ frame ∈ frames, Carriable frame
  split : ∀ compound, sent.compound? = some compound → compound.compoundId = compoundId.toUInt16
  long : sent.compound?.isSome ↔ Long mtuSize message

theorem built_sent {mtuSize : UInt16} (mtuFits : 61 ≤ mtuSize.toNat) (short : mtuSize.toNat ≤ 8251)
    (sendable : Sendable mtuSize message) (sameMtu : connection.mtuSize = mtuSize)
    (indexing : indexFrame message connection = some (indexed, counted)) :
    ∃ sent, Built mtuSize message connection.compoundId (builtFrames indexed counted) sent := by
  obtain ⟨sameId, sameStream⟩ := indexFrame_compoundId indexing
  have countedMtu : counted.mtuSize = mtuSize :=
    (indexFrame_receiver indexing).1.mtuSize.trans sameMtu
  have size : (maxSize counted.mtuSize).toNat = mtuSize.toNat - 60 := by
    rw [countedMtu, maxSize_toNat (Nat.le_of_succ_le mtuFits)]
  have whole := SendRun.indexFrame_whole indexing
  have sameReliability : indexed.reliability = message.reliability := by rw [whole]
  have sameFlag : indexed.isFragmented = message.isFragmented := by rw [whole]
  have longIff : indexed.stream.length > (maxSize counted.mtuSize).toNat ↔ Long mtuSize message := by
    rw [size, sameStream, Long]
  by_cases long : indexed.stream.length > (maxSize counted.mtuSize).toNat
  · have fewer : frameCount indexed.stream.length (maxSize counted.mtuSize).toNat < 2 ^ 32 := by
      rw [size, sameStream]
      exact sendable.fewer
    refine ⟨.split (builtCompound indexed (maxSize counted.mtuSize).toNat counted fewer), ?_, ?_,
      ?_, ?_, iff_of_true rfl (longIff.mp long)⟩
    · rw [builtFrames_long indexed counted long, fragmentList, List.map_map]
      rfl
    · rw [← sameStream]
      exact builtCompound_payload indexed counted fewer (by rw [size]; omega)
    · intro frame member
      rw [builtFrames_long indexed counted long] at member
      obtain ⟨i, -, rfl⟩ := mem_fragmentList.mp member
      refine ⟨?_, ?_⟩
      · exact sameReliability ▸ sendable.reliability
      · have bound := DatagramSize.piece_length_le indexed.stream (maxSize counted.mtuSize).toNat i
        have stream : (fragmentAt indexed (maxSize counted.mtuSize).toNat counted i).stream =
            piece indexed.stream (maxSize counted.mtuSize).toNat i := rfl
        rw [stream]
        omega
    · rintro compound ⟨⟩
      rw [← sameId]
      rfl
  · have frames : builtFrames indexed counted = [numberReliable indexed counted] := by
      simp only [builtFrames, if_neg long]
    have unsplit : (received (numberReliable indexed counted)).isFragmented = 0 := by
      rw [received_isFragmented]
      exact sameFlag.trans sendable.whole
    refine ⟨.whole (received (numberReliable indexed counted)) unsplit, ?_, sameStream, ?_, ?_,
      iff_of_false Bool.false_ne_true fun other => long (longIff.mpr other)⟩
    · rw [frames]
      rfl
    · intro frame member
      rw [frames] at member
      obtain rfl := List.mem_singleton.mp member
      refine ⟨sameReliability ▸ sendable.reliability, ?_⟩
      have stream : (numberReliable indexed counted).stream = indexed.stream := rfl
      rw [stream]
      omega
    · rintro compound ⟨⟩

/-- A compound id is used up by a long message. -/
theorem addToRaknetQueue_compoundId {mtuSize : UInt16} (mtuFits : 61 ≤ mtuSize.toNat)
    (sameMtu : connection.mtuSize = mtuSize)
    (success : addToRaknetQueue message connection server = some (next, nextServer)) :
    next.compoundId = connection.compoundId + (if Long mtuSize message then 1 else 0) := by
  simp only [addToRaknetQueue] at success
  obtain ⟨⟨indexed, counted⟩, indexing, success⟩ := Option.bind_eq_some_iff.mp success
  obtain ⟨sameId, sameStream⟩ := indexFrame_compoundId indexing
  have countedMtu : counted.mtuSize = mtuSize :=
    (indexFrame_receiver indexing).1.mtuSize.trans sameMtu
  have size : (maxSize counted.mtuSize).toNat = mtuSize.toNat - 60 := by
    rw [countedMtu, maxSize_toNat (Nat.le_of_succ_le mtuFits)]
  dsimp only at success
  rw [size, sameStream] at success
  split at success
  · rename_i long
    split at success
    · cases success
    · have loop := fragmentLoop_ledger indexed (mtuSize.toNat - 60) (Ledger.open counted server)
        (frameCount indexed.stream.length (mtuSize.toNat - 60))
      obtain ⟨after, -, -, same⟩ := loop
      have result : (addFragments indexed (mtuSize.toNat - 60) counted server).1 = next :=
        congrArg Prod.fst (Option.some.inj success)
      rw [if_pos (show Long mtuSize message from long), ← result]
      have advanced : (advanceReliable indexed.reliability
          (frameCount indexed.stream.length (mtuSize.toNat - 60)) counted).compoundId =
            counted.compoundId := by
        unfold advanceReliable
        split <;> rfl
      rw [← sameId, ← advanced, ← same.compoundId]
      rfl
  · rename_i short
    have result : (addWhole indexed counted server).1 = next :=
      congrArg Prod.fst (Option.some.inj success)
    rw [if_neg (show ¬ Long mtuSize message from short), UInt32.add_zero, ← result]
    have counting : (countReliable indexed.reliability counted).compoundId = counted.compoundId := by
      unfold countReliable
      split <;> rfl
    exact (appendRaknetFrame_sameIndices _ _ _ _).compoundId.trans (counting.trans sameId)

end Built

/-! ## Runs of a sender -/

def splitMessages (log : List Sent) : List Compound := log.filterMap Sent.compound?

/-- The frames of all messages, as they arrive. -/
def sentFrames (log : List Sent) : List MiscFrame := log.flatMap Sent.frames

/-- `log` says how the messages were put out, `sets` which frame sets they went
out in, those that were sent again included. -/
structure SenderHolds (start : RaknetServer) (address : MiscAddress) (mtuSize : UInt16)
    (messages : List MiscFrame) (log : List Sent) (sets : List PacketFrameSet)
    (state : Connection × RaknetServer) : Prop where
  ledger : Ledger start address 0 state.1 state.2 sets
  mtu : state.1.mtuSize = mtuSize
  payloads : log.map Sent.payload = messages.map MiscFrame.stream
  ids : (splitMessages log).map Compound.compoundId =
    (List.range (splitMessages log).length).map UInt16.ofNat
  counter : state.1.compoundId = UInt32.ofNat (splitMessages log).length
  long : (splitMessages log).length = messages.countP fun message => Long mtuSize message
  carriable : ∀ frame ∈ queued sets state.1, Carriable frame
  known : ∀ frame ∈ queued sets state.1, received frame ∈ sentFrames log
  put : ∀ frame ∈ sentFrames log, ∃ original ∈ queued sets state.1, received original = frame
  recovered : ∀ set ∈ state.1.recoveryQueue.slots, ∀ frame ∈ set.frames,
    frame ∈ queued sets state.1

theorem senderHolds_new (start : RaknetServer) (address : MiscAddress) (mtuSize : UInt16) :
    SenderHolds start address mtuSize [] [] [] (newConnection address mtuSize, start) where
  ledger := Ledger.open (newConnection address mtuSize) start
  mtu := rfl
  payloads := rfl
  ids := rfl
  counter := rfl
  long := rfl
  carriable _ member := absurd member List.not_mem_nil
  known _ member := absurd member List.not_mem_nil
  put _ member := absurd member List.not_mem_nil
  recovered _ member := absurd member List.not_mem_nil

/-- Each message was put out once. -/
def EachOnce (log : List Sent) (sets : List PacketFrameSet) (connection : Connection) : Prop :=
  (queued sets connection).map received = sentFrames log

def eventMessage? : SenderEvent → Option MiscFrame
  | .add message => some message
  | _ => none

section Steps

variable {start : RaknetServer} {address : MiscAddress} {mtuSize : UInt16}
  {messages : List MiscFrame} {log : List Sent} {sets : List PacketFrameSet}
  {state next : Connection × RaknetServer}

/-- A step that adds no message and puts out no other frames. -/
theorem SenderHolds.keep (holds : SenderHolds start address mtuSize messages log sets state)
    {after : List PacketFrameSet} (ledger : Ledger start address 0 next.1 next.2 after)
    (sameMtu : next.1.mtuSize = state.1.mtuSize)
    (sameId : next.1.compoundId = state.1.compoundId)
    (same : ∀ frame, frame ∈ queued after next.1 ↔ frame ∈ queued sets state.1)
    (recovered : ∀ set ∈ next.1.recoveryQueue.slots, ∀ frame ∈ set.frames,
      frame ∈ queued sets state.1) :
    SenderHolds start address mtuSize messages log after next where
  ledger := ledger
  mtu := sameMtu.trans holds.mtu
  payloads := holds.payloads
  ids := holds.ids
  counter := sameId.trans holds.counter
  long := holds.long
  carriable frame member := holds.carriable frame ((same frame).mp member)
  known frame member := holds.known frame ((same frame).mp member)
  put frame member := by
    obtain ⟨original, listed, arrives⟩ := holds.put frame member
    exact ⟨original, (same original).mpr listed, arrives⟩
  recovered set member frame listed := (same frame).mpr (recovered set member frame listed)

theorem sendRaknetQueue_recovered (connection : Connection) (server : RaknetServer)
    {set : PacketFrameSet}
    (member : set ∈ (sendRaknetQueue connection server).1.recoveryQueue.slots) :
    set ∈ connection.recoveryQueue.slots ∨ set.frames = connection.queue.frames := by
  unfold sendRaknetQueue at member
  split at member
  · rcases KeyedArray.mem_append member with old | rfl
    · exact Or.inl old
    · exact Or.inr rfl
  · exact Or.inl member

theorem SenderHolds.flush (holds : SenderHolds start address mtuSize messages log sets state) :
    ∃ after, SenderHolds start address mtuSize messages log after
        (sendRaknetQueue state.1 state.2) ∧
      queued after (sendRaknetQueue state.1 state.2).1 = queued sets state.1 := by
  obtain ⟨after, ledger, same⟩ := sendRaknetQueue_ledger holds.ledger
  have indices := sendRaknetQueue_sameIndices state.1 state.2
  refine ⟨after, holds.keep ledger indices.mtuSize indices.compoundId (fun frame => by rw [same])
    fun set member frame listed => ?_, same⟩
  rcases sendRaknetQueue_recovered state.1 state.2 member with old | now
  · exact holds.recovered set old frame listed
  · rw [now] at listed
    exact List.mem_append_right _ listed

theorem SenderHolds.ack {stream : List UInt8} {connection : Connection}
    (holds : SenderHolds start address mtuSize messages log sets state)
    (handled : handleAck stream state.1 = some connection) :
    SenderHolds start address mtuSize messages log sets (connection, state.2) := by
  obtain ⟨numbers, -, same, slots⟩ := handleAck_slots handled
  rw [same]
  refine holds.keep (holds.ledger.setConnection _ rfl rfl) rfl rfl (fun _ => Iff.rfl)
    fun set member => ?_
  dsimp only at member
  rw [slots] at member
  exact holds.recovered set (List.mem_of_mem_filter member)

/-- What is sent again was sent before. -/
theorem SenderHolds.retransmit (holds : SenderHolds start address mtuSize messages log sets state)
    (number : UInt32) :
    ∃ after, SenderHolds start address mtuSize messages log after
      (Handler.retransmit state number) := by
  have deducted : ∀ set ∈ (state.1.recoveryQueue.deduct number).slots, ∀ frame ∈ set.frames,
      frame ∈ queued sets state.1 := fun set member =>
    holds.recovered set ((KeyedArray.mem_deduct set number _).mp member).1
  cases finding : state.1.recoveryQueue.find number with
  | none =>
      rw [retransmit_absent (KeyedArray.find_none.mp finding)]
      exact ⟨sets, holds⟩
  | some frameSet =>
      have old := holds.recovered frameSet (KeyedArray.find_some finding).1
      by_cases resendable : Resendable frameSet
      · rw [retransmit_resent finding resendable]
        obtain ⟨more, sends⟩ := retransmit_sending state number
        rw [retransmit_resent finding resendable] at sends
        have sent : more = [renumbered (frameSet, state.1.senderSequenceNumber)] := by
          have logged := sends.sent
          rw [sendData, List.append_cancel_left_eq] at logged
          cases more with
          | nil => cases logged
          | cons first rest =>
              obtain ⟨same, empty⟩ := List.cons_eq_cons.mp logged
              cases same
              rw [List.map_eq_nil_iff.mp empty.symm]
        refine ⟨sets ++ more, holds.keep (ledger_trans holds.ledger sends.toLedger) rfl rfl
          (fun frame => ?_) fun set member frame listed => ?_⟩
        · simp only [queued, sent, List.flatMap_append, List.mem_append, List.flatMap_cons,
            List.flatMap_nil, List.append_nil]
          constructor
          · rintro ((early | again) | pending)
            · exact Or.inl early
            · exact List.mem_append.mp (old frame again)
            · exact Or.inr pending
          · rintro (early | pending)
            · exact Or.inl (Or.inl early)
            · exact Or.inr pending
        · rcases KeyedArray.mem_append member with kept | rfl
          · exact deducted set kept frame listed
          · exact old frame listed
      · rw [retransmit_dropped finding resendable]
        exact ⟨sets, holds.keep (holds.ledger.setConnection _ rfl rfl) rfl rfl
          (fun _ => Iff.rfl) deducted⟩

theorem SenderHolds.nack {stream : List UInt8}
    (holds : SenderHolds start address mtuSize messages log sets state)
    (handled : handleNack stream state.1 state.2 = some next) :
    ∃ after, SenderHolds start address mtuSize messages log after next := by
  obtain ⟨numbers, -, result⟩ := Option.bind_eq_some_iff.mp handled
  have folded : ∀ (numbers : List UInt32) (sets : List PacketFrameSet)
      (state : Connection × RaknetServer),
      SenderHolds start address mtuSize messages log sets state →
      ∃ after, SenderHolds start address mtuSize messages log after
        (numbers.foldl Handler.retransmit state) := by
    intro numbers
    induction numbers with
    | nil => exact fun sets state holds => ⟨sets, holds⟩
    | cons number rest ih =>
        intro sets state holds
        obtain ⟨after, again⟩ := holds.retransmit number
        exact ih after _ again
  rw [← Option.some.inj result]
  exact folded numbers sets state holds

/-- The server's log tells which frame sets went out. -/
theorem ledger_unique {connection other : Connection} {server : RaknetServer} {first second : UInt32}
    {left right : List PacketFrameSet}
    (leftLedger : Ledger start address first connection server left)
    (rightLedger : Ledger start address second other server right) : left = right := by
  have same := leftLedger.sent.symm.trans rightLedger.sent
  refine List.map_injective_iff.mpr ?_ (List.append_cancel_left same)
  intro set other equal
  exact Datagram.frameSet.inj (Prod.mk.inj equal).2

theorem splitMessages_snoc (log : List Sent) (sent : Sent) :
    splitMessages (log ++ [sent]) = splitMessages log ++ sent.compound?.toList := by
  cases sent <;> simp [splitMessages, Sent.compound?]

theorem sentFrames_snoc (log : List Sent) (sent : Sent) :
    sentFrames (log ++ [sent]) = sentFrames log ++ sent.frames := by
  simp [sentFrames]

/-- The compound ids count on with every long message. -/
theorem ids_snoc {log : List Sent} {sent : Sent} {compoundId : UInt32}
    (ids : (splitMessages log).map Compound.compoundId =
      (List.range (splitMessages log).length).map UInt16.ofNat)
    (counter : compoundId = UInt32.ofNat (splitMessages log).length)
    (own : ∀ compound, sent.compound? = some compound →
      compound.compoundId = compoundId.toUInt16) :
    (splitMessages (log ++ [sent])).map Compound.compoundId =
      (List.range (splitMessages (log ++ [sent])).length).map UInt16.ofNat := by
  rw [splitMessages_snoc]
  cases split : sent.compound? with
  | none => simpa using ids
  | some compound =>
      have here := own compound split
      rw [counter, UInt32.toUInt16_ofNat'] at here
      simp [List.range_succ, ids, here]

theorem SenderHolds.add (mtuFits : 61 ≤ mtuSize.toNat) (short : mtuSize.toNat ≤ 8251)
    {message : MiscFrame} (sendable : Sendable mtuSize message)
    (holds : SenderHolds start address mtuSize messages log sets state)
    (added : addToRaknetQueue message state.1 state.2 = some next) :
    ∃ after sent, SenderHolds start address mtuSize (messages ++ [message]) (log ++ [sent]) after
        next ∧
      (queued after next.1).map received = (queued sets state.1).map received ++ sent.frames := by
  obtain ⟨indexed, counted, after, indexing, ledger, put, adds⟩ :=
    addToRaknetQueue_adds added holds.ledger
  obtain ⟨more, sends⟩ := addToRaknetQueue_sending added
  obtain rfl : sets ++ more = after :=
    ledger_unique (ledger_trans holds.ledger sends.toLedger) ledger
  obtain ⟨sent, built⟩ := built_sent mtuFits short sendable holds.mtu indexing
  have counting := addToRaknetQueue_compoundId mtuFits holds.mtu added
  have whole : (queued (sets ++ more) next.1).map received =
      (queued sets state.1).map received ++ sent.frames := by
    rw [put, List.map_append, built.arrive]
  have length : (splitMessages (log ++ [sent])).length =
      (splitMessages log).length + if Long mtuSize message then 1 else 0 := by
    rw [splitMessages_snoc, List.length_append]
    have split := built.long
    cases found : sent.compound? with
    | none =>
        rw [found] at split
        rw [if_neg fun long => absurd (split.mpr long) Bool.false_ne_true]
        rfl
    | some compound =>
        rw [found] at split
        rw [if_pos (split.mp rfl)]
        rfl
  refine ⟨sets ++ more, sent, ⟨ledger, ?_, ?_, ?_, ?_, ?_, ?_, ?_, ?_, ?_⟩, whole⟩
  · exact adds.mtuSize.trans ((indexFrame_receiver indexing).1.mtuSize.trans holds.mtu)
  · rw [List.map_append, List.map_append, holds.payloads, List.map_singleton, List.map_singleton,
      built.payload]
  · exact ids_snoc holds.ids holds.counter built.split
  · rw [counting, holds.counter, length]
    split
    · rw [UInt32.ofNat_add]
      rfl
    · rw [UInt32.add_zero, Nat.add_zero]
  · rw [length, holds.long, List.countP_append, List.countP_singleton]
    simp only [decide_eq_true_eq]
  · intro frame member
    rw [put] at member
    rcases List.mem_append.mp member with old | new
    · exact holds.carriable frame old
    · exact built.carriable frame new
  · intro frame member
    have arrives : received frame ∈ _ := List.mem_map_of_mem member
    rw [whole] at arrives
    rw [sentFrames_snoc]
    rcases List.mem_append.mp arrives with old | new
    · obtain ⟨original, listed, same⟩ := List.mem_map.mp old
      rw [← same]
      exact List.mem_append_left _ (holds.known original listed)
    · exact List.mem_append_right _ new
  · intro frame member
    rw [sentFrames_snoc] at member
    rcases List.mem_append.mp member with old | new
    · obtain ⟨original, listed, same⟩ := holds.put frame old
      refine ⟨original, ?_, same⟩
      rw [put]
      exact List.mem_append_left _ listed
    · have arrives : frame ∈ (queued (sets ++ more) next.1).map received := by
        rw [whole]
        exact List.mem_append_right _ new
      obtain ⟨original, listed, same⟩ := List.mem_map.mp arrives
      exact ⟨original, listed, same⟩
  · intro set member frame listed
    rcases sends.kept set member with old | sent
    · rw [put]
      exact List.mem_append_left _ (holds.recovered set old frame listed)
    · exact List.mem_append_left _ (List.mem_flatMap.mpr
        ⟨set, List.mem_append_right _ sent, listed⟩)

theorem SenderHolds.step {event : SenderEvent}
    (mtuFits : 61 ≤ mtuSize.toNat) (short : mtuSize.toNat ≤ 8251)
    (holds : SenderHolds start address mtuSize messages log sets state)
    (sendable : ∀ message, eventMessage? event = some message → Sendable mtuSize message)
    (stepped : senderStep state event = some next) :
    ∃ more after, SenderHolds start address mtuSize
        (messages ++ (eventMessage? event).toList) (log ++ more) (sets ++ after) next ∧
      ((∀ stream, event ≠ .nack stream) → EachOnce log sets state.1 →
        EachOnce (log ++ more) (sets ++ after) next.1) := by
  obtain ⟨sent, sends⟩ := senderStep_sending stepped
  have trans := ledger_trans holds.ledger sends.toLedger
  cases event with
  | add message =>
      obtain ⟨after, put, added, frames⟩ := holds.add mtuFits short (sendable message rfl) stepped
      obtain rfl := ledger_unique added.ledger trans
      refine ⟨[put], sent, added, fun _ once => ?_⟩
      rw [EachOnce, frames, once, sentFrames_snoc]
  | flush =>
      obtain rfl := Option.some.inj stepped
      obtain ⟨after, flushed, same⟩ := holds.flush
      obtain rfl := ledger_unique flushed.ledger trans
      refine ⟨[], sent, by simpa [eventMessage?] using flushed, fun _ once => ?_⟩
      rw [EachOnce, same, once, List.append_nil]
  | ack stream =>
      obtain ⟨connection, handled, rfl⟩ := Option.map_eq_some_iff.mp stepped
      have acked := holds.ack handled
      obtain ⟨-, -, unqueued, -⟩ := handleAck_slots handled
      have same := ledger_unique acked.ledger trans
      rw [same] at acked
      refine ⟨[], sent, by simpa [eventMessage?] using acked, fun _ once => ?_⟩
      rw [EachOnce, ← same, List.append_nil, ← once, unqueued]
      rfl
  | nack stream =>
      obtain ⟨after, resent⟩ := holds.nack stepped
      obtain rfl := ledger_unique resent.ledger trans
      exact ⟨[], sent, by simpa [eventMessage?] using resent, fun other => absurd rfl (other stream)⟩

end Steps

end PodrumRakNet.SentMessages

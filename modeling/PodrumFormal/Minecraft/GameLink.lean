import PodrumFormal.Minecraft.GamePacket
import PodrumFormal.RakNet.IdleSender
import PodrumFormal.RakNet.OrderlyDelivery

/-!
# Game batches over a link

`send_minecraft_packet` at one end, `get_packet_game` on the frames that the
workers of the other end take.  A batch that arrives is a batch that was sent,
whatever the channel does to the datagrams.
-/

set_option autoImplicit false

namespace PodrumMinecraft.GameLink

open EventRun PodrumZlib.ZlibHelper PodrumMinecraft.GamePacket
open PodrumRakNet.Frame PodrumRakNet.FrameSet PodrumRakNet.Packet PodrumRakNet.Connections
open PodrumRakNet.SendLedger PodrumRakNet.Handler PodrumRakNet.HandlerEffects
open PodrumRakNet.Recovery PodrumRakNet.AckSafety PodrumRakNet.Assembly
open PodrumRakNet.SentMessages PodrumRakNet.LinkDelivery PodrumRakNet.IdleSender
open PodrumRakNet.OrderlyDelivery
open PodrumRakNet.NackQueue (stillEnvironment)

/-! ## One batch -/

/-- The arguments of `send_minecraft_packet`. -/
structure Batch where
  streams : List (List UInt8)
  compress : UInt8 := 1

/-- The frame that is sent; `none` where a part of its payload is not written. -/
def minecraftFrame (miniz : Miniz) (sent : Batch) : Option MiscFrame :=
  (putPacketGame miniz sent.streams sent.compress).map fun stream =>
    { reliability := reliabilityReliableOrdered
      isFragmented := 0
      orderChannel := 0
      stream }

/-- The deflated batch fits a buffer of the decoder; a batch that is not
deflated is nothing that inflates. -/
structure Decodable (miniz : Miniz) (sent : Batch) : Prop where
  short : ∀ stream ∈ sent.streams, stream.length < 2 ^ 32
  deflated : sent.compress = 1 →
    BufferFits (batch sent.streams).length (deflatedBatch miniz sent.streams).length
  plain : sent.compress ≠ 1 → (batch sent.streams).length < 2 ^ 31 ∧
    ∃ fuel out, zlibDecode miniz fuel (batch sent.streams) zlibRawMode = some (.dataError, out)

/-- What `on_f` gets from the payload. -/
structure Carries (miniz : Miniz) (stream : List UInt8) (streams : List (List UInt8)) : Prop where
  game : stream.head? = some idGame
  decoded : ∃ fuel, getPacketGame miniz fuel stream = some streams

section Batches

variable {miniz : Miniz} {sent : Batch} {frame : MiscFrame}

/-- The result does not depend on the number of turns that the decoder may take. -/
theorem Carries.unique {stream : List UInt8} {streams others : List (List UInt8)}
    (first : Carries miniz stream streams) (second : Carries miniz stream others) :
    streams = others := by
  obtain ⟨-, fuel, decoded⟩ := first
  obtain ⟨-, more, again⟩ := second
  cases stream with
  | nil => cases decoded
  | cons id data =>
      obtain ⟨result, inflated, rest⟩ := Option.bind_eq_some_iff.mp decoded
      obtain ⟨other, deflated, same⟩ := Option.bind_eq_some_iff.mp again
      obtain rfl := zlibDecode_unique inflated deflated
      exact Option.some.inj (rest.symm.trans same)

theorem carries_plain {streams : List (List UInt8)}
    (short : ∀ stream ∈ streams, stream.length < 2 ^ 32) {fuel : Nat}
    {out : Option (List UInt8)}
    (failed : zlibDecode miniz fuel (batch streams) zlibRawMode = some (.dataError, out)) :
    Carries miniz (idGame :: batch streams) streams := by
  refine ⟨rfl, fuel, ?_⟩
  have returned := readAll_batch short
  simp [getPacketGame, gameData, failed, returned]

/-- A frame that `send_minecraft_packet` builds comes back as its batch. -/
theorem minecraftFrame_carries (laws : RawLaws miniz 7) (decodable : Decodable miniz sent)
    (built : minecraftFrame miniz sent = some frame) :
    Carries miniz frame.stream sent.streams := by
  obtain ⟨encoded, put, rfl⟩ := Option.map_eq_some_iff.mp built
  by_cases compressed : sent.compress = 1
  · obtain ⟨other, same, decoded⟩ :=
      roundTrips_of_fits laws decodable.short (decodable.deflated compressed)
    rw [compressed] at put
    obtain rfl := Option.some.inj (put.symm.trans same)
    obtain ⟨out, -, rfl⟩ := Option.map_eq_some_iff.mp put
    exact ⟨rfl, decoded⟩
  · obtain ⟨-, fuel, out, failed⟩ := decodable.plain compressed
    rw [putPacketGame, if_neg compressed] at put
    obtain rfl := Option.some.inj put
    exact carries_plain decodable.short failed

/-- It is encoded in less than `2 ^ 31` bytes and its id. -/
theorem minecraftFrame_length (decodable : Decodable miniz sent)
    (built : minecraftFrame miniz sent = some frame) : frame.stream.length ≤ 2 ^ 31 := by
  obtain ⟨encoded, put, rfl⟩ := Option.map_eq_some_iff.mp built
  by_cases compressed : sent.compress = 1
  · obtain ⟨turns, room, small⟩ := decodable.deflated compressed
    rw [compressed] at put
    obtain ⟨out, written, rfl⟩ := Option.map_eq_some_iff.mp put
    obtain ⟨deflated, -⟩ := zlibEncode_out written
    have whole : (batch sent.streams).take (toUInt (batch sent.streams).length) =
        batch sent.streams :=
      List.take_of_length_le (by rw [toUInt]; omega)
    rw [batch] at whole
    rw [whole] at deflated
    rw [deflatedBatch, batch, deflated] at small
    show (idGame :: out).length ≤ 2 ^ 31
    rw [List.length_cons]
    omega
  · obtain ⟨small, -⟩ := decodable.plain compressed
    rw [putPacketGame, if_neg compressed] at put
    obtain rfl := Option.some.inj put
    show (idGame :: batch sent.streams).length ≤ 2 ^ 31
    rw [List.length_cons]
    omega

theorem minecraftFrame_sendable (mtuSize : UInt16) (decodable : Decodable miniz sent)
    (built : minecraftFrame miniz sent = some frame) :
    Sendable mtuSize frame := by
  have length := minecraftFrame_length decodable built
  obtain ⟨encoded, -, rfl⟩ := Option.map_eq_some_iff.mp built
  refine ⟨rfl, show reliabilityReliableOrdered.toNat ≤ 7 by decide, ?_⟩
  have fewer := Nat.div_le_self encoded.length (mtuSize.toNat - 60)
  dsimp only at length ⊢
  omega

theorem minecraftFrame_notOwn (laws : RawLaws miniz 7) (decodable : Decodable miniz sent)
    (built : minecraftFrame miniz sent = some frame) : ¬ ForRaknet frame := by
  rintro ⟨packetId, own, head⟩
  rw [(minecraftFrame_carries laws decodable built).game] at head
  obtain rfl := Option.some.inj head
  revert own
  decide

end Batches

/-! ## The frames of a run -/

section Calls

variable {miniz : Miniz} {calls : List Batch} {frames : List MiscFrame} {handed : List MiscFrame}

/-- The frames are those of the calls, in their order. -/
def FramesOf (miniz : Miniz) (calls : List Batch) (frames : List MiscFrame) : Prop :=
  calls.map (minecraftFrame miniz) = frames.map some

theorem FramesOf.built (made : FramesOf miniz calls frames) :
    List.Forall₂ (fun call frame => minecraftFrame miniz call = some frame) calls frames := by
  have same : List.Forall₂ Eq (calls.map (minecraftFrame miniz)) (frames.map some) := by
    rw [List.forall₂_eq_eq_eq]
    exact made
  rwa [List.forall₂_map_left_iff, List.forall₂_map_right_iff] at same

theorem FramesOf.call_of_frame (made : FramesOf miniz calls frames) {frame : MiscFrame}
    (member : frame ∈ frames) : ∃ call ∈ calls, minecraftFrame miniz call = some frame := by
  have listed : some frame ∈ calls.map (minecraftFrame miniz) :=
    made ▸ List.mem_map_of_mem member
  exact List.mem_map.mp listed

theorem FramesOf.sendable (mtuSize : UInt16)
    (decodable : ∀ call ∈ calls, Decodable miniz call) (made : FramesOf miniz calls frames) :
    ∀ frame ∈ frames, Sendable mtuSize frame := by
  intro frame member
  obtain ⟨call, listed, built⟩ := made.call_of_frame member
  exact minecraftFrame_sendable mtuSize (decodable call listed) built

theorem FramesOf.forWorkers (laws : RawLaws miniz 7)
    (decodable : ∀ call ∈ calls, Decodable miniz call) (made : FramesOf miniz calls frames) :
    forWorkers frames = frames := by
  refine List.filter_eq_self.mpr fun frame member => decide_eq_true ?_
  obtain ⟨call, listed, built⟩ := made.call_of_frame member
  exact minecraftFrame_notOwn laws (decodable call listed) built

/-- Payloads that are a prefix of those sent carry the first batches. -/
theorem FramesOf.carried (laws : RawLaws miniz 7)
    (decodable : ∀ call ∈ calls, Decodable miniz call) (made : FramesOf miniz calls frames)
    (first : handed.map MiscFrame.stream <+: frames.map MiscFrame.stream) :
    List.Forall₂ (fun frame call => Carries miniz frame.stream call.streams) handed
      (calls.take handed.length) := by
  have built := made.built
  induction handed generalizing calls frames with
  | nil => exact .nil
  | cons frame handed ih =>
      cases built with
      | nil => cases List.prefix_nil.mp first
      | cons head tail =>
          obtain ⟨same, rest⟩ := List.cons_prefix_cons.mp first
          refine .cons ?_ (ih (fun call member => decodable call (List.mem_cons_of_mem _ member))
            (List.cons_eq_cons.mp made).2 rest tail)
          rw [same]
          exact minecraftFrame_carries laws (decodable _ List.mem_cons_self) head

end Calls

/-! ## Three batches -/

def threeCalls : List Batch := [⟨[[0xc1], []], 1⟩, ⟨[[2]], 1⟩, ⟨[[3], [4]], 1⟩]

/-- Their frames, each in a frame set of its own. -/
def callsAdded : List LinkEvent :=
  (threeCalls.filterMap (minecraftFrame storedMiniz)).flatMap fun frame => [.add frame, .flush]

def roomyLink : Link :=
  newLink ⟨4, [0x31], 19132⟩ ⟨4, [0x32], 19133⟩ 128 128 {}
    (addRaknetConnection ⟨4, [0x31], 19132⟩ 128 {})

theorem threeCalls_decodable : ∀ call ∈ threeCalls, Decodable storedMiniz call := by
  have each : ∀ call ∈ threeCalls, call.compress = 1 ∧
      (∀ stream ∈ call.streams, stream.length < 2 ^ 32) ∧
      (batch call.streams).length ≤ (deflatedBatch storedMiniz call.streams).length ∧
      (deflatedBatch storedMiniz call.streams).length < 2 ^ 31 := by decide
  intro call member
  obtain ⟨compressed, short, room, small⟩ := each call member
  exact ⟨short, fun _ => ⟨0, by omega, by omega⟩, fun plain => absurd compressed plain⟩

/-! ## Over a channel that loses, repeats and reorders -/

/-- Over a channel that keeps the order the batches are taken in order, and none
is left out. -/
theorem game_batches_in_order (miniz : Miniz) (laws : RawLaws miniz 7) (environment : Environment)
    (senderAddress receiverAddress : MiscAddress) (senderMtu receiverMtu : UInt16)
    (sender receiver : RaknetServer) (calls : List Batch) (events : List LinkEvent) (link : Link)
    (mtuFits : 61 ≤ senderMtu.toNat) (short : senderMtu.toNat ≤ 8251)
    (connected : hasRaknetConnection senderAddress receiver = true)
    (decodable : ∀ call ∈ calls, Decodable miniz call)
    (made : FramesOf miniz calls (addedMessages events))
    (reached : run (linkStep environment) events
      (newLink senderAddress receiverAddress senderMtu receiverMtu sender receiver) = some link)
    (quiet : NoNack link) (inOrder : link.processed <+: sentSets link.sender.2) :
    ∃ handed, postedFrames link.receiver.2 = postedFrames receiver ++ handed ∧
      List.Forall₂ (fun frame call => Carries miniz frame.stream call.streams) handed
        (calls.take handed.length) ∧
      (link.processed = sentSets link.sender.2 → link.sender.1.queue.frames = [] →
        handed.length = calls.length) := by
  obtain ⟨log, sets, holds, each⟩ :=
    run_once mtuFits short (made.sendable senderMtu decodable) connected reached quiet
  rw [holds.sentSets] at inOrder ⊢
  have all := made.forWorkers laws decodable
  refine ⟨_, holds.posted, made.carried laws decodable ?_, fun complete flushed => ?_⟩
  · have first := ordered_prefix holds each inOrder
    rwa [all] at first
  · have same := congrArg List.length (ordered_all holds each complete flushed)
    rw [all, List.length_map, List.length_map] at same
    exact same.trans made.built.length_eq.symm

def inTurn : List LinkEvent := callsAdded ++ [.deliver 0, .deliver 1]

theorem game_batches_in_order_inTurn :
    ∃ link handed, run (linkStep stillEnvironment) inTurn roomyLink = some link ∧
      postedFrames link.receiver.2 = handed ∧
      List.Forall₂ (fun frame call => Carries storedMiniz frame.stream call.streams) handed
        (threeCalls.take handed.length) ∧
      (link.processed = sentSets link.sender.2 → link.sender.1.queue.frames = [] →
        handed.length = threeCalls.length) := by
  obtain ⟨link, reached, silent, inOrder⟩ : ∃ link,
      run (linkStep stillEnvironment) inTurn roomyLink = some link ∧
      link.receiver.2.sent = [] ∧ link.processed <+: sentSets link.sender.2 :=
    ⟨_, rfl, rfl, by decide⟩
  have quiet : NoNack link := fun entry member => by
    rw [silent] at member
    exact absurd member List.not_mem_nil
  obtain ⟨handed, posted, each⟩ := game_batches_in_order storedMiniz (storedMiniz_laws 7)
    stillEnvironment _ _ 128 128 _ _ threeCalls inTurn link (by decide) (by decide) (by decide)
    threeCalls_decodable rfl reached quiet inOrder
  exact ⟨link, handed, reached, posted, each⟩

end PodrumMinecraft.GameLink

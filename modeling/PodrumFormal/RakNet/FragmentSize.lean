import PodrumFormal.RakNet.DatagramSize
import PodrumFormal.RakNet.Handshake
import PodrumFormal.RakNet.NackQueue
import PodrumFormal.RakNet.Reassembly

/-!
# The fragment size of a client's MTU

`handle_open_connection_request_2` takes the MTU of a connection from the
client unchecked, and `add_to_raknet_queue` computes the fragment size from it
in 16 bits.
-/

set_option autoImplicit false

namespace PodrumRakNet.FragmentSize

open PodrumRakNet.Frame PodrumRakNet.FrameSet PodrumRakNet.Packet PodrumRakNet.Connections
open PodrumRakNet.SendQueue PodrumRakNet.SendLedger PodrumRakNet.Fragments
open PodrumRakNet.Reassembly PodrumRakNet.Server PodrumRakNet.Handshake
open PodrumRakNet.DatagramSize
open PodrumRakNet.NackQueue (stillEnvironment)

/-! ## The law -/

/-- No step of the fragment size computation wraps below zero, and it does not
divide by zero. -/
structure FragmentArithmetic (mtuSize : UInt16) (size : Nat) : Prop where
  fragmentSize : ((maxSize mtuSize).toNat : Int) = (mtuSize.toNat : Int) - 60
  divisor : size > (maxSize mtuSize).toNat → (maxSize mtuSize).toNat ≠ 0
  padded : size > (maxSize mtuSize).toNat →
    size ≤ frameCount size (maxSize mtuSize).toNat * (maxSize mtuSize).toNat
  lastPiece : size > (maxSize mtuSize).toNat →
    padBytes size (maxSize mtuSize).toNat ≤ (maxSize mtuSize).toNat

/-- Every frame or fragment that the call queues has a payload whose length in
bits fits 16 bits. -/
def QueuesShort (frame : MiscFrame) (connection : Connection) (server : RaknetServer) : Prop :=
  ∀ next nextServer queued, addToRaknetQueue frame connection server = some (next, nextServer) →
    outgoing next nextServer = outgoing connection server ++ queued →
    ∀ built ∈ queued, built.stream.length < 8192

/-- The call does not read past the channel arrays before it comes to the
fragment size. -/
def Indexable (frame : MiscFrame) : Prop :=
  isOrdered frame.reliability → frame.orderChannel.toNat < 32

/-! ## The arithmetic -/

theorem padBytes_fits {size maxSize : Nat} (positive : 0 < maxSize) :
    size ≤ frameCount size maxSize * maxSize ∧ padBytes size maxSize ≤ maxSize := by
  have division := Nat.div_add_mod size maxSize
  have small := Nat.mod_lt size positive
  rw [Nat.mul_comm] at division
  simp only [padBytes, frameCount, Nat.succ_mul]
  omega

theorem fragmentArithmetic_iff (mtuSize : UInt16) (size : Nat) :
    FragmentArithmetic mtuSize size ↔
      60 ≤ mtuSize.toNat ∧ (mtuSize.toNat = 60 → size = 0) := by
  constructor
  · intro arithmetic
    have fragmentSize := arithmetic.fragmentSize
    refine ⟨by omega, fun least => ?_⟩
    have divisor := arithmetic.divisor
    omega
  · rintro ⟨above, least⟩
    have exact := maxSize_toNat above
    have positive (long : size > (maxSize mtuSize).toNat) : 0 < (maxSize mtuSize).toNat := by
      by_contra zero
      have empty := least (by omega)
      omega
    exact ⟨by omega, fun long => by have := positive long; omega,
      fun long => (padBytes_fits (positive long)).1, fun long => (padBytes_fits (positive long)).2⟩

/-! ## The frames queued -/

theorem indexFrame_defined {frame : MiscFrame} (connection : Connection)
    (indexable : Indexable frame) :
    ∃ indexed counted, indexFrame frame connection = some (indexed, counted) := by
  by_cases ordered : isOrdered frame.reliability = true
  · have cell : channel frame.orderChannel = some ⟨frame.orderChannel.toNat, indexable ordered⟩ := by
      rw [channel, dif_pos (indexable ordered)]
    simp only [indexFrame, cell, Option.map_some, ordered]
    split <;> exact ⟨_, _, rfl⟩
  · have plain : ¬ isSequenced frame.reliability = true := by
      simp only [isSequenced, isOrdered, Bool.or_eq_true, not_or] at ordered ⊢
      exact ⟨ordered.1.1.1, ordered.1.2⟩
    rw [indexFrame, if_neg plain, if_neg ordered]
    exact ⟨_, _, rfl⟩

theorem indexable_of_defined {frame indexed : MiscFrame} {connection counted : Connection}
    (success : indexFrame frame connection = some (indexed, counted)) : Indexable frame := by
  have inside {cell : Fin 32} (found : channel frame.orderChannel = some cell) :
      frame.orderChannel.toNat < 32 := by
    simp only [channel] at found
    split at found
    · assumption
    · cases found
  obtain ⟨-, cell, found, -⟩ | ⟨-, -, cell, found, -⟩ | ⟨plain, -⟩ := indexFrame_cases success
  · exact fun _ => inside found
  · exact fun _ => inside found
  · intro ordered
    rw [plain] at ordered
    cases ordered

theorem addToRaknetQueue_returns {frame indexed : MiscFrame} {connection counted : Connection}
    (server : RaknetServer) (success : indexFrame frame connection = some (indexed, counted))
    (arithmetic : FragmentArithmetic connection.mtuSize frame.stream.length) :
    ∃ result, addToRaknetQueue frame connection server = some result := by
  have sameMtu := (indexFrame_receiver success).1.mtuSize
  have sameStream := (indexFrame_compoundId success).2
  have divisor := arithmetic.divisor
  rw [← sameMtu, ← sameStream] at divisor
  simp only [addToRaknetQueue, success, Option.bind_eq_bind, Option.bind_some]
  split
  · rename_i long
    rw [if_neg (divisor long)]
    exact ⟨_, rfl⟩
  · exact ⟨_, rfl⟩

/-- The longest frame built is the whole payload, or a piece of full size. -/
theorem builtFrames_short_iff {indexed : MiscFrame} {counted : Connection}
    (above : 60 ≤ counted.mtuSize.toNat)
    (least : counted.mtuSize.toNat = 60 → indexed.stream.length = 0) :
    (∀ built ∈ builtFrames indexed counted, built.stream.length < 8192) ↔
      if indexed.stream.length ≤ counted.mtuSize.toNat - 60 then indexed.stream.length < 8192
      else counted.mtuSize.toNat ≤ 8251 := by
  have exact := maxSize_toNat above
  simp only [builtFrames, exact]
  by_cases short : indexed.stream.length ≤ counted.mtuSize.toNat - 60
  · rw [if_neg (by omega), if_pos short]
    exact List.forall_mem_singleton
  · rw [if_pos (by omega), if_neg short]
    constructor
    · intro each
      have first := each (fragmentAt indexed (counted.mtuSize.toNat - 60) counted 0)
        (List.mem_map_of_mem (List.mem_range.mpr (Nat.succ_pos _)))
      have full : pieceSize indexed.stream.length (counted.mtuSize.toNat - 60) 0 =
          counted.mtuSize.toNat - 60 :=
        pieceSize_full _ _ _ (Nat.div_pos (by omega) (by omega))
      have payload : (fragmentAt indexed (counted.mtuSize.toNat - 60) counted 0).stream =
          piece indexed.stream (counted.mtuSize.toNat - 60) 0 := rfl
      rw [payload, piece, full, Nat.zero_mul, List.drop_zero, List.length_take] at first
      omega
    · intro bound built member
      obtain ⟨i, _, rfl⟩ := List.mem_map.mp member
      have fits := piece_length_le indexed.stream (counted.mtuSize.toNat - 60) i
      have payload : (fragmentAt indexed (counted.mtuSize.toNat - 60) counted i).stream =
          piece indexed.stream (counted.mtuSize.toNat - 60) i := rfl
      rw [payload]
      omega

/-- What a call on a connection of that MTU does to the payloads. -/
theorem queuesShort_iff {frame : MiscFrame} {connection : Connection} {server : RaknetServer}
    (arithmetic : FragmentArithmetic connection.mtuSize frame.stream.length) :
    QueuesShort frame connection server ↔ (Indexable frame →
      if frame.stream.length ≤ connection.mtuSize.toNat - 60 then frame.stream.length < 8192
      else connection.mtuSize.toNat ≤ 8251) := by
  have bounds := (fragmentArithmetic_iff _ _).mp arithmetic
  have built {indexed : MiscFrame} {counted : Connection}
      (success : indexFrame frame connection = some (indexed, counted)) :
      (∀ entry ∈ builtFrames indexed counted, entry.stream.length < 8192) ↔
        if frame.stream.length ≤ connection.mtuSize.toNat - 60 then frame.stream.length < 8192
        else connection.mtuSize.toNat ≤ 8251 := by
    rw [← (indexFrame_receiver success).1.mtuSize, ← (indexFrame_compoundId success).2] at bounds ⊢
    exact builtFrames_short_iff bounds.1 bounds.2
  constructor
  · intro short indexable
    obtain ⟨indexed, counted, success⟩ := indexFrame_defined connection indexable
    obtain ⟨⟨next, nextServer⟩, added⟩ := addToRaknetQueue_returns server success arithmetic
    obtain ⟨other, otherCounted, sameSuccess, appended⟩ := addToRaknetQueue_outgoing added
    exact (built sameSuccess).mp (short next nextServer _ added appended)
  · intro bound next nextServer queued added appended
    obtain ⟨indexed, counted, success, exact⟩ := addToRaknetQueue_outgoing added
    rw [List.append_cancel_left (appended.symm.trans exact)]
    exact (built success).mpr (bound (indexable_of_defined success))

/-! ## A client's MTU -/

theorem request2_opens {environment : Environment} {offline : Offline} {stream reply : List UInt8}
    {address : MiscAddress} {server opened : RaknetServer}
    (fresh : hasRaknetConnection address server = false)
    (accepted : handleOpenConnectionRequest2 environment offline stream address server =
      some (reply, opened)) :
    ∃ request rest, getPacketOpenConnectionRequest2 offline.inetNtop stream =
        some (request, rest) ∧
      getRaknetConnection address opened = some (newConnection address request.mtuSize) := by
  obtain ⟨⟨request, rest⟩, decoded, result⟩ := Option.bind_eq_some_iff.mp accepted
  cases result
  exact ⟨request, rest, decoded, getRaknetConnection_add request.mtuSize fresh⟩

/-- Exactly for which MTUs and payloads a call on the connection that a client
opened keeps its arithmetic and queues what a frame can carry. -/
theorem fragments_carried_iff (environment : Environment) (offline : Offline)
    (stream reply : List UInt8) (address : MiscAddress) (server opened : RaknetServer)
    (fresh : hasRaknetConnection address server = false)
    (accepted : handleOpenConnectionRequest2 environment offline stream address server =
      some (reply, opened)) :
    ∃ request rest, getPacketOpenConnectionRequest2 offline.inetNtop stream =
        some (request, rest) ∧
      getRaknetConnection address opened = some (newConnection address request.mtuSize) ∧
      ∀ (connection : Connection) (later : RaknetServer) (frame : MiscFrame),
        connection.mtuSize = request.mtuSize →
        (FragmentArithmetic connection.mtuSize frame.stream.length ∧
            QueuesShort frame connection later ↔
          60 ≤ request.mtuSize.toNat ∧
          (request.mtuSize.toNat = 60 → frame.stream.length = 0) ∧
          (Indexable frame →
            if frame.stream.length ≤ request.mtuSize.toNat - 60 then frame.stream.length < 8192
            else request.mtuSize.toNat ≤ 8251)) := by
  obtain ⟨request, rest, decoded, stored⟩ := request2_opens fresh accepted
  refine ⟨request, rest, decoded, stored, fun connection later frame sameMtu => ?_⟩
  rw [← sameMtu, ← and_assoc, ← fragmentArithmetic_iff]
  constructor
  · rintro ⟨arithmetic, short⟩
    exact ⟨arithmetic, (queuesShort_iff arithmetic).mp short⟩
  · rintro ⟨arithmetic, bound⟩
    exact ⟨arithmetic, (queuesShort_iff arithmetic).mpr bound⟩

def podrumOffline : Offline := ⟨1325386089232893086, none, fun _ => []⟩

def peer : MiscAddress := ⟨4, [0x31], 19132⟩

/-- Request 2 from an IPv4 client. -/
def openRequest (mtuSize : UInt16) : List UInt8 :=
  [idOpenConnectionRequest2] ++ magic ++ [4, 0xf5, 0xff, 0xff, 0xfe, 0x4a, 0xbc] ++
    PodrumStream.BinaryStream.putUnsignedShortBe mtuSize ++ [0, 0, 0, 0, 0, 0, 0, 7]

theorem fragments_carried_common :
    ∃ reply opened, handleOpenConnectionRequest2 stillEnvironment podrumOffline (openRequest 1400)
        peer {} = some (reply, opened) ∧
      ∃ request rest, getPacketOpenConnectionRequest2 podrumOffline.inetNtop (openRequest 1400) =
          some (request, rest) ∧
        getRaknetConnection peer opened = some (newConnection peer request.mtuSize) ∧
        ∀ (connection : Connection) (later : RaknetServer) (frame : MiscFrame),
          connection.mtuSize = request.mtuSize →
          (FragmentArithmetic connection.mtuSize frame.stream.length ∧
              QueuesShort frame connection later ↔
            60 ≤ request.mtuSize.toNat ∧
            (request.mtuSize.toNat = 60 → frame.stream.length = 0) ∧
            (Indexable frame →
              if frame.stream.length ≤ request.mtuSize.toNat - 60 then frame.stream.length < 8192
              else request.mtuSize.toNat ≤ 8251)) := by
  have computed : (handleOpenConnectionRequest2 stillEnvironment podrumOffline (openRequest 1400)
      peer {}).isSome := by decide
  obtain ⟨⟨reply, opened⟩, accepted⟩ := Option.isSome_iff_exists.mp computed
  exact ⟨reply, opened, accepted, fragments_carried_iff stillEnvironment podrumOffline
    (openRequest 1400) reply peer {} opened (by decide) accepted⟩

/-- With an MTU of 60 a payload of one byte is divided by zero. -/
theorem fragments_mtu60_divides :
    ¬ ∀ (stream reply : List UInt8) (address : MiscAddress) (server opened : RaknetServer)
      (connection : Connection) (frame : MiscFrame),
      hasRaknetConnection address server = false →
      handleOpenConnectionRequest2 stillEnvironment podrumOffline stream address server =
        some (reply, opened) →
      getRaknetConnection address opened = some connection →
      FragmentArithmetic connection.mtuSize frame.stream.length ∧
        QueuesShort frame connection opened := by
  intro carried
  have computed : (handleOpenConnectionRequest2 stillEnvironment podrumOffline (openRequest 60)
      peer {}).isSome := by decide
  obtain ⟨⟨reply, opened⟩, accepted⟩ := Option.isSome_iff_exists.mp computed
  obtain ⟨request, rest, decoded, stored⟩ := request2_opens (by decide) accepted
  have mtuSize : (getPacketOpenConnectionRequest2 podrumOffline.inetNtop (openRequest 60)).map
      (fun result => result.1.mtuSize) = some 60 := by decide
  rw [decoded] at mtuSize
  have least : (newConnection peer request.mtuSize).mtuSize = 60 := Option.some.inj mtuSize
  have arithmetic := (carried _ _ _ _ _ _ { stream := [0xfe] } (by decide) accepted stored).1
  rw [least] at arithmetic
  exact arithmetic.divisor (by decide) (by decide)

end PodrumRakNet.FragmentSize

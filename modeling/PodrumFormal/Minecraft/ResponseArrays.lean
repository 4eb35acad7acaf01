import PodrumFormal.Lib.CellLoops
import PodrumFormal.Minecraft.Dispatch

/-!
# The arrays of a resource pack response

`on_f` fills the entry ids of the creative content and frees the ids of the
response in loops over `ii`, and names the cells by the position `i` of the
sub-packet.  An array is its cells: an id that is not written is `none`, a
decoded id is held or freed.
-/

set_option autoImplicit false

namespace PodrumMinecraft.ResponseArrays

open CellLoops PodrumMisc.CString PodrumRakNet.Packet Player Dispatch

/-! ## The two loops -/

def fillEntryIds (i creativeItems : Nat) : Option (List (Option UInt32)) :=
  (List.range creativeItems).foldlM (fun entryIds _ii => put i (some (i + 1).toUInt32) entryIds)
    (List.replicate creativeItems none)

def freeIds (i size : Nat) : Option (List Bool) :=
  (List.range size).foldlM (fun ids _ii => release i ids) (List.replicate size true)

/-- `1 .. n` in order. -/
def countedIds (creativeItems : Nat) : List (Option UInt32) :=
  (List.range creativeItems).map fun index => some (index + 1).toUInt32

def freedIds (size : Nat) : List Bool := List.replicate size false

theorem fillEntryIds_eq (i creativeItems : Nat) :
    fillEntryIds i creativeItems = if creativeItems = 0 then some []
      else put i (some (i + 1).toUInt32) (List.replicate creativeItems none) := by
  rw [fillEntryIds, foldlM_put]
  by_cases empty : creativeItems = 0
  · rw [if_pos empty, empty]
    rfl
  · rw [if_neg empty, if_neg (mt List.range_eq_nil.mp empty)]

/-- The dispatcher's array is the one of the loop. -/
theorem creativeEntryIds_fills (i creativeItems : Nat) :
    creativeEntryIds i creativeItems = orFault .outOfBounds (fillEntryIds i creativeItems) := by
  rw [fillEntryIds_eq, creativeEntryIds, put, List.length_replicate]
  split
  · rfl
  · split <;> rfl

/-- With two cells or more, one of them is not written. -/
theorem put_ne_counted (i creativeItems : Nat) :
    put i (some (i + 1).toUInt32) (List.replicate (creativeItems + 2) none) ≠
      some (countedIds (creativeItems + 2)) := by
  intro filled
  unfold put at filled
  split at filled
  · obtain ⟨cell, other, inside⟩ : ∃ cell, i ≠ cell ∧ cell < creativeItems + 2 := by
      by_cases first : i = 0
      · exact ⟨1, by omega, by omega⟩
      · exact ⟨0, first, by omega⟩
    have unwritten : ((List.replicate (creativeItems + 2) (none : Option UInt32)).set i
        (some (i + 1).toUInt32))[cell]? = some none := by
      rw [List.getElem?_set_ne other, List.getElem?_replicate, if_pos inside]
    have counted : (countedIds (creativeItems + 2))[cell]? = some (some (cell + 1).toUInt32) := by
      simp [countedIds, inside]
    rw [Option.some.inj filled, counted] at unwritten
    cases unwritten
  · cases filled

theorem fillEntryIds_counted_iff (i creativeItems : Nat) :
    fillEntryIds i creativeItems = some (countedIds creativeItems) ↔
      creativeItems = 0 ∨ (creativeItems = 1 ∧ i = 0) := by
  rw [fillEntryIds_eq]
  match creativeItems with
  | 0 => exact iff_of_true rfl (.inl rfl)
  | 1 =>
      rw [if_neg Nat.one_ne_zero, put, List.length_replicate]
      by_cases first : i = 0
      · rw [first]
        exact iff_of_true rfl (.inr ⟨rfl, rfl⟩)
      · rw [if_neg (by omega)]
        exact iff_of_false nofun (by omega)
  | creativeItems + 2 =>
      rw [if_neg (by omega)]
      exact iff_of_false (put_ne_counted i creativeItems) (by omega)

theorem freeIds_freed_iff (i size : Nat) :
    freeIds i size = some (freedIds size) ↔ size = 0 ∨ (size = 1 ∧ i = 0) := by
  rw [freeIds, foldlM_release]
  match size with
  | 0 => exact iff_of_true rfl (.inl rfl)
  | 1 =>
      by_cases first : i = 0
      · rw [first]
        exact iff_of_true rfl (.inr ⟨rfl, rfl⟩)
      · have outside : release i (List.replicate 1 true) = none :=
          if_neg (by rw [List.getElem?_eq_none (by rw [List.length_replicate]; omega)]; nofun)
        refine iff_of_false ?_ (by omega)
        show release i (List.replicate 1 true) ≠ _
        rw [outside]
        nofun
  | size + 2 =>
      rw [List.range_succ_eq_map, List.range_succ_eq_map]
      exact iff_of_false nofun (by omega)

/-! ## The loop over a batch -/

/-- What becomes of the arrays of a response; `none` is a write or a read
outside of them, or a second free. -/
structure ArrayUse where
  position : Nat
  responseStatus : UInt8
  ids : List (List UInt8)
  entryIds : Option (List (Option UInt32))
  freed : Option (List Bool)
  deriving DecidableEq

/-- Only `RESOURCE_PACK_CLIENT_RESPONSE_COMPLETED` has a creative content. -/
def responseUse (creativeItems i : Nat) (responseStatus : UInt8) (ids : List (List UInt8)) :
    ArrayUse where
  position := i
  responseStatus
  ids
  entryIds :=
    if responseStatus = resourcePackClientResponseCompleted then fillEntryIds i creativeItems
    else some []
  freed := freeIds i ids.length

def packetUses (environment : GameEnvironment) (address : MiscAddress) (i : Nat)
    (state : GameState) : GamePacket → List ArrayUse
  | .resourcePackClientResponse responseStatus ids =>
      match getMinecraftPlayerAddress address state.manager with
      | none => []
      | some _ => [responseUse environment.creativeItems i responseStatus ids]
  | _ => []

/-- The responses that the loop comes to, with their arrays. -/
def batchUses (environment : GameEnvironment) (address : MiscAddress) :
    Nat → List GamePacket → GameState → List ArrayUse
  | _, [], _ => []
  | i, packet :: packets, state =>
      packetUses environment address i state packet ++
        match handleGamePacket environment address i packet state with
        | .ok (state, true) => batchUses environment address (i + 1) packets state
        | _ => []

/-- The entry ids are `1 .. n`, no cell outside is written, and each of the ids
is freed once. -/
def ArrayUse.Right (creativeItems : Nat) (arrays : ArrayUse) : Prop :=
  (arrays.responseStatus = resourcePackClientResponseCompleted →
      arrays.entryIds = some (countedIds creativeItems)) ∧
    arrays.freed = some (freedIds arrays.ids.length)

/-- The arrays have no cell, or one, and then the response is the first
sub-packet. -/
def ArrayUse.Fits (creativeItems : Nat) (arrays : ArrayUse) : Prop :=
  (arrays.responseStatus = resourcePackClientResponseCompleted →
      creativeItems = 0 ∨ (creativeItems = 1 ∧ arrays.position = 0)) ∧
    (arrays.ids.length = 0 ∨ (arrays.ids.length = 1 ∧ arrays.position = 0))

theorem responseUse_right_iff (creativeItems i : Nat) (responseStatus : UInt8)
    (ids : List (List UInt8)) :
    (responseUse creativeItems i responseStatus ids).Right creativeItems ↔
      (responseUse creativeItems i responseStatus ids).Fits creativeItems := by
  refine and_congr (forall_congr' fun completed => ?_) (freeIds_freed_iff i ids.length)
  dsimp only [responseUse] at completed ⊢
  rw [if_pos completed]
  exact fillEntryIds_counted_iff i creativeItems

section Batch

variable {environment : GameEnvironment} {address : MiscAddress}

theorem mem_packetUses {i : Nat} {state : GameState} {packet : GamePacket} {arrays : ArrayUse}
    (member : arrays ∈ packetUses environment address i state packet) :
    ∃ responseStatus ids, packet = .resourcePackClientResponse responseStatus ids ∧
      arrays = responseUse environment.creativeItems i responseStatus ids := by
  cases packet with
  | resourcePackClientResponse responseStatus ids =>
      refine ⟨responseStatus, ids, rfl, ?_⟩
      simp only [packetUses] at member
      split at member
      · cases member
      · exact List.mem_singleton.mp member
  | _ => cases member

/-- Arrays are those of a response of the batch at their position. -/
theorem mem_batchUses {packets : List GamePacket} {arrays : ArrayUse} :
    ∀ {i : Nat} {state : GameState}, arrays ∈ batchUses environment address i packets state →
      ∃ j responseStatus ids, packets[j]? = some (.resourcePackClientResponse responseStatus ids) ∧
        arrays = responseUse environment.creativeItems (i + j) responseStatus ids := by
  induction packets with
  | nil =>
      intro i state member
      cases member
  | cons packet packets ih =>
      intro i state member
      rcases List.mem_append.mp member with now | later
      · obtain ⟨responseStatus, ids, rfl, same⟩ := mem_packetUses now
        exact ⟨0, responseStatus, ids, rfl, same⟩
      · split at later
        · obtain ⟨j, responseStatus, ids, found, same⟩ := ih later
          refine ⟨j + 1, responseStatus, ids, found, ?_⟩
          rw [same, Nat.add_assoc, Nat.add_comm 1 j]
        · cases later

end Batch

/-- At every response that a batch comes to, the arrays are right exactly where
they fit. -/
theorem arrays_right_iff (environment : GameEnvironment) (address : MiscAddress)
    (packets : List GamePacket) (state : GameState) :
    ∀ arrays ∈ batchUses environment address 0 packets state,
      packets[arrays.position]? =
          some (.resourcePackClientResponse arrays.responseStatus arrays.ids) ∧
        (arrays.Right environment.creativeItems ↔ arrays.Fits environment.creativeItems) := by
  intro arrays member
  obtain ⟨j, responseStatus, ids, found, rfl⟩ := mem_batchUses member
  rw [Nat.zero_add]
  exact ⟨found, responseUse_right_iff environment.creativeItems j responseStatus ids⟩

def localAddress : MiscAddress := ⟨4, [], 19132⟩

/-- One player, and an environment whose logins fail. -/
def localState : GameState where
  manager := addMinecraftPlayer (newPlayer localAddress 594 (-1) 1) KeyedArray.empty

def localEnvironment (creativeItems : Nat) : GameEnvironment where
  login _ :=
    { time := fun _ => 0
      unwrittenOutLen := fun _ => 0
      unwrittenSignatureSize := fun _ => 0
      beyondBuffer := fun _ bytes => bytes
      readFreed := fun bytes => bytes
      floatBits := fun _ => 0
      i2dEcdsaSig := fun _ _ => []
      mdCtxNew := false
      digestVerifyInit := fun _ => 0
      digestVerifyUpdate := fun _ => 0
      digestVerifyFinal := fun _ _ _ => 0 }
  uniqueDraws _ := []
  runtimeDraws _ := []
  creativeItems

theorem arrays_right_iff_one :
    [GamePacket.resourcePackClientResponse 4 [[0x61]]][0]? =
        some (.resourcePackClientResponse 4 [[0x61]]) ∧
      ((responseUse 1 0 4 [[0x61]]).Right 1 ↔ (responseUse 1 0 4 [[0x61]]).Fits 1) :=
  arrays_right_iff (localEnvironment 1) localAddress
    [.resourcePackClientResponse 4 [[0x61]]] localState (responseUse 1 0 4 [[0x61]]) (by decide)

/-- The second sub-packet: only the second of two entry ids is written, and the
one id of the response is not freed but the cell behind it. -/
theorem secondResponse_wrong :
    batchUses (localEnvironment 2) localAddress 0
      [.containerClose 0, .resourcePackClientResponse 4 [[0x61]]] localState =
        [⟨1, 4, [[0x61]], some [none, some 2], none⟩] := by decide

end PodrumMinecraft.ResponseArrays

import PodrumFormal.Minecraft.GamePacket
import PodrumFormal.Minecraft.PacketFormats

/-!
# The reads of a batch

`get_packet_game` splits a batch into sub-packets before `on_f` looks at the
first of them.  No getter compares its offset with the size: a batch is read
inside its bytes exactly when it and the sub-packets in it are laid out as
their lengths, ids and types say.
-/

set_option autoImplicit false

namespace PodrumMinecraft.BatchReads

open ByteReader ByteLayout ByteFormat PodrumStream.BinaryStream PodrumStream.VarInt
open PodrumStream.StreamLayout Login GamePacket PacketGetters PacketFormats

/-! ## The reads of `on_f` -/

def pidOf (header : UInt32) : UInt32 := header &&& 0x3ff

def ignored {α : Type} (reader : Reader α) : Reader Unit := do
  let _ ← reader
  pure ()

/-- The packets that need a player, whose flag `spawned` is given. -/
def playerPacket (spawned : UInt8) (pid : UInt32) : Reader Unit :=
  if pid = idResourcePackClientResponse then ignored getPacketResourcePackClientResponse
  else if pid = idRequestChunkRadius then
    if spawned = 1 then pure () else ignored getPacketRequestChunkRadius
  else if pid = idInteract then ignored getPacketInteract
  else if pid = idText then ignored getPacketText
  else if pid = idContainerClose then ignored getPacketContainerClose
  else if pid = idMovePlayer then ignored getPacketMovePlayer
  else if pid = idRequestAbility then ignored getPacketRequestAbility
  else if pid = idPlayerSkin then ignored getPacketPlayerSkin
  else pure ()

def spawnedAfter (spawned : UInt8) (pid : UInt32) : UInt8 :=
  if pid = idRequestChunkRadius then 1 else spawned

/-- A client without a player gets one, if its protocol is served. -/
def registered (protocolVersion : Int32) (player : Option UInt8) : Option UInt8 :=
  if 594 ≤ protocolVersion then player.or (some 0) else player

/-- One round of the loop of `on_f`: `player` is the flag `spawned` of the
client's player, if it has one, and the value is the same after the round,
`none` where the loop is left.  `comesBack` says of a login whether its handler
returns. -/
def subPacket (comesBack : PacketLogin → Bool) (player : Option UInt8) :
    Reader (Option (Option UInt8)) := do
  let header ← getVarInt
  if pidOf header = idRequestNetworkSettings then do
    let setting ← getPacketRequestNetworkSetting
    pure (some (registered setting.protocolVersion player))
  else if pidOf header = idLogin then
    match player with
    | none => pure (some none)
    | some spawned => do
        let login ← getPacketLogin
        pure (if comesBack login then some (some spawned) else none)
  else
    match player with
    | none => pure none
    | some spawned => do
        playerPacket spawned (pidOf header)
        pure (some (some (spawnedAfter spawned (pidOf header))))

/-- The sub-packets from position `i` on. -/
def subPacketsReads (comesBack : Nat → PacketLogin → Bool) :
    Nat → Option UInt8 → List (List UInt8) → Option Unit
  | _, _, [] => some ()
  | i, player, stream :: streams => do
      let (next, _) ← subPacket (comesBack i) player stream
      match next with
      | none => some ()
      | some player => subPacketsReads comesBack (i + 1) player streams

/-- A decompressed batch. -/
def batchReads (comesBack : Nat → PacketLogin → Bool) (player : Option UInt8)
    (data : List UInt8) : Option Unit := do
  let (streams, _) ← readAll getEntryStream data
  subPacketsReads comesBack 0 player streams

/-! ## Their layout -/

def playerPacketFormat (spawned : UInt8) (pid : UInt32) : Format :=
  if pid = idResourcePackClientResponse then resourcePackClientResponseFormat
  else if pid = idRequestChunkRadius then if spawned = 1 then 1 else varIntFormat
  else if pid = idInteract then interactFormat
  else if pid = idText then textFormat
  else if pid = idContainerClose then anyBytes 2
  else if pid = idMovePlayer then movePlayerFormat
  else if pid = idRequestAbility then requestAbilityFormat
  else if pid = idPlayerSkin then playerSkinFormat
  else 1

/-- What a round reads, by the id and by whether there is a player. -/
inductive SubPacketLayout (comesBack : PacketLogin → Bool) :
    Option UInt8 → Layout (Option (Option UInt8))
  | requestNetworkSettings {player : Option UInt8} {header : UInt32} {first : List UInt8}
      {protocolVersion : Int32} (head : VarIntLayout header first)
      (pid : pidOf header = idRequestNetworkSettings) :
      SubPacketLayout comesBack player (some (registered protocolVersion player))
        (first ++ putIntBe protocolVersion)
  | loginIgnored {header : UInt32} {first : List UInt8} (head : VarIntLayout header first)
      (pid : pidOf header = idLogin) : SubPacketLayout comesBack none (some none) first
  | login {spawned : UInt8} {header : UInt32} {first block : List UInt8} {login : PacketLogin}
      (head : VarIntLayout header first) (pid : pidOf header = idLogin)
      (body : LoginLayout login block) :
      SubPacketLayout comesBack (some spawned)
        (if comesBack login then some (some spawned) else none) (first ++ block)
  | noPlayer {header : UInt32} {first : List UInt8} (head : VarIntLayout header first)
      (notSettings : pidOf header ≠ idRequestNetworkSettings) (notLogin : pidOf header ≠ idLogin) :
      SubPacketLayout comesBack none none first
  | packet {spawned : UInt8} {header : UInt32} {first block : List UInt8}
      (head : VarIntLayout header first)
      (notSettings : pidOf header ≠ idRequestNetworkSettings) (notLogin : pidOf header ≠ idLogin)
      (body : block ∈ playerPacketFormat spawned (pidOf header)) :
      SubPacketLayout comesBack (some spawned)
        (some (some (spawnedAfter spawned (pidOf header)))) (first ++ block)

theorem takes_ignored {α : Type} {format : Format} {reader : Reader α}
    (takes : Takes format reader) : Takes format (ignored reader) := takes.map fun _ => ()

theorem takes_playerPacket (spawned : UInt8) (pid : UInt32) :
    Takes (playerPacketFormat spawned pid) (playerPacket spawned pid) := by
  unfold playerPacketFormat playerPacket
  split
  · exact takes_ignored takes_resourcePackClientResponse
  split
  · split
    · exact Takes.pure ()
    · exact takes_ignored takes_requestChunkRadius
  split
  · exact takes_ignored takes_interact
  split
  · exact takes_ignored takes_text
  split
  · exact takes_ignored takes_containerClose
  split
  · exact takes_ignored takes_movePlayer
  split
  · exact takes_ignored takes_requestAbility
  split
  · exact takes_ignored takes_playerSkin
  · exact Takes.pure ()

theorem describes_subPacket (comesBack : PacketLogin → Bool) (player : Option UInt8) :
    Describes (SubPacketLayout comesBack player) (subPacket comesBack player) where
  reads next block holds := by
    cases holds with
    | @requestNetworkSettings _ header first protocolVersion head pid =>
        refine (describes_varInt.reads header first head).bind ?_
        rw [if_pos pid]
        exact ((reads_intBe protocolVersion).map rfl).map rfl
    | @loginIgnored header first head pid =>
        refine (describes_varInt.reads header block head).bind_pure ?_
        rw [if_neg (by rw [pid]; decide), if_pos pid]
        exact Reads.pure _
    | @login spawned header first block login head pid body =>
        refine (describes_varInt.reads header first head).bind ?_
        rw [if_neg (by rw [pid]; decide), if_pos pid]
        exact (describes_login.reads login block body).map rfl
    | @noPlayer header first head notSettings notLogin =>
        refine (describes_varInt.reads header block head).bind_pure ?_
        rw [if_neg notSettings, if_neg notLogin]
        exact Reads.pure _
    | @packet spawned header first block head notSettings notLogin body =>
        refine (describes_varInt.reads header first head).bind ?_
        rw [if_neg notSettings, if_neg notLogin]
        exact ((takes_playerPacket spawned _).describes.reads () block body).map rfl
  split bytes next rest success := by
    obtain ⟨⟨header, middle⟩, first, read1⟩ := Option.bind_eq_some_iff.mp success
    obtain ⟨block, head, rfl⟩ := describes_varInt.split bytes header middle first
    dsimp only at read1
    split at read1
    · rename_i pid
      obtain ⟨⟨setting, last⟩, asked, read2⟩ := Option.bind_eq_some_iff.mp read1
      obtain ⟨⟨protocolVersion, _⟩, number, read3⟩ := Option.bind_eq_some_iff.mp asked
      obtain ⟨_, rfl, rfl⟩ := describes_intBe.split middle protocolVersion _ number
      cases read3
      cases read2
      exact ⟨_, .requestNetworkSettings head pid, (List.append_assoc ..).symm⟩
    rename_i notSettings
    split at read1
    · rename_i pid
      cases player with
      | none =>
          cases read1
          exact ⟨block, .loginIgnored head pid, rfl⟩
      | some spawned =>
          obtain ⟨⟨login, last⟩, decoded, read2⟩ := Option.bind_eq_some_iff.mp read1
          obtain ⟨body, holds, rfl⟩ := describes_login.split middle login last decoded
          cases read2
          exact ⟨block ++ body, .login head pid holds, (List.append_assoc ..).symm⟩
    · rename_i notLogin
      cases player with
      | none =>
          cases read1
          exact ⟨block, .noPlayer head notSettings notLogin, rfl⟩
      | some spawned =>
          obtain ⟨⟨_, last⟩, decoded, read2⟩ := Option.bind_eq_some_iff.mp read1
          obtain ⟨body, member, rfl⟩ := (takes_playerPacket spawned _).split middle () last decoded
          cases read2
          exact ⟨block ++ body, .packet head notSettings notLogin member,
            (List.append_assoc ..).symm⟩

/-- Sub-packets that begin with what their rounds read, up to the round that
leaves the loop. -/
def SubPacketsFit (comesBack : Nat → PacketLogin → Bool) :
    Nat → Option UInt8 → List (List UInt8) → Prop
  | _, _, [] => True
  | i, player, stream :: streams =>
      ∃ next block rest, SubPacketLayout (comesBack i) player next block ∧
        stream = block ++ rest ∧
        ∀ after, next = some after → SubPacketsFit comesBack (i + 1) after streams

theorem subPacketsReads_iff (comesBack : Nat → PacketLogin → Bool) :
    ∀ (streams : List (List UInt8)) (i : Nat) (player : Option UInt8),
      subPacketsReads comesBack i player streams = some () ↔
        SubPacketsFit comesBack i player streams := by
  intro streams
  induction streams with
  | nil => exact fun _ _ => iff_of_true rfl trivial
  | cons stream streams ih =>
      intro i player
      rw [subPacketsReads, SubPacketsFit]
      constructor
      · intro success
        obtain ⟨⟨next, rest⟩, read, later⟩ := Option.bind_eq_some_iff.mp success
        obtain ⟨block, layout, same⟩ :=
          (describes_subPacket (comesBack i) player).split stream next rest read
        refine ⟨next, block, rest, layout, same, ?_⟩
        rintro after rfl
        exact (ih _ _).mp later
      · rintro ⟨next, block, rest, layout, rfl, others⟩
        have read := (describes_subPacket (comesBack i) player).reads next block layout rest
        rw [read]
        cases next with
        | none => rfl
        | some after => exact (ih _ _).mpr (others after rfl)

/-! ## A batch -/

/-- A length, and as many bytes. -/
def EntryLayout : Layout (List UInt8) := fun stream block =>
  ∃ size first, VarIntLayout size first ∧ stream.length = size.toNat ∧ block = first ++ stream

theorem describes_entryStream : Describes EntryLayout getEntryStream := by
  refine (describes_varInt.bind fun size => describes_bytes size.toNat).congr fun stream block => ?_
  constructor
  · rintro ⟨size, first, measured, length, rfl⟩
    exact ⟨size, first, stream, measured, ⟨rfl, length⟩, rfl⟩
  · rintro ⟨size, first, _, measured, ⟨rfl, length⟩, rfl⟩
    exact ⟨size, first, measured, length, rfl⟩

def BatchFits (comesBack : Nat → PacketLogin → Bool) (player : Option UInt8)
    (data : List UInt8) : Prop :=
  ∃ streams, Row EntryLayout streams data ∧ SubPacketsFit comesBack 0 player streams

/-- A batch is read inside its bytes, and its strings written inside theirs, if
and only if it is laid out so. -/
theorem batchReads_iff (comesBack : Nat → PacketLogin → Bool) (player : Option UInt8)
    (data : List UInt8) :
    batchReads comesBack player data = some () ↔ BatchFits comesBack player data := by
  have loop := describes_entryStream.readAll_iff getEntryStream_progress data
  rw [batchReads]
  constructor
  · intro success
    obtain ⟨⟨streams, final⟩, split, reads⟩ := Option.bind_eq_some_iff.mp success
    exact ⟨streams, ((loop _ _).mp split).2, (subPacketsReads_iff comesBack _ _ _).mp reads⟩
  · rintro ⟨streams, row, fits⟩
    rw [(loop streams []).mpr ⟨rfl, row⟩]
    exact (subPacketsReads_iff comesBack _ _ _).mpr fits

/-- A translated text with one parameter. -/
theorem parameter_outside :
    ¬∀ (comesBack : Nat → PacketLogin → Bool) (player : Option UInt8) (data : List UInt8),
      batchReads comesBack player data = some () := by
  intro always
  have inside := always (fun _ _ => true) (some 1)
    [0x08, 0x09, 0x02, 0x01, 0x00, 0x01, 0x00, 0x00, 0x00]
  revert inside
  decide

end PodrumMinecraft.BatchReads

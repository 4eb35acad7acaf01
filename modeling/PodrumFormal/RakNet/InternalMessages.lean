import PodrumFormal.Misc.CString
import PodrumFormal.RakNet.Packet
import PodrumFormal.RakNet.Frame

/-!
# Internal messages

What the two threads send each other, as bytes in a queue.  A string goes with
its length in 32 bits and is read into that length and one byte more, which is
nothing for the longest.
-/

set_option autoImplicit false

namespace PodrumRakNet.InternalMessages

open ByteReader PodrumMisc.CString PodrumStream.BinaryStream
open PodrumRakNet.Frame PodrumRakNet.Packet

def internalFrame : UInt8 := 0x00
def internalNewIncomingConnection : UInt8 := 0x01
def internalDisconnectNotification : UInt8 := 0x02
def internalSetOption : UInt8 := 0x03

/-- `offset` is the one of the frame's stream. -/
structure InternalFrame where
  address : MiscAddress
  frame : MiscFrame
  offset : Nat := 0
  deriving DecidableEq, Repr

structure InternalSetOption where
  name : List UInt8
  option : List UInt8
  deriving DecidableEq, Repr

/-! ## Putters -/

def putInternalText (text : List UInt8) : List UInt8 :=
  let size := UInt32.ofNat (cString text).length
  putUnsignedIntLe size ++ putBytes ((cString text).take size.toNat)

def putInternalAddress (address : MiscAddress) : List UInt8 :=
  putInternalText address.address ++ putUnsignedShortLe address.port ++
  putUnsignedByte address.version

def putInternalFrame (message : InternalFrame) : List UInt8 :=
  putUnsignedByte internalFrame ++ putInternalAddress message.address ++
  putUnsignedByte message.frame.reliability ++
  (if isReliable message.frame.reliability then
    putUnsignedTriadLe message.frame.reliableFrameIndex else []) ++
  (if isSequenced message.frame.reliability then
    putUnsignedTriadLe message.frame.sequencedFrameIndex else []) ++
  (if isOrdered message.frame.reliability then
    putUnsignedTriadLe message.frame.orderedFrameIndex ++
      putUnsignedByte message.frame.orderChannel else []) ++
  putUnsignedIntLe (UInt32.ofNat message.frame.stream.length) ++ putBytes message.frame.stream

def putInternalNewIncomingConnection (address : MiscAddress) : List UInt8 :=
  putUnsignedByte internalNewIncomingConnection ++ putInternalAddress address

def putInternalDisconnectNotification (address : MiscAddress) : List UInt8 :=
  putUnsignedByte internalDisconnectNotification ++ putInternalAddress address

def putInternalSetOption (message : InternalSetOption) : List UInt8 :=
  putUnsignedByte internalSetOption ++ putInternalText message.name ++
  putInternalText message.option

/-! ## Getters -/

/-- `size + 1` bytes are allocated, a sum in 32 bits, and the terminator is
written behind `size` of them. -/
def getInternalText : Reader (List UInt8) := do
  let size ← getUnsignedIntLe
  if size.toNat < (size + 1).toNat then do
    let text ← readCount getUnsignedByte size.toNat
    pure (cString text)
  else fun _ => none

def getInternalAddress : Reader MiscAddress := do
  let address ← getInternalText
  let port ← getUnsignedShortLe
  let version ← getUnsignedByte
  pure { version, address, port }

/-- A field that the reliability leaves out is left unassigned by the source,
and is zero here. -/
def getInternalFrame : Reader InternalFrame := do
  let _ ← getUnsignedByte
  let address ← getInternalAddress
  let reliability ← getUnsignedByte
  let reliableFrameIndex ← readWhen (isReliable reliability) getUnsignedTriadLe 0
  let sequencedFrameIndex ← readWhen (isSequenced reliability) getUnsignedTriadLe 0
  let order ← readWhen (isOrdered reliability) getOrder (0, 0)
  let size ← getUnsignedIntLe
  let stream ← getBytes size.toNat
  pure {
    address
    frame := {
      reliability, isFragmented := 0, reliableFrameIndex, sequencedFrameIndex
      orderedFrameIndex := order.1, orderChannel := order.2, stream }
    offset := 0 }

def getInternalNewIncomingConnection : Reader MiscAddress := do
  let _ ← getUnsignedByte
  getInternalAddress

def getInternalDisconnectNotification : Reader MiscAddress := do
  let _ ← getUnsignedByte
  getInternalAddress

def getInternalSetOption : Reader InternalSetOption := do
  let _ ← getUnsignedByte
  let name ← getInternalText
  let option ← getInternalText
  pure { name, option }

/-! ## One message of any kind -/

inductive Internal
  | frame (message : InternalFrame)
  | newIncomingConnection (address : MiscAddress)
  | disconnectNotification (address : MiscAddress)
  | setOption (message : InternalSetOption)
  deriving DecidableEq, Repr

def putInternal : Internal → List UInt8
  | .frame message => putInternalFrame message
  | .newIncomingConnection address => putInternalNewIncomingConnection address
  | .disconnectNotification address => putInternalDisconnectNotification address
  | .setOption message => putInternalSetOption message

/-- The tests of `handle_raknet_internal` on the first byte. -/
def getInternal : Reader Internal := fun stream => do
  let kind ← stream.head?
  if kind = internalFrame then (Internal.frame <$> getInternalFrame) stream
  else if kind = internalSetOption then (Internal.setOption <$> getInternalSetOption) stream
  else if kind = internalDisconnectNotification then
    (Internal.disconnectNotification <$> getInternalDisconnectNotification) stream
  else if kind = internalNewIncomingConnection then
    (Internal.newIncomingConnection <$> getInternalNewIncomingConnection) stream
  else none

/-- What arrives: a frame without its fragment fields and without the indices
that its reliability does not use. -/
def received : Internal → Internal
  | .frame message => .frame {
      address := message.address
      frame := wireFrame { message.frame with isFragmented := 0 }
      offset := 0 }
  | .newIncomingConnection address => .newIncomingConnection address
  | .disconnectNotification address => .disconnectNotification address
  | .setOption message => .setOption message

def texts : Internal → List (List UInt8)
  | .frame message => [message.address.address]
  | .newIncomingConnection address => [address.address]
  | .disconnectNotification address => [address.address]
  | .setOption message => [message.name, message.option]

/-- The indices of a frame have three bytes, and its payload has a length of
four. -/
def FrameFits : Internal → Prop
  | .frame message =>
      message.frame.reliableFrameIndex.toNat < 2 ^ 24 ∧
      message.frame.sequencedFrameIndex.toNat < 2 ^ 24 ∧
      message.frame.orderedFrameIndex.toNat < 2 ^ 24 ∧ message.frame.stream.length < 2 ^ 32
  | _ => True

structure Fits (message : Internal) : Prop where
  frame : FrameFits message
  nonzero : ∀ text ∈ texts message, (0 : UInt8) ∉ text
  short : ∀ text ∈ texts message, text.length < 2 ^ 32

/-! ## Strings -/

section Text

variable {text : List UInt8}

theorem putInternalText_eq (nonzero : (0 : UInt8) ∉ text) (short : text.length < 2 ^ 32) :
    putInternalText text = putUnsignedIntLe (UInt32.ofNat text.length) ++ text := by
  have size : (UInt32.ofNat text.length).toNat = text.length := UInt32.toNat_ofNat_of_lt' short
  simp only [putInternalText, cString_of_nonzero nonzero, size, List.take_length]
  rfl

theorem reads_internalText (nonzero : (0 : UInt8) ∉ text) (short : text.length + 1 < 2 ^ 32) :
    Reads getInternalText (putInternalText text) text := by
  have size : (UInt32.ofNat text.length).toNat = text.length :=
    UInt32.toNat_ofNat_of_lt' (Nat.lt_of_succ_lt short)
  have room : (UInt32.ofNat text.length).toNat < (UInt32.ofNat text.length + 1).toNat := by
    rw [UInt32.toNat_add, size, UInt32.toNat_one, Nat.mod_eq_of_lt short]
    exact Nat.lt_succ_self _
  rw [putInternalText_eq nonzero (Nat.lt_of_succ_lt short), getInternalText]
  refine (reads_unsignedIntLe _).bind ?_
  rw [if_pos room, size]
  exact (reads_characters text).map (cString_of_nonzero nonzero)

/-- Nothing is allocated for the longest text. -/
theorem fails_internalText (nonzero : (0 : UInt8) ∉ text) (long : text.length + 1 = 2 ^ 32) :
    Fails getInternalText (putInternalText text) := by
  have short : text.length < 2 ^ 32 := long ▸ Nat.lt_succ_self _
  have size : (UInt32.ofNat text.length).toNat = text.length := UInt32.toNat_ofNat_of_lt' short
  have room : ¬ (UInt32.ofNat text.length).toNat < (UInt32.ofNat text.length + 1).toNat := by
    rw [UInt32.toNat_add, UInt32.toNat_one, size, long]
    exact Nat.not_lt_zero _
  rw [putInternalText_eq nonzero short, getInternalText]
  refine Fails.bind_after (reads_unsignedIntLe _) ?_
  rw [if_neg room]
  exact fun _ => rfl

end Text

/-! ## The bodies -/

section Bodies

variable {address : MiscAddress}

theorem reads_internalAddress (nonzero : (0 : UInt8) ∉ address.address)
    (short : address.address.length + 1 < 2 ^ 32) :
    Reads getInternalAddress (putInternalAddress address) address := by
  rw [putInternalAddress, List.append_assoc]
  exact (reads_internalText nonzero short).bind
    ((reads_unsignedShortLe _).bind ((reads_unsignedByte _).bind_pure (Reads.pure _)))

theorem fails_internalAddress (nonzero : (0 : UInt8) ∉ address.address)
    (long : address.address.length + 1 = 2 ^ 32) :
    Fails getInternalAddress (putInternalAddress address) := by
  rw [putInternalAddress, List.append_assoc]
  exact ((fails_internalText nonzero long).append _).bind

theorem reads_internalFrame {message : InternalFrame} (fits : Fits (.frame message))
    (short : message.address.address.length + 1 < 2 ^ 32) :
    Reads getInternalFrame (putInternalFrame message) {
      address := message.address
      frame := wireFrame { message.frame with isFragmented := 0 }
      offset := 0 } := by
  obtain ⟨reliable, sequenced, ordered, payload⟩ := fits.frame
  have nonzero := fits.nonzero message.address.address List.mem_cons_self
  have size : (UInt32.ofNat message.frame.stream.length).toNat = message.frame.stream.length :=
    UInt32.toNat_ofNat_of_lt' payload
  unfold getInternalFrame putInternalFrame
  simp only [List.append_assoc]
  apply (reads_unsignedByte _).bind
  apply (reads_internalAddress nonzero short).bind
  apply (reads_unsignedByte _).bind
  refine (Reads.readWhen (isReliable message.frame.reliability) 0 fun _ =>
    reads_unsignedTriadLe _ reliable).bind ?_
  refine (Reads.readWhen (isSequenced message.frame.reliability) 0 fun _ =>
    reads_unsignedTriadLe _ sequenced).bind ?_
  refine (Reads.readWhen (isOrdered message.frame.reliability) (0, 0) fun _ =>
    reads_order message.frame ordered).bind ?_
  apply (reads_unsignedIntLe _).bind
  rw [size]
  apply (reads_bytes message.frame.stream).bind_pure
  simp only [apply_ite Prod.fst, apply_ite Prod.snd]
  exact Reads.pure _

theorem fails_internalFrame {message : InternalFrame}
    (nonzero : (0 : UInt8) ∉ message.address.address)
    (long : message.address.address.length + 1 = 2 ^ 32) :
    Fails getInternalFrame (putInternalFrame message) := by
  unfold getInternalFrame putInternalFrame
  simp only [List.append_assoc]
  apply Fails.bind_after (reads_unsignedByte _)
  exact ((fails_internalAddress nonzero long).append _).bind

theorem forall_optionTexts {message : InternalSetOption} {law : List UInt8 → Prop} :
    (∀ text ∈ texts (.setOption message), law text) ↔ law message.name ∧ law message.option := by
  rw [texts, List.forall_mem_cons, List.forall_mem_singleton]

theorem reads_internalSetOption {message : InternalSetOption} (fits : Fits (.setOption message))
    (short : ∀ text ∈ texts (.setOption message), text.length + 1 < 2 ^ 32) :
    Reads getInternalSetOption (putInternalSetOption message) message := by
  obtain ⟨nameNonzero, optionNonzero⟩ := forall_optionTexts.mp fits.nonzero
  obtain ⟨nameShort, optionShort⟩ := forall_optionTexts.mp short
  rw [putInternalSetOption, List.append_assoc]
  exact (reads_unsignedByte _).bind ((reads_internalText nameNonzero nameShort).bind
    ((reads_internalText optionNonzero optionShort).bind_pure (Reads.pure _)))

theorem fails_internalSetOption {message : InternalSetOption} (fits : Fits (.setOption message))
    (long : ∃ text ∈ texts (.setOption message), text.length + 1 = 2 ^ 32) :
    Fails getInternalSetOption (putInternalSetOption message) := by
  obtain ⟨nameNonzero, optionNonzero⟩ := forall_optionTexts.mp fits.nonzero
  rw [putInternalSetOption, List.append_assoc]
  apply Fails.bind_after (reads_unsignedByte _)
  by_cases nameLong : message.name.length + 1 = 2 ^ 32
  · exact ((fails_internalText nameNonzero nameLong).append _).bind
  · have nameShort := fits.short message.name List.mem_cons_self
    have optionLong : message.option.length + 1 = 2 ^ 32 := by
      by_contra optionShort
      have none' : ∀ text ∈ texts (.setOption message), ¬ text.length + 1 = 2 ^ 32 :=
        forall_optionTexts.mpr ⟨nameLong, optionShort⟩
      obtain ⟨text, member, same⟩ := long
      exact none' text member same
    exact Fails.bind_after (reads_internalText nameNonzero (by omega))
      (fails_internalText optionNonzero optionLong).bind

end Bodies

/-! ## The messages -/

section Messages

variable {message : Internal}

def getterOf : Internal → Reader Internal
  | .frame _ => Internal.frame <$> getInternalFrame
  | .newIncomingConnection _ => Internal.newIncomingConnection <$> getInternalNewIncomingConnection
  | .disconnectNotification _ =>
      Internal.disconnectNotification <$> getInternalDisconnectNotification
  | .setOption _ => Internal.setOption <$> getInternalSetOption

/-- The first byte selects the getter of the kind. -/
theorem getInternal_putInternal (message : Internal) (rest : List UInt8) :
    getInternal (putInternal message ++ rest) =
      getterOf message (putInternal message ++ rest) := by
  cases message with
  | frame message => simp only [putInternal, putInternalFrame, List.append_assoc]; rfl
  | newIncomingConnection address => rfl
  | disconnectNotification address => rfl
  | setOption message => simp only [putInternal, putInternalSetOption, List.append_assoc]; rfl

theorem reads_getterOf (fits : Fits message)
    (short : ∀ text ∈ texts message, text.length + 1 < 2 ^ 32) :
    Reads (getterOf message) (putInternal message) (received message) := by
  cases message with
  | frame message =>
      exact (reads_internalFrame fits (short _ List.mem_cons_self)).functor Internal.frame
  | newIncomingConnection address =>
      have body := reads_internalAddress (fits.nonzero _ List.mem_cons_self)
        (short _ List.mem_cons_self)
      exact ((reads_unsignedByte _).bind body).functor Internal.newIncomingConnection
  | disconnectNotification address =>
      have body := reads_internalAddress (fits.nonzero _ List.mem_cons_self)
        (short _ List.mem_cons_self)
      exact ((reads_unsignedByte _).bind body).functor Internal.disconnectNotification
  | setOption message =>
      exact (reads_internalSetOption fits short).functor Internal.setOption

theorem fails_getterOf (fits : Fits message)
    (long : ∃ text ∈ texts message, text.length + 1 = 2 ^ 32) :
    Fails (getterOf message) (putInternal message) := by
  cases message with
  | frame message =>
      obtain ⟨text, member, long⟩ := long
      obtain rfl := List.mem_singleton.mp member
      exact (fails_internalFrame (fits.nonzero _ member) long).functor Internal.frame
  | newIncomingConnection address =>
      obtain ⟨text, member, long⟩ := long
      obtain rfl := List.mem_singleton.mp member
      have body := fails_internalAddress (fits.nonzero _ member) long
      exact (Fails.bind_after (reads_unsignedByte _) body).functor Internal.newIncomingConnection
  | disconnectNotification address =>
      obtain ⟨text, member, long⟩ := long
      obtain rfl := List.mem_singleton.mp member
      have body := fails_internalAddress (fits.nonzero _ member) long
      exact (Fails.bind_after (reads_unsignedByte _) body).functor
        Internal.disconnectNotification
  | setOption message => exact (fails_internalSetOption fits long).functor Internal.setOption

theorem fails_internal (fits : Fits message)
    (long : ∃ text ∈ texts message, text.length + 1 = 2 ^ 32) :
    Fails getInternal (putInternal message) := fun rest => by
  rw [getInternal_putInternal]
  exact fails_getterOf fits long rest

/-- A message comes back, whatever follows it, exactly when none of its strings
has the greatest length. -/
theorem internal_reads_iff (fits : Fits message) :
    Reads getInternal (putInternal message) (received message) ↔
      ∀ text ∈ texts message, text.length < 2 ^ 32 - 1 := by
  constructor
  · intro reads text member
    have short := fits.short text member
    by_contra long
    have failure := fails_internal fits ⟨text, member, by omega⟩ []
    rw [reads []] at failure
    cases failure
  · intro short rest
    rw [getInternal_putInternal]
    exact reads_getterOf fits (fun text member => Nat.add_lt_of_lt_sub (short text member)) rest

end Messages

theorem internal_reads_option :
    Fits (.setOption ⟨[110], [111]⟩) ∧
      (Reads getInternal (putInternal (.setOption ⟨[110], [111]⟩))
          (received (.setOption ⟨[110], [111]⟩)) ↔
        ∀ text ∈ texts (.setOption ⟨[110], [111]⟩), text.length < 2 ^ 32 - 1) := by
  have fits : Fits (.setOption ⟨[110], [111]⟩) := ⟨trivial, by decide, by decide⟩
  exact ⟨fits, internal_reads_iff fits⟩

/-- A name of 4294967295 characters. -/
theorem longName_fails :
    Fits (.setOption ⟨List.replicate (2 ^ 32 - 1) 110, []⟩) ∧
      ¬ Reads getInternal (putInternal (.setOption ⟨List.replicate (2 ^ 32 - 1) 110, []⟩))
        (received (.setOption ⟨List.replicate (2 ^ 32 - 1) 110, []⟩)) := by
  have fits : Fits (.setOption ⟨List.replicate (2 ^ 32 - 1) 110, []⟩) := by
    refine ⟨trivial, forall_optionTexts.mpr ⟨?_, ?_⟩, forall_optionTexts.mpr ⟨?_, ?_⟩⟩
    · intro member
      exact absurd (List.eq_of_mem_replicate member) (by decide)
    · exact List.not_mem_nil
    · rw [List.length_replicate]
      exact Nat.sub_one_lt (by decide)
    · exact Nat.two_pow_pos 32
  refine ⟨fits, fun reads => ?_⟩
  have failure := fails_internal fits
    ⟨List.replicate (2 ^ 32 - 1) 110, List.mem_cons_self,
      by rw [List.length_replicate]; exact Nat.sub_add_cancel (Nat.two_pow_pos 32)⟩ []
  rw [reads []] at failure
  cases failure

end PodrumRakNet.InternalMessages

import Mathlib.Data.List.Basic
import Mathlib.Data.List.TakeWhile

/-!
# C strings

A `char *` is the list of the bytes that may be read from it.  The functions
of the C library are given where the source uses them, with the ways a
computation can end without a result.
-/

set_option autoImplicit false

namespace PodrumMisc.CString

/-- `outOfBounds` is an access outside an allocation or through `NULL`,
`unwritten` a read of a variable no branch has written, `wrongMember` a use of
a union through a member it does not hold. -/
inductive Fault
  | outOfBounds
  | unwritten
  | wrongMember
  | exit
  | outOfFuel
  deriving DecidableEq, Repr

variable {α β : Type}

theorem bind_eq_ok {first : Except Fault α} {next : α → Except Fault β} {result : β} :
    first >>= next = .ok result ↔ ∃ value, first = .ok value ∧ next value = .ok result := by
  cases first with
  | error fault => simp [bind, Except.bind]
  | ok value => simp [bind, Except.bind]

theorem map_eq_ok {first : Except Fault α} {convert : α → β} {result : β} :
    first.map convert = .ok result ↔ ∃ value, first = .ok value ∧ convert value = result := by
  cases first <;> simp [Except.map]

theorem ok_bind (value : α) (next : α → Except Fault β) :
    (Except.ok value >>= next) = next value := rfl

/-- A value the source reads without asking whether it is there. -/
def orFault (fault : Fault) : Option α → Except Fault α
  | some value => .ok value
  | none => .error fault

theorem orFault_eq_ok {fault : Fault} {present : Option α} {value : α} :
    orFault fault present = .ok value ↔ present = some value := by
  cases present <;> simp [orFault]

def bytes (text : String) : List UInt8 := text.toUTF8.data.toList

/-- The bytes before the terminator. -/
def cString (buffer : List UInt8) : List UInt8 := buffer.takeWhile (· ≠ 0)

theorem cString_of_nonzero {text : List UInt8} (nonzero : (0 : UInt8) ∉ text) :
    cString text = text :=
  List.takeWhile_eq_self_iff.mpr fun _ member =>
    decide_eq_true fun zero => nonzero (zero ▸ member)

theorem cString_zero {text : List UInt8} (nonzero : 0 ∉ text) (rest : List UInt8) :
    cString (text ++ 0 :: rest) = text := by
  have kept : cString (text ++ 0 :: rest) = text ++ cString (0 :: rest) :=
    List.takeWhile_append_of_pos fun byte member =>
      decide_eq_true fun zero => nonzero (zero ▸ member)
  exact kept.trans (List.append_nil text)

theorem zero_not_mem_cString (buffer : List UInt8) : 0 ∉ cString buffer := by
  intro member
  have nonzero := List.mem_takeWhile_imp (p := (· ≠ 0)) (l := buffer) member
  exact of_decide_eq_true nonzero rfl

/-- `strcmp(left, right) == 0`. -/
def strcmpEqual : List UInt8 → List UInt8 → Except Fault Bool
  | leftByte :: left, rightByte :: right =>
      if leftByte ≠ rightByte then .ok false
      else if leftByte = 0 then .ok true
      else strcmpEqual left right
  | _, _ => .error .outOfBounds

/-- What `strcmp` finds equal agrees up to a first zero byte, and nothing is
known of the bytes after it. -/
theorem strcmpEqual_true {left right : List UInt8} :
    strcmpEqual left right = .ok true ↔
      ∃ shared leftRest rightRest, (0 : UInt8) ∉ shared ∧
        left = shared ++ 0 :: leftRest ∧ right = shared ++ 0 :: rightRest := by
  induction left generalizing right with
  | nil =>
      have impossible : strcmpEqual [] right = .error .outOfBounds := by cases right <;> rfl
      simp [impossible]
  | cons leftByte left ih =>
      cases right with
      | nil => simp [strcmpEqual]
      | cons rightByte right =>
          by_cases same : leftByte = rightByte
          · subst same
            by_cases zero : leftByte = 0
            · subst zero
              simp only [strcmpEqual, ne_eq, not_true_eq_false, if_false, if_true, true_iff]
              exact ⟨[], left, right, by simp, rfl, rfl⟩
            · rw [strcmpEqual, if_neg (not_not_intro rfl), if_neg zero, ih]
              constructor
              · rintro ⟨shared, leftRest, rightRest, nonzero, rfl, rfl⟩
                refine ⟨leftByte :: shared, leftRest, rightRest, ?_, rfl, rfl⟩
                rw [List.mem_cons]
                exact not_or_intro (Ne.symm zero) nonzero
              · rintro ⟨shared, leftRest, rightRest, nonzero, leftEq, rightEq⟩
                cases shared with
                | nil => exact absurd (List.cons.inj leftEq).1 zero
                | cons first shared =>
                    exact ⟨shared, leftRest, rightRest,
                      fun member => nonzero (List.mem_cons_of_mem _ member),
                      (List.cons.inj leftEq).2, (List.cons.inj rightEq).2⟩
          · rw [strcmpEqual, if_pos same]
            constructor
            · intro impossible
              cases impossible
            · rintro ⟨shared, leftRest, rightRest, -, leftEq, rightEq⟩
              cases shared with
              | nil =>
                  exact absurd ((List.cons.inj leftEq).1.trans (List.cons.inj rightEq).1.symm) same
              | cons first shared =>
                  exact absurd ((List.cons.inj leftEq).1.trans (List.cons.inj rightEq).1.symm) same

/-- One call of `strtok` with one delimiter: the token, and where the next
call goes on. -/
def strtok (delimiter : UInt8) (text : List UInt8) : Option (List UInt8) × List UInt8 :=
  match text.dropWhile (· = delimiter) with
  | [] => (none, [])
  | token =>
      (some (token.takeWhile (· ≠ delimiter)), (token.dropWhile (· ≠ delimiter)).tail)

end PodrumMisc.CString

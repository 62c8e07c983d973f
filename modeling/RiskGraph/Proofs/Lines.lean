import Mathlib.Tactic.SplitIfs
import RiskGraph.Json.Document

/-!
# JSON data on one line

Whatever texts the data holds, its own text has no line break.
-/

namespace RiskGraph.Json

/-- A text without a line break. -/
def IsLine (text : String) : Prop :=
  '\n' ∉ text.toList

namespace IsLine

theorem append {left right : String} (left_line : IsLine left) (right_line : IsLine right) :
    IsLine (left ++ right) := by
  simp_all [IsLine]

theorem intercalate {texts : List String} (each : ∀ text ∈ texts, IsLine text) :
    IsLine (",".intercalate texts) := by
  induction texts with
  | nil => simp [IsLine]
  | cons text texts induction =>
      obtain ⟨first, others⟩ := List.forall_mem_cons.mp each
      cases texts with
      | nil => simpa using first
      | cons =>
          rw [String.intercalate_cons_cons]
          exact (first.append (by simp [IsLine])).append (induction others)

end IsLine

theorem digitChar_ne_newline : ∀ n < 16, Nat.digitChar n ≠ '\n' := by decide

theorem newline_notMem_escapedChar (c : Char) : '\n' ∉ escapedChar c := by
  unfold escapedChar
  split_ifs with _ _ _ _ plain _ _ control
  any_goals decide
  · have first := (digitChar_ne_newline (c.toNat / 16) (by omega)).symm
    have second := (digitChar_ne_newline (c.toNat % 16) (by omega)).symm
    simp [controlDigits, first, second]
  · simpa using Ne.symm plain

theorem isLine_writeText (content : String) : IsLine (writeText content) := by
  simp [IsLine, writeText, newline_notMem_escapedChar]

theorem newline_notMem_toDigits (n : Nat) : '\n' ∉ Nat.toDigits 10 n := by
  intro member
  have digit := Nat.isDigit_of_mem_toDigits (by decide) (by decide) member
  revert digit
  decide

theorem isLine_integerText (n : Int) : IsLine (integerText n) := by
  unfold integerText
  split <;> simp [IsLine, newline_notMem_toDigits]

theorem newline_notMem_positional (decimal : Decimal) : '\n' ∉ decimal.positional := by
  have digits := newline_notMem_toDigits decimal.coefficient
  have taken (n : Nat) := mt (List.mem_of_mem_take (i := n)) digits
  have dropped (n : Nat) := mt (List.mem_of_mem_drop (i := n)) digits
  unfold Decimal.positional Decimal.digits
  split
  · simp [digits]
  · dsimp only
    split
    · simp [taken, dropped]
    · simp [digits]

theorem newline_notMem_pointed (decimal : Decimal) : '\n' ∉ decimal.pointed := by
  have positional := newline_notMem_positional decimal
  have power (n : Int) : '\n' ∉ Decimal.exponentText n := by
    unfold Decimal.exponentText
    split_ifs <;> simp [newline_notMem_toDigits]
  have digits : '\n' ∉ decimal.digits := newline_notMem_toDigits decimal.coefficient
  unfold Decimal.pointed
  dsimp only
  split
  · split <;> simp [positional]
  · split <;> simp_all

theorem isLine_writeNumber (number : JsonNumber) : IsLine (writeNumber number) := by
  cases number with
  | integer n => exact isLine_integerText n
  | real x =>
      cases x with
      | nan => simp [IsLine, writeNumber, RealNotation.write]
      | infinite negative => cases negative <;> simp [IsLine, writeNumber, RealNotation.write]
      | finite negative units proper =>
          simp only [IsLine, writeNumber, RealNotation.write, RealNotation.pointed,
            String.toList_ofList]
          split_ifs <;> simp [newline_notMem_pointed]

mutual

/-- JSON data is written on one line. -/
theorem isLine_write : ∀ json : Json, IsLine json.write
  | null => by simp [IsLine, write]
  | bool b => by cases b <;> simp [IsLine, write, truthText]
  | number n => isLine_writeNumber n
  | text content => isLine_writeText content
  | array items => by
      rw [write]
      exact (IsLine.append (by simp [IsLine]) (.intercalate (isLine_writeItems items))).append
        (by simp [IsLine])
  | object members => by
      rw [write]
      exact (IsLine.append (by simp [IsLine]) (.intercalate (isLine_writeMembers members))).append
        (by simp [IsLine])

theorem isLine_writeItems : ∀ items : List Json, ∀ text ∈ writeItems items, IsLine text
  | [] => nofun
  | item :: items =>
      List.forall_mem_cons.mpr ⟨isLine_write item, isLine_writeItems items⟩

theorem isLine_writeMembers :
    ∀ members : List (String × Json), ∀ text ∈ writeMembers members, IsLine text
  | [] => nofun
  | (key, value) :: members =>
      List.forall_mem_cons.mpr
        ⟨((isLine_writeText key).append (by simp [IsLine])).append (isLine_write value),
          isLine_writeMembers members⟩

end

end RiskGraph.Json

import Mathlib.Data.Char
import Mathlib.Data.List.Lex
import RiskGraph.Calendar
import RiskGraph.Proofs.DigitText

/-!
# Numbers of fixed width

Rows of as many digits are ordered as the numbers that they write.  A layout has slots for such rows
and a mark before each of them.  Texts that fill one layout are ordered by the first number in which
they differ, and are the same only if all numbers are.
-/

namespace RiskGraph

/-! ## Lexicographic order -/

/-- Rows of one length decide before what follows them. -/
theorem append_lt_append_iff {row other text rest : List Char}
    (length_eq : row.length = other.length) :
    row ++ text < other ++ rest ↔ row < other ∨ row = other ∧ text < rest := by
  induction row generalizing other with
  | nil =>
      cases other with
      | nil => simp
      | cons => cases length_eq
  | cons a row induction =>
      cases other with
      | nil => cases length_eq
      | cons b other =>
          simp only [List.cons_append, List.cons_lt_cons_iff, List.cons.injEq,
            induction (Nat.succ.inj length_eq)]
          tauto

theorem mul_add_lt_mul_add_iff {base m n low high : Nat} (low_lt : low < base)
    (high_lt : high < base) :
    base * m + low < base * n + high ↔ m < n ∨ m = n ∧ low < high := by
  rcases lt_trichotomy m n with lt | rfl | gt
  · have step := Nat.mul_le_mul_left base (Nat.succ_le_of_lt lt)
    rw [Nat.mul_succ] at step
    omega
  · omega
  · have step := Nat.mul_le_mul_left base (Nat.succ_le_of_lt gt)
    rw [Nat.mul_succ] at step
    omega

/-! ## Rows of digits -/

theorem ofDigitChars_cons_eq (c : Char) (row : List Char) :
    Nat.ofDigitChars 10 (c :: row) 0 =
      tenPow row.length * (c.toNat - '0'.toNat) + Nat.ofDigitChars 10 row 0 := by
  rw [Nat.ofDigitChars_cons, Nat.mul_zero, Nat.zero_add]
  exact Nat.ofDigitChars_eq_ofDigitChars_zero

/-- A row of ASCII digits of a given length writes a number. -/
structure WritesNumber (width : Nat) (row : List Char) (n : Nat) : Prop where
  length_eq : row.length = width
  digits : ∀ c ∈ row, c.isDigit
  value_eq : Nat.ofDigitChars 10 row 0 = n

namespace WritesNumber

variable {width m n : Nat} {row other : List Char} {c : Char}

theorem toNat_of_isDigit (digit : c.isDigit) : c.toNat = '0'.toNat + (c.toNat - '0'.toNat) := by
  obtain ⟨below, char_eq⟩ := digitChar_of_isDigit digit
  have value_eq := Nat.toNat_digitChar_of_lt_ten below
  rwa [char_eq] at value_eq

theorem lt_iff_of_isDigit {d : Char} (digit : c.isDigit) (other_digit : d.isDigit) :
    c < d ↔ c.toNat - '0'.toNat < d.toNat - '0'.toNat := by
  have char_eq := toNat_of_isDigit digit
  have other_eq := toNat_of_isDigit other_digit
  change c.toNat < d.toNat ↔ _
  omega

/-- A row is its first digit, in the highest place, and the number behind it. -/
theorem cons_iff :
    WritesNumber (width + 1) (c :: row) n ↔ c.isDigit ∧
      ∃ rest, WritesNumber width row rest ∧ tenPow width * (c.toNat - '0'.toNat) + rest = n := by
  constructor
  · rintro ⟨length_eq, digits, value_eq⟩
    obtain ⟨digit, digits⟩ := List.forall_mem_cons.mp digits
    have row_length : row.length = width := Nat.succ.inj length_eq
    refine ⟨digit, _, ⟨row_length, digits, rfl⟩, ?_⟩
    rw [← value_eq, ofDigitChars_cons_eq, row_length]
  · rintro ⟨digit, rest, ⟨row_length, digits, rfl⟩, rfl⟩
    refine ⟨congrArg Nat.succ row_length, List.forall_mem_cons.mpr ⟨digit, digits⟩, ?_⟩
    rw [ofDigitChars_cons_eq, row_length]

theorem lt_pow (written : WritesNumber width row n) : n < tenPow width := by
  induction row generalizing width n with
  | nil =>
      obtain ⟨rfl, -, rfl⟩ := written
      decide
  | cons c row induction =>
      obtain rfl := written.length_eq
      obtain ⟨digit, rest, behind, rfl⟩ := cons_iff.mp written
      have below := (digitChar_of_isDigit digit).1
      have rest_lt := induction behind
      have step := Nat.mul_le_mul_left (tenPow row.length) (Nat.le_of_lt_succ below)
      have carried : tenPow (row.length + 1) = tenPow row.length * 10 := rfl
      rw [List.length_cons, carried]
      omega

theorem lt_iff (first : WritesNumber width row m) (second : WritesNumber width other n) :
    row < other ↔ m < n := by
  induction row generalizing width m n other with
  | nil =>
      obtain ⟨rfl, -, rfl⟩ := first
      obtain rfl := List.length_eq_zero_iff.mp second.length_eq
      obtain ⟨-, -, rfl⟩ := second
      simp
  | cons c row induction =>
      obtain rfl := first.length_eq
      obtain ⟨d, other, rfl⟩ := List.exists_cons_of_length_eq_add_one second.length_eq
      obtain ⟨digit, low, behind, rfl⟩ := cons_iff.mp first
      obtain ⟨other_digit, high, other_behind, rfl⟩ := cons_iff.mp second
      have digit_eq : c = d ↔ c.toNat - '0'.toNat = d.toNat - '0'.toNat := by
        rw [← Char.toNat_inj, toNat_of_isDigit digit, toNat_of_isDigit other_digit]
        omega
      rw [List.cons_lt_cons_iff, induction behind other_behind,
        mul_add_lt_mul_add_iff behind.lt_pow other_behind.lt_pow,
        lt_iff_of_isDigit digit other_digit, digit_eq]

theorem eq_iff (first : WritesNumber width row m) (second : WritesNumber width other n) :
    row = other ↔ m = n := by
  rw [← not_iff_not, ← ne_eq, ← ne_eq, ← lt_or_lt_iff_ne, ← lt_or_lt_iff_ne,
    first.lt_iff second, second.lt_iff first]

/-- A row is the number that it writes, filled up with zeros. -/
theorem eq_padded (written : WritesNumber width row n) (nonempty : 0 < width) :
    row = (padded width n).toList := by
  have row_ne : row ≠ [] := by
    rintro rfl
    exact absurd written.length_eq nonempty.ne
  obtain ⟨zeros, row_eq⟩ := exists_zeros_eq row_ne written.digits
  have value_eq : digitsValue row = n := written.value_eq
  have width_eq := written.length_eq
  rw [value_eq] at row_eq
  rw [row_eq, List.length_append, List.length_replicate] at width_eq
  rw [padded, String.toList_ofList, ← width_eq, Nat.add_sub_cancel, row_eq]

end WritesNumber

/-! ## Layouts -/

/-- A place for a row of digits, behind a mark. -/
structure Slot where
  mark : List Char
  width : Nat
  nonempty : 0 < width := by decide
  /-- The mark has no digits of any script. -/
  plain : mark.any isDecimalDigit = false := by decide +kernel

/-- A text writes one number in each slot of a layout. -/
inductive Fills : List Slot → List Char → List Nat → Prop
  | nil : Fills [] [] []
  | cons {slot : Slot} {layout : List Slot} {row text : List Char} {n : Nat} {numbers : List Nat}
      (written : WritesNumber slot.width row n) (rest : Fills layout text numbers) :
      Fills (slot :: layout) (slot.mark ++ row ++ text) (n :: numbers)

/-- The shape of the texts that fill a layout. -/
def layoutShape (layout : List Slot) : List Char :=
  layout.flatMap fun slot => slot.mark ++ List.replicate slot.width '0'

/-- The numbers that a text has where a layout has slots. -/
def slotNumbers : List Slot → List Char → List Nat
  | [], _ => []
  | slot :: layout, text =>
      Nat.ofDigitChars 10 ((text.drop slot.mark.length).take slot.width) 0 ::
        slotNumbers layout (text.drop (slot.mark.length + slot.width))

/-- Numbers written into a layout. -/
def filledLayout : List Slot → List Nat → List Char
  | slot :: layout, n :: numbers =>
      slot.mark ++ (padded slot.width n).toList ++ filledLayout layout numbers
  | _, _ => []

theorem shapeOf_append (isDigit : Char → Bool) (text other : List Char) :
    shapeOf isDigit (text ++ other) = shapeOf isDigit text ++ shapeOf isDigit other :=
  List.map_append

theorem length_shapeOf (isDigit : Char → Bool) (text : List Char) :
    (shapeOf isDigit text).length = text.length :=
  List.length_map _

theorem shapeOf_of_plain {isDigit : Char → Bool} {text : List Char}
    (plain : ∀ c ∈ text, isDigit c = false) : shapeOf isDigit text = text :=
  (List.map_congr_left fun c member => by rw [plain c member]; rfl).trans (List.map_id _)

theorem shapeOf_eq_replicate_iff {isDigit : Char → Bool} {text : List Char} {width : Nat}
    (zero : isDigit '0') :
    shapeOf isDigit text = List.replicate width '0' ↔
      text.length = width ∧ ∀ c ∈ text, isDigit c := by
  rw [List.eq_replicate_iff, length_shapeOf, shapeOf, List.forall_mem_map]
  refine and_congr_right fun _ => forall₂_congr fun c _ => ?_
  split_ifs with digit
  · simp [digit]
  · refine iff_of_false ?_ digit
    rintro rfl
    exact digit zero

/-- A text has the shape of a mark only if it is the mark. -/
theorem eq_mark_of_shapeOf_eq {isDigit : Char → Bool} {text mark : List Char}
    (no_digits : mark.any isDecimalDigit = false) (shape_eq : shapeOf isDigit text = mark) :
    text = mark := by
  have plain : ∀ c ∈ text, isDigit c = false := by
    intro c member
    by_contra digit
    rw [Bool.not_eq_false] at digit
    have zero : '0' ∈ mark := by
      rw [← shape_eq]
      exact List.mem_map.mpr ⟨c, member, if_pos digit⟩
    exact absurd (List.any_eq_false.mp no_digits '0' zero) (by decide +kernel)
  rw [← shape_eq, shapeOf_of_plain plain]

namespace Fills

variable {layout first second : List Slot} {text other : List Char} {numbers others : List Nat}

theorem append (front : Fills first text numbers) (back : Fills second other others) :
    Fills (first ++ second) (text ++ other) (numbers ++ others) := by
  induction front with
  | nil => exact back
  | cons written _ induction =>
      rw [List.append_assoc]
      exact .cons written induction

theorem lt_iff (filled : Fills layout text numbers) (refilled : Fills layout other others) :
    text < other ↔ numbers < others := by
  induction filled generalizing other others with
  | nil =>
      cases refilled
      simp
  | @cons slot _ _ _ _ _ written _ induction =>
      cases refilled with
      | cons rewritten rest =>
          have same_length := written.length_eq.trans rewritten.length_eq.symm
          rw [List.append_assoc, List.append_assoc, append_lt_append_iff rfl,
            append_lt_append_iff same_length, written.lt_iff rewritten, written.eq_iff rewritten,
            induction rest, List.cons_lt_cons_iff]
          simp

theorem eq_iff (filled : Fills layout text numbers) (refilled : Fills layout other others) :
    text = other ↔ numbers = others := by
  rw [← not_iff_not, ← ne_eq, ← ne_eq, ← lt_or_lt_iff_ne, ← lt_or_lt_iff_ne,
    filled.lt_iff refilled, refilled.lt_iff filled]

theorem lt_pow {slot : Slot} {n : Nat} (filled : Fills (slot :: layout) text (n :: numbers)) :
    n < tenPow slot.width := by
  cases filled with
  | cons written => exact written.lt_pow

theorem eq_filledLayout (filled : Fills layout text numbers) :
    text = filledLayout layout numbers := by
  induction filled with
  | nil => rfl
  | @cons slot _ _ _ _ _ written _ induction =>
      rw [filledLayout, ← written.eq_padded slot.nonempty, ← induction]

theorem shapeOf_eq {isDigit : Char → Bool} (ascii : ∀ c : Char, c.isDigit → isDigit c)
    (decimal : ∀ c, isDigit c → isDecimalDigit c) (filled : Fills layout text numbers) :
    shapeOf isDigit text = layoutShape layout := by
  induction filled with
  | nil => rfl
  | @cons slot _ row _ _ _ written _ induction =>
      have mark_eq : shapeOf isDigit slot.mark = slot.mark := by
        refine shapeOf_of_plain fun c member => ?_
        by_contra digit
        exact List.any_eq_false.mp slot.plain c member
          (decimal c (Bool.of_not_eq_false digit))
      have row_eq : shapeOf isDigit row = List.replicate slot.width '0' :=
        (shapeOf_eq_replicate_iff (ascii '0' rfl)).mpr
          ⟨written.length_eq, fun c member => ascii c (written.digits c member)⟩
      rw [shapeOf_append, shapeOf_append, mark_eq, row_eq, induction]
      rfl

end Fills

theorem fills_iff {layout : List Slot} {text : List Char} {numbers : List Nat} :
    Fills layout text numbers ↔
      shapeOf Char.isDigit text = layoutShape layout ∧ slotNumbers layout text = numbers := by
  constructor
  · intro filled
    refine ⟨filled.shapeOf_eq (fun _ => id) fun _ => isDecimalDigit_of_isDigit, ?_⟩
    induction filled with
    | nil => rfl
    | @cons slot _ row _ _ _ written _ induction =>
        rw [slotNumbers, ← List.length_append.trans (congrArg _ written.length_eq),
          List.drop_left, induction, List.append_assoc, List.drop_left,
          List.take_left' written.length_eq, written.value_eq]
  · rintro ⟨shape_eq, rfl⟩
    induction layout generalizing text with
    | nil =>
        obtain rfl := List.map_eq_nil_iff.mp shape_eq
        exact .nil
    | cons slot layout induction =>
        rw [layoutShape, List.flatMap_cons, List.append_assoc] at shape_eq
        obtain ⟨mark, behind, rfl, mark_eq, behind_eq⟩ := List.map_eq_append_iff.mp shape_eq
        obtain ⟨row, rest, rfl, row_eq, rest_eq⟩ := List.map_eq_append_iff.mp behind_eq
        obtain rfl := eq_mark_of_shapeOf_eq slot.plain mark_eq
        obtain ⟨length_eq, digits⟩ := (shapeOf_eq_replicate_iff rfl).mp row_eq
        rw [slotNumbers, ← List.append_assoc,
          ← List.length_append.trans (congrArg _ length_eq), List.drop_left, List.append_assoc,
          List.drop_left, List.take_left' length_eq, ← List.append_assoc]
        exact .cons ⟨length_eq, digits, rfl⟩ (induction rest_eq)

theorem Fills.length_eq {layout : List Slot} {text : List Char} {numbers : List Nat}
    (filled : Fills layout text numbers) : text.length = (layoutShape layout).length := by
  rw [← (fills_iff.mp filled).1, length_shapeOf]

end RiskGraph

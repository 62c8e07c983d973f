import RiskGraph.Proofs.Exactness

/-!
# Texts of integers

An integer is written by a row of ASCII digits with at most one sign in front.  Exactly the texts of
integers of 64 bits are read, as what they write, and what an integer is shown as is such a text.
Reading digit by digit in words of 64 bits, of which none may overflow, gives the same: no row
writes less than a row that it starts with.
-/

namespace RiskGraph

section

variable {row text : List Char} {m n : Nat} {z : Int} {word : Int64}

/-! ## Rows of digits -/

/-- A row of ASCII digits writes a number: with one more digit behind it, ten times as much and that
digit. -/
inductive WritesNatural : List Char → Nat → Prop
  | digit {d : Nat} (below : d < 10) : WritesNatural [d.digitChar] d
  | snoc {row : List Char} {n d : Nat} (front : WritesNatural row n) (below : d < 10) :
      WritesNatural (row ++ [d.digitChar]) (10 * n + d)

theorem digitChar_toNat_sub {d : Nat} (below : d < 10) : d.digitChar.toNat - '0'.toNat = d := by
  rw [Nat.toNat_digitChar_of_lt_ten below]
  exact Nat.add_sub_cancel_left ..

theorem writesNatural_iff :
    WritesNatural row n ↔ row ≠ [] ∧ (∀ c ∈ row, c.isDigit) ∧ digitsValue row = n := by
  constructor
  · intro written
    induction written with
    | @digit d below =>
        have value_eq : digitsValue [d.digitChar] = d := by
          simpa [digitsValue] using digitChar_toNat_sub below
        simp [Nat.isDigit_digitChar, below, value_eq]
    | @snoc row n d front below induction =>
        obtain ⟨-, digits, rfl⟩ := induction
        refine ⟨by simp, ?_, by rw [digitsValue_append_singleton, digitChar_toNat_sub below]⟩
        exact List.forall_mem_append.mpr ⟨digits, by simp [Nat.isDigit_digitChar, below]⟩
  · rintro ⟨nonempty, digits, rfl⟩
    induction row using List.reverseRecOn with
    | nil => exact absurd rfl nonempty
    | append_singleton front last induction =>
        obtain ⟨below, last_eq⟩ := digitChar_of_isDigit (digits last (by simp))
        rw [digitsValue_append_singleton]
        nth_rewrite 1 [← last_eq]
        by_cases empty : front = []
        · subst empty
          simpa [digitsValue] using WritesNatural.digit below
        · exact .snoc (induction empty fun c member => digits c (by simp [member])) below

theorem readDigits?_eq_some_iff_writes : readDigits? row = some n ↔ WritesNatural row n := by
  rw [readDigits?_eq_some_iff, writesNatural_iff]

theorem writesNatural_toDigits (n : Nat) : WritesNatural (Nat.toDigits 10 n) n :=
  writesNatural_iff.mpr ⟨Nat.toDigits_ne_nil,
    fun _ => Nat.isDigit_of_mem_toDigits (by decide) (by decide),
    Nat.ofDigitChars_toDigits (by decide) (by decide)⟩

theorem not_writesNatural_of_sign {c : Char} (sign : c.isDigit = false) :
    ¬WritesNatural (c :: row) n := by
  intro written
  have digit := (writesNatural_iff.mp written).2.1 c List.mem_cons_self
  rw [sign] at digit
  cases digit

/-! ## Signs -/

/-- A row of digits with at most one sign in front writes an integer. -/
inductive WritesInteger : List Char → Int → Prop
  | unsigned {row : List Char} {n : Nat} (written : WritesNatural row n) : WritesInteger row n
  | plus {row : List Char} {n : Nat} (written : WritesNatural row n) : WritesInteger ('+' :: row) n
  | minus {row : List Char} {n : Nat} (written : WritesNatural row n) :
      WritesInteger ('-' :: row) (-n)

theorem writesInteger_minus_iff :
    WritesInteger ('-' :: row) z ↔ ∃ n : Nat, WritesNatural row n ∧ -(n : Int) = z := by
  constructor
  · rintro (written | _ | written)
    · exact absurd written (not_writesNatural_of_sign rfl)
    · exact ⟨_, written, rfl⟩
  · rintro ⟨n, written, rfl⟩
    exact .minus written

theorem writesInteger_plus_iff :
    WritesInteger ('+' :: row) z ↔ ∃ n : Nat, WritesNatural row n ∧ (n : Int) = z := by
  constructor
  · rintro (written | written | _)
    · exact absurd written (not_writesNatural_of_sign rfl)
    · exact ⟨_, written, rfl⟩
  · rintro ⟨n, written, rfl⟩
    exact .plus written

theorem writesInteger_unsigned_iff (no_minus : ∀ row, text ≠ '-' :: row)
    (no_plus : ∀ row, text ≠ '+' :: row) :
    WritesInteger text z ↔ ∃ n : Nat, WritesNatural text n ∧ (n : Int) = z := by
  constructor
  · rintro (written | _ | _)
    · exact ⟨_, written, rfl⟩
    · exact absurd rfl (no_plus _)
    · exact absurd rfl (no_minus _)
  · rintro ⟨n, written, rfl⟩
    exact .unsigned written

theorem readInteger?_eq_some_iff : readInteger? text = some z ↔ WritesInteger text z := by
  unfold readInteger?
  split
  · simp [Option.bind_eq_some_iff, readDigits?_eq_some_iff_writes, writesInteger_minus_iff]
  · simp only [Option.map_eq_some_iff, readDigits?_eq_some_iff_writes, writesInteger_plus_iff]
    rfl
  · next no_minus no_plus =>
      simp only [Option.map_eq_some_iff, readDigits?_eq_some_iff_writes,
        writesInteger_unsigned_iff no_minus no_plus]
      rfl

theorem writesInteger_integerText (z : Int) : WritesInteger (integerText z).toList z := by
  have written := writesNatural_toDigits z.natAbs
  unfold integerText
  split
  · next negative =>
      have text_eq : ("-" ++ String.ofList (Nat.toDigits 10 z.natAbs)).toList =
          '-' :: Nat.toDigits 10 z.natAbs := by
        simp
      rw [text_eq]
      exact writesInteger_minus_iff.mpr ⟨_, written, by omega⟩
  · next nonnegative =>
      rw [String.toList_ofList]
      have value_eq : (z.natAbs : Int) = z := by omega
      exact value_eq ▸ .unsigned written

/-- What a text writes is determined by it. -/
theorem WritesInteger.eq {y : Int} (written : WritesInteger text z)
    (other : WritesInteger text y) : z = y :=
  Option.some_inj.mp ((readInteger?_eq_some_iff.mpr written).symm.trans
    (readInteger?_eq_some_iff.mpr other))

/-! ## Words -/

theorem toInt64?_eq_some_iff : toInt64? z = some word ↔ word.toInt = z := by
  constructor
  · exact toInt_of_toInt64?
  · rintro rfl
    have lower : -int64Limit ≤ word.toInt := Int64.le_toInt word
    have upper : word.toInt < int64Limit := Int64.toInt_lt word
    rw [toInt64?, if_pos ⟨lower, upper⟩, Int64.ofInt_toInt]

theorem readInt64?_eq_some_iff {s : String} :
    readInt64? s = some word ↔ WritesInteger s.toList word.toInt := by
  simp [readInt64?, Option.bind_eq_some_iff, readInteger?_eq_some_iff, toInt64?_eq_some_iff]

/-- A word and one more digit behind it, away from zero; neither the place that is made for the
digit nor the digit itself may lead beyond 64 bits. -/
def appendDigit? (negative : Bool) (word : Int64) (c : Char) : Option Int64 :=
  if c.isDigit then
    (toInt64? (10 * word.toInt)).bind fun shifted =>
      toInt64? (shifted.toInt + Binary64.signed negative (c.toNat - '0'.toNat))
  else none

/-- Reads one or more digits, every digit behind the word of those before it. -/
def accumulate? (negative : Bool) (row : List Char) : Option Int64 :=
  if row ≠ [] then row.foldlM (appendDigit? negative) 0 else none

/-- Reads the text of an integer in words of 64 bits. -/
def readWord? : List Char → Option Int64
  | '-' :: row => accumulate? true row
  | '+' :: row => accumulate? false row
  | row => accumulate? false row

/-- What lies nearer to zero than a word is a word too. -/
theorem exists_toInt_eq_of_le {negative : Bool} (le : m ≤ n)
    (word_eq : word.toInt = Binary64.signed negative n) :
    ∃ nearer : Int64, nearer.toInt = Binary64.signed negative m := by
  obtain ⟨lower, upper⟩ := range_of_toInt64? (toInt64?_eq_some_iff.mpr word_eq)
  have range : -int64Limit ≤ Binary64.signed negative m ∧
      Binary64.signed negative m < int64Limit := by
    unfold int64Limit at *
    cases negative <;> simp only [Binary64.signed_false, Binary64.signed_true] at * <;> omega
  obtain ⟨nearer, -, nearer_eq⟩ := toInt64?_of_range range.1 range.2
  exact ⟨nearer, nearer_eq⟩

theorem appendDigit?_eq_some_iff {negative : Bool} {c : Char} {next : Int64}
    (word_eq : word.toInt = Binary64.signed negative m) :
    appendDigit? negative word c = some next ↔ c.isDigit ∧
      next.toInt = Binary64.signed negative (10 * m + (c.toNat - '0'.toNat)) := by
  have shift_eq : 10 * Binary64.signed negative m = Binary64.signed negative (10 * m) := by
    rw [Nat.mul_comm, Binary64.signed_mul, Int.mul_comm]
    rfl
  simp only [appendDigit?, Option.ite_none_right_eq_some, Option.bind_eq_some_iff,
    toInt64?_eq_some_iff, word_eq, shift_eq]
  refine and_congr_right fun _ => ?_
  constructor
  · rintro ⟨shifted, shifted_eq, next_eq⟩
    rw [Binary64.signed_add, ← shifted_eq, next_eq]
  · intro next_eq
    obtain ⟨shifted, shifted_eq⟩ := exists_toInt_eq_of_le (Nat.le_add_right (10 * m) _) next_eq
    exact ⟨shifted, shifted_eq, by rw [next_eq, Binary64.signed_add, shifted_eq]⟩

/-- Digits are put behind each other without an overflow just if what they write is a word. -/
theorem foldlM_appendDigit?_eq_some_iff {negative : Bool} :
    row.foldlM (appendDigit? negative) 0 = some word ↔
      (∀ c ∈ row, c.isDigit) ∧ word.toInt = Binary64.signed negative (digitsValue row) := by
  induction row using List.reverseRecOn generalizing word with
  | nil =>
      have nothing : Binary64.signed negative (digitsValue []) = (0 : Int64).toInt :=
        Binary64.signed_zero negative
      rw [nothing, Int64.toInt_inj]
      constructor
      · rintro ⟨⟩
        exact ⟨List.forall_mem_nil _, rfl⟩
      · rintro ⟨-, rfl⟩
        rfl
  | append_singleton front last induction =>
      have value_le : digitsValue front ≤ 10 * digitsValue front + (last.toNat - '0'.toNat) := by
        omega
      simp only [List.foldlM_append, digitsValue_append_singleton, List.forall_mem_append,
        List.forall_mem_singleton, Option.bind_eq_bind, Option.bind_eq_some_iff, induction,
        List.foldlM_cons, List.foldlM_nil, Option.pure_def]
      constructor
      · rintro ⟨before, ⟨digits, before_eq⟩, after, appended, ⟨⟩⟩
        obtain ⟨digit, after_eq⟩ := (appendDigit?_eq_some_iff before_eq).mp appended
        exact ⟨⟨digits, digit⟩, after_eq⟩
      · rintro ⟨⟨digits, digit⟩, word_eq⟩
        obtain ⟨before, before_eq⟩ := exists_toInt_eq_of_le value_le word_eq
        exact ⟨before, ⟨digits, before_eq⟩, word,
          (appendDigit?_eq_some_iff before_eq).mpr ⟨digit, word_eq⟩, rfl⟩

theorem accumulate?_eq_some_iff {negative : Bool} :
    accumulate? negative row = some word ↔
      ∃ n, WritesNatural row n ∧ Binary64.signed negative n = word.toInt := by
  simp only [accumulate?, Option.ite_none_right_eq_some, foldlM_appendDigit?_eq_some_iff,
    writesNatural_iff]
  constructor
  · rintro ⟨nonempty, digits, word_eq⟩
    exact ⟨_, ⟨nonempty, digits, rfl⟩, word_eq.symm⟩
  · rintro ⟨_, ⟨nonempty, digits, rfl⟩, word_eq⟩
    exact ⟨nonempty, digits, word_eq.symm⟩

theorem readWord?_eq_some_iff : readWord? text = some word ↔ WritesInteger text word.toInt := by
  unfold readWord?
  split
  · rw [accumulate?_eq_some_iff, writesInteger_minus_iff]
    rfl
  · rw [accumulate?_eq_some_iff, writesInteger_plus_iff]
    rfl
  · next no_minus no_plus =>
      rw [accumulate?_eq_some_iff, writesInteger_unsigned_iff no_minus no_plus]
      rfl

end

/-! ## Values -/

namespace Value

variable {s : String} {word : Int64}

theorem toInt64_text_eq_ok_iff :
    (text s).toInt64 = .ok word ↔ WritesInteger s.toList word.toInt := by
  rw [toInt64, orFault_eq_ok_iff, readInt64?_eq_some_iff]

theorem exists_toInt64_text_iff :
    (∃ word, (text s).toInt64 = .ok word) ↔
      ∃ z, WritesInteger s.toList z ∧ -int64Limit ≤ z ∧ z < int64Limit := by
  constructor
  · rintro ⟨word, read⟩
    exact ⟨word.toInt, toInt64_text_eq_ok_iff.mp read,
      range_of_toInt64? (toInt64?_eq_some_iff.mpr rfl)⟩
  · rintro ⟨z, written, lower, upper⟩
    obtain ⟨word, -, rfl⟩ := toInt64?_of_range lower upper
    exact ⟨word, toInt64_text_eq_ok_iff.mpr written⟩

theorem toInt64_text_eq_error_iff :
    (text s).toInt64 = .error (.inconvertible s .int) ↔
      ¬∃ z, WritesInteger s.toList z ∧ -int64Limit ≤ z ∧ z < int64Limit := by
  rw [← exists_toInt64_text_iff, toInt64]
  cases readInt64? s with
  | some word => simp [orFault]
  | none => simp [orFault, fault, shown]

/-- Exactly the texts that write an integer of 64 bits are read, as this integer; all others fail,
those of integers beyond the range too.  An integer is read from the text that it is shown as, and
shown as this text again.  No word overflows on the way. -/
theorem integer_texts_read :
    (∀ n : Int64, ∃ s, (int n).toText = .ok s ∧ (text s).toInt64 = .ok n ∧
      ((text s).toInt64 >>= fun word => (int word).toText) = .ok s) ∧
    ∀ s : String,
      (∀ word, (text s).toInt64 = .ok word ↔ WritesInteger s.toList word.toInt) ∧
      ((∃ word, (text s).toInt64 = .ok word) ↔
        ∃ z, WritesInteger s.toList z ∧ -int64Limit ≤ z ∧ z < int64Limit) ∧
      ((text s).toInt64 = .error (.inconvertible s .int) ↔
        ¬∃ z, WritesInteger s.toList z ∧ -int64Limit ≤ z ∧ z < int64Limit) ∧
      (∀ z, WritesInteger s.toList z → z < -int64Limit ∨ int64Limit ≤ z →
        (text s).toInt64 = .error (.inconvertible s .int)) ∧
      readWord? s.toList = readInt64? s := by
  refine ⟨fun n => ?_, fun s => ⟨fun word => toInt64_text_eq_ok_iff, exists_toInt64_text_iff,
    toInt64_text_eq_error_iff, ?_, ?_⟩⟩
  · have read : (text (integerText n.toInt)).toInt64 = .ok n :=
      toInt64_text_eq_ok_iff.mpr (writesInteger_integerText n.toInt)
    exact ⟨_, rfl, read, by rw [read]; rfl⟩
  · intro z written beyond
    rw [toInt64_text_eq_error_iff]
    rintro ⟨within, within_written, lower, upper⟩
    obtain rfl := within_written.eq written
    omega
  · refine Option.ext fun word => ?_
    rw [readWord?_eq_some_iff, readInt64?_eq_some_iff]

/-- One below the least integer of 64 bits, with zeros in front. -/
theorem integer_texts_read_beyond :
    let beyond := "-009223372036854775809"
    WritesInteger beyond.toList (-9223372036854775809) ∧ -9223372036854775809 < -int64Limit ∧
      (text beyond).toInt64 = .error (.inconvertible beyond .int) ∧
      readWord? beyond.toList = none := by
  intro beyond
  have written : WritesInteger beyond.toList (-9223372036854775809) :=
    readInteger?_eq_some_iff.mp (by decide +kernel)
  have below : -9223372036854775809 < -int64Limit := by decide
  obtain ⟨-, -, -, fails, stepwise⟩ := integer_texts_read.2 beyond
  exact ⟨written, below, fails _ written (.inl below), stepwise.trans (by decide +kernel)⟩

end Value
end RiskGraph

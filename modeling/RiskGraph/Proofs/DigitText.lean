import Mathlib.Data.List.Induction
import Mathlib.Data.List.TakeWhile
import RiskGraph.Numeric.Numeral
import RiskGraph.Value.Kind

/-!
# Texts of digits

A row of ASCII digits is read as one number, as an integer and as a real.  Digits of other scripts
are told from letters and signs, but nothing is read from them.
-/

namespace RiskGraph

variable {text : List Char} {value : Nat}

theorem readDigits?_eq_some_iff :
    readDigits? text = some value ↔
      text ≠ [] ∧ (∀ c ∈ text, c.isDigit) ∧ digitsValue text = value := by
  simp [readDigits?, and_assoc]

theorem isDigitRow_iff : isDigitRow text ↔ text ≠ [] ∧ ∀ c ∈ text, isDecimalDigit c := by
  simp [isDigitRow]

/-- A row of digits of any script has no sign, so that what is read from it are ASCII digits. -/
theorem readInteger?_of_isDigitRow (row : isDigitRow text) :
    readInteger? text = (readDigits? text).map Int.ofNat := by
  have digits := (isDigitRow_iff.mp row).2
  unfold readInteger?
  split
  · exact absurd (digits '-' List.mem_cons_self) (by decide +kernel)
  · exact absurd (digits '+' List.mem_cons_self) (by decide +kernel)
  · rfl

/-! ## Numbers in plain notation -/

/-- A character of a number in plain notation: a digit of any script, or a point. -/
def IsPlain (c : Char) : Prop :=
  isDecimalDigit c ∨ c = '.'

instance (c : Char) : Decidable (IsPlain c) :=
  inferInstanceAs (Decidable (_ ∨ _))

theorem toLower_of_isPlain {c : Char} (plain : IsPlain c) : c.toLower = c := by
  rcases plain with digit | rfl
  · obtain ⟨first, member, range⟩ := List.any_eq_true.mp digit
    simp only [Bool.and_eq_true, decide_eq_true_eq] at range
    have no_letters : ∀ first ∈ decimalZeros, first + 10 ≤ 'A'.toNat ∨ 'Z'.toNat < first := by
      decide
    have apart := no_letters first member
    unfold Char.toLower
    split
    · next upper =>
        have bounds : 'A'.toNat ≤ c.toNat ∧ c.toNat ≤ 'Z'.toNat :=
          ⟨UInt32.le_iff_toNat_le.mp upper.1, UInt32.le_iff_toNat_le.mp upper.2⟩
        omega
    · rfl
  · rfl

/-- Plain notation has no sign, and no letters for a name, so that it is read as a numeral. -/
theorem readReal?_of_isPlain {round : Bool → Nat → Nat → Binary64}
    (plain : ∀ c ∈ text, IsPlain c) :
    readReal? round text = (Numeral.ofText? text).bind fun numeral =>
      if numeral.hasDigits then some (numeral.rounded round false) else none := by
  have lower_eq : text.map Char.toLower = text :=
    (List.map_congr_left fun c member => toLower_of_isPlain (plain c member)).trans
      (List.map_id text)
  have no_name : ∀ name : String, 'n' ∈ name.toList → String.ofList text ≠ name := by
    rintro _ letter rfl
    rw [String.toList_ofList] at letter
    exact absurd (plain 'n' letter) (by decide +kernel)
  unfold readReal?
  split
  · exact absurd (plain '-' List.mem_cons_self) (by decide +kernel)
  · exact absurd (plain '+' List.mem_cons_self) (by decide +kernel)
  · simp only [readUnsignedReal?, lower_eq]
    rw [if_neg (not_or.mpr ⟨no_name "inf" (by decide), no_name "infinity" (by decide)⟩),
      if_neg (no_name "nan" (by decide))]

/-- Digits are taken apart into themselves, without a fraction or an exponent. -/
theorem Numeral.ofText?_of_digits (digits : ∀ c ∈ text, c.isDigit) :
    ofText? text = some { whole := text, fraction := none, exponent := none } := by
  have taken : text.takeWhile Char.isDigit = text := List.takeWhile_eq_self_iff.mpr digits
  have dropped : text.dropWhile Char.isDigit = [] := List.dropWhile_eq_nil_iff.mpr digits
  simp [ofText?, taken, dropped, splitFraction, readExponent?]

/-- Digits on both sides of a point are taken apart at the point. -/
theorem Numeral.ofText?_of_pointed {whole fraction : List Char} (digits : ∀ c ∈ whole, c.isDigit)
    (more_digits : ∀ c ∈ fraction, c.isDigit) :
    ofText? (whole ++ '.' :: fraction) =
      some { whole, fraction := some fraction, exponent := none } := by
  have taken : (whole ++ '.' :: fraction).takeWhile Char.isDigit = whole := by
    rw [List.takeWhile_append_of_pos digits, List.takeWhile_cons_of_neg (by decide),
      List.append_nil]
  have dropped : (whole ++ '.' :: fraction).dropWhile Char.isDigit = '.' :: fraction := by
    rw [List.dropWhile_append_of_pos digits, List.dropWhile_cons_of_neg (by decide)]
  have fraction_taken : fraction.takeWhile Char.isDigit = fraction :=
    List.takeWhile_eq_self_iff.mpr more_digits
  have fraction_dropped : fraction.dropWhile Char.isDigit = [] :=
    List.dropWhile_eq_nil_iff.mpr more_digits
  simp [ofText?, taken, dropped, splitFraction, fraction_taken, fraction_dropped, readExponent?]

theorem mem_takeWhile_or_mem_dropWhile {p : Char → Bool} {c : Char} (member : c ∈ text) :
    p c ∨ c ∈ text.dropWhile p := by
  rw [← List.takeWhile_append_dropWhile (p := p) (l := text), List.mem_append] at member
  exact member.imp_left List.mem_takeWhile_imp

theorem Numeral.mem_splitFraction {c : Char} (member : c ∈ text) :
    c.isDigit ∨ c = '.' ∨ c ∈ (splitFraction text).2 := by
  unfold splitFraction
  split
  · next rest =>
      rcases List.mem_cons.mp member with point | behind
      · exact .inr (.inl point)
      · exact (mem_takeWhile_or_mem_dropWhile behind).imp_right .inr
  · exact .inr (.inr member)

theorem Numeral.splitFraction_subset : (splitFraction text).2 ⊆ text := by
  unfold splitFraction
  split
  · next rest =>
      exact fun c member => List.mem_cons_of_mem _ ((List.dropWhile_sublist _).subset member)
  · exact List.Subset.refl _

/-- Plain notation has no mark of an exponent. -/
theorem Numeral.eq_nil_of_readExponent? {exponent : Option Int} (plain : ∀ c ∈ text, IsPlain c)
    (read : readExponent? text = some exponent) : text = [] := by
  cases text with
  | nil => rfl
  | cons mark rest =>
      obtain ⟨marked, -⟩ := Option.ite_none_right_eq_some.mp read
      have mark_plain := plain mark List.mem_cons_self
      rcases marked with rfl | rfl
      · exact absurd mark_plain (by decide +kernel)
      · exact absurd mark_plain (by decide +kernel)

/-- Only numerals with ASCII digits are taken apart. -/
theorem Numeral.isDigit_of_ofText? {numeral : Numeral} (plain : ∀ c ∈ text, IsPlain c)
    (read : ofText? text = some numeral) : ∀ c ∈ text, isDecimalDigit c → c.isDigit := by
  obtain ⟨exponent, rest_read, -⟩ := Option.map_eq_some_iff.mp read
  have rest_eq : (splitFraction (text.dropWhile Char.isDigit)).2 = [] :=
    eq_nil_of_readExponent?
      (fun c member => plain c ((List.dropWhile_sublist _).subset (splitFraction_subset member)))
      rest_read
  intro c member decimal
  rcases mem_takeWhile_or_mem_dropWhile member with digit | behind
  · exact digit
  · rcases mem_splitFraction behind with digit | rfl | beyond
    · exact digit
    · exact absurd decimal (by decide +kernel)
    · rw [rest_eq] at beyond
      nomatch beyond

theorem Numeral.rounded_of_isWhole (whole : List Char) :
    rounded Binary64.ofQuotient false { whole, fraction := none, exponent := none } =
      Binary64.ofInt (digitsValue whole) := by
  have coefficient_eq : coefficient { whole, fraction := none, exponent := none } =
      digitsValue whole := by
    simp [coefficient]
  have scale_eq : scale { whole, fraction := none, exponent := none } = 0 := by
    simp [scale]
  have not_negative : ¬((digitsValue whole : Nat) : Int) < 0 := by omega
  simp only [rounded, coefficient_eq, scale_eq, Binary64.ofInt, Int.natAbs_natCast,
    decide_eq_false not_negative]
  by_cases zero : digitsValue whole = 0
  · rw [if_pos zero, zero, Nat.zero_mul]
  · rw [if_neg zero, if_neg (by omega), if_neg (by omega)]
    simp [tenPow]

/-- A row of digits is read as the real nearest to the integer that it writes. -/
theorem readReal?_of_digits (nonempty : text ≠ []) (digits : ∀ c ∈ text, c.isDigit) :
    readReal? Binary64.ofQuotient text = some (Binary64.ofInt (digitsValue text)) := by
  rw [readReal?_of_isPlain fun c member => .inl (isDecimalDigit_of_isDigit (digits c member)),
    Numeral.ofText?_of_digits digits, Option.bind_some, Numeral.rounded_of_isWhole]
  simp [Numeral.hasDigits, nonempty]

/-- What is read as an integer from a row of digits is read as the nearest real too. -/
theorem readBinary64?_of_readInt64? {content : String} {word : Int64}
    (row : isDigitRow content.toList) (written : readInt64? content = some word) :
    readBinary64? content = some (Binary64.ofInt word.toInt) := by
  obtain ⟨n, read, fits⟩ := Option.bind_eq_some_iff.mp written
  rw [readInteger?_of_isDigitRow row, Option.map_eq_some_iff] at read
  obtain ⟨value, digits_read, rfl⟩ := read
  obtain ⟨nonempty, digits, rfl⟩ := readDigits?_eq_some_iff.mp digits_read
  rw [readBinary64?, readReal?_of_digits nonempty digits, toInt_of_toInt64? fits]
  rfl

/-! ## Zeros before the digits -/

theorem digitChar_of_isDigit {c : Char} (digit : c.isDigit) :
    c.toNat - '0'.toNat < 10 ∧ (c.toNat - '0'.toNat).digitChar = c := by
  simp only [Char.isDigit, Bool.and_eq_true, decide_eq_true_eq, UInt32.le_iff_toNat_le] at digit
  have range : 48 ≤ c.toNat ∧ c.toNat ≤ 57 := digit
  have below : c.toNat - '0'.toNat < 10 := by
    change c.toNat - 48 < 10
    omega
  refine ⟨below, Char.toNat_inj.mp ?_⟩
  rw [Nat.toNat_digitChar_of_lt_ten below]
  change 48 + (c.toNat - 48) = c.toNat
  omega

theorem digitsValue_append_singleton (row : List Char) (c : Char) :
    digitsValue (row ++ [c]) = 10 * digitsValue row + (c.toNat - '0'.toNat) := by
  simp [digitsValue]

/-- A row of digits is the number that it writes, after zeros. -/
theorem exists_zeros_eq {text : List Char} (nonempty : text ≠ [])
    (digits : ∀ c ∈ text, c.isDigit) :
    ∃ zeros, text = List.replicate zeros '0' ++ Nat.toDigits 10 (digitsValue text) := by
  induction text using List.reverseRecOn with
  | nil => exact absurd rfl nonempty
  | append_singleton front last induction =>
      obtain ⟨below, last_eq⟩ := digitChar_of_isDigit (digits last (by simp))
      have value_eq := digitsValue_append_singleton front last
      have last_digits : Nat.toDigits 10 (last.toNat - '0'.toNat) = [last] := by
        rw [Nat.toDigits_of_lt_base below, last_eq]
      by_cases empty : front = []
      · subst empty
        refine ⟨0, ?_⟩
        rw [value_eq, digitsValue, List.foldl_nil, Nat.mul_zero, Nat.zero_add, last_digits]
        rfl
      · obtain ⟨zeros, front_eq⟩ := induction empty fun c member => digits c (by simp [member])
        rcases Nat.eq_zero_or_pos (digitsValue front) with zero | positive
        · refine ⟨zeros + 1, ?_⟩
          rw [value_eq, zero, Nat.mul_zero, Nat.zero_add, last_digits, front_eq, zero]
          simp [List.replicate_succ']
        · refine ⟨zeros, ?_⟩
          rw [value_eq, ← Nat.toDigits_append_toDigits (by decide) positive below, last_digits,
            ← List.append_assoc, ← front_eq]

theorem digitsValue_zeros_append (zeros n : Nat) :
    digitsValue (List.replicate zeros '0' ++ Nat.toDigits 10 n) = n := by
  change Nat.ofDigitChars 10 (List.replicate zeros '0' ++ Nat.toDigits 10 n) 0 = n
  rw [Nat.ofDigitChars_append, Nat.ofDigitChars_replicate_zero]
  simp

end RiskGraph

import Mathlib.Order.Compare
import RiskGraph.Proofs.Equality

/-!
# Comparison as a preorder

Comparison is reflexive and transitive on the values that it compares, but for one case.  Two
integers of 64 bits are told apart exactly even if they are nearest to one real, and a value that is
no such integer may then equal both.
-/

namespace RiskGraph

/-! ## Moments -/

theorem compareRows_eq (row other : List Int) : compareRows row other = compare row other := by
  induction row generalizing other with
  | nil => cases other <;> rfl
  | cons a row induction =>
      cases other with
      | nil => rfl
      | cons b other =>
          rw [compareRows, induction]
          exact List.compareLex_cons_cons.symm

theorem Moment.compare_eq (left right : Moment) :
    left.compare right = Ord.compare left.fields.toList right.fields.toList :=
  compareRows_eq _ _

/-! ## Standings -/

namespace Standing

variable {r s t : Standing} {ordering next : Ordering} {p q : Int}

theorem compare?_self (s : Standing) : s.compare? s = some .eq := by
  cases s with
  | integer | real | text => exact congrArg some Std.ReflOrd.compare_self
  | moment moment =>
      rw [compare?, Moment.compare_eq]
      exact congrArg some Std.ReflOrd.compare_self

theorem compare?_swap (s t : Standing) : t.compare? s = (s.compare? t).map Ordering.swap := by
  cases s <;> cases t
  all_goals first
    | rfl
    | exact congrArg some Std.OrientedOrd.eq_swap
    | simp only [compare?, Moment.compare_eq]
      exact congrArg some Std.OrientedOrd.eq_swap

/-- The ranks of numbers are in order if the numbers are. -/
theorem rank_le_of_isLE (compared : s.compare? t = some ordering) (le : ordering.isLE)
    (left_rank : s.rank? = some p) (right_rank : t.rank? = some q) : p ≤ q := by
  cases s <;> cases t <;> cases left_rank <;> cases right_rank
  all_goals
    cases compared
    rw [Int.isLE_compare] at le
  case integer.integer => exact Binary64.rankOfInt_le_rankOfInt le
  all_goals exact le

theorem exists_rank?_of_compare? (compared : s.compare? t = some ordering)
    (left_rank : s.rank? = some p) : ∃ q, t.rank? = some q := by
  cases t with
  | integer | real => exact ⟨_, rfl⟩
  | moment | text =>
      cases s with
      | integer | real => nomatch compared
      | moment | text => nomatch left_rank

/-- Numbers that are not both integers are ordered by their ranks. -/
theorem compare?_of_rank? (not_both : ∀ m n, s = integer m → t ≠ integer n)
    (left_rank : s.rank? = some p) (right_rank : t.rank? = some q) :
    s.compare? t = some (compare p q) := by
  cases s <;> cases t <;> cases left_rank <;> cases right_rank
  case integer.integer m n => exact absurd rfl (not_both m n rfl)
  all_goals rfl

/-- A real to which two integers are nearest, the first of them being the greater one. -/
def Blurs (s : Standing) (m n : Int) : Prop :=
  n < m ∧ s = real (Binary64.rankOfInt m) ∧ Binary64.rankOfInt n = Binary64.rankOfInt m

theorem isLE_trans_of_integer {m n : Int} (first : (integer m).compare? s = some ordering)
    (second : s.compare? (integer n) = some next) (first_le : ordering.isLE)
    (second_le : next.isLE) : m ≤ n ∨ s.Blurs m n := by
  cases s with
  | integer k =>
      cases first
      cases second
      rw [Int.isLE_compare] at first_le second_le
      exact Or.inl (first_le.trans second_le)
  | real k =>
      rcases le_or_gt m n with le | gt
      · exact Or.inl le
      · have below : Binary64.rankOfInt m ≤ k := rank_le_of_isLE first first_le rfl rfl
        have above : k ≤ Binary64.rankOfInt n := rank_le_of_isLE second second_le rfl rfl
        have less := Binary64.rankOfInt_le_rankOfInt gt.le
        exact Or.inr ⟨gt, by rw [below.antisymm (above.trans less)],
          less.antisymm (below.trans above)⟩
  | moment | text => nomatch first

/-- The order of standings is transitive, but where a real blurs two integers. -/
theorem isLE_trans (first : r.compare? s = some ordering) (second : s.compare? t = some next)
    (first_le : ordering.isLE) (second_le : next.isLE) :
    (∃ outer, r.compare? t = some outer ∧ outer.isLE) ∨
      ∃ m n, r = integer m ∧ t = integer n ∧ s.Blurs m n := by
  cases rank_eq : r.rank? with
  | some p =>
      obtain ⟨q, middle_rank⟩ := exists_rank?_of_compare? first rank_eq
      obtain ⟨w, right_rank⟩ := exists_rank?_of_compare? second middle_rank
      have below := rank_le_of_isLE first first_le rank_eq middle_rank
      have above := rank_le_of_isLE second second_le middle_rank right_rank
      -- ranks decide unless both outer standings are integers, which are compared exactly
      by_cases not_both : ∀ m n, r = integer m → t ≠ integer n
      · exact Or.inl ⟨_, compare?_of_rank? not_both rank_eq right_rank,
          Int.isLE_compare.mpr (below.trans above)⟩
      · push Not at not_both
        obtain ⟨m, n, rfl, rfl⟩ := not_both
        rcases isLE_trans_of_integer first second first_le second_le with le | blurs
        · exact Or.inl ⟨_, rfl, Int.isLE_compare.mpr le⟩
        · exact Or.inr ⟨m, n, rfl, rfl, blurs⟩
  | none =>
      refine Or.inl ?_
      cases r with
      | integer | real => nomatch rank_eq
      | moment =>
          cases s with
          | integer | real | text => nomatch first
          | moment =>
              cases t with
              | integer | real | text => nomatch second
              | moment =>
                  simp only [compare?, Moment.compare_eq, Option.some_inj] at first second ⊢
                  subst first second
                  exact ⟨_, rfl, Std.TransOrd.isLE_trans first_le second_le⟩
      | text =>
          cases s with
          | integer | real | moment => nomatch first
          | text =>
              cases t with
              | integer | real | moment => nomatch second
              | text =>
                  cases first
                  cases second
                  exact ⟨_, rfl, Std.TransOrd.isLE_trans first_le second_le⟩

/-- Equal standings are so throughout, but where a real blurs two integers. -/
theorem eq_trans (first : r.compare? s = some .eq) (second : s.compare? t = some .eq) :
    r.compare? t = some .eq ∨
      ∃ m n, r = integer m ∧ t = integer n ∧ (s.Blurs m n ∨ s.Blurs n m) := by
  have first_back : s.compare? r = some .eq := by rw [compare?_swap, first]; rfl
  have second_back : t.compare? s = some .eq := by rw [compare?_swap, second]; rfl
  rcases isLE_trans first second rfl rfl with ⟨outer, compared, le⟩ | ⟨m, n, rfl, rfl, blurs⟩
  · rcases isLE_trans second_back first_back rfl rfl with
      ⟨back, compared_back, back_le⟩ | ⟨n, m, rfl, rfl, blurs⟩
    · rw [compare?_swap, compared] at compared_back
      cases outer with
      | lt =>
          cases compared_back
          nomatch back_le
      | eq => exact Or.inl compared
      | gt => nomatch le
    · exact Or.inr ⟨m, n, rfl, rfl, Or.inr blurs⟩
  · exact Or.inr ⟨m, n, rfl, rfl, Or.inl blurs⟩

end Standing

/-! ## Values -/

/-- Integers of 64 bits `m` and `n` to which one real is nearest, and a value between them that has
this real only. -/
structure Comparison.Blurred (left middle right : Value) (m n : Int64) : Prop where
  /-- The value on the left is compared as the first integer. -/
  left_exact : left.IsInteger m
  /-- The value on the right is compared as the second integer. -/
  right_exact : right.IsInteger n
  /-- The value between them is not compared as an integer. -/
  inexact : ∀ word, ¬middle.IsInteger word
  /-- It equals both integers as a real. -/
  nearest : ∃ x, middle.toReal = .ok x ∧ x.same (Binary64.ofInt m.toInt) = true ∧
    x.same (Binary64.ofInt n.toInt) = true

namespace Value

variable {value : Value} {n p : Int}

theorem isInteger_of_standing? (stands : value.standing? = some (.integer n)) :
    ∃ word, value.IsInteger word ∧ word.toInt = n := by
  obtain ⟨kind, kind_eq⟩ := exists_kind_of_standing? stands
  have numeric : kind.isNumeric := suits_of_standing? kind_eq stands
  by_cases exact_word : ∃ word, value.IsInteger word
  · obtain ⟨word, is_integer⟩ := exact_word
    cases (standing?_of_isInteger is_integer).symm.trans stands
    exact ⟨word, is_integer, rfl⟩
  · rw [standing?_of_isNumeric kind_eq numeric (not_exists.mp exact_word)] at stands
    obtain ⟨_, -, impossible⟩ := Option.map_eq_some_iff.mp stands
    nomatch impossible

theorem rank?_of_standing? (stands : value.standing? = some (.real p)) :
    (∀ word, ¬value.IsInteger word) ∧ value.rank? = some p := by
  have inexact : ∀ word, ¬value.IsInteger word := by
    intro word is_integer
    nomatch (standing?_of_isInteger is_integer).symm.trans stands
  obtain ⟨kind, kind_eq⟩ := exists_kind_of_standing? stands
  have numeric : kind.isNumeric := suits_of_standing? kind_eq stands
  rw [standing?_of_isNumeric kind_eq numeric inexact] at stands
  obtain ⟨rank, rank_eq, same⟩ := Option.map_eq_some_iff.mp stands
  cases same
  exact ⟨inexact, rank_eq⟩

theorem exists_standings_of_compare? {left right : Value} {ordering : Ordering}
    (compared : left.compare? right = some ordering) :
    ∃ s t, left.standing? = some s ∧ right.standing? = some t ∧ s.compare? t = some ordering := by
  obtain ⟨s, left_stands, right_compared⟩ := Option.bind_eq_some_iff.mp compared
  obtain ⟨t, right_stands, ordered⟩ := Option.bind_eq_some_iff.mp right_compared
  exact ⟨s, t, left_stands, right_stands, ordered⟩

theorem compare?_eq_some {left right : Value} {s t : Standing}
    (left_stands : left.standing? = some s) (right_stands : right.standing? = some t) :
    left.compare? right = s.compare? t := by
  rw [compare?, left_stands, right_stands, Option.bind_some, Option.bind_some]

end Value

namespace Comparison

variable {a b c : Value}

/-- A real that blurs two integers does so as a value. -/
theorem blurred_of_blurs {s : Standing} {m n : Int} (left_stands : a.standing? = some (.integer m))
    (middle_stands : b.standing? = some s) (right_stands : c.standing? = some (.integer n))
    (blurs : s.Blurs m n) :
    ∃ first second, first.toInt = m ∧ second.toInt = n ∧ Blurred a b c first second ∧
      Blurred c b a second first := by
  obtain ⟨-, rfl, rank_eq⟩ := blurs
  obtain ⟨first, left_exact, rfl⟩ := Value.isInteger_of_standing? left_stands
  obtain ⟨second, right_exact, rfl⟩ := Value.isInteger_of_standing? right_stands
  obtain ⟨inexact, middle_rank⟩ := Value.rank?_of_standing? middle_stands
  obtain ⟨x, read, x_rank⟩ := Option.bind_eq_some_iff.mp middle_rank
  rw [toOption_eq_some] at read
  have same_first : x.same (Binary64.ofInt first.toInt) = true :=
    Binary64.same_iff.mpr ⟨_, x_rank, Binary64.rank?_ofInt _⟩
  have same_second : x.same (Binary64.ofInt second.toInt) = true :=
    Binary64.same_iff.mpr ⟨_, x_rank, rank_eq ▸ Binary64.rank?_ofInt _⟩
  exact ⟨first, second, rfl, rfl,
    ⟨left_exact, right_exact, inexact, x, read, same_first, same_second⟩,
    ⟨right_exact, left_exact, inexact, x, read, same_second, same_first⟩⟩

theorem apply_atMost_of_compare? [Engine] {ordering : Ordering}
    (compared : a.compare? b = some ordering) :
    apply .atMost a b = .ok ordering.isLE := by
  have applied := @toOption_apply_of_relational .atMost a b _ (by decide)
  rw [compared, Option.map_some, toOption_eq_some] at applied
  rw [applied]
  cases ordering <;> rfl

theorem exists_compare?_of_apply_atMost [Engine] {holds : Bool}
    (applied : apply .atMost a b = .ok holds) :
    ∃ ordering, a.compare? b = some ordering ∧ ordering.isLE = holds := by
  have compared := @toOption_apply_of_relational .atMost a b _ (by decide)
  rw [applied, Except.toOption, eq_comm, Option.map_eq_some_iff] at compared
  obtain ⟨ordering, compared, rfl⟩ := compared
  exact ⟨ordering, compared, by cases ordering <;> rfl⟩

namespace Blurred

variable {m n : Int64}

/-- The integers themselves are compared exactly. -/
theorem compare?_eq (blurred : Blurred a b c m n) :
    a.compare? c = some (compare m.toInt n.toInt) :=
  Value.compare?_eq_some (Value.standing?_of_isInteger blurred.left_exact)
    (Value.standing?_of_isInteger blurred.right_exact)

theorem not_lt_of_atMost [Engine] (blurred : Blurred a b c m n)
    (holds : apply .atMost a c = .ok true) :
    ¬n < m := by
  rw [apply_atMost_of_compare? blurred.compare?_eq, Except.ok.injEq, Int.isLE_compare] at holds
  rw [Int64.lt_iff_toInt_lt]
  exact not_lt.mpr holds

theorem eq_of_equal [Engine] (blurred : Blurred a b c m n) (holds : apply .equal a c = .ok true) :
    m = n := by
  rw [apply_equal_of_compare? blurred.compare?_eq, Except.ok.injEq, beq_iff_eq,
    compare_eq_iff_eq] at holds
  exact Int64.toInt_inj.mp holds

end Blurred

theorem atMost_trans_or_blurred [Engine] (first : apply .atMost a b = .ok true)
    (second : apply .atMost b c = .ok true) :
    apply .atMost a c = .ok true ∨
      apply .atMost a c = .ok false ∧ ∃ m n, n < m ∧ Blurred a b c m n := by
  obtain ⟨ordering, ab, first_le⟩ := exists_compare?_of_apply_atMost first
  obtain ⟨next, bc, second_le⟩ := exists_compare?_of_apply_atMost second
  obtain ⟨r, s, left_stands, middle_stands, rs⟩ := Value.exists_standings_of_compare? ab
  obtain ⟨s', t, middle_stands', right_stands, st⟩ := Value.exists_standings_of_compare? bc
  cases middle_stands.symm.trans middle_stands'
  have ac := Value.compare?_eq_some left_stands right_stands
  rcases Standing.isLE_trans rs st first_le second_le with
    ⟨outer, compared, le⟩ | ⟨m, n, rfl, rfl, blurs⟩
  · rw [compared] at ac
    exact Or.inl (by rw [apply_atMost_of_compare? ac, le])
  · obtain ⟨i, j, rfl, rfl, blurred, -⟩ :=
      blurred_of_blurs left_stands middle_stands right_stands blurs
    have greater : j < i := Int64.lt_iff_toInt_lt.mpr blurs.1
    refine Or.inr ⟨?_, i, j, greater, blurred⟩
    rw [apply_atMost_of_compare? ac, compare_gt_iff_gt.mpr blurs.1]
    rfl

theorem equal_trans_of_compare? [Engine] (ab : a.compare? b = some .eq)
    (bc : b.compare? c = some .eq) :
    apply .equal a c = .ok true ∨
      apply .equal a c = .ok false ∧ ∃ m n, m ≠ n ∧ Blurred a b c m n := by
  obtain ⟨r, s, left_stands, middle_stands, rs⟩ := Value.exists_standings_of_compare? ab
  obtain ⟨s', t, middle_stands', right_stands, st⟩ := Value.exists_standings_of_compare? bc
  cases middle_stands.symm.trans middle_stands'
  have ac := Value.compare?_eq_some left_stands right_stands
  rcases Standing.eq_trans rs st with compared | ⟨m, n, rfl, rfl, blurs⟩
  · rw [compared] at ac
    exact Or.inl (apply_equal_of_compare? ac)
  · have distinct : m ≠ n := by
      rcases blurs with blurs | blurs
      · exact blurs.1.ne'
      · exact blurs.1.ne
    have unequal : (compare m n == .eq) = false :=
      beq_eq_false_iff_ne.mpr fun equal => distinct (compare_eq_iff_eq.mp equal)
    have applied : apply .equal a c = .ok false := by
      rw [apply_equal_of_compare? ac, ← unequal]
    refine Or.inr ⟨applied, ?_⟩
    rcases blurs with blurs | blurs
    · obtain ⟨i, j, rfl, rfl, blurred, -⟩ :=
        blurred_of_blurs left_stands middle_stands right_stands blurs
      exact ⟨i, j, fun same => distinct (congrArg _ same), blurred⟩
    · obtain ⟨j, i, rfl, rfl, -, blurred⟩ :=
        blurred_of_blurs right_stands middle_stands left_stands blurs
      exact ⟨i, j, fun same => distinct (congrArg _ same), blurred⟩

theorem equal_trans_or_blurred [Engine] (first : apply .equal a b = .ok true)
    (second : apply .equal b c = .ok true) :
    apply .equal a c = .ok true ∨
      apply .equal a c = .ok false ∧ ∃ m n, m ≠ n ∧ Blurred a b c m n := by
  -- the kind of the value in the middle says how it equals the others
  rcases apply_equal_eq_ok_true_iff.mp first with
    ab | ⟨truth, a_truth, b_truth⟩ | ⟨kind, structured, a_kind, b_kind, ab⟩
  · obtain ⟨_, _, -, stands, -⟩ := Value.exists_standings_of_compare? ab
    rcases apply_equal_eq_ok_true_iff.mp second with
      bc | ⟨_, b_truth, -⟩ | ⟨_, rfl | rfl, b_kind, -, -⟩
    · exact equal_trans_of_compare? ab bc
    · nomatch Value.isOrdered_of_standing? b_truth.1 stands
    · nomatch Value.isOrdered_of_standing? b_kind stands
    · nomatch Value.isOrdered_of_standing? b_kind stands
  · rcases apply_equal_eq_ok_true_iff.mp second with
      bc | ⟨_, b_truth', c_truth⟩ | ⟨_, rfl | rfl, b_kind, -, -⟩
    · nomatch bc.symm.trans (Value.compare?_of_unordered b_truth.1 rfl)
    · cases b_truth.2.symm.trans b_truth'.2
      exact Or.inl (apply_equal_eq_ok_true_iff.mpr (Or.inr (Or.inl ⟨truth, a_truth, c_truth⟩)))
    · nomatch b_truth.1.symm.trans b_kind
    · nomatch b_truth.1.symm.trans b_kind
  · rcases apply_equal_eq_ok_true_iff.mp second with
      bc | ⟨_, b_truth, -⟩ | ⟨_, -, b_kind', c_kind, bc⟩
    · rcases structured with rfl | rfl <;>
        nomatch bc.symm.trans (Value.compare?_of_unordered b_kind rfl)
    · rcases structured with rfl | rfl <;> nomatch b_truth.1.symm.trans b_kind
    · cases b_kind.symm.trans b_kind'
      exact Or.inl (apply_equal_eq_ok_true_iff.mpr
        (Or.inr (Or.inr ⟨kind, structured, a_kind, c_kind, Value.same_trans ab bc⟩)))

/-- Comparison is a preorder on the values that it compares, and equality is transitive, unless a
real blurs two integers of 64 bits that are told apart from one another. -/
theorem preorder_unless_blurred [Engine] :
    (∀ a b holds, apply .atMost a b = .ok holds →
      apply .atMost a a = .ok true ∧ apply .atMost b b = .ok true) ∧
    (∀ a b c, apply .atMost a b = .ok true → apply .atMost b c = .ok true →
      ∃ holds, apply .atMost a c = .ok holds ∧
        (holds = false ↔ ∃ m n, n < m ∧ Blurred a b c m n)) ∧
    ∀ a b c, apply .equal a b = .ok true → apply .equal b c = .ok true →
      ∃ holds, apply .equal a c = .ok holds ∧
        (holds = false ↔ ∃ m n, m ≠ n ∧ Blurred a b c m n) := by
  refine ⟨?_, ?_, ?_⟩
  · intro a b holds applied
    obtain ⟨ordering, compared, -⟩ := exists_compare?_of_apply_atMost applied
    obtain ⟨s, t, left_stands, right_stands, -⟩ := Value.exists_standings_of_compare? compared
    have reflexive : ∀ {value : Value} {standing}, value.standing? = some standing →
        apply .atMost value value = .ok true := by
      intro value standing stands
      have self_eq : value.compare? value = some .eq := by
        rw [Value.compare?_eq_some stands stands, Standing.compare?_self]
      exact apply_atMost_of_compare? self_eq
    exact ⟨reflexive left_stands, reflexive right_stands⟩
  · intro a b c first second
    rcases atMost_trans_or_blurred first second with holds | ⟨fails, m, n, greater, blurred⟩
    · refine ⟨true, holds, nofun, ?_⟩
      rintro ⟨m, n, greater, blurred⟩
      exact absurd greater (blurred.not_lt_of_atMost holds)
    · exact ⟨false, fails, fun _ => ⟨m, n, greater, blurred⟩, fun _ => rfl⟩
  · intro a b c first second
    rcases equal_trans_or_blurred first second with holds | ⟨fails, m, n, distinct, blurred⟩
    · refine ⟨true, holds, nofun, ?_⟩
      rintro ⟨m, n, distinct, blurred⟩
      exact absurd (blurred.eq_of_equal holds) distinct
    · exact ⟨false, fails, fun _ => ⟨m, n, distinct, blurred⟩, fun _ => rfl⟩

section

open scoped Engine.Plain

theorem preorder_unless_blurred_thirty :
    apply .atMost (.int 1) (.text "30.0") = .ok true ∧
      (apply .atMost (.int 1) (.int 1) = .ok true ∧
        apply .atMost (.text "30.0") (.text "30.0") = .ok true) ∧
      apply .atMost (.text "30.0") (.int 31) = .ok true ∧
      (∃ holds, apply .atMost (.int 1) (.int 31) = .ok holds ∧
        (holds = false ↔ ∃ m n, n < m ∧ Blurred (.int 1) (.text "30.0") (.int 31) m n)) ∧
      apply .equal (.int 30) (.text "30.0") = .ok true ∧
      apply .equal (.text "30.0") (.text "030") = .ok true ∧
      ∃ holds, apply .equal (.int 30) (.text "030") = .ok holds ∧
        (holds = false ↔ ∃ m n, m ≠ n ∧ Blurred (.int 30) (.text "30.0") (.text "030") m n) := by
  have below : apply .atMost (.int 1) (.text "30.0") = .ok true := by decide +kernel
  have above : apply .atMost (.text "30.0") (.int 31) = .ok true := by decide +kernel
  have equal : apply .equal (.int 30) (.text "30.0") = .ok true := by decide +kernel
  have equal_padded : apply .equal (.text "30.0") (.text "030") = .ok true := by decide +kernel
  exact ⟨below, preorder_unless_blurred.1 _ _ _ below, above,
    preorder_unless_blurred.2.1 _ _ _ below above, equal, equal_padded,
    preorder_unless_blurred.2.2 _ _ _ equal equal_padded⟩

/-- Order and equality fail to be transitive at the text of a real, between two integers that it
blurs. -/
theorem atMost_not_transitive :
    apply .atMost (.int 9007199254740993) (.text "9007199254740992.0") = .ok true ∧
      apply .atMost (.text "9007199254740992.0") (.int 9007199254740992) = .ok true ∧
      apply .atMost (.int 9007199254740993) (.int 9007199254740992) = .ok false ∧
      apply .equal (.int 9007199254740993) (.text "9007199254740992.0") = .ok true ∧
      apply .equal (.text "9007199254740992.0") (.int 9007199254740992) = .ok true ∧
      apply .equal (.int 9007199254740993) (.int 9007199254740992) = .ok false := by
  decide +kernel

end

end Comparison
end RiskGraph

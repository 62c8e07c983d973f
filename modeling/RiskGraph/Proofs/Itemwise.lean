import RiskGraph.Proofs.Membership

/-!
# Lists compared item by item

The operators on lists say nothing that the operators on single values do not.  A value lies between
two bounds if it is at least the one and at most the other; it is a member of a list if it equals an
item, the items being taken up one by one until one of them equals it or cannot be compared with it.
A list that contains a value is searched in the same way, but items of other kinds are passed over.
-/

namespace RiskGraph

namespace Comparison

variable {operator : Operator} {value left right low high : Value} {leftKind rightKind : Kind}

/-! ## Faults of values whose kinds match -/

/-- A step fails only over a value: one that cannot be read, or one of a kind that the operator does
not apply to. -/
def FailsOverValues {α : Type} (operator : Operator) (step : Result α) : Prop :=
  ∀ fault, step = .error fault →
    (∃ cause, fault = .value cause) ∨ ∃ kind, fault = .unsupported operator kind

section

variable {α β : Type}

theorem FailsOverValues.ok (result : α) : FailsOverValues operator (.ok result) :=
  fun _ failed => by cases failed

theorem FailsOverValues.unsupported (kind : Kind) :
    FailsOverValues operator (.error (.unsupported operator kind) : Result α) := by
  rintro _ ⟨⟩
  exact .inr ⟨kind, rfl⟩

theorem FailsOverValues.bind {step : Result α} {next : α → Result β}
    (first : FailsOverValues operator step)
    (later : ∀ middle, FailsOverValues operator (next middle)) :
    FailsOverValues operator (step >>= next) := by
  intro fault failed
  rcases bind_eq_error.mp failed with here | ⟨middle, -, there⟩
  · exact first fault here
  · exact later middle fault there

theorem failsOverValues_reading {result : Except Value.Fault α} :
    FailsOverValues operator (reading result) := by
  intro fault failed
  obtain ⟨cause, -, rfl⟩ := mapError_eq_error.mp failed
  exact .inl ⟨cause, rfl⟩

theorem failsOverValues_realOrder : FailsOverValues operator (realOrder operator left right) := by
  refine .bind failsOverValues_reading fun x => .bind failsOverValues_reading fun y => ?_
  split
  · exact .ok _
  · exact .unsupported _

theorem failsOverValues_order :
    FailsOverValues operator (order operator left leftKind right rightKind) := by
  unfold order
  split
  · unfold intOrder
    split
    · exact .ok _
    · exact failsOverValues_realOrder
  · exact failsOverValues_realOrder
  · exact failsOverValues_realOrder
  · exact failsOverValues_realOrder
  · exact .bind failsOverValues_reading fun _ => .bind failsOverValues_reading fun _ => .ok _
  · exact .bind failsOverValues_reading fun _ => .bind failsOverValues_reading fun _ => .ok _
  · exact .unsupported _

theorem failsOverValues_equality :
    FailsOverValues operator (equality operator left leftKind right rightKind) := by
  unfold equality
  split
  · exact .bind failsOverValues_reading fun _ => .bind failsOverValues_reading fun _ => .ok _
  · exact .ok _
  · exact .ok _
  · exact .bind failsOverValues_order fun _ => .ok _

end

/-! ## Bounds -/

/-- What an operator of order says is read off the order of values whose kinds match. -/
theorem apply_eq_matched_between [Engine]
    (relational : operator ∈ [Operator.greater, .atLeast, .less, .atMost]) :
    apply operator left right =
      ((matched left right (order .between left · right ·)).mapError (Fault.under operator)).map
        (satisfies operator) := by
  rw [apply_of_relational relational,
    ← matched_comp (Except.mapError (Fault.under operator)) (fun _ => rfl) fun _ _ => rfl]
  simp only [← order_under .between operator]

theorem apply_eq_ok_iff_between [Engine]
    (relational : operator ∈ [Operator.greater, .atLeast, .less, .atMost]) {holds : Bool} :
    apply operator left right = .ok holds ↔
      ∃ ordering, matched left right (order .between left · right ·) = .ok ordering ∧
        holds = satisfies operator ordering := by
  rw [apply_eq_matched_between relational, ← bind_ok_eq_map]
  simp only [bind_eq_ok, mapError_eq_ok, Except.ok.injEq, @eq_comm Bool]

/-- Two bounds are compared as their kinds match that of the value; both kinds are checked before
either bound is compared. -/
theorem apply_between_eq [Engine] :
    apply .between value (.array [low, high]) = (do
      let kind ← kindOf value
      let lowKind ← kindOf low
      let highKind ← kindOf high
      requireAgreement kind lowKind
      requireAgreement kind highKind
      let above ← order .between value kind low lowKind
      let below ← order .between value kind high highKind
      .ok (satisfies .atLeast above && satisfies .atMost below)) :=
  rfl

/-- A value lies between bounds as it compares with each of them. -/
theorem apply_between_eq_ok_iff [Engine] {holds : Bool} :
    apply .between value (.array [low, high]) = .ok holds ↔
      ∃ above below, apply .atLeast value low = .ok above ∧ apply .atMost value high = .ok below ∧
        holds = (above && below) := by
  simp only [apply_between_eq, @apply_eq_ok_iff_between .atLeast _ _ _ (by decide),
    @apply_eq_ok_iff_between .atMost _ _ _ (by decide), matched, bind_eq_ok, Except.ok.injEq]
  constructor
  · rintro ⟨kind, known, lowKind, low_kind, highKind, high_kind, _, low_agrees, _, high_agrees,
      above, low_compared, below, high_compared, rfl⟩
    exact ⟨_, _, ⟨above, ⟨kind, known, lowKind, low_kind, _, low_agrees, low_compared⟩, rfl⟩,
      ⟨below, ⟨kind, known, highKind, high_kind, _, high_agrees, high_compared⟩, rfl⟩, rfl⟩
  · rintro ⟨_, _, ⟨above, ⟨kind, known, lowKind, low_kind, _, low_agrees, low_compared⟩, rfl⟩,
      ⟨below, ⟨other, other_known, highKind, high_kind, _, high_agrees, high_compared⟩, rfl⟩, rfl⟩
    cases known.symm.trans other_known
    exact ⟨kind, known, lowKind, low_kind, highKind, high_kind, _, low_agrees, _, high_agrees,
      above, low_compared, below, high_compared, rfl⟩

/-- Bounds fail as one of the two comparisons does. -/
theorem fails_of_apply_between_eq_error [Engine] {fault : Fault}
    (failed : apply .between value (.array [low, high]) = .error fault) :
    apply .atLeast value low = .error (fault.under .atLeast) ∨
      apply .atMost value high = .error (fault.under .atMost) := by
  have sides : matched value low (order .between value · low ·) = .error fault ∨
      matched value high (order .between value · high ·) = .error fault := by
    simp only [apply_between_eq, bind_eq_error] at failed
    simp only [matched, bind_eq_error]
    rcases failed with unread | ⟨kind, known, low_unread | ⟨lowKind, low_kind, high_unread |
      ⟨highKind, high_kind, low_clash | ⟨_, low_agrees, high_clash | ⟨_, high_agrees, low_failed |
        ⟨above, -, high_failed | ⟨below, -, impossible⟩⟩⟩⟩⟩⟩⟩
    · exact .inl (.inl unread)
    · exact .inl (.inr ⟨kind, known, .inl low_unread⟩)
    · exact .inr (.inr ⟨kind, known, .inl high_unread⟩)
    · exact .inl (.inr ⟨kind, known, .inr ⟨lowKind, low_kind, .inl low_clash⟩⟩)
    · exact .inr (.inr ⟨kind, known, .inr ⟨highKind, high_kind, .inl high_clash⟩⟩)
    · exact .inl (.inr ⟨kind, known, .inr ⟨lowKind, low_kind, .inr ⟨_, low_agrees, low_failed⟩⟩⟩)
    · exact .inr (.inr ⟨kind, known, .inr ⟨highKind, high_kind,
        .inr ⟨_, high_agrees, high_failed⟩⟩⟩)
    · cases impossible
  rw [apply_eq_matched_between (by decide), apply_eq_matched_between (by decide)]
  refine sides.imp (fun low_failed => ?_) fun high_failed => ?_
  · rw [low_failed]
    rfl
  · rw [high_failed]
    rfl

/-! ## Items -/

/-- The verdict of a comparison in which kinds that do not match count as different values. -/
def lenient : Result Bool → Result Bool
  | .error (.mismatch _ _) => .ok false
  | said => said

theorem lenient_eq {said : Result Bool} (over_values : FailsOverValues operator said) :
    lenient said = said := by
  rcases said with fault | answer
  · rcases over_values fault rfl with ⟨cause, rfl⟩ | ⟨kind, rfl⟩ <;> rfl
  · rfl

/-- An item is matched with a value as it compares with it, a mismatch being none. -/
theorem kindOf_bind_matching [Engine] {item sought : Value} {kind : Kind}
    (known : sought.classify = .ok kind) :
    (kindOf item >>= fun itemKind => matching operator item itemKind sought kind) =
      (lenient (apply .equal item sought)).mapError (Fault.under operator) := by
  cases item_known : item.classify with
  | error cause =>
      have unread : kindOf item = .error (.value cause) := by rw [kindOf, reading, item_known]; rfl
      have failed : apply .equal item sought = .error (.value cause) := by
        rw [apply, applyWith, unread]
        rfl
      rw [unread, failed]
      rfl
  | ok itemKind =>
      rw [kindOf_eq_ok_iff.mpr item_known]
      change matching operator item itemKind sought kind = _
      by_cases agrees : itemKind.agrees kind
      · rw [apply_equal_eq item_known known agrees, lenient_eq failsOverValues_equality, matching,
          if_pos agrees, equality_under .equal operator]
      · have failed : apply .equal item sought = .error (.mismatch kind itemKind) := by
          rw [apply, applyWith, kindOf_eq_ok_iff.mpr item_known, kindOf_eq_ok_iff.mpr known]
          change (requireAgreement itemKind kind >>= fun _ => _) = _
          rw [requireAgreement, if_neg agrees]
          rfl
        rw [failed, matching, if_neg agrees]
        rfl

/-- A search says of a row of items what is said of the first of them that settles it. -/
structure Scans (operator : Operator) (outcome : Result Bool) (said : Value → Result Bool)
    (items : List Value) : Prop where
  found_iff : outcome = .ok true ↔
    ∃ item, FirstLacking (fun item => said item = .ok false) items item ∧ said item = .ok true
  denied_iff : outcome = .ok false ↔ ∀ item ∈ items, said item = .ok false
  failed_iff : ∀ fault, outcome = .error fault ↔
    ∃ item cause, FirstLacking (fun item => said item = .ok false) items item ∧
      said item = .error cause ∧ fault = cause.under operator

theorem scans_of_searchRow {outcome : Result Bool} {said : Value → Result Bool}
    {items : List Value}
    (searched : outcome =
      searchRow (fun item => (said item).mapError (Fault.under operator)) (.ok false) items) :
    Scans operator outcome said items := by
  constructor
  case found_iff =>
    rw [searched, searchRow_eq_iff (by simp)]
    simp only [mapError_eq_ok]
  case denied_iff =>
    rw [searched, searchRow_eq_false_iff]
    simp only [mapError_eq_ok]
  case failed_iff =>
    intro fault
    rw [searched, searchRow_eq_iff (by simp)]
    simp only [mapError_eq_ok, mapError_eq_error]
    constructor
    · rintro ⟨item, first, cause, failed, rfl⟩
      exact ⟨item, cause, first, failed, rfl⟩
    · rintro ⟨item, cause, first, failed, rfl⟩
      exact ⟨item, first, cause, failed, rfl⟩

/-! ## Lists and single values -/

/-- The operators on lists say what those on single values say of the bounds or the items. -/
structure Itemwise [Engine] (value : Value) : Prop where
  between_iff : ∀ low high holds, apply .between value (.array [low, high]) = .ok holds ↔
    ∃ above below, apply .atLeast value low = .ok above ∧ apply .atMost value high = .ok below ∧
      holds = (above && below)
  /-- Bounds fail as one of the two comparisons does. -/
  between_fails : ∀ low high fault, apply .between value (.array [low, high]) = .error fault →
    apply .atLeast value low = .error (fault.under .atLeast) ∨
      apply .atMost value high = .error (fault.under .atMost)
  member_scans : value ≠ .null → ∀ items,
    Scans .member (apply .member value (.array items)) (apply .equal value ·) items
  nonmember_eq : ∀ items, apply .nonmember value (.array items) =
    ((apply .member value (.array items)).mapError (Fault.under .nonmember)).map not
  /-- Items of other kinds are passed over. -/
  contain_scans : value ≠ .null → ∀ items,
    Scans .contain (apply .contain (.array items) value)
      (fun item => lenient (apply .equal item value)) items

theorem apply_member_eq_searchRow [Engine] (known : value ≠ .null) {items : List Value} :
    apply .member value (.array items) =
      searchRow (fun item => (apply .equal value item).mapError (Fault.under .member)) (.ok false)
        items := by
  obtain ⟨kind, classified⟩ := Value.exists_classify_eq_ok_iff.mpr known
  rw [apply_listed_eq_searchRow (by decide) classified]
  rcases searchRow _ _ items with _ | (_ | _) <;> rfl

theorem Fault.under_under (fault : Fault) (operator other : Operator) :
    (fault.under operator).under other = fault.under other := by
  cases fault <;> rfl

theorem apply_nonmember_eq [Engine] {items : List Value} :
    apply .nonmember value (.array items) =
      ((apply .member value (.array items)).mapError (Fault.under .nonmember)).map not := by
  by_cases known : value = .null
  · subst known
    rfl
  · obtain ⟨kind, classified⟩ := Value.exists_classify_eq_ok_iff.mpr known
    rw [apply_listed_eq_searchRow (by decide) classified, apply_member_eq_searchRow known,
      ← mapError_searchRow, ← mapError_searchRow]
    rcases searchRow (apply .equal value ·) (.ok false) items with fault | (_ | _)
    · exact congrArg Except.error (fault.under_under .member .nonmember).symm
    · rfl
    · rfl

/-- The operators on lists agree with those on single values. -/
theorem itemwise [Engine] (value : Value) : Itemwise value := by
  constructor
  case between_iff => exact fun low high holds => apply_between_eq_ok_iff
  case between_fails => exact fun low high fault => fails_of_apply_between_eq_error
  case member_scans => exact fun known items => scans_of_searchRow (apply_member_eq_searchRow known)
  case nonmember_eq => exact fun items => apply_nonmember_eq
  case contain_scans =>
    intro known items
    obtain ⟨kind, classified⟩ := Value.exists_classify_eq_ok_iff.mpr known
    refine scans_of_searchRow ?_
    rw [apply_contain_eq_searchRow classified]
    simp only [kindOf_bind_matching classified]

section

open scoped Engine.Plain

/-- A bound that excludes the value hides no fault of the other. -/
example : apply .between (.int 1) (.array [.int 2, .text "a"]) =
    .error (.mismatch .string .int) := by
  decide +kernel

end

end Comparison
end RiskGraph

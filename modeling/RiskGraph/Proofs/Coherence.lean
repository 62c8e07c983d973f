import RiskGraph.Proofs.Preorder

/-!
# The relational operators as a family

The operators of order all test the order of two values, equality tests whether it is the even one,
and the operators on dates are those of order under other names.  They therefore agree with one
another, also when they fail: an operator shows in a fault only by its name.
-/

namespace RiskGraph

/-! ## The other way round -/

theorem Binary64.same_comm (x y : Binary64) : x.same y = y.same x := by
  rw [Bool.eq_iff_iff, same_iff, same_iff]
  exact exists_congr fun p => and_comm

namespace Value

mutual

/-- Equality of structure is symmetric. -/
theorem same_comm (a b : Value) : a.same b = b.same a := by
  cases a with
  | int m =>
      cases b with
      | int n => exact BEq.comm
      | _ => rfl
  | real x =>
      cases b with
      | real y => exact x.same_comm y
      | _ => rfl
  | bool =>
      cases b with
      | bool => exact BEq.comm
      | _ => rfl
  | date =>
      cases b with
      | date => exact BEq.comm
      | _ => rfl
  | text =>
      cases b with
      | text => exact BEq.comm
      | _ => rfl
  | array items =>
      cases b with
      | array others => exact sameItems_comm items others
      | _ => rfl
  | map keys under =>
      cases b with
      | map others values =>
          rw [Bool.eq_iff_iff, same_map_iff, same_map_iff, List.perm_comm]
          refine and_congr_right fun _ => forall_congr' fun key => ?_
          rw [forall_comm]
          exact forall₂_congr fun there here => by rw [same_comm (under ⟨key, here⟩)]
      | _ => rfl
  | null => cases b <;> rfl
termination_by structural a

theorem sameItems_comm (as bs : List Value) : sameItems as bs = sameItems bs as := by
  cases as with
  | nil => cases bs <;> rfl
  | cons a as =>
      cases bs with
      | nil => rfl
      | cons b bs => rw [sameItems, sameItems, same_comm a b, sameItems_comm as bs]
termination_by structural as

end

theorem compare?_swap (left right : Value) :
    right.compare? left = (left.compare? right).map Ordering.swap := by
  simp only [compare?]
  cases left.standing? with
  | none => cases right.standing? <;> rfl
  | some s =>
      cases right.standing? with
      | none => rfl
      | some t => exact s.compare?_swap t

end Value

theorem Kind.agrees_comm (left right : Kind) : left.agrees right = right.agrees left := by
  rw [agrees, agrees, BEq.comm, Bool.and_comm]

/-- The operators of order, of equality and on dates. -/
def Operator.relational : List Operator :=
  [greater, atLeast, less, atMost, equal, different, before, after]

/-- The operator that says the same of two values in the other order, if there is one. -/
def Operator.mirror : Operator → Operator
  | greater => less
  | less => greater
  | atLeast => atMost
  | atMost => atLeast
  | before => after
  | after => before
  | operator => operator

namespace Comparison

/-- The same fault, met under another operator. -/
def Fault.under (operator : Operator) : Fault → Fault
  | unsupported _ kind => unsupported operator kind
  | fault => fault

/-- A step on two values whose kinds match, the kinds being found first. -/
def matched {α : Type} (left right : Value) (step : Kind → Kind → Result α) : Result α := do
  let leftKind ← kindOf left
  let rightKind ← kindOf right
  requireAgreement leftKind rightKind
  step leftKind rightKind

variable {operator other : Operator} {left right : Value} {leftKind rightKind : Kind}
  {fault : Fault}

/-! ## Faults -/

/-- Reals that have been read are ordered unless one of them is undefined. -/
theorem realOrder_of_toReal {x y : Binary64} (left_read : left.toReal = .ok x)
    (right_read : right.toReal = .ok y) :
    realOrder operator left right =
      (x.compare? y).elim (.error (.unsupported operator .float)) .ok := by
  simp only [realOrder, left_read, right_read, reading, Except.mapError, Except.bind, bind]
  cases x.compare? y <;> rfl

theorem realOrder_under (operator other : Operator) (left right : Value) :
    realOrder other left right = (realOrder operator left right).mapError (Fault.under other) := by
  cases left_read : left.toReal with
  | error =>
      simp only [realOrder, left_read]
      rfl
  | ok x =>
      cases right_read : right.toReal with
      | error =>
          simp only [realOrder, left_read, right_read]
          rfl
      | ok y =>
          rw [realOrder_of_toReal left_read right_read, realOrder_of_toReal left_read right_read]
          cases x.compare? y <;> rfl

/-- Order depends on the operator only for the name in a fault. -/
theorem order_under (operator other : Operator) (left right : Value) (leftKind rightKind : Kind) :
    order other left leftKind right rightKind =
      (order operator left leftKind right rightKind).mapError (Fault.under other) := by
  have by_reals := realOrder_under operator other left right
  unfold order
  split
  · unfold intOrder
    split
    · rfl
    · exact by_reals
  · exact by_reals
  · exact by_reals
  · exact by_reals
  · cases left.toMoment <;> cases right.toMoment <;> rfl
  · cases left.toText <;> cases right.toText <;> rfl
  · rfl

theorem equality_under (operator other : Operator) (left right : Value)
    (leftKind rightKind : Kind) :
    equality other left leftKind right rightKind =
      (equality operator left leftKind right rightKind).mapError (Fault.under other) := by
  unfold equality
  split
  · cases left.toBool <;> cases right.toBool <;> rfl
  · rfl
  · rfl
  · rw [order_under operator other]
    cases order operator left leftKind right rightKind <;> rfl

/-- What passes the faults of classification and of agreement on may be done after these. -/
theorem matched_comp {α β : Type} (after : Result α → Result β)
    (on_value : ∀ cause, after (.error (.value cause)) = .error (.value cause))
    (on_mismatch : ∀ expected found,
      after (.error (.mismatch expected found)) = .error (.mismatch expected found))
    (left right : Value) (step : Kind → Kind → Result α) :
    (matched left right fun leftKind rightKind => after (step leftKind rightKind)) =
      after (matched left right step) := by
  simp only [matched, kindOf, reading]
  cases left.classify with
  | error cause => exact (on_value cause).symm
  | ok leftKind =>
      cases right.classify with
      | error cause => exact (on_value cause).symm
      | ok rightKind =>
          change (requireAgreement leftKind rightKind >>= fun _ => _) =
            after (requireAgreement leftKind rightKind >>= fun _ => _)
          rw [requireAgreement]
          split
          · rfl
          · exact (on_mismatch rightKind leftKind).symm

/-! ## Operators as tests -/

theorem apply_of_relational [Engine]
    (relational : operator ∈ [Operator.greater, .atLeast, .less, .atMost]) :
    apply operator left right =
      (matched left right (order operator left · right ·)).map (satisfies operator) := by
  rw [← matched_comp (Except.map (satisfies operator)) (fun _ => rfl) fun _ _ => rfl]
  simp only [← bind_ok_eq_map]
  simp only [List.mem_cons, List.not_mem_nil, or_false] at relational
  rcases relational with rfl | rfl | rfl | rfl <;> rfl

theorem apply_equal_eq_matched [Engine] :
    apply .equal left right = matched left right (equality .equal left · right ·) :=
  rfl

/-- Two operators of order fail with one fault. -/
theorem apply_eq_error_under [Engine]
    (relational : operator ∈ [Operator.greater, .atLeast, .less, .atMost])
    (other_relational : other ∈ [Operator.greater, .atLeast, .less, .atMost])
    (failed : apply operator left right = .error fault) :
    apply other left right = .error (fault.under other) := by
  have shared : matched left right (order other left · right ·) =
      (matched left right (order operator left · right ·)).mapError (Fault.under other) := by
    rw [← matched_comp (Except.mapError (Fault.under other)) (fun _ => rfl) fun _ _ => rfl]
    simp only [order_under operator other]
  rw [apply_of_relational relational] at failed
  rw [apply_of_relational other_relational, shared]
  cases ordered : matched left right (order operator left · right ·) with
  | error cause =>
      rw [ordered] at failed
      cases failed
      rfl
  | ok =>
      rw [ordered] at failed
      nomatch failed

/-- Inequality is the negation of equality, or fails with its fault. -/
theorem apply_different_eq [Engine] :
    apply .different left right =
      ((apply .equal left right).mapError (Fault.under .different)).map not := by
  rw [apply_equal_eq_matched,
    ← matched_comp (Except.mapError (Fault.under .different)) (fun _ => rfl) fun _ _ => rfl,
    ← matched_comp (Except.map not) (fun _ => rfl) fun _ _ => rfl]
  simp only [← equality_under .equal .different, ← bind_ok_eq_map]
  rfl

/-! ## Both orders of the operands -/

theorem toOption_equality_swap (left_kind : left.classify = .ok leftKind)
    (right_kind : right.classify = .ok rightKind) (agrees : leftKind.agrees rightKind) :
    (equality operator right rightKind left leftKind).toOption =
      (equality operator left leftKind right rightKind).toOption := by
  have ordered : ∀ (result : Option Ordering),
      (result.map Ordering.swap).map (· == .eq) = result.map (· == .eq) := by
    rintro (_ | _ | _ | _) <;> rfl
  have by_order := @toOption_equality_of_order operator left right leftKind rightKind left_kind
    right_kind agrees
  have by_order_back := @toOption_equality_of_order operator right left rightKind leftKind
    right_kind left_kind (Kind.agrees_comm leftKind rightKind ▸ agrees)
  rw [Value.compare?_swap left right, ordered] at by_order_back
  cases leftKind with
  | int | float =>
      cases rightKind with
      | int | float => rw [by_order rfl, by_order_back rfl]
      | bool | date | string | array | map | unknown => nomatch agrees
  | date | string | unknown =>
      obtain rfl := Kind.eq_of_agrees agrees rfl
      rw [by_order rfl, by_order_back rfl]
  | bool =>
      obtain rfl := Kind.eq_of_agrees agrees rfl
      simp only [equality]
      cases left.toBool <;> cases right.toBool
      case ok.ok a b => exact congrArg some (BEq.comm (a := b))
      all_goals rfl
  | array | map =>
      obtain rfl := Kind.eq_of_agrees agrees rfl
      rw [equality, equality, Value.same_comm]

theorem toOption_apply_equal_swap [Engine] (left right : Value) :
    (apply .equal right left).toOption = (apply .equal left right).toOption := by
  rw [apply_equal_eq_matched, apply_equal_eq_matched]
  simp only [matched, kindOf, reading, toOption_bind, toOption_mapError]
  cases left_kind : left.classify with
  | error => cases right.classify <;> rfl
  | ok leftKind =>
      cases right_kind : right.classify with
      | error => rfl
      | ok rightKind =>
          simp only [Except.toOption, Option.bind_some, requireAgreement,
            Kind.agrees_comm rightKind leftKind]
          by_cases agrees : leftKind.agrees rightKind
          · rw [if_pos agrees, if_pos agrees]
            exact toOption_equality_swap left_kind right_kind agrees
          · rw [if_neg agrees, if_neg agrees]
            rfl

theorem toOption_apply_different [Engine] (left right : Value) :
    (apply .different left right).toOption = (apply .equal left right).toOption.map not := by
  rw [apply_different_eq]
  cases apply .equal left right <;> rfl

theorem satisfies_swap (relational : operator ∈ [Operator.greater, .atLeast, .less, .atMost])
    (ordering : Ordering) :
    satisfies operator.mirror ordering.swap = satisfies operator ordering := by
  simp only [List.mem_cons, List.not_mem_nil, or_false] at relational
  rcases relational with rfl | rfl | rfl | rfl <;> cases ordering <;> rfl

theorem toOption_apply_mirror [Engine]
    (relational : operator ∈ [Operator.greater, .atLeast, .less, .atMost]) (left right : Value) :
    (apply operator.mirror right left).toOption = (apply operator left right).toOption := by
  have mirrored : operator.mirror ∈ [Operator.greater, .atLeast, .less, .atMost] := by
    simp only [List.mem_cons, List.not_mem_nil, or_false] at relational
    rcases relational with rfl | rfl | rfl | rfl <;> decide
  rw [toOption_apply_of_relational mirrored, toOption_apply_of_relational relational,
    left.compare?_swap right, Option.map_map]
  exact congrArg (Option.map · _) (funext (satisfies_swap relational))

/-! ## Dates -/

theorem requireKind_eq_ok {expected found : Kind} {result : Unit} :
    requireKind expected found = .ok result ↔ expected = found := by
  rw [requireKind]
  split <;> simp_all

variable [Engine]

/-- The operators on dates ask for dates. -/
theorem dates_of_apply {holds : Bool} (calendar : operator = .before ∨ operator = .after)
    (applied : apply operator left right = .ok holds) :
    left.classify = .ok .date ∧ right.classify = .ok .date := by
  obtain ⟨leftKind, left_kind, rest⟩ := bind_eq_ok.mp applied
  obtain ⟨rightKind, right_kind, rest⟩ := bind_eq_ok.mp rest
  rw [kindOf, reading, mapError_eq_ok] at left_kind right_kind
  have required : requireKind .date leftKind = .ok () ∧ requireKind .date rightKind = .ok () := by
    rcases calendar with rfl | rfl
    all_goals
      obtain ⟨_, left_date, rest⟩ := bind_eq_ok.mp rest
      obtain ⟨_, right_date, -⟩ := bind_eq_ok.mp rest
      exact ⟨left_date, right_date⟩
  rw [requireKind_eq_ok, requireKind_eq_ok] at required
  rw [left_kind, right_kind, ← required.1, ← required.2]
  exact ⟨rfl, rfl⟩

/-- On dates the operators for these are operators of order. -/
theorem apply_of_dates (left_date : left.classify = .ok .date)
    (right_date : right.classify = .ok .date) :
    apply .before left right = apply .less left right ∧
      apply .after left right = apply .greater left right := by
  have applied : ∀ operator, apply operator left right =
      applyKinds operator left .date right .date none := by
    intro operator
    simp only [apply, applyWith, kindOf, reading, left_date, right_date]
    rfl
  simp only [applied]
  constructor
  all_goals
    change (reading left.toMoment >>= fun _ => _) =
      ((reading left.toMoment >>= fun _ => _) >>= fun _ => _)
    cases left.toMoment <;> cases right.toMoment <;> rfl

theorem apply_after_eq_ok_iff {holds : Bool} :
    apply .after right left = .ok holds ↔ apply .before left right = .ok holds := by
  have on_dates : left.classify = .ok .date → right.classify = .ok .date →
      (apply .after right left = .ok holds ↔ apply .before left right = .ok holds) := by
    intro left_date right_date
    rw [(apply_of_dates left_date right_date).1, (apply_of_dates right_date left_date).2,
      ← toOption_eq_some, ← toOption_eq_some, ← toOption_apply_mirror (by decide) left right]
    rfl
  constructor
  · intro applied
    obtain ⟨right_date, left_date⟩ := dates_of_apply (Or.inr rfl) applied
    exact (on_dates left_date right_date).mp applied
  · intro applied
    obtain ⟨left_date, right_date⟩ := dates_of_apply (Or.inl rfl) applied
    exact (on_dates left_date right_date).mpr applied

/-! ## The family -/

theorem apply_mirror_eq_ok_iff {holds : Bool} (relational : operator ∈ Operator.relational) :
    apply operator.mirror right left = .ok holds ↔ apply operator left right = .ok holds := by
  cases operator with
  | greater | atLeast | less | atMost =>
      rw [← toOption_eq_some, toOption_apply_mirror (by decide), toOption_eq_some]
  | equal =>
      rw [Operator.mirror, ← toOption_eq_some, toOption_apply_equal_swap, toOption_eq_some]
      all_goals nofun
  | different =>
      have swapped : (apply .different right left).toOption =
          (apply .different left right).toOption := by
        rw [toOption_apply_different, toOption_apply_different, toOption_apply_equal_swap]
      rw [← toOption_eq_some, ← toOption_eq_some]
      exact iff_of_eq (congrArg (· = some holds) swapped)
  | before => exact apply_after_eq_ok_iff
  | after => exact apply_after_eq_ok_iff.symm
  | between | member | nonmember | contain | like | keyExist | valueExist =>
      exact absurd relational (by decide)

/-- What the relational operators say of two values, each by itself and in either order. -/
structure Coherent (left right : Value) : Prop where
  /-- The operators of order fail together, with one fault but for the operator that it names; or
  one of less, equal and greater holds, and the other operators are the negations of these. -/
  ordered :
    (∃ fault : Fault, ∀ operator ∈ [Operator.greater, .atLeast, .less, .atMost],
      apply operator left right = .error (fault.under operator)) ∨
    ∃ less equal greater : Bool, [less, equal, greater].count true = 1 ∧
      apply .less left right = .ok less ∧ apply .equal left right = .ok equal ∧
        apply .greater left right = .ok greater ∧ apply .atLeast left right = .ok (!less) ∧
          apply .different left right = .ok (!equal) ∧ apply .atMost left right = .ok (!greater)
  /-- Inequality is the negation of equality or fails with its fault. -/
  negated :
    (∃ equal : Bool, apply .equal left right = .ok equal ∧
      apply .different left right = .ok (!equal)) ∨
    ∃ fault : Fault, apply .equal left right = .error fault ∧
      apply .different left right = .error (fault.under .different)
  /-- Each operator says of two values what its mirror says of them in the other order. -/
  mirrored : ∀ operator ∈ Operator.relational, ∀ holds,
    apply operator left right = .ok holds ↔ apply operator.mirror right left = .ok holds
  /-- It fails where its mirror does. -/
  mirror_fails : ∀ operator ∈ Operator.relational,
    (∃ fault, apply operator left right = .error fault) ↔
      ∃ fault, apply operator.mirror right left = .error fault
  /-- On dates the operators for these are operators of order. -/
  dates : left.classify = .ok .date → right.classify = .ok .date →
    apply .before left right = apply .less left right ∧
      apply .after left right = apply .greater left right

theorem ordered_of_compare? {ordering : Ordering} (compared : left.compare? right = some ordering) :
    apply .less left right = .ok (ordering == .lt) ∧
      apply .equal left right = .ok (ordering == .eq) ∧
        apply .greater left right = .ok (ordering == .gt) ∧
          apply .atLeast left right = .ok (!(ordering == .lt)) ∧
            apply .different left right = .ok (!(ordering == .eq)) ∧
              apply .atMost left right = .ok (!(ordering == .gt)) := by
  have tested : ∀ operator ∈ [Operator.greater, .atLeast, .less, .atMost],
      apply operator left right = .ok (satisfies operator ordering) := by
    intro operator relational
    rw [← toOption_eq_some, toOption_apply_of_relational relational, compared, Option.map_some]
  have equal := apply_equal_of_compare? compared
  refine ⟨tested .less (by decide), equal, tested .greater (by decide), tested .atLeast (by decide),
    ?_, tested .atMost (by decide)⟩
  rw [apply_different_eq, equal]
  rfl

/-- The relational operators agree with one another on all values. -/
theorem coherent (left right : Value) : Coherent left right where
  ordered := by
    cases compared : left.compare? right with
    | none =>
        have failed : (apply .less left right).toOption = none := by
          rw [toOption_apply_of_relational (by decide), compared, Option.map_none]
        cases applied : apply .less left right with
        | ok =>
            rw [applied] at failed
            nomatch failed
        | error fault =>
            exact Or.inl ⟨fault, fun operator relational =>
              apply_eq_error_under (by decide) relational applied⟩
    | some ordering =>
        refine Or.inr ⟨_, _, _, ?_, ordered_of_compare? compared⟩
        cases ordering <;> rfl
  negated := by
    rw [apply_different_eq]
    cases apply .equal left right with
    | ok equal => exact Or.inl ⟨equal, rfl, rfl⟩
    | error fault => exact Or.inr ⟨fault, rfl, rfl⟩
  mirrored := fun operator relational holds => (apply_mirror_eq_ok_iff relational).symm
  mirror_fails := by
    intro operator relational
    rw [exists_eq_error_iff, exists_eq_error_iff]
    exact forall_congr' fun _ => not_congr (apply_mirror_eq_ok_iff relational).symm
  dates := apply_of_dates

end Comparison
end RiskGraph

import Mathlib.Data.List.Perm.Subperm
import RiskGraph.Proofs.Standing

/-!
# Equality

Values that are ordered are equal if neither is less.  Truth values are equal as such, arrays and
maps part by part; the latter equality is one of structure, in which reals count as numbers.
-/

namespace RiskGraph

theorem Binary64.same_iff {x y : Binary64} :
    x.same y = true ↔ ∃ p, x.rank? = some p ∧ y.rank? = some p := by
  rw [same, compare?_eq, beq_iff_eq]
  constructor
  · intro equal
    obtain ⟨p, left_rank, equal⟩ := Option.bind_eq_some_iff.mp equal
    obtain ⟨q, right_rank, equal⟩ := Option.map_eq_some_iff.mp equal
    exact ⟨p, left_rank, compare_eq_iff_eq.mp equal ▸ right_rank⟩
  · rintro ⟨p, left_rank, right_rank⟩
    rw [left_rank, right_rank, Option.bind_some, Option.map_some, Option.some_inj]
    exact compare_eq_iff_eq.mpr rfl

namespace Value

/-- Maps are equal if they have the same keys, in any order, and under each key the same value. -/
theorem same_map_iff {keys others : Keys} {under : keys.Member → Value}
    {values : others.Member → Value} :
    (map keys under).same (map others values) = true ↔
      keys.names.Perm others.names ∧
        ∀ key (here : key ∈ keys.names) (there : key ∈ others.names),
          (under ⟨key, here⟩).same (values ⟨key, there⟩) = true := by
  rw [same, Bool.and_eq_true, beq_iff_eq, List.all_eq_true]
  constructor
  · rintro ⟨length_eq, each⟩
    have found : ∀ key (here : key ∈ keys.names), ∃ there : key ∈ others.names,
        (under ⟨key, here⟩).same (values ⟨key, there⟩) = true := by
      intro key here
      have held := each ⟨key, here⟩ (List.mem_attach _ _)
      split at held
      · next there => exact ⟨there, held⟩
      · nomatch held
    have subset : keys.names ⊆ others.names := fun key here => (found key here).1
    refine ⟨?_, fun key here _ => (found key here).2⟩
    exact (keys.distinct.subperm subset).perm_of_length_le length_eq.ge
  · rintro ⟨rearranged, each⟩
    refine ⟨rearranged.length_eq, fun key _ => ?_⟩
    rw [dif_pos (rearranged.mem_iff.mp key.property)]
    exact each key.val key.property _

mutual

/-- Equality of structure is transitive. -/
theorem same_trans {a b c : Value} (ab : a.same b = true) (bc : b.same c = true) :
    a.same c = true := by
  cases a with
  | int m =>
      cases b with
      | int n => exact eq_of_beq ab ▸ bc
      | _ => nomatch ab
  | real x =>
      cases b with
      | real y =>
          cases c with
          | real z =>
              obtain ⟨p, left_rank, right_rank⟩ := Binary64.same_iff.mp ab
              obtain ⟨q, middle_rank, last_rank⟩ := Binary64.same_iff.mp bc
              cases right_rank.symm.trans middle_rank
              exact Binary64.same_iff.mpr ⟨p, left_rank, last_rank⟩
          | _ => nomatch bc
      | _ => nomatch ab
  | bool =>
      cases b with
      | bool => exact eq_of_beq ab ▸ bc
      | _ => nomatch ab
  | date =>
      cases b with
      | date => exact eq_of_beq ab ▸ bc
      | _ => nomatch ab
  | text =>
      cases b with
      | text => exact eq_of_beq ab ▸ bc
      | _ => nomatch ab
  | array items =>
      cases b with
      | array others =>
          cases c with
          | array last => exact sameItems_trans ab bc
          | _ => nomatch bc
      | _ => nomatch ab
  | map keys under =>
      cases b with
      | map others values =>
          cases c with
          | map last finals =>
              obtain ⟨rearranged, each⟩ := same_map_iff.mp ab
              obtain ⟨rearranged', each'⟩ := same_map_iff.mp bc
              refine same_map_iff.mpr ⟨rearranged.trans rearranged', fun key here there => ?_⟩
              have between := rearranged.mem_iff.mp here
              exact same_trans (each key here between) (each' key between there)
          | _ => nomatch bc
      | _ => nomatch ab
  | null =>
      cases b with
      | null => exact bc
      | _ => nomatch ab
termination_by structural a

theorem sameItems_trans {as bs cs : List Value} (ab : sameItems as bs = true)
    (bc : sameItems bs cs = true) : sameItems as cs = true := by
  cases as with
  | nil =>
      cases bs with
      | nil => exact bc
      | cons => nomatch ab
  | cons a as =>
      cases bs with
      | nil => nomatch ab
      | cons b bs =>
          cases cs with
          | nil => nomatch bc
          | cons c cs =>
              rw [sameItems, Bool.and_eq_true] at ab bc ⊢
              exact ⟨same_trans ab.1 bc.1, sameItems_trans ab.2 bc.2⟩
termination_by structural as

end

/-- A value is compared as a truth value. -/
def IsTruth (value : Value) (truth : Bool) : Prop :=
  value.classify = .ok .bool ∧ value.toBool = .ok truth

/-- Two values are both arrays or both maps, and of one structure. -/
def SameStructure (left right : Value) : Prop :=
  ∃ kind, (kind = .array ∨ kind = .map) ∧ left.classify = .ok kind ∧ right.classify = .ok kind ∧
    left.same right = true

end Value

theorem Kind.eq_of_agrees {left right : Kind} (agrees : left.agrees right)
    (not_numeric : left.isNumeric = false) : right = left := by
  simp only [Kind.agrees, not_numeric, Bool.false_and, Bool.or_false, beq_iff_eq] at agrees
  exact agrees.symm

namespace Comparison

variable {operator : Operator} {left right : Value} {leftKind rightKind : Kind}

/-- Equality of values that are ordered, or of none. -/
theorem toOption_equality_of_order (left_kind : left.classify = .ok leftKind)
    (right_kind : right.classify = .ok rightKind) (agrees : leftKind.agrees rightKind)
    (by_order : equality operator left leftKind right rightKind =
      (do let ordering ← order operator left leftKind right rightKind; .ok (ordering == .eq))) :
    (equality operator left leftKind right rightKind).toOption =
      (left.compare? right).map (· == .eq) := by
  rw [by_order, bind_ok_eq_map, ← toOption_order left_kind right_kind agrees]
  cases order operator left leftKind right rightKind <;> rfl

theorem equality_eq_ok_true_iff_of_order (left_kind : left.classify = .ok leftKind)
    (right_kind : right.classify = .ok rightKind) (agrees : leftKind.agrees rightKind)
    (by_order : equality operator left leftKind right rightKind =
      (do let ordering ← order operator left leftKind right rightKind; .ok (ordering == .eq))) :
    equality operator left leftKind right rightKind = .ok true ↔
      left.compare? right = some .eq := by
  rw [← toOption_eq_some, toOption_equality_of_order left_kind right_kind agrees by_order,
    Option.map_eq_some_iff]
  simp only [beq_iff_eq, exists_eq_right]

theorem equality_eq_ok_true_iff (left_kind : left.classify = .ok leftKind)
    (right_kind : right.classify = .ok rightKind) (agrees : leftKind.agrees rightKind) :
    equality operator left leftKind right rightKind = .ok true ↔
      left.compare? right = some .eq ∨ (∃ truth, left.IsTruth truth ∧ right.IsTruth truth) ∨
        left.SameStructure right := by
  have kind_eq : ∀ {kind}, left.classify = .ok kind → kind = leftKind := fun found =>
    Except.ok.inj (found.symm.trans left_kind)
  cases leftKind with
  | int | float | date | string | unknown =>
      rw [equality_eq_ok_true_iff_of_order left_kind right_kind agrees rfl]
      constructor
      · exact Or.inl
      · rintro (equal | ⟨_, is_truth, -⟩ | ⟨_, rfl | rfl, structured, -⟩)
        · exact equal
        · cases kind_eq is_truth.1
        · cases kind_eq structured
        · cases kind_eq structured
  | bool =>
      obtain rfl := Kind.eq_of_agrees agrees rfl
      simp only [equality, bind_eq_ok, reading, mapError_eq_ok,
        Value.compare?_of_unordered left_kind rfl]
      constructor
      · rintro ⟨a, left_read, b, right_read, equal⟩
        obtain rfl := eq_of_beq (Except.ok.inj equal)
        exact Or.inr (Or.inl ⟨a, ⟨left_kind, left_read⟩, right_kind, right_read⟩)
      · rintro (impossible | ⟨truth, left_truth, right_truth⟩ | ⟨_, rfl | rfl, structured, -⟩)
        · cases impossible
        · exact ⟨truth, left_truth.2, truth, right_truth.2, by rw [beq_self_eq_true]⟩
        · cases kind_eq structured
        · cases kind_eq structured
  | array | map =>
      obtain rfl := Kind.eq_of_agrees agrees rfl
      rw [equality, Value.compare?_of_unordered left_kind rfl, Except.ok.injEq]
      constructor
      · intro same
        exact Or.inr (Or.inr ⟨_, by simp, left_kind, right_kind, same⟩)
      · rintro (impossible | ⟨_, is_truth, -⟩ | ⟨_, -, -, -, same⟩)
        · cases impossible
        · cases kind_eq is_truth.1
        · exact same

/-- Values of kinds that match are equal if they are so as values of these kinds. -/
theorem apply_equal_eq [Engine] (left_kind : left.classify = .ok leftKind)
    (right_kind : right.classify = .ok rightKind) (agrees : leftKind.agrees rightKind) :
    apply .equal left right = equality .equal left leftKind right rightKind := by
  simp only [apply, applyWith, kindOf, reading, left_kind, right_kind, Except.mapError]
  change (requireAgreement leftKind rightKind >>= fun _ => _) = _
  rw [requireAgreement, if_pos agrees]
  rfl

theorem exists_kinds_of_apply_equal [Engine] {result : Bool}
    (applied : apply .equal left right = .ok result) :
    ∃ leftKind rightKind, left.classify = .ok leftKind ∧ right.classify = .ok rightKind ∧
      leftKind.agrees rightKind := by
  obtain ⟨leftKind, left_read, rest⟩ := bind_eq_ok.mp applied
  obtain ⟨rightKind, right_read, rest⟩ := bind_eq_ok.mp rest
  obtain ⟨_, agreement, -⟩ := bind_eq_ok.mp rest
  refine ⟨leftKind, rightKind, mapError_eq_ok.mp left_read, mapError_eq_ok.mp right_read, ?_⟩
  rw [requireAgreement] at agreement
  split at agreement
  · assumption
  · cases agreement

theorem exists_kinds_of_compare? {ordering : Ordering}
    (compared : left.compare? right = some ordering) :
    ∃ leftKind rightKind, left.classify = .ok leftKind ∧ right.classify = .ok rightKind ∧
      leftKind.agrees rightKind := by
  obtain ⟨s, left_stands, right_compared⟩ := Option.bind_eq_some_iff.mp compared
  obtain ⟨t, right_stands, -⟩ := Option.bind_eq_some_iff.mp right_compared
  obtain ⟨leftKind, left_kind⟩ := Value.exists_kind_of_standing? left_stands
  obtain ⟨rightKind, right_kind⟩ := Value.exists_kind_of_standing? right_stands
  exact ⟨leftKind, rightKind, left_kind, right_kind,
    Value.agrees_of_compare? left_kind right_kind compared⟩

theorem apply_equal_of_compare? [Engine] {ordering : Ordering}
    (compared : left.compare? right = some ordering) :
    apply .equal left right = .ok (ordering == .eq) := by
  obtain ⟨leftKind, rightKind, left_kind, right_kind, agrees⟩ := exists_kinds_of_compare? compared
  have ordered : order .equal left leftKind right rightKind = .ok ordering := by
    rw [← toOption_eq_some, toOption_order left_kind right_kind agrees, compared]
  rw [apply_equal_eq left_kind right_kind agrees]
  cases leftKind with
  | int | float | date | string | unknown =>
      simp only [equality, ordered]
      rfl
  | bool | array | map =>
      nomatch compared.symm.trans (Value.compare?_of_unordered left_kind rfl)

/-- Two values are equal if they are ordered so, or as truth values or structures. -/
theorem apply_equal_eq_ok_true_iff [Engine] :
    apply .equal left right = .ok true ↔
      left.compare? right = some .eq ∨ (∃ truth, left.IsTruth truth ∧ right.IsTruth truth) ∨
        left.SameStructure right := by
  constructor
  · intro applied
    obtain ⟨leftKind, rightKind, left_kind, right_kind, agrees⟩ :=
      exists_kinds_of_apply_equal applied
    rw [apply_equal_eq left_kind right_kind agrees] at applied
    exact (equality_eq_ok_true_iff left_kind right_kind agrees).mp applied
  · intro equal
    have kinds : ∃ leftKind rightKind, left.classify = .ok leftKind ∧
        right.classify = .ok rightKind ∧ leftKind.agrees rightKind := by
      rcases equal with compared | ⟨_, left_truth, right_truth⟩ |
        ⟨kind, structured, left_kind, right_kind, -⟩
      · exact exists_kinds_of_compare? compared
      · exact ⟨.bool, .bool, left_truth.1, right_truth.1, rfl⟩
      · exact ⟨kind, kind, left_kind, right_kind, by rcases structured with rfl | rfl <;> rfl⟩
    obtain ⟨leftKind, rightKind, left_kind, right_kind, agrees⟩ := kinds
    rw [apply_equal_eq left_kind right_kind agrees]
    exact (equality_eq_ok_true_iff left_kind right_kind agrees).mpr equal

end Comparison
end RiskGraph

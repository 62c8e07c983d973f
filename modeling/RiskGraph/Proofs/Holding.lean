import RiskGraph.Proofs.Equality
import RiskGraph.Proofs.Search

/-!
# The values of a map in any order

Entries of a map come in no certain order.  Whether the map holds a value is settled by the first
entry that equals it or cannot be compared with it although the kinds match.  The order matters
exactly where entries settle the outcome in different ways.
-/

namespace RiskGraph

/-! ## Readings that cannot fail -/

namespace Value

variable {value : Value}

theorem classify_ne_unknown : value.classify ≠ .ok .unknown := by
  cases value with
  | int | bool | date | array | map | null => rintro ⟨⟩
  | real x =>
      simp only [classify]
      split <;> rintro ⟨⟩
  | text content =>
      simp only [classify, Kind.ofText]
      split_ifs <;> rintro ⟨⟩

/-- Whatever is classified as a truth value is one. -/
theorem exists_isTruth (kind_eq : value.classify = .ok .bool) : ∃ truth, value.IsTruth truth := by
  suffices readable : ∃ truth, value.toBool = .ok truth from
    readable.imp fun truth read => ⟨kind_eq, read⟩
  cases value with
  | bool b => exact ⟨b, rfl⟩
  | text content =>
      simp only [classify, Kind.ofText, Except.ok.injEq] at kind_eq
      split_ifs at kind_eq with _ _ spelled
      rcases spelled with rfl | rfl
      · exact ⟨true, rfl⟩
      · exact ⟨false, rfl⟩
  | int | date | array | map | null => cases kind_eq
  | real x =>
      simp only [classify, Except.ok.injEq] at kind_eq
      split_ifs at kind_eq

end Value

namespace Comparison

variable {operator : Operator} {left right : Value} {leftKind rightKind : Kind}

/-- Equality of values of matching kinds fails only where the kinds are ordered and one of the
values stands for nothing in their order. -/
theorem exists_equality_eq_error_iff (left_kind : left.classify = .ok leftKind)
    (right_kind : right.classify = .ok rightKind) (agrees : leftKind.agrees rightKind) :
    (∃ fault, equality operator left leftKind right rightKind = .error fault) ↔
      leftKind.isOrdered ∧ left.compare? right = none := by
  rw [← toOption_eq_none]
  cases leftKind with
  | int | float | date | string =>
      rw [toOption_equality_of_order left_kind right_kind agrees rfl]
      simp [Kind.isOrdered]
  | bool =>
      obtain rfl := Kind.eq_of_agrees agrees rfl
      obtain ⟨a, -, left_read⟩ := Value.exists_isTruth left_kind
      obtain ⟨b, -, right_read⟩ := Value.exists_isTruth right_kind
      have read : equality operator left .bool right .bool = .ok (a == b) := by
        rw [equality, left_read, right_read]
        rfl
      simp [read, Except.toOption, Kind.isOrdered]
  | array | map => simp [equality, Except.toOption, Kind.isOrdered]
  | unknown => exact absurd left_kind Value.classify_ne_unknown

/-! ## Single entries -/

variable {threshold item : Value} {kind : Kind} {table : Table Value}

/-- What an entry alone says of whether a map holds the threshold: one of another kind, or of none,
does not. -/
def verdict (threshold item : Value) : Result Bool := do
  let kind ← kindOf threshold
  match kindOf item with
  | .error _ => .ok false
  | .ok itemKind => matching .valueExist item itemKind threshold kind

/-- The entry settles the outcome wherever it comes first. -/
def Settles (threshold item : Value) : Prop :=
  verdict threshold item ≠ .ok false

instance (threshold item : Value) : Decidable (Settles threshold item) :=
  inferInstanceAs (Decidable (_ ≠ _))

/-- The kinds match and are ordered, but one of the values stands for nothing in their order: it is
an undefined number, say, or has the form of a date that is not in the calendar. -/
def Obstructs (threshold item : Value) : Prop :=
  ∃ itemKind kind, item.classify = .ok itemKind ∧ threshold.classify = .ok kind ∧
    itemKind.agrees kind ∧ itemKind.isOrdered ∧ item.compare? threshold = none

theorem kindOf_eq_ok_iff : kindOf item = .ok kind ↔ item.classify = .ok kind :=
  mapError_eq_ok

/-- An item of a known kind is found exactly if it equals the threshold. -/
theorem matching_eq_ok_true_iff [Engine] {itemKind : Kind}
    (item_kind : item.classify = .ok itemKind)
    (known : threshold.classify = .ok kind) :
    matching operator item itemKind threshold kind = .ok true ↔
      apply .equal item threshold = .ok true := by
  by_cases agrees : itemKind.agrees kind
  · rw [matching, if_pos agrees, equality_eq_ok_true_iff item_kind known agrees,
      apply_equal_eq_ok_true_iff]
  · rw [matching, if_neg agrees]
    constructor
    · nofun
    · intro equal
      obtain ⟨_, _, item_kind', known', agrees'⟩ := exists_kinds_of_apply_equal equal
      cases item_kind.symm.trans item_kind'
      cases known.symm.trans known'
      exact absurd agrees' agrees

/-- Looking at an item of a known kind fails exactly if the item obstructs the comparison. -/
theorem exists_matching_eq_error_iff {itemKind : Kind} (item_kind : item.classify = .ok itemKind)
    (known : threshold.classify = .ok kind) :
    (∃ fault, matching operator item itemKind threshold kind = .error fault) ↔
      Obstructs threshold item := by
  by_cases agrees : itemKind.agrees kind
  · rw [matching, if_pos agrees, exists_equality_eq_error_iff item_kind known agrees]
    constructor
    · intro unordered
      exact ⟨itemKind, kind, item_kind, known, agrees, unordered⟩
    · rintro ⟨_, _, item_kind', known', -, unordered⟩
      cases item_kind.symm.trans item_kind'
      exact unordered
  · rw [matching, if_neg agrees]
    constructor
    · nofun
    · rintro ⟨_, _, item_kind', known', agrees', -⟩
      cases item_kind.symm.trans item_kind'
      cases known.symm.trans known'
      exact absurd agrees' agrees

theorem verdict_of_classify (known : threshold.classify = .ok kind) :
    verdict threshold item =
      match kindOf item with
      | .error _ => .ok false
      | .ok itemKind => matching .valueExist item itemKind threshold kind := by
  rw [verdict, kindOf_eq_ok_iff.mpr known]
  rfl

/-- An entry says that the threshold is held exactly if it equals the threshold. -/
theorem verdict_eq_ok_true_iff [Engine] :
    verdict threshold item = .ok true ↔ apply .equal item threshold = .ok true := by
  constructor
  · intro held
    obtain ⟨kind, known, found⟩ := bind_eq_ok.mp held
    split at found
    · nomatch found
    · next itemKind item_kind =>
        exact (matching_eq_ok_true_iff (kindOf_eq_ok_iff.mp item_kind)
          (kindOf_eq_ok_iff.mp known)).mp found
  · intro equal
    obtain ⟨itemKind, kind, item_kind, known, -⟩ := exists_kinds_of_apply_equal equal
    rw [verdict_of_classify known, kindOf_eq_ok_iff.mpr item_kind]
    exact (matching_eq_ok_true_iff item_kind known).mpr equal

theorem exists_verdict_eq_error_iff (known : threshold.classify = .ok kind) :
    (∃ fault, verdict threshold item = .error fault) ↔ Obstructs threshold item := by
  rw [verdict_of_classify known]
  cases item_kind : kindOf item with
  | error fault =>
      constructor
      · nofun
      · rintro ⟨_, _, item_kind', -⟩
        nomatch item_kind.symm.trans (kindOf_eq_ok_iff.mpr item_kind')
  | ok itemKind => exact exists_matching_eq_error_iff (kindOf_eq_ok_iff.mp item_kind) known

/-! ## Entries in an order -/

/-- A map is searched entry by entry. -/
theorem exists_apply_eq_searchRow [Engine] (threshold : Value) :
    ∃ last : Result Bool, last ≠ .ok true ∧ ∀ (keys : Keys) (under : keys.Member → Value),
      apply .valueExist (.map keys under) threshold =
        searchRow (fun entry => verdict threshold entry.2) last (keys.entries under) := by
  cases known : kindOf threshold with
  | error fault =>
      have failed : ∀ (keys : Keys) (under : keys.Member → Value),
          apply .valueExist (.map keys under) threshold = .error fault := by
        intro keys under
        rw [apply, applyWith, known]
        rfl
      refine ⟨.error fault, by rintro ⟨⟩, fun keys under => ?_⟩
      rw [failed]
      cases keys.entries under with
      | nil => rfl
      | cons entry entries =>
          rw [searchRow, verdict, known]
          rfl
  | ok kind =>
      refine ⟨.ok false, by rintro ⟨⟩, fun keys under => ?_⟩
      rw [apply, applyWith, known]
      change holding .valueExist threshold kind (keys.entries under) = _
      induction keys.entries under with
      | nil => rfl
      | cons entry entries induction =>
          rw [holding, searchRow, verdict_of_classify (kindOf_eq_ok_iff.mp known), ← induction]
          cases kindOf entry.2 <;> rfl

theorem exists_apply_ofTable_eq_searchRow [Engine] (threshold : Value) :
    ∃ last : Result Bool, last ≠ .ok true ∧ ∀ table : Table Value,
      apply .valueExist (.ofTable table) threshold =
        searchRow (fun entry => verdict threshold entry.2) last table.entries := by
  obtain ⟨last, last_ne, searched⟩ := exists_apply_eq_searchRow threshold
  refine ⟨last, last_ne, fun table => ?_⟩
  rw [Value.ofTable, searched, Value.entries_ofTable]

/-- Entries of a table in another order are those of a table. -/
theorem forall_perm_entries_iff {P : List (String × Value) → Prop} :
    (∀ others : Table Value, others.entries.Perm table.entries → P others.entries) ↔
      ∀ others : List (String × Value), others.Perm table.entries → P others := by
  constructor
  · intro each others rearranged
    exact each ⟨others, (rearranged.map Prod.fst).nodup_iff.mpr table.distinct⟩ rearranged
  · exact fun each others => each others.entries

theorem exists_perm_entries_iff {P : List (String × Value) → Prop} :
    (∃ others : Table Value, others.entries.Perm table.entries ∧ P others.entries) ↔
      ∃ others : List (String × Value), others.Perm table.entries ∧ P others := by
  simpa using not_congr (@forall_perm_entries_iff table fun others => ¬P others)

/-- The order makes no difference exactly if all entries that settle the outcome agree. -/
theorem forall_perm_apply_eq_iff [Engine] :
    (∀ others : Table Value, others.entries.Perm table.entries →
      apply .valueExist (.ofTable others) threshold =
        apply .valueExist (.ofTable table) threshold) ↔
    ∀ first ∈ table.entries, ∀ second ∈ table.entries, Settles threshold first.2 →
      Settles threshold second.2 → verdict threshold first.2 = verdict threshold second.2 := by
  obtain ⟨last, -, searched⟩ := exists_apply_ofTable_eq_searchRow threshold
  simp only [searched]
  rw [forall_perm_entries_iff (P := fun others => searchRow _ last others = _)]
  exact forall_perm_searchRow_eq_iff id

/-- Some order lets the map hold the threshold exactly if an entry equals it. -/
theorem exists_perm_apply_eq_true_iff [Engine] :
    (∃ others : Table Value, others.entries.Perm table.entries ∧
      apply .valueExist (.ofTable others) threshold = .ok true) ↔
    ∃ entry ∈ table.entries, apply .equal entry.2 threshold = .ok true := by
  obtain ⟨last, last_ne, searched⟩ := exists_apply_ofTable_eq_searchRow threshold
  simp only [searched, ← verdict_eq_ok_true_iff]
  rw [exists_perm_entries_iff (P := fun others => searchRow _ last others = _)]
  exact exists_perm_searchRow_iff (· = .ok true) nofun last_ne

/-- Every order does so exactly if, besides, no entry obstructs the comparison. -/
theorem forall_perm_apply_eq_true_iff [Engine] :
    (∀ others : Table Value, others.entries.Perm table.entries →
      apply .valueExist (.ofTable others) threshold = .ok true) ↔
    (∃ entry ∈ table.entries, apply .equal entry.2 threshold = .ok true) ∧
      ∀ entry ∈ table.entries, ¬Obstructs threshold entry.2 := by
  obtain ⟨last, last_ne, searched⟩ := exists_apply_ofTable_eq_searchRow threshold
  simp only [searched, ← verdict_eq_ok_true_iff]
  rw [forall_perm_entries_iff (P := fun others => searchRow _ last others = _),
    forall_perm_searchRow_eq_true_iff last_ne]
  refine and_congr_right fun ⟨held, _, equal⟩ => forall₂_congr fun entry _ => not_congr ?_
  obtain ⟨_, _, -, known, -⟩ := exists_kinds_of_apply_equal (verdict_eq_ok_true_iff.mp equal)
  exact exists_verdict_eq_error_iff known

/-- What the order of the entries of a map has to do with whether it holds a value. -/
theorem valueExist_orders [Engine] (threshold : Value) (table : Table Value) :
    ((∀ others : Table Value, others.entries.Perm table.entries →
        apply .valueExist (.ofTable others) threshold =
          apply .valueExist (.ofTable table) threshold) ↔
      ∀ first ∈ table.entries, ∀ second ∈ table.entries, Settles threshold first.2 →
        Settles threshold second.2 → verdict threshold first.2 = verdict threshold second.2) ∧
    ((∃ others : Table Value, others.entries.Perm table.entries ∧
        apply .valueExist (.ofTable others) threshold = .ok true) ↔
      ∃ entry ∈ table.entries, apply .equal entry.2 threshold = .ok true) ∧
    ((∀ others : Table Value, others.entries.Perm table.entries →
        apply .valueExist (.ofTable others) threshold = .ok true) ↔
      (∃ entry ∈ table.entries, apply .equal entry.2 threshold = .ok true) ∧
        ∀ entry ∈ table.entries, ¬Obstructs threshold entry.2) :=
  ⟨forall_perm_apply_eq_iff, exists_perm_apply_eq_true_iff, forall_perm_apply_eq_true_iff⟩

section

open scoped Engine.Plain

/-- A day that is not in the calendar makes the outcome depend on the order. -/
theorem valueExist_order_matters :
    let missing := ("a", Value.text "2024-02-30")
    let present := ("b", Value.text "2024-01-01")
    apply .equal present.2 (.text "2024-01-01") = .ok true ∧
      apply .valueExist (.ofTable ⟨[present, missing], by decide⟩) (.text "2024-01-01") =
        .ok true ∧
      apply .valueExist (.ofTable ⟨[missing, present], by decide⟩) (.text "2024-01-01") =
        .error (.value (.inconvertible "2024-02-30" .date)) := by
  decide +kernel

end

end Comparison
end RiskGraph

import RiskGraph.Proofs.Coherence
import RiskGraph.Proofs.Holding

/-!
# The items of a list in any order

Whether a list has a value among its items is settled by the first item that equals the value or
clashes with it.  Items behind an equal one are not looked at, not even for their kinds, so that the
order matters exactly where some item equals the value and another clashes with it.
-/

namespace RiskGraph

/-- Both values are of kinds, and the kinds match. -/
def Value.Matches (left right : Value) : Prop :=
  ∃ leftKind rightKind, left.classify = .ok leftKind ∧ right.classify = .ok rightKind ∧
    leftKind.agrees rightKind

theorem Value.exists_classify_eq_ok_iff {value : Value} :
    (∃ kind, value.classify = .ok kind) ↔ value ≠ .null := by
  cases value <;> simp [classify]

namespace Comparison

variable {operator : Operator} {sought item : Value} {kind : Kind} {items : List Value}

/-! ## Items that clash -/

/-- An item cannot be compared with the value sought: it is of no kind or of one that does not
match, or it obstructs the comparison. -/
def Clashes (sought item : Value) : Prop :=
  ¬item.Matches sought ∨ Obstructs sought item

theorem exists_apply_equal_eq_error_iff [Engine] :
    (∃ fault, apply .equal item sought = .error fault) ↔ Clashes sought item := by
  by_cases matched : item.Matches sought
  · obtain ⟨itemKind, kind, item_kind, known, agrees⟩ := id matched
    have matching_eq : apply .equal item sought = matching .equal item itemKind sought kind := by
      rw [apply_equal_eq item_kind known agrees, matching, if_pos agrees]
    rw [matching_eq, exists_matching_eq_error_iff item_kind known]
    exact (or_iff_right (not_not.mpr matched)).symm
  · refine iff_of_true ?_ (.inl matched)
    rw [exists_eq_error_iff]
    exact fun result equal => matched (exists_kinds_of_apply_equal equal)

/-! ## Searches -/

/-- How a search for a value comes out in the orders in which the items may stand.  An item that
equals the value gives the answer; one that clashes makes the search fail. -/
structure ComesOut [Engine] (outcome : List Value → Result Bool) (answer : Bool) (sought : Value)
    (clashes : Value → Prop) (items : List Value) : Prop where
  /-- The order makes no difference exactly if no item clashes where another equals the value. -/
  same_iff : (∀ others : List Value, others.Perm items →
      (outcome others).toOption = (outcome items).toOption) ↔
    ((∃ item ∈ items, apply .equal item sought = .ok true) → ∀ item ∈ items, ¬clashes item)
  some_answers_iff : (∃ others : List Value, others.Perm items ∧ outcome others = .ok answer) ↔
    ∃ item ∈ items, apply .equal item sought = .ok true
  all_answer_iff : (∀ others : List Value, others.Perm items → outcome others = .ok answer) ↔
    (∃ item ∈ items, apply .equal item sought = .ok true) ∧ ∀ item ∈ items, ¬clashes item
  some_fails_iff : (∃ others : List Value, others.Perm items ∧
      ∃ fault, outcome others = .error fault) ↔
    sought = .null ∨ ∃ item ∈ items, clashes item
  all_fail_iff : (∀ others : List Value, others.Perm items →
      ∃ fault, outcome others = .error fault) ↔
    (sought = .null ∨ ∃ item ∈ items, clashes item) ∧
      ∀ item ∈ items, apply .equal item sought ≠ .ok true
  denies_iff : outcome items = .ok (!answer) ↔
    sought ≠ .null ∧ ∀ item ∈ items, apply .equal item sought ≠ .ok true ∧ ¬clashes item
  /-- An item that clashes is noticed exactly if none before it gives the answer. -/
  notices_iff : ∀ before item after, items = before ++ item :: after → clashes item →
    ((∃ fault, outcome items = .error fault) ↔ outcome before ≠ .ok answer)

/-- What is read off a search that gives the answer `true` or, if negated, `false`. -/
theorem map_eq_iff (answer : Bool) (said : Result Bool) :
    (said.map (· == answer) = .ok answer ↔ said = .ok true) ∧
      (said.map (· == answer) = .ok (!answer) ↔ said = .ok false) ∧
      ((∃ fault, said.map (· == answer) = .error fault) ↔ ∃ fault, said = .error fault) := by
  rcases said with fault | (_ | _) <;> cases answer <;> simp [Except.map]

theorem toOption_map_inj (answer : Bool) (said other : Result Bool) :
    (said.map (· == answer)).toOption = (other.map (· == answer)).toOption ↔
      said.toOption = other.toOption := by
  rcases said with _ | (_ | _) <;> rcases other with _ | (_ | _) <;> cases answer <;>
    simp [Except.map, Except.toOption]

/-- A search through the row of the items comes out as its items do. -/
theorem comesOut_of_searchRow [Engine] {outcome : List Value → Result Bool} {answer : Bool}
    {clashes : Value → Prop} (verdict : Value → Result Bool) (known : sought ≠ .null)
    (said : ∀ row, outcome row = (searchRow verdict (.ok false) row).map (· == answer))
    (finds : ∀ item, verdict item = .ok true ↔ apply .equal item sought = .ok true)
    (fails : ∀ item, (∃ fault, verdict item = .error fault) ↔ clashes item) :
    ComesOut outcome answer sought clashes items where
  same_iff := by
    simp only [said, toOption_map_inj, ← finds, ← fails]
    exact forall_perm_toOption_searchRow_eq_iff
  some_answers_iff := by
    simp only [said, (map_eq_iff answer _).1, ← finds]
    exact exists_perm_searchRow_iff (· = .ok true) nofun nofun
  all_answer_iff := by
    simp only [said, (map_eq_iff answer _).1, ← finds, ← fails]
    exact forall_perm_searchRow_eq_true_iff nofun
  some_fails_iff := by
    simp only [said, (map_eq_iff answer _).2.2, ← fails, known, false_or]
    exact exists_perm_searchRow_iff (fun said => ∃ fault, said = .error fault) nofun nofun
  all_fail_iff := by
    simp only [said, (map_eq_iff answer _).2.2, ← fails, known, false_or, ne_eq, ← finds]
    exact forall_perm_searchRow_fails_iff nofun
  denies_iff := by
    rw [said, (map_eq_iff answer _).2.1, searchRow_eq_false_iff, and_iff_right known]
    refine forall₂_congr fun item _ => ?_
    rw [ne_eq, ← finds, ← fails]
    rcases verdict item with fault | (_ | _) <;> simp
  notices_iff := by
    rintro before item after rfl clash
    obtain ⟨fault, failed⟩ := (fails item).mpr clash
    rw [said, said, (map_eq_iff answer _).2.2, ne_eq, (map_eq_iff answer _).1]
    exact exists_searchRow_eq_error_iff failed

/-- A search for the missing value always fails. -/
theorem comesOut_of_fails [Engine] {outcome : List Value → Result Bool} {answer : Bool}
    {clashes : Value → Prop} (failed : ∀ row, ∃ fault, outcome row = .error fault) :
    ComesOut outcome answer .null clashes items := by
  have no_answer : ∀ row holds, outcome row ≠ .ok holds := by
    intro row holds
    obtain ⟨fault, outcome_eq⟩ := failed row
    rw [outcome_eq]
    nofun
  have unequal : ∀ item, apply .equal item .null ≠ .ok true := by
    intro item equal
    obtain ⟨_, _, -, known, -⟩ := exists_kinds_of_apply_equal equal
    nomatch known
  have unread : ∀ row, (outcome row).toOption = none := fun row => toOption_eq_none.mpr (failed row)
  constructor
  case same_iff => simp [unread, unequal]
  case some_answers_iff => simp [no_answer, unequal]
  case all_answer_iff =>
    refine iff_of_false (fun answered => no_answer items answer (answered items .rfl)) ?_
    simp [unequal]
  case some_fails_iff => exact iff_of_true ⟨items, .rfl, failed items⟩ (.inl rfl)
  case all_fail_iff => simp [failed, unequal]
  case denies_iff => simp [no_answer]
  case notices_iff => simp [failed, no_answer]

/-! ## The operators on lists -/

/-- Equality fails under each operator as the operator for it does. -/
theorem matched_equality [Engine] (operator : Operator) (left right : Value) :
    matched left right (equality operator left · right ·) =
      (apply .equal left right).mapError (Fault.under operator) := by
  rw [apply_equal_eq_matched,
    ← matched_comp (Except.mapError (Fault.under operator)) (fun _ => rfl) fun _ _ => rfl]
  simp only [← equality_under .equal operator]

theorem among_eq_searchRow [Engine] (known : sought.classify = .ok kind) :
    among operator sought kind items =
      searchRow (fun item => (apply .equal sought item).mapError (Fault.under operator)) (.ok false)
        items := by
  induction items with
  | nil => rfl
  | cons item items induction =>
      rw [among, searchRow, ← induction, ← matched_equality, matched, kindOf_eq_ok_iff.mpr known]
      cases kindOf item with
      | error => rfl
      | ok itemKind =>
          change (requireAgreement kind itemKind >>= fun _ => _) =
            ((requireAgreement kind itemKind >>= fun _ => _) >>= fun _ => _)
          cases requireAgreement kind itemKind <;> rfl

theorem apply_listed_eq_searchRow [Engine] (listed : operator ∈ [Operator.member, .nonmember])
    (known : sought.classify = .ok kind) :
    apply operator sought (.array items) =
      (searchRow (fun item => (apply .equal sought item).mapError (Fault.under operator))
        (.ok false) items).map (· == decide (operator = .member)) := by
  rw [← among_eq_searchRow known, apply, applyWith, kindOf_eq_ok_iff.mpr known]
  simp only [List.mem_cons, List.not_mem_nil, or_false] at listed
  rcases listed with rfl | rfl
  · change among .member sought kind items = _
    rcases among .member sought kind items with _ | (_ | _) <;> rfl
  · change (among .nonmember sought kind items >>= fun _ => _) = _
    rcases among .nonmember sought kind items with _ | (_ | _) <;> rfl

theorem apply_contain_eq_searchRow [Engine] (known : sought.classify = .ok kind) :
    apply .contain (.array items) sought =
      searchRow (fun item => kindOf item >>= fun itemKind =>
        matching .contain item itemKind sought kind) (.ok false) items := by
  rw [apply, applyWith, kindOf_eq_ok_iff.mpr known]
  change containing .contain sought kind items = _
  induction items with
  | nil => rfl
  | cons item items induction =>
      rw [containing, searchRow, induction]
      cases kindOf item <;> rfl

theorem comesOut_listed [Engine] (listed : operator ∈ [Operator.member, .nonmember]) :
    ComesOut (fun row => apply operator sought (.array row)) (operator = .member) sought
      (Clashes sought) items := by
  by_cases known : sought = .null
  · subst known
    exact comesOut_of_fails fun row => ⟨_, rfl⟩
  · obtain ⟨kind, classified⟩ := Value.exists_classify_eq_ok_iff.mpr known
    refine comesOut_of_searchRow _ known (fun row => apply_listed_eq_searchRow listed classified)
      (fun item => ?_) fun item => ?_
    · rw [mapError_eq_ok, ← toOption_eq_some, toOption_apply_equal_swap, toOption_eq_some]
    · rw [← exists_apply_equal_eq_error_iff, ← toOption_eq_none, ← toOption_eq_none,
        toOption_mapError, toOption_apply_equal_swap]

theorem comesOut_contain [Engine] :
    ComesOut (fun row => apply .contain (.array row) sought) true sought
      (fun item => item = .null ∨ Obstructs sought item) items := by
  by_cases known : sought = .null
  · subst known
    exact comesOut_of_fails fun row => ⟨_, rfl⟩
  · obtain ⟨kind, classified⟩ := Value.exists_classify_eq_ok_iff.mpr known
    refine comesOut_of_searchRow
      (fun item => kindOf item >>= fun itemKind => matching .contain item itemKind sought kind)
      known (fun row => ?_) (fun item => ?_) fun item => ?_
    · rw [apply_contain_eq_searchRow classified]
      rcases searchRow _ _ row with _ | (_ | _) <;> rfl
    · by_cases present : item = .null
      · subst present
        exact iff_of_false nofun nofun
      · obtain ⟨itemKind, item_kind⟩ := Value.exists_classify_eq_ok_iff.mpr present
        rw [kindOf_eq_ok_iff.mpr item_kind]
        exact matching_eq_ok_true_iff item_kind classified
    · by_cases present : item = .null
      · subst present
        exact iff_of_true ⟨_, rfl⟩ (.inl rfl)
      · obtain ⟨itemKind, item_kind⟩ := Value.exists_classify_eq_ok_iff.mpr present
        rw [kindOf_eq_ok_iff.mpr item_kind, or_iff_right present]
        exact exists_matching_eq_error_iff item_kind classified

/-- What the order of the items of a list has to do with the search for a value among them. -/
theorem list_orders [Engine] (sought : Value) (items : List Value) :
    (∀ operator ∈ [Operator.member, .nonmember],
      ComesOut (fun row => apply operator sought (.array row)) (operator = .member) sought
        (Clashes sought) items) ∧
    ComesOut (fun row => apply .contain (.array row) sought) true sought
      (fun item => item = .null ∨ Obstructs sought item) items :=
  ⟨fun _ listed => comesOut_listed listed, comesOut_contain⟩

section

open scoped Engine.Plain

/-- The kind of an item is checked only as long as no item before it equals the value. -/
theorem list_order_matters :
    [Value.text "a", .int 1].Perm [.int 1, .text "a"] ∧ ¬(Value.text "a").Matches (.int 1) ∧
      apply .member (.int 1) (.array [.int 1, .text "a"]) = .ok true ∧
      apply .member (.int 1) (.array [.text "a", .int 1]) = .error (.mismatch .string .int) ∧
      apply .contain (.array [.int 1, .null]) (.int 1) = .ok true ∧
      apply .contain (.array [.null, .int 1]) (.int 1) =
        .error (.value (.unclassified "null")) := by
  refine ⟨.swap _ _ _, ?_, by decide +kernel⟩
  rintro ⟨_, _, item_kind, known, agrees⟩
  cases item_kind
  cases known
  revert agrees
  decide +kernel

end

end Comparison
end RiskGraph

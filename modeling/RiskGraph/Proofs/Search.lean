import Mathlib.Data.List.Sort
import Mathlib.Data.String.Basic
import RiskGraph.Proofs.Fallible
import RiskGraph.Text.Basic

/-!
# Searches along a row

A search takes up the items of a row one by one.  The first item that is found or fails settles the
outcome, so that the order of the items matters exactly where they settle it in different ways.
Rows of texts that come in any order are brought into one by sorting.
-/

namespace RiskGraph

variable {α ε : Type} {verdict : α → Except ε Bool} {otherwise : Except ε Bool} {item : α}
  {items : List α}

/-- Takes up the items of a row until one is found or fails; `otherwise` is said behind the
last. -/
def searchRow (verdict : α → Except ε Bool) (otherwise : Except ε Bool) : List α → Except ε Bool
  | [] => otherwise
  | item :: items => do
      if ← verdict item then .ok true else searchRow verdict otherwise items

/-- The first item that settles the outcome determines it. -/
theorem searchRow_cons_of_settles (settles : verdict item ≠ .ok false) :
    searchRow verdict otherwise (item :: items) = verdict item := by
  rw [searchRow]
  rcases said : verdict item with fault | (_ | _)
  · rfl
  · exact absurd said settles
  · rfl

/-- An item that does not settle the outcome has no part in it. -/
theorem searchRow_cons_of_passed (passed : verdict item = .ok false) :
    searchRow verdict otherwise (item :: items) = searchRow verdict otherwise items := by
  rw [searchRow, passed]
  rfl

theorem searchRow_append (before after : List α) :
    searchRow verdict otherwise (before ++ after) =
      searchRow verdict (searchRow verdict otherwise after) before := by
  induction before with
  | nil => rfl
  | cons item before induction => rw [List.cons_append, searchRow, searchRow, induction]

theorem searchRow_map {β : Type} (read : β → α) (items : List β) :
    searchRow verdict otherwise (items.map read) =
      searchRow (fun item => verdict (read item)) otherwise items := by
  induction items with
  | nil => rfl
  | cons item items induction => rw [List.map_cons, searchRow, searchRow, induction]

/-- One of the items determines the outcome, or none has a part in it. -/
theorem searchRow_eq_verdict_or (verdict : α → Except ε Bool) (otherwise : Except ε Bool)
    (items : List α) :
    (∃ item ∈ items, verdict item ≠ .ok false ∧
      searchRow verdict otherwise items = verdict item) ∨
    (∀ item ∈ items, verdict item = .ok false) ∧ searchRow verdict otherwise items = otherwise := by
  induction items with
  | nil => exact .inr ⟨nofun, rfl⟩
  | cons item items induction =>
      by_cases passed : verdict item = .ok false
      · rw [searchRow_cons_of_passed passed]
        rcases induction with ⟨other, member, settles, outcome⟩ | ⟨all_passed, outcome⟩
        · exact .inl ⟨other, List.mem_cons_of_mem _ member, settles, outcome⟩
        · exact .inr ⟨List.forall_mem_cons.mpr ⟨passed, all_passed⟩, outcome⟩
      · exact .inl ⟨item, List.mem_cons_self, passed, searchRow_cons_of_settles passed⟩

/-! ## Orders of the items -/

/-- Each item that settles the outcome determines it in some order. -/
theorem exists_perm_searchRow_eq (member : item ∈ items) (settles : verdict item ≠ .ok false) :
    ∃ others : List α, others.Perm items ∧
      searchRow verdict otherwise others = verdict item := by
  obtain ⟨before, after, rfl⟩ := List.append_of_mem member
  exact ⟨item :: (before ++ after), List.perm_middle.symm, searchRow_cons_of_settles settles⟩

/-- In some order the outcome is of a sort exactly if an item makes it so. -/
theorem exists_perm_searchRow_iff (P : Except ε Bool → Prop) (passed : ¬P (.ok false))
    (last : ¬P otherwise) :
    (∃ others : List α, others.Perm items ∧ P (searchRow verdict otherwise others)) ↔
      ∃ item ∈ items, P (verdict item) := by
  constructor
  · rintro ⟨others, rearranged, holds⟩
    rcases searchRow_eq_verdict_or verdict otherwise others with
      ⟨item, member, -, outcome⟩ | ⟨-, outcome⟩
    · exact ⟨item, rearranged.mem_iff.mp member, outcome ▸ holds⟩
    · exact absurd (outcome ▸ holds) last
  · rintro ⟨item, member, holds⟩
    have settles : verdict item ≠ .ok false := fun said => passed (said ▸ holds)
    obtain ⟨others, rearranged, outcome⟩ := exists_perm_searchRow_eq member settles
    exact ⟨others, rearranged, outcome ▸ holds⟩

/-- In every order the outcome is of a sort exactly if an item makes it so and none makes it
otherwise. -/
theorem forall_perm_searchRow_iff (P : Except ε Bool → Prop) (passed : ¬P (.ok false))
    (last : ¬P otherwise) :
    (∀ others : List α, others.Perm items → P (searchRow verdict otherwise others)) ↔
      (∃ item ∈ items, P (verdict item)) ∧
        ∀ item ∈ items, verdict item ≠ .ok false → P (verdict item) := by
  constructor
  · intro holds
    refine ⟨(exists_perm_searchRow_iff P passed last).mp ⟨items, .rfl, holds items .rfl⟩, ?_⟩
    intro item member settles
    obtain ⟨others, rearranged, outcome⟩ := exists_perm_searchRow_eq member settles
    exact outcome ▸ holds others rearranged
  · rintro ⟨⟨item, member, holds⟩, all_hold⟩ others rearranged
    rcases searchRow_eq_verdict_or verdict otherwise others with
      ⟨first, first_member, settles, outcome⟩ | ⟨all_passed, -⟩
    · exact outcome ▸ all_hold first (rearranged.mem_iff.mp first_member) settles
    · exact absurd (all_passed item (rearranged.mem_iff.mpr member) ▸ holds) passed

/-- What is read off the outcome hangs on the order exactly if it differs between items that settle
the outcome. -/
theorem forall_perm_searchRow_eq_iff {β : Type} (read : Except ε Bool → β) :
    (∀ others : List α, others.Perm items →
      read (searchRow verdict otherwise others) = read (searchRow verdict otherwise items)) ↔
    ∀ first ∈ items, ∀ second ∈ items, verdict first ≠ .ok false → verdict second ≠ .ok false →
      read (verdict first) = read (verdict second) := by
  constructor
  · intro same first first_member second second_member first_settles second_settles
    obtain ⟨others, rearranged, outcome⟩ := exists_perm_searchRow_eq first_member first_settles
    obtain ⟨others', rearranged', outcome'⟩ :=
      exists_perm_searchRow_eq second_member second_settles
    rw [← outcome, ← outcome', same others rearranged, same others' rearranged']
  · intro agree others rearranged
    -- whatever settles the outcome in one order is an item in the other order, too
    rcases searchRow_eq_verdict_or verdict otherwise others with
      ⟨first, first_member, first_settles, outcome⟩ | ⟨all_passed, outcome⟩
    · rcases searchRow_eq_verdict_or verdict otherwise items with
        ⟨second, second_member, second_settles, outcome'⟩ | ⟨all_passed, -⟩
      · rw [outcome, outcome']
        exact agree first (rearranged.mem_iff.mp first_member) second second_member first_settles
          second_settles
      · exact absurd (all_passed first (rearranged.mem_iff.mp first_member)) first_settles
    · rcases searchRow_eq_verdict_or verdict otherwise items with
        ⟨second, second_member, second_settles, -⟩ | ⟨-, outcome'⟩
      · exact absurd (all_passed second (rearranged.mem_iff.mpr second_member)) second_settles
      · rw [outcome, outcome']

/-! ## Items that are found and items that fail -/

theorem settles_iff {said : Except ε Bool} :
    said ≠ .ok false ↔ said = .ok true ∨ ∃ failure, said = .error failure := by
  rcases said with failure | (_ | _) <;> simp

/-- The search succeeds in every order exactly if an item is found and none fails. -/
theorem forall_perm_searchRow_eq_true_iff (last : otherwise ≠ .ok true) :
    (∀ others : List α, others.Perm items → searchRow verdict otherwise others = .ok true) ↔
      (∃ item ∈ items, verdict item = .ok true) ∧
        ∀ item ∈ items, ¬∃ failure, verdict item = .error failure := by
  rw [forall_perm_searchRow_iff (· = .ok true) nofun last]
  refine and_congr_right fun _ => forall₂_congr fun item _ => ?_
  rcases verdict item with failure | (_ | _) <;> simp

/-- The search fails in every order exactly if an item does and none is found. -/
theorem forall_perm_searchRow_fails_iff (last : ¬∃ failure, otherwise = .error failure) :
    (∀ others : List α, others.Perm items →
      ∃ failure, searchRow verdict otherwise others = .error failure) ↔
      (∃ item ∈ items, ∃ failure, verdict item = .error failure) ∧
        ∀ item ∈ items, verdict item ≠ .ok true := by
  rw [forall_perm_searchRow_iff (fun said => ∃ failure, said = .error failure) nofun last]
  refine and_congr_right fun _ => forall₂_congr fun item _ => ?_
  rcases verdict item with failure | (_ | _) <;> simp

/-- Failures apart, the order makes no difference exactly if no item fails where another is
found. -/
theorem forall_perm_toOption_searchRow_eq_iff :
    (∀ others : List α, others.Perm items →
      (searchRow verdict otherwise others).toOption =
        (searchRow verdict otherwise items).toOption) ↔
      ((∃ item ∈ items, verdict item = .ok true) →
        ∀ item ∈ items, ¬∃ failure, verdict item = .error failure) := by
  rw [forall_perm_searchRow_eq_iff Except.toOption]
  constructor
  · rintro agree ⟨first, first_member, found⟩ second second_member ⟨failure, failed⟩
    have same := agree first first_member second second_member (found ▸ nofun) (failed ▸ nofun)
    rw [found, failed] at same
    nomatch same
  · intro apart first first_member second second_member first_settles second_settles
    rcases settles_iff.mp first_settles with found | ⟨_, failed⟩
    · rcases settles_iff.mp second_settles with found' | failed'
      · rw [found, found']
      · exact absurd failed' (apart ⟨first, first_member, found⟩ second second_member)
    · rcases settles_iff.mp second_settles with found' | ⟨_, failed'⟩
      · exact absurd ⟨_, failed⟩ (apart ⟨second, second_member, found'⟩ first first_member)
      · rw [failed, failed']
        rfl

/-- An item that fails makes the search fail exactly if none before it is found. -/
theorem exists_searchRow_eq_error_iff {before after : List α} {failure : ε}
    (failed : verdict item = .error failure) :
    (∃ failure, searchRow verdict otherwise (before ++ item :: after) = .error failure) ↔
      searchRow verdict (.ok false) before ≠ .ok true := by
  rw [searchRow_append, searchRow_cons_of_settles (failed ▸ nofun), failed]
  induction before with
  | nil => simp [searchRow]
  | cons first before induction =>
      rcases said : verdict first with _ | (_ | _)
      · have settles : verdict first ≠ .ok false := said ▸ nofun
        rw [searchRow_cons_of_settles settles, searchRow_cons_of_settles settles, said]
        simp
      · rw [searchRow_cons_of_passed said, searchRow_cons_of_passed said, induction]
      · have settles : verdict first ≠ .ok false := said ▸ nofun
        rw [searchRow_cons_of_settles settles, searchRow_cons_of_settles settles, said]
        simp

theorem searchRow_eq_false_iff :
    searchRow verdict (.ok false) items = .ok false ↔ ∀ item ∈ items, verdict item = .ok false := by
  rcases searchRow_eq_verdict_or verdict (.ok false) items with
    ⟨item, member, settles, outcome⟩ | ⟨all_passed, outcome⟩
  · rw [outcome]
    exact iff_of_false settles fun all_passed => settles (all_passed item member)
  · exact iff_of_true outcome all_passed

/-- An item that settles a search does so exactly if it is the first one that does. -/
theorem searchRow_eq_iff {said : Except ε Bool} (settled : said ≠ .ok false) :
    searchRow verdict (.ok false) items = said ↔
      ∃ item, FirstLacking (fun item => verdict item = .ok false) items item ∧
        verdict item = said := by
  induction items with
  | nil => exact iff_of_false settled.symm fun ⟨_, first, _⟩ => not_firstLacking_nil first
  | cons item items induction =>
      simp only [firstLacking_cons_iff]
      by_cases passed : verdict item = .ok false
      · rw [searchRow_cons_of_passed passed, induction]
        simp [passed]
      · rw [searchRow_cons_of_settles passed]
        simp [passed]

/-- What a search fails with may be rewritten item by item. -/
theorem mapError_searchRow {ε' : Type} {wrap : ε → ε'} :
    (searchRow verdict (.ok false) items).mapError wrap =
      searchRow (fun item => (verdict item).mapError wrap) (.ok false) items := by
  induction items with
  | nil => rfl
  | cons item items induction =>
      rw [searchRow, searchRow, ← induction]
      rcases verdict item with _ | (_ | _) <;> rfl

/-! ## Sorted texts -/

theorem insertText_eq (text : String) (texts : List String) :
    insertText text texts = texts.orderedInsert (· ≤ ·) text := by
  induction texts with
  | nil => rfl
  | cons other texts induction =>
      rw [insertText, List.orderedInsert_cons, induction]
      simp only [← not_lt, ite_not]

theorem sortTexts_eq (texts : List String) : sortTexts texts = texts.insertionSort (· ≤ ·) := by
  induction texts with
  | nil => rfl
  | cons text texts induction =>
      rw [List.insertionSort_cons, ← induction, ← insertText_eq]
      rfl

/-- Distinct texts are sorted strictly. -/
theorem sortedLT_sortTexts {texts : List String} (distinct : texts.Nodup) :
    (sortTexts texts).SortedLT := by
  have nodup := (sortTexts_perm texts).nodup_iff.mpr distinct
  have sorted : (sortTexts texts).SortedLE := by
    rw [sortTexts_eq]
    exact (List.pairwise_insertionSort _ texts).sortedLE
  exact sorted.sortedLT_of_nodup nodup

/-- Rows of the same texts are sorted alike. -/
theorem sortTexts_congr {texts others : List String} (rearranged : texts.Perm others) :
    sortTexts texts = sortTexts others := by
  have perm : (sortTexts texts).Perm (sortTexts others) :=
    (sortTexts_perm texts).trans (rearranged.trans (sortTexts_perm others).symm)
  rw [sortTexts_eq, sortTexts_eq] at perm ⊢
  exact perm.eq_of_pairwise' (List.pairwise_insertionSort _ texts)
    (List.pairwise_insertionSort _ others)

end RiskGraph

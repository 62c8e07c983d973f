import RiskGraph.Proofs.CycleCore
import RiskGraph.Proofs.Stages

/-!
# The search for cycles, step by step

Two loops look for cycles: one removes nodes that no edge enters, the other takes away nodes from
which no edge leads on.  Their steps are told here one by one and without a bound on their number.
No count is taken below zero, no node is removed twice, both loops end, and the nodes that a defect
lists are those that they leave over.
-/

namespace RiskGraph

open Relation

/-! ## Loops -/

/-- A loop that begins in one state ends in another, whatever steps it takes. -/
structure EndsAt {σ : Type} (Step : σ → σ → Prop) (start final : σ) : Prop where
  reached : ReflTransGen Step start final
  /-- No step leads on from there. -/
  stopped : ∀ next, ¬Step final next
  /-- It stops nowhere else. -/
  only : ∀ state, ReflTransGen Step start state → (∀ next, ¬Step state next) → state = final
  /-- It does not go on for ever. -/
  finite : ∀ run : Nat → σ, run 0 = start → ∃ i, ¬Step (run i) (run (i + 1))

/-- A loop without a choice ends where it comes to a stop. -/
theorem endsAt_of_rightUnique {σ : Type} {Step : σ → σ → Prop} {start final : σ}
    (unique : Relator.RightUnique Step) (reached : ReflTransGen Step start final)
    (stopped : ∀ next, ¬Step final next) : EndsAt Step start final := by
  have stays : ∀ {state other}, ReflTransGen Step state other → (∀ next, ¬Step state next) →
      other = state := by
    intro state other way halted
    rcases way.cases_head with same | ⟨next, step, -⟩
    · exact same.symm
    · exact absurd step (halted next)
  refine ⟨reached, stopped, ?_, ?_⟩
  · intro state way halted
    rcases ReflTransGen.total_of_right_unique unique way reached with onward | back
    · exact (stays onward halted).symm
    · exact stays back stopped
  · induction reached using ReflTransGen.head_induction_on with
    | refl =>
        rintro run rfl
        exact ⟨0, stopped _⟩
    | head step way induction =>
        rintro run rfl
        by_contra forever
        push Not at forever
        obtain ⟨i, halted⟩ := induction (fun i => run (i + 1)) (unique (forever 0) step)
        exact halted (forever (i + 1))

variable {size : Nat} {successors : Fin size → List (Fin size)}

/-! ## The first loop -/

namespace Sorting

variable {sorting : Sorting size} {node : Fin size} {waiting : List (Fin size)}
  {stage next : Sorting size × List (Fin size)}

/-- One step of sorting, with the nodes to which edges are still to be released. -/
inductive Step (successors : Fin size → List (Fin size)) :
    Sorting size × List (Fin size) → Sorting size × List (Fin size) → Prop
  /-- An edge is released. -/
  | release (sorting : Sorting size) (target : Fin size) (pending : List (Fin size)) :
      Step successors (sorting, target :: pending) (sorting.release target, pending)
  /-- When all edges are released, the first node that is ready is removed. -/
  | take {sorting : Sorting size} {node : Fin size} {waiting : List (Fin size)}
      (ready_eq : sorting.ready = node :: waiting) :
      Step successors (sorting, [])
        ({ sorting with ready := waiting, removed := node :: sorting.removed }, successors node)

theorem rightUnique_step (successors : Fin size → List (Fin size)) :
    Relator.RightUnique (Step successors) := by
  intro stage next other first second
  cases first with
  | release =>
      cases second with
      | release => rfl
  | take ready_eq =>
      cases second with
      | take other_eq =>
          cases ready_eq.symm.trans other_eq
          rfl

theorem Balanced.step (balanced : Balanced successors stage.2 stage.1)
    (step : Step successors stage next) : Balanced successors next.2 next.1 := by
  cases step with
  | release => exact balanced.release
  | take ready_eq => exact balanced.take ready_eq

/-- The counts are kept through all steps. -/
theorem balanced_of_reached (way : ReflTransGen (Step successors) (begin successors, []) stage) :
    Balanced successors stage.2 stage.1 := by
  induction way with
  | refl => exact balanced_begin successors
  | tail _ step induction => exact induction.step step

theorem reaches_foldl_release (sorting : Sorting size) (pending : List (Fin size)) :
    ReflTransGen (Step successors) (sorting, pending) (pending.foldl release sorting, []) := by
  induction pending generalizing sorting with
  | nil => exact .refl
  | cons target pending induction =>
      exact .head (.release sorting target pending) (induction (sorting.release target))

theorem reaches_run (removals : Nat) (sorting : Sorting size) :
    ReflTransGen (Step successors) (sorting, []) (sorting.run successors removals, []) := by
  induction removals generalizing sorting with
  | zero => exact .refl
  | succ removals induction =>
      cases ready_eq : sorting.ready with
      | nil =>
          simp only [run, ready_eq]
          exact .refl
      | cons node waiting =>
          simp only [run, ready_eq]
          exact .head (.take ready_eq) ((reaches_foldl_release _ _).trans (induction _))

end Sorting

/-- The bound on the number of removals is never met. -/
theorem endsAt_sorted (successors : Fin size → List (Fin size)) :
    EndsAt (Sorting.Step successors) (.begin successors, []) (sorted successors, []) := by
  refine endsAt_of_rightUnique (Sorting.rightUnique_step successors)
    (Sorting.reaches_run size (.begin successors)) ?_
  intro next step
  cases step with
  | take ready_eq =>
      rw [ready_sorted] at ready_eq
      cases ready_eq

/-! ## The second loop -/

/-- One round of peeling takes all members without a successor away, if there are any. -/
def Peels (successors : Fin size → List (Fin size)) (members next : Vector Bool size) : Prop :=
  next = withSuccessor successors members ∧ next ≠ members

theorem reaches_peel (rounds : Nat) (members : Vector Bool size) :
    ReflTransGen (Peels successors) members (peel successors rounds members) := by
  induction rounds generalizing members with
  | zero => exact .refl
  | succ rounds induction =>
      rw [peel]
      split
      · exact .refl
      · next changed => exact .head ⟨rfl, changed⟩ (induction _)

/-- The bound on the number of rounds is never met. -/
theorem endsAt_peel (successors : Fin size → List (Fin size)) (members : Vector Bool size) :
    EndsAt (Peels successors) members (peel successors size members) := by
  refine endsAt_of_rightUnique ?_ (reaches_peel size members) ?_
  · rintro members next other ⟨rfl, -⟩ ⟨rfl, -⟩
    rfl
  · rintro next ⟨rfl, changed⟩
    exact changed (withSuccessor_peel (card_finset_fin_le (memberSet members)))

/-! ## The defect -/

/-- The nodes to which the ways on from each node lead. -/
def Exits.targetsOf (exits : Vector (Exits size) size) (place : Fin size) : List (Fin size) :=
  (exits.get place).targets

namespace Definition

variable {definition : Definition}

/-- A row of identifiers lists the nodes that a cycle leads to and that lead to a cycle. -/
structure ListsCore (definition : Definition)
    (successors : Fin definition.size → List (Fin definition.size)) (ids : List String) : Prop where
  nonempty : ids ≠ []
  sorted : ids.SortedLE
  /-- Each of these nodes is listed once. -/
  places : ∃ core : List (Fin definition.size), core.Nodup ∧
    (∀ place, place ∈ core ↔ AfterCycle successors place ∧ BeforeCycle successors place) ∧
      ids.Perm (core.map fun place => (definition.entry place).id)
  /-- No identifier is repeated if the nodes have passed the check before this one. -/
  nodup : definition.checkDistinct = .ok () → ids.Nodup

/-- How the ways on from the nodes of a definition are searched for cycles. -/
structure SearchesCycles (definition : Definition)
    (exits : Vector (Exits definition.size) definition.size) : Prop where
  /-- A count is positive whenever an edge is released. -/
  counted : ∀ sorting target pending,
    ReflTransGen (Sorting.Step (Exits.targetsOf exits)) (.begin (Exits.targetsOf exits), [])
      (sorting, target :: pending) → 0 < sorting.entering.get target
  /-- No node is removed twice. -/
  once : ∀ sorting pending,
    ReflTransGen (Sorting.Step (Exits.targetsOf exits)) (.begin (Exits.targetsOf exits), [])
      (sorting, pending) → sorting.removed.Nodup
  sorting_ends : EndsAt (Sorting.Step (Exits.targetsOf exits))
    (.begin (Exits.targetsOf exits), []) (RiskGraph.sorted (Exits.targetsOf exits), [])
  peeling_ends : ∀ members, EndsAt (Peels (Exits.targetsOf exits)) members
    (peel (Exits.targetsOf exits) definition.size members)
  accepts_iff : definition.checkAcyclic exits = .ok () ↔
    ∀ place, ¬OnCycle (Exits.targetsOf exits) place
  rejects : ∀ defect, definition.checkAcyclic exits = .error defect →
    ∃ ids, defect = .cycle ids ∧ definition.ListsCore (Exits.targetsOf exits) ids

theorem listsCore_of_cycleCore? {successors : Fin definition.size → List (Fin definition.size)}
    {core : List (Fin definition.size)} (found : cycleCore? successors = some core) :
    definition.ListsCore successors
      (sortTexts (core.map fun place => (definition.entry place).id)) := by
  have core_nodup := nodup_cycleCore? found
  have perm := sortTexts_perm (core.map fun place => (definition.entry place).id)
  constructor
  case nonempty =>
    have cyclic : ∃ place, OnCycle successors place := by
      by_contra acyclic
      rw [cycleCore?_eq_none_iff.mpr (not_exists.mp acyclic)] at found
      cases found
    obtain ⟨place, cyclic⟩ := cyclic
    have member : place ∈ core :=
      (mem_cycleCore?_iff found).mpr ⟨cyclic.afterCycle, place, .refl, cyclic⟩
    exact List.ne_nil_of_mem (perm.mem_iff.mpr (List.mem_map_of_mem member))
  case sorted =>
    rw [sortTexts_eq]
    exact (List.pairwise_insertionSort _ _).sortedLE
  case places => exact ⟨core, core_nodup, fun _ => mem_cycleCore?_iff found, perm⟩
  case nodup =>
    intro checked
    have distinct := checkDistinct_eq_ok_iff.mp checked
    exact perm.nodup_iff.mpr (core_nodup.map fun _ _ same => distinct.entry_injective same)

/-- The search for cycles counts soundly and ends, and the defect that it reports lists the core
between cycles. -/
theorem searchesCycles (definition : Definition)
    (exits : Vector (Exits definition.size) definition.size) :
    definition.SearchesCycles exits := by
  have targets_eq : (fun place => exits[place].targets) = Exits.targetsOf exits := rfl
  constructor
  case counted => exact fun _ _ _ way => (Sorting.balanced_of_reached way).entering_pos
  case once => exact fun _ _ way => (Sorting.balanced_of_reached way).distinct.of_append_right
  case sorting_ends => exact endsAt_sorted _
  case peeling_ends => exact endsAt_peel _
  case accepts_iff =>
    rw [← cycleCore?_eq_none_iff, checkAcyclic, targets_eq]
    cases cycleCore? (Exits.targetsOf exits) <;> simp
  case rejects =>
    intro defect rejected
    rw [checkAcyclic, targets_eq] at rejected
    cases found : cycleCore? (Exits.targetsOf exits) with
    | none =>
        rw [found] at rejected
        cases rejected
    | some core =>
        rw [found] at rejected
        cases rejected
        exact ⟨_, rfl, listsCore_of_cycleCore? found⟩

end Definition
end RiskGraph

import Mathlib.Algebra.BigOperators.Fin
import Mathlib.Algebra.BigOperators.Group.Finset.Piecewise
import Mathlib.Data.Fintype.Card
import Mathlib.Logic.Relation
import Mathlib.Order.WellFounded
import RiskGraph.Graph.Basic

/-!
# Cycles found by sorting

Sorting removes exactly the nodes that no cycle leads to.  One invariant carries this: while nodes
are removed and their edges released, the count of a node is the number of edges into it from nodes
that remain, and the nodes that have become ready are those of count zero.
-/

namespace RiskGraph

open Relation

variable {size : Nat} {successors : Fin size → List (Fin size)} {sorting : Sorting size}
  {node target : Fin size} {pending waiting : List (Fin size)}

/-- An edge leads from one node to another. -/
def Leads (successors : Fin size → List (Fin size)) (source target : Fin size) : Prop :=
  target ∈ successors source

/-- A way of at least one edge leads from a node back to it. -/
def OnCycle (successors : Fin size → List (Fin size)) (node : Fin size) : Prop :=
  TransGen (Leads successors) node node

/-- A node is on a cycle or a way leads to it from one. -/
def AfterCycle (successors : Fin size → List (Fin size)) (node : Fin size) : Prop :=
  ∃ origin, OnCycle successors origin ∧ ReflTransGen (Leads successors) origin node

theorem OnCycle.afterCycle (cyclic : OnCycle successors node) : AfterCycle successors node :=
  ⟨node, cyclic, .refl⟩

theorem AfterCycle.step (after : AfterCycle successors node) (edge : Leads successors node target) :
    AfterCycle successors target := by
  obtain ⟨origin, cyclic, way⟩ := after
  exact ⟨origin, cyclic, way.tail edge⟩

/-- A node after a cycle is entered from another such node. -/
theorem AfterCycle.exists_source (after : AfterCycle successors node) :
    ∃ source, Leads successors source node ∧ AfterCycle successors source := by
  obtain ⟨origin, cyclic, way⟩ := after
  have positive : TransGen (Leads successors) origin node := by
    rcases way.cases_tail with equal | ⟨source, front, edge⟩
    · exact equal ▸ cyclic
    · exact .tail' front edge
  obtain ⟨source, front, edge⟩ := TransGen.tail'_iff.mp positive
  exact ⟨source, edge, origin, cyclic, front⟩

/-- If each node of a class is entered from another one of it, they are all after cycles. -/
theorem afterCycle_of_forall_exists_source (members : Set (Fin size))
    (entered : ∀ node ∈ members, ∃ source ∈ members, Leads successors source node) :
    ∀ node ∈ members, AfterCycle successors node := by
  by_contra missed
  push Not at missed
  let before : { node // ¬OnCycle successors node } → { node // ¬OnCycle successors node } → Prop :=
    fun left right => TransGen (Leads successors) left.val right.val
  have : IsTrans _ before := ⟨fun _ _ _ first later => first.trans later⟩
  have : Std.Irrefl before := ⟨fun node way => node.property way⟩
  have descent : WellFounded before := Finite.wellFounded_of_trans_of_irrefl before
  let strays : Set { node // ¬OnCycle successors node } :=
    { node | node.val ∈ members ∧ ¬AfterCycle successors node.val }
  have inhabited : strays.Nonempty := by
    obtain ⟨node, member, free⟩ := missed
    exact ⟨⟨node, fun cyclic => free cyclic.afterCycle⟩, member, free⟩
  -- A first stray would be entered from a stray that comes before it.
  obtain ⟨first, ⟨member, free⟩, least⟩ := descent.has_min strays inhabited
  obtain ⟨source, source_member, edge⟩ := entered first.val member
  have source_free : ¬AfterCycle successors source := fun after => free (after.step edge)
  exact least ⟨source, fun cyclic => source_free cyclic.afterCycle⟩
    ⟨source_member, source_free⟩ (.single edge)

/-! ## The invariant of sorting -/

/-- Number of edges into a node from nodes that have not been removed. -/
def edgesLeft (successors : Fin size → List (Fin size)) (removed : List (Fin size))
    (node : Fin size) : Nat :=
  ∑ source, if source ∈ removed then 0 else (successors source).count node

theorem enteringEdges_eq (successors : Fin size → List (Fin size)) (node : Fin size) :
    enteringEdges successors node = edgesLeft successors [] node := by
  simp [enteringEdges, edgesLeft, Fin.sum_univ_def, List.sum_eq_foldl, List.foldl_map]

/-- Removing a node frees its targets from its edges. -/
theorem edgesLeft_cons {removed : List (Fin size)} (present : node ∉ removed) :
    edgesLeft successors removed target =
      edgesLeft successors (node :: removed) target + (successors node).count target := by
  have split : ∀ source,
      (if source ∈ removed then 0 else (successors source).count target) =
        (if source ∈ node :: removed then 0 else (successors source).count target) +
          if source = node then (successors node).count target else 0 := by
    intro source
    by_cases same : source = node
    · subst same
      simp [present]
    · simp [same]
  simp only [edgesLeft, split, Finset.sum_add_distrib, Finset.sum_ite_eq', Finset.mem_univ,
    if_true]

theorem edgesLeft_eq_zero_iff {removed : List (Fin size)} :
    edgesLeft successors removed node = 0 ↔
      ∀ source, Leads successors source node → source ∈ removed := by
  simp only [edgesLeft, Finset.sum_eq_zero_iff, Finset.mem_univ, forall_const,
    ite_eq_left_iff, List.count_eq_zero, Leads]
  exact forall_congr' fun source => not_imp_not

namespace Sorting

/-- What holds of a sorting while edges to the `pending` nodes are still to be released. -/
structure Balanced (successors : Fin size → List (Fin size)) (pending : List (Fin size))
    (sorting : Sorting size) : Prop where
  /-- The count of a node is that of the edges left and of the pending ones. -/
  entering_eq : ∀ node,
    sorting.entering[node] = edgesLeft successors sorting.removed node + pending.count node
  /-- Ready or removed are exactly the nodes of count zero. -/
  settled_iff : ∀ node, node ∈ sorting.ready ++ sorting.removed ↔ sorting.entering[node] = 0
  /-- No node becomes ready twice. -/
  distinct : (sorting.ready ++ sorting.removed).Nodup
  /-- No cycle leads to a removed node. -/
  free : ∀ node ∈ sorting.removed, ¬AfterCycle successors node

theorem balanced_begin (successors : Fin size → List (Fin size)) :
    Balanced successors [] (begin successors) where
  entering_eq node := by simp [begin, enteringEdges_eq]
  settled_iff node := by simp [begin]
  distinct := by simpa [begin] using (List.nodup_finRange size).filter _
  free := by simp [begin]

/-- An edge that is to be released has been counted. -/
theorem Balanced.entering_pos (balanced : Balanced successors (target :: pending) sorting) :
    0 < sorting.entering[target] := by
  rw [balanced.entering_eq, List.count_cons_self]
  omega

theorem entering_release (sorting : Sorting size) (target node : Fin size) :
    (sorting.release target).entering[node] =
      if node = target then sorting.entering[target] - 1 else sorting.entering[node] := by
  by_cases same : node = target
  · simp [release, same]
  · have apart : target.val ≠ node.val := fun equal => same (Fin.ext equal.symm)
    simp [release, same, apart]

theorem ready_release (sorting : Sorting size) (target : Fin size) :
    (sorting.release target).ready =
      if sorting.entering[target] - 1 = 0 then sorting.ready ++ [target] else sorting.ready :=
  rfl

@[simp]
theorem removed_release (sorting : Sorting size) (target : Fin size) :
    (sorting.release target).removed = sorting.removed :=
  rfl

theorem Balanced.release (balanced : Balanced successors (target :: pending) sorting) :
    Balanced successors pending (sorting.release target) := by
  have unsettled : target ∉ sorting.ready ++ sorting.removed := by
    rw [balanced.settled_iff]
    exact balanced.entering_pos.ne'
  constructor
  case entering_eq =>
    intro node
    have count_eq := balanced.entering_eq node
    rw [List.count_cons] at count_eq
    rw [entering_release, removed_release]
    by_cases same : node = target
    · subst same
      simp only [beq_self_eq_true, if_true] at count_eq ⊢
      omega
    · have apart : (target == node) = false := by simpa using fun equal => same equal.symm
      simpa [same, apart] using count_eq
  case settled_iff =>
    intro node
    have before := balanced.settled_iff node
    rw [entering_release, ready_release, removed_release]
    by_cases same : node = target
    · subst same
      rw [if_pos rfl]
      by_cases last : sorting.entering[node] - 1 = 0
      · rw [if_pos last]
        simpa using last
      · rw [if_neg last]
        exact iff_of_false unsettled last
    · rw [if_neg same, ← before]
      by_cases last : sorting.entering[target] - 1 = 0
      · rw [if_pos last]
        simp [same]
      · rw [if_neg last]
  case distinct =>
    rw [ready_release, removed_release]
    by_cases last : sorting.entering[target] - 1 = 0
    · have rearranged :
          ((sorting.ready ++ [target]) ++ sorting.removed).Perm
            (target :: (sorting.ready ++ sorting.removed)) := by
        rw [List.append_assoc]
        exact List.perm_middle
      rw [if_pos last, rearranged.nodup_iff, List.nodup_cons]
      exact ⟨unsettled, balanced.distinct⟩
    · rw [if_neg last]
      exact balanced.distinct
  case free => exact balanced.free

theorem Balanced.foldl_release (balanced : Balanced successors pending sorting) :
    Balanced successors [] (pending.foldl Sorting.release sorting) := by
  induction pending generalizing sorting with
  | nil => exact balanced
  | cons target pending induction => exact induction balanced.release

theorem removed_foldl_release (sorting : Sorting size) (pending : List (Fin size)) :
    (pending.foldl release sorting).removed = sorting.removed := by
  induction pending generalizing sorting with
  | nil => rfl
  | cons target pending induction => exact induction (sorting.release target)

@[simp]
theorem removed_remove (sorting : Sorting size) (node : Fin size) (waiting : List (Fin size)) :
    (sorting.remove successors node waiting).removed = node :: sorting.removed :=
  removed_foldl_release _ _

/-- All edges into a settled node come from removed nodes, so that no cycle leads to it. -/
theorem Balanced.free_of_settled (balanced : Balanced successors [] sorting)
    (settled : node ∈ sorting.ready ++ sorting.removed) : ¬AfterCycle successors node := by
  intro after
  have count_zero := (balanced.settled_iff node).mp settled
  rw [balanced.entering_eq, List.count_nil, Nat.add_zero, edgesLeft_eq_zero_iff] at count_zero
  obtain ⟨source, edge, source_after⟩ := after.exists_source
  exact balanced.free source (count_zero source edge) source_after

/-- When a node is removed, the edges that leave it are still to be released. -/
theorem Balanced.take (balanced : Balanced successors [] sorting)
    (ready_eq : sorting.ready = node :: waiting) :
    Balanced successors (successors node)
      { sorting with ready := waiting, removed := node :: sorting.removed } := by
  have settled : node ∈ sorting.ready ++ sorting.removed := by simp [ready_eq]
  have distinct := balanced.distinct
  rw [ready_eq, List.cons_append, List.nodup_cons] at distinct
  have present : node ∉ sorting.removed := fun member =>
    distinct.1 (List.mem_append_right waiting member)
  refine ⟨?_, ?_, ?_, ?_⟩
  · intro other
    rw [balanced.entering_eq, List.count_nil, Nat.add_zero]
    exact edgesLeft_cons present
  · intro other
    rw [← balanced.settled_iff other, ready_eq]
    simp [or_left_comm]
  · exact (List.perm_middle.nodup_iff).mpr (List.nodup_cons.mpr distinct)
  · intro other member
    rcases List.mem_cons.mp member with rfl | earlier
    · exact balanced.free_of_settled settled
    · exact balanced.free other earlier

theorem Balanced.remove (balanced : Balanced successors [] sorting)
    (ready_eq : sorting.ready = node :: waiting) :
    Balanced successors [] (sorting.remove successors node waiting) :=
  (balanced.take ready_eq).foldl_release

/-- Nodes are removed until none is ready or as many have gone as allowed. -/
theorem Balanced.run (balanced : Balanced successors [] sorting) (removals : Nat) :
    Balanced successors [] (sorting.run successors removals) ∧
      ((sorting.run successors removals).ready = [] ∨
        (sorting.run successors removals).removed.length = sorting.removed.length + removals) := by
  induction removals generalizing sorting with
  | zero => exact ⟨balanced, Or.inr rfl⟩
  | succ removals induction =>
      cases ready_eq : sorting.ready with
      | nil =>
          simp only [Sorting.run, ready_eq]
          exact ⟨balanced, Or.inl trivial⟩
      | cons node waiting =>
          have later := induction (balanced.remove ready_eq)
          rw [removed_remove, List.length_cons] at later
          simp only [Sorting.run, ready_eq]
          exact ⟨later.1, later.2.imp_right fun length_eq => by omega⟩

theorem Balanced.length_le (balanced : Balanced successors pending sorting) :
    sorting.ready.length + sorting.removed.length ≤ size := by
  simpa using balanced.distinct.length_le_card

end Sorting

theorem balanced_sorted (successors : Fin size → List (Fin size)) :
    (sorted successors).Balanced successors [] :=
  ((Sorting.balanced_begin successors).run size).1

/-- As many removals as there are nodes leave none ready. -/
theorem ready_sorted (successors : Fin size → List (Fin size)) :
    (sorted successors).ready = [] := by
  obtain ⟨balanced, ready_eq | length_eq⟩ := (Sorting.balanced_begin successors).run size
  · exact ready_eq
  · have length_le := balanced.length_le
    rw [length_eq, Sorting.begin, List.length_nil] at length_le
    exact List.length_eq_zero_iff.mp (by rw [sorted, Sorting.begin]; omega)

/-- Sorting removes exactly the nodes that no cycle leads to. -/
theorem mem_removed_sorted_iff :
    node ∈ (sorted successors).removed ↔ ¬AfterCycle successors node := by
  have balanced := balanced_sorted successors
  have settled_iff : ∀ node, node ∈ (sorted successors).removed ↔
      ∀ source, Leads successors source node → source ∈ (sorted successors).removed := by
    intro node
    have settled := balanced.settled_iff node
    rwa [ready_sorted, List.nil_append, balanced.entering_eq, List.count_nil, Nat.add_zero,
      edgesLeft_eq_zero_iff] at settled
  refine ⟨balanced.free node, fun free => ?_⟩
  by_contra remaining
  refine free (afterCycle_of_forall_exists_source
    { node | node ∉ (sorted successors).removed } ?_ node remaining)
  intro node remaining
  have entered := mt (settled_iff node).mpr remaining
  push Not at entered
  obtain ⟨source, edge, source_remaining⟩ := entered
  exact ⟨source, source_remaining, edge⟩

/-- No core is found exactly when there is no cycle. -/
theorem cycleCore?_eq_none_iff :
    cycleCore? successors = none ↔ ∀ node, ¬OnCycle successors node := by
  have distinct : (sorted successors).removed.Nodup :=
    (balanced_sorted successors).distinct.of_append_right
  have complete_iff : (sorted successors).removed.length = size ↔
      ∀ node, node ∈ (sorted successors).removed := by
    have card_iff := Finset.card_eq_iff_eq_univ (sorted successors).removed.toFinset
    rw [List.toFinset_card_of_nodup distinct, Fintype.card_fin] at card_iff
    simpa [Finset.eq_univ_iff_forall] using card_iff
  have none_iff : cycleCore? successors = none ↔ (sorted successors).removed.length = size := by
    simp only [cycleCore?]
    split <;> simp_all
  rw [none_iff, complete_iff]
  simp only [mem_removed_sorted_iff]
  constructor
  · exact fun free node cyclic => free node cyclic.afterCycle
  · rintro acyclic node ⟨origin, cyclic, -⟩
    exact acyclic origin cyclic

end RiskGraph

import RiskGraph.Graph.Build
import RiskGraph.Proofs.Cycle
import RiskGraph.Proofs.Search

/-!
# The core between cycles

Sorting leaves the nodes that a cycle leads to.  Peeling these until nothing changes leaves a set
from each node of which an edge leads on within the set, and it never takes a node away from which a
way leads to a cycle.  What is left are the nodes that cycles lead to and that lead to cycles.
-/

namespace RiskGraph

open Relation

variable {size : Nat} {successors : Fin size → List (Fin size)} {members : Vector Bool size}
  {node : Fin size}

/-! ## The way to a cycle -/

/-- The nodes from which an edge leads to a node. -/
def predecessors (successors : Fin size → List (Fin size)) (node : Fin size) : List (Fin size) :=
  (List.finRange size).filter fun source => (successors source).contains node

/-- A node is on a cycle or a way leads from it to one. -/
def BeforeCycle (successors : Fin size → List (Fin size)) (node : Fin size) : Prop :=
  ∃ final, ReflTransGen (Leads successors) node final ∧ OnCycle successors final

theorem leads_predecessors :
    Leads (predecessors successors) = Function.swap (Leads successors) := by
  funext target source
  simp [Leads, predecessors, Function.swap]

/-- A way to a cycle is one from a cycle along the edges turned round. -/
theorem afterCycle_predecessors_iff :
    AfterCycle (predecessors successors) node ↔ BeforeCycle successors node := by
  simp only [AfterCycle, BeforeCycle, OnCycle, leads_predecessors, transGen_swap,
    reflTransGen_swap, and_comm]

/-- From a cycle a way of at least one edge leads wherever a way leads. -/
theorem afterCycle_iff_exists_transGen :
    AfterCycle successors node ↔
      ∃ origin, OnCycle successors origin ∧ TransGen (Leads successors) origin node :=
  exists_congr fun _ => and_congr_right fun cyclic =>
    ⟨fun way => TransGen.trans_left cyclic way, TransGen.to_reflTransGen⟩

theorem beforeCycle_iff_exists_transGen :
    BeforeCycle successors node ↔
      ∃ final, TransGen (Leads successors) node final ∧ OnCycle successors final :=
  exists_congr fun _ => and_congr_left fun cyclic =>
    ⟨fun way => TransGen.trans_right way cyclic, TransGen.to_reflTransGen⟩

theorem BeforeCycle.exists_target (before : BeforeCycle successors node) :
    ∃ target, Leads successors node target ∧ BeforeCycle successors target := by
  obtain ⟨target, edge, target_before⟩ :=
    (afterCycle_predecessors_iff.mpr before).exists_source
  rw [leads_predecessors] at edge
  exact ⟨target, edge, afterCycle_predecessors_iff.mp target_before⟩

/-- If from each node of a class an edge leads to another one of it, they are all before cycles. -/
theorem beforeCycle_of_forall_exists_target (kept : Set (Fin size))
    (left : ∀ node ∈ kept, ∃ target ∈ kept, Leads successors node target) :
    ∀ node ∈ kept, BeforeCycle successors node := by
  intro node member
  refine afterCycle_predecessors_iff.mp (afterCycle_of_forall_exists_source kept ?_ node member)
  rw [leads_predecessors]
  exact left

/-! ## Peeling -/

theorem getElem_withSuccessor_iff :
    (withSuccessor successors members)[node] = true ↔
      members[node] = true ∧ ∃ target, Leads successors node target ∧ members[target] = true := by
  simp [withSuccessor, Leads]

/-- The nodes that are members. -/
def memberSet (members : Vector Bool size) : Finset (Fin size) :=
  Finset.univ.filter fun node => members[node] = true

theorem mem_memberSet : node ∈ memberSet members ↔ members[node] = true := by
  simp [memberSet]

theorem memberSet_injective : Function.Injective (@memberSet size) := by
  intro members others same
  refine Vector.ext fun i inside => ?_
  have member_iff := Finset.ext_iff.mp same ⟨i, inside⟩
  rw [mem_memberSet, mem_memberSet] at member_iff
  exact Bool.eq_iff_iff.mpr member_iff

/-- A round that changes something takes a member away. -/
theorem card_withSuccessor_lt (changed : withSuccessor successors members ≠ members) :
    (memberSet (withSuccessor successors members)).card < (memberSet members).card := by
  refine Finset.card_lt_card (Finset.ssubset_iff_subset_ne.mpr ⟨?_, ?_⟩)
  · intro node member
    rw [mem_memberSet] at member ⊢
    exact (getElem_withSuccessor_iff.mp member).1
  · exact memberSet_injective.ne changed

/-- As many rounds as there are members leave a set that a further round does not change. -/
theorem withSuccessor_peel {rounds : Nat} (enough : (memberSet members).card ≤ rounds) :
    withSuccessor successors (peel successors rounds members) =
      peel successors rounds members := by
  induction rounds generalizing members with
  | zero =>
      by_contra changed
      exact absurd (card_withSuccessor_lt changed) (by rw [peel]; omega)
  | succ rounds induction =>
      rw [peel]
      split
      · next unchanged => exact unchanged
      · next changed =>
          have fewer := card_withSuccessor_lt changed
          exact induction (by omega)

theorem getElem_of_peel {rounds : Nat} (member : (peel successors rounds members)[node] = true) :
    members[node] = true := by
  induction rounds generalizing members with
  | zero => exact member
  | succ rounds induction =>
      rw [peel] at member
      split at member
      · exact member
      · exact (getElem_withSuccessor_iff.mp (induction member)).1

/-- Peeling keeps a class of members from each of which an edge leads to another one of it. -/
theorem peel_keeps {rounds : Nat} {kept : Set (Fin size)}
    (left : ∀ node ∈ kept, ∃ target ∈ kept, Leads successors node target)
    (inside : ∀ node ∈ kept, members[node] = true) :
    ∀ node ∈ kept, (peel successors rounds members)[node] = true := by
  induction rounds generalizing members with
  | zero => exact inside
  | succ rounds induction =>
      rw [peel]
      split
      · exact inside
      · refine induction fun node member => getElem_withSuccessor_iff.mpr ⟨inside node member, ?_⟩
        obtain ⟨target, target_member, edge⟩ := left node member
        exact ⟨target, edge, inside target target_member⟩

/-- What peeling leaves is the largest class of members from each of which an edge leads to another
one of it. -/
theorem getElem_peel_iff :
    (peel successors size members)[node] = true ↔
      ∃ kept : Set (Fin size), node ∈ kept ∧
        (∀ node ∈ kept, ∃ target ∈ kept, Leads successors node target) ∧
          ∀ node ∈ kept, members[node] = true := by
  constructor
  · intro member
    have stable := @withSuccessor_peel size successors members size
      (card_finset_fin_le (memberSet members))
    refine ⟨{ node | (peel successors size members)[node] = true }, member, ?_,
      fun node => getElem_of_peel⟩
    intro node (member : (peel successors size members)[node] = true)
    rw [← stable] at member
    obtain ⟨-, target, edge, target_member⟩ := getElem_withSuccessor_iff.mp member
    exact ⟨target, target_member, edge⟩
  · rintro ⟨kept, member, left, inside⟩
    exact peel_keeps left inside node member

/-! ## The core -/

/-- The nodes that sorting leaves entered are those that a cycle leads to. -/
theorem entering_sorted_pos_iff :
    0 < (sorted successors).entering[node] ↔ AfterCycle successors node := by
  have settled := (balanced_sorted successors).settled_iff node
  rw [ready_sorted, List.nil_append, mem_removed_sorted_iff] at settled
  rw [Nat.pos_iff_ne_zero, ne_eq, ← settled, not_not]

/-- A core consists of the nodes that a cycle leads to and that lead to a cycle. -/
theorem mem_cycleCore?_iff {core : List (Fin size)} (found : cycleCore? successors = some core) :
    node ∈ core ↔ AfterCycle successors node ∧ BeforeCycle successors node := by
  simp only [cycleCore?] at found
  split at found
  · cases found
  · cases found
    have remains_iff : ∀ node : Fin size,
        (Vector.ofFn fun node : Fin size =>
            decide (0 < (sorted successors).entering[node]))[node] = true ↔
          AfterCycle successors node := by
      simp [← entering_sorted_pos_iff]
    simp only [List.mem_filter, List.mem_finRange, true_and, getElem_peel_iff, remains_iff]
    constructor
    · rintro ⟨kept, member, left, after⟩
      exact ⟨after node member, beforeCycle_of_forall_exists_target kept left node member⟩
    · intro between
      refine ⟨{ node | AfterCycle successors node ∧ BeforeCycle successors node }, between, ?_,
        fun _ => And.left⟩
      rintro node ⟨after, before⟩
      obtain ⟨target, edge, target_before⟩ := before.exists_target
      exact ⟨target, ⟨after.step edge, target_before⟩, edge⟩

theorem nodup_cycleCore? {core : List (Fin size)} (found : cycleCore? successors = some core) :
    core.Nodup := by
  simp only [cycleCore?] at found
  split at found
  · cases found
  · cases found
    exact (List.nodup_finRange size).filter _

end RiskGraph

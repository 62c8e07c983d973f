import RiskGraph.Proofs.Frame
import RiskGraph.Proofs.Journey
import RiskGraph.Proofs.Preparation
import RiskGraph.Proofs.StrictDefinition

/-!
# What strictness makes of a run

A strict ruleset refuses a walk that lacks a feature which one of its conditions names.  Beyond that
strictness does nothing: making rulesets strict leaves a run as it is, or cuts it off at the first
of these rulesets that finds a feature missing.
-/

namespace RiskGraph

/-! ## Arrivals of a run -/

/-- A walk cannot enter a node once it is found called off, nor a second time. -/
def Walk.bars (walk : Walk) (id : String) : Bool :=
  walk.stopsAt (.entering id) || walk.hasVisited id

/-- The arrivals of a run from a node, which takes the given number of turns at most. -/
def Graph.arrivalsFrom [Engine] (graph : Graph) : Nat → Fin graph.size → Walk → List Arrival
  | 0, _, _ => []
  | turns + 1, place, walk =>
      if walk.bars graph.nodes[place].id then []
      else
        { node := graph.nodes[place], features := walk.features } ::
          match graph.turn place walk with
          | (.ended _, _) => []
          | (.onward target, left) => graph.arrivalsFrom turns target left

/-- The nodes that a run enters, in order, with the features as they stand there. -/
def Graph.arrivals [Engine] (graph : Graph) (walk : Walk) : List Arrival :=
  graph.arrivalsFrom (graph.size + 1) graph.start walk

section

variable {graph : Graph} {place target : Fin graph.size} {walk left : Walk}

theorem Walk.bars_iff {id : String} :
    walk.bars id = true ↔ walk.stopsAt (.entering id) = true ∨ id ∈ walk.visited := by
  simp [bars, hasVisited]

variable [Engine]

theorem Node.visit_of_bars {node : Node} (barred : walk.bars node.id = true) :
    ∃ failure left, node.visit walk = (.error failure, left) ∧ left.trail = walk.trail := by
  rw [Walk.bars, Bool.or_eq_true] at barred
  unfold visit
  split
  · exact ⟨_, _, rfl, rfl⟩
  · next live =>
      rw [if_pos (barred.resolve_left live)]
      exact ⟨_, _, rfl, rfl⟩

theorem Node.trail_visit {node : Node} (open_to : walk.bars node.id = false) :
    (node.visit walk).2.trail = walk.trail ++ [node.id] := by
  have apart : ¬(walk.stopsAt (.entering node.id) = true ∨ node.id ∈ walk.visited) := by
    rw [← Walk.bars_iff, open_to]
    exact Bool.false_ne_true
  rcases visited : node.visit walk with ⟨failure | outcome, left⟩
  · cases breaks_of_visit visited with
    | calledOff off => exact absurd (Or.inl off) apart
    | revisited _ before => exact absurd (Or.inr before) apart
    | fails _ fresh =>
        have same := Walk.sameEntries_failed (walk.enter node.id) failure
        exact same.trail_eq.trans (congrArg Walk.trail (Walk.enter_eq fresh))
    | overtaken => rfl
  · obtain ⟨-, -, step, features, -, rfl⟩ := visit_eq_ok visited
    rfl

theorem Graph.turn_of_bars (barred : walk.bars graph.nodes[place].id = true) :
    ∃ failure left, graph.turn place walk = (.ended (.error failure), left) ∧
      left.trail = walk.trail := by
  obtain ⟨failure, left, visited, trail_eq⟩ := Node.visit_of_bars barred
  exact ⟨failure, left, by simp only [turn, visited], trail_eq⟩

/-- The trail of a run is extended by its arrivals. -/
theorem Graph.trail_runFrom (graph : Graph) (turns : Nat) (place : Fin graph.size) (walk : Walk) :
    (graph.runFrom turns place walk).2.trail =
      walk.trail ++ (graph.arrivalsFrom turns place walk).map fun arrival => arrival.node.id := by
  induction turns generalizing place walk with
  | zero => exact (List.append_nil _).symm
  | succ turns induction =>
      rw [runFrom, arrivalsFrom]
      cases barred : walk.bars graph.nodes[place].id with
      | true =>
          obtain ⟨failure, left, turned, trail_eq⟩ := turn_of_bars barred
          simp [turned, trail_eq]
      | false =>
          have trail_eq := Node.trail_visit barred
          rw [← turn_snd] at trail_eq
          rcases turned : graph.turn place walk with ⟨result | target, left⟩
          · rw [turned] at trail_eq
            simpa using trail_eq
          · rw [turned] at trail_eq
            change left.trail = _ at trail_eq
            simp [induction, trail_eq]

end

/-! ## Visits -/

/-- The failure that a ruleset under one of the identifiers meets on an arrival once it is strict:
that for the first of its conditions whose feature is missing. -/
def Arrival.lack? (ids : List String) (arrival : Arrival) : Option Failure :=
  match arrival.node.task with
  | .ruleset ruleset =>
      if arrival.node.id ∈ ids then
        (firstAbsent? arrival.features ruleset.conditions).map fun predicate =>
          .missingFeature arrival.node.id predicate.feature
      else none
  | _ => none

namespace Node

variable {node : Node} {walk : Walk} {ids : List String}

theorem id_madeStrict (node : Node) (ids : List String) : (node.madeStrict ids).id = node.id := by
  unfold madeStrict
  split <;> rfl

theorem perform_madeStrict [Engine] (node : Node) (ids : List String) :
    (node.madeStrict ids).perform = node.perform := by
  unfold madeStrict
  obtain ⟨identity, task⟩ := node
  split
  · cases task <;> rfl
  · rfl

theorem settle_madeStrict (node : Node) (ids : List String) :
    (node.madeStrict ids).settle = node.settle := by
  unfold madeStrict
  obtain ⟨identity, task⟩ := node
  split
  · cases task <;> rfl
  · rfl

theorem check_madeStrict (node : Node) (ids : List String) (walk : Walk) :
    (node.madeStrict ids).check walk =
      match (Arrival.mk node walk.features).lack? ids with
      | some failure => .error failure
      | none => node.check walk := by
  unfold madeStrict
  obtain ⟨identity, task⟩ := node
  cases task with
  | start | finish | condition | scorecard =>
      split <;> rfl
  | ruleset ruleset =>
      split
      · next chosen =>
          have same : ruleset.madeStrict.conditions = ruleset.conditions := rfl
          simp only [Arrival.lack?, if_pos chosen, check, Task.madeStrict, same]
          cases firstAbsent? walk.features ruleset.conditions with
          | some => rfl
          | none => cases ruleset.strict <;> rfl
      · next spared => simp only [Arrival.lack?, if_neg spared]

/-- A node made strict refuses a walk that lacks a feature, and treats others as before. -/
theorem visit_madeStrict [Engine] (node : Node) (ids : List String) (walk : Walk) :
    (node.madeStrict ids).visit walk =
      if walk.bars node.id then node.visit walk
      else
        match (Arrival.mk node walk.features).lack? ids with
        | some failure => (.error failure, walk.enter node.id)
        | none => node.visit walk := by
  have features_eq : (walk.enter node.id).features = walk.features := by
    unfold Walk.enter
    split <;> rfl
  simp only [visit, id_madeStrict, perform_madeStrict, settle_madeStrict, check_madeStrict,
    features_eq, Walk.bars]
  cases walk.stopsAt (.entering node.id) with
  | true => rfl
  | false =>
      cases walk.hasVisited node.id with
      | true => rfl
      | false => cases (Arrival.mk node walk.features).lack? ids <;> rfl

end Node

/-! ## Runs -/

namespace Graph

variable {definition : Definition} {aliases : Aliases} {ids : List String} {graph other : Graph}

/-- Nodes of one identifier differ only in strictness. -/
theorem node_madeStrict [Engine] (represents : graph.Represents definition aliases)
    (twin_represents : other.Represents (definition.madeStrict aliases ids) aliases)
    (twin_sound : other.Sound) {place : Fin graph.size} {next : Fin other.size}
    (id_eq : other.nodes[next].id = graph.nodes[place].id) :
    other.nodes[next] = graph.nodes[place].madeStrict ids := by
  obtain ⟨entry, member, describes⟩ := represents.exists_entry place
  obtain ⟨found, twin_describes⟩ :=
    twin_represents.exists_place (List.mem_map_of_mem (f := (·.madeStrict aliases ids)) member)
  have node_eq := describes.eq_madeStrict twin_describes
  obtain rfl : found = next := twin_sound.id_injective (by
    simp only [node_eq, Node.id_madeStrict, id_eq])
  exact node_eq

theorem id_start_madeStrict [Engine] (represents : graph.Represents definition aliases)
    (twin_represents : other.Represents (definition.madeStrict aliases ids) aliases) :
    other.nodes[other.start].id = graph.nodes[graph.start].id := by
  obtain ⟨entry, member, describes⟩ := represents.exists_entry graph.start
  obtain ⟨found, twin_describes⟩ :=
    twin_represents.exists_place (List.mem_map_of_mem (f := (·.madeStrict aliases ids)) member)
  have kind_eq := twin_describes.kind_eq
  rw [NodeEntry.kind_madeStrict, describes.kind_eq, (represents.start_iff _).mpr rfl] at kind_eq
  obtain rfl : found = other.start :=
    (twin_represents.start_iff found).mp (Option.some.inj kind_eq).symm
  have twin_id : other.nodes[other.start].id = _ := twin_describes.id_eq
  have id_eq : graph.nodes[graph.start].id = entry.id := describes.id_eq
  rw [twin_id, NodeEntry.id_madeStrict, id_eq]

theorem size_madeStrict [Engine] (represents : graph.Represents definition aliases)
    (twin_represents : other.Represents (definition.madeStrict aliases ids) aliases) :
    other.size = graph.size := by
  have length_eq := represents.nodes_described.length_eq
  have twin_length_eq := twin_represents.nodes_described.length_eq
  simp only [Definition.madeStrict, List.length_map, Vector.length_toList] at *
  omega

/-- Where visits are the same, runs on both graphs end alike or go on at nodes of one identifier. -/
theorem turn_madeStrict [Engine] (represents : graph.Represents definition aliases)
    (sound : graph.Sound)
    (twin_represents : other.Represents (definition.madeStrict aliases ids) aliases)
    (twin_sound : other.Sound) {place : Fin graph.size} {next : Fin other.size} {walk : Walk}
    (id_eq : other.nodes[next].id = graph.nodes[place].id)
    (visit_eq : other.nodes[next].visit walk = graph.nodes[place].visit walk) :
    (∃ result left, graph.turn place walk = (.ended result, left) ∧
      other.turn next walk = (.ended result, left)) ∨
      ∃ target next' left, graph.turn place walk = (.onward target, left) ∧
        other.turn next walk = (.onward next', left) ∧
          other.nodes[next'].id = graph.nodes[target].id := by
  simp only [turn, visit_eq]
  rcases visited : graph.nodes[place].visit walk with ⟨failure | outcome, left⟩
  · exact Or.inl ⟨_, _, rfl, rfl⟩
  · dsimp only
    cases blocks : outcome.blocks with
    | true => exact Or.inl ⟨_, _, rfl, rfl⟩
    | false =>
        obtain ⟨-, -, _, _, performs, -⟩ := Node.visit_eq_ok visited
        obtain ⟨-, -, _, _, twin_performs, -⟩ := Node.visit_eq_ok (visit_eq.trans visited)
        have edges : ∀ target branch,
            { source := graph.nodes[place].id, target, branch } ∈ definition.edges →
              { source := other.nodes[next].id, target, branch } ∈
                (definition.madeStrict aliases ids).edges := by
          intro target branch edge
          rw [id_eq]
          exact edge
        obtain ⟨target, next', followed, twin_followed, same_id, -⟩ := exists_follow_both
          represents sound twin_represents twin_sound edges performs twin_performs blocks
        refine Or.inr ⟨target, next', left, ?_, ?_, same_id⟩
        · rw [followed]
          rfl
        · rw [twin_followed]
          rfl

/-- Runs on both graphs agree up to the first arrival at which a feature is missing. -/
theorem runFrom_madeStrict [Engine] (represents : graph.Represents definition aliases)
    (sound : graph.Sound)
    (twin_represents : other.Represents (definition.madeStrict aliases ids) aliases)
    (twin_sound : other.Sound) (turns : Nat) {place : Fin graph.size} {next : Fin other.size}
    (id_eq : other.nodes[next].id = graph.nodes[place].id) (walk : Walk) :
    (other.runFrom turns next walk).1 =
      match (graph.arrivalsFrom turns place walk).findSome? (Arrival.lack? ids) with
      | some failure => .error failure
      | none => (graph.runFrom turns place walk).1 := by
  induction turns generalizing place next walk with
  | zero => simp only [runFrom, arrivalsFrom, id_eq, List.findSome?_nil]
  | succ turns induction =>
      have visit_eq := graph.nodes[place].visit_madeStrict ids walk
      rw [← node_madeStrict represents twin_represents twin_sound id_eq] at visit_eq
      have turn_eq :=
        @turn_madeStrict _ _ _ _ _ _ represents sound twin_represents twin_sound _ _ walk
        id_eq
      cases barred : walk.bars graph.nodes[place].id with
      | true =>
          rw [if_pos barred] at visit_eq
          obtain ⟨failure, left, turned, -⟩ := turn_of_bars barred
          rcases turn_eq visit_eq with ⟨_, _, ended, twin_ended⟩ | ⟨_, _, _, impossible, -⟩
          · simp only [runFrom, arrivalsFrom, barred, if_true, ended, twin_ended,
              List.findSome?_nil]
          · cases turned.symm.trans impossible
      | false =>
          rw [if_neg (by rw [barred]; exact Bool.false_ne_true)] at visit_eq
          cases lack : (Arrival.mk graph.nodes[place] walk.features).lack? ids with
          | some failure =>
              simp only [lack] at visit_eq
              simp only [runFrom, arrivalsFrom, barred, Bool.false_eq_true, if_false,
                List.findSome?_cons, lack, turn, visit_eq]
          | none =>
              simp only [lack] at visit_eq
              rcases turn_eq visit_eq with
                ⟨_, _, ended, twin_ended⟩ | ⟨_, _, left, onward, twin_onward, same_id⟩
              · simp only [runFrom, arrivalsFrom, barred, Bool.false_eq_true, if_false,
                  List.findSome?_cons, lack, ended, twin_ended, List.findSome?_nil]
              · simp only [runFrom, arrivalsFrom, barred, Bool.false_eq_true, if_false,
                  List.findSome?_cons, lack, onward, twin_onward, induction same_id left]

/-- Making rulesets strict keeps a definition buildable or not, and makes of a run at most a failure
for the first feature that one of these rulesets misses. -/
theorem decide_madeStrict [Engine] (definition : Definition) (aliases : Aliases)
    (ids : List String) :
    ((∃ graph, definition.build aliases = .ok graph) ↔
      ∃ other, (definition.madeStrict aliases ids).build aliases = .ok other) ∧
      ∀ graph other, definition.build aliases = .ok graph →
        (definition.madeStrict aliases ids).build aliases = .ok other →
          (∀ walk, (graph.run walk).2.trail =
            walk.trail ++ (graph.arrivals walk).map fun arrival => arrival.node.id) ∧
            ∀ features, other.decide features =
              match (graph.arrivals { features }).findSome? (Arrival.lack? ids) with
              | some failure => .error failure
              | none => graph.decide features := by
  have alike := definition.alike_madeStrict aliases ids
  refine ⟨?_, fun graph other built twin_built => ⟨?_, fun features => ?_⟩⟩
  · simp only [Definition.exists_build_eq_ok_iff]
    exact ⟨alike.wellFormed, alike.symm.wellFormed⟩
  · exact graph.trail_runFrom _ _
  · have represents := represents_of_build built
    have twin_represents := represents_of_build twin_built
    rw [decide, run, size_madeStrict represents twin_represents]
    exact runFrom_madeStrict represents (sound_of_build built) twin_represents
      (sound_of_build twin_built) _ (id_start_madeStrict represents twin_represents) _

/-- A request to `screening` that does not tell the country. -/
def stranger : Table Value :=
  Table.ofList [("amount", .int 20), ("email", .text "someone@example.com")]

section

open scoped Engine.Plain

theorem decide_madeStrict_stranger :
    ∃ graph other, screening.build (Aliases.ofList []) = .ok graph ∧
      (screening.madeStrict (Aliases.ofList []) ["limits"]).build (Aliases.ofList []) = .ok other ∧
        (∃ decision, graph.decide stranger = .ok decision) ∧
          other.decide stranger = .error (.missingFeature "limits" "country") ∧
            (graph.run { features := stranger }).2.trail =
              (graph.arrivals { features := stranger }).map (fun arrival => arrival.node.id) ∧
              other.decide stranger =
                match (graph.arrivals { features := stranger }).findSome?
                  (Arrival.lack? ["limits"]) with
                | some failure => .error failure
                | none => graph.decide stranger := by
  have decided : ((screening.build (Aliases.ofList [])).toOption.bind fun graph =>
      ((screening.madeStrict (Aliases.ofList []) ["limits"]).build
        (Aliases.ofList [])).toOption.map fun other =>
          ((graph.decide stranger).toOption.isSome, other.decide stranger)) =
      some (true, .error (.missingFeature "limits" "country")) := by
    decide +kernel
  obtain ⟨graph, found, decided⟩ := Option.bind_eq_some_iff.mp decided
  obtain ⟨other, twin_found, decided⟩ := Option.map_eq_some_iff.mp decided
  obtain ⟨succeeds, fails⟩ := Prod.mk.inj decided
  obtain ⟨decision, decision_eq⟩ := Option.isSome_iff_exists.mp succeeds
  have built := toOption_eq_some.mp found
  have twin_built := toOption_eq_some.mp twin_found
  obtain ⟨trail_eq, decide_eq⟩ :=
    (decide_madeStrict screening (Aliases.ofList []) ["limits"]).2 graph other built twin_built
  exact ⟨graph, other, built, twin_built, ⟨decision, toOption_eq_some.mp decision_eq⟩, fails,
    trail_eq _, decide_eq stranger⟩

end

end Graph

end RiskGraph

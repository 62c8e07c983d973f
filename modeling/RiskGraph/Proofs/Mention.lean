import RiskGraph.Proofs.Lockstep
import RiskGraph.Proofs.Rearrangement

/-!
# Features that a graph does not mention

A graph mentions the keys that its predicates name.  Two runs on features that agree on these are
kept side by side: their walks differ only in other features, which no node reads, in the orders in
which maps among the features yield their entries, and in the number of features that the first step
of the trace tells.  The order of entries is seen by `VALUE_EXIST` alone, and makes no difference to
it where the entries are steady.
-/

namespace RiskGraph

/-- A node of the graph evaluates the predicate. -/
def Graph.Evaluates (graph : Graph) (predicate : Predicate) : Prop :=
  ∃ place : Fin graph.size, predicate ∈ graph.nodes[place].predicates

theorem Graph.evaluates_iff {graph : Graph} {predicate : Predicate} :
    graph.Evaluates predicate ↔ ∃ node ∈ graph.nodes.toList, predicate ∈ node.predicates := by
  constructor
  · rintro ⟨place, member⟩
    exact ⟨_, by simp, member⟩
  · rintro ⟨node, listed, member⟩
    obtain ⟨place, inside, rfl⟩ := List.mem_iff_getElem.mp listed
    exact ⟨⟨place, by simpa using inside⟩, by simpa using member⟩

/-- A predicate of the graph names the key. -/
def Graph.Mentions (graph : Graph) (key : String) : Prop :=
  ∃ predicate, graph.Evaluates predicate ∧ predicate.feature = key

/-- Two tables have the same values under certain keys, or none; maps are the same in any order. -/
def Table.AgreeOn (keys : String → Prop) (left right : Table Value) : Prop :=
  ∀ key, keys key → Option.Rel Value.Alike (left.get? key) (right.get? key)

theorem Table.agreeOn_refl (keys : String → Prop) (table : Table Value) :
    table.AgreeOn keys table := by
  intro key _
  cases table.get? key with
  | none => exact .none
  | some value => exact .some value.alike_refl

theorem Table.AgreeOn.insert {keys : String → Prop} {left right : Table Value}
    (agree : AgreeOn keys left right) (key : String) {value twin : Value}
    (alike : value.Alike twin) : AgreeOn keys (left.insert key value) (right.insert key twin) := by
  intro other mentioned
  by_cases same : other = key
  · rw [same, get?_insert_self, get?_insert_self]
    exact .some alike
  · rw [get?_insert_of_ne _ same, get?_insert_of_ne _ same]
    exact agree other mentioned

/-! ## What a condition sees -/

/-- A condition sees two tables of features alike: its own feature is absent from both or the same
in both, and where the order of entries counts, they come in one order or are steady. -/
structure Predicate.SeesAlike (left right : Table Value) (predicate : Predicate) : Prop where
  alike : Option.Rel Value.Alike (left.get? predicate.feature) (right.get? predicate.feature)
  steady : predicate.operator = .valueExist →
    left.get? predicate.feature = right.get? predicate.feature ∨
      ∀ value, left.get? predicate.feature = some value →
        Comparison.Steady predicate.threshold value

section

variable {left right : Table Value} {predicate : Predicate} {conditions : List Predicate}

theorem Predicate.SeesAlike.insert (sees : predicate.SeesAlike left right) (key : String)
    (value : Value) : predicate.SeesAlike (left.insert key value) (right.insert key value) := by
  by_cases same : predicate.feature = key
  · constructor
    case alike =>
      rw [same, Table.get?_insert_self, Table.get?_insert_self]
      exact .some value.alike_refl
    case steady =>
      intro _
      rw [same, Table.get?_insert_self, Table.get?_insert_self]
      exact .inl rfl
  · constructor
    case alike =>
      rw [Table.get?_insert_of_ne _ same, Table.get?_insert_of_ne _ same]
      exact sees.alike
    case steady =>
      rw [Table.get?_insert_of_ne _ same, Table.get?_insert_of_ne _ same]
      exact sees.steady

/-- The feature of a condition is absent from both tables, or the condition finds the same. -/
theorem Predicate.SeesAlike.absent_or_evaluate_eq [Engine] (sees : predicate.SeesAlike left right) :
    left.get? predicate.feature = none ∧ right.get? predicate.feature = none ∨
      ∃ value twin, left.get? predicate.feature = some value ∧
        right.get? predicate.feature = some twin ∧ value.Alike twin ∧
          predicate.evaluate value = predicate.evaluate twin := by
  obtain ⟨alike, steady⟩ := sees
  generalize left.get? predicate.feature = found, right.get? predicate.feature = twin_found
    at alike steady ⊢
  cases alike with
  | none => exact .inl ⟨rfl, rfl⟩
  | @some value twin alike =>
      refine .inr ⟨value, twin, rfl, rfl, alike, ?_⟩
      by_cases equal : value = twin
      · exact congrArg predicate.evaluate equal
      · refine Comparison.applyWith_eq_of_alike alike fun searches => ?_
        rcases steady searches with same | steady
        · exact absurd (Option.some.inj same) equal
        · exact steady value rfl

theorem Predicate.SeesAlike.isNone_eq (sees : predicate.SeesAlike left right) :
    (left.get? predicate.feature).isNone = (right.get? predicate.feature).isNone := by
  have alike := sees.alike
  generalize left.get? predicate.feature = found, right.get? predicate.feature = twin_found
    at alike ⊢
  cases alike <;> rfl

/-! ## What a node reads -/

theorem firstAbsent?_congr
    (see : ∀ predicate ∈ conditions, predicate.SeesAlike left right) :
    firstAbsent? left conditions = firstAbsent? right conditions := by
  induction conditions with
  | nil => rfl
  | cons predicate conditions induction =>
      obtain ⟨here, later⟩ := List.forall_mem_cons.mp see
      rw [firstAbsent?, List.find?_cons, here.isNone_eq, ← firstAbsent?, induction later]
      rfl

variable [Engine]

/-- Conditions that see two tables alike find the same in both, or lack a feature in both. -/
theorem judge_present_congr (see : ∀ predicate ∈ conditions, predicate.SeesAlike left right)
    (node : String) :
    presentValues? left conditions = none ∧ presentValues? right conditions = none ∨
      ∃ values twins, presentValues? left conditions = some values ∧
        presentValues? right conditions = some twins ∧
          ((conditions.zip values).mapM fun pair => pair.1.judge node pair.2) =
            (conditions.zip twins).mapM fun pair => pair.1.judge node pair.2 := by
  induction conditions with
  | nil => exact .inr ⟨[], [], rfl, rfl, rfl⟩
  | cons predicate conditions induction =>
      obtain ⟨here, later⟩ := List.forall_mem_cons.mp see
      simp only [presentValues?, List.mapM_cons] at induction ⊢
      rcases here.absent_or_evaluate_eq with ⟨absent, twin_absent⟩ |
        ⟨value, twin, found, twin_found, -, evaluate_eq⟩
      · exact .inl ⟨by rw [absent]; rfl, by rw [twin_absent]; rfl⟩
      · rw [found, twin_found]
        rcases induction later with ⟨absent, twin_absent⟩ | ⟨values, twins, rest, twin_rest, judged⟩
        · exact .inl ⟨by rw [absent]; rfl, by rw [twin_absent]; rfl⟩
        · have judge_eq : predicate.judge node value = predicate.judge node twin := by
            rw [Predicate.judge, evaluate_eq, Predicate.judge]
          refine .inr ⟨value :: values, twin :: twins, ?_, ?_, ?_⟩
          · rw [rest]
            rfl
          · rw [twin_rest]
            rfl
          · simp only [List.zip_cons_cons, List.mapM_cons, judge_eq, judged]

theorem Rule.hits_congr {rule : Rule}
    (see : ∀ predicate ∈ rule.conditions, predicate.SeesAlike left right) (node : String) :
    rule.hits node left = rule.hits node right := by
  rw [hits, hits]
  rcases judge_present_congr see node with ⟨absent, twin_absent⟩ | ⟨_, _, found, twin_found, judged⟩
  · rw [absent, twin_absent]
  · rw [found, twin_found]
    exact congrArg (· >>= _) judged

theorem hitRules_congr {rules : List Rule}
    (see : ∀ rule ∈ rules, ∀ predicate ∈ rule.conditions, predicate.SeesAlike left right)
    (node : String) (stops : Nat → Bool) (tried : Nat) :
    hitRules node left stops tried rules = hitRules node right stops tried rules := by
  induction rules generalizing tried with
  | nil => rfl
  | cons rule rules induction =>
      obtain ⟨here, later⟩ := List.forall_mem_cons.mp see
      rw [hitRules, hitRules, Rule.hits_congr here, induction later]

theorem sumScores_congr {items : List ScoreItem}
    (see : ∀ item ∈ items, item.predicate.SeesAlike left right) (node : String)
    (total : Binary64) : sumScores node left total items = sumScores node right total items := by
  induction items generalizing total with
  | nil => rfl
  | cons item items induction =>
      obtain ⟨here, later⟩ := List.forall_mem_cons.mp see
      simp only [sumScores, induction later]
      rcases here.absent_or_evaluate_eq with ⟨absent, twin_absent⟩ | ⟨_, _, found, twin_found, -,
        evaluate_eq⟩
      · rw [absent, twin_absent]
      · simp only [found, twin_found, Predicate.judge, evaluate_eq]

end

/-! ## Explanations -/

theorem TraceStep.valueText_sorted (value : Value) : valueText value.sorted = valueText value := by
  cases value with
  | text => rfl
  | int | real | bool | date | array | map | null => exact Value.shown_sorted _

theorem TraceStep.valueText_eq_of_alike {value twin : Value} (alike : value.Alike twin) :
    valueText value = valueText twin := by
  rw [← valueText_sorted value, alike, valueText_sorted]

/-- Steps that read the same explain the same. -/
theorem explain_congr {first : TraceStep} {steps others : List TraceStep}
    (texts_eq : steps.map TraceStep.text = others.map TraceStep.text) :
    explain (first :: steps) = explain (first :: others) := by
  rw [explain, explain, List.isEmpty_cons, List.isEmpty_cons, List.map_cons, List.map_cons,
    texts_eq]

/-! ## Walks that resemble each other -/

/-- Two walks differ only in what certain conditions do not see, and in the first step of the
trace. -/
structure Walk.Resembles (conditions : Predicate → Prop) (first second : TraceStep)
    (walk twin : Walk) : Prop where
  see : ∀ predicate, conditions predicate → predicate.SeesAlike walk.features twin.features
  results_eq : walk.results = twin.results
  trail_eq : walk.trail = twin.trail
  visited_eq : walk.visited = twin.visited
  current_eq : walk.current = twin.current
  hits_eq : walk.hits = twin.hits
  trace_eq : ∃ steps others, walk.trace = first :: steps ∧ twin.trace = second :: others ∧
    steps.map TraceStep.text = others.map TraceStep.text
  cancelled_eq : walk.cancelled = twin.cancelled
  interrupts_eq : walk.interrupts = twin.interrupts

namespace Walk.Resembles

variable {conditions : Predicate → Prop} {first second : TraceStep} {walk twin : Walk}

theorem stopsAt_eq (resembles : Resembles conditions first second walk twin) :
    walk.stopsAt = twin.stopsAt := by
  funext check
  rw [stopsAt, stopsAt, resembles.cancelled_eq, resembles.interrupts_eq]

theorem enter (resembles : Resembles conditions first second walk twin) (id : String) :
    Resembles conditions first second (walk.enter id) (twin.enter id) := by
  unfold Walk.enter hasVisited
  rw [resembles.visited_eq]
  split
  · exact resembles
  · exact { resembles with
      trail_eq := congrArg (· ++ [id]) resembles.trail_eq
      visited_eq := rfl
      current_eq := rfl }

theorem publish (resembles : Resembles conditions first second walk twin) (key : String)
    (value : Value) :
    Resembles conditions first second (walk.publish key value) (twin.publish key value) :=
  { resembles with
    see := fun predicate member => (resembles.see predicate member).insert key value }

theorem record (resembles : Resembles conditions first second walk twin) {step other : TraceStep}
    (text_eq : step.text = other.text) :
    Resembles conditions first second (walk.record step) (twin.record other) := by
  obtain ⟨steps, others, trace_eq, twin_trace_eq, texts_eq⟩ := resembles.trace_eq
  refine { resembles with
    trace_eq := ⟨steps ++ [step], others ++ [other], congrArg (· ++ [step]) trace_eq,
      congrArg (· ++ [other]) twin_trace_eq, ?_⟩ }
  rw [List.map_append, List.map_append, texts_eq, List.map_singleton, List.map_singleton, text_eq]

theorem addHits (resembles : Resembles conditions first second walk twin) (hits : List String) :
    Resembles conditions first second (walk.addHits hits) (twin.addHits hits) :=
  { resembles with hits_eq := congrArg (· ++ hits) resembles.hits_eq }

theorem store (resembles : Resembles conditions first second walk twin) (id : String)
    (outcome : Outcome) :
    Resembles conditions first second (walk.store id outcome) (twin.store id outcome) :=
  { resembles with results_eq := congrArg (Table.insert · id outcome) resembles.results_eq }

theorem cancel (resembles : Resembles conditions first second walk twin) :
    Resembles conditions first second walk.cancel twin.cancel :=
  { resembles with cancelled_eq := rfl }

theorem failed (resembles : Resembles conditions first second walk twin) (failure : Failure) :
    Resembles conditions first second (walk.failed failure) (twin.failed failure) := by
  unfold Walk.failed
  split
  · exact resembles.cancel
  · exact resembles

end Walk.Resembles

namespace Node

variable {conditions : Predicate → Prop} {first second : TraceStep} {walk twin : Walk} {node : Node}

theorem check_congr (resembles : walk.Resembles conditions first second twin)
    (own : ∀ predicate ∈ node.predicates, conditions predicate)
    (later : node.kind ≠ .start) : node.check walk = node.check twin := by
  have see : ∀ predicate ∈ node.predicates, predicate.SeesAlike walk.features twin.features :=
    fun predicate member => resembles.see predicate (own predicate member)
  unfold check
  cases task_eq : node.task with
  | start => exact absurd (congrArg Task.kind task_eq) later
  | finish | scorecard => rfl
  | condition predicate =>
      simp only [predicates, task_eq, List.forall_mem_singleton] at see
      simp only [see.isNone_eq]
  | ruleset ruleset =>
      simp only [predicates, task_eq] at see
      simp only [firstAbsent?_congr see]

/-- Tasks performed at walks that resemble each other come to the same and leave such walks. -/
theorem perform_congr [Engine] (resembles : walk.Resembles conditions first second twin)
    (own : ∀ predicate ∈ node.predicates, conditions predicate)
    (later : node.kind ≠ .start) :
    (node.perform walk).1 = (node.perform twin).1 ∧
      (node.perform walk).2.Resembles conditions first second (node.perform twin).2 := by
  have see : ∀ predicate ∈ node.predicates, predicate.SeesAlike walk.features twin.features :=
    fun predicate member => resembles.see predicate (own predicate member)
  unfold perform
  cases task_eq : node.task with
  | start => exact absurd (congrArg Task.kind task_eq) later
  | finish => exact ⟨rfl, resembles.record rfl⟩
  | condition predicate =>
      simp only [predicates, task_eq, List.forall_mem_singleton] at see
      rcases see.absent_or_evaluate_eq with ⟨absent, twin_absent⟩ | ⟨value, twin_value, found,
        twin_found, alike, evaluate_eq⟩
      · simp only [branch, absent, twin_absent]
        exact ⟨trivial, resembles⟩
      · have judge_eq : predicate.judge node.id value = predicate.judge node.id twin_value := by
          rw [Predicate.judge, evaluate_eq, Predicate.judge]
        simp only [branch, found, twin_found, judge_eq]
        cases predicate.judge node.id twin_value with
        | error => exact ⟨rfl, resembles⟩
        | ok holds =>
            refine ⟨rfl, resembles.record ?_⟩
            simp only [TraceStep.text, TraceStep.valueText_eq_of_alike alike]
  | ruleset ruleset =>
      simp only [predicates, task_eq, Ruleset.conditions, List.mem_flatMap] at see
      have same_hits := hitRules_congr
        (fun rule member predicate among => see predicate ⟨rule, member, among⟩) node.id
      simp only [tryRules, resembles.stopsAt_eq, same_hits]
      cases hitRules node.id twin.features (fun rule => twin.stopsAt (.trying node.id rule)) 0
        ruleset.rules with
      | error failure => exact ⟨rfl, resembles.failed failure⟩
      | ok => exact ⟨rfl, resembles.record rfl⟩
  | scorecard scorecard =>
      simp only [predicates, task_eq, List.forall_mem_map] at see
      simp only [score, sumScores_congr see]
      cases sumScores node.id twin.features scorecard.base scorecard.items with
      | error => exact ⟨rfl, resembles⟩
      | ok => exact ⟨rfl, (resembles.record rfl).publish _ _⟩

theorem resembles_settle (resembles : walk.Resembles conditions first second twin)
    (outcome : Outcome) :
    (node.settle outcome walk).Resembles conditions first second (node.settle outcome twin) := by
  unfold settle
  split
  · exact resembles.addHits _
  · exact resembles

/-- Visits of a node by walks that resemble each other come to the same and leave such walks, at
the start if they have been there before. -/
theorem visit_congr [Engine] (resembles : walk.Resembles conditions first second twin)
    (own : ∀ predicate ∈ node.predicates, conditions predicate)
    (later : node.kind = .start → node.id ∈ walk.visited) :
    (node.visit walk).1 = (node.visit twin).1 ∧
      (node.visit walk).2.Resembles conditions first second (node.visit twin).2 := by
  simp only [visit, Walk.hasVisited, ← resembles.stopsAt_eq, ← resembles.visited_eq,
    List.contains_iff_mem]
  by_cases off : walk.stopsAt (.entering node.id) = true
  · simp only [if_pos off]
    exact ⟨trivial, resembles.cancel⟩
  by_cases before : node.id ∈ walk.visited
  · simp only [if_neg off, if_pos before]
    exact ⟨trivial, resembles⟩
  have entered := resembles.enter node.id
  have not_start : node.kind ≠ .start := fun kind_eq => before (later kind_eq)
  obtain ⟨same, performed⟩ := perform_congr entered own not_start
  simp only [if_neg off, if_neg before, check_congr entered own not_start]
  cases node.check (twin.enter node.id) with
  | error => exact ⟨rfl, entered⟩
  | ok =>
      rcases walk_eq : node.perform (walk.enter node.id) with ⟨result, left⟩
      rcases twin_eq : node.perform (twin.enter node.id) with ⟨result', left'⟩
      simp only [walk_eq, twin_eq] at same performed
      obtain rfl := same
      cases result with
      | error => exact ⟨rfl, performed⟩
      | ok outcome =>
          simp only [performed.stopsAt_eq]
          split
          · exact ⟨rfl, performed.cancel⟩
          · exact ⟨rfl, (resembles_settle performed outcome).store _ _⟩

/-- The start takes up a fresh walk that has features at all. -/
theorem visit_start [Engine] {features : Table Value} (task_eq : node.task = .start)
    (filled : features.size ≠ 0) :
    node.visit { features } =
      (.ok node.pass,
        Walk.past { features } node node.pass (.started node.id features.size) features) := by
  simp [visit, check, perform, settle, task_eq, Walk.stopsAt, Walk.hasVisited, Walk.enter, filled,
    Walk.past, Walk.record, Walk.store, pass]

end Node

/-! ## Runs -/

theorem Task.eq_start {task : Task} (kind_eq : task.kind = .start) : task = .start := by
  cases task with
  | start => rfl
  | finish | condition | ruleset | scorecard => nomatch kind_eq

namespace Graph

variable {graph : Graph} {target : Fin graph.size} {features : Table Value}

/-- A fresh walk that has left the start. -/
def begun (graph : Graph) (features : Table Value) : Walk :=
  let node := graph.nodes[graph.start]
  Walk.past { features } node node.pass (.started node.id features.size) features

variable [Engine]

/-- The first turn of a fresh walk leads on from the start, if there are features at all. -/
theorem turn_start (task_eq : graph.nodes[graph.start].task = .start) (filled : features.size ≠ 0)
    (followed : graph.exits[graph.start].follow graph.nodes[graph.start]
      graph.nodes[graph.start].pass = .ok target) :
    graph.turn graph.start { features } = (.onward target, graph.begun features) := by
  simp only [turn, Node.visit_start task_eq filled]
  rw [followed]
  rfl

theorem loop_begun (task_eq : graph.nodes[graph.start].task = .start) (filled : features.size ≠ 0)
    (followed : graph.exits[graph.start].follow graph.nodes[graph.start]
      graph.nodes[graph.start].pass = .ok target) {result : Except Failure Decision} {final : Walk}
    (loop : graph.Loop graph.start { features } result final) :
    graph.Loop target (graph.begun features) result final := by
  have turned := turn_start task_eq filled followed
  cases loop with
  | stop ended => nomatch turned.symm.trans ended
  | go onward later =>
      cases turned.symm.trans onward
      exact later

/-- Runs on features that agree are kept side by side after the start. -/
theorem lockstep_of_resembles (sound : graph.Sound)
    (start_iff : ∀ place, graph.nodes[place].kind = .start ↔ place = graph.start)
    (first second : TraceStep) :
    Lockstep graph graph
      (fun place walk other twin => place = other ∧
        graph.nodes[graph.start].id ∈ walk.visited ∧
          walk.Resembles graph.Evaluates first second twin)
      (fun walk twin => walk.Resembles graph.Evaluates first second twin) := by
  have visit_congr : ∀ {place : Fin graph.size} {walk twin : Walk},
      graph.nodes[graph.start].id ∈ walk.visited →
        walk.Resembles graph.Evaluates first second twin →
        (graph.nodes[place].visit walk).1 = (graph.nodes[place].visit twin).1 ∧
          (graph.nodes[place].visit walk).2.Resembles graph.Evaluates first second
            (graph.nodes[place].visit twin).2 := by
    intro place walk twin begun resembles
    refine Node.visit_congr resembles (fun predicate member => ⟨place, member⟩) ?_
    intro kind_eq
    rwa [(start_iff place).mp kind_eq]
  constructor
  case visit_eq =>
    rintro place walk _ twin ⟨rfl, begun, resembles⟩
    exact (visit_congr begun resembles).1
  case level =>
    rintro place walk _ twin ⟨rfl, begun, resembles⟩
    exact (visit_congr begun resembles).2
  case onward =>
    rintro place walk _ twin outcome ⟨rfl, begun, resembles⟩ came_to passes
    have level := (@visit_congr place _ _ begun resembles).2
    obtain ⟨_, _, performs⟩ := Node.exists_performs_of_visit came_to
    obtain ⟨target, followed, -⟩ :=
      Exits.exists_follow_eq_ok (sound.ways_suit place) performs passes
    exact ⟨target, target, followed, followed, rfl, Node.mem_visited_visit begun, level⟩

end Graph

/-- Two decisions differ at most in the number of features that their explanations begin with. -/
structure Decision.Resembles (start : String) (count twinCount : Nat) (decision twin : Decision) :
    Prop where
  /-- Nothing but the reason differs. -/
  eq_but_reason : twin = { decision with reason := twin.reason }
  /-- The reasons tell the same steps after the first. -/
  reasons_eq : ∃ steps, decision.reason = explain (.started start count :: steps) ∧
    twin.reason = explain (.started start twinCount :: steps)

/-- The entries of features are steady where a predicate of the graph searches them. -/
def Graph.SearchesSteady (graph : Graph) (features : Table Value) : Prop :=
  ∀ predicate, graph.Evaluates predicate → predicate.operator = .valueExist →
    ∀ value, features.get? predicate.feature = some value →
      Comparison.Steady predicate.threshold value

theorem Graph.searchesSteady_iff {graph : Graph} {features : Table Value} :
    graph.SearchesSteady features ↔ ∀ node ∈ graph.nodes.toList, ∀ predicate ∈ node.predicates,
      predicate.operator = .valueExist →
        ∀ value ∈ features.get? predicate.feature, Comparison.Steady predicate.threshold value := by
  simp only [SearchesSteady, evaluates_iff, forall_exists_index, and_imp, Option.mem_def]
  exact ⟨fun steady node listed predicate member => steady predicate node listed member,
    fun steady predicate node listed member => steady node listed predicate member⟩

instance (graph : Graph) (features : Table Value) : Decidable (graph.SearchesSteady features) :=
  decidable_of_iff' _ Graph.searchesSteady_iff

/-- Where a predicate of the graph searches the entries of a feature, two tables yield them in one
order, or they are steady. -/
def Graph.SearchesAlike (graph : Graph) (left right : Table Value) : Prop :=
  ∀ predicate, graph.Evaluates predicate → predicate.operator = .valueExist →
    left.get? predicate.feature = right.get? predicate.feature ∨
      ∀ value, left.get? predicate.feature = some value →
        Comparison.Steady predicate.threshold value

theorem Graph.SearchesSteady.searchesAlike {graph : Graph} {left : Table Value}
    (steady : graph.SearchesSteady left) (right : Table Value) : graph.SearchesAlike left right :=
  fun predicate evaluates searches => .inr (steady predicate evaluates searches)

/-- Runs on features that agree end alike, if there are features at all. -/
theorem Graph.endAlike_of_agreeOn [Engine] {definition : Definition} {aliases : Aliases}
    {graph : Graph} (built : definition.build aliases = .ok graph)
    {left right : Table Value} (left_filled : left.size ≠ 0) (right_filled : right.size ≠ 0)
    (agree : left.AgreeOn graph.Mentions right) (searched : graph.SearchesAlike left right) :
    EndAlike
      (fun walk twin => walk.Resembles graph.Evaluates
        (.started graph.nodes[graph.start].id left.size)
        (.started graph.nodes[graph.start].id right.size) twin)
      (graph.run { features := left }) (graph.run { features := right }) := by
  have sound := sound_of_build built
  have represents := represents_of_build built
  have task_eq := Task.eq_start ((represents.start_iff graph.start).mpr rfl)
  obtain ⟨target, followed, -⟩ :=
    Exits.exists_follow_eq_ok (sound.ways_suit graph.start) (.start task_eq left_filled) rfl
  -- at the start the walks are apart, for its step tells how many features there are
  have loops : ∀ features : Table Value, features.size ≠ 0 →
      graph.Loop target (graph.begun features) (graph.run { features }).1
        (graph.run { features }).2 := by
    intro features filled
    obtain ⟨_, _, _, _, _, -, ran, loop, -⟩ := exists_passes_run sound { features }
    rw [ran]
    exact loop_begun task_eq filled followed loop
  have see : ∀ predicate, graph.Evaluates predicate → predicate.SeesAlike left right :=
    fun predicate evaluates => ⟨agree _ ⟨predicate, evaluates, rfl⟩, searched predicate evaluates⟩
  have resembles : (graph.begun left).Resembles graph.Evaluates
      (.started graph.nodes[graph.start].id left.size)
      (.started graph.nodes[graph.start].id right.size) (graph.begun right) :=
    ⟨see, rfl, rfl, rfl, rfl, rfl, ⟨[], [], rfl, rfl, rfl⟩, rfl, rfl⟩
  have lockstep := lockstep_of_resembles sound represents.start_iff
    (.started graph.nodes[graph.start].id left.size)
    (.started graph.nodes[graph.start].id right.size)
  exact lockstep.loop ⟨rfl, List.mem_cons_self, resembles⟩ (loops left left_filled)
    (loops right right_filled)

/-- As many features that agree are decided on in the same way. -/
theorem Graph.decide_eq_of_agreeOn [Engine] {definition : Definition} {aliases : Aliases}
    {graph : Graph} (built : definition.build aliases = .ok graph)
    {left right : Table Value} (same_size : left.size = right.size)
    (agree : left.AgreeOn graph.Mentions right) (searched : graph.SearchesAlike left right) :
    graph.decide left = graph.decide right := by
  by_cases left_filled : left.size = 0
  · rw [Table.eq_empty_of_size_eq_zero left_filled,
      Table.eq_empty_of_size_eq_zero (same_size.symm.trans left_filled)]
  obtain ⟨ending, left_eq, right_eq, level⟩ :=
    endAlike_of_agreeOn built left_filled (same_size ▸ left_filled) agree searched
  obtain ⟨steps, others, trace_eq, twin_trace_eq, texts_eq⟩ := level.trace_eq
  refine left_eq.trans (Eq.trans ?_ right_eq.symm)
  cases ending with
  | error failure => rfl
  | ok outcome =>
      simp only [Except.map, Decision.ofOutcome, level.hits_eq, level.trail_eq, trace_eq,
        twin_trace_eq, same_size, explain_congr texts_eq]

/-- Features that a graph does not mention make no difference to what it decides, but that they are
counted among the features given; nor does the order in which maps yield their entries, where these
are steady. -/
theorem Graph.decide_congr [Engine] {definition : Definition} {pairs : List (String × String)}
    {graph : Graph} (built : definition.build (Aliases.ofList pairs) = .ok graph)
    {left right : Table Value} (left_filled : left.size ≠ 0) (right_filled : right.size ≠ 0)
    (agree : left.AgreeOn graph.Mentions right) (searched : graph.SearchesAlike left right) :
    ((∃ failure, graph.decide left = .error failure ∧ graph.decide right = .error failure) ∨
      ∃ decision twin, graph.decide left = .ok decision ∧ graph.decide right = .ok twin ∧
        decision.Resembles graph.nodes[graph.start].id left.size right.size twin) ∧
      (left.size = right.size → graph.decide left = graph.decide right) := by
  refine ⟨?_, fun same_size => decide_eq_of_agreeOn built same_size agree searched⟩
  obtain ⟨ending, left_eq, right_eq, level⟩ :=
    endAlike_of_agreeOn built left_filled right_filled agree searched
  obtain ⟨steps, others, trace_eq, twin_trace_eq, texts_eq⟩ := level.trace_eq
  cases ending with
  | error failure => exact Or.inl ⟨failure, left_eq, right_eq⟩
  | ok outcome =>
      refine Or.inr ⟨_, _, left_eq, right_eq, ?_, steps, ?_, ?_⟩
      · simp only [Decision.ofOutcome, level.hits_eq, level.trail_eq]
      · rw [← trace_eq]
        rfl
      · rw [explain_congr texts_eq, ← twin_trace_eq]
        rfl

/-- A request passes if a certain day is among the holidays that come with it. -/
def holidays : Definition where
  nodes := [
    { id := "request", kind := "start" },
    { id := "watch", kind := "condition"
      settings := .object [
        ("feature", .text "holidays"), ("operator", .text "VALUE_EXIST"),
        ("threshold", .text "2024-01-01")] },
    { id := "pass", kind := "end" },
    { id := "stop", kind := "end" }]
  edges := [
    { source := "request", target := "watch" },
    { source := "watch", target := "pass", branch := some true },
    { source := "watch", target := "stop", branch := some false }]

/-- A request that comes with holidays under their names. -/
def holidaysOf (entries : Table Value) : Table Value :=
  Table.empty.insert "holidays" (.ofTable entries)

def newYear : String × Value :=
  ("new year", .text "2024-01-01")

def christmas : String × Value :=
  ("christmas", .text "2024-12-25")

/-- A holiday that is not in the calendar. -/
def leapDay : String × Value :=
  ("leap day", .text "2023-02-29")

section

open scoped Engine.Plain

theorem Graph.eq_holidays_of_mentions {graph : Graph} {key : String}
    (built : holidays.build (Aliases.ofList []) = .ok graph) (mentioned : graph.Mentions key) :
    key = "holidays" := by
  have each : ((holidays.build (Aliases.ofList [])).toOption.map fun graph =>
      graph.nodes.toList.all fun node =>
        node.predicates.all fun predicate => predicate.feature = "holidays") = some true := by
    decide +kernel
  rw [built, Except.toOption, Option.map_some, Option.some_inj] at each
  obtain ⟨predicate, evaluates, rfl⟩ := mentioned
  obtain ⟨node, listed, member⟩ := evaluates_iff.mp evaluates
  exact of_decide_eq_true (List.all_eq_true.mp (List.all_eq_true.mp each node listed) _ member)

/-- Two requests with holidays that come in other orders, one of them through a channel. -/
theorem Graph.decide_congr_holidays :
    let left := holidaysOf ⟨[newYear, christmas], by decide⟩
    let right := (holidaysOf ⟨[christmas, newYear], by decide⟩).insert "channel" (.text "web")
    ∃ graph, holidays.build (Aliases.ofList []) = .ok graph ∧ left.size ≠ 0 ∧ right.size ≠ 0 ∧
      left.AgreeOn graph.Mentions right ∧ graph.SearchesAlike left right ∧
        ((∃ failure, graph.decide left = .error failure ∧ graph.decide right = .error failure) ∨
          ∃ decision twin, graph.decide left = .ok decision ∧ graph.decide right = .ok twin ∧
            decision.Resembles graph.nodes[graph.start].id left.size right.size twin) ∧
          (left.size = right.size → graph.decide left = graph.decide right) := by
  intro left right
  have found : ((holidays.build (Aliases.ofList [])).toOption.map fun graph =>
      Decidable.decide (graph.SearchesSteady left)) = some true := by
    decide +kernel
  obtain ⟨graph, built, steady⟩ := Option.map_eq_some_iff.mp found
  have built := toOption_eq_some.mp built
  have agree : left.AgreeOn graph.Mentions right := by
    intro key mentioned
    rw [eq_holidays_of_mentions built mentioned]
    exact .some (Value.alike_ofTable (.swap ..))
  have searched := (of_decide_eq_true steady).searchesAlike right
  have left_filled : left.size ≠ 0 := by decide
  have right_filled : right.size ≠ 0 := by decide
  exact ⟨graph, built, left_filled, right_filled, agree, searched,
    decide_congr built left_filled right_filled agree searched⟩

/-- Entries that are not steady are decided on in one order, and fail in the other. -/
theorem Graph.decide_order_matters :
    let left := holidaysOf ⟨[newYear, leapDay], by decide⟩
    let right := holidaysOf ⟨[leapDay, newYear], by decide⟩
    ∃ graph decision, holidays.build (Aliases.ofList []) = .ok graph ∧
      left.size = 1 ∧ right.size = 1 ∧ left.AgreeOn graph.Mentions right ∧
        graph.decide left = .ok decision ∧
          graph.decide right = .error (.inconvertible "watch" "2023-02-29" .date) := by
  intro left right
  have decided : ((holidays.build (Aliases.ofList [])).toOption.map fun graph =>
      ((graph.decide left).toOption.isSome, graph.decide right)) =
        some (true, .error (.inconvertible "watch" "2023-02-29" .date)) := by
    decide +kernel
  obtain ⟨graph, found, decided⟩ := Option.map_eq_some_iff.mp decided
  obtain ⟨succeeds, fails⟩ := Prod.mk.inj decided
  obtain ⟨decision, decision_eq⟩ := Option.isSome_iff_exists.mp succeeds
  exact ⟨graph, decision, toOption_eq_some.mp found, rfl, rfl,
    (Table.agreeOn_refl _ Table.empty).insert "holidays" (Value.alike_ofTable (.swap ..)),
    toOption_eq_some.mp decision_eq, fails⟩

end

end RiskGraph

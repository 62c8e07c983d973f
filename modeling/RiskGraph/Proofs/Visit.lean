import RiskGraph.Proofs.Fallible
import RiskGraph.Walk.Run

/-!
# What a visit does

The task of a node sees of a walk only its features, unless the request is called off meanwhile.  It
comes to an outcome, one step of the trace and the features for the nodes to come, and
`Node.Performs` lists the ways in which it can.  A visit that succeeds appends these to the walk;
one that fails has done no more than enter the node, unless it is found called off when the task is
done.
-/

namespace RiskGraph

/-! ## Rules tried one after the other -/

section

variable [Engine] {node : String} {features : Table Value} {stops : Nat → Bool} {tried : Nat}
  {rule : Rule} {rules hit : List Rule} {failure : Failure}

/-- The rules that hit if the request is not called off before one of them. -/
def freeHits (node : String) (features : Table Value) (rules : List Rule) :
    Except Failure (List Rule) :=
  hitRules node features (fun _ => false) 0 rules

theorem hitRules_eq_freeHits (going : ∀ number, stops number = false) :
    hitRules node features stops tried rules = freeHits node features rules := by
  obtain rfl : stops = fun _ => false := funext going
  rw [freeHits]
  induction rules generalizing tried with
  | nil => rfl
  | cons rule rules induction =>
      rw [hitRules, hitRules, @induction (tried + 1), @induction (0 + 1)]

theorem freeHits_cons :
    freeHits node features (rule :: rules) = (do
      let holds ← rule.hits node features
      let others ← freeHits node features rules
      .ok (if holds then rule :: others else others)) := by
  rw [freeHits, hitRules, hitRules_eq_freeHits fun _ => rfl]
  rfl

theorem freeHits_of_hitRules_eq_ok
    (succeeded : hitRules node features stops tried rules = .ok hit) :
    freeHits node features rules = .ok hit := by
  induction rules generalizing tried hit with
  | nil => exact succeeded
  | cons rule rules induction =>
      rw [hitRules] at succeeded
      split at succeeded
      · nomatch succeeded
      · obtain ⟨holds, first, later⟩ := bind_eq_ok.mp succeeded
        obtain ⟨others, rest, equal⟩ := bind_eq_ok.mp later
        exact freeHits_cons ▸ bind_eq_ok.mpr ⟨holds, first, bind_eq_ok.mpr ⟨others, induction rest,
          equal⟩⟩

/-- A request called off apart, the rules fail as they do otherwise. -/
theorem freeHits_of_hitRules_eq_error
    (failed : hitRules node features stops tried rules = .error failure) :
    failure = .cancelled node ∧ (∃ number, stops number = true) ∨
      freeHits node features rules = .error failure := by
  induction rules generalizing tried with
  | nil => nomatch failed
  | cons rule rules induction =>
      rw [hitRules] at failed
      split at failed
      · next stopped =>
          cases failed
          exact .inl ⟨rfl, tried, stopped⟩
      · rw [freeHits_cons]
        rcases bind_eq_error.mp failed with first | ⟨holds, first, later⟩
        · exact .inr (bind_eq_error.mpr (.inl first))
        · rcases bind_eq_error.mp later with rest | ⟨_, _, impossible⟩
          · refine (induction rest).imp_right fun rest => ?_
            exact bind_eq_error.mpr (.inr ⟨holds, first, bind_eq_error.mpr (.inl rest)⟩)
          · nomatch impossible

end

/-! ## Outcomes -/

/-- A node comes to an outcome with the given features; it leaves a step and features. -/
inductive Node.Performs [Engine] (node : Node) (features : Table Value) :
    Outcome → TraceStep → Table Value → Prop
  | start (task_eq : node.task = .start) (filled : features.size ≠ 0) :
      Performs node features node.pass (.started node.id features.size) features
  | finish (task_eq : node.task = .finish) :
      Performs node features { node.pass with blocks := true }
        (.ended node.id node.identity.tag node.identity.label) features
  | condition {predicate : Predicate} {value : Value} {holds : Bool}
      (task_eq : node.task = .condition predicate)
      (present : features.get? predicate.feature = some value)
      (evaluated : predicate.evaluate value = .ok holds) :
      Performs node features { node.pass with branch := some holds }
        (.compared node.id predicate.feature predicate.operator predicate.threshold value holds)
        features
  | ruleset {ruleset : Ruleset} {rules : List Rule} (task_eq : node.task = .ruleset ruleset)
      (complete : ruleset.strict = true → firstAbsent? features ruleset.conditions = none)
      (hit : freeHits node.id features ruleset.rules = .ok rules) :
      Performs node features (node.ruled rules)
        (.ruled node.id (rules.map Rule.name)
          ((rules.find? fun rule => rule.verdict.blocks).map Rule.name))
        features
  | scorecard {scorecard : Scorecard} {total : Binary64}
      (task_eq : node.task = .scorecard scorecard)
      (summed : sumScores node.id features scorecard.base scorecard.items = .ok total) :
      Performs node features node.pass
        (.scored node.id scorecard.output (Scorecard.valueOf total))
        (features.insert scorecard.output (Scorecard.valueOf total))

section

variable (node : Node) (rules : List Rule)

@[simp]
theorem Node.branch_ruled : (node.ruled rules).branch = none := by
  unfold ruled
  split <;> rfl

@[simp]
theorem Node.hits_ruled : (node.ruled rules).hits = rules.map Rule.name := by
  unfold ruled
  split <;> rfl

@[simp]
theorem Node.blocks_ruled :
    (node.ruled rules).blocks = (rules.find? fun rule => rule.verdict.blocks).isSome := by
  unfold ruled
  split <;> simp_all [pass]

end

/-- A walk after a visit that succeeded. -/
def Walk.past (walk : Walk) (node : Node) (outcome : Outcome) (step : TraceStep)
    (features : Table Value) : Walk :=
  { features
    results := walk.results.insert node.id outcome
    trail := walk.trail ++ [node.id]
    visited := node.id :: walk.visited
    current := some node.id
    hits := walk.hits ++ outcome.hits
    trace := walk.trace ++ [step]
    cancelled := walk.cancelled
    interrupts := walk.interrupts }

/-- A failure that a node raises, as opposed to one of the graph around it. -/
def Failure.Raised : Failure → Prop
  | noBranch _ | revisited _ | deadEnd _ => False
  | _ => True

/-- A failure that a node raises, and that names it. -/
structure Failure.RaisedBy (node : String) (failure : Failure) : Prop where
  raised : failure.Raised
  node_eq : failure.node = node

theorem Failure.raisedBy_ofFault (node feature : String) (fault : Comparison.Fault) :
    (ofFault node feature fault).RaisedBy node := by
  rcases fault with (_ | _) | _ | _ | _ <;> exact ⟨trivial, rfl⟩

/-- The predicates of a node. -/
def Node.predicates (node : Node) : List Predicate :=
  match node.task with
  | .condition predicate => [predicate]
  | .ruleset ruleset => ruleset.conditions
  | .scorecard scorecard => scorecard.items.map ScoreItem.predicate
  | .start | .finish => []

/-! ## Failures -/

/-- A predicate meets a fault at the given features, which is a failure of a node. -/
inductive Predicate.Meets [Engine] (node : String) (features : Table Value)
    (predicate : Predicate) : Failure → Prop
  | intro {value : Value} {fault : Comparison.Fault}
      (present : features.get? predicate.feature = some value)
      (faulty : predicate.evaluate value = .error fault) :
      Meets node features predicate (.ofFault node predicate.feature fault)

/-- Why a node fails at the given features. -/
inductive Node.Cause [Engine] (node : Node) (features : Table Value) : Failure → Prop
  /-- There are no features at all. -/
  | empty (none_given : features.size = 0) : Cause node features (.emptyFeatures node.id)
  /-- The feature of a predicate is absent. -/
  | missing {predicate : Predicate} (member : predicate ∈ node.predicates)
      (absent : features.get? predicate.feature = none) :
      Cause node features (.missingFeature node.id predicate.feature)
  /-- A predicate meets a fault. -/
  | faulty {predicate : Predicate} {failure : Failure} (member : predicate ∈ node.predicates)
      (meets : predicate.Meets node.id features failure) : Cause node features failure

section

variable {node : String} {features : Table Value} {failure : Failure}

theorem Predicate.meets_of_judge [Engine] {predicate : Predicate} {value : Value}
    (present : features.get? predicate.feature = some value)
    (failed : predicate.judge node value = .error failure) :
    predicate.Meets node features failure := by
  obtain ⟨fault, faulty, rfl⟩ := mapError_eq_error.mp failed
  exact ⟨present, faulty⟩

theorem get?_of_mem_zip {conditions : List Predicate} {values : List Value}
    (present : presentValues? features conditions = some values) {predicate : Predicate}
    {value : Value} (member : (predicate, value) ∈ conditions.zip values) :
    features.get? predicate.feature = some value := by
  induction conditions generalizing values with
  | nil => nomatch member
  | cons condition conditions induction =>
      rw [presentValues?, List.mapM_cons, Option.bind_eq_bind, Option.bind_eq_some_iff] at present
      obtain ⟨first, found, rest⟩ := present
      obtain ⟨others, others_found, equal⟩ := Option.bind_eq_some_iff.mp rest
      cases equal
      rw [List.zip_cons_cons, List.mem_cons] at member
      rcases member with equal | later
      · cases equal
        exact found
      · exact induction others_found later

variable [Engine]

theorem Rule.exists_meets_of_hits {rule : Rule}
    (failed : rule.hits node features = .error failure) :
    ∃ predicate ∈ rule.conditions, predicate.Meets node features failure := by
  rw [Rule.hits] at failed
  split at failed
  · nomatch failed
  · next values present =>
      rcases bind_eq_error.mp failed with row_failed | ⟨_, _, impossible⟩
      · obtain ⟨⟨predicate, value⟩, member, judged⟩ := exists_of_mapM_eq_error row_failed
        exact ⟨predicate, (List.of_mem_zip member).1,
          predicate.meets_of_judge (get?_of_mem_zip present member) judged⟩
      · nomatch impossible

theorem exists_meets_of_freeHits {rules : List Rule}
    (failed : freeHits node features rules = .error failure) :
    ∃ predicate ∈ rules.flatMap Rule.conditions, predicate.Meets node features failure := by
  induction rules with
  | nil => nomatch failed
  | cons rule rules induction =>
      rw [freeHits_cons, bind_eq_error] at failed
      simp only [List.flatMap_cons, List.mem_append]
      rcases failed with first | ⟨hit, -, rest⟩
      · obtain ⟨predicate, member, meets⟩ := Rule.exists_meets_of_hits first
        exact ⟨predicate, Or.inl member, meets⟩
      · rcases bind_eq_error.mp rest with later | ⟨_, _, impossible⟩
        · obtain ⟨predicate, member, meets⟩ := induction later
          exact ⟨predicate, Or.inr member, meets⟩
        · nomatch impossible

theorem exists_meets_of_sumScores {total : Binary64} {items : List ScoreItem}
    (failed : sumScores node features total items = .error failure) :
    ∃ predicate ∈ items.map ScoreItem.predicate, predicate.Meets node features failure := by
  induction items generalizing total with
  | nil => nomatch failed
  | cons item items induction =>
      have among : ∀ {total}, sumScores node features total items = .error failure →
          ∃ predicate ∈ (item :: items).map ScoreItem.predicate,
            predicate.Meets node features failure := by
        intro total later
        obtain ⟨predicate, member, meets⟩ := induction later
        exact ⟨predicate, List.mem_cons_of_mem _ member, meets⟩
      rw [sumScores] at failed
      split at failed
      · exact among failed
      · next value present =>
          rcases bind_eq_error.mp failed with judged | ⟨holds, -, rest⟩
          · exact ⟨item.predicate, List.mem_cons_self,
              item.predicate.meets_of_judge present judged⟩
          · exact among rest

end

namespace Node

variable [Engine] {node : Node} {walk left : Walk} {outcome : Outcome} {failure : Failure}

/-- The request is found called off before a rule of the node. -/
structure Stopped (node : Node) (walk : Walk) (failure : Failure) : Prop where
  failure_eq : failure = .cancelled node.id
  stops : ∃ rule, walk.stopsAt (.trying node.id rule) = true

theorem Cause.raisedBy {features : Table Value} (cause : node.Cause features failure) :
    failure.RaisedBy node.id := by
  cases cause with
  | empty | missing => exact ⟨trivial, rfl⟩
  | faulty _ meets =>
      cases meets
      exact Failure.raisedBy_ofFault _ _ _

theorem Cause.failed_eq {features : Table Value} (cause : node.Cause features failure)
    (walk : Walk) : walk.failed failure = walk := by
  cases cause with
  | empty | missing => rfl
  | faulty _ meets =>
      cases meets with
      | @intro _ fault => rcases fault with (_ | _) | _ | _ | _ <;> rfl

theorem Cause.ne_cancelled {features : Table Value} (cause : node.Cause features failure)
    (id : String) : failure ≠ .cancelled id := by
  rintro rfl
  nomatch congrArg Walk.cancelled (cause.failed_eq { features })

theorem cause_of_check (failed : node.check walk = .error failure) :
    node.Cause walk.features failure := by
  unfold check at failed
  split at failed
  · split at failed
    · next none_given =>
        cases failed
        exact .empty none_given
    · nomatch failed
  · nomatch failed
  · next predicate task_eq =>
      split at failed
      · next absent =>
          cases failed
          exact .missing (by simp [predicates, task_eq]) (Option.isNone_iff_eq_none.mp absent)
      · nomatch failed
  · next ruleset task_eq =>
      split at failed
      · split at failed
        · next predicate found =>
            cases failed
            have member := List.mem_of_find?_eq_some found
            have absent := List.find?_some found
            exact .missing (by rwa [predicates, task_eq]) (Option.isNone_iff_eq_none.mp absent)
        · nomatch failed
      · nomatch failed
  · nomatch failed

/-- A task that fails leaves the walk as it was, but for having been called off. -/
theorem perform_error (failed : node.perform walk = (.error failure, left)) :
    left = walk.failed failure ∧
      (node.Cause walk.features failure ∨ node.Stopped walk failure) := by
  unfold perform at failed
  split at failed
  · nomatch failed
  · nomatch failed
  · next predicate task_eq =>
      have member : predicate ∈ node.predicates := by simp [predicates, task_eq]
      unfold branch at failed
      split at failed
      · next absent =>
          cases failed
          exact ⟨rfl, .inl (.missing member absent)⟩
      · next present =>
          split at failed
          · next judged =>
              cases failed
              have cause := Cause.faulty member (predicate.meets_of_judge present judged)
              exact ⟨(cause.failed_eq walk).symm, .inl cause⟩
          · nomatch failed
  · next ruleset task_eq =>
      unfold tryRules at failed
      split at failed
      · next tried =>
          cases failed
          refine ⟨rfl, ?_⟩
          rcases freeHits_of_hitRules_eq_error tried with ⟨failure_eq, stops⟩ | failed
          · exact .inr ⟨failure_eq, stops⟩
          · obtain ⟨predicate, member, meets⟩ := exists_meets_of_freeHits failed
            exact .inl (.faulty (by rwa [predicates, task_eq]) meets)
      · nomatch failed
  · next scorecard task_eq =>
      unfold score at failed
      split at failed
      · next summed =>
          cases failed
          obtain ⟨predicate, member, meets⟩ := exists_meets_of_sumScores summed
          have cause := Cause.faulty (by rwa [predicates, task_eq]) meets
          exact ⟨(cause.failed_eq walk).symm, .inl cause⟩
      · nomatch failed

/-! ## Success -/

/-- A task that succeeds adds a step to the trace and may change the features. -/
theorem performs_of_perform (checked : node.check walk = .ok ())
    (succeeded : node.perform walk = (.ok outcome, left)) :
    ∃ step features, node.Performs walk.features outcome step features ∧
      left = { walk with trace := walk.trace ++ [step], features } := by
  unfold perform at succeeded
  split at succeeded
  · next task_eq =>
      cases succeeded
      refine ⟨_, _, .start task_eq ?_, rfl⟩
      intro empty
      rw [check, task_eq] at checked
      simp [empty] at checked
  · next task_eq =>
      cases succeeded
      exact ⟨_, _, .finish task_eq, rfl⟩
  · next predicate task_eq =>
      unfold branch at succeeded
      split at succeeded
      · nomatch succeeded
      · next value present =>
          split at succeeded
          · nomatch succeeded
          · next holds judged =>
              cases succeeded
              exact ⟨_, _, .condition task_eq present (mapError_eq_ok.mp judged), rfl⟩
  · next ruleset task_eq =>
      unfold tryRules at succeeded
      split at succeeded
      · nomatch succeeded
      · next rules hit =>
          cases succeeded
          refine ⟨_, _, .ruleset task_eq ?_ (freeHits_of_hitRules_eq_ok hit), rfl⟩
          intro strict
          rw [check, task_eq] at checked
          simp only [strict, if_true] at checked
          split at checked
          · nomatch checked
          · assumption
  · next scorecard task_eq =>
      unfold score at succeeded
      split at succeeded
      · nomatch succeeded
      · next total summed =>
          cases succeeded
          exact ⟨_, _, .scorecard task_eq summed, rfl⟩

theorem settle_eq {step : TraceStep} {features derived : Table Value}
    (performed : node.Performs features outcome step derived) (walk : Walk) :
    node.settle outcome walk = walk.addHits outcome.hits := by
  cases performed with
  | ruleset task_eq => rw [settle, task_eq]
  | start task_eq | finish task_eq | condition task_eq | scorecard task_eq =>
      simp [settle, task_eq, Walk.addHits, pass]

end Node

/-! ## Visits -/

/-- A node raises a failure at a walk that has entered it, in its check or in its task. -/
def Node.Fails [Engine] (node : Node) (walk : Walk) (failure : Failure) : Prop :=
  node.check walk = .error failure ∨
    node.check walk = .ok () ∧ (node.perform walk).1 = .error failure

theorem Node.Fails.cause_or_stopped [Engine] {node : Node} {walk : Walk} {failure : Failure}
    (fails : node.Fails walk failure) :
    node.Cause walk.features failure ∨ node.Stopped walk failure := by
  rcases fails with unchecked | ⟨-, failed⟩
  · exact .inl (cause_of_check unchecked)
  · exact (perform_error (Prod.ext failed rfl)).2

theorem Node.Fails.raisedBy [Engine] {node : Node} {walk : Walk} {failure : Failure}
    (fails : node.Fails walk failure) : failure.RaisedBy node.id := by
  rcases fails.cause_or_stopped with cause | ⟨rfl, -⟩
  · exact cause.raisedBy
  · exact ⟨trivial, rfl⟩

theorem Node.Fails.raised [Engine] {node : Node} {walk : Walk} {failure : Failure}
    (fails : node.Fails walk failure) : failure.Raised :=
  fails.raisedBy.raised

theorem Walk.enter_eq {walk : Walk} {id : String} (fresh : id ∉ walk.visited) :
    walk.enter id =
      { walk with
        trail := walk.trail ++ [id], visited := id :: walk.visited, current := some id } := by
  simp [enter, hasVisited, fresh]

theorem Walk.stopsAt_enter (walk : Walk) (id : String) :
    (walk.enter id).stopsAt = walk.stopsAt := by
  unfold enter
  split <;> rfl

/-- The entries of two walks are the same. -/
structure Walk.SameEntries (walk left : Walk) : Prop where
  trail_eq : left.trail = walk.trail
  visited_eq : left.visited = walk.visited
  current_eq : left.current = walk.current

theorem Walk.sameEntries_failed (walk : Walk) (failure : Failure) :
    walk.SameEntries (walk.failed failure) := by
  cases failure <;> exact ⟨rfl, rfl, rfl⟩

variable [Engine]

namespace Node

variable {node : Node} {walk left : Walk} {outcome : Outcome} {failure : Failure}

/-- A visit that succeeds is the first one of its node and appends what the task comes to. -/
theorem visit_eq_ok (succeeded : node.visit walk = (.ok outcome, left)) :
    walk.stopsAt (.entering node.id) = false ∧ node.id ∉ walk.visited ∧
      ∃ step features, node.Performs walk.features outcome step features ∧
        left = walk.past node outcome step features := by
  simp only [visit, Walk.hasVisited, List.contains_iff_mem] at succeeded
  split at succeeded
  · nomatch succeeded
  · next live =>
      split at succeeded
      · nomatch succeeded
      · next fresh =>
          split at succeeded
          · nomatch succeeded
          · next checked =>
              split at succeeded
              · nomatch succeeded
              · next performed =>
                  obtain ⟨step, features, performs, rfl⟩ := performs_of_perform checked performed
                  split at succeeded
                  · nomatch succeeded
                  · cases succeeded
                    rw [Walk.enter_eq fresh] at performs
                    refine ⟨by simpa using live, fresh, step, features, performs, ?_⟩
                    rw [settle_eq performs, Walk.enter_eq fresh]
                    rfl

/-- How a visit fails, and the walk that it leaves. -/
inductive Breaks (node : Node) (walk : Walk) : Failure → Walk → Prop
  /-- The walk is found called off. -/
  | calledOff (off : walk.stopsAt (.entering node.id) = true) :
      Breaks node walk (.cancelled node.id) walk.cancel
  /-- It has entered the node before. -/
  | revisited (going : walk.stopsAt (.entering node.id) = false) (before : node.id ∈ walk.visited) :
      Breaks node walk (.revisited node.id) walk
  /-- The node fails in its check or in its task. -/
  | fails {failure : Failure} (going : walk.stopsAt (.entering node.id) = false)
      (fresh : node.id ∉ walk.visited) (fails : node.Fails (walk.enter node.id) failure) :
      Breaks node walk failure ((walk.enter node.id).failed failure)
  /-- The task is done, but the walk is found called off behind it. -/
  | overtaken {outcome : Outcome} {step : TraceStep} {features : Table Value}
      (going : walk.stopsAt (.entering node.id) = false) (fresh : node.id ∉ walk.visited)
      (performs : node.Performs walk.features outcome step features)
      (off : walk.stopsAt (.leaving node.id) = true) :
      Breaks node walk (.cancelled node.id)
        { walk with
          features, trail := walk.trail ++ [node.id], visited := node.id :: walk.visited
          current := some node.id, trace := walk.trace ++ [step], cancelled := true }

theorem breaks_of_visit (failed : node.visit walk = (.error failure, left)) :
    node.Breaks walk failure left := by
  simp only [visit, Walk.hasVisited, List.contains_iff_mem] at failed
  split at failed
  · next off =>
      cases failed
      exact .calledOff off
  · next live =>
      rw [Bool.not_eq_true] at live
      split at failed
      · next before =>
          cases failed
          exact .revisited live before
      · next fresh =>
          split at failed
          · next unchecked =>
              cases failed
              have fails := Breaks.fails live fresh (.inl unchecked)
              rwa [(cause_of_check unchecked).failed_eq] at fails
          · next checked =>
              split at failed
              · next performed =>
                  cases failed
                  obtain ⟨rfl, -⟩ := perform_error performed
                  exact .fails live fresh (.inr ⟨checked, congrArg Prod.fst performed⟩)
              · next performed =>
                  obtain ⟨step, features, performs, rfl⟩ := performs_of_perform checked performed
                  split at failed
                  · next off =>
                      cases failed
                      rw [Walk.enter_eq fresh] at performs off ⊢
                      exact .overtaken live fresh performs off
                  · nomatch failed

/-- What has been entered before a visit has been entered after it. -/
theorem mem_visited_visit {id : String} (before : id ∈ walk.visited) :
    id ∈ (node.visit walk).2.visited := by
  rcases visited : node.visit walk with ⟨failure | outcome, left⟩
  · cases breaks_of_visit visited with
    | calledOff | revisited => exact before
    | fails _ fresh =>
        rw [(Walk.sameEntries_failed _ _).visited_eq, Walk.enter_eq fresh]
        exact List.mem_cons_of_mem _ before
    | overtaken => exact List.mem_cons_of_mem _ before
  · obtain ⟨-, -, step, features, -, rfl⟩ := visit_eq_ok visited
    exact List.mem_cons_of_mem _ before

theorem exists_performs_of_visit (came_to : (node.visit walk).1 = .ok outcome) :
    ∃ step features, node.Performs walk.features outcome step features := by
  obtain ⟨-, -, step, features, performs, -⟩ := visit_eq_ok (Prod.ext came_to rfl)
  exact ⟨step, features, performs⟩

end Node
end RiskGraph

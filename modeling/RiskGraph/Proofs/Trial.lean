import RiskGraph.Proofs.Settings
import RiskGraph.Proofs.Visit

/-!
# What a ruleset comes to

A rule is complete if all features that its conditions ask for are present.  All conditions of the
complete rules are evaluated, whatever the ones before them come to, and the first that fails makes
the ruleset fail.  If none does, the rules that hit are read off what the conditions find.
-/

namespace RiskGraph

/-! ## Complete rules -/

/-- The feature of a condition is present. -/
def Predicate.Present (features : Table Value) (predicate : Predicate) : Prop :=
  (features.get? predicate.feature).isSome = true

/-- All features that a rule asks for are present. -/
def Rule.Complete (features : Table Value) (rule : Rule) : Prop :=
  ∀ condition ∈ rule.conditions, condition.Present features

section

variable (features : Table Value)

instance (predicate : Predicate) : Decidable (predicate.Present features) :=
  inferInstanceAs (Decidable ((features.get? predicate.feature).isSome = true))

instance (rule : Rule) : Decidable (rule.Complete features) :=
  inferInstanceAs (Decidable (∀ condition ∈ rule.conditions, condition.Present features))

/-- The conditions of the complete rules, rule by rule. -/
def triedConditions (rules : List Rule) : List Predicate :=
  (rules.filter fun rule => rule.Complete features).flatMap Rule.conditions

end

section

variable {features : Table Value} {predicate : Predicate} {rule : Rule}
  {conditions : List Predicate} {rules : List Rule}

theorem exists_presentValues?_iff :
    (∃ values, presentValues? features conditions = some values) ↔
      ∀ condition ∈ conditions, condition.Present features := by
  induction conditions with
  | nil => simp [presentValues?]
  | cons condition conditions induction =>
      rw [List.forall_mem_cons, ← induction, Predicate.Present, Option.isSome_iff_exists]
      simp only [presentValues?, List.mapM_cons]
      cases features.get? condition.feature with
      | none => simp
      | some value =>
          cases conditions.mapM fun predicate => features.get? predicate.feature <;> simp

theorem triedConditions_cons :
    triedConditions features (rule :: rules) =
      if rule.Complete features then rule.conditions ++ triedConditions features rules
      else triedConditions features rules := by
  simp only [triedConditions, List.filter_cons, decide_eq_true_eq]
  split
  · rw [List.flatMap_cons]
  · rfl

theorem mem_triedConditions_iff :
    predicate ∈ triedConditions features rules ↔
      ∃ rule ∈ rules, rule.Complete features ∧ predicate ∈ rule.conditions := by
  simp only [triedConditions, List.mem_flatMap, List.mem_filter, decide_eq_true_eq, and_assoc]

/-- The first condition with an absent feature is found. -/
theorem firstAbsent?_eq_some_iff {condition : Predicate} :
    firstAbsent? features conditions = some condition ↔
      FirstLacking (Predicate.Present features) conditions condition := by
  rw [firstAbsent?, find?_eq_some_iff_firstLacking]
  simp only [Option.isNone_eq_false_iff]
  rfl

end

/-- Truth values that say which items have a property say whether all or some do. -/
theorem forall_mem_and_exists_mem_iff {α : Type} {Holds : α → Prop} {items : List α}
    {outcomes : List Bool}
    (row : List.Forall₂ (fun item outcome => Holds item ↔ outcome = true) items outcomes) :
    ((∀ item ∈ items, Holds item) ↔ outcomes.all id = true) ∧
      ((∃ item ∈ items, Holds item) ↔ outcomes.any id = true) := by
  induction row with
  | nil => simp
  | cons first _ induction => simp [first, induction]

/-! ## Reports -/

/-- An outcome reports the rules that hit: their names, and the verdict of the first that blocks. -/
structure Outcome.Reports (outcome : Outcome) (node : Node) (rules : List Rule) : Prop where
  hits_eq : outcome.hits = rules.map Rule.name
  blocks_iff : outcome.blocks = true ↔ ∃ rule ∈ rules, rule.verdict.blocks = true
  blocked : outcome.blocks = true →
    ∃ rule, FirstLacking (fun rule => rule.verdict.blocks = false) rules rule ∧
      outcome.tag = rule.verdict.tag ∧ outcome.label = rule.verdict.label
  passed : outcome.blocks = false →
    outcome.tag = node.identity.tag ∧ outcome.label = node.identity.label

theorem Node.reports_ruled (node : Node) (rules : List Rule) :
    (node.ruled rules).Reports node rules := by
  constructor
  case hits_eq => exact node.hits_ruled rules
  case blocks_iff => rw [Node.blocks_ruled, List.find?_isSome]
  case blocked =>
    intro blocks
    rw [Node.blocks_ruled, Option.isSome_iff_exists] at blocks
    obtain ⟨rule, found⟩ := blocks
    refine ⟨rule, find?_eq_some_iff_firstLacking.mp found, ?_⟩
    rw [ruled, found]
    exact ⟨rfl, rfl⟩
  case passed =>
    intro passes
    rw [Node.blocks_ruled, Option.isSome_eq_false_iff, Option.isNone_iff_eq_none] at passes
    rw [ruled, passes]
    exact ⟨rfl, rfl⟩

/-! ## Preparation -/

section

variable [Engine]

namespace Predicate

variable {predicate prepared : Predicate}

/-- A predicate with the pattern that its threshold writes, if it asks for one. -/
def primed (predicate : Predicate) : Predicate :=
  if predicate.operator = .like then
    { predicate with pattern := (Comparison.patternOf predicate.threshold).toOption }
  else predicate

@[simp]
theorem feature_primed : predicate.primed.feature = predicate.feature := by
  unfold primed
  split <;> rfl

@[simp]
theorem operator_primed : predicate.primed.operator = predicate.operator := by
  unfold primed
  split <;> rfl

@[simp]
theorem threshold_primed : predicate.primed.threshold = predicate.threshold := by
  unfold primed
  split <;> rfl

theorem eq_primed_of_prepare (checked : predicate.prepare = .ok prepared) :
    prepared = predicate.primed := by
  have read := withPattern_eq_ok.mp (prepare_eq_ok.mp checked).2.2
  unfold primed
  split at read
  · next like =>
      obtain ⟨pattern, written, rfl⟩ := read
      rw [if_pos like, written]
      rfl
  · next other => rw [if_neg other, read]

/-- A predicate that passes its checks compares as its operator does. -/
theorem Sound.evaluate_primed (sound : predicate.Sound) (value : Value) :
    predicate.primed.evaluate value =
      Comparison.apply predicate.operator value predicate.threshold := by
  obtain ⟨prepared, checked⟩ := exists_prepare_eq_ok.mpr sound
  have ready := ready_of_prepare checked
  rw [eq_primed_of_prepare checked] at ready
  rw [ready.evaluate_eq, operator_primed, threshold_primed]

end Predicate

/-- A rule with the patterns of its conditions. -/
def Rule.primed (rule : Rule) : Rule :=
  { rule with conditions := rule.conditions.map Predicate.primed }

theorem Rule.eq_primed_of_prepare {rule prepared : Rule} (checked : rule.prepare = .ok prepared) :
    prepared = rule.primed := by
  unfold prepare at checked
  split at checked
  · cases checked
  · obtain ⟨conditions, row, equal⟩ := bind_eq_ok.mp checked
    cases equal
    rw [eq_map_of_mapM_eq_ok Predicate.eq_primed_of_prepare row]
    rfl

theorem Ruleset.eq_primed_of_prepare {ruleset prepared : Ruleset}
    (checked : ruleset.prepare = .ok prepared) :
    prepared = { ruleset with rules := ruleset.rules.map Rule.primed } := by
  unfold prepare at checked
  split at checked
  · cases checked
  · obtain ⟨rules, row, equal⟩ := bind_eq_ok.mp checked
    cases equal
    rw [eq_map_of_mapM_eq_ok Rule.eq_primed_of_prepare row]

/-! ## Findings -/

/-- What a condition finds at the features; nothing if its own is absent. -/
def Predicate.finding? (predicate : Predicate) (features : Table Value) :
    Option (Comparison.Result Bool) :=
  (features.get? predicate.feature).map fun value =>
    Comparison.apply predicate.operator value predicate.threshold

/-- A condition holds on its feature, which is present. -/
def Predicate.Holds (features : Table Value) (predicate : Predicate) : Prop :=
  predicate.finding? features = some (.ok true)

/-- A condition cannot be evaluated on its feature, which is present. -/
def Predicate.Faulty (features : Table Value) (predicate : Predicate) : Prop :=
  ∃ fault, predicate.finding? features = some (.error fault)

/-- A rule that is complete hits as its conditions hold. -/
structure Rule.Hits (features : Table Value) (rule : Rule) : Prop where
  complete : rule.Complete features
  all_hold : rule.combination = .all → ∀ condition ∈ rule.conditions, condition.Holds features
  one_holds : rule.combination = .any → ∃ condition ∈ rule.conditions, condition.Holds features

section

variable (features : Table Value)

instance (predicate : Predicate) : Decidable (predicate.Holds features) :=
  inferInstanceAs (Decidable (predicate.finding? features = some (.ok true)))

instance (rule : Rule) : Decidable (rule.Hits features) :=
  decidable_of_iff
    (rule.Complete features ∧
      (rule.combination = .all → ∀ condition ∈ rule.conditions, condition.Holds features) ∧
        (rule.combination = .any → ∃ condition ∈ rule.conditions, condition.Holds features))
    ⟨fun ⟨complete, all_hold, one_holds⟩ => ⟨complete, all_hold, one_holds⟩,
      fun hits => ⟨hits.complete, hits.all_hold, hits.one_holds⟩⟩

/-- The rules that hit, in their order. -/
def hitting (rules : List Rule) : List Rule :=
  rules.filter fun rule => rule.Hits features

end

/-! ## Evaluation -/

/-- What a condition comes to at a node, a fault being a failure of the node; an absent feature is
no failure. -/
def Predicate.assess (node : String) (features : Table Value) (predicate : Predicate) :
    Except Failure Bool :=
  ((predicate.finding? features).getD (.ok false)).mapError
    (Failure.ofFault node predicate.feature)

section

variable {node : String} {features : Table Value} {predicate : Predicate} {rule : Rule}
  {conditions : List Predicate} {rules : List Rule} {failure : Failure}

theorem Predicate.assess_eq_ok_true_iff :
    predicate.assess node features = .ok true ↔ predicate.Holds features := by
  rw [assess, Holds, mapError_eq_ok]
  cases predicate.finding? features <;> simp

theorem Predicate.assess_eq_error_iff :
    predicate.assess node features = .error failure ↔
      ∃ fault, predicate.finding? features = some (.error fault) ∧
        failure = .ofFault node predicate.feature fault := by
  rw [assess, mapError_eq_error]
  cases predicate.finding? features <;> simp [eq_comm]

theorem Predicate.exists_assess_eq_ok_iff :
    (∃ holds, predicate.assess node features = .ok holds) ↔ ¬predicate.Faulty features := by
  rw [Faulty]
  cases assessed : predicate.assess node features with
  | ok holds =>
      refine iff_of_true ⟨holds, rfl⟩ fun ⟨fault, found⟩ => ?_
      cases assessed.symm.trans (assess_eq_error_iff.mpr ⟨fault, found, rfl⟩)
  | error failure =>
      obtain ⟨fault, found, -⟩ := assess_eq_error_iff.mp assessed
      exact iff_of_false (by simp) fun sane => sane ⟨fault, found⟩

/-- Conditions whose features are present are evaluated one after the other. -/
theorem mapM_judge_primed (sound : ∀ condition ∈ conditions, condition.Sound)
    {values : List Value}
    (present : presentValues? features (conditions.map Predicate.primed) = some values) :
    (((conditions.map Predicate.primed).zip values).mapM fun pair => pair.1.judge node pair.2) =
      conditions.mapM (Predicate.assess node features) := by
  induction conditions generalizing values with
  | nil => rfl
  | cons condition conditions induction =>
      rw [List.map_cons, presentValues?, List.mapM_cons, Option.bind_eq_bind,
        Option.bind_eq_some_iff] at present
      obtain ⟨value, found, rest⟩ := present
      obtain ⟨others, others_found, equal⟩ := Option.bind_eq_some_iff.mp rest
      cases equal
      rw [List.forall_mem_cons] at sound
      have first : condition.primed.judge node value = condition.assess node features := by
        rw [Predicate.feature_primed] at found
        rw [Predicate.judge, sound.1.evaluate_primed, Predicate.feature_primed, Predicate.assess,
          Predicate.finding?, found]
        rfl
      rw [List.map_cons, List.zip_cons_cons, List.mapM_cons, List.mapM_cons,
        induction sound.2 others_found, first]

/-- A rule with conditions does not hit without one that holds. -/
theorem Rule.Hits.exists_holds (hits : rule.Hits features) (filled : rule.conditions ≠ []) :
    ∃ condition ∈ rule.conditions, condition.Holds features := by
  cases combination_eq : rule.combination with
  | all =>
      obtain ⟨condition, member⟩ := List.exists_mem_of_ne_nil _ filled
      exact ⟨condition, member, hits.all_hold combination_eq condition member⟩
  | any => exact hits.one_holds combination_eq

theorem Rule.complete_primed_iff :
    (∃ values, presentValues? features rule.primed.conditions = some values) ↔
      rule.Complete features := by
  rw [exists_presentValues?_iff, primed, List.forall_mem_map, Complete]
  simp only [Predicate.Present, Predicate.feature_primed]

/-- The truth values of the conditions of a complete rule make it hit as the conditions hold. -/
theorem Rule.holds_eq (complete : rule.Complete features) {outcomes : List Bool}
    (assessed : rule.conditions.mapM (Predicate.assess node features) = .ok outcomes) :
    rule.combination.holds outcomes = decide (rule.Hits features) := by
  have row : List.Forall₂ (fun condition outcome => condition.Holds features ↔ outcome = true)
      rule.conditions outcomes := by
    refine (mapM_eq_ok.mp assessed).imp fun condition outcome said => ?_
    rw [← @Predicate.assess_eq_ok_true_iff _ node, said, Except.ok.injEq]
  obtain ⟨all_iff, any_iff⟩ := forall_mem_and_exists_mem_iff row
  rw [Bool.eq_iff_iff, decide_eq_true_iff]
  constructor
  · intro holds
    cases combination_eq : rule.combination with
    | all =>
        rw [combination_eq] at holds
        refine ⟨complete, fun _ => all_iff.mpr holds, fun any => ?_⟩
        cases combination_eq.symm.trans any
    | any =>
        rw [combination_eq] at holds
        refine ⟨complete, fun all => ?_, fun _ => any_iff.mpr holds⟩
        cases combination_eq.symm.trans all
  · intro hits
    cases combination_eq : rule.combination with
    | all => exact all_iff.mp (hits.all_hold combination_eq)
    | any => exact any_iff.mp (hits.one_holds combination_eq)

/-- A complete rule evaluates all its conditions. -/
theorem Rule.hits_primed (sound : ∀ condition ∈ rule.conditions, condition.Sound)
    (complete : rule.Complete features) :
    rule.primed.hits node features =
      (rule.conditions.mapM (Predicate.assess node features)).map
        fun _ => decide (rule.Hits features) := by
  obtain ⟨values, present⟩ := complete_primed_iff.mpr complete
  have evaluated : rule.primed.hits node features =
      ((rule.conditions.map Predicate.primed).zip values).mapM
        (fun pair => pair.1.judge node pair.2) >>= fun outcomes =>
          .ok (rule.combination.holds outcomes) := by
    rw [hits, present]
    rfl
  rw [evaluated, mapM_judge_primed sound present, ← bind_ok_eq_map]
  exact bind_congr_of_ok fun outcomes assessed => congrArg _ (holds_eq complete assessed)

theorem Rule.hits_primed_of_incomplete (incomplete : ¬rule.Complete features) :
    rule.primed.hits node features = .ok false := by
  rw [← complete_primed_iff, ← Option.isSome_iff_exists, Bool.not_eq_true,
    Option.isSome_eq_false_iff, Option.isNone_iff_eq_none] at incomplete
  rw [hits, incomplete]

theorem hitting_cons :
    hitting features (rule :: rules) =
      if rule.Hits features then rule :: hitting features rules else hitting features rules := by
  simp only [hitting, List.filter_cons, decide_eq_true_eq]

/-- Evaluation along a row fails as its first condition that does. -/
theorem mapM_assess_eq_error_iff :
    conditions.mapM (Predicate.assess node features) = .error failure ↔
      ∃ condition fault,
        FirstLacking (fun condition => ¬condition.Faulty features) conditions condition ∧
          condition.finding? features = some (.error fault) ∧
            failure = .ofFault node condition.feature fault := by
  simp only [mapM_eq_error, Predicate.exists_assess_eq_ok_iff, Predicate.assess_eq_error_iff,
    exists_and_left]

theorem exists_mapM_assess_eq_error_iff :
    (∃ failure, conditions.mapM (Predicate.assess node features) = .error failure) ↔
      ∃ condition ∈ conditions, condition.Faulty features := by
  rw [exists_eq_error_iff, ← not_exists, exists_mapM_eq_ok]
  simp only [Predicate.exists_assess_eq_ok_iff, not_forall, not_not, exists_prop]

/-- The complete rules evaluate all their conditions; unless one fails, the rules that hit are
found. -/
theorem freeHits_primed
    (sound : ∀ rule ∈ rules, ∀ condition ∈ rule.conditions, condition.Sound) :
    freeHits node features (rules.map Rule.primed) =
      ((triedConditions features rules).mapM (Predicate.assess node features)).map
        fun _ => (hitting features rules).map Rule.primed := by
  induction rules with
  | nil => rfl
  | cons rule rules induction =>
      rw [List.forall_mem_cons] at sound
      rw [List.map_cons, freeHits_cons, induction sound.2, hitting_cons, triedConditions_cons]
      by_cases complete : rule.Complete features
      · -- its conditions stand before those of the other rules, and so do its failures
        rw [Rule.hits_primed sound.1 complete, if_pos complete, List.mapM_append]
        cases rule.conditions.mapM (Predicate.assess node features) with
        | error => rfl
        | ok =>
            cases (triedConditions features rules).mapM (Predicate.assess node features) with
            | error => rfl
            | ok =>
                by_cases hits : rule.Hits features
                · rw [if_pos hits, decide_eq_true hits]
                  rfl
                · rw [if_neg hits, decide_eq_false hits]
                  rfl
      · -- it is passed over: it has no conditions to try, and it does not hit
        have misses : ¬rule.Hits features := fun hits => complete hits.complete
        rw [Rule.hits_primed_of_incomplete complete, if_neg complete, if_neg misses]
        cases (triedConditions features rules).mapM (Predicate.assess node features) <;> rfl

end

/-! ## Nodes -/

theorem Node.ruled_primed (node : Node) (rules : List Rule) :
    node.ruled (rules.map Rule.primed) = node.ruled rules := by
  have names : (rules.map Rule.primed).map Rule.name = rules.map Rule.name := by
    rw [List.map_map]
    rfl
  have found : (rules.map Rule.primed).find? (fun rule => rule.verdict.blocks) =
      (rules.find? fun rule => rule.verdict.blocks).map Rule.primed := by
    rw [List.find?_map]
    rfl
  rw [ruled, ruled, names, found]
  cases rules.find? fun rule => rule.verdict.blocks <;> rfl

/-- How a node with a ruleset checks and performs its task at a walk. -/
structure Node.AppliesRules (node : Node) (ruleset : Ruleset) (walk : Walk) : Prop where
  /-- The task fails exactly if some condition of a complete rule does. -/
  fails_iff : (∃ failure, (node.perform walk).1 = .error failure) ↔
    ∃ rule ∈ ruleset.rules, rule.Complete walk.features ∧
      ∃ condition ∈ rule.conditions, condition.Faulty walk.features
  /-- The failure is that of the first condition that fails, the complete rules taken in order. -/
  failure_iff : ∀ failure, (node.perform walk).1 = .error failure ↔
    ∃ condition fault,
      FirstLacking (fun condition => ¬condition.Faulty walk.features)
          (triedConditions walk.features ruleset.rules) condition ∧
        condition.finding? walk.features = some (.error fault) ∧
          failure = .ofFault node.id condition.feature fault
  reports : ∀ outcome, (node.perform walk).1 = .ok outcome →
    outcome.Reports node (hitting walk.features ruleset.rules)
  /-- No rule hits without a condition that holds. -/
  hits_hold : ∀ rule ∈ hitting walk.features ruleset.rules,
    ∃ condition ∈ rule.conditions, condition.Holds walk.features
  /-- Only a strict ruleset asks for its features, and names the first absent one. -/
  check_iff : ∀ failure, node.check walk = .error failure ↔
    ruleset.strict = true ∧
      ∃ condition, FirstLacking (Predicate.Present walk.features) ruleset.conditions condition ∧
        failure = .missingFeature node.id condition.feature

section

variable {node : Node} {raw ruleset : Ruleset} {walk : Walk}

theorem Node.perform_ruleset (checked : raw.prepare = .ok ruleset)
    (task_eq : node.task = .ruleset ruleset)
    (going : ∀ number, walk.stopsAt (.trying node.id number) = false) :
    (node.perform walk).1 =
      ((triedConditions walk.features raw.rules).mapM
          (Predicate.assess node.id walk.features)).map
        fun _ => node.ruled (hitting walk.features raw.rules) := by
  have sound := (Ruleset.exists_prepare_eq_ok.mp ⟨ruleset, checked⟩).conditions_sound
  have rules_eq : ruleset.rules = raw.rules.map Rule.primed := by
    rw [Ruleset.eq_primed_of_prepare checked]
  simp only [perform, task_eq, tryRules, hitRules_eq_freeHits going, rules_eq,
    freeHits_primed sound]
  cases (triedConditions walk.features raw.rules).mapM (Predicate.assess node.id walk.features) with
  | error => rfl
  | ok => exact congrArg Except.ok (node.ruled_primed _)

theorem Node.check_ruleset (checked : raw.prepare = .ok ruleset)
    (task_eq : node.task = .ruleset ruleset) {failure : Failure} :
    node.check walk = .error failure ↔
      raw.strict = true ∧
        ∃ condition, FirstLacking (Predicate.Present walk.features) raw.conditions condition ∧
          failure = .missingFeature node.id condition.feature := by
  have conditions_eq : ruleset.conditions = raw.conditions.map Predicate.primed := by
    rw [Ruleset.eq_primed_of_prepare checked, Ruleset.conditions, List.flatMap_map,
      Ruleset.conditions, List.map_flatMap]
    rfl
  have strict_eq : ruleset.strict = raw.strict := by rw [Ruleset.eq_primed_of_prepare checked]
  have absent_eq : firstAbsent? walk.features ruleset.conditions =
      (firstAbsent? walk.features raw.conditions).map Predicate.primed := by
    rw [conditions_eq, firstAbsent?, List.find?_map, firstAbsent?]
    congr 2
    funext condition
    rw [Function.comp_apply, Predicate.feature_primed]
  simp only [check, task_eq, strict_eq, absent_eq, ← firstAbsent?_eq_some_iff]
  cases raw.strict with
  | false => simp
  | true => cases firstAbsent? walk.features raw.conditions <;> simp [eq_comm]

/-- A ruleset evaluates all conditions of its complete rules and fails as the first that does. -/
theorem Node.perform_ruleset_eq_error_iff (checked : raw.prepare = .ok ruleset)
    (task_eq : node.task = .ruleset ruleset)
    (going : ∀ number, walk.stopsAt (.trying node.id number) = false) {failure : Failure} :
    (node.perform walk).1 = .error failure ↔
      (triedConditions walk.features raw.rules).mapM (Predicate.assess node.id walk.features) =
        .error failure := by
  rw [perform_ruleset checked task_eq going, ← bind_ok_eq_map]
  exact bind_pure_eq_error

/-- What a node comes to that has been given a ruleset. -/
theorem Node.appliesRules_of_prepare (checked : raw.prepare = .ok ruleset)
    (task_eq : node.task = .ruleset ruleset)
    (going : ∀ number, walk.stopsAt (.trying node.id number) = false) :
    node.AppliesRules raw walk := by
  have performed := perform_ruleset checked task_eq going
  constructor
  case fails_iff =>
    simp only [perform_ruleset_eq_error_iff checked task_eq going,
      exists_mapM_assess_eq_error_iff, mem_triedConditions_iff]
    constructor
    · rintro ⟨condition, ⟨rule, among, complete, member⟩, faulty⟩
      exact ⟨rule, among, complete, condition, member, faulty⟩
    · rintro ⟨rule, among, complete, condition, member, faulty⟩
      exact ⟨condition, ⟨rule, among, complete, member⟩, faulty⟩
  case failure_iff =>
    intro failure
    rw [perform_ruleset_eq_error_iff checked task_eq going, mapM_assess_eq_error_iff]
  case reports =>
    intro outcome came_to
    rw [performed, ← bind_ok_eq_map] at came_to
    obtain ⟨_, -, equal⟩ := bind_eq_ok.mp came_to
    cases equal
    exact node.reports_ruled _
  case hits_hold =>
    intro rule member
    obtain ⟨among, hits⟩ := List.mem_filter.mp member
    have filled := (Ruleset.exists_prepare_eq_ok.mp ⟨ruleset, checked⟩).conditions_ne_nil rule among
    exact (of_decide_eq_true hits).exists_holds filled
  case check_iff => exact fun failure => check_ruleset checked task_eq

end

end

/-- A rule that blocks, one for a feature that may be absent, and one that compares a text with a
number once its first condition holds. -/
def transferRules : Ruleset where
  rules := [
    { name := "embargo", combination := .any
      conditions := [
        { feature := "country", operator := .member, threshold := .array [.text "XA", .text "XB"] },
        { feature := "amount", operator := .greater, threshold := .int 1000 }]
      verdict := { tag := "reject", label := "embargo", blocks := true } },
    { name := "minor"
      conditions := [
        { feature := "country", operator := .greater, threshold := .int 1 },
        { feature := "age", operator := .less, threshold := .int 18 }] },
    { name := "large", combination := .any
      conditions := [
        { feature := "amount", operator := .atLeast, threshold := .int 100 },
        { feature := "country", operator := .greater, threshold := .int 1 }] }]

section

open scoped Engine.Plain

/-- The blocking rule hits, and so would the last one by its first condition; the other condition of
the latter makes the task fail all the same.  The rule for the absent feature is passed over. -/
theorem Node.appliesRules_of_prepare_transfer :
    let node : Node :=
      { identity := { id := "screen", name := "Screen", kind := "ruleset", tag := "", label := "" }
        task := .ruleset transferRules }
    let walk : Walk :=
      { features := Table.ofList [("country", .text "XA"), ("amount", .int 250)] }
    transferRules.prepare = .ok transferRules ∧ node.task = .ruleset transferRules ∧
      (∀ number, walk.stopsAt (.trying node.id number) = false) ∧
        node.AppliesRules transferRules walk ∧
        (hitting walk.features transferRules.rules).map Rule.name = ["embargo", "large"] ∧
          (node.perform walk).1 = .error (.mismatch "screen" "country" .int .string) :=
  ⟨rfl, rfl, fun _ => rfl, appliesRules_of_prepare rfl rfl fun _ => rfl, by decide +kernel,
    by decide +kernel⟩

end

end RiskGraph

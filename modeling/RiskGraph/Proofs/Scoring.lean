import RiskGraph.Proofs.Exactness
import RiskGraph.Proofs.Trial

/-!
# What a scorecard comes to

All items whose features are present are evaluated on the features that the walk has when it enters
the node, and the first that fails makes the scorecard fail before anything is written.  Otherwise
the scores of the items that hold are added to the base from left to right, and the sum is published
as the integer that it is, or else as a real.
-/

namespace RiskGraph

/-! ## Publication -/

/-- A real is published as the integer of 64 bits that it is, and as itself if it is none. -/
inductive Binary64.PublishedAs (total : Binary64) : Value → Prop
  | integer {word : Int64} (denotes : (Value.real total).Denotes word.toInt) :
      PublishedAs total (.int word)
  | real (other : ∀ n, ¬(Value.real total).Denotes n) : PublishedAs total (.real total)

theorem Scorecard.publishedAs_valueOf (total : Binary64) :
    total.PublishedAs (Scorecard.valueOf total) := by
  unfold valueOf
  cases exact_eq : Value.exactInt64? total with
  | some word =>
      exact .integer (Value.denotes_iff.mpr ⟨word, Value.isInteger_real_iff.mpr exact_eq, rfl⟩)
  | none =>
      refine .real fun n denotes => ?_
      obtain ⟨word, is_integer, -⟩ := Value.denotes_iff.mp denotes
      cases (Value.isInteger_real_iff.mp is_integer).symm.trans exact_eq

/-- A node leaves a walk as it was, but for a value that it publishes under a key and records in a
step of the trace. -/
structure Walk.Publishes (walk : Walk) (node : Node) (key : String) (value : Value)
    (left : Walk) : Prop where
  published : left.features.get? key = some value
  /-- The other features are as they were. -/
  kept : ∀ other, other ≠ key → left.features.get? other = walk.features.get? other
  trace_eq : left.trace = walk.trace ++ [.scored node.id key value]
  /-- All else is as it was. -/
  rest_eq : left = { walk with features := left.features, trace := left.trace }

theorem Walk.publishes_publish (walk : Walk) (node : Node) (key : String) (value : Value) :
    walk.Publishes node key value
      ((walk.record (.scored node.id key value)).publish key value) where
  published := Table.get?_insert_self _ _ _
  kept _ different := Table.get?_insert_of_ne _ different _
  trace_eq := rfl
  rest_eq := rfl

/-! ## Items left out -/

/-- Items are left out of a row, but none whose feature is present. -/
inductive LeavesOut (features : Table Value) : List ScoreItem → List ScoreItem → Prop
  | nil : LeavesOut features [] []
  | keep (item : ScoreItem) {items others : List ScoreItem}
      (later : LeavesOut features items others) :
      LeavesOut features (item :: items) (item :: others)
  | leave {item : ScoreItem} {items others : List ScoreItem}
      (absent : ¬item.predicate.Present features) (later : LeavesOut features items others) :
      LeavesOut features (item :: items) others

theorem LeavesOut.mem {features : Table Value} {item : ScoreItem} {items others : List ScoreItem}
    (omits : LeavesOut features items others) (member : item ∈ others) : item ∈ items := by
  induction omits with
  | nil => exact member
  | keep _ _ induction =>
      rcases List.mem_cons.mp member with rfl | later
      · exact List.mem_cons_self
      · exact List.mem_cons_of_mem _ (induction later)
  | leave _ _ induction => exact List.mem_cons_of_mem _ (induction member)

section

variable [Engine]

/-! ## Preparation -/

/-- An item with the pattern of its condition. -/
def ScoreItem.primed (item : ScoreItem) : ScoreItem :=
  { item with predicate := item.predicate.primed }

@[simp]
theorem ScoreItem.feature_primed (item : ScoreItem) :
    item.primed.predicate.feature = item.predicate.feature :=
  Predicate.feature_primed

theorem ScoreItem.eq_primed_of_prepare {item prepared : ScoreItem}
    (checked : item.prepare = .ok prepared) : prepared = item.primed := by
  obtain ⟨predicate, read, equal⟩ := bind_eq_ok.mp checked
  cases equal
  rw [primed, Predicate.eq_primed_of_prepare read]

theorem Scorecard.eq_primed_of_prepare {scorecard prepared : Scorecard}
    (checked : scorecard.prepare = .ok prepared) :
    prepared = { scorecard with items := scorecard.items.map ScoreItem.primed } := by
  unfold prepare at checked
  split at checked
  · cases checked
  · obtain ⟨items, row, equal⟩ := bind_eq_ok.mp checked
    cases equal
    rw [eq_map_of_mapM_eq_ok ScoreItem.eq_primed_of_prepare row]

/-! ## Sums -/

/-- The items whose conditions hold, in their order. -/
def scoring (features : Table Value) (items : List ScoreItem) : List ScoreItem :=
  items.filter fun item => item.predicate.Holds features

/-- The scores of items, added to a base from left to right. -/
def addScores (base : Binary64) (items : List ScoreItem) : Binary64 :=
  (items.map ScoreItem.score).foldl (· + ·) base

section

variable {node : String} {features : Table Value} {item : ScoreItem} {items others : List ScoreItem}
  {total : Binary64} {failure : Failure}

theorem addScores_scoring_cons :
    addScores total (scoring features (item :: items)) =
      addScores (if item.predicate.Holds features then total + item.score else total)
        (scoring features items) := by
  unfold scoring
  by_cases holds : item.predicate.Holds features
  · rw [List.filter_cons_of_pos (by simpa using holds), if_pos holds]
    rfl
  · rw [List.filter_cons_of_neg (by simpa using holds), if_neg holds]

theorem Predicate.finding?_eq_none (absent : features.get? item.predicate.feature = none) :
    item.predicate.finding? features = none := by
  rw [finding?, absent, Option.map_none]

/-- A sum evaluates the conditions of its items in their order; unless one fails, the scores of
those that hold are added. -/
theorem sumScores_primed (sound : ∀ item ∈ items, item.predicate.Sound) :
    sumScores node features total (items.map ScoreItem.primed) =
      ((items.map ScoreItem.predicate).mapM (Predicate.assess node features)).map
        fun _ => addScores total (scoring features items) := by
  induction items generalizing total with
  | nil => rfl
  | cons item items induction =>
      rw [List.forall_mem_cons] at sound
      rw [List.map_cons, sumScores, ScoreItem.feature_primed, List.map_cons, List.mapM_cons,
        addScores_scoring_cons]
      cases found : features.get? item.predicate.feature with
      | none =>
          -- an item that is passed over adds nothing and does not hold
          have nothing := Predicate.finding?_eq_none found
          have assessed : item.predicate.assess node features = .ok false := by
            rw [Predicate.assess, nothing]
            rfl
          have misses : ¬item.predicate.Holds features := by
            rw [Predicate.Holds, nothing]
            simp
          rw [assessed, if_neg misses]
          change sumScores node features total (items.map ScoreItem.primed) = _
          rw [induction sound.2]
          cases (items.map ScoreItem.predicate).mapM (Predicate.assess node features) <;> rfl
      | some value =>
          have judged : item.primed.predicate.judge node value =
              item.predicate.assess node features := by
            change item.predicate.primed.judge node value = _
            rw [Predicate.judge, sound.1.evaluate_primed, Predicate.feature_primed,
              Predicate.assess, Predicate.finding?, found]
            rfl
          have holds_iff := @Predicate.assess_eq_ok_true_iff _ node features item.predicate
          change (item.primed.predicate.judge node value >>= fun holds =>
            sumScores node features (if holds then total + item.score else total)
              (items.map ScoreItem.primed)) = _
          rw [judged]
          cases assessed : item.predicate.assess node features with
          | error => rfl
          | ok holds =>
              have branch_eq :
                  (if item.predicate.Holds features then total + item.score else total) =
                    if holds then total + item.score else total := by
                rw [assessed, Except.ok.injEq] at holds_iff
                simp only [← holds_iff]
              change sumScores node features (if holds then total + item.score else total) _ = _
              rw [induction sound.2, branch_eq]
              cases (items.map ScoreItem.predicate).mapM (Predicate.assess node features) <;> rfl

/-- Items with absent features do not matter. -/
theorem LeavesOut.sumScores_eq (omits : LeavesOut features items others) :
    sumScores node features total (others.map ScoreItem.primed) =
      sumScores node features total (items.map ScoreItem.primed) := by
  induction omits generalizing total with
  | nil => rfl
  | keep item _ induction =>
      rw [List.map_cons, sumScores, List.map_cons, sumScores]
      split
      · exact induction
      · exact bind_congr_of_ok fun _ _ => induction
  | @leave item _ _ absent _ induction =>
      have nothing : features.get? item.primed.predicate.feature = none := by
        rw [Predicate.Present, Bool.not_eq_true, Option.isSome_eq_false_iff,
          Option.isNone_iff_eq_none] at absent
        rw [ScoreItem.feature_primed, absent]
      rw [induction, List.map_cons, sumScores, nothing]

/-- Evaluation of items fails as the first one that does. -/
theorem mapM_assess_items_eq_error_iff :
    (items.map ScoreItem.predicate).mapM (Predicate.assess node features) = .error failure ↔
      ∃ item fault,
        FirstLacking (fun item : ScoreItem => ¬item.predicate.Faulty features) items item ∧
          item.predicate.finding? features = some (.error fault) ∧
            failure = .ofFault node item.predicate.feature fault := by
  rw [mapM_assess_eq_error_iff]
  constructor
  · rintro ⟨_, fault, first, found, failure_eq⟩
    obtain ⟨item, item_first, rfl⟩ := firstLacking_map_iff.mp first
    exact ⟨item, fault, item_first, found, failure_eq⟩
  · rintro ⟨item, fault, first, found, failure_eq⟩
    exact ⟨item.predicate, fault, firstLacking_map_iff.mpr ⟨item, first, rfl⟩, found, failure_eq⟩

end

/-! ## Nodes -/

/-- An outcome lets a walk pass: it does not block, names no hits and chooses no branch. -/
structure Outcome.Passes (outcome : Outcome) (node : Node) : Prop where
  unblocked : outcome.blocks = false
  hits_eq : outcome.hits = []
  branch_eq : outcome.branch = none
  marked : outcome.tag = node.identity.tag ∧ outcome.label = node.identity.label

/-- How a node with a scorecard performs its task at a walk. -/
structure Node.AppliesScores (node : Node) (scorecard : Scorecard) (walk : Walk) : Prop where
  /-- The task fails exactly if an item does. -/
  fails_iff : (∃ failure, (node.perform walk).1 = .error failure) ↔
    ∃ item ∈ scorecard.items, item.predicate.Faulty walk.features
  /-- The failure is that of the first item that fails. -/
  failure_iff : ∀ failure, (node.perform walk).1 = .error failure ↔
    ∃ item fault,
      FirstLacking (fun item : ScoreItem => ¬item.predicate.Faulty walk.features)
          scorecard.items item ∧
        item.predicate.finding? walk.features = some (.error fault) ∧
          failure = .ofFault node.id item.predicate.feature fault
  /-- A task that fails changes nothing. -/
  untouched : ∀ failure, (node.perform walk).1 = .error failure → (node.perform walk).2 = walk
  /-- A task that succeeds publishes the sum of the base and the scores of the items that held. -/
  publishes : ∀ outcome, (node.perform walk).1 = .ok outcome →
    outcome.Passes node ∧ ∃ value,
      (addScores scorecard.base (scoring walk.features scorecard.items)).PublishedAs value ∧
        walk.Publishes node scorecard.output value (node.perform walk).2
  /-- Without items whose features are absent the node does the same. -/
  omitting : ∀ others, LeavesOut walk.features scorecard.items others →
    ∃ ready, { scorecard with items := others }.prepare = .ok ready ∧
      { node with task := .scorecard ready }.perform walk = node.perform walk

section

variable {node : Node} {raw scorecard : Scorecard} {walk : Walk}

theorem Node.perform_scorecard (checked : raw.prepare = .ok scorecard)
    (task_eq : node.task = .scorecard scorecard) :
    node.perform walk =
      match (raw.items.map ScoreItem.predicate).mapM
        (Predicate.assess node.id walk.features) with
      | .error failure => (.error failure, walk)
      | .ok _ =>
          let value := Scorecard.valueOf (addScores raw.base (scoring walk.features raw.items))
          (.ok node.pass,
            (walk.record (.scored node.id raw.output value)).publish raw.output value) := by
  have sound := (Scorecard.exists_prepare_eq_ok.mp ⟨scorecard, checked⟩).items_sound
  obtain rfl := Scorecard.eq_primed_of_prepare checked
  simp only [perform, task_eq, score, sumScores_primed sound]
  cases (raw.items.map ScoreItem.predicate).mapM (Predicate.assess node.id walk.features) <;> rfl

/-- A scorecard without items whose features are absent passes its checks and does the same. -/
theorem Node.perform_scorecard_of_leavesOut (checked : raw.prepare = .ok scorecard)
    (task_eq : node.task = .scorecard scorecard) {others : List ScoreItem}
    (omits : LeavesOut walk.features raw.items others) :
    ∃ ready, { raw with items := others }.prepare = .ok ready ∧
      { node with task := .scorecard ready }.perform walk = node.perform walk := by
  have sound := Scorecard.exists_prepare_eq_ok.mp ⟨scorecard, checked⟩
  have others_sound : Scorecard.Sound { raw with items := others } :=
    ⟨sound.output_named, fun item member => sound.items_sound item (omits.mem member)⟩
  obtain ⟨ready, others_checked⟩ := Scorecard.exists_prepare_eq_ok.mpr others_sound
  refine ⟨ready, others_checked, ?_⟩
  obtain rfl := Scorecard.eq_primed_of_prepare checked
  obtain rfl := Scorecard.eq_primed_of_prepare others_checked
  have same : ∀ id total, sumScores id walk.features total (others.map ScoreItem.primed) =
      sumScores id walk.features total (raw.items.map ScoreItem.primed) :=
    fun _ _ => omits.sumScores_eq
  simp only [perform, task_eq, score, id, same, pass, kind, Task.kind]

/-- What a node comes to that has been given a scorecard. -/
theorem Node.appliesScores_of_prepare (checked : raw.prepare = .ok scorecard)
    (task_eq : node.task = .scorecard scorecard) : node.AppliesScores raw walk := by
  have performed := @perform_scorecard _ node raw scorecard walk checked task_eq
  have failed_iff : ∀ failure, (node.perform walk).1 = .error failure ↔
      (raw.items.map ScoreItem.predicate).mapM (Predicate.assess node.id walk.features) =
        .error failure := by
    intro failure
    rw [performed]
    cases (raw.items.map ScoreItem.predicate).mapM
      (Predicate.assess node.id walk.features) <;> simp
  constructor
  case fails_iff =>
    simp only [failed_iff, exists_mapM_assess_eq_error_iff, List.mem_map,
      exists_exists_and_eq_and]
  case failure_iff =>
    intro failure
    rw [failed_iff, mapM_assess_items_eq_error_iff]
  case untouched =>
    intro failure failed
    rw [performed, (failed_iff failure).mp failed]
  case publishes =>
    intro outcome succeeded
    cases assessed : (raw.items.map ScoreItem.predicate).mapM
        (Predicate.assess node.id walk.features) with
    | error failure => cases ((failed_iff failure).mpr assessed).symm.trans succeeded
    | ok outcomes =>
        rw [performed, assessed] at succeeded ⊢
        cases succeeded
        exact ⟨⟨rfl, rfl, rfl, rfl, rfl⟩, _, Scorecard.publishedAs_valueOf _,
          walk.publishes_publish node raw.output _⟩
  case omitting => exact fun others => perform_scorecard_of_leavesOut checked task_eq

end

end

/-- Points for an earlier rating, a feature that may be absent and an amount; the sum takes the
place of the rating. -/
def ratingScores (base first second third : Binary64) : Scorecard where
  output := "rating"
  base := base
  items := [
    { predicate := { feature := "rating", operator := .atLeast, threshold := .int 600 }
      score := first },
    { predicate := { feature := "age", operator := .less, threshold := .int 18 }
      score := second },
    { predicate := { feature := "amount", operator := .greater, threshold := .text "1000" }
      score := third }]

section

open scoped Engine.Plain

/-- The first item sees the rating that is to be replaced, and halves add up to an integer. -/
theorem Node.appliesScores_of_prepare_rating :
    let scorecard := ratingScores (.ofQuotient false Binary64.unitsPerOne 2)
      (.ofQuotient false (41 * Binary64.unitsPerOne) 2) (.ofInt 100) (.ofInt (-1))
    let node : Node :=
      { identity := { id := "rate", name := "Rate", kind := "scorecard", tag := "", label := "" }
        task := .scorecard scorecard }
    let walk : Walk :=
      { features := Table.ofList [("rating", .int 700), ("amount", .text "01200")] }
    scorecard.prepare = .ok scorecard ∧ node.task = .scorecard scorecard ∧
      node.AppliesScores scorecard walk ∧
        ((node.perform walk).2.features.get? "rating").map Value.shown = some "20" := by
  have checked : ∀ base first second third, (ratingScores base first second third).prepare =
      .ok (ratingScores base first second third) := by
    intro base first second third
    have named : isBlankText "rating" = false := by decide +kernel
    have rated : Predicate.prepare ⟨"rating", .atLeast, .int 600, none⟩ =
      .ok ⟨"rating", .atLeast, .int 600, none⟩ := rfl
    have young : Predicate.prepare ⟨"age", .less, .int 18, none⟩ =
      .ok ⟨"age", .less, .int 18, none⟩ := rfl
    have large : Predicate.prepare ⟨"amount", .greater, .text "1000", none⟩ =
      .ok ⟨"amount", .greater, .text "1000", none⟩ := rfl
    simp only [Scorecard.prepare, ratingScores, named, List.mapM_cons, List.mapM_nil,
      ScoreItem.prepare, rated, young, large]
    rfl
  exact ⟨checked _ _ _ _, rfl, appliesScores_of_prepare (checked _ _ _ _) rfl, by decide +kernel⟩

end

end RiskGraph

import RiskGraph.Proofs.Fallible

/-!
# Settings that pass their checks

What the checks of a node ask of its settings is said here part by part, without the order in which
the checks are made.  Preparing settings succeeds exactly when they are sound.
-/

namespace RiskGraph

/-- A predicate that passes its checks. -/
structure Predicate.Sound [Engine] (predicate : Predicate) : Prop where
  feature_named : isBlankText predicate.feature = false
  /-- Its threshold suits its operator. -/
  threshold_suits : predicate.operator.checkThreshold predicate.threshold = .ok ()
  /-- If it asks for a pattern, its threshold writes one that the engine compiles. -/
  pattern_read : predicate.operator = .like →
    ∃ pattern, Comparison.patternOf predicate.threshold = .ok pattern

/-- A ruleset that passes its checks. -/
structure Ruleset.Sound [Engine] (ruleset : Ruleset) : Prop where
  rules_ne_nil : ruleset.rules ≠ []
  conditions_ne_nil : ∀ rule ∈ ruleset.rules, rule.conditions ≠ []
  /-- Each condition is sound. -/
  conditions_sound : ∀ rule ∈ ruleset.rules, ∀ predicate ∈ rule.conditions, predicate.Sound

/-- A scorecard that passes its checks. -/
structure Scorecard.Sound [Engine] (scorecard : Scorecard) : Prop where
  /-- It names a feature to publish. -/
  output_named : isBlankText scorecard.output = false
  /-- The condition of each item is sound. -/
  items_sound : ∀ item ∈ scorecard.items, item.predicate.Sound

/-- The pattern at hand is the one that the threshold writes. -/
def Predicate.Ready [Engine] (predicate : Predicate) : Prop :=
  predicate.operator = .like →
    ∃ pattern, predicate.pattern = some pattern ∧
      Comparison.patternOf predicate.threshold = .ok pattern

/-! ## Preparation -/

theorem Predicate.withPattern_eq_ok [Engine] {predicate prepared : Predicate} :
    predicate.withPattern = .ok prepared ↔
      if predicate.operator = .like then
        ∃ pattern, Comparison.patternOf predicate.threshold = .ok pattern ∧
          { predicate with pattern := some pattern } = prepared
      else predicate = prepared := by
  unfold withPattern
  split
  · simp only [bind_eq_ok, mapError_eq_ok, Except.ok.injEq]
  · simp only [Except.ok.injEq]

theorem Predicate.prepare_eq_ok [Engine] {predicate prepared : Predicate} :
    predicate.prepare = .ok prepared ↔
      isBlankText predicate.feature = false ∧
        predicate.operator.checkThreshold predicate.threshold = .ok () ∧
          predicate.withPattern = .ok prepared := by
  unfold prepare
  cases isBlankText predicate.feature with
  | true => simp [bind, Except.bind]
  | false =>
      simp only [Bool.false_eq_true, if_false, true_and, bind_eq_ok, mapError_eq_ok]
      exact ⟨fun ⟨(), checked, rest⟩ => ⟨checked, rest⟩, fun ⟨checked, rest⟩ => ⟨(), checked, rest⟩⟩

theorem Predicate.exists_prepare_eq_ok [Engine] {predicate : Predicate} :
    (∃ prepared, predicate.prepare = .ok prepared) ↔ predicate.Sound := by
  have pattern_iff : (∃ prepared, predicate.withPattern = .ok prepared) ↔
      (predicate.operator = .like →
        ∃ pattern, Comparison.patternOf predicate.threshold = .ok pattern) := by
    simp only [withPattern_eq_ok]
    by_cases like : predicate.operator = .like <;> simp [like]
  simp only [prepare_eq_ok, exists_and_left, pattern_iff]
  exact ⟨fun ⟨named, suits, read⟩ => ⟨named, suits, read⟩, fun ⟨named, suits, read⟩ =>
    ⟨named, suits, read⟩⟩

theorem Predicate.ready_of_prepare [Engine] {predicate prepared : Predicate}
    (checked : predicate.prepare = .ok prepared) : prepared.Ready := by
  have read := (prepare_eq_ok.mp checked).2.2
  rw [withPattern_eq_ok] at read
  intro like
  split at read
  · obtain ⟨pattern, written, rfl⟩ := read
    exact ⟨pattern, rfl, written⟩
  · next other =>
      subst read
      exact absurd like other

namespace Comparison

variable [Engine] {operator : Operator} {feature threshold : Value} {pattern : Pattern}

/-- Only one operator asks for a pattern. -/
theorem applyWith_of_ne_like (other : operator ≠ .like) (pattern : Option Pattern) :
    applyWith operator feature threshold pattern = apply operator feature threshold := by
  cases operator <;> first | rfl | exact absurd rfl other

/-- A pattern at hand is as good as the one read from the threshold. -/
theorem applyWith_like (written : patternOf threshold = .ok pattern) :
    applyWith .like feature threshold (some pattern) = apply .like feature threshold := by
  simp only [apply, applyWith, applyKinds, written]

end Comparison

/-- A predicate that is ready compares as its parts do. -/
theorem Predicate.Ready.evaluate_eq [Engine] {predicate : Predicate} (ready : predicate.Ready)
    (value : Value) :
    predicate.evaluate value =
      Comparison.apply predicate.operator value predicate.threshold := by
  rw [evaluate]
  by_cases like : predicate.operator = .like
  · obtain ⟨pattern, pattern_eq, written⟩ := ready like
    rw [pattern_eq, like]
    exact Comparison.applyWith_like written
  · exact Comparison.applyWith_of_ne_like like predicate.pattern

theorem Rule.exists_prepare_eq_ok [Engine] {rule : Rule} :
    (∃ prepared, rule.prepare = .ok prepared) ↔
      rule.conditions ≠ [] ∧ ∀ predicate ∈ rule.conditions, predicate.Sound := by
  simp only [← Predicate.exists_prepare_eq_ok, ← exists_mapM_eq_ok]
  unfold prepare
  cases rule.conditions with
  | nil => simp [bind, Except.bind]
  | cons predicate predicates => simp [bind_eq_ok, -List.mapM_cons]

theorem Ruleset.exists_prepare_eq_ok [Engine] {ruleset : Ruleset} :
    (∃ prepared, ruleset.prepare = .ok prepared) ↔ ruleset.Sound := by
  have rules_iff : (∃ prepared, ruleset.prepare = .ok prepared) ↔
      ruleset.rules ≠ [] ∧ ∀ rule ∈ ruleset.rules,
        rule.conditions ≠ [] ∧ ∀ predicate ∈ rule.conditions, predicate.Sound := by
    simp only [← Rule.exists_prepare_eq_ok, ← exists_mapM_eq_ok]
    unfold prepare
    cases ruleset.rules with
    | nil => simp [bind, Except.bind]
    | cons rule rules => simp [bind_eq_ok, -List.mapM_cons]
  rw [rules_iff]
  constructor
  · rintro ⟨inhabited, sound⟩
    exact ⟨inhabited, fun rule member => (sound rule member).1, fun rule member =>
      (sound rule member).2⟩
  · rintro ⟨inhabited, filled, sound⟩
    exact ⟨inhabited, fun rule member => ⟨filled rule member, sound rule member⟩⟩

theorem Scorecard.exists_prepare_eq_ok [Engine] {scorecard : Scorecard} :
    (∃ prepared, scorecard.prepare = .ok prepared) ↔ scorecard.Sound := by
  have item_iff : ∀ item : ScoreItem,
      (∃ prepared, item.prepare = .ok prepared) ↔ item.predicate.Sound := by
    intro item
    rw [← Predicate.exists_prepare_eq_ok]
    simp [ScoreItem.prepare, bind_eq_ok]
  have items_iff : (∃ prepared, scorecard.prepare = .ok prepared) ↔
      isBlankText scorecard.output = false ∧
        ∀ item ∈ scorecard.items, item.predicate.Sound := by
    simp only [← item_iff, ← exists_mapM_eq_ok]
    unfold prepare
    cases isBlankText scorecard.output with
    | true => simp [bind, Except.bind]
    | false => simp [bind_eq_ok]
  rw [items_iff]
  exact ⟨fun ⟨named, sound⟩ => ⟨named, sound⟩, fun ⟨named, sound⟩ => ⟨named, sound⟩⟩

/-! ## Settings of nodes -/

namespace NodeEntry

/-- The settings of a node of a kind can be read and are sound. -/
def HasSettings [Engine] (entry : NodeEntry) : NodeKind → Prop
  | .start | .finish => True
  | .condition =>
      ∃ raw, Predicate.shape.read (Document.ofJson entry.settings) = .ok raw ∧ raw.Sound
  | .ruleset =>
      ∃ raw, Ruleset.shape.read (Document.ofJson entry.settings) = .ok raw ∧ raw.Sound
  | .scorecard =>
      ∃ raw, Scorecard.shape.read (Document.ofJson entry.settings) = .ok raw ∧ raw.Sound

theorem settle_eq_ok {α : Type} {entry : NodeEntry} {read : Document → Reading α}
    {prepare : α → Except SettingsFault α} {prepared : α} :
    entry.settle read prepare = .ok prepared ↔
      ∃ raw, read (Document.ofJson entry.settings) = .ok raw ∧ prepare raw = .ok prepared := by
  simp only [settle, bind_eq_ok, mapError_eq_ok]

theorem exists_settle_eq_ok {α : Type} {entry : NodeEntry} {read : Document → Reading α}
    {prepare : α → Except SettingsFault α} {Sound : α → Prop}
    (sound_iff : ∀ raw, (∃ prepared, prepare raw = .ok prepared) ↔ Sound raw) :
    (∃ prepared, entry.settle read prepare = .ok prepared) ↔
      ∃ raw, read (Document.ofJson entry.settings) = .ok raw ∧ Sound raw := by
  simp only [settle_eq_ok, ← sound_iff]
  exact ⟨fun ⟨prepared, raw, found, checked⟩ => ⟨raw, found, prepared, checked⟩,
    fun ⟨raw, found, prepared, checked⟩ => ⟨prepared, raw, found, checked⟩⟩

theorem exists_task_eq_ok [Engine] {entry : NodeEntry} {kind : NodeKind} :
    (∃ task, entry.task kind = .ok task) ↔ entry.HasSettings kind := by
  cases kind with
  | start => simp [task, HasSettings]
  | finish => simp [task, HasSettings]
  | condition =>
      rw [HasSettings, ← exists_settle_eq_ok fun _ => Predicate.exists_prepare_eq_ok]
      simp [task, bind_eq_ok, pure, Except.pure]
  | ruleset =>
      rw [HasSettings, ← exists_settle_eq_ok fun _ => Ruleset.exists_prepare_eq_ok]
      simp [task, bind_eq_ok, pure, Except.pure]
  | scorecard =>
      rw [HasSettings, ← exists_settle_eq_ok fun _ => Scorecard.exists_prepare_eq_ok]
      simp [task, bind_eq_ok, pure, Except.pure]

/-- A node gets a task of its kind. -/
theorem kind_of_task [Engine] {entry : NodeEntry} {kind : NodeKind} {task : Task}
    (settled : entry.task kind = .ok task) : task.kind = kind := by
  cases kind <;> simp only [NodeEntry.task, bind_eq_ok] at settled
  case start | finish =>
    cases settled
    rfl
  all_goals
    obtain ⟨settings, -, equal⟩ := settled
    cases equal
    rfl

/-- The settings of a task are what preparing the settings of its entry gave. -/
theorem exists_prepare_of_settle {α : Type} {entry : NodeEntry} {read : Document → Reading α}
    {prepare : α → Except SettingsFault α} {wrap : α → Task} (injective : wrap.Injective)
    {prepared : α}
    (settled : (do return wrap (← entry.settle read prepare)) = Except.ok (wrap prepared)) :
    ∃ raw, prepare raw = .ok prepared := by
  obtain ⟨settings, found, equal⟩ := bind_eq_ok.mp settled
  obtain rfl : settings = prepared := injective (Except.ok.inj equal)
  obtain ⟨raw, -, checked⟩ := settle_eq_ok.mp found
  exact ⟨raw, checked⟩

/-- The predicate of a condition is ready for use. -/
theorem ready_of_task [Engine] {entry : NodeEntry} {kind : NodeKind} {predicate : Predicate}
    (settled : entry.task kind = .ok (.condition predicate)) : predicate.Ready := by
  obtain rfl := kind_of_task settled
  obtain ⟨raw, checked⟩ := exists_prepare_of_settle (fun _ _ => Task.condition.inj) settled
  exact Predicate.ready_of_prepare checked

end NodeEntry
end RiskGraph

import RiskGraph.Proofs.Run

/-!
# Prepared predicates

Building a graph prepares each of its predicates: the threshold has the shape that the operator
asks for, and the pattern that it may write is at hand.  A prepared predicate compares as its
operator does without preparation, and no comparison finds its threshold out of shape.
-/

namespace RiskGraph

/-! ## Thresholds in shape -/

namespace Comparison

/-- A step of a comparison does not find a threshold out of shape. -/
def Spares {α : Type} (step : Result α) : Prop :=
  ∀ fault, step ≠ .error (.threshold fault)

section

variable {α β : Type} {operator : Operator} {left right : Value} {leftKind rightKind : Kind}

theorem Spares.ok (result : α) : Spares (.ok result) :=
  fun _ => nofun

theorem Spares.bind {step : Result α} {next : α → Result β} (first : Spares step)
    (later : ∀ middle, Spares (next middle)) : Spares (step >>= next) := by
  intro fault failed
  rcases bind_eq_error.mp failed with here | ⟨middle, -, there⟩
  · exact first fault here
  · exact later middle fault there

theorem spares_reading {result : Except Value.Fault α} : Spares (reading result) := by
  intro fault failed
  obtain ⟨_, -, wrapped⟩ := mapError_eq_error.mp failed
  nomatch wrapped

theorem spares_kindOf {subject : Value} : Spares (kindOf subject) :=
  spares_reading

theorem spares_requireAgreement : Spares (requireAgreement leftKind rightKind) := by
  unfold requireAgreement
  split <;> exact fun _ => nofun

theorem spares_requireKind : Spares (requireKind leftKind rightKind) := by
  unfold requireKind
  split <;> exact fun _ => nofun

theorem spares_itemsOf : Spares (itemsOf left leftKind) := by
  unfold itemsOf
  split <;> exact fun _ => nofun

theorem spares_entriesOf : Spares (entriesOf left leftKind) := by
  unfold entriesOf
  split <;> exact fun _ => nofun

theorem spares_textOf : Spares (textOf operator left leftKind) := by
  unfold textOf
  split
  case h_5 => exact spares_reading
  all_goals exact fun _ => nofun

theorem spares_realOrder : Spares (realOrder operator left right) := by
  refine .bind spares_reading fun x => .bind spares_reading fun y => ?_
  split <;> exact fun _ => nofun

theorem spares_intOrder : Spares (intOrder operator left right) := by
  unfold intOrder
  split
  · exact .ok _
  · exact spares_realOrder

theorem spares_order : Spares (order operator left leftKind right rightKind) := by
  unfold order
  split
  · exact spares_intOrder
  · exact spares_realOrder
  · exact spares_realOrder
  · exact spares_realOrder
  · exact .bind spares_reading fun _ => .bind spares_reading fun _ => .ok _
  · exact .bind spares_reading fun _ => .bind spares_reading fun _ => .ok _
  · exact fun _ => nofun

theorem spares_equality : Spares (equality operator left leftKind right rightKind) := by
  unfold equality
  split
  · exact .bind spares_reading fun _ => .bind spares_reading fun _ => .ok _
  · exact .ok _
  · exact .ok _
  · exact .bind spares_order fun _ => .ok _

theorem spares_matching : Spares (matching operator left leftKind right rightKind) := by
  unfold matching
  split
  · exact spares_equality
  · exact .ok _

theorem spares_among {items : List Value} : Spares (among operator left leftKind items) := by
  induction items with
  | nil => exact .ok _
  | cons item items induction =>
      refine .bind spares_kindOf fun itemKind => .bind spares_requireAgreement fun _ =>
        .bind spares_equality fun equal => ?_
      cases equal with
      | true => exact .ok _
      | false => exact induction

theorem spares_containing {items : List Value} :
    Spares (containing operator left leftKind items) := by
  induction items with
  | nil => exact .ok _
  | cons item items induction =>
      refine .bind spares_kindOf fun itemKind =>
        .bind spares_matching fun found => ?_
      cases found with
      | true => exact .ok _
      | false => exact induction

theorem spares_holding {entries : List (String × Value)} :
    Spares (holding operator left leftKind entries) := by
  induction entries with
  | nil => exact .ok _
  | cons entry entries induction =>
      unfold holding
      split
      · exact induction
      · next itemKind _ =>
          refine .bind spares_matching fun found => ?_
          cases found with
          | true => exact .ok _
          | false => exact induction

end

variable {operator : Operator} {threshold : Value}

theorem spares_of_eq_ok {α : Type} {step : Result α} {result : α} (done : step = .ok result) :
    Spares step :=
  done ▸ .ok result

/-- Bounds that have been checked are two. -/
theorem exists_eq_bounds (suits : Operator.between.checkThreshold threshold = .ok ()) :
    ∃ low high, threshold = .array [low, high] := by
  cases threshold with
  | array items =>
      rcases items with _ | ⟨low, _ | ⟨high, _ | ⟨_, _⟩⟩⟩
      case cons.cons.nil => exact ⟨low, high, rfl⟩
      all_goals nomatch suits
  | _ => nomatch suits

variable [Engine]

/-- An operator does not find a threshold out of shape that has been checked for it, its pattern
included if the operator asks for one. -/
theorem spares_applyKinds (suits : operator.checkThreshold threshold = .ok ())
    (written : operator = .like → Spares (patternOf threshold)) (feature : Value)
    (left right : Kind) (pattern : Option Pattern) :
    Spares (applyKinds operator feature left threshold right pattern) := by
  cases operator with
  | greater | atLeast | less | atMost =>
      exact .bind spares_requireAgreement fun _ => .bind spares_order fun _ => .ok _
  | equal => exact .bind spares_requireAgreement fun _ => spares_equality
  | different =>
      exact .bind spares_requireAgreement fun _ => .bind spares_equality fun _ => .ok _
  | before | after =>
      exact .bind spares_requireKind fun _ => .bind spares_requireKind fun _ =>
        .bind spares_reading fun _ => .bind spares_reading fun _ => .ok _
  | between =>
      obtain ⟨low, high, rfl⟩ := exists_eq_bounds suits
      change Spares (kindOf low >>= _)
      exact .bind spares_kindOf fun _ => .bind spares_kindOf fun _ =>
        .bind spares_requireAgreement fun _ => .bind spares_requireAgreement fun _ =>
          .bind spares_order fun _ => .bind spares_order fun _ => .ok _
  | member => exact .bind spares_itemsOf fun _ => spares_among
  | nonmember =>
      exact .bind spares_itemsOf fun _ => .bind spares_among fun _ => .ok _
  | contain =>
      cases feature with
      | array items => exact spares_containing
      | _ => exact .bind spares_textOf fun _ => .bind spares_textOf fun _ => .ok _
  | like =>
      refine .bind spares_textOf fun _ => ?_
      cases pattern with
      | some pattern => exact .ok _
      | none => exact .bind (written rfl) fun _ => .ok _
  | keyExist =>
      exact .bind spares_entriesOf fun _ => .bind spares_textOf fun _ => .ok _
  | valueExist => exact .bind spares_entriesOf fun _ => spares_holding

theorem spares_applyWith (suits : operator.checkThreshold threshold = .ok ())
    (written : operator = .like → Spares (patternOf threshold)) (feature : Value)
    (pattern : Option Pattern) : Spares (applyWith operator feature threshold pattern) :=
  .bind spares_kindOf fun left => .bind spares_kindOf fun right =>
    spares_applyKinds suits written feature left right pattern

end Comparison

/-! ## Preparation once and for all -/

namespace Predicate

variable [Engine] {predicate prepared : Predicate}

/-- Preparing a predicate again changes nothing. -/
theorem prepare_of_prepare (checked : predicate.prepare = .ok prepared) :
    prepared.prepare = .ok prepared := by
  obtain ⟨named, suits, read⟩ := prepare_eq_ok.mp checked
  rw [withPattern_eq_ok] at read
  split at read
  · next like =>
      obtain ⟨pattern, written, rfl⟩ := read
      refine prepare_eq_ok.mpr ⟨named, suits, withPattern_eq_ok.mpr ?_⟩
      rw [if_pos like]
      exact ⟨pattern, written, rfl⟩
  · next other =>
      subst read
      exact checked

theorem isPrepared_of_prepare (settled : predicate.prepare = .ok predicate) :
    predicate.isPrepared = true := by
  by_cases like : predicate.operator = .like
  · obtain ⟨pattern, pattern_eq, -⟩ := ready_of_prepare settled like
    simp [isPrepared, pattern_eq]
  · simp [isPrepared, like]

theorem spares_evaluate (settled : predicate.prepare = .ok predicate) (value : Value) :
    Comparison.Spares (predicate.evaluate value) := by
  refine Comparison.spares_applyWith (prepare_eq_ok.mp settled).2.1 (fun like => ?_) value
    predicate.pattern
  obtain ⟨pattern, -, written⟩ := ready_of_prepare settled like
  exact Comparison.spares_of_eq_ok written

end Predicate

theorem Rule.forall_prepare_eq_ok [Engine] {rule prepared : Rule}
    (checked : rule.prepare = .ok prepared) :
    ∀ predicate ∈ prepared.conditions, predicate.prepare = .ok predicate := by
  unfold prepare at checked
  split at checked
  · cases checked
  obtain ⟨conditions, row, equal⟩ := bind_eq_ok.mp checked
  cases equal
  exact forall_mem_of_mapM_eq_ok Predicate.prepare_of_prepare row

theorem Ruleset.forall_prepare_eq_ok [Engine] {ruleset prepared : Ruleset}
    (checked : ruleset.prepare = .ok prepared) :
    ∀ predicate ∈ prepared.conditions, predicate.prepare = .ok predicate := by
  unfold prepare at checked
  split at checked
  · cases checked
  obtain ⟨rules, row, equal⟩ := bind_eq_ok.mp checked
  cases equal
  intro predicate member
  obtain ⟨rule, among, listed⟩ := List.mem_flatMap.mp member
  exact forall_mem_of_mapM_eq_ok Rule.forall_prepare_eq_ok row rule among predicate listed

theorem Scorecard.forall_prepare_eq_ok [Engine] {scorecard prepared : Scorecard}
    (checked : scorecard.prepare = .ok prepared) :
    ∀ item ∈ prepared.items, item.predicate.prepare = .ok item.predicate := by
  unfold prepare at checked
  split at checked
  · cases checked
  obtain ⟨items, row, equal⟩ := bind_eq_ok.mp checked
  cases equal
  refine forall_mem_of_mapM_eq_ok (fun {item result} settled => ?_) row
  obtain ⟨predicate, predicate_checked, equal⟩ := bind_eq_ok.mp settled
  cases equal
  exact Predicate.prepare_of_prepare predicate_checked

/-- A node gets predicates that have been prepared. -/
theorem NodeEntry.Describes.forall_prepare_eq_ok [Engine] {entry : NodeEntry} {aliases : Aliases}
    {node : Node} (describes : entry.Describes aliases node) :
    ∀ predicate ∈ node.predicates, predicate.prepare = .ok predicate := by
  have settled := describes.task_eq
  rw [Node.kind] at settled
  rw [Node.predicates]
  cases task_eq : node.task with
  | start | finish => exact List.forall_mem_nil _
  | condition predicate =>
      rw [task_eq] at settled
      obtain ⟨raw, checked⟩ := exists_prepare_of_settle (fun _ _ => Task.condition.inj) settled
      exact List.forall_mem_singleton.mpr (Predicate.prepare_of_prepare checked)
  | ruleset ruleset =>
      rw [task_eq] at settled
      obtain ⟨raw, checked⟩ := exists_prepare_of_settle (fun _ _ => Task.ruleset.inj) settled
      exact Ruleset.forall_prepare_eq_ok checked
  | scorecard scorecard =>
      rw [task_eq] at settled
      obtain ⟨raw, checked⟩ := exists_prepare_of_settle (fun _ _ => Task.scorecard.inj) settled
      exact List.forall_mem_map.mpr (Scorecard.forall_prepare_eq_ok checked)

/-! ## Graphs -/

/-- A graph compares through predicates that have been prepared. -/
structure Graph.Prepared [Engine] (graph : Graph) : Prop where
  /-- No pattern remains to be read. -/
  isPrepared : ∀ place : Fin graph.size, ∀ predicate ∈ graph.nodes[place].predicates,
    predicate.isPrepared = true
  /-- Each check has been made, and making it again changes nothing. -/
  prepare_eq : ∀ place : Fin graph.size, ∀ predicate ∈ graph.nodes[place].predicates,
    predicate.prepare = .ok predicate
  /-- Predicates compare as their operators do without preparation. -/
  evaluate_eq : ∀ place : Fin graph.size, ∀ predicate ∈ graph.nodes[place].predicates,
    ∀ value, predicate.evaluate value =
      Comparison.apply predicate.operator value predicate.threshold
  /-- No predicate finds its threshold out of shape. -/
  evaluate_ne : ∀ place : Fin graph.size, ∀ predicate ∈ graph.nodes[place].predicates,
    ∀ value fault, predicate.evaluate value ≠ .error (.threshold fault)
  /-- No run fails for the shape of a threshold. -/
  run_ne : ∀ walk node feature fault,
    (graph.run walk).1 ≠ .error (.incomparable node feature (.threshold fault))

theorem Failure.fault_eq_of_incomparable {node feature id key : String}
    {fault other : Comparison.Fault}
    (equal : ofFault node feature fault = .incomparable id key other) : fault = other := by
  unfold ofFault at equal
  split at equal <;> cases equal
  rfl

theorem Predicate.Meets.exists_evaluate_eq_error [Engine] {predicate : Predicate}
    {features : Table Value} {node id feature : String} {fault : Comparison.Fault}
    (meets : predicate.Meets node features (.incomparable id feature fault)) :
    ∃ value, predicate.evaluate value = .error fault := by
  generalize failure_eq : Failure.incomparable id feature fault = failure at meets
  cases meets with
  | @intro value other present faulty =>
      exact ⟨value, Failure.fault_eq_of_incomparable failure_eq.symm ▸ faulty⟩

/-- Building a graph prepares each of its predicates, so that no comparison finds a threshold out of
shape. -/
theorem Graph.prepared_of_build [Engine] {definition : Definition} {aliases : Aliases}
    {graph : Graph}
    (built : definition.build aliases = .ok graph) : graph.Prepared := by
  have sound := sound_of_build built
  have settled : ∀ place : Fin graph.size, ∀ predicate ∈ graph.nodes[place].predicates,
      predicate.prepare = .ok predicate := by
    intro place
    obtain ⟨entry, -, describes⟩ := (represents_of_build built).exists_entry place
    exact describes.forall_prepare_eq_ok
  refine {
    prepare_eq := settled
    isPrepared := fun place predicate member =>
      Predicate.isPrepared_of_prepare (settled place predicate member)
    evaluate_eq := fun place predicate member =>
      (Predicate.ready_of_prepare (settled place predicate member)).evaluate_eq
    evaluate_ne := fun place predicate member =>
      Predicate.spares_evaluate (settled place predicate member)
    run_ne := ?_ }
  intro walk id feature fault failed
  obtain ⟨stages, last, features, result, final, -, ran, -, last_visit⟩ :=
    exists_passes_run sound walk
  rw [ran] at failed
  cases failed
  rcases last_visit with ⟨_, _, _, _, _, impossible⟩ | ⟨failure, failure_eq, visited⟩
  · nomatch impossible
  · cases failure_eq
    cases Node.breaks_of_visit visited with
    | fails _ _ fails =>
        rcases fails.cause_or_stopped with cause | stopped
        · cases cause with
          | @faulty predicate _ member meets =>
              obtain ⟨value, faulty⟩ := meets.exists_evaluate_eq_error
              exact Predicate.spares_evaluate (settled last predicate member) value fault faulty
        · nomatch stopped.failure_eq

/-- A condition with a pattern before rules with bounds and a row of choices. -/
def screening : Definition where
  nodes := [
    { id := "request", kind := "start" },
    { id := "staff", kind := "condition"
      settings := .object [
        ("feature", .text "email"), ("operator", .text "LIKE"),
        ("threshold", .text "%@example.org")] },
    { id := "limits", kind := "ruleset"
      settings := .object [
        ("rules", .array [.object [
          ("conditions", .array [
            .object [
              ("feature", .text "amount"), ("operator", .text "BETWEEN"),
              ("threshold", .array [.number (.integer 10), .number (.integer 500)])],
            .object [
              ("feature", .text "country"), ("operator", .text "IN"),
              ("threshold", .array [.text "AT", .text "DE"])]]),
          ("name", .text "ordinary")]])] },
    { id := "pass", kind := "end", tag := "accept" }]
  edges := [
    { source := "request", target := "staff" },
    { source := "staff", target := "pass", branch := some true },
    { source := "staff", target := "limits", branch := some false },
    { source := "limits", target := "pass" }]

section

open scoped Engine.Plain

theorem Graph.prepared_of_build_screening :
    ∃ graph, screening.build (Aliases.ofList []) = .ok graph ∧
      (graph.nodes.toList.flatMap Node.predicates).length = 3 ∧ graph.Prepared := by
  have three : (screening.build (Aliases.ofList [])).toOption.map (fun graph =>
      (graph.nodes.toList.flatMap Node.predicates).length) = some 3 := by
    decide +kernel
  obtain ⟨graph, found, length_eq⟩ := Option.map_eq_some_iff.mp three
  have built := toOption_eq_some.mp found
  exact ⟨graph, built, length_eq, prepared_of_build built⟩

end

end RiskGraph

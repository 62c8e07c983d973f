import RiskGraph.CommandLine.Report
import RiskGraph.Proofs.Bracketing
import RiskGraph.Proofs.Fallible
import RiskGraph.Proofs.Lines
import RiskGraph.Proofs.Mention

/-!
# Faithful reports

The command ends with code 1 exactly if something hinders it from the start, and then it decides
nothing.  Otherwise it reports on every row of features once: on the standard output what was
decided and on the standard error what failed, each with the position of its row and in the order of
rows.  How often the rows are evaluated makes no difference, and neither do the orders in which maps
yield their entries, where these are steady.  A single object is treated like the array of it,
unless its nesting is at the limit.
-/

namespace RiskGraph

theorem Graph.ofText_eq_ok_iff [Engine] [RealReader] {text : String} {aliases : Aliases}
    {graph : Graph} :
    ofText text aliases = .ok graph ↔
      ∃ definition, Definition.ofText text = .ok definition ∧
        definition.build aliases = .ok graph := by
  simp only [ofText, bind_eq_ok, mapError_eq_ok]

namespace CommandLine

/-- Orders that are kept leave the rows as they are. -/
theorem Shuffle.rows_asWritten (rows : List (Table Value)) : asWritten.rows rows = rows := by
  refine List.ext_getElem List.length_mapIdx fun position _ inside => ?_
  simp only [Shuffle.rows, List.getElem_mapIdx]
  exact Table.mapValues_id _

/-! ## What hinders a job -/

/-- JSON data holds rows of features: one in an object, or one in each object of an array. -/
inductive HoldsRows : Json → List (Table Value) → Prop
  | single (members : List (String × Json)) :
      HoldsRows (.object members) [Table.ofList (Json.toEntries members)]
  | several (objects : List (List (String × Json))) :
      HoldsRows (.array (objects.map .object))
        (objects.map fun members => Table.ofList (Json.toEntries members))

/-- Something hinders the command from the start. -/
inductive Arguments.Hindered [Engine] [RealReader] (arguments : Arguments)
    (graphFile featuresFile : Except String String) : Prop
  | noRepetition (none_asked : arguments.repetitions = 0)
  | graphUnread {reason : String} (unread : graphFile = .error reason)
  | featuresUnread {reason : String} (unread : featuresFile = .error reason)
  /-- The text of the graph does not define one. -/
  | notDefinition {text : String} {fault : DefinitionFault} (content : graphFile = .ok text)
      (unread : Definition.ofText text = .error fault)
  /-- The graph that the text defines cannot be built. -/
  | notBuilt {text : String} {definition : Definition} {defect : Defect}
      (content : graphFile = .ok text) (read : Definition.ofText text = .ok definition)
      (defective : definition.build (Aliases.ofList arguments.aliases) = .error defect)
  /-- The text of the features holds no rows of them. -/
  | notRows {text : String} (content : featuresFile = .ok text)
      (none_held : ∀ json rows, Json.ofText? text = some json → ¬HoldsRows json rows)

/-- The files give a graph and rows of features. -/
structure Arguments.SetsUp [Engine] [RealReader] (arguments : Arguments) (shuffle : Shuffle)
    (graphFile featuresFile : Except String String) (job : Job) : Prop where
  repetitions_ne : arguments.repetitions ≠ 0
  built : ∃ text definition, graphFile = .ok text ∧ Definition.ofText text = .ok definition ∧
    definition.build (Aliases.ofList arguments.aliases) = .ok job.graph
  held : ∃ text json rows, featuresFile = .ok text ∧ Json.ofText? text = some json ∧
    HoldsRows json rows ∧ job.rows = shuffle.rows rows

theorem mapM_featuresOf?_eq_some_iff {items : List Json} {rows : List (Table Value)} :
    items.mapM featuresOf? = some rows ↔
      ∃ objects : List (List (String × Json)), items = objects.map .object ∧
        rows = objects.map fun members => Table.ofList (Json.toEntries members) := by
  induction items generalizing rows with
  | nil =>
      constructor
      · rintro ⟨⟩
        exact ⟨[], rfl, rfl⟩
      · rintro ⟨objects, items_eq, rfl⟩
        rw [List.map_eq_nil_iff.mp items_eq.symm]
        rfl
  | cons item items induction =>
      rw [List.mapM_cons, Option.bind_eq_bind, Option.bind_eq_some_iff]
      constructor
      · rintro ⟨row, first, rest⟩
        obtain ⟨others, later, equal⟩ := Option.bind_eq_some_iff.mp rest
        obtain ⟨objects, rfl, rfl⟩ := induction.mp later
        cases equal
        cases item with
        | object members =>
            cases first
            exact ⟨members :: objects, rfl, rfl⟩
        | null | bool | number | text | array => nomatch first
      · rintro ⟨objects, items_eq, rfl⟩
        cases objects with
        | nil => nomatch items_eq
        | cons members objects =>
            cases items_eq
            exact ⟨_, rfl, Option.bind_eq_some_iff.mpr ⟨_, induction.mpr ⟨objects, rfl, rfl⟩, rfl⟩⟩

theorem readFeatures?_eq_some_iff [RealReader] {text : String} {rows : List (Table Value)} :
    readFeatures? text = some rows ↔
      ∃ json, Json.ofText? text = some json ∧ HoldsRows json rows := by
  rw [readFeatures?, Option.bind_eq_some_iff]
  refine exists_congr fun json => and_congr_right fun _ => ⟨fun found => ?_, fun held => ?_⟩
  · cases json with
    | array items =>
        obtain ⟨objects, rfl, rfl⟩ := mapM_featuresOf?_eq_some_iff.mp found
        exact .several objects
    | object members =>
        cases found
        exact .single members
    | null | bool | number | text => nomatch found
  · cases held with
    | single members => rfl
    | several objects => exact mapM_featuresOf?_eq_some_iff.mpr ⟨objects, rfl, rfl⟩

namespace Arguments

variable [Engine] [RealReader] {arguments : Arguments} {shuffle other : Shuffle}
  {graphFile featuresFile : Except String String} {job : Job}

theorem job_eq_ok_iff :
    arguments.job shuffle graphFile featuresFile = .ok job ↔
      arguments.SetsUp shuffle graphFile featuresFile job := by
  unfold Arguments.job fileContent
  split
  · next none_asked => exact iff_of_false nofun fun setsUp => setsUp.repetitions_ne none_asked
  · next asked =>
      simp only [bind_eq_ok, mapError_eq_ok, Graph.ofText_eq_ok_iff]
      constructor
      · rintro ⟨text, content, features, held_in, graph, ⟨definition, read, built⟩, last⟩
        split at last
        · next rows held =>
            cases last
            obtain ⟨json, found, holds⟩ := readFeatures?_eq_some_iff.mp held
            exact ⟨asked, ⟨text, definition, content, read, built⟩,
              ⟨features, json, rows, held_in, found, holds, rfl⟩⟩
        · nomatch last
      · rintro ⟨-, ⟨text, definition, content, read, built⟩,
          ⟨features, json, rows, held_in, found, holds, rows_eq⟩⟩
        refine ⟨text, content, features, held_in, _, ⟨definition, read, built⟩, ?_⟩
        simp only [readFeatures?_eq_some_iff.mpr ⟨json, found, holds⟩, ← rows_eq]

/-- The files give one job only. -/
theorem SetsUp.unique {twin : Job} (setsUp : arguments.SetsUp shuffle graphFile featuresFile job)
    (again : arguments.SetsUp shuffle graphFile featuresFile twin) : twin = job := by
  have outcome := job_eq_ok_iff.mpr setsUp
  rw [job_eq_ok_iff.mpr again, Except.ok.injEq] at outcome
  exact outcome

theorem Hindered.not_setsUp (hindered : arguments.Hindered graphFile featuresFile) :
    ¬arguments.SetsUp shuffle graphFile featuresFile job := by
  rintro ⟨asked, ⟨text, definition, content, read, built⟩,
    ⟨features, json, rows, held_in, found, holds, -⟩⟩
  cases hindered with
  | noRepetition none_asked => exact asked none_asked
  | graphUnread unread => nomatch content.symm.trans unread
  | featuresUnread unread => nomatch held_in.symm.trans unread
  | notDefinition content' unread =>
      cases content.symm.trans content'
      nomatch read.symm.trans unread
  | notBuilt content' read' defective =>
      cases content.symm.trans content'
      cases read.symm.trans read'
      nomatch built.symm.trans defective
  | notRows content' none_held =>
      cases held_in.symm.trans content'
      exact none_held json rows found holds

/-- A job can be set up unless something hinders it. -/
theorem exists_setsUp (shuffle : Shuffle) (free : ¬arguments.Hindered graphFile featuresFile) :
    ∃ job, arguments.SetsUp shuffle graphFile featuresFile job := by
  have asked : arguments.repetitions ≠ 0 := fun none_asked => free (.noRepetition none_asked)
  cases graphFile with
  | error reason => exact absurd (.graphUnread rfl) free
  | ok text =>
      cases featuresFile with
      | error reason => exact absurd (.featuresUnread rfl) free
      | ok features =>
          cases read : Definition.ofText text with
          | error fault => exact absurd (.notDefinition rfl read) free
          | ok definition =>
              cases built : definition.build (Aliases.ofList arguments.aliases) with
              | error defect => exact absurd (.notBuilt rfl read built) free
              | ok graph =>
                  by_cases held : ∃ json rows, Json.ofText? features = some json ∧
                    HoldsRows json rows
                  · obtain ⟨json, rows, found, holds⟩ := held
                    exact ⟨⟨graph, shuffle.rows rows⟩, asked,
                      ⟨text, definition, rfl, read, built⟩,
                      features, json, rows, rfl, found, holds, rfl⟩
                  · refine absurd (.notRows rfl fun json rows found holds => ?_) free
                    exact held ⟨json, rows, found, holds⟩

/-- The orders have to do with the rows of a job only. -/
theorem job_eq_map (arguments : Arguments) (shuffle : Shuffle)
    (graphFile featuresFile : Except String String) :
    arguments.job shuffle graphFile featuresFile =
      (arguments.job .asWritten graphFile featuresFile).map fun job =>
        { job with rows := shuffle.rows job.rows } := by
  rw [Arguments.job, Arguments.job]
  split
  · rfl
  · rw [← bind_ok_eq_map]
    simp only [bind_assoc]
    refine bind_congr fun graphText => bind_congr fun featuresText => bind_congr fun graph => ?_
    cases readFeatures? featuresText with
    | none => rfl
    | some rows =>
        simp only [Shuffle.rows_asWritten]
        rfl

end Arguments

/-! ## Orders of maps -/

/-- The entries that the graph of a job searches are steady in every row. -/
def Job.Steady (job : Job) : Prop :=
  ∀ row ∈ job.rows, job.graph.SearchesSteady row

instance (job : Job) : Decidable job.Steady :=
  inferInstanceAs (Decidable (∀ row ∈ job.rows, _))

/-- A row is the same in any orders. -/
theorem Shuffle.agreeOn_row (shuffle other : Shuffle) (keys : String → Prop) (position : Nat)
    (features : Table Value) :
    (shuffle.row position features).AgreeOn keys (other.row position features) := by
  intro key _
  rw [row, row, Table.get?_mapValues, Table.get?_mapValues]
  cases features.get? key with
  | none => exact .none
  | some value =>
      exact .some ((shuffle.alike position key value).trans (other.alike position key value).symm)

/-- Rows with steady entries are decided on alike in any orders. -/
theorem Job.results_reordered [Engine] {definition : Definition} {aliases : Aliases} {graph : Graph}
    (built : definition.build aliases = .ok graph) {shuffle : Shuffle} {rows : List (Table Value)}
    (steady : Job.Steady { graph, rows := shuffle.rows rows }) (other : Shuffle) :
    Job.results { graph, rows := other.rows rows } =
      Job.results { graph, rows := shuffle.rows rows } := by
  refine List.ext_getElem (by simp [results, Shuffle.rows]) fun position _ inside => ?_
  have inside : position < (shuffle.rows rows).length := by simpa [results] using inside
  have steady := steady _ (List.getElem_mem inside)
  simp only [results, Shuffle.rows, List.getElem_map, List.getElem_mapIdx] at steady ⊢
  refine (graph.decide_eq_of_agreeOn built ?_ (shuffle.agreeOn_row other _ _ _)
    (steady.searchesAlike _)).symm
  rw [Shuffle.row, Shuffle.row, Table.size_mapValues, Table.size_mapValues]

/-! ## What a report tells -/

/-- A text tells of each event once, with its position and in the order of positions. -/
def Tells {α : Type} (text : String) (tell : Nat → α → String) (Happens : Nat → α → Prop) : Prop :=
  ∃ events : List (Nat × α), events.Pairwise (fun former later => former.1 < later.1) ∧
    (∀ position event, (position, event) ∈ events ↔ Happens position event) ∧
      text = String.join (events.map fun event => tell event.1 event.2)

section

variable {α β : Type} {items : List α} {choose : α → Option β}

/-- The chosen parts of items with their positions. -/
def events (choose : α → Option β) (items : List α) : List (Nat × β) :=
  items.zipIdx.filterMap fun item => (choose item.1).map fun event => (item.2, event)

theorem pairwise_events :
    (events choose items).Pairwise fun former later => former.1 < later.1 := by
  have positions : items.zipIdx.Pairwise fun former later => former.2 < later.2 := by
    rw [← List.pairwise_map, List.zipIdx_map_snd]
    exact List.pairwise_lt_range' 1
  refine positions.filterMap _ fun former later before event chosen other other_chosen => ?_
  obtain ⟨_, -, rfl⟩ := Option.map_eq_some_iff.mp chosen
  obtain ⟨_, -, rfl⟩ := Option.map_eq_some_iff.mp other_chosen
  exact before

theorem mem_events_iff {position : Nat} {event : β} :
    (position, event) ∈ events choose items ↔
      ∃ item, items[position]? = some item ∧ choose item = some event := by
  simp only [events, List.mem_filterMap, Option.map_eq_some_iff, Prod.mk.injEq]
  constructor
  · rintro ⟨⟨item, index⟩, member, _, chosen, rfl, rfl⟩
    exact ⟨item, List.mem_zipIdx_iff_getElem?.mp member, chosen⟩
  · rintro ⟨item, found, chosen⟩
    exact ⟨(item, position), List.mem_zipIdx_iff_getElem?.mpr found, event, chosen, rfl, rfl⟩

/-- Text printed for the chosen items only tells of these. -/
theorem join_mapIdx_eq {print : Nat → α → String} {tell : Nat → β → String}
    (printed : ∀ position item,
      print position item = ((choose item).map (tell position)).getD "") :
    String.join (items.mapIdx print) =
      String.join ((events choose items).map fun event => tell event.1 event.2) := by
  rw [List.mapIdx_eq_zipIdx_map, events]
  -- on items with any positions, since the order of these has no part in it
  induction items.zipIdx with
  | nil => rfl
  | cons entry entries induction =>
      obtain ⟨item, position⟩ := entry
      rw [List.map_cons, String.join_cons, induction, List.filterMap_cons]
      dsimp only
      rw [printed]
      cases choose item with
      | none => simp
      | some event => simp [String.join_cons]

theorem tells_mapIdx (choose : α → Option β) {print : Nat → α → String}
    {tell : Nat → β → String} {Happens : Nat → β → Prop}
    (printed : ∀ position item,
      print position item = ((choose item).map (tell position)).getD "")
    (happens_iff : ∀ position event,
      (∃ item, items[position]? = some item ∧ choose item = some event) ↔ Happens position event) :
    Tells (String.join (items.mapIdx print)) tell Happens :=
  ⟨events choose items, pairwise_events,
    fun position event => mem_events_iff.trans (happens_iff position event),
    join_mapIdx_eq printed⟩

end

/-- A report says of each row what the graph makes of it. -/
structure Report.Reflects [Engine] (report : Report) (json : Bool) (job : Job) : Prop where
  code_eq_two : (∃ row ∈ job.rows, ∃ failure, job.graph.decide row = .error failure) →
    report.code = 2
  code_eq_zero : (∀ row ∈ job.rows, ∃ decision, job.graph.decide row = .ok decision) →
    report.code = 0
  /-- Decisions stand on the standard output, one after the other. -/
  output_tells : ∃ decisions, report.output = decisions ++ summary json job.rows.length ∧
    Tells decisions
      (fun position decision =>
        if json then decision.toJson.write ++ "\n" else decisionText position decision)
      fun position decision =>
        ∃ row, job.rows[position]? = some row ∧ job.graph.decide row = .ok decision
  /-- Failures stand on the standard error. -/
  errors_tell : Tells report.errors
    (fun position failure => s!"[{position}] -> Error: {failure.message}\n")
    fun position failure =>
      ∃ row, job.rows[position]? = some row ∧ job.graph.decide row = .error failure

/-- The failure of a result, if it is one. -/
def failureOf? : Except Failure Decision → Option Failure
  | .ok _ => none
  | .error failure => some failure

theorem failureOf?_eq_some_iff {result : Except Failure Decision} {failure : Failure} :
    failureOf? result = some failure ↔ result = .error failure := by
  cases result <;> simp [failureOf?]

theorem reflects_reportResults [Engine] (json : Bool) (job : Job) :
    (reportResults json job.results).Reflects json job where
  code_eq_two := by
    rintro ⟨row, member, failure, failed⟩
    have some_failed : ¬job.results.all Except.isOk = true := by
      intro all_decided
      have decided := List.all_eq_true.mp all_decided _ (List.mem_map_of_mem member)
      rw [failed] at decided
      nomatch decided
    exact if_neg some_failed
  code_eq_zero := by
    intro each
    have all_decided : job.results.all Except.isOk = true := by
      rw [List.all_eq_true, Job.results, List.forall_mem_map]
      intro row member
      obtain ⟨decision, decided⟩ := each row member
      rw [decided]
      rfl
    exact if_pos all_decided
  output_tells := by
    refine ⟨_, by rw [reportResults, Job.results, List.length_map], ?_⟩
    refine tells_mapIdx Except.toOption ?_ fun position decision => ?_
    · rintro position (failure | decision) <;> rfl
    · simp only [List.getElem?_map, Option.map_eq_some_iff, exists_exists_and_eq_and,
        toOption_eq_some]
  errors_tell := by
    refine tells_mapIdx failureOf? ?_ fun position failure => ?_
    · rintro position (failure | decision) <;> rfl
    · simp only [Job.results, List.getElem?_map, Option.map_eq_some_iff, exists_exists_and_eq_and,
        failureOf?_eq_some_iff]

/-! ## The report of a command -/

namespace Arguments

variable [Engine] {arguments : Arguments} {shuffle other : Shuffle}
  {graphFile featuresFile : Except String String} {job : Job}

theorem resultsOf_eq_results {repetitions : Nat} (asked : repetitions ≠ 0) :
    job.resultsOf repetitions = job.results := by
  cases repetitions with
  | zero => exact absurd rfl asked
  | succ repetitions => rfl

theorem reportJob_eq (asked : arguments.repetitions ≠ 0)
    (shared : arguments.json = true ∨ walkCount arguments.repetitions job.rows.length ≠ 0) :
    arguments.reportJob job = reportResults arguments.json job.results := by
  rw [reportJob, if_pos shared, resultsOf_eq_results asked]

theorem code_reportJob_ne_one : (arguments.reportJob job).code ≠ 1 := by
  unfold reportJob reportResults Report.brokenOff
  dsimp only
  split_ifs <;> nofun

variable [RealReader]

/-- The time spent can be shared out to the walks, if it has to be. -/
def Completes (arguments : Arguments) (shuffle : Shuffle)
    (graphFile featuresFile : Except String String) : Prop :=
  ∀ job, arguments.SetsUp shuffle graphFile featuresFile job →
    arguments.json = true ∨ walkCount arguments.repetitions job.rows.length ≠ 0

theorem report_of_setsUp (setsUp : arguments.SetsUp shuffle graphFile featuresFile job) :
    arguments.report shuffle graphFile featuresFile = arguments.reportJob job := by
  rw [report, job_eq_ok_iff.mpr setsUp]

theorem exists_report_of_hindered (hindered : arguments.Hindered graphFile featuresFile) :
    ∃ message, arguments.report shuffle graphFile featuresFile = reportFault message := by
  cases outcome : arguments.job shuffle graphFile featuresFile with
  | ok job => exact absurd (job_eq_ok_iff.mp outcome) hindered.not_setsUp
  | error message => exact ⟨message, by rw [report, outcome]⟩

theorem code_report_eq_one_iff :
    (arguments.report shuffle graphFile featuresFile).code = 1 ↔
      arguments.Hindered graphFile featuresFile := by
  constructor
  · intro code_eq
    by_contra free
    obtain ⟨job, setsUp⟩ := exists_setsUp shuffle free
    rw [report_of_setsUp setsUp] at code_eq
    exact code_reportJob_ne_one code_eq
  · intro hindered
    obtain ⟨message, report_eq⟩ := exists_report_of_hindered hindered
    rw [report_eq]
    rfl

/-- Whatever is left of a report that breaks off, all rows have been reported on before. -/
theorem exists_reflects (setsUp : arguments.SetsUp shuffle graphFile featuresFile job) :
    ∃ whole : Report, whole.Reflects arguments.json job ∧
      (arguments.report shuffle graphFile featuresFile).output = whole.output ∧
      ∃ rest, (arguments.report shuffle graphFile featuresFile).errors = whole.errors ++ rest := by
  refine ⟨_, reflects_reportResults arguments.json job, ?_⟩
  rw [report_of_setsUp setsUp, reportJob, resultsOf_eq_results setsUp.repetitions_ne]
  split
  · exact ⟨rfl, "", String.append_empty.symm⟩
  · exact ⟨rfl, _, rfl⟩

theorem report_reflects (setsUp : arguments.SetsUp shuffle graphFile featuresFile job)
    (completes : arguments.Completes shuffle graphFile featuresFile) :
    (arguments.report shuffle graphFile featuresFile).Reflects arguments.json job := by
  rw [report_of_setsUp setsUp, reportJob_eq setsUp.repetitions_ne (completes job setsUp)]
  exact reflects_reportResults arguments.json job

/-- The arguments with another number of repetitions. -/
def repeated (arguments : Arguments) (repetitions : Nat) : Arguments :=
  { arguments with repetitions }

theorem job_repeated {repetitions : Nat} (asked : arguments.repetitions ≠ 0)
    (asked_again : repetitions ≠ 0) :
    (arguments.repeated repetitions).job shuffle graphFile featuresFile =
      arguments.job shuffle graphFile featuresFile := by
  have asked_repeated : (arguments.repeated repetitions).repetitions ≠ 0 := asked_again
  rw [Arguments.job, Arguments.job, if_neg asked, if_neg asked_repeated]
  rfl

theorem report_repeated {repetitions : Nat} (asked : arguments.repetitions ≠ 0)
    (asked_again : repetitions ≠ 0) (completes : arguments.Completes shuffle graphFile featuresFile)
    (completes_again : (arguments.repeated repetitions).Completes shuffle graphFile featuresFile) :
    (arguments.repeated repetitions).report shuffle graphFile featuresFile =
      arguments.report shuffle graphFile featuresFile := by
  have same : (arguments.repeated repetitions).job shuffle graphFile featuresFile =
      arguments.job shuffle graphFile featuresFile := job_repeated asked asked_again
  cases outcome : arguments.job shuffle graphFile featuresFile with
  | error message => rw [report, report, same, outcome]
  | ok job =>
      have setsUp := job_eq_ok_iff.mp outcome
      have setsUp_again := job_eq_ok_iff.mp (same.trans outcome)
      rw [report_of_setsUp setsUp, report_of_setsUp setsUp_again,
        reportJob_eq asked (completes job setsUp),
        reportJob_eq asked_again (completes_again job setsUp_again)]
      rfl

/-- A job with steady entries is reported on alike in any orders. -/
theorem report_reordered
    (steady : ∀ job, arguments.SetsUp shuffle graphFile featuresFile job → job.Steady) :
    arguments.report other graphFile featuresFile =
      arguments.report shuffle graphFile featuresFile := by
  rw [report, report, job_eq_map arguments other, job_eq_map arguments shuffle]
  cases written : arguments.job .asWritten graphFile featuresFile with
  | error message => rfl
  | ok job =>
      have outcome := job_eq_map arguments shuffle graphFile featuresFile
      rw [written] at outcome
      have setsUp := job_eq_ok_iff.mp outcome
      obtain ⟨_, definition, -, -, built⟩ := setsUp.built
      have same := Job.results_reordered built (steady _ setsUp) other
      change arguments.reportJob _ = arguments.reportJob _
      rw [reportJob, reportJob, resultsOf_eq_results setsUp.repetitions_ne,
        resultsOf_eq_results setsUp.repetitions_ne, same]
      simp only [Shuffle.rows, List.length_mapIdx]

end Arguments

/-! ## A single object -/

theorem job_of_ok [Engine] [RealReader] {arguments : Arguments} {shuffle : Shuffle}
    {graphText featuresText : String} (asked : arguments.repetitions ≠ 0) :
    arguments.job shuffle (.ok graphText) (.ok featuresText) =
      ((Graph.ofText graphText (Aliases.ofList arguments.aliases)).mapError defectMessage).bind
        fun graph =>
          match readFeatures? featuresText with
          | some rows => .ok { graph, rows := shuffle.rows rows }
          | none => .error "Failed to parse features JSON: not rows of features" := by
  rw [Arguments.job, if_neg asked]
  rfl

/-- The report depends on the file of features through the rows in it only. -/
theorem report_congr_features [Engine] [RealReader] {arguments : Arguments} {shuffle : Shuffle}
    {graphFile : Except String String} {text other : String}
    (same : readFeatures? text = readFeatures? other) :
    arguments.report shuffle graphFile (.ok text) =
      arguments.report shuffle graphFile (.ok other) := by
  have same_job : arguments.job shuffle graphFile (.ok text) =
      arguments.job shuffle graphFile (.ok other) := by
    cases graphFile with
    | error reason => rfl
    | ok graphText =>
        by_cases asked : arguments.repetitions = 0
        · rw [Arguments.job, Arguments.job, if_pos asked, if_pos asked]
          rfl
        · rw [job_of_ok asked, job_of_ok asked, same]
  rw [Arguments.report, Arguments.report, same_job]

theorem exists_object_of_toJsonWithin? {members : List (Option String × Document)} {depth : Nat}
    {json : Json} (found : (Document.object members).toJsonWithin? depth = some json) :
    ∃ entries, json = .object entries := by
  obtain ⟨-, found⟩ := Option.ite_none_right_eq_some.mp found
  rw [Document.toJson?] at found
  obtain ⟨row, -, rfl⟩ := Option.map_eq_some_iff.mp found
  exact ⟨_, rfl⟩

theorem readFeatures?_several [RealReader] {text several : String}
    {members : List (Option String × Document)}
    (single_read : Document.ofText? text = some (.object members))
    (several_read : Document.ofText? several = some (.array [.object members]))
    (room : ¬(Document.object members).AtLimit) :
    readFeatures? several = readFeatures? text := by
  rw [readFeatures?, readFeatures?, Json.ofText?, Json.ofText?, single_read, several_read,
    Option.bind_some, Option.bind_some, Document.toJsonWithin?_array_single,
    Document.toJsonWithin?_pred_eq room]
  cases found : (Document.object members).toJsonWithin? Document.depthLimit with
  | none => rfl
  | some json =>
      obtain ⟨entries, rfl⟩ := exists_object_of_toJsonWithin? found
      rfl

/-- What the command says of its job is true. -/
structure Arguments.ReportsFaithfully [Engine] [RealReader] (arguments : Arguments)
    (shuffle : Shuffle) (graphFile : Except String String) : Prop where
  /-- Code 1 stands for what hinders the command from the start. -/
  code_eq_one_iff : ∀ featuresFile, (arguments.report shuffle graphFile featuresFile).code = 1 ↔
    arguments.Hindered graphFile featuresFile
  /-- Then it decides nothing. -/
  output_eq_empty : ∀ featuresFile, arguments.Hindered graphFile featuresFile →
    (arguments.report shuffle graphFile featuresFile).output = ""
  exists_setsUp : ∀ featuresFile, ¬arguments.Hindered graphFile featuresFile →
    ∃ job, arguments.SetsUp shuffle graphFile featuresFile job
  /-- Every row is reported on once, whatever happens to the others. -/
  reflects : ∀ featuresFile job, arguments.SetsUp shuffle graphFile featuresFile job →
    ∃ whole : Report, whole.Reflects arguments.json job ∧
      (arguments.report shuffle graphFile featuresFile).output = whole.output ∧
      ∃ rest, (arguments.report shuffle graphFile featuresFile).errors = whole.errors ++ rest
  /-- The report is whole if nothing breaks it off. -/
  reflects_of_completes : ∀ featuresFile job, arguments.SetsUp shuffle graphFile featuresFile job →
    arguments.Completes shuffle graphFile featuresFile →
      (arguments.report shuffle graphFile featuresFile).Reflects arguments.json job
  /-- A decision takes one line as JSON. -/
  line : ∀ decision : Decision, Json.IsLine decision.toJson.write
  /-- The number of repetitions makes no difference. -/
  report_repeated : ∀ featuresFile repetitions, arguments.repetitions ≠ 0 → repetitions ≠ 0 →
    arguments.Completes shuffle graphFile featuresFile →
    (arguments.repeated repetitions).Completes shuffle graphFile featuresFile →
      (arguments.repeated repetitions).report shuffle graphFile featuresFile =
        arguments.report shuffle graphFile featuresFile
  /-- The orders of maps make none where their entries are steady. -/
  report_reordered : ∀ featuresFile other,
    (∀ job, arguments.SetsUp shuffle graphFile featuresFile job → job.Steady) →
      arguments.report other graphFile featuresFile =
        arguments.report shuffle graphFile featuresFile
  /-- Between brackets an object makes an array of one. -/
  bracketed : ∀ text members, Document.ofText? text = some (.object members) →
    Document.ofText? ("[" ++ text ++ "]") = some (.array [.object members])
  /-- A single object is treated like the array of it, if there is room around it. -/
  report_several : ∀ text several members, Document.ofText? text = some (.object members) →
    Document.ofText? several = some (.array [.object members]) →
    ¬(Document.object members).AtLimit →
      arguments.report shuffle graphFile (.ok several) =
        arguments.report shuffle graphFile (.ok text)
  /-- Else the array cannot be read. -/
  code_several : ∀ several members, Document.ofText? several = some (.array [.object members]) →
    (Document.object members).AtLimit →
      (arguments.report shuffle graphFile (.ok several)).code = 1

theorem report_faithful [Engine] [RealReader] (arguments : Arguments) (shuffle : Shuffle)
    (graphFile : Except String String) : arguments.ReportsFaithfully shuffle graphFile where
  code_eq_one_iff _ := Arguments.code_report_eq_one_iff
  output_eq_empty featuresFile hindered := by
    obtain ⟨message, report_eq⟩ := Arguments.exists_report_of_hindered hindered
    rw [report_eq]
    rfl
  exists_setsUp _ := Arguments.exists_setsUp shuffle
  reflects _ _ := Arguments.exists_reflects
  reflects_of_completes _ _ := Arguments.report_reflects
  line decision := Json.isLine_write decision.toJson
  report_repeated _ _ := Arguments.report_repeated
  report_reordered _ _ := Arguments.report_reordered
  bracketed _ _ := Document.ofText?_bracketed
  report_several text several members single_read several_read room :=
    report_congr_features (readFeatures?_several single_read several_read room)
  code_several several members read limit := by
    refine Arguments.code_report_eq_one_iff.mpr (.notRows rfl fun json rows found => ?_)
    rw [Json.ofText?, read, Option.bind_some, Document.toJsonWithin?_array_single,
      limit.toJsonWithin?_pred] at found
    nomatch found

theorem ofText?_ofList [RealReader] (letters : List Char) :
    Document.ofText? (String.ofList letters) =
      ((letters.foldlM JsonToken.Scanner.step? {}).bind JsonToken.Scanner.finish?).bind
        fun tokens => (tokens.foldlM JsonReader.step? {}).bind JsonReader.finish? := by
  rw [Document.ofText?, JsonToken.scan?, String.toList_ofList]

/-- The letters of a graph that ends where a map holds a number, or else elsewhere. -/
def searchLetters : List Char :=
  ["\x7b\"nodes\":[\x7b\"id\":\"s\",\"kind\":\"start\"\x7d,",
    "\x7b\"id\":\"c\",\"kind\":\"condition\",\"config\":\x7b\"feature\":\"m\",",
    "\"operator\":\"VALUE_EXIST\",\"threshold\":1\x7d\x7d,",
    "\x7b\"id\":\"e\",\"kind\":\"end\"\x7d,\x7b\"id\":\"f\",\"kind\":\"end\"\x7d],",
    "\"edges\":[\x7b\"source\":\"s\",\"target\":\"c\"\x7d,",
    "\x7b\"source\":\"c\",\"target\":\"e\",\"branch\":true\x7d,",
    "\x7b\"source\":\"c\",\"target\":\"f\",\"branch\":false\x7d]\x7d"].flatMap String.toList

/-- The letters of three rows of features, the second of which is empty. -/
def rowsLetters : List Char :=
  "[\x7b\"m\":\x7b\"a\":1,\"b\":2\x7d\x7d,\x7b\x7d,\x7b\"m\":\x7b\"a\":3\x7d\x7d]".toList

section

open scoped Engine.Plain RealReader.InSteps

/-- A job of several rows, with a failure between decisions, is evaluated twice, in any orders of
the maps in it. -/
theorem report_faithful_rows :
    let arguments : Arguments := { graphPath := "g", featuresPath := "f", repetitions := 2 }
    let graphFile : Except String String := .ok (String.ofList searchLetters)
    let featuresFile : Except String String := .ok (String.ofList rowsLetters)
    let report := arguments.report .asWritten graphFile featuresFile
    ∃ job, arguments.SetsUp .asWritten graphFile featuresFile job ∧
      arguments.Completes .asWritten graphFile featuresFile ∧ job.Steady ∧
        job.results.map Except.isOk = [true, false, true] ∧ report.code = 2 ∧
          report.Reflects arguments.json job ∧
            ∀ other, arguments.report other graphFile featuresFile = report := by
  intro arguments graphFile featuresFile report
  have found : (arguments.job .asWritten graphFile featuresFile).toOption.map (fun job =>
      (job.results.map Except.isOk, job.rows.length, decide job.Steady)) =
        some ([true, false, true], 3, true) := by
    rw [job_of_ok (by decide), readFeatures?, Json.ofText?, ofText?_ofList, Graph.ofText,
      Definition.ofText, ofText?_ofList]
    decide +kernel
  obtain ⟨job, set_up, said⟩ := Option.map_eq_some_iff.mp found
  obtain ⟨results_eq, said⟩ := Prod.mk.inj said
  obtain ⟨length_eq, steady⟩ := Prod.mk.inj said
  have setsUp := Arguments.job_eq_ok_iff.mp (toOption_eq_some.mp set_up)
  have completes : arguments.Completes .asWritten graphFile featuresFile := by
    intro twin again
    rw [setsUp.unique again, length_eq]
    decide
  have all_steady : ∀ twin, arguments.SetsUp .asWritten graphFile featuresFile twin →
      twin.Steady := by
    intro twin again
    rw [setsUp.unique again]
    exact of_decide_eq_true steady
  have faithful := report_faithful arguments .asWritten graphFile
  have reflects : report.Reflects arguments.json job :=
    faithful.reflects_of_completes featuresFile job setsUp completes
  refine ⟨job, setsUp, completes, of_decide_eq_true steady, results_eq, reflects.code_eq_two ?_,
    reflects, fun other => faithful.report_reordered featuresFile other all_steady⟩
  have one_failed : false ∈ job.results.map Except.isOk := by
    rw [results_eq]
    decide
  obtain ⟨result, listed, failed⟩ := List.mem_map.mp one_failed
  obtain ⟨row, member, rfl⟩ := List.mem_map.mp listed
  cases outcome : job.graph.decide row with
  | error failure => exact ⟨row, member, failure, outcome⟩
  | ok decision =>
      rw [outcome] at failed
      cases failed

end

/-- A graph that ends at once. -/
def directGraphText : String :=
  "\x7b\"nodes\":[\x7b\"id\":\"s\",\"kind\":\"start\"\x7d," ++
    "\x7b\"id\":\"e\",\"kind\":\"end\"\x7d]," ++
    "\"edges\":[\x7b\"source\":\"s\",\"target\":\"e\"\x7d]\x7d"

/-- The letters of an object with arrays in it, one within the other. -/
def nestedLetters (arrays : Nat) : List Char :=
  "\x7b\"a\":".toList ++ List.replicate arrays '[' ++ List.replicate arrays ']' ++ ['\x7d']

/-- Whether a document is an object. -/
def isObject : Document → Bool
  | .object _ => true
  | _ => false

section

open scoped Engine.Plain RealReader.InSteps

/-- Where 127 arrays and objects lie one within the other, a single object is not treated like the
array of it: the object is decided on, and the array ends the command. -/
theorem single_ne_several :
    let arguments : Arguments := { graphPath := "g", featuresPath := "f", json := true }
    let single := String.ofList (nestedLetters 126)
    let several := "[" ++ single ++ "]"
    (∃ members, Document.ofText? single = some (.object members)) ∧
      (arguments.report .asWritten (.ok directGraphText) (.ok single)).code = 0 ∧
      (arguments.report .asWritten (.ok directGraphText) (.ok several)).code = 1 := by
  intro arguments single several
  have around : several = String.ofList ('[' :: nestedLetters 126 ++ [']']) := by
    simp [several, single, ← String.toList_inj]
  refine ⟨?_, ?_, ?_⟩
  · have shape : (Document.ofText? single).any isObject = true := by
      rw [ofText?_ofList]
      decide +kernel
    obtain ⟨document, read, is_object⟩ := (Option.any_eq_true _ _).mp shape
    cases document with
    | object members => exact ⟨members, read⟩
    | null | bool | number | text | array => cases is_object
  · rw [Arguments.report, job_of_ok (by decide), readFeatures?, Json.ofText?, ofText?_ofList]
    decide +kernel
  · have unread : (Json.ofText? several).isNone := by
      rw [around, Json.ofText?, ofText?_ofList]
      decide +kernel
    refine Arguments.code_report_eq_one_iff.mpr (.notRows rfl fun json rows found => ?_)
    rw [found] at unread
    cases unread

end

end CommandLine
end RiskGraph

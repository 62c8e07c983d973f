import RiskGraph.Proofs.Acceptance

/-!
# Settings of rulesets made strict

A ruleset is made strict by one member of its settings.  Where that member stands among the others
makes no difference, and settings made strict are read as before but for this: they can be read if
they could be read, and give the same rules.
-/

namespace RiskGraph

/-- The ruleset with the same rules that is strict. -/
def Ruleset.madeStrict (ruleset : Ruleset) : Ruleset :=
  { ruleset with strict := true }

/-- Whether a member of an object says if a ruleset is strict. -/
def speaksOfStrictness {α : Type} (member : String × α) : Bool :=
  member.1 = "strict"

/-- Members that say that a ruleset is strict.  Those that say something else than yes or no about
it are none of a ruleset and stay as they are. -/
def strictMembers (members : List (String × Json)) : List (String × Json) :=
  match members.filter speaksOfStrictness with
  | [] | [(_, .bool _)] =>
      setMember "strict" (.bool true) (members.filter (!speaksOfStrictness ·))
  | _ => members

/-- The same for the items of an array, of which the first is the rules. -/
def strictItems : List Json → List Json
  | [rules] | [rules, .bool _] => [rules, .bool true]
  | items => items

/-- Settings of a ruleset that say that it is strict. -/
def Json.madeStrict : Json → Json
  | .object members => .object (strictMembers members)
  | .array items => .array (strictItems items)
  | settings => settings

/-! ## Members in any order -/

theorem exists_setMember_eq {α : Type} {key : String} {members : List (String × α)}
    (absent : key ∉ members.map Prod.fst) (value : α) :
    ∃ before after, members = before ++ after ∧
      setMember key value members = before ++ (key, value) :: after := by
  induction members with
  | nil => exact ⟨[], [], rfl, rfl⟩
  | cons member members induction =>
      rw [List.map_cons, List.mem_cons, not_or] at absent
      rw [setMember]
      split
      · exact ⟨[], member :: members, rfl, rfl⟩
      · rw [if_neg absent.1]
        obtain ⟨before, after, rfl, set_eq⟩ := induction absent.2
        exact ⟨member :: before, after, rfl, by rw [set_eq, List.cons_append]⟩

theorem ofMembers_append (members others : List (String × Json)) :
    Document.ofMembers (members ++ others) =
      Document.ofMembers members ++ Document.ofMembers others := by
  induction members with
  | nil => rfl
  | cons member members induction =>
      simp only [List.cons_append, Document.ofMembers, induction]

namespace Ruleset

/-- Fills a draft with members. -/
def Draft.fillMembers (draft : Draft) (members : List (String × Json)) : Reading Draft :=
  (Document.ofMembers members).foldlM shape.fillMember draft

/-- A draft with what has been said about strictness. -/
def Draft.saying (draft : Draft) (said : Option Bool) : Draft :=
  { draft with strict := said }

namespace Draft

variable {draft filled : Draft} {member : String × Json}
  {members before after : List (String × Json)}

theorem fillMembers_cons (draft : Draft) (member : String × Json)
    (members : List (String × Json)) :
    draft.fillMembers (member :: members) =
      shape.fillMember draft (some member.1, Document.ofJson member.2) >>=
        fun filled => filled.fillMembers members := by
  rw [fillMembers, Document.ofMembers, List.foldlM_cons]
  rfl

theorem fillMembers_append (draft : Draft) (members others : List (String × Json)) :
    draft.fillMembers (members ++ others) =
      draft.fillMembers members >>= fun filled => filled.fillMembers others := by
  rw [fillMembers, ofMembers_append, List.foldlM_append]
  rfl

/-- Other members do not see what has been said about strictness. -/
theorem fillMember_saying (other : speaksOfStrictness member = false) (draft : Draft)
    (said : Option Bool) (content : Document) :
    shape.fillMember (draft.saying said) (some member.1, content) =
      (shape.fillMember draft (some member.1, content)).map (·.saying said) := by
  have apart : member.1 ≠ "strict" := by simpa [speaksOfStrictness] using other
  by_cases rules : member.1 = "rules"
  · simp only [RecordShape.fillMember, shape, rules, fill, saying, fillOnce]
    cases draft.rules with
    | some => rfl
    | none => cases content.readItems Rule.shape.read <;> rfl
  · simp [RecordShape.fillMember, shape, rules, apart, Except.map]

theorem fillMembers_saying (others : ∀ member ∈ members, speaksOfStrictness member = false)
    (draft : Draft) (said : Option Bool) :
    (draft.saying said).fillMembers members =
      (draft.fillMembers members).map (·.saying said) := by
  induction members generalizing draft with
  | nil => rfl
  | cons member members induction =>
      rw [List.forall_mem_cons] at others
      rw [fillMembers_cons, fillMembers_cons, fillMember_saying others.1]
      cases shape.fillMember draft (some member.1, Document.ofJson member.2) with
      | error => rfl
      | ok filled => exact induction others.2 filled

/-- What is said about strictness may be said after all else. -/
theorem fillMembers_strict (others : ∀ member ∈ before ++ after, speaksOfStrictness member = false)
    (strict : Bool) :
    fillMembers {} (before ++ ("strict", .bool strict) :: after) =
      (fillMembers {} (before ++ after)).map (·.saying (some strict)) := by
  rw [List.forall_mem_append] at others
  have first := fillMembers_saying others.1 {} none
  rw [fillMembers_append, fillMembers_append, show fillMembers {} before = _ from first]
  cases fillMembers {} before with
  | error => rfl
  | ok filled =>
      change (filled.saying none).fillMembers _ = ((filled.saying none).fillMembers after).map _
      rw [fillMembers_cons, fillMembers_saying others.2]
      change (filled.saying (some strict)).fillMembers after = _
      rw [fillMembers_saying others.2]
      cases filled.fillMembers after <;> rfl

theorem strict_of_fillMember (other : speaksOfStrictness member = false) {content : Document}
    (read : shape.fillMember draft (some member.1, content) = .ok filled) :
    filled.strict = draft.strict := by
  have same : shape.fillMember draft _ = _ :=
    fillMember_saying other draft draft.strict content
  rw [read] at same
  rw [Except.ok.inj same]
  rfl

theorem exists_of_fillMember_strict {content : Json}
    (read : shape.fillMember draft (some "strict", Document.ofJson content) = .ok filled) :
    ∃ strict, draft.strict = none ∧ content = .bool strict ∧
      filled = draft.saying (some strict) := by
  change (fillOnce "strict" draft.strict (Document.ofJson content).readBool >>=
    fun said => pure (draft.saying said)) = Except.ok filled at read
  obtain ⟨said, filled_once, equal⟩ := bind_eq_ok.mp read
  unfold fillOnce at filled_once
  split at filled_once
  · nomatch filled_once
  · next silent =>
      cases content with
      | bool strict =>
          cases filled_once
          exact ⟨strict, by simpa using silent, rfl, (Except.ok.inj equal).symm⟩
      | _ => nomatch filled_once

/-- Members that can be read speak of strictness once at most, and say yes or no. -/
theorem filter_of_fillMembers (read : draft.fillMembers members = .ok filled) :
    members.filter speaksOfStrictness = [] ∨
      draft.strict = none ∧ ∃ key strict,
        members.filter speaksOfStrictness = [(key, .bool strict)] := by
  induction members generalizing draft with
  | nil => exact Or.inl rfl
  | cons member members induction =>
      rw [fillMembers_cons] at read
      obtain ⟨next, first, rest⟩ := bind_eq_ok.mp read
      cases speaks : speaksOfStrictness member with
      | false =>
          rw [List.filter_cons_of_neg (by simp [speaks]), ← strict_of_fillMember speaks first]
          exact induction rest
      | true =>
          obtain ⟨key, content⟩ := member
          obtain rfl : key = "strict" := of_decide_eq_true speaks
          obtain ⟨strict, silent, rfl, rfl⟩ := exists_of_fillMember_strict first
          rw [List.filter_cons_of_pos speaks]
          rcases induction rest with none_later | ⟨impossible, -⟩
          · exact Or.inr ⟨silent, _, strict, by rw [none_later]⟩
          · nomatch impossible

theorem complete_saying (draft : Draft) (strict : Bool) (fault : String → ShapeFault) :
    (draft.saying (some strict)).complete fault =
      (draft.complete fault).map fun ruleset => { ruleset with strict } := by
  unfold complete saying
  cases draft.rules <;> rfl

end Draft

theorem read_object (members : List (String × Json)) :
    shape.read (Document.ofJson (.object members)) =
      Draft.fillMembers {} members >>= fun draft => draft.complete .missingField :=
  rfl

/-- A member about strictness decides about it, and about nothing else. -/
theorem read_strict {before after : List (String × Json)}
    (others : ∀ member ∈ before ++ after, speaksOfStrictness member = false) (strict : Bool) :
    shape.read (Document.ofJson (.object (before ++ ("strict", .bool strict) :: after))) =
      (shape.read (Document.ofJson (.object (before ++ after)))).map fun ruleset =>
        { ruleset with strict } := by
  rw [read_object, read_object, Draft.fillMembers_strict others]
  cases Draft.fillMembers {} (before ++ after) with
  | error => rfl
  | ok filled => exact filled.complete_saying strict _

theorem read_setMember {members : List (String × Json)}
    (others : ∀ member ∈ members, speaksOfStrictness member = false) :
    shape.read (Document.ofJson (.object (setMember "strict" (.bool true) members))) =
      (shape.read (Document.ofJson (.object members))).map madeStrict := by
  have absent : "strict" ∉ members.map Prod.fst := by
    intro present
    obtain ⟨member, listed, key_eq⟩ := List.mem_map.mp present
    simpa [speaksOfStrictness, key_eq] using others member listed
  obtain ⟨before, after, rfl, set_eq⟩ := exists_setMember_eq absent (.bool true)
  rw [set_eq, read_strict others]
  rfl

theorem read_strictMembers (members : List (String × Json)) :
    shape.read (Document.ofJson (.object (strictMembers members))) =
      (shape.read (Document.ofJson (.object members))).map madeStrict := by
  have others : ∀ member ∈ members.filter (!speaksOfStrictness ·),
      speaksOfStrictness member = false := by
    intro member listed
    simpa using List.of_mem_filter listed
  unfold strictMembers
  split
  · next silent =>
      have rest_eq : members.filter (!speaksOfStrictness ·) = members := by
        simpa using silent
      rw [read_setMember others, rest_eq]
  · next key strict said =>
      obtain ⟨before, after, rfl, none_before, speaks, none_after⟩ :=
        List.filter_eq_cons_iff.mp said
      obtain rfl : key = "strict" := of_decide_eq_true speaks
      have rest_eq : (before ++ ("strict", Json.bool strict) :: after).filter
          (!speaksOfStrictness ·) = before ++ after := by
        rw [List.filter_append, List.filter_cons_of_neg (by simpa using speaks)]
        congr 1
        · simpa using none_before
        · simpa using none_after
      rw [read_setMember others, rest_eq, read_strict (rest_eq ▸ others)]
      cases shape.read (Document.ofJson (.object (before ++ after))) <;> rfl
  · next not_silent not_said =>
      -- such members cannot be read, so that nothing is lost by leaving them alone
      rw [read_object]
      cases filled_eq : Draft.fillMembers {} members with
      | error => rfl
      | ok filled =>
          rcases Draft.filter_of_fillMembers filled_eq with silent | ⟨-, key, strict, said⟩
          · exact absurd silent not_silent
          · exact absurd said (not_said key strict)

/-- Reads what follows the rules in an array. -/
def readOthers (rules : List Rule) : List Document → Reading Ruleset
  | [] => .ok { rules }
  | [said] => said.readBool.map fun strict => { rules, strict }
  | said :: others => do
      let _ ← said.readBool
      .error (.tooLong (others.length + 2))

theorem read_array (rules : Json) (others : List Json) :
    shape.read (Document.ofJson (.array (rules :: others))) =
      (Document.ofJson rules).readItems Rule.shape.read >>= fun rules =>
        readOthers rules (Document.ofItems others) := by
  rcases others with _ | ⟨said, _ | ⟨item, items⟩⟩ <;>
    simp only [Document.ofJson, Document.ofItems, RecordShape.read, RecordShape.ofItems, shape,
      List.zip_cons_cons, List.foldlM_cons, Draft.fill, fillOnce, readOthers]
  · cases (Document.ofJson rules).readItems Rule.shape.read <;> rfl
  · cases (Document.ofJson rules).readItems Rule.shape.read with
    | error => rfl
    | ok => cases (Document.ofJson said).readBool <;> rfl
  · cases (Document.ofJson rules).readItems Rule.shape.read with
    | error => rfl
    | ok => cases (Document.ofJson said).readBool <;> rfl

theorem read_strictItems (items : List Json) :
    shape.read (Document.ofJson (.array (strictItems items))) =
      (shape.read (Document.ofJson (.array items))).map madeStrict := by
  unfold strictItems
  split
  · next rules =>
      rw [read_array, read_array]
      cases (Document.ofJson rules).readItems Rule.shape.read <;> rfl
  · next rules strict =>
      rw [read_array, read_array]
      cases (Document.ofJson rules).readItems Rule.shape.read <;> rfl
  · next not_rules not_said =>
      rcases items with _ | ⟨rules, _ | ⟨said, _ | ⟨item, items⟩⟩⟩
      · rfl
      · exact absurd rfl (not_rules rules)
      · rw [read_array]
        cases (Document.ofJson rules).readItems Rule.shape.read with
        | error => rfl
        | ok =>
            cases said with
            | bool strict => exact absurd rfl (not_said rules strict)
            | _ => rfl
      · rw [read_array]
        cases (Document.ofJson rules).readItems Rule.shape.read with
        | error => rfl
        | ok rules =>
            change readOthers rules (_ :: _ :: _) = (readOthers rules (_ :: _ :: _)).map madeStrict
            rw [readOthers]
            · cases (Document.ofJson said).readBool <;> rfl
            · simp

/-- Settings made strict can be read if they could be read, and give the same rules. -/
theorem read_madeStrict (settings : Json) :
    shape.read (Document.ofJson settings.madeStrict) =
      (shape.read (Document.ofJson settings)).map madeStrict := by
  cases settings with
  | object members => exact read_strictMembers members
  | array items => exact read_strictItems items
  | null | bool | number | text => rfl

example :
    (Json.object [("rules", .array []), ("strict", .bool false), ("weight", .null)]).madeStrict =
      .object [("rules", .array []), ("strict", .bool true), ("weight", .null)] := by
  rfl

theorem prepare_madeStrict [Engine] (ruleset : Ruleset) :
    ruleset.madeStrict.prepare = ruleset.prepare.map madeStrict := by
  unfold prepare madeStrict
  cases ruleset.rules.isEmpty with
  | true => rfl
  | false => cases ruleset.rules.mapM Rule.prepare <;> rfl

end Ruleset

/-! ## Nodes -/

/-- The task with its rules strict, if it is a ruleset. -/
def Task.madeStrict : Task → Task
  | .ruleset rules => .ruleset rules.madeStrict
  | task => task

/-- The entry with settings made strict, if it is a ruleset under one of the identifiers. -/
def NodeEntry.madeStrict (entry : NodeEntry) (aliases : Aliases) (ids : List String) : NodeEntry :=
  if entry.id ∈ ids ∧ aliases.resolve? entry.kind = some .ruleset then
    { entry with settings := entry.settings.madeStrict }
  else entry

/-- The node with its rules strict, if it is a ruleset under one of the identifiers. -/
def Node.madeStrict (node : Node) (ids : List String) : Node :=
  if node.id ∈ ids then { node with task := node.task.madeStrict } else node

theorem Task.madeStrict_of_kind {task : Task} (other : task.kind ≠ .ruleset) :
    task.madeStrict = task := by
  cases task with
  | ruleset => exact absurd rfl other
  | start | finish | condition | scorecard => rfl

namespace NodeEntry

variable {entry twin : NodeEntry} {aliases : Aliases} {ids : List String} {kind : NodeKind}

theorem id_madeStrict : (entry.madeStrict aliases ids).id = entry.id := by
  unfold madeStrict
  split <;> rfl

theorem kind_madeStrict : (entry.madeStrict aliases ids).kind = entry.kind := by
  unfold madeStrict
  split <;> rfl

theorem identity_madeStrict : (entry.madeStrict aliases ids).identity = entry.identity := by
  unfold madeStrict
  split <;> rfl

variable [Engine]

/-- Settings made strict give the same task but for this. -/
theorem task_ruleset_madeStrict (entry : NodeEntry) :
    task { entry with settings := entry.settings.madeStrict } .ruleset =
      (entry.task .ruleset).map Task.madeStrict := by
  simp only [task, settle, Ruleset.read_madeStrict]
  cases Ruleset.shape.read (Document.ofJson entry.settings) with
  | error => rfl
  | ok raw =>
      simp only [Except.map, Except.mapError, bind, Except.bind, Ruleset.prepare_madeStrict]
      cases raw.prepare <;> rfl

theorem task_madeStrict (known : aliases.resolve? entry.kind = some kind) :
    (entry.madeStrict aliases ids).task kind =
      (entry.task kind).map fun task => if entry.id ∈ ids then task.madeStrict else task := by
  by_cases chosen : entry.id ∈ ids
  · by_cases ruleset : kind = .ruleset
    · subst ruleset
      rw [madeStrict, if_pos ⟨chosen, known⟩, task_ruleset_madeStrict]
      simp only [if_pos chosen]
    · have other : ¬(entry.id ∈ ids ∧ aliases.resolve? entry.kind = some .ruleset) := by
        simp [known, ruleset]
      rw [madeStrict, if_neg other]
      cases settled : entry.task kind with
      | error => rfl
      | ok task =>
          rw [← kind_of_task settled] at ruleset
          simp [Except.map, Task.madeStrict_of_kind ruleset]
  · have other : ¬(entry.id ∈ ids ∧ aliases.resolve? entry.kind = some .ruleset) :=
      fun both => chosen both.1
    rw [madeStrict, if_neg other]
    cases entry.task kind <;> simp [Except.map, chosen]

theorem hasSettings_madeStrict_iff (known : aliases.resolve? entry.kind = some kind) :
    (entry.madeStrict aliases ids).HasSettings kind ↔ entry.HasSettings kind := by
  rw [← exists_task_eq_ok, ← exists_task_eq_ok, task_madeStrict known]
  cases entry.task kind <;> simp [Except.map]

/-- The entry made strict describes the node made strict. -/
theorem Describes.eq_madeStrict {node other : Node} (describes : entry.Describes aliases node)
    (twin_describes : (entry.madeStrict aliases ids).Describes aliases other) :
    other = node.madeStrict ids := by
  have identity_eq : other.identity = node.identity := by
    rw [twin_describes.identity_eq, identity_madeStrict, describes.identity_eq]
  have kind_eq : other.kind = node.kind := by
    rw [← Option.some_inj, ← twin_describes.kind_eq, kind_madeStrict, describes.kind_eq]
  have settled := twin_describes.task_eq
  rw [kind_eq, task_madeStrict describes.kind_eq, describes.task_eq] at settled
  have task_eq := (Except.ok.inj settled).symm
  have id_eq : node.id = entry.id := describes.id_eq
  obtain ⟨identity, task⟩ := other
  simp only at identity_eq task_eq
  subst identity_eq task_eq
  rw [Node.madeStrict, id_eq]
  split <;> rfl

end NodeEntry

/-! ## Definitions -/

/-- The definition with the rulesets under the identifiers made strict. -/
def Definition.madeStrict (definition : Definition) (aliases : Aliases) (ids : List String) :
    Definition :=
  { definition with nodes := definition.nodes.map (·.madeStrict aliases ids) }

variable [Engine]

/-- Two entries are alike in identifier and kind, and in whether their settings are sound. -/
structure NodeEntry.Alike (entry other : NodeEntry) (aliases : Aliases) : Prop where
  id_eq : other.id = entry.id
  kind_eq : other.kind = entry.kind
  settings_iff : ∀ kind, aliases.resolve? entry.kind = some kind →
    (other.HasSettings kind ↔ entry.HasSettings kind)

/-- Two definitions have the same edges and nodes that are alike. -/
structure Definition.Alike (definition twin : Definition) (aliases : Aliases) : Prop where
  edges_eq : twin.edges = definition.edges
  nodes_alike : List.Forall₂ (fun entry other => entry.Alike other aliases) definition.nodes
    twin.nodes

namespace Definition

variable {definition twin : Definition} {aliases : Aliases}

theorem Alike.symm (alike : definition.Alike twin aliases) : twin.Alike definition aliases where
  edges_eq := alike.edges_eq.symm
  nodes_alike := by
    refine alike.nodes_alike.flip.imp ?_
    rintro other entry ⟨id_eq, kind_eq, settings_iff⟩
    exact ⟨id_eq.symm, kind_eq.symm, fun kind known =>
      (settings_iff kind (kind_eq ▸ known)).symm⟩

/-- Of definitions that are alike one is well formed if the other one is. -/
theorem Alike.wellFormed (alike : definition.Alike twin aliases)
    (wellFormed : definition.WellFormed aliases) : twin.WellFormed aliases := by
  have length_eq : definition.size = twin.size := alike.nodes_alike.length_eq
  have alike_at : ∀ place : Fin twin.size,
      (definition.entry (place.cast length_eq.symm)).Alike (twin.entry place) aliases :=
    fun place => (List.forall₂_iff_get.mp alike.nodes_alike).2 _ _ place.isLt
  have exists_entry : ∀ other ∈ twin.nodes, ∃ entry ∈ definition.nodes,
      entry.Alike other aliases := by
    intro other member
    obtain ⟨place, rfl⟩ := mem_nodes_iff.mp member
    exact ⟨_, mem_nodes_iff.mpr ⟨_, rfl⟩, alike_at place⟩
  have ids_eq : twin.nodes.map NodeEntry.id = definition.nodes.map NodeEntry.id := by
    symm
    rw [← List.forall₂_eq_eq_eq, List.forall₂_map_left_iff, List.forall₂_map_right_iff]
    exact alike.nodes_alike.imp fun _ _ same => same.id_eq.symm
  have edgesFrom_eq : twin.edgesFrom = definition.edgesFrom := by
    funext id
    rw [edgesFrom, edgesFrom, alike.edges_eq]
  have leads_eq : twin.Leads = definition.Leads := by
    funext source target
    rw [Leads, Leads, alike.edges_eq]
  have defined_iff : ∀ id, (∃ entry ∈ twin.nodes, entry.id = id) ↔
      ∃ entry ∈ definition.nodes, entry.id = id := by
    simp only [← List.mem_map, ids_eq, implies_true]
  constructor
  case distinct =>
    rw [Distinct, ids_eq]
    exact wellFormed.distinct
  case kinds_known =>
    intro other member
    obtain ⟨entry, entry_member, same⟩ := exists_entry other member
    rw [same.kind_eq]
    exact wellFormed.kinds_known entry entry_member
  case single_start =>
    obtain ⟨start, start_eq, unique⟩ := wellFormed.single_start
    refine ⟨start.cast length_eq, ?_, fun place place_eq => ?_⟩
    · exact (congrArg aliases.resolve? (alike_at _).kind_eq).trans start_eq
    · rw [← unique _ ((congrArg aliases.resolve? (alike_at place).kind_eq).symm.trans place_eq)]
      rfl
  case sources_defined =>
    intro edge member
    rw [defined_iff]
    exact wellFormed.sources_defined edge (alike.edges_eq ▸ member)
  case targets_defined =>
    intro edge member
    rw [defined_iff]
    exact wellFormed.targets_defined edge (alike.edges_eq ▸ member)
  case start_unentered =>
    intro edge edge_member other member is_start
    obtain ⟨entry, entry_member, same⟩ := exists_entry other member
    rw [same.id_eq]
    exact wellFormed.start_unentered edge (alike.edges_eq ▸ edge_member) entry entry_member
      (same.kind_eq ▸ is_start)
  case edges_suit =>
    intro other member kind known
    obtain ⟨entry, entry_member, same⟩ := exists_entry other member
    rw [edgesFrom_eq, same.id_eq]
    exact wellFormed.edges_suit entry entry_member kind (same.kind_eq ▸ known)
  case acyclic =>
    rw [leads_eq]
    exact wellFormed.acyclic
  case settings_sound =>
    intro other member kind known
    obtain ⟨entry, entry_member, same⟩ := exists_entry other member
    rw [same.kind_eq] at known
    exact (same.settings_iff kind known).mpr
      (wellFormed.settings_sound entry entry_member kind known)

theorem alike_madeStrict (definition : Definition) (aliases : Aliases) (ids : List String) :
    definition.Alike (definition.madeStrict aliases ids) aliases where
  edges_eq := rfl
  nodes_alike := by
    rw [madeStrict, List.forall₂_map_right_iff, List.forall₂_same]
    intro entry _
    exact ⟨NodeEntry.id_madeStrict, NodeEntry.kind_madeStrict, fun _ =>
      NodeEntry.hasSettings_madeStrict_iff⟩

end Definition

end RiskGraph

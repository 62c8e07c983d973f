import Mathlib.Data.List.DropRight
import Mathlib.Data.List.Induction
import RiskGraph.Proofs.Stages

/-!
# Aliases and the texts they apply to

A text names the kind of the last alias that applies to it, and without one the kind that it names
by itself.  Kinds are looked up without the blank space around them, but aliases are entered with
it, so that an alias with blank space around its name never applies.
-/

namespace RiskGraph

/-! ## Blank space and letter case -/

theorem isBlank_eq_false {c : Char} (above : 0x20 < c.toNat) (below : c.toNat < 0x85) :
    isBlank c = false := by
  simp only [isBlank, Bool.or_eq_false_iff, Bool.and_eq_false_iff, decide_eq_false_iff_not,
    beq_eq_false_iff_ne]
  omega

/-- Letters of either case are not blank. -/
theorem isBlank_toLower (c : Char) : isBlank c.toLower = isBlank c := by
  unfold Char.toLower
  split
  · next upper =>
      have first : 65 ≤ c.toNat := UInt32.le_iff_toNat_le.mp upper.1
      have last : c.toNat ≤ 90 := UInt32.le_iff_toNat_le.mp upper.2
      have lower_eq : (c.val + ('a'.val - 'A'.val)).toNat = c.toNat + 32 := by
        rw [UInt32.toNat_add]
        change (c.toNat + 32) % 2 ^ 32 = c.toNat + 32
        omega
      rw [@isBlank_eq_false c (by omega) (by omega)]
      apply isBlank_eq_false
      all_goals
        rw [Char.toNat, lower_eq]
        omega
  · rfl

theorem toList_trim (text : String) :
    (trim text).toList = (text.toList.dropWhile isBlank).rdropWhile isBlank :=
  String.toList_ofList

theorem toList_lowerCase (text : String) :
    (lowerCase text).toList = text.toList.map Char.toLower :=
  String.toList_ofList

theorem trim_lowerCase (text : String) : trim (lowerCase text) = lowerCase (trim text) := by
  have kept : isBlank ∘ Char.toLower = isBlank := funext isBlank_toLower
  rw [← String.toList_inj, toList_trim, toList_lowerCase, toList_lowerCase, toList_trim]
  simp only [List.rdropWhile, List.dropWhile_map, ← List.map_reverse, kept]

theorem dropWhile_of_isPrefix {α : Type} {p : α → Bool} {front text : List α}
    (leads : front <+: text) (kept : text.dropWhile p = text) : front.dropWhile p = front := by
  cases front with
  | nil => rfl
  | cons first rest =>
      obtain ⟨others, rfl⟩ := leads
      have stays : ¬p first := List.dropWhile_eq_self_iff.mp kept (by simp)
      rw [List.dropWhile_cons_of_neg stays]

theorem trim_trim (text : String) : trim (trim text) = trim text := by
  rw [← String.toList_inj, toList_trim (trim text), toList_trim text,
    dropWhile_of_isPrefix (List.rdropWhile_prefix _ _) (List.dropWhile_idempotent _ _),
    List.rdropWhile_idempotent]

theorem toList_trim_sublist (text : String) : (trim text).toList.Sublist text.toList := by
  rw [toList_trim]
  exact (List.rdropWhile_prefix _ _).sublist.trans (List.dropWhile_sublist _)

/-- In lower case a name is a folded text exactly if it folds to the same and there is no blank
space around it. -/
theorem lowerCase_eq_fold_iff {name text : String} :
    lowerCase name = NodeKind.fold text ↔
      trim name = name ∧ NodeKind.fold name = NodeKind.fold text := by
  simp only [NodeKind.fold]
  constructor
  · intro same
    have trimmed : lowerCase (trim name) = lowerCase name := by
      rw [← trim_lowerCase, same, trim_lowerCase, trim_trim]
    have length_eq := congrArg (fun text => text.toList.length) trimmed
    simp only [toList_lowerCase, List.length_map] at length_eq
    exact ⟨String.toList_inj.mp ((toList_trim_sublist name).eq_of_length length_eq),
      trimmed.trans same⟩
  · rintro ⟨trimmed, same⟩
    rw [← same, trimmed]

/-! ## What a text names -/

namespace Aliases

/-- An alias applies to a text: its name is that of the text, but for blank space around it and
letter case, and it stands for a kind. -/
structure Applies (pair : String × String) (text : String) (kind : NodeKind) : Prop where
  name_eq : NodeKind.fold pair.1 = NodeKind.fold text
  kind_eq : NodeKind.ofText? pair.2 = some kind

/-- What a text names under a row of aliases, if anything. -/
inductive Names (pairs : List (String × String)) (text : String) : Option NodeKind → Prop
  /-- Of the aliases that apply the last one counts. -/
  | byAlias {before after : List (String × String)} {pair : String × String} {kind : NodeKind}
      (pairs_eq : pairs = before ++ pair :: after) (applies : Applies pair text kind)
      (last : ∀ later ∈ after, ∀ other, ¬Applies later text other) : Names pairs text (some kind)
  /-- If none does, the text counts by itself. -/
  | byItself (none_applies : ∀ pair ∈ pairs, ∀ kind, ¬Applies pair text kind) :
      Names pairs text (NodeKind.ofText? text)

/-- The aliases whose names have no blank space around them. -/
def unpadded (pairs : List (String × String)) : List (String × String) :=
  pairs.filter fun pair => trim pair.1 = pair.1

variable {aliases : Aliases} {pairs : List (String × String)} {pair : String × String}
  {text : String} {named : Option NodeKind}

/-- A further alias counts before the others. -/
theorem names_concat_iff :
    Names (pairs ++ [pair]) text named ↔
      (∃ kind, Applies pair text kind ∧ named = some kind) ∨
        (∀ kind, ¬Applies pair text kind) ∧ Names pairs text named := by
  constructor
  · intro names
    cases names with
    | @byAlias before after found kind pairs_eq applies last =>
        rcases List.eq_nil_or_concat' after with rfl | ⟨others, final, rfl⟩
        · obtain ⟨-, equal⟩ := List.append_inj' pairs_eq rfl
          cases equal
          exact .inl ⟨kind, applies, rfl⟩
        · rw [← List.cons_append, ← List.append_assoc] at pairs_eq
          obtain ⟨front_eq, equal⟩ := List.append_inj' pairs_eq rfl
          cases equal
          rw [List.forall_mem_append, List.forall_mem_singleton] at last
          exact .inr ⟨last.2, .byAlias front_eq applies last.1⟩
    | byItself none_applies =>
        rw [List.forall_mem_append, List.forall_mem_singleton] at none_applies
        exact .inr ⟨none_applies.2, .byItself none_applies.1⟩
  · rintro (⟨kind, applies, rfl⟩ | ⟨spared, names⟩)
    · exact .byAlias rfl applies (by simp)
    · cases names with
      | byAlias pairs_eq applies last =>
          refine .byAlias (by rw [pairs_eq, List.append_assoc, List.cons_append]) applies ?_
          exact List.forall_mem_append.mpr ⟨last, List.forall_mem_singleton.mpr spared⟩
      | byItself none_applies =>
          refine .byItself ?_
          exact List.forall_mem_append.mpr ⟨none_applies, List.forall_mem_singleton.mpr spared⟩

/-- An alias is found under its name in lower case, and before those entered earlier. -/
theorem resolve?_add (name kindName : String) :
    (aliases.add name kindName).resolve? text =
      if lowerCase name = NodeKind.fold text then
        (NodeKind.ofText? kindName).or (aliases.resolve? text)
      else aliases.resolve? text := by
  unfold add
  cases NodeKind.ofText? kindName with
  | none => simp
  | some kind =>
      by_cases same : lowerCase name = NodeKind.fold text
      · simp [resolve?, same]
      · simp [resolve?, same, Table.get?_insert_of_ne _ (Ne.symm same)]

theorem ofList_concat : ofList (pairs ++ [pair]) = (ofList pairs).add pair.1 pair.2 := by
  simp [ofList]

/-- Under no aliases a text counts by itself. -/
theorem names_nil_iff : Names [] text named ↔ NodeKind.ofText? text = named := by
  constructor
  · intro names
    cases names with
    | byAlias pairs_eq => simp at pairs_eq
    | byItself => rfl
  · rintro rfl
    exact .byItself (by simp)

/-- Texts are resolved by the aliases that have no blank space around their names. -/
theorem resolve?_ofList_eq_iff :
    (ofList pairs).resolve? text = named ↔ Names (unpadded pairs) text named := by
  induction pairs using List.reverseRecOn generalizing named with
  | nil =>
      rw [unpadded, List.filter_nil, names_nil_iff]
      rfl
  | append_singleton pairs pair induction =>
      rw [ofList_concat, resolve?_add, unpadded, List.filter_append, ← unpadded]
      by_cases trimmed : trim pair.1 = pair.1
      · have applies_iff : ∀ kind, Applies pair text kind ↔
            lowerCase pair.1 = NodeKind.fold text ∧ NodeKind.ofText? pair.2 = some kind := by
          intro kind
          rw [lowerCase_eq_fold_iff, and_iff_right trimmed]
          exact ⟨fun applies => ⟨applies.name_eq, applies.kind_eq⟩, fun ⟨name_eq, kind_eq⟩ =>
            ⟨name_eq, kind_eq⟩⟩
        have kept : [pair].filter (fun pair => trim pair.1 = pair.1) = [pair] := by
          simp [trimmed]
        rw [kept, names_concat_iff, ← induction]
        simp only [applies_iff]
        by_cases found : lowerCase pair.1 = NodeKind.fold text
        · cases NodeKind.ofText? pair.2 <;> simp [found, eq_comm]
        · simp [found]
      · have dropped : [pair].filter (fun pair => trim pair.1 = pair.1) = [] := by
          simp [trimmed]
        have unheard : lowerCase pair.1 ≠ NodeKind.fold text := fun found =>
          trimmed (lowerCase_eq_fold_iff.mp found).1
        rw [dropped, List.append_nil, if_neg unheard, induction]

theorem unpadded_eq_self (trimmed : ∀ pair ∈ pairs, trim pair.1 = pair.1) :
    unpadded pairs = pairs :=
  List.filter_eq_self.mpr fun pair member => decide_eq_true (trimmed pair member)

/-! ## Kinds of nodes -/

/-- Texts and nodes have the kinds that a row of aliases gives them. -/
structure GivenBy (aliases : Aliases) (pairs : List (String × String)) : Prop where
  resolve?_iff : ∀ text named, aliases.resolve? text = named ↔ Names pairs text named
  /-- A node is of the kind that its text names. -/
  known_iff : ∀ (definition : Definition) place kind,
    definition.kindAt aliases place = .ok kind ↔
      Names pairs (definition.entry place).kind (some kind)
  /-- A node whose text names nothing is reported with it. -/
  unknown_iff : ∀ (definition : Definition) place defect,
    definition.kindAt aliases place = .error defect ↔
      Names pairs (definition.entry place).kind none ∧
        defect = .unknownKind (definition.entry place).id (definition.entry place).kind

theorem kindAt_eq_error_iff {definition : Definition} {place : Fin definition.size}
    {defect : Defect} :
    definition.kindAt aliases place = .error defect ↔
      aliases.resolve? (definition.entry place).kind = none ∧
        defect = .unknownKind (definition.entry place).id (definition.entry place).kind := by
  rw [Definition.kindAt]
  cases aliases.resolve? (definition.entry place).kind <;> simp [eq_comm]

theorem givenBy_of_resolve?_iff
    (resolve?_iff : ∀ text named, aliases.resolve? text = named ↔ Names pairs text named) :
    aliases.GivenBy pairs := by
  constructor
  case resolve?_iff => exact resolve?_iff
  case known_iff =>
    intro definition place kind
    rw [Definition.kindAt_eq_ok_iff, resolve?_iff]
  case unknown_iff =>
    intro definition place defect
    rw [kindAt_eq_error_iff, resolve?_iff]

/-- The aliases without blank space around their names give texts and nodes their kinds; if there
are no others, all do. -/
theorem givenBy_ofList (pairs : List (String × String)) :
    (ofList pairs).GivenBy (unpadded pairs) ∧
      ((∀ pair ∈ pairs, trim pair.1 = pair.1) → (ofList pairs).GivenBy pairs) := by
  have given : (ofList pairs).GivenBy (unpadded pairs) :=
    givenBy_of_resolve?_iff fun _ _ => resolve?_ofList_eq_iff
  refine ⟨given, fun trimmed => ?_⟩
  rwa [unpadded_eq_self trimmed] at given

/-- An alias is not even found under the very text that it was entered for. -/
theorem padded_alias_unheard :
    Names [(" Verdict ", "end")] " Verdict " (some .finish) ∧
      (ofList [(" Verdict ", "end")]).resolve? " Verdict " = none := by
  refine ⟨?_, by decide +kernel⟩
  exact .byAlias (List.nil_append _).symm ⟨rfl, by decide +kernel⟩ (by simp)

end Aliases
end RiskGraph

import Mathlib.Data.List.Forall2
import Mathlib.Data.List.Infix
import RiskGraph.Comparison.Basic
import RiskGraph.Proofs.Fallible

/-!
# What a pattern takes

A pattern takes a text if the text can be cut into parts, one for each character of the pattern, so
that each character takes its part.  The rows of the matcher say this of all tails of the pattern,
for longer and longer tails of the text.  Since no wild card takes a line feed, the texts that are
taken are those that can be cut in any way and have as many line feeds as the pattern.
-/

namespace RiskGraph
namespace Pattern

/-- What a character of a written pattern takes, if wild cards take characters of a certain sort:
the percent sign a possibly empty run, the underscore one character, and others themselves. -/
inductive Takes (wild : Char → Prop) : Char → List Char → Prop
  | run {part : List Char} (all_wild : ∀ c ∈ part, wild c) : Takes wild '%' part
  | any {c : Char} (is_wild : wild c) : Takes wild '_' [c]
  | exactly {c : Char} (not_run : c ≠ '%') (not_any : c ≠ '_') : Takes wild c [c]

/-- A text can be cut into parts that the characters of a pattern take in turn. -/
def Cuts (wild : Char → Prop) (pattern text : List Char) : Prop :=
  ∃ parts, List.Forall₂ (Takes wild) pattern parts ∧ parts.flatten = text

variable {wild : Char → Prop} {c d : Char} {pattern text : List Char}

/-! ## One character of a pattern after the other -/

@[simp]
theorem cuts_nil_iff : Cuts wild [] text ↔ text = [] := by
  constructor
  · rintro ⟨_, ⟨⟩, rfl⟩
    rfl
  · rintro rfl
    exact ⟨[], .nil, rfl⟩

theorem cuts_cons_iff :
    Cuts wild (d :: pattern) text ↔
      ∃ part rest, Takes wild d part ∧ Cuts wild pattern rest ∧ part ++ rest = text := by
  constructor
  · rintro ⟨_, parts_taken, rfl⟩
    obtain ⟨part, parts, taken, others_taken, rfl⟩ := List.forall₂_cons_left_iff.mp parts_taken
    exact ⟨part, parts.flatten, taken, ⟨parts, others_taken, rfl⟩, rfl⟩
  · rintro ⟨part, _, taken, ⟨parts, others_taken, rfl⟩, rfl⟩
    exact ⟨part :: parts, .cons taken others_taken, rfl⟩

/-- Nothing but the percent sign can do without a character. -/
theorem cuts_cons_nil_iff : Cuts wild (d :: pattern) [] ↔ d = '%' ∧ Cuts wild pattern [] := by
  rw [cuts_cons_iff]
  constructor
  · rintro ⟨part, rest, taken, rest_cut, empty⟩
    obtain ⟨rfl, rfl⟩ := List.append_eq_nil_iff.mp empty
    cases taken
    exact ⟨rfl, rest_cut⟩
  · rintro ⟨rfl, rest_cut⟩
    exact ⟨[], [], .run nofun, rest_cut, rfl⟩

/-- A run is empty, or it takes a character and goes on. -/
theorem cuts_run_cons_iff :
    Cuts wild ('%' :: pattern) (c :: text) ↔
      Cuts wild pattern (c :: text) ∨ wild c ∧ Cuts wild ('%' :: pattern) text := by
  rw [cuts_cons_iff]
  constructor
  · rintro ⟨part, rest, taken, rest_cut, whole⟩
    cases taken with
    | exactly not_run => exact absurd rfl not_run
    | run all_wild =>
        cases part with
        | nil => exact .inl (whole ▸ rest_cut)
        | cons first part =>
            obtain ⟨rfl, rfl⟩ := List.cons.inj whole
            rw [List.forall_mem_cons] at all_wild
            exact .inr ⟨all_wild.1,
              cuts_cons_iff.mpr ⟨part, rest, .run all_wild.2, rest_cut, rfl⟩⟩
  · rintro (rest_cut | ⟨is_wild, longer⟩)
    · exact ⟨[], c :: text, .run nofun, rest_cut, rfl⟩
    · obtain ⟨part, rest, taken, rest_cut, rfl⟩ := cuts_cons_iff.mp longer
      cases taken with
      | exactly not_run => exact absurd rfl not_run
      | run all_wild =>
          have longer_wild := List.forall_mem_cons.mpr ⟨is_wild, all_wild⟩
          exact ⟨c :: part, rest, .run longer_wild, rest_cut, rfl⟩

theorem cuts_any_cons_iff :
    Cuts wild ('_' :: pattern) (c :: text) ↔ wild c ∧ Cuts wild pattern text := by
  rw [cuts_cons_iff]
  constructor
  · rintro ⟨part, rest, taken, rest_cut, whole⟩
    cases taken with
    | exactly _ not_any => exact absurd rfl not_any
    | any is_wild =>
        obtain ⟨rfl, rfl⟩ := List.cons.inj whole
        exact ⟨is_wild, rest_cut⟩
  · rintro ⟨is_wild, rest_cut⟩
    exact ⟨[c], text, .any is_wild, rest_cut, rfl⟩

theorem cuts_exactly_cons_iff (not_run : d ≠ '%') (not_any : d ≠ '_') :
    Cuts wild (d :: pattern) (c :: text) ↔ c = d ∧ Cuts wild pattern text := by
  rw [cuts_cons_iff]
  constructor
  · rintro ⟨part, rest, taken, rest_cut, whole⟩
    cases taken with
    | run => exact absurd rfl not_run
    | any => exact absurd rfl not_any
    | exactly =>
        obtain ⟨rfl, rfl⟩ := List.cons.inj whole
        exact ⟨rfl, rest_cut⟩
  · rintro ⟨rfl, rest_cut⟩
    exact ⟨[c], text, .exactly not_run not_any, rest_cut, rfl⟩

/-! ## The rows of the matcher -/

/-- A row tells of each tail of a pattern, the longest first, whether it takes a text when wild
cards take no line feed. -/
def Tells (pattern text : List Char) (row : List Bool) : Prop :=
  List.Forall₂ (fun here tail => here = true ↔ Cuts (· ≠ '\n') tail text) row pattern.tails

theorem tells_cons_iff {here : Bool} {later : List Bool} :
    Tells (d :: pattern) text (here :: later) ↔
      (here = true ↔ Cuts (· ≠ '\n') (d :: pattern) text) ∧ Tells pattern text later := by
  rw [Tells, List.tails_cons, List.forall₂_cons]
  rfl

theorem Tells.headD_iff {row : List Bool} (told : Tells pattern text row) :
    row.headD false = true ↔ Cuts (· ≠ '\n') pattern text := by
  cases pattern <;> cases told <;> assumption

/-- A character stands for one of the three sorts of pieces. -/
theorem Piece.ofChar_cases (d : Char) :
    (d = '%' ∧ ofChar d = .run) ∨ (d = '_' ∧ ofChar d = .any) ∨
      d ≠ '%' ∧ d ≠ '_' ∧ ofChar d = .exactly d := by
  unfold ofChar
  split <;> simp_all

theorem tells_emptyRow (pattern : List Char) :
    Tells pattern [] (emptyRow (pattern.map Piece.ofChar)) := by
  induction pattern with
  | nil => exact .cons (by simp) .nil
  | cons d pattern told =>
      rw [List.map_cons, emptyRow, tells_cons_iff, Bool.and_eq_true, told.headD_iff,
        cuts_cons_nil_iff]
      refine ⟨and_congr_left' ?_, told⟩
      rcases Piece.ofChar_cases d with ⟨rfl, piece⟩ | ⟨rfl, piece⟩ | ⟨not_run, _, piece⟩ <;>
        rw [piece] <;> simp_all

/-- A character in front of the text turns each row into the next. -/
theorem Tells.nextRow {row : List Bool} (told : Tells pattern text row) (c : Char) :
    Tells pattern (c :: text) (nextRow c (pattern.map Piece.ofChar) row) := by
  induction pattern generalizing row with
  | nil => exact .cons (by simp) .nil
  | cons d pattern induction =>
      obtain ⟨here, later, rfl⟩ : ∃ here later, row = here :: later := by
        cases told with
        | cons => exact ⟨_, _, rfl⟩
      obtain ⟨here_told, later_told⟩ := tells_cons_iff.mp told
      have next_told := induction later_told
      refine tells_cons_iff.mpr ⟨?_, next_told⟩
      rcases Piece.ofChar_cases d with ⟨rfl, piece⟩ | ⟨rfl, piece⟩ | ⟨not_run, not_any, piece⟩
      · rw [piece, cuts_run_cons_iff, ← next_told.headD_iff, ← here_told]
        simp
      · rw [piece, cuts_any_cons_iff, ← later_told.headD_iff]
        simp
      · rw [piece, cuts_exactly_cons_iff not_run not_any, ← later_told.headD_iff]
        simp

theorem takes_iff_cuts (pattern text : String) :
    (ofText pattern).takes text = true ↔ Cuts (· ≠ '\n') pattern.toList text.toList := by
  have told : ∀ characters, Tells pattern.toList characters
      (characters.foldr (fun c row => nextRow c (ofText pattern).pieces row)
        (emptyRow (ofText pattern).pieces)) := by
    intro characters
    induction characters with
    | nil => exact tells_emptyRow _
    | cons c characters told => exact told.nextRow c
  exact (told text.toList).headD_iff

/-! ## Line feeds -/

/-- With wild cards that take no line feed, a part has as many line feeds as its character. -/
theorem Takes.count_eq {part : List Char} (taken : Takes (· ≠ '\n') d part) :
    part.count '\n' = [d].count '\n' := by
  cases taken with
  | run all_wild => exact List.count_eq_zero.mpr fun member => all_wild '\n' member rfl
  | any is_wild =>
      exact List.count_eq_zero.mpr fun member => is_wild (List.mem_singleton.mp member).symm
  | exactly => rfl

/-- A part never has fewer line feeds than its character; if it has no more, none of them is taken
by a wild card. -/
theorem Takes.count_le {part : List Char} (taken : Takes (fun _ => True) d part) :
    [d].count '\n' ≤ part.count '\n' ∧
      (part.count '\n' = [d].count '\n' → Takes (· ≠ '\n') d part) := by
  cases taken with
  | run =>
      refine ⟨by simp, fun same => .run ?_⟩
      rintro c member rfl
      exact absurd same (List.count_pos_iff.mpr member).ne'
  | any =>
      refine ⟨by simp, fun same => .any ?_⟩
      rintro rfl
      exact absurd same (by decide)
  | exactly not_run not_any => exact ⟨le_rfl, fun _ => .exactly not_run not_any⟩

theorem count_flatten_eq {parts : List (List Char)}
    (taken : List.Forall₂ (Takes (· ≠ '\n')) pattern parts) :
    parts.flatten.count '\n' = pattern.count '\n' := by
  induction taken with
  | nil => rfl
  | @cons d part pattern parts taken _ induction =>
      rw [List.flatten_cons, List.count_append, induction, taken.count_eq, ← List.count_append,
        List.singleton_append]

theorem count_le_count_flatten {parts : List (List Char)}
    (taken : List.Forall₂ (Takes fun _ => True) pattern parts) :
    pattern.count '\n' ≤ parts.flatten.count '\n' ∧
      (parts.flatten.count '\n' = pattern.count '\n' →
        List.Forall₂ (Takes (· ≠ '\n')) pattern parts) := by
  induction taken with
  | nil => exact ⟨le_rfl, fun _ => .nil⟩
  | @cons d part pattern parts taken _ induction =>
      obtain ⟨part_le, part_taken⟩ := taken.count_le
      obtain ⟨rest_le, rest_taken⟩ := induction
      rw [List.flatten_cons, List.count_append, ← List.singleton_append, List.count_append]
      refine ⟨Nat.add_le_add part_le rest_le, fun same => ?_⟩
      exact .cons (part_taken (by omega)) (rest_taken (by omega))

/-- Wild cards that take no line feed differ from those that take any character only on texts with
more line feeds than the pattern. -/
theorem cuts_iff_count_eq :
    Cuts (· ≠ '\n') pattern text ↔
      Cuts (fun _ => True) pattern text ∧ text.count '\n' = pattern.count '\n' := by
  constructor
  · rintro ⟨parts, taken, rfl⟩
    refine ⟨⟨parts, taken.imp ?_, rfl⟩, count_flatten_eq taken⟩
    rintro d part (_ | _ | ⟨not_run, not_any⟩)
    · exact .run fun _ _ => trivial
    · exact .any trivial
    · exact .exactly not_run not_any
  · rintro ⟨⟨parts, taken, rfl⟩, same⟩
    exact ⟨parts, (count_le_count_flatten taken).2 same, rfl⟩

end Pattern

/-! ## Comparison with a pattern -/

namespace Comparison

section

variable [engine : Engine]

theorem patternOf_text (pattern : String) :
    patternOf (.text pattern) = compiledPattern pattern :=
  rfl

/-- Without a pattern at hand the operator reads that of the threshold first. -/
theorem apply_like_text (pattern text : String) :
    apply .like (.text text) (.text pattern) =
      (compiledPattern pattern).map fun taker => taker.takes text := by
  rw [apply, ← bind_ok_eq_map]
  rfl

/-- What the engine says against a pattern is the fault of the threshold and of the comparison. -/
def Refuses (engine : Engine) (pattern text : String) : Prop :=
  ∃ reason, engine.compile (engine.expressionOf pattern.toList) = .error reason ∧
    patternOf (.text pattern) = .error (.threshold (.uncompilable reason)) ∧
    apply .like (.text text) (.text pattern) = .error (.threshold (.uncompilable reason))

/-- A pattern is refused by the engine, or it takes texts. -/
theorem refuses_or_patternOf_eq_ok (pattern text : String) :
    Refuses engine pattern text ∨
      patternOf (.text pattern) = .ok (Pattern.ofText pattern) ∧
        apply .like (.text text) (.text pattern) = .ok ((Pattern.ofText pattern).takes text) := by
  rw [Refuses, apply_like_text, patternOf_text, compiledPattern]
  cases engine.compile (engine.expressionOf pattern.toList) with
  | error reason => exact .inl ⟨reason, rfl, rfl, rfl⟩
  | ok finds => exact .inr ⟨rfl, rfl⟩

/-- With wild cards that take any character, the texts that are taken are those that can be cut and
have as many line feeds as the pattern. -/
theorem like_iff_cuts_anyhow (pattern text : String) :
    Refuses engine pattern text ∨ ∃ taker, patternOf (.text pattern) = .ok taker ∧
      (taker.takes text = true ↔
        Pattern.Cuts (fun _ => True) pattern.toList text.toList ∧
          text.toList.count '\n' = pattern.toList.count '\n') ∧
      apply .like (.text text) (.text pattern) = .ok (taker.takes text) := by
  have takes_iff := (Pattern.takes_iff_cuts pattern text).trans Pattern.cuts_iff_count_eq
  refine (refuses_or_patternOf_eq_ok pattern text).imp_right fun ⟨read, applied⟩ => ?_
  exact ⟨_, read, takes_iff, applied⟩

end

section

open scoped Engine.Plain

/-- No wild card takes a line feed. -/
theorem like_refuses_line_feed :
    ∃ taker, patternOf (.text "a%b") = .ok taker ∧
      taker.takes "a\nb" = false ∧ Pattern.Cuts (fun _ => True) "a%b".toList "a\nb".toList := by
  refine ⟨_, rfl, by decide +kernel, [['a'], ['\n'], ['b']], ?_, rfl⟩
  exact .cons (.exactly (by decide) (by decide)) (.cons (.run fun _ _ => trivial)
    (.cons (.exactly (by decide) (by decide)) .nil))

end

end Comparison
end RiskGraph

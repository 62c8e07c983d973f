import RiskGraph.Proofs.Wildcard

/-!
# Patterns as regular expressions

The expression of a pattern is a row of items: anchors, points and characters.  An engine that finds
such items as they are documented finds the expression in the texts that the pattern takes.
-/

namespace RiskGraph

namespace Engine

/-! ## What expressions are documented to match -/

def Item.written (escape : Char → List Char) : Item → List Char
  | start => ['^']
  | finish => ['$']
  | point => ['.']
  | points => ['.', '*']
  | literal c => escape c

/-- The engine finds the items that an expression is written with. -/
def Documented (engine : Engine) : Prop :=
  ∀ (items : List Item) (finds : List Char → Prop),
    engine.compile (items.flatMap (Item.written engine.escape)) = .ok finds →
      ∀ text, finds text ↔ Found items text

/-! ## The expression of a pattern -/

variable {engine : Engine} {item : Item} {items : List Item} {d : Char}
  {pattern text before part after : List Char}

/-- The item that a character of a pattern is translated to. -/
def itemOf : Char → Item
  | '%' => .points
  | '_' => .point
  | c => .literal c

theorem written_itemOf : (itemOf d).written engine.escape = engine.translated d := by
  by_cases run : d = '%'
  · subst run
    rfl
  by_cases any : d = '_'
  · subst any
    rfl
  · simp [itemOf, translated, Item.written]

theorem expressionOf_eq :
    engine.expressionOf pattern =
      (.start :: pattern.map itemOf ++ [Item.finish]).flatMap (Item.written engine.escape) := by
  have translated_eq : pattern.flatMap engine.translated =
      (pattern.map itemOf).flatMap (Item.written engine.escape) := by
    simp only [List.flatMap_map, written_itemOf]
  rw [expressionOf, translated_eq, List.flatMap_append]
  rfl

theorem spans_itemOf_iff :
    (itemOf d).Spans before part after ↔ Pattern.Takes (· ≠ '\n') d part := by
  unfold itemOf
  split
  · constructor
    · rintro ⟨⟩
      exact .run ‹_›
    · rintro (same_line | _ | ⟨not_run, _⟩)
      · exact .points same_line
      · exact absurd rfl not_run
  · constructor
    · rintro ⟨⟩
      exact .any ‹_›
    · rintro (_ | same_line | ⟨_, not_any⟩)
      · exact .point same_line
      · exact absurd rfl not_any
  · next not_run not_any =>
      constructor
      · rintro ⟨⟩
        exact .exactly not_run not_any
      · rintro (_ | _ | _)
        · exact absurd rfl not_run
        · exact absurd rfl not_any
        · exact .literal d

theorem spans_cons_iff :
    Spans (item :: items) before text after ↔
      ∃ part rest, item.Spans before part (rest ++ after) ∧
        Spans items (before ++ part) rest after ∧ part ++ rest = text := by
  constructor
  · rintro ⟨⟩
    exact ⟨_, _, ‹_›, ‹_›, rfl⟩
  · rintro ⟨part, rest, here, later, rfl⟩
    exact .cons here later

/-- With the end behind it, a pattern spans what can be cut into parts for its characters. -/
theorem spans_pattern_iff :
    Spans (pattern.map itemOf ++ [.finish]) before part after ↔
      after = [] ∧ Pattern.Cuts (· ≠ '\n') pattern part := by
  induction pattern generalizing before part with
  | nil =>
      rw [List.map_nil, List.nil_append, spans_cons_iff, Pattern.cuts_nil_iff]
      constructor
      · rintro ⟨first, rest, here, ⟨⟩, rfl⟩
        cases here
        exact ⟨rfl, rfl⟩
      · rintro ⟨rfl, rfl⟩
        exact ⟨[], [], .finish, .nil, rfl⟩
  | cons d pattern induction =>
      simp only [List.map_cons, List.cons_append, spans_cons_iff, induction, spans_itemOf_iff,
        Pattern.cuts_cons_iff]
      constructor
      · rintro ⟨first, rest, here, ⟨empty, later⟩, whole⟩
        exact ⟨empty, first, rest, here, later, whole⟩
      · rintro ⟨empty, first, rest, here, later, whole⟩
        exact ⟨first, rest, here, ⟨empty, later⟩, whole⟩

/-- Between both ends, a pattern is found only as the whole of a text. -/
theorem found_pattern_iff :
    Found (Item.start :: pattern.map itemOf ++ [.finish]) text ↔
      Pattern.Cuts (· ≠ '\n') pattern text := by
  simp only [Found, List.cons_append, spans_cons_iff, spans_pattern_iff]
  constructor
  · rintro ⟨_, _, _, whole, first, rest, ⟨⟩, ⟨rfl, cut⟩, rfl⟩
    rw [List.append_nil, List.nil_append, List.nil_append] at whole
    exact whole ▸ cut
  · intro cut
    exact ⟨[], text, [], List.append_nil text, [], text, .start, ⟨rfl, cut⟩, rfl⟩

theorem finds_expressionOf_iff {finds : List Char → Prop} (documented : engine.Documented)
    (compiled : engine.compile (engine.expressionOf pattern) = .ok finds) :
    finds text ↔ Pattern.Cuts (· ≠ '\n') pattern text := by
  rw [expressionOf_eq] at compiled
  exact (documented _ finds compiled text).trans found_pattern_iff

/-! ## An engine for plain expressions -/

theorem readItems?_literal (c : Char) (rest : List Char) :
    readItems? (escapeMeta c ++ rest) = (readItems? rest).map (.literal c :: ·) := by
  by_cases special : c ∈ metacharacters
  · rw [escapeMeta, if_pos special]
    simp [readItems?, special]
  · rw [escapeMeta, if_neg special, List.singleton_append, readItems?, if_neg special]
    -- what is not a metacharacter is none of the characters that are read in another way
    all_goals
      intros
      subst c
      exact absurd (by decide) special

/-- No item is written with a star in front. -/
theorem written_ne_star (items : List Item) (rest : List Char) :
    items.flatMap (Item.written escapeMeta) ≠ '*' :: rest := by
  cases items with
  | nil => nofun
  | cons item items =>
      cases item with
      | start | finish | point | points => nofun
      | literal c =>
          rw [List.flatMap_cons, Item.written, escapeMeta]
          split
          · nofun
          · next plain =>
              rintro ⟨⟩
              exact plain (by decide)

theorem readItems?_written (items : List Item) :
    readItems? (items.flatMap (Item.written escapeMeta)) = some items := by
  induction items with
  | nil => rfl
  | cons item items induction =>
      rw [List.flatMap_cons]
      cases item with
      | start | finish | points => simp [Item.written, readItems?, induction]
      | point =>
          simp [Item.written, readItems?, induction, written_ne_star]
      | literal c => rw [Item.written, readItems?_literal, induction, Option.map_some]

theorem plain_compile (items : List Item) :
    plain.compile (items.flatMap (Item.written escapeMeta)) = .ok (Found items) :=
  congrArg (Option.elim · _ _) (readItems?_written items)

theorem plain_documented : plain.Documented := by
  intro items finds compiled text
  cases (plain_compile items).symm.trans compiled
  rfl

end Engine

namespace Comparison

/-- The pattern that a text writes takes a text exactly if this can be cut into parts that the
characters of the pattern take, wild cards taking any character but a line feed, unless the engine
refuses it.  An engine that compiles the expression of the pattern finds it in the same texts, and
so compares the operator, with the pattern at hand or without. -/
theorem like_iff_cuts [engine : Engine] (pattern text : String) :
    Refuses engine pattern text ∨ ∃ taker, patternOf (.text pattern) = .ok taker ∧
      (taker.takes text = true ↔ Pattern.Cuts (· ≠ '\n') pattern.toList text.toList) ∧
      (∀ other : Engine, other.Documented → ∀ finds,
        other.compile (other.expressionOf pattern.toList) = .ok finds →
          (finds text.toList ↔ taker.takes text = true)) ∧
      apply .like (.text text) (.text pattern) = .ok (taker.takes text) ∧
      applyWith .like (.text text) (.text pattern) (some taker) = .ok (taker.takes text) := by
  have takes_iff := Pattern.takes_iff_cuts pattern text
  refine (refuses_or_patternOf_eq_ok pattern text).imp_right fun ⟨read, applied⟩ => ?_
  refine ⟨Pattern.ofText pattern, read, takes_iff, ?_, applied, rfl⟩
  intro other documented finds compiled
  exact (Engine.finds_expressionOf_iff documented compiled).trans takes_iff.symm

section

open scoped Engine.Plain

/-- A point in a pattern stands for itself. -/
theorem like_iff_cuts_point :
    ∃ taker finds, patternOf (.text "a.%") = .ok taker ∧ Engine.plain.Documented ∧
      Engine.plain.expressionOf "a.%".toList = "^a\\..*$".toList ∧
      Engine.plain.compile (Engine.plain.expressionOf "a.%".toList) = .ok finds ∧
      (finds "a.b".toList ↔ taker.takes "a.b" = true) ∧ taker.takes "a.b" = true ∧
      taker.takes "acb" = false := by
  have compiled : Engine.plain.compile (Engine.plain.expressionOf "a.%".toList) =
      .ok (Engine.Found [.start, .literal 'a', .literal '.', .points, .finish]) := rfl
  rcases like_iff_cuts "a.%" "a.b" with ⟨_, refused, -⟩ | ⟨taker, written, -, found, -⟩
  · nomatch compiled.symm.trans refused
  · refine ⟨taker, _, written, Engine.plain_documented, by decide +kernel, compiled,
      found _ Engine.plain_documented _ compiled, ?_⟩
    cases written
    decide +kernel

end

end Comparison
end RiskGraph

import Mathlib.Data.Option.Basic
import RiskGraph.Json.Reader

/-!
# Brackets around a JSON text

A text between brackets is an array of one item, the document of the text.  Its data lies one level
deeper, which matters only where the nesting is at its limit.
-/

namespace RiskGraph

/-! ## Depth -/

namespace Document

variable {document : Document}

/-- The document can be read, but not within an array: its nesting is at the limit. -/
def AtLimit (document : Document) : Prop :=
  document.nesting = depthLimit ∧ document.toJson?.isSome

theorem nesting_array_single (document : Document) :
    (array [document]).nesting = document.nesting + 1 := by
  simp [nesting, nestingOfItems]

theorem toJson?_array_single (document : Document) :
    (array [document]).toJson? = document.toJson?.map fun json => .array [json] := by
  rw [toJson?, toItems?, toItems?]
  cases document.toJson? <;> rfl

/-- The data of a document lies one level deeper in an array. -/
theorem toJsonWithin?_array_single (document : Document) :
    (array [document]).toJsonWithin? depthLimit =
      (document.toJsonWithin? (depthLimit - 1)).map fun json => .array [json] := by
  have within_iff : document.nesting + 1 ≤ depthLimit ↔ document.nesting ≤ depthLimit - 1 := by
    unfold depthLimit
    omega
  simp only [toJsonWithin?, nesting_array_single, within_iff, toJson?_array_single]
  split <;> rfl

/-- Unless the nesting is at its limit, a document is read alike within an array. -/
theorem toJsonWithin?_pred_eq (room : ¬document.AtLimit) :
    document.toJsonWithin? (depthLimit - 1) = document.toJsonWithin? depthLimit := by
  unfold toJsonWithin?
  by_cases deeper : document.nesting = depthLimit
  · have unread : document.toJson? = none :=
      Option.not_isSome_iff_eq_none.mp fun read => room ⟨deeper, read⟩
    simp [unread]
  · have within_iff : document.nesting ≤ depthLimit - 1 ↔ document.nesting ≤ depthLimit := by
      unfold depthLimit at *
      omega
    simp only [within_iff]

/-- At the limit, a document cannot be read within an array. -/
theorem AtLimit.toJsonWithin?_pred (limit : document.AtLimit) :
    document.toJsonWithin? (depthLimit - 1) = none := by
  rw [toJsonWithin?, limit.1]
  rfl

end Document

/-! ## Tokens -/

namespace JsonToken.Scanner

variable {scanner : Scanner} {base : List JsonToken}

/-- The scanner with tokens before its own. -/
def behind (scanner : Scanner) (base : List JsonToken) : Scanner :=
  { scanner with tokens := scanner.tokens ++ base }

theorem start?_behind (scanner : Scanner) (base : List JsonToken) (c : Char) :
    (scanner.behind base).start? c = (scanner.start? c).map (·.behind base) := by
  unfold start?
  split
  · rfl
  · split
    · rfl
    · split <;> rfl

variable [RealReader]

theorem endWord?_behind (scanner : Scanner) (base : List JsonToken) :
    (scanner.behind base).endWord? = scanner.endWord?.map (·.behind base) := by
  obtain ⟨tokens, begun⟩ := scanner
  cases begun with
  | word letters =>
      simp only [endWord?, behind, Option.map_map]
      rfl
  | nothing | text | escape | code => rfl

/-- The scanner does not see the tokens that it has read. -/
theorem step?_behind (scanner : Scanner) (base : List JsonToken) (c : Char) :
    (scanner.behind base).step? c = (scanner.step? c).map (·.behind base) := by
  obtain ⟨tokens, begun⟩ := scanner
  cases begun with
  | nothing => exact start?_behind ⟨tokens, .nothing⟩ base c
  | word letters =>
      change (if _ then _ else _) = Option.map _ (if _ then _ else _)
      split
      · change ((behind ⟨tokens, .word letters⟩ base).endWord?.bind _) = _
        rw [endWord?_behind]
        cases endWord? ⟨tokens, .word letters⟩ with
        | none => rfl
        | some ended => exact start?_behind ended base c
      · rfl
  | text codes =>
      change textStep? _ codes c = (textStep? _ codes c).map _
      unfold textStep?
      split
      · rfl
      · split
        · rfl
        · split <;> rfl
  | escape codes =>
      change escapeStep? _ codes c = (escapeStep? _ codes c).map _
      unfold escapeStep?
      split
      · rfl
      · cases escaped? c <;> rfl
  | code codes digits value =>
      change codeStep? _ codes digits value c = (codeStep? _ codes digits value c).map _
      unfold codeStep?
      cases hexDigit? c <;> rfl

theorem foldlM_step?_behind (scanner : Scanner) (base : List JsonToken) (letters : List Char) :
    letters.foldlM step? (scanner.behind base) =
      (letters.foldlM step? scanner).map (·.behind base) := by
  induction letters generalizing scanner with
  | nil => rfl
  | cons c letters induction =>
      rw [List.foldlM_cons, List.foldlM_cons, step?_behind]
      cases scanner.step? c with
      | none => rfl
      | some next => exact induction next

/-- A bracket ends what has been begun where a text may end. -/
theorem step?_closeArray {tokens : List JsonToken} (finished : scanner.finish? = some tokens) :
    scanner.step? ']' = some { tokens := .closeArray :: tokens.reverse } := by
  obtain ⟨row, begun⟩ := scanner
  obtain ⟨ended, ended_eq, rest⟩ := Option.bind_eq_some_iff.mp finished
  have done : ended.begun = .nothing ∧ tokens.reverse = ended.tokens := by
    split at rest
    · next nothing_begun =>
        cases rest
        exact ⟨nothing_begun, List.reverse_reverse _⟩
    · nomatch rest
  obtain ⟨row', begun'⟩ := ended
  obtain ⟨rfl, rfl⟩ := done
  cases begun with
  | nothing =>
      cases ended_eq
      rfl
  | word letters =>
      change (endWord? ⟨row, .word letters⟩).bind (fun ended => ended.start? ']') = _
      rw [ended_eq]
      rfl
  | text | escape | code => nomatch ended_eq

end JsonToken.Scanner

theorem JsonToken.scan?_bracketed [RealReader] {text : String} {tokens : List JsonToken}
    (scanned : scan? text = some tokens) :
    scan? ("[" ++ text ++ "]") = some (.openArray :: tokens ++ [.closeArray]) := by
  obtain ⟨scanner, ran, finished⟩ := Option.bind_eq_some_iff.mp scanned
  have letters : ("[" ++ text ++ "]").toList = '[' :: (text.toList ++ [']']) := by simp
  have inner : text.toList.foldlM Scanner.step? (Scanner.behind {} [.openArray]) =
      some (scanner.behind [.openArray]) := by
    rw [Scanner.foldlM_step?_behind, ran, Option.map_some]
  have last := Scanner.step?_behind scanner [.openArray] ']'
  rw [Scanner.step?_closeArray finished] at last
  rw [scan?, letters, List.foldlM_cons, show Scanner.step? {} '[' =
    some (Scanner.behind {} [.openArray]) from rfl]
  simp only [Option.bind_eq_bind, Option.bind_some, List.foldlM_append, inner, List.foldlM_cons,
    last, Option.map_some, List.foldlM_nil]
  simp [Scanner.behind, Scanner.finish?, Scanner.endWord?]

/-! ## Documents -/

namespace JsonReader

variable {reader next : JsonReader} {token : JsonToken}

/-- The reader within an array that it has just begun. -/
def inArray (reader : JsonReader) : JsonReader :=
  match reader.stage with
  | .complete document => { frames := [.array [document]], stage := .separator }
  | stage => { frames := reader.frames ++ [.array []], stage }

theorem place?_inArray {document : Document} {frames : List JsonFrame}
    (placed : place? document frames = some next) :
    place? document (frames ++ [.array []]) = some next.inArray := by
  rcases frames with _ | ⟨_ | _ | _, frames⟩ <;> cases placed <;> rfl

theorem valueStep?_inArray {frames : List JsonFrame}
    (stepped : valueStep? frames token = some next) :
    valueStep? (frames ++ [.array []]) token = some next.inArray := by
  cases token with
  | openArray | openObject =>
      cases stepped
      rfl
  | leaf document => exact place?_inArray stepped
  | closeArray | closeObject | comma | colon => nomatch stepped

theorem keyStep?_inArray {frames : List JsonFrame} (stepped : keyStep? frames token = some next) :
    keyStep? (frames ++ [.array []]) token = some next.inArray := by
  unfold keyStep? at stepped
  split at stepped
  · cases stepped
    rfl
  · nomatch stepped

theorem closeStep?_inArray {frames : List JsonFrame}
    (stepped : closeStep? frames token = some next) :
    closeStep? (frames ++ [.array []]) token = some next.inArray := by
  unfold closeStep? at stepped
  split at stepped
  · exact place?_inArray stepped
  · exact place?_inArray stepped
  · nomatch stepped

theorem commaStep?_inArray {frames : List JsonFrame} (stepped : commaStep? frames = some next) :
    commaStep? (frames ++ [.array []]) = some next.inArray := by
  unfold commaStep? at stepped
  split at stepped
  · cases stepped
    rfl
  · cases stepped
    rfl
  · nomatch stepped

/-- What surrounds an array makes no difference within it. -/
theorem step?_inArray (stepped : reader.step? token = some next) :
    reader.inArray.step? token = some next.inArray := by
  obtain ⟨frames, stage⟩ := reader
  cases stage with
  | value => exact valueStep?_inArray stepped
  | firstItem =>
      cases token with
      | closeArray => exact closeStep?_inArray stepped
      | _ =>
          simp only [step?] at stepped
          exact valueStep?_inArray stepped
  | key => exact keyStep?_inArray stepped
  | firstKey =>
      cases token with
      | closeObject => exact closeStep?_inArray stepped
      | _ =>
          simp only [step?] at stepped
          exact keyStep?_inArray stepped
  | colon =>
      cases token with
      | colon =>
          cases stepped
          rfl
      | _ => nomatch stepped
  | separator =>
      cases token with
      | comma => exact commaStep?_inArray stepped
      | _ =>
          simp only [step?] at stepped
          exact closeStep?_inArray stepped
  | complete document => nomatch stepped

theorem foldlM_step?_inArray {tokens : List JsonToken}
    (ran : tokens.foldlM step? reader = some next) :
    tokens.foldlM step? reader.inArray = some next.inArray := by
  induction tokens generalizing reader with
  | nil =>
      cases ran
      rfl
  | cons token tokens induction =>
      rw [List.foldlM_cons, Option.bind_eq_bind, Option.bind_eq_some_iff] at ran
      obtain ⟨middle, first, rest⟩ := ran
      rw [List.foldlM_cons, step?_inArray first]
      exact induction rest

end JsonReader

/-- A text between brackets writes an array of one item, the document that the text writes. -/
theorem Document.ofText?_bracketed [RealReader] {text : String} {document : Document}
    (read : ofText? text = some document) :
    ofText? ("[" ++ text ++ "]") = some (.array [document]) := by
  obtain ⟨tokens, scanned, rest⟩ := Option.bind_eq_some_iff.mp read
  obtain ⟨reader, ran, finished⟩ := Option.bind_eq_some_iff.mp rest
  have complete : reader.stage = .complete document := by
    unfold JsonReader.finish? at finished
    split at finished
    · next complete =>
        cases finished
        exact complete
    · nomatch finished
  have started : (JsonToken.openArray :: tokens).foldlM JsonReader.step? {} =
      some reader.inArray := by
    cases tokens with
    | nil =>
        cases ran
        nomatch complete
    | cons token tokens =>
        rw [List.foldlM_cons, Option.bind_eq_bind, Option.bind_eq_some_iff] at ran
        obtain ⟨middle, first, later⟩ := ran
        -- behind the bracket the array might end at once, which the first token of a value does not
        have begun : JsonReader.step? { frames := [.array []], stage := .firstItem } token =
            some middle.inArray := by
          have inside := JsonReader.step?_inArray first
          cases token with
          | closeArray => nomatch first
          | _ => exact inside
        rw [List.foldlM_cons]
        change (JsonReader.step? { frames := [.array []], stage := .firstItem } token).bind
          (fun next => tokens.foldlM JsonReader.step? next) = _
        rw [begun]
        exact JsonReader.foldlM_step?_inArray later
  have ended : reader.inArray.step? .closeArray =
      some { frames := [], stage := .complete (.array [document]) } := by
    rw [JsonReader.inArray, complete]
    rfl
  rw [ofText?, JsonToken.scan?_bracketed scanned, Option.bind_some, List.foldlM_append, started]
  simp only [Option.bind_eq_bind, Option.bind_some, List.foldlM_cons, ended, List.foldlM_nil]
  rfl

end RiskGraph

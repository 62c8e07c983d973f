/-!
# Characters and words

Keys and names are read without the blank space around them.  Blank are the characters that Unicode
lists as white space; letter case is folded for ASCII letters alone.  A decimal digit is a character
of the Unicode category Nd.  These come in runs of ten, from the digit zero of a script to its digit
nine, so the zeros determine them.
-/

namespace RiskGraph

/-! ## Blank space and letter case -/

/-- Whether a character is white space in the sense of Unicode. -/
def isBlank (c : Char) : Bool :=
  let code := c.toNat
  (9 ≤ code && code ≤ 13) || code == 0x20 || code == 0x85 || code == 0xa0 || code == 0x1680 ||
  (0x2000 ≤ code && code ≤ 0x200a) || code == 0x2028 || code == 0x2029 || code == 0x202f ||
  code == 0x205f || code == 0x3000

/-- A text without the blank space at both ends. -/
def trim (text : String) : String :=
  String.ofList ((text.toList.dropWhile isBlank).reverse.dropWhile isBlank).reverse

/-- Whether a text is blank throughout. -/
def isBlankText (text : String) : Bool :=
  text.toList.all isBlank

/-- A text with its ASCII letters in lower case. -/
def lowerCase (text : String) : String :=
  String.ofList (text.toList.map Char.toLower)

/-- A text with its ASCII letters in upper case. -/
def upperCase (text : String) : String :=
  String.ofList (text.toList.map Char.toUpper)

/-! ## Decimal digits of all scripts -/

/-- The digits zero of all scripts, in Unicode 16. -/
def decimalZeros : List Nat :=
  [0x30, 0x660, 0x6f0, 0x7c0, 0x966, 0x9e6, 0xa66, 0xae6, 0xb66, 0xbe6, 0xc66, 0xce6, 0xd66, 0xde6,
   0xe50, 0xed0, 0xf20, 0x1040, 0x1090, 0x17e0, 0x1810, 0x1946, 0x19d0, 0x1a80, 0x1a90, 0x1b50,
   0x1bb0, 0x1c40, 0x1c50, 0xa620, 0xa8d0, 0xa900, 0xa9d0, 0xa9f0, 0xaa50, 0xabf0, 0xff10, 0x104a0,
   0x10d30, 0x10d40, 0x11066, 0x110f0, 0x11136, 0x111d0, 0x112f0, 0x11450, 0x114d0, 0x11650,
   0x116c0, 0x116d0, 0x116da, 0x11730, 0x118e0, 0x11950, 0x11bf0, 0x11c50, 0x11d50, 0x11da0,
   0x11f50, 0x16130, 0x16a60, 0x16ac0, 0x16b50, 0x16d70, 0x1ccf0, 0x1d7ce, 0x1d7d8, 0x1d7e2,
   0x1d7ec, 0x1d7f6, 0x1e140, 0x1e2f0, 0x1e4f0, 0x1e5f1, 0x1e950, 0x1fbf0]

/-- Whether a character is a decimal digit of any script. -/
def isDecimalDigit (c : Char) : Bool :=
  decimalZeros.any fun first => first ≤ c.toNat && c.toNat < first + 10

theorem isDecimalDigit_of_isDigit {c : Char} (digit : c.isDigit) : isDecimalDigit c := by
  have range : 48 ≤ c.toNat ∧ c.toNat < 48 + 10 := by
    simp only [Char.isDigit, Bool.and_eq_true, decide_eq_true_eq, UInt32.le_iff_toNat_le] at digit
    simp only [Char.toNat]
    exact ⟨digit.1, Nat.lt_succ_of_le digit.2⟩
  simp [isDecimalDigit, decimalZeros, range]

/-! ## Order -/

/-- Inserts a text into a sorted row. -/
def insertText (text : String) : List String → List String
  | [] => [text]
  | other :: others =>
      if other < text then other :: insertText text others else text :: other :: others

/-- The texts in their order. -/
def sortTexts (texts : List String) : List String :=
  texts.foldr insertText []

theorem insertText_perm (text : String) (texts : List String) :
    (insertText text texts).Perm (text :: texts) := by
  induction texts with
  | nil => exact .rfl
  | cons other others induction =>
      rw [insertText]
      split
      · exact (induction.cons other).trans (.swap text other others)
      · exact .rfl

theorem sortTexts_perm (texts : List String) : (sortTexts texts).Perm texts := by
  induction texts with
  | nil => exact .rfl
  | cons text texts induction =>
      exact (insertText_perm text (sortTexts texts)).trans (induction.cons text)

/-! ## Truth values -/

def truthText (b : Bool) : String :=
  if b then "true" else "false"

end RiskGraph

import DocLayout.Text.Quoted
import Mathlib.Algebra.Group.Nat.Defs

/-!
# Quoted text ends itself

The escapes of characters form a code without overlaps: `readEscaped` takes the first of them off a
text, whatever comes behind it.  None starts with the quote in use.  So quoted text can be told from
what comes after it, and two texts that are quoted alike are the same, though the quotes of each
depend on what it holds.
-/

namespace DocLayout.Text

/-! ## Hexadecimal digits -/

/-- The number that a lowercase hexadecimal digit stands for. -/
def hexDigitValue (digit : Char) : Nat :=
  if digit.isDigit then digit.toNat - '0'.toNat else digit.toNat - 'a'.toNat + 10

/-- The number that digits stand for, most significant first. -/
def hexValue (digits : List Char) : Nat :=
  digits.foldl (fun value digit => 16 * value + hexDigitValue digit) 0

theorem hexDigitValue_digitChar : ∀ digit < 16, hexDigitValue (Nat.digitChar digit) = digit := by
  decide

@[simp]
theorem hexValue_append_singleton (digits : List Char) (digit : Char) :
    hexValue (digits ++ [digit]) = 16 * hexValue digits + hexDigitValue digit := by
  simp [hexValue]

/-- Digits enough for a number determine it. -/
theorem hexValue_hexDigits {width n : Nat} (fits : n < 16 ^ width) :
    hexValue (hexDigits width n) = n := by
  induction width generalizing n with
  | zero =>
      rw [Nat.pow_zero, Nat.lt_one_iff] at fits
      rw [fits]
      rfl
  | succ width inductionHypothesis =>
      have quotientFits : n / 16 < 16 ^ width := by
        apply Nat.div_lt_of_lt_mul
        rwa [← Nat.pow_succ']
      have digitFits : n % 16 < 16 := Nat.mod_lt n (Nat.zero_lt_succ 15)
      rw [hexDigits, hexValue_append_singleton, inductionHypothesis quotientFits,
        hexDigitValue_digitChar _ digitFits, Nat.div_add_mod]

/-! ## Escapes -/

/-- Takes a code point of so many digits off a text. -/
def readCodePoint (width : Nat) (text : List Char) : Char × List Char :=
  (Char.ofNat (hexValue (text.take width)), text.drop width)

/-- Takes what a backslash announces off a text. -/
def readEscape : List Char → Option (Char × List Char)
  | [] => none
  | 't' :: rest => some ('\t', rest)
  | 'n' :: rest => some ('\n', rest)
  | 'r' :: rest => some ('\r', rest)
  | 'x' :: rest => some (readCodePoint 2 rest)
  | 'u' :: rest => some (readCodePoint 4 rest)
  | 'U' :: rest => some (readCodePoint 8 rest)
  | c :: rest => some (c, rest)

/-- Takes the first character that is written between quotes off a text. -/
def readEscaped : List Char → Option (Char × List Char)
  | [] => none
  | '\\' :: rest => readEscape rest
  | c :: rest => some (c, rest)

/-- The two characters that serve as quotes. -/
def IsQuote (c : Char) : Prop :=
  c = '\'' ∨ c = '"'

theorem isQuote_quoteFor (text : List Char) : IsQuote (quoteFor text) := by
  unfold quoteFor
  split
  · exact .inr rfl
  · exact .inl rfl

theorem readCodePoint_hexDigits_append {width : Nat} {c : Char} (fits : c.toNat < 16 ^ width)
    (rest : List Char) : readCodePoint width (hexDigits width c.toNat ++ rest) = (c, rest) := by
  have lengthEq : (hexDigits width c.toNat).length = width := length_hexDigits width c.toNat
  rw [readCodePoint, List.take_left' lengthEq, List.drop_left' lengthEq, hexValue_hexDigits fits,
    Char.ofNat_toNat]

theorem readEscaped_codePointEscape_append (c : Char) (rest : List Char) :
    readEscaped (codePointEscape c ++ rest) = some (c, rest) := by
  have inRange : c.toNat < 16 ^ 8 := c.val.toNat_lt
  unfold codePointEscape
  split
  case isTrue fits =>
    exact congrArg some (readCodePoint_hexDigits_append fits rest)
  case isFalse =>
    split
    case isTrue fits => exact congrArg some (readCodePoint_hexDigits_append fits rest)
    case isFalse => exact congrArg some (readCodePoint_hexDigits_append inRange rest)

/-- What is written for a character is read back as that character, whatever comes behind. -/
theorem readEscaped_escaped_append {quote : Char} (isQuote : IsQuote quote) (c : Char)
    (rest : List Char) : readEscaped (escaped quote c ++ rest) = some (c, rest) := by
  unfold escaped
  split
  case isTrue special =>
    rcases special with rfl | rfl
    · rcases isQuote with rfl | rfl <;> rfl
    · rfl
  case isFalse ordinary =>
    split
    case isTrue isTab => rw [isTab]; rfl
    case isFalse =>
      split
      case isTrue isLineFeed => rw [isLineFeed]; rfl
      case isFalse =>
        split
        case isTrue isReturn => rw [isReturn]; rfl
        case isFalse =>
          split
          case isTrue => simp [readEscaped, (not_or.mp ordinary).2]
          case isFalse => exact readEscaped_codePointEscape_append c rest

/-- A quote of the kind in use only appears behind a backslash. -/
theorem escaped_append_ne_quote {quote : Char} (isQuote : IsQuote quote) (c : Char)
    (rest other : List Char) : escaped quote c ++ rest ≠ quote :: other := by
  intro same
  have readBack := readEscaped_escaped_append isQuote c rest
  rw [same] at readBack
  rcases isQuote with rfl | rfl
  all_goals
    cases readBack
    cases same

/-! ## Quoted texts -/

/-- Between quotes, what is written up to the closing quote determines a text and what follows. -/
theorem flatMap_escaped_append_inj {quote : Char} (isQuote : IsQuote quote)
    {text other rest otherRest : List Char}
    (same : text.flatMap (escaped quote) ++ quote :: rest =
      other.flatMap (escaped quote) ++ quote :: otherRest) :
    text = other ∧ rest = otherRest := by
  induction text generalizing other with
  | nil =>
      cases other with
      | nil => exact ⟨rfl, List.tail_eq_of_cons_eq same⟩
      | cons c other =>
          rw [List.flatMap_cons, List.append_assoc] at same
          exact absurd same.symm (escaped_append_ne_quote isQuote c _ rest)
  | cons c text inductionHypothesis =>
      rw [List.flatMap_cons, List.append_assoc] at same
      cases other with
      | nil => exact absurd same (escaped_append_ne_quote isQuote c _ otherRest)
      | cons d other =>
          rw [List.flatMap_cons, List.append_assoc] at same
          have readBack := readEscaped_escaped_append isQuote c
            (text.flatMap (escaped quote) ++ quote :: rest)
          rw [same, readEscaped_escaped_append isQuote d] at readBack
          obtain ⟨rfl, restEq⟩ := Prod.mk.inj (Option.some.inj readBack)
          obtain ⟨rfl, rfl⟩ := inductionHypothesis restEq.symm
          exact ⟨rfl, rfl⟩

/-- Quoted text determines the text and what follows it. -/
theorem quotedChars_append_inj {text other rest otherRest : List Char} :
    quotedChars text ++ rest = quotedChars other ++ otherRest ↔
      text = other ∧ rest = otherRest := by
  constructor
  · intro same
    simp only [quotedChars, List.cons_append, List.append_assoc, List.nil_append] at same
    obtain ⟨quoteEq, same⟩ := List.cons.inj same
    rw [← quoteEq] at same
    exact flatMap_escaped_append_inj (isQuote_quoteFor text) same
  · rintro ⟨rfl, rfl⟩
    rfl

/-- A text that looks like the end of a quoted one, in both kinds of quotes. -/
example :
    quoted "it's)" = "\"it's)\"" ∧ quoted "\"it's)\"" = "'\"it\\'s)\"'" := by
  decide +kernel

end DocLayout.Text

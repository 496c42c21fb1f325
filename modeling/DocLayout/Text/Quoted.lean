import DocLayout.Text.Printable

/-!
# Quoted text

`quoted` writes a string between quotes so that only printable characters appear.  The quotes are
single, or double when the text holds a single quote and no double quote.  A backslash and the
quote in use are escaped by a backslash, the three common blanks by a letter, and every other
character without a printable form by its code point in lowercase hexadecimal: two digits after
`\x`, four after `\u`, or eight after `\U`, whichever is the first to hold it.
-/

namespace DocLayout.Text

/-- The last `width` hexadecimal digits of a number, most significant first. -/
def hexDigits : (width : Nat) → Nat → List Char
  | 0, _ => []
  | width + 1, n => hexDigits width (n / 16) ++ [Nat.digitChar (n % 16)]

@[simp]
theorem length_hexDigits (width n : Nat) : (hexDigits width n).length = width := by
  induction width generalizing n with
  | zero => rfl
  | succ width inductionHypothesis => simp [hexDigits, inductionHypothesis]

/-- The escape for a character that has no printable form. -/
def codePointEscape (c : Char) : List Char :=
  if c.toNat < 0x100 then '\\' :: 'x' :: hexDigits 2 c.toNat
  else if c.toNat < 0x10000 then '\\' :: 'u' :: hexDigits 4 c.toNat
  else '\\' :: 'U' :: hexDigits 8 c.toNat

/-- How one character is written between quotes of the given kind. -/
def escaped (quote c : Char) : List Char :=
  if c = quote ∨ c = '\\' then ['\\', c]
  else if c = '\t' then ['\\', 't']
  else if c = '\n' then ['\\', 'n']
  else if c = '\r' then ['\\', 'r']
  else if isPrintable c then [c]
  else codePointEscape c

/-- The quote that surrounds a text. -/
def quoteFor (text : List Char) : Char :=
  if '\'' ∈ text ∧ '"' ∉ text then '"' else '\''

/-- The characters of a text in quotes. -/
def quotedChars (text : List Char) : List Char :=
  quoteFor text :: text.flatMap (escaped (quoteFor text)) ++ [quoteFor text]

/-- A text in quotes. -/
def quoted (text : String) : String :=
  String.ofList (quotedChars text.toList)

@[simp]
theorem toList_quoted (text : String) : (quoted text).toList = quotedChars text.toList := by
  simp [quoted]

end DocLayout.Text

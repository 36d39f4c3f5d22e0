import CallSite.Text.Printable

/-! Quoted text. A text is put between apostrophes, or between double quotes if it holds an apostrophe and
no double quote. The quote in use, the backslash and every hidden character are escaped, so a quoted text
stays on one line. -/

namespace CallSite.Text

def apostrophe : Char := '\x27'
def doubleQuote : Char := '\x22'
def backslash : Char := '\x5c'

/-- The lowest `width` hexadecimal digits of a number, most significant first. -/
def hexDigits : (width n : Nat) → List Char
  | 0, _ => []
  | width + 1, n => hexDigits width (n / 16) ++ [Nat.digitChar (n % 16)]

@[simp] theorem length_hexDigits (width n : Nat) : (hexDigits width n).length = width := by
  induction width generalizing n with
  | zero => rfl
  | succ width ih => simp [hexDigits, ih]

/-- A number in hexadecimal, without leading zeros. -/
def hexNumeral (n : Nat) : String := "0x" ++ String.ofList (hexDigits (n.log2 / 4 + 1) n)

/-- A hidden character by its code, in two, four or eight digits. -/
def codeEscape (c : Char) : List Char :=
  if c.toNat < 0x100 then backslash :: 'x' :: hexDigits 2 c.toNat
  else if c.toNat < 0x10000 then backslash :: 'u' :: hexDigits 4 c.toNat
  else backslash :: 'U' :: hexDigits 8 c.toNat

/-- One character of a text that is quoted by `mark`. -/
def escapeChar (mark c : Char) : List Char :=
  if c = mark ∨ c = backslash then [backslash, c]
  else if c = '\n' then [backslash, 'n']
  else if c = '\r' then [backslash, 'r']
  else if c = '\t' then [backslash, 't']
  else if isPrintable c then [c]
  else codeEscape c

/-- The quote that a text is put between. -/
def markFor (cs : List Char) : Char :=
  if apostrophe ∈ cs ∧ doubleQuote ∉ cs then doubleQuote else apostrophe

def quoteChars (cs : List Char) : List Char :=
  markFor cs :: cs.flatMap (escapeChar (markFor cs)) ++ [markFor cs]

/-- The quoted form of a text. -/
def quote (s : String) : String := String.ofList (quoteChars s.toList)

theorem newline_not_mem_hexDigits (width n : Nat) : '\n' ∉ hexDigits width n := by
  induction width generalizing n with
  | zero => simp [hexDigits]
  | succ width ih => simp [hexDigits, ih]

theorem newline_not_mem_escapeChar {mark : Char} (h : mark ≠ '\n') (c : Char) :
    '\n' ∉ escapeChar mark c := by
  have hex := newline_not_mem_hexDigits
  unfold escapeChar
  split
  · next e =>
    rcases e with rfl | rfl
    · simpa [backslash] using h.symm
    · decide
  split
  · decide
  split
  · decide
  split
  · decide
  split
  · next e _ _ _ => simpa using Ne.symm e
  · unfold codeEscape
    split
    · simp [hex, backslash]
    · split <;> simp [hex, backslash]

/-- A quoted text stays on one line, whatever text was quoted. -/
theorem newline_not_mem_quoteChars (cs : List Char) : '\n' ∉ quoteChars cs := by
  have mark : markFor cs ≠ '\n' := by
    unfold markFor
    split <;> decide
  simpa [quoteChars, mark.symm] using fun c _ => newline_not_mem_escapeChar mark c

/-- Texts between brackets, separated by a comma and a space. -/
def bracketed (opening : String) (parts : List String) (closing : String) : String :=
  opening ++ ", ".intercalate parts ++ closing

/-- Texts between parentheses. A single one is followed by a comma. -/
def group : List String → String
  | [part] => "(" ++ part ++ ",)"
  | parts => bracketed "(" parts ")"

end CallSite.Text

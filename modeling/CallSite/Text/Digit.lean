/-! Decimal numbers in any script. The decimal digits of a script are ten codes in a row, so a script is known
by its zero. A number is read up to a largest one, and it may mix scripts and begin with zeros. -/

namespace CallSite.Text

/-- The zeros of all scripts that have decimal digits, in rising order. -/
def zeros : List Nat :=
  [0x30, 0x660, 0x6f0, 0x7c0, 0x966, 0x9e6, 0xa66, 0xae6, 0xb66, 0xbe6, 0xc66, 0xce6, 0xd66, 0xde6,
   0xe50, 0xed0, 0xf20, 0x1040, 0x1090, 0x17e0, 0x1810, 0x1946, 0x19d0, 0x1a80, 0x1a90, 0x1b50, 0x1bb0,
   0x1c40, 0x1c50, 0xa620, 0xa8d0, 0xa900, 0xa9d0, 0xa9f0, 0xaa50, 0xabf0, 0xff10, 0x104a0, 0x10d30,
   0x11066, 0x110f0, 0x11136, 0x111d0, 0x112f0, 0x11450, 0x114d0, 0x11650, 0x116c0, 0x11730, 0x118e0,
   0x11950, 0x11c50, 0x11d50, 0x11da0, 0x16a60, 0x16ac0, 0x16b50, 0x1d7ce, 0x1d7d8, 0x1d7e2, 0x1d7ec,
   0x1d7f6, 0x1e140, 0x1e2f0, 0x1e950, 0x1fbf0]

/-- The value of a decimal digit. -/
def digit? (c : Char) : Option Nat :=
  zeros.findSome? fun z => if z ≤ c.toNat ∧ c.toNat < z + 10 then some (c.toNat - z) else none

theorem digit?_lt {c : Char} {d : Nat} (h : digit? c = some d) : d < 10 := by
  obtain ⟨z, _, hz⟩ := List.exists_of_findSome?_eq_some h
  split at hz
  · cases hz
    omega
  · simp at hz

/-- What a text says when it is read as a number. -/
inductive Reading where
  | number (n : Nat)
  | word
  | tooLarge
  deriving DecidableEq, Repr

/-- The largest number that is read. -/
def largestNumber : Nat := 9223372036854775807

/-- The reading of the rest of a text whose digits so far make up the given number. The first character that is
no digit makes it a word, unless the number was too large before. -/
def readFrom (n : Nat) : List Char → Reading
  | [] => .number n
  | c :: rest =>
    match digit? c with
    | none => .word
    | some d => if 10 * n + d ≤ largestNumber then readFrom (10 * n + d) rest else .tooLarge

/-- The reading of a text. A text without characters is a word. -/
def read : List Char → Reading
  | [] => .word
  | cs => readFrom 0 cs

theorem readFrom_le {n m : Nat} {cs : List Char} (small : n ≤ largestNumber)
    (h : readFrom n cs = .number m) : m ≤ largestNumber := by
  induction cs generalizing n with
  | nil =>
    cases h
    exact small
  | cons c rest ih =>
    rw [readFrom] at h
    split at h
    · cases h
    · split at h
      · next fits => exact ih fits h
      · cases h

end CallSite.Text

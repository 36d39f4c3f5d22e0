/-! Binary operators and their values on unbounded integers. There is no truth type: a comparison answers
1 or 0, and every nonzero integer counts as true. Division rounds toward zero, so a remainder takes the
sign of the dividend, and division by zero has no value. -/

namespace CallSite

inductive BinaryOperator where
  | mul | div | mod | plus | minus
  | lessThan | greaterThan | atMost | atLeast | equal | notEqual
  | and | or
  deriving DecidableEq, Repr

/-- The integer that stands for a truth value. -/
def truth (holds : Bool) : Int := if holds then 1 else 0

@[simp] theorem truth_true : truth true = 1 := rfl
@[simp] theorem truth_false : truth false = 0 := rfl

/-- The quotient rounded toward zero, absent for a zero divisor: that of the absolute values, negated if
one of the integers is negative and the other is not. -/
def truncDiv? (a b : Int) : Option Int :=
  if b = 0 then none
  else
    let quotient : Int := a.natAbs / b.natAbs
    some (if a < 0 ↔ b < 0 then quotient else -quotient)

/-- The remainder that belongs to `truncDiv?`. -/
def truncMod? (a b : Int) : Option Int := (truncDiv? a b).map fun q => a - b * q

theorem truncDiv?_eq_none_iff {a b : Int} : truncDiv? a b = none ↔ b = 0 := by
  simp [truncDiv?]

theorem truncMod?_eq_none_iff {a b : Int} : truncMod? a b = none ↔ b = 0 := by
  simp [truncMod?, truncDiv?_eq_none_iff]

namespace BinaryOperator

/-- Every operator, in the order in which a reference table lists them. -/
def all : List BinaryOperator :=
  [mul, div, mod, plus, minus, lessThan, greaterThan, atMost, atLeast, equal, notEqual, and, or]

/-- How the operator is spelled in a program. -/
def symbol : BinaryOperator → String
  | mul => "*"
  | div => "/"
  | mod => "%"
  | plus => "+"
  | minus => "-"
  | lessThan => "<"
  | greaterThan => ">"
  | atMost => "<="
  | atLeast => ">="
  | equal => "=="
  | notEqual => "!="
  | and => "&&"
  | or => "||"

/-- The operator's entry in the reference table. -/
def tag : BinaryOperator → String
  | mul => "MUL"
  | div => "DIV"
  | mod => "MOD"
  | plus => "PLUS"
  | minus => "MINUS"
  | lessThan => "LESS_THAN"
  | greaterThan => "GREATER_THAN"
  | atMost => "LE"
  | atLeast => "GE"
  | equal => "EQ"
  | notEqual => "NEQ"
  | and => "AND"
  | or => "OR"

/-- The operator with a given spelling. -/
def ofSymbol? (s : String) : Option BinaryOperator := all.find? fun op => op.symbol == s

/-- The operator's value on two integers, absent exactly for a division or remainder by zero. -/
def value? : BinaryOperator → Int → Int → Option Int
  | mul, a, b => some (a * b)
  | div, a, b => truncDiv? a b
  | mod, a, b => truncMod? a b
  | plus, a, b => some (a + b)
  | minus, a, b => some (a - b)
  | lessThan, a, b => some (truth (a < b))
  | greaterThan, a, b => some (truth (a > b))
  | atMost, a, b => some (truth (a ≤ b))
  | atLeast, a, b => some (truth (a ≥ b))
  | equal, a, b => some (truth (a = b))
  | notEqual, a, b => some (truth (a ≠ b))
  | and, a, b => some (truth (a ≠ 0 ∧ b ≠ 0))
  | or, a, b => some (truth (a ≠ 0 ∨ b ≠ 0))

theorem mem_all (op : BinaryOperator) : op ∈ all := by cases op <;> decide

@[simp] theorem ofSymbol?_symbol (op : BinaryOperator) : ofSymbol? op.symbol = some op := by
  cases op <;> decide

/-- Only division and remainder can lack a value, and only for a zero divisor. -/
theorem value?_eq_none_iff {op : BinaryOperator} {a b : Int} :
    op.value? a b = none ↔ (op = div ∨ op = mod) ∧ b = 0 := by
  cases op <;> simp [value?, truncDiv?_eq_none_iff, truncMod?_eq_none_iff]

end BinaryOperator
end CallSite

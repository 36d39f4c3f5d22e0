import CallSite.Tree.Part

/-! The grammar of programs. A tree is well formed if every position in it holds the kind of tree that belongs
there: expressions where values are needed, blocks where statements are grouped, statements in blocks. Only the
start value of a variable and the second block of a branch may be left out. -/

namespace CallSite.Node

def isBlock : Node → Bool
  | block _ => true
  | _ => false

/-- Whether an optional position holds nothing or a tree that belongs there. -/
def isOptional (belongs : Node → Bool) (t : Node) : Bool := t = nothing || belongs t

/-- Whether a tree's own positions hold the kinds of trees that belong there. -/
def fits : Node → Bool
  | literal _ | reference .. | nothing => true
  | integer _ | text _ => false
  | binary _ l r => l.isExpression && r.isExpression
  | call _ _ args => args.all isExpression
  | block statements => statements.all isStatement
  | declare _ _ init => isOptional isExpression init
  | assign _ _ value => value.isExpression
  | branch condition yes no => condition.isExpression && yes.isBlock && isOptional isBlock no
  | loop condition body => condition.isExpression && body.isBlock
  | exit value => value.isExpression
  | function _ _ _ body => body.isBlock
  | program body => body.isBlock

mutual

/-- Whether every position in a tree holds the kind of tree that belongs there. -/
def isWellFormed : Node → Bool
  | literal v => fits (literal v)
  | reference line x => fits (reference line x)
  | nothing => fits nothing
  | integer v => fits (integer v)
  | text s => fits (text s)
  | binary op l r => fits (binary op l r) && isWellFormed l && isWellFormed r
  | call line f args => fits (call line f args) && areWellFormed args
  | block ss => fits (block ss) && areWellFormed ss
  | declare line x e => fits (declare line x e) && isWellFormed e
  | assign line x e => fits (assign line x e) && isWellFormed e
  | branch c y n => fits (branch c y n) && isWellFormed c && isWellFormed y && isWellFormed n
  | loop c b => fits (loop c b) && isWellFormed c && isWellFormed b
  | exit e => fits (exit e) && isWellFormed e
  | function line f ps b => fits (function line f ps b) && isWellFormed b
  | program b => fits (program b) && isWellFormed b

def areWellFormed : List Node → Bool
  | [] => true
  | t :: ts => isWellFormed t && areWellFormed ts

end

@[simp] theorem areWellFormed_iff (ts : List Node) :
    areWellFormed ts = true ↔ ∀ t ∈ ts, t.isWellFormed = true := by
  induction ts with
  | nil => simp [areWellFormed]
  | cons t ts ih => simp [areWellFormed, ih]

/-- A tree is well formed if it fits together and its parts are well formed. -/
theorem isWellFormed_iff {t : Node} :
    t.isWellFormed = true ↔ t.fits = true ∧ ∀ p ∈ t.parts, p.isWellFormed = true := by
  cases t <;> simp [isWellFormed, parts, and_assoc]

theorem isWellFormed_of_contains {t u : Node} (h : t.isWellFormed = true) (c : Contains t u) :
    u.isWellFormed = true := by
  induction c with
  | self => exact h
  | inPart part _ ih => exact ih ((isWellFormed_iff.1 h).2 _ part)

end CallSite.Node

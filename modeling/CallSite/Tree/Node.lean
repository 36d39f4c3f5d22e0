import CallSite.Tree.Operator

/-! The syntax trees of programs. A position of a tree may also hold a stray value, which is no node:
nothing at all, a bare integer or a bare text. Nothing is how an optional part is left out. -/

namespace CallSite

inductive Node where
  | literal (value : Int)
  | binary (op : BinaryOperator) (left right : Node)
  | reference (line : Int) (name : String)
  | call (line : Int) (name : String) (args : List Node)
  | block (statements : List Node)
  | declare (line : Int) (name : String) (init : Node)
  | assign (line : Int) (name : String) (value : Node)
  | branch (condition yes no : Node)
  | loop (condition body : Node)
  | exit (value : Node)
  | function (line : Int) (name : String) (params : List String) (body : Node)
  | program (body : Node)
  | nothing
  | integer (value : Int)
  | text (value : String)
  deriving Repr, Inhabited

namespace Node

/-- The name under which a tree's kind appears in output. -/
def kind : Node → String
  | literal .. => "Literal"
  | binary .. => "BinaryOp"
  | reference .. => "VariableRef"
  | call .. => "FunctionCall"
  | block .. => "Block"
  | declare .. => "VariableDeclaration"
  | assign .. => "Assignment"
  | branch .. => "If"
  | loop .. => "While"
  | exit .. => "Return"
  | function .. => "FunctionDecl"
  | program .. => "Program"
  | nothing => "NoneType"
  | integer .. => "int"
  | text .. => "str"

/-- Stray values are no nodes. -/
def isNode : Node → Bool
  | nothing | integer _ | text _ => false
  | _ => true

def isExpression : Node → Bool
  | literal .. | binary .. | reference .. | call .. => true
  | _ => false

/-- Every expression is a statement too, run for its effects. -/
def isStatement : Node → Bool
  | declare .. | assign .. | branch .. | loop .. | exit .. | function .. => true
  | t => t.isExpression

theorem isStatement_of_isExpression {t : Node} (h : t.isExpression) : t.isStatement := by
  cases t <;> simp_all [isExpression, isStatement]

theorem isNode_of_isStatement {t : Node} (h : t.isStatement) : t.isNode := by
  cases t <;> simp_all [isExpression, isStatement, isNode]

/-! Equality of trees, lines included. -/

mutual

/-- Whether two trees have the same kinds, names, lines, values and parts. -/
def same : Node → Node → Bool
  | literal a, literal b => a == b
  | binary f a b, binary g c d => f == g && same a c && same b d
  | reference i x, reference j y => i == j && x == y
  | call i x as, call j y bs => i == j && x == y && sameAll as bs
  | block as, block bs => sameAll as bs
  | declare i x a, declare j y b => i == j && x == y && same a b
  | assign i x a, assign j y b => i == j && x == y && same a b
  | branch a b c, branch d e f => same a d && same b e && same c f
  | loop a b, loop c d => same a c && same b d
  | exit a, exit b => same a b
  | function i x ps a, function j y qs b => i == j && x == y && ps == qs && same a b
  | program a, program b => same a b
  | nothing, nothing => true
  | integer a, integer b => a == b
  | text a, text b => a == b
  | _, _ => false

/-- Pairwise sameness of two lists of one length. -/
def sameAll : List Node → List Node → Bool
  | [], [] => true
  | a :: as, b :: bs => same a b && sameAll as bs
  | _, _ => false

end

mutual

theorem same_iff : (a b : Node) → (same a b = true ↔ a = b)
  | literal _, b => by cases b <;> simp [same]
  | binary _ l r, b => by cases b <;> simp [same, same_iff l, same_iff r, and_assoc]
  | reference .., b => by cases b <;> simp [same]
  | call _ _ as, b => by cases b <;> simp [same, sameAll_iff as, and_assoc]
  | block as, b => by cases b <;> simp [same, sameAll_iff as]
  | declare _ _ e, b => by cases b <;> simp [same, same_iff e, and_assoc]
  | assign _ _ e, b => by cases b <;> simp [same, same_iff e, and_assoc]
  | branch c y n, b => by cases b <;> simp [same, same_iff c, same_iff y, same_iff n, and_assoc]
  | loop c s, b => by cases b <;> simp [same, same_iff c, same_iff s]
  | exit e, b => by cases b <;> simp [same, same_iff e]
  | function _ _ _ s, b => by cases b <;> simp [same, same_iff s, and_assoc]
  | program s, b => by cases b <;> simp [same, same_iff s]
  | nothing, b => by cases b <;> simp [same]
  | integer _, b => by cases b <;> simp [same]
  | text _, b => by cases b <;> simp [same]

theorem sameAll_iff : (as bs : List Node) → (sameAll as bs = true ↔ as = bs)
  | [], bs => by cases bs <;> simp [sameAll]
  | a :: as, bs => by cases bs <;> simp [sameAll, same_iff a, sameAll_iff as]

end

instance : DecidableEq Node := fun a b => decidable_of_iff _ (same_iff a b)

end Node

/-- A named function. The place of its declaration is not part of it: its body runs wherever it is called. -/
structure Function where
  line : Int
  name : String
  params : List String
  body : Node
  deriving DecidableEq, Repr

namespace Function

/-- The number of arguments that a call has to pass. -/
def arity (f : Function) : Nat := f.params.length

/-- The declaration that introduces the function. -/
def declaration (f : Function) : Node := .function f.line f.name f.params f.body

end Function

/-- The ways in which building a tree is refused. -/
inductive BuildError where
  | unknownOperator (symbol : String)
  | notStatement (part : Node)
  deriving DecidableEq, Repr

namespace BuildError

def message : BuildError → String
  | unknownOperator s => "unknown operator: '" ++ s ++ "'"
  | notStatement t => t.kind ++ " is not a statement"

end BuildError

/-- The operator with a given spelling, or a refusal that names the spelling. -/
def BinaryOperator.ofSymbol (s : String) : Except BuildError BinaryOperator :=
  match ofSymbol? s with
  | some op => .ok op
  | none => .error (.unknownOperator s)

/-- The block of the given statements. The first part that is no statement is refused. -/
def Node.blockOf (parts : List Node) : Except BuildError Node :=
  match parts.find? fun t => !t.isStatement with
  | none => .ok (.block parts)
  | some t => .error (.notStatement t)

theorem Node.blockOf_eq_ok_iff {parts : List Node} {t : Node} :
    Node.blockOf parts = .ok t ↔ t = .block parts ∧ ∀ p ∈ parts, p.isStatement := by
  unfold Node.blockOf
  split
  · next h =>
    have all : ∀ p ∈ parts, p.isStatement := by simpa using h
    exact ⟨fun e => ⟨(Except.ok.inj e).symm, all⟩, fun e => by rw [e.1]⟩
  · next p h =>
    have mem := List.mem_of_find?_eq_some h
    have found := List.find?_some h
    refine ⟨nofun, fun e => ?_⟩
    simp [e.2 p mem] at found

end CallSite

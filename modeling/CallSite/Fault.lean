import CallSite.Text.Message
import CallSite.Tree.Node

/-! The faults that end a run. A fault has a cause and perhaps a line; its message is a template filled with
what the cause names, so names are put in as they are whatever characters they hold. Internal faults say that
the interpreter was given a tree or an exit value that no valid program leads to. -/

namespace CallSite

open Text (Message)

inductive Cause where
  | unboundVariable (name : String)
  | unboundFunction (name : String)
  | duplicateDeclaration (name what : String)
  | arityMismatch (name : String) (expected actual : Int)
  | divisionByZero (op : BinaryOperator)
  | recursionDepthExceeded
  | internal (message : Message)
  | general (message : Message) (isInternal : Bool)
  deriving DecidableEq

namespace Cause

/-- The kind under which a diagnostic files the cause. -/
def kind : Cause → String
  | unboundVariable _ => "UnboundVariable"
  | unboundFunction _ => "UnboundFunction"
  | duplicateDeclaration .. => "DuplicateDeclaration"
  | arityMismatch .. => "ArityMismatch"
  | divisionByZero _ => "ArithmeticError"
  | recursionDepthExceeded => "RecursionDepthExceeded"
  | internal _ => "InternalError"
  | general .. => "GenericException"

/-- The name under which a log shows the cause: its kind, except for a division by zero. -/
def label : Cause → String
  | divisionByZero _ => "ArithmeticFault"
  | cause => cause.kind

def isInternal : Cause → Bool
  | internal _ => true
  | general _ isInternal => isInternal
  | _ => false

def message : Cause → Message
  | unboundVariable name => .ofFitting "variable '\x7b\x7d' is not declared in this scope" [name] rfl
  | unboundFunction name => .ofFitting "function '\x7b\x7d' is not declared in this scope" [name] rfl
  | duplicateDeclaration name what =>
    .ofFitting "\x7b\x7d '\x7b\x7d' is already declared in this scope" [what, name] rfl
  | arityMismatch name expected actual =>
    .ofFitting "function '\x7b\x7d' expects \x7b\x7d argument(s), got \x7b\x7d"
      [name, toString expected, toString actual] rfl
  | divisionByZero op => .ofFitting "'\x7b\x7d' by zero" [op.symbol] rfl
  | recursionDepthExceeded => .ofFitting "maximum recursion depth exceeded" [] rfl
  | internal message => message
  | general message _ => message

/-- The interpreter met something where an expression belongs. -/
def unknownExpression (t : Node) : Cause :=
  .internal (.ofFitting "unknown expression '\x7b\x7d'" [t.kind] rfl)

/-- The interpreter met something where a statement belongs. -/
def unknownStatement (t : Node) : Cause :=
  .internal (.ofFitting "unknown statement '\x7b\x7d'" [t.kind] rfl)

/-- The interpreter met something where a block belongs. -/
def unknownBlock (t : Node) : Cause :=
  .internal (.ofFitting "unknown block '\x7b\x7d'" [t.kind] rfl)

/-- The interpreter was asked to run something that is no program. -/
def notProgram (t : Node) : Cause :=
  .internal (.ofFitting "expected Program, got '\x7b\x7d'" [t.kind] rfl)

/-- A scope that has its exit value was given another one. -/
def exitRepeated (value : Int) : Cause :=
  .internal (.ofFitting "attempting to reset exit value \x7b\x7d of a completed scope" [toString value] rfl)

/-- A scope was given no exit value. -/
def exitMissing : Cause := .internal (.ofFitting "exit value cannot be empty" [] rfl)

/-- Something other than a fault of the program reached a reporter. -/
def unknownError (description : String) : Cause :=
  .internal (.ofFitting "unknown error: '\x7b\x7d'" [description] rfl)

/-- The host interrupted the program. -/
def interrupted : Cause := .general (.ofFitting "keyboard interrupt" [] rfl) false

end Cause

structure Fault where
  cause : Cause
  line : Option Int
  deriving DecidableEq

namespace Fault

/-- The fault placed on a line, unless it has one already. -/
def onLine (f : Fault) (line : Option Int) : Fault := { f with line := f.line <|> line }

@[simp] theorem cause_onLine (f : Fault) (line : Option Int) : (f.onLine line).cause = f.cause := rfl

/-- A fault's line never changes once it has one. -/
@[simp] theorem line_onLine (f : Fault) (line : Option Int) : (f.onLine line).line = (f.line <|> line) := rfl

/-- The message without line and kind. -/
def text (f : Fault) : String := f.cause.message.text

/-- The fault on one line of its own. -/
def summary (f : Fault) : String :=
  let place := match f.line with
    | some line => toString line ++ ": "
    | none => ""
  place ++ f.cause.kind ++ ": " ++ f.text

end Fault
end CallSite

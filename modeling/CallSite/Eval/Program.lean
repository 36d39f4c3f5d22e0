import CallSite.Eval.Basic

/-! The meaning of programs. Expressions have integer values; statements have an exit value once a return was
reached, which every enclosing block hands on until a call or the program takes it. A block runs in a scope of
its own. A function body runs in a scope around its arguments that lies inside the scope of the call, so it
sees what the caller sees. Evaluation is given a limit on active calls and an allowance for nesting and
repetition; a run that uses up its allowance is unfinished. -/

namespace CallSite.Eval

/-- The name of the only function that every program can call. A declared function of that name hides it. -/
def printName : String := "println"

/-- Whether a call of a name in a scope prints. -/
def isPrint (s : Scope) (name : String) : Bool := name == printName && (s.function? name).isNone

/-- The printing function: it prints its arguments and has the value zero. -/
def callPrint (values : List Int) : Eval Int := do
  print values
  return 0

def lookUp (line : Int) (x : String) : Eval Int := do
  match ← asking (·.value? x) with
  | some v => pure v
  | none => fail (.unboundVariable x) line

def operate (op : BinaryOperator) (a b : Int) : Eval Int :=
  match op.value? a b with
  | some v => pure v
  | none => fail (.divisionByZero op) none

/-- The parameters, declared with the values passed for them. -/
def bindParams (line : Int) : List (String × Int) → Eval Unit
  | [] => pure ()
  | (x, v) :: rest => do
    changing (·.declareVariable x v line)
    bindParams line rest

/-- A call of a function. A body that reaches no return gives zero. -/
def enter (limit : Option Int) (body : Node → Eval (Option Int)) (line : Int) (f : Function)
    (values : List Int) : Eval Int := do
  let result ← nested do
    bindParams f.line (f.params.zip values)
    counted limit line (body f.body)
  return result.getD 0

/-- A call of a name with values. A function that is visible from the call goes before the printing one. -/
def invoke (limit : Option Int) (body : Node → Eval (Option Int)) (line : Int) (name : String)
    (values : List Int) : Eval Int := do
  match ← asking (·.function? name) with
  | some f =>
    if values.length = f.arity then do
      recordCall ⟨line, name, values⟩
      enter limit body line f values
    else fail (.arityMismatch name f.arity values.length) line
  | none => if name = printName then callPrint values else fail (.unboundFunction name) line

/-- An exit value, if there is one, kept in the current scope and handed on. -/
def leave : Option Int → Eval (Option Int)
  | some v => do
    changing (·.setExit (some v))
    return some v
  | none => pure none

/-- The value that a variable starts with: zero, unless one is given. -/
def startValue (value : Node → Eval Int) (init : Node) : Eval Int :=
  if init = .nothing then pure 0 else value init

/-- The block that a condition's value selects. One that is left out has no exit value. -/
def select (run : Node → Eval (Option Int)) (condition : Int) (yes no : Node) : Eval (Option Int) :=
  if condition ≠ 0 then run yes else if no = .nothing then pure none else run no

mutual

/-- The value of an expression. -/
def expression (limit : Option Int) : Nat → Node → Eval Int
  | 0, _ => unfinished
  | _ + 1, .literal v => pure v
  | _ + 1, .reference line x => lookUp line x
  | n + 1, .binary op l r => do
    let a ← expression limit n l
    let b ← expression limit n r
    operate op a b
  | n + 1, .call line name args => do
    let values ← inOrder (expression limit n) args
    invoke limit (block limit n) line name values
  | _ + 1, t => fail (.unknownExpression t) none

/-- A statement, run in the current scope. -/
def statement (limit : Option Int) : Nat → Node → Eval (Option Int)
  | 0, _ => unfinished
  | n + 1, .declare line x init => do
    let v ← startValue (expression limit n) init
    changing (·.declareVariable x v line)
    return none
  | n + 1, .assign line x value => do
    let v ← expression limit n value
    changing (·.assign x v line)
    return none
  | _ + 1, .function line name params body => do
    changing (·.declareFunction name ⟨line, name, params, body⟩ line)
    return none
  | n + 1, .branch condition yes no => do
    let c ← expression limit n condition
    leave (← select (block limit n) c yes no)
  | n + 1, .loop condition body => do
    let c ← expression limit n condition
    if c ≠ 0 then
      match ← block limit n body with
      | some v => leave (some v)
      | none => statement limit n (.loop condition body)
    else pure none
  | n + 1, .exit value => do
    let v ← expression limit n value
    leave (some v)
  | n + 1, t =>
    if t.isExpression then do
      let _ ← expression limit n t
      return none
    else fail (.unknownStatement t) none

/-- A block, run in a scope of its own up to its first exit. -/
def block (limit : Option Int) : Nat → Node → Eval (Option Int)
  | 0, _ => unfinished
  | n + 1, .block statements => nested (untilExit (statement limit n) statements)
  | _ + 1, t => fail (.unknownBlock t) none

end

/-- A program, run in a scope inside the current one. -/
def program (limit : Option Int) (n : Nat) : Node → Eval (Option Int)
  | .program body => block limit n body
  | t => fail (.notProgram t) none

end CallSite.Eval

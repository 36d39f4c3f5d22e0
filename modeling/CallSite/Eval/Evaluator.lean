import CallSite.Eval.Program
import CallSite.Scope.ScopeTree

/-! Evaluators on a host. An evaluator has a limit on active calls, or none, and keeps its count of active calls
from one run to the next. A host allows every run a certain amount of evaluation, and it has room for a certain
number of active calls; only a run without a limit of its own can use that room up, and it then overflows. -/

namespace CallSite

structure Capacity where
  allowance : Nat
  room : Nat
  deriving DecidableEq, Repr

/-- What ends a run early. -/
inductive Halt where
  | fault (fault : Fault)
  | overflow
  deriving DecidableEq

/-- The error under which a halted run is filed. An overflow is a recursion depth that has no line. -/
def Halt.toFault : Halt → Fault
  | fault f => f
  | overflow => ⟨.recursionDepthExceeded, none⟩

structure Evaluator where
  maxDepth : Option Int := none
  active : Nat := 0
  deriving DecidableEq, Repr

namespace Evaluator
variable {α : Type}

/-- The limit that holds on a host. -/
def limit (e : Evaluator) (c : Capacity) : Int := e.maxDepth.getD c.room

/-- A fault as seen by an evaluator: without a limit of its own, too many calls are an overflow. -/
def halt (e : Evaluator) (f : Fault) : Halt :=
  if e.maxDepth = none ∧ f.cause = .recursionDepthExceeded then .overflow else .fault f

/-- A run of a task, given by its limit and its allowance: how it ends, the evaluator and the state after it.
A run that the capacity's allowance cuts off has none of these. -/
def run (e : Evaluator) (c : Capacity) (task : Option Int → Nat → Eval α) (s : State) :
    Option (Except Halt α × Evaluator × State) :=
  match task (some (e.limit c)) c.allowance { s with active := e.active } with
  | .done v t => some (.ok v, { e with active := t.active }, t)
  | .failed f t => some (.error (e.halt f), { e with active := t.active }, t)
  | .unfinished => none

/-- A run of a task in one scope of a tree. -/
def runIn (e : Evaluator) (c : Capacity) (task : Option Int → Nat → Eval α) (t : ScopeTree) (i : Nat) :
    Option (Except Halt α × Evaluator × ScopeTree) :=
  (e.run c task { scope := t.scope i, printed := t.printed }).map fun (ending, e, s) =>
    (ending, e, { t.setScope i s.scope with printed := s.printed })

/-- A run of a program inside a new root. -/
def execute (e : Evaluator) (c : Capacity) (program : Node) (printed : String) :
    Option (Except Halt (Option Int) × Evaluator × State) :=
  e.run c (fun limit n => Eval.program limit n program) { scope := [{}], printed }

end Evaluator
end CallSite

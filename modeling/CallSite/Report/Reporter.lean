import CallSite.Eval.Evaluator
import CallSite.Report.Painted

/-! Reporters. A reporter writes diagnostics under a path, and a fatal one ends the host program after an error.
It also decides what becomes of whatever left a guarded part of the host program: an exit passes, a fault of the
program is reported and goes no further, and anything else is reported and, unless it was fatal, passes too. -/

namespace CallSite

/-- The status that a host program ends with. -/
inductive ExitStatus where
  | unspecified
  | code (n : Int)
  | text (s : String)
  deriving DecidableEq, Repr

/-- What can leave a part of a host program instead of its normal end. -/
inductive Escape where
  | interrupt
  | exit (status : ExitStatus)
  | overflow
  | fault (fault : Fault)
  | foreign (kind text : String)
  deriving DecidableEq

/-- What a halted run lets out. -/
def Halt.escape : Halt → Escape
  | fault f => .fault f
  | overflow => .overflow

structure Reporter where
  path : String := "<program>"
  fatal : Bool := true
  palette : Text.Palette := .plain
  written : String := ""
  deriving DecidableEq, Repr

namespace Reporter

/-- The line that a fault is reported by. -/
def line (r : Reporter) (f : Fault) (severity : Severity) : String :=
  f.diagnostic r.path r.palette severity ++ "\n"

def write (r : Reporter) (text : String) : Reporter := { r with written := r.written ++ text }

/-- The reporter after a warning. -/
def warn (r : Reporter) (f : Fault) : Reporter := r.write (r.line f .warning)

/-- The reporter after an error, and the exit that follows if it is fatal. -/
def throw (r : Reporter) (f : Fault) : Reporter × Option Escape :=
  (r.write (r.line f .error), if r.fatal then some (.exit (.code 1)) else none)

/-- The reporter after a guarded part that ended in the given way, and what leaves the guard. -/
def conclude (r : Reporter) : Option Escape → Reporter × Option Escape
  | none => (r, none)
  | some .interrupt => r.throw ⟨.interrupted, none⟩
  | some (.exit status) => (r, some (.exit status))
  | some .overflow => r.throw ⟨.recursionDepthExceeded, none⟩
  | some (.fault f) => r.throw f
  | some (.foreign kind text) =>
    let (r, exit) := r.throw ⟨.unknownError (kind ++ ": " ++ text), none⟩
    (r, exit <|> some (.foreign kind text))

/-- A guarded run of a program: the reporter after it and what leaves the guard, the value if the run came to
its end, and the state that it left. -/
def supervise (r : Reporter) (c : Capacity) (e : Evaluator) (program : Node) (printed : String) :
    Option ((Reporter × Option Escape) × Option (Option Int) × State) :=
  (e.execute c program printed).map fun (ending, _, s) =>
    match ending with
    | .ok value => (r.conclude none, some value, s)
    | .error halt => (r.conclude (some halt.escape), none, s)

end Reporter
end CallSite

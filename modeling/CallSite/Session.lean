import CallSite.Report.Reporter

/-! Sessions. A session runs programs one after the other, each in a root scope of its own, and keeps their
outcomes. Sessions of one host may share an evaluator, a reporter or a stream that they print to; opening a
session gives its reporter the session's path. What a host does is logged. -/

namespace CallSite

/-- How a run of a program ended: with a value, if it reached a return, or with a fault. -/
inductive Outcome where
  | finished (value : Option Int)
  | failed (fault : Fault)
  deriving DecidableEq

namespace Outcome

def value? : Outcome → Option Int
  | finished value => value
  | failed _ => none

def fault? : Outcome → Option Fault
  | finished _ => none
  | failed fault => some fault

/-- The outcome of a run that ended in the given way. -/
def ofEnding : Except Halt (Option Int) → Outcome
  | .ok value => .finished value
  | .error halt => .failed halt.toFault

/-- The outcome on one line. -/
def describe (o : Outcome) : String :=
  let value := match o.value? with
    | some v => toString v
    | none => "None"
  let fault := match o.fault? with
    | some f => f.cause.label ++ "(" ++ Text.quote f.text ++ ")"
    | none => "None"
  "Outcome" ++ Text.bracketed "(" ["value=" ++ value, "error=" ++ fault] ")"

end Outcome

inductive LogEntry where
  | running (path : String)
  | calling (call : CallRecord)
  | finished (path : String) (outcome : Outcome)
  deriving DecidableEq

/-- The text of a log entry. -/
def LogEntry.text : LogEntry → String
  | running path => path ++ ": running program"
  | calling call =>
    "line " ++ toString call.line ++ ": calling " ++ call.name ++ " with " ++
      Text.bracketed "[" (call.values.map toString) "]"
  | finished path outcome => path ++ ": finished with " ++ outcome.describe

/-- A session prints to one of its host's streams, or to the standard output if it is given none. -/
structure Session where
  path : String
  reporter : Option Nat
  evaluator : Nat
  stream : Option Nat := none
  outcomes : List Outcome := []
  deriving DecidableEq

/-- A host of sessions, which all log to one log. What was printed to the standard output is kept apart from
what was printed to the other streams. -/
structure Host where
  reporters : List Reporter := []
  evaluators : List Evaluator := []
  sessions : List Session := []
  printed : String := ""
  streams : List String := []
  log : List LogEntry := []
  deriving DecidableEq

namespace Host

/-- The depth limit of a session that is opened without one. -/
def usualDepth : Int := 2000

/-- What was printed so far to a stream, or to the standard output. -/
def printedTo? (h : Host) : Option Nat → Option String
  | none => some h.printed
  | some k => h.streams[k]?

/-- The host with other contents of a stream, or of the standard output. -/
def withPrinted (h : Host) (text : String) : Option Nat → Host
  | none => { h with printed := text }
  | some k => { h with streams := h.streams.set k text }

/-- A host with a further session, which is given the next number. Without an evaluator to share it gets one of
its own. Its reporter takes over its path. -/
def openSession (h : Host) (path : String) (reporter evaluator : Option Nat) (maxDepth : Option Int)
    (stream : Option Nat := none) : Host :=
  let reporters := match reporter with
    | some r => h.reporters.modify r fun r => { r with path }
    | none => h.reporters
  match evaluator with
  | some e => { h with reporters, sessions := h.sessions ++ [{ path, reporter, evaluator := e, stream }] }
  | none =>
    { h with
      reporters
      evaluators := h.evaluators ++ [{ maxDepth }]
      sessions := h.sessions ++ [{ path, reporter, evaluator := h.evaluators.length, stream }] }

/-- The evaluator that a session runs its programs on. -/
def evaluatorOf? (h : Host) (i : Nat) : Option Evaluator := do
  let session ← h.sessions[i]?
  h.evaluators[session.evaluator]?

/-- The reporter that a session's failures go to. -/
def reporterOf? (h : Host) (i : Nat) : Option Reporter := do
  let session ← h.sessions[i]?
  h.reporters[← session.reporter]?

/-- A run of a program in a session. A run that the capacity cuts off has no result. -/
def execute (h : Host) (c : Capacity) (i : Nat) (program : Node) : Option (Outcome × Host) := do
  let session ← h.sessions[i]?
  let evaluator ← h.evaluators[session.evaluator]?
  let printed ← h.printedTo? session.stream
  let (ending, evaluator, state) ← evaluator.execute c program printed
  let outcome := Outcome.ofEnding ending
  return (outcome,
    { h.withPrinted state.printed session.stream with
      evaluators := h.evaluators.set session.evaluator evaluator
      sessions := h.sessions.set i { session with outcomes := session.outcomes ++ [outcome] }
      log := h.log ++ [.running session.path] ++ state.calls.reverse.map .calling ++
        [.finished session.path outcome] })

/-- A run of a program whose failure is reported, and the exit that follows if the reporter is fatal. -/
def run (h : Host) (c : Capacity) (i : Nat) (program : Node) : Option (Outcome × Option Escape × Host) := do
  let (outcome, h) ← h.execute c i program
  let session ← h.sessions[i]?
  match outcome, session.reporter with
  | .failed fault, some r => do
    let (reporter, escape) := (← h.reporters[r]?).throw fault
    return (outcome, escape, { h with reporters := h.reporters.set r reporter })
  | _, _ => return (outcome, none, h)

/-- The latest outcome of a session, and the host without it. There may be none. -/
def pop (h : Host) (i : Nat) : Option (Outcome × Host) := do
  let session ← h.sessions[i]?
  let outcome ← session.outcomes.getLast?
  let session := { session with outcomes := session.outcomes.dropLast }
  return (outcome, { h with sessions := h.sessions.set i session })

end Host
end CallSite

import CallSite.Proofs.Report.Verbatim

/-! Guards. A host program warns, throws errors and guards parts of itself, in any order and one inside
the other, and goes on as it likes after whatever escaped. A guard lets nothing out but an exit or what
left its body, and all that a reporter ever writes is one line for each warning and each error. -/

namespace CallSite

/-- A host program as its reporter sees it. A part that leaves the reporter alone just ends in some way.
What follows a part is chosen by the way in which that part ended: it may be skipped, be done all the
same or deal with what escaped. -/
inductive HostCode where
  | other (ending : Option Escape)
  | warn (f : Fault)
  | throw (f : Fault)
  | guarded (body : HostCode)
  | andThen (first : HostCode) (next : Option Escape → HostCode)

/-- The reporter after a host program, and what the program let out. -/
def HostCode.perform : HostCode → Reporter → Reporter × Option Escape
  | other ending, r => (r, ending)
  | warn f, r => (r.warn f, none)
  | throw f, r => r.throw f
  | guarded body, r => (body.perform r).1.conclude (body.perform r).2
  | andThen first next, r => (next (first.perform r).2).perform (first.perform r).1

namespace Escape

/-- The exit that follows an error, if errors are fatal. -/
def afterError (fatal : Bool) : Option Escape := if fatal then some (.exit (.code 1)) else none

/-- What leaves a guard after its body let something out. -/
def beyond (fatal : Bool) : Escape → Option Escape
  | exit status => some (.exit status)
  | foreign kind text => if fatal then some (.exit (.code 1)) else some (.foreign kind text)
  | interrupt | overflow | fault _ => afterError fatal

end Escape

namespace Reporter

/-- The reporter after it has written a line for each of the given faults. -/
def report (r : Reporter) (reports : List (Fault × Severity)) : Reporter :=
  r.write (String.join (reports.map fun (f, severity) => r.line f severity))

@[simp] theorem report_nil (r : Reporter) : r.report [] = r := by simp [report, write]

@[simp] theorem report_append (r : Reporter) (reports further : List (Fault × Severity)) :
    r.report (reports ++ further) = (r.report reports).report further := by
  simp [report, write, line, String.append_assoc]

@[simp] theorem fatal_report (r : Reporter) (reports : List (Fault × Severity)) :
    (r.report reports).fatal = r.fatal := rfl

end Reporter

namespace HostCode

/-- The exit that leaves the inner guard passes the outer one, which writes nothing. -/
example :
    let body : HostCode := .andThen (.warn ⟨.interrupted, some 2⟩) fun _ =>
      .other (some (.foreign "OSError" "disk"))
    (guarded (.guarded body)).perform { path := "a" } = ({ path := "a", written :=
      "a:2: warning: GenericException: keyboard interrupt\n" ++
        "a: [internal] error: InternalError: unknown error: 'OSError: disk'\n" },
      some (.exit (.code 1))) := by decide +kernel

end HostCode
end CallSite

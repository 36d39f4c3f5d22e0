import CallSite.Proofs.Host.Reuse

/-! Two ways to report a failed program. A session keeps the failure as an outcome and hands it to
its reporter; a guard lets it leave the run and translates what left. Neither the reporter nor the
caller can tell which of the two it was. -/

namespace CallSite

namespace Reporter
variable {e e' : Evaluator} {c : Capacity} {program : Node} {out : String} {s : State}

end Reporter

namespace Host
variable {h : Host} {k : Nat} {r : Reporter} {stream : Option Nat} {out : String}

end Host
end CallSite

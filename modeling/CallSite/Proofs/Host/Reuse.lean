import CallSite.Proofs.Run.Budget
import CallSite.Session
import Mathlib.Data.List.Basic

/-! Evaluators that are used again. A run leaves its evaluator as it was, however it ends, and what
was printed before makes no difference to it. What a run in a session does to its host therefore
follows from the run of the evaluator alone. -/

namespace CallSite

namespace Evaluator
variable {e e' : Evaluator} {c : Capacity} {program : Node} {printed : String}

/-- An evaluator is left with the active calls that it had. -/
theorem execute_unchanged {ending : Except Halt (Option Int)} {s : State}
    (h : e.execute c program printed = some (ending, e', s)) : e' = e := by
  have changed := Eval.program_changed (some (e.limit c)) c.allowance program
    { scope := [{}], printed, active := e.active }
  unfold execute run at h
  dsimp only at h
  cases r : Eval.program (some (e.limit c)) c.allowance program
      { scope := [{}], printed, active := e.active } with
  | done v t =>
    rw [r] at h changed
    obtain ⟨-, rfl, -⟩ : _ ∧ _ ∧ _ := by simpa using h
    exact congrArg (Evaluator.mk e.maxDepth) changed.active
  | failed f t =>
    rw [r] at h changed
    obtain ⟨-, rfl, -⟩ : _ ∧ _ ∧ _ := by simpa using h
    exact congrArg (Evaluator.mk e.maxDepth) changed.active
  | unfinished =>
    rw [r] at h
    cases h

/-- A run ends in the same way whatever was printed before, and adds the same output to it. -/
theorem execute_printed (e : Evaluator) (c : Capacity) (program : Node) (printed : String) :
    (e.execute c program printed).map (fun r => (r.1, r.2.2.printed)) =
      (e.execute c program "").map fun r => (r.1, printed ++ r.2.2.printed) := by
  have unread := (Eval.runs_unaffected c.allowance program).2.2.unread (some (e.limit c)) printed
    { scope := [{}], printed := "", active := e.active }
  unfold execute run
  dsimp only at unread ⊢
  rw [unread]
  cases Eval.program (some (e.limit c)) c.allowance program
      { scope := [{}], printed := "", active := e.active } <;> rfl

end Evaluator

/-- A session after something was done to the outcomes that it holds. -/
def Session.mapOutcomes (f : List Outcome → List Outcome) (session : Session) : Session :=
  { session with outcomes := f session.outcomes }

namespace Host
variable {h h' : Host} {c : Capacity} {i : Nat} {program : Node} {session : Session}

theorem openSession_sessions (h : Host) (path : String) (reporter evaluator : Option Nat)
    (maxDepth : Option Int) (stream : Option Nat) :
    (h.openSession path reporter evaluator maxDepth stream).sessions =
      h.sessions ++ [⟨path, reporter, evaluator.getD h.evaluators.length, stream, []⟩] := by
  cases evaluator <;> rfl

theorem openSession_evaluators (h : Host) (path : String) (reporter evaluator : Option Nat)
    (maxDepth : Option Int) (stream : Option Nat) :
    (h.openSession path reporter evaluator maxDepth stream).evaluators =
      h.evaluators ++ if evaluator.isNone then [⟨maxDepth, 0⟩] else [] := by
  cases evaluator <;> simp [openSession]

theorem openSession_reporters (h : Host) (path : String) (reporter evaluator : Option Nat)
    (maxDepth : Option Int) (stream : Option Nat) :
    (h.openSession path reporter evaluator maxDepth stream).reporters =
      reporter.elim h.reporters fun r => h.reporters.modify r ({ · with path }) := by
  cases evaluator <;> cases reporter <;> rfl

theorem openSession_printedTo? (h : Host) (path : String) (reporter evaluator : Option Nat)
    (maxDepth : Option Int) (stream k : Option Nat) :
    (h.openSession path reporter evaluator maxDepth stream).printedTo? k = h.printedTo? k := by
  cases evaluator <;> cases k <;> rfl

theorem withPrinted_printedTo? (h : Host) (text : String) (k k' : Option Nat) :
    (h.withPrinted text k).printedTo? k' =
      if k = k' then (h.printedTo? k').map fun _ => text else h.printedTo? k' := by
  cases k with
  | none => cases k' <;> rfl
  | some k =>
    cases k' with
    | none => rfl
    | some k' =>
      by_cases same : k = k'
      · subst same
        simp only [withPrinted, printedTo?, List.getElem?_set_self', if_true]
        rfl
      · simp [withPrinted, printedTo?, List.getElem?_set_ne, same]

theorem withPrinted_evaluators (h : Host) (text : String) (k : Option Nat) :
    (h.withPrinted text k).evaluators = h.evaluators := by cases k <;> rfl

theorem withPrinted_reporters (h : Host) (text : String) (k : Option Nat) :
    (h.withPrinted text k).reporters = h.reporters := by cases k <;> rfl

/-- A run in a session is a run of its evaluator, which is left as it was. -/
theorem execute_of_session {e : Evaluator} {p : String} (here : h.sessions[i]? = some session)
    (runs : h.evaluators[session.evaluator]? = some e)
    (prints : h.printedTo? session.stream = some p) (c : Capacity) (program : Node) :
    h.execute c i program = (e.execute c program p).map fun r => (.ofEnding r.1,
      { h.withPrinted r.2.2.printed session.stream with
        sessions := h.sessions.modify i (·.mapOutcomes (· ++ [.ofEnding r.1]))
        log := h.log ++ [.running session.path] ++ r.2.2.calls.reverse.map .calling ++
          [.finished session.path (.ofEnding r.1)] }) := by
  cases ran : e.execute c program p with
  | none => simp [execute, here, runs, prints, ran]
  | some r =>
    obtain ⟨ending, e', s⟩ := r
    obtain rfl : e' = e := Evaluator.execute_unchanged ran
    obtain ⟨lt, kept⟩ := List.getElem?_eq_some_iff.mp runs
    have same : h.evaluators.set session.evaluator e' = h.evaluators :=
      kept ▸ List.set_getElem_self lt
    simp [execute, here, runs, prints, ran, same, withPrinted_evaluators,
      List.modify_eq_set_getElem?, Session.mapOutcomes]

theorem run_of_finished {v : Option Int} (ran : h.execute c i program = some (.finished v, h'))
    (here : h'.sessions[i]? = some session) :
    h.run c i program = some (.finished v, none, h') := by
  simp [run, ran, here]

theorem run_of_unreported {f : Fault} (ran : h.execute c i program = some (.failed f, h'))
    (here : h'.sessions[i]? = some session) (reports : session.reporter = none) :
    h.run c i program = some (.failed f, none, h') := by
  simp [run, ran, here, reports]

theorem run_of_failed {f : Fault} {k : Nat} {r : Reporter}
    (ran : h.execute c i program = some (.failed f, h')) (here : h'.sessions[i]? = some session)
    (reports : session.reporter = some k) (known : h'.reporters[k]? = some r) :
    h.run c i program = some (.failed f, (r.throw f).2,
      { h' with reporters := h'.reporters.set k (r.throw f).1 }) := by
  simp [run, ran, here, reports, known]

end Host
end CallSite

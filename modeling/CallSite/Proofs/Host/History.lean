import CallSite.Proofs.Host.Reuse

/-! Histories of a host. Sessions that may share evaluators, reporters and streams are opened, run
programs and give outcomes back, in any order. Whatever came before, and however it ended, a run
gives what it gives in a session of its own, and a session holds the outcomes of its own runs. -/

namespace CallSite

/-- What is raised when an outcome is taken from a session that holds none. -/
def Escape.noOutcome : Escape := .foreign "IndexError" "pop from empty list"

inductive Request where
  | openSession (path : String) (reporter evaluator : Option Nat) (maxDepth : Option Int)
      (stream : Option Nat)
  | execute (i : Nat) (program : Node)
  | run (i : Nat) (program : Node)
  | pop (i : Nat)

inductive Answer where
  | opened
  | ran (outcome : Outcome) (escape : Option Escape)
  | popped (outcome : Outcome)
  | raised (escape : Escape)
  deriving DecidableEq

namespace Host
variable {h h' start : Host} {c : Capacity} {program : Node} {i : Nat} {session : Session}

/-- What a program gives on its own: the outcome and the output of a session that was opened for
it. -/
def alone (c : Capacity) (maxDepth : Option Int) (program : Node) : Option (Outcome × String) :=
  ((openSession {} "<program>" none none maxDepth).execute c 0 program).map
    fun (outcome, h) => (outcome, h.printed)

/-- The outcomes that a session holds, the latest at the end. -/
def outcomesOf (h : Host) (i : Nat) : List Outcome := (h.sessions[i]?.map (·.outcomes)).getD []

/-- The stream that a session prints to, or none for the standard output. -/
def streamOf? (h : Host) (i : Nat) : Option (Option Nat) := h.sessions[i]?.map (·.stream)

/-- The answer to a request and the host after it. There is none if a run does not end, or if the
request refers to something that is not there. -/
def serve (h : Host) (c : Capacity) : Request → Option (Answer × Host)
  | .openSession path reporter evaluator maxDepth stream =>
    if reporter.all (· < h.reporters.length) ∧ evaluator.all (· < h.evaluators.length) ∧
        (h.printedTo? stream).isSome then
      some (.opened, h.openSession path reporter evaluator maxDepth stream)
    else none
  | .execute i program => (h.execute c i program).map fun (outcome, h) => (.ran outcome none, h)
  | .run i program =>
    (h.run c i program).map fun (outcome, escape, h) => (.ran outcome escape, h)
  | .pop i =>
    if i < h.sessions.length then
      match h.pop i with
      | some (outcome, h) => some (.popped outcome, h)
      | none => some (.raised .noOutcome, h)
    else none

/-- The answers to requests that are made one after the other, and the host after them. -/
def serveAll (c : Capacity) : List Request → Host → Option (List Answer × Host)
  | [], h => some ([], h)
  | request :: rest, h => do
    let (answer, h) ← h.serve c request
    let (answers, h) ← serveAll c rest h
    return (answer :: answers, h)

/-- The stack of a session's outcomes after an answered request: a run in it adds its outcome, and
taking an outcome removes the latest. -/
def stackAfter (i : Nat) (held : List Outcome) : Request × Answer → List Outcome
  | (.execute j _, .ran outcome _) => if j = i then held ++ [outcome] else held
  | (.run j _, .ran outcome _) => if j = i then held ++ [outcome] else held
  | (.pop j, .popped _) => if j = i then held.dropLast else held
  | _ => held

/-- A host that nothing was asked of so far. -/
structure Unused (h : Host) : Prop where
  sessions : h.sessions = []
  idle : ∀ e ∈ h.evaluators, e.active = 0

/-- Whatever a session refers to is there. -/
structure Serves (h : Host) (session : Session) : Prop where
  reporter : ∀ r, session.reporter = some r → r < h.reporters.length
  evaluator : session.evaluator < h.evaluators.length
  stream : (h.printedTo? session.stream).isSome

/-- Between two requests no call is active, and every session can be served. -/
structure Sound (h : Host) : Prop where
  idle : ∀ e ∈ h.evaluators, e.active = 0
  serves : ∀ session ∈ h.sessions, h.Serves session

/-- What a run in a session adds to a host: its outcome to that session, and its output to the
stream that the session prints to. -/
structure Adds (h : Host) (i : Nat) (outcome : Outcome) (text : String) (h' : Host) : Prop where
  known : i < h.sessions.length
  sessions : h'.sessions = h.sessions.modify i (·.mapOutcomes (· ++ [outcome]))
  evaluators : h'.evaluators = h.evaluators
  reporters : h'.reporters.length = h.reporters.length
  printed : ∀ k, h'.printedTo? k =
    if h.streamOf? i = some k then (h.printedTo? k).map (· ++ text) else h.printedTo? k

theorem Unused.sound (unused : h.Unused) : h.Sound :=
  ⟨unused.idle, by simp [unused.sessions]⟩

/-- A run on an idle evaluator is a run in a session that was opened for its program. -/
theorem alone_eq (c : Capacity) {e : Evaluator} (idle : e.active = 0) (program : Node) :
    alone c e.maxDepth program =
      (e.execute c program "").map fun r => (.ofEnding r.1, r.2.2.printed) := by
  obtain ⟨maxDepth, active⟩ := e
  obtain rfl : active = 0 := idle
  have here : (openSession {} "<program>" none none maxDepth).sessions[0]? =
      some ⟨"<program>", none, 0, none, []⟩ := rfl
  rw [alone, execute_of_session here rfl rfl, Option.map_map]
  rfl

theorem Sound.exists_session (sound : h.Sound) {e : Evaluator}
    (runner : h.evaluatorOf? i = some e) :
    ∃ session, h.sessions[i]? = some session ∧ h.Serves session ∧
      h.evaluators[session.evaluator]? = some e ∧ e.active = 0 := by
  obtain ⟨session, here, runs⟩ := Option.bind_eq_some_iff.mp runner
  exact ⟨session, here, sound.serves session (List.mem_of_getElem? here), runs,
    sound.idle e (List.mem_of_getElem? runs)⟩

/-- A run in a session ends if its program ends alone, and adds what the program gives there. -/
theorem Sound.execute (sound : h.Sound) {e : Evaluator} (runner : h.evaluatorOf? i = some e)
    (c : Capacity) (program : Node) :
    (alone c e.maxDepth program = none → h.execute c i program = none) ∧
      ∀ o text, alone c e.maxDepth program = some (o, text) →
        ∃ h', h.execute c i program = some (o, h') ∧ h.Adds i o text h' := by
  obtain ⟨session, here, serves, runs, idle⟩ := sound.exists_session runner
  obtain ⟨p, prints⟩ := Option.isSome_iff_exists.mp serves.stream
  -- the evaluator ends alike after `p` and after nothing, so its run here is the run alone
  have printed := e.execute_printed c program p
  rw [alone_eq c idle, execute_of_session here runs prints]
  cases ran : e.execute c program p with
  | none =>
    rw [ran, Option.map_none, eq_comm, Option.map_eq_none_iff] at printed
    simp [printed]
  | some r =>
    obtain ⟨ending, e', s⟩ := r
    rw [ran, Option.map_some, eq_comm, Option.map_eq_some_iff] at printed
    obtain ⟨⟨ending', e'', s'⟩, single, same⟩ := printed
    obtain ⟨rfl, text⟩ := Prod.mk.inj same
    rw [single]
    refine ⟨by simp, ?_⟩
    rintro o text' ⟨⟩
    refine ⟨_, rfl, (List.getElem?_eq_some_iff.mp here).1, rfl, withPrinted_evaluators .., ?_, ?_⟩
    · rw [withPrinted_reporters]
    · intro k
      change (h.withPrinted s.printed session.stream).printedTo? k = _
      simp only [withPrinted_printedTo?, streamOf?, here, Option.map_some, Option.some_inj]
      split
      · subst k
        rw [prints, ← text]
        rfl
      · rfl

/-- Reporting a failed run changes nothing but the reporter. -/
theorem Sound.run (sound : h.Sound) {e : Evaluator} (runner : h.evaluatorOf? i = some e)
    (c : Capacity) (program : Node) :
    (alone c e.maxDepth program = none → h.run c i program = none) ∧
      ∀ o text, alone c e.maxDepth program = some (o, text) →
        ∃ escape h', h.run c i program = some (o, escape, h') ∧ h.Adds i o text h' := by
  obtain ⟨session, here, serves, -, -⟩ := sound.exists_session runner
  obtain ⟨cut, ends⟩ := sound.execute runner c program
  refine ⟨fun single => by simp [Host.run, cut single], fun o text single => ?_⟩
  obtain ⟨h', ran, adds⟩ := ends o text single
  have there : h'.sessions[i]? = some (session.mapOutcomes (· ++ [o])) := by
    simp [adds.sessions, here]
  cases o with
  | finished v => exact ⟨none, h', run_of_finished ran there, adds⟩
  | failed f =>
    cases reports : session.reporter with
    | none => exact ⟨none, h', run_of_unreported ran there reports, adds⟩
    | some k =>
      have lt : k < h'.reporters.length := adds.reporters ▸ serves.reporter k reports
      refine ⟨_, _, run_of_failed ran there reports (List.getElem?_eq_getElem lt), ?_⟩
      exact ⟨adds.known, adds.sessions, adds.evaluators, by simp [adds.reporters], adds.printed⟩

theorem exists_evaluator_of_execute {r : Outcome × Host} (ran : h.execute c i program = some r) :
    ∃ e, h.evaluatorOf? i = some e := by
  obtain ⟨session, here, ran⟩ := Option.bind_eq_some_iff.mp ran
  obtain ⟨e, runs, -⟩ := Option.bind_eq_some_iff.mp ran
  exact ⟨e, Option.bind_eq_some_iff.mpr ⟨session, here, runs⟩⟩

theorem Sound.execute_adds (sound : h.Sound) {o : Outcome}
    (ran : h.execute c i program = some (o, h')) : ∃ text, h.Adds i o text h' := by
  obtain ⟨e, runner⟩ := exists_evaluator_of_execute ran
  obtain ⟨cut, ends⟩ := sound.execute runner c program
  cases single : alone c e.maxDepth program with
  | none => cases (cut single).symm.trans ran
  | some r =>
    obtain ⟨h'', ran', adds⟩ := ends r.1 r.2 single
    cases ran'.symm.trans ran
    exact ⟨r.2, adds⟩

theorem Sound.run_adds (sound : h.Sound) {o : Outcome} {escape : Option Escape}
    (ran : h.run c i program = some (o, escape, h')) : ∃ text, h.Adds i o text h' := by
  obtain ⟨r, executed, -⟩ := Option.bind_eq_some_iff.mp ran
  obtain ⟨e, runner⟩ := exists_evaluator_of_execute executed
  obtain ⟨cut, ends⟩ := sound.run runner c program
  cases single : alone c e.maxDepth program with
  | none => cases (cut single).symm.trans ran
  | some r =>
    obtain ⟨escape', h'', ran', adds⟩ := ends r.1 r.2 single
    cases ran'.symm.trans ran
    exact ⟨r.2, adds⟩

theorem outcomesOf_of_modify {f : List Outcome → List Outcome}
    (sessions : h'.sessions = h.sessions.modify i (·.mapOutcomes f)) (lt : i < h.sessions.length)
    (j : Nat) : h'.outcomesOf j = if i = j then f (h.outcomesOf j) else h.outcomesOf j := by
  unfold outcomesOf
  rw [sessions, List.getElem?_modify]
  split
  · subst j
    simp [lt, Session.mapOutcomes]
  · simp

theorem Serves.of_mem_modify {f : List Outcome → List Outcome}
    (serves : ∀ session ∈ h.sessions, h.Serves session) :
    ∀ session ∈ h.sessions.modify i (·.mapOutcomes f), h.Serves session := by
  intro session mem
  obtain ⟨j, here⟩ := List.getElem?_of_mem mem
  rw [List.getElem?_modify] at here
  obtain ⟨old, there, rfl⟩ := Option.map_eq_some_iff.mp here
  have old := serves _ (List.mem_of_getElem? there)
  split
  · exact ⟨old.reporter, old.evaluator, old.stream⟩
  · exact old

theorem Serves.mono (serves : h.Serves session)
    (reporters : h.reporters.length ≤ h'.reporters.length)
    (evaluators : h.evaluators.length ≤ h'.evaluators.length)
    (printed : ∀ k, (h.printedTo? k).isSome → (h'.printedTo? k).isSome) : h'.Serves session :=
  ⟨fun r same => Nat.lt_of_lt_of_le (serves.reporter r same) reporters,
    Nat.lt_of_lt_of_le serves.evaluator evaluators, printed _ serves.stream⟩

theorem Sound.of_adds (sound : h.Sound) {o : Outcome} {text : String}
    (adds : h.Adds i o text h') : h'.Sound := by
  refine ⟨adds.evaluators ▸ sound.idle, fun session mem => ?_⟩
  rw [adds.sessions] at mem
  have old := Serves.of_mem_modify sound.serves session mem
  refine old.mono (Nat.le_of_eq adds.reporters.symm) (adds.evaluators ▸ Nat.le_refl _)
    fun k present => ?_
  rw [adds.printed]
  split
  · rwa [Option.isSome_map]
  · exact present

theorem Sound.openSession (sound : h.Sound) {path : String} {reporter evaluator : Option Nat}
    {maxDepth : Option Int} {stream : Option Nat}
    (reports : reporter.all (· < h.reporters.length))
    (runs : evaluator.all (· < h.evaluators.length)) (prints : (h.printedTo? stream).isSome) :
    (h.openSession path reporter evaluator maxDepth stream).Sound := by
  constructor
  · intro e mem
    rw [openSession_evaluators, List.mem_append] at mem
    rcases mem with mem | mem
    · exact sound.idle e mem
    · cases evaluator with
      | none => exact List.mem_singleton.mp mem ▸ rfl
      | some => simp at mem
  · intro session mem
    rw [openSession_sessions, List.mem_append, List.mem_singleton] at mem
    rcases mem with mem | rfl
    · refine (sound.serves session mem).mono ?_ ?_ fun k => ?_
      · rw [openSession_reporters]
        cases reporter <;> simp
      · rw [openSession_evaluators, List.length_append]
        exact Nat.le_add_right _ _
      · rw [openSession_printedTo?]
        exact id
    · refine ⟨?_, ?_, ?_⟩
      · rw [openSession_reporters]
        rintro r rfl
        simpa using reports
      · rw [openSession_evaluators]
        cases evaluator with
        | none => simp
        | some e => simpa using runs
      · rw [openSession_printedTo?]
        exact prints

theorem outcomesOf_openSession (h : Host) (path : String) (reporter evaluator : Option Nat)
    (maxDepth : Option Int) (stream : Option Nat) (i : Nat) :
    (h.openSession path reporter evaluator maxDepth stream).outcomesOf i = h.outcomesOf i := by
  rw [outcomesOf, outcomesOf, openSession_sessions]
  by_cases known : i < h.sessions.length
  · rw [List.getElem?_append_left known]
  · rw [List.getElem?_append_right (Nat.le_of_not_lt known), List.getElem?_singleton,
      List.getElem?_eq_none (Nat.le_of_not_lt known)]
    split <;> rfl

theorem serve_pop (known : i < h.sessions.length) :
    h.serve c (.pop i) = some (match (h.outcomesOf i).getLast? with
      | some o =>
        (.popped o, { h with sessions := h.sessions.modify i (·.mapOutcomes List.dropLast) })
      | none => (.raised .noOutcome, h)) := by
  have here := List.getElem?_eq_getElem known
  cases last : h.sessions[i].outcomes.getLast? <;>
    simp [Host.serve, known, pop, outcomesOf, last, List.modify_eq_set_getElem?,
      Session.mapOutcomes]

/-- A request leaves a host with sessions that can be served and idle evaluators, also if a run
failed or left through an exit, and changes the outcomes of its own session only. -/
theorem Sound.serve (sound : h.Sound) {request : Request} {answer : Answer}
    (served : h.serve c request = some (answer, h')) :
    h'.Sound ∧ ∀ j, h'.outcomesOf j = stackAfter j (h.outcomesOf j) (request, answer) := by
  cases request with
  | openSession path reporter evaluator maxDepth stream =>
    obtain ⟨refers, same⟩ := Option.ite_none_right_eq_some.mp served
    cases same
    exact ⟨sound.openSession refers.1 refers.2.1 refers.2.2,
      outcomesOf_openSession h path reporter evaluator maxDepth stream⟩
  | execute i program =>
    obtain ⟨⟨o, h'⟩, ran, same⟩ := Option.map_eq_some_iff.mp served
    cases same
    obtain ⟨text, adds⟩ := sound.execute_adds ran
    exact ⟨sound.of_adds adds, outcomesOf_of_modify adds.sessions adds.known⟩
  | run i program =>
    obtain ⟨⟨o, escape, h'⟩, ran, same⟩ := Option.map_eq_some_iff.mp served
    cases same
    obtain ⟨text, adds⟩ := sound.run_adds ran
    exact ⟨sound.of_adds adds, outcomesOf_of_modify adds.sessions adds.known⟩
  | pop i =>
    obtain ⟨known, -⟩ := Option.ite_none_right_eq_some.mp served
    rw [serve_pop known] at served
    cases last : (h.outcomesOf i).getLast? with
    | none =>
      rw [last] at served
      cases served
      exact ⟨sound, fun _ => rfl⟩
    | some o =>
      rw [last] at served
      cases served
      -- only outcomes are gone, and no session refers to those
      refine ⟨⟨sound.idle, fun session mem => ?_⟩, outcomesOf_of_modify rfl known⟩
      exact (Serves.of_mem_modify sound.serves session mem).mono (Nat.le_refl _) (Nat.le_refl _)
        fun k => by cases k <;> exact id

/-- Whatever was asked, the sessions can be served and hold the outcomes of their own runs. -/
theorem Sound.serveAll (sound : h.Sound) {requests : List Request} {answers : List Answer}
    (served : serveAll c requests h = some (answers, h')) :
    h'.Sound ∧ ∀ j, h'.outcomesOf j =
      (requests.zip answers).foldl (stackAfter j) (h.outcomesOf j) := by
  induction requests generalizing h answers with
  | nil =>
    cases served
    exact ⟨sound, fun _ => rfl⟩
  | cons request rest ih =>
    obtain ⟨⟨answer, mid⟩, first, served⟩ := Option.bind_eq_some_iff.mp served
    obtain ⟨⟨answers, last⟩, others, same⟩ := Option.bind_eq_some_iff.mp served
    cases same
    obtain ⟨sound, after⟩ := sound.serve first
    obtain ⟨sound, outcomes⟩ := ih sound others
    refine ⟨sound, fun j => ?_⟩
    rw [outcomes, after]
    rfl

end Host
end CallSite

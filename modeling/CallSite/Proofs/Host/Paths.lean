import CallSite.Proofs.Host.History

/-! Whose path a failure is reported under. A session keeps its path, but its failures are reported under
the path of its reporter, and a reporter takes over the path of each session that is opened with it. A
failure therefore stands under the path of the session that was opened last with the same reporter, which
need not be the one that failed. -/

namespace CallSite

/-- The paths of the sessions that have a reporter, in the order of the sessions. -/
def Session.pathsWith (k : Nat) (sessions : List Session) : List String :=
  sessions.filterMap fun s => if s.reporter = some k then some s.path else none

theorem Session.pathsWith_modify (k : Nat) (sessions : List Session) (i : Nat)
    (f : List Outcome → List Outcome) :
    pathsWith k (sessions.modify i (·.mapOutcomes f)) = pathsWith k sessions := by
  unfold pathsWith
  induction sessions generalizing i with
  | nil => cases i <;> rfl
  | cons s sessions ih =>
    cases i with
    | zero => rfl
    | succ i => simp only [List.modify_succ_cons, List.filterMap_cons, ih]

/-- The path of the session that was opened last with the reporter of a given one. -/
theorem Session.getLast?_pathsWith {sessions : List Session} {i k : Nat} {session : Session}
    (here : sessions[i]? = some session) (reports : session.reporter = some k) :
    (pathsWith k sessions).getLast? =
      some ((pathsWith k (sessions.drop (i + 1))).getLast?.getD session.path) := by
  obtain ⟨lt, rfl⟩ := List.getElem?_eq_some_iff.mp here
  have split : pathsWith k sessions = pathsWith k (sessions.take i) ++
      sessions[i].path :: pathsWith k (sessions.drop (i + 1)) := by
    conv_lhs => rw [← List.take_append_drop i sessions, List.drop_eq_getElem_cons lt]
    simp only [pathsWith, List.filterMap_append, List.filterMap_cons, reports, if_true]
  rw [split, List.getLast?_append, List.getLast?_cons]
  rfl

namespace Host
variable {h h' start : Host} {c : Capacity} {program : Node} {i : Nat} {session : Session}
  {o : Outcome} {escape : Option Escape}

/-- Every reporter has the path of the session that was opened last with it, if there is one. -/
def Follows (h : Host) : Prop :=
  ∀ k path r, (Session.pathsWith k h.sessions).getLast? = some path →
    h.reporters[k]? = some r → r.path = path

theorem Follows.of_modify (follows : h.Follows) {f : List Outcome → List Outcome}
    (sessions : h'.sessions = h.sessions.modify i (·.mapOutcomes f))
    (reporters : ∀ k : Nat, h'.reporters[k]?.map (·.path) = h.reporters[k]?.map (·.path)) :
    h'.Follows := by
  intro k path r last known
  rw [sessions, Session.pathsWith_modify] at last
  have same := reporters k
  rw [known, Option.map_some, eq_comm, Option.map_eq_some_iff] at same
  obtain ⟨r', known', same⟩ := same
  rw [← same]
  exact follows k path r' last known'

theorem execute_reporters (ran : h.execute c i program = some (o, h')) :
    h'.reporters = h.reporters := by
  obtain ⟨session, -, ran⟩ := Option.bind_eq_some_iff.mp ran
  obtain ⟨e, -, ran⟩ := Option.bind_eq_some_iff.mp ran
  obtain ⟨printed, -, ran⟩ := Option.bind_eq_some_iff.mp ran
  obtain ⟨⟨ending, e', s⟩, -, made⟩ := Option.bind_eq_some_iff.mp ran
  cases made
  exact withPrinted_reporters ..

/-- A run hands a failure to the reporter of its session and does nothing else to any reporter. -/
theorem Sound.run_reporters (sound : h.Sound) (here : h.sessions[i]? = some session)
    (ran : h.run c i program = some (o, escape, h')) :
    h'.reporters = match o, session.reporter with
      | .failed f, some k => h.reporters.modify k fun r => (r.throw f).1
      | _, _ => h.reporters := by
  obtain ⟨⟨o', h₁⟩, executed, -⟩ := Option.bind_eq_some_iff.mp ran
  obtain ⟨text, adds⟩ := sound.execute_adds executed
  have there : h₁.sessions[i]? = some (session.mapOutcomes (· ++ [o'])) := by
    simp [adds.sessions, here]
  have kept := execute_reporters executed
  cases o' with
  | finished v =>
    cases (run_of_finished executed there).symm.trans ran
    exact kept
  | failed f =>
    cases reports : session.reporter with
    | none =>
      cases (run_of_unreported executed there reports).symm.trans ran
      exact kept
    | some k =>
      have known := (sound.serves session (List.mem_of_getElem? here)).reporter k reports
      have reporter : h₁.reporters[k]? = some h.reporters[k] := by
        rw [kept, List.getElem?_eq_getElem known]
      have same := (run_of_failed executed there reports reporter).symm.trans ran
      obtain ⟨rfl, -, rfl⟩ : _ ∧ _ ∧ _ := by simpa using same
      simp [kept, List.modify_eq_set_getElem?, known]

theorem Follows.openSession (follows : h.Follows) (path : String) (reporter evaluator : Option Nat)
    (maxDepth : Option Int) (stream : Option Nat) :
    (h.openSession path reporter evaluator maxDepth stream).Follows := by
  intro k last r same known
  rw [openSession_sessions, Session.pathsWith, List.filterMap_append] at same
  rw [openSession_reporters] at known
  by_cases shares : reporter = some k
  · -- the reporter has just taken over this path
    subst shares
    simp only [List.filterMap_cons, if_true, List.filterMap_nil, List.getLast?_concat,
      Option.some_inj] at same
    simp only [Option.elim_some, List.getElem?_modify_eq, Option.map_eq_map,
      Option.map_eq_some_iff] at known
    obtain ⟨r', -, rfl⟩ := known
    exact same
  · simp only [List.filterMap_cons, shares, if_false, List.filterMap_nil, List.append_nil] at same
    refine follows k last r same ?_
    cases reporter with
    | none => exact known
    | some j =>
      have other : j ≠ k := fun h => shares (congrArg some h)
      simpa [List.getElem?_modify, other] using known

/-- A request leaves every reporter with the path of the session that was opened last with it. -/
theorem Follows.serve (follows : h.Follows) (sound : h.Sound) {request : Request} {answer : Answer}
    (served : h.serve c request = some (answer, h')) : h'.Follows := by
  cases request with
  | openSession path reporter evaluator maxDepth stream =>
    obtain ⟨-, same⟩ := Option.ite_none_right_eq_some.mp served
    cases same
    exact follows.openSession path reporter evaluator maxDepth stream
  | execute i program =>
    obtain ⟨⟨o, h'⟩, ran, same⟩ := Option.map_eq_some_iff.mp served
    cases same
    obtain ⟨text, adds⟩ := sound.execute_adds ran
    exact follows.of_modify adds.sessions fun k => by rw [execute_reporters ran]
  | run i program =>
    obtain ⟨⟨o, escape, h'⟩, ran, same⟩ := Option.map_eq_some_iff.mp served
    cases same
    obtain ⟨text, adds⟩ := sound.run_adds ran
    refine follows.of_modify adds.sessions fun k => ?_
    rw [sound.run_reporters (List.getElem?_eq_getElem adds.known) ran]
    split
    · rw [List.getElem?_modify, Option.map_eq_map, Option.map_map]
      congr 1
      funext r
      dsimp only [Function.comp_apply]
      split <;> rfl
    · rfl
  | pop i =>
    obtain ⟨known, -⟩ := Option.ite_none_right_eq_some.mp served
    rw [serve_pop known] at served
    split at served
    · cases served
      exact follows.of_modify rfl fun _ => rfl
    · cases served
      exact follows

theorem Follows.serveAll (follows : h.Follows) (sound : h.Sound) {requests : List Request}
    {answers : List Answer} (served : serveAll c requests h = some (answers, h')) :
    h'.Follows := by
  induction requests generalizing h answers with
  | nil =>
    cases served
    exact follows
  | cons request rest ih =>
    obtain ⟨⟨answer, mid⟩, first, served⟩ := Option.bind_eq_some_iff.mp served
    obtain ⟨⟨answers, last⟩, others, same⟩ := Option.bind_eq_some_iff.mp served
    cases same
    exact ih (follows.serve sound first) (sound.serve first).1 others

/-- After whatever history, a failed run adds one line to what its reporter wrote and changes no other
reporter. The line is a diagnostic under the path of the session that was opened last with the same
reporter. That is the session's own path as long as no later session with this reporter has another. -/
theorem failure_reported_under_latest_path (unused : start.Unused) {requests : List Request}
    {answers : List Answer} (served : start.serveAll c requests = some (answers, h))
    {k : Nat} (here : h.sessions[i]? = some session) (reports : session.reporter = some k)
    {f : Fault} (ran : h.run c i program = some (.failed f, escape, h')) :
    ∃ r, h.reporters[k]? = some r ∧
      let later := Session.pathsWith k (h.sessions.drop (i + 1))
      let path := later.getLast?.getD session.path
      h'.reporters = h.reporters.set k
          { r with written := r.written ++ (f.diagnostic path r.palette .error ++ "\n") } ∧
        ((∀ other ∈ later, other = session.path) → path = session.path) := by
  have sound := (unused.sound.serveAll served).1
  have follows : h.Follows := Follows.serveAll (fun k path r last _ => by
    simp [unused.sessions, Session.pathsWith] at last) unused.sound served
  have known := (sound.serves session (List.mem_of_getElem? here)).reporter k reports
  refine ⟨h.reporters[k], List.getElem?_eq_getElem known, ?_, ?_⟩
  · have path : h.reporters[k].path =
        (Session.pathsWith k (h.sessions.drop (i + 1))).getLast?.getD session.path :=
      follows k _ _ (Session.getLast?_pathsWith here reports) (List.getElem?_eq_getElem known)
    rw [sound.run_reporters here ran, reports, ← path]
    simp [List.modify_eq_set_getElem?, known, Reporter.throw, Reporter.write, Reporter.line]
  · intro same
    cases last : (Session.pathsWith k (h.sessions.drop (i + 1))).getLast? with
    | none => rfl
    | some path => exact same path (List.mem_of_getLast? last)

/-- A session with another reporter is opened and fails in between, and one with the same reporter
takes over the reports of the first. -/
theorem failure_reported_under_latest_path_shared :
    let c : Capacity := ⟨5, 5⟩
    let misspelt : Node := .program (.block [.reference 3 "x"])
    let fault : Fault := ⟨.unboundVariable "x", some 3⟩
    let message := ":3: error: UnboundVariable: variable 'x' is not declared in this scope\n"
    let start : Host := { reporters := [{ written := "old\n" }, { fatal := false }] }
    let requests : List Request := [.openSession "a" (some 0) none (some 2000) none,
      .openSession "b" (some 1) (some 0) none none, .run 1 misspelt,
      .openSession "c" (some 0) none (some 1) none]
    let answers : List Answer := [.opened, .opened, .ran (.failed fault) none, .opened]
    let session : Session := ⟨"a", some 0, 0, none, []⟩
    let h : Host :=
      { reporters := [{ path := "c", written := "old\n" },
          { path := "b", fatal := false, written := "b" ++ message }]
        evaluators := [{ maxDepth := some 2000 }, { maxDepth := some 1 }]
        sessions := [session, ⟨"b", some 1, 0, none, [.failed fault]⟩, ⟨"c", some 0, 1, none, []⟩]
        log := [.running "b", .finished "b" (.failed fault)] }
    start.Unused ∧ start.serveAll c requests = some (answers, h) ∧
      h.sessions[0]? = some session ∧
      ∃ h', h.run c 0 misspelt = some (.failed fault, some (.exit (.code 1)), h') ∧
        h'.reporters = [{ path := "c", written := "old\n" ++ ("c" ++ message) },
          { path := "b", fatal := false, written := "b" ++ message }] := by
  intro c misspelt fault message start requests answers session h
  have unused : start.Unused := ⟨rfl, by decide⟩
  have served : start.serveAll c requests = some (answers, h) := by decide +kernel
  have fails : (h.run c 0 misspelt).map (fun r => (r.1, r.2.1)) =
      some (.failed fault, some (.exit (.code 1))) := by decide +kernel
  obtain ⟨⟨o, escape, h'⟩, ran, same⟩ := Option.map_eq_some_iff.mp fails
  cases same
  have here : h.sessions[0]? = some session := rfl
  obtain ⟨r, known, line, -⟩ := failure_reported_under_latest_path unused served here rfl ran
  cases known
  exact ⟨unused, served, here, h', ran, line.trans (by decide +kernel)⟩

/-- The session with the path `a` reports its failure under the path `b`. -/
theorem failure_reported_under_other_path :
    let c : Capacity := ⟨5, 5⟩
    let misspelt : Node := .program (.block [.reference 3 "x"])
    let fault : Fault := ⟨.unboundVariable "x", some 3⟩
    let start : Host := { reporters := [{ fatal := false }] }
    let requests : List Request := [.openSession "a" (some 0) none (some 2000) none,
      .openSession "b" (some 0) none (some 2000) none]
    let line := "b:3: error: UnboundVariable: variable 'x' is not declared in this scope\n"
    start.Unused ∧ ∃ h h', start.serveAll c requests = some ([.opened, .opened], h) ∧
      h.sessions[0]?.map (·.path) = some "a" ∧
      h.run c 0 misspelt = some (.failed fault, none, h') ∧
      h'.reporters.map (·.written) = [line] ∧
      ¬ (fault.location "a").toList <+: line.toList := by
  intro c misspelt fault start requests line
  let h : Host :=
    { reporters := [{ path := "b", fatal := false }]
      evaluators := [{ maxDepth := some 2000 }, { maxDepth := some 2000 }]
      sessions := [⟨"a", some 0, 0, none, []⟩, ⟨"b", some 0, 1, none, []⟩] }
  let h' : Host :=
    { h with
      reporters := [{ path := "b", fatal := false, written := line }]
      sessions := [⟨"a", some 0, 0, none, [.failed fault]⟩, ⟨"b", some 0, 1, none, []⟩]
      log := [.running "a", .finished "a" (.failed fault)] }
  have served : start.serveAll c requests = some ([.opened, .opened], h) := by decide +kernel
  have ran : h.run c 0 misspelt = some (.failed fault, none, h') := by decide +kernel
  exact ⟨⟨rfl, by decide⟩, h, h', served, rfl, ran, rfl, by decide +kernel⟩

end Host
end CallSite

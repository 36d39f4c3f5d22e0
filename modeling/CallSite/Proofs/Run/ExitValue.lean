import CallSite.Proofs.Run.Change

/-! Exit values and the levels that keep them. A statement gives its exit value twice: it hands the
value on, and its level keeps it. The two are the same after every statement, a failed one leaves
its level without a value, and no level further out is given one. So when a block ends, its level
has the value that the block hands on. -/

namespace CallSite
variable {A : Set String} {s t : Scope}

namespace Scope

/-- The exit values of a scope's levels, its own first. -/
def exits (s : Scope) : List (Option Int) := s.map Level.exit

theorem Frame.exits_eq (h : s.Frame A t) : t.exits = s.exits := by
  induction h with
  | nil => rfl
  | cons own outer ih =>
    simp only [exits, List.map_cons, own.exit] at ih ⊢
    rw [ih]

end Scope

/-- The own level of the state's scope has the exit value `r`, and the levels around it have the
exit values `outer`. -/
structure State.Exited (outer : List (Option Int)) (r : Option Int) (s : State) : Prop where
  own : s.scope.own.exit = r
  outer : Scope.exits s.scope.tail = outer

namespace Eval
open Result
variable {outer : List (Option Int)} {s : State}

/-- A statement in a level without an exit value leaves the level with the value that it hands on,
and without one if it fails. -/
theorem statement_exited (limit : Option Int) (n : Nat) (t : Node) (h : s.Exited outer none) :
    (statement limit n t s).Ensures (fun r => State.Exited outer r)
      (fun _ => State.Exited outer none) := by
  refine (statement_changed limit n t s).mono (fun r u hu => ?_) fun f u hu => ?_
  · exact ⟨by simp [hu.scope.exit, h.own], hu.scope.outer.exits_eq.trans h.outer⟩
  · exact ⟨by simp [hu.scope.exit, h.own], hu.scope.outer.exits_eq.trans h.outer⟩

/-- Statements of a block leave its level with the value of the first exit. -/
theorem untilExit_exited (limit : Option Int) (n : Nat) (ts : List Node)
    (h : s.Exited outer none) :
    (untilExit (statement limit n) ts s).Ensures (fun r => State.Exited outer r)
      (fun _ => State.Exited outer none) := by
  have each : ∀ t ∈ ts, ∀ u, State.Exited outer none u → (statement limit n t u).Ensures
      (fun r w => r.elim (w.Exited outer none) fun v => w.Exited outer (some v))
      (fun _ => State.Exited outer none) := by
    intro t _ u hu
    refine (statement_exited limit n t hu).mono (fun r w hw => ?_) fun _ _ hw => hw
    cases r <;> exact hw
  refine (ensures_untilExit each h).mono (fun r u hu => ?_) fun _ _ hu => hu
  cases r <;> exact hu

/-- A statement that runs in a level without an exit value leaves the level with exactly the value
that it hands on, and with none if it fails; the levels around it keep theirs. When a block is done,
the level that it leaves has the value that the block hands on, and no value if the block failed. -/
theorem exit_kept_as_handed_on (limit : Option Int) (n : Nat) :
    (∀ outer t s, s.Exited outer none →
      (∀ r u, statement limit n t s = .done r u → u.Exited outer r) ∧
        ∀ f u, statement limit n t s = .failed f u → u.Exited outer none) ∧
    ∀ ts s,
      (∀ r w, block limit (n + 1) (.block ts) s = .done r w →
        ∃ u, untilExit (statement limit n) ts { s with scope := s.scope.child } = .done r u ∧
          u.Exited s.scope.exits r ∧ { u with scope := u.scope.tail } = w) ∧
      ∀ f w, block limit (n + 1) (.block ts) s = .failed f w →
        ∃ u, untilExit (statement limit n) ts { s with scope := s.scope.child } = .failed f u ∧
          u.Exited s.scope.exits none ∧ { u with scope := u.scope.tail } = w := by
  refine ⟨fun outer t s free => ensures_iff.1 (statement_exited limit n t free), fun ts s => ?_⟩
  have entered : State.Exited s.scope.exits none { s with scope := s.scope.child } := ⟨rfl, rfl⟩
  have inside := ensures_iff.1 (untilExit_exited limit n ts entered)
  rw [block, nested]
  refine ⟨fun r w done => ?_, fun f w failed => ?_⟩
  · obtain ⟨u, ran, left⟩ := mapState_eq_done_iff.1 done
    exact ⟨u, ran, inside.1 r u ran, left⟩
  · obtain ⟨u, ran, left⟩ := mapState_eq_failed_iff.1 failed
    exact ⟨u, ran, inside.2 f u ran, left⟩

/-- The condition and the returned value are calls of a function with a return of its own. The
branch hands zero on, which is an exit value, and a failure of the second call leaves none. -/
theorem exit_kept_as_handed_on_zero :
    let f : Function := ⟨1, "f", ["x"],
      .block [.branch (.reference 2 "x") (.block [.exit (.literal 7)]) .nothing]⟩
    let t : List Node → Node := fun args => .branch (.call 3 "f" [.literal 1])
      (.block [.loop (.literal 1) (.block [.exit (.call 4 "f" args)])]) .nothing
    let s : State := { scope := [{ functions := [("f", f)] }, { exit := some 4 }, {}] }
    let u : State := { s with
      scope := [{ functions := [("f", f)], exit := some 0 }, { exit := some 4 }, {}]
      calls := [⟨4, "f", [0]⟩, ⟨3, "f", [1]⟩] }
    let w : State := { s with calls := [⟨3, "f", [1]⟩] }
    s.Exited [some 4, none] none ∧
      statement none 9 (t [.literal 0]) s = .done (some 0) u ∧ u.Exited [some 4, none] (some 0) ∧
      statement none 9 (t []) s = .failed ⟨.arityMismatch "f" 1 0, some 4⟩ w ∧
        w.Exited [some 4, none] none := by
  intro f t s u w
  have free : s.Exited [some 4, none] none := ⟨rfl, rfl⟩
  have handedOn : statement none 9 (t [.literal 0]) s = .done (some 0) u := by decide +kernel
  have failed : statement none 9 (t []) s = .failed ⟨.arityMismatch "f" 1 0, some 4⟩ w := by
    decide +kernel
  have keeps := (exit_kept_as_handed_on none 9).1
  exact ⟨free, handedOn, (keeps _ _ s free).1 _ u handedOn, failed,
    (keeps _ _ s free).2 _ w failed⟩

end Eval
end CallSite

import CallSite.Proofs.Logic.Alongside
import CallSite.Proofs.Run.Change

/-! The calls that are left to a run, and the output that stands before it. A run gives every call
back that it makes, it compares the number of active calls with the limit and does nothing else with
it, and it never reads what was printed. So amid further active calls and under a limit that is
higher by as many, or after other output, a run goes as it would go without them, and they are still
there when it ends. -/

namespace CallSite
variable {α : Type}

/-- The state amid further active calls and after other output. -/
def State.amid (k : Nat) (before : String) (s : State) : State :=
  { s with active := s.active + k, printed := before ++ s.printed }

namespace Result

theorem mapState_congr {r : Result α} {g g' : State → State} (h : r.Leaves fun s => g s = g' s) :
    r.mapState g = r.mapState g' := by
  cases r with
  | done v s => exact congrArg (done v) h
  | failed f s => exact congrArg (failed f) h
  | unfinished => rfl

end Result

namespace Eval
variable {limit : Option Int} {n k a : Nat} {before : String} {t : Node}

/-- The second state is the first one amid further calls and after other output. How many calls are
active in the first one is part of the relation: a call that returns gives one back on both sides,
and it is the same one. -/
structure Amid (k : Nat) (before : String) (a : Nat) (s u : State) : Prop where
  active : s.active = a
  amid : u = s.amid k before

theorem Amid.limitReached {s u : State} (h : Amid k before a s u) :
    limitReached limit s = limitReached (limit.map (· + k)) u := by
  obtain ⟨-, rfl⟩ := h
  cases limit with
  | none => rfl
  | some m => simp [Eval.limitReached, State.amid]

theorem Amid.call {s u : State} (h : Amid k before a s u) :
    Amid k before (a + 1) { s with active := s.active + 1 } { u with active := u.active + 1 } := by
  obtain ⟨rfl, rfl⟩ := h
  exact ⟨rfl, by simp [State.amid, Nat.add_right_comm]⟩

theorem Amid.returned {s u : State} (h : Amid k before (a + 1) s u) :
    Amid k before a { s with active := s.active - 1 } { u with active := u.active - 1 } := by
  obtain ⟨active, rfl⟩ := h
  have given : s.active + k - 1 = s.active - 1 + k := by omega
  exact ⟨by simp [active], by simp [State.amid, given]⟩

/-- Whatever is done with the scope alone is done on both sides. -/
theorem changing_amid (f : Scope → Except Fault Scope) :
    Alongside Eq (Amid k before a) (changing f) (changing f) := by
  refine .changing (fun s u h scope changed => ?_) fun s u h fault refused => ?_
  · obtain ⟨active, rfl⟩ := h
    exact ⟨scope, changed, active, rfl⟩
  · obtain ⟨active, rfl⟩ := h
    exact ⟨fault, refused, rfl⟩

theorem leave_amid (r : Option Int) : Alongside Eq (Amid k before a) (leave r) (leave r) := by
  cases r with
  | none => exact .pure none
  | some v => exact .bind (changing_amid _) fun _ => .pure (some v)

theorem bindParams_amid (line : Int) (ps : List (String × Int)) :
    Alongside Eq (Amid k before a) (bindParams line ps) (bindParams line ps) := by
  induction ps with
  | nil => exact .pure ()
  | cons p ps ih => exact .bind (changing_amid _) fun _ => ih

/-- Runs with an allowance go alike amid further calls under a limit that is higher by as many. -/
structure RunsAmid (k : Nat) (before : String) (limit : Option Int) (n : Nat) : Prop where
  expression : ∀ t a, Alongside Eq (Amid k before a) (expression limit n t)
    (expression (limit.map (· + k)) n t)
  statement : ∀ t a, Alongside Eq (Amid k before a) (statement limit n t)
    (statement (limit.map (· + k)) n t)
  block : ∀ t a, Alongside Eq (Amid k before a) (block limit n t)
    (block (limit.map (· + k)) n t)

namespace RunsAmid

theorem enter (ih : RunsAmid k before limit n) (line : Int) (f : Function) (values : List Int) :
    Alongside Eq (Amid k before a) (Eval.enter limit (Eval.block limit n) line f values)
      (Eval.enter (limit.map (· + k)) (Eval.block (limit.map (· + k)) n) line f values) := by
  have body : Alongside Eq (Amid k before a) (counted limit line (Eval.block limit n f.body)) _ :=
    .counted (ih.block f.body (a + 1)) (fun _ _ h => h.limitReached) rfl (fun _ _ h => h.call)
      (fun _ _ h => h.returned)
  have called := Alongside.bind (bindParams_amid f.line (f.params.zip values)) fun _ => body
  have inside := called.nested (S := Amid k before a)
    (by rintro s _ ⟨rfl, rfl⟩; exact ⟨rfl, rfl⟩) (by rintro s _ ⟨rfl, rfl⟩; exact ⟨rfl, rfl⟩)
  exact .bind inside fun r => .pure (r.getD 0)

theorem invoke (ih : RunsAmid k before limit n) (line : Int) (name : String) (values : List Int) :
    Alongside Eq (Amid k before a) (Eval.invoke limit (Eval.block limit n) line name values)
      (Eval.invoke (limit.map (· + k)) (Eval.block (limit.map (· + k)) n) line name values) := by
  rintro s _ ⟨rfl, rfl⟩
  have same : (s.amid k before).scope = s.scope := rfl
  simp only [Eval.invoke, bind_apply, asking, same]
  cases s.scope.function? name with
  | some f =>
    dsimp only
    split
    · have record : Alongside Eq (Amid k before s.active) (recordCall ⟨line, name, values⟩)
          (recordCall ⟨line, name, values⟩) := by
        rintro u _ ⟨active, rfl⟩
        exact ⟨rfl, active, rfl⟩
      exact Alongside.bind record (fun _ => ih.enter line f values) s _ ⟨rfl, rfl⟩
    · exact ⟨rfl, rfl, rfl⟩
  | none =>
    dsimp only
    split
    · exact ⟨rfl, rfl, by simp [State.amid, String.append_assoc]⟩
    · exact ⟨rfl, rfl, rfl⟩

theorem expression_succ (ih : RunsAmid k before limit n) :
    Alongside Eq (Amid k before a) (Eval.expression limit (n + 1) t)
      (Eval.expression (limit.map (· + k)) (n + 1) t) := by
  cases t with
  | literal v => exact .pure v
  | reference line x =>
    refine .lookUp ?_ rfl
    rintro s _ ⟨-, rfl⟩
    rfl
  | binary op l r =>
    rw [Eval.expression, Eval.expression]
    exact .bind (ih.expression l a) fun v => .bind (ih.expression r a) fun w => .operate v w rfl
  | call line name args =>
    rw [Eval.expression, Eval.expression]
    exact .bind (.inOrder fun t _ => ih.expression t a) fun values => ih.invoke line name values
  | _ => exact .fail rfl

theorem block_succ (ih : RunsAmid k before limit n) :
    Alongside Eq (Amid k before a) (Eval.block limit (n + 1) t)
      (Eval.block (limit.map (· + k)) (n + 1) t) := by
  cases t with
  | block statements =>
    rw [Eval.block, Eval.block]
    exact .nested (.untilExit fun t _ => ih.statement t a)
      (by rintro s _ ⟨rfl, rfl⟩; exact ⟨rfl, rfl⟩) (by rintro s _ ⟨rfl, rfl⟩; exact ⟨rfl, rfl⟩)
  | _ => exact .fail rfl

theorem statement_succ (ih : RunsAmid k before limit n) :
    Alongside Eq (Amid k before a) (Eval.statement limit (n + 1) t)
      (Eval.statement (limit.map (· + k)) (n + 1) t) := by
  cases t with
  | declare line x init =>
    rw [Eval.statement, Eval.statement]
    apply Alongside.bind (.startValue fun _ => ih.expression init a)
    intro v
    exact .bind (changing_amid _) fun _ => .pure none
  | assign line x e =>
    rw [Eval.statement, Eval.statement]
    exact .bind (ih.expression e a) fun v => .bind (changing_amid _) fun _ => .pure none
  | function => exact .bind (changing_amid _) fun _ => .pure none
  | branch condition yes no =>
    rw [Eval.statement, Eval.statement]
    apply Alongside.bind (ih.expression condition a)
    intro c
    exact .bind (.select (ih.block yes a) fun _ => ih.block no a) fun r => leave_amid r
  | loop condition body =>
    rw [Eval.statement, Eval.statement]
    apply Alongside.bind (ih.expression condition a)
    intro c
    split
    · apply Alongside.bind (ih.block body a)
      intro r
      cases r with
      | some v => exact leave_amid (some v)
      | none => exact ih.statement _ a
    · exact .pure none
  | exit e =>
    rw [Eval.statement, Eval.statement]
    exact .bind (ih.expression e a) fun v => leave_amid (some v)
  | literal | reference | binary | call => exact .bind (ih.expression _ a) fun _ => .pure none
  | _ => exact .fail rfl

end RunsAmid

theorem runsAmid (k : Nat) (before : String) (limit : Option Int) (n : Nat) :
    RunsAmid k before limit n := by
  induction n with
  | zero => constructor <;> intros <;> exact fun _ _ _ => trivial
  | succ n ih =>
    exact ⟨fun _ _ => ih.expression_succ, fun _ _ => ih.statement_succ, fun _ _ => ih.block_succ⟩

/-- The step with the second result goes as the first one goes by itself. -/
theorem Alongside.eq_mapState {m m' : Eval α} (h : ∀ a, Alongside Eq (Amid k before a) m m')
    (s : State) : m' (s.amid k before) = (m s).mapState (State.amid k before) := by
  have both := h s.active s _ ⟨rfl, rfl⟩
  cases hm : m s <;> cases hm' : m' (s.amid k before) <;> rw [hm, hm'] at both
  case done.done =>
    obtain ⟨rfl, -, rfl⟩ := both
    rfl
  case failed.failed =>
    obtain ⟨rfl, -, rfl⟩ := both
    rfl
  case unfinished.unfinished => rfl
  all_goals exact both.elim

/-- Neither further active calls, under a limit that is higher by as many, nor other output make a
difference to the task. They are still there when it ends. -/
def Unaffected (task : Option Int → Eval α) : Prop :=
  ∀ limit k before s, task (limit.map (· + ↑k)) (s.amid k before) =
    (task limit s).mapState (State.amid k before)

theorem Unaffected.unread {task : Option Int → Eval α} (h : Unaffected task) (limit : Option Int)
    (before : String) (s : State) : task limit { s with printed := before } =
      (task limit { s with printed := "" }).mapState
        fun u => { u with printed := before ++ u.printed } := by
  have amid := h limit 0 before { s with printed := "" }
  have same : limit.map (· + ((0 : Nat) : Int)) = limit := by simp
  have start : State.amid 0 before { s with printed := "" } = { s with printed := before } := by
    simp [State.amid]
  rw [same, start] at amid
  exact amid

theorem runs_unaffected (n : Nat) (t : Node) :
    Unaffected (expression · n t) ∧ Unaffected (block · n t) ∧ Unaffected (program · n t) := by
  have blocks : ∀ t, Unaffected (block · n t) := fun t limit k before =>
    Alongside.eq_mapState fun a => (runsAmid k before limit n).block t a
  refine ⟨fun limit k before => ?_, blocks t, fun limit k before => ?_⟩
  · exact Alongside.eq_mapState fun a => (runsAmid k before limit n).expression t a
  · cases t with
    | program body => exact blocks body limit k before
    | _ => exact fun _ => rfl

/-- The task gives every call back that it makes, and how it goes depends on how many calls are left
under its limit: it goes as if none were active and the limit were lower by those that are. -/
structure Budgeted (task : Option Int → Eval α) : Prop where
  balanced : ∀ limit s, (task limit s).Leaves (·.active = s.active)
  remaining : ∀ (m : Int) s, task (some m) s =
    (task (some (m - s.active)) { s with active := 0 }).mapState
      fun u => { u with active := s.active }

theorem Unaffected.budgeted {task : Option Int → Eval α} (h : Unaffected task)
    (balanced : ∀ limit s, (task limit s).Leaves (·.active = s.active)) : Budgeted task := by
  refine ⟨balanced, fun m s => ?_⟩
  have amid := h (some (m - s.active)) s.active "" { s with active := 0 }
  have limit : (some (m - s.active)).map (· + (s.active : Int)) = some m := by simp
  have state : State.amid s.active "" { s with active := 0 } = s := by simp [State.amid]
  rw [limit, state] at amid
  rw [amid]
  apply Result.mapState_congr
  -- the run without active calls leaves none, so all that are there were added
  have none_left := balanced (some (m - s.active)) { s with active := 0 }
  exact none_left.imp fun u hu => by simp [State.amid, hu]

/-- However an expression, a block or a program ends, as many calls are active as before. Under a
limit it has the value or the fault, the output and the scopes that it has with no active calls
under the limit less the calls that were active. -/
theorem runs_budgeted (n : Nat) (t : Node) :
    Budgeted (expression · n t) ∧ Budgeted (block · n t) ∧ Budgeted (program · n t) := by
  obtain ⟨values, blocks, programs⟩ := runs_unaffected n t
  refine ⟨values.budgeted fun limit s => ?_, blocks.budgeted fun limit s => ?_,
    programs.budgeted fun limit s => ?_⟩
  · exact (expression_changed limit n t s).imp fun _ h => h.active
  · exact (block_changed limit n t s).imp fun _ h => h.active
  · exact (program_changed limit n t s).imp fun _ h => h.active

end Eval
end CallSite

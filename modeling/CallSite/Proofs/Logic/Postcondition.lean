import CallSite.Eval.Program
import CallSite.Proofs.Scope.Change

/-! Postconditions of steps. A result meets a pair of conditions, one for values and one for
faults, if the one that applies to it holds of it and of the state that is left; an unfinished
result meets every pair. The rules below take each compound step apart, so that a proof about runs
unfolds no step. -/

namespace CallSite
variable {α β : Type} {Q Q' : α → State → Prop} {E E' : Fault → State → Prop}

namespace Result

/-- The condition on values holds of a value, the condition on faults of a fault. -/
def Ensures (r : Result α) (Q : α → State → Prop) (E : Fault → State → Prop) : Prop :=
  match r with
  | done v s => Q v s
  | failed f s => E f s
  | unfinished => True

@[simp] theorem ensures_done {v : α} {s : State} : (done v s).Ensures Q E ↔ Q v s := Iff.rfl

@[simp] theorem ensures_failed {f : Fault} {s : State} :
    (failed f s : Result α).Ensures Q E ↔ E f s := Iff.rfl

@[simp] theorem ensures_unfinished : (unfinished : Result α).Ensures Q E := trivial

theorem Ensures.mono {r : Result α} (h : r.Ensures Q E) (hQ : ∀ v s, Q v s → Q' v s)
    (hE : ∀ f s, E f s → E' f s) : r.Ensures Q' E' := by
  cases r with
  | done v s => exact hQ v s h
  | failed f s => exact hE f s h
  | unfinished => trivial

theorem Ensures.and {r : Result α} (h : r.Ensures Q E) (k : r.Ensures Q' E') :
    r.Ensures (fun v s => Q v s ∧ Q' v s) (fun f s => E f s ∧ E' f s) := by
  cases r with
  | done v s => exact ⟨h, k⟩
  | failed f s => exact ⟨h, k⟩
  | unfinished => trivial

theorem ensures_mapState {r : Result α} {g : State → State} :
    (r.mapState g).Ensures Q E ↔ r.Ensures (fun v s => Q v (g s)) (fun f s => E f (g s)) := by
  cases r <;> rfl

theorem ensures_iff {r : Result α} :
    r.Ensures Q E ↔ (∀ v s, r = done v s → Q v s) ∧ ∀ f s, r = failed f s → E f s := by
  cases r <;> simp

theorem mapState_eq_done_iff {r : Result α} {g : State → State} {v : α} {s : State} :
    r.mapState g = done v s ↔ ∃ t, r = done v t ∧ g t = s := by
  cases r <;> simp [mapState, and_assoc]

theorem mapState_eq_failed_iff {r : Result α} {g : State → State} {f : Fault} {s : State} :
    r.mapState g = failed f s ↔ ∃ t, r = failed f t ∧ g t = s := by
  cases r <;> simp [mapState, and_assoc]

/-- The condition holds of the state that is left, however the step ends. -/
abbrev Leaves (r : Result α) (P : State → Prop) : Prop := r.Ensures (fun _ => P) (fun _ => P)

theorem leaves_iff {r : Result α} {P : State → Prop} :
    r.Leaves P ↔ ∀ s, r.state? = some s → P s := by
  cases r <;> simp [Leaves, state?]

theorem Leaves.imp {r : Result α} {P P' : State → Prop} (h : r.Leaves P)
    (weaker : ∀ s, P s → P' s) : r.Leaves P' :=
  h.mono (fun _ => weaker) fun _ => weaker

/-- The condition holds of the fault, if the step fails. -/
abbrev FailsOnly (r : Result α) (P : Fault → Prop) : Prop :=
  r.Ensures (fun _ _ => True) (fun f _ => P f)

theorem failsOnly_iff {r : Result α} {P : Fault → Prop} :
    r.FailsOnly P ↔ ∀ f s, r = failed f s → P f := by
  cases r <;> simp [FailsOnly]

/-- The condition holds of the value, if the step is done. -/
abbrev DoneOnly (r : Result α) (P : α → Prop) : Prop :=
  r.Ensures (fun v _ => P v) (fun _ _ => True)

/-- Of a step that ends, the value meets the condition or the step has failed. -/
theorem DoneOnly.ends {r : Result α} {P : α → Prop} (h : r.DoneOnly P) (ended : r ≠ unfinished) :
    (∃ v s, r = done v s ∧ P v) ∨ ∃ f s, r = failed f s := by
  cases r with
  | done v s => exact .inl ⟨v, s, rfl, h⟩
  | failed f s => exact .inr ⟨f, s, rfl⟩
  | unfinished => exact absurd rfl ended

theorem ensures_bind {m : Eval α} {next : α → Eval β} {s : State} {Q : β → State → Prop} :
    ((m >>= next) s).Ensures Q E ↔ (m s).Ensures (fun v t => (next v t).Ensures Q E) E := by
  rw [Eval.bind_apply]
  cases m s <;> rfl

theorem Ensures.bind {m : Eval α} {next : α → Eval β} {s : State} {R : α → State → Prop}
    {Q : β → State → Prop} (h : (m s).Ensures R E) (k : ∀ v t, R v t → (next v t).Ensures Q E) :
    ((m >>= next) s).Ensures Q E :=
  ensures_bind.2 (h.mono k fun _ _ e => e)

/-- What is known of all later values is known, whatever the first value is. -/
theorem DoneOnly.of_next {m : Eval α} {next : α → Eval β} {s : State} {P : β → Prop}
    (k : ∀ v t, (next v t).DoneOnly P) : ((m >>= next) s).DoneOnly P := by
  rw [DoneOnly, ensures_bind]
  cases m s with
  | done v t => exact k v t
  | failed => trivial
  | unfinished => trivial

end Result

namespace Eval
open Result

theorem ensures_nested {m : Eval α} {s : State} :
    (nested m s).Ensures Q E ↔
      (m { s with scope := s.scope.child }).Ensures
        (fun v t => Q v { t with scope := t.scope.tail })
        (fun f t => E f { t with scope := t.scope.tail }) :=
  ensures_mapState

/-- Whether a limit on active calls allows no further one. -/
def limitReached (limit : Option Int) (s : State) : Bool :=
  limit.any fun most => most ≤ (s.active : Int)

theorem ensures_counted {limit : Option Int} {line : Int} {m : Eval α} {s : State}
    (refused : limitReached limit s = true → E ⟨.recursionDepthExceeded, some line⟩ s)
    (counts : limitReached limit s = false →
      (m { s with active := s.active + 1 }).Ensures
        (fun v t => Q v { t with active := t.active - 1 })
        (fun f t => E f { t with active := t.active - 1 })) :
    (counted limit line m s).Ensures Q E := by
  unfold counted
  split
  · next reached => exact refused reached
  · next below => exact ensures_mapState.2 (counts (Bool.not_eq_true _ ▸ below))

theorem ensures_lookUp {line : Int} {x : String} {s : State} {Q : Int → State → Prop}
    (bound : ∀ v, s.scope.value? x = some v → Q v s)
    (unbound : s.scope.value? x = none → E ⟨.unboundVariable x, some line⟩ s) :
    (lookUp line x s).Ensures Q E := by
  rw [lookUp, ensures_bind, asking, ensures_done]
  cases h : s.scope.value? x with
  | none => exact unbound h
  | some v => exact bound v h

theorem ensures_operate {op : BinaryOperator} {a b : Int} {s : State} {Q : Int → State → Prop}
    (total : ∀ v, op.value? a b = some v → Q v s)
    (byZero : op.value? a b = none → E ⟨.divisionByZero op, none⟩ s) :
    (operate op a b s).Ensures Q E := by
  unfold operate
  cases h : op.value? a b with
  | none => exact byZero h
  | some v => exact total v h

theorem ensures_changing {f : Scope → Except Fault Scope} {s : State} {Q : Unit → State → Prop}
    (changed : ∀ scope, f s.scope = .ok scope → Q () { s with scope })
    (refused : ∀ fault, f s.scope = .error fault → E fault s) :
    (changing f s).Ensures Q E := by
  unfold changing
  cases h : f s.scope with
  | ok scope => exact changed scope h
  | error fault => exact refused fault h

/-- Evaluating parts in order keeps what the evaluation of each part keeps. -/
theorem ensures_inOrder {f : Node → Eval α} {P : State → Prop} {ts : List Node} {s : State}
    (keeps : ∀ t ∈ ts, ∀ s, P s → (f t s).Ensures (fun _ => P) E) (hs : P s) :
    (inOrder f ts s).Ensures (fun vs u => vs.length = ts.length ∧ P u) E := by
  induction ts generalizing s with
  | nil => exact ⟨rfl, hs⟩
  | cons t ts ih =>
    apply Ensures.bind (keeps t (by simp) s hs)
    intro v u hu
    apply Ensures.bind (ih (fun p hp => keeps p (by simp [hp])) hu)
    intro vs w hw
    exact ⟨by simp [hw.1], hw.2⟩

/-- Running parts up to the first exit keeps what a part without an exit keeps. -/
theorem ensures_untilExit {f : Node → Eval (Option α)} {P : State → Prop}
    {R : α → State → Prop} {ts : List Node} {s : State}
    (keeps : ∀ t ∈ ts, ∀ s, P s → (f t s).Ensures (fun r u => r.elim (P u) (R · u)) E) (hs : P s) :
    (untilExit f ts s).Ensures (fun r u => r.elim (P u) (R · u)) E := by
  induction ts generalizing s with
  | nil => exact hs
  | cons t ts ih =>
    apply Ensures.bind (keeps t (by simp) s hs)
    intro r u hu
    cases r with
    | none => exact ih (fun p hp => keeps p (by simp [hp])) hu
    | some v => exact hu

/-- Parts that follow one which never comes to its end without an exit are not reached. -/
theorem untilExit_of_stops {f : Node → Eval (Option α)} {P : State → Prop} {ts : List Node}
    {t : Node} {s : State}
    (before : (untilExit f ts s).Ensures (fun r u => r = none → P u) (fun _ _ => True))
    (stops : ∀ u, P u → ∀ w, f t u ≠ .done none w) (after : List Node) :
    untilExit f (ts ++ t :: after) s = untilExit f (ts ++ [t]) s ∧
      ∀ w, untilExit f (ts ++ [t]) s ≠ .done none w := by
  rw [untilExit_append, untilExit_append, bind_apply, bind_apply]
  cases h : untilExit f ts s with
  | failed e u => exact ⟨rfl, by simp⟩
  | unfinished => exact ⟨rfl, by simp⟩
  | done r u =>
    cases r with
    | some v => exact ⟨rfl, by simp⟩
    | none =>
      rw [h] at before
      have here := stops u (before rfl)
      simp only [untilExit, bind_apply]
      cases ht : f t u with
      | failed e w => exact ⟨rfl, by simp⟩
      | unfinished => exact ⟨rfl, by simp⟩
      | done r w =>
        cases r with
        | some v => exact ⟨rfl, by simp⟩
        | none => exact absurd ht (here w)

/-- What follows such a statement in its block makes no difference to the block. -/
theorem block_of_stops {limit : Option Int} {n : Nat} {P : State → Prop} {ts : List Node}
    {t : Node} {s : State}
    (before : (untilExit (statement limit n) ts { s with scope := s.scope.child }).Ensures
      (fun r u => r = none → P u) (fun _ _ => True))
    (stops : ∀ u, P u → ∀ w, statement limit n t u ≠ .done none w) (after : List Node) :
    block limit (n + 1) (.block (ts ++ t :: after)) s =
        block limit (n + 1) (.block (ts ++ [t])) s ∧
      ∀ w, block limit (n + 1) (.block (ts ++ [t])) s ≠ .done none w := by
  obtain ⟨same, never⟩ := untilExit_of_stops before stops after
  rw [block, block, nested, nested, same]
  refine ⟨rfl, fun w done => ?_⟩
  cases h : untilExit (statement limit n) (ts ++ [t]) { s with scope := s.scope.child } with
  | done r u =>
    rw [h] at done
    obtain ⟨rfl, -⟩ := Result.done.inj done
    exact never u h
  | failed f u => rw [h] at done; cases done
  | unfinished => rw [h] at done; cases done

theorem ensures_startValue {f : Node → Eval Int} {init : Node} {s : State} {Q : Int → State → Prop}
    (absent : init = .nothing → Q 0 s) (given : init ≠ .nothing → (f init s).Ensures Q E) :
    (startValue f init s).Ensures Q E := by
  unfold startValue
  split
  · next h => exact absent h
  · next h => exact given h

theorem ensures_select {f : Node → Eval (Option Int)} {c : Int} {yes no : Node} {s : State}
    {Q : Option Int → State → Prop} (holds : c ≠ 0 → (f yes s).Ensures Q E)
    (absent : no = .nothing → Q none s) (fails : no ≠ .nothing → (f no s).Ensures Q E) :
    (select f c yes no s).Ensures Q E := by
  unfold select
  split
  · next h => exact holds h
  · split
    · next h => exact absent h
    · next h => exact fails h

/-- An exit value is kept once: a level that has one refuses the next. -/
theorem ensures_leave {r : Option Int} {s : State} {Q : Option Int → State → Prop}
    (stays : r = none → Q none s)
    (leaves : ∀ v, r = some v → s.scope.own.exit = none →
      Q (some v) { s with scope := s.scope.withOwn { s.scope.own with exit := some v } })
    (repeated : ∀ v old, r = some v → s.scope.own.exit = some old → E ⟨.exitRepeated old, none⟩ s) :
    (leave r s).Ensures Q E := by
  cases r with
  | none => exact stays rfl
  | some v =>
    rw [leave, ensures_bind]
    refine ensures_changing (fun scope h => ?_) (fun fault h => ?_)
    · obtain ⟨free, rfl⟩ := Scope.setExit_some_eq_ok_iff.1 h
      exact leaves v rfl free
    · obtain ⟨old, taken, rfl⟩ := Scope.setExit_some_eq_error_iff.1 h
      exact repeated v old rfl taken

/-- Parameters are added to the own level in order, up to the first one that it has already. -/
theorem ensures_bindParams {line : Int} {ps : Bindings Int} {s : State} {l : Level}
    {outer : Scope} {Q : Unit → State → Prop} (hs : s.scope = l :: outer)
    (binds : Q () { s with scope := { l with locals := l.locals ++ ps } :: outer })
    (repeated : ∀ x k, 1 < (l.locals.names ++ ps.names).count x →
      E ⟨.duplicateDeclaration x "variable", some line⟩ { s with scope := k :: outer }) :
    (bindParams line ps s).Ensures Q E := by
  induction ps generalizing s l with
  | nil =>
    have same : ({ s with scope := { l with locals := l.locals ++ [] } :: outer } : State) = s := by
      rw [List.append_nil, ← hs]
    exact same ▸ binds
  | cons p ps ih =>
    rw [bindParams, ensures_bind]
    refine ensures_changing (fun scope h => ?_) (fun fault h => ?_)
    · obtain ⟨-, rfl⟩ := Scope.declareVariable_eq_ok_iff.1 h
      refine ih (by rw [hs]; rfl) ?_ fun x k twice => repeated x k ?_
      · simpa [hs, Bindings.add] using binds
      · rw [Bindings.names_add, List.append_assoc] at twice
        exact twice
    · obtain ⟨taken, rfl⟩ := Scope.declareVariable_eq_error_iff.1 h
      have same : ({ s with scope := l :: outer } : State) = s := by rw [← hs]
      refine same ▸ repeated p.1 l ?_
      rw [hs, Scope.own_cons, Bindings.isSome_get?_iff] at taken
      have listed := List.count_pos_iff.2 taken
      rw [Bindings.names_cons, List.count_append, List.count_cons_self]
      omega

/-- A body runs in a scope that holds the parameters and lies inside the scope of the call. A
parameter that is refused is listed twice. -/
theorem ensures_enter_of_count {limit : Option Int} {body : Node → Eval (Option Int)} {line : Int}
    {f : Function} {values : List Int} {s : State} {Q : Int → State → Prop}
    (repeated : ∀ x, 1 < (Bindings.names (f.params.zip values)).count x →
      E ⟨.duplicateDeclaration x "variable", some f.line⟩ s)
    (refused : limitReached limit s = true → E ⟨.recursionDepthExceeded, some line⟩ s)
    (runs : limitReached limit s = false →
      (body f.body { s with
          scope := { locals := f.params.zip values } :: s.scope
          active := s.active + 1 }).Ensures
        (fun r t => Q (r.getD 0) { t with scope := t.scope.tail, active := t.active - 1 })
        (fun e t => E e { t with scope := t.scope.tail, active := t.active - 1 })) :
    (enter limit body line f values s).Ensures Q E := by
  rw [enter, ensures_bind, ensures_nested, ensures_bind]
  refine ensures_bindParams rfl ?_ (fun x _ twice => repeated x twice)
  exact ensures_counted refused runs

theorem ensures_enter {limit : Option Int} {body : Node → Eval (Option Int)} {line : Int}
    {f : Function} {values : List Int} {s : State} {Q : Int → State → Prop}
    (repeated : ∀ x, E ⟨.duplicateDeclaration x "variable", some f.line⟩ s)
    (refused : limitReached limit s = true → E ⟨.recursionDepthExceeded, some line⟩ s)
    (runs : limitReached limit s = false →
      (body f.body { s with
          scope := { locals := f.params.zip values } :: s.scope
          active := s.active + 1 }).Ensures
        (fun r t => Q (r.getD 0) { t with scope := t.scope.tail, active := t.active - 1 })
        (fun e t => E e { t with scope := t.scope.tail, active := t.active - 1 })) :
    (enter limit body line f values s).Ensures Q E :=
  ensures_enter_of_count (fun x _ => repeated x) refused runs

/-- A call of a name goes to the function that is visible, and to the printing one if none is. -/
theorem ensures_invoke {limit : Option Int} {body : Node → Eval (Option Int)} {line : Int}
    {name : String} {values : List Int} {s : State} {Q : Int → State → Prop}
    (enters : ∀ f, s.scope.function? name = some f → values.length = f.arity →
      (enter limit body line f values { s with
        calls := ⟨line, name, values⟩ :: s.calls }).Ensures Q E)
    (mismatch : ∀ f, s.scope.function? name = some f → values.length ≠ f.arity →
      E ⟨.arityMismatch name f.arity values.length, some line⟩ s)
    (prints : s.scope.function? name = none → name = printName →
      Q 0 { s with printed := s.printed ++ Text.printedLine values })
    (unbound : s.scope.function? name = none → name ≠ printName →
      E ⟨.unboundFunction name, some line⟩ s) :
    (invoke limit body line name values s).Ensures Q E := by
  rw [invoke, ensures_bind, asking, ensures_done]
  cases h : s.scope.function? name with
  | some f =>
    dsimp only
    split
    · next fits => exact enters f h fits
    · next differs => exact mismatch f h differs
  | none =>
    dsimp only
    split
    · next prints' => exact prints h prints'
    · next other => exact unbound h other

end Eval
end CallSite

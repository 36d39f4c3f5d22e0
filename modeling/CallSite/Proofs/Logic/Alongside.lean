import CallSite.Proofs.Logic.Postcondition

/-! Two runs side by side. Two results correspond if both are the same value, or faults that
correspond, or both are unfinished, and the states that they leave are related. Two steps run
alongside each other if they have such results from all related states; the rules below are those
of the compound steps. -/

namespace CallSite
variable {α β : Type}

/-- The same value, or faults that correspond, with related states, or no end on either side. -/
def Result.Alongside (E : Fault → Fault → Prop) (S : State → State → Prop) :
    Result α → Result α → Prop
  | done v s, done w t => v = w ∧ S s t
  | failed f s, failed g t => E f g ∧ S s t
  | unfinished, unfinished => True
  | _, _ => False

namespace Result.Alongside
variable {E : Fault → Fault → Prop} {S S' : State → State → Prop} {r r' : Result α}

theorem mapState {f g : State → State} (h : r.Alongside E S' r')
    (related : ∀ s t, S' s t → S (f s) (g t)) : (r.mapState f).Alongside E S (r'.mapState g) := by
  cases r <;> cases r'
  case done.done => exact ⟨h.1, related _ _ h.2⟩
  case failed.failed => exact ⟨h.1, related _ _ h.2⟩
  case unfinished.unfinished => trivial
  all_goals exact h.elim

theorem mono (h : r.Alongside E S' r') (weaker : ∀ s t, S' s t → S s t) : r.Alongside E S r' := by
  have mapped := h.mapState (f := id) (g := id) weaker
  cases r <;> cases r' <;> exact mapped

end Result.Alongside

namespace Eval

/-- From all related states the two steps have results that correspond. -/
def Alongside (E : Fault → Fault → Prop) (S : State → State → Prop) (m m' : Eval α) : Prop :=
  ∀ s t, S s t → (m s).Alongside E S (m' t)

/-- From related states the step has the same value or fault and leaves related states. -/
abbrev Respects (S : State → State → Prop) (m : Eval α) : Prop := Alongside Eq S m m

namespace Alongside
variable {E : Fault → Fault → Prop} {S S' : State → State → Prop} {m m' : Eval α}

theorem pure (v : α) : Alongside E S (pure v) (pure v) := fun _ _ related => ⟨rfl, related⟩

theorem fail {cause cause' : Cause} {line line' : Option Int}
    (h : E ⟨cause, line⟩ ⟨cause', line'⟩) :
    Alongside E S (fail cause line : Eval α) (fail cause' line') := fun _ _ related => ⟨h, related⟩

theorem bind {next next' : α → Eval β} (h : Alongside E S m m')
    (k : ∀ v, Alongside E S (next v) (next' v)) : Alongside E S (m >>= next) (m' >>= next') := by
  intro s t related
  have first := h s t related
  simp only [bind_apply]
  cases hm : m s <;> cases hm' : m' t <;> rw [hm, hm'] at first
  case done.done v u w u' =>
    obtain ⟨rfl, rest⟩ := first
    exact k v u u' rest
  case failed.failed => exact first
  case unfinished.unfinished => trivial
  all_goals exact first.elim

theorem nested (h : Alongside E S' m m')
    (enters : ∀ s t, S s t → S' { s with scope := s.scope.child } { t with scope := t.scope.child })
    (leaves : ∀ s t, S' s t → S { s with scope := s.scope.tail } { t with scope := t.scope.tail }) :
    Alongside E S (nested m) (nested m') :=
  fun s t related => (h _ _ (enters s t related)).mapState leaves

theorem counted {limit limit' : Option Int} {line line' : Int} (h : Alongside E S' m m')
    (reached : ∀ s t, S s t → limitReached limit s = limitReached limit' t)
    (refused : E ⟨.recursionDepthExceeded, some line⟩ ⟨.recursionDepthExceeded, some line'⟩)
    (enters : ∀ s t, S s t → S' { s with active := s.active + 1 } { t with active := t.active + 1 })
    (leaves : ∀ s t, S' s t →
      S { s with active := s.active - 1 } { t with active := t.active - 1 }) :
    Alongside E S (counted limit line m) (counted limit' line' m') := by
  intro s t related
  have both := reached s t related
  simp only [limitReached] at both
  simp only [Eval.counted, both]
  split
  · exact ⟨refused, related⟩
  · exact (h _ _ (enters s t related)).mapState leaves

theorem lookUp {line line' : Int} {x y : String}
    (same : ∀ s t, S s t → s.scope.value? x = t.scope.value? y)
    (unbound : E ⟨.unboundVariable x, some line⟩ ⟨.unboundVariable y, some line'⟩) :
    Alongside E S (lookUp line x) (lookUp line' y) := by
  intro s t related
  have both := same s t related
  simp only [Eval.lookUp, bind_apply, asking, both]
  cases t.scope.value? y with
  | none => exact ⟨unbound, related⟩
  | some v => exact ⟨rfl, related⟩

theorem operate {op : BinaryOperator} (a b : Int)
    (byZero : E ⟨.divisionByZero op, none⟩ ⟨.divisionByZero op, none⟩) :
    Alongside E S (operate op a b) (operate op a b) := by
  unfold Eval.operate
  cases op.value? a b with
  | none => exact .fail byZero
  | some v => exact .pure v

/-- Two changes of the scope, both made or both refused. -/
theorem changing {f f' : Scope → Except Fault Scope}
    (made : ∀ s t, S s t → ∀ a, f s.scope = .ok a →
      ∃ b, f' t.scope = .ok b ∧ S { s with scope := a } { t with scope := b })
    (refused : ∀ s t, S s t → ∀ e, f s.scope = .error e → ∃ e', f' t.scope = .error e' ∧ E e e') :
    Alongside E S (changing f) (changing f') := by
  intro s t related
  unfold Eval.changing
  cases h : f s.scope with
  | ok a =>
    obtain ⟨b, h', both⟩ := made s t related a h
    rw [h']
    exact ⟨rfl, both⟩
  | error e =>
    obtain ⟨e', h', both⟩ := refused s t related e h
    rw [h']
    exact ⟨both, related⟩

theorem inOrder {f g : Node → Eval α} {ts : List Node} (h : ∀ t ∈ ts, Alongside E S (f t) (g t)) :
    Alongside E S (inOrder f ts) (inOrder g ts) := by
  induction ts with
  | nil => exact .pure []
  | cons t ts ih =>
    have rest := ih fun p mem => h p (by simp [mem])
    exact .bind (h t (by simp)) fun _ => .bind rest fun _ => .pure _

theorem untilExit {f g : Node → Eval (Option α)} {ts : List Node}
    (h : ∀ t ∈ ts, Alongside E S (f t) (g t)) :
    Alongside E S (untilExit f ts) (untilExit g ts) := by
  induction ts with
  | nil => exact .pure none
  | cons t ts ih =>
    have rest := ih fun p mem => h p (by simp [mem])
    apply Alongside.bind (h t (by simp))
    intro r
    cases r with
    | none => exact rest
    | some v => exact .pure (some v)

theorem startValue {f g : Node → Eval Int} {init : Node}
    (h : init ≠ .nothing → Alongside E S (f init) (g init)) :
    Alongside E S (startValue f init) (startValue g init) := by
  unfold Eval.startValue
  split
  · exact .pure 0
  · next given => exact h given

theorem select {f g : Node → Eval (Option Int)} {c : Int} {yes no : Node}
    (hyes : Alongside E S (f yes) (g yes)) (hno : no ≠ .nothing → Alongside E S (f no) (g no)) :
    Alongside E S (select f c yes no) (select g c yes no) := by
  unfold Eval.select
  split
  · exact hyes
  · split
    · exact .pure none
    · next given => exact hno given

end Alongside
end Eval
end CallSite

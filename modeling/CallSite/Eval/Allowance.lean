import CallSite.Eval.Program

/-! More allowance never changes how a run ends. One step extends another if it ends in the same way, in the
same state, wherever the other ends; every combination of steps respects this, so a larger allowance extends a
smaller one. -/

namespace CallSite.Eval
variable {α β : Type}

/-- Wherever the first step ends, the second one ends in the same way and in the same state. -/
def ExtendedBy (m m' : Eval α) : Prop := ∀ s, m s = .unfinished ∨ m s = m' s

namespace ExtendedBy

theorem refl (m : Eval α) : ExtendedBy m m := fun _ => .inr rfl

theorem trans {m₁ m₂ m₃ : Eval α} (h : ExtendedBy m₁ m₂) (k : ExtendedBy m₂ m₃) :
    ExtendedBy m₁ m₃ := by
  intro s
  rcases h s with h | h
  · exact .inl h
  · exact h ▸ k s

theorem bind {m m' : Eval α} {next next' : α → Eval β} (h : ExtendedBy m m')
    (k : ∀ v, ExtendedBy (next v) (next' v)) : ExtendedBy (m >>= next) (m' >>= next') := by
  intro s
  simp only [bind_apply]
  rcases h s with h | h
  · simp [h]
  · rw [← h]
    cases m s with
    | done v t => exact k v t
    | failed => simp
    | unfinished => simp

theorem nested {m m' : Eval α} (h : ExtendedBy m m') : ExtendedBy (nested m) (nested m') := by
  intro s
  unfold Eval.nested
  rcases h { s with scope := s.scope.child } with h | h <;> simp [h, Result.mapState]

theorem counted {m m' : Eval α} (limit : Option Int) (line : Int) (h : ExtendedBy m m') :
    ExtendedBy (counted limit line m) (counted limit line m') := by
  intro s
  unfold Eval.counted
  split
  · simp
  · rcases h { s with active := s.active + 1 } with h | h <;> simp [h, Result.mapState]

theorem inOrder {f f' : Node → Eval α} (h : ∀ t, ExtendedBy (f t) (f' t)) :
    ∀ ts, ExtendedBy (inOrder f ts) (inOrder f' ts)
  | [] => refl _
  | t :: ts => bind (h t) fun _ => bind (inOrder h ts) fun _ => refl _

theorem untilExit {f f' : Node → Eval (Option α)} (h : ∀ t, ExtendedBy (f t) (f' t)) :
    ∀ ts, ExtendedBy (untilExit f ts) (untilExit f' ts)
  | [] => refl _
  | t :: ts => bind (h t) fun
    | none => untilExit h ts
    | some _ => refl _

theorem startValue {f f' : Node → Eval Int} (h : ∀ t, ExtendedBy (f t) (f' t)) (init : Node) :
    ExtendedBy (startValue f init) (startValue f' init) := by
  unfold Eval.startValue
  split
  · exact refl _
  · exact h init

theorem select {f f' : Node → Eval (Option Int)} (h : ∀ t, ExtendedBy (f t) (f' t)) (c : Int)
    (yes no : Node) : ExtendedBy (select f c yes no) (select f' c yes no) := by
  unfold Eval.select
  split
  · exact h yes
  · split
    · exact refl _
    · exact h no

theorem invoke {body body' : Node → Eval (Option Int)} (h : ∀ t, ExtendedBy (body t) (body' t))
    (limit : Option Int) (line : Int) (name : String) (values : List Int) :
    ExtendedBy (invoke limit body line name values) (invoke limit body' line name values) := by
  refine bind (refl _) fun
    | none => refl _
    | some f => ?_
  dsimp only
  split
  · exact bind (refl _) fun _ =>
      bind (nested (bind (refl _) fun _ => counted limit line (h _))) fun _ => refl _
  · exact refl _

end ExtendedBy

/-- One more unit of allowance extends the evaluation of every tree. -/
theorem extendedBy_succ (limit : Option Int) (n : Nat) (t : Node) :
    ExtendedBy (expression limit n t) (expression limit (n + 1) t) ∧
      ExtendedBy (statement limit n t) (statement limit (n + 1) t) ∧
      ExtendedBy (block limit n t) (block limit (n + 1) t) := by
  induction n generalizing t with
  | zero =>
    refine ⟨fun s => .inl ?_, fun s => .inl ?_, fun s => .inl ?_⟩
    · rw [expression]; rfl
    · rw [statement]; rfl
    · rw [block]; rfl
  | succ n ih =>
    have values := fun t => (ih t).1
    have runs := fun t => (ih t).2.1
    have blocks := fun t => (ih t).2.2
    refine ⟨?_, ?_, ?_⟩
    · cases t with
      | binary op l r =>
        rw [expression, expression]
        exact .bind (values l) fun _ => .bind (values r) fun _ => .refl _
      | call line name args =>
        rw [expression, expression]
        exact .bind (.inOrder values args) fun _ => .invoke blocks limit line name _
      | _ => exact .refl _
    · cases t with
      | declare line x init =>
        rw [statement, statement]
        exact .bind (.startValue values init) fun _ => .refl _
      | assign line x value =>
        rw [statement, statement]
        exact .bind (values value) fun _ => .refl _
      | branch condition yes no =>
        rw [statement, statement]
        exact .bind (values condition) fun c => .bind (.select blocks c yes no) fun _ => .refl _
      | loop condition body =>
        rw [statement, statement]
        refine .bind (values condition) fun c => ?_
        split
        · exact .bind (blocks body) fun
            | none => runs _
            | some _ => .refl _
        · exact .refl _
      | exit value =>
        rw [statement, statement]
        exact .bind (values value) fun _ => .refl _
      | literal | binary | reference | call => exact .bind (values _) fun _ => .refl _
      | _ => exact .refl _
    · cases t with
      | block statements =>
        rw [block, block]
        exact .nested (.untilExit runs statements)
      | _ => exact .refl _

/-- A larger allowance extends the run of every program. -/
theorem program_extendedBy (limit : Option Int) (t : Node) {n m : Nat} (h : n ≤ m) :
    ExtendedBy (program limit n t) (program limit m t) := by
  induction h with
  | refl => exact .refl _
  | step _ ih =>
    refine ih.trans ?_
    cases t with
    | program body => exact (extendedBy_succ limit _ body).2.2
    | _ => exact .refl _

/-- How a run ends and the state it leaves do not depend on the allowance that it ends within. -/
theorem program_result_unique {limit : Option Int} {t : Node} {s : State} {n m : Nat}
    (hn : program limit n t s ≠ .unfinished) (hm : program limit m t s ≠ .unfinished) :
    program limit n t s = program limit m t s := by
  rcases Nat.le_total n m with h | h
  · exact (program_extendedBy limit t h s).resolve_left hn
  · exact ((program_extendedBy limit t h s).resolve_left hm).symm

end CallSite.Eval

import CallSite.Scope.Basic
import CallSite.Text.Printed

/-! Steps of an evaluation. A step changes a state, which it also leaves behind when it fails, and ends with a
value or a fault; a step that was cut off before its end is unfinished and says nothing. Steps follow each
other until the first one that does not end with a value. -/

namespace CallSite

/-- A call of a function by the program, with the values that it passes. -/
structure CallRecord where
  line : Int
  name : String
  values : List Int
  deriving DecidableEq, Repr

/-- What an evaluation reads and changes: the scope it runs in, the text printed so far, the number of calls
that have not returned, and the calls made so far, latest first. -/
structure State where
  scope : Scope
  printed : String := ""
  active : Nat := 0
  calls : List CallRecord := []
  deriving DecidableEq, Repr

inductive Result (α : Type) where
  | done (value : α) (state : State)
  | failed (fault : Fault) (state : State)
  | unfinished
  deriving DecidableEq

namespace Result
variable {α : Type}

/-- The state that an ended step leaves behind. -/
def state? : Result α → Option State
  | done _ s | failed _ s => some s
  | unfinished => none

/-- The value or the fault that an ended step ends with. -/
def ending? : Result α → Option (Except Fault α)
  | done v _ => some (.ok v)
  | failed f _ => some (.error f)
  | unfinished => none

/-- The result with another final state. -/
def mapState (f : State → State) : Result α → Result α
  | done v s => done v (f s)
  | failed e s => failed e (f s)
  | unfinished => unfinished

end Result

def Eval (α : Type) : Type := State → Result α

namespace Eval
variable {α β : Type}

@[always_inline, inline]
protected def pure (v : α) : Eval α := fun s => .done v s

@[always_inline, inline]
protected def bind (m : Eval α) (next : α → Eval β) : Eval β := fun s =>
  match m s with
  | .done v t => next v t
  | .failed f t => .failed f t
  | .unfinished => .unfinished

instance : Monad Eval where
  pure := Eval.pure
  bind := Eval.bind

@[simp] theorem pure_apply (v : α) (s : State) : (pure v : Eval α) s = .done v s := rfl

theorem bind_apply (m : Eval α) (next : α → Eval β) (s : State) :
    (m >>= next) s = match m s with
      | .done v t => next v t
      | .failed f t => .failed f t
      | .unfinished => .unfinished := rfl

instance : LawfulMonad Eval := LawfulMonad.mk' Eval
  (fun m => by
    funext s
    show (match m s with | .done v t => _ | .failed f t => _ | .unfinished => _) = m s
    cases m s <;> rfl)
  (fun _ _ => rfl)
  (fun m f g => by
    funext s
    simp only [bind_apply]
    cases m s <;> rfl)

/-- The step that has run out of its allowance. -/
def unfinished : Eval α := fun _ => .unfinished

/-- The step that fails and changes nothing. -/
def fail (cause : Cause) (line : Option Int) : Eval α := fun s => .failed ⟨cause, line⟩ s

/-- What the current scope says. -/
def asking (f : Scope → α) : Eval α := fun s => .done (f s.scope) s

/-- A change of the current scope that may be refused. -/
def changing (f : Scope → Except Fault Scope) : Eval Unit := fun s =>
  match f s.scope with
  | .ok scope => .done () { s with scope }
  | .error fault => .failed fault s

/-- A line of output. -/
def print (values : List Int) : Eval Unit := fun s =>
  .done () { s with printed := s.printed ++ Text.printedLine values }

def recordCall (call : CallRecord) : Eval Unit := fun s => .done () { s with calls := call :: s.calls }

/-- A step in a scope of its own, which is left however the step ends. -/
def nested (m : Eval α) : Eval α := fun s =>
  (m { s with scope := s.scope.child }).mapState fun t => { t with scope := t.scope.tail }

/-- A step that counts as an active call while it runs. It is refused when the limit is reached. -/
def counted (limit : Option Int) (line : Int) (m : Eval α) : Eval α := fun s =>
  if limit.any fun most => most ≤ (s.active : Int) then .failed ⟨.recursionDepthExceeded, some line⟩ s
  else (m { s with active := s.active + 1 }).mapState fun t => { t with active := t.active - 1 }

/-- The values of the given parts, from left to right. -/
def inOrder (value : Node → Eval α) : List Node → Eval (List α)
  | [] => pure []
  | t :: ts => do
    let v ← value t
    return v :: (← inOrder value ts)

/-- The given parts in order, up to the first one that has an exit value. -/
def untilExit (run : Node → Eval (Option α)) : List Node → Eval (Option α)
  | [] => pure none
  | t :: ts => do
    match ← run t with
    | some v => pure (some v)
    | none => untilExit run ts

theorem untilExit_append (run : Node → Eval (Option α)) (ts us : List Node) :
    untilExit run (ts ++ us) = untilExit run ts >>= fun
      | some v => pure (some v)
      | none => untilExit run us := by
  induction ts with
  | nil => rfl
  | cons t ts ih =>
    rw [List.cons_append, untilExit, untilExit, bind_assoc]
    congr 1
    funext r
    cases r with
    | none => exact ih
    | some v => rfl

end Eval
end CallSite

import CallSite.Scope.Basic

/-! What the operations on a scope do to it. A declaration and an exit value concern the scope's
own level only, and an operation that is refused has one cause. -/

namespace CallSite

/-- The kinds of names that a level keeps apart. -/
inductive Namespace where
  | locals | functions
  deriving DecidableEq, Repr

namespace Namespace

/-- How a fault calls what has the name. -/
def what : Namespace → String
  | locals => "variable"
  | functions => "function"

end Namespace

/-- The names that a level binds in a namespace. -/
def Level.names (l : Level) : Namespace → List String
  | .locals => l.locals.names
  | .functions => l.functions.names

namespace Scope
variable {s u : Scope} {x name : String} {v : Int} {f : Function} {line : Option Int}
  {fault : Fault}

@[simp] theorem own_cons (l : Level) (outer : Scope) : own (l :: outer) = l := rfl

@[simp] theorem own_withOwn (s : Scope) (l : Level) : (s.withOwn l).own = l := rfl

@[simp] theorem tail_withOwn (s : Scope) (l : Level) : (s.withOwn l).tail = s.tail := rfl

/-- A lookup asks the own level first, also in a scope without levels. -/
theorem value?_eq_own_or (s : Scope) (x : String) :
    s.value? x = (s.own.locals.get? x <|> value? s.tail x) := by
  cases s with
  | nil => rfl
  | cons l outer => exact value?_cons l outer x

theorem function?_eq_own_or (s : Scope) (name : String) :
    s.function? name = (s.own.functions.get? name <|> function? s.tail name) := by
  cases s with
  | nil => rfl
  | cons l outer => exact function?_cons l outer name

/-- A variable has no value if its own level does not list it and it has none further out. -/
theorem value?_eq_none_iff_own :
    s.value? x = none ↔ x ∉ s.own.locals.names ∧ value? s.tail x = none := by
  rw [value?_eq_own_or, ← Bindings.get?_eq_none_iff]
  cases s.own.locals.get? x <;> simp

theorem function?_eq_none_iff_own :
    s.function? name = none ↔ name ∉ s.own.functions.names ∧ function? s.tail name = none := by
  rw [function?_eq_own_or, ← Bindings.get?_eq_none_iff]
  cases s.own.functions.get? name <;> simp

theorem declareVariable_eq_ok_iff :
    s.declareVariable x v line = .ok u ↔
      s.own.locals.get? x = none ∧ s.withOwn { s.own with locals := s.own.locals.add x v } = u := by
  unfold declareVariable
  cases s.own.locals.get? x <;> simp

theorem declareVariable_eq_error_iff :
    s.declareVariable x v line = .error fault ↔
      (s.own.locals.get? x).isSome ∧ ⟨.duplicateDeclaration x "variable", line⟩ = fault := by
  unfold declareVariable
  cases s.own.locals.get? x <;> simp

theorem declareFunction_eq_ok_iff :
    s.declareFunction name f line = .ok u ↔
      s.own.functions.get? name = none ∧
        s.withOwn { s.own with functions := s.own.functions.add name f } = u := by
  unfold declareFunction
  cases s.own.functions.get? name <;> simp

theorem declareFunction_eq_error_iff :
    s.declareFunction name f line = .error fault ↔
      (s.own.functions.get? name).isSome ∧
        ⟨.duplicateDeclaration name "function", line⟩ = fault := by
  unfold declareFunction
  cases s.own.functions.get? name <;> simp

theorem assign_eq_ok_iff : s.assign x v line = .ok u ↔ s.assign? x v = some u := by
  unfold assign
  cases s.assign? x v <;> simp

theorem assign_eq_error_iff :
    s.assign x v line = .error fault ↔ s.value? x = none ∧ ⟨.unboundVariable x, line⟩ = fault := by
  rw [← assign?_eq_none_iff (v := v)]
  unfold assign
  cases s.assign? x v <;> simp

theorem setExit_some_eq_ok_iff :
    s.setExit (some v) = .ok u ↔
      s.own.exit = none ∧ s.withOwn { s.own with exit := some v } = u := by
  unfold setExit
  cases s.own.exit <;> simp

theorem setExit_some_eq_error_iff :
    s.setExit (some v) = .error fault ↔
      ∃ old, s.own.exit = some old ∧ ⟨.exitRepeated old, none⟩ = fault := by
  unfold setExit
  cases s.own.exit <;> simp

end Scope
end CallSite

import CallSite.Fault
import CallSite.Scope.Bindings

/-! Scopes. A level binds variables and functions, in namespaces of their own, and keeps the exit value of the
block that runs in it; a scope is a level followed by the levels around it, the root's last. A lookup takes the
nearest level that has the name, a declaration goes into the scope's own level, and a declaration looks for an
earlier one of its name in that level only. -/

namespace CallSite

structure Level where
  locals : Bindings Int := []
  functions : Bindings Function := []
  exit : Option Int := none
  deriving DecidableEq, Repr

abbrev Scope := List Level

namespace Scope

/-- The scope of a block that starts to run in the given one. -/
def child (s : Scope) : Scope := {} :: s

/-- The number of levels around the scope's own. -/
def depth (s : Scope) : Nat := s.length - 1

/-- The scope's own level. -/
def own (s : Scope) : Level := s.headD {}

/-- The scope with another level of its own. -/
def withOwn (s : Scope) (l : Level) : Scope := l :: s.tail

/-- The value of a variable in the nearest level that declares it. -/
def value? (s : Scope) (x : String) : Option Int := s.findSome? fun l => l.locals.get? x

/-- The function with a name in the nearest level that declares one. -/
def function? (s : Scope) (f : String) : Option Function := s.findSome? fun l => l.functions.get? f

def declareVariable (s : Scope) (x : String) (v : Int) (line : Option Int) : Except Fault Scope :=
  match s.own.locals.get? x with
  | some _ => .error ⟨.duplicateDeclaration x "variable", line⟩
  | none => .ok (s.withOwn { s.own with locals := s.own.locals.add x v })

def declareFunction (s : Scope) (name : String) (f : Function) (line : Option Int) : Except Fault Scope :=
  match s.own.functions.get? name with
  | some _ => .error ⟨.duplicateDeclaration name "function", line⟩
  | none => .ok (s.withOwn { s.own with functions := s.own.functions.add name f })

/-- The scope with another value for a variable in the nearest level that declares it, if one does. -/
def assign? : Scope → String → Int → Option Scope
  | [], _, _ => none
  | l :: outer, x, v =>
    match l.locals.get? x with
    | some _ => some ({ l with locals := l.locals.set x v } :: outer)
    | none => (assign? outer x v).map (l :: ·)

def assign (s : Scope) (x : String) (v : Int) (line : Option Int) : Except Fault Scope :=
  match s.assign? x v with
  | some s => .ok s
  | none => .error ⟨.unboundVariable x, line⟩

/-- The scope with an exit value. It can be given only once, and it cannot be empty. -/
def setExit (s : Scope) (value : Option Int) : Except Fault Scope :=
  match s.own.exit, value with
  | some old, _ => .error ⟨.exitRepeated old, none⟩
  | none, none => .error ⟨.exitMissing, none⟩
  | none, some v => .ok (s.withOwn { s.own with exit := some v })

/-- The scope on one line: its depth, the variables and the function names of its own level. -/
def describe (s : Scope) : String :=
  let locals := s.own.locals.map fun p => Text.quote p.1 ++ ": " ++ toString p.2
  let functions := s.own.functions.names.map Text.quote
  "Scope" ++ Text.bracketed "("
    ["depth=" ++ toString s.depth,
      "variables=" ++ Text.bracketed "\x7b" locals "\x7d",
      "functions=" ++ Text.bracketed "[" functions "]"] ")"

@[simp] theorem value?_nil (x : String) : value? [] x = none := rfl

theorem value?_cons (l : Level) (outer : Scope) (x : String) :
    value? (l :: outer) x = (l.locals.get? x <|> value? outer x) := by
  simp only [value?, List.findSome?_cons]
  cases l.locals.get? x <;> rfl

@[simp] theorem function?_nil (f : String) : function? [] f = none := rfl

theorem function?_cons (l : Level) (outer : Scope) (f : String) :
    function? (l :: outer) f = (l.functions.get? f <|> function? outer f) := by
  simp only [function?, List.findSome?_cons]
  cases l.functions.get? f <;> rfl

@[simp] theorem value?_child (s : Scope) (x : String) : s.child.value? x = s.value? x := by
  simp [child, value?_cons]

@[simp] theorem function?_child (s : Scope) (f : String) : s.child.function? f = s.function? f := by
  simp [child, function?_cons]

/-- An assignment is refused exactly if no level declares the variable. -/
theorem assign?_eq_none_iff {s : Scope} {x : String} {v : Int} :
    s.assign? x v = none ↔ s.value? x = none := by
  induction s with
  | nil => simp [assign?]
  | cons l outer ih =>
    rw [assign?, value?_cons]
    cases l.locals.get? x <;> simp [ih]

/-- After an assignment the variable has the new value and every other one its old value. -/
theorem value?_assign? {s t : Scope} {x : String} {v : Int} (h : s.assign? x v = some t) (y : String) :
    t.value? y = if x = y then some v else s.value? y := by
  induction s generalizing t with
  | nil => simp [assign?] at h
  | cons l outer ih =>
    rw [assign?] at h
    split at h
    · next found =>
      cases h
      simp only [value?_cons, Bindings.get?_set, found]
      split <;> simp
    · next missing =>
      obtain ⟨u, hu, rfl⟩ := Option.map_eq_some_iff.1 h
      simp only [value?_cons, ih hu]
      split
      · next e => simp [← e, missing]
      · rfl

end Scope
end CallSite

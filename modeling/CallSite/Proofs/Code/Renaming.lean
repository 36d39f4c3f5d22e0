import CallSite.Eval.Program
import CallSite.Proofs.Scope.Change

/-! Renamings. A renaming gives variables and functions other names, each namespace on its own, and
places constructs on other lines. It tells names apart, leaves the printing function its name, and
may put any number of constructs on one line. Code, scopes and faults are renamed throughout, and
lookups and changes of a renamed scope are those of the scope, renamed. -/

namespace CallSite

structure Renaming where
  vars : String → String
  funs : String → String
  line : Int → Int
  vars_injective : ∀ {x y}, vars x = vars y → x = y
  funs_injective : ∀ {f g}, funs f = funs g → f = g
  funs_print : funs Eval.printName = Eval.printName

/-- Two variables and two functions trade their names, and every construct comes to one line. -/
def Renaming.trade (x y f g : String) (hf : f ≠ Eval.printName) (hg : g ≠ Eval.printName)
    (line : Int) : Renaming where
  vars z := if z = x then y else if z = y then x else z
  funs h := if h = f then g else if h = g then f else h
  line _ := line
  vars_injective := by grind
  funs_injective := by grind
  funs_print := by rw [if_neg hf.symm, if_neg hg.symm]

variable (ρ : Renaming)

theorem Renaming.funs_eq_print_iff {name : String} :
    ρ.funs name = Eval.printName ↔ name = Eval.printName :=
  ⟨fun h => ρ.funs_injective (h.trans ρ.funs_print.symm), fun h => h ▸ ρ.funs_print⟩

namespace Node

mutual

def rename : Node → Node
  | literal v => literal v
  | binary op l r => binary op (rename l) (rename r)
  | reference line x => reference (ρ.line line) (ρ.vars x)
  | call line name args => call (ρ.line line) (ρ.funs name) (renameAll args)
  | block ss => block (renameAll ss)
  | declare line x e => declare (ρ.line line) (ρ.vars x) (rename e)
  | assign line x e => assign (ρ.line line) (ρ.vars x) (rename e)
  | branch c y n => branch (rename c) (rename y) (rename n)
  | loop c b => loop (rename c) (rename b)
  | exit e => exit (rename e)
  | function line name ps b => function (ρ.line line) (ρ.funs name) (ps.map ρ.vars) (rename b)
  | program b => program (rename b)
  | nothing => nothing
  | integer v => integer v
  | text s => text s

def renameAll : List Node → List Node
  | [] => []
  | t :: ts => rename t :: renameAll ts

end

@[simp] theorem renameAll_eq_map (ts : List Node) : renameAll ρ ts = ts.map (rename ρ) := by
  induction ts with
  | nil => rfl
  | cons t ts ih => rw [renameAll, ih, List.map_cons]

@[simp] theorem rename_eq_nothing_iff {t : Node} : t.rename ρ = nothing ↔ t = nothing := by
  cases t <;> simp [rename]

end Node

namespace Function

def rename (f : Function) : Function :=
  ⟨ρ.line f.line, ρ.funs f.name, f.params.map ρ.vars, f.body.rename ρ⟩

@[simp] theorem arity_rename (f : Function) : (f.rename ρ).arity = f.arity := by
  simp [rename, arity]

end Function

namespace Bindings
variable {α β : Type} {g : String → String}

/-- The bindings with other names and other values. -/
def rename (g : String → String) (h : α → β) (b : Bindings α) : Bindings β :=
  b.map fun e => (g e.1, h e.2)

theorem get?_rename (injective : ∀ {x y}, g x = g y → x = y) (h : α → β) (b : Bindings α)
    (x : String) : (b.rename g h).get? (g x) = (b.get? x).map h := by
  induction b with
  | nil => rfl
  | cons e b ih =>
    have same : g e.1 = g x ↔ e.1 = x := ⟨injective, congrArg g⟩
    rw [rename, List.map_cons, get?_cons, get?_cons]
    simp only [same]
    split
    · rfl
    · exact ih

theorem add_rename (g : String → String) (h : α → β) (b : Bindings α) (x : String) (v : α) :
    (b.add x v).rename g h = (b.rename g h).add (g x) (h v) := by
  simp [rename, add]

theorem set_rename (injective : ∀ {x y}, g x = g y → x = y) (h : α → β) (b : Bindings α)
    (x : String) (v : α) : (b.set x v).rename g h = (b.rename g h).set (g x) (h v) := by
  simp only [rename, set, List.map_map]
  refine List.map_congr_left fun e _ => ?_
  have same : g e.1 = g x ↔ e.1 = x := ⟨injective, congrArg g⟩
  by_cases here : e.1 = x <;> simp [same, here]

end Bindings

def Level.rename (l : Level) : Level where
  locals := l.locals.rename ρ.vars id
  functions := l.functions.rename ρ.funs (Function.rename ρ)
  exit := l.exit

theorem Level.get?_locals_rename (l : Level) (x : String) :
    (l.rename ρ).locals.get? (ρ.vars x) = l.locals.get? x := by
  have renamed := Bindings.get?_rename ρ.vars_injective id l.locals x
  rwa [Option.map_id] at renamed

theorem Level.get?_functions_rename (l : Level) (name : String) :
    (l.rename ρ).functions.get? (ρ.funs name) = (l.functions.get? name).map (Function.rename ρ) :=
  Bindings.get?_rename ρ.funs_injective _ l.functions name

namespace Scope

def rename (s : Scope) : Scope := s.map (Level.rename ρ)

@[simp] theorem child_rename (s : Scope) : (s.rename ρ).child = s.child.rename ρ := rfl

@[simp] theorem tail_rename (s : Scope) : (s.rename ρ).tail = rename ρ s.tail := List.map_tail.symm

@[simp] theorem own_rename (s : Scope) : (s.rename ρ).own = s.own.rename ρ := by cases s <;> rfl

theorem withOwn_rename (s : Scope) (l : Level) :
    (s.withOwn l).rename ρ = (s.rename ρ).withOwn (l.rename ρ) := by
  simp [withOwn, rename]

theorem value?_rename (s : Scope) (x : String) : (s.rename ρ).value? (ρ.vars x) = s.value? x := by
  induction s with
  | nil => rfl
  | cons l outer ih =>
    rw [rename, List.map_cons, value?_cons, value?_cons, Level.get?_locals_rename]
    cases l.locals.get? x with
    | none => exact ih
    | some v => rfl

theorem function?_rename (s : Scope) (name : String) :
    (s.rename ρ).function? (ρ.funs name) = (s.function? name).map (Function.rename ρ) := by
  induction s with
  | nil => rfl
  | cons l outer ih =>
    rw [rename, List.map_cons, function?_cons, function?_cons, Level.get?_functions_rename]
    cases l.functions.get? name with
    | none => exact ih
    | some f => rfl

theorem assign?_rename (s : Scope) (x : String) (v : Int) :
    (s.rename ρ).assign? (ρ.vars x) v = (s.assign? x v).map (rename ρ) := by
  induction s with
  | nil => rfl
  | cons l outer ih =>
    rw [rename, List.map_cons, assign?, assign?, Level.get?_locals_rename]
    cases l.locals.get? x with
    | none =>
      have further : assign? (outer.map (Level.rename ρ)) (ρ.vars x) v = _ := ih
      simp only [further, Option.map_map]
      rfl
    | some old =>
      have own := Bindings.set_rename ρ.vars_injective id l.locals x v
      simp only [Option.map_some, rename, List.map_cons, Level.rename, own]
      rfl

end Scope

namespace Cause

/-- The cause with another name in it. What is declared twice tells which namespace it is from. -/
def rename : Cause → Cause
  | unboundVariable x => unboundVariable (ρ.vars x)
  | unboundFunction name => unboundFunction (ρ.funs name)
  | duplicateDeclaration name what =>
    duplicateDeclaration (if what = "variable" then ρ.vars name else ρ.funs name) what
  | arityMismatch name expected actual => arityMismatch (ρ.funs name) expected actual
  | divisionByZero op => divisionByZero op
  | recursionDepthExceeded => recursionDepthExceeded
  | internal message => internal message
  | general message isInternal => general message isInternal

/-- A renamed fault is filed under the same kind. -/
@[simp] theorem kind_rename (c : Cause) : (c.rename ρ).kind = c.kind := by cases c <;> rfl

end Cause

def Fault.rename (f : Fault) : Fault := ⟨f.cause.rename ρ, f.line.map ρ.line⟩

def CallRecord.rename (c : CallRecord) : CallRecord :=
  { c with line := ρ.line c.line, name := ρ.funs c.name }

/-- The state with a renamed scope and renamed calls. The output is the same text. -/
def State.rename (s : State) : State :=
  { s with scope := s.scope.rename ρ, calls := s.calls.map (CallRecord.rename ρ) }

/-- The same value or the renamed fault, with the renamed state. -/
def Result.rename {α : Type} : Result α → Result α
  | done v s => done v (s.rename ρ)
  | failed f s => failed (f.rename ρ) (s.rename ρ)
  | unfinished => unfinished

end CallSite

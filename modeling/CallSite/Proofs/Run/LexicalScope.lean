import CallSite.Proofs.Run.Reached

/-! Lexically scoped programs never miss a name, although a function body runs in the scope of its
call. A function that is stored in a level is scoped by names that this level and the levels
around it bind. A call that finds the function comes from a scope inside that level, where these
names are bound too, if perhaps to something else. -/

namespace CallSite
open Scope (Frame Grown)
variable {vars funs : List String}

namespace Node

mutual

/-- Whether code uses names only where they are declared before, given the names of the variables
and functions that are declared around it. The body of a function knows its parameters and the
function itself. -/
def isScoped (vars funs : List String) : Node → Bool
  | literal _ | nothing | integer _ | text _ => true
  | reference _ x => decide (x ∈ vars)
  | binary _ l r => isScoped vars funs l && isScoped vars funs r
  | call _ name args =>
    (decide (name ∈ funs) || decide (name = Eval.printName)) && areScoped vars funs args
  | declare _ _ init => isScoped vars funs init
  | assign _ x value => decide (x ∈ vars) && isScoped vars funs value
  | branch condition yes no =>
    isScoped vars funs condition && isScoped vars funs yes && isScoped vars funs no
  | loop condition body => isScoped vars funs condition && isScoped vars funs body
  | exit value => isScoped vars funs value
  | function _ name params body => isScoped (params ++ vars) (name :: funs) body
  | block statements => inSequence vars funs statements
  | program body => isScoped vars funs body

def areScoped (vars funs : List String) : List Node → Bool
  | [] => true
  | t :: ts => isScoped vars funs t && areScoped vars funs ts

/-- What a statement declares is known to the statements after it. -/
def inSequence (vars funs : List String) : List Node → Bool
  | [] => true
  | t :: ts =>
    isScoped vars funs t && inSequence (t.newVariables ++ vars) (t.newFunctions.names ++ funs) ts

end

theorem areScoped_iff {ts : List Node} :
    areScoped vars funs ts = true ↔ ∀ t ∈ ts, t.isScoped vars funs = true := by
  induction ts with
  | nil => simp [areScoped]
  | cons t ts ih => simp [areScoped, ih]

/-- The body of a new function knows what is known where it is declared, its parameters and the
function. -/
theorem isScoped_of_mem_newFunctions {t : Node} (h : t.isScoped vars funs = true)
    {e : String × Function} (mem : e ∈ t.newFunctions) :
    e.2.body.isScoped (e.2.params ++ vars) (t.newFunctions.names ++ funs) = true := by
  cases t <;> simp only [newFunctions, List.mem_singleton, List.not_mem_nil] at mem
  subst mem
  exact h

end Node

namespace Scope
variable {A : Set String} {l k : Level} {s t : Scope} {x name : String} {f : Function}

/-- All of the given names have a variable or a function in the scope. -/
structure Binds (vars funs : List String) (s : Scope) : Prop where
  value? : ∀ x ∈ vars, s.value? x ≠ none
  function? : ∀ name ∈ funs, s.function? name ≠ none

namespace Binds

/-- A level inside a scope hides names but loses none. -/
theorem push (h : Binds vars funs s) (l : Level) : Binds vars funs (l :: s) := by
  constructor
  · intro x hx missing
    exact h.value? x hx (value?_eq_none_iff_own.1 missing).2
  · intro name hname missing
    exact h.function? name hname (function?_eq_none_iff_own.1 missing).2

theorem mono {vars' funs' : List String} (h : Binds vars funs s) (subV : vars' ⊆ vars)
    (subF : funs' ⊆ funs) : Binds vars' funs' s :=
  ⟨fun x hx => h.value? x (subV hx), fun name hname => h.function? name (subF hname)⟩

/-- The level of a call binds the parameters on top. -/
theorem call {params : List String} {values : List Int} (h : Binds vars funs s)
    (fits : values.length = params.length) :
    Binds (params ++ vars) funs ({ locals := params.zip values } :: s) := by
  have outer := h.push { locals := params.zip values }
  refine ⟨fun x hx => ?_, outer.function?⟩
  rcases List.mem_append.1 hx with isParam | known
  · intro missing
    have unlisted := (value?_eq_none_iff_own.1 missing).1
    rw [own_cons, Bindings.names, List.map_fst_zip (Nat.le_of_eq fits.symm)] at unlisted
    exact unlisted isParam
  · exact outer.value? x known

theorem frame (h : Binds vars funs s) (changed : s.Frame A t) : Binds vars funs t := by
  constructor
  · intro x hx
    rw [Ne, changed.value?_eq_none_iff]
    exact h.value? x hx
  · intro name hname
    rw [changed.function?_eq]
    exact h.function? name hname

/-- A statement binds what it declares and keeps what is bound. -/
theorem grown {new : List String} {fns : Bindings Function} {r : Option Int} (h : Binds vars funs s)
    (changed : s.Grown A new fns r t) : Binds (new ++ vars) (fns.names ++ funs) t := by
  constructor
  · intro x hx missing
    obtain ⟨own, outer⟩ := value?_eq_none_iff_own.1 missing
    rw [changed.names, List.mem_append, not_or] at own
    rcases List.mem_append.1 hx with isNew | old
    · exact own.2 isNew
    · rw [changed.outer.value?_eq_none_iff] at outer
      exact h.value? x old (value?_eq_none_iff_own.2 ⟨own.1, outer⟩)
  · intro name hname missing
    obtain ⟨own, outer⟩ := function?_eq_none_iff_own.1 missing
    rw [changed.functions, Bindings.names, List.map_append, List.mem_append, not_or] at own
    rcases List.mem_append.1 hname with isNew | old
    · exact own.2 isNew
    · rw [changed.outer.function?_eq] at outer
      exact h.function? name old (function?_eq_none_iff_own.2 ⟨own.1, outer⟩)

end Binds

/-- The body of the function is scoped by its parameters and by names that the scope binds. -/
def Covers (s : Scope) (f : Function) : Prop :=
  ∃ vars funs, Binds vars funs s ∧ f.body.isScoped (f.params ++ vars) funs = true

/-- Every function is covered by the level that stores it and the levels around that one. -/
inductive Covered : Scope → Prop where
  | nil : Covered []
  | cons {l : Level} {s : Scope} (own : ∀ e ∈ l.functions, Covers (l :: s) e.2)
    (outer : Covered s) : Covered (l :: s)

theorem covered_iff_own : s.Covered ↔ (∀ e ∈ s.own.functions, s.Covers e.2) ∧ Covered s.tail := by
  cases s with
  | nil => exact ⟨fun h => ⟨fun e mem => absurd mem List.not_mem_nil, h⟩, fun h => h.2⟩
  | cons l outer =>
    constructor
    · rintro (_ | ⟨own, outer⟩)
      exact ⟨own, outer⟩
    · exact fun h => .cons h.1 h.2

namespace Covered

theorem push (h : s.Covered) (none : l.functions = []) : Covered (l :: s) :=
  .cons (fun _ mem => absurd (none ▸ mem) List.not_mem_nil) h

theorem frame (h : s.Covered) (changed : s.Frame A t) : t.Covered := by
  induction changed with
  | nil => exact h
  | @cons A l k s t own outer ih =>
    obtain ⟨here, further⟩ := covered_iff_own.1 h
    refine .cons (fun e mem => ?_) (ih further)
    obtain ⟨vars, funs, binds, code⟩ := here e (own.functions ▸ mem)
    exact ⟨vars, funs, binds.frame (.cons own outer), code⟩

theorem grown {new : List String} {fns : Bindings Function} {r : Option Int} (h : s.Covered)
    (changed : s.Grown A new fns r t) (covers : ∀ e ∈ fns, t.Covers e.2) : t.Covered := by
  obtain ⟨here, further⟩ := covered_iff_own.1 h
  refine covered_iff_own.2 ⟨fun e mem => ?_, further.frame changed.outer⟩
  rw [changed.functions] at mem
  rcases List.mem_append.1 mem with old | isNew
  · obtain ⟨vars, funs, binds, code⟩ := here e old
    have kept := binds.grown changed
    exact ⟨vars, funs, kept.mono (by simp) (by simp), code⟩
  · exact covers e isNew

/-- The level that stores a function is at or around the scope that finds it, so that scope covers
it too. -/
theorem covers_of_function? (h : s.Covered) (found : s.function? name = some f) : s.Covers f := by
  induction h with
  | nil => cases found
  | @cons l s own outer ih =>
    rw [function?_cons] at found
    cases here : l.functions.get? name with
    | some g =>
      obtain rfl : g = f := by simpa [here] using found
      exact own _ (Bindings.mem_of_get? here)
    | none =>
      obtain ⟨vars, funs, binds, code⟩ := ih (by simpa [here] using found)
      exact ⟨vars, funs, binds.push l, code⟩

end Covered
end Scope

/-- The fault is a missing name. -/
def Fault.isUnbound (f : Fault) : Bool :=
  match f.cause with
  | .unboundVariable _ | .unboundFunction _ => true
  | _ => false

namespace Eval
open Result
open Scope (Binds)
variable {limit : Option Int} {n : Nat} {t : Node} {s u : State}

theorem Runs.isScoped {p q : Position} {v : Node} (h : Runs p t q v)
    (code : t.isScoped vars funs = true) : v.isScoped vars funs = true := by
  cases h with
  | itself => exact code
  | argument mem =>
    rw [Node.isScoped, Bool.and_eq_true, Node.areScoped_iff] at code
    exact code.2 _ mem
  | _ => simp_all [Node.isScoped]

/-- The scope binds names that scope the code, and it covers its functions. A call runs a body that
its own scope covers, whatever was visible where the function was declared. -/
def binding (limit : Option Int) : Invariant limit where
  holds _ t s := ∃ vars funs,
    t.isScoped vars funs = true ∧ Binds vars funs s.scope ∧ s.scope.Covered
  holdsOf ts s := ∃ vars funs,
    Node.inSequence vars funs ts = true ∧ Binds vars funs s.scope ∧ s.scope.Covered
  changed := fun ⟨vars, funs, code, binds, covered⟩ hu =>
    ⟨vars, funs, code, binds.frame hu.scope, covered.frame hu.scope⟩
  inside := fun ⟨vars, funs, code, known⟩ runs => ⟨vars, funs, runs.isScoped code, known⟩
  enters := fun ⟨vars, funs, code, binds, covered⟩ =>
    ⟨vars, funs, code, binds.push {}, covered.push rfl⟩
  first := fun ⟨vars, funs, code, known⟩ => ⟨vars, funs, (Bool.and_eq_true_iff.1 code).1, known⟩
  rest := by
    rintro t ts s u ⟨vars, funs, code, binds, covered⟩ changed
    rw [Node.inSequence, Bool.and_eq_true] at code
    -- a new function's own name is bound by its declaration, so it may call itself
    have binds' := binds.grown changed.scope
    refine ⟨_, _, code.2, binds', covered.grown changed.scope fun e mem => ?_⟩
    exact ⟨vars, _, binds'.mono (by simp) (by simp), Node.isScoped_of_mem_newFunctions code.1 mem⟩
  calls := by
    rintro line name args values f s ⟨_, _, -, -, covered⟩ found fits all -
    obtain ⟨vars, funs, binds, code⟩ := covered.covers_of_function? found
    exact ⟨_, _, code, binds.call (all.trans fits), covered.push rfl⟩

/-- Code whose names are bound raises no missing name. -/
theorem isUnbound_of_raises {p : Position} {f : Fault} (code : t.isScoped vars funs = true)
    (binds : Binds vars funs s.scope) (h : Raises limit s p t f) : f.isUnbound = false := by
  cases h with
  | @reference line x missing =>
    have known : x ∈ vars := by simpa [Node.isScoped] using code
    exact absurd missing (binds.value? x known)
  | @assign line x e missing =>
    simp only [Node.isScoped, Bool.and_eq_true, decide_eq_true_eq] at code
    exact absurd missing (binds.value? x code.1)
  | @unbound line name args missing other =>
    simp only [Node.isScoped, Bool.and_eq_true, Bool.or_eq_true, decide_eq_true_eq] at code
    exact absurd missing (binds.function? name (code.1.resolve_right other))
  | _ => rfl

/-- Runs with an allowance miss no name, if the scope binds the names that scope the code and
covers its functions. -/
structure NeverUnbound (limit : Option Int) (n : Nat) : Prop where
  expression : ∀ vars funs t s, t.isScoped vars funs = true → Binds vars funs s.scope →
    s.scope.Covered → (expression limit n t s).FailsOnly (·.isUnbound = false)
  statement : ∀ vars funs t s, t.isScoped vars funs = true → Binds vars funs s.scope →
    s.scope.Covered → (statement limit n t s).FailsOnly (·.isUnbound = false)
  block : ∀ vars funs t s, t.isScoped vars funs = true → Binds vars funs s.scope →
    s.scope.Covered → (block limit n t s).FailsOnly (·.isUnbound = false)

theorem neverUnbound (limit : Option Int) (n : Nat) : NeverUnbound limit n := by
  have covers := (binding limit).covers n
  have bound : ∀ f, (binding limit).Raised f → f.isUnbound = false :=
    fun f ⟨_, _, _, ⟨_, _, code, binds, _⟩, raises⟩ => isUnbound_of_raises code binds raises
  constructor
  · intro vars funs t s code binds covered
    exact (covers.expression t s ⟨vars, funs, code, binds, covered⟩).failsOnly bound
  · intro vars funs t s code binds covered
    exact (covers.statement t s ⟨vars, funs, code, binds, covered⟩).failsOnly bound
  · intro vars funs t s code binds covered
    exact (covers.block t s ⟨vars, funs, code, binds, covered⟩).failsOnly bound

/-- A program that uses names only where they are declared before fails with no unbound name, in a
run from an empty root scope under any limit. -/
theorem scoped_run_bound (code : (Node.program t).isScoped [] [] = true) (fresh : s.scope = [{}])
    {f : Fault} (failed : program limit n (.program t) s = .failed f u) :
    (∀ x, f.cause ≠ .unboundVariable x) ∧ ∀ name, f.cause ≠ .unboundFunction name := by
  have binds : Binds [] [] s.scope := ⟨nofun, nofun⟩
  have covered : s.scope.Covered := fresh ▸ Scope.Covered.push .nil rfl
  have right := (neverUnbound limit n).block [] [] t s code binds covered
  rw [program] at failed
  have bound := failsOnly_iff.1 right f u failed
  obtain ⟨cause, line⟩ := f
  constructor
  · rintro x rfl
    cases bound
  · rintro name rfl
    cases bound

/-- The call inside the last block finds another function than the one that `g` was declared with,
and that function is covered by the names of its own block. -/
theorem scoped_run_bound_siblings :
    let body : Node := .block [
      .function 1 "f" ["x"] (.block [.exit (.reference 1 "x")]),
      .function 2 "g" [] (.block [.exit (.call 2 "f" [.literal 1])]),
      .branch (.literal 1) (.block [
        .declare 3 "y" .nothing,
        .function 4 "f" ["z"] (.block [.exit (.binary .div (.reference 4 "z") (.reference 4 "y"))]),
        .call 5 "println" [.call 5 "g" []]]) .nothing]
    let s : State := { scope := [{}] }
    let u : State := { s with calls := [⟨2, "f", [1]⟩, ⟨5, "g", []⟩] }
    (Node.program body).isScoped [] [] = true ∧
      program none 20 (.program body) s = .failed ⟨.divisionByZero .div, none⟩ u ∧
      (∀ x, Cause.divisionByZero .div ≠ .unboundVariable x) ∧
      ∀ name, Cause.divisionByZero .div ≠ .unboundFunction name := by
  intro body s u
  have failed : program none 20 (.program body) s = .failed ⟨.divisionByZero .div, none⟩ u := by
    decide +kernel
  have code : (Node.program body).isScoped [] [] = true := by decide +kernel
  exact ⟨code, failed, scoped_run_bound code rfl failed⟩

end Eval
end CallSite

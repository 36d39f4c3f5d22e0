import CallSite.Proofs.Scope.Change
import CallSite.Tree.WellFormed

/-! Properties of code. A property holds everywhere in a tree if everything that the tree contains
has it, nested function bodies included. A scope stores code with a property if it holds
everywhere in the declaration of every function of the scope. All code that a run reaches is part
of the tree that is run or stored in its scope. -/

namespace CallSite
variable {p : Node → Prop}

namespace Node
variable {t u : Node}

/-- Everything that the tree contains has the property. -/
def Everywhere (p : Node → Prop) (t : Node) : Prop := ∀ u, Contains t u → p u

namespace Everywhere

theorem self (h : t.Everywhere p) : p t := h t (.self t)

theorem part (h : t.Everywhere p) (mem : u ∈ t.parts) : u.Everywhere p :=
  fun v inside => h v (.inPart mem inside)

theorem intro (here : p t) (parts : ∀ u ∈ t.parts, u.Everywhere p) : t.Everywhere p := by
  intro u inside
  rcases contains_iff.1 inside with rfl | ⟨q, mem, deeper⟩
  · exact here
  · exact parts q mem u deeper

end Everywhere

mutual

/-- Whether a property holds everywhere in a tree. -/
def all (q : Node → Bool) : Node → Bool
  | literal v => q (literal v)
  | reference line x => q (reference line x)
  | nothing => q nothing
  | integer v => q (integer v)
  | text s => q (text s)
  | binary op l r => q (binary op l r) && all q l && all q r
  | call line f args => q (call line f args) && allOf q args
  | block ss => q (block ss) && allOf q ss
  | declare line x e => q (declare line x e) && all q e
  | assign line x e => q (assign line x e) && all q e
  | branch c y n => q (branch c y n) && all q c && all q y && all q n
  | loop c b => q (loop c b) && all q c && all q b
  | exit e => q (exit e) && all q e
  | function line f ps b => q (function line f ps b) && all q b
  | program b => q (program b) && all q b

def allOf (q : Node → Bool) : List Node → Bool
  | [] => true
  | t :: ts => all q t && allOf q ts

end

@[simp] theorem allOf_iff {q : Node → Bool} (ts : List Node) :
    allOf q ts = true ↔ ∀ t ∈ ts, t.all q = true := by
  induction ts with
  | nil => simp [allOf]
  | cons t ts ih => simp [allOf, ih]

theorem all_iff_parts {q : Node → Bool} :
    t.all q = true ↔ q t = true ∧ ∀ u ∈ t.parts, u.all q = true := by
  cases t <;> simp [all, parts, and_assoc]

theorem all_iff {q : Node → Bool} (t : Node) : t.all q = true ↔ t.Everywhere (q · = true) := by
  constructor
  · intro h u inside
    induction inside with
    | self => exact (all_iff_parts.1 h).1
    | inPart part _ ih => exact ih ((all_iff_parts.1 h).2 _ part)
  · intro h
    have here := h.self
    exact all_iff_parts.2 ⟨here, fun u mem => (all_iff u).2 (h.part mem)⟩
termination_by sizeOf t
decreasing_by exact sizeOf_lt_of_mem_parts mem

instance [DecidablePred p] : Decidable (t.Everywhere p) :=
  decidable_of_iff (t.all fun u => decide (p u)) (by simp only [all_iff, decide_eq_true_eq])

theorem everywhere_fits (h : t.isWellFormed = true) : t.Everywhere (fits · = true) :=
  fun _ inside => (isWellFormed_iff.1 (isWellFormed_of_contains h inside)).1

/-- The names of the variables that a statement adds to its scope. -/
def newVariables : Node → List String
  | declare _ x _ => [x]
  | _ => []

/-- The functions that a statement adds to its scope. -/
def newFunctions : Node → Bindings Function
  | function line name params body => [(name, ⟨line, name, params, body⟩)]
  | _ => []

theorem declaration_of_mem_newFunctions {e : String × Function} (h : e ∈ t.newFunctions) :
    e.2.declaration = t ∧ e.2.name = e.1 := by
  cases t <;> simp only [newFunctions, List.mem_singleton, List.not_mem_nil] at h
  subst h
  exact ⟨rfl, rfl⟩

end Node

theorem Bindings.mem_of_get? {α : Type} {b : Bindings α} {x : String} {v : α}
    (h : b.get? x = some v) : (x, v) ∈ b := by
  obtain ⟨e, found, rfl⟩ := Option.map_eq_some_iff.1 h
  have name : e.1 = x := by simpa using List.find?_some found
  exact name ▸ List.mem_of_find?_eq_some found

namespace Scope
variable {s : Scope} {l : Level} {name : String} {f : Function} {q : String × Function → Prop}

/-- Every function of a scope has the property, together with the name that it is stored under. -/
def EveryFunction (q : String × Function → Prop) (s : Scope) : Prop :=
  ∀ l ∈ s, ∀ e ∈ l.functions, q e

theorem everyFunction_cons :
    EveryFunction q (l :: s) ↔ (∀ e ∈ l.functions, q e) ∧ EveryFunction q s :=
  List.forall_mem_cons

theorem everyFunction_iff_own :
    s.EveryFunction q ↔ (∀ e ∈ s.own.functions, q e) ∧ EveryFunction q s.tail := by
  cases s with
  | nil => exact ⟨fun h => ⟨fun e mem => absurd mem List.not_mem_nil, h⟩, fun h => h.2⟩
  | cons l outer => exact everyFunction_cons

namespace EveryFunction

/-- A level without functions adds none. -/
theorem push (h : s.EveryFunction q) (none : l.functions = []) : EveryFunction q (l :: s) :=
  everyFunction_cons.2 ⟨by simp [none], h⟩

/-- A function that a lookup finds is stored under the name that was looked up. -/
theorem of_function? (h : s.EveryFunction q) (found : s.function? name = some f) : q (name, f) := by
  obtain ⟨l, mem, here⟩ := List.exists_of_findSome?_eq_some found
  exact h l mem _ (Bindings.mem_of_get? here)

end EveryFunction

/-- The property holds everywhere in the declarations of the functions of a scope. -/
def Stores (p : Node → Prop) (s : Scope) : Prop :=
  ∀ l ∈ s, ∀ e ∈ l.functions, e.2.declaration.Everywhere p

instance [DecidablePred p] : Decidable (s.Stores p) :=
  inferInstanceAs (Decidable (∀ l ∈ s, ∀ e ∈ l.functions, e.2.declaration.Everywhere p))

theorem stores_iff_everyFunction :
    s.Stores p ↔ s.EveryFunction fun e => e.2.declaration.Everywhere p := Iff.rfl

theorem stores_iff_own :
    s.Stores p ↔ (∀ e ∈ s.own.functions, e.2.declaration.Everywhere p) ∧ Stores p s.tail :=
  everyFunction_iff_own

namespace Stores

/-- A level without functions stores no code. -/
theorem push (h : s.Stores p) (none : l.functions = []) : Stores p (l :: s) :=
  EveryFunction.push h none

theorem declaration_of_function? (h : s.Stores p) (found : s.function? name = some f) :
    f.declaration.Everywhere p :=
  (stores_iff_everyFunction.1 h).of_function? found

theorem body_of_function? (h : s.Stores p) (found : s.function? name = some f) :
    f.body.Everywhere p :=
  (h.declaration_of_function? found).part List.mem_cons_self

end Stores
end Scope
end CallSite

/-! Names bound to values, in the order in which they were first bound. Binding a new name puts it last, and
giving a bound name another value leaves it where it is. -/

namespace CallSite

abbrev Bindings (α : Type) := List (String × α)

namespace Bindings
variable {α : Type}

def get? (b : Bindings α) (x : String) : Option α := (b.find? fun p => p.1 = x).map Prod.snd

def names (b : Bindings α) : List String := b.map Prod.fst

/-- The bindings with a further name at the end. -/
def add (b : Bindings α) (x : String) (v : α) : Bindings α := b ++ [(x, v)]

/-- The bindings with another value for a bound name. -/
def set (b : Bindings α) (x : String) (v : α) : Bindings α :=
  b.map fun p => if p.1 = x then (x, v) else p

@[simp] theorem get?_nil (x : String) : get? ([] : Bindings α) x = none := rfl

theorem get?_cons (p : String × α) (b : Bindings α) (x : String) :
    get? (p :: b) x = if p.1 = x then some p.2 else get? b x := by
  by_cases h : p.1 = x <;> simp [get?, h]

/-- A name has a value exactly if it is listed. -/
theorem get?_eq_none_iff {b : Bindings α} {x : String} : get? b x = none ↔ x ∉ names b := by
  simp only [get?, names, Option.map_eq_none_iff, List.find?_eq_none, List.mem_map]
  exact ⟨fun h ⟨p, mem, e⟩ => h p mem (by simpa using e),
    fun h p mem e => h ⟨p, mem, by simpa using e⟩⟩

theorem isSome_get?_iff {b : Bindings α} {x : String} : (get? b x).isSome ↔ x ∈ names b := by
  rw [← Option.ne_none_iff_isSome, Ne, get?_eq_none_iff, Decidable.not_not]

/-- A new name is looked up under its own name only. -/
theorem get?_add {b : Bindings α} {x : String} (fresh : get? b x = none) (v : α) (y : String) :
    get? (add b x v) y = if x = y then some v else get? b y := by
  induction b with
  | nil => simp [add, get?_cons]
  | cons p b ih =>
    rw [get?_cons] at fresh
    split at fresh
    · simp at fresh
    · next hp =>
      have := ih fresh
      simp only [add, List.cons_append, get?_cons] at this ⊢
      by_cases h : p.1 = y
      · simp [h, show x ≠ y from fun e => hp (h.trans e.symm)]
      · simp [h, this]

/-- A changed value is seen under its own name only, and no name is added. -/
theorem get?_set (b : Bindings α) (x : String) (v : α) (y : String) :
    get? (set b x v) y = if x = y then (get? b x).map fun _ => v else get? b y := by
  induction b with
  | nil => simp [set]
  | cons p b ih =>
    simp only [set, List.map_cons, get?_cons] at ih ⊢
    by_cases hx : p.1 = x <;> by_cases hy : p.1 = y <;> by_cases hxy : x = y <;> simp_all

@[simp] theorem names_cons (p : String × α) (b : Bindings α) : names (p :: b) = p.1 :: names b := rfl

@[simp] theorem names_add (b : Bindings α) (x : String) (v : α) : names (add b x v) = names b ++ [x] := by
  simp [names, add]

@[simp] theorem names_set (b : Bindings α) (x : String) (v : α) : names (set b x v) = names b := by
  simp only [names, set, List.map_map]
  refine List.map_congr_left fun p _ => ?_
  by_cases h : p.1 = x <;> simp [h]

end Bindings
end CallSite

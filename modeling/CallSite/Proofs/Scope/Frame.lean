import CallSite.Proofs.Code.Everywhere
import Mathlib.Data.Set.Defs

/-! What a run may leave different in the scope that it runs in. A frame keeps every level's
functions, exit value and variable names; a variable's value may change in the nearest level that
declares it only, and only if the variable is one of those that the run may assign. -/

namespace CallSite
variable {A B : Set String} {l k : Level} {s t u : Scope} {x name : String} {v : Int}

/-- The second level differs from the first one in values of the given variables at most. -/
structure Level.Frame (A : Set String) (l k : Level) : Prop where
  functions : k.functions = l.functions
  exit : k.exit = l.exit
  names : k.locals.names = l.locals.names
  locals : ∀ x ∉ A, k.locals.get? x = l.locals.get? x

namespace Level.Frame

theorem refl (A : Set String) (l : Level) : l.Frame A l := ⟨rfl, rfl, rfl, fun _ _ => rfl⟩

theorem trans {m : Level} (h : l.Frame A k) (h' : k.Frame A m) : l.Frame A m :=
  ⟨h'.functions.trans h.functions, h'.exit.trans h.exit, h'.names.trans h.names,
    fun x hx => (h'.locals x hx).trans (h.locals x hx)⟩

theorem mono (h : l.Frame A k) (sub : ∀ x ∈ A, x ∈ B) : l.Frame B k :=
  ⟨h.functions, h.exit, h.names, fun x hx => h.locals x fun mem => hx (sub x mem)⟩

theorem set (l : Level) (hx : x ∈ A) (v : Int) :
    l.Frame A { l with locals := l.locals.set x v } := by
  refine ⟨rfl, rfl, Bindings.names_set _ _ _, fun y hy => ?_⟩
  have other : x ≠ y := fun same => hy (same ▸ hx)
  simp [Bindings.get?_set, other]

/-- A frame declares the same variables. -/
theorem get?_eq_none_iff (h : l.Frame A k) : k.locals.get? x = none ↔ l.locals.get? x = none := by
  rw [Bindings.get?_eq_none_iff, Bindings.get?_eq_none_iff, h.names]

end Level.Frame

namespace Scope

/-- The variables of a set that a level does not hide from the levels around it. -/
def unhidden (A : Set String) (l : Level) : Set String := {x | x ∈ A ∧ x ∉ l.locals.names}

/-- The second scope differs from the first one in values of the given variables at most, and in
the value of each in the nearest level that declares it. -/
inductive Frame : Set String → Scope → Scope → Prop where
  | nil {A : Set String} : Frame A [] []
  | cons {A : Set String} {l k : Level} {s t : Scope} (own : l.Frame A k)
      (outer : Frame (unhidden A l) s t) : Frame A (l :: s) (k :: t)

namespace Frame

theorem refl (A : Set String) (s : Scope) : s.Frame A s := by
  induction s generalizing A with
  | nil => exact .nil
  | cons l s ih => exact .cons (.refl A l) (ih _)

theorem trans (h : s.Frame A t) (h' : t.Frame A u) : s.Frame A u := by
  induction h generalizing u with
  | nil => exact h'
  | cons own outer ih =>
    cases h' with
    | cons own' outer' =>
      refine .cons (own.trans own') (ih ?_)
      rwa [unhidden, own.names] at outer'

theorem mono (h : s.Frame A t) (sub : ∀ x ∈ A, x ∈ B) : s.Frame B t := by
  induction h generalizing B with
  | nil => exact .nil
  | cons own outer ih => exact .cons (own.mono sub) (ih fun x hx => ⟨sub x hx.1, hx.2⟩)

theorem own (h : s.Frame A t) : s.own.Frame A t.own := by
  cases h with
  | nil => exact .refl A _
  | cons own outer => exact own

theorem tail (h : s.Frame A t) : Frame A s.tail t.tail := by
  cases h with
  | nil => exact .nil
  | cons own outer => exact outer.mono fun _ hx => hx.1

theorem length_eq (h : s.Frame A t) : t.length = s.length := by
  induction h with
  | nil => rfl
  | cons own outer ih => simp [ih]

/-- A frame seen level by level: where a variable's value differs, it may be assigned and no
nearer level declares it. -/
theorem getElem? (h : s.Frame A t) {i : Nat} (hl : s[i]? = some l) :
    ∃ k, t[i]? = some k ∧ l.Frame A k ∧ ∀ x, k.locals.get? x ≠ l.locals.get? x →
      ∀ j < i, ∀ m, s[j]? = some m → x ∉ m.locals.names := by
  induction h generalizing i with
  | nil => simp at hl
  | @cons A l₀ k₀ s₀ t₀ own outer ih =>
    cases i with
    | zero =>
      obtain rfl : l₀ = l := by simpa using hl
      exact ⟨k₀, rfl, own, fun x _ j hj => absurd hj (Nat.not_lt_zero j)⟩
    | succ i =>
      obtain ⟨k, hk, frame, hidden⟩ := ih (i := i) (by simpa using hl)
      refine ⟨k, by simpa using hk, frame.mono fun _ hx => hx.1, fun x changed j hj m hm => ?_⟩
      cases j with
      | zero =>
        obtain rfl : l₀ = m := by simpa using hm
        intro declared
        exact changed (frame.locals x fun free => free.2 declared)
      | succ j => exact hidden x changed j (by omega) m (by simpa using hm)

theorem everyFunction_iff {q : String × Function → Prop} (h : s.Frame A t) :
    t.EveryFunction q ↔ s.EveryFunction q := by
  induction h with
  | nil => rfl
  | cons own outer ih => rw [everyFunction_cons, everyFunction_cons, own.functions, ih]

theorem stores_iff {p : Node → Prop} (h : s.Frame A t) : t.Stores p ↔ s.Stores p :=
  h.everyFunction_iff

theorem function?_eq (h : s.Frame A t) (name : String) : t.function? name = s.function? name := by
  induction h with
  | nil => rfl
  | cons own outer ih => rw [function?_cons, function?_cons, own.functions, ih]

theorem value?_eq_none_iff (h : s.Frame A t) : t.value? x = none ↔ s.value? x = none := by
  induction h with
  | nil => rfl
  | cons own outer ih =>
    simp only [value?_cons, Option.orElse_eq_orElse, Option.orElse_eq_or, Option.or_eq_none_iff, ih,
      own.get?_eq_none_iff]

end Frame

/-- An assignment changes the value of its variable in the nearest level that declares it. -/
theorem frame_of_assign? (h : s.assign? x v = some t) (hx : x ∈ A) : s.Frame A t := by
  induction s generalizing t A with
  | nil => simp [assign?] at h
  | cons l outer ih =>
    rw [assign?] at h
    split at h
    · cases h
      exact .cons (.set l hx v) (.refl _ _)
    · next missing =>
      obtain ⟨u, hu, rfl⟩ := Option.map_eq_some_iff.1 h
      exact .cons (.refl A l) (ih hu ⟨hx, Bindings.get?_eq_none_iff.1 missing⟩)

/-- The levels around the second scope's own level are a frame of the first scope. -/
def Entered (A : Set String) (s t : Scope) : Prop := s.Frame A t.tail

/-- What a statement may leave different in its scope: a frame around the own level, and in the own
level values, the given new variables and functions, and the given exit value, if it had none. -/
structure Grown (A : Set String) (vars : List String) (fns : Bindings Function) (r : Option Int)
    (s t : Scope) : Prop where
  outer : Frame A s.tail t.tail
  names : t.own.locals.names = s.own.locals.names ++ vars
  functions : t.own.functions = s.own.functions ++ fns
  exit : t.own.exit = (s.own.exit <|> r)
  free : r.isSome → s.own.exit = none

theorem Frame.grown (h : s.Frame A t) : s.Grown A [] [] none t :=
  ⟨h.tail, by simp [h.own.names], by simp [h.own.functions], by simp [h.own.exit], nofun⟩

theorem Frame.trans_grown {vars : List String} {fns : Bindings Function} {r : Option Int}
    (h : s.Frame A t) (h' : t.Grown A vars fns r u) : s.Grown A vars fns r u :=
  ⟨h.tail.trans h'.outer, h.own.names ▸ h'.names, h.own.functions ▸ h'.functions,
    h.own.exit ▸ h'.exit, h.own.exit ▸ h'.free⟩

theorem grown_addVariable (A : Set String) (s : Scope) (x : String) (v : Int) :
    s.Grown A [x] [] none (s.withOwn { s.own with locals := s.own.locals.add x v }) :=
  ⟨.refl A _, by simp, by simp, by simp, nofun⟩

theorem grown_addFunction (A : Set String) (s : Scope) (name : String) (f : Function) :
    s.Grown A [] [(name, f)] none
      (s.withOwn { s.own with functions := s.own.functions.add name f }) :=
  ⟨.refl A _, by simp, rfl, by simp, nofun⟩

theorem grown_setExit (A : Set String) (free : s.own.exit = none) (v : Int) :
    s.Grown A [] [] (some v) (s.withOwn { s.own with exit := some v }) :=
  ⟨.refl A _, by simp, by simp, by simp [free], fun _ => free⟩

theorem Grown.everyFunction {q : String × Function → Prop} {vars : List String}
    {fns : Bindings Function} {r : Option Int} (h : s.Grown A vars fns r t)
    (new : ∀ e ∈ fns, q e) (hs : s.EveryFunction q) : t.EveryFunction q := by
  rw [everyFunction_iff_own] at hs ⊢
  refine ⟨?_, h.outer.everyFunction_iff.2 hs.2⟩
  rw [h.functions, List.forall_mem_append]
  exact ⟨hs.1, new⟩

theorem Grown.stores {p : Node → Prop} {vars : List String} {fns : Bindings Function}
    {r : Option Int} (h : s.Grown A vars fns r t) (new : ∀ e ∈ fns, e.2.declaration.Everywhere p)
    (hs : s.Stores p) : t.Stores p :=
  h.everyFunction new hs

end Scope
end CallSite

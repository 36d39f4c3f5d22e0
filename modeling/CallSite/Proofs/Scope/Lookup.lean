import CallSite.Proofs.Scope.Operations

/-! Lookups after a change of a tree of scopes. A scope sees what is assigned or declared in one of
its levels unless a nearer level hides it; so an assignment is seen by the scopes that have the same
owner for the variable, a declaration by those that find no nearer one. All other lookups, and all
lookups in the other namespace, answer as before. -/

namespace CallSite.ScopeTree
variable {t : ScopeTree} {i k : Nat} {x : String}

/-- The level is one of the scope's, and no nearer one binds the name. -/
def Unhidden (t : ScopeTree) (kind : Namespace) (name : String) (i k : Nat) : Prop :=
  k ∈ t.chain i ∧ ∀ j ∈ (t.chain i).takeWhile (· ≠ k), name ∉ (t.level j).names kind

instance (t : ScopeTree) (kind : Namespace) (name : String) (i k : Nat) :
    Decidable (t.Unhidden kind name i k) :=
  inferInstanceAs (Decidable (_ ∧ _))

/-- A name that is new in one level is found there, where no level before it binds the name. -/
theorem findSome?_add {α : Type} {old : Nat → Bindings α} (new : Nat → Bindings α) {v : α}
    (fresh : x ∉ (old k).names) (added : new k = (old k).add x v)
    (others : ∀ j, k ≠ j → new j = old j) (ks : List Nat) (y : String) :
    ks.findSome? (fun j => (new j).get? y) =
      if y = x ∧ k ∈ ks ∧ ∀ j ∈ ks.takeWhile (· ≠ k), x ∉ (old j).names then some v
      else ks.findSome? fun j => (old j).get? y := by
  induction ks with
  | nil => simp
  | cons j ks ih =>
    rw [List.findSome?_cons, List.findSome?_cons, ih]
    by_cases here : k = j
    · subst here
      rw [added, Bindings.get?_add (Bindings.get?_eq_none_iff.2 fresh)]
      by_cases same : y = x
      · simp [same]
      · simp [same, Ne.symm same]
    · rw [others j here]
      by_cases same : y = x
      · subst same
        cases found : (old j).get? y with
        | some w =>
          have binds : y ∈ (old j).names := by
            rw [← Bindings.isSome_get?_iff, found, Option.isSome_some]
          simp [Ne.symm here, binds]
        | none => simp [here, Ne.symm here, Bindings.get?_eq_none_iff.1 found]
      · simp [same]

section Changed
variable {l : Level}

/-- Lookups ask for nothing but the namespace that they are in. -/
theorem value?_setLevel_of_locals (known : k < t.entries.length)
    (same : l.locals = (t.level k).locals) (j : Nat) (y : String) :
    ((t.setLevel k l).scope j).value? y = (t.scope j).value? y := by
  rw [value?_eq_findSome, value?_eq_findSome, chain_setLevel]
  congr 1
  funext m
  rw [level_setLevel known]
  split
  · next here => rw [same, here]
  · rfl

theorem function?_setLevel_of_functions (known : k < t.entries.length)
    (same : l.functions = (t.level k).functions) (j : Nat) (y : String) :
    ((t.setLevel k l).scope j).function? y = (t.scope j).function? y := by
  rw [function?_eq_findSome, function?_eq_findSome, chain_setLevel]
  congr 1
  funext m
  rw [level_setLevel known]
  split
  · next here => rw [same, here]
  · rfl

/-- A new variable is seen by the scopes that have its level and no nearer one with the name. -/
theorem value?_setLevel_add (known : i < t.entries.length) (fresh : x ∉ (t.level i).locals.names)
    {v : Int} (added : l.locals = (t.level i).locals.add x v) (j : Nat) (y : String) :
    ((t.setLevel i l).scope j).value? y =
      if y = x ∧ t.Unhidden .locals x j i then some v else (t.scope j).value? y := by
  rw [value?_eq_findSome, value?_eq_findSome, chain_setLevel]
  apply findSome?_add (fun k => ((t.setLevel i l).level k).locals) fresh
  · rw [level_setLevel known, if_pos rfl, added]
  · intro m other
    rw [level_setLevel_of_ne other]

theorem function?_setLevel_add {name : String} (known : i < t.entries.length)
    (fresh : name ∉ (t.level i).functions.names) {f : Function}
    (added : l.functions = (t.level i).functions.add name f) (j : Nat) (y : String) :
    ((t.setLevel i l).scope j).function? y =
      if y = name ∧ t.Unhidden .functions name j i then some f else (t.scope j).function? y := by
  rw [function?_eq_findSome, function?_eq_findSome, chain_setLevel]
  apply findSome?_add (fun k => ((t.setLevel i l).level k).functions) fresh
  · rw [level_setLevel known, if_pos rfl, added]
  · intro m other
    rw [level_setLevel_of_ne other]

/-- A change of a value leaves every name with its owner. -/
theorem owner?_setLevel_set (known : k < t.entries.length) {v : Int}
    (set : l.locals = (t.level k).locals.set x v) (j : Nat) (y : String) :
    (t.setLevel k l).owner? .locals j y = t.owner? .locals j y := by
  rw [owner?, owner?, chain_setLevel]
  congr 1
  funext m
  apply decide_eq_decide.2
  rw [level_setLevel known]
  split
  · next here => simp [Level.names, set, here]
  · rfl

/-- A new value is seen by the scopes that have the level as owner of the variable. -/
theorem value?_setLevel_set (known : k < t.entries.length) (here : x ∈ (t.level k).locals.names)
    {v : Int} (set : l.locals = (t.level k).locals.set x v) (j : Nat) (y : String) :
    ((t.setLevel k l).scope j).value? y =
      if y = x ∧ t.owner? .locals j x = some k then some v else (t.scope j).value? y := by
  obtain ⟨old, bound⟩ := Option.isSome_iff_exists.1 (Bindings.isSome_get?_iff.2 here)
  rw [value?_eq_owner, value?_eq_owner, owner?_setLevel_set known set]
  cases owned : t.owner? .locals j y with
  | none =>
    have other : ¬(y = x ∧ t.owner? .locals j x = some k) := by
      rintro ⟨rfl, owns⟩
      rw [owned] at owns
      cases owns
    rw [if_neg other, Option.bind_none, Option.bind_none]
  | some m =>
    rw [Option.bind_some, Option.bind_some, level_setLevel known]
    by_cases same : y = x
    · subst same
      by_cases owner : k = m
      · subst owner
        simp [owned, set, Bindings.get?_set, bound]
      · simp [owned, owner, Ne.symm owner]
    · rw [if_neg (show ¬(y = x ∧ t.owner? .locals j x = some k) from fun both => same both.1)]
      split
      · next owner => rw [set, Bindings.get?_set, if_neg (Ne.symm same), owner]
      · rfl

end Changed

/-- In a tree that operations on its scopes have led to, an assignment is refused exactly if the
variable has no value, and otherwise gives it the new value in the scopes where the variable has the
same owner. A declaration is refused exactly if its own scope declares the name already, and
otherwise gives the name its meaning in the scopes that see the level unhidden. No other lookup
changes, and none in the other namespace. -/
theorem lookups_after_change {printed : String} {ops : List Operation} {calls : List Call}
    (grown : serveAll ops { printed } = some (calls, t)) (known : i < t.entries.length)
    (line : Option Int) :
    (∀ x v,
      (t.assign i x v line = .error ⟨.unboundVariable x, line⟩ ↔ (t.scope i).value? x = none) ∧
      ((t.scope i).value? x ≠ none → ∃ u, t.assign i x v line = .ok u ∧
        (∀ j y, (u.scope j).value? y =
          if y = x ∧ t.owner? .locals j x = t.owner? .locals i x then some v
          else (t.scope j).value? y) ∧
        ∀ j y, (u.scope j).function? y = (t.scope j).function? y)) ∧
    (∀ x v,
      (t.declareVariable i x v line = .error ⟨.duplicateDeclaration x "variable", line⟩ ↔
        x ∈ (t.level i).locals.names) ∧
      (x ∉ (t.level i).locals.names → ∃ u, t.declareVariable i x v line = .ok u ∧
        (∀ j y, (u.scope j).value? y =
          if y = x ∧ t.Unhidden .locals x j i then some v else (t.scope j).value? y) ∧
        ∀ j y, (u.scope j).function? y = (t.scope j).function? y)) ∧
    ∀ name f,
      (t.declareFunction i name f line = .error ⟨.duplicateDeclaration name "function", line⟩ ↔
        name ∈ (t.level i).functions.names) ∧
      (name ∉ (t.level i).functions.names → ∃ u, t.declareFunction i name f line = .ok u ∧
        (∀ j y, (u.scope j).function? y =
          if y = name ∧ t.Unhidden .functions name j i then some f
          else (t.scope j).function? y) ∧
        ∀ j y, (u.scope j).value? y = (t.scope j).value? y) := by
  have linked : t.Linked := (linked_root printed).serveAll grown
  refine ⟨fun x v => ?_, fun x v => ?_, fun name f => ?_⟩
  · rw [assign_eq linked, value?_eq_owner]
    cases owned : t.owner? .locals i x with
    | none => simp
    | some k =>
      have here : x ∈ (t.level k).locals.names := mem_names_of_owner owned
      have exists_k : k < t.entries.length := linked.lt_of_mem_chain (mem_chain_of_owner owned)
      have bound : (t.level k).locals.get? x ≠ none := fun missing =>
        Bindings.get?_eq_none_iff.1 missing here
      refine ⟨by simpa using bound, fun _ => ⟨_, rfl, ?_, ?_⟩⟩
      · exact value?_setLevel_set exists_k here rfl
      · exact function?_setLevel_of_functions exists_k rfl
  · rw [declareVariable_eq linked known]
    refine ⟨by simp, fun fresh => ⟨_, if_neg fresh, ?_, ?_⟩⟩
    · exact value?_setLevel_add known fresh rfl
    · exact function?_setLevel_of_functions known rfl
  · rw [declareFunction_eq linked known]
    refine ⟨by simp, fun fresh => ⟨_, if_neg fresh, ?_, ?_⟩⟩
    · exact function?_setLevel_add known fresh rfl
    · exact value?_setLevel_of_locals known rfl

/-- A scope inside one that shadows `x`, and a sibling that does not see the shadowing: the
assignment reaches the inner two, and a declaration in the root reaches the sibling and not the
scope that has a nearer one. -/
theorem lookups_after_change_shadowed :
    let ops : List Operation := [.declareVariable 0 "x" 1 none, .child 0, .child 1, .child 0,
      .declareVariable 1 "x" 2 none, .declareVariable 1 "x" 9 (some 4),
      .declareVariable 2 "y" 3 none]
    let calls : List Call := ops.map fun op =>
      ⟨op, if op = .declareVariable 1 "x" 9 (some 4) then
        some ⟨.duplicateDeclaration "x" "variable", some 4⟩ else none⟩
    let t : ScopeTree := ⟨[({ locals := [("x", 1)] }, []), ({ locals := [("x", 2)] }, [0]),
      ({ locals := [("y", 3)] }, [1, 0]), ({}, [0])], ""⟩
    serveAll ops { printed := "" } = some (calls, t) ∧
      (∃ u, t.assign 2 "x" 5 none = .ok u ∧ (u.scope 1).value? "x" = some 5 ∧
        (u.scope 3).value? "x" = some 1) ∧
      ∃ u, t.declareVariable 0 "y" 7 none = .ok u ∧ (u.scope 3).value? "y" = some 7 ∧
        (u.scope 2).value? "y" = some 3 := by
  intro ops calls t
  have grown : serveAll ops { printed := "" } = some (calls, t) := by decide +kernel
  obtain ⟨-, assigned⟩ := (lookups_after_change grown (i := 2) (by decide) none).1 "x" 5
  obtain ⟨u, done, sees, -⟩ := assigned (by decide)
  obtain ⟨-, declared⟩ := (lookups_after_change grown (i := 0) (by decide) none).2.1 "y" 7
  obtain ⟨w, added, sees', -⟩ := declared (by decide)
  refine ⟨grown, ⟨u, done, ?_, ?_⟩, w, added, ?_, ?_⟩
  · rw [sees]
    decide
  · rw [sees]
    decide
  · rw [sees']
    decide
  · rw [sees']
    decide

end CallSite.ScopeTree

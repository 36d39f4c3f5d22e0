import CallSite.Proofs.Logic.Postcondition
import CallSite.Proofs.Scope.Frame

/-! What a run changes. An expression or a block leaves a frame of the scope that it started in,
however it ends; a statement also adds what it declares to its own level, and its exit value.
Every run gives back the active calls that it made and prints whole lines. -/

namespace CallSite
open Scope (Frame Entered Grown)
variable {A : Set String}

namespace Node

/-- The tree contains an assignment to the variable. -/
def Assigns (t : Node) (x : String) : Prop := ∃ line value, Contains t (.assign line x value)

/-- The tree is no assignment to a variable outside the set. -/
def assignsOnly (A : Set String) : Node → Prop
  | assign _ x _ => x ∈ A
  | _ => True

theorem assigns_declaration_iff {f : Function} {x : String} :
    f.declaration.Assigns x ↔ f.body.Assigns x := by
  simp only [Assigns, Function.declaration, contains_iff (t := .function ..), reduceCtorEq,
    false_or, parts, List.mem_singleton, exists_eq_left]

theorem everywhere_assignsOnly_iff {t : Node} :
    t.Everywhere (assignsOnly A) ↔ ∀ x, t.Assigns x → x ∈ A := by
  constructor
  · rintro h x ⟨line, value, inside⟩
    exact h _ inside
  · intro h u inside
    cases u with
    | assign line x value => exact h x ⟨line, value, inside⟩
    | _ => trivial

end Node

/-- A change of the state that changes its scope in the given way, gives back the active calls and
prints whole lines. -/
structure State.Changed (R : Scope → Scope → Prop) (s u : State) : Prop where
  scope : R s.scope u.scope
  active : u.active = s.active
  printed : ∃ lines : List (List Int),
    u.printed = s.printed ++ String.join (lines.map Text.printedLine)

namespace State.Changed
variable {R R' R'' : Scope → Scope → Prop} {s t u : State}

theorem of_scope {scope : Scope} (h : R s.scope scope) : s.Changed R { s with scope } :=
  ⟨h, rfl, [], by simp⟩

theorem refl (s : State) : s.Changed (Frame A) s := of_scope (.refl A s.scope)

theorem comp (h : s.Changed R t) (k : t.Changed R' u) (both : R'' s.scope u.scope) :
    s.Changed R'' u := by
  obtain ⟨lines, printed⟩ := h.printed
  obtain ⟨more, printed'⟩ := k.printed
  refine ⟨both, k.active.trans h.active, lines ++ more, ?_⟩
  rw [printed', printed, List.map_append, String.join_append, String.append_assoc]

theorem trans (h : s.Changed (Frame A) t) (k : t.Changed (Frame A) u) : s.Changed (Frame A) u :=
  h.comp k (h.scope.trans k.scope)

theorem trans_grown {vars : List String} {fns : Bindings Function} {r : Option Int}
    (h : s.Changed (Frame A) t) (k : t.Changed (Grown A vars fns r) u) :
    s.Changed (Grown A vars fns r) u :=
  h.comp k (h.scope.trans_grown k.scope)

theorem grown (h : s.Changed (Frame A) t) : s.Changed (Grown A [] [] none) t :=
  ⟨h.scope.grown, h.active, h.printed⟩

theorem print (h : s.Changed R t) (values : List Int) :
    s.Changed R { t with printed := t.printed ++ Text.printedLine values } := by
  obtain ⟨lines, printed⟩ := h.printed
  refine ⟨h.scope, h.active, lines ++ [values], ?_⟩
  rw [List.map_append, String.join_append, ← String.append_assoc, ← printed]
  simp

theorem enter (s : State) : s.Changed (Entered A) { s with scope := s.scope.child } :=
  of_scope (.refl A s.scope)

/-- A statement of a block may change the block's own level in any way. -/
theorem trans_inside {vars : List String} {fns : Bindings Function} {r : Option Int}
    (h : s.Changed (Entered A) t) (k : t.Changed (Grown A vars fns r) u) :
    s.Changed (Entered A) u :=
  h.comp k (Frame.trans h.scope k.scope.outer)

theorem leave_block (h : s.Changed (Entered A) t) :
    s.Changed (Frame A) { t with scope := t.scope.tail } :=
  ⟨h.scope, h.active, h.printed⟩

/-- A call leaves the level of its parameters and is no longer active. -/
theorem leave_call {l : Level}
    (h : State.Changed (Frame A) { s with scope := l :: s.scope, active := s.active + 1 } t) :
    s.Changed (Frame A) { t with scope := t.scope.tail, active := t.active - 1 } :=
  ⟨h.scope.tail, by simp [h.active], h.printed⟩

end State.Changed

namespace Eval
open Result
variable {limit : Option Int} {n : Nat} {t : Node} {s u : State}

/-- The changes that runs with an allowance make, if the code that they reach assigns the given
variables only. -/
structure RunsChange (A : Set String) (limit : Option Int) (n : Nat) : Prop where
  expression : ∀ t s, t.Everywhere (Node.assignsOnly A) → s.scope.Stores (Node.assignsOnly A) →
    (expression limit n t s).Leaves (s.Changed (Frame A))
  statement : ∀ t s, t.Everywhere (Node.assignsOnly A) → s.scope.Stores (Node.assignsOnly A) →
    (statement limit n t s).Ensures (fun r => s.Changed (Grown A t.newVariables t.newFunctions r))
      (fun _ => s.Changed (Grown A [] [] none))
  block : ∀ t s, t.Everywhere (Node.assignsOnly A) → s.scope.Stores (Node.assignsOnly A) →
    (block limit n t s).Leaves (s.Changed (Frame A))

namespace RunsChange

/-- An expression that runs after a change of the state extends it. -/
theorem value (ih : RunsChange A limit n) (code : t.Everywhere (Node.assignsOnly A))
    (stored : s.scope.Stores (Node.assignsOnly A)) (hu : s.Changed (Frame A) u) :
    (Eval.expression limit n t u).Leaves (s.Changed (Frame A)) := by
  have after := ih.expression t u code (hu.scope.stores_iff.2 stored)
  exact after.mono (fun _ _ => hu.trans) (fun _ _ => hu.trans)

theorem run (ih : RunsChange A limit n) (code : t.Everywhere (Node.assignsOnly A))
    (stored : s.scope.Stores (Node.assignsOnly A)) (hu : s.Changed (Frame A) u) :
    (Eval.block limit n t u).Leaves (s.Changed (Frame A)) := by
  have after := ih.block t u code (hu.scope.stores_iff.2 stored)
  exact after.mono (fun _ _ => hu.trans) (fun _ _ => hu.trans)

theorem invoke (ih : RunsChange A limit n) {line : Int} {name : String} {values : List Int}
    (stored : s.scope.Stores (Node.assignsOnly A)) (hu : s.Changed (Frame A) u) :
    (Eval.invoke limit (Eval.block limit n) line name values u).Leaves (s.Changed (Frame A)) := by
  have stored' := hu.scope.stores_iff.2 stored
  refine ensures_invoke (fun f found _ => ?_) (fun _ _ _ => hu) (fun _ _ => hu.print values)
    (fun _ _ => hu)
  have called : s.Changed (Frame A) { u with calls := ⟨line, name, values⟩ :: u.calls } :=
    ⟨hu.scope, hu.active, hu.printed⟩
  refine ensures_enter (fun _ => called) (fun _ => called) fun _ => ?_
  have body := ih.block f.body
    { u with
      scope := { locals := f.params.zip values } :: u.scope
      active := u.active + 1
      calls := ⟨line, name, values⟩ :: u.calls }
    (stored'.body_of_function? found) (stored'.push rfl)
  exact body.mono (fun _ _ h => called.trans h.leave_call) (fun _ _ h => called.trans h.leave_call)

theorem expression_succ (ih : RunsChange A limit n) (code : t.Everywhere (Node.assignsOnly A))
    (stored : s.scope.Stores (Node.assignsOnly A)) :
    (Eval.expression limit (n + 1) t s).Leaves (s.Changed (Frame A)) := by
  cases t with
  | reference line x =>
    rw [Eval.expression]
    exact ensures_lookUp (fun _ _ => .refl s) (fun _ => .refl s)
  | binary op l r =>
    rw [Eval.expression]
    apply Ensures.bind (ih.value (code.part (by simp [Node.parts])) stored (.refl s))
    intro a u hu
    apply Ensures.bind (ih.value (code.part (by simp [Node.parts])) stored hu)
    intro b w hw
    exact ensures_operate (fun _ _ => hw) (fun _ => hw)
  | call line name args =>
    rw [Eval.expression]
    have each : ∀ t ∈ args, ∀ u, s.Changed (Frame A) u → _ :=
      fun t mem u hu => ih.value (code.part mem) stored hu
    exact (ensures_inOrder each (.refl s)).bind fun values u hu => ih.invoke stored hu.2
  | _ => exact State.Changed.refl s

/-- A statement of a block that stays inside the block keeps the levels around it. -/
theorem inside (ih : RunsChange A limit n) (code : t.Everywhere (Node.assignsOnly A))
    (stored : u.scope.Stores (Node.assignsOnly A)) (hu : s.Changed (Entered A) u) :
    (Eval.statement limit n t u).Ensures
      (fun _ w => s.Changed (Entered A) w ∧ w.scope.Stores (Node.assignsOnly A))
      (fun _ w => s.Changed (Entered A) w) := by
  refine (ih.statement t u code stored).mono (fun r w hw => ?_) (fun _ _ hw => hu.trans_inside hw)
  refine ⟨hu.trans_inside hw, hw.scope.stores (fun e he => ?_) stored⟩
  rw [(Node.declaration_of_mem_newFunctions he).1]
  exact code

theorem block_succ (ih : RunsChange A limit n) (code : t.Everywhere (Node.assignsOnly A))
    (stored : s.scope.Stores (Node.assignsOnly A)) :
    (Eval.block limit (n + 1) t s).Leaves (s.Changed (Frame A)) := by
  cases t with
  | block statements =>
    rw [Eval.block, Leaves, ensures_nested]
    let P : State → Prop := fun u => s.Changed (Entered A) u ∧ u.scope.Stores (Node.assignsOnly A)
    have each : ∀ t ∈ statements, ∀ u, P u → (Eval.statement limit n t u).Ensures
        (fun r w => r.elim (P w) fun _ => P w) (fun _ w => s.Changed (Entered A) w) := by
      rintro t mem u ⟨hu, stored⟩
      refine (ih.inside (code.part mem) stored hu).mono (fun r w hw => ?_) (fun _ _ hw => hw)
      cases r <;> exact hw
    have start : P { s with scope := s.scope.child } := ⟨.enter s, stored.push rfl⟩
    refine (ensures_untilExit each start).mono (fun r w hw => ?_) (fun _ _ hw => hw.leave_block)
    cases r <;> exact State.Changed.leave_block hw.1
  | _ => exact State.Changed.refl s

/-- An exit value that is handed on goes into the own level. -/
theorem leave {r : Option Int} (hu : s.Changed (Frame A) u) :
    (Eval.leave r u).Ensures (fun r => s.Changed (Grown A [] [] r))
      (fun _ => s.Changed (Grown A [] [] none)) := by
  refine ensures_leave (fun _ => hu.grown) (fun v _ free => ?_) (fun _ _ _ _ => hu.grown)
  exact hu.trans_grown (.of_scope (Scope.grown_setExit A free v))

theorem statement_succ (ih : RunsChange A limit n) (code : t.Everywhere (Node.assignsOnly A))
    (stored : s.scope.Stores (Node.assignsOnly A)) :
    (Eval.statement limit (n + 1) t s).Ensures
      (fun r => s.Changed (Grown A t.newVariables t.newFunctions r))
      (fun _ => s.Changed (Grown A [] [] none)) := by
  have value : ∀ p ∈ t.parts, (Eval.expression limit n p s).Ensures (fun _ => s.Changed (Frame A))
      (fun _ => s.Changed (Grown A [] [] none)) := fun p mem =>
    (ih.value (code.part mem) stored (.refl s)).mono (fun _ _ h => h) (fun _ _ h => h.grown)
  have run : ∀ p ∈ t.parts, ∀ u, s.Changed (Frame A) u → (Eval.block limit n p u).Ensures
      (fun _ => s.Changed (Frame A)) (fun _ => s.Changed (Grown A [] [] none)) := fun p mem u hu =>
    (ih.run (code.part mem) stored hu).mono (fun _ _ h => h) (fun _ _ h => h.grown)
  cases t with
  | declare line x init =>
    rw [Eval.statement]
    have start := ensures_startValue (fun _ => .refl s) fun _ => value init (by simp [Node.parts])
    apply Ensures.bind start
    intro v u hu
    rw [ensures_bind]
    refine ensures_changing (fun scope h => ?_) (fun _ _ => hu.grown)
    obtain ⟨-, rfl⟩ := Scope.declareVariable_eq_ok_iff.1 h
    exact hu.trans_grown (.of_scope (Scope.grown_addVariable A u.scope x v))
  | assign line x e =>
    rw [Eval.statement]
    apply Ensures.bind (value e (by simp [Node.parts]))
    intro v u hu
    rw [ensures_bind]
    refine ensures_changing (fun scope h => ?_) (fun _ _ => hu.grown)
    have assigned := Scope.frame_of_assign? (Scope.assign_eq_ok_iff.1 h) code.self
    exact (hu.trans (.of_scope assigned)).grown
  | function line name params body =>
    rw [Eval.statement, ensures_bind]
    refine ensures_changing (fun scope h => ?_) (fun _ _ => State.Changed.grown (.refl s))
    obtain ⟨-, rfl⟩ := Scope.declareFunction_eq_ok_iff.1 h
    exact .of_scope (Scope.grown_addFunction A s.scope name _)
  | branch condition yes no =>
    rw [Eval.statement]
    apply Ensures.bind (value condition (by simp [Node.parts]))
    intro c u hu
    have selected := ensures_select (c := c) (fun _ => run yes (by simp [Node.parts]) u hu)
      (fun _ => hu) (fun _ => run no (by simp [Node.parts]) u hu)
    apply Ensures.bind selected
    intro r w hw
    exact leave hw
  | loop condition body =>
    rw [Eval.statement]
    apply Ensures.bind (value condition (by simp [Node.parts]))
    intro c u hu
    split
    · apply Ensures.bind (run body (by simp [Node.parts]) u hu)
      intro r w hw
      cases r with
      | some v => exact leave hw
      | none =>
        have again := ih.statement _ w code (hw.scope.stores_iff.2 stored)
        exact again.mono (fun _ _ h => hw.trans_grown h) (fun _ _ h => hw.trans_grown h)
    · exact hu.grown
  | exit e =>
    rw [Eval.statement]
    exact (value e (by simp [Node.parts])).bind fun v u hu => leave hu
  | literal | reference | binary | call =>
    have whole := ih.value code stored (.refl s)
    refine Ensures.bind (whole.mono (fun _ _ h => h) (fun _ _ h => h.grown)) fun v u hu => hu.grown
  | _ => exact (State.Changed.refl s).grown

end RunsChange

theorem runsChange (A : Set String) (limit : Option Int) (n : Nat) : RunsChange A limit n := by
  induction n with
  | zero => constructor <;> intros <;> trivial
  | succ n ih =>
    exact ⟨fun t s => ih.expression_succ, fun t s => ih.statement_succ, fun t s => ih.block_succ⟩

theorem everywhere_assignsOnly_univ (t : Node) : t.Everywhere (Node.assignsOnly Set.univ) :=
  Node.everywhere_assignsOnly_iff.2 fun _ _ => trivial

/-- Whatever code is run, an expression leaves a frame. -/
theorem expression_changed (limit : Option Int) (n : Nat) (t : Node) (s : State) :
    (expression limit n t s).Leaves (s.Changed (Frame Set.univ)) :=
  (runsChange _ limit n).expression t s (everywhere_assignsOnly_univ t) fun _ _ e _ =>
    everywhere_assignsOnly_univ e.2.declaration

theorem statement_changed (limit : Option Int) (n : Nat) (t : Node) (s : State) :
    (statement limit n t s).Ensures
      (fun r => s.Changed (Grown Set.univ t.newVariables t.newFunctions r))
      (fun _ => s.Changed (Grown Set.univ [] [] none)) :=
  (runsChange _ limit n).statement t s (everywhere_assignsOnly_univ t) fun _ _ e _ =>
    everywhere_assignsOnly_univ e.2.declaration

theorem block_changed (limit : Option Int) (n : Nat) (t : Node) (s : State) :
    (block limit n t s).Leaves (s.Changed (Frame Set.univ)) :=
  (runsChange _ limit n).block t s (everywhere_assignsOnly_univ t) fun _ _ e _ =>
    everywhere_assignsOnly_univ e.2.declaration

theorem program_changed (limit : Option Int) (n : Nat) (t : Node) (s : State) :
    (program limit n t s).Leaves (s.Changed (Frame Set.univ)) := by
  cases t with
  | program body => exact block_changed limit n body s
  | _ => exact State.Changed.refl s

/-- However an expression or a block ends, every level of its scope keeps its functions, its exit
value and its variable names with their order. A variable's value differs at most in the nearest
level that declares it, and only if the code that is run or a function stored in the scope assigns
the variable. -/
theorem levels_after_run
    (ended : (expression limit n t s).state? = some u ∨ (block limit n t s).state? = some u) :
    u.scope.length = s.scope.length ∧
      ∀ (i : Nat) (l : Level), s.scope[i]? = some l → ∃ k : Level, u.scope[i]? = some k ∧
        k.functions = l.functions ∧ k.exit = l.exit ∧ k.locals.names = l.locals.names ∧
        ∀ x, k.locals.get? x ≠ l.locals.get? x →
          (∀ j < i, ∀ m : Level, s.scope[j]? = some m → x ∉ m.locals.names) ∧
          (t.Assigns x ∨ ∃ m ∈ s.scope, ∃ e ∈ m.functions, e.2.body.Assigns x) := by
  let A : Set String := {x | t.Assigns x ∨ ∃ m ∈ s.scope, ∃ e ∈ m.functions, e.2.body.Assigns x}
  have code : t.Everywhere (Node.assignsOnly A) :=
    Node.everywhere_assignsOnly_iff.2 fun x h => .inl h
  have stored : s.scope.Stores (Node.assignsOnly A) := by
    intro m hm e he
    refine Node.everywhere_assignsOnly_iff.2 fun x h => ?_
    exact .inr ⟨m, hm, e, he, Node.assigns_declaration_iff.1 h⟩
  have runs := runsChange A limit n
  have frame : s.scope.Frame A u.scope := by
    rcases ended with h | h
    · exact (leaves_iff.1 (runs.expression t s code stored) u h).scope
    · exact (leaves_iff.1 (runs.block t s code stored) u h).scope
  refine ⟨frame.length_eq, fun i l hl => ?_⟩
  obtain ⟨k, hk, own, hidden⟩ := frame.getElem? hl
  refine ⟨k, hk, own.functions, own.exit, own.names, fun x changed => ⟨hidden x changed, ?_⟩⟩
  exact Classical.byContradiction fun other => changed (own.locals x other)

/-- A failure midway leaves the value that was assigned before it, and the level around the one
that declares the variable as it was. -/
theorem levels_after_run_failed :
    let t : Node := .block [.declare 1 "y" .nothing, .assign 2 "x" (.literal 7), .reference 3 "z"]
    let outer : Level := { locals := [("x", 2)], exit := some 4 }
    let s : State := { scope := [{ locals := [("x", 1)] }, outer] }
    let u : State := { scope := [{ locals := [("x", 7)] }, outer] }
    (block none 3 t s).state? = some u ∧
      ∃ k : Level, u.scope[1]? = some k ∧ k.exit = some 4 ∧ k.locals.names = ["x"] := by
  intro t outer s u
  have ended : (block none 3 t s).state? = some u := by decide
  obtain ⟨k, here, -, exit, names, -⟩ := (levels_after_run (.inr ended)).2 1 _ rfl
  exact ⟨ended, k, here, exit, names⟩

end Eval
end CallSite

import CallSite.Proofs.Run.Change

/-! Where faults and output come from. A run comes from the code that it starts with to constructs at
further positions, in states that it has changed on the way. What is known of the first position and
is handed on from position to position is known wherever the run comes, and so it is known of the
construct that raises a fault, in the state in which it does, and of the calls that print. -/

namespace CallSite

/-- The second state has the output of the first one and then lines of values with the property. -/
def State.Prints (P : List Int → Prop) (s u : State) : Prop :=
  ∃ lines : List (List Int), (∀ values ∈ lines, P values) ∧
    u.printed = s.printed ++ String.join (lines.map Text.printedLine)

namespace State.Prints
variable {P : List Int → Prop} {s t u : State}

theorem refl (s : State) : s.Prints P s := ⟨[], nofun, by simp⟩

theorem trans (h : s.Prints P t) (k : t.Prints P u) : s.Prints P u := by
  obtain ⟨lines, all, printed⟩ := h
  obtain ⟨more, all', printed'⟩ := k
  refine ⟨lines ++ more, List.forall_mem_append.2 ⟨all, all'⟩, ?_⟩
  rw [printed', printed, List.map_append, String.join_append, String.append_assoc]

theorem mono {Q : List Int → Prop} (h : s.Prints P u) (sub : ∀ values, P values → Q values) :
    s.Prints Q u := by
  obtain ⟨lines, all, printed⟩ := h
  exact ⟨lines, fun values mem => sub values (all values mem), printed⟩

theorem line {values : List Int} (h : P values) :
    s.Prints P { s with printed := s.printed ++ Text.printedLine values } :=
  ⟨[values], by simpa using h, by simp⟩

end State.Prints

namespace Eval
open Result
open Scope (Frame Grown)

/-- The roles in which a run meets a tree. -/
inductive Position where
  | expression | statement | block

/-- What a construct runs in the scope that it is in itself, and in which role. -/
inductive Runs : Position → Node → Position → Node → Prop where
  | left {op l r} : Runs .expression (.binary op l r) .expression l
  | right {op l r} : Runs .expression (.binary op l r) .expression r
  | argument {line name args t} (mem : t ∈ args) :
    Runs .expression (.call line name args) .expression t
  | itself {t} (h : t.isExpression = true) : Runs .statement t .expression t
  | start {line x init} (given : init ≠ .nothing) :
    Runs .statement (.declare line x init) .expression init
  | assigned {line x e} : Runs .statement (.assign line x e) .expression e
  | returned {e} : Runs .statement (.exit e) .expression e
  | tested {c y n} : Runs .statement (.branch c y n) .expression c
  | yes {c y n} : Runs .statement (.branch c y n) .block y
  | no {c y n} (given : n ≠ .nothing) : Runs .statement (.branch c y n) .block n
  | retested {c b} : Runs .statement (.loop c b) .expression c
  | repeated {c b} : Runs .statement (.loop c b) .block b

namespace Runs
variable {p q : Position} {t u : Node}

theorem contains (h : Runs p t q u) : t.Contains u := by
  cases h with
  | itself => exact .self t
  | argument mem => exact .of_mem_parts mem
  | _ => exact .of_mem_parts (by simp [Node.parts])

theorem everywhere {r : Node → Prop} (h : Runs p t q u) (code : t.Everywhere r) :
    u.Everywhere r := fun v inside => code v (h.contains.trans inside)

end Runs

/-- The faults that a construct raises itself in a state, under a limit on active calls. -/
inductive Raises (limit : Option Int) (s : State) : Position → Node → Fault → Prop where
  | reference {line x} (missing : s.scope.value? x = none) :
    Raises limit s .expression (.reference line x) ⟨.unboundVariable x, some line⟩
  | byZero {op l r a b} (partly : op.value? a b = none) :
    Raises limit s .expression (.binary op l r) ⟨.divisionByZero op, none⟩
  | unbound {line name args} (missing : s.scope.function? name = none) (other : name ≠ printName) :
    Raises limit s .expression (.call line name args) ⟨.unboundFunction name, some line⟩
  | mismatch {line name args f} (found : s.scope.function? name = some f)
    (differs : args.length ≠ f.arity) :
    Raises limit s .expression (.call line name args)
      ⟨.arityMismatch name f.arity args.length, some line⟩
  | param {line name args f x} (found : s.scope.function? name = some f)
    (twice : 1 < f.params.count x) :
    Raises limit s .expression (.call line name args)
      ⟨.duplicateDeclaration x "variable", some f.line⟩
  | refused {line name args f} (found : s.scope.function? name = some f)
    (reached : limitReached limit s = true) :
    Raises limit s .expression (.call line name args) ⟨.recursionDepthExceeded, some line⟩
  | noExpression {t} (h : t.isExpression = false) :
    Raises limit s .expression t ⟨.unknownExpression t, none⟩
  | variable {line x init} (taken : x ∈ s.scope.own.locals.names) :
    Raises limit s .statement (.declare line x init) ⟨.duplicateDeclaration x "variable", some line⟩
  | function {line name params body} (taken : name ∈ s.scope.own.functions.names) :
    Raises limit s .statement (.function line name params body)
      ⟨.duplicateDeclaration name "function", some line⟩
  | assign {line x e} (missing : s.scope.value? x = none) :
    Raises limit s .statement (.assign line x e) ⟨.unboundVariable x, some line⟩
  | exit {t old} (taken : s.scope.own.exit = some old) :
    Raises limit s .statement t ⟨.exitRepeated old, none⟩
  | noStatement {t} (h : t.isStatement = false) :
    Raises limit s .statement t ⟨.unknownStatement t, none⟩
  | noBlock {t} (h : t.isBlock = false) : Raises limit s .block t ⟨.unknownBlock t, none⟩

/-- What is known of the constructs that runs come to and of the states there. It is handed on to
what a construct runs, to the statements of a block one after the other, and to the body of a
function that a call finds; and it stays known when something else was run before. -/
structure Invariant (limit : Option Int) where
  holds : Position → Node → State → Prop
  /-- The same for the statements of a block that are still to run, in the scope of the block. -/
  holdsOf : List Node → State → Prop
  changed : ∀ {p t s u}, holds p t s → s.Changed (Frame Set.univ) u → holds p t u
  inside : ∀ {p t q u s}, holds p t s → Runs p t q u → holds q u s
  enters : ∀ {ts s}, holds .block (.block ts) s → holdsOf ts { s with scope := s.scope.child }
  first : ∀ {t ts s}, holdsOf (t :: ts) s → holds .statement t s
  rest : ∀ {t ts s u}, holdsOf (t :: ts) s →
    s.Changed (Grown Set.univ t.newVariables t.newFunctions none) u → holdsOf ts u
  calls : ∀ {line name args values f s}, holds .expression (.call line name args) s →
    s.scope.function? name = some f → args.length = f.arity → values.length = args.length →
    limitReached limit s = false →
    holds .block f.body { s with
      scope := { locals := f.params.zip values } :: s.scope
      active := s.active + 1
      calls := ⟨line, name, values⟩ :: s.calls }

namespace Invariant
variable {α : Type} {limit : Option Int} {n : Nat} {t : Node} {s u : State} (I : Invariant limit)

/-- The fault is raised by a construct of which the invariant is known. -/
def Raised (f : Fault) : Prop := ∃ p t s, I.holds p t s ∧ Raises limit s p t f

/-- The values are printed by a call of which the invariant is known, one for each argument, where
no function hides the printing one. -/
def Printed (values : List Int) : Prop :=
  ∃ line args s, I.holds .expression (.call line printName args) s ∧
    s.scope.function? printName = none ∧ values.length = args.length

/-- What a run from the state prints and the fault that it fails with come from constructs of which
the invariant is known. -/
abbrev Traced (s : State) (r : Result α) : Prop :=
  r.Ensures (fun _ => s.Prints I.Printed) (fun f u => I.Raised f ∧ s.Prints I.Printed u)

/-- A change on the way to a further construct. -/
structure Onward (s u : State) : Prop where
  changed : s.Changed (Frame Set.univ) u
  prints : s.Prints I.Printed u

/-- Runs with an allowance that start where the invariant is known are traced to constructs of which
it is known. -/
structure Covers (n : Nat) : Prop where
  expression : ∀ t s, I.holds .expression t s → I.Traced s (expression limit n t s)
  statement : ∀ t s, I.holds .statement t s → I.Traced s (statement limit n t s)
  block : ∀ t s, I.holds .block t s → I.Traced s (block limit n t s)

variable {I}

theorem Traced.failsOnly {r : Result α} {P : Fault → Prop} (h : I.Traced s r)
    (sub : ∀ f, I.Raised f → P f) : r.FailsOnly P :=
  h.mono (fun _ _ _ => trivial) fun f _ h => sub f h.1

theorem Traced.leaves {r : Result α} (h : I.Traced s r) : r.Leaves (s.Prints I.Printed) :=
  h.mono (fun _ _ h => h) fun _ _ h => h.2

theorem Traced.after {r : Result α} (h : I.Traced u r) (hu : s.Prints I.Printed u) :
    I.Traced s r := h.mono (fun _ _ => hu.trans) fun _ _ h => ⟨h.1, hu.trans h.2⟩

theorem Onward.refl (s : State) : I.Onward s s := ⟨.refl s, .refl s⟩

theorem Onward.trans {w : State} (h : I.Onward s u) (changed : u.Changed (Frame Set.univ) w)
    (prints : u.Prints I.Printed w) : I.Onward s w :=
  ⟨h.changed.trans changed, h.prints.trans prints⟩

namespace Covers

/-- An expression that runs on the way extends it. -/
theorem value (ih : I.Covers n) (known : I.holds .expression t s) (hu : I.Onward s u) :
    (Eval.expression limit n t u).Ensures (fun _ => I.Onward s)
      (fun f w => I.Raised f ∧ s.Prints I.Printed w) := by
  have both := (ih.expression t u (I.changed known hu.changed)).and (expression_changed limit n t u)
  exact both.mono (fun _ _ h => hu.trans h.2 h.1) fun _ _ h => ⟨h.1.1, hu.prints.trans h.1.2⟩

theorem run (ih : I.Covers n) (known : I.holds .block t s) (hu : I.Onward s u) :
    (Eval.block limit n t u).Ensures (fun _ => I.Onward s)
      (fun f w => I.Raised f ∧ s.Prints I.Printed w) := by
  have both := (ih.block t u (I.changed known hu.changed)).and (block_changed limit n t u)
  exact both.mono (fun _ _ h => hu.trans h.2 h.1) fun _ _ h => ⟨h.1.1, hu.prints.trans h.1.2⟩

theorem invoke (ih : I.Covers n) {line : Int} {name : String} {args : List Node}
    {values : List Int} (known : I.holds .expression (.call line name args) s)
    (all : values.length = args.length) :
    I.Traced s (Eval.invoke limit (Eval.block limit n) line name values s) := by
  refine ensures_invoke (fun f found fits => ?_) (fun f found differs => ?_) (fun missing same => ?_)
    (fun missing other => ⟨⟨_, _, s, known, .unbound missing other⟩, .refl s⟩)
  · refine ensures_enter_of_count (fun x twice => ?_)
      (fun reached => ⟨⟨_, _, s, known, .refused found reached⟩, .refl s⟩) fun below => ?_
    · rw [Bindings.names, List.map_fst_zip (Nat.le_of_eq fits.symm)] at twice
      exact ⟨⟨_, _, s, known, .param found twice⟩, .refl s⟩
    · exact ih.block f.body _ (I.calls known found (all.symm.trans fits) all below)
  · rw [all] at differs ⊢
    exact ⟨⟨_, _, s, known, .mismatch found differs⟩, .refl s⟩
  · subst same
    exact .line ⟨line, args, s, known, missing, all⟩

theorem expression_succ (ih : I.Covers n) (known : I.holds .expression t s) :
    I.Traced s (Eval.expression limit (n + 1) t s) := by
  cases t with
  | literal v => exact .refl s
  | reference line x =>
    rw [Eval.expression]
    exact ensures_lookUp (fun _ _ => .refl s)
      fun missing => ⟨⟨_, _, s, known, .reference missing⟩, .refl s⟩
  | binary op l r =>
    rw [Eval.expression]
    apply Ensures.bind (ih.value (I.inside known .left) (.refl s))
    intro a u hu
    apply Ensures.bind (ih.value (I.inside known .right) hu)
    intro b w hw
    exact ensures_operate (fun _ _ => hw.prints)
      fun partly => ⟨⟨_, _, s, known, .byZero partly⟩, hw.prints⟩
  | call line name args =>
    rw [Eval.expression]
    have each : ∀ t ∈ args, ∀ u, I.Onward s u → _ :=
      fun t mem u hu => ih.value (I.inside known (.argument mem)) hu
    apply Ensures.bind (ensures_inOrder each (.refl s))
    intro values u hu
    exact (ih.invoke (I.changed known hu.2.changed) hu.1).after hu.2.prints
  | _ => exact ⟨⟨_, _, s, known, .noExpression rfl⟩, .refl s⟩

/-- Each statement leaves a state in which the invariant is known of the statements after it. -/
theorem sequence (ih : I.Covers n) {ts : List Node} (known : I.holdsOf ts s) :
    I.Traced s (untilExit (Eval.statement limit n) ts s) := by
  induction ts generalizing s with
  | nil => exact .refl s
  | cons t ts rest =>
    rw [untilExit]
    have both := (ih.statement t s (I.first known)).and (statement_changed limit n t s)
    apply Ensures.bind (both.mono (fun _ _ h => h) (fun _ _ h => h.1))
    rintro r u ⟨prints, grown⟩
    cases r with
    | none => exact (rest (I.rest known grown)).after prints
    | some v => exact prints

theorem block_succ (ih : I.Covers n) (known : I.holds .block t s) :
    I.Traced s (Eval.block limit (n + 1) t s) := by
  cases t with
  | block statements =>
    rw [Eval.block, Traced, ensures_nested]
    exact ih.sequence (I.enters known)
  | _ => exact ⟨⟨_, _, s, known, .noBlock rfl⟩, .refl s⟩

theorem leave {r : Option Int} (known : I.holds .statement t s) (hu : I.Onward s u) :
    I.Traced s (Eval.leave r u) :=
  ensures_leave (fun _ => hu.prints) (fun _ _ _ => hu.prints)
    fun _ _ _ taken => ⟨⟨_, _, u, I.changed known hu.changed, .exit taken⟩, hu.prints⟩

theorem statement_succ (ih : I.Covers n) (known : I.holds .statement t s) :
    I.Traced s (Eval.statement limit (n + 1) t s) := by
  cases t with
  | declare line x init =>
    rw [Eval.statement]
    have start := ensures_startValue (fun _ => .refl s)
      (fun given => ih.value (I.inside known (.start given)) (.refl s))
    apply Ensures.bind start
    intro v u hu
    rw [ensures_bind]
    refine ensures_changing (fun _ _ => hu.prints) (fun fault h => ?_)
    obtain ⟨taken, rfl⟩ := Scope.declareVariable_eq_error_iff.1 h
    have listed := Bindings.isSome_get?_iff.1 taken
    exact ⟨⟨_, _, u, I.changed known hu.changed, .variable listed⟩, hu.prints⟩
  | assign line x e =>
    rw [Eval.statement]
    apply Ensures.bind (ih.value (I.inside known .assigned) (.refl s))
    intro v u hu
    rw [ensures_bind]
    refine ensures_changing (fun _ _ => hu.prints) (fun fault h => ?_)
    obtain ⟨missing, rfl⟩ := Scope.assign_eq_error_iff.1 h
    exact ⟨⟨_, _, u, I.changed known hu.changed, .assign missing⟩, hu.prints⟩
  | function line name params body =>
    rw [Eval.statement, Traced, ensures_bind]
    refine ensures_changing (fun _ _ => .refl s) (fun fault h => ?_)
    obtain ⟨taken, rfl⟩ := Scope.declareFunction_eq_error_iff.1 h
    exact ⟨⟨_, _, s, known, .function (Bindings.isSome_get?_iff.1 taken)⟩, .refl s⟩
  | branch condition yes no =>
    rw [Eval.statement]
    apply Ensures.bind (ih.value (I.inside known .tested) (.refl s))
    intro c u hu
    have selected := ensures_select (c := c) (fun _ => ih.run (I.inside known .yes) hu)
      (fun _ => hu) (fun given => ih.run (I.inside known (.no given)) hu)
    apply Ensures.bind selected
    intro r w hw
    exact leave known hw
  | loop condition body =>
    rw [Eval.statement]
    apply Ensures.bind (ih.value (I.inside known .retested) (.refl s))
    intro c u hu
    split
    · apply Ensures.bind (ih.run (I.inside known .repeated) hu)
      intro r w hw
      cases r with
      | some v => exact leave known hw
      | none => exact (ih.statement _ w (I.changed known hw.changed)).after hw.prints
    · exact hu.prints
  | exit e =>
    rw [Eval.statement]
    apply Ensures.bind (ih.value (I.inside known .returned) (.refl s))
    intro v u hu
    exact leave known hu
  | literal | reference | binary | call =>
    exact (ih.value (I.inside known (.itself rfl)) (.refl s)).bind fun _ _ hu => hu.prints
  | _ => exact ⟨⟨_, _, s, known, .noStatement rfl⟩, .refl s⟩

end Covers

theorem covers (I : Invariant limit) (n : Nat) : I.Covers n := by
  induction n with
  | zero => constructor <;> intros <;> trivial
  | succ n ih =>
    exact ⟨fun _ _ => ih.expression_succ, fun _ _ => ih.statement_succ, fun _ _ => ih.block_succ⟩

/-- A fault of a block that is run where the invariant is known is raised where it is known. -/
theorem raised_of_block_failed (I : Invariant limit) {f : Fault} (known : I.holds .block t s)
    (failed : block limit n t s = .failed f u) : I.Raised f :=
  failsOnly_iff.1 (((I.covers n).block t s known).failsOnly fun _ => id) f u failed

end Invariant
end Eval
end CallSite

import CallSite.Proofs.Run.Blame

/-! Duplicate declarations. A level holds what the statements of one block have declared so far and
nothing else, since every block starts in a level of its own and whatever it calls or nests declares
into other levels. So a declaration is refused exactly if an earlier statement of the same block
declares the name, and whatever is written after it is never reached. -/

namespace CallSite
open Scope (Frame Grown)
variable {root t u : Node} {limit : Option Int}

namespace Node

/-- What a statement declares in its own scope: the namespace, the name and the line. -/
def declared? : Node → Option (Namespace × String × Int)
  | declare line x _ => some (.locals, x, line)
  | function line name _ _ => some (.functions, name, line)
  | _ => none

/-- The names that a statement adds to a namespace of its scope. -/
def newNames (t : Node) : Namespace → List String
  | .locals => t.newVariables
  | .functions => t.newFunctions.names

theorem mem_newNames_iff {k : Namespace} {name : String} :
    name ∈ t.newNames k ↔ ∃ line, t.declared? = some (k, name, line) := by
  cases t <;> cases k <;>
    simp [newNames, newVariables, newFunctions, declared?, Bindings.names, eq_comm]

/-- A block of the tree declares the name twice among its own statements, the second time on the
line. -/
def RepeatsDeclaration (t : Node) (k : Namespace) (name : String) (line : Int) : Prop :=
  ∃ before first between second after,
    t.Contains (.block (before ++ first :: between ++ second :: after)) ∧
      name ∈ first.newNames k ∧ second.declared? = some (k, name, line)

/-- A function that the tree declares on the line has the name twice among its parameters. -/
def RepeatsParameter (t : Node) (name : String) (line : Int) : Prop :=
  ∃ f params body, t.Contains (.function line f params body) ∧ 1 < params.count name

end Node

namespace Scope
variable {A : Set String} {s u : Scope}

theorem Frame.own_names (h : s.Frame A u) (k : Namespace) : u.own.names k = s.own.names k := by
  cases k with
  | locals => exact h.own.names
  | functions => exact congrArg Bindings.names h.own.functions

theorem Grown.own_names {r : Option Int} (h : s.Grown A t.newVariables t.newFunctions r u)
    (k : Namespace) : u.own.names k = s.own.names k ++ t.newNames k := by
  cases k with
  | locals => exact h.names
  | functions => simp [Level.names, Node.newNames, h.functions, Bindings.names]

end Scope

namespace Eval
open Result
variable {n : Nat} {s w : State} {k : Namespace} {name : String}

/-- Statements of a block that are still to run, after others that have declared all that the level
of the block holds. -/
structure Remaining (root : Node) (before rest : List Node) (s : State) : Prop where
  block : root.Contains (.block (before ++ rest))
  names : ∀ k, s.scope.own.names k = before.flatMap (·.newNames k)

namespace Remaining
variable {before rest : List Node}

theorem next {r : Option Int} (h : Remaining root before (t :: rest) s)
    (grown : s.scope.Grown Set.univ t.newVariables t.newFunctions r w.scope) :
    Remaining root (before ++ [t]) rest w := by
  refine ⟨by simpa using h.block, fun k => ?_⟩
  rw [grown.own_names, h.names, List.flatMap_append, List.flatMap_singleton]

/-- A declaration of a name that the level has already is the second one in its block. -/
theorem repeatsDeclaration {line : Int} (h : Remaining root before (t :: rest) s)
    (taken : name ∈ s.scope.own.names k) (declares : t.declared? = some (k, name, line)) :
    root.RepeatsDeclaration k name line := by
  rw [h.names, List.mem_flatMap] at taken
  obtain ⟨first, mem, declared⟩ := taken
  obtain ⟨earlier, between, rfl⟩ := List.append_of_mem mem
  exact ⟨earlier, first, between, t, rest, h.block, declared, declares⟩

end Remaining

/-- A run comes to statements in the level of their block only, after the statements before them. -/
def fromBlocks (limit : Option Int) (root : Node) : Invariant limit where
  holds p t s := (fromRoot limit root).holds p t s ∧
    (p = .statement → ∃ before rest, Remaining root before (t :: rest) s)
  holdsOf ts s := (fromRoot limit root).holdsOf ts s ∧ ∃ before, Remaining root before ts s
  changed := fun ⟨known, remaining⟩ hu => ⟨(fromRoot limit root).changed known hu, fun same =>
    let ⟨before, rest, h⟩ := remaining same
    ⟨before, rest, h.block, fun k => (hu.scope.own_names k).trans (h.names k)⟩⟩
  inside known runs := ⟨(fromRoot limit root).inside known.1 runs, fun same => by
    cases runs <;> cases same⟩
  enters known := ⟨(fromRoot limit root).enters known.1, [], known.1.1, fun k => by cases k <;> rfl⟩
  first := fun ⟨known, before, h⟩ => ⟨(fromRoot limit root).first known, fun _ => ⟨before, _, h⟩⟩
  rest := fun ⟨known, before, h⟩ grown =>
    ⟨(fromRoot limit root).rest known grown, _, h.next grown.scope⟩
  calls known found fits all below :=
    ⟨(fromRoot limit root).calls known.1 found fits all below, nofun⟩

/-- What raises a duplicate declaration repeats one. -/
theorem repeats_of_raises {p : Position} {what : String} {line : Option Int}
    (known : (fromBlocks limit root).holds p t s)
    (h : Raises limit s p t ⟨.duplicateDeclaration name what, line⟩) :
    ∃ l, line = some l ∧
      ((∃ k : Namespace, k.what = what ∧ root.RepeatsDeclaration k name l) ∨
        what = "variable" ∧ root.RepeatsParameter name l) := by
  obtain ⟨⟨-, declared⟩, statement⟩ := known
  cases h with
  | @«variable» line x init taken =>
    obtain ⟨before, rest, remaining⟩ := statement rfl
    exact ⟨line, rfl, .inl ⟨.locals, rfl, remaining.repeatsDeclaration taken rfl⟩⟩
  | @function line x params body taken =>
    obtain ⟨before, rest, remaining⟩ := statement rfl
    exact ⟨line, rfl, .inl ⟨.functions, rfl, remaining.repeatsDeclaration taken rfl⟩⟩
  | @param line f args g x found twice =>
    obtain ⟨inside, -⟩ := Scope.EveryFunction.of_function? declared found
    exact ⟨g.line, rfl, .inr ⟨rfl, g.name, g.params, g.body, inside, twice⟩⟩

/-- The statements of a sequence that comes to its end have declared their names. -/
theorem sequence_declares (ts : List Node) (s : State) :
    (untilExit (statement limit n) ts s).Ensures
      (fun r u => r = none → ∀ k, u.scope.own.names k =
        s.scope.own.names k ++ ts.flatMap (·.newNames k))
      (fun _ _ => True) := by
  induction ts generalizing s with
  | nil => exact fun _ k => (List.append_nil _).symm
  | cons t ts ih =>
    rw [untilExit]
    have changed := (statement_changed limit n t s).mono (fun _ _ h => h) (fun _ _ _ => trivial)
    apply Ensures.bind changed
    intro r u grown
    cases r with
    | some v => exact fun ended => by cases ended
    | none =>
      refine (ih u).mono (fun r w h ended k => ?_) (fun _ _ _ => trivial)
      rw [h ended k, grown.scope.own_names, List.append_assoc, List.flatMap_cons]

/-- A declaration of a name that the level has already never comes to its end. -/
theorem redeclaration_stops (limit : Option Int) (n : Nat) (taken : name ∈ s.scope.own.names k)
    (declares : name ∈ t.newNames k) :
    (statement limit n t s).Ensures (fun _ _ => False) (fun _ _ => True) := by
  obtain ⟨line, declares⟩ := Node.mem_newNames_iff.1 declares
  cases n with
  | zero => trivial
  | succ n =>
    cases t with
    | declare line x init =>
      cases declares
      rw [statement]
      have start := ensures_startValue (E := fun _ _ => True) (fun _ => State.Changed.refl s)
        fun _ => (expression_changed limit n init s).mono (fun _ _ h => h) (fun _ _ _ => trivial)
      apply Ensures.bind start
      intro v u hu
      rw [ensures_bind]
      refine ensures_changing (fun scope h => ?_) (fun _ _ => trivial)
      obtain ⟨fresh, -⟩ := Scope.declareVariable_eq_ok_iff.1 h
      rw [← hu.scope.own_names] at taken
      exact Bindings.get?_eq_none_iff.1 fresh taken
    | function line x params body =>
      cases declares
      rw [statement, ensures_bind]
      refine ensures_changing (fun scope h => ?_) (fun _ _ => trivial)
      obtain ⟨fresh, -⟩ := Scope.declareFunction_eq_ok_iff.1 h
      exact Bindings.get?_eq_none_iff.1 fresh taken
    | _ => cases declares

/-- A run of a block does not get past the second declaration of a name. -/
theorem block_of_redeclaration (before between : List Node) {first second : Node}
    (declares : name ∈ first.newNames k) (redeclares : name ∈ second.newNames k)
    (limit : Option Int) (n : Nat) (s : State) (after : List Node) :
    block limit n (.block (before ++ first :: between ++ second :: after)) s =
        block limit n (.block (before ++ first :: between ++ [second])) s ∧
      ∀ w, block limit n (.block (before ++ first :: between ++ [second])) s ≠ .done none w := by
  cases n with
  | zero => exact ⟨rfl, fun _ done => by cases done⟩
  | succ n =>
    let inner : State := { s with scope := s.scope.child }
    have declared : (untilExit (statement limit n) (before ++ first :: between) inner).Ensures
        (fun r u => r = none → name ∈ u.scope.own.names k) (fun _ _ => True) := by
      refine (sequence_declares _ inner).mono (fun r u h ended => ?_) (fun _ _ _ => trivial)
      rw [h ended k]
      simp [declares]
    have stops : ∀ u : State, name ∈ u.scope.own.names k →
        ∀ w, statement limit n second u ≠ .done none w := by
      intro u taken w done
      have never := redeclaration_stops limit n taken redeclares
      rw [done] at never
      exact never
    exact block_of_stops declared stops after

/-- A program that is run from an empty root scope raises a duplicate declaration only where it
repeats one. -/
theorem duplicate_of_program_failed {what : String} {line : Option Int} (fresh : s.scope = [{}])
    (failed : program limit n root s = .failed ⟨.duplicateDeclaration name what, line⟩ w) :
    ∃ l, line = some l ∧
      ((∃ k : Namespace, k.what = what ∧ root.RepeatsDeclaration k name l) ∨
        what = "variable" ∧ root.RepeatsParameter name l) := by
  cases root with
  | program body =>
    have start : (fromBlocks limit (.program body)).holds .block body s :=
      ⟨fromRoot_start limit fresh, nofun⟩
    obtain ⟨p, t, u, known, raises⟩ := Invariant.raised_of_block_failed _ start failed
    exact repeats_of_raises known raises
  | _ => cases (Result.failed.inj failed).1

/-- Whether a name is declared twice is decided by each block's own statements. A program that is
run from an empty root scope fails with a duplicate declaration only if one of its blocks declares
the name twice in the namespace, and then on the line of the second declaration, or if a function
that is declared on the line has the name twice among its parameters. A block that declares a name
twice never comes to its end without an exit value, wherever it is run, and what is written after
the second declaration makes no difference. -/
theorem redeclaration_in_own_statements (limit : Option Int) (n : Nat) :
    (∀ (root : Node) (s w : State) (name what : String) (line : Option Int), s.scope = [{}] →
      program limit n root s = .failed ⟨.duplicateDeclaration name what, line⟩ w →
      ∃ l, line = some l ∧
        ((∃ k : Namespace, k.what = what ∧ root.RepeatsDeclaration k name l) ∨
          what = "variable" ∧ root.RepeatsParameter name l)) ∧
    ∀ (before between : List Node) (first second : Node) (k : Namespace) (name : String),
      name ∈ first.newNames k → name ∈ second.newNames k →
      ∀ (s : State) (after : List Node),
        (∀ w, block limit n (.block (before ++ first :: between ++ second :: after)) s ≠
          .done none w) ∧
        ∀ after', block limit n (.block (before ++ first :: between ++ second :: after)) s =
          block limit n (.block (before ++ first :: between ++ second :: after')) s := by
  constructor
  · intro root s w name what line fresh failed
    exact duplicate_of_program_failed fresh failed
  · intro before between first second k name declares redeclares s after
    have cut := block_of_redeclaration before between declares redeclares limit n s
    constructor
    · rw [(cut after).1]
      exact (cut after).2
    · intro after'
      rw [(cut after).1, (cut after').1]

/-- A loop declares its variable again in each round and is not refused, and neither is a parameter
that is redeclared in the body; the second `x` of the function's own block is. -/
theorem redeclaration_in_own_statements_of_body :
    let inner : List Node := [.declare 4 "x" (.literal 1), .assign 5 "x" (.literal 2)]
    let second : Node := .declare 6 "x" (.literal 3)
    let t : Node := .program (.block [
      .declare 1 "i" (.literal 2),
      .loop (.reference 2 "i") (.block [
        .declare 2 "x" (.reference 2 "i"),
        .assign 2 "i" (.binary .minus (.reference 2 "i") (.literal 1))]),
      .function 3 "f" ["x"] (.block (inner ++ [second])),
      .call 7 "f" [.literal 0]])
    let s : State := { scope := [{}] }
    let f : Fault := ⟨.duplicateDeclaration "x" "variable", some 6⟩
    program (some 8) 12 t s = .failed f { s with calls := [⟨7, "f", [0]⟩] } ∧
      ((∃ k : Namespace, k.what = "variable" ∧ t.RepeatsDeclaration k "x" 6) ∨
        t.RepeatsParameter "x" 6) ∧
      block none 9 (.block (inner ++ [second])) s =
        block none 9 (.block (inner ++ [second, .call 8 "println" []])) s := by
  intro inner second t s f
  have failed : program (some 8) 12 t s = .failed f { s with calls := [⟨7, "f", [0]⟩] } := by
    decide +kernel
  obtain ⟨l, line, repeats⟩ :=
    (redeclaration_in_own_statements (some 8) 12).1 t s _ "x" "variable" _ rfl failed
  obtain rfl := Option.some.inj line
  refine ⟨failed, repeats.imp_right (·.2), ?_⟩
  have cut := (redeclaration_in_own_statements none 9).2 [] [.assign 5 "x" (.literal 2)]
    (.declare 4 "x" (.literal 1)) second .locals "x" (by decide) (by decide) s []
  exact cut.2 [.call 8 "println" []]

end Eval
end CallSite

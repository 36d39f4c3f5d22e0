import CallSite.Proofs.Run.Reached

/-! What a fault tells about the program that raises it. All code that a run from an empty scope
comes to is part of the program, the bodies of the functions that it calls included, since every
function in scope was put there by a declaration of the program. So the program contains a
construct that can raise the fault, on the line that the fault is reported on. -/

namespace CallSite
variable {root t u : Node} {limit : Option Int}

namespace Scope

/-- Every function of a scope was declared in the tree, under the name that it is stored under. -/
def DeclaredIn (root : Node) (s : Scope) : Prop :=
  s.EveryFunction fun e => root.Contains e.2.declaration ∧ e.2.name = e.1

end Scope

namespace Node

/-- The tree declares a function with the name and the parameters. -/
def DeclaresFunction (t : Node) (name : String) (params : List String) : Prop :=
  ∃ line body, t.Contains (.function line name params body)

/-- The tree contains a construct that can raise the fault in a run under the limit. A duplicate
declaration and a misplaced tree are not traced here. -/
def Explains (t : Node) (limit : Option Int) (f : Fault) : Prop :=
  match f.cause with
  | .unboundVariable x => ∃ line, f.line = some line ∧
      (t.Contains (.reference line x) ∨ ∃ value, t.Contains (.assign line x value))
  | .unboundFunction name => name ≠ Eval.printName ∧
      ∃ line args, f.line = some line ∧ t.Contains (.call line name args)
  | .arityMismatch name expected actual => expected ≠ actual ∧
      (∃ line args, f.line = some line ∧ args.length = actual ∧ t.Contains (.call line name args)) ∧
      ∃ params, params.length = expected ∧ t.DeclaresFunction name params
  | .divisionByZero op => f.line = none ∧ (op = .div ∨ op = .mod) ∧
      ∃ l r, t.Contains (.binary op l r)
  | .recursionDepthExceeded => limit ≠ none ∧
      ∃ line name args params, f.line = some line ∧ t.Contains (.call line name args) ∧
        t.DeclaresFunction name params
  | .duplicateDeclaration .. | .internal _ | .general .. => True

end Node

namespace Scope.DeclaredIn
variable {s : Scope} {name : String} {f : Function}

/-- A function that a call finds is declared in the tree under the name of the call. -/
theorem of_function? (h : s.DeclaredIn root) (found : s.function? name = some f) :
    root.DeclaresFunction name f.params := by
  obtain ⟨inside, same⟩ := EveryFunction.of_function? h found
  obtain rfl : f.name = name := same
  exact ⟨f.line, f.body, inside⟩

theorem contains_body (h : s.DeclaredIn root) (found : s.function? name = some f) :
    root.Contains f.body :=
  (EveryFunction.of_function? h found).1.trans (.of_mem_parts List.mem_cons_self)

end Scope.DeclaredIn

namespace Eval
variable {n : Nat} {s w : State} {p : Position} {f : Fault}

/-- A run comes to trees that the program contains, in scopes whose functions it declares. -/
def fromRoot (limit : Option Int) (root : Node) : Invariant limit where
  holds _ t s := root.Contains t ∧ s.scope.DeclaredIn root
  holdsOf ts s := (∀ t ∈ ts, root.Contains t) ∧ s.scope.DeclaredIn root
  changed known hu := ⟨known.1, hu.scope.everyFunction_iff.2 known.2⟩
  inside known runs := ⟨known.1.trans runs.contains, known.2⟩
  enters known :=
    ⟨fun _ mem => known.1.trans (.of_mem_parts mem), known.2.push rfl⟩
  first known := ⟨known.1 _ List.mem_cons_self, known.2⟩
  rest {t ts s u} known grown := by
    refine ⟨fun _ mem => known.1 _ (List.mem_cons_of_mem _ mem), ?_⟩
    refine grown.scope.everyFunction (fun e he => ?_) known.2
    obtain ⟨same, name⟩ := Node.declaration_of_mem_newFunctions he
    exact ⟨same ▸ known.1 t List.mem_cons_self, name⟩
  calls known found _ _ _ := ⟨known.2.contains_body found, known.2.push rfl⟩

theorem fromRoot_start {body : Node} (limit : Option Int) (fresh : s.scope = [{}]) :
    (fromRoot limit (.program body)).holds .block body s := by
  refine ⟨.of_mem_parts List.mem_cons_self, ?_⟩
  rw [fresh]
  exact Scope.everyFunction_cons.2 ⟨nofun, nofun⟩

/-- What raises a fault explains it. -/
theorem Raises.explains (h : Raises limit s p t f) (inside : root.Contains t)
    (declared : s.scope.DeclaredIn root) : root.Explains limit f := by
  cases h with
  | reference missing => exact ⟨_, rfl, .inl inside⟩
  | assign missing => exact ⟨_, rfl, .inr ⟨_, inside⟩⟩
  | byZero partly =>
    exact ⟨rfl, (BinaryOperator.value?_eq_none_iff.1 partly).1, _, _, inside⟩
  | unbound missing other => exact ⟨other, _, _, rfl, inside⟩
  | @mismatch line name args f found differs =>
    have counts : (f.arity : Int) ≠ args.length := by omega
    exact ⟨counts, ⟨line, args, rfl, rfl, inside⟩, f.params, rfl, declared.of_function? found⟩
  | @refused line name args f found reached =>
    have limited : limit ≠ none := by
      rintro rfl
      cases reached
    exact ⟨limited, line, name, args, f.params, rfl, inside, declared.of_function? found⟩
  | _ => trivial

/-- A program that fails in a run from an empty root scope, under whatever limit, contains a
construct that explains the fault. -/
theorem failed_run_explained (fresh : s.scope = [{}])
    (failed : program limit n t s = .failed f w) : t.Explains limit f := by
  cases t with
  | program body =>
    have declared : s.scope.DeclaredIn (.program body) := by
      rw [fresh]
      exact Scope.everyFunction_cons.2 ⟨nofun, nofun⟩
    have start : (fromRoot limit (.program body)).holds .block body s :=
      ⟨.of_mem_parts List.mem_cons_self, declared⟩
    obtain ⟨p, t, s, ⟨inside, declared⟩, raises⟩ := Invariant.raised_of_block_failed _ start failed
    exact raises.explains inside declared
  | _ =>
    obtain ⟨rfl, -⟩ := Result.failed.inj failed
    trivial

/-- The call in `g` is written where `f` has one parameter. It finds the `f` of the block that
calls `g`, which has three. -/
theorem failed_run_explained_elsewhere :
    let t : Node := .program (.block [
      .function 1 "f" ["x"] (.block [.exit (.reference 1 "x")]),
      .function 2 "g" [] (.block [.exit (.call 3 "f" [.literal 1, .literal 2])]),
      .branch (.literal 1) (.block [
        .function 4 "f" ["x", "y", "z"] (.block [.exit (.reference 5 "z")]),
        .call 6 "g" []]) .nothing])
    let s : State := { scope := [{}] }
    let f : Fault := ⟨.arityMismatch "f" 3 2, some 3⟩
    program (some 8) 12 t s = .failed f { s with calls := [⟨6, "g", []⟩] } ∧
      t.Explains (some 8) f := by
  intro t s f
  have failed : program (some 8) 12 t s = .failed f { s with calls := [⟨6, "g", []⟩] } := by
    decide +kernel
  exact ⟨failed, failed_run_explained rfl failed⟩

end Eval
end CallSite

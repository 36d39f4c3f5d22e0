import CallSite.Proofs.Run.Reached

/-! Well-formed programs never go wrong. What a run of one fails with is a mistake of the program:
the interpreter finds the kind of tree that belongs in every position that it reaches, and it
gives no level a second exit value. The statements of a block run while its level has no exit
value, and the first one that leaves one is the last to run. -/

namespace CallSite

/-- The kinds of faults for which a program itself is to blame. -/
def programKinds : List String :=
  ["UnboundVariable", "UnboundFunction", "DuplicateDeclaration", "ArityMismatch", "ArithmeticError",
    "RecursionDepthExceeded"]

/-- The fault is a mistake of the program and not of the interpreter. -/
def Fault.isOfProgram (f : Fault) : Bool :=
  match f.cause with
  | .internal _ | .general .. => false
  | _ => true

theorem Fault.isOfProgram_iff {f : Fault} : f.isOfProgram = true ↔ f.cause.kind ∈ programKinds := by
  obtain ⟨cause, line⟩ := f
  cases cause <;> simp [isOfProgram, Cause.kind, programKinds]

theorem Fault.isInternal_of_isOfProgram {f : Fault} (h : f.isOfProgram = true) :
    f.cause.isInternal = false := by
  obtain ⟨cause, line⟩ := f
  cases cause with
  | internal | general => exact absurd h Bool.false_ne_true
  | _ => rfl

namespace Eval
open Result
variable {limit : Option Int} {n : Nat} {t : Node} {s u : State}

/-- Whether the tree is of the kind that belongs in the position. -/
def Position.takes : Position → Node → Bool
  | expression => Node.isExpression
  | statement => Node.isStatement
  | block => Node.isBlock

theorem Runs.takes {p q : Position} {v : Node} (h : Runs p t q v) (fits : t.fits = true) :
    q.takes v = true := by
  cases h with
  | itself h => exact h
  | argument mem => exact List.all_eq_true.1 fits _ mem
  | start given | no given => simp_all [Position.takes, Node.fits, Node.isOptional]
  | _ => simp_all [Position.takes, Node.fits]

/-- The tree belongs in the position, all code that it reaches fits together, and a statement runs
in a level without an exit value. -/
structure Fitting (p : Position) (t : Node) (s : State) : Prop where
  takes : p.takes t = true
  code : t.Everywhere (·.fits = true)
  stored : s.scope.Stores (·.fits = true)
  free : p = .statement → s.scope.own.exit = none

/-- As long as no statement of a block has left an exit value, the block's level has none. -/
def fitting (limit : Option Int) : Invariant limit where
  holds := Fitting
  holdsOf ts s := ∀ t ∈ ts, Fitting .statement t s
  changed known hu := ⟨known.takes, known.code, hu.scope.stores_iff.2 known.stored,
    fun same => hu.scope.own.exit.trans (known.free same)⟩
  inside known runs := ⟨runs.takes known.code.self, runs.everywhere known.code, known.stored,
    -- nothing runs a statement but a block
    fun same => by cases runs <;> cases same⟩
  enters known t mem := ⟨List.all_eq_true.1 known.code.self t mem, known.code.part mem,
    known.stored.push rfl, fun _ => rfl⟩
  first known := known _ List.mem_cons_self
  rest {t ts s u} known grown t' mem := by
    have here := known t List.mem_cons_self
    have next := known t' (List.mem_cons_of_mem t mem)
    refine ⟨next.takes, next.code, grown.scope.stores (fun e he => ?_) next.stored, fun _ => ?_⟩
    · rw [(Node.declaration_of_mem_newFunctions he).1]
      exact here.code
    · simp [grown.scope.exit, here.free rfl]
  calls known found _ _ _ := ⟨(known.stored.declaration_of_function? found).self,
    known.stored.body_of_function? found, known.stored.push rfl, nofun⟩

/-- What fits in its position raises mistakes of the program only. -/
theorem Fitting.isOfProgram {p : Position} {f : Fault} (known : Fitting p t s)
    (h : Raises limit s p t f) : f.isOfProgram = true := by
  cases h with
  | noExpression h | noStatement h | noBlock h =>
    exact absurd known.takes (by simp [Position.takes, h])
  | exit taken =>
    rw [known.free rfl] at taken
    contradiction
  | _ => rfl

/-- Runs with an allowance fail with mistakes of the program only, if the code that they reach
fits together. -/
structure NeverWrong (limit : Option Int) (n : Nat) : Prop where
  expression : ∀ t s, t.isExpression = true → t.Everywhere (·.fits = true) →
    s.scope.Stores (·.fits = true) →
    (expression limit n t s).FailsOnly (·.isOfProgram = true)
  statement : ∀ t s, t.isStatement = true → t.Everywhere (·.fits = true) →
    s.scope.Stores (·.fits = true) → s.scope.own.exit = none →
    (statement limit n t s).FailsOnly (·.isOfProgram = true)
  block : ∀ t s, t.isBlock = true → t.Everywhere (·.fits = true) →
    s.scope.Stores (·.fits = true) →
    (block limit n t s).FailsOnly (·.isOfProgram = true)

theorem neverWrong (limit : Option Int) (n : Nat) : NeverWrong limit n := by
  have covers := (fitting limit).covers n
  have right : ∀ f, (fitting limit).Raised f → f.isOfProgram = true :=
    fun f ⟨_, _, _, known, raises⟩ => known.isOfProgram raises
  constructor
  · intro t s ht code stored
    exact (covers.expression t s ⟨ht, code, stored, nofun⟩).failsOnly right
  · intro t s ht code stored free
    exact (covers.statement t s ⟨ht, code, stored, fun _ => free⟩).failsOnly right
  · intro t s ht code stored
    exact (covers.block t s ⟨ht, code, stored, nofun⟩).failsOnly right

/-- A run of a well-formed program that ends is done or fails with a mistake of the program,
whatever the limit is and whatever the scope holds that it starts in, as long as the functions
there are well formed too. In particular no internal fault ends it: no level is given a second
exit value, and none an empty one. -/
theorem wellFormed_run_ends (wf : (Node.program t).isWellFormed = true)
    (stored : ∀ l ∈ s.scope, ∀ e ∈ l.functions, e.2.declaration.isWellFormed = true)
    (ended : program limit n (.program t) s ≠ .unfinished) :
    (∃ r u, program limit n (.program t) s = .done r u) ∨
      ∃ f u, program limit n (.program t) s = .failed f u ∧ f.cause.kind ∈ programKinds ∧
        f.cause.isInternal = false := by
  have code := Node.everywhere_fits wf
  have right := (neverWrong limit n).block t s code.self (code.part List.mem_cons_self)
    fun l hl e he => Node.everywhere_fits (stored l hl e he)
  rw [failsOnly_iff] at right
  rw [program] at ended ⊢
  cases h : block limit n t s with
  | done r u => exact .inl ⟨r, u, rfl⟩
  | failed f u =>
    have known := right f u h
    exact .inr ⟨f, u, rfl, Fault.isOfProgram_iff.1 known, Fault.isInternal_of_isOfProgram known⟩
  | unfinished => exact absurd h ended

/-- A return from a branch of a function that a loop calls, in a scope that has an exit value
already. -/
theorem wellFormed_run_ends_nested :
    let body : Node := .block [
      .function 1 "f" ["n"]
        (.block [.branch (.reference 2 "n") (.block [.exit (.literal 1)]) .nothing]),
      .loop (.literal 1) (.block [.exit (.call 3 "f" [.call 3 "g" []])])]
    let g : Function := ⟨9, "g", [], .block [.exit (.literal 5)]⟩
    let s : State := { scope := [{ functions := [("g", g)], exit := some 4 }] }
    (Node.program body).isWellFormed = true ∧
      program (some 2) 10 (.program body) s ≠ .unfinished ∧
      ((∃ r u, program (some 2) 10 (.program body) s = .done r u) ∨
        ∃ f u, program (some 2) 10 (.program body) s = .failed f u ∧ f.cause.kind ∈ programKinds ∧
          f.cause.isInternal = false) := by
  intro body g s
  have ended : program (some 2) 10 (.program body) s ≠ .unfinished := by decide +kernel
  have wf : (Node.program body).isWellFormed = true := by decide +kernel
  exact ⟨wf, ended, wellFormed_run_ends wf (by decide +kernel) ended⟩

end Eval
end CallSite

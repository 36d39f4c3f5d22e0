import CallSite.Eval.Allowance
import CallSite.Proofs.Logic.Postcondition
import CallSite.Proofs.Scope.Frame

/-! Under a limit on active calls only a loop can run forever. Evaluation goes down in the code that
it runs until a call takes it to the body of a stored function, and every such call leaves one call
less. So a run needs an allowance for its own code and, for each call that is left, one for the
largest code that it can reach. -/

namespace CallSite
variable {α β : Type}

/-- The result is an end, and a value leaves a state with the property. -/
def Result.Ends (P : State → Prop) : Result α → Prop
  | done _ s => P s
  | failed _ _ => True
  | unfinished => False

namespace Result.Ends
variable {P P' : State → Prop} {r : Result α}

theorem ne_unfinished (h : r.Ends P) : r ≠ .unfinished := by
  rintro rfl
  exact h

theorem mapState {g : State → State} (h : r.Ends P') (keeps : ∀ s, P' s → P (g s)) :
    (r.mapState g).Ends P := by
  cases r with
  | done v s => exact keeps s h
  | failed f s => trivial
  | unfinished => exact h

end Result.Ends

namespace Eval

/-- From every state with the property the step ends, and a value leaves such a state again. -/
def Settles (P : State → Prop) (m : Eval α) : Prop := ∀ s, P s → (m s).Ends P

namespace Settles
variable {P P' : State → Prop} {m : Eval α}

theorem pure (v : α) : Settles P (pure v) := fun _ hs => hs

theorem fail (cause : Cause) (line : Option Int) : Settles P (fail cause line : Eval α) :=
  fun _ _ => trivial

theorem bind {next : α → Eval β} (h : Settles P m) (k : ∀ v, Settles P (next v)) :
    Settles P (m >>= next) := by
  intro s hs
  have first := h s hs
  rw [bind_apply]
  cases hm : m s <;> rw [hm] at first
  case done v t => exact k v t first
  case failed => trivial
  case unfinished => exact first.elim

theorem nested (h : Settles P m) (enters : ∀ s, P s → P { s with scope := s.scope.child })
    (leaves : ∀ s, P s → P { s with scope := s.scope.tail }) : Settles P (nested m) :=
  fun s hs => (h _ (enters s hs)).mapState leaves

theorem counted {limit : Option Int} {line : Int} (h : Settles P' m)
    (enters : ∀ s, P s → limitReached limit s = false → P' { s with active := s.active + 1 })
    (leaves : ∀ s, P' s → P { s with active := s.active - 1 }) :
    Settles P (counted limit line m) := by
  intro s hs
  rw [Eval.counted]
  split
  · trivial
  · next below => exact (h _ (enters s hs (Bool.not_eq_true _ ▸ below))).mapState leaves

theorem changing {f : Scope → Except Fault Scope}
    (keeps : ∀ s, P s → ∀ scope, f s.scope = .ok scope → P { s with scope }) :
    Settles P (changing f) := by
  intro s hs
  rw [Eval.changing]
  cases h : f s.scope with
  | ok scope => exact keeps s hs scope h
  | error fault => trivial

theorem lookUp (line : Int) (x : String) : Settles P (lookUp line x) := by
  intro s hs
  rw [Eval.lookUp, bind_apply, asking]
  cases s.scope.value? x with
  | none => trivial
  | some v => exact hs

theorem operate (op : BinaryOperator) (a b : Int) : Settles P (operate op a b) := by
  unfold Eval.operate
  cases op.value? a b with
  | none => exact fail _ _
  | some v => exact pure v

theorem inOrder {f : Node → Eval α} {ts : List Node} (h : ∀ t ∈ ts, Settles P (f t)) :
    Settles P (inOrder f ts) := by
  induction ts with
  | nil => exact pure []
  | cons t ts ih =>
    have rest := ih fun p mem => h p (by simp [mem])
    exact bind (h t (by simp)) fun _ => bind rest fun _ => pure _

theorem untilExit {f : Node → Eval (Option α)} {ts : List Node}
    (h : ∀ t ∈ ts, Settles P (f t)) : Settles P (untilExit f ts) := by
  induction ts with
  | nil => exact pure none
  | cons t ts ih =>
    have rest := ih fun p mem => h p (by simp [mem])
    apply bind (h t (by simp))
    intro r
    cases r with
    | none => exact rest
    | some v => exact pure (some v)

theorem startValue {f : Node → Eval Int} {init : Node} (h : Settles P (f init)) :
    Settles P (startValue f init) := by
  unfold Eval.startValue
  split
  · exact pure 0
  · exact h

theorem select {f : Node → Eval (Option Int)} {c : Int} {yes no : Node} (hyes : Settles P (f yes))
    (hno : Settles P (f no)) : Settles P (select f c yes no) := by
  unfold Eval.select
  split
  · exact hyes
  · split
    · exact pure none
    · exact hno

end Settles
end Eval

namespace Node
variable {t : Node} {bound : Nat}

def isLoop : Node → Bool
  | loop .. => true
  | _ => false

/-- The tree is no loop, and it is not larger than the bound. -/
structure LooplessWithin (bound : Nat) (t : Node) : Prop where
  loopless : t.isLoop = false
  small : sizeOf t ≤ bound

theorem Everywhere.looplessWithin (loopless : t.Everywhere (·.isLoop = false))
    (small : sizeOf t ≤ bound) : t.Everywhere (LooplessWithin bound) :=
  fun u inside => ⟨loopless u inside, Nat.le_trans (sizeOf_le_of_contains inside) small⟩

end Node

theorem Scope.sizeOf_declaration_lt {s : Scope} {l : Level} {e : String × Function} (hl : l ∈ s)
    (he : e ∈ l.functions) : sizeOf e.2.declaration < sizeOf s := by
  have inScope := List.sizeOf_lt_of_mem hl
  have inLevel := List.sizeOf_lt_of_mem he
  obtain ⟨locals, functions, exit⟩ := l
  obtain ⟨key, line, name, params, body⟩ := e
  simp only [Level.mk.sizeOf_spec, Prod.mk.sizeOf_spec, Function.mk.sizeOf_spec,
    Function.declaration, Node.function.sizeOf_spec] at *
  omega

namespace Eval
variable {limit : Int} {bound n r : Nat} {t : Node} {s : State}

/-- The limit allows a number of further calls at most, and the stored code has no loops and is not
larger than the bound. -/
structure CallsLeft (limit : Int) (bound r : Nat) (s : State) : Prop where
  calls : limit ≤ s.active + r
  stored : s.scope.Stores (Node.LooplessWithin bound)

namespace CallsLeft

theorem enter (h : CallsLeft limit bound r s) :
    CallsLeft limit bound r { s with scope := s.scope.child } :=
  ⟨h.calls, h.stored.push rfl⟩

theorem leave (h : CallsLeft limit bound r s) :
    CallsLeft limit bound r { s with scope := s.scope.tail } :=
  ⟨h.calls, (Scope.stores_iff_own.1 h.stored).2⟩

/-- An active call uses up one of the calls that are left. -/
theorem call (h : CallsLeft limit bound (r + 1) s) :
    CallsLeft limit bound r { s with active := s.active + 1 } :=
  ⟨by have := h.calls; push_cast at *; omega, h.stored⟩

theorem returned (h : CallsLeft limit bound r s) :
    CallsLeft limit bound (r + 1) { s with active := s.active - 1 } :=
  ⟨by have := h.calls; dsimp only; omega, h.stored⟩

/-- If no call is left, the limit is reached. -/
theorem limitReached (h : CallsLeft limit bound 0 s) : limitReached (some limit) s = true := by
  have := h.calls
  simp only [Eval.limitReached, Option.any_some, decide_eq_true_eq]
  omega

end CallsLeft

theorem declareVariable_settles (x : String) (v : Int) (line : Option Int) :
    Settles (CallsLeft limit bound r) (changing (·.declareVariable x v line)) := by
  refine .changing fun s hs scope h => ?_
  obtain ⟨-, rfl⟩ := Scope.declareVariable_eq_ok_iff.1 h
  exact ⟨hs.calls, (Scope.grown_addVariable ∅ s.scope x v).stores (by simp) hs.stored⟩

theorem declareFunction_settles {f : Function} (name : String) (line : Option Int)
    (code : f.declaration.Everywhere (Node.LooplessWithin bound)) :
    Settles (CallsLeft limit bound r) (changing (·.declareFunction name f line)) := by
  refine .changing fun s hs scope h => ?_
  obtain ⟨-, rfl⟩ := Scope.declareFunction_eq_ok_iff.1 h
  exact ⟨hs.calls, (Scope.grown_addFunction ∅ s.scope name f).stores (by simpa) hs.stored⟩

theorem assign_settles (x : String) (v : Int) (line : Option Int) :
    Settles (CallsLeft limit bound r) (changing (·.assign x v line)) := by
  refine .changing fun s hs scope h => ?_
  have frame := Scope.frame_of_assign? (A := Set.univ) (Scope.assign_eq_ok_iff.1 h) trivial
  exact ⟨hs.calls, frame.stores_iff.2 hs.stored⟩

theorem leave_settles (result : Option Int) :
    Settles (CallsLeft limit bound r) (leave result) := by
  cases result with
  | none => exact .pure none
  | some v =>
    refine .bind (.changing fun s hs scope h => ?_) fun _ => .pure (some v)
    obtain ⟨free, rfl⟩ := Scope.setExit_some_eq_ok_iff.1 h
    exact ⟨hs.calls, (Scope.grown_setExit ∅ free v).stores (by simp) hs.stored⟩

theorem bindParams_settles (line : Int) (ps : List (String × Int)) :
    Settles (CallsLeft limit bound r) (bindParams line ps) := by
  induction ps with
  | nil => exact .pure ()
  | cons p ps ih => exact .bind (declareVariable_settles p.1 p.2 line) fun _ => ih

/-- What a tree needs with a number of calls left. Every level of its nesting takes two units at
most, one for a statement and one for the expression that the statement is. -/
noncomputable def need (bound r : Nat) (t : Node) : Nat := 2 * sizeOf t + r * (2 * bound)

theorem need_part (bound r : Nat) {u : Node} (h : u ∈ t.parts) :
    need bound r u + 2 ≤ need bound r t := by
  have := Node.sizeOf_lt_of_mem_parts h
  unfold need
  omega

/-- A body that a call runs needs less than the call, which has one call more left. -/
theorem need_body {u : Node} (small : sizeOf u ≤ bound) :
    need bound r u < need bound (r + 1) t := by
  have positive : 0 < sizeOf t := by cases t <;> simp +arith
  unfold need
  rw [Nat.add_one_mul r (2 * bound)]
  omega

/-- Runs of loopless code end within an allowance that is more than the code needs. -/
structure SettlesWithin (limit : Int) (bound n : Nat) : Prop where
  expression : ∀ r t, t.Everywhere (Node.LooplessWithin bound) → need bound r t < n →
    Settles (CallsLeft limit bound r) (expression (some limit) n t)
  statement : ∀ r t, t.Everywhere (Node.LooplessWithin bound) → need bound r t + 1 < n →
    Settles (CallsLeft limit bound r) (statement (some limit) n t)
  block : ∀ r t, t.Everywhere (Node.LooplessWithin bound) → need bound r t < n →
    Settles (CallsLeft limit bound r) (block (some limit) n t)

namespace SettlesWithin

/-- The body of a call runs with one call less left. If none is left, the call is refused. -/
theorem counted (ih : SettlesWithin limit bound n) {body : Node} (line : Int)
    (code : body.Everywhere (Node.LooplessWithin bound))
    (enough : ∀ r', r = r' + 1 → need bound r' body < n) :
    Settles (CallsLeft limit bound r)
      (Eval.counted (some limit) line (Eval.block (some limit) n body)) := by
  cases r with
  | zero =>
    have never : Settles (fun _ => False) (Eval.block (some limit) n body) := fun _ h => h.elim
    refine .counted never (fun s hs below => ?_) (fun _ h => h.elim)
    rw [hs.limitReached] at below
    contradiction
  | succ r =>
    exact .counted (ih.block r body code (enough r rfl)) (fun _ hs _ => hs.call)
      (fun _ hs => hs.returned)

theorem invoke (ih : SettlesWithin limit bound n) (line : Int) (name : String)
    (values : List Int) (enough : need bound r t < n + 1) :
    Settles (CallsLeft limit bound r)
      (Eval.invoke (some limit) (Eval.block (some limit) n) line name values) := by
  intro s hs
  simp only [Eval.invoke, bind_apply, asking]
  cases found : s.scope.function? name with
  | none =>
    dsimp only
    split
    · exact ⟨hs.calls, hs.stored⟩
    · trivial
  | some f =>
    dsimp only
    split
    · have code := hs.stored.body_of_function? found
      have body : Settles (CallsLeft limit bound r) _ := ih.counted line code fun r' more => by
        have := need_body (t := t) (r := r') code.self.small
        subst more
        omega
      have called : Settles (CallsLeft limit bound r) _ :=
        .bind (bindParams_settles f.line (f.params.zip values)) fun _ => body
      have inside := Settles.nested called (fun _ h => h.enter) (fun _ h => h.leave)
      have enter : Settles (CallsLeft limit bound r)
          (Eval.enter (some limit) (Eval.block (some limit) n) line f values) :=
        .bind inside fun result => .pure (result.getD 0)
      have record : Settles (CallsLeft limit bound r) (recordCall ⟨line, name, values⟩) :=
        fun _ h => ⟨h.calls, h.stored⟩
      exact Settles.bind record (fun _ => enter) s hs
    · trivial

theorem expression_succ (ih : SettlesWithin limit bound n)
    (code : t.Everywhere (Node.LooplessWithin bound)) (enough : need bound r t < n + 1) :
    Settles (CallsLeft limit bound r) (Eval.expression (some limit) (n + 1) t) := by
  have value : ∀ p ∈ t.parts,
      Settles (CallsLeft limit bound r) (Eval.expression (some limit) n p) := fun p mem => by
    have := need_part bound r mem
    exact ih.expression r p (code.part mem) (by omega)
  cases t with
  | literal v => exact .pure v
  | reference line x => exact .lookUp line x
  | binary op l r =>
    rw [Eval.expression]
    apply Settles.bind (value l (by simp [Node.parts]))
    intro a
    exact .bind (value r (by simp [Node.parts])) fun b => .operate op a b
  | call line name args =>
    rw [Eval.expression]
    exact .bind (.inOrder value) fun values => ih.invoke line name values enough
  | _ => exact .fail _ _

theorem block_succ (ih : SettlesWithin limit bound n)
    (code : t.Everywhere (Node.LooplessWithin bound)) (enough : need bound r t < n + 1) :
    Settles (CallsLeft limit bound r) (Eval.block (some limit) (n + 1) t) := by
  cases t with
  | block statements =>
    rw [Eval.block]
    have each : ∀ p ∈ statements,
        Settles (CallsLeft limit bound r) (Eval.statement (some limit) n p) := fun p mem => by
      have := need_part bound r (t := .block statements) mem
      exact ih.statement r p (code.part mem) (by omega)
    exact .nested (.untilExit each) (fun _ h => h.enter) (fun _ h => h.leave)
  | _ => exact .fail _ _

theorem statement_succ (ih : SettlesWithin limit bound n)
    (code : t.Everywhere (Node.LooplessWithin bound)) (enough : need bound r t + 1 < n + 1) :
    Settles (CallsLeft limit bound r) (Eval.statement (some limit) (n + 1) t) := by
  have within : ∀ p ∈ t.parts, need bound r p < n := fun p mem => by
    have := need_part bound r mem
    omega
  have value : ∀ p ∈ t.parts,
      Settles (CallsLeft limit bound r) (Eval.expression (some limit) n p) :=
    fun p mem => ih.expression r p (code.part mem) (within p mem)
  have run : ∀ p ∈ t.parts, Settles (CallsLeft limit bound r) (Eval.block (some limit) n p) :=
    fun p mem => ih.block r p (code.part mem) (within p mem)
  cases t with
  | declare line x init =>
    rw [Eval.statement]
    apply Settles.bind (.startValue (value init (by simp [Node.parts])))
    intro v
    exact .bind (declareVariable_settles x v line) fun _ => .pure none
  | assign line x e =>
    rw [Eval.statement]
    apply Settles.bind (value e (by simp [Node.parts]))
    intro v
    exact .bind (assign_settles x v line) fun _ => .pure none
  | function line name params body =>
    rw [Eval.statement]
    exact .bind (declareFunction_settles name line code) fun _ => .pure none
  | branch condition yes no =>
    rw [Eval.statement]
    apply Settles.bind (value condition (by simp [Node.parts]))
    intro c
    have hyes := run yes (by simp [Node.parts])
    have hno := run no (by simp [Node.parts])
    exact .bind (.select hyes hno) fun result => leave_settles result
  | loop condition body => cases code.self.loopless
  | exit e =>
    rw [Eval.statement]
    exact .bind (value e (by simp [Node.parts])) fun v => leave_settles (some v)
  | literal | reference | binary | call =>
    exact .bind (ih.expression r _ code (by omega)) fun _ => .pure none
  | _ => exact .fail _ _

end SettlesWithin

theorem settlesWithin (limit : Int) (bound n : Nat) : SettlesWithin limit bound n := by
  induction n with
  | zero => constructor <;> intro r t _ none <;> exact absurd none (Nat.not_lt_zero _)
  | succ n ih =>
    exact ⟨fun _ _ => ih.expression_succ, fun _ _ => ih.statement_succ, fun _ _ => ih.block_succ⟩

/-- A program without loops ends under every limit, from every scope whose functions have no loops
either and with any number of active calls: some result is an end, and every allowance that is
large enough gives this result. -/
theorem loopless_run_ends (code : t.Everywhere (·.isLoop = false))
    (stored : s.scope.Stores (·.isLoop = false)) (limit : Int) :
    ∃ result, result ≠ .unfinished ∧ ∃ n, ∀ m ≥ n, program (some limit) m t s = result := by
  let bound := sizeOf t + sizeOf s.scope
  let r := (limit - s.active).toNat
  let n := need bound r t + 1
  have small : t.Everywhere (Node.LooplessWithin bound) :=
    code.looplessWithin (Nat.le_add_right _ _)
  have start : CallsLeft limit bound r s := by
    refine ⟨by omega, fun l hl e he => (stored l hl e he).looplessWithin ?_⟩
    have := Scope.sizeOf_declaration_lt hl he
    omega
  have ended : program (some limit) n t s ≠ .unfinished := by
    cases t with
    | program body =>
      have mem : body ∈ (Node.program body).parts := List.mem_cons_self
      have enough := need_part bound r mem
      have settles := (settlesWithin limit bound n).block r body (small.part mem) (by omega)
      exact (settles s start).ne_unfinished
    | _ => exact nofun
  refine ⟨_, ended, n, fun m larger => ?_⟩
  exact ((program_extendedBy (some limit) t larger s).resolve_left ended).symm

/-- Two functions that call each other without end, and one in the scope around them that calls
itself, started with three calls active. -/
theorem loopless_run_ends_mutual :
    let t : Node := .program (.block [
      .function 1 "f" ["n"] (.block [.exit (.call 2 "g" [.reference 2 "n", .call 2 "h" []])]),
      .function 3 "g" ["n", "k"] (.block [.exit (.call 4 "f" [.reference 4 "k"])]),
      .call 5 "f" [.literal 0]])
    let h : Function := ⟨9, "h", [], .block [.exit (.call 9 "h" [])]⟩
    let s : State := { scope := [{ functions := [("h", h)] }], active := 3 }
    t.Everywhere (·.isLoop = false) ∧ s.scope.Stores (·.isLoop = false) ∧
      ∃ result, result ≠ .unfinished ∧ ∃ n, ∀ m ≥ n, program (some 2000) m t s = result := by
  intro t h s
  have code : t.Everywhere (·.isLoop = false) := by decide +kernel
  have stored : s.scope.Stores (·.isLoop = false) := by decide +kernel
  exact ⟨code, stored, loopless_run_ends code stored 2000⟩

end Eval
end CallSite

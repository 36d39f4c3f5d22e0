import CallSite.Proofs.Logic.Postcondition

/-! Endings. A task ends in a result if it has the result with every allowance that is large enough.
The rules below tell how a construct ends from how its parts end, whatever allowance each part
takes, so a proof about a given program follows its code and counts no units. -/

namespace CallSite

namespace State

/-- The state in which the body of a called function starts. -/
def called (s : State) (line : Int) (name : String) (f : Function) (values : List Int) : State :=
  { s with
    scope := { locals := f.params.zip values } :: s.scope
    active := s.active + 1
    calls := ⟨line, name, values⟩ :: s.calls }

/-- The state behind a call whose body has ended in this one. -/
def returned (s : State) : State := { s with scope := s.scope.tail, active := s.active - 1 }

/-- The state with an exit value in its own level. -/
def exited (s : State) (v : Int) : State :=
  { s with scope := s.scope.withOwn { s.scope.own with exit := some v } }

end State

namespace Eval
variable {α β : Type} {limit : Option Int} {s t u : State}

/-- With every allowance that is large enough, the task started in the state has the result. -/
def EndsIn (task : Nat → Eval α) (s : State) (r : Result α) : Prop :=
  ∃ n, ∀ m ≥ n, task m s = r

namespace EndsIn

theorem of_eq {task : Nat → Eval α} {r : Result α} (h : ∀ n, task n s = r) : EndsIn task s r :=
  ⟨0, fun n _ => h n⟩

/-- A construct takes one unit of allowance for itself. -/
theorem of_succ {task : Nat → Eval α} {r : Result α} (h : EndsIn (fun n => task (n + 1)) s r) :
    EndsIn task s r := by
  obtain ⟨n, same⟩ := h
  refine ⟨n + 1, fun m larger => ?_⟩
  obtain ⟨k, rfl⟩ := Nat.exists_eq_add_of_le' larger
  exact same (k + n) (by omega)

theorem bind {first : Nat → Eval α} {next : Nat → α → Eval β} {v : α} {r : Result β}
    (h : EndsIn first s (.done v t)) (k : EndsIn (next · v) t r) :
    EndsIn (fun n => first n >>= next n) s r := by
  obtain ⟨i, hi⟩ := h
  obtain ⟨j, hj⟩ := k
  refine ⟨max i j, fun n larger => ?_⟩
  show (first n >>= next n) s = r
  rw [bind_apply, hi n (by omega)]
  exact hj n (by omega)

theorem bind_failed {first : Nat → Eval α} {next : Nat → α → Eval β} {f : Fault}
    (h : EndsIn first s (.failed f t)) :
    EndsIn (fun n => first n >>= next n) s (.failed f t) := by
  obtain ⟨i, hi⟩ := h
  refine ⟨i, fun n larger => ?_⟩
  show (first n >>= next n) s = .failed f t
  rw [bind_apply, hi n larger]

theorem nested {task : Nat → Eval α} {r : Result α}
    (h : EndsIn task { s with scope := s.scope.child } r) :
    EndsIn (fun n => nested (task n)) s (r.mapState fun t => { t with scope := t.scope.tail }) := by
  obtain ⟨i, hi⟩ := h
  exact ⟨i, fun n larger => congrArg (Result.mapState _) (hi n larger)⟩

theorem counted {task : Nat → Eval α} {r : Result α} (line : Int)
    (below : limitReached limit s = false)
    (h : EndsIn task { s with active := s.active + 1 } r) :
    EndsIn (fun n => counted limit line (task n)) s
      (r.mapState fun t => { t with active := t.active - 1 }) := by
  obtain ⟨i, hi⟩ := h
  refine ⟨i, fun n larger => ?_⟩
  show Eval.counted limit line (task n) s = _
  unfold limitReached at below
  rw [Eval.counted, below, if_neg Bool.false_ne_true, hi n larger]

/-! Expressions. -/

theorem literal (v : Int) : EndsIn (expression limit · (.literal v)) s (.done v s) :=
  of_succ (of_eq fun _ => rfl)

theorem reference {line : Int} {x : String} {v : Int} (bound : s.scope.value? x = some v) :
    EndsIn (expression limit · (.reference line x)) s (.done v s) := by
  refine of_succ (of_eq fun n => ?_)
  rw [expression, lookUp, bind_apply, asking, bound]
  rfl

theorem binary {op : BinaryOperator} {l r : Node} {a b v : Int}
    (left : EndsIn (expression limit · l) s (.done a t))
    (right : EndsIn (expression limit · r) t (.done b u)) (total : op.value? a b = some v) :
    EndsIn (expression limit · (.binary op l r)) s (.done v u) := by
  have result : operate op a b u = .done v u := by
    rw [operate, total]
    rfl
  exact of_succ (.bind left (.bind right (of_eq fun _ => result)))

theorem binary_failed {op : BinaryOperator} {l r : Node} {a : Int} {f : Fault}
    (left : EndsIn (expression limit · l) s (.done a t))
    (right : EndsIn (expression limit · r) t (.failed f u)) :
    EndsIn (expression limit · (.binary op l r)) s (.failed f u) :=
  of_succ (.bind left (.bind_failed right))

theorem inOrder_nil {value : Nat → Node → Eval α} :
    EndsIn (fun n => inOrder (value n) []) s (.done [] s) := of_eq fun _ => rfl

theorem inOrder_cons {value : Nat → Node → Eval α} {e : Node} {es : List Node} {v : α}
    {vs : List α} (head : EndsIn (value · e) s (.done v t))
    (tail : EndsIn (fun n => inOrder (value n) es) t (.done vs u)) :
    EndsIn (fun n => inOrder (value n) (e :: es)) s (.done (v :: vs) u) :=
  .bind head (.bind tail (of_eq fun _ => rfl))

theorem inOrder_one {value : Nat → Node → Eval α} {e : Node} {v : α}
    (h : EndsIn (value · e) s (.done v t)) :
    EndsIn (fun n => inOrder (value n) [e]) s (.done [v] t) := .inOrder_cons h .inOrder_nil

theorem inOrder_failed {value : Nat → Node → Eval α} {e : Node} {es : List Node} {f : Fault}
    (head : EndsIn (value · e) s (.failed f t)) :
    EndsIn (fun n => inOrder (value n) (e :: es)) s (.failed f t) := .bind_failed head

theorem call {line : Int} {name : String} {es : List Node} {values : List Int} {r : Result Int}
    (args : EndsIn (fun n => inOrder (expression limit n) es) s (.done values t))
    (called : EndsIn (fun n => invoke limit (block limit n) line name values) t r) :
    EndsIn (expression limit · (.call line name es)) s r :=
  of_succ (.bind args called)

theorem call_failed {line : Int} {name : String} {es : List Node} {f : Fault}
    (args : EndsIn (fun n => inOrder (expression limit n) es) s (.failed f t)) :
    EndsIn (expression limit · (.call line name es)) s (.failed f t) :=
  of_succ (.bind_failed args)

end EndsIn

theorem limitReached_eq_false_iff :
    limitReached limit s = false ↔ ∀ m, limit = some m → (s.active : Int) < m := by
  cases limit <;> simp [limitReached]

/-- Parameters with different names are bound to their values in order. -/
theorem bindParams_of_nodup {line : Int} {ps : Bindings Int} {l : Level} {outer : Scope}
    (hs : s.scope = l :: outer) (distinct : (l.locals.names ++ ps.names).Nodup) :
    bindParams line ps s =
      .done () { s with scope := { l with locals := l.locals ++ ps } :: outer } := by
  induction ps generalizing s l with
  | nil =>
    rw [List.append_nil, ← hs]
    rfl
  | cons p ps ih =>
    have fresh : l.locals.get? p.1 = none := by
      rw [Bindings.get?_eq_none_iff]
      intro listed
      exact (List.nodup_append.1 distinct).2.2 p.1 listed p.1 List.mem_cons_self rfl
    have declared : s.scope.declareVariable p.1 p.2 line =
        .ok ({ l with locals := l.locals.add p.1 p.2 } :: outer) := by
      rw [Scope.declareVariable_eq_ok_iff, hs]
      exact ⟨fresh, rfl⟩
    rw [bindParams, bind_apply, changing, declared]
    dsimp only
    rw [ih rfl (by simpa using distinct)]
    simp [Bindings.add]

namespace EndsIn

/-! Calls. -/

theorem invoke_print {line : Int} {values : List Int}
    (missing : s.scope.function? printName = none) :
    EndsIn (fun n => invoke limit (block limit n) line printName values) s
      (.done 0 { s with printed := s.printed ++ Text.printedLine values }) := by
  refine of_eq fun n => ?_
  rw [invoke, bind_apply, asking, missing]
  rfl

section Function
variable {line : Int} {name : String} {f : Function} {values : List Int}

/-- A call that fits its function is recorded first. -/
theorem invoke {r : Result Int} (found : s.scope.function? name = some f)
    (fits : values.length = f.arity)
    (entered : EndsIn (fun n => enter limit (block limit n) line f values)
      { s with calls := ⟨line, name, values⟩ :: s.calls } r) :
    EndsIn (fun n => invoke limit (block limit n) line name values) s r := by
  obtain ⟨i, hi⟩ := entered
  refine ⟨i, fun n larger => ?_⟩
  show Eval.invoke limit (block limit n) line name values s = r
  rw [Eval.invoke, bind_apply, asking, found]
  dsimp only
  rw [if_pos fits, bind_apply]
  exact hi n larger

/-- Then the parameters are bound in a level of their own. -/
theorem params {r : Result (Option Int)} (fits : values.length = f.arity)
    (distinct : f.params.Nodup)
    (body : EndsIn (fun n => Eval.counted limit line (block limit n f.body))
      { s with scope := { locals := f.params.zip values } :: s.scope } r) :
    EndsIn (fun n => Eval.nested do
        bindParams f.line (f.params.zip values)
        Eval.counted limit line (block limit n f.body)) s
      (r.mapState fun t => { t with scope := t.scope.tail }) := by
  have names : Bindings.names (f.params.zip values) = f.params :=
    List.map_fst_zip (Nat.le_of_eq fits.symm)
  have bound : bindParams f.line (f.params.zip values) { s with scope := s.scope.child } =
      .done () { s with scope := { locals := f.params.zip values } :: s.scope } :=
    bindParams_of_nodup (l := {}) rfl (names.symm ▸ distinct)
  exact .nested (.bind (of_eq fun _ => bound) body)

theorem invoke_done {result : Option Int} (found : s.scope.function? name = some f)
    (fits : values.length = f.arity) (distinct : f.params.Nodup)
    (below : limitReached limit s = false)
    (body : EndsIn (block limit · f.body) (s.called line name f values) (.done result t)) :
    EndsIn (fun n => Eval.invoke limit (block limit n) line name values) s
      (.done (result.getD 0) t.returned) := by
  have inside := params (s := { s with calls := ⟨line, name, values⟩ :: s.calls }) fits distinct
    (counted line below body)
  exact invoke found fits (.bind inside (of_eq fun _ => rfl))

theorem invoke_failed {e : Fault} (found : s.scope.function? name = some f)
    (fits : values.length = f.arity) (distinct : f.params.Nodup)
    (below : limitReached limit s = false)
    (body : EndsIn (block limit · f.body) (s.called line name f values) (.failed e t)) :
    EndsIn (fun n => Eval.invoke limit (block limit n) line name values) s
      (.failed e t.returned) := by
  have inside := params (s := { s with calls := ⟨line, name, values⟩ :: s.calls }) fits distinct
    (counted line below body)
  exact invoke found fits (.bind_failed inside)

/-- A call over the limit is recorded too. -/
theorem invoke_refused (found : s.scope.function? name = some f)
    (fits : values.length = f.arity) (distinct : f.params.Nodup)
    (reached : limitReached limit s = true) :
    EndsIn (fun n => Eval.invoke limit (block limit n) line name values) s
      (.failed ⟨.recursionDepthExceeded, some line⟩
        { s with calls := ⟨line, name, values⟩ :: s.calls }) := by
  let recorded : State := { s with calls := ⟨line, name, values⟩ :: s.calls }
  let bound : State := { recorded with scope := { locals := f.params.zip values } :: s.scope }
  have refused : ∀ m : Eval (Option Int),
      Eval.counted limit line m bound = .failed ⟨.recursionDepthExceeded, some line⟩ bound :=
    fun m => if_pos reached
  have inside := params (s := recorded) fits distinct (of_eq fun n => refused (block limit n f.body))
  exact invoke found fits (.bind_failed inside)

end Function

/-! Statements. -/

theorem evaluate {e : Node} {v : Int} (h : e.isExpression = true)
    (value : EndsIn (expression limit · e) s (.done v t)) :
    EndsIn (statement limit · e) s (.done none t) := by
  have last : EndsIn (fun n => do let _ ← expression limit n e; return none : Nat → Eval (Option Int))
      s (.done none t) := .bind value (of_eq fun _ => rfl)
  cases e with
  | literal | binary | reference | call => exact of_succ last
  | _ => cases h

theorem evaluate_failed {e : Node} {f : Fault} (h : e.isExpression = true)
    (value : EndsIn (expression limit · e) s (.failed f t)) :
    EndsIn (statement limit · e) s (.failed f t) := by
  have last : EndsIn (fun n => do let _ ← expression limit n e; return none : Nat → Eval (Option Int))
      s (.failed f t) := .bind_failed value
  cases e with
  | literal | binary | reference | call => exact of_succ last
  | _ => cases h

theorem leave {v : Int} (free : s.scope.own.exit = none) :
    Eval.leave (some v) s = .done (some v) (s.exited v) := by
  have set : s.scope.setExit (some v) = .ok (s.scope.withOwn { s.scope.own with exit := some v }) :=
    Scope.setExit_some_eq_ok_iff.2 ⟨free, rfl⟩
  rw [Eval.leave, bind_apply, changing, set]
  rfl

theorem exit {e : Node} {v : Int} (value : EndsIn (expression limit · e) s (.done v t))
    (free : t.scope.own.exit = none) :
    EndsIn (statement limit · (.exit e)) s (.done (some v) (t.exited v)) :=
  of_succ (.bind value (of_eq fun _ => leave free))

theorem exit_failed {e : Node} {f : Fault} (value : EndsIn (expression limit · e) s (.failed f t)) :
    EndsIn (statement limit · (.exit e)) s (.failed f t) :=
  of_succ (.bind_failed value)

/-- A branch that is taken and returns. -/
theorem branch_exit {condition yes no : Node} {c v : Int}
    (value : EndsIn (expression limit · condition) s (.done c t)) (holds : c ≠ 0)
    (selected : EndsIn (block limit · yes) t (.done (some v) u)) (free : u.scope.own.exit = none) :
    EndsIn (statement limit · (.branch condition yes no)) s (.done (some v) (u.exited v)) := by
  have taken : EndsIn (fun n => select (block limit n) c yes no) t (.done (some v) u) := by
    simpa only [select, if_pos holds] using selected
  exact of_succ (.bind value (.bind taken (of_eq fun _ => leave free)))

/-- A branch that is not taken and has no other part. -/
theorem branch_skipped {condition yes : Node}
    (value : EndsIn (expression limit · condition) s (.done 0 t)) :
    EndsIn (statement limit · (.branch condition yes .nothing)) s (.done none t) :=
  of_succ (.bind value (of_eq fun _ => rfl))

/-- A change of the scope that is made, as the last step of a statement. -/
theorem change {f : Scope → Except Fault Scope} {scope : Scope} (made : f s.scope = .ok scope) :
    EndsIn (fun _ => do changing f; return none : Nat → Eval (Option Int)) s
      (.done none { s with scope }) := by
  refine of_eq fun _ => ?_
  rw [bind_apply, changing, made]
  rfl

theorem declare {line : Int} {x : String} {e : Node} {v : Int} (given : e ≠ .nothing)
    (value : EndsIn (expression limit · e) s (.done v t))
    (fresh : t.scope.own.locals.get? x = none) :
    EndsIn (statement limit · (.declare line x e)) s (.done none { t with
      scope := t.scope.withOwn { t.scope.own with locals := t.scope.own.locals.add x v } }) := by
  have start : EndsIn (fun n => startValue (expression limit n) e) s (.done v t) := by
    simpa only [startValue, if_neg given] using value
  exact of_succ (.bind start (change (Scope.declareVariable_eq_ok_iff.2 ⟨fresh, rfl⟩)))

theorem assign {line : Int} {x : String} {e : Node} {v : Int} {scope : Scope}
    (value : EndsIn (expression limit · e) s (.done v t))
    (assigned : t.scope.assign? x v = some scope) :
    EndsIn (statement limit · (.assign line x e)) s (.done none { t with scope }) :=
  of_succ (.bind value (change (Scope.assign_eq_ok_iff.2 assigned)))

theorem function {line : Int} {name : String} {params : List String} {body : Node}
    (fresh : s.scope.own.functions.get? name = none) :
    EndsIn (statement limit · (.function line name params body)) s (.done none { s with
      scope := s.scope.withOwn { s.scope.own with
        functions := s.scope.own.functions.add name ⟨line, name, params, body⟩ } }) :=
  of_succ (change (Scope.declareFunction_eq_ok_iff.2 ⟨fresh, rfl⟩))

/-- A loop comes to its end when its condition fails. -/
theorem loop_end {condition body : Node}
    (value : EndsIn (expression limit · condition) s (.done 0 t)) :
    EndsIn (statement limit · (.loop condition body)) s (.done none t) :=
  of_succ (.bind value (of_eq fun _ => rfl))

/-- A turn of a loop that does not return is followed by the rest of the loop. -/
theorem loop_turn {condition body : Node} {c : Int} {r : Result (Option Int)}
    (value : EndsIn (expression limit · condition) s (.done c t)) (holds : c ≠ 0)
    (turn : EndsIn (block limit · body) t (.done none u))
    (rest : EndsIn (statement limit · (.loop condition body)) u r) :
    EndsIn (statement limit · (.loop condition body)) s r := by
  refine of_succ (.bind value ?_)
  simp only [if_pos holds]
  exact .bind turn rest

/-! Blocks. -/

theorem untilExit_nil {run : Nat → Node → Eval (Option α)} :
    EndsIn (fun n => untilExit (run n) []) s (.done none s) := of_eq fun _ => rfl

theorem untilExit_next {run : Nat → Node → Eval (Option α)} {b : Node} {bs : List Node}
    {r : Result (Option α)} (first : EndsIn (run · b) s (.done none t))
    (rest : EndsIn (fun n => untilExit (run n) bs) t r) :
    EndsIn (fun n => untilExit (run n) (b :: bs)) s r := .bind first rest

theorem untilExit_exit {run : Nat → Node → Eval (Option α)} {b : Node} {bs : List Node} {v : α}
    (first : EndsIn (run · b) s (.done (some v) t)) :
    EndsIn (fun n => untilExit (run n) (b :: bs)) s (.done (some v) t) :=
  .bind first (of_eq fun _ => rfl)

theorem untilExit_failed {run : Nat → Node → Eval (Option α)} {b : Node} {bs : List Node} {f : Fault}
    (first : EndsIn (run · b) s (.failed f t)) :
    EndsIn (fun n => untilExit (run n) (b :: bs)) s (.failed f t) := .bind_failed first

theorem block {bs : List Node} {r : Result (Option Int)}
    (statements : EndsIn (fun n => untilExit (statement limit n) bs)
      { s with scope := s.scope.child } r) :
    EndsIn (Eval.block limit · (.block bs)) s
      (r.mapState fun t => { t with scope := t.scope.tail }) :=
  of_succ (.nested statements)

/-! Blocks that return a given value at once if a condition holds. -/

theorem guard_exit {condition : Node} {bs : List Node} {c v : Int}
    (value : EndsIn (expression limit · condition) { s with scope := s.scope.child }
      (.done c { s with scope := s.scope.child })) (holds : c ≠ 0) :
    EndsIn (Eval.block limit ·
        (.block (.branch condition (.block [.exit (.literal v)]) .nothing :: bs))) s
      (.done (some v) s) := by
  let inner : State := { s with scope := s.scope.child }
  have exits : EndsIn (Eval.block limit · (.block [.exit (.literal v)])) inner
      (.done (some v) inner) := .block (.untilExit_exit (.exit (.literal v) rfl))
  exact .block (.untilExit_exit (.branch_exit value holds exits rfl))

theorem guard_skipped {condition : Node} {bs : List Node} {v : Int} {r : Result (Option Int)}
    (value : EndsIn (expression limit · condition) { s with scope := s.scope.child }
      (.done 0 { s with scope := s.scope.child }))
    (rest : EndsIn (fun n => untilExit (statement limit n) bs) { s with scope := s.scope.child } r) :
    EndsIn (Eval.block limit ·
        (.block (.branch condition (.block [.exit (.literal v)]) .nothing :: bs))) s
      (r.mapState fun t => { t with scope := t.scope.tail }) :=
  .block (.untilExit_next (.branch_skipped value) rest)

end EndsIn
end Eval
end CallSite

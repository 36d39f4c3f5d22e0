import CallSite.Proofs.Code.Renaming
import CallSite.Proofs.Logic.Alongside

/-! Names and lines carry no meaning beyond identity. A renamed program that runs in a renamed scope
does what the program does in the scope, with the names and lines in its faults and in its final
scopes renamed. So the namespaces never mix, a lookup only compares names, the printing function has
the only name of its own, and a line goes nowhere but into a fault. -/

namespace CallSite.Eval
variable {α : Type} {ρ : Renaming} {limit : Option Int} {n : Nat} {t : Node}

/-- From a renamed state the second step has the renamed result of the first one. -/
abbrev Renamed (ρ : Renaming) (m m' : Eval α) : Prop :=
  Alongside (fun f g => g = f.rename ρ) (fun s u => u = s.rename ρ) m m'

theorem Renamed.apply {m m' : Eval α} (h : Renamed ρ m m') (s : State) :
    m' (s.rename ρ) = (m s).rename ρ := by
  have both := h s _ rfl
  cases hm : m s <;> cases hm' : m' (s.rename ρ) <;> rw [hm, hm'] at both
  case done.done v u w u' =>
    obtain ⟨rfl, rfl⟩ := both
    rfl
  case failed.failed f u g u' =>
    obtain ⟨rfl, rfl⟩ := both
    rfl
  case unfinished.unfinished => rfl
  all_goals exact both.elim

/-- Two changes of scopes that are made or refused together, up to the renaming. -/
theorem changing_renamed {f f' : Scope → Except Fault Scope}
    (made : ∀ s u, f s = .ok u → f' (s.rename ρ) = .ok (u.rename ρ))
    (refused : ∀ s e, f s = .error e → f' (s.rename ρ) = .error (e.rename ρ)) :
    Renamed ρ (changing f) (changing f') := by
  refine .changing (fun s t related u h => ?_) fun s t related e h => ?_
  · subst related
    exact ⟨_, made _ u h, rfl⟩
  · subst related
    exact ⟨_, refused _ e h, rfl⟩

theorem declareVariable_renamed (x : String) (v line : Int) :
    Renamed ρ (changing (·.declareVariable x v line))
      (changing (·.declareVariable (ρ.vars x) v (ρ.line line))) := by
  refine changing_renamed (fun s u h => ?_) fun s e h => ?_
  · obtain ⟨fresh, rfl⟩ := Scope.declareVariable_eq_ok_iff.1 h
    rw [Scope.declareVariable_eq_ok_iff, Scope.own_rename, Level.get?_locals_rename,
      Scope.withOwn_rename]
    exact ⟨fresh, by simp only [Level.rename, Bindings.add_rename, id]⟩
  · obtain ⟨taken, rfl⟩ := Scope.declareVariable_eq_error_iff.1 h
    rw [Scope.declareVariable_eq_error_iff, Scope.own_rename, Level.get?_locals_rename]
    exact ⟨taken, rfl⟩

theorem declareFunction_renamed (name : String) (f : Function) (line : Int) :
    Renamed ρ (changing (·.declareFunction name f line))
      (changing (·.declareFunction (ρ.funs name) (f.rename ρ) (ρ.line line))) := by
  refine changing_renamed (fun s u h => ?_) fun s e h => ?_
  · obtain ⟨fresh, rfl⟩ := Scope.declareFunction_eq_ok_iff.1 h
    rw [Scope.declareFunction_eq_ok_iff, Scope.own_rename, Level.get?_functions_rename,
      Scope.withOwn_rename]
    exact ⟨by rw [fresh]; rfl, by simp only [Level.rename, Bindings.add_rename]⟩
  · obtain ⟨taken, rfl⟩ := Scope.declareFunction_eq_error_iff.1 h
    rw [Scope.declareFunction_eq_error_iff, Scope.own_rename, Level.get?_functions_rename]
    exact ⟨by simpa using taken, rfl⟩

theorem assign_renamed (x : String) (v line : Int) :
    Renamed ρ (changing (·.assign x v line)) (changing (·.assign (ρ.vars x) v (ρ.line line))) := by
  refine changing_renamed (fun s u h => ?_) fun s e h => ?_
  · rw [Scope.assign_eq_ok_iff] at h ⊢
    rw [Scope.assign?_rename, h]
    rfl
  · obtain ⟨unbound, rfl⟩ := Scope.assign_eq_error_iff.1 h
    rw [Scope.assign_eq_error_iff, Scope.value?_rename]
    exact ⟨unbound, rfl⟩

theorem leave_renamed (r : Option Int) : Renamed ρ (leave r) (leave r) := by
  cases r with
  | none => exact .pure none
  | some v =>
    refine .bind (changing_renamed (fun s u h => ?_) fun s e h => ?_) fun _ => .pure (some v)
    · obtain ⟨free, rfl⟩ := Scope.setExit_some_eq_ok_iff.1 h
      rw [Scope.setExit_some_eq_ok_iff, Scope.own_rename, Scope.withOwn_rename]
      exact ⟨free, rfl⟩
    · obtain ⟨old, taken, rfl⟩ := Scope.setExit_some_eq_error_iff.1 h
      rw [Scope.setExit_some_eq_error_iff, Scope.own_rename]
      exact ⟨old, taken, rfl⟩

theorem bindParams_renamed (line : Int) (ps : List (String × Int)) :
    Renamed ρ (bindParams line ps) (bindParams (ρ.line line) (ps.map (Prod.map ρ.vars id))) := by
  induction ps with
  | nil => exact .pure ()
  | cons p ps ih => exact .bind (declareVariable_renamed p.1 p.2 line) fun _ => ih

/-! The parts of a renamed tree are its parts, renamed. -/

theorem inOrder_map (f : Node → Eval α) (g : Node → Node) (ts : List Node) :
    inOrder f (ts.map g) = inOrder (fun t => f (g t)) ts := by
  induction ts with
  | nil => rfl
  | cons t ts ih => rw [List.map_cons, inOrder, inOrder, ih]

theorem untilExit_map (f : Node → Eval (Option α)) (g : Node → Node) (ts : List Node) :
    untilExit f (ts.map g) = untilExit (fun t => f (g t)) ts := by
  induction ts with
  | nil => rfl
  | cons t ts ih => rw [List.map_cons, untilExit, untilExit, ih]

theorem startValue_rename (f : Node → Eval Int) (init : Node) :
    startValue f (init.rename ρ) = startValue (fun t => f (t.rename ρ)) init := by
  simp only [startValue, Node.rename_eq_nothing_iff]

theorem select_rename (f : Node → Eval (Option Int)) (c : Int) (yes no : Node) :
    select f c (yes.rename ρ) (no.rename ρ) = select (fun t => f (t.rename ρ)) c yes no := by
  simp only [select, Node.rename_eq_nothing_iff]

/-- Runs with an allowance are the same up to the renaming. -/
structure RunsRenamed (ρ : Renaming) (limit : Option Int) (n : Nat) : Prop where
  expression : ∀ t, Renamed ρ (expression limit n t) (expression limit n (t.rename ρ))
  statement : ∀ t, Renamed ρ (statement limit n t) (statement limit n (t.rename ρ))
  block : ∀ t, Renamed ρ (block limit n t) (block limit n (t.rename ρ))

namespace RunsRenamed

theorem enter (ih : RunsRenamed ρ limit n) (line : Int) (f : Function) (values : List Int) :
    Renamed ρ (Eval.enter limit (Eval.block limit n) line f values)
      (Eval.enter limit (Eval.block limit n) (ρ.line line) (f.rename ρ) values) := by
  have params := bindParams_renamed (ρ := ρ) f.line (f.params.zip values)
  rw [← List.zip_map_left] at params
  have body : Renamed ρ (counted limit line (Eval.block limit n f.body))
      (counted limit (ρ.line line) (Eval.block limit n (f.rename ρ).body)) :=
    .counted (ih.block f.body) (by rintro s _ rfl; rfl) rfl (by rintro s _ rfl; rfl)
      (by rintro s _ rfl; rfl)
  have inside : Renamed ρ (nested _) _ := .nested (.bind params fun _ => body)
    (by rintro s _ rfl; rfl) (by rintro s _ rfl; simp [State.rename])
  exact .bind inside fun r => .pure (r.getD 0)

/-- A call finds the renamed function, and it prints if it is the printing function's. -/
theorem invoke (ih : RunsRenamed ρ limit n) (line : Int) (name : String) (values : List Int) :
    Renamed ρ (Eval.invoke limit (Eval.block limit n) line name values)
      (Eval.invoke limit (Eval.block limit n) (ρ.line line) (ρ.funs name) values) := by
  rintro s _ rfl
  have found : (s.rename ρ).scope.function? (ρ.funs name) = _ :=
    Scope.function?_rename ρ s.scope name
  simp only [Eval.invoke, bind_apply, asking, found]
  cases s.scope.function? name with
  | none =>
    simp only [Option.map_none, ρ.funs_eq_print_iff]
    split
    · exact ⟨rfl, rfl⟩
    · exact ⟨rfl, rfl⟩
  | some f =>
    simp only [Option.map_some, Function.arity_rename]
    split
    · have record : Renamed ρ (recordCall ⟨line, name, values⟩)
          (recordCall ⟨ρ.line line, ρ.funs name, values⟩) := by
        rintro s _ rfl
        exact ⟨rfl, rfl⟩
      exact Alongside.bind record (fun _ => ih.enter line f values) s _ rfl
    · exact ⟨rfl, rfl⟩

theorem expression_succ (ih : RunsRenamed ρ limit n) :
    Renamed ρ (Eval.expression limit (n + 1) t) (Eval.expression limit (n + 1) (t.rename ρ)) := by
  cases t with
  | literal v => exact .pure v
  | reference line x =>
    refine .lookUp ?_ rfl
    rintro s _ rfl
    exact (Scope.value?_rename ρ s.scope x).symm
  | binary op l r =>
    rw [Node.rename, Eval.expression, Eval.expression]
    exact .bind (ih.expression l) fun a => .bind (ih.expression r) fun b => .operate a b rfl
  | call line name args =>
    rw [Node.rename, Node.renameAll_eq_map, Eval.expression, Eval.expression, inOrder_map]
    exact .bind (.inOrder fun t _ => ih.expression t) fun values => ih.invoke line name values
  | _ => exact .fail rfl

theorem block_succ (ih : RunsRenamed ρ limit n) :
    Renamed ρ (Eval.block limit (n + 1) t) (Eval.block limit (n + 1) (t.rename ρ)) := by
  cases t with
  | block statements =>
    rw [Node.rename, Node.renameAll_eq_map, Eval.block, Eval.block, untilExit_map]
    exact .nested (.untilExit fun t _ => ih.statement t) (by rintro s _ rfl; rfl)
      (by rintro s _ rfl; simp [State.rename])
  | _ => exact .fail rfl

theorem statement_succ (ih : RunsRenamed ρ limit n) :
    Renamed ρ (Eval.statement limit (n + 1) t) (Eval.statement limit (n + 1) (t.rename ρ)) := by
  cases t with
  | declare line x init =>
    rw [Node.rename, Eval.statement, Eval.statement, startValue_rename]
    apply Alongside.bind (.startValue fun _ => ih.expression init)
    intro v
    exact .bind (declareVariable_renamed x v line) fun _ => .pure none
  | assign line x e =>
    rw [Node.rename, Eval.statement, Eval.statement]
    apply Alongside.bind (ih.expression e)
    intro v
    exact .bind (assign_renamed x v line) fun _ => .pure none
  | function line name params body =>
    exact .bind (declareFunction_renamed name ⟨line, name, params, body⟩ line) fun _ => .pure none
  | branch condition yes no =>
    rw [Node.rename, Eval.statement, Eval.statement]
    apply Alongside.bind (ih.expression condition)
    intro c
    rw [select_rename]
    exact .bind (.select (ih.block yes) fun _ => ih.block no) fun r => leave_renamed r
  | loop condition body =>
    rw [Node.rename, Eval.statement, Eval.statement]
    apply Alongside.bind (ih.expression condition)
    intro c
    split
    · apply Alongside.bind (ih.block body)
      intro r
      cases r with
      | some v => exact leave_renamed (some v)
      | none => exact ih.statement (.loop condition body)
    · exact .pure none
  | exit e =>
    rw [Node.rename, Eval.statement, Eval.statement]
    exact .bind (ih.expression e) fun v => leave_renamed (some v)
  | literal | reference | binary | call => exact .bind (ih.expression _) fun _ => .pure none
  | _ => exact .fail rfl

end RunsRenamed

theorem runsRenamed (ρ : Renaming) (limit : Option Int) (n : Nat) : RunsRenamed ρ limit n := by
  induction n with
  | zero => constructor <;> intro t <;> exact fun _ _ _ => trivial
  | succ n ih =>
    exact ⟨fun _ => ih.expression_succ, fun _ => ih.statement_succ, fun _ => ih.block_succ⟩

/-- A renamed program in a renamed scope ends if and only if the program ends, with the same exit
value or the renamed fault, the same output and the renamed scopes. -/
theorem program_rename (ρ : Renaming) (limit : Option Int) (n : Nat) (t : Node) (s : State) :
    program limit n (t.rename ρ) (s.rename ρ) = (program limit n t s).rename ρ := by
  cases t with
  | program body => exact ((runsRenamed ρ limit n).block body).apply s
  | _ => rfl

/-- A variable takes the name of a function that is not declared, and everything is on one line. -/
theorem program_rename_traded :
    let ρ : Renaming := .trade "x" "g" "f" "g" (by decide) (by decide) 0
    let t : Node := .program (.block [
      .function 1 "f" ["y"] (.block [.exit (.binary .plus (.reference 2 "x") (.reference 2 "y"))]),
      .call 3 "println" [.call 3 "f" [.literal 4]],
      .call 4 "g" []])
    let t' : Node := .program (.block [
      .function 0 "g" ["y"] (.block [.exit (.binary .plus (.reference 0 "g") (.reference 0 "y"))]),
      .call 0 "println" [.call 0 "g" [.literal 4]],
      .call 0 "f" []])
    let s : State := { scope := [{ locals := [("x", 3)] }] }
    let u : State := { s with printed := "7 \n", calls := [⟨3, "f", [4]⟩] }
    program none 9 t s = .failed ⟨.unboundFunction "g", some 4⟩ u ∧
      t.rename ρ = t' ∧ program none 9 t' (s.rename ρ) =
        .failed ⟨.unboundFunction "f", some 0⟩ { u with
          scope := [{ locals := [("g", 3)] }], calls := [⟨0, "g", [4]⟩] } := by
  intro ρ t t' s u
  have failed : program none 9 t s = .failed ⟨.unboundFunction "g", some 4⟩ u := by decide +kernel
  have renamed : t.rename ρ = t' := by decide +kernel
  refine ⟨failed, renamed, ?_⟩
  rw [← renamed, program_rename, failed]
  rfl

end CallSite.Eval

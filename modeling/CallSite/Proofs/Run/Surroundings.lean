import CallSite.Proofs.Logic.Alongside
import CallSite.Proofs.Scope.Frame

/-! A run sees the scope around it through lookups only. Two scopes of any shape in which the
names that the code uses are looked up alike give runs of the code that end alike and print the
same, and the scopes that are left are looked up alike again. While such runs go on, the levels
that they have entered are the same on both sides, and only the levels below these may differ. -/

namespace CallSite
variable {V F : Set String}

/-- The tree names no variable outside the first set and no function outside the second one. -/
def Node.namesOnly (V F : Set String) : Node → Prop
  | .reference _ x | .assign _ x _ => x ∈ V
  | .call _ name _ => name ∈ F
  | _ => True

namespace Scope
variable {k : Nat} {l : Level} {s t u : Scope} {x : String} {v : Int}

/-- Two scopes look the given variables and functions up alike, and the functions that they find
use these names only. -/
structure Agree (V F : Set String) (s t : Scope) : Prop where
  value? : ∀ x ∈ V, s.value? x = t.value? x
  function? : ∀ name ∈ F, s.function? name = t.function? name
  found : ∀ name ∈ F, ∀ f, s.function? name = some f → f.body.Everywhere (Node.namesOnly V F)

/-- Two scopes that agree below a number of equal levels, whose functions use the given names
only. -/
inductive Alike (V F : Set String) : Nat → Scope → Scope → Prop where
  | outer {s t : Scope} (agree : s.Agree V F t) : Alike V F 0 s t
  | inner {k : Nat} {l : Level} {s t : Scope}
      (code : ∀ e ∈ l.functions, e.2.body.Everywhere (Node.namesOnly V F))
      (below : Alike V F k s t) : Alike V F (k + 1) (l :: s) (l :: t)

namespace Alike

/-- Equal levels on top of scopes that agree hide the same names on both sides. -/
theorem agree (h : s.Alike V F k t) : s.Agree V F t := by
  induction h with
  | outer agree => exact agree
  | @inner k l s t code below ih =>
    refine ⟨fun x hx => ?_, fun name hname => ?_, fun name hname f => ?_⟩
    · rw [value?_cons, value?_cons, ih.value? x hx]
    · rw [function?_cons, function?_cons, ih.function? name hname]
    · rw [function?_cons]
      cases here : l.functions.get? name with
      | none => exact ih.found name hname f
      | some g =>
        rintro ⟨⟩
        exact code _ (Bindings.mem_of_get? here)

theorem own_eq (h : s.Alike V F (k + 1) t) : s.own = t.own := by
  cases h
  rfl

theorem own_code (h : s.Alike V F (k + 1) t) :
    ∀ e ∈ s.own.functions, e.2.body.Everywhere (Node.namesOnly V F) := by
  cases h with
  | inner code below => exact code

theorem tail (h : s.Alike V F (k + 1) t) : Alike V F k s.tail t.tail := by
  cases h with
  | inner code below => exact below

theorem withOwn (h : s.Alike V F (k + 1) t)
    (code : ∀ e ∈ l.functions, e.2.body.Everywhere (Node.namesOnly V F)) :
    Alike V F (k + 1) (s.withOwn l) (t.withOwn l) := .inner code h.tail

/-- An assignment goes to the same equal level, or below these to a level of its own on either
side. -/
theorem assign? (h : s.Alike V F k t) (hx : x ∈ V) (hs : s.assign? x v = some u) :
    ∃ w, t.assign? x v = some w ∧ u.Alike V F k w := by
  induction h generalizing u with
  | @outer s t agree =>
    have bound : s.value? x ≠ none := fun missing => by
      rw [assign?_eq_none_iff.2 missing] at hs
      contradiction
    cases ht : t.assign? x v with
    | none => exact absurd ((agree.value? x hx).trans (assign?_eq_none_iff.1 ht)) bound
    | some w =>
      have fs := (frame_of_assign? (A := Set.univ) hs trivial).function?_eq
      have ft := (frame_of_assign? (A := Set.univ) ht trivial).function?_eq
      refine ⟨w, rfl, .outer ⟨fun y hy => ?_, fun name hname => ?_, fun name hname f => ?_⟩⟩
      · rw [value?_assign? hs, value?_assign? ht, agree.value? y hy]
      · rw [fs, ft, agree.function? name hname]
      · rw [fs]
        exact agree.found name hname f
  | @inner k l s t code below ih =>
    cases here : l.locals.get? x with
    | some old =>
      simp only [Scope.assign?, here, Option.some.injEq] at hs ⊢
      subst hs
      exact ⟨_, rfl, .inner code below⟩
    | none =>
      simp only [Scope.assign?, here, Option.map_eq_some_iff] at hs ⊢
      obtain ⟨u, hu, rfl⟩ := hs
      obtain ⟨w, hw, alike⟩ := ih hu
      exact ⟨_, ⟨w, hw, rfl⟩, .inner code alike⟩

end Alike
end Scope

namespace Eval
open Result
variable {limit : Option Int} {n k : Nat} {t : Node} {a b : String} {f : Function}

/-- Two states of runs that go on side by side: they are in scopes that are alike, have the same
number of active calls, and have printed the same since the given texts were printed. -/
structure Beside (V F : Set String) (k : Nat) (a b : String) (s t : State) : Prop where
  scope : s.scope.Alike V F k t.scope
  active : s.active = t.active
  printed : ∃ out, s.printed = a ++ out ∧ t.printed = b ++ out

namespace Beside
variable {s t : State}

theorem print (h : Beside V F k a b s t) (values : List Int) :
    Beside V F k a b { s with printed := s.printed ++ Text.printedLine values }
      { t with printed := t.printed ++ Text.printedLine values } := by
  obtain ⟨out, hs, ht⟩ := h.printed
  exact ⟨h.scope, h.active, out ++ Text.printedLine values, by simp [hs, String.append_assoc],
    by simp [ht, String.append_assoc]⟩

theorem enter (h : Beside V F k a b s t) :
    Beside V F (k + 1) a b { s with scope := s.scope.child } { t with scope := t.scope.child } :=
  ⟨.inner (fun _ mem => absurd mem List.not_mem_nil) h.scope, h.active, h.printed⟩

theorem leave (h : Beside V F (k + 1) a b s t) :
    Beside V F k a b { s with scope := s.scope.tail } { t with scope := t.scope.tail } :=
  ⟨h.scope.tail, h.active, h.printed⟩

/-- The own levels of entered scopes are equal, so a change of them is the same on both sides. -/
theorem changeOwn (h : Beside V F (k + 1) a b s t) (change : Level → Level)
    (code : ∀ e ∈ (change s.scope.own).functions, e.2.body.Everywhere (Node.namesOnly V F)) :
    Beside V F (k + 1) a b { s with scope := s.scope.withOwn (change s.scope.own) }
      { t with scope := t.scope.withOwn (change t.scope.own) } :=
  ⟨h.scope.own_eq ▸ h.scope.withOwn code, h.active, h.printed⟩

end Beside

theorem declareVariable_alongside (x : String) (v : Int) (line : Option Int) :
    Respects (Beside V F (k + 1) a b) (changing (·.declareVariable x v line)) := by
  refine .changing (fun s t h u hu => ?_) fun s t h fault hf => ?_
  · obtain ⟨fresh, rfl⟩ := Scope.declareVariable_eq_ok_iff.1 hu
    rw [h.scope.own_eq] at fresh
    exact ⟨_, Scope.declareVariable_eq_ok_iff.2 ⟨fresh, rfl⟩,
      h.changeOwn (fun l => { l with locals := l.locals.add x v }) h.scope.own_code⟩
  · rw [Scope.declareVariable_eq_error_iff, h.scope.own_eq] at hf
    exact ⟨fault, Scope.declareVariable_eq_error_iff.2 hf, rfl⟩

theorem declareFunction_alongside {name : String} {line : Option Int}
    (code : f.body.Everywhere (Node.namesOnly V F)) :
    Respects (Beside V F (k + 1) a b) (changing (·.declareFunction name f line)) := by
  refine .changing (fun s t h u hu => ?_) fun s t h fault hf => ?_
  · obtain ⟨fresh, rfl⟩ := Scope.declareFunction_eq_ok_iff.1 hu
    rw [h.scope.own_eq] at fresh
    refine ⟨_, Scope.declareFunction_eq_ok_iff.2 ⟨fresh, rfl⟩,
      h.changeOwn (fun l => { l with functions := l.functions.add name f }) ?_⟩
    exact List.forall_mem_append.2 ⟨h.scope.own_code, List.forall_mem_singleton.2 code⟩
  · rw [Scope.declareFunction_eq_error_iff, h.scope.own_eq] at hf
    exact ⟨fault, Scope.declareFunction_eq_error_iff.2 hf, rfl⟩

theorem assign_alongside {x : String} (hx : x ∈ V) (v : Int) (line : Option Int) :
    Respects (Beside V F k a b) (changing (·.assign x v line)) := by
  refine .changing (fun s t h u hu => ?_) fun s t h fault hf => ?_
  · obtain ⟨w, hw, alike⟩ := h.scope.assign? hx (Scope.assign_eq_ok_iff.1 hu)
    exact ⟨w, Scope.assign_eq_ok_iff.2 hw, alike, h.active, h.printed⟩
  · rw [Scope.assign_eq_error_iff, h.scope.agree.value? x hx] at hf
    exact ⟨fault, Scope.assign_eq_error_iff.2 hf, rfl⟩

theorem leave_alongside (r : Option Int) : Respects (Beside V F (k + 1) a b) (leave r) := by
  cases r with
  | none => exact .pure none
  | some v =>
    refine .bind (.changing (fun s t h u hu => ?_) fun s t h fault hf => ?_) fun _ => .pure (some v)
    · obtain ⟨free, rfl⟩ := Scope.setExit_some_eq_ok_iff.1 hu
      rw [h.scope.own_eq] at free
      exact ⟨_, Scope.setExit_some_eq_ok_iff.2 ⟨free, rfl⟩,
        h.changeOwn (fun l => { l with exit := some v }) h.scope.own_code⟩
    · rw [Scope.setExit_some_eq_error_iff, h.scope.own_eq] at hf
      exact ⟨fault, Scope.setExit_some_eq_error_iff.2 hf, rfl⟩

theorem bindParams_alongside (line : Int) (ps : List (String × Int)) :
    Respects (Beside V F (k + 1) a b) (bindParams line ps) := by
  induction ps with
  | nil => exact .pure ()
  | cons p ps ih => exact .bind (declareVariable_alongside p.1 p.2 line) fun _ => ih

/-- Runs with an allowance go on side by side, if their code uses the given names only. -/
structure RunsBeside (V F : Set String) (a b : String) (limit : Option Int) (n : Nat) : Prop where
  expression : ∀ t k, t.Everywhere (Node.namesOnly V F) →
    Respects (Beside V F k a b) (expression limit n t)
  statement : ∀ t k, t.Everywhere (Node.namesOnly V F) →
    Respects (Beside V F (k + 1) a b) (statement limit n t)
  block : ∀ t k, t.Everywhere (Node.namesOnly V F) →
    Respects (Beside V F k a b) (block limit n t)

namespace RunsBeside

theorem enter (ih : RunsBeside V F a b limit n) (line : Int) (values : List Int)
    (code : f.body.Everywhere (Node.namesOnly V F)) :
    Respects (Beside V F k a b) (Eval.enter limit (Eval.block limit n) line f values) := by
  have body : Respects (Beside V F (k + 1) a b) (counted limit line (Eval.block limit n f.body)) :=
    .counted (ih.block f.body (k + 1) code)
      (fun s t h => by rw [limitReached, limitReached, h.active]) rfl
      (fun s t h => ⟨h.scope, by simp [h.active], h.printed⟩)
      (fun s t h => ⟨h.scope, by simp [h.active], h.printed⟩)
  have called : Respects (Beside V F (k + 1) a b) _ :=
    .bind (bindParams_alongside f.line (f.params.zip values)) fun _ => body
  have inside := Alongside.nested called (fun _ _ h => Beside.enter h) (fun _ _ h => h.leave)
  exact .bind inside fun r => .pure (r.getD 0)

/-- A called name is looked up alike: both sides enter the same function, print, or fail alike. -/
theorem invoke (ih : RunsBeside V F a b limit n) (line : Int) {name : String} (hname : name ∈ F)
    (values : List Int) :
    Respects (Beside V F k a b) (Eval.invoke limit (Eval.block limit n) line name values) := by
  intro s t h
  have same := h.scope.agree.function? name hname
  have code := h.scope.agree.found name hname
  rw [same] at code
  simp only [Eval.invoke, bind_apply, asking, same]
  cases found : t.scope.function? name with
  | some f =>
    dsimp only
    split
    · have record : Respects (Beside V F k a b) (recordCall ⟨line, name, values⟩) :=
        fun s t h => ⟨rfl, h.scope, h.active, h.printed⟩
      exact Alongside.bind record (fun _ => ih.enter line values (code f found)) s t h
    · exact ⟨rfl, h⟩
  | none =>
    dsimp only
    split
    · exact ⟨rfl, h.print values⟩
    · exact ⟨rfl, h⟩

theorem expression_succ (ih : RunsBeside V F a b limit n)
    (code : t.Everywhere (Node.namesOnly V F)) :
    Respects (Beside V F k a b) (Eval.expression limit (n + 1) t) := by
  cases t with
  | reference line x =>
    rw [Eval.expression]
    exact .lookUp (fun s t h => h.scope.agree.value? x code.self) rfl
  | binary op l r =>
    rw [Eval.expression]
    apply Alongside.bind (ih.expression l k (code.part (by simp [Node.parts])))
    intro v
    exact .bind (ih.expression r k (code.part (by simp [Node.parts]))) fun w => .operate v w rfl
  | call line name args =>
    rw [Eval.expression]
    have each : ∀ t ∈ args, Respects (Beside V F k a b) (Eval.expression limit n t) :=
      fun t mem => ih.expression t k (code.part mem)
    exact .bind (.inOrder each) fun values => ih.invoke line code.self values
  | _ => exact fun s t h => ⟨rfl, h⟩

theorem block_succ (ih : RunsBeside V F a b limit n) (code : t.Everywhere (Node.namesOnly V F)) :
    Respects (Beside V F k a b) (Eval.block limit (n + 1) t) := by
  cases t with
  | block statements =>
    rw [Eval.block]
    have each : ∀ t ∈ statements, Respects (Beside V F (k + 1) a b) (Eval.statement limit n t) :=
      fun t mem => ih.statement t k (code.part mem)
    exact .nested (.untilExit each) (fun _ _ h => Beside.enter h) (fun _ _ h => h.leave)
  | _ => exact fun s t h => ⟨rfl, h⟩

theorem statement_succ (ih : RunsBeside V F a b limit n)
    (code : t.Everywhere (Node.namesOnly V F)) :
    Respects (Beside V F (k + 1) a b) (Eval.statement limit (n + 1) t) := by
  have value : ∀ p ∈ t.parts, Respects (Beside V F (k + 1) a b) (Eval.expression limit n p) :=
    fun p mem => ih.expression p (k + 1) (code.part mem)
  have run : ∀ p ∈ t.parts, Respects (Beside V F (k + 1) a b) (Eval.block limit n p) :=
    fun p mem => ih.block p (k + 1) (code.part mem)
  cases t with
  | declare line x init =>
    rw [Eval.statement]
    apply Alongside.bind (.startValue fun _ => value init (by simp [Node.parts]))
    intro v
    exact .bind (declareVariable_alongside x v line) fun _ => .pure none
  | assign line x e =>
    rw [Eval.statement]
    apply Alongside.bind (value e (by simp [Node.parts]))
    intro v
    exact .bind (assign_alongside code.self v line) fun _ => .pure none
  | function line name params body =>
    rw [Eval.statement]
    exact .bind (declareFunction_alongside (code.part (by simp [Node.parts]))) fun _ => .pure none
  | branch condition yes no =>
    rw [Eval.statement]
    apply Alongside.bind (value condition (by simp [Node.parts]))
    intro c
    have hyes := run yes (by simp [Node.parts])
    have hno := run no (by simp [Node.parts])
    apply Alongside.bind (.select hyes fun _ => hno)
    intro r
    exact leave_alongside r
  | loop condition body =>
    rw [Eval.statement]
    apply Alongside.bind (value condition (by simp [Node.parts]))
    intro c
    split
    · apply Alongside.bind (run body (by simp [Node.parts]))
      intro r
      cases r with
      | some v => exact leave_alongside (some v)
      | none => exact ih.statement _ k code
    · exact .pure none
  | exit e =>
    rw [Eval.statement]
    exact .bind (value e (by simp [Node.parts])) fun v => leave_alongside (some v)
  | literal | reference | binary | call =>
    exact .bind (ih.expression _ (k + 1) code) fun _ => .pure none
  | _ => exact fun s t h => ⟨rfl, h⟩

end RunsBeside

theorem runsBeside (V F : Set String) (a b : String) (limit : Option Int) (n : Nat) :
    RunsBeside V F a b limit n := by
  induction n with
  | zero => constructor <;> intros <;> exact fun _ _ _ => trivial
  | succ n ih =>
    exact ⟨fun _ _ => ih.expression_succ, fun _ _ => ih.statement_succ, fun _ _ => ih.block_succ⟩

/-- Code that uses given names runs alike in all scopes that look these names up alike, whatever
their levels are and whatever else they hold: both runs are unfinished, or both end with the same
value or the same fault, print the same, and leave scopes that look the names up alike. -/
theorem run_congr_of_agree (code : t.Everywhere (Node.namesOnly V F)) {s₁ s₂ : State}
    (agree : s₁.scope.Agree V F s₂.scope) (active : s₁.active = s₂.active) :
    let After : State → State → Prop := fun u₁ u₂ =>
      (∃ out, u₁.printed = s₁.printed ++ out ∧ u₂.printed = s₂.printed ++ out) ∧
        u₁.scope.Agree V F u₂.scope
    (expression limit n t s₁).Alongside Eq After (expression limit n t s₂) ∧
      (block limit n t s₁).Alongside Eq After (block limit n t s₂) := by
  intro After
  have runs := runsBeside V F s₁.printed s₂.printed limit n
  have start : Beside V F 0 s₁.printed s₂.printed s₁ s₂ :=
    ⟨.outer agree, active, "", String.append_empty.symm, String.append_empty.symm⟩
  have after : ∀ u₁ u₂, Beside V F 0 s₁.printed s₂.printed u₁ u₂ → After u₁ u₂ :=
    fun _ _ h => ⟨h.printed, h.scope.agree⟩
  constructor
  · exact (runs.expression t 0 code s₁ s₂ start).mono after
  · exact (runs.block t 0 code s₁ s₂ start).mono after

/-- Variables on other levels, a level between them and a hidden function do not matter to a
caller. -/
theorem run_congr_of_agree_reshaped :
    let V : Set String := {"x", "y"}
    let F : Set String := {"f", "println"}
    let f : Function :=
      ⟨1, "f", ["y"], .block [.exit (.binary .mul (.reference 2 "x") (.reference 2 "y"))]⟩
    let t : Node := .block [
      .assign 3 "x" (.call 3 "f" [.reference 3 "y"]), .call 4 "println" [.reference 4 "x"]]
    let s₁ : State := { scope := [{ locals := [("x", 3), ("y", 5)] }, { functions := [("f", f)] }] }
    let s₂ : State := {
      scope := [{ locals := [("y", 5)], functions := [("f", f)] }, { exit := some 0 },
        { locals := [("z", 1), ("x", 3)], functions := [("f", ⟨0, "f", [], .block []⟩)] }]
      printed := "before\n" }
    t.Everywhere (Node.namesOnly V F) ∧ s₁.scope.Agree V F s₂.scope ∧
      (block none 9 t s₁).Alongside Eq
        (fun u₁ u₂ => (∃ out, u₁.printed = "" ++ out ∧ u₂.printed = "before\n" ++ out) ∧
          u₁.scope.Agree V F u₂.scope) (block none 9 t s₂) := by
  intro V F f t s₁ s₂
  have reference : ∀ line x, x ∈ V → (Node.reference line x).Everywhere (Node.namesOnly V F) :=
    fun _ _ hx => .intro hx (by simp [Node.parts])
  have bodyCode : f.body.Everywhere (Node.namesOnly V F) := by
    refine .intro trivial (List.forall_mem_singleton.2 ?_)
    refine .intro trivial (List.forall_mem_singleton.2 ?_)
    refine .intro trivial (List.forall_mem_cons.2 ⟨?_, List.forall_mem_singleton.2 ?_⟩)
    · exact reference 2 "x" (.inl rfl)
    · exact reference 2 "y" (.inr rfl)
  have code : t.Everywhere (Node.namesOnly V F) := by
    refine .intro trivial (List.forall_mem_cons.2 ⟨?_, List.forall_mem_singleton.2 ?_⟩)
    · refine .intro (.inl rfl) (List.forall_mem_singleton.2 (.intro (.inl rfl) ?_))
      exact List.forall_mem_singleton.2 (reference 3 "y" (.inr rfl))
    · exact .intro (.inr rfl) (List.forall_mem_singleton.2 (reference 4 "x" (.inl rfl)))
  have agree : s₁.scope.Agree V F s₂.scope := by
    refine ⟨?_, ?_, ?_⟩
    · rintro x (rfl | rfl) <;> rfl
    · rintro name (rfl | rfl) <;> rfl
    · rintro name (rfl | rfl) g found
      · obtain rfl : f = g := Option.some.inj found
        exact bodyCode
      · cases found
  exact ⟨code, agree, (run_congr_of_agree code agree rfl).2⟩

end Eval
end CallSite

import CallSite.Proofs.Logic.Postcondition

/-! Returns. Whether a block leaves an exit value is decided by the returns that it has itself: with
one on every way through a statement it never comes to its end without an exit value, and what is
written after that statement is never reached; without any it never leaves an exit value, since a
call takes the exit value of the function's body. -/

namespace CallSite

namespace Node

mutual

/-- Whether every way through a statement or a block ends at a return. A branch without a second
block has a way past its first one. -/
def returns : Node → Bool
  | exit _ => true
  | branch _ yes no => returns yes && returns no
  | block statements => anyReturns statements
  | _ => false

def anyReturns : List Node → Bool
  | [] => false
  | t :: ts => returns t || anyReturns ts

end

theorem anyReturns_iff {ts : List Node} :
    anyReturns ts = true ↔ ∃ t ∈ ts, t.returns = true := by
  induction ts with
  | nil => simp [anyReturns]
  | cons t ts ih => simp [anyReturns, ih]

mutual

/-- Whether a tree has a return outside the bodies of the functions that it declares. -/
def hasReturn : Node → Bool
  | literal _ | reference .. | nothing | integer _ | text _ | function .. => false
  | exit _ => true
  | binary _ l r => hasReturn l || hasReturn r
  | call _ _ args => anyHasReturn args
  | block statements => anyHasReturn statements
  | declare _ _ e | assign _ _ e => hasReturn e
  | branch condition yes no => hasReturn condition || hasReturn yes || hasReturn no
  | loop condition body => hasReturn condition || hasReturn body
  | program body => hasReturn body

def anyHasReturn : List Node → Bool
  | [] => false
  | t :: ts => hasReturn t || anyHasReturn ts

end

theorem anyHasReturn_eq_false_iff {ts : List Node} :
    anyHasReturn ts = false ↔ ∀ t ∈ ts, t.hasReturn = false := by
  induction ts with
  | nil => simp [anyHasReturn]
  | cons t ts ih => simp [anyHasReturn, ih]

end Node

namespace Eval
open Result
variable {limit : Option Int} {n : Nat} {t : Node} {s : State}

/-- A recorded exit value is handed on as it is. -/
theorem leave_doneOnly (r : Option Int) (s : State) : (leave r s).DoneOnly (· = r) :=
  ensures_leave (fun same => same.symm) (fun _ same _ => same.symm) fun _ _ _ _ => trivial

/-- Runs with an allowance of code that returns on every way never end without an exit value. -/
structure Returning (limit : Option Int) (n : Nat) : Prop where
  statement : ∀ t s, t.returns = true → (statement limit n t s).DoneOnly (· ≠ none)
  block : ∀ t s, t.returns = true → (block limit n t s).DoneOnly (· ≠ none)

namespace Returning

theorem statement_succ (ih : Returning limit n) (h : t.returns = true) :
    (Eval.statement limit (n + 1) t s).DoneOnly (· ≠ none) := by
  cases t with
  | exit e =>
    rw [Eval.statement]
    apply DoneOnly.of_next
    intro v u
    exact (leave_doneOnly (some v) u).mono (fun r _ same => by simp [same]) fun _ _ => id
  | branch condition yes no =>
    simp only [Node.returns, Bool.and_eq_true] at h
    have given : no ≠ .nothing := by
      rintro rfl
      cases h.2
    rw [Eval.statement]
    apply DoneOnly.of_next
    intro c u
    have selected := ensures_select (E := fun _ _ => True) (c := c) (fun _ => ih.block yes u h.1)
      (fun absent => absurd absent given) (fun _ => ih.block no u h.2)
    apply Ensures.bind selected
    intro r w returned
    exact (leave_doneOnly r w).mono (fun _ _ same => same ▸ returned) fun _ _ => id
  | block => trivial
  | _ => cases h

theorem never_none (h : Returning limit n) (returns : t.returns = true) (u w : State) :
    Eval.statement limit n t u ≠ .done none w := by
  intro done
  have never := h.statement t u returns
  rw [done] at never
  exact never rfl

/-- What is written after a statement that returns on every way makes no difference. -/
theorem block_of_returns (h : Returning limit n) (returns : t.returns = true)
    (before after : List Node) (s : State) :
    Eval.block limit (n + 1) (.block (before ++ t :: after)) s =
        Eval.block limit (n + 1) (.block (before ++ [t])) s ∧
      ∀ w, Eval.block limit (n + 1) (.block (before ++ [t])) s ≠ .done none w := by
  have before_ends : (untilExit (Eval.statement limit n) before
      { s with scope := s.scope.child }).Ensures (fun r _ => r = none → True)
        (fun _ _ => True) := by
    cases untilExit (Eval.statement limit n) before { s with scope := s.scope.child } <;>
      simp
  exact block_of_stops before_ends (fun u _ w => h.never_none returns u w) after

theorem block_succ (ih : Returning limit n) (h : t.returns = true) :
    (Eval.block limit (n + 1) t s).DoneOnly (· ≠ none) := by
  cases t with
  | block ts =>
    obtain ⟨d, mem, returns⟩ := Node.anyReturns_iff.1 h
    obtain ⟨before, after, rfl⟩ := List.append_of_mem mem
    obtain ⟨same, never⟩ := ih.block_of_returns returns before after s
    rw [same]
    cases ended : Eval.block limit (n + 1) (.block (before ++ [d])) s with
    | done r w =>
      rintro rfl
      exact never w ended
    | failed => trivial
    | unfinished => trivial
  | _ => trivial

end Returning

theorem returning (limit : Option Int) (n : Nat) : Returning limit n := by
  induction n with
  | zero => exact ⟨fun _ _ _ => trivial, fun _ _ _ => trivial⟩
  | succ n ih => exact ⟨fun _ _ h => ih.statement_succ h, fun _ _ h => ih.block_succ h⟩

/-- Runs with an allowance of code that has no return never end with an exit value. -/
structure RunsOn (limit : Option Int) (n : Nat) : Prop where
  statement : ∀ t s, t.hasReturn = false → (statement limit n t s).DoneOnly (· = none)
  block : ∀ t s, t.hasReturn = false → (block limit n t s).DoneOnly (· = none)

namespace RunsOn

/-- A declaration or an assignment has no exit value. -/
theorem of_changing (f : Scope → Except Fault Scope) (s : State) :
    ((do changing f; return none : Eval (Option Int)) s).DoneOnly (· = none) :=
  DoneOnly.of_next fun _ _ => rfl

theorem statement_succ (ih : RunsOn limit n) (h : t.hasReturn = false) :
    (Eval.statement limit (n + 1) t s).DoneOnly (· = none) := by
  cases t with
  | declare line x init => exact DoneOnly.of_next fun v u => of_changing _ u
  | assign line x value => exact DoneOnly.of_next fun v u => of_changing _ u
  | function line name params body => exact of_changing _ s
  | branch condition yes no =>
    simp only [Node.hasReturn, Bool.or_eq_false_iff] at h
    obtain ⟨⟨-, inYes⟩, inNo⟩ := h
    rw [Eval.statement]
    apply DoneOnly.of_next
    intro c u
    have selected := ensures_select (E := fun _ _ => True) (c := c) (fun _ => ih.block yes u inYes)
      (fun _ => rfl) (fun _ => ih.block no u inNo)
    apply Ensures.bind selected
    rintro r w rfl
    rfl
  | loop condition body =>
    rw [Eval.statement]
    apply DoneOnly.of_next
    intro c u
    split
    · have inBody : body.hasReturn = false := by
        simp only [Node.hasReturn, Bool.or_eq_false_iff] at h
        exact h.2
      apply Ensures.bind (ih.block body u inBody)
      rintro r w rfl
      exact ih.statement _ w h
    · rfl
  | exit => cases h
  | literal | binary | reference | call => exact DoneOnly.of_next fun _ _ => rfl
  | block | program | nothing | integer | text => trivial

theorem block_succ (ih : RunsOn limit n) (h : t.hasReturn = false) :
    (Eval.block limit (n + 1) t s).DoneOnly (· = none) := by
  cases t with
  | block ts =>
    rw [Node.hasReturn, Node.anyHasReturn_eq_false_iff] at h
    rw [Eval.block, DoneOnly, ensures_nested]
    have ran : (untilExit (Eval.statement limit n) ts { s with scope := s.scope.child }).Ensures
        (fun r u => r.elim True fun _ => False) (fun _ _ => True) := by
      refine ensures_untilExit (P := fun _ => True) (R := fun _ _ => False)
        (fun t mem u _ => ?_) trivial
      exact (ih.statement t u (h t mem)).mono (fun r _ absent => by simp [absent]) fun _ _ => id
    refine ran.mono (fun r u never => ?_) fun _ _ => id
    cases r with
    | none => rfl
    | some v => exact never.elim
  | _ => trivial

end RunsOn

theorem runsOn (limit : Option Int) (n : Nat) : RunsOn limit n := by
  induction n with
  | zero => exact ⟨fun _ _ _ => trivial, fun _ _ _ => trivial⟩
  | succ n ih => exact ⟨fun _ _ h => ih.statement_succ h, fun _ _ h => ih.block_succ h⟩

/-- Whether a block leaves an exit value is decided by its own returns. A block that returns on
every way never comes to its end without one: it has an exit value or it fails. What is written
after a statement that returns on every way makes no difference to a run of the block. A block
without a return outside the functions that it declares never has an exit value, whatever the
functions that it calls return. -/
theorem exit_by_own_returns (limit : Option Int) (n : Nat) :
    (∀ b s, b.returns = true → block limit n b s ≠ .unfinished →
      (∃ v w, block limit n b s = .done (some v) w) ∨ ∃ f w, block limit n b s = .failed f w) ∧
    (∀ before d after s, d.returns = true →
      block limit n (.block (before ++ d :: after)) s = block limit n (.block (before ++ [d])) s) ∧
    ∀ b s, b.hasReturn = false → block limit n b s ≠ .unfinished →
      (∃ w, block limit n b s = .done none w) ∨ ∃ f w, block limit n b s = .failed f w := by
  refine ⟨fun b s returns ended => ?_, fun before d after s returns => ?_,
    fun b s lacks ended => ?_⟩
  · rcases ((returning limit n).block b s returns).ends ended with ⟨r, w, done, never⟩ | failed
    · obtain ⟨v, rfl⟩ := Option.ne_none_iff_exists'.1 never
      exact .inl ⟨v, w, done⟩
    · exact .inr failed
  · cases n with
    | zero => rfl
    | succ n => exact ((returning limit n).block_of_returns returns before after s).1
  · rcases ((runsOn limit n).block b s lacks).ends ended with ⟨r, w, done, rfl⟩ | failed
    · exact .inl ⟨w, done⟩
    · exact .inr failed

/-- The block returns zero, which is an exit value, and nothing is printed. In the other one, a
function that returns is called from a loop. -/
theorem exit_by_own_returns_of_callee :
    let f : Node := .function 1 "f" [] (.block [.exit (.literal 7)])
    let d : Node := .branch (.call 2 "f" []) (.block [.exit (.literal 0)])
      (.block [.exit (.call 3 "f" [])])
    let p : Node := .call 4 "println" [.literal 1]
    let b : Node := .block [f, .declare 5 "x" (.call 5 "f" []),
      .loop (.reference 6 "x") (.block [.assign 7 "x" (.literal 0), .call 8 "f" []])]
    let s : State := { scope := [{}] }
    (∃ v w, block none 8 (.block [f, d, p]) s = .done (some v) w) ∧
      block none 8 (.block [f, d, p]) s = block none 8 (.block [f, d]) s ∧
      block none 8 (.block [f, d]) s = .done (some 0) { s with calls := [⟨2, "f", []⟩] } ∧
      ∃ w, block none 8 b s = .done none w := by
  intro f d p b s
  have own := exit_by_own_returns none 8
  have cut : block none 8 (.block [f, d, p]) s = block none 8 (.block [f, d]) s :=
    own.2.1 [f] d [p] s (by decide)
  have zero : block none 8 (.block [f, d]) s =
      .done (some 0) { s with calls := [⟨2, "f", []⟩] } := by decide +kernel
  refine ⟨?_, cut, zero, ?_⟩
  · rcases own.1 (.block [f, d, p]) s (by decide) (by decide +kernel) with exits | ⟨e, w, failed⟩
    · exact exits
    · rw [cut, zero] at failed
      cases failed
  · have loops : block none 8 b s =
        .done none { s with calls := [⟨8, "f", []⟩, ⟨5, "f", []⟩] } := by decide +kernel
    rcases own.2.2 b s (by decide) (by decide +kernel) with ends | ⟨e, w, failed⟩
    · exact ends
    · rw [failed] at loops
      cases loops

end Eval
end CallSite

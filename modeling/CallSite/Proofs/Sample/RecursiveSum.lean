import CallSite.Eval.Evaluator
import CallSite.Proofs.Logic.Ending
import Mathlib.Tactic.Ring

/-! A linear recursion at the limit on active calls. The program adds the numbers from `n` down to
zero, one call inside the other, so it has `n + 1` calls active at once, and from a negative number
it goes down without end. The number of calls that the limit leaves is what the induction is on. -/

namespace CallSite.Sample
open Eval

/-- The argument and the sum from the number below it. -/
def sumStep : Node :=
  .binary .plus (.reference 5 "n") (.call 5 "sum" [.binary .minus (.reference 5 "n") (.literal 1)])

/-- Adds the numbers from its argument down to zero. -/
def sum : Function := ⟨1, "sum", ["n"], .block [
  .branch (.binary .equal (.reference 2 "n") (.literal 0)) (.block [.exit (.literal 0)]) .nothing,
  .exit sumStep]⟩

def printSum (n : Int) : Node := .call 7 "println" [.call 7 "sum" [.literal n]]

/-- Prints the sum of the numbers from `n` down to zero. -/
def recursiveSum (n : Int) : Node := .program (.block [sum.declaration, printSum n])

variable {limit : Option Int} {s : State} {k v : Int} {f : Fault} {calls : List CallRecord}

theorem sum_body_zero (bound : s.scope.value? "n" = some 0) :
    EndsIn (block limit · sum.body) s (.done (some 0) s) :=
  .guard_exit (.binary (.reference bound) (.literal 0) rfl) (by decide)

theorem sum_condition (bound : s.scope.value? "n" = some k) (nonzero : k ≠ 0) :
    EndsIn (expression limit · (.binary .equal (.reference 2 "n") (.literal 0))) s (.done 0 s) := by
  have differs : BinaryOperator.equal.value? k 0 = some 0 := by
    simp [BinaryOperator.value?, nonzero]
  exact .binary (.reference bound) (.literal 0) differs

/-- For another number than zero the body makes the recursive call, which starts in the level of the
body. -/
theorem sum_body_done (bound : s.scope.value? "n" = some k) (nonzero : k ≠ 0)
    (called : EndsIn (fun n => invoke limit (block limit n) 5 "sum" [k - 1])
      { s with scope := s.scope.child } (.done v { s with scope := s.scope.child, calls })) :
    EndsIn (block limit · sum.body) s (.done (some (k + v)) { s with calls }) := by
  have total : EndsIn (expression limit · sumStep) { s with scope := s.scope.child }
      (.done (k + v) { s with scope := s.scope.child, calls }) :=
    .binary (.reference bound)
      (.call (.inOrder_one (.binary (.reference bound) (.literal 1) rfl)) called) rfl
  exact .guard_skipped (sum_condition bound nonzero) (.untilExit_exit (.exit total rfl))

theorem sum_body_failed (bound : s.scope.value? "n" = some k) (nonzero : k ≠ 0)
    (called : EndsIn (fun n => invoke limit (block limit n) 5 "sum" [k - 1])
      { s with scope := s.scope.child } (.failed f { s with scope := s.scope.child, calls })) :
    EndsIn (block limit · sum.body) s (.failed f { s with calls }) := by
  have fails : EndsIn (expression limit · sumStep) { s with scope := s.scope.child }
      (.failed f { s with scope := s.scope.child, calls }) :=
    .binary_failed (.reference bound)
      (.call (.inOrder_one (.binary (.reference bound) (.literal 1) rfl)) called)
  exact .guard_skipped (sum_condition bound nonzero) (.untilExit_failed (.exit_failed fails))

/-- The sum of the numbers down to zero takes the next number to the next sum. -/
theorem add_triangle (k : Int) : k + (k - 1) * (k - 1 + 1) / 2 = k * (k + 1) / 2 := by
  have split : k * (k + 1) = (k - 1) * (k - 1 + 1) + k * 2 := by ring
  rw [split, Int.add_mul_ediv_right _ _ (by decide), Int.add_comm]

/-- A call of the function adds the numbers up if the limit leaves as many calls as it needs. If it
does not, or if the number is negative, some call is over the limit: one that a body makes, unless
the limit leaves no call at all. -/
theorem sum_call (m k line : Int) (s : State) (seen : s.scope.function? "sum" = some sum) :
    ∃ calls, EndsIn (fun n => invoke (some m) (block (some m) n) line "sum" [k]) s
      (if 0 ≤ k ∧ s.active + k < m then .done (k * (k + 1) / 2) { s with calls }
      else .failed ⟨.recursionDepthExceeded, some (if s.active < m then 5 else line)⟩
        { s with calls }) := by
  induction left : (m - s.active).toNat generalizing k line s with
  | zero =>
    have none_left : m ≤ s.active := by omega
    have reached : limitReached (some m) s = true := by simpa [limitReached] using none_left
    refine ⟨⟨line, "sum", [k]⟩ :: s.calls, ?_⟩
    rw [if_neg (by omega), if_neg (by omega)]
    exact .invoke_refused seen rfl (by decide) reached
  | succ r ih =>
    have some_left : s.active < m := by omega
    have below : limitReached (some m) s = false := by simpa [limitReached] using some_left
    let body : State := s.called line "sum" sum [k]
    let inner : State := { body with scope := body.scope.child }
    have bound : body.scope.value? "n" = some k := rfl
    have seen' : inner.scope.function? "sum" = some sum := by
      simpa [inner, body, State.called, Scope.function?_cons] using seen
    by_cases zero : k = 0
    · subst zero
      refine ⟨body.calls, ?_⟩
      rw [if_pos (by omega)]
      exact .invoke_done seen rfl (by decide) below (sum_body_zero bound)
    · obtain ⟨calls, called⟩ := ih (k - 1) 5 inner seen' (by simp [inner, body, State.called]; omega)
      have active : (inner.active : Int) = s.active + 1 := by simp [inner, body, State.called]
      refine ⟨calls, ?_⟩
      by_cases fits : 0 ≤ k ∧ s.active + k < m
      · rw [if_pos (by omega)] at called
        rw [if_pos fits, ← add_triangle]
        exact .invoke_done seen rfl (by decide) below (sum_body_done bound zero called)
      · rw [if_neg (by omega), ite_self] at called
        rw [if_neg fits, if_pos some_left]
        exact .invoke_failed seen rfl (by decide) below (sum_body_failed bound zero called)

theorem recursiveSum_endsIn (m n : Int) (printed : String) :
    ∃ calls, EndsIn (program (some m) · (recursiveSum n)) { scope := [{}], printed }
      (if 0 ≤ n ∧ n < m then
        .done none { scope := [{}], printed := printed ++ Text.printedLine [n * (n + 1) / 2], calls }
      else .failed ⟨.recursionDepthExceeded, some (if 0 < m then 5 else 7)⟩
        { scope := [{}], printed, calls }) := by
  let declared : State := { scope := [{ functions := [("sum", sum)] }, {}], printed }
  have declares : EndsIn (statement (some m) · sum.declaration) { scope := [{}, {}], printed }
      (.done none declared) := .function rfl
  obtain ⟨calls, called⟩ := sum_call m n 7 declared rfl
  refine ⟨calls, ?_⟩
  by_cases fits : 0 ≤ n ∧ n < m
  · rw [if_pos (by simpa [declared] using fits)] at called
    rw [if_pos fits]
    have prints : EndsIn (statement (some m) · (printSum n)) declared (.done none { declared with
        printed := printed ++ Text.printedLine [n * (n + 1) / 2], calls }) :=
      .evaluate rfl (.call (.inOrder_one (.call (.inOrder_one (.literal n)) called))
        (.invoke_print rfl))
    exact .block (.untilExit_next declares (.untilExit_next prints .untilExit_nil))
  · rw [if_neg (by simpa [declared] using fits)] at called
    rw [if_neg fits]
    have fails : EndsIn (statement (some m) · (printSum n)) declared
        (.failed ⟨.recursionDepthExceeded, some (if 0 < m then 5 else 7)⟩ { declared with calls }) :=
      .evaluate_failed rfl (.call_failed (.inOrder_failed
        (.call (.inOrder_one (.literal n)) called)))
    exact .block (.untilExit_next declares (.untilExit_failed fails))

/-- Under every limit the program ends, with the evaluator's active calls all given back. It prints
the sum exactly if the number is not negative and the limit is larger than it. Otherwise nothing is
printed and a call is over the limit: the recursive one, or the first one if no call is allowed. -/
theorem recursiveSum_boundary (n m : Int) (printed : String) :
    ∃ enough, ∀ c : Capacity, enough ≤ c.allowance → ∃ ending s,
      ({ maxDepth := some m } : Evaluator).execute c (recursiveSum n) printed =
        some (ending, { maxDepth := some m, active := 0 }, s) ∧
      if 0 ≤ n ∧ n < m then
        ending = .ok none ∧ s.printed = printed ++ (toString (n * (n + 1) / 2) ++ " \n")
      else
        ending = .error (.fault ⟨.recursionDepthExceeded, some (if 1 ≤ m then 5 else 7)⟩) ∧
          s.printed = printed := by
  obtain ⟨calls, enough, ends⟩ := recursiveSum_endsIn m n printed
  refine ⟨enough, fun c large => ?_⟩
  have run : program (some m) c.allowance (recursiveSum n) { scope := [{}], printed } = _ :=
    ends c.allowance large
  simp only [Evaluator.execute, Evaluator.run, Evaluator.limit, Option.getD_some, run]
  by_cases fits : 0 ≤ n ∧ n < m
  · rw [if_pos fits]
    refine ⟨_, _, rfl, ?_⟩
    rw [if_pos fits]
    exact ⟨rfl, by rw [Text.printedLine_singleton]⟩
  · rw [if_neg fits]
    refine ⟨_, _, rfl, ?_⟩
    rw [if_neg fits]
    exact ⟨rfl, rfl⟩

/-- Three calls are just enough for the sum of two. -/
example : (({ maxDepth := some 3 } : Evaluator).execute ⟨20, 0⟩ (recursiveSum 2) "").map
    (fun (ending, _, s) => (ending, s.printed)) = some (.ok none, "3 \n") := by decide +kernel

end CallSite.Sample

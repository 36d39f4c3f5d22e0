import CallSite.Proofs.Logic.Ending
import Mathlib.Data.Nat.Fib.Basic

/-! The Fibonacci numbers, printed by a loop that calls a doubly recursive function. The function
runs in scopes inside that of the loop and leaves the loop's variable alone. Its deepest chain of
calls goes down by one from its argument, so the limit has to allow as many calls as the bound of
the loop says. -/

namespace CallSite.Sample
open Eval

/-- The sum of the two numbers before that of the argument. -/
def fibStep : Node :=
  .binary .plus
    (.call 5 "fib" [.binary .minus (.reference 5 "n") (.literal 1)])
    (.call 5 "fib" [.binary .minus (.reference 5 "n") (.literal 2)])

/-- The Fibonacci number of its argument, and one for every argument below one. -/
def fib : Function := ⟨1, "fib", ["n"], .block [
  .branch (.binary .atMost (.reference 2 "n") (.literal 1)) (.block [.exit (.literal 1)]) .nothing,
  .exit fibStep]⟩

/-- Prints a number with its Fibonacci number. -/
def printFib : Node := .call 10 "println" [.reference 10 "i", .call 10 "fib" [.reference 10 "i"]]

def nextNumber : Node := .assign 11 "i" (.binary .plus (.reference 11 "i") (.literal 1))

/-- Prints the number that it has come to and those up to the bound. -/
def fibonacciLoop (bound : Int) : Node :=
  .loop (.binary .atMost (.reference 9 "i") (.literal bound)) (.block [printFib, nextNumber])

/-- Prints the numbers from one up to the bound, each with its Fibonacci number. -/
def fibonacci (bound : Int) : Node :=
  .program (.block [fib.declaration, .declare 8 "i" (.literal 1), fibonacciLoop bound])

variable {limit : Option Int} {s : State} {k a b : Int} {calls calls' : List CallRecord}

theorem fib_body_one (bound : s.scope.value? "n" = some k) (small : k ≤ 1) :
    EndsIn (block limit · fib.body) s (.done (some 1) s) := by
  have holds : BinaryOperator.atMost.value? k 1 = some 1 := by
    simp [BinaryOperator.value?, small]
  exact .guard_exit (.binary (.reference bound) (.literal 1) holds) (by decide)

/-- A number above one is handed to two calls one after the other, both from the level of the
body. -/
theorem fib_body_add (bound : s.scope.value? "n" = some k) (large : 1 < k)
    (first : EndsIn (fun n => invoke limit (block limit n) 5 "fib" [k - 1])
      { s with scope := s.scope.child } (.done a { s with scope := s.scope.child, calls }))
    (second : EndsIn (fun n => invoke limit (block limit n) 5 "fib" [k - 2])
      { s with scope := s.scope.child, calls }
      (.done b { s with scope := s.scope.child, calls := calls' })) :
    EndsIn (block limit · fib.body) s (.done (some (a + b)) { s with calls := calls' }) := by
  have fails : BinaryOperator.atMost.value? k 1 = some 0 := by
    simp [BinaryOperator.value?, Int.not_le.2 large]
  have argument : ∀ (u : State) (v : Int), u.scope.value? "n" = some k →
      EndsIn (expression limit · (.binary .minus (.reference 5 "n") (.literal v))) u
        (.done (k - v) u) := fun u v known => .binary (.reference known) (.literal v) rfl
  have total : EndsIn (expression limit · fibStep) { s with scope := s.scope.child }
      (.done (a + b) { s with scope := s.scope.child, calls := calls' }) :=
    .binary (.call (.inOrder_one (argument _ 1 bound)) first)
      (.call (.inOrder_one (argument _ 2 bound)) second) rfl
  exact .guard_skipped (.binary (.reference bound) (.literal 1) fails)
    (.untilExit_exit (.exit total rfl))

/-- A call of the function gives the Fibonacci number and changes nothing, if the limit leaves as
many calls as the argument says, and one at least. -/
theorem fib_call (k : Nat) (line : Int) (s : State) (seen : s.scope.function? "fib" = some fib)
    (deep : ∀ m, limit = some m → s.active + max k 1 ≤ m) :
    ∃ calls, EndsIn (fun n => invoke limit (block limit n) line "fib" [(k : Int)]) s
      (.done (Nat.fib (k + 1)) { s with calls }) := by
  induction k using Nat.strong_induction_on generalizing line s with
  | _ k ih =>
    have below : limitReached limit s = false :=
      limitReached_eq_false_iff.2 fun m given => by have := deep m given; omega
    let body : State := s.called line "fib" fib [(k : Int)]
    have bound : body.scope.value? "n" = some (k : Int) := rfl
    by_cases small : k ≤ 1
    · have one : Nat.fib (k + 1) = 1 := by
        obtain rfl | rfl : k = 0 ∨ k = 1 := by omega
        all_goals rfl
      refine ⟨body.calls, ?_⟩
      rw [one]
      exact .invoke_done seen rfl (by decide) below (fib_body_one bound (by omega))
    · obtain ⟨j, rfl⟩ := Nat.exists_eq_add_of_le' (by omega : 2 ≤ k)
      -- both calls start in the level of the body, the second one behind the first
      let inner : State := { body with scope := body.scope.child }
      have seen' : inner.scope.function? "fib" = some fib := by
        simpa [inner, body, State.called, Scope.function?_cons] using seen
      have deep' : ∀ m, limit = some m → inner.active + (max (j + 1) 1 : Nat) ≤ m := by
        intro m given
        have := deep m given
        simp only [inner, body, State.called]
        omega
      obtain ⟨calls, first⟩ := ih (j + 1) (by omega) 5 inner seen' deep'
      obtain ⟨calls', second⟩ := ih j (by omega) 5 { inner with calls } seen' fun m given => by
        have := deep' m given
        dsimp only
        omega
      have sum : ((Nat.fib (j + 2 + 1) : Nat) : Int) = Nat.fib (j + 1 + 1) + Nat.fib (j + 1) := by
        rw [Nat.fib_add_two (n := j + 1), Nat.cast_add, add_comm]
      have less_one : ((j + 1 : Nat) : Int) = (j + 2 : Nat) - 1 := by omega
      have less_two : (j : Int) = (j + 2 : Nat) - 2 := by omega
      rw [less_one] at first
      rw [less_two] at second
      refine ⟨calls', ?_⟩
      rw [sum]
      exact .invoke_done seen rfl (by decide) below (fib_body_add bound (by omega) first second)

/-- The line for a number and its Fibonacci number. The sequence starts with two ones, so it is one
ahead of `Nat.fib`. -/
def fibonacciLine (i : Nat) : String := toString i ++ " " ++ toString (Nat.fib (i + 1)) ++ " \n"

theorem printedLine_fib (i : Nat) :
    Text.printedLine [(i : Int), (Nat.fib (i + 1) : Int)] = fibonacciLine i := by
  rw [Text.printedLine_cons, Text.printedLine_singleton, ← String.append_assoc]
  rfl

/-- The state in which the loop comes to a number, after the given output and calls. -/
def counting (i : Nat) (printed : String) (calls : List CallRecord) : State :=
  { scope := [{ locals := [("i", i)], functions := [("fib", fib)] }, {}], printed, calls }

/-- One turn of the loop prints one line and goes on to the next number. -/
theorem fibonacci_turn (i : Nat) (positive : 0 < i) (printed : String) (calls : List CallRecord)
    (deep : ∀ m, limit = some m → (i : Int) ≤ m) :
    ∃ calls', EndsIn (block limit · (.block [printFib, nextNumber])) (counting i printed calls)
      (.done none (counting (i + 1) (printed ++ fibonacciLine i) calls')) := by
  let inner : State := { counting i printed calls with
    scope := (counting i printed calls).scope.child }
  have known : inner.scope.value? "i" = some (i : Int) := rfl
  have deep' : ∀ m, limit = some m → inner.active + max i 1 ≤ m := fun m given => by
    have := deep m given
    simp only [inner, counting]
    omega
  obtain ⟨calls', called⟩ := fib_call i 10 inner rfl deep'
  let shown : State := { inner with printed := printed ++ fibonacciLine i, calls := calls' }
  have prints : EndsIn (statement limit · printFib) inner (.done none shown) := by
    simp only [shown, ← printedLine_fib]
    exact .evaluate rfl (.call (.inOrder_cons (.reference known)
      (.inOrder_one (.call (.inOrder_one (.reference known)) called))) (.invoke_print rfl))
  have next : EndsIn (statement limit · nextNumber) shown (.done none { shown with
      scope := (counting (i + 1) printed calls).scope.child }) :=
    .assign (.binary (.reference known) (.literal 1) rfl) rfl
  exact ⟨calls', .block (.untilExit_next prints (.untilExit_next next .untilExit_nil))⟩

/-- The loop prints a line for each number that is left up to the bound. -/
theorem fibonacciLoop_endsIn (bound : Int) (deep : ∀ m, limit = some m → max bound 0 ≤ m)
    (left i : Nat) (positive : 0 < i) (total : (bound + 1 - i).toNat = left) (printed : String)
    (calls : List CallRecord) :
    ∃ calls', EndsIn (statement limit · (fibonacciLoop bound)) (counting i printed calls)
      (.done none (counting (i + left)
        (printed ++ String.join ((List.range' i left).map fibonacciLine)) calls')) := by
  have condition : EndsIn (expression limit · (.binary .atMost (.reference 9 "i") (.literal bound)))
      (counting i printed calls) (.done (truth (i ≤ bound)) (counting i printed calls)) :=
    .binary (.reference rfl) (.literal bound) rfl
  induction left generalizing i printed calls with
  | zero =>
    rw [decide_eq_false (show ¬(i : Int) ≤ bound by omega)] at condition
    refine ⟨calls, ?_⟩
    rw [List.range'_zero, List.map_nil, String.join_nil, String.append_empty]
    exact .loop_end condition
  | succ left ih =>
    rw [decide_eq_true (show (i : Int) ≤ bound by omega)] at condition
    have deep' : ∀ m, limit = some m → (i : Int) ≤ m := fun m given => by
      have := deep m given
      omega
    obtain ⟨calls', turn⟩ := fibonacci_turn i positive printed calls deep'
    obtain ⟨calls'', rest⟩ := ih (i + 1) (by omega) (by omega) (printed ++ fibonacciLine i) calls'
      (.binary (.reference rfl) (.literal bound) rfl)
    refine ⟨calls'', ?_⟩
    rw [List.range'_succ, List.map_cons, String.join_cons, ← String.append_assoc,
      show i + (left + 1) = i + 1 + left by omega]
    exact .loop_turn condition (by decide) turn rest

/-- The program prints the lines of all numbers from one up to the bound and ends without an exit
value, under every limit that allows as many active calls as the bound says. -/
theorem fibonacci_prints_lines (bound : Int) (limit : Option Int)
    (deep : ∀ m, limit = some m → max bound 0 ≤ m) (printed : String) :
    ∃ calls enough, ∀ n ≥ enough,
      program limit n (fibonacci bound) { scope := [{}], printed } = .done none
        { scope := [{}]
          printed := printed ++ String.join ((List.range' 1 bound.toNat).map fun i =>
            toString i ++ " " ++ toString (Nat.fib (i + 1)) ++ " \n")
          calls } := by
  obtain ⟨calls, loops⟩ := fibonacciLoop_endsIn bound deep bound.toNat 1 (by decide) (by omega)
    printed []
  let declared : State := { scope := [{ functions := [("fib", fib)] }, {}], printed }
  have declares : EndsIn (statement limit · fib.declaration) { scope := [{}, {}], printed }
      (.done none declared) := .function rfl
  have starts : EndsIn (statement limit · (.declare 8 "i" (.literal 1))) declared
      (.done none (counting 1 printed [])) := .declare (by simp) (.literal 1) rfl
  exact ⟨calls, EndsIn.block (.untilExit_next declares (.untilExit_next starts
    (.untilExit_next loops .untilExit_nil)))⟩

/-- Five lines, under the lowest limit that is enough for them. -/
theorem fibonacci_prints_lines_five :
    (∀ m, some (5 : Int) = some m → max 5 0 ≤ m) ∧ ∃ calls enough, ∀ n ≥ enough,
      program (some 5) n (fibonacci 5) { scope := [{}] } = .done none
        { scope := [{}], printed := "1 1 \n2 2 \n3 3 \n4 5 \n5 8 \n", calls } := by
  have deep : ∀ m, some (5 : Int) = some m → max 5 0 ≤ m := by simp
  obtain ⟨calls, enough, ends⟩ := fibonacci_prints_lines 5 (some 5) deep ""
  refine ⟨deep, calls, enough, fun n large => ?_⟩
  rw [ends n large]
  rfl

end CallSite.Sample

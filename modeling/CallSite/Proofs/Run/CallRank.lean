import CallSite.Proofs.Run.Blame

/-! Programs without recursion. If the functions of a program can be ranked so that each one calls
only functions of lower ranks, no more calls are ever active than the highest rank that the program
itself calls. A call finds some function with its name, perhaps not the one that was visible where
the call is written, but all functions of one name share their rank. Code that runs inside a number
of active calls therefore calls ranks that are lower by that number. -/

namespace CallSite
variable {root t u : Node} {limit : Option Int} {rank : String → Int} {k : Int}

namespace Node

mutual

/-- The names that a tree calls outside the bodies of the functions that it declares. -/
def ownCalls : Node → List String
  | literal _ | reference .. | nothing | integer _ | text _ | function .. => []
  | binary _ l r => ownCalls l ++ ownCalls r
  | call _ name args => name :: ownCallsOf args
  | block statements => ownCallsOf statements
  | declare _ _ e | assign _ _ e | exit e => ownCalls e
  | branch condition yes no => ownCalls condition ++ ownCalls yes ++ ownCalls no
  | loop condition body => ownCalls condition ++ ownCalls body
  | program body => ownCalls body

def ownCallsOf : List Node → List String
  | [] => []
  | t :: ts => ownCalls t ++ ownCallsOf ts

end

theorem ownCallsOf_eq_flatMap (ts : List Node) : ownCallsOf ts = ts.flatMap ownCalls := by
  induction ts with
  | nil => rfl
  | cons t ts ih => rw [ownCallsOf, ih, List.flatMap_cons]

theorem ownCalls_subset_of_mem {ts : List Node} (h : t ∈ ts) : t.ownCalls ⊆ ownCallsOf ts := by
  rw [ownCallsOf_eq_flatMap]
  exact fun name mem => List.mem_flatMap.2 ⟨t, h, mem⟩

/-- All functions of the program that the tree itself calls have ranks up to the bound. -/
def CallsWithin (root : Node) (rank : String → Int) (k : Int) (t : Node) : Prop :=
  ∀ name ∈ t.ownCalls, ∀ params, root.DeclaresFunction name params → rank name ≤ k

theorem CallsWithin.mono {m : Int} (h : root.CallsWithin rank k t) (calls : u.ownCalls ⊆ t.ownCalls)
    (le : k ≤ m) : root.CallsWithin rank m u :=
  fun name mem params declared => Int.le_trans (h name (calls mem) params declared) le

/-- The functions of a program have positive ranks, and each one calls only lower ranks itself. -/
structure Ranked (root : Node) (rank : String → Int) : Prop where
  positive : ∀ name params, root.DeclaresFunction name params → 1 ≤ rank name
  falls : ∀ line name params body, root.Contains (.function line name params body) →
    root.CallsWithin rank (rank name - 1) body

/-- Whether a declared function has one of the names and a positive rank, and itself calls only
lower ranks of these names. -/
def ranksAbove (rank : String → Int) (names : List String) : Node → Bool
  | function _ name _ body => name ∈ names ∧ 1 ≤ rank name ∧
    ∀ callee ∈ body.ownCalls, callee ∈ names → rank callee ≤ rank name - 1
  | _ => true

/-- Ranks can be checked one declaration after the other. -/
theorem ranked_of_all (names : List String) (h : t.all (ranksAbove rank names)) :
    t.Ranked rank := by
  rw [all_iff] at h
  have above : ∀ line name params body, t.Contains (.function line name params body) →
      name ∈ names ∧ 1 ≤ rank name ∧
        ∀ callee ∈ body.ownCalls, callee ∈ names → rank callee ≤ rank name - 1 := by
    intro line name params body inside
    exact of_decide_eq_true (h _ inside)
  constructor
  · rintro name params ⟨line, body, inside⟩
    exact (above line name params body inside).2.1
  · rintro line name params body inside callee call params' ⟨line', body', declared⟩
    have named := (above line' callee params' body' declared).1
    exact (above line name params body inside).2.2 callee call named

end Node

namespace Eval
variable {n : Nat} {s w : State}

/-- A construct never runs the body of a function that it declares. -/
theorem Runs.ownCalls_subset {p q : Position} (h : Runs p t q u) : u.ownCalls ⊆ t.ownCalls := by
  cases h with
  | argument mem => exact List.subset_cons_of_subset _ (Node.ownCalls_subset_of_mem mem)
  | _ => simp [Node.ownCalls]

/-- The code that a run comes to calls ranks that the active calls around it leave. -/
def withinRanks (limit : Option Int) (ranked : root.Ranked rank) (k : Int) : Invariant limit where
  holds p t s := (fromRoot limit root).holds p t s ∧ root.CallsWithin rank (k - s.active) t
  holdsOf ts s := (fromRoot limit root).holdsOf ts s ∧
    ∀ t ∈ ts, root.CallsWithin rank (k - s.active) t
  changed known hu := ⟨(fromRoot limit root).changed known.1 hu, hu.active ▸ known.2⟩
  inside known runs := ⟨(fromRoot limit root).inside known.1 runs,
    known.2.mono runs.ownCalls_subset (Int.le_refl _)⟩
  enters known := ⟨(fromRoot limit root).enters known.1, fun _ mem =>
    known.2.mono (Node.ownCalls_subset_of_mem mem) (Int.le_refl _)⟩
  first known := ⟨(fromRoot limit root).first known.1, known.2 _ List.mem_cons_self⟩
  rest known grown := ⟨(fromRoot limit root).rest known.1 grown, fun _ mem =>
    grown.active ▸ known.2 _ (List.mem_cons_of_mem _ mem)⟩
  calls {line name args values f s} known found fits all below := by
    refine ⟨(fromRoot limit root).calls known.1 found fits all below, ?_⟩
    obtain ⟨inside, same⟩ := Scope.EveryFunction.of_function? known.1.2 found
    obtain rfl : f.name = name := same
    have called := known.2 f.name List.mem_cons_self f.params (known.1.2.of_function? found)
    -- the body calls ranks below that of the function, and one call more is active
    refine (ranked.falls f.line f.name f.params f.body inside).mono (List.Subset.refl _) ?_
    push_cast
    omega

/-- Where a call is made, the ranks leave room for it. -/
theorem withinRanks_never_refused (ranked : root.Ranked rank)
    (enough : ∀ m, limit = some m → k ≤ m) {p : Position} {line : Option Int}
    (known : (withinRanks limit ranked k).holds p t s) :
    ¬Raises limit s p t ⟨.recursionDepthExceeded, line⟩ := by
  intro raises
  obtain ⟨⟨-, declared⟩, calls⟩ := known
  cases raises with
  | @refused line name args f found reached =>
    have here := declared.of_function? found
    have positive := ranked.positive name f.params here
    have within := calls name List.mem_cons_self f.params here
    cases limit with
    | none => cases reached
    | some m =>
      have le := enough m rfl
      simp only [limitReached, Option.any_some, decide_eq_true_eq] at reached
      omega

/-- A program whose functions call only functions of lower ranks is never refused a call under a
limit that is at least as high as the ranks it calls itself, whatever its loops do, however its
calls nest and whichever functions share a name. -/
theorem ranked_run_never_refused (ranked : t.Ranked rank) (calls : t.CallsWithin rank k t)
    (enough : ∀ m, limit = some m → k ≤ m) (fresh : s.scope = [{}]) (idle : s.active = 0)
    (n : Nat) (line : Option Int) (w : State) :
    program limit n t s ≠ .failed ⟨.recursionDepthExceeded, line⟩ w := by
  intro failed
  cases t with
  | program body =>
    have within : (Node.program body).CallsWithin rank (k - s.active) body := by
      rw [idle]
      exact calls.mono (List.Subset.refl _) (by simp)
    have start : (withinRanks limit ranked k).holds .block body s :=
      ⟨fromRoot_start limit fresh, within⟩
    obtain ⟨p, u, v, known, raises⟩ := Invariant.raised_of_block_failed _ start failed
    exact withinRanks_never_refused ranked enough known raises
  | _ => cases (Result.failed.inj failed).1

/-- Two functions share the name `g`, and the `f` that calls them passes through both. Two active
calls are enough for the whole loop, and one is not. -/
theorem ranked_run_never_refused_shadowed :
    let inner : Node := .function 3 "g" ["y"] (.block [.call 3 "println" [.reference 3 "y"]])
    let f : Node := .block [inner, .exit (.call 4 "g" [.call 4 "g" [.reference 4 "x"]])]
    let g : Node := .block [.exit (.binary .plus (.reference 1 "x") (.literal 1))]
    let t : Node := .program (.block [
      .function 1 "g" ["x"] g,
      .function 2 "f" ["x"] f,
      .declare 5 "i" (.literal 2),
      .loop (.reference 6 "i") (.block [
        .call 7 "f" [.call 7 "g" [.reference 7 "i"]],
        .assign 8 "i" (.binary .minus (.reference 8 "i") (.literal 1))])])
    let rank : String → Int := fun name => if name = "f" then 2 else 1
    let s : State := { scope := [{}] }
    let w : State := { s with calls := [⟨4, "g", [3]⟩, ⟨7, "f", [3]⟩, ⟨7, "g", [2]⟩] }
    t.Ranked rank ∧ t.CallsWithin rank 2 t ∧
      (∀ n line w, program (some 2) n t s ≠ .failed ⟨.recursionDepthExceeded, line⟩ w) ∧
      program (some 1) 12 t s = .failed ⟨.recursionDepthExceeded, some 4⟩ w := by
  intro inner f g t rank s w
  have ranked : t.Ranked rank := Node.ranked_of_all ["f", "g"] (by decide +kernel)
  have calls : t.CallsWithin rank 2 t := by
    rintro name - params -
    simp only [rank]
    split <;> decide
  refine ⟨ranked, calls, fun n line w => ?_, by decide +kernel⟩
  exact ranked_run_never_refused ranked calls (by simp) rfl rfl n line w

end Eval
end CallSite

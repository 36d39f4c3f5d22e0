import CallSite.Eval.Allowance
import CallSite.Proofs.Logic.Postcondition

/-! A higher limit on active calls never changes a run that fitted into the lower one. The two runs
are the same up to the first call that the lower limit refuses. There the first run ends, and the
second one, which may go on in any way, only adds to the output. -/

namespace CallSite
variable {α β : Type}

/-- The output of the second state begins with the output of the first one. -/
def State.Continues (s t : State) : Prop := ∃ out, t.printed = s.printed ++ out

namespace State.Continues
variable {s t u : State}

theorem of_printed_eq (same : t.printed = s.printed) : s.Continues t := ⟨"", by simp [same]⟩

theorem refl (s : State) : s.Continues s := of_printed_eq rfl

theorem trans (h : s.Continues t) (k : t.Continues u) : s.Continues u := by
  obtain ⟨out, ht⟩ := h
  obtain ⟨more, hu⟩ := k
  exact ⟨out ++ more, by rw [hu, ht, String.append_assoc]⟩

end State.Continues

namespace Result

/-- The first result is a refused call, and the second one is not behind it with its output. -/
def RefusedBefore (r r' : Result α) : Prop :=
  ∃ line u, r = .failed ⟨.recursionDepthExceeded, line⟩ u ∧ r'.Leaves u.Continues

/-- The second result is the first one, unless a call is refused there. -/
def FollowedBy (r r' : Result α) : Prop := r = r' ∨ r.RefusedBefore r'

theorem FollowedBy.mapState {r r' : Result α} (h : r.FollowedBy r') {g : State → State}
    (silent : ∀ s, (g s).printed = s.printed) : (r.mapState g).FollowedBy (r'.mapState g) := by
  rcases h with rfl | ⟨line, u, rfl, goesOn⟩
  · exact .inl rfl
  · refine .inr ⟨line, g u, rfl, ensures_mapState.2 ?_⟩
    have kept : ∀ w, u.Continues w → (g u).Continues (g w) := fun w ⟨out, hw⟩ =>
      ⟨out, by rw [silent, silent, hw]⟩
    exact goesOn.mono (fun _ => kept) (fun _ => kept)

end Result

namespace Eval
open Result
variable {n : Int} {limit : Option Int}

/-- The second step takes no output back, and its result follows the one of the first step. -/
structure RelaxedBy (m m' : Eval α) : Prop where
  continues : ∀ s, (m' s).Leaves s.Continues
  follows : ∀ s, (m s).FollowedBy (m' s)

namespace RelaxedBy
variable {m m' : Eval α}

/-- A step that calls nothing is the same under both limits. -/
theorem refl (continues : ∀ s, (m s).Leaves s.Continues) : RelaxedBy m m :=
  ⟨continues, fun _ => .inl rfl⟩

theorem pure (v : α) : RelaxedBy (pure v : Eval α) (pure v) := refl .refl

theorem fail (cause : Cause) (line : Option Int) :
    RelaxedBy (fail cause line : Eval α) (fail cause line) := refl .refl

theorem changing (f : Scope → Except Fault Scope) : RelaxedBy (changing f) (changing f) :=
  refl fun s => ensures_changing (fun _ _ => .of_printed_eq rfl) (fun _ _ => .refl s)

theorem bind {next next' : α → Eval β} (h : RelaxedBy m m')
    (k : ∀ v, RelaxedBy (next v) (next' v)) : RelaxedBy (m >>= next) (m' >>= next') := by
  have after : ∀ {s t : State} (v : α), s.Continues t → (next' v t).Leaves s.Continues :=
    fun {s t} v ht => ((k v).continues t).mono (fun _ _ => ht.trans) (fun _ _ => ht.trans)
  constructor
  · intro s
    exact (h.continues s).bind fun v t ht => after v ht
  · intro s
    rcases h.follows s with same | ⟨line, u, refused, goesOn⟩
    · rw [bind_apply, bind_apply, same]
      cases m' s with
      | done v t => exact (k v).follows t
      | failed f t => exact .inl rfl
      | unfinished => exact .inl rfl
    -- whatever the first run had still before it, the second one only adds to the output
    · refine .inr ⟨line, u, by rw [bind_apply, refused], ?_⟩
      exact goesOn.bind fun v t ht => after v ht

theorem nested (h : RelaxedBy m m') : RelaxedBy (nested m) (nested m') := by
  constructor
  · intro s
    exact ensures_nested.2 (h.continues { s with scope := s.scope.child })
  · intro s
    exact (h.follows { s with scope := s.scope.child }).mapState fun _ => rfl

/-- A call that only the lower limit refuses is where the two runs part. -/
theorem counted (raised : ∀ k, limit = some k → n ≤ k) (line : Int) (h : RelaxedBy m m') :
    RelaxedBy (counted (some n) line m) (counted limit line m') := by
  have continues : ∀ s, (Eval.counted limit line m' s).Leaves s.Continues := fun s =>
    ensures_counted (fun _ => .refl s) fun _ => h.continues { s with active := s.active + 1 }
  refine ⟨continues, fun s => ?_⟩
  by_cases low : n ≤ (s.active : Int)
  · have refused : Eval.counted (some n) line m s = .failed ⟨.recursionDepthExceeded, line⟩ s := by
      simp [Eval.counted, low]
    exact .inr ⟨line, s, refused, continues s⟩
  · have high : ¬limitReached limit s = true := by
      cases limit with
      | none => exact Bool.false_ne_true
      | some k =>
        have := raised k rfl
        simp only [limitReached, Option.any_some, decide_eq_true_eq]
        omega
    unfold limitReached at high
    simp only [Eval.counted, Option.any_some, decide_eq_true_eq, low, high, if_false]
    exact (h.follows { s with active := s.active + 1 }).mapState fun _ => rfl

theorem inOrder {f f' : Node → Eval α} (h : ∀ t, RelaxedBy (f t) (f' t)) :
    ∀ ts, RelaxedBy (inOrder f ts) (inOrder f' ts)
  | [] => pure []
  | t :: ts => bind (h t) fun _ => bind (inOrder h ts) fun _ => pure _

theorem untilExit {f f' : Node → Eval (Option α)} (h : ∀ t, RelaxedBy (f t) (f' t)) :
    ∀ ts, RelaxedBy (untilExit f ts) (untilExit f' ts)
  | [] => pure none
  | t :: ts => bind (h t) fun
    | none => untilExit h ts
    | some v => pure (some v)

theorem startValue {f f' : Node → Eval Int} (h : ∀ t, RelaxedBy (f t) (f' t)) (init : Node) :
    RelaxedBy (startValue f init) (startValue f' init) := by
  unfold Eval.startValue
  split
  · exact pure 0
  · exact h init

theorem select {f f' : Node → Eval (Option Int)} (h : ∀ t, RelaxedBy (f t) (f' t)) (c : Int)
    (yes no : Node) : RelaxedBy (select f c yes no) (select f' c yes no) := by
  unfold Eval.select
  split
  · exact h yes
  · split
    · exact pure none
    · exact h no

theorem leave (r : Option Int) : RelaxedBy (leave r) (leave r) := by
  cases r with
  | none => exact pure none
  | some v => exact bind (changing _) fun _ => pure _

theorem lookUp (line : Int) (x : String) : RelaxedBy (lookUp line x) (lookUp line x) :=
  refl fun s => ensures_lookUp (fun _ _ => .refl s) (fun _ => .refl s)

theorem operate (op : BinaryOperator) (a b : Int) :
    RelaxedBy (operate op a b) (operate op a b) :=
  refl fun s => ensures_operate (fun _ _ => .refl s) (fun _ => .refl s)

theorem bindParams (line : Int) :
    ∀ ps, RelaxedBy (bindParams line ps) (bindParams line ps)
  | [] => pure ()
  | (_, _) :: ps => bind (changing _) fun _ => bindParams line ps

theorem invoke (raised : ∀ k, limit = some k → n ≤ k) {body body' : Node → Eval (Option Int)}
    (h : ∀ t, RelaxedBy (body t) (body' t)) (line : Int) (name : String) (values : List Int) :
    RelaxedBy (invoke (some n) body line name values) (invoke limit body' line name values) := by
  refine bind (refl fun s => .refl s) fun
    | none => ?_
    | some f => ?_
  · dsimp only
    split
    · exact refl fun s => ⟨Text.printedLine values, rfl⟩
    · exact fail _ _
  · dsimp only
    split
    · refine bind (refl fun s => .of_printed_eq rfl) fun _ => ?_
      have called := nested (bind (bindParams f.line (f.params.zip values)) fun _ =>
        counted raised line (h f.body))
      exact bind called fun r => pure (r.getD 0)
    · exact fail _ _

end RelaxedBy

/-- At every allowance a run under the higher limit follows the one under the lower limit. -/
theorem relaxedBy_of_raised (raised : ∀ k, limit = some k → n ≤ k) (i : Nat) (t : Node) :
    RelaxedBy (expression (some n) i t) (expression limit i t) ∧
      RelaxedBy (statement (some n) i t) (statement limit i t) ∧
      RelaxedBy (block (some n) i t) (block limit i t) := by
  induction i generalizing t with
  | zero =>
    have cut : ∀ β, RelaxedBy (unfinished : Eval β) unfinished := fun β => .refl fun _ => trivial
    rw [expression, expression, statement, statement, block, block]
    exact ⟨cut _, cut _, cut _⟩
  | succ i ih =>
    have values := fun t => (ih t).1
    have runs := fun t => (ih t).2.1
    have blocks := fun t => (ih t).2.2
    refine ⟨?_, ?_, ?_⟩
    · cases t with
      | literal v => exact .pure v
      | reference line x => exact .lookUp line x
      | binary op l r =>
        rw [expression, expression]
        exact .bind (values l) fun a => .bind (values r) fun b => .operate op a b
      | call line name args =>
        rw [expression, expression]
        exact .bind (.inOrder values args) fun _ => .invoke raised blocks line name _
      | _ => exact .fail _ _
    · cases t with
      | declare line x init =>
        rw [statement, statement]
        exact .bind (.startValue values init) fun _ => .bind (.changing _) fun _ => .pure none
      | assign line x value =>
        rw [statement, statement]
        exact .bind (values value) fun _ => .bind (.changing _) fun _ => .pure none
      | function => exact .bind (.changing _) fun _ => .pure none
      | branch condition yes no =>
        rw [statement, statement]
        exact .bind (values condition) fun c => .bind (.select blocks c yes no) fun r => .leave r
      | loop condition body =>
        rw [statement, statement]
        refine .bind (values condition) fun c => ?_
        split
        · refine .bind (blocks body) fun r => ?_
          cases r with
          | none => exact runs _
          | some v => exact .leave (some v)
        · exact .pure none
      | exit value =>
        rw [statement, statement]
        exact .bind (values value) fun v => .leave (some v)
      | literal | binary | reference | call => exact .bind (values _) fun _ => .pure none
      | _ => exact .fail _ _
    · cases t with
      | block statements =>
        rw [block, block]
        exact .nested (.untilExit runs statements)
      | _ => exact .fail _ _

theorem program_relaxedBy (raised : ∀ k, limit = some k → n ≤ k) (i : Nat) (t : Node) :
    RelaxedBy (program (some n) i t) (program limit i t) := by
  cases t with
  | program body => exact (relaxedBy_of_raised raised i body).2.2
  | _ => exact .fail _ _

/-- A run that is refused no call under a limit has the same result under every higher limit and
under none: the same value or fault, the same output and the same scopes. What a run has printed
when a call is refused is the beginning of what is printed under the higher limit, however the run
ends there. -/
theorem run_of_raised_limit (raised : ∀ k, limit = some k → n ≤ k) (t : Node) (s : State) :
    (∀ i, (∀ line u, program (some n) i t s ≠ .failed ⟨.recursionDepthExceeded, line⟩ u) →
      program limit i t s = program (some n) i t s) ∧
    ∀ i j line u w, program (some n) i t s = .failed ⟨.recursionDepthExceeded, line⟩ u →
      (program limit j t s).state? = some w →
      ∃ out more, u.printed = s.printed ++ out ∧ w.printed = s.printed ++ out ++ more := by
  constructor
  · intro i allowed
    rcases (program_relaxedBy raised i t).follows s with same | ⟨line, u, refused, -⟩
    · exact same.symm
    · exact absurd refused (allowed line u)
  · intro i j line u w refused ended
    -- both runs end within the larger of the two allowances as they did
    have low : program (some n) (max i j) t s = .failed ⟨.recursionDepthExceeded, line⟩ u := by
      have same := (program_extendedBy (some n) t (Nat.le_max_left i j) s).resolve_left (by
        rw [refused]; exact nofun)
      rw [← same, refused]
    have high : (program limit (max i j) t s).state? = some w := by
      have same := (program_extendedBy limit t (Nat.le_max_right i j) s).resolve_left (by
        intro cut; rw [cut] at ended; cases ended)
      rw [← same, ended]
    have goesOn : u.Continues w := by
      rcases (program_relaxedBy raised (max i j) t).follows s with same | ⟨_, u', refused', later⟩
      · rw [← same, low] at high
        obtain rfl := Option.some.inj high
        exact .refl u
      · obtain rfl : u = u' := by
          rw [low] at refused'
          exact (Result.failed.inj refused').2
        exact leaves_iff.1 later w high
    obtain ⟨out, hu⟩ : s.Continues u := by
      have own : RelaxedBy (program (some n) i t) (program (some n) i t) :=
        program_relaxedBy (by simp) i t
      have continues := own.continues s
      rwa [refused] at continues
    obtain ⟨more, hw⟩ := goesOn
    exact ⟨out, more, hu, by rw [hw, hu]⟩

/-- A countdown prints its first number under a limit of one active call. Two calls are enough for
it, and no limit makes no difference to that. -/
theorem run_of_raised_limit_countdown :
    let t : Node := .program (.block [
      .function 1 "down" ["k"] (.block [
        .call 2 "println" [.reference 2 "k"],
        .branch (.reference 3 "k")
          (.block [.exit (.call 4 "down" [.binary .minus (.reference 4 "k") (.literal 1)])])
          .nothing]),
      .call 5 "down" [.literal 1]])
    let s : State := { scope := [{}] }
    let u : State := { s with printed := "1 \n", calls := [⟨4, "down", [0]⟩, ⟨5, "down", [1]⟩] }
    let w : State := { u with printed := "1 \n0 \n" }
    (∀ k, some (2 : Int) = some k → 1 ≤ k) ∧
      program (some 1) 12 t s = .failed ⟨.recursionDepthExceeded, some 4⟩ u ∧
      program (some 2) 12 t s = .done none w ∧
      (∃ out more, u.printed = s.printed ++ out ∧ w.printed = s.printed ++ out ++ more) ∧
      program none 12 t s = program (some 2) 12 t s := by
  intro t s u w
  have refused : program (some 1) 12 t s = .failed ⟨.recursionDepthExceeded, some 4⟩ u := by
    decide +kernel
  have allowed : program (some 2) 12 t s = .done none w := by decide +kernel
  have higher : ∀ k, some (2 : Int) = some k → 1 ≤ k := by simp
  have ended : (program (some 2) 12 t s).state? = some w := by rw [allowed]; rfl
  refine ⟨higher, refused, allowed, ?_, ?_⟩
  · exact (run_of_raised_limit higher t s).2 12 12 _ u w refused ended
  · have lifted : ∀ k, none = some k → (2 : Int) ≤ k := nofun
    refine (run_of_raised_limit lifted t s).1 12 fun line v => ?_
    rw [allowed]
    exact nofun

end Eval
end CallSite

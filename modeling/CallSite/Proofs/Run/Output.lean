import CallSite.Proofs.Run.Blame
import CallSite.Proofs.Run.Budget
import CallSite.Proofs.Run.LexicalScope

/-! Output. A run adds whole lines to what was printed, and it does so without reading it. Every line
is printed by a call of the printing function that the run comes to, in a scope where no function
hides that one. So a run is silent if it starts where a function hides the printing one, since no
scope inside loses sight of that function, and it is silent if no code that it can reach calls it. -/

namespace CallSite
variable {α : Type}

theorem State.Prints.eq_of_never {P : List Int → Prop} {s u : State} (h : s.Prints P u)
    (never : ∀ values, ¬P values) : u.printed = s.printed := by
  obtain ⟨lines, all, printed⟩ := h
  obtain rfl : lines = [] := List.eq_nil_iff_forall_not_mem.2 fun values mem =>
    never values (all values mem)
  simpa using printed

/-- The tree is a call of the printing function. -/
def Node.isPrintCall : Node → Bool
  | call _ name _ => name == Eval.printName
  | _ => false

namespace Eval
open Result
variable {limit : Option Int} {n : Nat} {t : Node} {s u : State}

/-- However it ends, the step has added whole lines to the output. After other output it ends in the
same way, with the same lines added and in the same scope. -/
structure AppendsLines (m : Eval α) : Prop where
  appended : ∀ s, (m s).Leaves fun u => ∃ lines : List (List Int),
    u.printed = s.printed ++ String.join (lines.map Text.printedLine)
  unread : ∀ (before : String) (s : State), m { s with printed := before } =
    (m { s with printed := "" }).mapState fun u => { u with printed := before ++ u.printed }

/-- Expressions, blocks and programs add whole lines to the output, however they end, and what stands
there makes no difference to them. -/
theorem runs_append_lines (limit : Option Int) (n : Nat) (t : Node) :
    AppendsLines (expression limit n t) ∧ AppendsLines (block limit n t) ∧
      AppendsLines (program limit n t) := by
  obtain ⟨values, blocks, programs⟩ := runs_unaffected n t
  refine ⟨⟨fun s => ?_, values.unread limit⟩, ⟨fun s => ?_, blocks.unread limit⟩,
    ⟨fun s => ?_, programs.unread limit⟩⟩
  · exact (expression_changed limit n t s).imp fun _ h => h.printed
  · exact (block_changed limit n t s).imp fun _ h => h.printed
  · exact (program_changed limit n t s).imp fun _ h => h.printed

/-- Every line that a program prints in a run from an empty root scope is printed by a call of the
printing function in the program, with one value for each argument. -/
theorem printed_by_calls (fresh : s.scope = [{}]) : (program limit n t s).Leaves
    (s.Prints fun values => ∃ line args, t.Contains (.call line printName args) ∧
      values.length = args.length) := by
  cases t with
  | program body =>
    have traced := ((fromRoot limit (.program body)).covers n).block body s
      (fromRoot_start limit fresh)
    have here : ∀ values, (fromRoot limit (.program body)).Printed values →
        ∃ line args, (Node.program body).Contains (.call line printName args) ∧
          values.length = args.length :=
      fun values ⟨line, args, _, known, _, all⟩ => ⟨line, args, known.1, all⟩
    exact traced.leaves.imp fun _ h => h.mono here
  | _ => exact .refl s

/-- A block prints nothing if the invariant is known of it, and of no call that prints. -/
theorem Invariant.silent (I : Invariant limit) (known : I.holds .block t s)
    (never : ∀ values, ¬I.Printed values) (ended : (block limit n t s).state? = some u) :
    u.printed = s.printed := by
  have traced := (I.covers n).block t s known
  exact (leaves_iff.1 traced.leaves u ended).eq_of_never never

/-- A function that hides the printing one is seen wherever the run comes. -/
def hidden (limit : Option Int) : Invariant limit where
  holds _ _ s := s.scope.Binds [] [printName]
  holdsOf _ s := s.scope.Binds [] [printName]
  changed known hu := known.frame hu.scope
  inside known _ := known
  enters known := known.push {}
  first known := known
  rest known grown := (known.grown grown.scope).mono (List.nil_subset _)
    (List.subset_append_right _ _)
  calls known _ _ _ _ := known.push _

/-- The code that a run comes to has a property everywhere that the code it starts with and the code
of the stored functions have everywhere. -/
def confined (limit : Option Int) (p : Node → Prop) : Invariant limit where
  holds _ t s := t.Everywhere p ∧ s.scope.Stores p
  holdsOf ts s := (∀ t ∈ ts, t.Everywhere p) ∧ s.scope.Stores p
  changed known hu := ⟨known.1, hu.scope.stores_iff.2 known.2⟩
  inside known runs := ⟨runs.everywhere known.1, known.2⟩
  enters known := ⟨fun _ mem => known.1.part mem, known.2.push rfl⟩
  first known := ⟨known.1 _ List.mem_cons_self, known.2⟩
  rest {t ts s u} known grown := by
    refine ⟨fun t' mem => known.1 t' (List.mem_cons_of_mem t mem), ?_⟩
    refine grown.scope.stores (fun e he => ?_) known.2
    rw [(Node.declaration_of_mem_newFunctions he).1]
    exact known.1 t List.mem_cons_self
  calls known found _ _ _ := ⟨known.2.body_of_function? found, known.2.push rfl⟩

/-- A block prints nothing, however it ends, if a function that hides the printing one is visible
where it starts, or if the printing one is called nowhere in the block and nowhere in the functions
of its scope. -/
theorem block_silent (silent : s.scope.function? printName ≠ none ∨
      t.Everywhere (·.isPrintCall = false) ∧ s.scope.Stores (·.isPrintCall = false))
    (ended : (block limit n t s).state? = some u) : u.printed = s.printed := by
  rcases silent with seen | ⟨code, stored⟩
  · have known : (hidden limit).holds .block t s :=
      ⟨nofun, fun _ mem => List.mem_singleton.1 mem ▸ seen⟩
    have never : ∀ values, ¬(hidden limit).Printed values :=
      fun _ ⟨_, _, _, known, missing, _⟩ => known.function? _ List.mem_cons_self missing
    exact (hidden limit).silent known never ended
  · have never : ∀ values, ¬(confined limit (·.isPrintCall = false)).Printed values := by
      rintro _ ⟨line, args, _, known, _⟩
      exact absurd known.1.self (by simp [Node.isPrintCall])
    exact (confined limit (·.isPrintCall = false)).silent ⟨code, stored⟩ never ended

/-- A function of the scope hides the printing one, and a function that it is called from declares a
further one of the name. Without either a block that calls a function fails. -/
theorem block_silent_hidden :
    let hides : Function := ⟨1, "println", ["a", "b"],
      .block [.exit (.binary .plus (.reference 1 "a") (.reference 1 "b"))]⟩
    let f : Function := ⟨2, "f", ["println"], .block [
      .branch (.call 3 "println" [.reference 3 "println", .literal 1]) (.block [
        .function 4 "println" ["x"] (.block [.exit (.literal 0)]),
        .call 5 "println" [.literal 2]]) .nothing]⟩
    let s : State := { scope := [{}, { functions := [("println", hides)] }], printed := "7 \n" }
    let u : State := { s with calls := [⟨8, "println", [1, 0]⟩, ⟨5, "println", [2]⟩,
      ⟨3, "println", [6, 1]⟩, ⟨7, "f", [6]⟩] }
    let k : Function := ⟨1, "k", [], .block [.exit (.literal 0)]⟩
    let s' : State := { scope := [{ functions := [("k", k)] }], printed := "7 \n" }
    let u' : State := { s' with calls := [⟨2, "k", []⟩] }
    let t : Node := .block [.function f.line f.name f.params f.body, .call 7 "f" [.literal 6],
      .exit (.call 8 "println" [.literal 1, .literal 0])]
    let t' : Node := .block [.exit (.binary .mod (.literal 1) (.call 2 "k" []))]
    (s.scope.function? printName ≠ none ∧ (block none 12 t s).state? = some u ∧
      u.printed = s.printed) ∧
    (t'.Everywhere (·.isPrintCall = false) ∧ s'.scope.Stores (·.isPrintCall = false) ∧
      (block none 12 t' s').state? = some u' ∧ u'.printed = s'.printed) := by
  intro hides f s u k s' u' t t'
  have seen : s.scope.function? printName ≠ none := by decide +kernel
  have ended : (block none 12 t s).state? = some u := by decide +kernel
  have code : t'.Everywhere (·.isPrintCall = false) := by decide +kernel
  have stored : s'.scope.Stores (·.isPrintCall = false) := by decide +kernel
  have ended' : (block none 12 t' s').state? = some u' := by decide +kernel
  exact ⟨⟨seen, ended, block_silent (.inl seen) ended⟩,
    code, stored, ended', block_silent (.inr ⟨code, stored⟩) ended'⟩

end Eval
end CallSite

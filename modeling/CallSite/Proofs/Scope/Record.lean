import CallSite.Proofs.Scope.Operations

/-! What a tree of scopes keeps of the calls made on it. A scope lists what was declared in it, in
the order of the declarations, it has the first exit value that it was given, and the output is all
that was printed through any scope, in order. A call that was refused leaves no trace, and nothing
that a call left is taken away by a later one. -/

namespace CallSite

theorem Bindings.get?_append {α : Type} (a b : Bindings α) (x : String) :
    get? (a ++ b) x = (get? a x <|> get? b x) := by
  simp only [get?, List.find?_append]
  cases a.find? fun p => p.1 = x <;> rfl

namespace ScopeTree
variable {t u w : ScopeTree} {i : Nat} {op : Operation} {call : Call} {calls later : List Call}

namespace Call

/-- The variables that a call adds to a scope. -/
@[simp] def newVariables (i : Nat) : Call → List String
  | ⟨.declareVariable j x _ _, none⟩ => if j = i then [x] else []
  | _ => []

/-- The functions that a call adds to a scope. -/
@[simp] def newFunctions (i : Nat) : Call → Bindings Function
  | ⟨.declareFunction j name f _, none⟩ => if j = i then [(name, f)] else []
  | _ => []

/-- The exit value that a call gives to a scope. -/
@[simp] def newExit? (i : Nat) : Call → Option Int
  | ⟨.setExit j value, none⟩ => if j = i then value else none
  | _ => none

/-- The lines that a call prints. -/
@[simp] def lines : Call → List (List Int)
  | ⟨.print _ values, none⟩ => [values]
  | _ => []

end Call

/-- The second level is the first one with what the calls have left in the level of their scope. -/
structure Left (calls : List Call) (i : Nat) (l k : Level) : Prop where
  locals : k.locals.names = l.locals.names ++ calls.flatMap (·.newVariables i)
  functions : k.functions = l.functions ++ calls.flatMap (·.newFunctions i)
  exit : k.exit = (l.exit <|> calls.findSome? (·.newExit? i))

/-- The second tree is the first one with what the calls have left in its scopes and its output. -/
structure Records (calls : List Call) (t u : ScopeTree) : Prop where
  level : ∀ i, Left calls i (t.level i) (u.level i)
  printed : u.printed =
    t.printed ++ String.join ((calls.flatMap (·.lines)).map Text.printedLine)

theorem Left.append {l k m : Level} (h : Left calls i l k) (h' : Left later i k m) :
    Left (calls ++ later) i l m := by
  constructor
  · rw [h'.locals, h.locals, List.flatMap_append, List.append_assoc]
  · rw [h'.functions, h.functions, List.flatMap_append, List.append_assoc]
  · rw [h'.exit, h.exit, List.findSome?_append]
    cases l.exit <;> simp

theorem Records.refl (t : ScopeTree) : Records [] t t :=
  ⟨fun _ => ⟨by simp, by simp, by simp⟩, by simp⟩

theorem Records.append (h : Records calls t u) (h' : Records later u w) :
    Records (calls ++ later) t w := by
  constructor
  · exact fun i => (h.level i).append (h'.level i)
  · rw [h'.printed, h.printed, List.flatMap_append, List.map_append, String.join_append,
      String.append_assoc]

/-- A refused call leaves nothing. -/
theorem Records.refused (t : ScopeTree) (op : Operation) (fault : Fault) :
    Records [⟨op, some fault⟩] t t := by
  refine ⟨fun i => ?_, by simp⟩
  constructor <;> simp

/-- A call that changes one level and prints nothing. -/
theorem Records.of_setLevel {k : Nat} {l : Level} (known : k < t.entries.length)
    (silent : call.lines = []) (here : Left [call] k (t.level k) l)
    (elsewhere : ∀ j, k ≠ j → Left [call] j (t.level j) (t.level j)) :
    Records [call] t (t.setLevel k l) := by
  have nothing : [call].flatMap (·.lines) = [] := by rw [List.flatMap_singleton, silent]
  refine ⟨fun j => ?_, by rw [nothing]; simp⟩
  rw [level_setLevel known]
  split
  · next same => exact same ▸ here
  · next other => exact elsewhere j other

theorem level_child (t : ScopeTree) (i j : Nat) : (t.child i).2.level j = t.level j := by
  simp only [level, child]
  rcases Nat.lt_trichotomy j t.entries.length with old | rfl | beyond
  · rw [List.getElem?_append_left old]
  · simp
  · rw [List.getElem?_eq_none (by simp; omega), List.getElem?_eq_none (by omega)]

/-- An operation leaves what it says in the scope that it concerns and nothing in the others. -/
theorem Performed.records (h : t.Linked) (known : op.scope < t.entries.length)
    (performed : t.Performed op u) : Records [⟨op, none⟩] t u := by
  cases performed with
  | child i =>
    refine ⟨fun j => ?_, by simp [ScopeTree.child]⟩
    rw [level_child]
    constructor <;> simp
  | print i values =>
    refine ⟨fun j => ?_, by simp [ScopeTree.print]⟩
    show Left _ j (t.level j) (t.level j)
    constructor <;> simp
  | @declareVariable i x fresh v line =>
    apply Records.of_setLevel (show i < _ from known) rfl
    · constructor <;> simp
    · intro j other
      constructor <;> simp [other]
  | @declareFunction i name fresh f line =>
    apply Records.of_setLevel (show i < _ from known) rfl
    · constructor <;> simp [Bindings.add]
    · intro j other
      constructor <;> simp [other]
  | @assign i k x owned v line =>
    apply Records.of_setLevel (h.lt_of_mem_chain (mem_chain_of_owner owned)) rfl
    · constructor <;> simp
    · intro j other
      constructor <;> simp
  | @setExit i free v =>
    apply Records.of_setLevel (show i < _ from known) rfl
    · constructor <;> simp [free]
    · intro j other
      constructor <;> simp [other]

theorem records_of_serveAll {ops : List Operation} (h : t.Linked)
    (served : serveAll ops t = some (calls, u)) : Records calls t u := by
  induction ops generalizing t calls with
  | nil =>
    cases served
    exact .refl _
  | cons op rest ih =>
    obtain ⟨⟨call, mid⟩, first, served⟩ := Option.bind_eq_some_iff.1 served
    obtain ⟨⟨calls, last⟩, others, same⟩ := Option.bind_eq_some_iff.1 served
    cases same
    obtain ⟨known, ⟨rfl, ok⟩ | ⟨fault, rfl, -, rfl⟩⟩ := serve_eq_some_iff.1 first
    · have performed := performed_of_ok h known ok
      exact (performed.records h known).append (ih (h.performed known performed) others)
    · exact (Records.refused _ op fault).append (ih h others)

/-- No level lists a name twice in a namespace. -/
def Distinct (t : ScopeTree) : Prop := ∀ i kind, ((t.level i).names kind).Nodup

theorem Distinct.setLevel {l : Level} {k : Nat} (h : t.Distinct) (known : k < t.entries.length)
    (here : ∀ kind, (l.names kind).Nodup) : (t.setLevel k l).Distinct := by
  intro i kind
  rw [level_setLevel known]
  split
  · exact here kind
  · exact h i kind

theorem nodup_concat {names : List String} {x : String} (h : names.Nodup) (fresh : x ∉ names) :
    (names ++ [x]).Nodup := by
  simpa [List.nodup_append, h] using fun y mem (same : y = x) => fresh (same ▸ mem)

/-- Only a name that its level does not list yet is added to one. -/
theorem Distinct.performed (h : t.Linked) (known : op.scope < t.entries.length)
    (performed : t.Performed op u) (distinct : t.Distinct) : u.Distinct := by
  cases performed with
  | child i =>
    intro j kind
    rw [level_child]
    exact distinct j kind
  | print i values => exact distinct
  | @declareVariable i x fresh v line =>
    refine distinct.setLevel known fun kind => ?_
    cases kind with
    | locals => simpa [Level.names] using nodup_concat (distinct i .locals) fresh
    | functions => exact distinct i .functions
  | @declareFunction i name fresh f line =>
    refine distinct.setLevel known fun kind => ?_
    cases kind with
    | locals => exact distinct i .locals
    | functions => simpa [Level.names] using nodup_concat (distinct i .functions) fresh
  | @assign i k x owned v line =>
    refine distinct.setLevel (h.lt_of_mem_chain (mem_chain_of_owner owned)) fun kind => ?_
    cases kind with
    | locals => simpa [Level.names] using distinct k .locals
    | functions => exact distinct k .functions
  | @setExit i free v =>
    refine distinct.setLevel known fun kind => ?_
    cases kind with
    | locals => exact distinct i .locals
    | functions => exact distinct i .functions

theorem level_root (printed : String) (i : Nat) : level { printed } i = {} := by
  cases i <;> rfl

/-- Whatever was asked of the scopes of a tree, and however often it was refused: a refused call
leaves the whole tree as it was; each scope lists what was declared in it, each name once and in the
order of the declarations; an exit value is refused exactly if there is one or none is given; and
the output is what was printed. Whatever is asked afterwards, no name is lost or moved, no function
is replaced and no exit value changes. -/
theorem calls_recorded {printed : String} {ops more : List Operation}
    (first : serveAll ops { printed } = some (calls, t))
    (next : serveAll more t = some (later, u)) :
    (∀ op call w, t.serve op = some (call, w) → call.refusal ≠ none → w = t) ∧
    (∀ i, (t.level i).locals.names = calls.flatMap (·.newVariables i) ∧
      (t.level i).functions = calls.flatMap (·.newFunctions i) ∧
      (t.level i).exit = calls.findSome? (·.newExit? i) ∧
      (t.level i).locals.names.Nodup ∧ (t.level i).functions.names.Nodup) ∧
    (∀ i < t.entries.length, ∀ value, (∃ fault, t.setExit i value = .error fault) ↔
      (t.level i).exit ≠ none ∨ value = none) ∧
    t.printed = printed ++ String.join ((calls.flatMap (·.lines)).map Text.printedLine) ∧
    ∀ i, (t.level i).locals.names <+: (u.level i).locals.names ∧
      (t.level i).functions.names <+: (u.level i).functions.names ∧
      (∀ name f, (t.level i).functions.get? name = some f →
        (u.level i).functions.get? name = some f) ∧
      ∀ v, (t.level i).exit = some v → (u.level i).exit = some v := by
  have linked : t.Linked := (linked_root printed).serveAll first
  have records : Records calls { printed } t := records_of_serveAll (linked_root printed) first
  have after : Records later t u := records_of_serveAll linked next
  have start : Distinct { printed } := by
    intro i kind
    rw [level_root]
    cases kind <;> exact List.nodup_nil
  have distinct : t.Distinct :=
    (serveAll_keeps (fun _ _ _ => Distinct.performed) (linked_root printed) start first).2
  refine ⟨fun op call w served refused => ?_, fun i => ⟨?_, ?_, ?_, ?_, ?_⟩,
    fun i known value => ?_, records.printed, fun i => ⟨?_, ?_, fun name f found => ?_, ?_⟩⟩
  · obtain ⟨-, ⟨rfl, -⟩ | ⟨fault, rfl, -, same⟩⟩ := serve_eq_some_iff.1 served
    · exact absurd rfl refused
    · exact same.symm
  · simpa [level_root, Bindings.names] using (records.level i).locals
  · simpa [level_root] using (records.level i).functions
  · simpa [level_root] using (records.level i).exit
  · exact distinct i .locals
  · exact distinct i .functions
  · rw [setExit_eq linked known]
    cases (t.level i).exit <;> cases value <;> simp
  · rw [(after.level i).locals]
    exact List.prefix_append _ _
  · rw [(after.level i).functions, Bindings.names, Bindings.names, List.map_append]
    exact List.prefix_append _ _
  · rw [(after.level i).functions, Bindings.get?_append, found]
    rfl
  · intro v left
    rw [(after.level i).exit, left]
    rfl

/-- Refused declarations and a second exit value between others, and prints through two scopes. -/
theorem calls_recorded_refused :
    let g : Function := ⟨1, "g", [], .block []⟩
    let ops : List Operation := [.child 0, .declareVariable 1 "x" 1 none, .print 1 [1, 2],
      .declareFunction 1 "x" g none, .declareVariable 1 "y" 2 none, .assign 1 "x" 5 none,
      .declareVariable 1 "x" 3 none, .setExit 1 (some 0), .setExit 1 (some 6), .print 0 []]
    let again : Call :=
      ⟨.declareVariable 1 "x" 3 none, some ⟨.duplicateDeclaration "x" "variable", none⟩⟩
    let calls : List Call := (ops.take 6).map (⟨·, none⟩) ++ [again, ⟨.setExit 1 (some 0), none⟩,
      ⟨.setExit 1 (some 6), some ⟨.exitRepeated 0, none⟩⟩, ⟨.print 0 [], none⟩]
    let l : Level := ⟨[("x", 5), ("y", 2)], [("x", g)], some 0⟩
    let t : ScopeTree := ⟨[({}, []), (l, [0])], "> 1 2 \n\n"⟩
    let u : ScopeTree := ⟨t.entries ++ [(⟨[], [], none⟩, [1, 0])], t.printed⟩
    serveAll ops { printed := "> " } = some (calls, t) ∧
      serveAll [.child 1] t = some ([⟨.child 1, none⟩], u) ∧
      calls.flatMap (·.newVariables 1) = ["x", "y"] ∧ (u.level 1).exit = some 0 := by
  intro g ops again calls l t u
  have first : serveAll ops { printed := "> " } = some (calls, t) := by decide +kernel
  have next : serveAll [.child 1] t = some ([⟨.child 1, none⟩], u) := by decide +kernel
  obtain ⟨-, lists, -, -, kept⟩ := calls_recorded first next
  exact ⟨first, next, (lists 1).1.symm, (kept 1).2.2.2 0 rfl⟩

end ScopeTree
end CallSite

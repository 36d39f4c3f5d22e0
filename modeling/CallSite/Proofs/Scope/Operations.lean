import CallSite.Proofs.Scope.Change
import CallSite.Scope.ScopeTree

/-! Operations on trees of scopes. Every scope but the root lies in an older one, whose levels it
shares, so a scope lists each of its levels once. A change of a scope is therefore a change of one
level, which every scope sees that lists the level; each operation has an equation that names the
level and says what becomes of it. -/

namespace CallSite

/-- An assignment passes the levels that do not declare the variable. -/
theorem Scope.assign?_append {before : Scope} {l : Level} {x : String}
    (passed : ∀ m ∈ before, x ∉ m.locals.names) (declared : x ∈ l.locals.names) (v : Int)
    (after : Scope) : Scope.assign? (before ++ l :: after) x v =
      some (before ++ { l with locals := l.locals.set x v } :: after) := by
  induction before with
  | nil =>
    obtain ⟨old, found⟩ := Option.isSome_iff_exists.1 (Bindings.isSome_get?_iff.2 declared)
    simp [assign?, found]
  | cons m before ih =>
    have missing : m.locals.get? x = none := Bindings.get?_eq_none_iff.2 (passed m (by simp))
    have further := ih fun m' mem => passed m' (by simp [mem])
    simp [assign?, missing, further]

namespace ScopeTree
variable {t u : ScopeTree} {i j k : Nat} {l : Level} {x name : String} {v : Int} {f : Function}
  {line : Option Int}

/-- Every scope but the root lists its own level and then the levels of an older scope. -/
structure Linked (t : ScopeTree) : Prop where
  root : t.chain 0 = [0]
  inner : ∀ i, 0 < i → i < t.entries.length → ∃ p < i, t.chain i = i :: t.chain p

theorem chain_of_le (h : t.entries.length ≤ i) : t.chain i = [] := by
  simp [chain, List.getElem?_eq_none h]

theorem exists_chain (known : i < t.entries.length) : ∃ outer, t.chain i = i :: outer := by
  simp [chain, List.getElem?_eq_getElem known]

namespace Linked

/-- The levels of a scope are listed from the newest to the oldest. -/
theorem chain_sorted (h : t.Linked) (i : Nat) :
    (t.chain i).Pairwise (· > ·) ∧ ∀ k ∈ t.chain i, k ≤ i := by
  induction i using Nat.strongRecOn with
  | ind i ih =>
    rcases Nat.lt_or_ge i t.entries.length with known | missing
    · rcases Nat.eq_zero_or_pos i with rfl | inside
      · simp [h.root]
      · obtain ⟨p, older, here⟩ := h.inner i inside known
        obtain ⟨sorted, bounded⟩ := ih p older
        rw [here]
        constructor
        · exact List.pairwise_cons.2 ⟨fun k mem => by have := bounded k mem; omega, sorted⟩
        · intro k mem
          rcases List.mem_cons.1 mem with rfl | mem
          · exact Nat.le_refl k
          · have := bounded k mem
            omega
    · simp [chain_of_le missing]

theorem nodup_chain (h : t.Linked) (i : Nat) : (t.chain i).Nodup :=
  (h.chain_sorted i).1.imp Nat.ne_of_gt

theorem lt_of_mem_chain (h : t.Linked) (mem : k ∈ t.chain i) : k < t.entries.length := by
  rcases Nat.lt_or_ge i t.entries.length with known | missing
  · have := (h.chain_sorted i).2 k mem
    omega
  · simp [chain_of_le missing] at mem

end Linked

/-! A change of one level -/

@[simp] theorem length_setLevel (t : ScopeTree) (k : Nat) (l : Level) :
    (t.setLevel k l).entries.length = t.entries.length := by
  simp [setLevel]

@[simp] theorem printed_setLevel (t : ScopeTree) (k : Nat) (l : Level) :
    (t.setLevel k l).printed = t.printed := rfl

@[simp] theorem chain_setLevel (t : ScopeTree) (k : Nat) (l : Level) (i : Nat) :
    (t.setLevel k l).chain i = t.chain i := by
  simp only [chain, setLevel, List.getElem?_modify]
  cases t.entries[i]? <;> simp
  split <;> rfl

theorem level_setLevel (known : k < t.entries.length) (l : Level) (j : Nat) :
    (t.setLevel k l).level j = if k = j then l else t.level j := by
  simp only [level, setLevel, List.getElem?_modify]
  split
  · next same =>
    subst same
    simp [List.getElem?_eq_getElem known]
  · simp

theorem level_setLevel_of_ne (other : k ≠ j) (l : Level) :
    (t.setLevel k l).level j = t.level j := by
  simp [level, setLevel, other]

theorem setLevel_level (t : ScopeTree) (k : Nat) : t.setLevel k (t.level k) = t := by
  have same : t.entries.modify k (fun e => (t.level k, e.2)) = t.entries := by
    apply List.ext_getElem?
    intro j
    rw [List.getElem?_modify]
    split
    · next here =>
      subst here
      cases found : t.entries[k]? <;> simp [level, found]
    · simp
  simp [setLevel, same]

theorem Linked.setLevel (h : t.Linked) (k : Nat) (l : Level) : (t.setLevel k l).Linked :=
  ⟨by simp [h.root], by simpa using h.inner⟩

/-- Writing the levels of a scope back changes nothing. -/
theorem foldl_setLevel_level (t : ScopeTree) (ks : List Nat) :
    (ks.zip (ks.map t.level)).foldl (fun t p => t.setLevel p.1 p.2) t = t := by
  induction ks with
  | nil => rfl
  | cons k ks ih => simpa [setLevel_level] using ih

/-- Of a scope that differs from the stored one in a single level, that level is all that is
written. -/
theorem setScope_eq_setLevel {before after : List Nat} (here : t.chain i = before ++ k :: after)
    (once : k ∉ after) (l : Level) :
    t.setScope i (before.map t.level ++ l :: after.map t.level) = t.setLevel k l := by
  have rest : after.map t.level = after.map (t.setLevel k l).level := by
    refine List.map_congr_left fun j mem => ?_
    have other : k ≠ j := fun same => once (same ▸ mem)
    exact (level_setLevel_of_ne other l).symm
  rw [setScope, here, List.zip_append (by simp), List.foldl_append, foldl_setLevel_level,
    List.zip_cons_cons, List.foldl_cons, rest, foldl_setLevel_level]

/-- A change of a scope's own level. -/
theorem update_own (h : t.Linked) (known : i < t.entries.length)
    {change : Scope → Except Fault Scope}
    (changed : change (t.scope i) = .ok ((t.scope i).withOwn l)) :
    t.update i change = .ok (t.setLevel i l) := by
  obtain ⟨outer, here⟩ := exists_chain known
  have once : i ∉ outer := (List.nodup_cons.1 (here ▸ h.nodup_chain i)).1
  have stored : (t.scope i).withOwn l = [].map t.level ++ l :: outer.map t.level := by
    simp [scope, here, Scope.withOwn]
  rw [update, changed, stored, Except.map, setScope_eq_setLevel here once]

theorem own_scope (known : i < t.entries.length) : (t.scope i).own = t.level i := by
  obtain ⟨outer, here⟩ := exists_chain known
  simp [scope, here]

/-! The operations, one by one -/

theorem declareVariable_eq (h : t.Linked) (known : i < t.entries.length) (x : String) (v : Int)
    (line : Option Int) : t.declareVariable i x v line =
      if x ∈ (t.level i).locals.names then .error ⟨.duplicateDeclaration x "variable", line⟩
      else .ok (t.setLevel i { t.level i with locals := (t.level i).locals.add x v }) := by
  rw [declareVariable]
  split
  · next taken =>
    rw [← own_scope known] at taken
    have refused : (t.scope i).declareVariable x v line =
        .error ⟨.duplicateDeclaration x "variable", line⟩ :=
      Scope.declareVariable_eq_error_iff.2 ⟨Bindings.isSome_get?_iff.2 taken, rfl⟩
    rw [update, refused, Except.map]
  · next fresh =>
    apply update_own h known
    rw [← own_scope known] at fresh ⊢
    exact Scope.declareVariable_eq_ok_iff.2 ⟨Bindings.get?_eq_none_iff.2 fresh, rfl⟩

theorem declareFunction_eq (h : t.Linked) (known : i < t.entries.length) (name : String)
    (f : Function) (line : Option Int) : t.declareFunction i name f line =
      if name ∈ (t.level i).functions.names then
        .error ⟨.duplicateDeclaration name "function", line⟩
      else .ok (t.setLevel i { t.level i with
        functions := (t.level i).functions.add name f }) := by
  rw [declareFunction]
  split
  · next taken =>
    rw [← own_scope known] at taken
    have refused : (t.scope i).declareFunction name f line =
        .error ⟨.duplicateDeclaration name "function", line⟩ :=
      Scope.declareFunction_eq_error_iff.2 ⟨Bindings.isSome_get?_iff.2 taken, rfl⟩
    rw [update, refused, Except.map]
  · next fresh =>
    apply update_own h known
    rw [← own_scope known] at fresh ⊢
    exact Scope.declareFunction_eq_ok_iff.2 ⟨Bindings.get?_eq_none_iff.2 fresh, rfl⟩

theorem setExit_eq (h : t.Linked) (known : i < t.entries.length) (value : Option Int) :
    t.setExit i value = match (t.level i).exit, value with
      | some old, _ => .error ⟨.exitRepeated old, none⟩
      | none, none => .error ⟨.exitMissing, none⟩
      | none, some v => .ok (t.setLevel i { t.level i with exit := some v }) := by
  rw [setExit]
  split
  · next old taken => simp [update, Scope.setExit, own_scope known, taken, Except.map]
  · next free => simp [update, Scope.setExit, own_scope known, free, Except.map]
  · next v free =>
    apply update_own h known
    rw [← own_scope known] at free ⊢
    exact Scope.setExit_some_eq_ok_iff.2 ⟨free, rfl⟩

/-- The nearest level of a scope that binds a name. -/
def owner? (t : ScopeTree) (kind : Namespace) (i : Nat) (name : String) : Option Nat :=
  (t.chain i).find? fun k => name ∈ (t.level k).names kind

/-- A lookup through numbered levels asks the first one that lists the name. -/
theorem findSome?_get? {α : Type} (bindings : Nat → Bindings α) (ks : List Nat) (x : String) :
    ks.findSome? (fun k => (bindings k).get? x) =
      (ks.find? fun k => x ∈ (bindings k).names).bind fun k => (bindings k).get? x := by
  induction ks with
  | nil => rfl
  | cons k ks ih =>
    rw [List.findSome?_cons, List.find?_cons]
    by_cases here : x ∈ (bindings k).names
    · obtain ⟨v, found⟩ := Option.isSome_iff_exists.1 (Bindings.isSome_get?_iff.2 here)
      simp [found, here]
    · simpa [Bindings.get?_eq_none_iff.2 here, here] using ih

theorem value?_eq_findSome (t : ScopeTree) (i : Nat) (x : String) :
    (t.scope i).value? x = (t.chain i).findSome? fun k => (t.level k).locals.get? x := by
  rw [scope, Scope.value?, List.findSome?_map]
  rfl

theorem function?_eq_findSome (t : ScopeTree) (i : Nat) (name : String) :
    (t.scope i).function? name =
      (t.chain i).findSome? fun k => (t.level k).functions.get? name := by
  rw [scope, Scope.function?, List.findSome?_map]
  rfl

/-- The value of a variable is the one that its owner holds. -/
theorem value?_eq_owner (t : ScopeTree) (i : Nat) (x : String) :
    (t.scope i).value? x = (t.owner? .locals i x).bind fun k => (t.level k).locals.get? x := by
  rw [value?_eq_findSome]
  exact findSome?_get? (fun k => (t.level k).locals) (t.chain i) x

theorem mem_chain_of_owner {kind : Namespace} (h : t.owner? kind i name = some k) :
    k ∈ t.chain i :=
  List.mem_of_find?_eq_some h

theorem mem_names_of_owner {kind : Namespace} (h : t.owner? kind i name = some k) :
    name ∈ (t.level k).names kind := by
  simpa using List.find?_some h

/-- An assignment writes to the owner of the variable, wherever it is made from. -/
theorem assign_eq (h : t.Linked) (i : Nat) (x : String) (v : Int) (line : Option Int) :
    t.assign i x v line = match t.owner? .locals i x with
      | none => .error ⟨.unboundVariable x, line⟩
      | some k => .ok (t.setLevel k { t.level k with locals := (t.level k).locals.set x v }) := by
  rw [assign, update]
  split
  · next missing =>
    have unbound : (t.scope i).value? x = none := by rw [value?_eq_owner, missing, Option.bind_none]
    rw [Scope.assign_eq_error_iff.2 ⟨unbound, rfl⟩, Except.map]
  · next k owned =>
    obtain ⟨before, after, here, passed⟩ := (List.find?_eq_some_iff_append.1 owned).2
    have unseen : ∀ m ∈ before.map t.level, x ∉ m.locals.names := by
      intro m mem
      obtain ⟨j, nearer, rfl⟩ := List.mem_map.1 mem
      show x ∉ (t.level j).names .locals
      simpa using passed j nearer
    have once : k ∉ after := by
      have nodup := h.nodup_chain i
      rw [here, List.nodup_append] at nodup
      exact (List.nodup_cons.1 nodup.2.1).1
    have assigned := Scope.assign?_append unseen (mem_names_of_owner owned) v (after.map t.level)
    rw [scope, here, List.map_append, List.map_cons, Scope.assign_eq_ok_iff.2 assigned, Except.map,
      setScope_eq_setLevel here once]

/-! Sequences of operations -/

/-- What can be asked of the scope with a number. -/
inductive Operation where
  | child (i : Nat)
  | declareVariable (i : Nat) (x : String) (v : Int) (line : Option Int)
  | declareFunction (i : Nat) (name : String) (f : Function) (line : Option Int)
  | assign (i : Nat) (x : String) (v : Int) (line : Option Int)
  | setExit (i : Nat) (value : Option Int)
  | print (i : Nat) (values : List Int)
  deriving DecidableEq, Repr

namespace Operation

/-- The scope that is asked. -/
def scope : Operation → Nat
  | child i | declareVariable i .. | declareFunction i .. | assign i .. | setExit i _
  | print i _ => i

end Operation

/-- The tree after an operation, or the fault that refuses it. -/
def perform (t : ScopeTree) : Operation → Except Fault ScopeTree
  | .child i => .ok (t.child i).2
  | .declareVariable i x v line => t.declareVariable i x v line
  | .declareFunction i name f line => t.declareFunction i name f line
  | .assign i x v line => t.assign i x v line
  | .setExit i value => t.setExit i value
  | .print _ values => .ok (t.print values)

/-- An operation that was performed, and the fault that refused it, if one did. -/
structure Call where
  operation : Operation
  refusal : Option Fault := none
  deriving DecidableEq

/-- An operation on a scope that exists: how the call went, and the tree after it. -/
def serve (t : ScopeTree) (op : Operation) : Option (Call × ScopeTree) :=
  if op.scope < t.entries.length then
    match t.perform op with
    | .ok u => some (⟨op, none⟩, u)
    | .error fault => some (⟨op, some fault⟩, t)
  else none

/-- Operations one after the other. -/
def serveAll : List Operation → ScopeTree → Option (List Call × ScopeTree)
  | [], t => some ([], t)
  | op :: rest, t => do
    let (call, u) ← t.serve op
    let (calls, w) ← serveAll rest u
    return (call :: calls, w)

/-- A call was made on a scope that exists, and it was refused or performed. -/
theorem serve_eq_some_iff {op : Operation} {call : Call} : t.serve op = some (call, u) ↔
    op.scope < t.entries.length ∧
      ((call = ⟨op, none⟩ ∧ t.perform op = .ok u) ∨
        ∃ fault, call = ⟨op, some fault⟩ ∧ t.perform op = .error fault ∧ t = u) := by
  unfold serve
  cases t.perform op with
  | ok w => simp [eq_comm]
  | error fault => simp [eq_comm, and_left_comm]

theorem linked_root (printed : String) : Linked { printed } := by
  constructor
  · rfl
  · intro i inside known
    simp at known
    omega

theorem Linked.child (h : t.Linked) (known : i < t.entries.length) : (t.child i).2.Linked := by
  have old : ∀ j < t.entries.length, (t.child i).2.chain j = t.chain j := by
    intro j hj
    simp [ScopeTree.chain, ScopeTree.child, List.getElem?_append_left hj]
  constructor
  · rw [old 0 (by omega), h.root]
  · intro j inside hj
    rcases Nat.lt_or_ge j t.entries.length with before | here
    · obtain ⟨p, older, parent⟩ := h.inner j inside before
      exact ⟨p, older, by rw [old j before, old p (by omega), parent]⟩
    · have new : j = t.entries.length := by
        simp only [ScopeTree.child, List.length_append, List.length_singleton] at hj
        omega
      refine ⟨i, by omega, ?_⟩
      rw [old i known, new]
      simp [ScopeTree.chain, ScopeTree.child]

/-- What an operation does that is not refused. -/
inductive Performed (t : ScopeTree) : Operation → ScopeTree → Prop where
  | child (i : Nat) : Performed t (.child i) (t.child i).2
  | declareVariable {i : Nat} {x : String} (fresh : x ∉ (t.level i).locals.names) (v : Int)
    (line : Option Int) : Performed t (.declareVariable i x v line)
      (t.setLevel i { t.level i with locals := (t.level i).locals.add x v })
  | declareFunction {i : Nat} {name : String} (fresh : name ∉ (t.level i).functions.names)
    (f : Function) (line : Option Int) : Performed t (.declareFunction i name f line)
      (t.setLevel i { t.level i with functions := (t.level i).functions.add name f })
  | assign {i k : Nat} {x : String} (owned : t.owner? .locals i x = some k) (v : Int)
    (line : Option Int) : Performed t (.assign i x v line)
      (t.setLevel k { t.level k with locals := (t.level k).locals.set x v })
  | setExit {i : Nat} (free : (t.level i).exit = none) (v : Int) :
    Performed t (.setExit i (some v)) (t.setLevel i { t.level i with exit := some v })
  | print (i : Nat) (values : List Int) : Performed t (.print i values) (t.print values)

theorem performed_of_ok (h : t.Linked) {op : Operation} (known : op.scope < t.entries.length)
    (ok : t.perform op = .ok u) : t.Performed op u := by
  cases op with
  | child i =>
    cases ok
    exact .child i
  | declareVariable i x v line =>
    rw [perform, declareVariable_eq h (show i < _ from known)] at ok
    split at ok
    · cases ok
    · next fresh =>
      cases ok
      exact .declareVariable fresh v line
  | declareFunction i name f line =>
    rw [perform, declareFunction_eq h (show i < _ from known)] at ok
    split at ok
    · cases ok
    · next fresh =>
      cases ok
      exact .declareFunction fresh f line
  | assign i x v line =>
    rw [perform, assign_eq h] at ok
    split at ok
    · cases ok
    · next k owned =>
      cases ok
      exact .assign owned v line
  | setExit i value =>
    rw [perform, setExit_eq h (show i < _ from known)] at ok
    split at ok
    · cases ok
    · cases ok
    · next v free =>
      cases ok
      exact .setExit free v
  | print i values =>
    cases ok
    exact .print i values

/-- Every operation on a scope that exists keeps the scopes linked. -/
theorem Linked.performed (h : t.Linked) {op : Operation} (known : op.scope < t.entries.length)
    (performed : t.Performed op u) : u.Linked := by
  cases performed with
  | child => exact h.child known
  | print => exact ⟨h.root, h.inner⟩
  | _ => exact h.setLevel _ _

/-- What every operation on linked scopes keeps holds after any sequence of operations. -/
theorem serveAll_keeps {P : ScopeTree → Prop}
    (keeps : ∀ t op u, t.Linked → op.scope < t.entries.length → t.Performed op u → P t → P u)
    {ops : List Operation} {calls : List Call} (h : t.Linked) (start : P t)
    (served : serveAll ops t = some (calls, u)) : u.Linked ∧ P u := by
  induction ops generalizing t calls with
  | nil =>
    cases served
    exact ⟨h, start⟩
  | cons op rest ih =>
    obtain ⟨⟨call, mid⟩, first, served⟩ := Option.bind_eq_some_iff.1 served
    obtain ⟨⟨calls, last⟩, others, same⟩ := Option.bind_eq_some_iff.1 served
    cases same
    obtain ⟨known, ⟨-, ok⟩ | ⟨fault, -, -, rfl⟩⟩ := serve_eq_some_iff.1 first
    · have performed := performed_of_ok h known ok
      exact ih (h.performed known performed) (keeps t op mid h known performed start) others
    · exact ih h start others

theorem Linked.serveAll {ops : List Operation} {calls : List Call} (h : t.Linked)
    (served : serveAll ops t = some (calls, u)) : u.Linked :=
  (serveAll_keeps (P := fun _ => True) (fun _ _ _ _ _ _ => id) h trivial served).1

end ScopeTree
end CallSite

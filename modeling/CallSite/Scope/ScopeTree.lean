import CallSite.Scope.Basic
import CallSite.Text.Printed

/-! Scopes that share their outer levels. Levels are numbered in the order of their creation, the root is
number zero, and each level knows the numbers of the levels around it, nearest first. What is printed through
any scope goes to the output that they all share. -/

namespace CallSite

structure ScopeTree where
  entries : List (Level × List Nat) := [({}, [])]
  printed : String := ""
  deriving DecidableEq, Repr

namespace ScopeTree

/-- The numbers of a scope's levels, its own first. -/
def chain (t : ScopeTree) (i : Nat) : List Nat :=
  match t.entries[i]? with
  | some (_, outer) => i :: outer
  | none => []

def level (t : ScopeTree) (i : Nat) : Level := ((t.entries[i]?).map Prod.fst).getD {}

/-- The levels of a scope, its own first. -/
def scope (t : ScopeTree) (i : Nat) : Scope := (t.chain i).map t.level

def setLevel (t : ScopeTree) (i : Nat) (l : Level) : ScopeTree :=
  { t with entries := t.entries.modify i fun e => (l, e.2) }

/-- The tree with other contents for the levels of a scope. -/
def setScope (t : ScopeTree) (i : Nat) (s : Scope) : ScopeTree :=
  ((t.chain i).zip s).foldl (fun t p => t.setLevel p.1 p.2) t

/-- The tree with a further level inside a scope, and the number of that level. -/
def child (t : ScopeTree) (i : Nat) : Nat × ScopeTree :=
  (t.entries.length, { t with entries := t.entries ++ [({}, t.chain i)] })

/-- A change of one scope, which the scopes around it share. -/
def update (t : ScopeTree) (i : Nat) (change : Scope → Except Fault Scope) : Except Fault ScopeTree :=
  (change (t.scope i)).map (t.setScope i)

def declareVariable (t : ScopeTree) (i : Nat) (x : String) (v : Int) (line : Option Int) :
    Except Fault ScopeTree :=
  t.update i fun s => s.declareVariable x v line

def declareFunction (t : ScopeTree) (i : Nat) (name : String) (f : Function) (line : Option Int) :
    Except Fault ScopeTree :=
  t.update i fun s => s.declareFunction name f line

def assign (t : ScopeTree) (i : Nat) (x : String) (v : Int) (line : Option Int) : Except Fault ScopeTree :=
  t.update i fun s => s.assign x v line

def setExit (t : ScopeTree) (i : Nat) (value : Option Int) : Except Fault ScopeTree :=
  t.update i fun s => s.setExit value

/-- The tree after a line was printed through any of its scopes. -/
def print (t : ScopeTree) (values : List Int) : ScopeTree :=
  { t with printed := t.printed ++ Text.printedLine values }

end ScopeTree
end CallSite

import CallSite.Tree.Node

/-! What a tree contains. Every position of a tree is a part of it, stray values included, and a tree contains
itself, its parts, and whatever they contain. -/

namespace CallSite.Node

/-- What stands at a tree's own positions, from left to right. -/
def parts : Node → List Node
  | literal _ | reference .. | nothing | integer _ | text _ => []
  | binary _ l r => [l, r]
  | call _ _ args => args
  | block statements => statements
  | declare _ _ init => [init]
  | assign _ _ value => [value]
  | branch condition yes no => [condition, yes, no]
  | loop condition body => [condition, body]
  | exit value => [value]
  | function _ _ _ body => [body]
  | program body => [body]

theorem sizeOf_lt_of_mem_parts {t u : Node} (h : u ∈ t.parts) : sizeOf u < sizeOf t := by
  cases t with
  | literal | reference | nothing | integer | text => exact absurd h List.not_mem_nil
  | call line name args =>
    have := List.sizeOf_lt_of_mem (show u ∈ args from h)
    simp only [call.sizeOf_spec]
    omega
  | block statements =>
    have := List.sizeOf_lt_of_mem (show u ∈ statements from h)
    simp only [block.sizeOf_spec]
    omega
  | _ =>
    simp only [parts, List.mem_cons, List.not_mem_nil, or_false] at h
    grind

inductive Contains : Node → Node → Prop where
  | self (t : Node) : Contains t t
  | inPart {t p u : Node} (part : p ∈ t.parts) (inside : Contains p u) : Contains t u

namespace Contains

theorem trans {t u v : Node} (h : Contains t u) (k : Contains u v) : Contains t v := by
  induction h with
  | self => exact k
  | inPart part _ ih => exact .inPart part (ih k)

theorem of_mem_parts {t p : Node} (h : p ∈ t.parts) : Contains t p := .inPart h (.self p)

end Contains

/-- A tree contains itself and what its parts contain, and nothing else. -/
theorem contains_iff {t u : Node} : Contains t u ↔ t = u ∨ ∃ p ∈ t.parts, Contains p u :=
  ⟨fun h => by
    cases h with
    | self => exact .inl rfl
    | inPart part inside => exact .inr ⟨_, part, inside⟩,
  fun h => h.elim (fun e => e ▸ .self t) fun ⟨_, part, inside⟩ => .inPart part inside⟩

theorem sizeOf_le_of_contains {t u : Node} (h : Contains t u) : sizeOf u ≤ sizeOf t := by
  induction h with
  | self => exact Nat.le_refl _
  | inPart part _ ih => exact Nat.le_trans ih (Nat.le_of_lt (sizeOf_lt_of_mem_parts part))

end CallSite.Node

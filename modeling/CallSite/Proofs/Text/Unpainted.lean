import CallSite.Text.Paint
import Mathlib.Data.List.Basic

/-! Painted text without its paint. Whatever a terminal would read as an instruction is left out of
a text. Nothing else in a painted text opens with the character that instructions open with, so the
text that was painted remains. -/

namespace CallSite.Text

/-- The character that opens an instruction. -/
def esc : Char := '\x1b'

/-- What follows the instruction at the front of a text, if one stands there. It has digits between
its bracket and its `m`. -/
def afterInstruction? : List Char → Option (List Char)
  | '\x1b' :: '[' :: rest =>
    match rest.takeWhile Char.isDigit, rest.dropWhile Char.isDigit with
    | _ :: _, 'm' :: after => some after
    | _, _ => none
  | _ => none

theorem length_afterInstruction? {c : Char} {cs after : List Char}
    (h : afterInstruction? (c :: cs) = some after) : after.length ≤ cs.length := by
  unfold afterInstruction? at h
  split at h
  · next rest same =>
    obtain ⟨-, rfl⟩ := List.cons.inj same
    split at h
    · next ends =>
      have shorter := (List.dropWhile_suffix (l := rest) Char.isDigit).length_le
      rw [ends] at shorter
      cases h
      simp only [List.length_cons] at shorter ⊢
      omega
    · cases h
  · cases h

/-- The characters of a text without the instructions in it. -/
def dropInstructions : List Char → List Char
  | [] => []
  | c :: cs =>
    match h : afterInstruction? (c :: cs) with
    | some after =>
      have := length_afterInstruction? h
      dropInstructions after
    | none => c :: dropInstructions cs
termination_by cs => cs.length

/-- A text without the instructions in it. -/
def unpainted (s : String) : String := String.ofList (dropInstructions s.toList)

theorem dropInstructions_of_some {cs after : List Char} (h : afterInstruction? cs = some after) :
    dropInstructions cs = dropInstructions after := by
  cases cs with
  | nil => cases h
  | cons c cs =>
    rw [dropInstructions]
    split
    · next same =>
      cases same.symm.trans h
      rfl
    · next none => cases none.symm.trans h

theorem dropInstructions_cons {c : Char} (h : c ≠ esc) (cs : List Char) :
    dropInstructions (c :: cs) = c :: dropInstructions cs := by
  have none : afterInstruction? (c :: cs) = none := by
    unfold afterInstruction?
    split
    · next same => exact absurd (List.cons.inj same).1 h
    · rfl
  rw [dropInstructions]
  split
  · next some => cases none.symm.trans some
  · rfl

/-- A text is another one with paint: when the instructions in it are left out, the other one is left,
whatever follows. -/
def Paints (painted plain : String) : Prop :=
  ∀ rest, dropInstructions (painted.toList ++ rest) = plain.toList ++ dropInstructions rest

namespace Paints
variable {painted painted' plain plain' s : String}

theorem unpainted_eq (h : Paints painted plain) : unpainted painted = plain := by
  have whole := h []
  rw [dropInstructions, List.append_nil, List.append_nil] at whole
  rw [unpainted, whole, String.ofList_toList]

theorem append (h : Paints painted plain) (h' : Paints painted' plain') :
    Paints (painted ++ painted') (plain ++ plain') := by
  intro rest
  rw [String.toList_append, String.toList_append, List.append_assoc, h, h', List.append_assoc]

/-- A text that opens no instruction stays as it is. -/
theorem of_clean (clean : esc ∉ s.toList) : Paints s s := by
  intro rest
  generalize s.toList = cs at clean ⊢
  induction cs with
  | nil => rfl
  | cons c cs ih =>
    rw [List.mem_cons, not_or] at clean
    rw [List.cons_append, dropInstructions_cons (Ne.symm clean.1), ih clean.2, List.cons_append]

theorem instruction (code : Nat) : Paints (instruction code) "" := by
  intro rest
  have digits : ∀ c ∈ (toString code).toList, c.isDigit = true := fun c mem => by
    rw [Nat.toString_eq_repr, Nat.toList_repr] at mem
    exact Nat.isDigit_of_mem_toDigits (by decide) (by decide) mem
  have some : afterInstruction? ((Text.instruction code).toList ++ rest) = some rest := by
    have chars : (Text.instruction code).toList ++ rest =
        '\x1b' :: '[' :: ((toString code).toList ++ 'm' :: rest) := by
      simp [Text.instruction]
    obtain ⟨d, ds, number⟩ := List.exists_cons_of_ne_nil
      (show (toString code).toList ≠ [] by simp [Nat.toString_eq_repr, Nat.toList_repr])
    rw [chars, afterInstruction?, List.takeWhile_append_of_pos digits,
      List.dropWhile_append_of_pos digits, number]
    rfl
  rw [dropInstructions_of_some some]
  rfl

theorem bold (colour : Option Colour) (clean : esc ∉ s.toList) : Paints (bold colour s) s := by
  have wrapped {tint : String} (unseen : Paints tint "") :
      Paints (Text.instruction 1 ++ tint ++ s ++ Text.instruction 0) s := by
    have whole := (((instruction 1).append unseen).append (of_clean clean)).append (instruction 0)
    rwa [String.empty_append, String.empty_append, String.append_empty] at whole
  cases colour with
  | none => exact wrapped (of_clean (by simp))
  | some c => exact wrapped (instruction c.code)

/-- Bold text is painted where colours are shown, and bare elsewhere. -/
theorem palette (palette : Palette) (colour : Option Colour) (clean : esc ∉ s.toList) :
    Paints (palette.bold colour s) s := by
  cases palette with
  | plain => exact of_clean clean
  | terminal => exact bold colour clean

theorem join {α : Type} {shown bare : α → String} {parts : List α}
    (each : ∀ p ∈ parts, Paints (shown p) (bare p)) :
    Paints (String.join (parts.map shown)) (String.join (parts.map bare)) := by
  induction parts with
  | nil => exact of_clean (by simp)
  | cons p parts ih =>
    obtain ⟨here, there⟩ := List.forall_mem_cons.1 each
    simpa using here.append (ih there)

end Paints
end CallSite.Text

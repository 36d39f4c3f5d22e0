import CallSite.Text.Quoted
import Mathlib

/-! Written values that can be read back. A written value is followed by other text, so it is not
enough that different values are written differently: where the written value ends has to be known
too. A numeral ends before the first character that is no part of numerals, a quoted text at the
first quote that is not escaped, and a group at the bracket where another member could begin. -/

namespace CallSite.Text
variable {α : Type} {r u : List Char}

/-- A way of writing tells two values apart in front of any text: what was written first and what
follows it are both known from the whole. -/
def Tells (write : α → List Char) (a b : α) : Prop :=
  ∀ r u, write a ++ r = write b ++ u → a = b ∧ r = u

/-- Characters of one kind end before the first one of another kind. -/
theorem append_cons_inj {p : Char → Prop} {xs ys : List Char} {x y : Char}
    (hxs : ∀ c ∈ xs, p c) (hys : ∀ c ∈ ys, p c) (hx : ¬p x) (hy : ¬p y)
    (h : xs ++ x :: r = ys ++ y :: u) : xs = ys ∧ x = y ∧ r = u := by
  induction xs generalizing ys with
  | nil =>
    cases ys with
    | nil => exact ⟨rfl, List.cons.inj h⟩
    | cons c ys =>
      obtain ⟨rfl, -⟩ := List.cons.inj h
      exact absurd (hys x (by simp)) hx
  | cons c xs ih =>
    cases ys with
    | nil =>
      obtain ⟨rfl, -⟩ := List.cons.inj h
      exact absurd (hxs c (by simp)) hy
    | cons d ys =>
      obtain ⟨rfl, tail⟩ := List.cons.inj h
      obtain ⟨rfl, rest⟩ := ih (List.forall_mem_cons.1 hxs).2 (List.forall_mem_cons.1 hys).2 tail
      exact ⟨rfl, rest⟩

/-- A sequence of written values ends at a character with which no written value starts. -/
theorem Tells.flatMap {write : α → List Char} {stop : Char} {as bs : List α}
    (told : ∀ a ∈ as, ∀ b ∈ bs, Tells write a b) (starts : ∀ a r u, write a ++ r ≠ stop :: u)
    (h : as.flatMap write ++ stop :: r = bs.flatMap write ++ stop :: u) : as = bs ∧ r = u := by
  induction as generalizing bs with
  | nil =>
    cases bs with
    | nil => exact ⟨rfl, (List.cons.inj h).2⟩
    | cons b bs =>
      rw [List.flatMap_cons, List.append_assoc] at h
      exact absurd h.symm (starts b _ _)
  | cons a as ih =>
    cases bs with
    | nil =>
      rw [List.flatMap_cons, List.append_assoc] at h
      exact absurd h (starts a _ _)
    | cons b bs =>
      rw [List.flatMap_cons, List.flatMap_cons, List.append_assoc, List.append_assoc] at h
      obtain ⟨rfl, tail⟩ := told a (by simp) b (by simp) _ _ h
      have told_tail : ∀ a ∈ as, ∀ b ∈ bs, Tells write a b := fun a ha b hb =>
        told a (List.mem_cons_of_mem _ ha) b (List.mem_cons_of_mem _ hb)
      obtain ⟨rfl, rest⟩ := ih told_tail tail
      exact ⟨rfl, rest⟩

/-- Texts in a row, each behind a separator. -/
def behind (sep : String) (parts : List String) : List Char :=
  parts.flatMap fun p => sep.toList ++ p.toList

@[simp] theorem behind_nil (sep : String) : behind sep [] = [] := rfl

@[simp] theorem behind_cons (sep part : String) (parts : List String) :
    behind sep (part :: parts) = sep.toList ++ (part.toList ++ behind sep parts) := by
  simp [behind]

theorem toList_intercalate_cons (sep part : String) (parts : List String) :
    (sep.intercalate (part :: parts)).toList = part.toList ++ behind sep parts := by
  rw [String.toList_intercalate]
  induction parts generalizing part with
  | nil => simp
  | cons p parts ih => simpa [List.intercalate_cons_cons] using ih p

/-! Numerals. -/

/-- The characters that numerals are made of. -/
def isNumeral (c : Char) : Bool := c.isDigit || c == '-'

theorem isNumeral_of_mem {v : Int} {c : Char} (h : c ∈ (toString v).toList) :
    isNumeral c = true := by
  have digits : ∀ n : Nat, c ∈ n.repr.toList → isNumeral c = true := by
    intro n mem
    rw [Nat.repr_eq_ofList_toDigits, String.toList_ofList] at mem
    simp [isNumeral, Nat.isDigit_of_mem_toDigits (by decide) (by decide) mem]
  rw [show toString v = v.repr from rfl, Int.repr_eq_if] at h
  split at h
  · exact digits _ h
  · rw [String.toList_append, List.mem_append] at h
    rcases h with sign | mem
    · obtain rfl : c = '-' := by simpa using sign
      rfl
    · exact digits _ mem

theorem numeral_append_inj {v w : Int} {x y : Char} (hx : isNumeral x = false)
    (hy : isNumeral y = false)
    (h : (toString v).toList ++ x :: r = (toString w).toList ++ y :: u) :
    v = w ∧ x = y ∧ r = u := by
  obtain ⟨same, rest⟩ := append_cons_inj (p := (isNumeral · = true)) (fun _ => isNumeral_of_mem)
    (fun _ => isNumeral_of_mem) (by simp [hx]) (by simp [hy]) h
  exact ⟨Int.repr_inj.1 (String.toList_inj.1 same), rest⟩

/-! Quoted texts. -/

/-- The value of a hexadecimal digit. -/
def hexValue (c : Char) : Nat := if c.isDigit then c.toNat - 48 else c.toNat - 87

/-- The number that hexadecimal digits stand for, most significant first. -/
def readHex (cs : List Char) : Nat := cs.foldl (fun n c => 16 * n + hexValue c) 0

theorem hexValue_digitChar : ∀ n < 16, hexValue (Nat.digitChar n) = n := by decide

theorem readHex_hexDigits {width n : Nat} (h : n < 16 ^ width) :
    readHex (hexDigits width n) = n := by
  induction width generalizing n with
  | zero =>
    obtain rfl : n = 0 := by omega
    rfl
  | succ width ih =>
    have high : n / 16 < 16 ^ width := by
      rw [pow_succ] at h
      omega
    have digits := ih high
    unfold readHex at digits ⊢
    rw [hexDigits, List.foldl_append, digits, List.foldl_cons, List.foldl_nil,
      hexValue_digitChar _ (Nat.mod_lt n (by decide))]
    omega

/-- The character whose code is written in the given number of digits, and what follows it. -/
def readCode (width : Nat) (cs : List Char) : Char × List Char :=
  (Char.ofNat (readHex (cs.take width)), cs.drop width)

theorem readCode_hexDigits {width : Nat} {c : Char} (h : c.toNat < 16 ^ width) (r : List Char) :
    readCode width (hexDigits width c.toNat ++ r) = (c, r) := by
  have length := length_hexDigits width c.toNat
  rw [readCode, List.take_left' length, List.drop_left' length, readHex_hexDigits h,
    Char.ofNat_toNat]

/-- The first character of an escaped text, and what follows it. -/
def unescape : List Char → Option (Char × List Char)
  | '\\' :: 'n' :: cs => some ('\n', cs)
  | '\\' :: 'r' :: cs => some ('\r', cs)
  | '\\' :: 't' :: cs => some ('\t', cs)
  | '\\' :: 'x' :: cs => some (readCode 2 cs)
  | '\\' :: 'u' :: cs => some (readCode 4 cs)
  | '\\' :: 'U' :: cs => some (readCode 8 cs)
  | '\\' :: c :: cs => some (c, cs)
  | c :: cs => some (c, cs)
  | [] => none

/-- Whether texts are put between the character. -/
def IsMark (c : Char) : Prop := c = apostrophe ∨ c = doubleQuote

instance : DecidablePred IsMark := fun c =>
  inferInstanceAs (Decidable (c = apostrophe ∨ c = doubleQuote))

theorem isMark_markFor (cs : List Char) : IsMark (markFor cs) := by
  unfold markFor
  split
  · exact .inr rfl
  · exact .inl rfl

theorem unescape_codeEscape (c : Char) (r : List Char) :
    unescape (codeEscape c ++ r) = some (c, r) := by
  unfold codeEscape
  split
  · next small => exact congrArg some (readCode_hexDigits small r)
  · split
    · next small => exact congrArg some (readCode_hexDigits small r)
    · have small : c.toNat < 16 ^ 8 := by
        have valid := c.valid
        simp only [UInt32.isValidChar, Nat.isValidChar] at valid
        simp only [Char.toNat]
        omega
      exact congrArg some (readCode_hexDigits small r)

/-- Reading undoes escaping. -/
theorem unescape_escapeChar {mark : Char} (h : IsMark mark) (c : Char) (r : List Char) :
    unescape (escapeChar mark c ++ r) = some (c, r) := by
  unfold escapeChar
  split
  · next marked =>
    rcases marked with rfl | rfl
    · rcases h with rfl | rfl <;> rfl
    · rfl
  · next unmarked =>
    split
    · next e => rw [e]; rfl
    split
    · next e => rw [e]; rfl
    split
    · next e => rw [e]; rfl
    split
    · have plain : c ≠ '\\' := fun e => unmarked (.inr e)
      simp [unescape, plain]
    · exact unescape_codeEscape c r

theorem tells_escapeChar {mark : Char} (h : IsMark mark) (c d : Char) :
    Tells (escapeChar mark) c d := by
  intro r u same
  have read := unescape_escapeChar h c r
  rw [same, unescape_escapeChar h d u] at read
  simpa [eq_comm] using read

/-- The quote in use is escaped, so an escaped character never starts with it. -/
theorem escapeChar_append_ne {mark : Char} (h : IsMark mark) (c : Char) (r u : List Char) :
    escapeChar mark c ++ r ≠ mark :: u := by
  have escaped : backslash ≠ mark := by
    rcases h with rfl | rfl <;> decide
  unfold escapeChar
  split
  · simp [escaped]
  · next unmarked =>
    have other : c ≠ mark := fun e => unmarked (.inl e)
    unfold codeEscape
    repeat' split
    all_goals simp [escaped, other]

theorem tells_quoteChars (cs ds : List Char) : Tells quoteChars cs ds := by
  intro r u same
  simp only [quoteChars, List.cons_append, List.append_assoc, List.nil_append] at same
  obtain ⟨mark, same⟩ := List.cons.inj same
  rw [← mark] at same
  have known := isMark_markFor cs
  exact Tells.flatMap (fun c _ d _ => tells_escapeChar known c d) (escapeChar_append_ne known) same

theorem toList_quote (s : String) : (quote s).toList = quoteChars s.toList := String.toList_ofList

theorem tells_quote (s t : String) : Tells (fun x => (quote x).toList) s t := by
  intro r u same
  simp only [toList_quote] at same
  obtain ⟨chars, rest⟩ := tells_quoteChars _ _ r u same
  exact ⟨String.toList_inj.1 chars, rest⟩

/-! Groups of quoted texts. -/

/-- The text of a group behind its first member, up to the closing bracket. -/
def groupRest : List String → List Char
  | [] => [',']
  | parts => behind ", " parts

theorem toList_group_cons (part : String) (parts : List String) :
    (group (part :: parts)).toList = '(' :: (part.toList ++ (groupRest parts ++ [')'])) := by
  cases parts with
  | nil => simp [group, groupRest]
  | cons p parts =>
    simp only [group, bracketed, String.toList_append, toList_intercalate_cons, groupRest,
      List.append_assoc]
    rfl

theorem quoteChars_ne (cs : List Char) {c : Char} (h : ¬IsMark c) (u : List Char) :
    quoteChars cs ++ r ≠ c :: u := by
  intro same
  rw [quoteChars, List.cons_append, List.cons_append] at same
  exact h ((List.cons.inj same).1 ▸ isMark_markFor cs)

theorem tells_groupRest (xs ys : List String) :
    Tells (fun zs => groupRest (zs.map quote) ++ [')']) xs ys := by
  intro r u same
  cases xs with
  | nil =>
    cases ys with
    | nil => simpa [groupRest] using same
    | cons y ys => simp [groupRest] at same
  | cons x xs =>
    cases ys with
    | nil => simp [groupRest] at same
    | cons y ys =>
      have told : ∀ s t : String, Tells (fun q => ", ".toList ++ (quote q).toList) s t := by
        intro s t r u same
        rw [List.append_assoc, List.append_assoc] at same
        exact tells_quote s t r u (List.append_cancel_left same)
      have members : (x :: xs).flatMap (fun q => ", ".toList ++ (quote q).toList) ++ ')' :: r =
          (y :: ys).flatMap (fun q => ", ".toList ++ (quote q).toList) ++ ')' :: u := by
        simpa [groupRest, behind, List.flatMap_map] using same
      exact Tells.flatMap (fun s _ t _ => told s t) (by simp) members

/-- A group without members and one with members differ behind the bracket. -/
theorem group_nil_append_ne (s : String) (parts : List String) (r u : List Char) :
    (group []).toList ++ r ≠ (group (quote s :: parts)).toList ++ u := by
  have bracket : ¬IsMark ')' := by decide
  have empty : (group []).toList = ['(', ')'] := by decide
  intro same
  simp only [empty, toList_group_cons, toList_quote, List.cons_append, List.append_assoc,
    List.nil_append] at same
  exact quoteChars_ne _ bracket _ (List.cons.inj same).2.symm

theorem tells_group (xs ys : List String) :
    Tells (fun zs => (group (zs.map quote)).toList) xs ys := by
  intro r u same
  cases xs with
  | nil =>
    cases ys with
    | nil => exact ⟨rfl, List.append_cancel_left same⟩
    | cons y ys => exact absurd same (group_nil_append_ne y _ r u)
  | cons x xs =>
    cases ys with
    | nil => exact absurd same.symm (group_nil_append_ne x _ u r)
    | cons y ys =>
      simp only [List.map_cons, toList_group_cons, List.cons_append, List.append_assoc] at same
      obtain ⟨rfl, tail⟩ := tells_quote x y _ _ (List.cons.inj same).2
      obtain ⟨rfl, rest⟩ := tells_groupRest xs ys r u (by simpa using tail)
      exact ⟨rfl, rest⟩

end CallSite.Text

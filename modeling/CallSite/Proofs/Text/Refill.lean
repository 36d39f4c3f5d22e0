import CallSite.Text.Message
import Mathlib.Data.List.Basic

/-! Messages that are made again from other arguments. Which argument a hole takes is said by the
template alone, so a template that fits its arguments fits as many others. If every hole shows its
argument as a whole, the same pieces are read again, and to show the arguments of a message in some
way is to make the message anew from the arguments that are shown so. -/

namespace CallSite.Text

/-- How a template without a fault is read. Arguments matter to its holes only. -/
inductive Scans (args : List String) :
    Numbering → Position → List Char → List (Segment args.length) → Prop
  | done {mode} : Scans args mode .outside [] []
  | char {mode c cs rest pieces} (written : c ∈ cs) (further : rest ⊆ cs)
      (step : ∀ args, scanFrom args mode .outside cs = do
        return .char c :: (← scanFrom args mode .outside rest))
      (behind : Scans args mode .outside rest pieces) :
      Scans args mode .outside cs (.char c :: pieces)
  | skip {mode pos pos' c rest pieces}
      (step : ∀ args, scanFrom args mode pos (c :: rest) = scanFrom args mode pos' rest)
      (behind : Scans args mode pos' rest pieces) : Scans args mode pos (c :: rest) pieces
  | hole {mode next seen rest piece pieces}
      (made : holeOf args seen.reverse mode = .ok (piece, next))
      (behind : Scans args next .outside rest pieces) :
      Scans args mode (.inside seen) ('\x7d' :: rest) (piece :: pieces)

namespace Segment
variable {n m : Nat}

/-- The numbers by which a piece picks characters from its argument. -/
def picks : Segment n → List Nat
  | char _ => []
  | hole _ picks => picks

@[simp] theorem picks_char (c : Char) : (char c : Segment n).picks = [] := rfl

@[simp] theorem picks_hole (i : Fin n) (picks : List Nat) : (hole i picks).picks = picks := rfl

/-- The piece among other arguments, if there are as many of them. -/
def among (same : n = m) : Segment n → Segment m
  | char c => char c
  | hole i picks => hole (i.cast same) picks

/-- The text of a piece whose argument is shown in the given way. -/
def text (args : List String) (shown : String → String) : Segment args.length → String
  | char c => c.toString
  | hole i picks => pick (shown (args.get i)) picks

end Segment

/-- The pieces of a text that stands in a template as it is. -/
def spell {n : Nat} (s : String) : List (Segment n) := s.toList.map .char

variable {args others : List String} {template : String} {mode next : Numbering} {pos : Position}
  {c : Char} {cs : List Char} {pieces : List (Segment args.length)}

theorem bind_eq_ok_iff {ε α β : Type} {x : Except ε α} {f : α → Except ε β} {b : β} :
    (x >>= f) = .ok b ↔ ∃ a, x = .ok a ∧ f a = .ok b := by
  cases x <;> simp [bind, Except.bind]

theorem scans_of_scanFrom (scanned : scanFrom args mode pos cs = .ok pieces) :
    Scans args mode pos cs pieces := by
  induction mode, pos, cs using scanFrom.induct generalizing pieces with
  | case1 mode =>
    cases scanned
    exact .done
  | case4 mode rest ih | case5 mode rest ih =>
    -- a doubled brace
    rw [scanFrom] at scanned
    obtain ⟨behind, read, made⟩ := bind_eq_ok_iff.1 scanned
    cases made
    exact .char (by simp) (by simp) (fun _ => by rw [scanFrom]) (ih read)
  | case7 mode rest single =>
    rw [scanFrom] at scanned
    · cases scanned
    · exact single
  | case8 mode rest single more ih =>
    have step : ∀ args, scanFrom args mode .outside ('\x7b' :: rest) =
        scanFrom args mode (.inside []) rest := fun _ => by rw [scanFrom] <;> assumption
    exact .skip step (ih (step args ▸ scanned))
  | case9 mode c rest _ _ _ _ _ ih =>
    have step : ∀ args, scanFrom args mode .outside (c :: rest) = do
        return .char c :: (← scanFrom args mode .outside rest) :=
      fun _ => by rw [scanFrom] <;> assumption
    obtain ⟨behind, read, made⟩ := bind_eq_ok_iff.1 (step args ▸ scanned)
    cases made
    exact .char (by simp) (by simp) step (ih read)
  | case10 mode seen rest ih =>
    rw [scanFrom] at scanned
    obtain ⟨⟨piece, next⟩, hole, scanned⟩ := bind_eq_ok_iff.1 scanned
    obtain ⟨behind, read, made⟩ := bind_eq_ok_iff.1 scanned
    cases made
    exact .hole hole (ih next read)
  | case12 mode seen rest ih | case14 mode seen rest ih =>
    exact .skip (fun _ => by rw [scanFrom]) (ih scanned)
  | case13 mode seen c rest _ _ _ ih =>
    have step : ∀ args, scanFrom args mode (.inside seen) (c :: rest) =
        scanFrom args mode (.inside (c :: seen)) rest := fun _ => by rw [scanFrom] <;> assumption
    exact .skip step (ih (step args ▸ scanned))
  | case15 mode seen c rest _ ih =>
    have step : ∀ args, scanFrom args mode (.inBrackets seen) (c :: rest) =
        scanFrom args mode (.inBrackets (c :: seen)) rest := fun _ => by
      rw [scanFrom]
      assumption
    exact .skip step (ih (step args ▸ scanned))
  | case2 | case3 | case6 | case11 => cases scanned

/-- Only a hole without selections picks nothing. -/
theorem eq_nil_of_picksOf {s : String} {selected : List Selection}
    (h : picksOf s selected = .ok []) : selected = [] := by
  rcases selected with _ | ⟨content | name | _, rest⟩
  · rfl
  · rw [picksOf] at h
    split at h
    · cases h
    · cases h
    · split at h
      · cases h
      · obtain ⟨picks, -, same⟩ := bind_eq_ok_iff.1 h
        cases same
  · cases name <;> cases h
  · cases h

/-- A hole is made of an argument that is there and of what is picked from it. -/
theorem holeOf_eq_ok_iff {content : List Char} {piece : Segment args.length} :
    holeOf args content mode = .ok (piece, next) ↔
      ∃ index, choose (content.takeWhile fun c => !startsSelection c) mode = .ok (index, next) ∧
        ∃ known : index < args.length, ∃ picks,
          picksOf args[index]
              (selections .between (content.dropWhile fun c => !startsSelection c)) = .ok picks ∧
            piece = .hole ⟨index, known⟩ picks := by
  constructor
  · intro made
    obtain ⟨⟨index, _⟩, chosen, made⟩ := bind_eq_ok_iff.1 made
    obtain ⟨_, found, made⟩ := bind_eq_ok_iff.1 made
    cases made
    unfold holeAt at found
    split at found
    · next known =>
      obtain ⟨picks, picked, made⟩ := bind_eq_ok_iff.1 found
      cases made
      exact ⟨index, chosen, known, picks, picked, rfl⟩
    · cases found
  · rintro ⟨index, chosen, known, picks, picked, rfl⟩
    refine bind_eq_ok_iff.2 ⟨_, chosen, bind_eq_ok_iff.2 ⟨.hole ⟨index, known⟩ picks, ?_, rfl⟩⟩
    rw [holeAt, dif_pos known]
    exact bind_eq_ok_iff.2 ⟨picks, picked, rfl⟩

theorem holeOf_among (same : args.length = others.length) {content : List Char}
    {piece : Segment args.length} (made : holeOf args content mode = .ok (piece, next))
    (whole : piece.picks = []) : holeOf others content mode = .ok (piece.among same, next) := by
  obtain ⟨index, chosen, known, picks, picked, rfl⟩ := holeOf_eq_ok_iff.1 made
  obtain rfl : picks = [] := whole
  have bare := eq_nil_of_picksOf picked
  refine holeOf_eq_ok_iff.2 ⟨index, chosen, same ▸ known, [], ?_, rfl⟩
  rw [bare]
  rfl

/-- The same pieces are read with other arguments. -/
theorem Scans.among (scans : Scans args mode pos cs pieces) (same : args.length = others.length)
    (whole : ∀ p ∈ pieces, p.picks = []) :
    scanFrom others mode pos cs = .ok (pieces.map (·.among same)) := by
  induction scans with
  | done => rfl
  | char written further step behind ih =>
    rw [step others]
    exact bind_eq_ok_iff.2 ⟨_, ih (List.forall_mem_cons.1 whole).2, rfl⟩
  | skip step behind ih =>
    rw [step others]
    exact ih whole
  | hole made behind ih =>
    obtain ⟨here, there⟩ := List.forall_mem_cons.1 whole
    rw [scanFrom]
    exact bind_eq_ok_iff.2
      ⟨_, holeOf_among same made here, bind_eq_ok_iff.2 ⟨_, ih there, rfl⟩⟩

/-- What a template shows as it is was written there. -/
theorem Scans.mem_of_char_mem (scans : Scans args mode pos cs pieces) (mem : .char c ∈ pieces) :
    c ∈ cs := by
  induction scans with
  | done => cases mem
  | char written further step behind ih =>
    rcases List.mem_cons.1 mem with same | mem
    · cases same
      exact written
    · exact further (ih mem)
  | skip step behind ih => exact List.mem_cons_of_mem _ (ih mem)
  | hole made behind ih =>
    rcases List.mem_cons.1 mem with rfl | mem
    · obtain ⟨_, -, _, _, -, same⟩ := holeOf_eq_ok_iff.1 made
      cases same
    · exact List.mem_cons_of_mem _ (ih mem)

@[simp] theorem join_spell (shown : String → String) (s : String) :
    String.join ((spell s).map (Segment.text args shown)) = s := by
  rw [← String.toList_inj, String.toList_join]
  simp [spell, Segment.text, List.flatMap_map]

theorem forall_mem_spell {n : Nat} {s : String} {p : Segment n → Prop} :
    (∀ piece ∈ spell s, p piece) ↔ ∀ c ∈ s.toList, p (.char c) := List.forall_mem_map

namespace Message
variable {m : Message}

/-- Every hole of the template is empty or holds an argument's number and nothing else, so it shows
its argument as a whole. -/
def Whole (m : Message) : Prop := ∀ p ∈ m.pieces, p.picks = []

instance (m : Message) : Decidable m.Whole := inferInstanceAs (Decidable (∀ p ∈ m.pieces, _))

theorem fill_eq (m : Message) (shown : String → String) :
    m.fill shown = String.join (m.pieces.map (Segment.text m.args shown)) := by
  unfold fill
  congr 1
  exact List.map_congr_left fun p _ => by cases p <;> rfl

theorem make_of_scan (scanned : scan args template = .ok pieces) :
    make template args = .ok ⟨template, args, pieces, scanned⟩ := by
  unfold make
  split
  · next h =>
    cases h.symm.trans scanned
    rfl
  · next h => cases h.symm.trans scanned

theorem ofFitting_of_scan (scanned : scan args template = .ok pieces) {fits} :
    ofFitting template args fits = ⟨template, args, pieces, scanned⟩ := by
  unfold ofFitting
  split
  · next h =>
    cases h.symm.trans scanned
    rfl
  · next h => cases h.symm.trans scanned

/-- A message whose arguments are shown in some way is the message of the arguments shown so: its
template fits them as well, whatever they look like. -/
theorem exists_make_map (whole : m.Whole) (shown : String → String) :
    ∃ m', make m.template (m.args.map shown) = .ok m' ∧ m'.text = m.fill shown := by
  have same : m.args.length = (m.args.map shown).length := (List.length_map _).symm
  have scanned := (scans_of_scanFrom m.scanned).among same whole
  refine ⟨_, make_of_scan scanned, ?_⟩
  rw [text, fill_eq, fill_eq]
  simp only [List.map_map]
  congr 1
  refine List.map_congr_left fun p _ => ?_
  cases p <;> simp [Segment.among, Segment.text]

theorem mem_template (mem : .char c ∈ m.pieces) : c ∈ m.template.toList :=
  (scans_of_scanFrom m.scanned).mem_of_char_mem mem

end Message
end CallSite.Text

import CallSite.Eval.Program
import Mathlib.Data.Rat.Floor
import Mathlib.Tactic.Linarith

/-! Quotients and remainders of integers. A quotient is rounded toward zero and the remainder has the
sign of the dividend. The relation between them is kept when the dividend or the divisor changes its
sign, so everything is traced back to a dividend that is not negative and a positive divisor. -/

namespace CallSite

/-- The quotient and the remainder of a division that rounds toward zero. -/
structure TruncDivides (a b q r : Int) : Prop where
  sum : a = b * q + r
  small : |r| < |b|
  sign : r = 0 ∨ r.sign = a.sign

/-- The nearest integer between zero and the number. -/
def roundTowardZero (x : ℚ) : Int := if 0 ≤ x then ⌊x⌋ else ⌈x⌉

theorem roundTowardZero_neg (x : ℚ) : roundTowardZero (-x) = -roundTowardZero x := by
  rcases lt_trichotomy x 0 with negative | rfl | positive
  · rw [roundTowardZero, roundTowardZero, if_pos (by linarith), if_neg (by linarith), Int.floor_neg]
  · rfl
  · rw [roundTowardZero, roundTowardZero, if_neg (by linarith), if_pos positive.le, Int.ceil_neg]

variable {a b q r q' r' : Int}

namespace TruncDivides

theorem of_nonneg (ha : 0 ≤ a) (hb : 0 < b) : TruncDivides a b (a / b) (a % b) where
  sum := (Int.mul_ediv_add_emod a b).symm
  small := by
    rw [abs_of_nonneg (Int.emod_nonneg a hb.ne'), abs_of_pos hb]
    exact Int.emod_lt_of_pos a hb
  sign := by
    rcases (Int.emod_nonneg a hb.ne').eq_or_lt with exact_multiple | positive
    · exact .inl exact_multiple.symm
    · have : a ≠ 0 := by rintro rfl; simp at positive
      exact .inr (by rw [Int.sign_eq_one_of_pos positive, Int.sign_eq_one_of_pos (by omega)])

theorem neg_left (h : TruncDivides a b q r) : TruncDivides (-a) b (-q) (-r) where
  sum := by rw [h.sum]; ring
  small := by rw [abs_neg]; exact h.small
  sign := by rw [neg_eq_zero, Int.sign_neg, Int.sign_neg, neg_inj]; exact h.sign

theorem neg_right (h : TruncDivides a b q r) : TruncDivides a (-b) (-q) r where
  sum := by rw [neg_mul_neg]; exact h.sum
  small := by rw [abs_neg]; exact h.small
  sign := h.sign

theorem divisor_ne_zero (h : TruncDivides a b q r) : b ≠ 0 := by
  rintro rfl
  exact absurd h.small (by simp)

theorem eq_round_of_nonneg (h : TruncDivides a b q r) (ha : 0 ≤ a) (hb : 0 < b) :
    q = roundTowardZero (a / b) := by
  have nonneg : 0 ≤ r := by
    rcases h.sign with zero | same
    · exact zero.ge
    · rwa [← Int.sign_nonneg_iff, same, Int.sign_nonneg_iff]
  have below : r < b := by
    have := h.small
    rwa [abs_of_nonneg nonneg, abs_of_pos hb] at this
  have positive : (0 : ℚ) < b := by exact_mod_cast hb
  have lower : q * b ≤ a := by linarith [h.sum]
  have upper : a < (q + 1) * b := by linarith [h.sum]
  rw [roundTowardZero, if_pos (div_nonneg (by exact_mod_cast ha) positive.le)]
  refine (Int.floor_eq_iff.2 ⟨?_, ?_⟩).symm
  · rw [le_div_iff₀ positive]
    exact_mod_cast lower
  · rw [div_lt_iff₀ positive]
    exact_mod_cast upper

theorem eq_round (h : TruncDivides a b q r) : q = roundTowardZero (a / b) := by
  -- both sides change their sign with the dividend and with the divisor
  rcases lt_or_ge a 0 with ha | ha <;> rcases lt_or_gt_of_ne h.divisor_ne_zero with hb | hb
  · simpa using h.neg_left.neg_right.eq_round_of_nonneg (by omega) (by omega)
  · simpa [neg_div, roundTowardZero_neg] using h.neg_left.eq_round_of_nonneg (by omega) hb
  · simpa [div_neg, roundTowardZero_neg] using h.neg_right.eq_round_of_nonneg ha (by omega)
  · exact h.eq_round_of_nonneg ha hb

theorem remainder (h : TruncDivides a b q r) : r = a - b * q := by
  have := h.sum
  omega

theorem unique (h : TruncDivides a b q r) (h' : TruncDivides a b q' r') : q' = q ∧ r' = r := by
  have same : q' = q := h'.eq_round.trans h.eq_round.symm
  exact ⟨same, by rw [h.remainder, h'.remainder, same]⟩

end TruncDivides

/-- The sign test on top of the division of the absolute values gives the quotient that belongs to
the signs. -/
theorem exists_truncDivides (nonzero : b ≠ 0) :
    ∃ q r, truncDiv? a b = some q ∧ TruncDivides a b q r := by
  have absolute : TruncDivides a.natAbs b.natAbs (a.natAbs / b.natAbs) (a.natAbs % b.natAbs) :=
    .of_nonneg (by omega) (by omega)
  rw [truncDiv?, if_neg nonzero]
  -- the signs are put back one by one, whatever the quotient and the remainder are
  generalize (a.natAbs / b.natAbs : Int) = q at absolute
  generalize (a.natAbs % b.natAbs : Int) = r at absolute
  rcases lt_or_ge a 0 with ha | ha <;> rcases lt_or_ge b 0 with hb | hb
  · rw [Int.ofNat_natAbs_of_nonpos ha.le, Int.ofNat_natAbs_of_nonpos hb.le] at absolute
    exact ⟨q, -r, by simp [ha, hb], by simpa using absolute.neg_left.neg_right⟩
  · rw [Int.ofNat_natAbs_of_nonpos ha.le, Int.natAbs_of_nonneg hb] at absolute
    exact ⟨-q, -r, by simp [ha, hb.not_gt], by simpa using absolute.neg_left⟩
  · rw [Int.natAbs_of_nonneg ha, Int.ofNat_natAbs_of_nonpos hb.le] at absolute
    exact ⟨-q, r, by simp [ha.not_gt, hb], by simpa using absolute.neg_right⟩
  · rw [Int.natAbs_of_nonneg ha, Int.natAbs_of_nonneg hb] at absolute
    exact ⟨q, r, by simp [ha.not_gt, hb.not_gt], absolute⟩

theorem TruncDivides.truncDiv? (h : TruncDivides a b q r) : truncDiv? a b = some q := by
  obtain ⟨q', r', value, h'⟩ := exists_truncDivides (a := a) h.divisor_ne_zero
  rw [value, (h.unique h').1]

theorem TruncDivides.truncMod? (h : TruncDivides a b q r) : truncMod? a b = some r := by
  rw [CallSite.truncMod?, h.truncDiv?, h.remainder]
  rfl

namespace Eval
variable {limit : Option Int} {n : Nat} {op : BinaryOperator} {left right : Node} {s t u : State}

/-- An operation on two values that are there. -/
theorem expression_binary (first : expression limit n left s = .done a t)
    (second : expression limit n right t = .done b u) :
    expression limit (n + 1) (.binary op left right) s =
      (op.value? a b).elim (.failed ⟨.divisionByZero op, none⟩ u) (.done · u) := by
  rw [expression, bind_apply, first]
  dsimp only
  rw [bind_apply, second]
  dsimp only
  rw [operate]
  cases op.value? a b <;> rfl

/-- The operators for quotient and remainder give the only pair that divides the integers, rounded
toward zero, and no sign of an operand changes its size. They have no value exactly for a zero
divisor, and exactly then an operation whose operands have values fails. -/
theorem truncated_division (a b : Int) :
    (b ≠ 0 → ∃ q r, truncDiv? a b = some q ∧ truncMod? a b = some r ∧
      TruncDivides a b q r ∧ (∀ q' r', TruncDivides a b q' r' → q' = q ∧ r' = r) ∧
      q = roundTowardZero (a / b) ∧
      truncDiv? (-a) b = some (-q) ∧ truncDiv? a (-b) = some (-q) ∧
      truncMod? (-a) b = some (-r) ∧ truncMod? a (-b) = some r) ∧
    (truncDiv? a b = none ↔ b = 0) ∧ (truncMod? a b = none ↔ b = 0) ∧
    ∀ limit n op left right s t u,
      expression limit n left s = .done a t → expression limit n right t = .done b u →
      if (op = .div ∨ op = .mod) ∧ b = 0 then
        expression limit (n + 1) (.binary op left right) s = .failed ⟨.divisionByZero op, none⟩ u
      else ∃ v, op.value? a b = some v ∧
        expression limit (n + 1) (.binary op left right) s = .done v u := by
  refine ⟨fun nonzero => ?_, truncDiv?_eq_none_iff, truncMod?_eq_none_iff, ?_⟩
  · obtain ⟨q, r, -, h⟩ := exists_truncDivides (a := a) nonzero
    exact ⟨q, r, h.truncDiv?, h.truncMod?, h, fun _ _ => h.unique, h.eq_round,
      h.neg_left.truncDiv?, h.neg_right.truncDiv?, h.neg_left.truncMod?, h.neg_right.truncMod?⟩
  · intro limit n op left right s t u first second
    rw [expression_binary first second]
    split
    case isTrue by_zero => rw [BinaryOperator.value?_eq_none_iff.2 by_zero, Option.elim_none]
    case isFalse defined =>
      obtain ⟨v, value⟩ := Option.ne_none_iff_exists'.1
        (mt BinaryOperator.value?_eq_none_iff.1 defined)
      exact ⟨v, value, by rw [value, Option.elim_some]⟩

/-- A negative dividend, and a remainder by zero. -/
theorem truncated_division_of_negative :
    (2 : Int) ≠ 0 ∧ (∀ q r, TruncDivides (-7) 2 q r → q = -3 ∧ r = -1) ∧
      expression none 2 (.binary .mod (.literal (-7)) (.literal 0)) { scope := [{}] } =
        .failed ⟨.divisionByZero .mod, none⟩ { scope := [{}] } := by
  obtain ⟨q, r, quotient, remainder, -, unique, -⟩ := (truncated_division (-7) 2).1 (by decide)
  have failed := (truncated_division (-7) 0).2.2.2 none 1 .mod (.literal (-7)) (.literal 0)
    { scope := [{}] } { scope := [{}] } { scope := [{}] } rfl rfl
  obtain rfl : -3 = q := Option.some_inj.1 quotient
  obtain rfl : -1 = r := Option.some_inj.1 remainder
  exact ⟨by decide, unique, by simpa using failed⟩

end Eval
end CallSite

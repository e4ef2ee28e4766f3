import HttpSnippet.Proofs.Number.Rounding

/-!
# Ratios that are too large

Rounding gives infinity from half a gap beyond the greatest finite number on. That end is not in the
range of this number, since its mantissa is odd.
-/
namespace HttpSnippet.Binary64

/-- The least number that is rounded to infinity: `2 ^ 1024 - 2 ^ 970`, half a gap beyond the
greatest finite number. -/
def overflowBound : Nat := (2 ^ 54 - 1) * 2 ^ 970

theorem overflowBound_eq : (overflowBound : ℚ) = ((2 ^ 53 : Nat) - 1 / 2) * 2 ^ maxExponent := by
  have hexponent : (2 : ℚ) ^ maxExponent = 2 * (2 ^ 970 : Nat) := by
    rw [zpow_eq_two_mul, Nat.cast_pow, ← zpow_natCast]
    rfl
  rw [overflowBound, Nat.cast_mul, hexponent]
  generalize ((2 ^ 970 : Nat) : ℚ) = p
  norm_num
  ring

theorem overflowBound_lt : (overflowBound : ℚ) < 2 ^ (1024 : Int) := by
  rw [show (1024 : Int) = 53 + maxExponent from rfl, zpow_add₀ two_ne_zero, overflowBound_eq]
  have hpow : (0 : ℚ) < 2 ^ maxExponent := by positivity
  refine mul_lt_mul_of_pos_right ?_ hpow
  norm_num

theorem lt_overflowBound : (2 : ℚ) ^ (1023 : Int) < overflowBound := by
  rw [show (1023 : Int) = 52 + maxExponent from rfl, zpow_add₀ two_ne_zero, overflowBound_eq]
  have hpow : (0 : ℚ) < 2 ^ maxExponent := by positivity
  refine mul_lt_mul_of_pos_right ?_ hpow
  norm_num

def IsFinite : Binary64 → Prop
  | .finite .. => True
  | _ => False

/-- On the greatest exponent the mantissa must not be rounded up to the next power of two. -/
theorem isFinite_ofRatio {negative : Bool} {num den : Nat} (hn : num ≠ 0) :
    (ofRatio negative num den).IsFinite ↔
      gridExponent num den < maxExponent ∨
        gridExponent num den = maxExponent ∧ roundOn num den (gridExponent num den) ≠ 2 ^ 53 := by
  unfold ofRatio
  rw [if_neg hn]
  simp only [gridExponent, roundOn]
  generalize max (log2Ratio num den - 52) minExponent = q
  generalize roundDiv (num * 2 ^ (-q).toNat) (den * 2 ^ q.toNat) = m
  by_cases hm : m = 2 ^ 53
  · simp only [hm, if_true]
    split <;> simp only [IsFinite, true_iff, false_iff] <;> omega
  · simp only [hm, if_false]
    split <;> simp only [IsFinite, true_iff, false_iff] <;> omega

/-- On the greatest exponent a ratio is rounded up to the next power of two from the bound on. -/
theorem roundOn_maxExponent {num den : Nat} (hd : 0 < den)
    (hx : (num : ℚ) / den < 2 ^ (1024 : Int)) :
    roundOn num den maxExponent = 2 ^ 53 ↔ (overflowBound : ℚ) ≤ (num : ℚ) / den := by
  have hpow : (0 : ℚ) < 2 ^ maxExponent := by positivity
  constructor
  · intro hround
    by_contra hlt
    rw [not_le, overflowBound_eq, ← div_lt_iff₀ hpow, ← div_zpow_eq,
      div_lt_iff₀ (by positivity)] at hlt
    have hhalf : 2 * (num * 2 ^ (-maxExponent).toNat) <
        (2 * (2 ^ 53 - 1) + 1) * (den * 2 ^ maxExponent.toNat) := by
      generalize num * 2 ^ (-maxExponent).toNat = n at hlt ⊢
      generalize den * 2 ^ maxExponent.toNat = d at hlt ⊢
      have hmul : (2 * n : ℚ) < 18014398509481983 * d := by
        norm_num at hlt ⊢
        linarith
      norm_num
      exact_mod_cast hmul
    have hle := (roundDiv_le_iff (by positivity)).mpr (.inl hhalf)
    unfold roundOn at hround
    omega
  · intro hle
    have htop : (2 : ℚ) ^ (1024 : Int) = 2 ^ 53 * 2 ^ maxExponent := by
      rw [show (1024 : Int) = 53 + maxExponent from rfl, zpow_add₀ two_ne_zero]
      norm_num
    rw [overflowBound_eq, ← le_div_iff₀ hpow] at hle
    rw [htop, ← div_lt_iff₀ hpow] at hx
    refine roundOn_eq hd ⟨hle.lt_or_eq.imp id fun heq => ⟨rfl, heq⟩, .inl ?_⟩
    norm_num at hx ⊢
    linarith

/-- A ratio is rounded to a finite number exactly if it lies below the bound. -/
theorem isFinite_ofRatio_iff (negative : Bool) {num den : Nat} (hd : 0 < den) :
    (ofRatio negative num den).IsFinite ↔ num < overflowBound * den := by
  have hd' : (0 : ℚ) < den := by exact_mod_cast hd
  have hbound : num < overflowBound * den ↔ (num : ℚ) / den < overflowBound := by
    rw [div_lt_iff₀ hd']
    exact_mod_cast Iff.rfl
  rw [hbound]
  rcases Nat.eq_zero_or_pos num with rfl | hn
  · have hpos : (0 : ℚ) < overflowBound := (by positivity : (0 : ℚ) < _).trans lt_overflowBound
    rw [Nat.cast_zero, zero_div]
    exact iff_of_true trivial hpos
  obtain ⟨hlog, hlog'⟩ := log2Ratio_bounds hn hd
  rw [isFinite_ofRatio hn.ne']
  have hgrid : gridExponent num den = max (log2Ratio num den - 52) (-1074) := rfl
  have hmax : maxExponent = 971 := rfl
  rcases lt_trichotomy (log2Ratio num den) 1023 with hlt | heq | hgt
  · have hx : (num : ℚ) / den < overflowBound :=
      (hlog'.trans_le (zpow_le_zpow_right₀ one_le_two (by omega))).trans lt_overflowBound
    exact ⟨fun _ => hx, fun _ => .inl (by omega)⟩
  · have hq : gridExponent num den = maxExponent := by omega
    rw [heq] at hlog'
    rw [hq, ne_eq, roundOn_maxExponent hd hlog', not_le]
    simp only [lt_self_iff_false, true_and, false_or]
  · have hx : (overflowBound : ℚ) < (num : ℚ) / den :=
      (overflowBound_lt.trans_le (zpow_le_zpow_right₀ one_le_two (by omega))).trans_le hlog
    constructor
    · intro h
      omega
    · intro h
      exact absurd h (not_lt.mpr hx.le)

end HttpSnippet.Binary64

import Mathlib.Algebra.Order.Field.Power
import Mathlib.Data.Rat.Cast.Order
import Mathlib.Tactic.Linarith
import Mathlib.Tactic.NormNum
import Mathlib.Tactic.Positivity
import Mathlib.Tactic.Ring
import HttpSnippet.Number.Binary64

/-!
# Rounding to binary64

A finite number stands for an interval of rationals. Rounding a ratio, or reading a decimal, gives
the number exactly as its interval says, also at the ends that belong to the even mantissa and below
a power of two, where the gap is half as wide. Exponents are integers, so the comparisons that the
definitions make with natural numbers are first turned into comparisons of rationals.
-/
namespace HttpSnippet.Binary64

/-- An integer power as the quotient of two natural ones. -/
theorem zpow_eq_div {b : Nat} (hb : b ≠ 0) (i : Int) :
    (b : ℚ) ^ i = (b ^ i.toNat : Nat) / (b ^ (-i).toNat : Nat) := by
  have hb' : (b : ℚ) ≠ 0 := by exact_mod_cast hb
  rcases Int.le_total 0 i with hi | hi
  · have h : (-i).toNat = 0 := by omega
    obtain ⟨n, rfl⟩ := Int.eq_ofNat_of_zero_le hi
    simp [h]
  · have h : i.toNat = 0 := by omega
    obtain ⟨n, hn⟩ := Int.eq_ofNat_of_zero_le (Int.neg_nonneg_of_nonpos hi)
    have hi' : i = -(n : Int) := by omega
    subst hi'
    simp [h]

/-- Whether the nearest natural number to a quotient, of two equally near ones the even one. -/
def NearestTo (x : ℚ) (m : Nat) : Prop :=
  ((m : ℚ) - 1 / 2 < x ∨ m % 2 = 0 ∧ (m : ℚ) - 1 / 2 = x) ∧
    (x < m + 1 / 2 ∨ m % 2 = 0 ∧ x = m + 1 / 2)

theorem roundDiv_eq {num den m : Nat} (hd : 0 < den)
    (h : NearestTo ((num : ℚ) / den) m) : roundDiv num den = m := by
  have hd' : (0 : ℚ) < den := by exact_mod_cast hd
  obtain ⟨hlow, hhigh⟩ := h
  -- the bounds without the quotient
  have hlow' : 2 * m * den < 2 * num + den ∨ m % 2 = 0 ∧ 2 * m * den = 2 * num + den := by
    refine hlow.imp (fun h => ?_) fun ⟨he, h⟩ => ⟨he, ?_⟩
    · rw [lt_div_iff₀ hd'] at h
      have h' : (2 * m * den : ℚ) < 2 * num + den := by linarith
      exact_mod_cast h'
    · rw [eq_div_iff hd'.ne'] at h
      have h' : (2 * m * den : ℚ) = 2 * num + den := by linarith
      exact_mod_cast h'
  have hhigh' : 2 * num < 2 * m * den + den ∨ m % 2 = 0 ∧ 2 * num = 2 * m * den + den := by
    refine hhigh.imp (fun h => ?_) fun ⟨he, h⟩ => ⟨he, ?_⟩
    · rw [div_lt_iff₀ hd'] at h
      have h' : (2 * num : ℚ) < 2 * m * den + den := by linarith
      exact_mod_cast h'
    · rw [div_eq_iff hd'.ne'] at h
      have h' : (2 * num : ℚ) = 2 * m * den + den := by linarith
      exact_mod_cast h'
  have hdiv := Nat.div_add_mod num den
  have hmod := Nat.mod_lt num hd
  unfold roundDiv
  generalize num / den = q at *
  generalize num % den = r at *
  subst hdiv
  -- the quotient is the number itself or the one below it
  have hq : q ≤ m := by
    by_contra hlt
    have hmul : den * (m + 1) ≤ den * q := Nat.mul_le_mul_left den (by omega)
    have hmm : 2 * m * den = 2 * (den * m) := by ring
    rw [Nat.mul_add, Nat.mul_one] at hmul
    omega
  have hm : m ≤ q + 1 := by
    by_contra hlt
    have hmul : den * (q + 2) ≤ den * m := Nat.mul_le_mul_left den (by omega)
    have hmm : 2 * m * den = 2 * (den * m) := by ring
    rw [Nat.mul_add] at hmul
    omega
  have hcases : m = q ∨ m = q + 1 := by omega
  rcases hcases with rfl | rfl
  · have hmm : 2 * m * den = 2 * (den * m) := by ring
    dsimp only
    split_ifs <;> omega
  · have hmm : 2 * (q + 1) * den = 2 * (den * q) + 2 * den := by ring
    dsimp only
    split_ifs <;> omega

/-- Comparing a ratio with a power of two needs natural numbers only. -/
theorem div_lt_zpow_iff {num den : Nat} (hd : 0 < den) (e : Int) :
    (num : ℚ) / den < (2 : ℚ) ^ e ↔ num * 2 ^ (-e).toNat < den * 2 ^ e.toNat := by
  have hd' : (0 : ℚ) < den := by exact_mod_cast hd
  have hpow : (0 : ℚ) < (2 ^ (-e).toNat : Nat) := by positivity
  have h2 : (2 : ℚ) ^ e = (2 ^ e.toNat : Nat) / (2 ^ (-e).toNat : Nat) := by
    exact_mod_cast zpow_eq_div (b := 2) (by decide) e
  rw [h2, div_lt_div_iff₀ hd' hpow, mul_comm (((2 ^ e.toNat : Nat)) : ℚ)]
  exact_mod_cast Iff.rfl

/-- The ratio lies between the power of two of its logarithm and the next one. -/
theorem log2Ratio_bounds {num den : Nat} (hn : 0 < num) (hd : 0 < den) :
    (2 : ℚ) ^ log2Ratio num den ≤ (num : ℚ) / den ∧
      (num : ℚ) / den < (2 : ℚ) ^ (log2Ratio num den + 1) := by
  have hd' : (0 : ℚ) < den := by exact_mod_cast hd
  have hn1 : (2 : ℚ) ^ (num.log2 : Int) ≤ num := by
    rw [zpow_natCast]
    exact_mod_cast Nat.log2_self_le hn.ne'
  have hn2 : (num : ℚ) < (2 : ℚ) ^ (num.log2 + 1 : Int) := by
    exact_mod_cast Nat.lt_log2_self (n := num)
  have hd1 : (2 : ℚ) ^ (den.log2 : Int) ≤ den := by
    rw [zpow_natCast]
    exact_mod_cast Nat.log2_self_le hd.ne'
  have hd2 : (den : ℚ) < (2 : ℚ) ^ (den.log2 + 1 : Int) := by
    exact_mod_cast Nat.lt_log2_self (n := den)
  have hupper : (num : ℚ) / den < (2 : ℚ) ^ ((num.log2 : Int) - den.log2 + 1) := by
    rw [show (num.log2 : Int) - den.log2 + 1 = (num.log2 + 1) - den.log2 by ring,
      zpow_sub₀ two_ne_zero]
    exact div_lt_div₀ hn2 hd1 (by positivity) (by positivity)
  have hlower : (2 : ℚ) ^ ((num.log2 : Int) - den.log2 - 1) < (num : ℚ) / den := by
    rw [show (num.log2 : Int) - den.log2 - 1 = num.log2 - (den.log2 + 1) by ring,
      zpow_sub₀ two_ne_zero]
    exact div_lt_div₀' hn1 hd2 (by exact_mod_cast hn) hd'
  have hcompare : (num : ℚ) / den < (2 : ℚ) ^ ((num.log2 : Int) - den.log2) ↔ _ :=
    div_lt_zpow_iff hd _
  unfold log2Ratio
  dsimp only
  split_ifs with h
  · exact ⟨hlower.le, by simpa using hcompare.mpr h⟩
  · exact ⟨not_lt.mp (mt hcompare.mp h), hupper⟩

/-! ### Rounding a ratio -/

/-- What the numbers that are kept as binary64 look like: the mantissa fills its 53 bits unless the
exponent is the least one. -/
def Canonical : Binary64 → Prop
  | .finite _ m q =>
    m < 2 ^ 53 ∧ (2 ^ 52 ≤ m ∨ q = minExponent) ∧ minExponent ≤ q ∧ q ≤ maxExponent
  | _ => True

/-- The least real number that may round to `m * 2 ^ q`. Below a power of two the gap is half as
wide. -/
def lowEnd (m : Nat) (q : Int) : ℚ :=
  if m = 2 ^ 52 ∧ minExponent < q then (m - 1 / 4) * 2 ^ q else (m - 1 / 2) * 2 ^ q

def highEnd (m : Nat) (q : Int) : ℚ := (m + 1 / 2) * 2 ^ q

/-- The numbers that round to `m * 2 ^ q`; the ends belong to the even mantissa. -/
def RoundsTo (x : ℚ) (m : Nat) (q : Int) : Prop :=
  (lowEnd m q < x ∨ m % 2 = 0 ∧ lowEnd m q = x) ∧
    (x < highEnd m q ∨ m % 2 = 0 ∧ x = highEnd m q)

theorem RoundsTo.lowEnd_le {x : ℚ} {m : Nat} {q : Int} (h : RoundsTo x m q) : lowEnd m q ≤ x :=
  h.1.elim le_of_lt fun h => h.2.le

theorem RoundsTo.le_highEnd {x : ℚ} {m : Nat} {q : Int} (h : RoundsTo x m q) : x ≤ highEnd m q :=
  h.2.elim le_of_lt fun h => h.2.le

/-- A ratio with its power of two taken out. -/
theorem div_zpow_eq (num den : Nat) (q : Int) :
    ((num * 2 ^ (-q).toNat : Nat) : ℚ) / (den * 2 ^ q.toNat : Nat) =
      (num : ℚ) / den / (2 : ℚ) ^ q := by
  have h2 : (2 : ℚ) ^ q = (2 ^ q.toNat : Nat) / (2 ^ (-q).toNat : Nat) := by
    exact_mod_cast zpow_eq_div (b := 2) (by decide) q
  rw [h2, div_div_eq_mul_div]
  push_cast
  rw [div_mul_eq_mul_div, div_div]

/-- The exponent that a ratio is rounded on. -/
def gridExponent (num den : Nat) : Int := max (log2Ratio num den - 52) minExponent

/-- The mantissa that a ratio has on an exponent. -/
def roundOn (num den : Nat) (q : Int) : Nat :=
  roundDiv (num * 2 ^ (-q).toNat) (den * 2 ^ q.toNat)

theorem roundOn_eq {num den m : Nat} {q : Int} (hd : 0 < den)
    (h : NearestTo ((num : ℚ) / den / 2 ^ q) m) : roundOn num den q = m := by
  rw [← div_zpow_eq] at h
  exact roundDiv_eq (by positivity) h

theorem ofRatio_of_ne_carry {negative : Bool} {num den : Nat} (hn : num ≠ 0)
    (hm : roundOn num den (gridExponent num den) ≠ 2 ^ 53)
    (hq : gridExponent num den ≤ maxExponent) :
    ofRatio negative num den =
      .finite negative (roundOn num den (gridExponent num den)) (gridExponent num den) := by
  unfold ofRatio
  rw [if_neg hn]
  simp only [gridExponent, roundOn] at hm hq ⊢
  rw [if_neg hm]
  exact if_neg (not_lt.mpr hq)

theorem ofRatio_of_carry {negative : Bool} {num den : Nat} (hn : num ≠ 0)
    (hm : roundOn num den (gridExponent num den) = 2 ^ 53)
    (hq : gridExponent num den + 1 ≤ maxExponent) :
    ofRatio negative num den = .finite negative (2 ^ 52) (gridExponent num den + 1) := by
  unfold ofRatio
  rw [if_neg hn]
  simp only [gridExponent, roundOn] at hm hq ⊢
  rw [if_pos hm]
  exact if_neg (not_lt.mpr hq)

/-- On its own exponent a number in the interval of `m` is nearest to `m`. -/
theorem RoundsTo.nearestTo {x : ℚ} {m : Nat} {q : Int} (h : RoundsTo x m q) :
    NearestTo (x / 2 ^ q) m := by
  have hpow : (0 : ℚ) < 2 ^ q := by positivity
  obtain ⟨hlow, hhigh⟩ := h
  refine ⟨?_, ?_⟩
  · rw [lt_div_iff₀ hpow, eq_div_iff hpow.ne']
    unfold lowEnd at hlow
    split_ifs at hlow
    · left
      rcases hlow with hlow | ⟨-, hlow⟩ <;> linarith
    · exact hlow
  · rw [div_lt_iff₀ hpow, div_eq_iff hpow.ne']
    exact hhigh

/-- Numbers that may round to a mantissa above the least normal one lie in the range of their
exponent. -/
theorem gridExponent_eq {num den m : Nat} {q : Int} (hn : 0 < num) (hd : 0 < den)
    (hm : m < 2 ^ 53) (hq : minExponent ≤ q) (h : RoundsTo ((num : ℚ) / den) m q)
    (hrange : (2 : ℚ) ^ (q + 52) ≤ (num : ℚ) / den ∨ q = minExponent) :
    gridExponent num den = q := by
  obtain ⟨hlog, hlog'⟩ := log2Ratio_bounds hn hd
  have hpow : (0 : ℚ) < 2 ^ q := by positivity
  have hm' : (m : ℚ) + 1 ≤ 2 ^ 53 := by exact_mod_cast hm
  have hupper : (num : ℚ) / den < 2 ^ (q + 53) := by
    have hhigh := h.le_highEnd
    rw [zpow_add₀ two_ne_zero]
    unfold highEnd at hhigh
    norm_num at hm' ⊢
    nlinarith
  have hlt : log2Ratio num den < q + 53 :=
    (zpow_lt_zpow_iff_right₀ one_lt_two).mp (hlog.trans_lt hupper)
  unfold gridExponent
  rcases hrange with hrange | rfl
  · have hle : q + 52 < log2Ratio num den + 1 :=
      (zpow_lt_zpow_iff_right₀ one_lt_two).mp (hrange.trans_lt hlog')
    omega
  · omega

/-- Only a power of two has numbers below the range of its exponent that round to it. -/
theorem RoundsTo.eq_of_lt {x : ℚ} {m : Nat} {q : Int} (h : RoundsTo x m q) (hm : 2 ^ 52 ≤ m)
    (hx : x < 2 ^ q * 2 ^ (52 : Int)) : m = 2 ^ 52 := by
  have hpow : (0 : ℚ) < 2 ^ q := by positivity
  by_contra hne
  have hgt : (2 : ℚ) ^ 52 + 1 ≤ m := by exact_mod_cast (show 2 ^ 52 + 1 ≤ m by omega)
  have hlow := h.lowEnd_le
  rw [lowEnd, if_neg (fun hand => hne hand.1)] at hlow
  have hmul := mul_le_mul_of_nonneg_right hgt hpow.le
  norm_num at hx hmul
  linarith

theorem zpow_eq_two_mul (q : Int) : (2 : ℚ) ^ q = 2 * 2 ^ (q - 1) := by
  rw [zpow_sub_one₀ two_ne_zero]
  ring

/-- Such a number is nearest to twice the power of two on the exponent below. -/
theorem nearestTo_pred {x : ℚ} {q : Int} (hlow : ((2 ^ 52 : Nat) - 1 / 4 : ℚ) * 2 ^ q ≤ x)
    (hx : x < 2 ^ q * 2 ^ (52 : Int)) : NearestTo (x / 2 ^ (q - 1)) (2 ^ 53) := by
  have hpow : (0 : ℚ) < 2 ^ (q - 1) := by positivity
  rw [zpow_eq_two_mul] at hlow hx
  refine ⟨?_, .inl ?_⟩
  · rw [lt_div_iff₀ hpow, eq_div_iff hpow.ne']
    refine hlow.lt_or_eq.imp (fun hlt => ?_) fun heq => ⟨rfl, ?_⟩
    · norm_num at hlt ⊢
      linarith
    · rw [← heq]
      norm_num
      ring
  · rw [div_lt_iff₀ hpow]
    norm_num at hx ⊢
    linarith

theorem gridExponent_pred {num den : Nat} {q : Int} (hn : 0 < num) (hd : 0 < den)
    (hq : minExponent < q) (hlow : ((2 ^ 52 : Nat) - 1 / 4 : ℚ) * 2 ^ q ≤ (num : ℚ) / den)
    (hx : (num : ℚ) / den < 2 ^ q * 2 ^ (52 : Int)) : gridExponent num den = q - 1 := by
  obtain ⟨hlog, hlog'⟩ := log2Ratio_bounds hn hd
  have hlt : log2Ratio num den < q + 52 := by
    refine (zpow_lt_zpow_iff_right₀ one_lt_two).mp (hlog.trans_lt ?_)
    rw [zpow_add₀ two_ne_zero]
    exact hx
  have hgt : q + 51 < log2Ratio num den + 1 := by
    have hpow : (0 : ℚ) < 2 ^ q := by positivity
    refine (zpow_lt_zpow_iff_right₀ one_lt_two).mp (lt_trans ?_ hlog')
    rw [zpow_add₀ two_ne_zero]
    norm_num at hlow ⊢
    linarith
  unfold gridExponent
  omega

/-- A ratio in the interval of a number rounds to this number. -/
theorem ofRatio_eq {negative : Bool} {num den m : Nat} {q : Int} (hn : 0 < num) (hd : 0 < den)
    (hc : Canonical (.finite negative m q)) (h : RoundsTo ((num : ℚ) / den) m q) :
    ofRatio negative num den = .finite negative m q := by
  obtain ⟨hm, hnormal, hqlow, hqhigh⟩ := hc
  by_cases hrange : (2 : ℚ) ^ (q + 52) ≤ (num : ℚ) / den ∨ q = minExponent
  · have hgrid := gridExponent_eq hn hd hm hqlow h hrange
    have hround : roundOn num den q = m := roundOn_eq hd h.nearestTo
    have hne : roundOn num den (gridExponent num den) ≠ 2 ^ 53 := by
      rw [hgrid, hround]
      exact hm.ne
    rw [ofRatio_of_ne_carry hn.ne' hne (hgrid ▸ hqhigh), hgrid, hround]
  · -- what is left lies below a power of two and is rounded up to it
    obtain ⟨hbelow, hqmin⟩ := not_or.mp hrange
    rw [not_le, zpow_add₀ two_ne_zero] at hbelow
    obtain rfl : m = 2 ^ 52 := h.eq_of_lt (hnormal.resolve_right hqmin) hbelow
    have hlow := h.lowEnd_le
    rw [lowEnd, if_pos ⟨rfl, by omega⟩] at hlow
    have hgrid : gridExponent num den = q - 1 := gridExponent_pred hn hd (by omega) hlow hbelow
    have hcarry : roundOn num den (gridExponent num den) = 2 ^ 53 := by
      rw [hgrid]
      exact roundOn_eq hd (nearestTo_pred hlow hbelow)
    rw [ofRatio_of_carry hn.ne' hcarry (by omega), hgrid, Int.sub_add_cancel]

/-! ### The numbers that rounding gives -/

/-- Rounding to the nearest natural number stays at or below `c` up to half a unit above it; the
middle itself belongs to the even one. -/
theorem roundDiv_le_iff {num den c : Nat} (hd : 0 < den) : roundDiv num den ≤ c ↔
    2 * num < (2 * c + 1) * den ∨ c % 2 = 0 ∧ 2 * num = (2 * c + 1) * den := by
  have hdiv := Nat.div_add_mod num den
  have hmod := Nat.mod_lt num hd
  unfold roundDiv
  dsimp only
  generalize num / den = q at *
  generalize num % den = r at *
  subst hdiv
  have hexpand : (2 * c + 1) * den = 2 * (den * c) + den := by ring
  rw [hexpand]
  rcases lt_trichotomy q c with hlt | rfl | hgt
  · have hmul : den * (q + 1) ≤ den * c := Nat.mul_le_mul_left den hlt
    rw [Nat.mul_add, Nat.mul_one] at hmul
    split_ifs <;> omega
  · split_ifs <;> omega
  · have hmul : den * (c + 1) ≤ den * q := Nat.mul_le_mul_left den hgt
    rw [Nat.mul_add, Nat.mul_one] at hmul
    split_ifs <;> omega

theorem roundDiv_le {num den k : Nat} (hd : 0 < den) (h : num < k * den) :
    roundDiv num den ≤ k := by
  have hexpand : (2 * k + 1) * den = 2 * (k * den) + den := by ring
  exact (roundDiv_le_iff hd).mpr (.inl (by omega))

theorem le_roundDiv {num den k : Nat} (hd : 0 < den) (h : k * den ≤ num) :
    k ≤ roundDiv num den := by
  rcases k with _ | k
  · exact Nat.zero_le _
  · by_contra hlt
    have hbelow := (roundDiv_le_iff hd).mp (Nat.le_of_lt_succ (not_le.mp hlt))
    have hexpand : (2 * k + 1) * den = 2 * (k * den) + den := by ring
    rw [Nat.add_mul, Nat.one_mul] at h
    omega

/-- A bound on the ratio bounds its mantissa. -/
theorem roundOn_le {num den : Nat} (hd : 0 < den) {q : Int}
    (h : (num : ℚ) / den < 2 ^ (q + 53)) : roundOn num den q ≤ 2 ^ 53 := by
  have hden : (0 : ℚ) < (den * 2 ^ q.toNat : Nat) := by positivity
  rw [zpow_add₀ two_ne_zero, mul_comm, ← div_lt_iff₀ (by positivity), ← div_zpow_eq,
    div_lt_iff₀ hden] at h
  exact roundDiv_le (by positivity) (by exact_mod_cast h)

theorem le_roundOn {num den : Nat} (hd : 0 < den) {q : Int}
    (h : (2 : ℚ) ^ (q + 52) ≤ (num : ℚ) / den) : 2 ^ 52 ≤ roundOn num den q := by
  have hden : (0 : ℚ) < (den * 2 ^ q.toNat : Nat) := by positivity
  rw [zpow_add₀ two_ne_zero, mul_comm, ← le_div_iff₀ (by positivity), ← div_zpow_eq,
    le_div_iff₀ hden] at h
  exact le_roundDiv (by positivity) (by exact_mod_cast h)

theorem canonical_zero (negative : Bool) : (zero negative).Canonical :=
  ⟨by decide, .inr rfl, le_refl _, by decide⟩

theorem canonical_ofRatio (negative : Bool) (num : Nat) {den : Nat} (hd : 0 < den) :
    (ofRatio negative num den).Canonical := by
  rcases Nat.eq_zero_or_pos num with rfl | hn
  · exact canonical_zero negative
  obtain ⟨hlog, hlog'⟩ := log2Ratio_bounds hn hd
  have hmin : minExponent ≤ gridExponent num den := le_max_right _ _
  have hle : roundOn num den (gridExponent num den) ≤ 2 ^ 53 := by
    refine roundOn_le hd (hlog'.trans_le ?_)
    have hgrid : log2Ratio num den - 52 ≤ gridExponent num den := le_max_left _ _
    exact zpow_le_zpow_right₀ one_le_two (by omega)
  have hge : gridExponent num den ≠ minExponent →
      2 ^ 52 ≤ roundOn num den (gridExponent num den) := by
    intro hne
    have hgrid : gridExponent num den + 52 = log2Ratio num den := by
      unfold gridExponent at hne ⊢
      omega
    exact le_roundOn hd (by rw [hgrid]; exact hlog)
  unfold ofRatio
  rw [if_neg hn.ne']
  simp only [roundOn, gridExponent] at hmin hle hge ⊢
  split_ifs with hm hmax hmax
  · trivial
  · exact ⟨by norm_num, .inl (le_refl _), by omega, by omega⟩
  · trivial
  · exact ⟨by omega, (em _).symm.imp hge id, hmin, by omega⟩

theorem canonical_ofDecimal (negative : Bool) (digits : Nat) (exponent : Int) :
    (ofDecimal negative digits exponent).Canonical := by
  unfold ofDecimal
  dsimp only
  split_ifs
  · exact canonical_zero negative
  · trivial
  · exact canonical_zero negative
  · exact canonical_ofRatio _ _ (by positivity)

/-! ### Reading decimals -/

theorem lowEnd_pos {m : Nat} {q : Int} (hm : 0 < m) (hq : minExponent ≤ q) :
    (2 : ℚ) ^ (-1075 : Int) ≤ lowEnd m q := by
  have hpow : (2 : ℚ) ^ (-1074 : Int) ≤ 2 ^ q := zpow_le_zpow_right₀ one_le_two hq
  have hm' : (1 : ℚ) ≤ m := by exact_mod_cast hm
  have hhalf : (2 : ℚ) ^ (-1075 : Int) = 1 / 2 * 2 ^ (-1074 : Int) := by
    rw [show (-1075 : Int) = -1 + -1074 by norm_num, zpow_add₀ two_ne_zero]
    norm_num
  have hpos : (0 : ℚ) < 2 ^ (-1074 : Int) := by positivity
  rw [hhalf]
  unfold lowEnd
  split_ifs
  · exact mul_le_mul (by linarith) hpow hpos.le (by linarith)
  · exact mul_le_mul (by linarith) hpow hpos.le (by linarith)

theorem highEnd_lt {m : Nat} {q : Int} (hm : m < 2 ^ 53) (hq : q ≤ maxExponent) :
    highEnd m q < (2 : ℚ) ^ (1024 : Int) := by
  have hpow : (2 : ℚ) ^ q ≤ 2 ^ (971 : Int) := zpow_le_zpow_right₀ one_le_two hq
  have hm' : (m : ℚ) + 1 ≤ 2 ^ 53 := by exact_mod_cast hm
  have hpos : (0 : ℚ) < 2 ^ q := by positivity
  rw [show (1024 : Int) = 53 + 971 by norm_num, zpow_add₀ two_ne_zero]
  exact mul_lt_mul (by norm_num at hm' ⊢; linarith) hpow hpos (by positivity)

/-- The number of digits gives the size of a decimal. -/
theorem decimal_bounds {digits : Nat} (hd : 0 < digits) (exponent : Int) :
    let size := (Nat.toDigits 10 digits).length + exponent
    (10 : ℚ) ^ (size - 1) ≤ digits * 10 ^ exponent ∧
      (digits : ℚ) * 10 ^ exponent < 10 ^ size := by
  have hten : (10 : ℚ) ≠ 0 := by norm_num
  have hpos : (0 : ℚ) < 10 ^ exponent := by positivity
  obtain ⟨n, hn⟩ : ∃ n, (Nat.toDigits 10 digits).length = n + 1 :=
    Nat.exists_eq_succ_of_ne_zero Nat.length_toDigits_pos.ne'
  have hlt : digits < 10 ^ (n + 1) :=
    (Nat.length_toDigits_le_iff (by norm_num) (by omega)).mp hn.le
  have hle : 10 ^ n ≤ digits := by
    by_contra h
    rcases n with _ | n
    · simp at h
      omega
    · have := (Nat.length_toDigits_le_iff (k := n + 1) (by norm_num) (by omega)).mpr (not_le.mp h)
      omega
  dsimp only
  rw [hn]
  constructor
  · rw [show ((n + 1 : Nat) : Int) + exponent - 1 = n + exponent by push_cast; ring,
      zpow_add₀ hten, zpow_natCast]
    exact mul_le_mul_of_nonneg_right (by exact_mod_cast hle) hpos.le
  · rw [zpow_add₀ hten, zpow_natCast]
    exact mul_lt_mul_of_pos_right (by exact_mod_cast hlt) hpos

/-- No finite number reaches this power of ten. -/
theorem two_zpow_lt_ten : (2 : ℚ) ^ (1024 : Int) < 10 ^ (310 : Int) := by
  have hstep : (2 : ℚ) ^ 93 < 10 ^ 28 := by norm_num
  calc (2 : ℚ) ^ (1024 : Int) = ((2 : ℚ) ^ 93) ^ 11 * 2 := by
        rw [show (1024 : Int) = ((93 * 11 + 1 : Nat) : Int) by norm_num, zpow_natCast, pow_succ,
          pow_mul]
    _ ≤ ((10 : ℚ) ^ 28) ^ 11 * 10 ^ 1 := by gcongr; norm_num
    _ = 10 ^ ((28 * 11 + 1 : Nat) : Int) := by rw [← pow_mul, ← pow_add, zpow_natCast]
    _ < 10 ^ (310 : Int) := zpow_lt_zpow_right₀ (by norm_num) (by norm_num)

/-- No number but zero lies below this power of ten. -/
theorem ten_zpow_lt_two : (10 : ℚ) ^ (-331 : Int) < 2 ^ (-1075 : Int) := by
  have hstep : (2 : ℚ) ^ 93 < 10 ^ 28 := by norm_num
  rw [zpow_neg, zpow_neg]
  refine inv_strictAnti₀ (by positivity) ?_
  calc (2 : ℚ) ^ (1075 : Int) = ((2 : ℚ) ^ 93) ^ 11 * 2 ^ 52 := by
        rw [show (1075 : Int) = ((93 * 11 + 52 : Nat) : Int) by norm_num, zpow_natCast, pow_add,
          pow_mul]
    _ ≤ ((10 : ℚ) ^ 28) ^ 11 * 10 ^ 16 := by gcongr; norm_num
    _ = 10 ^ ((28 * 11 + 16 : Nat) : Int) := by rw [← pow_mul, ← pow_add, zpow_natCast]
    _ < 10 ^ (331 : Int) := zpow_lt_zpow_right₀ (by norm_num) (by norm_num)

/-- A decimal in the interval of a number is read as this number. -/
theorem ofDecimal_eq {negative : Bool} {digits m : Nat} {exponent q : Int} (hd : 0 < digits)
    (hm : 0 < m) (hc : Canonical (.finite negative m q))
    (h : RoundsTo (digits * 10 ^ exponent) m q) :
    ofDecimal negative digits exponent = .finite negative m q := by
  obtain ⟨hge, hlt⟩ := decimal_bounds hd exponent
  have hbig : ¬ (Nat.toDigits 10 digits).length + exponent > 310 := by
    intro hsize
    have hle : (10 : ℚ) ^ (310 : Int) ≤ 10 ^ ((Nat.toDigits 10 digits).length + exponent - 1) :=
      zpow_le_zpow_right₀ (by norm_num) (by omega)
    have hupper := h.le_highEnd.trans_lt (highEnd_lt hc.1 hc.2.2.2)
    exact absurd (hle.trans (hge.trans hupper.le)) (not_le.mpr two_zpow_lt_ten)
  have hsmall : ¬ (Nat.toDigits 10 digits).length + exponent < -330 := by
    intro hsize
    have hle : (10 : ℚ) ^ ((Nat.toDigits 10 digits).length + exponent) ≤ 10 ^ (-331 : Int) :=
      zpow_le_zpow_right₀ (by norm_num) (by omega)
    have hlower := (lowEnd_pos hm hc.2.2.1).trans h.lowEnd_le
    exact absurd (hlower.trans (hlt.le.trans hle)) (not_le.mpr ten_zpow_lt_two)
  have hratio : ((digits * 10 ^ exponent.toNat : Nat) : ℚ) / (10 ^ (-exponent).toNat : Nat) =
      digits * 10 ^ exponent := by
    have h10 : (10 : ℚ) ^ exponent =
        (10 ^ exponent.toNat : Nat) / (10 ^ (-exponent).toNat : Nat) := by
      exact_mod_cast zpow_eq_div (b := 10) (by decide) exponent
    rw [h10, mul_div_assoc']
    push_cast
    rfl
  unfold ofDecimal
  dsimp only
  rw [if_neg hd.ne', if_neg hbig, if_neg hsmall]
  exact ofRatio_eq (by positivity) (by positivity) hc (by rw [hratio]; exact h)

end HttpSnippet.Binary64

import HttpSnippet.Proofs.Json.Numeral
import HttpSnippet.Proofs.Outcome
import HttpSnippet.Proofs.Source.Fragment

/-!
# Milliseconds as whole seconds

A timeout is divided by a thousand in floating-point arithmetic and then rounded up. The quotient is
rounded first, so the last second may be lost if only a small part of it is wanted, and one that no
floating-point number stands for is never reached.
-/
namespace HttpSnippet

namespace Binary64

/-! ### Rounding up a rounded ratio -/

theorem ceilNat_le_iff {m s : Nat} {q : Int} :
    ceilNat m q ≤ s ↔ m * 2 ^ q.toNat ≤ s * 2 ^ (-q).toNat := by
  have hpos : 0 < 2 ^ (-q).toNat := Nat.two_pow_pos _
  have hdiv : ceilNat m q = (m * 2 ^ q.toNat + 2 ^ (-q).toNat - 1) / 2 ^ (-q).toNat := rfl
  rw [hdiv]
  generalize 2 ^ (-q).toNat = d at hpos ⊢
  rw [Nat.div_le_iff_le_mul_add_pred hpos, Nat.mul_comm d]
  omega

/-- A carry changes the mantissa and the exponent, but not the number. -/
theorem ceilNat_carry (q : Int) : ceilNat (2 ^ 52) (q + 1) = ceilNat (2 ^ 53) q := by
  refine eq_of_forall_ge_iff fun s => ?_
  rw [ceilNat_le_iff, ceilNat_le_iff]
  rcases Int.lt_or_le q 0 with hq | hq
  · obtain ⟨j, hj⟩ : ∃ j : Nat, (-q).toNat = j + 1 := ⟨(-q).toNat - 1, by omega⟩
    rw [hj, show (-(q + 1)).toNat = j by omega, show q.toNat = 0 by omega,
      show (q + 1).toNat = 0 by omega, pow_succ 2 j, ← Nat.mul_assoc]
    omega
  · rw [show (-(q + 1)).toNat = 0 by omega, show (-q).toNat = 0 by omega,
      show (q + 1).toNat = q.toNat + 1 by omega, pow_succ 2 q.toNat]
    omega

/-- A finite number that a ratio is rounded to has the value that it has on its grid. -/
theorem ceilNat_of_ofRatio {negative sign : Bool} {num den m : Nat} {q : Int} (hn : num ≠ 0)
    (h : ofRatio negative num den = .finite sign m q) :
    ceilNat m q = ceilNat (roundOn num den (gridExponent num den)) (gridExponent num den) := by
  unfold ofRatio at h
  rw [if_neg hn] at h
  simp only [gridExponent, roundOn] at h ⊢
  generalize max (log2Ratio num den - 52) minExponent = g at h ⊢
  generalize roundDiv (num * 2 ^ (-g).toNat) (den * 2 ^ g.toNat) = r at h ⊢
  by_cases hr : r = 2 ^ 53
  · simp only [hr, if_true] at h
    split at h
    · cases h
    · cases h
      rw [hr]
      exact ceilNat_carry g
  · simp only [hr, if_false] at h
    split at h
    · cases h
    · cases h
      rfl

/-! ### Rounding up thousandths -/

/-- A ratio that is not less than one has a natural number for its logarithm. -/
theorem exists_log2Ratio {num den : Nat} (hd : 0 < den) (h : den ≤ num) : ∃ e : Nat,
    log2Ratio num den = e ∧ den * 2 ^ e ≤ num ∧ num < den * 2 ^ (e + 1) := by
  obtain ⟨hlow, hhigh⟩ := log2Ratio_bounds (hd.trans_le h) hd
  have hd' : (0 : ℚ) < den := by exact_mod_cast hd
  have hone : (2 : ℚ) ^ (0 : Int) ≤ (num : ℚ) / den := by
    rw [zpow_zero, one_le_div₀ hd']
    exact_mod_cast h
  have hpos : 0 < log2Ratio num den + 1 :=
    (zpow_lt_zpow_iff_right₀ one_lt_two).mp (hone.trans_lt hhigh)
  obtain ⟨e, he⟩ := Int.eq_ofNat_of_zero_le (by omega : 0 ≤ log2Ratio num den)
  rw [he, zpow_natCast, le_div_iff₀ hd', mul_comm] at hlow
  rw [he, ← Nat.cast_succ, zpow_natCast, div_lt_iff₀ hd', mul_comm] at hhigh
  exact ⟨e, he, by exact_mod_cast hlow, by exact_mod_cast hhigh⟩

/-- A ratio that is less than one has a negative logarithm. -/
theorem log2Ratio_neg {num den : Nat} (hn : 0 < num) (h : num < den) : log2Ratio num den < 0 := by
  obtain ⟨hlow, -⟩ := log2Ratio_bounds hn (hn.trans h)
  have hone : (num : ℚ) / den < (2 : ℚ) ^ (0 : Int) := by
    rw [zpow_zero, div_lt_one₀ (by exact_mod_cast hn.trans h)]
    exact_mod_cast h
  exact (zpow_lt_zpow_iff_right₀ one_lt_two).mp (hlow.trans_lt hone)

/-- With places behind the point, the part of the last unit has to be worth more than half of the
last place, or just half of it above an odd number. -/
theorem ceilNat_roundOn_neg {k r : Nat} (hr : r ≤ 1000) (j : Nat) :
    ceilNat (roundOn (1000 * k + r) 1000 (-j)) (-j) = k + 1 ↔
      1000 < 2 * (r * 2 ^ j) ∨ 2 * (r * 2 ^ j) = 1000 ∧ (k * 2 ^ j) % 2 = 1 := by
  have hle (s : Nat) : ceilNat (roundOn (1000 * k + r) 1000 (-j)) (-j) ≤ s ↔
      2 * ((1000 * k + r) * 2 ^ j) < (2 * (s * 2 ^ j) + 1) * 1000 ∨
        (s * 2 ^ j) % 2 = 0 ∧ 2 * ((1000 * k + r) * 2 ^ j) = (2 * (s * 2 ^ j) + 1) * 1000 := by
    rw [ceilNat_le_iff, roundOn, show (-(j : Int)).toNat = 0 by omega, Int.neg_neg,
      Int.toNat_natCast, pow_zero, Nat.mul_one, Nat.mul_one]
    exact roundDiv_le_iff (by decide)
  have hk := hle k
  have hk' := hle (k + 1)
  have hpart : r * 2 ^ j ≤ 1000 * 2 ^ j := Nat.mul_le_mul_right _ hr
  have hnum : (1000 * k + r) * 2 ^ j = 1000 * (k * 2 ^ j) + r * 2 ^ j := by ring
  have hnext : (k + 1) * 2 ^ j = k * 2 ^ j + 2 ^ j := by ring
  rw [hnum] at hk hk'
  rw [hnext] at hk'
  omega

/-- On a grid of several units the end of the last one has to be on the grid itself. -/
theorem ceilNat_roundOn_pos {k r j : Nat} (hr : 0 < r) (hr' : r ≤ 1000) (hj : 0 < j) :
    ceilNat (roundOn (1000 * k + r) 1000 j) j = k + 1 ↔ 2 ^ j ∣ k + 1 := by
  have hle (s : Nat) : ceilNat (roundOn (1000 * k + r) 1000 j) j ≤ s ↔
      roundDiv (1000 * k + r) (1000 * 2 ^ j) * 2 ^ j ≤ s := by
    rw [ceilNat_le_iff, roundOn, show (-(j : Int)).toNat = 0 by omega, Int.toNat_natCast, pow_zero,
      Nat.mul_one, Nat.mul_one]
  have hceil : ceilNat (roundOn (1000 * k + r) 1000 j) j =
      roundDiv (1000 * k + r) (1000 * 2 ^ j) * 2 ^ j :=
    eq_of_forall_ge_iff hle
  have hp : 2 ≤ 2 ^ j := Nat.le_self_pow hj.ne' 2
  rw [hceil]
  generalize 2 ^ j = p at hp ⊢
  constructor
  · intro h
    exact ⟨_, by rw [← h, Nat.mul_comm]⟩
  · rintro ⟨c, hc⟩
    have hround : roundDiv (1000 * k + r) (1000 * p) = c := by
      have hpos : 0 < 1000 * p := by omega
      have hcp : (2 * c + 1) * (1000 * p) = 2000 * (p * c) + 1000 * p := by ring
      refine Nat.le_antisymm ((roundDiv_le_iff hpos).mpr (.inl (by omega))) ?_
      obtain ⟨d, rfl⟩ : ∃ d, c = d + 1 := Nat.exists_eq_succ_of_ne_zero (by rintro rfl; omega)
      have hdp : (2 * d + 1) * (1000 * p) = 2000 * (p * d) + 1000 * p := by ring
      rw [Nat.mul_add, Nat.mul_one] at hc
      by_contra hlt
      have hround : roundDiv (1000 * k + r) (1000 * p) ≤ d := by omega
      have hbelow := (roundDiv_le_iff hpos).mp hround
      omega
    rw [hround, hc, Nat.mul_comm]

end Binary64

namespace Php

/-! ### The seconds of a timeout -/

/-- A number of seconds is the least one that is not less than a time in milliseconds. -/
def RoundedUp (seconds timeout : Nat) : Prop :=
  1000 * seconds < timeout + 1000 ∧ timeout ≤ 1000 * seconds

/-- The whole seconds that are over when the last one begins. -/
def secondsOver (timeout : Nat) : Nat := (timeout - 1) / 1000

/-- What is wanted of the last second, in milliseconds. -/
def lastPart (timeout : Nat) : Nat := timeout - 1000 * secondsOver timeout

/-- The last second is not lost: what is wanted of it is more than half of the distance between the
floating-point numbers at its beginning, or just half of it above an odd number. Beyond all numbers
with a place for the seconds, its end has to be a floating-point number. -/
def ReachesLastSecond (timeout : Nat) : Prop :=
  if secondsOver timeout < 2 ^ 53 then
    1000 * 2 ^ (secondsOver timeout).log2 < 2 ^ 53 * lastPart timeout ∨
      lastPart timeout = 500 ∧ secondsOver timeout % 2 = 1
  else
    secondsOver timeout + 1 < 2 ^ 1024 ∧
      2 ^ ((secondsOver timeout + 1).log2 - 52) ∣ secondsOver timeout + 1

instance (timeout : Nat) : Decidable (ReachesLastSecond timeout) := by
  unfold ReachesLastSecond
  infer_instance

theorem roundedUp_iff {seconds timeout : Nat} (h : 0 < timeout) :
    RoundedUp seconds timeout ↔ seconds = secondsOver timeout + 1 := by
  unfold RoundedUp secondsOver
  omega

theorem lastPart_spec {timeout : Nat} (h : 0 < timeout) :
    timeout = 1000 * secondsOver timeout + lastPart timeout ∧ 0 < lastPart timeout ∧
      lastPart timeout ≤ 1000 := by
  unfold lastPart secondsOver
  omega

theorem seconds?_eq_some_iff {timeout seconds : Nat} (h : 0 < timeout) :
    seconds? timeout = some seconds ↔ timeout < Binary64.overflowBound * 1000 ∧
      Binary64.ceilNat (Binary64.roundOn timeout 1000 (Binary64.gridExponent timeout 1000))
        (Binary64.gridExponent timeout 1000) = seconds := by
  rw [← isSome_seconds?_iff]
  unfold seconds?
  cases hratio : Binary64.ofRatio false timeout 1000 with
  | nan => simp
  | infinity negative => simp
  | finite negative m q => simp [← Binary64.ceilNat_of_ofRatio h.ne' hratio]

theorem gridExponent_of_lt {timeout : Nat} (h : 0 < timeout) (hlt : timeout < 1000) :
    ∃ j : Nat, 52 ≤ j ∧ Binary64.gridExponent timeout 1000 = -j := by
  have hneg := Binary64.log2Ratio_neg h hlt
  have hgrid : Binary64.gridExponent timeout 1000 =
      max (Binary64.log2Ratio timeout 1000 - 52) (-1074) := rfl
  exact ⟨(-Binary64.gridExponent timeout 1000).toNat, by omega, by omega⟩

theorem gridExponent_of_le {timeout : Nat} (hle : 1000 ≤ timeout) : ∃ e : Nat,
    1000 * 2 ^ e ≤ timeout ∧ timeout < 1000 * 2 ^ (e + 1) ∧
      Binary64.gridExponent timeout 1000 = e - 52 := by
  obtain ⟨e, he, hlow, hhigh⟩ := Binary64.exists_log2Ratio (by decide) hle
  have hgrid : Binary64.gridExponent timeout 1000 =
      max (Binary64.log2Ratio timeout 1000 - 52) (-1074) := rfl
  exact ⟨e, hlow, hhigh, by omega⟩

/-- Doubling by the places behind the point turns the last part into one that can be compared. -/
theorem lastPart_iff {k r e : Nat} (he : e ≤ 52) (hk : k.log2 = e) :
    (1000 < 2 * (r * 2 ^ (52 - e)) ∨ 2 * (r * 2 ^ (52 - e)) = 1000 ∧ (k * 2 ^ (52 - e)) % 2 = 1) ↔
      1000 * 2 ^ k.log2 < 2 ^ 53 * r ∨ r = 500 ∧ k % 2 = 1 := by
  have hsplit : 2 ^ 53 * r = 2 * (r * 2 ^ (52 - e)) * 2 ^ e := by
    have hpow : (2 : Nat) ^ 53 = 2 * (2 ^ (52 - e) * 2 ^ e) := by
      rw [← pow_add, Nat.sub_add_cancel he]
      exact pow_succ' 2 52
    rw [hpow]
    ring
  rw [hk, hsplit, Nat.mul_lt_mul_right (Nat.two_pow_pos e)]
  rcases Nat.eq_zero_or_eq_succ_pred (52 - e) with hj | hj
  · rw [hj, pow_zero]
    omega
  · have hpos : 0 < 2 ^ (52 - e).pred := Nat.two_pow_pos _
    rw [hj, pow_succ, ← Nat.mul_assoc k, ← Nat.mul_assoc r]
    constructor
    · omega
    · rintro (hmore | ⟨rfl, -⟩) <;> omega

/-- The grid below a power of two holds its multiples, and the power itself as well. -/
theorem pow_log2_dvd_iff {n e : Nat} (hlow : 2 ^ e ≤ n) (hhigh : n ≤ 2 ^ (e + 1)) :
    2 ^ (n.log2 - 52) ∣ n ↔ 2 ^ (e - 52) ∣ n := by
  rcases hhigh.lt_or_eq with hlt | rfl
  · have hlog : n.log2 = e :=
      (Nat.log2_eq_iff (by have := Nat.two_pow_pos e; omega)).mpr ⟨hlow, hlt⟩
    rw [hlog]
  · rw [Nat.log2_two_pow]
    exact iff_of_true (pow_dvd_pow 2 (by omega)) (pow_dvd_pow 2 (by omega))

/-- On the grid, the last second overflows together with its end. -/
theorem lt_overflowBound_iff {timeout k e : Nat} (hlow : 2 ^ e ≤ k + 1)
    (hhigh : k + 1 ≤ 2 ^ (e + 1)) (hdvd : 2 ^ (e - 52) ∣ k + 1) (hk : 1000 * k < timeout)
    (hk' : timeout ≤ 1000 * (k + 1)) :
    timeout < Binary64.overflowBound * 1000 ↔ k + 1 < 2 ^ 1024 := by
  have hbound : Binary64.overflowBound = (2 ^ 54 - 1) * 2 ^ 970 := rfl
  have htop : (2 : Nat) ^ 1024 = 2 ^ 54 * 2 ^ 970 := by rw [← pow_add]
  have hpos : 0 < 2 ^ 970 := by positivity
  rw [hbound, htop]
  constructor
  · intro h
    omega
  · intro h
    have he : e < 1024 := by
      by_contra hge
      have hmono : 2 ^ 1024 ≤ 2 ^ e := pow_le_pow_right₀ (by decide) (not_lt.mp hge)
      omega
    rcases Nat.lt_or_ge e 1023 with hlt | hge
    · have hmono : 2 ^ (e + 1) ≤ 2 ^ 1023 := pow_le_pow_right₀ (by decide) (by omega)
      have hhalf : (2 : Nat) ^ 1023 = 2 ^ 53 * 2 ^ 970 := by rw [← pow_add]
      omega
    · obtain rfl : e = 1023 := by omega
      obtain ⟨c, hc⟩ := hdvd
      have hgap : (2 : Nat) ^ (1023 - 52) = 2 * 2 ^ 970 := by rw [← pow_succ']
      rw [hgap] at hc
      generalize 2 ^ 970 = p at *
      have hcp : c < 2 ^ 53 := by
        by_contra hcge
        have hmul : 2 * p * 2 ^ 53 ≤ 2 * p * c := Nat.mul_le_mul_left _ (not_lt.mp hcge)
        omega
      have hmul : 2 * p * c ≤ 2 * p * (2 ^ 53 - 1) := Nat.mul_le_mul_left _ (by omega)
      omega

/-! ### Whether the last second is reached -/

theorem lt_overflow_of_lt {timeout : Nat} (h : timeout ≤ 1000 * 2 ^ 53) :
    timeout < Binary64.overflowBound * 1000 := by
  have hbound : Binary64.overflowBound = (2 ^ 54 - 1) * 2 ^ 970 := rfl
  have hpos : 0 < 2 ^ 970 := by positivity
  rw [hbound]
  omega

/-- All of a second is more than half of any distance. -/
theorem pow_log2_lt {k : Nat} (hk : k < 2 ^ 53) : 1000 * 2 ^ k.log2 < 2 ^ 53 * 1000 := by
  rcases Nat.eq_zero_or_pos k with rfl | hpos
  · decide
  · have hle := Nat.log2_self_le hpos.ne'
    omega

/-- Up to a second nothing is lost. -/
theorem seconds?_of_lt {timeout : Nat} (h : 0 < timeout) (hlt : timeout < 1000) :
    seconds? timeout = some (secondsOver timeout + 1) ∧ ReachesLastSecond timeout := by
  have hover : secondsOver timeout = 0 := by unfold secondsOver; omega
  have hpart : lastPart timeout = timeout := by unfold lastPart; omega
  obtain ⟨j, hj, hgrid⟩ := gridExponent_of_lt h hlt
  refine ⟨(seconds?_eq_some_iff h).mpr ⟨lt_overflow_of_lt (by omega), ?_⟩, ?_⟩
  · have hceil := Binary64.ceilNat_roundOn_neg (k := 0) hlt.le j
    rw [Nat.mul_zero, Nat.zero_add] at hceil
    rw [hover, hgrid, hceil]
    have hpow : 2 ^ 52 ≤ 2 ^ j := Nat.pow_le_pow_right (by decide) hj
    have hmul : 1 * 2 ^ j ≤ timeout * 2 ^ j := Nat.mul_le_mul_right _ h
    exact .inl (by omega)
  · unfold ReachesLastSecond
    rw [hover, hpart, if_pos (by decide)]
    exact .inl (by simp; omega)

/-- With places behind the point the end of the last second can be reached. -/
theorem seconds?_of_fraction {timeout e : Nat} (hlow : 1000 * 2 ^ e ≤ timeout)
    (hhigh : timeout < 1000 * 2 ^ (e + 1)) (he : e ≤ 52)
    (hgrid : Binary64.gridExponent timeout 1000 = e - 52) :
    seconds? timeout = some (secondsOver timeout + 1) ↔ ReachesLastSecond timeout := by
  have hpow : 2 ^ (e + 1) ≤ 2 ^ 53 := Nat.pow_le_pow_right (by decide) (by omega)
  have hpos : 0 < 2 ^ e := Nat.two_pow_pos e
  have h : 0 < timeout := by omega
  obtain ⟨ht, hr, hr'⟩ := lastPart_spec h
  have hexponent : (e : Int) - 52 = -((52 - e : Nat) : Int) := by omega
  rw [hexponent] at hgrid
  rw [seconds?_eq_some_iff h, hgrid, and_iff_right (lt_overflow_of_lt (by omega))]
  unfold ReachesLastSecond
  generalize secondsOver timeout = k at *
  generalize lastPart timeout = r at *
  subst ht
  rw [if_pos (by omega), Binary64.ceilNat_roundOn_neg hr']
  rcases Nat.lt_or_ge k (2 ^ e) with hlt | hge
  · -- all of the last second is wanted
    obtain rfl : r = 1000 := by omega
    have hpos : 0 < 2 ^ (52 - e) := Nat.two_pow_pos _
    exact iff_of_true (.inl (by omega)) (.inl (pow_log2_lt (by omega)))
  · have hlog : k.log2 = e :=
      (Nat.log2_eq_iff (by omega)).mpr ⟨hge, by omega⟩
    exact lastPart_iff he hlog

/-- Beyond the numbers with places behind the point, the end of the last second is reached if it is
one of the numbers that are left. -/
theorem seconds?_of_whole {timeout e : Nat} (hlow : 1000 * 2 ^ e ≤ timeout)
    (hhigh : timeout < 1000 * 2 ^ (e + 1)) (he : 53 ≤ e)
    (hgrid : Binary64.gridExponent timeout 1000 = e - 52) :
    seconds? timeout = some (secondsOver timeout + 1) ↔ ReachesLastSecond timeout := by
  have hpow : 2 ^ 53 ≤ 2 ^ e := Nat.pow_le_pow_right (by decide) he
  have h : 0 < timeout := by omega
  obtain ⟨ht, hr, hr'⟩ := lastPart_spec h
  have hexponent : (e : Int) - 52 = ((e - 52 : Nat) : Int) := by omega
  rw [hexponent] at hgrid
  rw [seconds?_eq_some_iff h, hgrid]
  unfold ReachesLastSecond
  generalize secondsOver timeout = k at *
  generalize lastPart timeout = r at *
  subst ht
  rw [Binary64.ceilNat_roundOn_pos hr hr' (by omega)]
  split
  · next hk =>
    -- all of the last second is wanted, and it ends at a power of two
    obtain rfl : r = 1000 := by omega
    have hend : k + 1 = 2 ^ e := by omega
    have hdvd : 2 ^ (e - 52) ∣ k + 1 := hend ▸ pow_dvd_pow 2 (Nat.sub_le e 52)
    exact iff_of_true ⟨lt_overflow_of_lt (by omega), hdvd⟩ (.inl (pow_log2_lt hk))
  · next hk =>
    have hk' : k + 1 ≤ 2 ^ (e + 1) := by omega
    rw [pow_log2_dvd_iff (by omega) hk']
    exact and_congr_left fun hdvd =>
      lt_overflowBound_iff (by omega) hk' hdvd (by omega) (by omega)

theorem seconds?_iff {timeout : Nat} (h : 0 < timeout) :
    seconds? timeout = some (secondsOver timeout + 1) ↔ ReachesLastSecond timeout := by
  rcases Nat.lt_or_ge timeout 1000 with hlt | hge
  · exact iff_of_true (seconds?_of_lt h hlt).1 (seconds?_of_lt h hlt).2
  · obtain ⟨e, hlow, hhigh, hgrid⟩ := gridExponent_of_le hge
    rcases Nat.lt_or_ge e 53 with he | he
    · exact seconds?_of_fraction hlow hhigh (by omega) hgrid
    · exact seconds?_of_whole hlow hhigh he hgrid

/-- For half a million years nothing is lost: there are ten places and more behind the point. -/
theorem reachesLastSecond_of_le {timeout : Nat} (h : 0 < timeout) (hle : timeout ≤ 1000 * 2 ^ 44) :
    ReachesLastSecond timeout := by
  obtain ⟨ht, hr, -⟩ := lastPart_spec h
  unfold ReachesLastSecond
  generalize secondsOver timeout = k at *
  generalize lastPart timeout = r at *
  rw [if_pos (by omega)]
  have hlog : 2 ^ k.log2 ≤ 2 ^ 43 := by
    rcases Nat.eq_zero_or_pos k with rfl | hk
    · decide
    · exact Nat.pow_le_pow_right (by decide)
        (Nat.le_of_lt_succ ((Nat.log2_lt hk.ne').mpr (by omega)))
  exact .inl (by omega)

/-! ### The configuration -/

/-- The statement that configures a request with a timeout. -/
def configText (indent : Text) (seconds : Nat) (redirect : Bool) : Text :=
  "$request->setConfig(array(\n" ++ indent ++ "'timeout' => " ++ Text.ofNat seconds ++
    (if redirect then ",\n" ++ indent ++ "'redirect' => TRUE" else []) ++ "\n));\n"

theorem configText_injective {indent : Text} {s s' : Nat} {redirect : Bool}
    (h : configText indent s redirect = configText indent s' redirect) : s = s' := by
  unfold configText at h
  simp only [List.append_assoc] at h
  have hdigits : Text.ofNat s = Text.ofNat s' := by
    simpa only [List.append_cancel_left_eq, List.append_cancel_right_eq] using h
  rw [← Json.digitsValue_ofNat s, hdigits, Json.digitsValue_ofNat]

/-- The entries of a configuration with a timeout. -/
def configEntries (seconds : Nat) (redirect : Bool) : List Fragment :=
  [arrow "timeout" [.code (Text.ofNat seconds)]] ++
    if redirect then [arrow "redirect" "TRUE"] else []

theorem configLines_eq_ok_iff {o : Options} (h : 0 < o.requestTimeout) {p : Program} :
    configLines o = .ok p ↔ ∃ s, seconds? o.requestTimeout = some s ∧
      p = arraySetter "setConfig" (configEntries s o.followRedirect) := by
  unfold configLines timeoutEntries
  rw [if_neg h.ne']
  cases seconds? o.requestTimeout with
  | none => exact iff_of_false (fun h => nomatch h) (fun ⟨_, h, _⟩ => nomatch h)
  | some s =>
    constructor
    · rintro ⟨⟩
      exact ⟨s, rfl, rfl⟩
    · rintro ⟨_, ⟨⟩, rfl⟩
      rfl

theorem render_configEntries (indent : Text) (s : Nat) (redirect : Bool) :
    (arraySetter "setConfig" (configEntries s redirect)).render indent =
      configText indent s redirect := by
  have hone : Text.repeated 1 indent = indent := List.append_nil indent
  have hzero : Text.repeated 0 indent = [] := rfl
  have hnil : Fragment.render indent [] = [] := rfl
  have hopening : "$request->setConfig(array(\n".toList =
      "$request->".toList ++ "setConfig".toList ++ "(".toList ++ "array(".toList ++ ['\n'] := by
    decide
  have htimeout : "'timeout' => ".toList =
      '\'' :: (Dialect.php.escape "timeout" ++ ['\''] ++ " => ".toList) := by decide
  have hredirect : "'redirect' => TRUE".toList =
      '\'' :: (Dialect.php.escape "redirect" ++ ['\''] ++ " => ".toList ++ "TRUE".toList) := by
    decide
  have hcomma : ",\n".toList = ",".toList ++ ['\n'] := by decide
  have hclosing : "\n));\n".toList = '\n' :: (")".toList ++ ");".toList ++ ['\n']) := by decide
  unfold configText configEntries
  rw [hopening, htimeout, hredirect, hcomma, hclosing]
  cases redirect <;>
    simp only [arraySetter, setter, array, arrow, quoted, Program.render, Line.render,
      Fragment.renderAt, Fragment.commaLines, Fragment.join, Fragment.render_cons, Piece.render,
      hone, hzero, hnil, List.cons_append, List.nil_append, List.append_assoc, List.append_nil,
      List.isEmpty_cons, Bool.false_eq_true, if_false, if_true, List.flatMap_cons,
      List.flatMap_nil, List.intercalate_singleton, List.intercalate_cons_cons]

/-- With a timeout, what is written holds the least number of seconds that is not less than it,
exactly if there is room for the indentation and the last second is reached. -/
theorem configText_roundedUp_iff [Host] {o : Options} (h : 0 < o.requestTimeout) :
    (∃ indent p s, Converter.indentOf o = .ok indent ∧ configLines o = .ok p ∧
      p.render indent = configText indent s o.followRedirect ∧ RoundedUp s o.requestTimeout) ↔
    o.indentCount ≤ Host.maxIndent ∧ ReachesLastSecond o.requestTimeout := by
  simp only [configLines_eq_ok_iff h, roundedUp_iff h, Converter.indentOf, mapError_eq_ok,
    indentation_eq_ok, ← seconds?_iff h]
  constructor
  · rintro ⟨_, _, _, ⟨hcount, -⟩, ⟨s, hs, rfl⟩, htext, rfl⟩
    rw [render_configEntries] at htext
    rw [← configText_injective htext]
    exact ⟨hcount, hs⟩
  · rintro ⟨hcount, hs⟩
    exact ⟨_, _, _, ⟨hcount, rfl⟩, ⟨_, hs, rfl⟩, render_configEntries _ _ _, rfl⟩

section

attribute [local instance] Host.usual

/-- Half of a second is wanted, in the middle between two floating-point numbers: the lower one is
odd, so the upper one is taken. -/
theorem configText_roundedUp_of_middle :
    let o : Options := { requestTimeout := 1000 * (2 ^ 52 + 1) + 500 }
    0 < o.requestTimeout ∧
      ∃ indent p s, Converter.indentOf o = .ok indent ∧ configLines o = .ok p ∧
        p.render indent = configText indent s o.followRedirect ∧ RoundedUp s o.requestTimeout := by
  intro o
  have h : 0 < o.requestTimeout := by decide
  exact ⟨h, (configText_roundedUp_iff h).mpr ⟨by decide, by decide +kernel⟩⟩

/-- One millisecond is wanted of the last second, and it is lost. -/
theorem not_configText_roundedUp_of_millisecond :
    let o : Options := { requestTimeout := 1000 * 2 ^ 44 + 1 }
    ¬ ∃ indent p s, Converter.indentOf o = .ok indent ∧ configLines o = .ok p ∧
      p.render indent = configText indent s o.followRedirect ∧ RoundedUp s o.requestTimeout := by
  rintro o ⟨indent, p, s, -, hp, htext, hs⟩
  have h : 0 < o.requestTimeout := by decide
  have hseconds : seconds? o.requestTimeout = some (2 ^ 44) := by decide +kernel
  obtain ⟨_, hsome, rfl⟩ := (configLines_eq_ok_iff h).mp hp
  obtain rfl := Option.some.inj (hseconds.symm.trans hsome)
  rw [render_configEntries] at htext
  obtain rfl := configText_injective htext
  exact absurd hs.2 (by decide)

end

end Php
end HttpSnippet

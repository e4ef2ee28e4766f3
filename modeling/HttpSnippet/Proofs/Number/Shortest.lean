import Mathlib.Tactic.FieldSimp
import HttpSnippet.Number.Shortest
import HttpSnippet.Proofs.Number.Rounding

/-!
# Shortest decimals round back

Whatever decimal the search for the fewest digits ends with, it lies in the interval of the number
it was searched for. So reading it gives the number back, also where the search finds nothing and
the exact value is taken.
-/
namespace HttpSnippet.Binary64

/-- The number that a decimal stands for. -/
def Decimal.value (d : Decimal) : ℚ := d.digits * 10 ^ d.exponent

/-- The numbers on both sides of a comparison, each multiplied by the same positive number. -/
theorem scaled_eq (a : Nat) (i : Int) (n : Nat) (j : Int) :
    ∃ c : ℚ, 0 < c ∧
      ((a * 10 ^ i.toNat * 2 ^ (-j).toNat : Nat) : ℚ) = a * 10 ^ i * c ∧
      ((n * 2 ^ j.toNat * 10 ^ (-i).toNat : Nat) : ℚ) = n * 2 ^ j * c := by
  have h10 : (10 : ℚ) ^ i = (10 ^ i.toNat : Nat) / (10 ^ (-i).toNat : Nat) := by
    exact_mod_cast zpow_eq_div (b := 10) (by decide) i
  have h2 : (2 : ℚ) ^ j = (2 ^ j.toNat : Nat) / (2 ^ (-j).toNat : Nat) := by
    exact_mod_cast zpow_eq_div (b := 2) (by decide) j
  refine ⟨(10 ^ (-i).toNat : Nat) * (2 ^ (-j).toNat : Nat), by positivity, ?_, ?_⟩
  · rw [h10]
    push_cast
    field_simp
  · rw [h2]
    push_cast
    field_simp

theorem compareScaled_eq_gt {a : Nat} {i : Int} {n : Nat} {j : Int}
    (h : compareScaled a i n j = .gt) : (n : ℚ) * 2 ^ j < a * 10 ^ i := by
  obtain ⟨c, hc, ha, hn⟩ := scaled_eq a i n j
  have hlt : ((n * 2 ^ j.toNat * 10 ^ (-i).toNat : Nat) : ℚ) <
      (a * 10 ^ i.toNat * 2 ^ (-j).toNat : Nat) := by
    exact_mod_cast Nat.compare_eq_gt.mp h
  rw [ha, hn] at hlt
  exact lt_of_mul_lt_mul_right hlt hc.le

theorem compareScaled_eq_lt {a : Nat} {i : Int} {n : Nat} {j : Int}
    (h : compareScaled a i n j = .lt) : (a : ℚ) * 10 ^ i < n * 2 ^ j := by
  obtain ⟨c, hc, ha, hn⟩ := scaled_eq a i n j
  have hlt : ((a * 10 ^ i.toNat * 2 ^ (-j).toNat : Nat) : ℚ) <
      (n * 2 ^ j.toNat * 10 ^ (-i).toNat : Nat) := by
    exact_mod_cast Nat.compare_eq_lt.mp h
  rw [ha, hn] at hlt
  exact lt_of_mul_lt_mul_right hlt hc.le

theorem compareScaled_eq_eq {a : Nat} {i : Int} {n : Nat} {j : Int}
    (h : compareScaled a i n j = .eq) : (a : ℚ) * 10 ^ i = n * 2 ^ j := by
  obtain ⟨c, hc, ha, hn⟩ := scaled_eq a i n j
  have heq : ((a * 10 ^ i.toNat * 2 ^ (-j).toNat : Nat) : ℚ) =
      (n * 2 ^ j.toNat * 10 ^ (-i).toNat : Nat) := by
    exact_mod_cast Nat.compare_eq_eq.mp h
  rw [ha, hn] at heq
  exact mul_right_cancel₀ hc.ne' heq

/-- The test of the search admits decimals in the interval only. -/
theorem roundsTo_of_readsBack {m : Nat} {q : Int} {d : Decimal} (hm : 0 < m)
    (h : readsBack m q d = true) : RoundsTo d.value m q := by
  have hquarter : (2 : ℚ) ^ (q - 2) = 2 ^ q / 4 := by
    rw [zpow_sub₀ two_ne_zero]
    norm_num
  have hlow : ((if m = 2 ^ 52 ∧ minExponent < q then 4 * m - 1 else 4 * m - 2 : Nat) : ℚ) *
      2 ^ (q - 2) = lowEnd m q := by
    rw [hquarter]
    unfold lowEnd
    split_ifs
    · rw [Nat.cast_sub (by omega)]
      push_cast
      ring
    · rw [Nat.cast_sub (by omega)]
      push_cast
      ring
  have hhigh : ((4 * m + 2 : Nat) : ℚ) * 2 ^ (q - 2) = highEnd m q := by
    rw [hquarter, highEnd]
    push_cast
    ring
  unfold readsBack at h
  simp only [Bool.and_eq_true, Bool.or_eq_true, beq_iff_eq, decide_eq_true_eq] at h
  obtain ⟨hbelow, habove⟩ := h
  constructor
  · rw [← hlow]
    exact hbelow.imp compareScaled_eq_gt fun h => ⟨h.1, (compareScaled_eq_eq h.2).symm⟩
  · rw [← hhigh]
    exact habove.imp compareScaled_eq_lt fun h => ⟨h.1, compareScaled_eq_eq h.2⟩

theorem readsBack_of_nearestOn {m : Nat} {q i : Int} {d : Decimal}
    (h : nearestOn m q i = some d) : readsBack m q d = true := by
  unfold nearestOn at h
  dsimp only at h
  split at h
  · next hdown =>
    split at h
    · next hup =>
      split at h
      · obtain rfl := Option.some.inj h
        exact hdown
      · obtain rfl := Option.some.inj h
        exact hup
      · split at h
        · obtain rfl := Option.some.inj h
          exact hdown
        · obtain rfl := Option.some.inj h
          exact hup
    · obtain rfl := Option.some.inj h
      exact hdown
  · split at h
    · next hup =>
      obtain rfl := Option.some.inj h
      exact hup
    · cases h

theorem value_exactDecimal (m : Nat) (q : Int) : (exactDecimal m q).value = m * 2 ^ q := by
  unfold exactDecimal Decimal.value
  rcases Int.le_total 0 q with hq | hq
  · obtain ⟨n, rfl⟩ := Int.eq_ofNat_of_zero_le hq
    rw [min_eq_right hq]
    simp
  · obtain ⟨n, hn⟩ := Int.eq_ofNat_of_zero_le (Int.neg_nonneg_of_nonpos hq)
    obtain rfl : q = -(n : Int) := by omega
    have hten : (10 : ℚ) ^ n = 2 ^ n * 5 ^ n := by
      rw [← mul_pow]
      norm_num
    rw [min_eq_left hq, zpow_neg, zpow_neg, zpow_natCast, zpow_natCast, hten]
    simp
    field_simp

/-- A number lies in its own interval. -/
theorem roundsTo_self {m : Nat} {q : Int} : RoundsTo (m * 2 ^ q) m q := by
  have hpos : (0 : ℚ) < 2 ^ q := by positivity
  refine ⟨.inl ?_, .inl ?_⟩
  · unfold lowEnd
    split_ifs
    · nlinarith
    · nlinarith
  · unfold highEnd
    nlinarith

theorem Decimal.value_stripZeros (d : Decimal) : d.stripZeros.value = d.value := by
  fun_induction Decimal.stripZeros d with
  | case1 d h => rfl
  | case2 d h h' ih =>
    have hdigits : (d.digits : ℚ) = (d.digits / 10 : Nat) * 10 := by
      exact_mod_cast (Nat.div_mul_cancel (Nat.dvd_of_mod_eq_zero h')).symm
    rw [ih, value, value, hdigits, zpow_add_one₀ (by norm_num)]
    ring
  | case3 d h h' => rfl

/-- The decimal that a number is written with lies in its interval. -/
theorem roundsTo_shortest {m : Nat} {q : Int} (hm : 0 < m) :
    RoundsTo (shortest m q).value m q := by
  unfold shortest
  dsimp only
  rw [Decimal.value_stripZeros]
  cases hfound : (List.range 17).findSome? fun (n : Nat) => nearestOn m q (scale m q - (n + 1)) with
  | none =>
    rw [Option.getD_none, value_exactDecimal]
    exact roundsTo_self
  | some d =>
    obtain ⟨n, -, hn⟩ := List.exists_of_findSome?_eq_some hfound
    exact roundsTo_of_readsBack hm (readsBack_of_nearestOn hn)

end HttpSnippet.Binary64

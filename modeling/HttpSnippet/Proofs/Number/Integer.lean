import HttpSnippet.Number.Integer
import HttpSnippet.Proofs.Text.Blank

/-!
# Which runs of digits are integers

A text of digits is an integer exactly if each of them is a decimal digit and there are not too many
of them. Characters such as superscripts count as digits and are part of no integer.
-/
namespace HttpSnippet

namespace Text

/-- The decimal digits as ranges. -/
def decimalRanges : List (Nat × Nat) := decimalZeros.map fun first => (first, first + 9)

theorem isSome_decimalValue? (c : Char) :
    (decimalValue? c).isSome = inRanges decimalRanges c.toNat := by
  rw [decimalValue?, Option.isSome_map, inRanges, decimalRanges, List.any_map, Bool.eq_iff_iff]
  simp only [List.find?_isSome, List.any_eq_true, Function.comp_apply]

theorem isDigit_eq_inRanges (c : Char) :
    isDigit c = inRanges (decimalRanges ++ otherDigitRanges) c.toNat := by
  rw [isDigit, isSome_decimalValue?, inRanges, inRanges, inRanges, List.any_append]

theorem apart_digits_blank : Apart (decimalRanges ++ otherDigitRanges) blankRanges := by decide

def isDecimal (c : Char) : Bool := (decimalValue? c).isSome

end Text

namespace Number

open Text (isDigit isDecimal)

theorem isBlank_of_isMargin {c : Char} (h : isMargin c = true) : Text.isBlank c = true := by
  unfold isMargin at h
  split at h
  · have hn : c.toNat = 0x20 ∨ 9 ≤ c.toNat ∧ c.toNat ≤ 13 := by
      simp only [Bool.or_eq_true, Bool.and_eq_true, decide_eq_true_eq] at h
      exact h.imp (fun hc => by rw [hc]; rfl) id
    simp only [Text.isBlank, Text.inRanges, Text.blankRanges, List.any_cons, Bool.or_eq_true,
      Bool.and_eq_true, decide_eq_true_eq]
    omega
  · exact h

theorem isMargin_of_isDigit {c : Char} (h : isDigit c = true) : isMargin c = false := by
  rw [Text.isDigit_eq_inRanges] at h
  have hblank : Text.isBlank c = false := Text.apart_digits_blank.inRanges_eq_false h
  exact Bool.eq_false_iff.mpr fun hm => by simp [isBlank_of_isMargin hm] at hblank

variable {t : Text} (h : ∀ c ∈ t, isDigit c = true)
include h

/-- A run of digits goes up to the first one that is no decimal digit. -/
theorem digitRun_of_digits :
    digitRun true t =
      some ((t.takeWhile isDecimal).filterMap Text.decimalValue?, t.dropWhile isDecimal) := by
  induction t with
  | nil => rfl
  | cons c t ih =>
    obtain ⟨hc, ht⟩ := List.forall_mem_cons.mp h
    cases hd : Text.decimalValue? c with
    | some d =>
      have hdecimal : isDecimal c = true := by simp [isDecimal, hd]
      simp [digitRun, hd, ih ht, hdecimal]
    | none =>
      have hdecimal : isDecimal c = false := by simp [isDecimal, hd]
      have hmark : c ≠ '_' := by
        rintro rfl
        exact absurd hc (by decide)
      simp [digitRun, hd, hdecimal, hmark]

theorem all_isMargin_dropWhile :
    (t.dropWhile isDecimal).all isMargin = true ↔ ∀ c ∈ t, isDecimal c = true := by
  rw [← List.dropWhile_eq_nil_iff]
  constructor
  · intro hall
    cases hrest : t.dropWhile isDecimal with
    | nil => rfl
    | cons c rest =>
      have hc : c ∈ t := (List.dropWhile_suffix isDecimal).subset (by simp [hrest])
      simp [hrest, isMargin_of_isDigit (h c hc)] at hall
  · intro hnil
    rw [hnil]
    rfl

theorem readDigits_of_digits (ht : t ≠ []) :
    (∃ n, readDigits t = .ok n) ↔ (∀ c ∈ t, isDecimal c = true) ∧ t.length ≤ maxDigits := by
  obtain ⟨c, t, rfl⟩ := List.exists_cons_of_ne_nil ht
  obtain ⟨hc, ht⟩ := List.forall_mem_cons.mp h
  have hmark : c ≠ '_' := by
    rintro rfl
    exact absurd hc (by decide)
  rw [List.forall_mem_cons]
  unfold readDigits digitRun
  cases hd : Text.decimalValue? c with
  | none => simp [isDecimal, hd, hmark]
  | some d =>
    have hdecimal : isDecimal c = true := by simp [isDecimal, hd]
    rw [digitRun_of_digits ht, ← all_isMargin_dropWhile ht]
    simp only [Option.map_some, hdecimal, true_and, List.length_cons]
    by_cases hall : (t.dropWhile isDecimal).all isMargin = true
    · have hdecimals : ∀ c ∈ t, isDecimal c = true := (all_isMargin_dropWhile ht).mp hall
      rw [List.takeWhile_eq_self_iff.mpr hdecimals,
        List.filterMap_length_eq_length.mpr hdecimals, if_pos hall]
      by_cases hlong : maxDigits < t.length + 1
      · rw [if_pos hlong]
        exact iff_of_false (by simp) fun hshort => Nat.not_le.mpr hlong hshort.2
      · rw [if_neg hlong]
        exact iff_of_true ⟨_, rfl⟩ ⟨hall, Nat.le_of_not_lt hlong⟩
    · rw [if_neg hall]
      split <;> simp [hall]

/-- Digits have neither a sign nor a margin. -/
theorem readInteger_eq_of_digits (ht : t ≠ []) :
    readInteger t = (readDigits t).map Int.ofNat := by
  obtain ⟨c, t, rfl⟩ := List.exists_cons_of_ne_nil ht
  have hc : isDigit c = true := h c List.mem_cons_self
  have hminus : c ≠ '-' := by
    rintro rfl
    exact absurd hc (by decide)
  have hplus : c ≠ '+' := by
    rintro rfl
    exact absurd hc (by decide)
  unfold readInteger
  rw [List.dropWhile_cons_of_neg (by simp [isMargin_of_isDigit hc])]
  split
  · next heq => exact absurd (List.cons.inj heq).1 hminus
  · next heq => exact absurd (List.cons.inj heq).1 hplus
  · rfl

/-- A run of digits is an integer exactly if it is short enough and all of it is decimal. -/
theorem readInteger_of_digits (ht : t ≠ []) :
    (∃ n, readInteger t = .ok n) ↔ (∀ c ∈ t, isDecimal c = true) ∧ t.length ≤ maxDigits := by
  rw [← readDigits_of_digits h ht, readInteger_eq_of_digits h ht]
  cases readDigits t <;> simp [Except.map]

/-- The integer is no negative one. -/
theorem exists_nat_of_readInteger (ht : t ≠ []) {n : Int} (hn : readInteger t = .ok n) :
    ∃ m : Nat, n = m := by
  rw [readInteger_eq_of_digits h ht] at hn
  cases hread : readDigits t with
  | error fault => simp [hread, Except.map] at hn
  | ok m =>
    rw [hread] at hn
    exact ⟨m, (Except.ok.inj hn).symm⟩

end Number
end HttpSnippet

import Mathlib.Data.List.DropRight
import HttpSnippet.Text.Blank
import HttpSnippet.Text.Case

/-!
# White space in texts

Stripping takes the white space at both ends, and nothing else. White space has no case, so a text
without any in lower case has none to be stripped.
-/
namespace HttpSnippet.Text

/-- No number lies in a range of both lists. -/
def Apart (ranges others : List (Nat × Nat)) : Prop :=
  ∀ a ∈ ranges, ∀ b ∈ others, a.2 < b.1 ∨ b.2 < a.1

instance (ranges others : List (Nat × Nat)) : Decidable (Apart ranges others) := by
  unfold Apart
  infer_instance

theorem Apart.inRanges_eq_false {ranges others : List (Nat × Nat)} (h : Apart ranges others)
    {n : Nat} (hn : inRanges ranges n = true) : inRanges others n = false := by
  rw [inRanges, List.any_eq_true] at hn
  rw [inRanges, List.any_eq_false]
  obtain ⟨a, ha, hna⟩ := hn
  intro b hb hnb
  simp only [Bool.and_eq_true, decide_eq_true_eq] at hna hnb
  have hapart := h a ha b hb
  omega

/-! ### Stripping -/

theorem stripLeft_eq_nil_iff {t : Text} : stripLeft t = [] ↔ ∀ c ∈ t, isBlank c = true :=
  List.dropWhile_eq_nil_iff

/-- Only white space goes from the front. -/
theorem exists_append_stripLeft (t : Text) :
    ∃ margin, (∀ c ∈ margin, isBlank c = true) ∧ t = margin ++ stripLeft t :=
  ⟨t.takeWhile isBlank, fun _ hc => List.mem_takeWhile_imp hc,
    List.takeWhile_append_dropWhile.symm⟩

/-- Nothing is left of a text exactly if it is white space throughout. -/
theorem strip_eq_nil_iff {t : Text} : strip t = [] ↔ ∀ c ∈ t, isBlank c = true := by
  rw [strip, List.reverse_eq_nil_iff, stripLeft_eq_nil_iff]
  simp only [List.mem_reverse]
  obtain ⟨margin, hmargin, ht⟩ := exists_append_stripLeft t
  constructor
  · intro h c hc
    rw [ht] at hc
    exact (List.mem_append.mp hc).elim (hmargin c) (h c)
  · intro h c hc
    refine h c ?_
    rw [ht]
    exact List.mem_append_right margin hc

theorem stripLeft_eq_self {t : Text} (h : ∀ c ∈ t, isBlank c = false) : stripLeft t = t := by
  cases t with
  | nil => rfl
  | cons c t => exact List.dropWhile_cons_of_neg (by simp [h c List.mem_cons_self])

theorem strip_eq_self {t : Text} (h : ∀ c ∈ t, isBlank c = false) : strip t = t := by
  have hreverse : ∀ c ∈ t.reverse, isBlank c = false := fun c hc => h c (List.mem_reverse.mp hc)
  rw [strip, stripLeft_eq_self h, stripLeft_eq_self hreverse, List.reverse_reverse]

theorem mem_stripLeft {c : Char} (hc : isBlank c = false) {t : Text} (h : c ∈ t) :
    c ∈ stripLeft t := by
  obtain ⟨margin, hmargin, ht⟩ := exists_append_stripLeft t
  rw [ht] at h
  refine (List.mem_append.mp h).resolve_left fun hmem => ?_
  have hblank := hmargin c hmem
  rw [hc] at hblank
  cases hblank

/-- Only white space goes from the end. -/
theorem mem_rdropWhile_isBlank {c : Char} (hc : isBlank c = false) {t : Text} (h : c ∈ t) :
    c ∈ t.rdropWhile isBlank :=
  List.mem_reverse.mpr (mem_stripLeft hc (List.mem_reverse.mpr h))

theorem mem_strip {c : Char} (hc : isBlank c = false) {t : Text} (h : c ∈ t) : c ∈ strip t :=
  mem_rdropWhile_isBlank hc (mem_stripLeft hc h)

/-- White space is looked for up to the first other character. -/
theorem stripLeft_append {c : Char} (hc : isBlank c = false) (s t : Text) :
    stripLeft (s ++ c :: t) = stripLeft s ++ c :: t := by
  have hstop : (c :: t).dropWhile isBlank = c :: t := List.dropWhile_cons_of_neg (by simp [hc])
  rw [stripLeft, List.dropWhile_append, hstop, stripLeft]
  split
  · next hempty => rw [List.isEmpty_iff.mp hempty, List.nil_append]
  · rfl

/-- Between two characters that are no white space nothing is stripped. -/
theorem strip_append {c d : Char} (hc : isBlank c = false) (hd : isBlank d = false)
    (front rest : Text) :
    strip (c :: (front ++ d :: rest)) = c :: (front ++ d :: rest.rdropWhile isBlank) := by
  have hfirst : stripLeft (c :: (front ++ d :: rest)) = c :: (front ++ d :: rest) :=
    List.dropWhile_cons_of_neg (by simp [hc])
  have hreverse : (c :: (front ++ d :: rest)).reverse =
      rest.reverse ++ d :: (front.reverse ++ [c]) := by simp
  rw [strip, hfirst, hreverse, stripLeft_append hd, stripLeft, List.rdropWhile]
  simp

/-! ### Lower case -/

theorem apart_blank_lowerRuns :
    Apart blankRanges (lowerRuns.map fun run => (run.first, run.last)) := by decide +kernel

theorem apart_blank_lowerExpansions :
    Apart blankRanges (lowerExpansions.map fun e => (e.1, e.1)) := by decide

/-- White space is its own lower case. -/
theorem mapCase_of_isBlank {c : Char} (hc : isBlank c = true) :
    mapCase lowerRuns lowerExpansions c = [c] := by
  have hruns : lowerRuns.find? (·.covers c.toNat) = none := by
    rw [List.find?_eq_none]
    intro run hrun hcovers
    have houtside := apart_blank_lowerRuns.inRanges_eq_false hc
    rw [inRanges, List.any_eq_false] at houtside
    refine houtside _ (List.mem_map_of_mem hrun) ?_
    simp only [CaseRun.covers, Bool.and_eq_true] at hcovers
    simpa using hcovers.1
  have hexpansions : lowerExpansions.find? (·.1 == c.toNat) = none := by
    rw [List.find?_eq_none]
    intro e he heq
    have houtside := apart_blank_lowerExpansions.inRanges_eq_false hc
    rw [inRanges, List.any_eq_false] at houtside
    exact houtside _ (List.mem_map_of_mem he) (by simp [eq_of_beq heq])
  rw [mapCase, hexpansions, hruns]

theorem mem_toLowerAfter {c : Char} (hc : isBlank c = true) (before : Text) {t : Text}
    (h : c ∈ t) : c ∈ toLowerAfter before t := by
  induction t generalizing before with
  | nil => exact absurd h List.not_mem_nil
  | cons d t ih =>
    rw [toLowerAfter]
    rcases List.mem_cons.mp h with rfl | h
    · have hsigma : c ≠ 'Σ' := by
        rintro rfl
        exact absurd hc (by decide)
      rw [if_neg hsigma, mapCase_of_isBlank hc]
      exact List.mem_append_left _ List.mem_cons_self
    · exact List.mem_append_right _ (ih _ h)

/-- There is nothing to strip from a text whose lower case has no white space. -/
theorem strip_eq_self_of_toLower {t : Text} (h : ∀ c ∈ t.toLower, isBlank c = false) :
    strip t = t := by
  refine strip_eq_self fun c hc => Bool.eq_false_iff.mpr fun hblank => ?_
  have hfalse := h c (mem_toLowerAfter hblank [] hc)
  simp [hblank] at hfalse

end HttpSnippet.Text

import Mathlib.Data.List.Permutation
import HttpSnippet.Snippet.Literal

/-!
# Escaping by replacements

A text can be escaped by replacing one character after another in the whole text, each in the
outcome of the replacements before. That comes to the same as escaping character by character as
long as no replacement puts in what a later one replaces. Every replacement puts in a backslash, so
the backslash has to be replaced first, and the order of the others does not matter.
-/
namespace HttpSnippet

namespace Text

/-- The text with `new` for every occurrence of a character. -/
def replaceChar (t : Text) (old : Char) (new : Text) : Text :=
  t.flatMap fun c => if c = old then new else [c]

/-- Replacements one after another, each in the outcome of those before. -/
def replaceInTurn (replacements : List (Char × Text)) (t : Text) : Text :=
  replacements.foldl (fun t (old, new) => t.replaceChar old new) t

variable {replacements : List (Char × Text)}

theorem flatMap_eq_self {f : Char → Text} {t : Text} (h : ∀ c ∈ t, f c = [c]) :
    t.flatMap f = t := by
  rw [List.flatMap_congr h, List.flatMap_singleton']

/-- What is put in for a character stays as it is, and the others are replaced as before. -/
theorem flatMap_replaceChar {old : Char} {new : Text} {f g : Char → Text} (hold : f old = new)
    (hnew : ∀ c ∈ new, g c = [c]) (hothers : ∀ c, c ≠ old → g c = f c) (t : Text) :
    (t.replaceChar old new).flatMap g = t.flatMap f := by
  rw [replaceChar, List.flatMap_assoc]
  refine List.flatMap_congr fun c _ => ?_
  by_cases h : c = old
  · rw [if_pos h, flatMap_eq_self hnew, h, hold]
  · rw [if_neg h, List.flatMap_singleton, hothers c h]

/-- If no replacement puts in what a later one replaces, each character of the text is replaced at
most once. -/
theorem replaceInTurn_eq_flatMap (hdistinct : (replacements.map (·.1)).Nodup)
    (hapart : replacements.Pairwise fun r s => s.1 ∉ r.2) {f : Char → Text}
    (hf : ∀ r ∈ replacements, f r.1 = r.2) (hother : ∀ c ∉ replacements.map (·.1), f c = [c])
    (t : Text) : replaceInTurn replacements t = t.flatMap f := by
  induction replacements generalizing f t with
  | nil => exact (flatMap_eq_self fun c _ => hother c List.not_mem_nil).symm
  | cons r rest ih =>
    obtain ⟨old, new⟩ := r
    obtain ⟨hold, hdistinct⟩ := List.nodup_cons.mp hdistinct
    obtain ⟨hnew, hapart⟩ := List.pairwise_cons.mp hapart
    obtain ⟨hfold, hf⟩ := List.forall_mem_cons.mp hf
    -- what is left to the replacements behind the first one
    let g (c : Char) : Text := if c = old then [c] else f c
    have hothers (c : Char) (h : c ≠ old) : g c = f c := if_neg h
    have hg : ∀ s ∈ rest, g s.1 = s.2 := by
      intro s hs
      have hne : s.1 ≠ old := fun e => hold (List.mem_map.mpr ⟨s, hs, e⟩)
      rw [hothers s.1 hne, hf s hs]
    have hgother : ∀ c ∉ rest.map (·.1), g c = [c] := by
      intro c hc
      by_cases h : c = old
      · exact if_pos h
      · rw [hothers c h, hother c (by simpa [h] using hc)]
    have hkept : ∀ c ∈ new, g c = [c] := by
      intro c hc
      refine hgother c fun hmem => ?_
      obtain ⟨s, hs, rfl⟩ := List.mem_map.mp hmem
      exact hnew s hs hc
    calc replaceInTurn ((old, new) :: rest) t
        = replaceInTurn rest (t.replaceChar old new) := rfl
      _ = (t.replaceChar old new).flatMap g := ih hdistinct hapart hg hgother _
      _ = t.flatMap f := flatMap_replaceChar hfold hkept hothers t

end Text

namespace Dialect

variable {d : Dialect}

/-- What is replaced inside a single-quoted literal, and by what. -/
def replacements : Dialect → List (Char × Text)
  | .javascript =>
    [('\\', ['\\', '\\']), ('\'', ['\\', '\'']), ('\n', ['\\', 'n']), ('\r', ['\\', 'r'])]
  | .php => [('\\', ['\\', '\\']), ('\'', ['\\', '\''])]

theorem escapeChar_of_mem : ∀ r ∈ d.replacements, d.escapeChar r.1 = r.2 := by
  cases d <;> decide

theorem escapeChar_of_not_mem {c : Char} (h : c ∉ d.replacements.map (·.1)) :
    d.escapeChar c = [c] := by
  unfold escapeChar
  split
  · exact absurd (by cases d <;> decide) h
  · exact absurd (by cases d <;> decide) h
  · exact absurd (by decide) h
  · exact absurd (by decide) h
  · rfl

/-- Once the backslash is replaced, no replacement puts in what a later one replaces. -/
theorem pairwise_of_backslash_first : ∀ order ∈ d.replacements.permutations',
    order.head?.map (·.1) = some '\\' → order.Pairwise fun r s => s.1 ∉ r.2 := by
  cases d <;> decide

/-- A replacement before that of the backslash has its own backslash replaced. -/
theorem exists_ne_of_backslash_later : ∀ order ∈ d.replacements.permutations',
    order.head?.map (·.1) ≠ some '\\' →
      ∃ r ∈ d.replacements, Text.replaceInTurn order [r.1] ≠ d.escape [r.1] := by
  cases d <;> decide

/-- The replacements come to escaping in exactly those orders in which the backslash is replaced
first. -/
theorem replaceInTurn_eq_escape_iff {order : List (Char × Text)} (h : order.Perm d.replacements) :
    (∀ t, Text.replaceInTurn order t = d.escape t) ↔ order.head?.map (·.1) = some '\\' := by
  have hmem : order ∈ d.replacements.permutations' := List.mem_permutations'.mpr h
  constructor
  · intro hall
    refine Classical.byContradiction fun hlater => ?_
    obtain ⟨r, -, hne⟩ := exists_ne_of_backslash_later order hmem hlater
    exact hne (hall [r.1])
  · intro hfirst t
    have hkeys := h.map (·.1)
    have hdistinct : (order.map (·.1)).Nodup :=
      hkeys.nodup_iff.mpr (by cases d <;> decide)
    refine Text.replaceInTurn_eq_flatMap hdistinct
      (pairwise_of_backslash_first order hmem hfirst)
      (fun r hr => escapeChar_of_mem r (h.mem_iff.mp hr)) (fun c hc => ?_) t
    exact escapeChar_of_not_mem (mt hkeys.mem_iff.mpr hc)

end Dialect
end HttpSnippet

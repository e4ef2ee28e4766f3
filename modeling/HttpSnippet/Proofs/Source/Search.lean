import HttpSnippet.Proofs.Source.Reader

/-!
# Places in a program

A reader that is after one statement of a program looks for the first tokens of it. What stands in
front is passed over as a whole if some token that is sought does not occur there. Literals are
single tokens, so a text that looks like the statement is no place for it.
-/
namespace HttpSnippet

/-- What follows the first place where the tokens stand. -/
def seek? (sought : List Token) : List Token → Option (List Token)
  | [] => none
  | t :: ts =>
    if sought.isPrefixOf (t :: ts) then some ((t :: ts).drop sought.length) else seek? sought ts

variable {sought : List Token}

theorem seek?_append (h : sought ≠ []) (ts : List Token) :
    seek? sought (sought ++ ts) = some ts := by
  obtain ⟨t, us, rfl⟩ := List.exists_cons_of_ne_nil h
  have hprefix : (t :: us).isPrefixOf (t :: (us ++ ts)) = true :=
    List.isPrefixOf_iff_prefix.mpr (List.prefix_append (t :: us) ts)
  rw [List.cons_append, seek?, if_pos hprefix, ← List.cons_append, List.drop_left]

/-- Tokens cannot stand across a separator that is not among them, nor in front of it if a mark of
theirs is missing there. -/
theorem not_prefix_append {mark separator : Token} (hmark : mark ∈ sought)
    (hseparator : separator ∉ sought) {front : List Token} (hfront : mark ∉ front)
    (rest : List Token) : ¬ sought <+: front ++ separator :: rest := by
  intro h
  by_cases hlength : sought.length ≤ front.length
  · have hwithin : sought <+: front :=
      List.prefix_of_prefix_length_le h (List.prefix_append _ _) hlength
    exact hfront (hwithin.subset hmark)
  · have hover : front ++ [separator] <+: sought := by
      refine List.prefix_of_prefix_length_le ?_ h (by simp; omega)
      exact ⟨rest, by simp⟩
    exact hseparator (hover.subset (by simp))

theorem seek?_passes {mark separator : Token} (hmark : mark ∈ sought)
    (hseparator : separator ∉ sought) {front : List Token} (hfront : mark ∉ front)
    (rest : List Token) : seek? sought (front ++ separator :: rest) = seek? sought rest := by
  induction front with
  | nil =>
    have hnot := not_prefix_append hmark hseparator hfront rest
    rw [List.nil_append] at hnot ⊢
    rw [seek?, if_neg (mt List.isPrefixOf_iff_prefix.mp hnot)]
  | cons t front ih =>
    have hnot := not_prefix_append hmark hseparator hfront rest
    rw [List.cons_append] at hnot ⊢
    rw [seek?, if_neg (mt List.isPrefixOf_iff_prefix.mp hnot),
      ih (List.not_mem_of_not_mem_cons hfront)]

/-! ### Characters in code -/

/-- Whether the character stands in the code of a piece. -/
def Piece.shows (c : Char) : Piece → Bool
  | .code t => t.contains c
  | .newline _ | .literal _ _ | .string _ _ | .verbatim _ => false

/-- Whether the code of a piece has no other characters than these. -/
def Piece.within (marks : Text) : Piece → Bool
  | .code t => t.all (marks.contains ·)
  | .newline _ | .literal _ _ | .string _ _ | .verbatim _ => true

theorem Piece.within_code {marks t : Text} : within marks (.code t) = true ↔ t ⊆ marks := by
  simp [within, List.subset_def]

theorem Piece.within_of_subset {marks wider : Text} (h : marks ⊆ wider) {p : Piece}
    (hp : p.within marks = true) : p.within wider = true := by
  cases p with
  | code t => exact within_code.mpr (List.Subset.trans (within_code.mp hp) h)
  | _ => rfl

theorem Piece.shows_of_within {marks : Text} {p : Piece} (h : p.within marks = true) {c : Char}
    (hc : c ∉ marks) : p.shows c = false := by
  cases p with
  | code t =>
    refine Bool.eq_false_iff.mpr fun hshows => hc (within_code.mp h ?_)
    simpa [shows] using hshows
  | _ => rfl

/-! ### Literals -/

/-- Whether a piece is a single-quoted literal with this inside. -/
def Piece.holds (name : Text) : Piece → Bool
  | .literal d t => d.escape t = name
  | .verbatim t => t = name
  | .code _ | .newline _ | .string _ _ => false

theorem Piece.literal_notMem_tokens {name : Text} (indent : Text) {p : Piece}
    (h : p.holds name = false) : .literal '\'' name ∉ p.tokens indent := by
  cases p <;> simp_all [holds, tokens, codeTokens, eq_comm]

theorem literal_notMem_flat {name : Text} (indent : Text) {p : Program}
    (h : ∀ l ∈ p, ∀ q ∈ l.content, Piece.holds name q = false) :
    .literal '\'' name ∉ (p.flat indent).tokens indent := by
  intro hmem
  obtain ⟨q, hq, hmem⟩ := List.mem_flatMap.mp hmem
  obtain ⟨l, hl, hq⟩ := List.mem_flatMap.mp hq
  refine Piece.literal_notMem_tokens indent ?_ hmem
  simp only [List.mem_append, List.mem_cons, List.not_mem_nil, or_false] at hq
  rcases hq with (rfl | hq) | rfl
  · rfl
  · exact h l hl q hq
  · rfl

/-! ### Missing tokens -/

variable {indent : Text} {c : Char}

theorem Fragment.code_notMem_tokens (hi : ∀ c ∈ indent, isSpacing c = true)
    (hc : isSpacing c = false) {f : Fragment} (h : ∀ p ∈ f, p.shows c = false) :
    .code c ∉ f.tokens indent := by
  intro hmem
  obtain ⟨p, hp, hmem⟩ := List.mem_flatMap.mp hmem
  have hshows := h p hp
  cases p with
  | code t => simp_all [Piece.tokens, codeTokens, Piece.shows]
  | newline level =>
    obtain ⟨b, hb, heq⟩ := List.mem_map.mp hmem
    obtain rfl := Token.code.inj heq
    rcases List.mem_cons.mp hb with rfl | hb
    · exact absurd hc (by decide)
    · rw [isSpacing_of_mem_repeated hi level b hb] at hc
      cases hc
  | _ => simp [Piece.tokens] at hmem

namespace Program

theorem code_notMem_tokens (hi : ∀ c ∈ indent, isSpacing c = true) (hc : isSpacing c = false)
    {p : Program} (h : ∀ l ∈ p, ∀ q ∈ l.content, q.shows c = false) :
    .code c ∉ (p.flat indent).tokens indent := by
  refine Fragment.code_notMem_tokens hi hc fun q hq => ?_
  obtain ⟨l, hl, hq⟩ := List.mem_flatMap.mp hq
  simp only [List.mem_append, List.mem_cons, List.not_mem_nil, or_false] at hq
  rcases hq with (rfl | hq) | rfl
  · refine Bool.eq_false_iff.mpr fun hshows => ?_
    have hmem : c ∈ Text.repeated l.level indent := by simpa [Piece.shows] using hshows
    rw [isSpacing_of_mem_repeated hi _ c hmem] at hc
    cases hc
  · exact h l hl q hq
  · refine Bool.eq_false_iff.mpr fun hshows => ?_
    obtain rfl : c = '\n' := by simpa [Piece.shows] using hshows
    exact absurd hc (by decide)

theorem flat_append (indent : Text) (p q : Program) :
    (p ++ q).flat indent = p.flat indent ++ q.flat indent := List.flatMap_append

/-- Whole lines are passed over if some mark of the tokens is missing there. -/
theorem seek?_flat {mark : Token} (hmark : mark ∈ sought) (hbreak : .code '\n' ∉ sought)
    {p : Program} (h : mark ∉ (p.flat indent).tokens indent) (rest : List Token) :
    seek? sought ((p.flat indent).tokens indent ++ rest) = seek? sought rest := by
  rcases List.eq_nil_or_concat p with rfl | ⟨p, l, rfl⟩
  · rfl
  · have hlines : Fragment.tokens indent (flat indent (p ++ [l])) =
        Fragment.tokens indent (flat indent p) ++
          Fragment.tokens indent (.code (Text.repeated l.level indent) :: l.content) ++
            [.code '\n'] := by
      rw [flat_append]
      simp only [Fragment.tokens, flat, List.flatMap_append, List.flatMap_cons, List.flatMap_nil,
        List.append_nil, List.append_assoc, List.cons_append]
      rfl
    rw [List.concat_eq_append, hlines, List.mem_append, not_or] at h
    rw [List.concat_eq_append, hlines, List.append_assoc, List.singleton_append,
      seek?_passes hmark hbreak h.1]

end Program
end HttpSnippet

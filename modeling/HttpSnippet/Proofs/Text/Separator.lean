import Mathlib.Data.List.DropRight
import HttpSnippet.Text.Blank

/-!
# Separators

A text that was put together with a separator is taken apart at the same places again, as long as
the parts in front do not hold the separator themselves. What stands behind the first separator may
hold it.
-/
namespace HttpSnippet.Text

/-- None of the marks occurs in the text. -/
def Avoids (t marks : Text) : Prop := ∀ c ∈ marks, c ∉ t

instance (t marks : Text) : Decidable (t.Avoids marks) :=
  List.decidableBAll (fun c => c ∉ t) marks

theorem Avoids.mono {t marks others : Text} (h : t.Avoids marks) (hsub : others ⊆ marks) :
    t.Avoids others := fun c hc => h c (hsub hc)

@[simp]
theorem avoids_nil (marks : Text) : Avoids [] marks := fun _ _ => List.not_mem_nil

@[simp]
theorem avoids_append {s t marks : Text} :
    Avoids (s ++ t) marks ↔ s.Avoids marks ∧ t.Avoids marks := by
  simp [Avoids, not_or, forall_and]

@[simp]
theorem avoids_cons {c : Char} {t marks : Text} :
    Avoids (c :: t) marks ↔ c ∉ marks ∧ t.Avoids marks := by
  simp only [Avoids, List.mem_cons, not_or, forall_and]
  refine and_congr_left fun _ => ⟨fun h hc => h c hc rfl, ?_⟩
  rintro h _ hd rfl
  exact h hd

/-! ### Cutting at the first separator -/

theorem dropPrefix?_append (s t : Text) : (s ++ t).dropPrefix? s = some t :=
  List.dropPrefix?_append_of_beq t (beq_self_eq_true s)

theorem dropSuffix?_append (s t : Text) : (s ++ t).dropSuffix? t = some s :=
  List.dropSuffix?_eq_some_iff.mpr ⟨t, rfl, beq_self_eq_true t⟩

theorem cut?_cons {c : Char} {t sep : Text} (h : ¬ sep <+: c :: t) :
    cut? (c :: t) sep = (cut? t sep).map fun (before, after) => (c :: before, after) := by
  rw [cut?, if_neg (mt List.isPrefixOf_iff_prefix.mp h)]

theorem cut?_append {sep : Text} (hsep : sep ≠ []) (t : Text) :
    cut? (sep ++ t) sep = some ([], t) := by
  obtain ⟨c, rest, rfl⟩ := List.exists_cons_of_ne_nil hsep
  have hprefix : (c :: rest).isPrefixOf (c :: (rest ++ t)) = true :=
    List.isPrefixOf_iff_prefix.mpr (List.prefix_append (c :: rest) t)
  rw [List.cons_append, cut?, if_pos hprefix, ← List.cons_append, List.drop_left]

/-- Without the separator there is nothing to cut. -/
theorem cut?_eq_none_iff {sep : Text} (hsep : sep ≠ []) {t : Text} :
    cut? t sep = none ↔ ¬ sep <:+: t := by
  induction t with
  | nil => simpa [cut?] using hsep
  | cons c t ih =>
    by_cases hhead : sep <+: c :: t
    · rw [cut?, if_pos (List.isPrefixOf_iff_prefix.mpr hhead)]
      simpa using hhead.isInfix
    · rw [cut?_cons hhead, Option.map_eq_none_iff, ih, List.infix_cons_iff]
      simp [hhead]

theorem cut?_mark {mark : Char} {front : Text} (h : mark ∉ front) (t : Text) :
    cut? (front ++ mark :: t) [mark] = some (front, t) := by
  induction front with
  | nil => exact cut?_append (List.cons_ne_nil mark []) t
  | cons c front ih =>
    obtain ⟨hc, hfront⟩ := not_or.mp (mt List.mem_cons.mpr h)
    have hnot : ¬ [mark] <+: c :: (front ++ mark :: t) := by simpa using hc
    rw [List.cons_append, cut?_cons hnot, ih hfront]
    rfl

theorem cut?_mark_eq_none {mark : Char} {t : Text} (h : mark ∉ t) : cut? t [mark] = none :=
  (cut?_eq_none_iff (List.cons_ne_nil mark [])).mpr fun hmark =>
    h (hmark.subset (List.mem_singleton_self mark))

/-- A separator whose first character does not come again is found at its first place: it cannot
begin in the front and end behind it. -/
theorem cut?_separator {mark : Char} {marks front : Text} (hmark : mark ∉ marks)
    (h : ¬ mark :: marks <:+: front) (t : Text) :
    cut? (front ++ (mark :: marks ++ t)) (mark :: marks) = some (front, t) := by
  induction front with
  | nil => exact cut?_append (List.cons_ne_nil mark marks) t
  | cons c front ih =>
    have hfront : ¬ mark :: marks <:+: front := fun hin => h (List.infix_cons hin)
    have hnot : ¬ mark :: marks <+: c :: (front ++ (mark :: marks ++ t)) := by
      intro hprefix
      obtain ⟨rfl, hmarks⟩ := List.cons_prefix_cons.mp hprefix
      by_cases hlength : marks.length ≤ front.length
      · have hwithin : marks <+: front := List.prefix_of_prefix_length_le hmarks
          (List.prefix_append _ _) hlength
        exact h (List.cons_prefix_cons.mpr ⟨rfl, hwithin⟩).isInfix
      · have hover : front ++ [mark] <+: marks := by
          refine List.prefix_of_prefix_length_le ?_ hmarks (by simp; omega)
          exact ⟨marks ++ t, by simp⟩
        exact hmark (hover.subset (by simp))
    rw [List.cons_append, cut?_cons hnot, ih hfront]
    rfl

/-- The parts around a separator, which the part in front does not hold. -/
theorem append_of_cut?_eq_some {t sep before after : Text}
    (h : cut? t sep = some (before, after)) :
    t = before ++ (sep ++ after) ∧ (sep ≠ [] → ¬ sep <:+: before) := by
  induction t generalizing before with
  | nil => cases h
  | cons c t ih =>
    by_cases hhead : sep <+: c :: t
    · rw [cut?, if_pos (List.isPrefixOf_iff_prefix.mpr hhead)] at h
      obtain ⟨rfl, rfl⟩ := Prod.mk.inj (Option.some.inj h)
      obtain ⟨rest, hrest⟩ := hhead
      rw [← hrest, List.drop_left]
      exact ⟨rfl, fun hsep => by simpa using hsep⟩
    · rw [cut?_cons hhead] at h
      obtain ⟨⟨front, back⟩, hcut, heq⟩ := Option.map_eq_some_iff.mp h
      obtain ⟨rfl, rfl⟩ := Prod.mk.inj heq
      obtain ⟨rfl, hfront⟩ := ih hcut
      refine ⟨rfl, fun hsep hinfix => ?_⟩
      rcases List.infix_cons_iff.mp hinfix with hstart | hwithin
      · exact hhead (hstart.trans (List.prefix_append (c :: front) _))
      · exact hfront hsep hwithin

/-- A text is cut at the first place where the separator stands. -/
theorem cut?_eq_some_iff {t sep before after : Text} (hsep : sep ≠ []) :
    cut? t sep = some (before, after) ↔
      t = before ++ (sep ++ after) ∧ ∀ s, s ++ sep <+: t → before.length ≤ s.length := by
  induction t generalizing before with
  | nil => simp [cut?, hsep]
  | cons c t ih =>
    by_cases hhead : sep <+: c :: t
    · rw [cut?, if_pos (List.isPrefixOf_iff_prefix.mpr hhead)]
      obtain ⟨rest, hrest⟩ := hhead
      rw [← hrest, List.drop_left]
      constructor
      · rintro ⟨⟩
        exact ⟨rfl, fun s _ => Nat.zero_le _⟩
      · rintro ⟨heq, hfirst⟩
        have hnil : before = [] := List.length_eq_zero_iff.mp
          (Nat.le_zero.mp (hfirst [] (List.prefix_append sep rest)))
        subst hnil
        rw [List.append_cancel_left heq]
    · rw [cut?_cons hhead, Option.map_eq_some_iff]
      constructor
      · rintro ⟨⟨front, back⟩, hcut, heq⟩
        obtain ⟨rfl, rfl⟩ := Prod.mk.inj heq
        obtain ⟨rfl, hfirst⟩ := ih.mp hcut
        refine ⟨rfl, fun s hs => ?_⟩
        cases s with
        | nil => exact absurd hs hhead
        | cons d s => exact Nat.succ_le_succ (hfirst s (List.cons_prefix_cons.mp hs).2)
      · rintro ⟨heq, hfirst⟩
        cases before with
        | nil => exact absurd ⟨after, heq.symm⟩ hhead
        | cons d front =>
          obtain ⟨rfl, rfl⟩ := List.cons.inj heq
          have hcut := ih.mpr ⟨rfl, fun s hs =>
            Nat.le_of_succ_le_succ (hfirst (c :: s) (List.cons_prefix_cons.mpr ⟨rfl, hs⟩))⟩
          exact ⟨(front, after), hcut, rfl⟩

/-- A text that ends with a mark does not reach into one without it. -/
theorem prefix_of_prefix_append {mark : Char} {t u v : Text} (hv : mark ∉ v)
    (h : t ++ [mark] <+: u ++ v) : t ++ [mark] <+: u := by
  by_cases hlength : (t ++ [mark]).length ≤ u.length
  · exact List.prefix_of_prefix_length_le h (List.prefix_append u v) hlength
  · have hover : u <+: t ++ [mark] :=
      List.prefix_of_prefix_length_le (List.prefix_append u v) h (Nat.le_of_not_le hlength)
    rw [List.length_append, List.length_singleton, Nat.not_le, Nat.lt_succ_iff] at hlength
    obtain ⟨w, rfl⟩ := List.prefix_of_prefix_length_le hover (List.prefix_append t [mark]) hlength
    rw [List.append_assoc, List.prefix_append_right_inj] at h
    exact absurd (h.subset (List.mem_append_right w (List.mem_singleton_self mark))) hv

/-! ### Around the first mark -/

/-- What stands in front of the first occurrence of a mark; without one it is the whole text. -/
def upTo (mark : Char) (t : Text) : Text := t.takeWhile (· ≠ mark)

/-- What stands behind the first occurrence of a mark, if there is one. -/
def behind? (mark : Char) (t : Text) : Option Text := (t.dropWhile (· ≠ mark)).tail?

/-- A mark and what stands behind it, or nothing. -/
def ledBy (mark : Char) (part : Option Text) : Text := part.elim [] (mark :: ·)

theorem upTo_append_behind (mark : Char) (t : Text) :
    upTo mark t ++ ledBy mark (behind? mark t) = t := by
  have hjoin : upTo mark t ++ t.dropWhile (· ≠ mark) = t := List.takeWhile_append_dropWhile
  have hbehind : ledBy mark (behind? mark t) = t.dropWhile (· ≠ mark) := by
    unfold behind?
    cases hdrop : t.dropWhile (· ≠ mark) with
    | nil => rfl
    | cons c rest =>
      have hfirst := List.head?_dropWhile_not (· ≠ mark) t
      rw [hdrop] at hfirst
      have hc : c = mark := by simpa using hfirst
      rw [hc]
      rfl
  rw [hbehind, hjoin]

theorem not_mem_upTo (mark : Char) (t : Text) : mark ∉ upTo mark t := fun hmem => by
  simpa using List.mem_takeWhile_imp hmem

theorem isPrefix_upTo (mark : Char) (t : Text) : upTo mark t <+: t := List.takeWhile_prefix _

theorem upTo_append {mark : Char} {front : Text} (h : mark ∉ front) (t : Text) :
    upTo mark (front ++ t) = front ++ upTo mark t :=
  List.takeWhile_append_of_pos fun c hc => by
    have hne : c ≠ mark := fun he => h (he ▸ hc)
    simpa using hne

theorem upTo_eq_self {mark : Char} {t : Text} (h : mark ∉ t) : upTo mark t = t := by
  have happend := upTo_append h []
  rw [List.append_nil] at happend
  exact happend.trans (List.append_nil t)

theorem upTo_append_mark {mark : Char} {front : Text} (h : mark ∉ front) (t : Text) :
    upTo mark (front ++ mark :: t) = front := by
  rw [upTo_append h, upTo, List.takeWhile_cons_of_neg (by simp), List.append_nil]

theorem behind?_append_mark {mark : Char} {front : Text} (h : mark ∉ front) (t : Text) :
    behind? mark (front ++ mark :: t) = some t := by
  have hfront : ∀ c ∈ front, decide (c ≠ mark) = true := fun c hc => by
    have hne : c ≠ mark := fun he => h (he ▸ hc)
    simpa using hne
  rw [behind?, List.dropWhile_append_of_pos hfront, List.dropWhile_cons_of_neg (by simp)]
  rfl

/-- Cutting takes a text apart around the first mark. -/
theorem cut?_eq_behind (mark : Char) (t : Text) :
    cut? t [mark] = (behind? mark t).map (upTo mark t, ·) := by
  have hfront := not_mem_upTo mark t
  have hjoin := upTo_append_behind mark t
  cases hbehind : behind? mark t with
  | none =>
    rw [hbehind, ledBy, Option.elim_none, List.append_nil] at hjoin
    rw [hjoin] at hfront
    exact cut?_mark_eq_none hfront
  | some rest =>
    rw [hbehind] at hjoin
    have hcut : cut? (upTo mark t ++ ledBy mark (some rest)) [mark] = some (upTo mark t, rest) :=
      cut?_mark hfront rest
    rwa [hjoin] at hcut

/-! ### Cutting at the last separator -/

/-- Without the mark there is nothing to cut. -/
theorem cutLast?_eq_none_iff {mark : Char} {t : Text} : cutLast? mark t = none ↔ mark ∉ t := by
  induction t with
  | nil => simp [cutLast?]
  | cons c t ih =>
    rw [cutLast?]
    cases hrest : cutLast? mark t with
    | none =>
      have ht : mark ∉ t := ih.mp hrest
      by_cases hc : c = mark
      · simp [hc]
      · simp [hc, Ne.symm hc, ht]
    | some cut =>
      have ht : mark ∈ t := by
        by_contra hnot
        rw [ih.mpr hnot] at hrest
        cases hrest
      simp [ht]

theorem cutLast?_eq_none {mark : Char} {t : Text} (h : mark ∉ t) : cutLast? mark t = none :=
  cutLast?_eq_none_iff.mpr h

theorem cutLast?_mark {mark : Char} {back : Text} (h : mark ∉ back) (front : Text) :
    cutLast? mark (front ++ mark :: back) = some (front, back) := by
  induction front with
  | nil =>
    rw [List.nil_append, cutLast?, cutLast?_eq_none h]
    exact if_pos rfl
  | cons c front ih => rw [List.cons_append, cutLast?, ih]

theorem append_of_cutLast?_eq_some {mark : Char} {t before after : Text}
    (h : cutLast? mark t = some (before, after)) : t = before ++ mark :: after := by
  induction t generalizing before with
  | nil => cases h
  | cons c t ih =>
    rw [cutLast?] at h
    split at h
    · next front back hcut =>
      obtain ⟨rfl, rfl⟩ := Prod.mk.inj (Option.some.inj h)
      rw [ih hcut, List.cons_append]
    · split at h
      · next hc =>
        obtain ⟨rfl, rfl⟩ := Prod.mk.inj (Option.some.inj h)
        rw [hc, List.nil_append]
      · cases h

/-- It is the last mark that a text is cut at. -/
theorem not_mem_of_cutLast?_eq_some {mark : Char} {t before after : Text}
    (h : cutLast? mark t = some (before, after)) : mark ∉ after := by
  induction t generalizing before with
  | nil => cases h
  | cons c t ih =>
    rw [cutLast?] at h
    split at h
    · next front back hcut =>
      obtain ⟨-, rfl⟩ := Prod.mk.inj (Option.some.inj h)
      exact ih hcut
    · next hnone =>
      split at h
      · obtain ⟨-, rfl⟩ := Prod.mk.inj (Option.some.inj h)
        exact cutLast?_eq_none_iff.mp hnone
      · cases h

/-! ### Splitting -/

theorem splitOn_eq (mark : Char) (t : Text) : splitOn mark t = List.splitOn mark t := by
  induction t with
  | nil => rfl
  | cons c t ih =>
    have hne := splitOn_ne_nil mark t
    rw [splitOn, List.splitOn_cons_eq_if_modifyHead, ← ih]
    cases hpieces : splitOn mark t with
    | nil => exact absurd hpieces hne
    | cons piece pieces => by_cases hc : c = mark <;> simp [hc]

/-- Pieces without the separator are what their join is split into. -/
theorem splitOn_join {mark : Char} {pieces : List Text} (h : ∀ piece ∈ pieces, mark ∉ piece)
    (hne : pieces ≠ []) : splitOn mark (join [mark] pieces) = pieces := by
  rw [splitOn_eq, join]
  exact List.splitOn_intercalate mark h hne

theorem not_mem_of_mem_splitOn {mark : Char} {t piece : Text} (h : piece ∈ splitOn mark t) :
    mark ∉ piece := by
  induction t generalizing piece with
  | nil => simp_all [splitOn]
  | cons c t ih =>
    rw [splitOn] at h
    cases hpieces : splitOn mark t with
    | nil => exact absurd hpieces (splitOn_ne_nil mark t)
    | cons first pieces =>
      rw [hpieces] at h ih
      dsimp only at h
      by_cases hc : c = mark
      · rw [if_pos hc] at h
        rcases List.mem_cons.mp h with rfl | h
        · exact List.not_mem_nil
        · exact ih h
      · rw [if_neg hc] at h
        rcases List.mem_cons.mp h with rfl | h
        · exact List.not_mem_cons_of_ne_of_not_mem (Ne.symm hc) (ih List.mem_cons_self)
        · exact ih (List.mem_cons_of_mem _ h)

theorem join_cons_cons (sep piece next : Text) (pieces : List Text) :
    join sep (piece :: next :: pieces) = piece ++ (sep ++ join sep (next :: pieces)) := by
  rw [join, List.intercalate_cons_cons, List.append_assoc]
  rfl

theorem subset_join {sep piece : Text} {pieces : List Text} (h : piece ∈ pieces) :
    piece ⊆ join sep pieces := by
  induction pieces with
  | nil => cases h
  | cons first pieces ih =>
    cases pieces with
    | nil => simp_all [join]
    | cons next pieces =>
      rw [join_cons_cons]
      rcases List.mem_cons.mp h with rfl | h
      · exact List.subset_append_left _ _
      · exact fun c hc => List.mem_append_right _ (List.mem_append_right _ (ih h hc))

theorem subset_of_mem_splitOn {mark : Char} {t piece : Text} (h : piece ∈ splitOn mark t) :
    piece ⊆ t := by
  have hsub : piece ⊆ join [mark] (splitOn mark t) := subset_join h
  rwa [join_splitOn] at hsub

theorem mem_join {sep : Text} {pieces : List Text} {c : Char} (h : c ∈ join sep pieces) :
    c ∈ sep ∨ ∃ piece ∈ pieces, c ∈ piece := by
  induction pieces with
  | nil => simp [join] at h
  | cons piece pieces ih =>
    cases pieces with
    | nil => exact .inr ⟨piece, List.mem_cons_self, by simpa [join] using h⟩
    | cons next pieces =>
      rw [join_cons_cons, List.mem_append, List.mem_append] at h
      rcases h with h | h | h
      · exact .inr ⟨piece, List.mem_cons_self, h⟩
      · exact .inl h
      · refine (ih h).imp_right ?_
        rintro ⟨other, hother, hc⟩
        exact ⟨other, List.mem_cons_of_mem _ hother, hc⟩

theorem join_map_of_forall {sep : Text} {pieces : List Text} {f : Text → Text}
    (h : ∀ piece ∈ pieces, f piece = piece) : join sep (pieces.map f) = join sep pieces := by
  rw [List.map_congr_left (g := id) h, List.map_id]

/-- Only no pieces at all or a single empty one leave no trace. -/
theorem join_eq_nil_iff {mark : Char} {pieces : List Text} :
    join [mark] pieces = [] ↔ pieces = [] ∨ pieces = [[]] := by
  match pieces with
  | [] => simp [join]
  | [piece] => simp [join]
  | piece :: next :: rest => simp [join, List.intercalate_cons_cons]

theorem join_cons_left (sep : Text) (c : Char) (piece : Text) (pieces : List Text) :
    join sep ((c :: piece) :: pieces) = c :: join sep (piece :: pieces) :=
  List.intercalate_cons_cons_left

theorem avoids_join {sep marks : Text} {pieces : List Text} (hsep : sep.Avoids marks)
    (h : ∀ piece ∈ pieces, piece.Avoids marks) : (join sep pieces).Avoids marks := by
  intro c hc hmem
  rcases mem_join hmem with hmem | ⟨piece, hpiece, hmem⟩
  · exact hsep c hc hmem
  · exact h piece hpiece c hc hmem

/-! ### Margins -/

/-- No white space at the front and none at the end. -/
structure Trim (t : Text) : Prop where
  first : ∀ c ∈ t.head?, isBlank c = false
  last : ∀ c ∈ t.getLast?, isBlank c = false

/-- A text that neither begins nor ends with white space stays as it is. -/
theorem strip_eq_self_of_ends {t : Text} (hfirst : ∀ c ∈ t.head?, isBlank c = false)
    (hlast : ∀ c ∈ t.getLast?, isBlank c = false) : strip t = t := by
  have hleft {s : Text} (h : ∀ c ∈ s.head?, isBlank c = false) : stripLeft s = s := by
    cases s with
    | nil => rfl
    | cons c s => rw [stripLeft, List.dropWhile_cons_of_neg (by simp [h c rfl])]
  rw [strip, hleft hfirst, hleft (by rwa [List.head?_reverse]), List.reverse_reverse]

theorem isPrefix_strip (t : Text) : strip t <+: stripLeft t :=
  List.rdropWhile_prefix isBlank (stripLeft t)

theorem isInfix_strip (t : Text) : strip t <:+: t :=
  (isPrefix_strip t).isInfix.trans (List.dropWhile_suffix isBlank).isInfix

theorem trim_strip (t : Text) : Trim (strip t) where
  first c hc := by
    obtain ⟨rest, hrest⟩ := isPrefix_strip t
    have hfirst := List.head?_dropWhile_not isBlank t
    obtain ⟨s, hs⟩ := List.head?_eq_some_iff.mp hc
    have hleft : t.dropWhile isBlank = c :: (s ++ rest) := by
      rw [← List.cons_append, ← hs]
      exact hrest.symm
    rwa [hleft] at hfirst
  last c hc := by
    have hlast := List.head?_dropWhile_not isBlank (stripLeft t).reverse
    rw [strip, List.getLast?_reverse] at hc
    rwa [← stripLeft, Option.mem_def.mp hc] at hlast

end HttpSnippet.Text

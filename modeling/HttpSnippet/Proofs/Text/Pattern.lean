import HttpSnippet.Text.Pattern

/-!
# What a search finds

A search tries the ways of each part in turn and goes back where what follows fails. It succeeds
exactly if the text can be divided into what fits the pattern and a rest on which what follows
succeeds, in whatever order the ways are tried.
-/
namespace HttpSnippet

namespace Text

/-- Two texts are the same without regard to case. -/
def EqCaseless (s t : Text) : Prop := s.map foldCase = t.map foldCase

theorem sameCaseless_iff {a b : Char} : sameCaseless a b = true ↔ foldCase a = foldCase b := by
  simp only [sameCaseless, Bool.or_eq_true, decide_eq_true_eq, or_iff_right_iff_imp]
  rintro rfl
  rfl

@[simp] theorem eqCaseless_nil {s : Text} : EqCaseless s [] ↔ s = [] := List.map_eq_nil_iff

theorem eqCaseless_cons {c : Char} {s t : Text} :
    EqCaseless s (c :: t) ↔ ∃ b u, s = b :: u ∧ foldCase b = foldCase c ∧ EqCaseless u t := by
  rw [EqCaseless, List.map_cons, List.map_eq_cons_iff]
  rfl

theorem eqCaseless_append {s t u : Text} :
    EqCaseless s (t ++ u) ↔ ∃ v w, s = v ++ w ∧ EqCaseless v t ∧ EqCaseless w u := by
  rw [EqCaseless, List.map_append, List.map_eq_append_iff]
  rfl

end Text

namespace Pattern

/-- A pattern fits the beginning of a text and leaves a rest. -/
def Leaves : Pattern → Text → Text → Prop
  | .letters ls, t, rest => ∃ front, t = front ++ rest ∧ front.EqCaseless ls
  | .line, t, rest => ∃ front, t = front ++ rest ∧ front ≠ [] ∧ '\n' ∉ front
  | .optional p, t, rest => p.Leaves t rest ∨ rest = t
  | .followed p q, t, rest => ∃ mid, p.Leaves t mid ∧ q.Leaves mid rest
  | .finish, t, rest => rest = t ∧ (t = [] ∨ t = ['\n'])

theorem behindLetters?_eq_some_iff {ls t rest : Text} :
    behindLetters? ls t = some rest ↔ ∃ front, t = front ++ rest ∧ front.EqCaseless ls := by
  induction ls generalizing t with
  | nil => simp [behindLetters?]
  | cons l ls ih =>
    cases t with
    | nil =>
      simp only [behindLetters?, reduceCtorEq, false_iff, Text.eqCaseless_cons]
      rintro ⟨front, ht, b, u, rfl, -⟩
      cases ht
    | cons c t =>
      rw [behindLetters?]
      constructor
      · intro h
        split at h
        · next hc =>
          obtain ⟨front, rfl, hfront⟩ := ih.mp h
          refine ⟨c :: front, rfl, Text.eqCaseless_cons.mpr ⟨c, front, rfl, ?_, hfront⟩⟩
          exact Text.sameCaseless_iff.mp hc
        · cases h
      · rintro ⟨front, ht, hfront⟩
        obtain ⟨b, u, rfl, hb, hu⟩ := Text.eqCaseless_cons.mp hfront
        obtain ⟨rfl, rfl⟩ := List.cons.inj ht
        rw [if_pos (Text.sameCaseless_iff.mpr hb)]
        exact ih.mpr ⟨u, rfl, hu⟩

/-- However far a line is passed over first, every way to stop on it is tried. -/
theorem searchLine_iff {next : Text → Bool} {t : Text} :
    searchLine next t = true ↔
      ∃ front rest, t = front ++ rest ∧ '\n' ∉ front ∧ next rest = true := by
  induction t with
  | nil => simp [searchLine, and_assoc]
  | cons c t ih =>
    rw [searchLine, Bool.or_eq_true, Bool.and_eq_true, ih, decide_eq_true_eq]
    constructor
    · rintro (⟨hc, front, rest, rfl, hfront, hnext⟩ | hnext)
      · exact ⟨c :: front, rest, rfl, List.not_mem_cons_of_ne_of_not_mem (Ne.symm hc) hfront, hnext⟩
      · exact ⟨[], c :: t, rfl, List.not_mem_nil, hnext⟩
    · rintro ⟨front, rest, ht, hfront, hnext⟩
      cases front with
      | nil => exact .inr (ht ▸ hnext)
      | cons b front =>
        obtain ⟨rfl, rfl⟩ := List.cons.inj ht
        obtain ⟨hb, hfront⟩ := not_or.mp (mt List.mem_cons.mpr hfront)
        exact .inl ⟨Ne.symm hb, front, rest, rfl, hfront, hnext⟩

/-- The search of one part is complete for whatever follows it, so the parts can be put together. -/
theorem search_iff {p : Pattern} {next : Text → Bool} {t : Text} :
    p.search next t = true ↔ ∃ rest, p.Leaves t rest ∧ next rest = true := by
  induction p generalizing next t with
  | letters ls =>
    simp only [search, Option.any_eq_true, behindLetters?_eq_some_iff, Leaves]
  | line =>
    cases t with
    | nil => simp [search, Leaves]
    | cons c t =>
      rw [search, Bool.and_eq_true, decide_eq_true_eq, searchLine_iff]
      constructor
      · rintro ⟨hc, front, rest, rfl, hfront, hnext⟩
        refine ⟨rest, ⟨c :: front, rfl, List.cons_ne_nil c front, ?_⟩, hnext⟩
        exact List.not_mem_cons_of_ne_of_not_mem (Ne.symm hc) hfront
      · rintro ⟨rest, ⟨front, ht, hne, hfront⟩, hnext⟩
        obtain ⟨b, front, rfl⟩ := List.exists_cons_of_ne_nil hne
        obtain ⟨rfl, rfl⟩ := List.cons.inj ht
        obtain ⟨hb, hfront⟩ := not_or.mp (mt List.mem_cons.mpr hfront)
        exact ⟨Ne.symm hb, front, rest, rfl, hfront, hnext⟩
  | optional p ih =>
    rw [search, Bool.or_eq_true, ih]
    simp only [Leaves, or_and_right, exists_or, exists_eq_left]
  | followed p q ihp ihq =>
    simp only [search, ihp, ihq, Leaves]
    constructor
    · rintro ⟨mid, hmid, rest, hrest, hnext⟩
      exact ⟨rest, ⟨mid, hmid, hrest⟩, hnext⟩
    · rintro ⟨rest, ⟨mid, hmid, hrest⟩, hnext⟩
      exact ⟨mid, hmid, rest, hrest, hnext⟩
  | finish =>
    simp only [search, Leaves, Bool.and_eq_true, Bool.or_eq_true, decide_eq_true_eq]
    constructor
    · rintro ⟨hend, hnext⟩
      exact ⟨t, ⟨rfl, hend⟩, hnext⟩
    · rintro ⟨rest, ⟨rfl, hend⟩, hnext⟩
      exact ⟨hend, hnext⟩

theorem accepts_iff {p : Pattern} {t : Text} : p.accepts t = true ↔ ∃ rest, p.Leaves t rest := by
  simp only [accepts, search_iff, and_true]

end Pattern
end HttpSnippet

import HttpSnippet.Proofs.Text.Case
import HttpSnippet.Proofs.Text.Pattern
import HttpSnippet.Proofs.Text.Separator
import HttpSnippet.Request.ContentType

/-!
# Media types that stand for JSON

Searching for the pattern of JSON content types decides a plain condition on the media type: it is
`application/json`, or a name of one line stands between `application/` and `+json`. The line feed
that the pattern would let pass at the end is stripped before. So parameters, white space around the
content type and the case of its letters have no say.
-/
namespace HttpSnippet

namespace Text

/-! ### Stripping -/

theorem strip_append_blank {after : Text} (h : ∀ c ∈ after, isBlank c = true) (t : Text) :
    strip (t ++ after) = strip t := by
  have hreverse : ∀ c ∈ after.reverse, isBlank c = true := fun c hc => h c (List.mem_reverse.mp hc)
  have hafter : after.dropWhile isBlank = [] := List.dropWhile_eq_nil_iff.mpr h
  unfold strip stripLeft
  rw [List.dropWhile_append, hafter]
  split
  · next hempty => rw [List.isEmpty_iff.mp hempty]
  · rw [List.reverse_append, List.dropWhile_append_of_pos hreverse]

theorem strip_blank_append {before : Text} (h : ∀ c ∈ before, isBlank c = true) (t : Text) :
    strip (before ++ t) = strip t := by
  have hleft : stripLeft (before ++ t) = stripLeft t := List.dropWhile_append_of_pos h
  rw [strip, hleft, strip]

/-- Stripping looks at nothing but which characters are white space. -/
theorem strip_map {f : Char → Char} (hf : ∀ c, isBlank (f c) = isBlank c) (t : Text) :
    strip (t.map f) = (strip t).map f := by
  have hcomp : isBlank ∘ f = isBlank := funext hf
  simp only [strip, stripLeft, List.dropWhile_map, hcomp, ← List.map_reverse]

/-! ### Letters of ASCII -/

/-- The letters that have a lower case in ASCII. -/
def capitals : Text := "ABCDEFGHIJKLMNOPQRSTUVWXYZ"

theorem toLower_eq_self {c : Char} (h : c ∉ capitals) : c.toLower = c := by
  have hcodes : ∀ n < 91, 65 ≤ n → Char.ofNat n ∈ capitals := by decide
  refine dif_neg fun hc => h ?_
  have hmem := hcodes c.toNat (Nat.lt_succ_of_le hc.2) hc.1
  rwa [Char.ofNat_toNat] at hmem

/-- What holds of the capitals holds of all characters, as the others stay as they are. -/
theorem apply_toLower {α : Type} {f : Char → α} (h : capitals.Forall fun c => f c.toLower = f c)
    (c : Char) : f c.toLower = f c := by
  by_cases hc : c ∈ capitals
  · exact List.forall_iff_forall_mem.mp h c hc
  · rw [toLower_eq_self hc]

theorem foldCase_toLower (c : Char) : foldCase c.toLower = foldCase c :=
  apply_toLower (by decide +kernel) c

theorem isBlank_toLower (c : Char) : isBlank c.toLower = isBlank c := apply_toLower (by decide) c

end Text
namespace ContentType

open Text

/-! ### The names of JSON -/

/-- The letters of the names of JSON, each once. -/
def letters : Text := "aplicton/+js"

/-- A letter stands for its capital and itself, and three characters outside ASCII stand for an `i`
or an `s`. -/
theorem foldCase_eq_iff {c l : Char} (hl : l ∈ letters) :
    foldCase c = foldCase l ↔ c.toLower = l ∨ (c, l) ∈ [('İ', 'i'), ('ı', 'i'), ('ſ', 's')] := by
  have hfold : letters.Forall fun l => foldCase l = [l.toUpper] := by decide +kernel
  have hzero : letters.Forall fun l =>
      0 ∉ sources upperRuns upperExpansions [l.toUpper.toNat] := by decide +kernel
  -- the tables are consulted last, for the few candidates that are ruled out
  have hfinite : letters.Forall fun l => ∀ n ∈ candidates [l.toUpper.toNat],
      (Char.ofNat n).toLower = l ∨ (Char.ofNat n, l) ∈ [('İ', 'i'), ('ı', 'i'), ('ſ', 's')] ∨
        foldCase (Char.ofNat n) ≠ [l.toUpper] := by decide +kernel
  rw [List.forall_iff_forall_mem] at hfold hzero hfinite
  constructor
  · intro h
    have hc : foldCase c = [l.toUpper] := h.trans (hfold l hl)
    have hmem := mem_candidates (hzero l hl) hc List.mem_cons_self
    have hcase := hfinite l hl c.toNat hmem
    rw [Char.ofNat_toNat] at hcase
    exact hcase.imp_right fun h => h.resolve_right (not_not_intro hc)
  · rintro (rfl | h)
    · exact (foldCase_toLower c).symm
    · simp only [List.mem_cons, Prod.mk.injEq, List.not_mem_nil, or_false] at h
      rcases h with ⟨rfl, rfl⟩ | ⟨rfl, rfl⟩ | ⟨rfl, rfl⟩ <;> decide +kernel

/-- `application/json`, or a name of one line between `application/` and `+json`. -/
def NamesJson (media : Text) : Prop :=
  media.EqCaseless "application/json" ∨
    ∃ start name ending, media = start ++ name ++ ending ∧ start.EqCaseless "application/" ∧
      name ≠ [] ∧ '\n' ∉ name ∧ ending.EqCaseless "+json"

/-- Where no line feed is at the end, the pattern fits the media types that name JSON. -/
theorem accepts_jsonPattern_iff {media : Text} (h : '\n' ∉ media.getLast?) :
    jsonPattern.accepts media = true ↔ NamesJson media := by
  have hjson : ("application/json" : Text) = "application/" ++ ("json" : Text) := rfl
  have hsuffix : ("+json" : Text) = "+" ++ ("json" : Text) := rfl
  rw [Pattern.accepts_iff, NamesJson, hjson, hsuffix]
  simp only [eqCaseless_append]
  constructor
  · rintro ⟨rest, subtype, ⟨start, rfl, hstart⟩, last, hlast, _, ⟨json, rfl, hj⟩, rfl, hend⟩
    rcases hlast with ⟨_, ⟨name, rfl, hname, hline⟩, plus, rfl, hplus⟩ | rfl
    · obtain rfl : rest = [] := hend.resolve_right (by rintro rfl; exact h (by simp))
      exact .inr ⟨start, name, plus ++ json, by simp, hstart, hname, hline, plus, json, rfl,
        hplus, hj⟩
    · obtain rfl : rest = [] := hend.resolve_right (by rintro rfl; exact h (by simp))
      exact .inl ⟨start, json, by simp, hstart, hj⟩
  · rintro (⟨start, json, rfl, hstart, hj⟩ |
      ⟨start, name, _, rfl, hstart, hname, hline, plus, json, rfl, hplus, hj⟩)
    · exact ⟨[], json, ⟨start, rfl, hstart⟩, json, .inr rfl, [], ⟨json, by simp, hj⟩, rfl, .inl rfl⟩
    · exact ⟨[], name ++ (plus ++ json), ⟨start, by simp, hstart⟩, json,
        .inl ⟨plus ++ json, ⟨name, rfl, hname, hline⟩, plus, rfl, hplus⟩, [], ⟨json, by simp, hj⟩,
        rfl, .inl rfl⟩

theorem isJson_iff_namesJson (t : Text) : isJson t = true ↔ NamesJson (mediaType t) := by
  refine accepts_jsonPattern_iff fun hlast => ?_
  have hblank := (trim_strip _).last '\n' hlast
  exact absurd hblank (by decide)

/-! ### What has no say -/

/-- Only what stands in front of the first semicolon counts. -/
theorem mediaType_append_mark {front : Text} (h : ';' ∉ front) (rest : Text) :
    mediaType (front ++ ';' :: rest) = strip front :=
  congrArg strip (upTo_append_mark h rest)

theorem mediaType_eq_strip {t : Text} (h : ';' ∉ t) : mediaType t = strip t :=
  congrArg strip (upTo_eq_self h)

theorem mediaType_parameters (t parameters : Text) :
    mediaType (t ++ ';' :: parameters) = mediaType t := by
  by_cases hmark : ';' ∈ t
  · obtain ⟨front, rest, rfl, hfront⟩ := List.eq_append_cons_of_mem hmark
    rw [List.append_assoc, List.cons_append, mediaType_append_mark hfront,
      mediaType_append_mark hfront]
  · rw [mediaType_append_mark hmark, mediaType_eq_strip hmark]

theorem mediaType_margins {before after : Text} (hb : ∀ c ∈ before, isBlank c = true)
    (ha : ∀ c ∈ after, isBlank c = true) (t : Text) :
    mediaType (before ++ t ++ after) = mediaType t := by
  have hblank {margin : Text} (h : ∀ c ∈ margin, isBlank c = true) : ';' ∉ margin := fun hmem =>
    absurd (h ';' hmem) (by decide)
  by_cases hmark : ';' ∈ t
  · obtain ⟨front, rest, rfl, hfront⟩ := List.eq_append_cons_of_mem hmark
    have hshape : before ++ (front ++ ';' :: rest) ++ after =
        (before ++ front) ++ ';' :: (rest ++ after) := by simp
    rw [hshape, mediaType_append_mark (by simp [hblank hb, hfront]),
      mediaType_append_mark hfront, strip_blank_append hb]
  · rw [mediaType_eq_strip (by simp [hblank hb, hmark, hblank ha]), mediaType_eq_strip hmark,
      strip_append_blank ha, strip_blank_append hb]

theorem mediaType_toLower (t : Text) :
    mediaType (t.map Char.toLower) = (mediaType t).map Char.toLower := by
  have hmark (c : Char) : decide (c.toLower ≠ ';') = decide (c ≠ ';') :=
    apply_toLower (f := fun c => decide (c ≠ ';')) (by decide) c
  simp only [mediaType, List.takeWhile_map, Function.comp_def, hmark, strip_map isBlank_toLower]

theorem eqCaseless_toLower {s t : Text} :
    EqCaseless (s.map Char.toLower) t ↔ EqCaseless s t := by
  rw [EqCaseless, List.map_map, EqCaseless]
  simp only [Function.comp_def, foldCase_toLower]

theorem newline_mem_toLower {t : Text} : '\n' ∈ t.map Char.toLower ↔ '\n' ∈ t := by
  have hbreak (c : Char) : decide (c.toLower = '\n') = decide (c = '\n') :=
    apply_toLower (f := fun c => decide (c = '\n')) (by decide) c
  simp only [decide_eq_decide] at hbreak
  simp only [List.mem_map, hbreak, exists_eq_right]

theorem namesJson_toLower {media : Text} :
    NamesJson (media.map Char.toLower) ↔ NamesJson media := by
  unfold NamesJson
  rw [eqCaseless_toLower]
  refine or_congr_right ⟨?_, ?_⟩
  · rintro ⟨_, _, _, hmedia, hstart, hname, hline, hending⟩
    obtain ⟨front, ending, rfl, hfront, rfl⟩ := List.map_eq_append_iff.mp hmedia
    obtain ⟨start, name, rfl, rfl, rfl⟩ := List.map_eq_append_iff.mp hfront
    exact ⟨start, name, ending, rfl, eqCaseless_toLower.mp hstart, by simpa using hname,
      mt newline_mem_toLower.mpr hline, eqCaseless_toLower.mp hending⟩
  · rintro ⟨start, name, ending, rfl, hstart, hname, hline, hending⟩
    exact ⟨_, _, _, by simp only [List.map_append], eqCaseless_toLower.mpr hstart,
      by simpa using hname, mt newline_mem_toLower.mp hline, eqCaseless_toLower.mpr hending⟩

/-- A content type is JSON exactly if its media type, which is what stands in front of the first
semicolon without white space around it, is `application/json`, or a name of one line stands between
`application/` and `+json` in it, without regard to case. Parameters, white space around it and the
case of its letters of ASCII change nothing. -/
theorem isJson_iff_mediaType (t : Text) :
    (isJson t = true ↔ NamesJson (strip (upTo ';' t))) ∧
      (∀ c, ∀ l ∈ letters, foldCase c = foldCase l ↔
        c.toLower = l ∨ (c, l) ∈ [('İ', 'i'), ('ı', 'i'), ('ſ', 's')]) ∧
      (∀ parameters, isJson (t ++ ';' :: parameters) = isJson t) ∧
      (∀ before after, (∀ c ∈ before, isBlank c = true) → (∀ c ∈ after, isBlank c = true) →
        isJson (before ++ t ++ after) = isJson t) ∧
      ∀ other, other.map Char.toLower = t.map Char.toLower → isJson other = isJson t := by
  refine ⟨isJson_iff_namesJson t, fun c l => foldCase_eq_iff, fun parameters => ?_,
    fun before after hb ha => ?_, fun other hother => ?_⟩
  · rw [isJson, mediaType_parameters, isJson]
  · rw [isJson, mediaType_margins hb ha, isJson]
  · have hlower (t : Text) : isJson t = true ↔ NamesJson (mediaType (t.map Char.toLower)) := by
      rw [isJson_iff_namesJson, mediaType_toLower, namesJson_toLower]
    rw [Bool.eq_iff_iff, hlower, hlower, hother]

/-- A dotless `i`, a long `s`, several plus signs and a suffix in the parameters. -/
theorem isJson_iff_mediaType_of_dotlessI :
    NamesJson "Applıcation/a+b+JſON" ∧
      isJson ("Applıcation/a+b+JſON" ++ ';' :: "q=+xml") = true ∧
      isJson ("\u00a0" ++ "Applıcation/a+b+JſON" ++ "\n") = true ∧
      isJson "aPPLıCATION/A+B+jſon" = true := by
  obtain ⟨hiff, -, hparameters, hmargins, hcase⟩ := isJson_iff_mediaType "Applıcation/a+b+JſON"
  have hjson : isJson "Applıcation/a+b+JſON" = true := by decide +kernel
  have hspace : ∀ c ∈ ("\u00a0" : Text), isBlank c = true := List.forall_mem_singleton.mpr rfl
  have hbreak : ∀ c ∈ ("\n" : Text), isBlank c = true := List.forall_mem_singleton.mpr rfl
  exact ⟨hiff.mp hjson, (hparameters "q=+xml").trans hjson,
    (hmargins "\u00a0" "\n" hspace hbreak).trans hjson,
    (hcase "aPPLıCATION/A+B+jſon" (by decide)).trans hjson⟩

end ContentType
end HttpSnippet

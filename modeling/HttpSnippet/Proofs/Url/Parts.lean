import HttpSnippet.Proofs.Url.Address
import HttpSnippet.Proofs.Url.RoundTrip

/-!
# The parts of a URL in its text

Each part of a URL comes from a piece of its own of the text. The scheme is looked for first, in all
of the text, so it may reach into what would be a path, a query or a hash. A text that is read and
written again is the same text or a shorter one: it is shorter for white space at its ends, for a
part that is empty behind its mark, for slashes in front of a path and for user information, and for
nothing else. Host and port are written as they were read.
-/
namespace HttpSnippet
namespace Url

/-! ### The piece for each part -/

def schemeOf (t : Text) : Option Text := (t.cut? "://").map (·.1)

/-- The text behind the first mark of a scheme; without one it is the whole text. -/
def schemeless (t : Text) : Text := (t.cut? "://").elim t (·.2)

/-- What stands in front of the hash. -/
def hashless (t : Text) : Text := (schemeless t).upTo '#'

/-- What stands in front of the query. -/
def queryless (t : Text) : Text := (hashless t).upTo '?'

/-- The address in an authority: what stands behind its last at sign. -/
def withoutUser (authority : Text) : Text := ((authority.cutLast? '@').map (·.2)).getD authority

theorem cutAfter_eq (mark : Char) (t : Text) :
    cutAfter [mark] t = (t.upTo mark, t.behind? mark) := by
  rw [cutAfter, Text.cut?_eq_behind]
  cases hbehind : t.behind? mark with
  | some rest => rfl
  | none =>
    have hjoin := Text.upTo_append_behind mark t
    rw [hbehind, Text.ledBy, Option.elim_none, List.append_nil] at hjoin
    rw [hjoin]
    rfl

/-- Each part of a URL comes from its own piece of the text. -/
theorem ofText_eq (raw : Text) :
    let t := raw.strip
    let address := splitPort (withoutUser ((queryless t).upTo '/'))
    ofText raw =
      { protocol := schemeOf t
        host := hostSegments address.1
        port := address.2
        path := pathSegments (((queryless t).behind? '/').getD [])
        query := readQuery (((hashless t).behind? '?').getD [])
        hash := (schemeless t).behind? '#' } := by
  intro t address
  have hhash (t : Text) : cutAfter "#" t = (t.upTo '#', t.behind? '#') := cutAfter_eq '#' t
  have hquery (t : Text) : cutAfter "?" t = (t.upTo '?', t.behind? '?') := cutAfter_eq '?' t
  have hpath (t : Text) : cutAfter "/" t = (t.upTo '/', t.behind? '/') := cutAfter_eq '/' t
  unfold ofText
  simp only [hhash, hquery, hpath, address, queryless, hashless, schemeless, schemeOf, withoutUser,
    t]
  cases raw.strip.cut? "://" with
  | none =>
    dsimp only [Option.elim_none]
    generalize Text.cutLast? '@' _ = user
    cases user <;> rfl
  | some cut =>
    dsimp only [Option.elim_some]
    generalize Text.cutLast? '@' _ = user
    cases user <;> rfl

/-! ### The scheme -/

/-- The text begins with a scheme: a mark of one stands in front of everything that ends an
authority. -/
def OpensWithScheme (t : Text) : Prop :=
  ∃ scheme rest, t = scheme ++ ("://" ++ rest) ∧ scheme.Avoids "/?#"

/-- No scheme reaches into a path, a query or a hash exactly if the mark of a scheme stands in front
of all of these, or nowhere in the text. -/
theorem protocol_avoids_iff (raw : Text) :
    (∀ p, (ofText raw).protocol = some p → p.Avoids "/?#") ↔
      (("://" : Text) <:+: raw.strip → OpensWithScheme raw.strip) := by
  have hprotocol : (ofText raw).protocol = schemeOf raw.strip :=
    congrArg Url.protocol (ofText_eq raw)
  rw [hprotocol, schemeOf]
  constructor
  · intro h hmark
    cases hcut : raw.strip.cut? "://" with
    | none => exact absurd hmark ((Text.cut?_eq_none_iff (by decide)).mp hcut)
    | some cut =>
      have hscheme : cut.1.Avoids "/?#" := h cut.1 (by rw [hcut]; rfl)
      exact ⟨cut.1, cut.2, (Text.append_of_cut?_eq_some hcut).1, hscheme⟩
  · intro h p hp
    obtain ⟨⟨scheme, rest⟩, hcut, rfl⟩ := Option.map_eq_some_iff.mp hp
    have hmark : ("://" : Text) <:+: raw.strip :=
      ⟨scheme, rest, by rw [(Text.append_of_cut?_eq_some hcut).1, List.append_assoc]⟩
    obtain ⟨front, back, ht, hfront⟩ := h hmark
    -- a front without slashes holds no mark, so this is the first one
    have hslash : ¬ ("://" : Text) <:+: front := fun hmarks =>
      hfront '/' (by decide) (hmarks.subset (by decide))
    have hfirst : raw.strip.cut? "://" = some (front, back) := by
      rw [ht]
      exact Text.cut?_separator (by decide) hslash back
    rw [hfirst] at hcut
    obtain ⟨rfl, -⟩ := Prod.mk.inj (Option.some.inj hcut)
    exact hfront

/-- A mark in the value of a query is taken for that of a scheme. -/
theorem not_protocol_avoids_of_query :
    ¬ ∀ p, (ofText "a?b=http://c").protocol = some p → p.Avoids "/?#" := fun h =>
  absurd (h "a?b=http" (by decide)) (by decide)

end Url

/-! ### Texts that are written again -/

namespace Text

/-- A text is written again: as it was under the condition, else with something left out. -/
structure KeptIf (whole : Prop) (written original : Text) : Prop where
  same : whole → written = original
  shorter : ¬ whole → written.length < original.length

namespace KeptIf

variable {p q : Prop} {r s t u : Text}

theorem refl (t : Text) : KeptIf True t t := ⟨fun _ => rfl, fun h => absurd trivial h⟩

theorem congr (h : KeptIf p s t) (hpq : p ↔ q) : KeptIf q s t :=
  ⟨fun hq => h.same (hpq.mpr hq), fun hq => h.shorter (mt hpq.mp hq)⟩

theorem length_le (h : KeptIf p s t) : s.length ≤ t.length := by
  by_cases hp : p
  · rw [h.same hp]
  · exact (h.shorter hp).le

/-- What one part loses, no other part brings back. -/
theorem append (hs : KeptIf p r s) (ht : KeptIf q t u) : KeptIf (p ∧ q) (r ++ t) (s ++ u) where
  same h := by rw [hs.same h.1, ht.same h.2]
  shorter h := by
    have hs' := hs.length_le
    have ht' := ht.length_le
    rw [List.length_append, List.length_append]
    by_cases hp : p
    · have := ht.shorter fun hq => h ⟨hp, hq⟩
      omega
    · have := hs.shorter hp
      omega

theorem trans (ht : KeptIf p t u) (hs : KeptIf q s t) : KeptIf (p ∧ q) s u where
  same h := (hs.same h.2).trans (ht.same h.1)
  shorter h := by
    by_cases hp : p
    · exact (hs.shorter fun hq => h ⟨hp, hq⟩).trans_le ht.length_le
    · exact hs.length_le.trans_lt (ht.shorter hp)

theorem eq_iff (h : KeptIf p s t) : s = t ↔ p := by
  refine ⟨fun heq => ?_, h.same⟩
  by_contra hp
  exact absurd (h.shorter hp) (by simp [heq])

theorem eq_or_lt (h : KeptIf p s t) : s = t ∨ s.length < t.length :=
  or_iff_not_imp_left.mpr fun hne => h.shorter (mt h.same hne)

end KeptIf

theorem kept_strip (t : Text) : KeptIf (Trim t) t.strip t where
  same h := strip_eq_self_of_ends h.first h.last
  shorter h := by
    have hne : t.strip ≠ t := fun heq => h (heq ▸ trim_strip t)
    exact lt_of_le_of_ne (isInfix_strip t).length_le fun hlength =>
      hne ((isInfix_strip t).eq_of_length hlength)

/-- A mark is left out together with an empty part behind it. -/
theorem kept_optionalPart (mark : Char) (part : Option Text) :
    KeptIf (part ≠ some []) (Url.optionalPart [mark] part) (ledBy mark part) := by
  match part with
  | none => exact (KeptIf.refl []).congr (by simp)
  | some [] => exact ⟨fun h => absurd rfl h, fun _ => Nat.zero_lt_one⟩
  | some (c :: t) => exact (KeptIf.refl (mark :: c :: t)).congr (by simp)

end Text

namespace Url

theorem exists_scheme (t : Text) : ∃ lead, t = lead ++ schemeless t ∧
    Text.KeptIf (¬ ("://" : Text) <+: t) (scheme (schemeOf t)) lead := by
  have hmark : ("://" : Text) ≠ [] := by decide
  unfold schemeless schemeOf
  cases hcut : t.cut? "://" with
  | none =>
    have hnone := (Text.cut?_eq_none_iff hmark).mp hcut
    exact ⟨[], rfl, (Text.KeptIf.refl []).congr (by simpa using mt List.IsPrefix.isInfix hnone)⟩
  | some cut =>
    obtain ⟨protocol, rest⟩ := cut
    obtain ⟨ht, hfirst⟩ := Text.append_of_cut?_eq_some hcut
    refine ⟨protocol ++ "://", by rw [ht, List.append_assoc]; rfl, ?_⟩
    cases protocol with
    | nil => exact ⟨fun h => absurd ⟨rest, ht.symm⟩ h, fun _ => Nat.zero_lt_succ 2⟩
    | cons c protocol =>
      refine (Text.KeptIf.refl _).congr (iff_of_true trivial ?_)
      rintro ⟨after, rfl⟩
      rw [Text.cut?_append hmark] at hcut
      cases hcut

theorem queryText_of_readQuery {u : Url} {t : Text} (h : u.query = readQuery t) :
    u.queryText = t := by
  have htext (piece : Text) : (readQueryParam piece).text = piece := by
    have hjoin := Text.upTo_append_behind '=' piece
    have hcut : cutAfter "=" piece = (piece.upTo '=', piece.behind? '=') := cutAfter_eq '=' piece
    rw [readQueryParam, hcut, QueryParam.text]
    cases hbehind : piece.behind? '=' with
    | none => simpa [hbehind, Text.ledBy] using hjoin
    | some value => simpa [hbehind, Text.ledBy] using hjoin
  have henabled : u.enabledQuery = u.query := by
    rw [enabledQuery, List.filter_eq_self, h, readQuery]
    split
    · simp
    · intro p hp
      obtain ⟨piece, -, rfl⟩ := List.mem_map.mp hp
      rfl
  rw [queryText, henabled, h, readQuery]
  split
  · next hempty => simp [List.isEmpty_iff.mp hempty, Text.join]
  · have hid : QueryParam.text ∘ readQueryParam = id := funext htext
    rw [List.map_map, hid, List.map_id]
    exact Text.join_splitOn '&' t

theorem queryPart_of_readQuery {u : Url} {part : Option Text}
    (h : u.query = readQuery (part.getD [])) : u.queryPart = optionalPart "?" part := by
  rw [queryPart, queryText_of_readQuery h]
  cases part <;> rfl

theorem join_hostSegments (t : Text) : Text.join "." (hostSegments t) = t := by
  rw [hostSegments]
  split
  · next hempty => simp [List.isEmpty_iff.mp hempty, Text.join]
  · exact Text.join_splitOn '.' t

theorem splitPort_append (authority : Text) :
    (splitPort authority).1 ++ optionalPart ":" (splitPort authority).2 = authority := by
  rw [splitPort]
  split
  · next host port hcut =>
    split
    · simp [optionalPart]
    · next hempty =>
      obtain ⟨c, t, rfl⟩ := List.exists_cons_of_ne_nil (l := port) (by rintro rfl; simp at hempty)
      exact (Text.append_of_cutLast?_eq_some hcut).symm
  · simp [optionalPart]

/-- Host and port are put together as they stood in the authority. -/
theorem hostText_append_port {u : Url} {authority : Text}
    (hhost : u.host = hostSegments (splitPort authority).1)
    (hport : u.port = (splitPort authority).2) :
    u.hostText ++ optionalPart ":" u.port = authority := by
  rw [hostText, hhost, join_hostSegments, hport, splitPort_append]

theorem kept_withoutUser (authority : Text) :
    Text.KeptIf ('@' ∉ authority) (withoutUser authority) authority := by
  unfold withoutUser
  cases hcut : authority.cutLast? '@' with
  | none =>
    have hnone := Text.cutLast?_eq_none_iff.mp hcut
    exact (Text.KeptIf.refl authority).congr (iff_of_true trivial hnone)
  | some cut =>
    have happend := Text.append_of_cutLast?_eq_some hcut
    refine ⟨fun h => absurd ?_ h, fun _ => ?_⟩
    · rw [happend]
      simp
    · rw [happend]
      simp
      omega

theorem kept_dropWhile (path : Text) :
    Text.KeptIf (path.head? ≠ some '/') (path.dropWhile (· = '/')) path := by
  cases path with
  | nil => exact (Text.KeptIf.refl []).congr (by simp)
  | cons c rest =>
    by_cases hc : c = '/'
    · refine ⟨fun h => absurd (congrArg some hc) h, fun _ => ?_⟩
      rw [List.dropWhile_cons_of_pos (by simpa using hc)]
      exact Nat.lt_succ_of_le (List.dropWhile_suffix _).length_le
    · rw [List.dropWhile_cons_of_neg (by simpa using hc)]
      exact (Text.KeptIf.refl (c :: rest)).congr (by simpa using hc)

theorem pathPart_of_pathSegments {u : Url} {path : Text} (h : u.path = pathSegments path) :
    (if u.path.isEmpty then [] else u.pathText) =
      optionalPart "/" (some (path.dropWhile (· = '/'))) := by
  rw [pathText, h, pathSegments]
  cases path.dropWhile (· = '/') with
  | nil => rfl
  | cons c rest =>
    have hne : (Text.splitOn '/' (c :: rest)).isEmpty = false := by
      simpa using Text.splitOn_ne_nil '/' (c :: rest)
    have hjoin : Text.join "/" (Text.splitOn '/' (c :: rest)) = c :: rest :=
      Text.join_splitOn '/' (c :: rest)
    simp only [hne, hjoin]
    rfl

/-- Of a path only the slashes in front of its first segment are lost. -/
theorem kept_path {u : Url} (part : Option Text) (h : u.path = pathSegments (part.getD [])) :
    Text.KeptIf (∀ path, part = some path → path ≠ [] ∧ path.head? ≠ some '/')
      (if u.path.isEmpty then [] else u.pathText) (Text.ledBy '/' part) := by
  rw [pathPart_of_pathSegments h]
  cases part with
  | none => exact (Text.KeptIf.refl []).congr (by simp)
  | some path =>
    have hslashes := kept_dropWhile path
    have hled := (Text.KeptIf.refl ['/']).append hslashes
    have hwritten := Text.kept_optionalPart '/' (some (path.dropWhile (· = '/')))
    refine (hled.trans hwritten).congr ?_
    simp only [true_and, Option.some.injEq, forall_eq', ne_eq]
    rw [and_comm]
    exact and_congr_left fun hhead => by rw [hslashes.same hhead]

/-! ### What is lost -/

/-- A text whose parts are all written as they stand in it: none is empty behind its mark, no slash
stands in front of the path, and there is no user information. -/
structure Intact (t : Text) : Prop where
  scheme : ¬ ("://" : Text) <+: t
  hash : (schemeless t).behind? '#' ≠ some []
  query : (hashless t).behind? '?' ≠ some []
  path : ∀ path, (queryless t).behind? '/' = some path → path ≠ [] ∧ path.head? ≠ some '/'
  user : '@' ∉ (queryless t).upTo '/'

/-- A text of which nothing is lost when it is read as a URL and written again. -/
structure Lossless (raw : Text) : Prop extends Intact raw where
  trim : raw.Trim

/-- What stands between the white space at the ends is taken apart without remainder, so nothing is
lost of it but what is lost of its parts. -/
theorem kept_text (raw : Text) : Text.KeptIf (Intact raw.strip) (ofText raw).text raw.strip := by
  have hread := ofText_eq raw
  dsimp only at hread
  generalize raw.strip = t at hread ⊢
  obtain ⟨lead, hlead, hscheme⟩ := exists_scheme t
  have huser := kept_withoutUser ((queryless t).upTo '/')
  have hpath := kept_path (u := ofText raw) ((queryless t).behind? '/') (by rw [hread])
  have hquery := Text.kept_optionalPart '?' ((hashless t).behind? '?')
  have hhash := Text.kept_optionalPart '#' ((schemeless t).behind? '#')
  have hkept := hscheme.append (((huser.append hpath).append hquery).append hhash)
  rw [Text.upTo_append_behind, queryless, Text.upTo_append_behind, hashless,
    Text.upTo_append_behind, ← hlead, ← hashless, ← queryless] at hkept
  have haddress : (ofText raw).hostText ++ optionalPart ":" (ofText raw).port =
      withoutUser ((queryless t).upTo '/') :=
    hostText_append_port (by rw [hread]) (by rw [hread])
  have hquerypart : (ofText raw).queryPart = optionalPart "?" ((hashless t).behind? '?') :=
    queryPart_of_readQuery (by rw [hread])
  have htext : (ofText raw).text = scheme (ofText raw).protocol ++ (ofText raw).hostText ++
      optionalPart ":" (ofText raw).port ++
        (if (ofText raw).path.isEmpty then [] else (ofText raw).pathText) ++
          (ofText raw).queryPart ++ optionalPart "#" (ofText raw).hash := rfl
  have hprotocol : (ofText raw).protocol = schemeOf t := by rw [hread]
  have hfragment : (ofText raw).hash = (schemeless t).behind? '#' := by rw [hread]
  rw [htext, List.append_assoc (scheme _), haddress, hquerypart, hprotocol, hfragment]
  simp only [List.append_assoc] at hkept ⊢
  refine hkept.congr ⟨?_, ?_⟩
  · rintro ⟨hscheme, ⟨⟨huser, hpath⟩, hquery⟩, hhash⟩
    exact ⟨hscheme, hhash, hquery, hpath, huser⟩
  · rintro ⟨hscheme, hhash, hquery, hpath, huser⟩
    exact ⟨hscheme, ⟨⟨huser, hpath⟩, hquery⟩, hhash⟩

/-- A text is what is written for the URL that is read from it exactly if nothing of it is lost;
else what is written is shorter. -/
theorem text_ofText_eq_iff (raw : Text) :
    ((ofText raw).text = raw ↔ Lossless raw) ∧
      ((ofText raw).text = raw ∨ (ofText raw).text.length < raw.length) := by
  have hkept : Text.KeptIf (Lossless raw) (ofText raw).text raw := by
    refine ((Text.kept_strip raw).trans (kept_text raw)).congr ⟨?_, ?_⟩
    · rintro ⟨htrim, hintact⟩
      rw [Text.strip_eq_self_of_ends htrim.first htrim.last] at hintact
      exact ⟨hintact, htrim⟩
    · rintro ⟨hintact, htrim⟩
      rw [Text.strip_eq_self_of_ends htrim.first htrim.last]
      exact ⟨htrim, hintact⟩
  exact ⟨hkept.eq_iff, hkept.eq_or_lt⟩

/-- Neither a bracket nor a colon is lost, and no empty segment, member or value. -/
example : (ofText "a://[::1]:8:/b//?&=&c#d").text = ("a://[::1]:8:/b//?&=&c#d" : Text) := by decide

end Url
end HttpSnippet

import HttpSnippet.Proofs.Text.Separator
import HttpSnippet.Url.Reader

/-!
# Reading a written URL

A URL is written part after part, each with the mark that leads it, and read by cutting the parts
off again: the scheme at its first mark, the hash, the query and the path at theirs, the port at the
last colon. A part may hold the marks of the parts that were cut off before it.
-/
namespace HttpSnippet

/-- A member of the query that is written and ends where the next one begins. -/
structure QueryParam.Separable (p : QueryParam) : Prop where
  enabled : p.disabled = false
  key : p.key.Avoids "&=#"
  value : ∀ v, p.value = some v → v.Avoids "&#"

theorem QueryParam.Separable.avoids_text {p : QueryParam} (h : p.Separable) :
    p.text.Avoids "&#" := by
  have hkey : p.key.Avoids "&#" := h.key.mono (by decide)
  unfold QueryParam.text
  cases hv : p.value with
  | none => exact hkey
  | some v =>
    exact Text.avoids_append.mpr ⟨hkey, Text.avoids_cons.mpr ⟨by decide, h.value v hv⟩⟩

namespace Url

/-- Each part of the URL can be told from the parts behind it. -/
structure Separable (u : Url) : Prop where
  protocol : ∃ p, u.protocol = some p ∧ p ≠ [] ∧ ¬ ("://" : Text) <:+: p
  host : ∀ segment ∈ u.host, segment.Avoids ".:/?#@"
  host_ne : u.host ≠ [[]]
  port : ∀ t, u.port = some t → t ≠ [] ∧ t.Avoids ":/?#@]"
  path : ∀ segment ∈ u.path, segment.Avoids "/?#"
  path_head : u.path.head? ≠ some []
  query : ∀ p ∈ u.query, p.Separable
  query_ne : u.query ≠ [{ key := [] }]
  pathVariables : u.pathVariables = []
  hash : u.hash ≠ some []
  first : ∀ c ∈ u.text.head?, Text.isBlank c = false
  last : ∀ c ∈ u.text.getLast?, Text.isBlank c = false

/-! ### Parts that are led by a mark -/

theorem avoids_optionalPart {lead marks : Text} {part : Option Text} (hlead : lead.Avoids marks)
    (h : ∀ t, part = some t → t.Avoids marks) : (optionalPart lead part).Avoids marks := by
  match part with
  | none => exact Text.avoids_nil marks
  | some [] => exact Text.avoids_nil marks
  | some (c :: t) => exact Text.avoids_append.mpr ⟨hlead, h _ rfl⟩

/-- A part that was left out because it is empty comes back as one that is absent. -/
theorem cutAfter_optionalPart {mark : Char} {front : Text} (h : mark ∉ front)
    (part : Option Text) :
    cutAfter [mark] (front ++ optionalPart [mark] part) = (front, part.filter (!·.isEmpty)) := by
  match part with
  | none | some [] =>
    rw [optionalPart, List.append_nil, cutAfter, Text.cut?_mark_eq_none h]
    rfl
  | some (c :: t) =>
    have hcut : (front ++ ([mark] ++ c :: t)).cut? [mark] = some (front, c :: t) :=
      Text.cut?_mark h (c :: t)
    rw [optionalPart, cutAfter, hcut]
    · rfl
    · simp

theorem filter_eq_self {part : Option Text} (h : part ≠ some []) :
    part.filter (!·.isEmpty) = part := by
  match part with
  | none => rfl
  | some [] => exact absurd rfl h
  | some (c :: t) => rfl

theorem getD_filter (t : Text) : ((some t).filter (!·.isEmpty)).getD [] = t := by
  cases t <;> rfl

/-! ### Reading each part -/

theorem readQueryParam_text {p : QueryParam} (h : p.Separable) : readQueryParam p.text = p := by
  obtain ⟨key, value, disabled⟩ := p
  obtain rfl : disabled = false := h.enabled
  have hkey : '=' ∉ key := h.key '=' (by decide)
  cases value with
  | none => simp [readQueryParam, cutAfter, QueryParam.text, Text.cut?_mark_eq_none hkey]
  | some v => simp [readQueryParam, cutAfter, QueryParam.text, Text.cut?_mark hkey]

variable {u : Url}

theorem hostSegments_hostText (h : ∀ segment ∈ u.host, '.' ∉ segment) (hne : u.host ≠ [[]]) :
    hostSegments u.hostText = u.host := by
  by_cases hhost : u.host = []
  · simp [hostSegments, hostText, hhost, Text.join]
  · have htext : u.hostText ≠ [] := mt Text.join_eq_nil_iff.mp (not_or.mpr ⟨hhost, hne⟩)
    rw [hostSegments, if_neg (by simpa using htext)]
    exact Text.splitOn_join h hhost

/-- No slash is dropped in front of a path whose first segment is not empty. -/
theorem pathSegments_join {path : List Text} (h : ∀ segment ∈ path, '/' ∉ segment)
    (hhead : path.head? ≠ some []) : pathSegments (Text.join "/" path) = path := by
  match path with
  | [] => rfl
  | [] :: rest => exact absurd rfl hhead
  | (c :: segment) :: rest =>
    have hc : c ≠ '/' := fun hc => h _ List.mem_cons_self (hc ▸ List.mem_cons_self)
    have hjoin := Text.join_cons_left "/" c segment rest
    have hsplit : Text.splitOn '/' (Text.join "/" ((c :: segment) :: rest)) =
        (c :: segment) :: rest := Text.splitOn_join h (List.cons_ne_nil _ _)
    rw [hjoin] at hsplit ⊢
    rw [pathSegments, List.dropWhile_cons_of_neg (by simpa using hc)]
    exact hsplit

theorem enabledQuery_eq (h : ∀ p ∈ u.query, p.Separable) : u.enabledQuery = u.query :=
  List.filter_eq_self.mpr fun p hp => by simp [(h p hp).enabled]

theorem readQuery_queryText (h : ∀ p ∈ u.query, p.Separable) (hne : u.query ≠ [{ key := [] }]) :
    readQuery u.queryText = u.query := by
  rw [queryText, enabledQuery_eq h]
  by_cases hquery : u.query = []
  · simp [readQuery, hquery, Text.join]
  · have htexts : u.query.map (·.text) ≠ [[]] := by
      intro htexts
      obtain ⟨p, hp, htext⟩ := List.map_eq_singleton_iff.mp htexts
      have hparam : readQueryParam p.text = p := readQueryParam_text (h p (by simp [hp]))
      rw [htext] at hparam
      exact hne (by rw [hp, ← hparam]; rfl)
    have hjoin : Text.join "&" (u.query.map (·.text)) ≠ [] :=
      mt Text.join_eq_nil_iff.mp (not_or.mpr ⟨by simpa using hquery, htexts⟩)
    have hpieces : ∀ piece ∈ u.query.map (·.text), '&' ∉ piece := by
      intro piece hpiece
      obtain ⟨p, hp, rfl⟩ := List.mem_map.mp hpiece
      exact (h p hp).avoids_text '&' (by decide)
    have hsplit : Text.splitOn '&' (Text.join "&" (u.query.map (·.text))) =
        u.query.map (·.text) := Text.splitOn_join hpieces (by simpa using hquery)
    rw [readQuery, if_neg (by simpa using hjoin), hsplit, List.map_map]
    have hread : u.query.map (readQueryParam ∘ (·.text)) = u.query.map id :=
      List.map_congr_left fun p hp => readQueryParam_text (h p hp)
    rw [hread, List.map_id]

theorem splitPort_optionalPart {host : Text} {port : Option Text} (hhost : ':' ∉ host)
    (hport : ∀ t, port = some t → t ≠ [] ∧ t.Avoids ":/?#@]") :
    splitPort (host ++ optionalPart ":" port) = (host, port) := by
  match port with
  | none => simp [splitPort, optionalPart, Text.cutLast?_eq_none hhost]
  | some [] => exact absurd rfl (hport [] rfl).1
  | some (c :: t) =>
    obtain ⟨-, hmarks⟩ := hport _ rfl
    have hcut : Text.cutLast? ':' (host ++ ':' :: c :: t) = some (host, c :: t) :=
      Text.cutLast?_mark (hmarks ':' (by decide)) host
    have hbracket : (c :: t).contains ']' = false := by simpa using hmarks ']' (by decide)
    have hpart : optionalPart ":" (some (c :: t)) = ':' :: c :: t := rfl
    rw [hpart, splitPort, hcut]
    simp only [hbracket, List.isEmpty_cons, Bool.or_false, Bool.false_eq_true, if_false]

/-! ### Reading the whole -/

/-- The path is a part that a slash leads. -/
theorem pathPart_eq (hhead : u.path.head? ≠ some []) :
    (if u.path.isEmpty then [] else u.pathText) =
      optionalPart "/" (some (Text.join "/" u.path)) := by
  match hpath : u.path with
  | [] => rfl
  | [] :: rest => exact absurd (by rw [hpath]; rfl) hhead
  | (c :: segment) :: rest =>
    rw [Text.join_cons_left, pathText, hpath, Text.join_cons_left]
    rfl

/-- Once it is known where the parts are cut, only their own texts are left to read. -/
theorem ofText_of_cuts {raw protocol rest front address authority : Text}
    {hash query path : Option Text}
    (hprotocol : raw.strip.cut? "://" = some (protocol, rest))
    (hhash : cutAfter "#" rest = (front, hash)) (hquery : cutAfter "?" front = (address, query))
    (hpath : cutAfter "/" address = (authority, path)) (huser : authority.cutLast? '@' = none) :
    ofText raw =
      { protocol := some protocol
        host := hostSegments (splitPort authority).1
        port := (splitPort authority).2
        path := pathSegments (path.getD [])
        query := readQuery (query.getD [])
        hash } := by
  simp only [ofText, hprotocol, hhash, hquery, hpath, huser]

namespace Separable

theorem avoids_authority (h : u.Separable) :
    (u.hostText ++ optionalPart ":" u.port).Avoids "/?#@" := by
  refine Text.avoids_append.mpr ⟨?_, ?_⟩
  · exact Text.avoids_join (by decide) fun segment hs => (h.host segment hs).mono (by decide)
  · exact avoids_optionalPart (by decide) fun t ht => (h.port t ht).2.mono (by decide)

theorem avoids_path (h : u.Separable) :
    (optionalPart "/" (some (Text.join "/" u.path))).Avoids "?#" := by
  refine avoids_optionalPart (by decide) fun t ht => ?_
  obtain rfl := Option.some.inj ht
  exact Text.avoids_join (by decide) fun segment hs => (h.path segment hs).mono (by decide)

theorem avoids_query (h : u.Separable) : u.queryPart.Avoids "#" := by
  refine avoids_optionalPart (by decide) fun t ht => ?_
  obtain rfl := Option.some.inj ht
  rw [queryText, enabledQuery_eq h.query]
  refine Text.avoids_join (by decide) fun piece hpiece => ?_
  obtain ⟨p, hp, rfl⟩ := List.mem_map.mp hpiece
  exact (h.query p hp).avoids_text.mono (by decide)

end Separable

/-- A URL whose parts can be told from each other is read as it was written. -/
theorem ofText_text (h : u.Separable) : ofText u.text = u := by
  obtain ⟨protocol, hprotocol, hne, hscheme⟩ := h.protocol
  let authority := u.hostText ++ optionalPart ":" u.port
  let address := authority ++ optionalPart "/" (some (Text.join "/" u.path))
  let front := address ++ u.queryPart
  have hauthority : authority.Avoids "/?#@" := h.avoids_authority
  have haddress : address.Avoids "?#" :=
    Text.avoids_append.mpr ⟨hauthority.mono (by decide), h.avoids_path⟩
  have hfront : front.Avoids "#" :=
    Text.avoids_append.mpr ⟨haddress.mono (by decide), h.avoids_query⟩
  have htext : u.text = protocol ++ (("://" : Text) ++ (front ++ optionalPart "#" u.hash)) := by
    obtain ⟨c, t, rfl⟩ := List.exists_cons_of_ne_nil hne
    rw [text, hprotocol, pathPart_eq h.path_head]
    simp only [front, address, authority, List.append_assoc]
  have hstrip : u.text.strip = u.text := Text.strip_eq_self_of_ends h.first h.last
  have hread := ofText_of_cuts
    (by rw [hstrip, htext]; exact Text.cut?_separator (by decide) hscheme _)
    (cutAfter_optionalPart (hfront '#' (by decide)) u.hash)
    (cutAfter_optionalPart (haddress '?' (by decide)) (some u.queryText))
    (cutAfter_optionalPart (hauthority '/' (by decide)) (some (Text.join "/" u.path)))
    (Text.cutLast?_eq_none (hauthority '@' (by decide)))
  have hcolon : ':' ∉ u.hostText :=
    Text.avoids_join (by decide) (fun segment hs => (h.host segment hs).mono (by decide)) ':'
      (List.mem_singleton_self ':')
  have hdots : ∀ segment ∈ u.host, '.' ∉ segment :=
    fun segment hs => h.host segment hs '.' (by decide)
  have hslashes : ∀ segment ∈ u.path, '/' ∉ segment :=
    fun segment hs => h.path segment hs '/' (by decide)
  rw [hread, splitPort_optionalPart hcolon h.port, getD_filter, getD_filter,
    filter_eq_self h.hash, hostSegments_hostText hdots h.host_ne,
    pathSegments_join hslashes h.path_head, readQuery_queryText h.query h.query_ne, ← hprotocol]
  have hvariables := h.pathVariables
  cases u
  cases hvariables
  rfl

/-- The marks of a part stand in the parts behind it, and host, path and query hold empty texts. -/
theorem ofText_text_of_marks :
    let u : Url :=
      { protocol := some "a:/"
        host := ["", "x y", ""]
        port := some "p."
        path := ["@:", "", "&=", ""]
        query := [{ key := "?://", value := some "=?/@:" }, { key := "" },
          { key := "", value := some "" }]
        hash := some "#?&://@" }
    u.Separable ∧ ofText u.text = u := by
  intro u
  have h : u.Separable :=
    { protocol := ⟨_, rfl, by decide, by decide⟩
      host := by decide
      host_ne := by decide
      port := by
        rintro t ⟨⟩
        decide
      path := by decide
      path_head := by decide
      query := by
        refine List.forall_mem_cons.mpr ⟨⟨rfl, by decide, ?_⟩, List.forall_mem_cons.mpr
          ⟨⟨rfl, by decide, ?_⟩, List.forall_mem_singleton.mpr ⟨rfl, by decide, ?_⟩⟩⟩
        · rintro v ⟨⟩
          decide
        · rintro v ⟨⟩
        · rintro v ⟨⟩
          decide
      query_ne := by decide
      pathVariables := rfl
      hash := by decide
      first := by
        rintro c ⟨⟩
        rfl
      last := by
        rintro c ⟨⟩
        rfl }
  exact ⟨h, ofText_text h⟩

end Url
end HttpSnippet

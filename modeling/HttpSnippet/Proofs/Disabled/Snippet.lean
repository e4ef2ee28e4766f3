import HttpSnippet.Proofs.Body.Room
import HttpSnippet.Proofs.Containment.Node
import HttpSnippet.Proofs.Containment.Php
import HttpSnippet.Proofs.Disabled.Normal

/-!
# Snippets without disabled members

Writers look at enabled members only, so a snippet stays the same when disabled ones are taken out.
There are two exceptions. Disabled members of the query may keep credentials away, which then show
up in the address; and a Node program still sends a body for a form with nothing but disabled
members. Both can be seen in the text, so they are the only exceptions. Disabled form members are
copied, though, so a conversion can fail for them alone.
-/
namespace HttpSnippet

/-! ### Texts around a place -/

theorem Fragment.exists_join_around (sep : Fragment) (before after : List Fragment) :
    ∃ u v, ∀ f, join sep (before ++ f :: after) = u ++ f ++ v := by
  induction before with
  | nil =>
    cases after with
    | nil => exact ⟨[], [], fun f => by simp [join]⟩
    | cons g gs => exact ⟨[], sep ++ join sep (g :: gs), fun f => by simp [join_cons_cons]⟩
  | cons e es ih =>
    obtain ⟨u, v, h⟩ := ih
    refine ⟨e ++ sep ++ u, v, fun f => ?_⟩
    obtain ⟨g, gs, hg⟩ := List.exists_cons_of_ne_nil (l := es ++ f :: after) (by simp)
    rw [List.cons_append, hg, join_cons_cons, ← hg, h]
    simp

theorem Program.newline_mem_render {p : Program} (hp : p ≠ []) (indent : Text) :
    '\n' ∈ p.render indent := by
  obtain ⟨l, ls, rfl⟩ := List.exists_cons_of_ne_nil hp
  simp [render, Line.render]

theorem Dialect.escape_append (d : Dialect) (t u : Text) :
    d.escape (t ++ u) = d.escape t ++ d.escape u := List.flatMap_append

/-- A longer text makes a longer literal. -/
theorem Dialect.length_escape_lt (d : Dialect) (before : Text) {t : Text} (ht : t ≠ [])
    (after : Text) :
    (d.escape (before ++ after)).length < (d.escape (before ++ t ++ after)).length := by
  have hpos : 0 < (d.escape t).length := by
    obtain ⟨c, t, rfl⟩ := List.exists_cons_of_ne_nil ht
    have hc : 0 < (d.escapeChar c).length := by
      unfold escapeChar
      split <;> simp
    rw [escape, List.flatMap_cons, List.length_append]
    omega
  simp only [escape_append, List.length_append]
  omega

/-- A literal of JavaScript stands on one line. -/
theorem newline_notMem_escape (t : Text) : '\n' ∉ Dialect.javascript.escape t := by
  intro h
  obtain ⟨c, -, hc⟩ := List.mem_flatMap.mp h
  unfold Dialect.escapeChar at hc
  split at hc
  case h_5 hn _ =>
    exact hn rfl (List.mem_singleton.mp hc).symm
  all_goals simp at hc

/-! ### The query -/

theorem intercalate_concat {α : Type} (sep x : List α) {xs : List (List α)} (hxs : xs ≠ []) :
    sep.intercalate (xs ++ [x]) = sep.intercalate xs ++ sep ++ x := by
  induction xs with
  | nil => exact absurd rfl hxs
  | cons y ys ih =>
    cases ys with
    | nil => simp
    | cons z zs =>
      have h := ih (List.cons_ne_nil z zs)
      rw [List.cons_append] at h
      rw [List.cons_append, List.cons_append, List.intercalate_cons_cons, h,
        List.intercalate_cons_cons]
      simp only [List.append_assoc]

namespace Request

/-- One more enabled member of the query is one more part of the text. -/
theorem queryPart_addQuery {p : QueryParam} (hp : p.disabled = false) (htext : p.text ≠ [])
    (r : Request) :
    ∃ t, t ≠ [] ∧ (r.addQuery [p]).url.queryPart = r.url.queryPart ++ t := by
  have henabled : (r.addQuery [p]).url.enabledQuery = r.url.enabledQuery ++ [p] := by
    simp [addQuery, Url.enabledQuery, hp]
  have hpart {t : Text} (ht : t ≠ []) : Url.optionalPart "?" (some t) = '?' :: t := by
    obtain ⟨c, t, rfl⟩ := List.exists_cons_of_ne_nil ht
    rfl
  unfold Url.queryPart Url.queryText Text.join
  rw [henabled, List.map_append, List.map_singleton]
  by_cases hnil : r.url.enabledQuery.map (·.text) = []
  · refine ⟨'?' :: p.text, List.cons_ne_nil _ _, ?_⟩
    rw [hnil, List.nil_append, List.intercalate_singleton, hpart htext]
    rfl
  · rw [intercalate_concat _ _ hnil]
    generalize List.intercalate _ (r.url.enabledQuery.map (·.text)) = query
    rw [hpart (List.append_ne_nil_of_right_ne_nil _ htext)]
    cases query with
    | nil => exact ⟨_, List.cons_ne_nil _ _, rfl⟩
    | cons c cs =>
      refine ⟨'&' :: p.text, List.cons_ne_nil _ _, ?_⟩
      rw [hpart (List.cons_ne_nil c cs), List.append_assoc]
      rfl

theorem addQuery_nil (r : Request) : r.addQuery [] = r := by
  rw [addQuery, List.append_nil]

/-! ### What is sent -/

theorem content?_enabledOnly (r : Request) :
    r.enabledOnly.body.bind (·.content?) =
      ((r.body.bind (·.content?)).map (·.enabledOnly)).filter (!·.isEmpty) := by
  cases hb : r.body with
  | none => simp [enabledOnly, hb]
  | some b => simpa [enabledOnly, hb] using b.content?_enabledOnly

theorem content?_of_sendsNothing {r : Request} (h : r.SendsNothing) :
    r.enabledOnly.body.bind (·.content?) = none := by
  obtain ⟨p, hp, hempty⟩ := h
  rw [content?_enabledOnly, hp]
  simp [hempty]

theorem content?_of_not_sendsNothing {r : Request} (h : ¬ r.SendsNothing) :
    r.enabledOnly.body.bind (·.content?) = (r.body.bind (·.content?)).map (·.enabledOnly) := by
  rw [content?_enabledOnly]
  cases hp : r.body.bind (·.content?) with
  | none => rfl
  | some p =>
    have hempty : p.enabledOnly.isEmpty = false :=
      Bool.eq_false_iff.mpr fun hempty => h ⟨p, hp, hempty⟩
    simp [hempty]

end Request

/-! ### Node -/

namespace Node

theorem formChunks_filter (trim : Bool) (boundary : Text) (params : List FormParam) :
    formChunks trim boundary (params.filter (!·.disabled)) = formChunks trim boundary params := by
  induction params with
  | nil => rfl
  | cons p ps ih =>
    cases hp : p.disabled with
    | true => rw [List.filter_cons_of_neg (by simp [hp]), ih, formChunks, if_pos hp]
    | false => rw [List.filter_cons_of_pos (by simp [hp]), formChunks, formChunks, ih]

theorem payloadBody_enabledOnly (boundary : Text) (trim : Bool) (contentType : Option Text)
    (p : Payload) :
    payloadBody boundary trim contentType p.enabledOnly =
      payloadBody boundary trim contentType p := by
  cases p with
  | urlencoded params =>
    have hpairs : urlencodedPairs trim (params.filter (!·.disabled)) =
        urlencodedPairs trim params := by simp [urlencodedPairs]
    simp only [Payload.enabledOnly, payloadBody, urlencodedBody, hpairs]
  | formdata params =>
    simp only [Payload.enabledOnly, payloadBody, formdataBody, formChunks_filter]
  | _ => rfl

theorem body?_enabledOnly {r : Request} (h : ¬ r.SendsNothing) (boundary : Text) (o : Options) :
    body? boundary o r.enabledOnly = body? boundary o r := by
  rw [body?, body?, Request.content?_of_not_sendsNothing h, Request.header?_enabledOnly,
    Option.map_map]
  congr 1
  funext p
  exact payloadBody_enabledOnly boundary o.trimBody _ p

/-- The lines that send the body. -/
def sending (boundary : Text) (o : Options) (r : Request) : Program :=
  ((body? boundary o r).map (bodyLines boundary (r.method = ("DELETE" : Text))
    (r.body.any (·.mode = BodyMode.formdata.name)))).getD []

/-- Whether the body needs the module for queries. -/
def usesQuerystring (boundary : Text) (o : Options) (r : Request) : Bool :=
  (body? boundary o r).any fun f => ("qs." : Text).isPrefixOf (f.render [])

/-- The entries of the options object, given those for the port. -/
def entriesWith (o : Options) (r : Request) (port : List Fragment) : List Fragment :=
  let redirects : List Fragment :=
    if o.followRedirect then [property "maxRedirects" [.code (Text.ofNat maxRedirects)]] else []
  [methodEntry r, hostEntry r] ++ port ++ [pathEntry r, headersEntry r] ++ redirects

/-- The program, given the entries for the port. -/
def document (boundary : Text) (o : Options) (r : Request) (port : List Fragment) : Program :=
  layout o (clientModule r) (usesQuerystring boundary o r) (entriesWith o r port)
    (sending boundary o r)

/-- Only the port, the timeout and the room for the body can keep a program from being written. -/
theorem program_eq [Host] (boundary : Text) (o : Options) (r : Request) :
    program boundary o r = (do
      checkBody o r
      let port ← portEntries r
      checkNumeral o.requestTimeout
      return document boundary o r port) := by
  unfold program optionEntries
  simp only [bind_assoc, pure_bind, filter_body?]
  rfl

theorem program_eq_ok [Host] {boundary : Text} {o : Options} {r : Request} {p : Program} :
    program boundary o r = .ok p ↔
      ∃ port, portEntries r = .ok port ∧
        (checkBody o r = .ok () ∧ checkNumeral o.requestTimeout = .ok ()) ∧
        p = document boundary o r port := by
  rw [program_eq]
  simp only [bind_eq_ok, pure, Except.pure, Except.ok.injEq]
  constructor
  · rintro ⟨⟨⟩, hbody, port, hport, ⟨⟩, hcheck, hp⟩
    exact ⟨port, hport, ⟨hbody, hcheck⟩, hp.symm⟩
  · rintro ⟨port, hport, ⟨hbody, hcheck⟩, hp⟩
    exact ⟨(), hbody, port, hport, (), hcheck, hp.symm⟩

theorem portEntries_congr {r r' : Request} (h : r'.url.port = r.url.port) :
    portEntries r' = portEntries r := by
  unfold portEntries portEntry
  rw [h]

/-- Programs for requests with one port have the same entries for it. -/
theorem exists_documents [Host] {boundary : Text} {o : Options} {r r' : Request}
    (hport : r'.url.port = r.url.port) {p p' : Program} (h : program boundary o r = .ok p)
    (h' : program boundary o r' = .ok p') :
    ∃ port, p = document boundary o r port ∧ p' = document boundary o r' port := by
  obtain ⟨port, hentries, -, rfl⟩ := program_eq_ok.mp h
  obtain ⟨port', hentries', -, rfl⟩ := program_eq_ok.mp h'
  rw [portEntries_congr hport] at hentries'
  obtain rfl : port = port' := Except.ok.inj (hentries.symm.trans hentries')
  exact ⟨port, rfl, rfl⟩

theorem entriesWith_enabledOnly (o : Options) (r : Request) (port : List Fragment) :
    entriesWith o r.enabledOnly port = entriesWith o r port := by
  have hpath : pathEntry r.enabledOnly = pathEntry r := by
    unfold pathEntry Url.pathAndQuery Url.queryPart Url.queryText
    rw [Request.enabledQuery_enabledOnly]
    rfl
  have hheaders : headersEntry r.enabledOnly = headersEntry r := by
    unfold headersEntry headerGroups
    rw [Request.enabledHeaders_enabledOnly]
  unfold entriesWith
  rw [hpath, hheaders]
  rfl

theorem document_enabledOnly {r : Request} (h : ¬ r.SendsNothing) (boundary : Text) (o : Options)
    (port : List Fragment) :
    document boundary o r.enabledOnly port = document boundary o r port := by
  have hform : r.enabledOnly.body.any (·.mode = BodyMode.formdata.name) =
      r.body.any (·.mode = BodyMode.formdata.name) := by
    rw [Request.enabledOnly]
    cases r.body <;> rfl
  unfold document usesQuerystring sending
  rw [entriesWith_enabledOnly, body?_enabledOnly h, hform]
  rfl

/-- Lines that send something come on top of the other lines. -/
theorem count_layout_lt {sending : Program} (hs : sending ≠ []) (indent : Text) (o : Options)
    (client : Text) (usesQuerystring : Bool) (entries : List Fragment) :
    ((layout o client false entries []).render indent).count '\n' <
      ((layout o client usesQuerystring entries sending).render indent).count '\n' := by
  have hlines := List.count_pos_iff.mpr (Program.newline_mem_render hs indent)
  have hwhen (p : Program) : (Program.when false p).render indent = [] := rfl
  have hempty : Program.render indent [] = [] := rfl
  simp only [layout, Program.render_append, List.count_append, hwhen, hempty, List.count_nil]
  omega

/-- A body without members is still sent. -/
theorem count_document_enabledOnly {r : Request} (h : r.SendsNothing) (boundary indent : Text)
    (o : Options) (port : List Fragment) :
    ((document boundary o r.enabledOnly port).render indent).count '\n' <
      ((document boundary o r port).render indent).count '\n' := by
  have hnone : body? boundary o r.enabledOnly = none := by
    rw [body?, Request.content?_of_sendsNothing h, Option.map_none]
  have hdocument : document boundary o r.enabledOnly port =
      layout o (clientModule r) false (entriesWith o r port) [] := by
    rw [document, usesQuerystring, sending, hnone, entriesWith_enabledOnly]
    rfl
  have hsending : sending boundary o r ≠ [] := by
    obtain ⟨p, hp, -⟩ := h
    simp [sending, body?, hp, bodyLines]
  rw [hdocument]
  exact count_layout_lt hsending indent o _ _ _

theorem exists_layout_around (o : Options) (client : Text) (usesQuerystring : Bool)
    (sending : Program) :
    ∃ top bottom : Program, ∀ entries, layout o client usesQuerystring entries sending =
      top ++ ⟨1, Fragment.commaLines 1 entries⟩ :: bottom := by
  refine ⟨[?client, ?files] ++ Program.when usesQuerystring ?querystring ++ [?gap, ?opening],
    ?bottom, fun entries => ?layout⟩
  case layout =>
    simp only [layout, List.append_assoc, List.cons_append, List.nil_append]
    rfl

/-- The query is in a program at one place. -/
theorem exists_document_around (boundary indent : Text) (o : Options) (r : Request)
    (port : List Fragment) :
    ∃ u v, ∀ members, (document boundary o (r.addQuery members) port).render indent =
      u ++ Dialect.javascript.escape (r.addQuery members).url.pathAndQuery ++ v := by
  obtain ⟨before, after, h⟩ := Fragment.exists_join_around [.code ",", .newline 1]
    ([methodEntry r, hostEntry r] ++ port) (headersEntry r ::
      if o.followRedirect then [property "maxRedirects" [.code (Text.ofNat maxRedirects)]] else [])
  have hentries (members : List QueryParam) :
      Fragment.commaLines 1 (entriesWith o (r.addQuery members) port) =
        before ++ pathEntry (r.addQuery members) ++ after := by
    rw [← h]
    simp only [entriesWith, List.append_assoc, List.cons_append, List.nil_append]
    rfl
  obtain ⟨top, bottom, hlayout⟩ := exists_layout_around o (clientModule r)
    (usesQuerystring boundary o r) (sending boundary o r)
  refine ⟨top.render indent ++ Text.repeated 1 indent ++ Fragment.render indent before ++
    "'path': '", '\'' :: Fragment.render indent after ++ '\n' :: bottom.render indent,
    fun members => ?_⟩
  have hdocument : document boundary o (r.addQuery members) port =
      top ++ ⟨1, before ++ pathEntry (r.addQuery members) ++ after⟩ :: bottom := by
    rw [← hentries, ← hlayout]
    rfl
  have hpath : Fragment.render indent (pathEntry (r.addQuery members)) =
      "'path': '" ++ Dialect.javascript.escape (r.addQuery members).url.pathAndQuery ++ ['\''] := by
    simp [pathEntry, property, quoted, Fragment.render, Piece.render]
    rfl
  rw [hdocument, Program.render_append, Program.render_cons, Line.render, Fragment.renderAt,
    Fragment.render_append, Fragment.render_append, hpath]
  simp only [List.append_assoc, List.cons_append, List.nil_append]

/-- Credentials in the query stand on the line that the query is on. -/
theorem count_document_addQuery (boundary indent : Text) (o : Options) (r : Request)
    (port : List Fragment) (p : QueryParam) :
    ((document boundary o (r.addQuery [p]) port).render indent).count '\n' =
      ((document boundary o r port).render indent).count '\n' := by
  obtain ⟨u, v, h⟩ := exists_document_around boundary indent o r port
  have hr := h []
  rw [Request.addQuery_nil] at hr
  simp only [h, hr, List.count_append, List.count_eq_zero.mpr (newline_notMem_escape _)]

theorem length_document_addQuery {p : QueryParam} (hp : p.disabled = false) (htext : p.text ≠ [])
    (boundary indent : Text) (o : Options) (r : Request) (port : List Fragment) :
    ((document boundary o r port).render indent).length <
      ((document boundary o (r.addQuery [p]) port).render indent).length := by
  obtain ⟨u, v, h⟩ := exists_document_around boundary indent o r port
  have hr := h []
  rw [Request.addQuery_nil] at hr
  obtain ⟨t, ht, hquery⟩ := Request.queryPart_addQuery hp htext r
  have hlonger := Dialect.javascript.length_escape_lt r.url.pathAndQuery ht []
  have hpath : (r.addQuery [p]).url.pathAndQuery = r.url.pathAndQuery ++ t := by
    rw [Url.pathAndQuery, hquery, Url.pathAndQuery, List.append_assoc]
    rfl
  rw [List.append_nil, List.append_nil, ← hpath] at hlonger
  simp only [h, hr, List.length_append]
  omega

end Node

/-! ### PHP -/

namespace Php

theorem payloadLines_enabledOnly (trim : Bool) (p : Payload) :
    payloadLines trim p.enabledOnly = payloadLines trim p := by
  cases p with
  | urlencoded params => simp [Payload.enabledOnly, payloadLines, urlencodedBody]
  | formdata params => simp [Payload.enabledOnly, payloadLines, formdataBody]
  | _ => rfl

/-- Nothing is written for a payload without enabled members. -/
theorem payloadLines_of_isEmpty {trim : Bool} {p : Payload} (hp : p.isEmpty = false)
    (h : p.enabledOnly.isEmpty = true) : payloadLines trim p = [] := by
  rw [← payloadLines_enabledOnly]
  cases p with
  | urlencoded params =>
    rw [Payload.enabledOnly, Payload.isEmpty, List.isEmpty_iff] at h
    rw [Payload.enabledOnly, h]
    rfl
  | formdata params =>
    rw [Payload.enabledOnly, Payload.isEmpty, List.isEmpty_iff] at h
    rw [Payload.enabledOnly, h]
    rfl
  | _ => exact absurd h (Bool.eq_false_iff.mp hp)

theorem bodyLines_enabledOnly (o : Options) (r : Request) :
    bodyLines o r.enabledOnly = bodyLines o r := by
  unfold bodyLines
  by_cases h : r.SendsNothing
  · rw [Request.content?_of_sendsNothing h]
    obtain ⟨p, hp, hempty⟩ := h
    obtain ⟨b, -, hb⟩ := Option.bind_eq_some_iff.mp hp
    have hfull : p.isEmpty = false := by simpa using (Option.filter_eq_some_iff.mp hb).2
    rw [hp, Option.map_some, payloadLines_of_isEmpty hfull hempty]
    rfl
  · rw [Request.content?_of_not_sendsNothing h, Option.map_map]
    congr 2
    funext p
    exact payloadLines_enabledOnly o.trimBody p

theorem layout_enabledOnly (o : Options) (r : Request) :
    layout o (urlLine r.enabledOnly) (methodLine r.enabledOnly) (headerLines r.enabledOnly)
        (bodyLines o r.enabledOnly) =
      layout o (urlLine r) (methodLine r) (headerLines r) (bodyLines o r) := by
  have hurl : urlLine r.enabledOnly = urlLine r := by
    unfold urlLine Url.text Url.queryPart Url.queryText
    rw [Request.enabledQuery_enabledOnly]
    rfl
  have hheaders : headerLines r.enabledOnly = headerLines r := by
    rw [headerLines, Request.enabledHeaders_enabledOnly, headerLines]
  rw [hurl, hheaders, bodyLines_enabledOnly]
  rfl

theorem length_program_addQuery [Host] {p : QueryParam} (hp : p.disabled = false)
    (htext : p.text ≠ []) (indent : Text) {o : Options} {r : Request} {q q' : Program}
    (h : program o r = .ok q)
    (h' : program o (r.addQuery [p]) = .ok q') :
    (q.render indent).length < (q'.render indent).length := by
  obtain ⟨config, hconfig, rfl⟩ := layout_eq_ok.mp (program_eq_ok.mp h).2
  obtain ⟨config', hconfig', rfl⟩ := layout_eq_ok.mp (program_eq_ok.mp h').2
  obtain rfl := Except.ok.inj (hconfig.symm.trans hconfig')
  obtain ⟨t, ht, hquery⟩ := Request.queryPart_addQuery hp htext r
  have hurl : ((urlLine r).render indent).length <
      ((urlLine (r.addQuery [p])).render indent).length := by
    have hlonger : (Dialect.php.escape r.url.text).length <
        (Dialect.php.escape (r.addQuery [p]).url.text).length := by
      rw [Url.text, Url.text, hquery]
      simp only [← List.append_assoc]
      exact Dialect.php.length_escape_lt _ ht _
    simpa [urlLine, setter, quoted, Line.render, Fragment.renderAt, Fragment.render,
      Piece.render] using hlonger
  have hmethod : methodLine (r.addQuery [p]) = methodLine r := rfl
  have hheaders : headerLines (r.addQuery [p]) = headerLines r := rfl
  have hbody : bodyLines o (r.addQuery [p]) = bodyLines o r := rfl
  simp only [Program.render_append, Program.render_cons, List.length_append, hmethod, hheaders,
    hbody]
  omega

end Php

/-! ### Checks of the body -/

/-- A check of a payload that looks at no disabled member, and has nothing against a form. -/
theorem Request.forM_content?_enabledOnly {check : Payload → Except WriteError Unit}
    (hsame : ∀ p, check p.enabledOnly = check p)
    (hform : ∀ p, p.isEmpty = false → p.enabledOnly.isEmpty = true → check p = .ok ())
    (r : Request) :
    (r.enabledOnly.body.bind (·.content?)).forM check = (r.body.bind (·.content?)).forM check := by
  by_cases h : r.SendsNothing
  · rw [content?_of_sendsNothing h]
    obtain ⟨p, hp, hempty⟩ := h
    obtain ⟨b, -, hb⟩ := Option.bind_eq_some_iff.mp hp
    have hfull : p.isEmpty = false := by simpa using (Option.filter_eq_some_iff.mp hb).2
    rw [hp]
    exact (hform p hfull hempty).symm
  · rw [content?_of_not_sendsNothing h]
    cases r.body.bind (·.content?) with
    | none => rfl
    | some p => exact hsame p

section Runs

variable [Host]

theorem Node.checkBody_enabledOnly (o : Options) (r : Request) :
    checkBody o r.enabledOnly = checkBody o r := by
  unfold checkBody
  rw [Request.header?_enabledOnly]
  refine Request.forM_content?_enabledOnly (fun p => by cases p <;> rfl)
    (fun p hfull hempty => ?_) r
  cases p with
  | urlencoded params | formdata params => rfl
  | raw text | file source | graphql payload => exact absurd hempty (Bool.eq_false_iff.mp hfull)

theorem Php.checkBody_enabledOnly (o : Options) (r : Request) :
    checkBody o r.enabledOnly = checkBody o r := by
  refine Request.forM_content?_enabledOnly (fun p => by cases p <;> rfl)
    (fun p hfull hempty => ?_) r
  cases p with
  | urlencoded params | formdata params => rfl
  | raw text | file source | graphql payload => exact absurd hempty (Bool.eq_false_iff.mp hfull)

/-! ### Conversions -/

theorem Php.program_enabledOnly (o : Options) (r : Request) :
    program o r.enabledOnly = program o r := by
  rw [program, checkBody_enabledOnly, layout_enabledOnly, program]

/-- Whether a program can be written depends on the options, the port and the room for the body. -/
theorem Node.program_eq_error {boundary : Text} {o : Options} {r r' : Request}
    (hport : r'.url.port = r.url.port) (hbody : checkBody o r' = checkBody o r) {e : WriteError}
    (h : program boundary o r = .error e) : program boundary o r' = .error e := by
  rw [program_eq] at h ⊢
  rw [hbody, portEntries_congr hport]
  simpa only [bind_eq_error, pure, Except.pure, reduceCtorEq, and_false, exists_false,
    or_false] using h

theorem Php.program_eq_error {o : Options} {r r' : Request} (hbody : checkBody o r' = checkBody o r)
    {e : WriteError} (h : program o r = .error e) : program o r' = .error e := by
  unfold program layout at h ⊢
  rw [hbody]
  simpa only [bind_eq_error, pure, Except.pure, reduceCtorEq, and_false, exists_false,
    or_false] using h

namespace Converter

omit [Host] in
theorem checkMode_enabledOnly (r : Request) :
    checkMode r.enabledOnly.body = checkMode r.body := by
  rw [Request.enabledOnly]
  cases r.body <;> rfl

/-- The copy of a request needs as much room as the deepest source of a form member. -/
theorem checkCopy_enabledOnly_eq_error {r : Request} {e : WriteError} :
    checkCopy r.enabledOnly = .error e ↔
      (∃ p ∈ (r.body.bind (·.formdata)).getD [], p.disabled = false ∧
        Host.room .copy < p.src.depth) ∧ e = .tooDeep .copying := by
  have hmembers : (r.enabledOnly.body.bind (·.formdata)).getD [] =
      ((r.body.bind (·.formdata)).getD []).filter (!·.disabled) := by
    rw [Request.enabledOnly]
    cases r.body with
    | none => rfl
    | some b => cases hb : b.formdata <;> simp [Body.enabledOnly, hb]
  rw [checkCopy_eq_error, hmembers]
  simp only [List.mem_filter, Bool.not_eq_true', and_assoc]

theorem checkCopy_enabledOnly_eq_ok {r : Request} (h : checkCopy r = .ok ()) :
    checkCopy r.enabledOnly = .ok () := by
  rw [eq_ok_iff_forall_ne] at h ⊢
  intro e he
  obtain ⟨⟨p, hp, -, hdeep⟩, rfl⟩ := checkCopy_enabledOnly_eq_error.mp he
  exact h _ (checkCopy_eq_error.mpr ⟨⟨p, hp, hdeep⟩, rfl⟩)

theorem checkCredentials_enabledOnly (r : Request) :
    checkCredentials r.enabledOnly = checkCredentials r := by
  unfold checkCredentials
  rw [Request.hasHeader_enabledOnly]
  rfl

theorem program_eq_error (c : Converter) {o : Options} {r : Request} {e : WriteError}
    (h : c.program o r.normalize = .error e) : c.program o r.enabledOnly.normalize = .error e := by
  have hnormal : ∃ r', r.enabledOnly.normalize = r' ∧ r'.url.port = r.normalize.url.port ∧
      Node.checkBody o r' = Node.checkBody o r.normalize ∧
      Php.checkBody o r' = Php.checkBody o r.normalize := by
    by_cases hblocks : r.BlocksCredential
    · obtain ⟨p, -, -, hnormal⟩ := Request.normalize_enabledOnly_of_blocks hblocks
      exact ⟨_, hnormal, rfl, Node.checkBody_enabledOnly o r.normalize,
        Php.checkBody_enabledOnly o r.normalize⟩
    · exact ⟨_, Request.normalize_enabledOnly hblocks, rfl,
        Node.checkBody_enabledOnly o r.normalize, Php.checkBody_enabledOnly o r.normalize⟩
  obtain ⟨r', hnormal, hport, hnode, hphp⟩ := hnormal
  rw [hnormal]
  unfold program at h ⊢
  cases hc : c.target with
  | node =>
    rw [hc] at h
    exact Node.program_eq_error hport hnode h
  | php =>
    rw [hc] at h
    exact Php.program_eq_error hphp h

/-- A failure stays as it is without the disabled members, unless it is for want of room to copy
them. -/
theorem generateFor_eq_error {c : Converter} {r : Request} {options : Value} {e : ConversionError}
    (he : e ≠ .write (.tooDeep .copying)) (h : c.generateFor r options = .error e) :
    c.generateFor r.enabledOnly options = .error e := by
  unfold generateFor snippet assemble at h ⊢
  rw [checkMode_enabledOnly, checkCredentials_enabledOnly]
  simp only [bind_eq_error, mapError_eq_error, pure, Except.pure, reduceCtorEq, and_false,
    exists_false, or_false] at h ⊢
  rcases h with h | ⟨u, hu, h | ⟨o, ho, e', h | ⟨⟨⟩, hcopied, h⟩, rfl⟩⟩
  · exact .inl h
  · exact .inr ⟨u, hu, .inl h⟩
  · obtain ⟨-, rfl⟩ := checkCopy_eq_error.mp h
    exact absurd rfl he
  · refine .inr ⟨u, hu, .inr ⟨o, ho, e', .inr ⟨(), checkCopy_enabledOnly_eq_ok hcopied, ?_⟩, rfl⟩⟩
    rcases h with h | ⟨u', hu', h | ⟨indent, hi, h⟩⟩
    · exact .inl h
    · exact .inr ⟨u', hu', .inl h⟩
    · exact .inr ⟨u', hu', .inr ⟨indent, hi, c.program_eq_error h⟩⟩

theorem snippet_eq_copying {c : Converter} {o : Options} {r : Request} :
    c.snippet o r = .error (.tooDeep .copying) ↔ checkCopy r = .error (.tooDeep .copying) := by
  refine bind_eq_error.trans (or_iff_left ?_)
  rintro ⟨-, -, h⟩
  rcases bind_eq_error.mp h with h | ⟨-, -, h⟩
  · obtain ⟨a, -, -, -, -, he⟩ := checkCredentials_eq_error.mp h
    cases he
  rcases bind_eq_error.mp h with h | ⟨indent, -, h⟩
  · obtain ⟨fault, -, he⟩ := mapError_eq_error.mp h
    cases he
  rcases bind_eq_error.mp h with h | ⟨p, -, h⟩
  · cases ofProgram_of_program h with
    | depth hne => exact hne rfl
  · cases h

/-- A conversion has no room for the copy of a request exactly if the stages before it succeed and a
form member has a source that is too deep. -/
theorem generateFor_eq_copying {c : Converter} {r : Request} {options : Value} :
    c.generateFor r options = .error (.write (.tooDeep .copying)) ↔
      checkMode r.body = .ok () ∧ (∃ o, mergeOptions options = .ok o) ∧
        checkCopy r = .error (.tooDeep .copying) := by
  have hmode (h : (checkMode r.body).mapError .write =
      .error (ConversionError.write (.tooDeep .copying))) : False := by
    obtain ⟨e, he, heq⟩ := mapError_eq_error.mp h
    cases heq
    unfold checkMode at he
    split at he
    · cases he
    · split at he <;> cases he
  have hoptions (h : mergeOptions options = .error (.write (.tooDeep .copying))) : False := by
    unfold mergeOptions at h
    split at h <;> cases h
  unfold generateFor
  simp only [bind_eq_error, mapError_eq_ok, mapError_eq_error, ConversionError.write.injEq]
  constructor
  · rintro (h | ⟨⟨⟩, hchecked, h | ⟨o, ho, e, he, rfl⟩⟩)
    · exact (hmode (mapError_eq_error.mpr (by simpa using h))).elim
    · exact (hoptions h).elim
    · exact ⟨hchecked, ⟨o, ho⟩, snippet_eq_copying.mp he⟩
  · rintro ⟨hchecked, ⟨o, ho⟩, hcopy⟩
    exact .inr ⟨(), hchecked, .inr ⟨o, ho, _, snippet_eq_copying.mpr hcopy, rfl⟩⟩

/-- Disabled members have no effect where credentials are not kept away and something is sent. -/
theorem program_normalize_enabledOnly {c : Converter} {r : Request} (h : ¬ r.BlocksCredential)
    (hs : c.target = .node → ¬ r.SendsNothing) (o : Options) :
    c.program o r.enabledOnly.normalize = c.program o r.normalize := by
  rw [Request.normalize_enabledOnly h]
  unfold program
  cases hc : c.target with
  | node =>
    have hsends := mt (Request.sendsNothing_normalize r).mp (hs hc)
    simp only [Node.program_eq, Node.document_enabledOnly hsends, Node.checkBody_enabledOnly]
    rfl
  | php => exact Php.program_enabledOnly o r.normalize

/-- Credentials that come once disabled members are gone show up in the text. -/
theorem render_ne_of_blocks {c : Converter} {r : Request} (h : r.BlocksCredential) {o : Options}
    {p p' : Program} (hp : c.program o r.normalize = .ok p)
    (hp' : c.program o r.enabledOnly.normalize = .ok p') (indent : Text) :
    p'.render indent ≠ p.render indent := by
  obtain ⟨q, hq, htext, hnormal⟩ := Request.normalize_enabledOnly_of_blocks h
  rw [hnormal] at hp'
  intro heq
  unfold program at hp hp'
  cases hc : c.target with
  | node =>
    rw [hc] at hp hp'
    have hport : (r.normalize.enabledOnly.addQuery [q]).url.port = r.normalize.url.port := rfl
    obtain ⟨port, rfl, rfl⟩ := Node.exists_documents hport hp hp'
    by_cases hs : r.normalize.SendsNothing
    · have hlines := Node.count_document_enabledOnly hs c.boundary indent o port
      rw [← Node.count_document_addQuery _ _ _ _ _ q, heq] at hlines
      exact Nat.lt_irrefl _ hlines
    · have hlonger := Node.length_document_addQuery hq htext c.boundary indent o
        r.normalize.enabledOnly port
      rw [heq, Node.document_enabledOnly hs] at hlonger
      exact Nat.lt_irrefl _ hlonger
  | php =>
    rw [hc] at hp hp'
    rw [← Php.program_enabledOnly] at hp
    have hlonger := Php.length_program_addQuery hq htext indent hp hp'
    rw [heq] at hlonger
    exact Nat.lt_irrefl _ hlonger

/-- The lines that send a body without members show up in a Node program. -/
theorem render_ne_of_sendsNothing {c : Converter} {r : Request} (hc : c.target = .node)
    (hs : r.SendsNothing) (hb : ¬ r.BlocksCredential) {o : Options} {p p' : Program}
    (hp : c.program o r.normalize = .ok p) (hp' : c.program o r.enabledOnly.normalize = .ok p')
    (indent : Text) : p'.render indent ≠ p.render indent := by
  rw [Request.normalize_enabledOnly hb] at hp'
  unfold program at hp hp'
  rw [hc] at hp hp'
  have hport : r.normalize.enabledOnly.url.port = r.normalize.url.port := rfl
  obtain ⟨port, rfl, rfl⟩ := Node.exists_documents hport hp hp'
  intro heq
  have hlines := Node.count_document_enabledOnly ((Request.sendsNothing_normalize r).mpr hs)
    c.boundary indent o port
  rw [heq] at hlines
  exact Nat.lt_irrefl _ hlines

/-- A conversion without the disabled members gives the same result exactly if the conversion fails,
or no disabled member keeps credentials away and, for Node, the body is not a form of nothing but
disabled members; and if, where it fails because there is no room to copy the request, an enabled
form member has a source that is too deep. -/
theorem generateFor_enabledOnly_iff (c : Converter) (r : Request) (options : Value) :
    c.generateFor r.enabledOnly options = c.generateFor r options ↔
      ((∃ e, c.generateFor r options = .error e) ∨
        (¬ r.BlocksCredential ∧ (c.target = .node → ¬ r.SendsNothing))) ∧
      (c.generateFor r options = .error (.write (.tooDeep .copying)) →
        ∃ p ∈ (r.body.bind (·.formdata)).getD [], p.disabled = false ∧
          Host.room .copy < p.src.depth) := by
  constructor
  · refine fun heq => ⟨?_, fun hcopy => ?_⟩
    · cases h : c.generateFor r options with
      | error e => exact .inl ⟨e, rfl⟩
      | ok s =>
        rw [h] at heq
        obtain ⟨-, o, ho, -, p, hp, rfl⟩ := generateFor_eq_ok.mp h
        obtain ⟨-, o', ho', -, p', hp', htext⟩ := generateFor_eq_ok.mp heq
        obtain rfl : o = o' := Except.ok.inj (ho.symm.trans ho')
        have hb : ¬ r.BlocksCredential := fun hb =>
          render_ne_of_blocks hb hp hp' o.indent htext.symm
        exact .inr ⟨hb, fun hc hs =>
          render_ne_of_sendsNothing hc hs hb hp hp' o.indent htext.symm⟩
    · rw [hcopy, generateFor_eq_copying] at heq
      exact (checkCopy_enabledOnly_eq_error.mp heq.2.2).1
  · rintro ⟨hsame, hdeep⟩
    cases h : c.generateFor r options with
    | error e =>
      by_cases he : e = .write (.tooDeep .copying)
      · rw [he] at h ⊢
        obtain ⟨hmode, ho, -⟩ := generateFor_eq_copying.mp h
        exact generateFor_eq_copying.mpr ⟨(checkMode_enabledOnly r).trans hmode, ho,
          checkCopy_enabledOnly_eq_error.mpr ⟨hdeep h, rfl⟩⟩
      · exact generateFor_eq_error he h
    | ok s =>
      obtain ⟨hb, hs⟩ := hsame.resolve_left fun ⟨e, he⟩ => by cases h.symm.trans he
      obtain ⟨hmode, o, ho, haffords, p, hp, rfl⟩ := generateFor_eq_ok.mp h
      refine generateFor_eq_ok.mpr ⟨(checkMode_enabledOnly r).trans hmode, o, ho, ?_, p, ?_, rfl⟩
      · exact ⟨checkCopy_enabledOnly_eq_ok haffords.copied,
          (checkCredentials_enabledOnly r).trans haffords.encoded, haffords.indented⟩
      · rw [program_normalize_enabledOnly hb hs, hp]

end Converter

end Runs

namespace Converter

attribute [local instance] Host.usual

/-- A disabled member of the query keeps an API key of its name away, and a Node program sends the
empty body of a form with a disabled member only. -/
theorem generateFor_enabledOnly_ne :
    let blocked : Request :=
      { url := { host := ["h"], query := [{ key := "k", value := some "old", disabled := true }] }
        auth := some { kind := .apikey, key := "k", value := "v", location := "query" } }
    let empty : Request :=
      { method := "POST"
        url := { host := ["h"] }
        body := some
          { mode := "urlencoded", urlencoded := some [{ key := "a", disabled := true }] } }
    (∀ target : Target, (⟨target, defaultBoundary⟩ : Converter).generateFor blocked.enabledOnly
        .null ≠ (⟨target, defaultBoundary⟩ : Converter).generateFor blocked .null) ∧
      (⟨.node, defaultBoundary⟩ : Converter).generateFor empty.enabledOnly .null ≠
        (⟨.node, defaultBoundary⟩ : Converter).generateFor empty .null := by
  intro blocked empty
  constructor
  · intro target h
    have htext := congrArg Except.toOption h
    cases target <;> exact absurd htext (by decide +kernel)
  · intro h
    have htext := congrArg Except.toOption h
    exact absurd htext (by decide +kernel)

end Converter
end HttpSnippet

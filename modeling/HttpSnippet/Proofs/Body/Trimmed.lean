import HttpSnippet.Proofs.Disabled.Snippet
import HttpSnippet.Proofs.Options.Mapping
import HttpSnippet.Proofs.Text.Blank

/-!
# Trimmed bodies

The option to trim a body does what the caller could do beforehand: every writer strips the texts of
its payload and nothing else of it. Only for raw text that is nothing but white space there is a
difference, since whether there is a body is decided before anything is stripped.
-/
namespace HttpSnippet

/-! ### Payloads -/

namespace UrlencodedParam

def trimmed (p : UrlencodedParam) : UrlencodedParam :=
  { p with key := p.key.strip, value := p.value.strip }

end UrlencodedParam

namespace FormParam

/-- The value of a file member is not sent and stays. -/
def trimmed (p : FormParam) : FormParam :=
  { p with
    key := p.key.strip
    value := if p.kind = .text then p.value.strip else p.value }

theorem expand_trimmed (p : FormParam) : p.trimmed.expand = p.expand.map (·.trimmed) := by
  obtain ⟨key, kind, value, src, disabled, contentType⟩ := p
  cases kind with
  | text => rfl
  | file =>
    cases src with
    | list vs =>
      cases vs with
      | nil => rfl
      | cons v vs => simp [expand, trimmed]
    | _ => rfl

theorem flatMap_expand_trimmed (params : List FormParam) :
    (params.map (·.trimmed)).flatMap (·.expand) = (params.flatMap (·.expand)).map (·.trimmed) := by
  rw [List.flatMap_map, List.map_flatMap]
  simp only [expand_trimmed]

end FormParam

def GraphqlPayload.trimmed (payload : GraphqlPayload) : GraphqlPayload :=
  { payload with query := payload.query.strip }

def Payload.trimmed : Payload → Payload
  | .raw t => .raw t.strip
  | .urlencoded params => .urlencoded (params.map (·.trimmed))
  | .formdata params => .formdata (params.map (·.trimmed))
  | .file source => .file source
  | .graphql payload => .graphql payload.trimmed

/-- Raw text that is there, but nothing except white space. -/
def Payload.BlankRaw (p : Payload) : Prop := ∃ t, p = .raw t ∧ t ≠ [] ∧ ∀ c ∈ t, Text.isBlank c

theorem Payload.isEmpty_trimmed {p : Payload} (h : ¬ p.BlankRaw) :
    p.trimmed.isEmpty = p.isEmpty := by
  cases p with
  | raw t =>
    rw [Bool.eq_iff_iff]
    simp only [trimmed, isEmpty, List.isEmpty_iff, Text.strip_eq_nil_iff]
    refine ⟨fun hblank => ?_, fun ht => by simp [ht]⟩
    exact Classical.byContradiction fun ht => h ⟨t, rfl, ht, hblank⟩
  | _ => simp [trimmed, isEmpty]

namespace Body

/-- The body with the texts of its payloads stripped. -/
def trimmed (b : Body) : Body :=
  { b with
    raw := b.raw.map (·.strip)
    urlencoded := b.urlencoded.map (·.map (·.trimmed))
    formdata := b.formdata.map (·.map (·.trimmed))
    graphql := b.graphql.map (·.trimmed) }

theorem expandFormdata_trimmed (b : Body) :
    b.trimmed.expandFormdata = b.expandFormdata.trimmed := by
  unfold expandFormdata
  by_cases hm : b.mode = BodyMode.formdata.name
  · rw [if_pos hm, if_pos (show b.trimmed.mode = _ from hm)]
    simp [trimmed, Function.comp_def, FormParam.flatMap_expand_trimmed]
  · rw [if_neg hm, if_neg (show b.trimmed.mode ≠ _ from hm)]

theorem payload?_trimmed (b : Body) : b.trimmed.payload? = b.payload?.map (·.trimmed) := by
  obtain ⟨mode, raw, urlencoded, formdata, file, graphql⟩ := b
  simp only [payload?, trimmed]
  cases BodyMode.ofName? mode with
  | none => rfl
  | some m => cases m <;> simp [Function.comp_def, Payload.trimmed]

theorem payload?_eq_raw {b : Body} {t : Text} :
    b.payload? = some (.raw t) ↔ b.mode = BodyMode.raw.name ∧ b.raw = some t := by
  obtain ⟨mode, raw, urlencoded, formdata, file, graphql⟩ := b
  simp only [payload?]
  constructor
  · intro h
    cases hmode : BodyMode.ofName? mode with
    | none => simp [hmode] at h
    | some m =>
      cases m with
      | raw => exact ⟨(BodyMode.name_of_ofName? hmode).symm, by simpa [hmode] using h⟩
      | _ => simp [hmode] at h
  · rintro ⟨rfl, rfl⟩
    rfl

end Body

/-! ### Requests -/

namespace Request

/-- The request with the texts of its body stripped. -/
def trimmed (r : Request) : Request := { r with body := r.body.map (·.trimmed) }

/-- The body is raw text, and that is there but nothing except white space. -/
def BlankRaw (r : Request) : Prop :=
  ∃ b t, r.body = some b ∧ b.mode = BodyMode.raw.name ∧ b.raw = some t ∧ t ≠ [] ∧
    ∀ c ∈ t, Text.isBlank c

theorem not_blankRaw_of_payload? {r : Request} (h : ¬ r.BlankRaw) {b : Body}
    (hb : r.body = some b) {p : Payload} (hp : b.payload? = some p) : ¬ p.BlankRaw := by
  rintro ⟨t, rfl, ht, hblank⟩
  obtain ⟨hmode, hraw⟩ := Body.payload?_eq_raw.mp hp
  exact h ⟨b, t, hb, hmode, hraw, ht, hblank⟩

/-- What is sent of the stripped texts is what is sent, stripped. -/
theorem content?_trimmed {r : Request} (h : ¬ r.BlankRaw) :
    r.trimmed.body.bind (·.content?) = (r.body.bind (·.content?)).map (·.trimmed) := by
  cases hb : r.body with
  | none => simp [trimmed, hb]
  | some b =>
    simp only [trimmed, hb, Option.map_some, Option.bind_some, Body.content?, Body.payload?_trimmed]
    cases hp : b.payload? with
    | none => rfl
    | some p =>
      have hempty := Payload.isEmpty_trimmed (not_blankRaw_of_payload? h hb hp)
      cases he : p.isEmpty <;> simp [Option.filter, hempty, he]

/-! ### Steps towards a normal form -/

theorem applyAuth_trimmed (r : Request) : r.trimmed.applyAuth = r.applyAuth.trimmed := by
  unfold applyAuth
  rw [show r.trimmed.auth = r.auth from rfl]
  cases r.auth.bind (·.credential?) with
  | none => rfl
  | some c =>
    have hcarries : r.trimmed.carries c = r.carries c := by cases c <;> rfl
    simp only [hcarries]
    split
    · rfl
    · cases c <;> rfl

theorem expandBody_trimmed (r : Request) : r.trimmed.expandBody = r.expandBody.trimmed := by
  simp [expandBody, trimmed, Function.comp_def, Body.expandFormdata_trimmed]

theorem addContentType_trimmed (r : Request) :
    r.trimmed.addContentType = r.addContentType.trimmed := by
  have hmissing : r.trimmed.missingType? = r.missingType? := by
    refine missingType?_congr rfl ?_
    rw [trimmed]
    cases r.body <;> rfl
  unfold addContentType
  rw [hmissing]
  cases r.missingType? <;> rfl

/-- Stripping the texts of a body commutes with the normal form. -/
theorem normalize_trimmed (r : Request) : r.trimmed.normalize = r.normalize.trimmed := by
  have hresolve : r.trimmed.resolveUrl = r.resolveUrl.trimmed := rfl
  rw [normalize, hresolve, applyAuth_trimmed, expandBody_trimmed, addContentType_trimmed,
    normalize]

theorem blankRaw_normalize (r : Request) : r.normalize.BlankRaw ↔ r.BlankRaw := by
  have hsame {b : Body} (hmode : b.mode = BodyMode.raw.name) : b.expandFormdata = b :=
    if_neg (by rw [hmode]; decide)
  unfold BlankRaw
  rw [body_normalize]
  constructor
  · rintro ⟨b', t, hb, hmode, hraw, hrest⟩
    obtain ⟨b, hb', rfl⟩ := Option.map_eq_some_iff.mp hb
    rw [mode_expandFormdata] at hmode
    rw [hsame hmode] at hraw
    exact ⟨b, t, hb', hmode, hraw, hrest⟩
  · rintro ⟨b, t, hb, hmode, hraw, hrest⟩
    exact ⟨b, t, by rw [hb, Option.map_some, hsame hmode], hmode, hraw, hrest⟩

/-- Text that is nothing but white space is sent, and nothing is once it has been stripped. -/
theorem content?_of_blankRaw {r : Request} (h : r.BlankRaw) :
    (∃ t, r.body.bind (·.content?) = some (.raw t)) ∧
      r.trimmed.body.bind (·.content?) = none := by
  obtain ⟨b, t, hb, hmode, hraw, ht, hblank⟩ := h
  have hpayload := Body.payload?_eq_raw.mpr ⟨hmode, hraw⟩
  have hstrip : t.strip = [] := Text.strip_eq_nil_iff.mpr hblank
  constructor
  · exact ⟨t, by simp [hb, Body.content?, hpayload, Option.filter, Payload.isEmpty, ht]⟩
  · simp [trimmed, hb, Body.content?, Body.payload?_trimmed, hpayload, Option.filter,
      Payload.trimmed, Payload.isEmpty, hstrip]

end Request

/-! ### Writers -/

namespace Node

theorem urlencodedPairs_trimmed (params : List UrlencodedParam) :
    urlencodedPairs false (params.map (·.trimmed)) = urlencodedPairs true params := by
  simp [urlencodedPairs, List.filter_map, Function.comp_def, UrlencodedParam.trimmed,
    Text.trimmed]

theorem formChunks_trimmed (boundary : Text) (params : List FormParam) :
    formChunks false boundary (params.map (·.trimmed)) = formChunks true boundary params := by
  induction params with
  | nil => rfl
  | cons p ps ih =>
    obtain ⟨key, kind, value, src, disabled, contentType⟩ := p
    rw [List.map_cons, formChunks, formChunks, ih]
    cases kind <;> rfl

theorem payloadBody_trimmed (boundary : Text) (contentType : Option Text) (p : Payload) :
    payloadBody boundary false contentType p.trimmed = payloadBody boundary true contentType p := by
  cases p with
  | urlencoded params =>
    simp only [Payload.trimmed, payloadBody, urlencodedBody, urlencodedPairs_trimmed]
  | formdata params => simp only [Payload.trimmed, payloadBody, formdataBody, formChunks_trimmed]
  | _ => rfl

variable {r : Request} (h : ¬ r.BlankRaw) (o : Options)
include h

theorem body?_trimmed (boundary : Text) :
    body? boundary { o with trimBody := false } r.trimmed =
      body? boundary { o with trimBody := true } r := by
  rw [body?, body?, Request.content?_trimmed h, Option.map_map]
  congr 1
  funext p
  exact payloadBody_trimmed boundary _ p

theorem checkBody_trimmed [Host] :
    checkBody { o with trimBody := false } r.trimmed = checkBody { o with trimBody := true } r := by
  rw [checkBody, checkBody, Request.content?_trimmed h]
  cases r.body.bind (·.content?) with
  | none => rfl
  | some p => cases p <;> rfl

theorem program_trimmed [Host] (boundary : Text) :
    program boundary { o with trimBody := false } r.trimmed =
      program boundary { o with trimBody := true } r := by
  have hform : r.trimmed.body.any (·.mode = BodyMode.formdata.name) =
      r.body.any (·.mode = BodyMode.formdata.name) := by
    rw [Request.trimmed]
    cases r.body <;> rfl
  unfold program
  rw [checkBody_trimmed h, body?_trimmed h, hform]
  rfl

omit h in
/-- Text that is nothing but white space is still written and sent. -/
theorem count_program_trimmed [Host] (h : r.BlankRaw) {boundary : Text} {p p' : Program}
    (hp : program boundary { o with trimBody := true } r = .ok p)
    (hp' : program boundary { o with trimBody := false } r.trimmed = .ok p') (indent : Text) :
    (p'.render indent).count '\n' < (p.render indent).count '\n' := by
  obtain ⟨⟨t, hsome⟩, hnone⟩ := Request.content?_of_blankRaw h
  obtain ⟨port, hport, -, rfl⟩ := program_eq_ok.mp hp
  obtain ⟨port', hport', -, rfl⟩ := program_eq_ok.mp hp'
  obtain rfl : port = port' := Except.ok.inj (hport.symm.trans hport')
  have hbody : body? boundary { o with trimBody := false } r.trimmed = none := by
    rw [body?, hnone, Option.map_none]
  have hdocument : document boundary { o with trimBody := false } r.trimmed port =
      layout o (clientModule r) false (entriesWith o r port) [] := by
    rw [document, usesQuerystring, sending, hbody]
    rfl
  have hsending : sending boundary { o with trimBody := true } r ≠ [] := by
    simp [sending, body?, hsome, bodyLines]
  rw [hdocument]
  exact count_layout_lt hsending indent o _ _ _

end Node

namespace Php

theorem formdataBody_trimmed (params : List FormParam) :
    formdataBody false (params.map (·.trimmed)) = formdataBody true params := by
  have hselect (kind : FormKind) :
      ((params.map (·.trimmed)).filter (!·.disabled)).filter (·.kind = kind) =
        ((params.filter (!·.disabled)).filter (·.kind = kind)).map (·.trimmed) := by
    simp [List.filter_map, Function.comp_def, FormParam.trimmed]
  have hentry : ∀ p ∈ (params.filter (!·.disabled)).filter (·.kind = .text),
      arrow (p.trimmed.key.trimmed false) [quoted (p.trimmed.value.trimmed false)] =
        arrow (p.key.trimmed true) [quoted (p.value.trimmed true)] := by
    intro p hp
    have hkind : p.kind = .text := by simpa using (List.mem_filter.mp hp).2
    simp [FormParam.trimmed, hkind, Text.trimmed]
  have hupload : upload false ∘ FormParam.trimmed = upload true := rfl
  unfold formdataBody
  simp only [hselect, List.map_map, hupload]
  congr 2
  exact List.map_congr_left hentry

theorem payloadLines_trimmed (p : Payload) :
    payloadLines false p.trimmed = payloadLines true p := by
  cases p with
  | urlencoded params =>
    simp [Payload.trimmed, payloadLines, urlencodedBody, List.filter_map, Function.comp_def,
      UrlencodedParam.trimmed, Text.trimmed]
  | formdata params => exact formdataBody_trimmed params
  | _ => rfl

theorem checkBody_trimmed [Host] {r : Request} (h : ¬ r.BlankRaw) (o : Options) :
    checkBody { o with trimBody := false } r.trimmed = checkBody { o with trimBody := true } r := by
  rw [checkBody, checkBody, Request.content?_trimmed h]
  cases r.body.bind (·.content?) with
  | none => rfl
  | some p => cases p <;> rfl

theorem program_trimmed [Host] {r : Request} (h : ¬ r.BlankRaw) (o : Options) :
    program { o with trimBody := false } r.trimmed = program { o with trimBody := true } r := by
  have hbody : bodyLines { o with trimBody := false } r.trimmed =
      bodyLines { o with trimBody := true } r := by
    rw [bodyLines, bodyLines, Request.content?_trimmed h, Option.map_map]
    congr 2
    funext p
    exact payloadLines_trimmed p
  rw [program, checkBody_trimmed h, hbody]
  rfl

theorem length_program_trimmed [Host] {r : Request} (h : r.BlankRaw) {o : Options} {p p' : Program}
    (hp : program { o with trimBody := true } r = .ok p)
    (hp' : program { o with trimBody := false } r.trimmed = .ok p') (indent : Text) :
    (p'.render indent).length < (p.render indent).length := by
  obtain ⟨⟨t, hsome⟩, hnone⟩ := Request.content?_of_blankRaw h
  obtain ⟨config, hconfig, rfl⟩ := layout_eq_ok.mp (program_eq_ok.mp hp).2
  obtain ⟨config', hconfig', rfl⟩ := layout_eq_ok.mp (program_eq_ok.mp hp').2
  obtain rfl : config = config' := Except.ok.inj (hconfig.symm.trans hconfig')
  have hbody : bodyLines { o with trimBody := false } r.trimmed = [] := by
    rw [bodyLines, hnone]
    rfl
  have hsending : bodyLines { o with trimBody := true } r ≠ [] := by
    simp [bodyLines, hsome, payloadLines, rawBody]
  have hpos := List.length_pos_of_mem (Program.newline_mem_render hsending indent)
  have hurl : urlLine r.trimmed = urlLine r := rfl
  have hmethod : methodLine r.trimmed = methodLine r := rfl
  have hheaders : headerLines r.trimmed = headerLines r := rfl
  simp only [Program.render_append, Program.render_cons, List.length_append, hurl, hmethod,
    hheaders, hbody]
  have hempty : Program.render indent [] = [] := rfl
  rw [hempty, List.length_nil]
  omega

end Php

/-! ### Conversions -/

namespace Converter

/-- Sources of form members are not stripped. -/
theorem checkCopy_trimmed [Host] (r : Request) : checkCopy r.trimmed = checkCopy r := by
  have hmembers : (r.trimmed.body.bind (·.formdata)).getD [] =
      ((r.body.bind (·.formdata)).getD []).map (·.trimmed) := by
    rw [Request.trimmed]
    cases r.body with
    | none => rfl
    | some b => cases hb : b.formdata <;> simp [Body.trimmed, hb]
  unfold checkCopy
  rw [hmembers]
  simp only [List.all_map]
  rfl

theorem program_trimmed [Host] (c : Converter) {r : Request} (h : ¬ r.BlankRaw) (o : Options) :
    c.program { o with trimBody := false } r.trimmed =
      c.program { o with trimBody := true } r := by
  unfold program
  cases c.target with
  | node => exact Node.program_trimmed h o c.boundary
  | php => exact Php.program_trimmed h o

theorem render_ne_of_blankRaw [Host] {c : Converter} {r : Request} (h : r.BlankRaw) {o : Options}
    {p p' : Program} (hp : c.program { o with trimBody := true } r = .ok p)
    (hp' : c.program { o with trimBody := false } r.trimmed = .ok p') (indent : Text) :
    p'.render indent ≠ p.render indent := by
  intro heq
  unfold program at hp hp'
  cases hc : c.target with
  | node =>
    rw [hc] at hp hp'
    have hlines := Node.count_program_trimmed o h hp hp' indent
    rw [heq] at hlines
    exact Nat.lt_irrefl _ hlines
  | php =>
    rw [hc] at hp hp'
    have hlength := Php.length_program_trimmed h hp hp' indent
    rw [heq] at hlength
    exact Nat.lt_irrefl _ hlength

end Converter

/-- The options of a mapping in which the trimming is set. -/
theorem Options.ofMapping_insertEntry_trim (entries : Fields) (b : Bool) :
    ofMapping (Value.insertEntry (.str "trimRequestBody") (.bool b) entries) =
      { ofMapping entries with trimBody := b } := by
  have hother (id : Text) (hid : ("trimRequestBody" : Text) ≠ id) {α : Type}
      (read : Value → Option α) (d : α) :
      given (Value.insertEntry (.str "trimRequestBody") (.bool b) entries) id read d =
        given entries id read d := by
    rw [given_insertEntry, if_neg hid]
  unfold ofMapping
  rw [hother _ (by decide), hother _ (by decide), hother _ (by decide), hother _ (by decide),
    given_insertEntry]
  rfl

/-- Trimming a body gives what an untrimmed conversion gives for the body that was stripped
beforehand. -/
theorem Converter.generateFor_trimmed [Host] (c : Converter) {r : Request} (hr : ¬ r.BlankRaw)
    {entries : Fields} (h : entries.TextKeys) :
    c.generateFor r (.map (Value.insertEntry (.str "trimRequestBody") (.bool true) entries)) =
      c.generateFor r.trimmed
        (.map (Value.insertEntry (.str "trimRequestBody") (.bool false) entries)) := by
  have hmode : checkMode r.trimmed.body = checkMode r.body := by
    rw [Request.trimmed]
    cases r.body <;> rfl
  have hprogram := c.program_trimmed (mt r.blankRaw_normalize.mp hr) (Options.ofMapping entries)
  unfold generateFor snippet assemble
  rw [hmode, checkCopy_trimmed, mergeOptions_map (h.insertEntry _ _),
    mergeOptions_map (h.insertEntry _ _), Options.ofMapping_insertEntry_trim,
    Options.ofMapping_insertEntry_trim,
    Request.normalize_trimmed]
  simp only [bind, Except.bind, hprogram]
  rfl

section

attribute [local instance] Host.usual

/-- Keys that are one key without their margins, a value and two files of one member, with an option
that is taken and one that is not. -/
theorem Converter.generateFor_trimmed_formdata :
    let paths : Value := .list [.str " /a ", .str "/b"]
    let params : List FormParam := [
      { key := " k", value := "v\n" },
      { key := "f ", kind := .file, src := paths },
      { key := "k\t", contentType := some " text/plain " }]
    let r : Request :=
      { method := "POST", body := some { mode := "formdata", formdata := some params } }
    let entries : Fields := [(.str "indentType", .str "tab"), (.str "requestTimeout", .null)]
    entries.TextKeys ∧ ¬ r.BlankRaw ∧ ∀ target : Target,
      let c : Converter := ⟨target, defaultBoundary⟩
      let trimming := c.generateFor r
        (.map (Value.insertEntry (.str "trimRequestBody") (.bool true) entries))
      trimming = c.generateFor r.trimmed
        (.map (Value.insertEntry (.str "trimRequestBody") (.bool false) entries)) ∧
        trimming.toOption.isSome = true := by
  intro paths params r entries
  have hkeys : entries.TextKeys := by simp [entries, Fields.TextKeys]
  have hraw : ¬ r.BlankRaw := by
    rintro ⟨b, t, hb, hmode, -⟩
    obtain rfl := Option.some.inj hb
    exact absurd hmode (by decide)
  refine ⟨hkeys, hraw, fun target => ⟨generateFor_trimmed _ hraw hkeys, ?_⟩⟩
  cases target <;> decide +kernel

end

/-- For text that is nothing but white space the two snippets differ. -/
theorem Converter.generateFor_trimmed_ne [Host] {c : Converter} {r : Request} (hr : r.BlankRaw)
    {entries : Fields} (h : entries.TextKeys) {s : Text}
    (hs : c.generateFor r
      (.map (Value.insertEntry (.str "trimRequestBody") (.bool true) entries)) = .ok s) :
    c.generateFor r.trimmed
      (.map (Value.insertEntry (.str "trimRequestBody") (.bool false) entries)) ≠ .ok s := by
  intro hs'
  obtain ⟨-, o, ho, -, p, hp, rfl⟩ := generateFor_eq_ok.mp hs
  obtain ⟨-, o', ho', -, p', hp', htext⟩ := generateFor_eq_ok.mp hs'
  rw [mergeOptions_map (h.insertEntry _ _), Options.ofMapping_insertEntry_trim] at ho ho'
  obtain rfl := Except.ok.inj ho
  obtain rfl := Except.ok.inj ho'
  rw [Request.normalize_trimmed] at hp'
  exact render_ne_of_blankRaw (r.blankRaw_normalize.mpr hr) hp hp' _ htext.symm

end HttpSnippet

import HttpSnippet.Proofs.Normal.Idempotence

/-!
# Requests without their disabled members

Taking out what is disabled commutes with every step towards a normal form but one: credentials for
the query are left out if any member has their key, so a disabled member keeps them away that would
come if it were not there.
-/
namespace HttpSnippet

/-! ### Bodies -/

def Body.enabledOnly (b : Body) : Body :=
  { b with
    urlencoded := b.urlencoded.map (·.filter (!·.disabled))
    formdata := b.formdata.map (·.filter (!·.disabled)) }

def Payload.enabledOnly : Payload → Payload
  | .urlencoded params => .urlencoded (params.filter (!·.disabled))
  | .formdata params => .formdata (params.filter (!·.disabled))
  | p => p

namespace FormParam

theorem disabled_of_mem_expand {p q : FormParam} (h : q ∈ p.expand) : q.disabled = p.disabled := by
  unfold expand at h
  split at h
  · rw [List.mem_singleton.mp h]
  · rw [List.mem_singleton.mp h]
  · obtain ⟨v, -, rfl⟩ := List.mem_map.mp h
    rfl
  · rw [List.mem_singleton.mp h]

/-- What a member stands for is disabled as a whole or not at all. -/
theorem filter_expand (params : List FormParam) :
    (params.flatMap (·.expand)).filter (!·.disabled) =
      (params.filter (!·.disabled)).flatMap (·.expand) := by
  induction params with
  | nil => rfl
  | cons p ps ih =>
    rw [List.flatMap_cons, List.filter_append, ih]
    cases hp : p.disabled with
    | true =>
      have hnone : p.expand.filter (!·.disabled) = [] :=
        List.filter_eq_nil_iff.mpr fun q hq => by simp [disabled_of_mem_expand hq, hp]
      rw [hnone, List.filter_cons_of_neg (by simp [hp]), List.nil_append]
    | false =>
      have hall : p.expand.filter (!·.disabled) = p.expand :=
        List.filter_eq_self.mpr fun q hq => by simp [disabled_of_mem_expand hq, hp]
      rw [hall, List.filter_cons_of_pos (by simp [hp]), List.flatMap_cons]

theorem flatMap_expand_eq_nil {params : List FormParam} :
    params.flatMap (·.expand) = [] ↔ params = [] := by
  cases params with
  | nil => simp
  | cons p ps => simp [expand_ne_nil]

end FormParam

namespace Body

theorem expandFormdata_enabledOnly (b : Body) :
    b.enabledOnly.expandFormdata = b.expandFormdata.enabledOnly := by
  unfold expandFormdata
  by_cases hm : b.mode = BodyMode.formdata.name
  · rw [if_pos hm, if_pos (show b.enabledOnly.mode = _ from hm)]
    simp [enabledOnly, Function.comp_def, FormParam.filter_expand]
  · rw [if_neg hm, if_neg (show b.enabledOnly.mode ≠ _ from hm)]

theorem payload?_enabledOnly (b : Body) :
    b.enabledOnly.payload? = b.payload?.map (·.enabledOnly) := by
  obtain ⟨mode, raw, urlencoded, formdata, file, graphql⟩ := b
  simp only [payload?, enabledOnly]
  cases BodyMode.ofName? mode with
  | none => rfl
  | some m => cases m <;> simp [Function.comp_def, Payload.enabledOnly]

end Body

theorem Payload.isEmpty_enabledOnly {p : Payload} (h : p.isEmpty = true) :
    p.enabledOnly.isEmpty = true := by
  cases p <;> simp_all [enabledOnly, isEmpty]

/-- What is sent of the enabled members is the enabled part of what is sent, if any of it is
left. -/
theorem Body.content?_enabledOnly (b : Body) :
    b.enabledOnly.content? = (b.content?.map (·.enabledOnly)).filter (!·.isEmpty) := by
  rw [content?, content?, payload?_enabledOnly]
  cases b.payload? with
  | none => rfl
  | some p =>
    cases hp : p.isEmpty with
    | true => simp [Option.filter, hp, Payload.isEmpty_enabledOnly hp]
    | false => simp [Option.filter, hp]

/-- The payload with each file member expanded. -/
def Payload.expand : Payload → Payload
  | .formdata params => .formdata (params.flatMap (·.expand))
  | p => p

theorem Payload.isEmpty_expand (p : Payload) : p.expand.isEmpty = p.isEmpty := by
  cases p with
  | formdata params =>
    rw [Bool.eq_iff_iff]
    simp only [expand, isEmpty, List.isEmpty_iff, FormParam.flatMap_expand_eq_nil]
  | _ => rfl

theorem Payload.expand_enabledOnly (p : Payload) : p.expand.enabledOnly = p.enabledOnly.expand := by
  cases p with
  | formdata params => simp only [expand, enabledOnly, FormParam.filter_expand]
  | _ => rfl

theorem Body.payload?_expandFormdata (b : Body) :
    b.expandFormdata.payload? = b.payload?.map (·.expand) := by
  obtain ⟨mode, raw, urlencoded, formdata, file, graphql⟩ := b
  by_cases hm : mode = BodyMode.formdata.name
  · subst hm
    have hmode : BodyMode.ofName? BodyMode.formdata.name = some .formdata := rfl
    simp [payload?, expandFormdata, hmode, Function.comp_def, Payload.expand]
  · have hmode : BodyMode.ofName? mode ≠ some .formdata := fun h =>
      hm (BodyMode.name_of_ofName? h).symm
    simp only [payload?, expandFormdata, if_neg hm]
    cases h : BodyMode.ofName? mode with
    | none => rfl
    | some m =>
      cases m with
      | formdata => exact absurd h hmode
      | _ => simp [Function.comp_def, Payload.expand]

theorem Body.content?_expandFormdata (b : Body) :
    b.expandFormdata.content? = b.content?.map (·.expand) := by
  rw [content?, content?, payload?_expandFormdata]
  cases b.payload? with
  | none => rfl
  | some p => cases hp : p.isEmpty <;> simp [Option.filter, hp, Payload.isEmpty_expand]

/-! ### Requests -/

namespace Request

/-- The request without its disabled headers and members of query and body. -/
def enabledOnly (r : Request) : Request :=
  { r with
    url := { r.url with query := r.url.enabledQuery }
    headers := r.enabledHeaders
    body := r.body.map (·.enabledOnly) }

/-- The payload is a form with members, and every one of them is disabled. -/
def SendsNothing (r : Request) : Prop :=
  ∃ p, r.body.bind (·.content?) = some p ∧ p.enabledOnly.isEmpty = true

/-- Members of the query have the key of credentials that belong there, and every one of them is
disabled. -/
def BlocksCredential (r : Request) : Prop :=
  ∃ key value, r.auth.bind (·.credential?) = some (.query key value) ∧
    (∃ p ∈ r.url.query, p.key = key) ∧ ∀ p ∈ r.url.query, p.key = key → p.disabled = true

/-- The request with more members at the end of its query. -/
def addQuery (r : Request) (members : List QueryParam) : Request :=
  { r with url := { r.url with query := r.url.query ++ members } }

theorem enabledHeaders_enabledOnly (r : Request) :
    r.enabledOnly.enabledHeaders = r.enabledHeaders := by
  simp [enabledHeaders, enabledOnly]

theorem header?_enabledOnly (r : Request) (name : Text) :
    r.enabledOnly.header? name = r.header? name := by
  rw [header?, enabledHeaders_enabledOnly, header?]

theorem hasHeader_enabledOnly (r : Request) (name : Text) :
    r.enabledOnly.hasHeader name = r.hasHeader name := by
  rw [hasHeader, header?_enabledOnly, hasHeader]

theorem enabledQuery_enabledOnly (r : Request) :
    r.enabledOnly.url.enabledQuery = r.url.enabledQuery := by
  simp [enabledOnly, Url.enabledQuery]

/-! ### Steps towards a normal form -/

theorem resolveUrl_enabledOnly (r : Request) :
    r.enabledOnly.resolveUrl = r.resolveUrl.enabledOnly := by
  simp [resolveUrl, enabledOnly, Url.resolve_eq, Url.enabledQuery, enabledHeaders]

theorem expandBody_enabledOnly (r : Request) :
    r.enabledOnly.expandBody = r.expandBody.enabledOnly := by
  simp [expandBody, enabledOnly, Function.comp_def, Body.expandFormdata_enabledOnly,
    enabledHeaders]

theorem addHeader_enabledOnly (r : Request) (key value : Text) :
    r.enabledOnly.addHeader key value = (r.addHeader key value).enabledOnly := by
  simp [addHeader, enabledOnly, enabledHeaders]

theorem addContentType_enabledOnly (r : Request) :
    r.enabledOnly.addContentType = r.addContentType.enabledOnly := by
  have himplied : r.enabledOnly.body.bind (·.impliedType?) = r.body.bind (·.impliedType?) := by
    rw [enabledOnly]
    cases r.body <;> rfl
  have hmissing : r.enabledOnly.missingType? = r.missingType? := by
    rw [missingType?, hasHeader_enabledOnly, himplied, missingType?]
  unfold addContentType
  rw [hmissing]
  cases r.missingType? with
  | none => rfl
  | some t => exact addHeader_enabledOnly r "Content-Type" t

theorem addCredential_enabledOnly (r : Request) (c : Credential) :
    r.enabledOnly.addCredential c = (r.addCredential c).enabledOnly := by
  cases c with
  | header key value => exact addHeader_enabledOnly r key value
  | query key value => simp [addCredential, enabledOnly, Url.enabledQuery, enabledHeaders]

/-- A request without its disabled members carries the same, unless one of them is all that has the
key of the credentials. -/
theorem carries_enabledOnly {r : Request} {c : Credential}
    (hc : r.auth.bind (·.credential?) = some c) (h : ¬ r.BlocksCredential) :
    r.enabledOnly.carries c = r.carries c := by
  cases c with
  | header key value => exact hasHeader_enabledOnly r key
  | query key value =>
    rw [Bool.eq_iff_iff]
    simp only [carries, enabledOnly, Url.enabledQuery, List.any_eq_true, List.mem_filter,
      decide_eq_true_eq]
    constructor
    · rintro ⟨p, ⟨hp, -⟩, hkey⟩
      exact ⟨p, hp, hkey⟩
    · rintro ⟨p, hp, hkey⟩
      refine Classical.byContradiction fun hnone => h ?_
      refine ⟨key, value, hc, ⟨p, hp, hkey⟩, fun q hq hqkey => ?_⟩
      cases hd : q.disabled with
      | true => rfl
      | false => exact absurd ⟨q, ⟨hq, by simp [hd]⟩, hqkey⟩ hnone

theorem applyAuth_enabledOnly {r : Request} (h : ¬ r.BlocksCredential) :
    r.enabledOnly.applyAuth = r.applyAuth.enabledOnly := by
  unfold applyAuth
  rw [show r.enabledOnly.auth = r.auth from rfl]
  cases hc : r.auth.bind (·.credential?) with
  | none => rfl
  | some c =>
    simp only [carries_enabledOnly hc h]
    split
    · rfl
    · exact addCredential_enabledOnly r c

/-- Where disabled members keep credentials away, these come once the members are gone. -/
theorem applyAuth_enabledOnly_of_blocks {r : Request} (h : r.BlocksCredential) :
    ∃ p : QueryParam, p.disabled = false ∧ p.text ≠ [] ∧
      r.enabledOnly.applyAuth = r.applyAuth.enabledOnly.addQuery [p] := by
  obtain ⟨key, value, hc, ⟨p, hp, hkey⟩, hdisabled⟩ := h
  have hcarries : r.carries (.query key value) = true := by
    simpa [carries] using ⟨p, hp, hkey⟩
  have hmisses : r.enabledOnly.carries (.query key value) = false := by
    simp only [carries, enabledOnly, Url.enabledQuery, List.any_eq_false, List.mem_filter,
      decide_eq_true_eq]
    rintro q ⟨hq, hqe⟩ hqkey
    simp [hdisabled q hq hqkey] at hqe
  refine ⟨{ key, value := some value }, rfl, by simp [QueryParam.text], ?_⟩
  unfold applyAuth
  rw [show r.enabledOnly.auth = r.auth from rfl, hc]
  simp only [hcarries, hmisses, if_true]
  rfl

theorem blocksCredential_resolveUrl (r : Request) :
    r.resolveUrl.BlocksCredential ↔ r.BlocksCredential := by
  simp [BlocksCredential, resolveUrl, query_resolve]

/-! ### The normal form -/

theorem expandBody_addQuery (r : Request) (members : List QueryParam) :
    (r.addQuery members).expandBody = r.expandBody.addQuery members := rfl

theorem addContentType_addQuery (r : Request) (members : List QueryParam) :
    (r.addQuery members).addContentType = r.addContentType.addQuery members := by
  have hmissing : (r.addQuery members).missingType? = r.missingType? :=
    missingType?_congr rfl rfl
  unfold addContentType
  rw [hmissing]
  cases r.missingType? <;> rfl

/-- The normal form of the enabled members is the enabled part of the normal form. -/
theorem normalize_enabledOnly {r : Request} (h : ¬ r.BlocksCredential) :
    r.enabledOnly.normalize = r.normalize.enabledOnly := by
  have hauth := applyAuth_enabledOnly (mt (blocksCredential_resolveUrl r).mp h)
  rw [normalize, resolveUrl_enabledOnly, hauth, expandBody_enabledOnly,
    addContentType_enabledOnly, normalize]

theorem normalize_enabledOnly_of_blocks {r : Request} (h : r.BlocksCredential) :
    ∃ p : QueryParam, p.disabled = false ∧ p.text ≠ [] ∧
      r.enabledOnly.normalize = r.normalize.enabledOnly.addQuery [p] := by
  obtain ⟨p, hp, htext, hauth⟩ :=
    applyAuth_enabledOnly_of_blocks ((blocksCredential_resolveUrl r).mpr h)
  refine ⟨p, hp, htext, ?_⟩
  rw [normalize, resolveUrl_enabledOnly, hauth, expandBody_addQuery, expandBody_enabledOnly,
    addContentType_addQuery, addContentType_enabledOnly, normalize]

theorem body_normalize (r : Request) : r.normalize.body = r.body.map (·.expandFormdata) := by
  obtain ⟨headers, query, h⟩ := normalize_eq r
  rw [h]

theorem sendsNothing_normalize (r : Request) : r.normalize.SendsNothing ↔ r.SendsNothing := by
  have hcontent : r.normalize.body.bind (·.content?) =
      (r.body.bind (·.content?)).map (·.expand) := by
    rw [body_normalize]
    cases r.body with
    | none => rfl
    | some b => exact b.content?_expandFormdata
  simp only [SendsNothing, hcontent, Option.map_eq_some_iff]
  constructor
  · rintro ⟨_, ⟨p, hp, rfl⟩, hempty⟩
    rw [p.expand_enabledOnly, Payload.isEmpty_expand] at hempty
    exact ⟨p, hp, hempty⟩
  · rintro ⟨p, hp, hempty⟩
    refine ⟨p.expand, ⟨p, hp, rfl⟩, ?_⟩
    rw [p.expand_enabledOnly, Payload.isEmpty_expand, hempty]

end Request
end HttpSnippet

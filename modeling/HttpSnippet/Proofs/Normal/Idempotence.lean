import HttpSnippet.Request.Normal

/-!
# Normal form of a normal form

Credentials and the implied content type are added once: a request in normal form carries them.
Substitution and expansion look at what they have put in place again, and nothing but they can make
a second normal form differ from the first one.
-/
namespace HttpSnippet

namespace Request

theorem hasHeader_iff {r : Request} {name : Text} :
    r.hasHeader name = true ↔
      ∃ h ∈ r.headers, h.disabled = false ∧ h.key.toLower = name.toLower := by
  simp [hasHeader, header?, enabledHeaders]

theorem hasHeader_congr {r r' : Request} (h : r.headers = r'.headers) (name : Text) :
    r.hasHeader name = r'.hasHeader name := by
  simp only [hasHeader, header?, enabledHeaders, h]

theorem hasHeader_addHeader (r : Request) (key value : Text) :
    (r.addHeader key value).hasHeader key = true :=
  hasHeader_iff.mpr ⟨{ key, value }, List.mem_append_right _ List.mem_cons_self, rfl, rfl⟩

/-- More headers take no header away. -/
theorem hasHeader_append {r : Request} {name : Text} (h : r.hasHeader name = true)
    (headers : List Header) :
    ({ r with headers := r.headers ++ headers } : Request).hasHeader name = true := by
  obtain ⟨header, hmem, hrest⟩ := hasHeader_iff.mp h
  exact hasHeader_iff.mpr ⟨header, List.mem_append_left _ hmem, hrest⟩

/-! ### Credentials -/

theorem carries_addCredential (r : Request) (c : Credential) :
    (r.addCredential c).carries c = true := by
  cases c with
  | header key value => exact hasHeader_addHeader r key value
  | query key value => simp [addCredential, carries]

/-- A credential stays in place as long as the query and the headers do. -/
theorem carries_of_carries {r r' : Request} {c : Credential} (h : r.carries c = true)
    (hq : r'.url.query = r.url.query)
    (hh : ∀ name, r.hasHeader name = true → r'.hasHeader name = true) :
    r'.carries c = true := by
  cases c with
  | header key value => exact hh key h
  | query key value =>
    rw [carries, hq]
    exact h

/-- The request has what its credentials stand for. -/
def CarriesAuth (r : Request) : Prop :=
  ∀ c, r.auth.bind (·.credential?) = some c → r.carries c = true

theorem applyAuth_of_carriesAuth {r : Request} (h : r.CarriesAuth) : r.applyAuth = r := by
  unfold applyAuth
  cases hc : r.auth.bind (·.credential?) with
  | none => rfl
  | some c => exact if_pos (h c hc)

/-- Credentials are added behind the headers or the query, and nothing else changes. -/
theorem applyAuth_eq (r : Request) :
    ∃ headers query, r.applyAuth =
      { r with
        headers := r.headers ++ headers
        url := { r.url with query := r.url.query ++ query } } := by
  have hself : r = { r with
      headers := r.headers ++ []
      url := { r.url with query := r.url.query ++ [] } } := by
    rw [List.append_nil, List.append_nil]
  unfold applyAuth
  split
  · exact ⟨[], [], hself⟩
  · next c _ =>
    split
    · exact ⟨[], [], hself⟩
    · cases c with
      | header key value => exact ⟨[{ key, value }], [], by simp [addCredential, addHeader]⟩
      | query key value => exact ⟨[], [{ key, value }], by simp [addCredential]⟩

theorem carriesAuth_applyAuth (r : Request) : r.applyAuth.CarriesAuth := by
  intro c hc
  have hauth : r.applyAuth.auth = r.auth := by
    obtain ⟨headers, query, h⟩ := applyAuth_eq r
    rw [h]
  rw [hauth] at hc
  unfold applyAuth
  rw [hc]
  by_cases hr : r.carries c = true
  · simp [hr]
  · simpa [hr] using carries_addCredential r c

theorem CarriesAuth.mono {r r' : Request} (h : r.CarriesAuth) (ha : r'.auth = r.auth)
    (hq : r'.url.query = r.url.query)
    (hh : ∀ name, r.hasHeader name = true → r'.hasHeader name = true) : r'.CarriesAuth := by
  intro c hc
  rw [ha] at hc
  exact carries_of_carries (h c hc) hq hh

/-! ### The content type -/

@[simp] theorem mode_expandFormdata (b : Body) : b.expandFormdata.mode = b.mode := by
  unfold Body.expandFormdata
  split <;> rfl

/-- The content type that is missing depends on the headers and on the mode of the body only. -/
theorem missingType?_congr {r r' : Request} (hh : r.headers = r'.headers)
    (hm : r.body.map (·.mode) = r'.body.map (·.mode)) : r.missingType? = r'.missingType? := by
  have himplied : r.body.bind (·.impliedType?) = r'.body.bind (·.impliedType?) := by
    cases hb : r.body with
    | none =>
      cases hb' : r'.body with
      | none => rfl
      | some b' => simp [hb, hb'] at hm
    | some b =>
      cases hb' : r'.body with
      | none => simp [hb, hb'] at hm
      | some b' =>
        have hmode : b.mode = b'.mode := by simpa [hb, hb'] using hm
        simp only [Option.bind_some, Body.impliedType?, hmode]
  unfold missingType?
  rw [hasHeader_congr hh, himplied]

theorem addContentType_of_none {r : Request} (h : r.missingType? = none) :
    r.addContentType = r := by
  unfold addContentType
  rw [h]

theorem missingType?_addContentType (r : Request) : r.addContentType.missingType? = none := by
  unfold addContentType
  split
  · next t ht =>
    have hh := hasHeader_addHeader r "Content-Type" t
    unfold missingType?
    rw [if_pos hh]
  · assumption

/-- A content type is added behind the headers, and nothing else changes. -/
theorem addContentType_eq (r : Request) :
    ∃ headers, r.addContentType = { r with headers := r.headers ++ headers } := by
  unfold addContentType
  split
  · exact ⟨_, rfl⟩
  · exact ⟨[], by rw [List.append_nil]⟩

/-! ### Both normal forms -/

theorem query_resolve (u : Url) : u.resolve.query = u.query := by
  unfold Url.resolve
  split <;> rfl

/-- What a normal form may differ in: substituted segments, more headers, a longer query, and
expanded members of a form. -/
theorem normalize_eq (r : Request) :
    ∃ headers query, r.normalize =
      { r with
        url := { r.url.resolve with query := r.url.query ++ query }
        headers := r.headers ++ headers
        body := r.body.map (·.expandFormdata) } := by
  obtain ⟨headers, query, hauth⟩ := applyAuth_eq r.resolveUrl
  obtain ⟨headers', htype⟩ := addContentType_eq r.resolveUrl.applyAuth.expandBody
  refine ⟨headers ++ headers', query, ?_⟩
  rw [normalize, htype, hauth]
  simp [expandBody, resolveUrl, query_resolve]

/-- A request in normal form keeps its credentials, also after another substitution. -/
theorem carriesAuth_normalize (r : Request) : r.normalize.resolveUrl.CarriesAuth := by
  obtain ⟨headers, h⟩ := addContentType_eq r.resolveUrl.applyAuth.expandBody
  rw [normalize, h]
  refine (carriesAuth_applyAuth r.resolveUrl).mono rfl (query_resolve _) ?_
  intro name hname
  exact hasHeader_append hname headers

theorem mode_expandBody (r : Request) : r.expandBody.body.map (·.mode) = r.body.map (·.mode) := by
  simp [expandBody, Function.comp_def]

/-- A second normal form repeats the substitution and the expansion, and nothing else. -/
theorem normalize_normalize (r : Request) :
    r.normalize.normalize =
      { r.normalize with
        url := r.normalize.url.resolve
        body := r.normalize.body.map (·.expandFormdata) } := by
  have hsame : r.normalize.resolveUrl.expandBody.missingType? = r.normalize.missingType? :=
    missingType?_congr rfl (mode_expandBody r.normalize.resolveUrl)
  have hmissing := hsame.trans (missingType?_addContentType _)
  rw [normalize.eq_def r.normalize, applyAuth_of_carriesAuth (carriesAuth_normalize r),
    addContentType_of_none hmissing]
  rfl

end Request

/-! ### Substitution -/

namespace Url

/-- Names without a value stay as written. -/
theorem substituteFrom_of_unbound {bound : Text → Option Text} (hb : ∀ name, bound name = none) :
    ∀ (skip : Nat) (t : Text), substituteFrom bound skip t = t.drop skip
  | _, [] => by simp [substituteFrom]
  | skip + 1, c :: t => by
    rw [substituteFrom, List.drop_succ_cons]
    exact substituteFrom_of_unbound hb skip t
  | 0, c :: t => by
    unfold substituteFrom
    split
    · next name _ =>
      simp only [hb, Option.getD_none, substituteFrom_of_unbound hb, List.take_succ_cons,
        List.cons_append]
      exact congrArg (c :: ·) (List.take_append_drop _ t)
    · rw [substituteFrom_of_unbound hb 0 t]
      rfl

theorem substitute_nil : substitute [] = id := by
  funext t
  exact substituteFrom_of_unbound (fun _ => rfl) 0 t

theorem resolvePathSegment_nil : resolvePathSegment [] = id := by
  funext t
  have hb : (segmentName? t).bind (lookup []) = none := by
    cases segmentName? t <;> rfl
  rw [resolvePathSegment, hb, Option.getD_none, substitute_nil]

theorem resolve_eq (u : Url) :
    u.resolve =
      { u with
        host := u.host.map (substitute u.pathVariables)
        path := u.path.map (resolvePathSegment u.pathVariables) } := by
  unfold resolve
  split
  · next h =>
    have hv : u.pathVariables = [] := List.isEmpty_iff.mp h
    simp only [hv, substitute_nil, resolvePathSegment_nil, List.map_id]
    rw [← hv]
  · rfl

end Url

/-! ### Expansion -/

/-- A list repeats itself under a map to non-empty lists only if each element does. -/
theorem flatMap_eq_self_iff {α : Type} {f : α → List α} (hf : ∀ x, f x ≠ []) {xs : List α} :
    xs.flatMap f = xs ↔ ∀ x ∈ xs, f x = [x] := by
  have hlength (xs : List α) : xs.length ≤ (xs.flatMap f).length := by
    induction xs with
    | nil => simp
    | cons x xs ih =>
      have hpos : 0 < (f x).length := List.length_pos_iff.mpr (hf x)
      simp only [List.flatMap_cons, List.length_append, List.length_cons]
      omega
  induction xs with
  | nil => simp
  | cons x xs ih =>
    rw [List.flatMap_cons, List.forall_mem_cons]
    constructor
    · intro h
      obtain ⟨y, ys, hy⟩ := List.exists_cons_of_ne_nil (hf x)
      rw [hy, List.cons_append] at h
      obtain ⟨rfl, ht⟩ := List.cons.inj h
      have hys : ys = [] := by
        have hlen := congrArg List.length ht
        have hle := hlength xs
        rw [List.length_append] at hlen
        exact List.length_eq_zero_iff.mp (by omega)
      subst hys
      exact ⟨hy, ih.mp ht⟩
    · rintro ⟨hx, ht⟩
      rw [hx, ih.mpr ht]
      rfl

namespace FormParam

/-- A member that stands for itself: text, or a file with one path. -/
def Single (p : FormParam) : Prop := p.kind = .text ∨ ∃ t, p.src = .str t

theorem expand_ne_nil (p : FormParam) : p.expand ≠ [] := by
  unfold expand
  split <;> simp

theorem list_singleton_ne (v : Value) : Value.list [v] ≠ v := by
  intro h
  have hsize := congrArg sizeOf h
  simp only [Value.list.sizeOf_spec, List.cons.sizeOf_spec, List.nil.sizeOf_spec] at hsize
  omega

theorem expand_eq_singleton_iff {p : FormParam} : p.expand = [p] ↔ p.Single := by
  obtain ⟨key, kind, value, src, disabled, contentType⟩ := p
  cases kind with
  | text => simp [expand, Single]
  | file =>
    cases src with
    | list vs =>
      cases vs with
      | nil => simp [expand, Single]
      | cons v vs =>
        have hne : (v = Value.list (v :: vs) ∧ vs = []) → False := by
          rintro ⟨hv, rfl⟩
          exact list_singleton_ne v hv.symm
        simpa [expand, Single] using fun hv hvs => hne ⟨hv, hvs⟩
    | _ => simp [expand, Single]

/-- A member that expands to single ones only: each element of a list of paths is a text. -/
def Flat (p : FormParam) : Prop :=
  p.kind = .file → ∀ vs, p.src = .list vs → ∀ v ∈ vs, ∃ t, v = .str t

theorem forall_expand_single_iff {p : FormParam} : (∀ q ∈ p.expand, q.Single) ↔ p.Flat := by
  obtain ⟨key, kind, value, src, disabled, contentType⟩ := p
  cases kind with
  | text => simp [expand, Single, Flat]
  | file =>
    cases src with
    | list vs =>
      cases vs with
      | nil => simp [expand, Single, Flat]
      | cons v vs => simp [expand, Single, Flat]
    | _ => simp [expand, Single, Flat]

end FormParam

theorem flatMap_expand_iff {params : List FormParam} :
    (params.flatMap (·.expand)).flatMap (·.expand) = params.flatMap (·.expand) ↔
      ∀ p ∈ params, p.Flat := by
  rw [flatMap_eq_self_iff FormParam.expand_ne_nil]
  simp only [List.forall_mem_flatMap, FormParam.expand_eq_singleton_iff,
    FormParam.forall_expand_single_iff]

/-- The members that are sent in parts are flat. -/
def Body.Settles (b : Body) : Prop :=
  b.mode = BodyMode.formdata.name → ∀ params, b.formdata = some params → ∀ p ∈ params, p.Flat

theorem Body.expandFormdata_expandFormdata_iff {b : Body} :
    b.expandFormdata.expandFormdata = b.expandFormdata ↔ b.Settles := by
  obtain ⟨mode, raw, urlencoded, formdata, file, graphql⟩ := b
  by_cases hm : mode = BodyMode.formdata.name
  · cases formdata with
    | none => simp [expandFormdata, Settles, hm]
    | some params => simp [expandFormdata, Settles, hm, flatMap_expand_iff]
  · simp [expandFormdata, Settles, hm]

end HttpSnippet

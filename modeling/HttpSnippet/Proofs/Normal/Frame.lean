import HttpSnippet.Proofs.Normal.Idempotence

/-!
# What a normal form changes

A normal form substitutes in host and path and expands the members of a form; to the query it adds
one member at most, and to the headers one for the credentials and one for the content type. What is
added is said here from the fields of the request alone. It comes last and never twice.
-/
namespace HttpSnippet

namespace Header

/-- The header is enabled and has the name, but for upper and lower case. -/
def Provides (h : Header) (name : Text) : Prop :=
  h.disabled = false ∧ h.key.toLower = name.toLower

instance (h : Header) (name : Text) : Decidable (h.Provides name) := by
  unfold Provides
  infer_instance

end Header

namespace Auth

/-- The header that credentials ask for. -/
def header? (a : Auth) : Option Header :=
  match a.kind with
  | .noauth => none
  | .basic => some { key := "Authorization", value := a.basicValue }
  | .bearer => some { key := "Authorization", value := "Bearer " ++ a.token }
  | .apikey =>
    if a.key ≠ [] ∧ a.location ≠ ("query" : Text) then some { key := a.key, value := a.value }
    else none

/-- The member of the query that credentials ask for. -/
def member? (a : Auth) : Option QueryParam :=
  if a.kind = .apikey ∧ a.key ≠ [] ∧ a.location = ("query" : Text) then
    some { key := a.key, value := some a.value }
  else none

/-- Credentials ask for nothing, for a header or for a member of the query. -/
theorem credential?_cases (a : Auth) :
    (a.credential? = none ∧ a.header? = none ∧ a.member? = none) ∨
      (∃ key value, a.credential? = some (.header key value) ∧
        a.header? = some { key, value } ∧ a.member? = none) ∨
      ∃ key value, a.credential? = some (.query key value) ∧
        a.header? = none ∧ a.member? = some { key, value := some value } := by
  unfold credential? header? member?
  cases a.kind with
  | noauth => simp
  | basic => simp
  | bearer => simp
  | apikey =>
    by_cases hkey : a.key = []
    · simp [hkey]
    · by_cases hlocation : a.location = ("query" : Text)
      · rw [hlocation]
        simp [hkey]
      · generalize ("query" : Text) = query at hlocation ⊢
        simp [hkey, hlocation]

end Auth

/-- The header for the content type that a body implies. -/
def Body.typeHeader? (b : Body) : Option Header :=
  if b.mode = ("file" : Text) then some { key := "Content-Type", value := "text/plain" }
  else if b.mode = ("graphql" : Text) then
    some { key := "Content-Type", value := "application/json" }
  else none

theorem Body.typeHeader?_eq (b : Body) :
    b.typeHeader? = b.impliedType?.map fun t => { key := "Content-Type", value := t } := by
  have hmode {mode : BodyMode} (h : BodyMode.ofName? b.mode = some mode) : b.mode = mode.name :=
    (BodyMode.name_of_ofName? h).symm
  unfold typeHeader? impliedType?
  by_cases hfile : b.mode = ("file" : Text)
  · rw [if_pos hfile, hfile]
    rfl
  · rw [if_neg hfile]
    by_cases hgraphql : b.mode = ("graphql" : Text)
    · rw [if_pos hgraphql, hgraphql]
      rfl
    · rw [if_neg hgraphql]
      split
      · next h => exact absurd (hmode h) hfile
      · next h => exact absurd (hmode h) hgraphql
      · rfl

namespace Request

/-- The API key for the query, unless a member has its key already, be it enabled or not. -/
def addedMember? (r : Request) : Option QueryParam :=
  match r.auth.bind (·.member?) with
  | some p => if ∃ q ∈ r.url.query, q.key = p.key then none else some p
  | none => none

/-- The header for the credentials, unless a header provides it already. -/
def addedCredential? (r : Request) : Option Header :=
  match r.auth.bind (·.header?) with
  | some h => if ∃ g ∈ r.headers, g.Provides h.key then none else some h
  | none => none

/-- The header for the content type of the body, unless a header provides it already; the one for
the credentials may. -/
def addedType? (r : Request) : Option Header :=
  if ∃ g ∈ r.headers ++ r.addedCredential?.toList, g.Provides "Content-Type" then none
  else r.body.bind (·.typeHeader?)

/-- An API key of this name is a content type already. -/
example :
    let auth : Auth := { kind := .apikey, key := "content-type", value := "v" }
    let r : Request := { body := some { mode := "graphql" }, auth := some auth }
    r.addedCredential? = some { key := "content-type", value := "v" } ∧ r.addedType? = none := by
  decide

/-! ### What the steps add -/

theorem hasHeader_iff_provides {r : Request} {name : Text} :
    r.hasHeader name = true ↔ ∃ h ∈ r.headers, h.Provides name := hasHeader_iff

theorem credential?_cases (r : Request) :
    (r.auth.bind (·.credential?) = none ∧ r.auth.bind (·.header?) = none ∧
        r.auth.bind (·.member?) = none) ∨
      (∃ key value, r.auth.bind (·.credential?) = some (.header key value) ∧
        r.auth.bind (·.header?) = some { key, value } ∧ r.auth.bind (·.member?) = none) ∨
      ∃ key value, r.auth.bind (·.credential?) = some (.query key value) ∧
        r.auth.bind (·.header?) = none ∧
        r.auth.bind (·.member?) = some { key, value := some value } := by
  cases r.auth with
  | none => exact .inl ⟨rfl, rfl, rfl⟩
  | some a => exact a.credential?_cases

/-- Whatever the credentials ask for is added, unless it is there. -/
theorem applyAuth_eq_added (r : Request) :
    r.applyAuth = { r with
      headers := r.headers ++ r.addedCredential?.toList
      url := { r.url with query := r.url.query ++ r.addedMember?.toList } } := by
  have hself : r = { r with
      headers := r.headers ++ []
      url := { r.url with query := r.url.query ++ [] } } := by
    rw [List.append_nil, List.append_nil]
  unfold applyAuth addedCredential? addedMember?
  obtain ⟨hc, hh, hm⟩ | ⟨key, value, hc, hh, hm⟩ | ⟨key, value, hc, hh, hm⟩ :=
    r.credential?_cases
  · rw [hc, hh, hm]
    exact hself
  · simp only [hc, hh, hm]
    have hcarries : r.carries (.header key value) = true ↔ ∃ g ∈ r.headers, g.Provides key :=
      hasHeader_iff_provides
    by_cases hp : ∃ g ∈ r.headers, g.Provides key
    · rw [if_pos (hcarries.mpr hp), if_pos hp]
      exact hself
    · rw [if_neg (mt hcarries.mp hp), if_neg hp]
      simp [addCredential, addHeader]
  · simp only [hc, hh, hm]
    have hcarries : r.carries (.query key value) = true ↔ ∃ q ∈ r.url.query, q.key = key := by
      simp [carries]
    by_cases hp : ∃ q ∈ r.url.query, q.key = key
    · rw [if_pos (hcarries.mpr hp), if_pos hp]
      exact hself
    · rw [if_neg (mt hcarries.mp hp), if_neg hp]
      simp [addCredential]

/-- A content type is added to the headers of its body's mode, unless one of them provides it. -/
theorem addContentType_eq_added (r : Request) :
    r.addContentType = { r with headers := r.headers ++
      (if ∃ g ∈ r.headers, g.Provides "Content-Type" then none
        else r.body.bind (·.typeHeader?)).toList } := by
  have hself : r = { r with headers := r.headers ++ [] } := by rw [List.append_nil]
  have htype : r.body.bind (·.typeHeader?) =
      (r.body.bind (·.impliedType?)).map fun t => { key := "Content-Type", value := t } := by
    cases r.body with
    | none => rfl
    | some b => exact b.typeHeader?_eq
  unfold addContentType missingType?
  rw [htype]
  by_cases hp : ∃ g ∈ r.headers, g.Provides "Content-Type"
  · rw [if_pos (hasHeader_iff_provides.mpr hp), if_pos hp]
    exact hself
  · rw [if_neg (mt hasHeader_iff_provides.mp hp), if_neg hp]
    cases r.body.bind (·.impliedType?) with
    | none => exact hself
    | some t => rfl

/-- A normal form in terms of what is added. -/
theorem normalize_eq_added (r : Request) :
    r.normalize = { r with
      url := { r.url.resolve with query := r.url.query ++ r.addedMember?.toList }
      headers := r.headers ++ r.addedCredential?.toList ++ r.addedType?.toList
      body := r.body.map (·.expandFormdata) } := by
  have hmember : r.resolveUrl.addedMember? = r.addedMember? := by
    simp only [addedMember?, resolveUrl, query_resolve]
  have htype : (r.body.map (·.expandFormdata)).bind (·.typeHeader?) =
      r.body.bind (·.typeHeader?) := by
    cases r.body with
    | none => rfl
    | some b =>
      simp only [Option.map_some, Option.bind_some, Body.typeHeader?, mode_expandFormdata]
  have hcredential : r.resolveUrl.addedCredential? = r.addedCredential? := rfl
  rw [normalize, addContentType_eq_added, applyAuth_eq_added, hmember, hcredential, addedType?,
    ← htype, ← query_resolve r.url]
  rfl

/-- What a request and its normal form have in common, and what has been added. -/
structure Framed (r n : Request) : Prop where
  method : n.method = r.method
  auth : n.auth = r.auth
  protocol : n.url.protocol = r.url.protocol
  port : n.url.port = r.url.port
  hash : n.url.hash = r.url.hash
  pathVariables : n.url.pathVariables = r.url.pathVariables
  host : n.url.host.length = r.url.host.length
  path : n.url.path.length = r.url.path.length
  query : n.url.query = r.url.query ++ r.addedMember?.toList
  headers : n.headers = r.headers ++ r.addedCredential?.toList ++ r.addedType?.toList
  noBody : n.body = none ↔ r.body = none
  body : ∀ b, r.body = some b → ∃ formdata, n.body = some { b with formdata } ∧
    (b.mode ≠ ("formdata" : Text) → formdata = b.formdata)

theorem framed_normalize (r : Request) :
    r.Framed r.normalize ∧ r.normalize.normalize.headers = r.normalize.headers ∧
      r.normalize.normalize.url.query = r.normalize.url.query := by
  refine ⟨?_, by rw [normalize_normalize], by rw [normalize_normalize, query_resolve]⟩
  rw [normalize_eq_added, Url.resolve_eq]
  constructor
  case body =>
    intro b hb
    rw [hb]
    by_cases hm : b.mode = ("formdata" : Text)
    · refine ⟨b.formdata.map fun params => params.flatMap (·.expand), ?_, (absurd hm ·)⟩
      exact congrArg some (if_pos hm)
    · exact ⟨b.formdata, congrArg some (if_neg hm), fun _ => rfl⟩
  case noBody => simp
  all_goals simp

end Request
end HttpSnippet

import HttpSnippet.Converter

/-!
# Requests as loose values

A request can be written back as a loose value, each field under its own name and each kind by its
name. What is written so is read as the same request, unless the port is an empty text or the method
has lower case.
-/
namespace HttpSnippet

namespace Value

def orNull {α : Type} (write : α → Value) : Option α → Value
  | none => .null
  | some a => write a

def ofUrlVariable (v : UrlVariable) : Value :=
  .map [(.str "key", .str v.key), (.str "value", .str v.value)]

def ofUrl (u : Url) : Value :=
  .map (urlFields u ++ [(.str "variables", .list (u.pathVariables.map ofUrlVariable))])

def ofHeader (h : Header) : Value :=
  .map [(.str "key", .str h.key), (.str "value", .str h.value),
    (.str "disabled", .bool h.disabled)]

def ofAuth (a : Auth) : Value :=
  .map [(.str "type", .str a.kind.name), (.str "username", .str a.username),
    (.str "password", .str a.password), (.str "token", .str a.token), (.str "key", .str a.key),
    (.str "value", .str a.value), (.str "location", .str a.location)]

def ofUrlencodedParam (p : UrlencodedParam) : Value :=
  .map [(.str "key", .str p.key), (.str "value", .str p.value),
    (.str "disabled", .bool p.disabled)]

def ofFormParam (p : FormParam) : Value :=
  .map [(.str "key", .str p.key), (.str "type", .str p.kind.name), (.str "value", .str p.value),
    (.str "src", p.src), (.str "disabled", .bool p.disabled),
    (.str "content_type", ofOption p.contentType)]

def ofFileSource (f : FileSource) : Value := .map [(.str "src", ofOption f.src)]

def ofGraphqlPayload (g : GraphqlPayload) : Value :=
  .map [(.str "query", .str g.query), (.str "variables", .str g.variablesText)]

def ofBody (b : Body) : Value :=
  .map [(.str "mode", .str b.mode), (.str "raw", ofOption b.raw),
    (.str "urlencoded", orNull (fun ps => .list (ps.map ofUrlencodedParam)) b.urlencoded),
    (.str "formdata", orNull (fun ps => .list (ps.map ofFormParam)) b.formdata),
    (.str "file", orNull ofFileSource b.file), (.str "graphql", orNull ofGraphqlPayload b.graphql)]

/-- A request with every field of it and of its parts. -/
def ofRequest (r : Request) : Value :=
  .map [(.str "method", .str r.method), (.str "url", ofUrl r.url),
    (.str "headers", .list (r.headers.map ofHeader)), (.str "body", orNull ofBody r.body),
    (.str "auth", orNull ofAuth r.auth)]

end Value

/-- What a request keeps when it is read once more. -/
structure Request.Canonical (r : Request) : Prop where
  method : r.method.toUpper = r.method
  port : r.url.port ≠ some []

namespace Fields

variable {α : Type} {fields : Fields} {name : Text} {v : Value} {reading : Reading α} {a : α}

theorem required_of_get? (h : fields.get? name = some v) (hv : reading v = .valid a) :
    fields.required name reading = .valid a := by
  rw [required, h]
  simp only [hv, Checked.under]

theorem optional_of_get? {default : α} (h : fields.get? name = some v)
    (hv : reading v = .valid a) : fields.optional name default reading = .valid a := by
  simp only [optional, optionalAs, first?, List.findSome?_cons, h, Option.map_some, hv,
    Checked.under]

end Fields

namespace Reading

open Value

/-- What is written of anything is read as that again. -/
def ReadsBack {α : Type} (reading : Reading α) (write : α → Value) : Prop :=
  ∀ a, reading (write a) = .valid a

variable {α : Type} {reading : Reading α} {write : α → Value}

theorem mapping_map {model : Text} {readFields : Fields → Checked α} (fields : Fields) :
    mapping model readFields (.map fields) = readFields fields := rfl

theorem ReadsBack.itemsFrom (h : ReadsBack reading write) (n : Nat) (as : List α) :
    itemsFrom reading n (as.map write) = .valid as := by
  induction as generalizing n with
  | nil => rfl
  | cons a as ih =>
    rw [List.map_cons, Reading.itemsFrom, h, ih]
    rfl

theorem ReadsBack.list (h : ReadsBack reading write) :
    ReadsBack (list reading) fun as => .list (as.map write) := h.itemsFrom 0

theorem nullable_of_ne_null {v : Value} (h : v ≠ .null) :
    nullable reading v = (reading v).map some := by
  cases v <;> first | rfl | exact absurd rfl h

theorem ReadsBack.nullable (h : ReadsBack reading write) (hnull : ∀ a, write a ≠ .null) :
    ReadsBack (nullable reading) (orNull write) := by
  intro o
  cases o with
  | none => rfl
  | some a =>
    rw [orNull, nullable_of_ne_null (hnull a), h]
    rfl

theorem readsBack_string : ReadsBack string .str := fun _ => rfl

theorem readsBack_nullable_string : ReadsBack (nullable string) ofOption := by
  intro o
  cases o <;> rfl

/-! ### URLs -/

theorem readsBack_queryParam : ReadsBack queryParam ofQueryParam := by
  rintro ⟨key, value, disabled⟩
  cases value <;> rfl

theorem readsBack_urlVariable : ReadsBack urlVariable ofUrlVariable := fun _ => rfl

theorem port_ofOption {o : Option Text} (h : o ≠ some []) : port (ofOption o) = .valid o := by
  rcases o with _ | ⟨_ | ⟨c, t⟩⟩
  · rfl
  · exact absurd rfl h
  · rfl

/-- The fields of a URL are read whatever stands behind them, which may hold the variables. -/
theorem urlFields_append {u : Url} (h : u.port ≠ some []) {rest : Fields}
    (hrest : rest.optional "variables" [] (list urlVariable) = .valid u.pathVariables) :
    Reading.urlFields (Value.urlFields u ++ rest) = .valid u := by
  have hvariables : Fields.optional (Value.urlFields u ++ rest) "variables" []
      (list urlVariable) = .valid u.pathVariables := hrest
  rw [Reading.urlFields, hvariables,
    Fields.optional_of_get? rfl (readsBack_nullable_string u.protocol),
    Fields.optional_of_get? rfl (show host (texts u.host) = _ from readsBack_string.list u.host),
    Fields.optional_of_get? rfl (port_ofOption h),
    Fields.optional_of_get? rfl (show path (texts u.path) = _ from readsBack_string.list u.path),
    Fields.optional_of_get? rfl (readsBack_queryParam.list u.query),
    Fields.optional_of_get? rfl (readsBack_nullable_string u.hash)]
  rfl

theorem url_ofUrl {u : Url} (h : u.port ≠ some []) : url (ofUrl u) = .valid u := by
  rw [ofUrl, url, mapping_map]
  exact urlFields_append h
    (Fields.optional_of_get? rfl (readsBack_urlVariable.list u.pathVariables))

/-! ### Headers, credentials and bodies -/

theorem readsBack_header : ReadsBack header ofHeader := fun _ => rfl

theorem readsBack_auth : ReadsBack auth ofAuth := by
  rintro ⟨kind, _⟩
  cases kind <;> rfl

theorem readsBack_urlencodedParam : ReadsBack urlencodedParam ofUrlencodedParam := fun _ => rfl

theorem readsBack_formParam : ReadsBack formParam ofFormParam := by
  rintro ⟨_, kind, _, _, _, contentType⟩
  cases kind <;> cases contentType <;> rfl

theorem readsBack_fileSource : ReadsBack fileSource ofFileSource := by
  rintro ⟨src⟩
  cases src <;> rfl

theorem readsBack_graphqlPayload [Host] : ReadsBack graphqlPayload ofGraphqlPayload := fun _ => rfl

theorem readsBack_body [Host] : ReadsBack body ofBody := by
  intro b
  have hurlencoded := readsBack_urlencodedParam.list.nullable (by simp) b.urlencoded
  have hformdata := readsBack_formParam.list.nullable (by simp) b.formdata
  have hfile := readsBack_fileSource.nullable (by simp [ofFileSource]) b.file
  have hgraphql := readsBack_graphqlPayload.nullable (by simp [ofGraphqlPayload]) b.graphql
  rw [ofBody, body, mapping_map,
    Fields.required_of_get? rfl (readsBack_string b.mode),
    Fields.optional_of_get? rfl (readsBack_nullable_string b.raw),
    Fields.optional_of_get? rfl hurlencoded, Fields.optional_of_get? rfl hformdata,
    Fields.optional_of_get? rfl hfile, Fields.optional_of_get? rfl hgraphql]
  rfl

/-! ### Requests -/

/-- A canonical request is read as it was written. -/
theorem request_ofRequest [Host] {r : Request} (h : r.Canonical) :
    request (ofRequest r) = .valid r := by
  have hmethod : method (.str r.method) = .valid r.method := congrArg Checked.valid h.method
  have hbody := readsBack_body.nullable (by simp [ofBody]) r.body
  have hauth := readsBack_auth.nullable (by simp [ofAuth]) r.auth
  rw [ofRequest, request, mapping_map]
  -- no layout applies, so each field is read as it stands
  change Request.mk <$> Fields.optional _ "method" "GET" method
    <*> (url (ofUrl r.url)).under (.field "url")
    <*> (list header (.list (r.headers.map ofHeader))).under (.field "headers")
    <*> Fields.optional _ "body" none (nullable body)
    <*> Fields.optional _ "auth" none (nullable auth) = _
  rw [Fields.optional_of_get? rfl hmethod, url_ofUrl h.port, readsBack_header.list r.headers,
    Fields.optional_of_get? rfl hbody, Fields.optional_of_get? rfl hauth]
  rfl

end Reading
end HttpSnippet

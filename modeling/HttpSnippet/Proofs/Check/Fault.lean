import HttpSnippet.Converter
import HttpSnippet.Proofs.Body.Graphql
import HttpSnippet.Proofs.Check.Fields
import HttpSnippet.Proofs.Check.Steady

/-!
# Faults of a request

Reading JSON data as a request gives the request or its issues, unless the recognition of a layout
stumbles or the data nests too deep. A part of the data is taken for a text or for a name without
looking under `raw` in a URL, and in credentials for the kind, for the list of its parameters and
for the key of a parameter. The variables of a GraphQL body that are given as data are written, for
which there has to be room. Nothing else in JSON data brings a fault about.
-/
namespace HttpSnippet

open Checked

namespace Json

/-- The member of an object that has a name. -/
def member? (name : Text) : Json → Option Json
  | .obj members => (members.find? (·.1 = name)).map (·.2)
  | _ => none

/-- The URL has no host, and something else than a text under `raw`. -/
def UrlFault (url : Json) : Prop :=
  ∃ raw, url.member? "raw" = some raw ∧ url.member? "host" = none ∧ ∀ t, raw ≠ .str t

/-- Where the recognition of credentials stumbles. -/
inductive AuthFault (auth : Json) : HttpSnippet.Fault → Prop
  /-- Their kind is an array or an object. -/
  | kind {kind : Json} (h : auth.member? "type" = some kind) (hkind : kind.IsCollection) :
      AuthFault auth .wrongKind
  /-- They have no kind, and a list under the empty name. -/
  | noKind {params : List Json} (h : auth.member? "type" = none)
      (hlist : auth.member? [] = some (.arr params)) : AuthFault auth .noKey
  /-- In the list under the name of their kind, a parameter has an array or an object for its
  key. -/
  | parameter {kind : Text} {params : List Json} {param key : Json}
      (h : auth.member? "type" = some (.str kind)) (hlist : auth.member? kind = some (.arr params))
      (hparam : param ∈ params) (hkey : param.member? "key" = some key)
      (hcollection : key.IsCollection) : AuthFault auth .wrongKind

/-- The variables of a GraphQL body are given as data that there is no room to write. -/
def BodyFault [Host] (body : Json) : Prop :=
  ∃ payload vars, body.member? "graphql" = some payload ∧ payload.member? "variables" = some vars ∧
    vars.Overruns (Host.room .givenVariables)

/-- Where the reading of a request is broken off. Its URL is looked at first, then its body. -/
inductive LayoutFault [Host] (request : Json) : HttpSnippet.Fault → Prop
  | url {url : Json} (h : request.member? "url" = some url) (hurl : url.UrlFault) :
      LayoutFault request .noText
  | body {body : Json} (hurl : ∀ url, request.member? "url" = some url → ¬url.UrlFault)
      (h : request.member? "body" = some body) (hbody : body.BodyFault) :
      LayoutFault request (.tooDeep .writing)
  | auth {auth : Json} {fault : HttpSnippet.Fault}
      (hurl : ∀ url, request.member? "url" = some url → ¬url.UrlFault)
      (hbody : ∀ body, request.member? "body" = some body → ¬body.BodyFault)
      (h : request.member? "auth" = some auth) (hauth : auth.AuthFault fault) :
      LayoutFault request fault

end Json

/-! ### Members as fields -/

theorem Fields.get?_ofJsonMembers (members : List (Text × Json)) (name : Text) :
    Fields.get? (Value.ofJsonMembers members) name =
      (Json.member? name (.obj members)).map Value.ofJson := by
  rw [Fields.ofJsonMembers_eq_map, Json.member?]
  induction members with
  | nil => rfl
  | cons m ms ih =>
    rw [List.map_cons, Fields.get?_cons, ih, Value.str_sameKey_str, List.find?_cons]
    by_cases h : m.1 = name <;> simp [h]

/-- Moving one field of JSON data to another name leaves the others. -/
theorem Fields.get?_renamed_ofJsonMembers (members : List (Text × Json)) {old new name : Text}
    (hold : name ≠ old) (hnew : name ≠ new) :
    Fields.get? (Fields.renamed (Value.ofJsonMembers members) old new) name =
      (Json.member? name (.obj members)).map Value.ofJson := by
  rw [Fields.get?_renamed_of_ne hold hnew, Fields.get?_ofJsonMembers]

namespace Value

theorem isKey_ofJson {j : Json} : (ofJson j).isKey = false ↔ j.IsCollection := by
  cases j <;> simp [ofJson, isKey, Json.IsCollection]

/-- Only a text is a key of JSON data. -/
theorem find?_ofJsonMembers {k : Value} (hk : ∀ t, k ≠ .str t) (members : List (Text × Json)) :
    find? k (ofJsonMembers members) = none := by
  rw [Fields.ofJsonMembers_eq_map, find?, Option.map_eq_none_iff, List.find?_eq_none]
  intro entry hentry
  obtain ⟨m, -, rfl⟩ := List.mem_map.mp hentry
  exact fun hsame => hk m.1 (str_sameKey.mp hsame)

theorem ofJsonItems_eq_map (items : List Json) : ofJsonItems items = items.map ofJson := by
  induction items with
  | nil => rfl
  | cons v vs ih => rw [ofJsonItems, ih, List.map_cons]

end Value

namespace Reading

/-! ### Bodies -/

/-- A field of JSON data is JSON data. -/
theorem fault?_optional_ofJson {α : Type} (reading : Reading α) (members : List (Text × Json))
    (name : Text) (default : α) {fault : Fault} :
    (Fields.optional (Value.ofJsonMembers members) name default reading).fault? = some fault ↔
      ∃ j, Json.member? name (.obj members) = some j ∧
        (reading (.ofJson j)).fault? = some fault := by
  rw [Fields.fault?_optional, Fields.get?_ofJsonMembers]
  cases Json.member? name (.obj members) <;> simp

/-- Of JSON data only an object is a mapping, and nothing else has a fault as one. -/
theorem fault?_mapping_ofJson {α : Type} (model : Text) (reading : Fields → Checked α) (j : Json) :
    (mapping model reading (.ofJson j)).fault? = match j with
      | .obj members => (reading (Value.ofJsonMembers members)).fault?
      | _ => none := by
  cases j <;> rfl

theorem fault?_graphqlPayload [Host] {j : Json} {fault : Fault} :
    (graphqlPayload (.ofJson j)).fault? = some fault ↔
      ∃ vars, j.member? "variables" = some vars ∧ vars.Overruns (Host.room .givenVariables) ∧
        fault = .tooDeep .writing := by
  rw [graphqlPayload, fault?_mapping_ofJson]
  cases j with
  | obj members =>
    simp only [fault?_seq, fault?_functor_map, Fields.fault?_optional_of_steady _ steady_string,
      Option.none_or, fault?_optional_ofJson, fault?_graphqlVariables]
  | _ =>
    refine iff_of_false (fun h => by cases h) ?_
    rintro ⟨_, h, -⟩
    cases h

/-- Null is the only value that stands for a missing one, and it has no fault. -/
theorem fault?_nullable {α : Type} (reading : Reading α) {v : Value} (hv : v ≠ .null) :
    (nullable reading v).fault? = (reading v).fault? := by
  cases v with
  | null => exact absurd rfl hv
  | _ => exact fault?_map _ _

/-- Nothing is read from null, and nothing is wrong with it where the reading has no fault. -/
theorem fault?_nullable_ofJson {α : Type} {reading : Reading α}
    (hnull : (reading .null).fault? = none) (j : Json) :
    (nullable reading (.ofJson j)).fault? = (reading (.ofJson j)).fault? := by
  cases j with
  | null => exact hnull.symm
  | _ => exact fault?_nullable _ (by simp [Value.ofJson])

/-- The variables are the only part of a body that may have a fault. -/
theorem fault?_bodyFields [Host] (members : List (Text × Json)) :
    (body (.ofJson (.obj members))).fault? =
      (Fields.optional (Value.ofJsonMembers members) "graphql" none
        (nullable graphqlPayload)).fault? := by
  rw [body, fault?_mapping_ofJson]
  simp only [fault?_seq, fault?_functor_map, Fields.fault?_required steady_string,
    Fields.fault?_optional_of_steady _ steady_string.nullable,
    Fields.fault?_optional_of_steady _ steady_urlencodedParam.list.nullable,
    Fields.fault?_optional_of_steady _ steady_formParam.list.nullable,
    Fields.fault?_optional_of_steady _ steady_fileSource.nullable, Option.none_or]

theorem fault?_body [Host] {j : Json} {fault : Fault} :
    (body (.ofJson j)).fault? = some fault ↔ j.BodyFault ∧ fault = .tooDeep .writing := by
  cases j with
  | obj members =>
    have hnull : (graphqlPayload .null).fault? = none := rfl
    simp only [fault?_bodyFields, fault?_optional_ofJson, fault?_nullable_ofJson hnull,
      fault?_graphqlPayload, Json.BodyFault]
    constructor
    · rintro ⟨payload, hpayload, vars, hvars, hdeep, rfl⟩
      exact ⟨⟨payload, vars, hpayload, hvars, hdeep⟩, rfl⟩
    · rintro ⟨⟨payload, vars, hpayload, hvars, hdeep⟩, rfl⟩
      exact ⟨payload, hpayload, vars, hvars, hdeep, rfl⟩
  | _ =>
    rw [body, fault?_mapping_ofJson]
    refine iff_of_false (fun h => by cases h) ?_
    rintro ⟨⟨_, _, h, -⟩, -⟩
    cases h

/-! ### Credentials -/

/-- What a listed parameter does to the fields of credentials. -/
def authParam (fields : Fields) : Value → Except Fault Fields
  | .map entries =>
    match Fields.get? entries "key" with
    | some key =>
      if key.isKey then
        .ok (Value.insertEntry key ((Fields.get? entries "value").getD (.str [])) fields)
      else .error .wrongKind
    | none => .ok fields
  | _ => .ok fields

theorem authParam_ofJson_eq_error_iff {param : Json} {fields : Fields} {fault : Fault} :
    authParam fields (.ofJson param) = .error fault ↔
      (∃ key, param.member? "key" = some key ∧ key.IsCollection) ∧ fault = .wrongKind := by
  cases param with
  | obj members =>
    rw [Value.ofJson, authParam, Fields.get?_ofJsonMembers]
    cases Json.member? "key" (.obj members) with
    | none => simp
    | some key =>
      cases hkey : (Value.ofJson key).isKey with
      | true =>
        have hcollection : ¬key.IsCollection := by
          simp [← Value.isKey_ofJson, hkey]
        simp [hkey, hcollection]
      | false => simp [hkey, Value.isKey_ofJson.mp hkey, eq_comm]
  | _ => simp [Value.ofJson, authParam, Json.member?]

theorem foldlM_authParam_eq_error_iff {params : List Json} {fields : Fields} {fault : Fault} :
    (params.map Value.ofJson).foldlM authParam fields = .error fault ↔
      (∃ param ∈ params, ∃ key, param.member? "key" = some key ∧ key.IsCollection) ∧
        fault = .wrongKind := by
  induction params generalizing fields with
  | nil => simp [pure, Except.pure]
  | cons param params ih =>
    rw [List.map_cons, List.foldlM_cons, bind_eq_error, authParam_ofJson_eq_error_iff]
    simp only [ih, List.exists_mem_cons_iff]
    constructor
    · rintro (⟨hkey, hfault⟩ | ⟨_, -, hparams, hfault⟩)
      · exact ⟨.inl hkey, hfault⟩
      · exact ⟨.inr hparams, hfault⟩
    · rintro ⟨hkey | hparams, rfl⟩
      · exact .inl ⟨hkey, rfl⟩
      · cases h : authParam fields (.ofJson param) with
        | error fault =>
          exact .inl ⟨(authParam_ofJson_eq_error_iff.mp h).1, rfl⟩
        | ok next => exact .inr ⟨next, rfl, hparams, rfl⟩

/-- Credentials without a kind are recognised unless a list stands under the empty name. -/
theorem authLayout_of_kind_eq_none {members : List (Text × Json)}
    (h : Json.member? "type" (.obj members) = none) {fault : Fault} :
    authLayout (Value.ofJsonMembers members) = .error fault ↔
      (∃ params, Json.member? [] (.obj members) = some (.arr params)) ∧ fault = .noKey := by
  have hkind : Fields.get? (Value.ofJsonMembers members) "type" = none := by
    rw [Fields.get?_ofJsonMembers, h]
    rfl
  have hlisted : Value.find? (.str []) (Value.ofJsonMembers members) =
      (Json.member? [] (.obj members)).map Value.ofJson := Fields.get?_ofJsonMembers members []
  have hkey : (Value.str []).isKey = true := rfl
  simp only [authLayout, hkind, Option.getD_none, hlisted, hkey, Bool.not_true, Bool.false_eq_true,
    if_false, Option.isNone_none, if_true]
  cases Json.member? [] (.obj members) with
  | none => simp
  | some listed => cases listed <;> simp [Value.ofJson, eq_comm]

theorem authLayout_eq {fields : Fields} {kind : Value} (h : fields.get? "type" = some kind) :
    authLayout fields =
      if kind.isKey then
        match Value.find? kind fields with
        | some (.list params) =>
          params.foldlM authParam (fields.filter fun (k, _) => !k.sameKey kind)
        | _ => .ok fields
      else .error .wrongKind := by
  unfold authLayout
  rw [h]
  cases hkey : kind.isKey with
  | false => simp [hkey]
  | true =>
    simp only [Option.getD_some, hkey, Bool.not_true, Bool.false_eq_true, if_false, if_true,
      Option.isNone_some]
    rfl

/-- The list of parameters stands under the name of the kind. -/
theorem find?_kind_ofJsonMembers (kind : Json) (members : List (Text × Json)) :
    Value.find? (.ofJson kind) (Value.ofJsonMembers members) =
      match kind with
      | .str name => (Json.member? name (.obj members)).map Value.ofJson
      | _ => none := by
  cases kind with
  | str name => exact Fields.get?_ofJsonMembers members name
  | _ => exact Value.find?_ofJsonMembers (by simp [Value.ofJson]) members

/-- Credentials with a kind are recognised unless it is no scalar, or the list under its name has a
parameter without a proper key. -/
theorem authLayout_of_kind_eq_some {members : List (Text × Json)} {kind : Json}
    (h : Json.member? "type" (.obj members) = some kind) {fault : Fault} :
    authLayout (Value.ofJsonMembers members) = .error fault ↔
      (kind.IsCollection ∨ ∃ name params, kind = .str name ∧
        Json.member? name (.obj members) = some (.arr params) ∧
        ∃ param ∈ params, ∃ key, param.member? "key" = some key ∧ key.IsCollection) ∧
      fault = .wrongKind := by
  have hkind : Fields.get? (Value.ofJsonMembers members) "type" = some (.ofJson kind) := by
    rw [Fields.get?_ofJsonMembers, h, Option.map_some]
  rw [authLayout_eq hkind, find?_kind_ofJsonMembers]
  cases hkey : (Value.ofJson kind).isKey with
  | false =>
    have hcollection := Value.isKey_ofJson.mp hkey
    simp [hcollection, eq_comm]
  | true =>
    have hscalar : ¬kind.IsCollection := by simp [← Value.isKey_ofJson, hkey]
    simp only [hscalar, false_or, if_true]
    cases kind with
    | str name =>
      cases hlist : Json.member? name (.obj members) with
      | none => simp [hlist]
      | some listed =>
        cases listed with
        | arr params =>
          simp only [hlist, Option.map_some, Value.ofJson]
          rw [Value.ofJsonItems_eq_map, foldlM_authParam_eq_error_iff]
          simp [hlist]
        | _ => simp [hlist, Value.ofJson]
    | _ => simp

/-- The layout of credentials is recognised unless one of the three faults is in them. -/
theorem authLayout_ofJson_eq_error_iff {members : List (Text × Json)} {fault : Fault} :
    authLayout (Value.ofJsonMembers members) = .error fault ↔
      (Json.obj members).AuthFault fault := by
  cases hkind : Json.member? "type" (.obj members) with
  | none =>
    rw [authLayout_of_kind_eq_none hkind]
    constructor
    · rintro ⟨⟨params, hparams⟩, rfl⟩
      exact .noKind hkind hparams
    · intro hfault
      cases hfault with
      | kind h _ => cases hkind.symm.trans h
      | noKind _ hlist => exact ⟨⟨_, hlist⟩, rfl⟩
      | parameter h _ _ _ _ => cases hkind.symm.trans h
  | some kind =>
    rw [authLayout_of_kind_eq_some hkind]
    constructor
    · rintro ⟨hcollection | ⟨name, params, rfl, hlist, param, hparam, key, hkey, hcollection⟩, rfl⟩
      · exact .kind hkind hcollection
      · exact .parameter hkind hlist hparam hkey hcollection
    · intro hfault
      cases hfault with
      | kind h hcollection =>
        obtain rfl := Option.some.inj (hkind.symm.trans h)
        exact ⟨.inl hcollection, rfl⟩
      | noKind h _ => cases hkind.symm.trans h
      | parameter h hlist hparam hkey hcollection =>
        obtain rfl := Option.some.inj (hkind.symm.trans h)
        exact ⟨.inr ⟨_, _, rfl, hlist, _, hparam, _, hkey, hcollection⟩, rfl⟩

/-! ### Requests -/

theorem urlLayout_ofJsonMembers_eq_error_iff {members : List (Text × Json)} {fault : Fault} :
    urlLayout (Value.ofJsonMembers members) = .error fault ↔
      (Json.obj members).UrlFault ∧ fault = .noText := by
  have hget {name : Text} (hold : name ≠ "variable") (hnew : name ≠ "variables") :=
    Fields.get?_renamed_ofJsonMembers members hold hnew
  have hraw := @hget "raw" (by decide) (by decide)
  have hhost := @hget "host" (by decide) (by decide)
  unfold urlLayout Json.UrlFault Fields.has
  simp only [hraw, hhost, Option.isSome_map]
  cases Json.member? "raw" (.obj members) with
  | none => simp
  | some raw =>
    cases Json.member? "host" (.obj members) with
    | some host => simp
    | none => cases raw <;> simp [Value.ofJson, eq_comm]

theorem urlSource_ofJson_eq_error_iff {url : Json} {fault : Fault} :
    urlSource (.ofJson url) = .error fault ↔ url.UrlFault ∧ fault = .noText := by
  cases url with
  | obj members =>
    rw [Value.ofJson, urlSource, bind_eq_error, urlLayout_ofJsonMembers_eq_error_iff]
    exact or_iff_left fun ⟨_, _, h⟩ => by cases h
  | _ => simp [Value.ofJson, urlSource, Json.UrlFault, Json.member?]

theorem fault?_urlOfSource (source : UrlSource) : (urlOfSource source).fault? = none := by
  cases source with
  | text t => rfl
  | other v => exact steady_url v

theorem fault?_auth_ofJson {auth : Json} {fault : Fault} :
    (nullable Reading.auth (.ofJson auth)).fault? = some fault ↔ auth.AuthFault fault := by
  cases auth with
  | obj members =>
    rw [fault?_nullable _ (by simp [Value.ofJson]), ← authLayout_ofJson_eq_error_iff, Value.ofJson,
      Reading.auth, mapping]
    cases authLayout (Value.ofJsonMembers members) with
    | error stumbled => simp [Checked.ofExcept, Checked.bind]
    | ok fields => simp [Checked.ofExcept, Checked.bind]
  | _ =>
    refine iff_of_false (by simp [Value.ofJson, nullable, Reading.auth, mapping]) fun h => ?_
    cases h with
    | kind h _ => cases h
    | noKind _ h => cases h
    | parameter h _ _ _ _ => cases h

theorem mapM_urlSource_eq_error_iff {url : Option Json} {fault : Fault} :
    (url.map Value.ofJson).mapM urlSource = .error fault ↔
      ∃ u, url = some u ∧ u.UrlFault ∧ fault = .noText := by
  cases url with
  | none => exact iff_of_false (fun h => by cases h) fun ⟨_, h, _⟩ => by cases h
  | some u =>
    have hmap : (Option.map Value.ofJson (some u)).mapM urlSource = .error fault ↔
        urlSource (.ofJson u) = .error fault := by
      show some <$> urlSource (.ofJson u) = _ ↔ _
      cases urlSource (.ofJson u) <;> simp
    rw [hmap, urlSource_ofJson_eq_error_iff]
    simp

/-- Once the URL of a request is recognised, only its body and its credentials break the reading
off. -/
theorem fault?_requestFields [Host] {members : List (Text × Json)} {source : Option UrlSource}
    (hsource : ((Json.member? "url" (.obj members)).map Value.ofJson).mapM urlSource =
      .ok source) :
    (requestFields (Value.ofJsonMembers members)).fault? =
      ((Json.member? "body" (.obj members)).bind fun j => (body (.ofJson j)).fault?).or
        ((Json.member? "auth" (.obj members)).bind fun j =>
          (nullable auth (.ofJson j)).fault?) := by
  have hget {name : Text} (hold : name ≠ "header") (hnew : name ≠ "headers") :=
    Fields.get?_renamed_ofJsonMembers members hold hnew
  have hbody : (Fields.optional (Fields.renamed (Value.ofJsonMembers members) "header" "headers")
      "body" none (nullable body)).fault? =
        (Json.member? "body" (.obj members)).bind fun j => (body (.ofJson j)).fault? := by
    rw [Fields.fault?_optional, hget (by decide) (by decide), Option.bind_map]
    exact congrArg _ (funext (fault?_nullable_ofJson rfl))
  have hauth : (Fields.optional (Fields.renamed (Value.ofJsonMembers members) "header" "headers")
      "auth" none (nullable auth)).fault? =
        (Json.member? "auth" (.obj members)).bind fun j => (nullable auth (.ofJson j)).fault? := by
    rw [Fields.fault?_optional, hget (by decide) (by decide), Option.bind_map]
    rfl
  unfold requestFields
  simp only [@hget "url" (by decide) (by decide), hsource, Checked.ofExcept, Checked.bind,
    fault?_seq, fault?_functor_map, hbody, hauth,
    Fields.fault?_optional_of_steady _ steady_method, Option.none_or]
  -- neither the parts of the URL nor the headers have a fault
  generalize Option.map headersLayout _ = headers
  cases source <;> cases headers <;> simp [fault?_urlOfSource, steady_header.list _]

/-- A URL that is not recognised breaks the reading off before anything else does. -/
theorem fault?_requestFields_of_error [Host] {members : List (Text × Json)} {stumbled : Fault}
    (hsource : ((Json.member? "url" (.obj members)).map Value.ofJson).mapM urlSource =
      .error stumbled) :
    (requestFields (Value.ofJsonMembers members)).fault? = some stumbled := by
  have hget := Fields.get?_renamed_ofJsonMembers members
    (show "url".toList ≠ "header".toList by decide) (show "url".toList ≠ "headers".toList by decide)
  unfold requestFields
  simp only [hget, hsource]
  rfl

/-- The reading of a request is broken off where the recognition of a layout stumbles or the data
nests too deep, and nowhere else. -/
theorem fault?_request_ofJson [Host] {request : Json} {fault : Fault} :
    (Reading.request (.ofJson request)).fault? = some fault ↔ request.LayoutFault fault := by
  cases request with
  | obj members =>
    rw [Value.ofJson, Reading.request, mapping]
    cases hsource : ((Json.member? "url" (.obj members)).map Value.ofJson).mapM urlSource with
    | error stumbled =>
      obtain ⟨url, hmember, hurl, rfl⟩ := mapM_urlSource_eq_error_iff.mp hsource
      rw [fault?_requestFields_of_error hsource, Option.some.injEq]
      constructor
      · rintro rfl
        exact .url hmember hurl
      · intro hfault
        cases hfault with
        | url _ _ => rfl
        | body hnone _ _ => exact absurd hurl (hnone url hmember)
        | auth hnone _ _ _ => exact absurd hurl (hnone url hmember)
    | ok source =>
      have hnone (url : Json) (hmember : Json.member? "url" (.obj members) = some url) :
          ¬url.UrlFault := fun hurl => by
        cases hsource.symm.trans (mapM_urlSource_eq_error_iff.mpr ⟨url, hmember, hurl, rfl⟩)
      have hbody : ((Json.member? "body" (.obj members)).bind fun j => (body (.ofJson j)).fault?) =
          none ↔ ∀ j, Json.member? "body" (.obj members) = some j → ¬j.BodyFault := by
        simp only [Option.eq_none_iff_forall_ne_some, ne_eq, Option.bind_eq_some_iff, fault?_body]
        constructor
        · exact fun h j hmember hdeep => h _ ⟨j, hmember, hdeep, rfl⟩
        · rintro h fault ⟨j, hmember, hdeep, -⟩
          exact h j hmember hdeep
      rw [fault?_requestFields hsource, Option.or_eq_some_iff, hbody, Option.bind_eq_some_iff,
        Option.bind_eq_some_iff]
      simp only [fault?_body, fault?_auth_ofJson]
      constructor
      · rintro (⟨j, hmember, hdeep, rfl⟩ | ⟨hsound, j, hmember, hauth⟩)
        · exact .body hnone hmember hdeep
        · exact .auth hnone hsound hmember hauth
      · intro hfault
        cases hfault with
        | url hmember hurl => exact absurd hurl (hnone _ hmember)
        | body _ hmember hdeep => exact .inl ⟨_, hmember, hdeep, rfl⟩
        | auth _ hsound hmember hauth => exact .inr ⟨hsound, _, hmember, hauth⟩
  | _ =>
    rw [Reading.request, fault?_mapping_ofJson]
    refine iff_of_false (fun h => by cases h) fun h => ?_
    cases h with
    | url h _ => cases h
    | body _ h _ => cases h
    | auth _ _ h _ => cases h

end Reading

/-- JSON data is read as a request or reported with its issues unless the recognition of a layout
stumbles or the data nests too deep, and then it is the fault that comes out. -/
theorem parseRequest_ofJson_settled_iff [Host] (request : Json) :
    (((∃ r, parseRequest (.ofJson request) = .ok r) ∨
        ∃ issues, parseRequest (.ofJson request) = .error (.request issues)) ↔
      ∀ fault, ¬request.LayoutFault fault) ∧
    ∀ fault, parseRequest (.ofJson request) = .error (.broken fault) ↔
      request.LayoutFault fault := by
  have hfault (fault : Fault) := @Reading.fault?_request_ofJson _ request fault
  unfold parseRequest
  cases hread : Reading.request (.ofJson request) with
  | valid r => simp [← hfault, hread]
  | invalid issues => simp [← hfault, hread]
  | broken stumbled => simp [← hfault, hread]

section

attribute [local instance] Host.usual

/-- A number for the text of a URL is no issue but breaks the reading off. -/
theorem parseRequest_of_numeric_raw :
    ¬((∃ r, parseRequest (.ofJson (.obj [("url", .obj [("raw", .int 1)])])) = .ok r) ∨
      ∃ issues, parseRequest (.ofJson (.obj [("url", .obj [("raw", .int 1)])])) =
        .error (.request issues)) := by
  have hbroken : parseRequest (.ofJson (.obj [("url", .obj [("raw", .int 1)])])) =
    .error (.broken .noText) := by rfl
  rintro (⟨r, hr⟩ | ⟨issues, hissues⟩)
  · cases hbroken.symm.trans hr
  · cases hbroken.symm.trans hissues

end

end HttpSnippet

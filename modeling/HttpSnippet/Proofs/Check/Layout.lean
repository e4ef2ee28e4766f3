import Mathlib.Logic.Relation
import HttpSnippet.Proofs.Check.Canonical

/-!
# Layouts that are interchangeable

A request may be written in the layout of this library or in that of an exported collection. Each
difference between the two can be rewritten on its own, and a mapping that is rewritten in any
number of places is read with the same outcome, be it a request, its issues or a fault.
-/
namespace HttpSnippet

open Value

/-! ### Layouts -/

/-- The URL of a request in another layout. A mapping holds no key twice. -/
inductive Value.UrlRespelled : Value → Value → Prop
  /-- A text is what may stand under `raw`. -/
  | raw (t : Text) : UrlRespelled (.str t) (.map [(.str "raw", .str t)])
  | pathVariables {entries : Fields} (hkeys : entries.Distinct)
      (h : entries.get? "variables" = none) :
      UrlRespelled (.map entries) (.map (entries.rename "variable" "variables"))
  /-- A text under `raw` stands for its parts, as far as they are not given by themselves. -/
  | parts {entries : Fields} {t : Text} (hkeys : entries.Distinct)
      (hraw : entries.get? "raw" = some (.str t)) (hhost : entries.get? "host" = none) :
      UrlRespelled (.map entries)
        (.map ((entries.erase "raw").withDefaults (Value.urlFields (Url.ofText t))))

/-- The fields of a request in another layout. -/
inductive Fields.Respelled : Fields → Fields → Prop
  | header {fields : Fields} (h : fields.get? "headers" = none) :
      Respelled fields (fields.rename "header" "headers")
  /-- Headers as a mapping are a list with one header for each entry. -/
  | headers {fields entries : Fields} {name : Text}
      (hname : name = "headers" ∨ name = "header" ∧ fields.get? "headers" = none)
      (h : fields.get? name = some (.map entries)) :
      Respelled fields (insertEntry (.str name) (.list (entries.map fun (k, v) =>
        .map [(.str "key", k), (.str "value", v)])) fields)
  | url {fields : Fields} {v w : Value} (h : fields.get? "url" = some v)
      (hrespelled : v.UrlRespelled w) : Respelled fields (insertEntry (.str "url") w fields)

/-! ### What a reading looks up -/

theorem Fields.optional_congr {α : Type} {fields others : Fields} {name : Text}
    (h : fields.get? name = others.get? name) (default : α) (reading : Reading α) :
    fields.optional name default reading = others.optional name default reading := by
  simp only [optional, optionalAs, first?, List.findSome?_cons, List.findSome?_nil, h]

namespace Reading

/-- The names of the fields of a URL. -/
def urlNames : List Text :=
  ["protocol", "host", "port", "path", "query", "variables", "hash"]

theorem urlFields_congr {fields others : Fields}
    (h : ∀ name ∈ urlNames, fields.get? name = others.get? name) :
    Reading.urlFields fields = Reading.urlFields others := by
  simp only [urlNames, List.forall_mem_cons] at h
  obtain ⟨hprotocol, hhost, hport, hpath, hquery, hvariables, hhash, -⟩ := h
  unfold Reading.urlFields
  rw [Fields.optional_congr hprotocol, Fields.optional_congr hhost, Fields.optional_congr hport,
    Fields.optional_congr hpath, Fields.optional_congr hquery, Fields.optional_congr hvariables,
    Fields.optional_congr hhash]

/-- The outcome of reading a URL, or the fault by which its layout is not recognised. -/
def urlOutcome (v : Value) : Except Fault (Checked Url) := (urlSource v).map urlOfSource

theorem urlOutcome_map (fields : Fields) :
    urlOutcome (.map fields) = (urlLayout fields).map Reading.urlFields := by
  have hsource : urlSource (.map fields) =
      (urlLayout fields).map fun layout => .other (.map layout) := by
    cases h : urlLayout fields <;> simp [urlSource, h] <;> rfl
  rw [urlOutcome, hsource]
  cases urlLayout fields <;> rfl

/-- The layout of a URL is recognised before anything is checked. -/
theorem bind_urlSource (v : Option Value) (combine : Checked Url → Checked Request) :
    (Checked.ofExcept (v.mapM urlSource)).bind (fun source =>
      combine (match source with
        | some source => (urlOfSource source).under (.field "url")
        | none => .valid {})) =
      match v.map urlOutcome with
      | none => combine (.valid {})
      | some (.error fault) => .broken fault
      | some (.ok url) => combine (url.under (.field "url")) := by
  cases v with
  | none => rfl
  | some v =>
    simp only [Option.mapM_some, Option.map_some, urlOutcome]
    cases urlSource v <;> rfl

/-- A request is read from a few of its fields. -/
theorem requestFields_congr [Host] {fields others : Fields}
    (hmethod : fields.get? "method" = others.get? "method")
    (hurl : (fields.get? "url").map urlOutcome = (others.get? "url").map urlOutcome)
    (hheaders : ((fields.get? "headers").or (fields.get? "header")).map headersLayout =
      ((others.get? "headers").or (others.get? "header")).map headersLayout)
    (hbody : fields.get? "body" = others.get? "body")
    (hauth : fields.get? "auth" = others.get? "auth") :
    requestFields fields = requestFields others := by
  have hfield {name : Text} (hold : name ≠ "header") (hnew : name ≠ "headers")
      (h : fields.get? name = others.get? name) : (fields.renamed "header" "headers").get? name =
        (others.renamed "header" "headers").get? name := by
    rw [Fields.get?_renamed_of_ne hold hnew, Fields.get?_renamed_of_ne hold hnew, h]
  unfold requestFields
  simp only [Fields.get?_renamed_new, hheaders,
    Fields.optional_congr (hfield (by decide) (by decide) hmethod),
    Fields.optional_congr (hfield (by decide) (by decide) hbody),
    Fields.optional_congr (hfield (by decide) (by decide) hauth),
    Fields.get?_renamed_of_ne (show ("url" : Text) ≠ "header" by decide)
      (show ("url" : Text) ≠ "headers" by decide)]
  refine (bind_urlSource _ fun url => Request.mk <$> _ <*> url <*> _ <*> _ <*> _).trans ?_
  rw [hurl]
  exact (bind_urlSource _ fun url => Request.mk <$> _ <*> url <*> _ <*> _ <*> _).symm

/-! ### Outcomes for the layouts of a URL -/

theorem urlOutcome_raw (t : Text) :
    urlOutcome (.str t) = urlOutcome (.map [(.str "raw", .str t)]) := by
  have hread : Reading.urlFields (Value.urlFields (Url.ofText t) ++ []) =
      .valid (Url.ofText t) := urlFields_append (Url.port_ofText_ne t) rfl
  rw [List.append_nil] at hread
  have hlayout : urlLayout [(.str "raw", .str t)] = .ok (Value.urlFields (Url.ofText t)) := rfl
  rw [urlOutcome_map, hlayout]
  change Except.ok (Checked.valid (Url.ofText t)) = Except.ok _
  rw [hread]

theorem urlOutcome_variables {entries : Fields} (hkeys : entries.Distinct)
    (h : entries.get? "variables" = none) :
    urlOutcome (.map entries) = urlOutcome (.map (entries.rename "variable" "variables")) := by
  have hlookup {name : Text} (hname : name ≠ "variable") :
      (entries.renamed "variable" "variables").get? name =
        ((entries.rename "variable" "variables").renamed "variable" "variables").get? name := by
    by_cases hnew : name = "variables"
    · rw [hnew, Fields.get?_renamed_new, Fields.get?_renamed_new, Fields.get?_rename_new h,
        Fields.get?_rename_old (by decide), h, Option.none_or, Option.or_none]
    · rw [Fields.get?_renamed_of_ne hname hnew, Fields.get?_renamed_of_ne hname hnew,
        Fields.get?_rename_of_ne hname hnew]
  have hnames : ∀ name ∈ urlNames, name ≠ "variable" ∧ name ≠ "raw" := by decide
  have hread : Reading.urlFields (entries.renamed "variable" "variables") = Reading.urlFields
      ((entries.rename "variable" "variables").renamed "variable" "variables") :=
    urlFields_congr fun name hname => hlookup (hnames name hname).1
  rw [urlOutcome_map, urlOutcome_map]
  unfold urlLayout Fields.has
  simp only [← hlookup (show ("raw" : Text) ≠ "variable" by decide),
    ← hlookup (show ("host" : Text) ≠ "variable" by decide)]
  cases (entries.renamed "variable" "variables").get? "raw" with
  | none => exact congrArg Except.ok hread
  | some raw =>
    dsimp only
    split
    · exact congrArg Except.ok hread
    · cases raw with
      | str t =>
        refine congrArg Except.ok (urlFields_congr fun name hname => ?_)
        rw [Fields.get?_overlay ((hkeys.renamed _ _).erase _),
          Fields.get?_overlay (((hkeys.rename h).renamed _ _).erase _),
          Fields.get?_erase_of_ne (hnames name hname).2,
          Fields.get?_erase_of_ne (hnames name hname).2, hlookup (hnames name hname).1]
      | _ => rfl

theorem urlLayout_of_raw {entries : Fields} {t : Text} (hraw : entries.get? "raw" = some (.str t))
    (hhost : entries.get? "host" = none) : urlLayout entries =
      .ok ((Value.urlFields (Url.ofText t)).overlay
        ((entries.renamed "variable" "variables").erase "raw")) := by
  have hraw' : (entries.renamed "variable" "variables").get? "raw" = some (.str t) := by
    rw [Fields.get?_renamed_of_ne (by decide) (by decide), hraw]
  have hhost' : (entries.renamed "variable" "variables").get? "host" = none := by
    rw [Fields.get?_renamed_of_ne (by decide) (by decide), hhost]
  unfold urlLayout Fields.has
  simp only [hraw', hhost']
  rfl

theorem urlLayout_of_no_raw {entries : Fields} (h : entries.get? "raw" = none) :
    urlLayout entries = .ok (entries.renamed "variable" "variables") := by
  have h' : (entries.renamed "variable" "variables").get? "raw" = none := by
    rw [Fields.get?_renamed_of_ne (by decide) (by decide), h]
  unfold urlLayout
  simp only [h']

theorem urlOutcome_parts {entries : Fields} {t : Text} (hkeys : entries.Distinct)
    (hraw : entries.get? "raw" = some (.str t)) (hhost : entries.get? "host" = none) :
    urlOutcome (.map entries) = urlOutcome
      (.map ((entries.erase "raw").withDefaults (Value.urlFields (Url.ofText t)))) := by
  have hother {name : Text} (hname : name ≠ "raw") :
      ((entries.erase "raw").withDefaults (Value.urlFields (Url.ofText t))).get? name =
        (entries.get? name).or (Fields.get? (Value.urlFields (Url.ofText t)) name) := by
    rw [Fields.get?_withDefaults, Fields.get?_erase_of_ne hname]
  have hnone : ((entries.erase "raw").withDefaults (Value.urlFields (Url.ofText t))).get? "raw" =
      none := by
    rw [Fields.get?_withDefaults, Fields.get?_erase_self]
    rfl
  have hnames : ∀ name ∈ urlNames, name ≠ "variable" ∧ name ≠ "raw" := by decide
  rw [urlOutcome_map, urlOutcome_map, urlLayout_of_raw hraw hhost, urlLayout_of_no_raw hnone]
  refine congrArg Except.ok (urlFields_congr fun name hname => ?_)
  obtain ⟨hvariable, hname⟩ := hnames name hname
  rw [Fields.get?_overlay ((hkeys.renamed _ _).erase _), Fields.get?_erase_of_ne hname]
  by_cases hnew : name = "variables"
  · -- a text has no variables under either name
    have hvariables : Fields.get? (Value.urlFields (Url.ofText t)) "variables" = none := rfl
    have hvariable : Fields.get? (Value.urlFields (Url.ofText t)) "variable" = none := rfl
    rw [hnew, Fields.get?_renamed_new, Fields.get?_renamed_new, hother (by decide),
      hother (by decide), hvariables, hvariable, Option.or_none, Option.or_none, Option.or_none]
  · rw [Fields.get?_renamed_of_ne hvariable hnew, Fields.get?_renamed_of_ne hvariable hnew,
      hother hname]

theorem urlOutcome_respelled {v w : Value} (h : v.UrlRespelled w) :
    urlOutcome v = urlOutcome w := by
  cases h with
  | raw t => exact urlOutcome_raw t
  | pathVariables hkeys h => exact urlOutcome_variables hkeys h
  | parts hkeys hraw hhost => exact urlOutcome_parts hkeys hraw hhost

/-! ### Requests -/

/-- A list of headers is in its layout already. -/
theorem headersLayout_headersLayout (v : Value) :
    headersLayout (headersLayout v) = headersLayout v := by
  cases v <;> rfl

theorem requestFields_header [Host] {fields : Fields} (h : fields.get? "headers" = none) :
    requestFields fields = requestFields (fields.rename "header" "headers") := by
  have hother {name : Text} (hold : name ≠ "header") (hnew : name ≠ "headers") :
      fields.get? name = (fields.rename "header" "headers").get? name :=
    (Fields.get?_rename_of_ne hold hnew).symm
  refine requestFields_congr (hother (by decide) (by decide)) ?_ ?_
    (hother (by decide) (by decide)) (hother (by decide) (by decide))
  · rw [← hother (by decide) (by decide)]
  · rw [Fields.get?_rename_new h, Fields.get?_rename_old (by decide), h, Option.none_or,
      Option.or_none]

theorem requestFields_headers [Host] {fields : Fields} {name : Text} {v : Value}
    (hname : name = "headers" ∨ name = "header" ∧ fields.get? "headers" = none)
    (h : fields.get? name = some v) : requestFields fields =
      requestFields (insertEntry (.str name) (headersLayout v) fields) := by
  have hself : Fields.get? (insertEntry (.str name) (headersLayout v) fields) name =
      some (headersLayout v) := by
    rw [Fields.get?_insertEntry, if_pos rfl]
  have hother {other : Text} (hne : name ≠ other) : fields.get? other =
      Fields.get? (insertEntry (.str name) (headersLayout v) fields) other := by
    rw [Fields.get?_insertEntry, if_neg hne]
  rcases hname with rfl | ⟨rfl, hnone⟩
  · refine requestFields_congr (hother (by decide)) ?_ ?_ (hother (by decide))
      (hother (by decide))
    · rw [← hother (by decide)]
    · rw [hself, h, Option.some_or, Option.some_or, Option.map_some, Option.map_some,
        headersLayout_headersLayout]
  · refine requestFields_congr (hother (by decide)) ?_ ?_ (hother (by decide))
      (hother (by decide))
    · rw [← hother (by decide)]
    · rw [hself, ← hother (by decide), hnone, h, Option.none_or, Option.none_or, Option.map_some,
        Option.map_some, headersLayout_headersLayout]

theorem requestFields_url [Host] {fields : Fields} {v w : Value} (h : fields.get? "url" = some v)
    (hrespelled : v.UrlRespelled w) :
    requestFields fields = requestFields (insertEntry (.str "url") w fields) := by
  have hother {other : Text} (hne : "url" ≠ other) :
      fields.get? other = Fields.get? (insertEntry (.str "url") w fields) other := by
    rw [Fields.get?_insertEntry, if_neg hne]
  refine requestFields_congr (hother (by decide)) ?_ ?_ (hother (by decide)) (hother (by decide))
  · rw [Fields.get?_insertEntry, if_pos rfl, h, Option.map_some, Option.map_some,
      urlOutcome_respelled hrespelled]
  · rw [← hother (by decide), ← hother (by decide)]

theorem requestFields_respelled [Host] {fields others : Fields} (h : fields.Respelled others) :
    requestFields fields = requestFields others := by
  cases h with
  | header h => exact requestFields_header h
  | headers hname h => exact (requestFields_headers hname h).trans rfl
  | url h hrespelled => exact requestFields_url h hrespelled

end Reading

/-- Mappings that differ in their layouts only are read with the same outcome. -/
theorem parseRequest_eq_of_respelled [Host] {fields others : Fields}
    (h : Relation.EqvGen Fields.Respelled fields others) :
    parseRequest (.map fields) = parseRequest (.map others) := by
  have hread : Reading.requestFields fields = Reading.requestFields others := by
    induction h with
    | rel _ _ h => exact Reading.requestFields_respelled h
    | refl _ => rfl
    | symm _ _ _ ih => exact ih.symm
    | trans _ _ _ _ _ ih ih' => exact ih.trans ih'
  rw [parseRequest, parseRequest, Reading.request, Reading.mapping_map, Reading.mapping_map, hread]

section

attribute [local instance] Host.usual

/-- A URL text becomes its parts, variables are renamed, and a mapping of headers becomes a list. -/
theorem parseRequest_eq_of_collection :
    let headers : Value := .map [(.str "X-A", .str "1")]
    let listed : Value := .list [.map [(.str "key", .str "X-A"), (.str "value", .str "1")]]
    let collection (url : Value) : Value := .map [(.str "url", url), (.str "header", headers)]
    let plain (url : Fields) : Value := .map [(.str "url", .map url), (.str "headers", listed)]
    parseRequest (collection (.str "h:80?q")) = parseRequest (plain [(.str "protocol", .null),
      (.str "host", texts ["h"]), (.str "port", .str "80"), (.str "path", .list []),
      (.str "query", .list [ofQueryParam { key := "q" }]), (.str "hash", .null)]) ∧
    parseRequest (collection (.map [(.str "raw", .str "h/:a"), (.str "variable", .list []),
      (.str "hash", .int 1)])) = parseRequest (plain [(.str "variables", .list []),
      (.str "hash", .int 1), (.str "protocol", .null), (.str "host", texts ["h"]),
      (.str "port", .null), (.str "path", texts [":a"]), (.str "query", .list [])]) := by
  intro headers listed collection plain
  constructor
  · have hkeys : Fields.Distinct [(.str "raw", .str "h:80?q")] := List.pairwise_singleton _ _
    have hraw := UrlRespelled.raw "h:80?q"
    have hparts := UrlRespelled.parts (t := "h:80?q") hkeys rfl rfl
    refine parseRequest_eq_of_respelled ?_
    exact .trans _ _ _ (.rel _ _ (.header rfl)) (.trans _ _ _ (.rel _ _ (.headers (.inl rfl) rfl))
      (.trans _ _ _ (.rel _ _ (.url rfl hraw)) (.rel _ _ (.url rfl hparts))))
  · have hkeys : Fields.Distinct [(.str "raw", .str "h/:a"), (.str "variable", .list []),
      (.str "hash", .int 1)] := by decide
    have hvariables := UrlRespelled.pathVariables hkeys rfl
    have hrenamed : Fields.Distinct [(.str "raw", .str "h/:a"), (.str "variables", .list []),
      (.str "hash", .int 1)] := by decide
    have hparts := UrlRespelled.parts (t := "h/:a") hrenamed rfl rfl
    refine parseRequest_eq_of_respelled ?_
    exact .trans _ _ _ (.rel _ _ (.header rfl)) (.trans _ _ _ (.rel _ _ (.headers (.inl rfl) rfl))
      (.trans _ _ _ (.rel _ _ (.url rfl hvariables)) (.rel _ _ (.url rfl hparts))))

end

end HttpSnippet

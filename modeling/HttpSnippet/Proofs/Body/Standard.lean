import HttpSnippet.Proofs.Body.Graphql
import HttpSnippet.Proofs.Json.Special

/-!
# What is taken for JSON

A text is written as a JSON value, and variables are sent as one, if the reader takes them. It takes
special numbers too, and it makes one of a numeral that is too large, so a text beyond the standard
may be taken for JSON and what is written may be no JSON. Both happen exactly where the text or the
value that it stands for tells. For a text that nests too deep nothing is written at all.
-/
namespace HttpSnippet

open Fragment

/-! ### Raw bodies -/

namespace Node

variable {contentType : Option Text} {text : Text} {trim : Bool} {indent : Text}

theorem rawJson?_eq_some {t : Text} {v : Json} :
    rawJson? contentType t = some v ↔
      contentType.any ContentType.isJson = true ∧ Json.read t = .ok v := by
  rw [rawJson?, ← jsonOf?_eq_some]
  split <;> simp [*]

/-- The expression is a JSON value exactly if the text is one to the reader. -/
theorem render_rawBody_eq_stringify_iff {d : Text} :
    (rawBody trim contentType text).render indent = "JSON.stringify(" ++ d ++ ")" ↔
      ∃ v, rawJson? contentType (text.trimmed trim) = some v ∧
        d = (v.fragment .indented false 0).render indent := by
  cases hv : rawJson? contentType (text.trimmed trim) with
  | none =>
    rw [render_rawBody_of_none hv]
    exact iff_of_false (fun h => absurd (List.cons.inj h).1 (by decide)) (by simp)
  | some v =>
    rw [render_rawBody_of_some hv, List.append_left_inj, List.append_right_inj]
    exact ⟨fun h => ⟨v, rfl, h.symm⟩, fun ⟨_, hw, hd⟩ => by rw [hd, Option.some.inj hw]⟩

/-- What is written for a raw payload that there is room for. -/
theorem map_writePayload_raw_eq_ok [Host] {source : Text} (boundary : Text) :
    (writePayload boundary trim contentType (.raw text)).map (·.render indent) = .ok source ↔
      HasRoom trim contentType (.raw text) ∧
        (rawBody trim contentType text).render indent = source := by
  rw [map_eq_ok]
  simp only [writePayload_eq_ok]
  constructor
  · rintro ⟨_, ⟨hroom, rfl⟩, hsource⟩
    exact ⟨hroom, hsource⟩
  · rintro ⟨hroom, hsource⟩
    exact ⟨_, ⟨hroom, rfl⟩, hsource⟩

/-- Only a text beyond the standard is taken for JSON although it is none. -/
theorem standard_of_stringify_iff [Host] (boundary : Text) :
    ((∃ d, (writePayload boundary trim contentType (.raw text)).map (·.render indent) =
          .ok ("JSON.stringify(" ++ d ++ ")")) → Json.Standard (text.trimmed trim)) ↔
      ¬(contentType.any ContentType.isJson = true ∧ HasRoom trim contentType (.raw text) ∧
        Json.BeyondStandard (Host.room .rawReading) (text.trimmed trim)) := by
  have hform : (∃ d, (writePayload boundary trim contentType (.raw text)).map (·.render indent) =
      .ok ("JSON.stringify(" ++ d ++ ")")) ↔
        contentType.any ContentType.isJson = true ∧ HasRoom trim contentType (.raw text) ∧
          ∃ v, Json.readWithin (Host.room .rawReading) (text.trimmed trim) = .ok v := by
    simp only [map_writePayload_raw_eq_ok, render_rawBody_eq_stringify_iff, rawJson?_eq_some]
    constructor
    · rintro ⟨_, hroom, v, ⟨hjson, hread⟩, -⟩
      exact ⟨hjson, hroom, v, (Json.readWithin_eq_read (hroom hjson).1).trans hread⟩
    · rintro ⟨hjson, hroom, v, hread⟩
      exact ⟨_, hroom, v, ⟨hjson, Json.read_of_readWithin hread⟩, rfl⟩
  rw [hform, Json.beyondStandard_iff]
  tauto

/-- The value of the expression is JSON exactly if it is finite. -/
theorem standard_stringify (hi : Json.Spacing indent) {d : Text}
    (hd : (rawBody trim contentType text).render indent = "JSON.stringify(" ++ d ++ ")") :
    ∃ v, Json.read (text.trimmed trim) = .ok v ∧ (Json.Standard d ↔ v.Finite) := by
  obtain ⟨v, hv, rfl⟩ := render_rawBody_eq_stringify_iff.mp hd
  obtain ⟨-, hread⟩ := rawJson?_eq_some.mp hv
  exact ⟨v, hread, Json.standard_render_iff (fun _ => hi) false 0 (Json.wellFormed_read hread)⟩

end Node

/-! ### Variables -/

theorem Json.render_eq_empty_iff {layout : Layout} {ascii : Bool} {indent : Text}
    (hi : layout = .indented → Spacing indent) (level : Nat) {v : Json} (hv : v.WellFormed) :
    (v.fragment layout ascii level).render indent = "\x7b\x7d" ↔ v = .obj [] := by
  constructor
  · intro h
    have hread := read_render hi ascii level hv
    rw [h] at hread
    exact Except.ok.inj (hread.symm.trans (rfl : read "\x7b\x7d" = .ok (.obj [])))
  · rintro rfl
    rfl

namespace GraphqlPayload

/-- Only variables beyond the standard are no JSON and yet not replaced by an empty object. -/
theorem variableValues_eq_empty_iff (payload : GraphqlPayload) {room : Nat}
    (hroom : ∀ descent, Json.readWithin room payload.variablesText ≠ .error (.tooDeep descent)) :
    (¬Json.Standard payload.variablesText → payload.variableValues = .obj []) ↔
      ¬Json.BeyondStandard room payload.variablesText := by
  rw [Json.beyondStandard_iff, ← payload.variableValues_eq, jsonOf?,
    ← Json.readWithin_eq_read hroom]
  cases hread : Json.readWithin room payload.variablesText with
  | error e => simp [Except.toOption]
  | ok v =>
    have hempty : v = .obj [] → Json.Standard payload.variablesText :=
      fun h => Json.standard_of_readWithin_eq_empty (h ▸ hread)
    simp only [Except.toOption, Option.getD_some, Except.ok.injEq, exists_eq', true_and]
    tauto

end GraphqlPayload

/-- Variables that are no text of the standard are written as an empty object, unless their text is
beyond the standard. -/
def ReplacesVariables [Host] (payload : GraphqlPayload) (values : Text) : Prop :=
  (¬Json.Standard payload.variablesText → values = "\x7b\x7d") ↔
    ¬Json.BeyondStandard (Host.room .variablesReading) payload.variablesText

theorem replacesVariables [Host] {layout : Json.Layout} {indent : Text}
    (hi : layout = .indented → Json.Spacing indent) (level : Nat) {payload : GraphqlPayload}
    (hroom : ∀ descent, Json.readWithin (Host.room .variablesReading) payload.variablesText ≠
      .error (.tooDeep descent)) :
    ReplacesVariables payload
      ((payload.variableValues.fragment layout false level).render indent) := by
  rw [ReplacesVariables, Json.render_eq_empty_iff hi level payload.wellFormed_variableValues]
  exact payload.variableValues_eq_empty_iff hroom

theorem Php.write_graphqlJson (trim : Bool) (payload : GraphqlPayload) :
    (graphqlJson trim payload).write .compact false =
      "\x7b\"query\":" ++ Json.quote false (payload.query.trimmed trim) ++ ",\"variables\":" ++
        (payload.variableValues.fragment .compact false 1).render [] ++ "\x7d" := by
  rw [graphqlJson, payload.variableValues_eq]
  have hquery : Json.quote false "query" = "\"query\"" := by decide
  have hvariables : Json.quote false "variables" = "\"variables\"" := by decide
  simp only [Json.write, Json.fragment, Json.memberFragments, Json.Layout.opened, Json.Layout.comma,
    Json.Layout.colon, render_cons, render_append, Piece.render, hquery, hvariables]
  simp [Fragment.render]

theorem Json.finite_graphqlJson {q : Text} {v : Json} :
    Finite (.obj [("query", .str q), ("variables", v)]) ↔ v.Finite := by
  simp [finite_obj, Finite.str]

/-- A text that is written as a JSON value is a text of the standard, and variables that are not are
sent as an empty object, except for texts beyond the standard and where there is no room for the
payload. Then nothing is written. The variables that are written and the whole body that a PHP
program sends keep to the standard exactly if the value is finite, and so does the argument of a
Node expression that is indented with white space. -/
theorem standard_bodies_iff [Host] (indent boundary : Text) (trim : Bool)
    (contentType : Option Text) (text : Text) (payload : GraphqlPayload) :
    let t := text.trimmed trim
    let source : Except WriteError Text :=
      (Node.writePayload boundary trim contentType (.raw text)).map (·.render indent)
    let node : Except WriteError Text :=
      (Node.writePayload boundary trim contentType (.graphql payload)).map (·.render indent)
    let php : Except WriteError Text :=
      (Php.writePayload trim (.graphql payload)).map (·.render indent)
    let query := Json.quote false (payload.query.trimmed trim)
    let v := payload.variableValues
    (((∃ d, source = .ok ("JSON.stringify(" ++ d ++ ")")) → Json.Standard t) ↔
      ¬(contentType.any ContentType.isJson = true ∧ Node.HasRoom trim contentType (.raw text) ∧
        Json.BeyondStandard (Host.room .rawReading) t)) ∧
    (Json.Spacing indent → ∀ d, source = .ok ("JSON.stringify(" ++ d ++ ")") →
      ∃ w, Json.read t = .ok w ∧ (Json.Standard d ↔ w.Finite)) ∧
    (Node.HasRoom trim contentType (.graphql payload) → ∃ values, node = .ok
        ("JSON.stringify(\x7b\n" ++ indent ++ "query: " ++ query ++ ",\n" ++ indent ++
          "variables: " ++ values ++ "\n\x7d)") ∧
      ReplacesVariables payload values ∧ (Json.Standard values ↔ v.Finite)) ∧
    (¬Node.HasRoom trim contentType (.graphql payload) →
      ∃ descent, node = .error (.tooDeep descent)) ∧
    (Php.HasRoom trim (.graphql payload) → ∃ program values sent, php = .ok program ∧
      Php.readBody? program = some sent ∧
      sent = "\x7b\"query\":" ++ query ++ ",\"variables\":" ++ values ++ "\x7d" ∧
      ReplacesVariables payload values ∧ (Json.Standard sent ↔ v.Finite)) ∧
    (¬Php.HasRoom trim (.graphql payload) → ∃ descent, php = .error (.tooDeep descent)) := by
  intro t source node php query v
  have hv := payload.wellFormed_variableValues
  refine ⟨Node.standard_of_stringify_iff boundary, fun hi d hd => ?_, fun hroom => ?_,
    fun hroom => ?_, fun hroom => ?_, fun hroom => ?_⟩
  · exact Node.standard_stringify hi ((Node.map_writePayload_raw_eq_ok boundary).mp hd).2
  · have hok : node = .ok ((Node.graphqlBody trim payload).render indent) :=
      congrArg (Except.map _) (Node.writePayload_eq_ok.mpr ⟨hroom, rfl⟩)
    exact ⟨_, hok.trans (congrArg _ (Node.render_graphqlBody indent trim payload)),
      replacesVariables (by simp) 0 hroom.1, Json.standard_render_iff (by simp) false 0 hv⟩
  · obtain ⟨descent, h⟩ := Node.exists_tooDeep_of_not_hasRoom hroom
    exact ⟨descent, map_eq_error.mpr h⟩
  · have hok : php = .ok ((Php.graphqlBody trim payload).render indent) :=
      congrArg (Except.map _) (Php.writePayload_eq_ok.mpr ⟨hroom, rfl⟩)
    refine ⟨_, _, _, hok, Php.readBody?_setBody indent _, Php.write_graphqlJson trim payload,
      replacesVariables (by simp) 1 hroom.1, ?_⟩
    rw [Php.graphqlJson, payload.variableValues_eq, ← Json.finite_graphqlJson]
    exact Json.standard_render_iff (by simp) false 0
      (.obj (by simp) (by simp [hv, Json.WellFormed.str]))
  · obtain ⟨descent, h⟩ := Php.exists_tooDeep_of_not_hasRoom hroom
    exact ⟨descent, map_eq_error.mpr h⟩

section

attribute [local instance] Host.usual

theorem standard_bodies_of_nan :
    let payload : GraphqlPayload := { query := "q", variablesText := "[7, NaN]" }
    let source := Node.writePayload "b" true (some "application/json") (.raw " [7, NaN]\n")
    Json.Spacing "\t" ∧
    (∃ d, source.map (·.render "\t") = .ok ("JSON.stringify(" ++ d ++ ")") ∧ ¬Json.Standard d) ∧
    ∃ program sent, (Php.writePayload true (.graphql payload)).map (·.render "\t") = .ok program ∧
      Php.readBody? program = some sent ∧ ¬Json.Standard sent := by
  intro payload source
  have htab : Json.Spacing "\t" := by simp [Json.Spacing, Json.Cursor.isSpace]
  let v : Json := .arr [.int 7, .float .nan]
  have hv : v.WellFormed := .arr (List.forall_mem_cons.mpr
    ⟨.int (by decide +kernel), List.forall_mem_singleton.mpr (.float trivial)⟩)
  have hspecial : ¬v.Finite := fun h => by cases Json.finite_arr.mp h (.float .nan) (by simp)
  have hreadWithin (site : Site) (hsite : v.depth ≤ Host.room site) :
      Json.readWithin (Host.room site) "[7, NaN]" = .ok v := by
    rw [show ("[7, NaN]" : Text) = v.write .spaced true by decide +kernel]
    exact Json.readWithin_write _ _ hv hsite
  have hshallow (site : Site) (hsite : v.depth ≤ Host.room site) (descent : Descent) :
      Json.readWithin (Host.room site) "[7, NaN]" ≠ .error (.tooDeep descent) := by
    rw [hreadWithin site hsite]
    exact fun h => by cases h
  have hread : Json.read "[7, NaN]" = .ok v :=
    Json.read_of_readWithin (hreadWithin .rawReading (by decide))
  have htrim : Text.trimmed true " [7, NaN]\n" = ("[7, NaN]" : Text) := by decide
  have hvalues : payload.variableValues = v := by
    rw [← payload.variableValues_eq, jsonOf?_eq_some.mpr hread, Option.getD_some]
  have hroom : Node.HasRoom true (some "application/json") (.raw " [7, NaN]\n") := by
    intro _
    rw [htrim]
    refine ⟨hshallow _ (by decide), fun w hw => ?_⟩
    obtain rfl := Except.ok.inj ((hreadWithin .rawReading (by decide)).symm.trans hw)
    decide
  have hroom' : Php.HasRoom true (.graphql payload) := by
    refine ⟨hshallow _ (by decide), ?_⟩
    rw [Php.graphqlJson, payload.variableValues_eq, hvalues]
    decide
  obtain ⟨-, hraw, -, -, hphp, -⟩ := standard_bodies_iff "\t" "b" true (some "application/json")
    " [7, NaN]\n" payload
  obtain ⟨program, -, sent, hprogram, hsent, -, -, hstandard⟩ := hphp hroom'
  rw [htrim, hread] at hraw
  rw [hvalues] at hstandard
  have hvalue : Node.rawJson? (some "application/json") (Text.trimmed true " [7, NaN]\n") =
      some v := by
    rw [htrim]
    exact Node.rawJson?_eq_some.mpr ⟨by decide, hread⟩
  have hstringify := (Node.map_writePayload_raw_eq_ok "b").mpr
    ⟨hroom, Node.render_rawBody_of_some hvalue "\t"⟩
  obtain ⟨w, hw, hd⟩ := hraw htab _ hstringify
  cases hw
  exact ⟨htab, ⟨_, hstringify, fun h => hspecial (hd.mp h)⟩, program, sent, hprogram, hsent,
    fun h => hspecial (hstandard.mp h)⟩

/-- A special number is no JSON, and yet it is taken for one. -/
theorem stringify_nan :
    (Node.writePayload "b" false (some "application/json") (.raw "NaN")).map (·.render "  ") =
        .ok "JSON.stringify(NaN)" ∧ ¬Json.Standard "NaN" := by
  refine ⟨by decide +kernel, fun h => ?_⟩
  obtain ⟨-, tokens, htokens, hletter, -⟩ := Json.standard_iff.mp h
  obtain rfl : [.code 'N', .code 'a', .code 'N'] = tokens := Option.some.inj htokens
  exact hletter (by decide)

end

end HttpSnippet

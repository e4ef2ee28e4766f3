import HttpSnippet.Proofs.Check.Fields
import HttpSnippet.Proofs.Check.Written
import HttpSnippet.Proofs.Json.Numeral
import HttpSnippet.Proofs.Text.Case

/-!
# Reading once more

What is read from JSON data is canonical, whatever layout the data has, so it is read as the same
request when it is written back field by field.
-/
namespace HttpSnippet

/-! ### Outcomes that are valid -/

namespace Checked

variable {α β : Type} {x : Checked α} {a : α} {b : β}

theorem under_eq_valid_iff {step : Step} : x.under step = .valid a ↔ x = .valid a := by
  cases x <;> simp [under]

theorem bind_eq_valid_iff {f : α → Checked β} :
    x.bind f = .valid b ↔ ∃ a, x = .valid a ∧ f a = .valid b := by
  cases x <;> simp [bind]

theorem ofExcept_eq_valid_iff {x : Except Fault α} : ofExcept x = .valid a ↔ x = .ok a := by
  cases x <;> simp [ofExcept]

theorem seq_eq_valid_iff {f : Checked (α → β)} :
    f <*> x = .valid b ↔ ∃ g, f = .valid g ∧ ∃ a, x = .valid a ∧ g a = b := by
  cases f <;> cases x <;> simp [Seq.seq, Checked.and, Checked.map]

theorem map_eq_valid_iff {f : α → β} : f <$> x = .valid b ↔ ∃ a, x = .valid a ∧ f a = b := by
  cases x <;> simp [Functor.map, Checked.and, Checked.map]

/-- What holds of the outcome of a combination is said of the outcomes of its parts. -/
theorem exists_seq_eq_valid_iff {f : Checked (α → β)} {P : β → Prop} :
    (∃ b, f <*> x = .valid b ∧ P b) ↔ ∃ g, f = .valid g ∧ ∃ a, x = .valid a ∧ P (g a) := by
  simp only [seq_eq_valid_iff]
  aesop

theorem exists_map_eq_valid_iff {f : α → β} {P : β → Prop} :
    (∃ b, f <$> x = .valid b ∧ P b) ↔ ∃ a, x = .valid a ∧ P (f a) := by
  simp only [map_eq_valid_iff]
  aesop

end Checked

namespace Fields

variable {α : Type} {fields : Fields} {name : Text} {reading : Reading α} {default a : α}

theorem optional_eq_valid_iff : fields.optional name default reading = .valid a ↔
    (fields.get? name = none ∧ default = a) ∨
      ∃ v, fields.get? name = some v ∧ reading v = .valid a := by
  unfold optional optionalAs first?
  cases h : fields.get? name with
  | none => simp [h]
  | some v => simp [h, Checked.under_eq_valid_iff]

/-! ### Values of a mapping -/

/-- The values of a mapping all have a property. -/
def Each (P : Value → Prop) (fields : Fields) : Prop := ∀ entry ∈ fields, P entry.2

variable {P : Value → Prop}

theorem Each.get? (h : fields.Each P) {v : Value} (hv : fields.get? name = some v) : P v := by
  obtain ⟨entry, hentry, rfl⟩ := Option.map_eq_some_iff.mp hv
  exact h entry (List.mem_of_find?_eq_some hentry)

theorem Each.erase (h : fields.Each P) (name : Text) : (fields.erase name).Each P :=
  fun entry hentry => h entry (List.mem_filter.mp hentry).1

theorem Each.renamed (h : fields.Each P) (old new : Text) : (fields.renamed old new).Each P := by
  unfold Fields.renamed
  cases hold : fields.get? old with
  | none => exact h
  | some v =>
    dsimp only
    split
    · exact h
    · intro entry hentry
      rcases List.mem_append.mp hentry with hentry | hentry
      · exact h.erase old entry hentry
      · rw [List.mem_singleton.mp hentry]
        exact h.get? hold

theorem Each.insertEntry (h : fields.Each P) (k : Value) {v : Value} (hv : P v) :
    Each P (Value.insertEntry k v fields) := by
  unfold Value.insertEntry
  induction fields with
  | nil => exact fun entry hentry => by rwa [List.mem_singleton.mp hentry]
  | cons entry rest ih =>
    obtain ⟨hentry, hrest⟩ := List.forall_mem_cons.mp h
    rw [Value.insertBy]
    split
    · exact List.forall_mem_cons.mpr ⟨hv, hrest⟩
    · exact List.forall_mem_cons.mpr ⟨hentry, ih hrest⟩

theorem Each.overlay {above : Fields} (h : fields.Each P) (habove : above.Each P) :
    (fields.overlay above).Each P := by
  unfold Fields.overlay
  induction above generalizing fields with
  | nil => exact h
  | cons entry rest ih =>
    obtain ⟨hentry, hrest⟩ := List.forall_mem_cons.mp habove
    exact ih (h.insertEntry entry.1 hentry) hrest

end Fields

namespace Value

def IsOctets : Value → Prop
  | .octets _ => True
  | _ => False

theorem not_isOctets_ofJson (x : Json) : ¬(ofJson x).IsOctets := by
  cases x <;> exact id

theorem each_ofJsonMembers (ms : List (Text × Json)) :
    Fields.Each (∃ x, · = ofJson x) (ofJsonMembers ms) := by
  rw [Fields.ofJsonMembers_eq_map]
  intro entry hentry
  obtain ⟨m, -, rfl⟩ := List.mem_map.mp hentry
  exact ⟨m.2, rfl⟩

end Value

/-! ### Parts that are read as canonical -/

theorem Url.splitPort_ne (authority : Text) : (splitPort authority).2 ≠ some [] := by
  unfold splitPort
  split
  · split
    · simp
    · rename_i h
      rintro ⟨⟩
      simp at h
  · simp

theorem Url.port_ofText_ne (t : Text) : (ofText t).port ≠ some [] := splitPort_ne _

namespace Reading

open Value

theorem toUpper_of_method {v : Value} (hv : ¬v.IsOctets) {t : Text} (h : method v = .valid t) :
    t.toUpper = t := by
  cases v with
  | str s =>
    cases h
    exact Text.toUpper_toUpper s
  | octets bytes => exact absurd trivial hv
  | _ => cases h

theorem port_ne_of_port {v : Value} (hv : ¬v.IsOctets) {o : Option Text} (h : port v = .valid o) :
    o ≠ some [] := by
  cases v with
  | int n =>
    rw [port] at h
    split at h
    · cases h
      cases n <;> simp [Text.ofInt, Json.ofNat_ne_nil]
    · cases h
  | str t =>
    cases t with
    | nil =>
      cases h
      simp
    | cons c t =>
      cases h
      simp
  | null =>
    cases h
    simp
  | octets bytes => exact absurd trivial hv
  | _ => cases h

theorem port_of_urlFields {fields : Fields} {u : Url} (h : Reading.urlFields fields = .valid u) :
    fields.optional "port" none port = .valid u.port := by
  rw [Reading.urlFields, Checked.seq_eq_valid_iff] at h
  simp only [Checked.exists_seq_eq_valid_iff, Checked.exists_map_eq_valid_iff] at h
  obtain ⟨_, -, _, -, _, hport, _, -, _, -, _, -, _, -, rfl⟩ := h
  exact hport

theorem port_ne_of_urlFields {fields : Fields} (hfields : fields.Each (¬·.IsOctets)) {u : Url}
    (h : Reading.urlFields fields = .valid u) : u.port ≠ some [] := by
  rcases Fields.optional_eq_valid_iff.mp (port_of_urlFields h) with ⟨-, hdefault⟩ | ⟨v, hv, hport⟩
  · simp [← hdefault]
  · exact port_ne_of_port (hfields.get? hv) hport

theorem each_urlFields (u : Url) : Fields.Each (¬·.IsOctets) (Value.urlFields u) := by
  have hoption (o : Option Text) : ¬(ofOption o).IsOctets := by cases o <;> exact id
  intro entry hentry
  simp only [Value.urlFields, List.mem_cons, List.not_mem_nil, or_false] at hentry
  rcases hentry with rfl | rfl | rfl | rfl | rfl | rfl
  exacts [hoption _, id, hoption _, id, id, hoption _]

/-- Bringing a URL into the library's own layout brings no octets into it. -/
theorem each_urlLayout {fields layout : Fields} (h : fields.Each (¬·.IsOctets))
    (hlayout : urlLayout fields = .ok layout) : layout.Each (¬·.IsOctets) := by
  have hrenamed := h.renamed "variable" "variables"
  unfold urlLayout at hlayout
  dsimp only at hlayout
  split at hlayout
  · cases hlayout
    exact hrenamed
  · split at hlayout
    · cases hlayout
      exact hrenamed
    · split at hlayout
      · cases hlayout
        exact (each_urlFields _).overlay (hrenamed.erase "raw")
      · cases hlayout
      · cases hlayout

theorem port_ne_of_urlSource {x : Json} {source : UrlSource}
    (hsource : urlSource (ofJson x) = .ok source) {u : Url} (h : urlOfSource source = .valid u) :
    u.port ≠ some [] := by
  cases x with
  | str t =>
    cases hsource
    cases h
    exact Url.port_ofText_ne t
  | obj members =>
    rw [ofJson, urlSource] at hsource
    cases hlayout : urlLayout (ofJsonMembers members) with
    | error fault =>
      rw [hlayout] at hsource
      cases hsource
    | ok layout =>
      rw [hlayout] at hsource
      cases hsource
      have hmembers : Fields.Each (¬·.IsOctets) (ofJsonMembers members) := by
        intro entry hentry
        obtain ⟨x, hx⟩ := each_ofJsonMembers members entry hentry
        rw [hx]
        exact not_isOctets_ofJson x
      exact port_ne_of_urlFields (each_urlLayout hmembers hlayout) h
  | _ =>
    cases hsource
    cases h

/-! ### Requests -/

theorem canonical_of_requestFields [Host] {fields : Fields}
    (hfields : fields.Each (∃ x, · = ofJson x)) {r : Request}
    (h : requestFields fields = .valid r) : r.Canonical := by
  have hrenamed := hfields.renamed "header" "headers"
  obtain ⟨source, hsource, h⟩ := Checked.bind_eq_valid_iff.mp h
  rw [Checked.seq_eq_valid_iff] at h
  simp only [Checked.exists_seq_eq_valid_iff, Checked.exists_map_eq_valid_iff] at h
  obtain ⟨method, hmethod, url, hurl, _, -, _, -, _, -, rfl⟩ := h
  refine ⟨?_, ?_⟩
  · rcases Fields.optional_eq_valid_iff.mp hmethod with ⟨-, rfl⟩ | ⟨v, hv, hmethod⟩
    · rfl
    · obtain ⟨x, rfl⟩ := hrenamed.get? hv
      exact toUpper_of_method (not_isOctets_ofJson x) hmethod
  · have hsource := Checked.ofExcept_eq_valid_iff.mp hsource
    cases hv : (fields.renamed "header" "headers").get? "url" with
    | none =>
      rw [hv] at hsource
      cases hsource
      cases hurl
      simp
    | some v =>
      obtain ⟨x, rfl⟩ := hrenamed.get? hv
      rw [hv, Option.mapM_some] at hsource
      cases hx : urlSource (ofJson x) with
      | error fault =>
        rw [hx] at hsource
        cases hsource
      | ok source =>
        rw [hx] at hsource
        cases hsource
        exact port_ne_of_urlSource hx (Checked.under_eq_valid_iff.mp hurl)

/-- What is read from JSON data is canonical. -/
theorem canonical_of_request [Host] {x : Json} {r : Request} (h : request (ofJson x) = .valid r) :
    r.Canonical := by
  cases x with
  | obj members => exact canonical_of_requestFields (each_ofJsonMembers members) h
  | _ => cases h

end Reading

/-- What was read from JSON data is read again from its fields, whatever layout the data had. -/
theorem parseRequest_ofRequest [Host] {x : Json} {r : Request}
    (h : parseRequest (.ofJson x) = .ok r) :
    parseRequest (.ofRequest r) = .ok r := by
  have hread : Reading.request (.ofJson x) = .valid r := by
    unfold parseRequest at h
    split at h
    · cases h
      assumption
    · cases h
    · cases h
  rw [parseRequest, Reading.request_ofRequest (Reading.canonical_of_request hread)]

section

attribute [local instance] Host.usual

/-- A collection's request with every layout in it. -/
theorem parseRequest_ofRequest_of_collection :
    let x : Json := .obj [("method", .str "post"), ("header", .obj [("X-A", .str "1")]),
      ("url", .obj [("raw", .str "https://u@h.io:80/a/:b?q=1&r#f"), ("port", .str []),
        ("variable", .arr [.obj [("key", .str "b"), ("value", .str "2")]])]),
      ("auth", .obj [("type", .str "bearer"),
        ("bearer", .arr [.obj [("key", .str "token"), ("value", .str "t")]])]),
      ("body", .obj [("mode", .str "graphql"), ("graphql", .obj [("query", .str "query"),
        ("variables", .obj [("n", .str "1")])]),
        ("formdata", .arr [.obj [("key", .str "k"), ("type", .str "file"),
          ("src", .arr [.str "a.png"]), ("contentType", .str "image/png")]])])]
    let r : Request := {
      method := "POST"
      url := { protocol := some "https", host := ["h", "io"], path := ["a", ":b"],
               query := [{ key := "q", value := some "1" }, { key := "r" }],
               pathVariables := [{ key := "b", value := "2" }], hash := some "f" }
      headers := [{ key := "X-A", value := "1" }]
      body := some { mode := "graphql",
                     formdata := some [{ key := "k", kind := .file, src := .list [.str "a.png"],
                                         contentType := some "image/png" }],
                     graphql := some { query := "query", variablesText := "\x7b\"n\": \"1\"\x7d" } }
      auth := some { kind := .bearer, token := "t" } }
    parseRequest (.ofJson x) = .ok r ∧ parseRequest (.ofRequest r) = .ok r := by
  intro x r
  have h : parseRequest (.ofJson x) = .ok r := by rfl
  exact ⟨h, parseRequest_ofRequest h⟩

end

end HttpSnippet

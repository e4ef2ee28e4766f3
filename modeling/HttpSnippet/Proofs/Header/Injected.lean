import HttpSnippet.Proofs.Header.Reading
import HttpSnippet.Proofs.Normal.Frame
import HttpSnippet.Proofs.Outcome
import HttpSnippet.Proofs.Text.Blank

/-!
# Headers of the caller and headers that are added

Whether a header is there already is asked for its name as it is spelled, and headers are written
under their names without white space around them. A caller's header whose name has a margin is
overlooked by the first and met by the second, so an added value joins it in the program. It is said
here for which requests this does not happen.
-/
namespace HttpSnippet

/-- The values that groups have under a name, be it in upper or lower case. -/
def valuesUnder (name : Text) (groups : List (Text × List Text)) : List Text :=
  (groups.filter (·.1.toLower = name.toLower)).flatMap (·.2)

theorem valuesUnder_groupByKey (name : Text) (pairs : List (Text × Text)) :
    (valuesUnder name (groupByKey pairs)).Perm
      ((pairs.filter (·.1.toLower = name.toLower)).map (·.2)) := by
  have hkeys (k : Text) (hk : k.toLower = name.toLower) :
      valuesOf k pairs = valuesOf k (pairs.filter (·.1.toLower = name.toLower)) := by
    rw [valuesOf, valuesOf, List.filter_filter]
    congr 1
    refine List.filter_congr fun p _ => ?_
    by_cases hp : p.1 = k
    · simp [hp, hk]
    · simp [hp]
  have hgroups : valuesUnder name (groupByKey pairs) =
      ((pairs.map (·.1)).eraseDups.filter (·.toLower = name.toLower)).flatMap fun k =>
        valuesOf k (pairs.filter (·.1.toLower = name.toLower)) := by
    rw [valuesUnder, groupByKey_eq, List.filter_map, List.flatMap_map]
    refine List.flatMap_congr fun k hk => hkeys k ?_
    simpa using (List.mem_filter.mp hk).2
  rw [hgroups]
  refine flatMap_valuesOf_perm ((nodup_eraseDups _).filter _) fun p hp => ?_
  obtain ⟨hp, hname⟩ := List.mem_filter.mp hp
  exact List.mem_filter.mpr ⟨List.mem_eraseDups.mpr (List.mem_map_of_mem hp), hname⟩

namespace Request

/-- The values of the enabled headers that are written under a name, be it in upper or lower
case. -/
def valuesUnder (r : Request) (name : Text) : List Text :=
  (r.enabledHeaders.filter (·.key.strip.toLower = name.toLower)).map (·.value)

/-- The headers that a normal form adds. -/
def added (r : Request) : List Header := r.addedCredential?.toList ++ r.addedType?.toList

/-- The header that credentials or the body ask for. -/
def Asks (r : Request) (h : Header) : Prop :=
  r.auth.bind (·.header?) = some h ∨ r.body.bind (·.typeHeader?) = some h

theorem mem_addedCredential? {r : Request} {h : Header} :
    h ∈ r.addedCredential?.toList ↔
      r.auth.bind (·.header?) = some h ∧ ¬ ∃ g ∈ r.headers, g.Provides h.key := by
  unfold addedCredential?
  cases r.auth.bind (·.header?) with
  | none => simp
  | some g =>
    dsimp only
    by_cases hp : ∃ f ∈ r.headers, f.Provides g.key
    · rw [if_pos hp]
      refine iff_of_false List.not_mem_nil ?_
      rintro ⟨heq, hnot⟩
      obtain rfl := Option.some.inj heq
      exact hnot hp
    · rw [if_neg hp, Option.toList_some, List.mem_singleton, Option.some.injEq, eq_comm,
        iff_self_and]
      rintro rfl
      exact hp

theorem mem_addedType? {r : Request} {h : Header} :
    h ∈ r.addedType?.toList ↔ r.body.bind (·.typeHeader?) = some h ∧
      ¬ ∃ g ∈ r.headers ++ r.addedCredential?.toList, g.Provides "Content-Type" := by
  unfold addedType?
  split
  · next hp => exact iff_of_false List.not_mem_nil fun hnot => hnot.2 hp
  · next hp =>
    rw [Option.mem_toList, iff_self_and]
    exact fun _ => hp

theorem key_of_typeHeader? {r : Request} {h : Header}
    (hh : r.body.bind (·.typeHeader?) = some h) :
    h.key = ("Content-Type" : Text) ∧ h.disabled = false := by
  obtain ⟨b, -, hb⟩ := Option.bind_eq_some_iff.mp hh
  rw [b.typeHeader?_eq] at hb
  obtain ⟨t, -, rfl⟩ := Option.map_eq_some_iff.mp hb
  exact ⟨rfl, rfl⟩

theorem Asks.disabled {r : Request} {h : Header} (hasks : r.Asks h) : h.disabled = false := by
  rcases hasks with hauth | htype
  · obtain ⟨a, -, ha⟩ := Option.bind_eq_some_iff.mp hauth
    obtain ⟨-, hh, -⟩ | ⟨key, value, -, hh, -⟩ | ⟨key, value, -, hh, -⟩ := a.credential?_cases
    · simp [hh] at ha
    · obtain rfl : { key, value } = h := by simpa [hh] using ha
      rfl
    · simp [hh] at ha
  · exact (key_of_typeHeader? htype).2

theorem asks_of_mem_added {r : Request} {h : Header} (hmem : h ∈ r.added) : r.Asks h := by
  rcases List.mem_append.mp hmem with hmem | hmem
  · exact .inl (mem_addedCredential?.mp hmem).1
  · exact .inr (mem_addedType?.mp hmem).1

/-- Whatever is asked for under a name, the caller has provided it as it is spelled. -/
def ProvidesAsked (r : Request) (name : Text) : Prop :=
  ∀ h, r.Asks h → h.key.strip.toLower = name.toLower → ∃ g ∈ r.headers, g.Provides h.key

/-- A header that provides a content type has no margin, so it is written under that name. -/
theorem strip_of_providesType {g : Header} (hg : g.Provides "Content-Type") :
    g.key.strip.toLower = Text.toLower "Content-Type" := by
  have hplain : (Text.toLower "Content-Type").all (!Text.isBlank ·) = true := by decide +kernel
  rw [Text.strip_eq_self_of_toLower (by rw [hg.2]; simpa using hplain), hg.2]

/-- Nothing is added under a name exactly if whatever is asked for has been provided. -/
theorem forall_added_iff {r : Request} {name : Text} :
    (∀ h ∈ r.added, h.key.strip.toLower ≠ name.toLower) ↔ r.ProvidesAsked name := by
  constructor
  · intro hadded h hasks hname
    by_contra hmissing
    rcases hasks with hauth | htype
    · have hmem := mem_addedCredential?.mpr ⟨hauth, hmissing⟩
      exact hadded h (List.mem_append_left _ hmem) hname
    · have hkey := (key_of_typeHeader? htype).1
      rw [hkey] at hmissing hname
      have hsame : h.key.strip.toLower = name.toLower := by rw [hkey, hname]
      refine hadded h (List.mem_append_right _ (mem_addedType?.mpr ⟨htype, ?_⟩)) hsame
      rintro ⟨g, hg, hprovides⟩
      rcases List.mem_append.mp hg with hg | hg
      · exact hmissing ⟨g, hg, hprovides⟩
      · -- the credentials take the place of the content type and are added themselves
        refine hadded g (List.mem_append_left _ hg) ?_
        rw [strip_of_providesType hprovides, ← hname]
        rfl
  · intro hprovided h hmem hname
    have hfound := hprovided h (asks_of_mem_added hmem) hname
    rcases List.mem_append.mp hmem with hmem | hmem
    · exact (mem_addedCredential?.mp hmem).2 hfound
    · obtain ⟨htype, hmissing⟩ := mem_addedType?.mp hmem
      rw [(key_of_typeHeader? htype).1] at hfound
      obtain ⟨g, hg, hprovides⟩ := hfound
      exact hmissing ⟨g, List.mem_append_left _ hg, hprovides⟩

theorem valuesUnder_normalize (r : Request) (name : Text) :
    r.normalize.valuesUnder name = r.valuesUnder name ++
      (r.added.filter (·.key.strip.toLower = name.toLower)).map (·.value) := by
  have henabled : r.added.filter (!·.disabled) = r.added :=
    List.filter_eq_self.mpr fun h hh => by simp [(asks_of_mem_added hh).disabled]
  have hheaders : r.normalize.headers = r.headers ++ r.added := by
    rw [normalize_eq_added, List.append_assoc]
    rfl
  rw [valuesUnder, enabledHeaders, hheaders, List.filter_append, henabled, List.filter_append,
    List.map_append]
  rfl

end Request

namespace Node

theorem valuesUnder_headerGroups (r : Request) (name : Text) :
    (HttpSnippet.valuesUnder name (headerGroups r)).Perm (r.valuesUnder name) := by
  refine (valuesUnder_groupByKey name _).trans (.of_eq ?_)
  simp [Request.valuesUnder, List.filter_map, Function.comp_def]

/-- The headers of a snippet are read back as those of the normal form. -/
theorem headers?_generateFor [Host] {boundary : Text} {r : Request} {options : Value} {s : Text}
    (h : (⟨.node, boundary⟩ : Converter).generateFor r options = .ok s) :
    headers? s = some (headerGroups r.normalize) := by
  obtain ⟨-, o, -, -, p, hp, rfl⟩ := Converter.generateFor_eq_ok.mp h
  obtain ⟨port, hport, -, rfl⟩ := program_eq_ok.mp hp
  exact headers?_document hport boundary

/-- Under a name a program has exactly the values of the caller's headers if and only if whatever
is asked for under this name has been provided as it is spelled. -/
theorem headers_generateFor_iff [Host] {boundary : Text} {r : Request} {options : Value} {s : Text}
    (h : (⟨.node, boundary⟩ : Converter).generateFor r options = .ok s) (name : Text) :
    ∃ groups, headers? s = some groups ∧
      ((valuesUnder name groups).Perm (r.valuesUnder name) ↔ r.ProvidesAsked name) := by
  refine ⟨headerGroups r.normalize, headers?_generateFor h, ?_⟩
  rw [(valuesUnder_headerGroups r.normalize name).congr_left, r.valuesUnder_normalize,
    ← Request.forall_added_iff]
  constructor
  · -- a permutation is not longer
    intro hperm h hmem hname
    have hlength := hperm.length_eq
    have hpos : 0 < (r.added.filter (·.key.strip.toLower = name.toLower)).length :=
      List.length_pos_of_mem (List.mem_filter.mpr ⟨hmem, by simpa using hname⟩)
    simp only [List.length_append, List.length_map] at hlength
    omega
  · intro hadded
    have hnone : r.added.filter (·.key.strip.toLower = name.toLower) = [] :=
      List.filter_eq_nil_iff.mpr fun h hmem => by simpa using hadded h hmem
    rw [hnone, List.map_nil, List.append_nil]

section

attribute [local instance] Host.usual

/-- A header that is spelled as it is asked for keeps the token away, also from a header of the same
name that has a margin. -/
theorem headers_generateFor_provided :
    let headers : List Header := [
      { key := "AUTHORIZATION\t", value := "a" }, { key := "authorization", value := "b" }]
    let r : Request := { headers, auth := some { kind := .bearer, token := "t" } }
    ∃ s groups, (⟨.node, defaultBoundary⟩ : Converter).generateFor r (.map []) = .ok s ∧
      headers? s = some groups ∧ (valuesUnder "Authorization" groups).Perm ["a", "b"] := by
  intro headers r
  obtain ⟨s, hs⟩ := exists_eq_ok
    (show ((⟨.node, defaultBoundary⟩ : Converter).generateFor r (.map [])).isOk = true by
      decide +kernel)
  obtain ⟨groups, hgroups, hiff⟩ := headers_generateFor_iff hs "Authorization"
  have hvalues : r.valuesUnder "Authorization" = ["a", "b"] := by decide +kernel
  rw [hvalues] at hiff
  refine ⟨s, groups, hs, hgroups, hiff.mpr ?_⟩
  rintro h (hauth | htype) -
  · obtain rfl := Option.some.inj hauth
    exact ⟨{ key := "authorization", value := "b" }, by simp [r, headers], by decide +kernel⟩
  · cases htype

/-- An added value joins a header of the caller whose name has a margin: the content type of a
GraphQL body, and a token. -/
theorem headers_generateFor_joined :
    let node : Converter := ⟨.node, defaultBoundary⟩
    let body : Body := { mode := "graphql", graphql := some { query := "q" } }
    let typed : Request := { headers := [{ key := "Content-Type ", value := "text/x" }], body }
    let auth : Auth := { kind := .bearer, token := "t" }
    let signed : Request := { headers := [{ key := "Authorization ", value := "a" }], auth }
    let Joins (r : Request) (name : Text) : Prop :=
      ∃ s groups, node.generateFor r (.map []) = .ok s ∧ headers? s = some groups ∧
        (∃ g ∈ r.enabledHeaders, g.key.strip.toLower = name.toLower) ∧
          ¬ (valuesUnder name groups).Perm (r.valuesUnder name)
    Joins typed "Content-Type" ∧ Joins signed "Authorization" := by
  intro node body typed auth signed Joins
  have hjoins {r : Request} {name : Text} (hok : (node.generateFor r (.map [])).isOk = true)
      (hcaller : ∃ g ∈ r.enabledHeaders, g.key.strip.toLower = name.toLower)
      (hvalues : ¬ (valuesUnder name (headerGroups r.normalize)).Perm (r.valuesUnder name)) :
      Joins r name := by
    obtain ⟨s, hs⟩ := exists_eq_ok hok
    exact ⟨s, _, hs, headers?_generateFor hs, hcaller, hvalues⟩
  constructor
  · exact hjoins (by decide +kernel) (by decide +kernel) (by decide +kernel)
  · exact hjoins (by decide +kernel) (by decide +kernel) (by decide +kernel)

end

end Node
end HttpSnippet

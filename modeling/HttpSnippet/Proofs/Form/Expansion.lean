import HttpSnippet.Proofs.Form.Multipart
import HttpSnippet.Proofs.Normal.Idempotence

/-!
# One path for each file member

A form is expanded so that every file member has one path, with the placeholder for a path that is
not there. A path that is an empty text is taken as it is, and so is every element of a list, even a
list or a number. For all other members the expansion gives what is asked for, and it gives it to no
form that has one of these.
-/
namespace HttpSnippet

namespace FormParam

/-- A file member has one path, which is not empty. -/
def OnePath (p : FormParam) : Prop := p.kind = .file → ∃ path, path ≠ [] ∧ p.src = .str path

/-- The members with one path that a member is to become: one for each of its files. The placeholder
stands for an empty text and for anything that is no text. -/
def split (p : FormParam) : List FormParam :=
  match p.kind with
  | .text => [p]
  | .file => p.sources.map fun v => { p with src := .str (filePath (some (pathOf v))) }

/-- A file member without an empty path, and with nothing but paths in a list. -/
def GivesPaths (p : FormParam) : Prop :=
  p.kind = .file →
    p.src ≠ .str [] ∧ ∀ vs, p.src = .list vs → ∀ v ∈ vs, ∃ path, path ≠ [] ∧ v = .str path

theorem filePath_ne_nil (src : Option Text) : filePath src ≠ [] := by
  unfold filePath
  split
  · decide
  · decide
  · next t hne =>
    rintro rfl
    exact hne rfl

theorem filePath_of_ne_nil {path : Text} (h : path ≠ []) : filePath (some path) = path := by
  obtain ⟨c, t, rfl⟩ := List.exists_cons_of_ne_nil h
  rfl

theorem onePath_of_mem_split {p q : FormParam} (h : q ∈ p.split) : q.OnePath := by
  unfold split at h
  split at h
  · next hkind =>
    intro hfile
    rw [List.mem_singleton.mp h, hkind] at hfile
    cases hfile
  · obtain ⟨v, -, rfl⟩ := List.mem_map.mp h
    exact fun _ => ⟨_, filePath_ne_nil _, rfl⟩

/-- Expansion gives every file one path exactly for members that give paths. -/
theorem forall_expand_onePath_iff {p : FormParam} : (∀ q ∈ p.expand, q.OnePath) ↔ p.GivesPaths := by
  obtain ⟨key, kind, value, src, disabled, contentType⟩ := p
  have hplaceholder : placeholderPath ≠ [] := by decide
  cases kind with
  | text => simp [expand, OnePath, GivesPaths]
  | file =>
    cases src with
    | str path => simp [expand, OnePath, GivesPaths]
    | list vs => cases vs <;> simp [expand, OnePath, GivesPaths, hplaceholder]
    | _ => simp [expand, OnePath, GivesPaths, hplaceholder]

theorem GivesPaths.expand_eq {p : FormParam} (h : p.GivesPaths) : p.expand = p.split := by
  obtain ⟨key, kind, value, src, disabled, contentType⟩ := p
  cases kind with
  | text => rfl
  | file =>
    obtain ⟨hempty, hlist⟩ := h rfl
    cases src with
    | str path =>
      have hpath : filePath (some path) = path :=
        filePath_of_ne_nil fun heq => hempty (congrArg Value.str heq)
      simp [expand, split, sources, pathOf, hpath]
    | list vs =>
      cases vs with
      | nil => rfl
      | cons v vs =>
        simp only [expand, split, sources]
        refine List.map_congr_left fun v hv => ?_
        obtain ⟨path, hne, rfl⟩ := hlist _ rfl v hv
        simp [pathOf, filePath_of_ne_nil hne]
    | _ => rfl

/-- One path is nothing to expand. -/
theorem GivesPaths.flat {p : FormParam} (h : p.GivesPaths) : p.Flat := by
  intro hkind vs hvs v hv
  obtain ⟨path, -, hpath⟩ := (h hkind).2 vs hvs v hv
  exact ⟨path, hpath⟩

end FormParam

namespace Body

/-- Every file member of the form has one path. -/
def OnePath (b : Body) : Prop := ∀ params, b.formdata = some params → ∀ p ∈ params, p.OnePath

/-- The body with one path in each file member of its form. -/
def split (b : Body) : Body := { b with formdata := b.formdata.map (·.flatMap (·.split)) }

/-- No member of the form has an empty path, or a list with anything else than paths. -/
def GivesPaths (b : Body) : Prop := ∀ params, b.formdata = some params → ∀ p ∈ params, p.GivesPaths

theorem onePath_split (b : Body) : b.split.OnePath := by
  intro params hparams p hp
  obtain ⟨given, -, rfl⟩ := Option.map_eq_some_iff.mp hparams
  obtain ⟨q, -, hq⟩ := List.mem_flatMap.mp hp
  exact FormParam.onePath_of_mem_split hq

theorem formdata_expandFormdata {b : Body} (h : b.mode = BodyMode.formdata.name) :
    b.expandFormdata = { b with formdata := b.formdata.map (·.flatMap (·.expand)) } :=
  if_pos h

theorem onePath_expandFormdata_iff {b : Body} (h : b.mode = BodyMode.formdata.name) :
    b.expandFormdata.OnePath ↔ b.GivesPaths := by
  rw [formdata_expandFormdata h, OnePath, GivesPaths]
  simp only [Option.map_eq_some_iff, forall_exists_index, and_imp, forall_apply_eq_imp_iff₂,
    List.forall_mem_flatMap, FormParam.forall_expand_onePath_iff]

theorem GivesPaths.expandFormdata_eq {b : Body} (hpaths : b.GivesPaths)
    (h : b.mode = BodyMode.formdata.name) : b.expandFormdata = b.split := by
  rw [formdata_expandFormdata h, split]
  cases hparams : b.formdata with
  | none => rfl
  | some params =>
    have hmap : params.flatMap (·.expand) = params.flatMap (·.split) :=
      List.flatMap_congr fun p hp => (hpaths params hparams p hp).expand_eq
    rw [Option.map_some, Option.map_some, hmap]

/-- An expanded form has one path in each file member and nothing left to expand exactly if its
members give paths, and just then it is the form that is asked for. Nothing is left to expand
exactly if all elements of lists are texts. -/
theorem expandFormdata_givesPaths_iff {b : Body} (h : b.mode = BodyMode.formdata.name) :
    (b.expandFormdata.OnePath ∧ b.expandFormdata.expandFormdata = b.expandFormdata ↔
        b.GivesPaths) ∧
      (b.expandFormdata = b.split ↔ b.GivesPaths) ∧
      (b.expandFormdata.expandFormdata = b.expandFormdata ↔ b.Settles) := by
  have hone := onePath_expandFormdata_iff h
  refine ⟨⟨fun hboth => hone.mp hboth.1, fun hpaths => ⟨hone.mpr hpaths, ?_⟩⟩, ⟨fun hsplit => ?_,
    fun hpaths => hpaths.expandFormdata_eq h⟩, expandFormdata_expandFormdata_iff⟩
  · exact expandFormdata_expandFormdata_iff.mpr fun _ params hparams p hp =>
      (hpaths params hparams p hp).flat
  · rw [← hone, hsplit]
    exact b.onePath_split

theorem expandFormdata_givesPaths_of_missing :
    let file (src : Value) : FormParam := { key := "f", kind := .file, src }
    let params := [file .null, file (.list []), file (.list [.str "a", .str "b"]), file (.int 3),
      { key := "t" }]
    let body : Body := { mode := "formdata", formdata := some params }
    body.mode = BodyMode.formdata.name ∧ body.GivesPaths ∧ body.expandFormdata.OnePath ∧
      body.expandFormdata = body.split ∧
        body.expandFormdata.expandFormdata = body.expandFormdata := by
  intro file params body
  have hmode : body.mode = BodyMode.formdata.name := by decide
  have hpaths : body.GivesPaths := by
    intro given hgiven
    obtain rfl := Option.some.inj hgiven
    simp [FormParam.GivesPaths, params, file]
  obtain ⟨hpost, hsplit, -⟩ := expandFormdata_givesPaths_iff hmode
  exact ⟨hmode, hpaths, (hpost.mpr hpaths).1, hsplit.mpr hpaths, (hpost.mpr hpaths).2⟩

/-- An empty path stays, also in a list, and so does whatever else a list holds. -/
theorem not_onePath_expandFormdata :
    let body (src : Value) : Body :=
      { mode := "formdata", formdata := some [{ key := "f", kind := .file, src }] }
    ¬ (body (.str [])).expandFormdata.OnePath ∧ ¬ (body (.list [.str []])).expandFormdata.OnePath ∧
      ¬ (body (.list [.int 3])).expandFormdata.OnePath ∧
        ¬ (body (.list [.list [.str "a"]])).expandFormdata.OnePath := by
  intro body
  have hiff (src : Value) : (body src).expandFormdata.OnePath ↔ (body src).GivesPaths :=
    onePath_expandFormdata_iff rfl
  rw [hiff, hiff, hiff, hiff]
  simp [GivesPaths, FormParam.GivesPaths, body]

end Body
end HttpSnippet

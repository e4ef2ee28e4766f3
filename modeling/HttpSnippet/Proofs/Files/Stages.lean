import HttpSnippet.Files.Load
import HttpSnippet.Proofs.Check.Fields
import HttpSnippet.Proofs.Conversion

/-!
# Stages of loading a file

A file is looked up, its bytes become data, and the data has to be a mapping. Each stage has
failures of its own, and a later stage is reached only behind the earlier ones.
-/
namespace HttpSnippet.FileRole

variable [Host] {role : FileRole} {files : FileTree} {p : Path}

/-- The data in the bytes of a file. -/
def data (role : FileRole) (p : Path) (bytes : List UInt8) : Except LoadError Value := do
  let t ← decode p bytes
  if isJson p then role.readJson t else role.readYaml t

/-- The fields of a mapping; no data at all counts as an empty one. -/
def mappingOf (role : FileRole) : Value → Except LoadError Fields
  | .null => .ok []
  | .map fields => .ok fields
  | _ => .error (.noMapping role)

/-- What is loaded depends on what stands at the path, and on its bytes if that is a file. -/
theorem load_eq (role : FileRole) (files : FileTree) (p : Path) :
    role.load files p = match files.find p with
      | .ok (.file bytes) => (role.data p bytes).bind role.mappingOf
      | .ok .directory => .error (.unreadable p .isDirectory)
      | .error .nameTooLong => .error (.unreadable p .nameTooLong)
      | .error _ => .error (.notFound role p) := by
  unfold load FileTree.read
  cases files.find p with
  | error e => cases e <;> rfl
  | ok entry =>
    cases entry with
    | directory => rfl
    | file bytes =>
      have hdata (read : Except LoadError Value) :
          (read >>= fun v => match v with
            | .null => pure []
            | .map fields => pure fields
            | _ => throw (.noMapping role)) = read.bind role.mappingOf := by
        cases read with
        | error e => rfl
        | ok v => cases v <;> rfl
      unfold data
      cases hdecode : decode p bytes with
      | error e => simp [bind, Except.bind, pure, Except.pure, hdecode, Except.mapError]
      | ok t =>
        simp only [bind, Except.bind, pure, Except.pure, Except.mapError, hdecode]
        split
        · exact hdata (role.readJson t)
        · exact hdata (role.readYaml t)

/-- The keys of a mapping in a JSON file are texts. -/
theorem textKeys_of_load {fields : Fields} (h : role.load files p = .ok fields)
    (hjson : isJson p = true) : fields.TextKeys := by
  rw [load_eq] at h
  split at h
  · next bytes hfind =>
    obtain ⟨v, hv, hfields⟩ := bind_eq_ok.mp h
    obtain ⟨t, -, hread⟩ := bind_eq_ok.mp hv
    rw [if_pos hjson, readJson] at hread
    split at hread
    · next j hj =>
      cases hread
      cases j with
      | null =>
        cases hfields
        exact fun _ hentry => absurd hentry List.not_mem_nil
      | obj members =>
        cases hfields
        rw [Fields.ofJsonMembers_eq_map]
        intro entry hentry
        obtain ⟨m, -, rfl⟩ := List.mem_map.mp hentry
        exact ⟨m.1, rfl⟩
      | _ => cases hfields
    all_goals cases hread
  all_goals cases h

end HttpSnippet.FileRole

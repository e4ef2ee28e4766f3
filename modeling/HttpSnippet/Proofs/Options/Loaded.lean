import HttpSnippet.Proofs.CommandLine.Settings
import HttpSnippet.Proofs.Files.Stages

/-!
# Options from a file

The mapping of an options file, with the flags of a command line laid over it, comes to options
exactly if all its keys are texts; what stands under them never matters. The keys of a JSON file are
texts, but a YAML file may hold others, and such a key cannot be listed as an id that is ignored.
-/
namespace HttpSnippet

open CommandLine

/-- Options from a file come to options under every command line, unless a key of the file is no
text. Nothing else keeps them from it. -/
theorem mergeOptions_loadOptions_iff [Host] {files : FileTree} {p : Path} {fields : Fields}
    (h : loadOptions files p = .ok fields) (flags : Overrides) :
    ((∃ o, mergeOptions (.map (fields.overlay flags.fields)) = .ok o) ↔ fields.TextKeys) ∧
      (FileRole.isJson p = true → fields.TextKeys) ∧
      ∀ e, mergeOptions (.map (fields.overlay flags.fields)) = .error e →
        e = .broken .wrongKind := by
  have hkeys : (fields.overlay flags.fields).TextKeys ↔ fields.TextKeys :=
    Fields.textKeys_overlay_iff (textKeys_fields flags)
  refine ⟨?_, FileRole.textKeys_of_load h, fun e he => ?_⟩
  · simp only [mergeOptions_map_eq_ok, exists_and_left, exists_eq, and_true, hkeys]
  · by_cases htext : fields.TextKeys
    · rw [mergeOptions_map (hkeys.mpr htext)] at he
      cases he
    · rw [mergeOptions_of_not_textKeys (mt hkeys.mp htext)] at he
      exact (Except.error.inj he).symm

section

attribute [local instance] Host.usual

/-- A file with nothing but values of no use, under flags that set options without a value. -/
theorem mergeOptions_loadOptions_of_wrong_values :
    let files : FileTree := { entries := [({ below := ["o.json"] }, .file (Text.Utf8.encode
      "\x7b\"indentCount\": [\"Tab\"], \"indentType\": null, \"x\": 1e999\x7d"))] }
    let flags : Overrides := { requestTimeout := some .nothing, trimBody := some true }
    ∃ fields, loadOptions files (.ofText "o.json") = .ok fields ∧
      ∃ o, mergeOptions (.map (fields.overlay flags.fields)) = .ok o := by
  intro files flags
  have hload : (loadOptions files (.ofText "o.json")).isOk = true := by decide +kernel
  obtain ⟨fields, hfields⟩ := exists_eq_ok hload
  obtain ⟨hiff, hjson, -⟩ := mergeOptions_loadOptions_iff hfields flags
  exact ⟨fields, hfields, hiff.mpr (hjson (by decide +kernel))⟩

/-- The options of a file that holds nothing but the number 1 as a key come to none. -/
theorem mergeOptions_of_numeral_key :
    let files : FileTree :=
      { entries := [({ below := ["o.yaml"] }, .file (Text.Utf8.encode "1: x\n"))] }
    ∃ fields, loadOptions files (.ofText "o.yaml") = .ok fields ∧
      mergeOptions (.map (fields.overlay (Overrides.fields {}))) = .error (.broken .wrongKind) := by
  intro files
  have hload : (loadOptions files (.ofText "o.yaml")).isOk = true := by decide +kernel
  obtain ⟨fields, hfields⟩ := exists_eq_ok hload
  have hone : (loadOptions files (.ofText "o.yaml")).toOption.any
      (·.any (·.1.sameKey (.int 1))) = true := by decide +kernel
  rw [hfields] at hone
  obtain ⟨entry, hentry, hkey⟩ := List.any_eq_true.mp hone
  refine ⟨fields, hfields, mergeOptions_of_not_textKeys fun htext => ?_⟩
  rw [Fields.textKeys_overlay_iff (textKeys_fields {})] at htext
  obtain ⟨t, ht⟩ := htext entry hentry
  rw [ht] at hkey
  cases hkey

end

end HttpSnippet

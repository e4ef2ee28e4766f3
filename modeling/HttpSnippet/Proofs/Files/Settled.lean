import HttpSnippet.CommandLine.Run
import HttpSnippet.Proofs.Files.Stages
import HttpSnippet.Proofs.Json.Halt
import HttpSnippet.Proofs.Text.Utf8
import HttpSnippet.Proofs.Yaml.Escape
import HttpSnippet.Proofs.Yaml.Survey

/-!
# Files that settle a load

A load is settled if it gives a result or a report of what is wrong with the configuration. What
keeps a load from that is in the file: it is no file, it is no text, or it is a text that is JSON or
YAML and holds a number, a date or a character that there is not, or that has more inside each other
than there is room for.
-/
namespace HttpSnippet

open CommandLine

/-- A load that gives a result, or a report of what is wrong with the configuration. -/
def Settled {α : Type} (load : Except LoadError α) : Prop :=
  (∃ a, load = .ok a) ∨ ∃ e, load = .error e ∧ isReported e = true

theorem settled_iff {α : Type} {load : Except LoadError α} :
    Settled load ↔ ∀ e, load = .error e → isReported e = true := by
  cases load with
  | ok a => exact iff_of_true (.inl ⟨a, rfl⟩) fun e h => by cases h
  | error e => simp [Settled]

theorem not_settled_error {α : Type} {e : LoadError} (h : isReported e = false) :
    ¬Settled (.error e : Except LoadError α) := by
  simp [settled_iff, h]

theorem settled_bind_iff {α β : Type} {load : Except LoadError α} {f : α → Except LoadError β}
    (h : ∀ a, Settled (f a)) : Settled (load.bind f) ↔ Settled load := by
  cases load with
  | ok a => exact iff_of_true (h a) (.inl ⟨a, rfl⟩)
  | error e => simp [settled_iff, Except.bind]

theorem settled_mapError_iff {ε α : Type} {read : Except ε α} {f : ε → LoadError} {p : ε → Prop}
    (h : ∀ e, isReported (f e) = true ↔ p e) :
    Settled (read.mapError f) ↔ ∀ e, read = .error e → p e := by
  cases read with
  | ok a => exact iff_of_true (.inl ⟨a, rfl⟩) nofun
  | error e => simp [settled_iff, mapError_error, h]

/-- Bytes of a file from which reading neither gives data nor a report. -/
inductive Unreadable [Host] (p : Path) (bytes : List UInt8) : Prop where
  /-- They are no text. -/
  | undecodable (h : ∀ t, bytes ≠ Text.Utf8.encode t)
  /-- They are JSON up to an integer of too many digits. -/
  | numeral {t : Text} (ht : bytes = Text.Utf8.encode t) (hjson : FileRole.isJson p = true)
      (h : Json.HasHalt .overlong (Host.room .file) t.unifyLineEnds)
  /-- They are JSON up to a collection that there is no room for inside those around it. -/
  | nesting {t : Text} (ht : bytes = Text.Utf8.encode t) (hjson : FileRole.isJson p = true)
      (h : Json.HasHalt .deep (Host.room .file) t.unifyLineEnds)
  /-- They are YAML up to the escape of a character that there is not. -/
  | character {t : Text} {code : Nat} (ht : bytes = Text.Utf8.encode t)
      (hyaml : FileRole.isJson p = false)
      (h : Yaml.document t.unifyLineEnds = .error (.noCharacter code)) (hcode : 0x110000 ≤ code)
  /-- They are YAML up to a collection that there is no room for inside those around it. -/
  | nodes {t : Text} (ht : bytes = Text.Utf8.encode t) (hyaml : FileRole.isJson p = false)
      (h : Yaml.document t.unifyLineEnds = .error .tooDeep)
  /-- They are a YAML document, and there is no room for its merges, or for the mappings that stand
  for a text, inside each other. -/
  | layout {t : Text} {g : Yaml.Graph} {root : Yaml.NodeId} (ht : bytes = Text.Utf8.encode t)
      (hyaml : FileRole.isJson p = false)
      (hdocument : Yaml.document t.unifyLineEnds = .ok (some (g, root)))
      (h : Yaml.Survey.of g root = .error .tooDeep)
  /-- They are a YAML document, and a scalar of it without a value ends its survey. -/
  | value {t : Text} {g : Yaml.Graph} {root : Yaml.NodeId} {e : Yaml.ReadError}
      (ht : bytes = Text.Utf8.encode t) (hyaml : FileRole.isJson p = false)
      (hdocument : Yaml.document t.unifyLineEnds = .ok (some (g, root)))
      (hvalue : g.Valueless e) (h : Yaml.Survey.of g root = .error e) (he : e ≠ .malformed)

/-- What stands at a path keeps a load from being settled. -/
inductive Unsettling [Host] (files : FileTree) (p : Path) : Prop where
  | name (h : files.find p = .error .nameTooLong)
  | directory (h : files.find p = .ok .directory)
  | file {bytes : List UInt8} (h : files.find p = .ok (.file bytes)) (hbytes : Unreadable p bytes)

section

variable [Host]

namespace FileRole

variable {role : FileRole} {p : Path} {t : Text}

theorem settled_readJson_iff :
    Settled (role.readJson t) ↔ ¬∃ halt, Json.HasHalt halt (Host.room .file) t := by
  rw [← Json.exists_isHalt_iff]
  unfold readJson
  cases Json.readWithin (Host.room .file) t with
  | ok v => simp [Settled]
  | error e =>
    cases e with
    | syntaxError fault position =>
      refine iff_of_true (.inr ⟨_, rfl, rfl⟩) ?_
      rintro ⟨_, herror, hhalt⟩
      exact hhalt fault position (Except.error.inj herror).symm
    | numeralTooLong digits => exact iff_of_false (not_settled_error rfl) fun h => h ⟨_, rfl, nofun⟩
    | tooDeep descent => exact iff_of_false (not_settled_error rfl) fun h => h ⟨_, rfl, nofun⟩

theorem settled_readYaml_iff :
    Settled (role.readYaml t) ↔ ∀ e, Yaml.survey? t = .error e → e = .malformed := by
  unfold readYaml
  rw [settled_mapError_iff (p := (· = .malformed))]
  · cases role with
    | request => simp only [Yaml.read_eq_error_iff]
    | options => simp only [Yaml.readParts_eq_error_iff]
  · intro e
    cases e with
    | malformed => exact iff_of_true rfl rfl
    | noCharacter code =>
      refine iff_of_false (fun h => ?_) nofun
      dsimp only at h
      split at h <;> cases h
    | _ => exact iff_of_false nofun nofun

/-- The bytes of a file settle a load unless they are unreadable. -/
theorem settled_data_iff {bytes : List UInt8} :
    Settled (role.data p bytes) ↔ ¬Unreadable p bytes := by
  unfold data decode
  cases hdecode : Text.Utf8.decode bytes with
  | error e =>
    have hnone (t : Text) : bytes ≠ Text.Utf8.encode t := fun ht => by
      cases hdecode.symm.trans (Text.Utf8.decode_eq_ok_iff.mpr ht)
    exact iff_of_false (not_settled_error rfl) fun h => h (.undecodable hnone)
  | ok t =>
    have ht := Text.Utf8.decode_eq_ok_iff.mp hdecode
    -- no other text has the same encoding
    have hsame {t' : Text} (ht' : bytes = Text.Utf8.encode t') : t' = t :=
      Except.ok.inj ((Text.Utf8.decode_eq_ok_iff.mpr ht').symm.trans hdecode)
    show Settled (if isJson p then role.readJson t.unifyLineEnds else role.readYaml t.unifyLineEnds)
      ↔ _
    cases hjson : isJson p with
    | true =>
      rw [if_pos rfl, settled_readJson_iff, not_iff_not]
      constructor
      · rintro ⟨halt, h⟩
        cases halt with
        | overlong => exact .numeral ht hjson h
        | deep => exact .nesting ht hjson h
      · intro h
        cases h with
        | undecodable h => exact absurd ht (h t)
        | numeral ht' _ h => exact ⟨_, hsame ht' ▸ h⟩
        | nesting ht' _ h => exact ⟨_, hsame ht' ▸ h⟩
        | character _ hyaml _ _ => cases hjson.symm.trans hyaml
        | nodes _ hyaml _ => cases hjson.symm.trans hyaml
        | layout _ hyaml _ _ => cases hjson.symm.trans hyaml
        | value _ hyaml _ _ _ _ => cases hjson.symm.trans hyaml
    | false =>
      rw [if_neg (by simp), settled_readYaml_iff]
      constructor
      · intro hsurvey h
        cases h with
        | undecodable h => exact h t ht
        | numeral _ hjson' _ => cases hjson.symm.trans hjson'
        | nesting _ hjson' _ => cases hjson.symm.trans hjson'
        | character ht' _ h _ =>
          cases hsurvey _ (Yaml.survey?_eq_error_iff.mpr
            (.inr (.inr (.inl ⟨_, hsame ht' ▸ h, rfl⟩))))
        | nodes ht' _ h =>
          cases hsurvey _ (Yaml.survey?_eq_error_iff.mpr (.inr (.inl ⟨hsame ht' ▸ h, rfl⟩)))
        | layout ht' _ hdocument h =>
          cases hsurvey _
            (Yaml.survey?_eq_error_iff.mpr (.inr (.inr (.inr ⟨_, _, hsame ht' ▸ hdocument, h⟩))))
        | value ht' _ hdocument _ h he =>
          exact he (hsurvey _
            (Yaml.survey?_eq_error_iff.mpr (.inr (.inr (.inr ⟨_, _, hsame ht' ▸ hdocument, h⟩)))))
      · intro h e he
        by_contra hne
        rcases Yaml.survey?_eq_error_iff.mp he with ⟨-, hmalformed⟩ | ⟨hdocument, -⟩ |
          ⟨code, hdocument, -⟩ | ⟨g, root, hdocument, hsurvey⟩
        · exact hne hmalformed
        · exact h (.nodes ht hjson hdocument)
        · exact h (.character ht hjson hdocument (Yaml.isBeyond_of_document hdocument code rfl))
        · rcases Yaml.Survey.valueless_of_of hsurvey with hlayout | hvalue
          · exact h (.layout ht hjson hdocument (hlayout.eq_tooDeep hne ▸ hsurvey))
          · exact h (.value ht hjson hdocument hvalue hsurvey hne)

omit [Host] in
theorem settled_mappingOf {v : Value} : Settled (role.mappingOf v) := by
  unfold mappingOf
  split
  · exact .inl ⟨_, rfl⟩
  · exact .inl ⟨_, rfl⟩
  · exact .inr ⟨_, rfl, rfl⟩

/-- A load is settled unless what stands at the path keeps it from that, whatever it is for. -/
theorem settled_load_iff {files : FileTree} :
    Settled (role.load files p) ↔ ¬Unsettling files p := by
  rw [load_eq]
  cases hfind : files.find p with
  | error e =>
    cases e with
    | nameTooLong => exact iff_of_false (not_settled_error rfl) fun h => h (.name hfind)
    | _ =>
      refine iff_of_true (.inr ⟨_, rfl, rfl⟩) fun h => ?_
      cases h with
      | name h => cases hfind.symm.trans h
      | directory h => cases hfind.symm.trans h
      | file h _ => cases hfind.symm.trans h
  | ok entry =>
    cases entry with
    | directory => exact iff_of_false (not_settled_error rfl) fun h => h (.directory hfind)
    | file bytes =>
      rw [settled_bind_iff fun v => settled_mappingOf, settled_data_iff, not_iff_not]
      constructor
      · exact .file hfind
      · intro h
        cases h with
        | name h => cases hfind.symm.trans h
        | directory h => cases hfind.symm.trans h
        | file h hbytes =>
          cases hfind.symm.trans h
          exact hbytes

end FileRole

/-- The check of the request in a file breaks down. -/
def CheckBreaks (files : FileTree) (p : Path) : Prop :=
  ∃ fields fault, FileRole.request.load files p = .ok fields ∧
    Reading.request (.map (unwrapRequest fields)) = .broken fault

/-- Options and a request are loaded or a report is made, exactly where nothing about the file keeps
a load from that. A request whose check breaks down counts as loaded. -/
theorem settled_loads_iff (files : FileTree) (p : Path) :
    (Settled (loadOptions files p) ↔ ¬Unsettling files p) ∧
    (Settled (loadRequest files p) ∨ CheckBreaks files p ↔ ¬Unsettling files p) := by
  refine ⟨FileRole.settled_load_iff, ?_⟩
  rw [← @FileRole.settled_load_iff _ .request]
  unfold loadRequest CheckBreaks
  cases hload : FileRole.request.load files p with
  | error e => simp [settled_iff, bind, Except.bind]
  | ok fields =>
    refine iff_of_true ?_ (.inl ⟨fields, rfl⟩)
    simp only [bind, Except.bind]
    cases hrequest : Reading.request (.map (unwrapRequest fields)) with
    | valid r => exact .inl (.inl ⟨r, rfl⟩)
    | invalid issues => exact .inl (.inr ⟨.badRequest issues, rfl, rfl⟩)
    | broken fault => exact .inr ⟨fields, fault, rfl, hrequest⟩

end

section

attribute [local instance] Host.usual

/-- A directory can bear the name of a file. -/
theorem not_settled_loadOptions_directory :
    ¬Settled (loadOptions { entries := [({ below := ["d.json"] }, .directory)] }
      (.ofText "d.json")) :=
  not_settled_error rfl

end

end HttpSnippet

import HttpSnippet.CommandLine.Run
import HttpSnippet.Proofs.CommandLine.Settings
import HttpSnippet.Proofs.Files.Written

/-!
# What a command line for a snippet leaves behind

The snippet goes to one place, the output stream or a file, and to nothing else. Whatever keeps it
from being made or handed over keeps the output empty and the files as they were, but for one case:
a snippet without an encoding is found out when its file is open already, and the file is left
empty.
-/
namespace HttpSnippet.CommandLine

section

variable [Host]

/-- The options in the file that a command line names. Without a file there are none. -/
def fileOptions (files : FileTree) (a : GenerateArguments) : Except LoadError Fields :=
  match a.optionsFile.bind (·.value?) with
  | some p => loadOptions files p
  | none => .ok []

/-- A command line yields a snippet: its target is known, its files load, and the snippet is what
the target makes of the request under the options of the file with the flags laid over them. -/
def Yields (files : FileTree) (argv : List Text) (a : GenerateArguments) (s : Text) : Prop :=
  ∃ id target p r fields, a.target = .value id ∧ Target.ofId? id = some target ∧
    a.request = .value p ∧ loadRequest files p = .ok r ∧ fileOptions files a = .ok fields ∧
      ({ target } : Converter).generateFor r (.map (fields.overlay (settings argv.tail))) = .ok s

/-- There is a place for the snippet: the output stream, or a file that can be written. -/
def Deliverable (files : FileTree) (a : GenerateArguments) : Prop :=
  a.out = none ∨ ∃ p, a.out = some (.value p) ∧ files.Writable p

/-- The files behind an error that stopped a run. -/
def Failure.filesAfter (files : FileTree) : Failure → FileTree
  | .unencodable _ after => after
  | _ => files

/-- Nothing was printed and no file changed: the run stopped with an error, which comes without
output, or it ended with a message, and the files are those that it found. -/
def LeavesNothing (files : FileTree) (result : Except Failure Outcome) : Prop :=
  (∃ failure, result = .error failure ∧ failure.filesAfter files = files) ∨
    ∃ messages, result = .ok { code := 1, out := [], messages, files }

/-- The snippet is printed, or it is the content of the file that it should go to. Everything else
is as it was. -/
def Delivers (files : FileTree) (a : GenerateArguments) (s : Text)
    (result : Except Failure Outcome) : Prop :=
  (a.out = none ∧ ∃ messages, result = .ok { code := 0, out := s, messages, files }) ∨
    ∃ p messages after, a.out = some (.value p) ∧
      result = .ok { code := 0, out := [], messages, files := after } ∧
        files.Written p (Text.Utf8.encode s) after

/-- Two trees of files hold the same request, and options that differ in the values of those only
that a command line gives as flags. -/
structure SameBeyondFlags (argv : List Text) (a : GenerateArguments) (files others : FileTree)
    (fields otherFields : Fields) : Prop where
  request : ∀ p, a.request = .value p → loadRequest files p = loadRequest others p
  loaded : fileOptions files a = .ok fields
  otherLoaded : fileOptions others a = .ok otherFields
  textKeys : fields.TextKeys ↔ otherFields.TextKeys
  get? : ∀ id, (settings argv.tail).get? id = none → fields.get? id = otherFields.get? id

variable {files others : FileTree} {argv : List Text} {a : GenerateArguments} {s : Text}

/-! ### Options -/

theorem generateFor_congr (c : Converter) (r : Request) {fields others : Fields}
    (hkeys : fields.TextKeys ↔ others.TextKeys) (h : ∀ id, fields.get? id = others.get? id) :
    c.generateFor r (.map fields) = c.generateFor r (.map others) := by
  rw [Converter.generateFor, Converter.generateFor, mergeOptions_congr hkeys h]

/-- The overrides do to the options what the flags do. -/
theorem generateFor_overrides (h : parse argv = .ok (.generate a)) (c : Converter) (r : Request)
    (fields : Fields) : c.generateFor r (.map (fields.overlay a.overrides.fields)) =
      c.generateFor r (.map (fields.overlay (settings argv.tail))) := by
  refine generateFor_congr c r ?_ (get?_overlay_overrides h fields)
  rw [Fields.textKeys_overlay_iff (textKeys_fields _),
    Fields.textKeys_overlay_iff (textKeys_settings _)]

theorem Yields.of_same {fields otherFields : Fields}
    (hsame : SameBeyondFlags argv a files others fields otherFields) (h : Yields files argv a s) :
    Yields others argv a s := by
  obtain ⟨id, target, p, r, fields', hid, htarget, hp, hr, hfields, hs⟩ := h
  obtain rfl : fields = fields' := Except.ok.inj (hsame.loaded.symm.trans hfields)
  refine ⟨id, target, p, r, otherFields, hid, htarget, hp, (hsame.request p hp).symm.trans hr,
    hsame.otherLoaded, ?_⟩
  rw [← hs]
  refine generateFor_congr _ r ?_ fun id => ?_
  · rw [Fields.textKeys_overlay_iff (textKeys_settings _),
      Fields.textKeys_overlay_iff (textKeys_settings _), hsame.textKeys]
  · rw [Fields.get?_overlay_or, Fields.get?_overlay_or fields]
    cases hset : (Fields.overlay [] (settings argv.tail)).get? id with
    | some v => rfl
    | none =>
      rw [Option.none_or, Option.none_or]
      exact (hsame.get? id (Fields.get?_overlay_nil_eq_none_iff.mp hset)).symm

theorem SameBeyondFlags.symm {fields otherFields : Fields}
    (h : SameBeyondFlags argv a files others fields otherFields) :
    SameBeyondFlags argv a others files otherFields fields where
  request p hp := (h.request p hp).symm
  loaded := h.otherLoaded
  otherLoaded := h.loaded
  textKeys := h.textKeys.symm
  get? id hid := (h.get? id hid).symm

/-! ### Delivery -/

theorem delivers_of_encodable (hs : Host.isUnencodable s = false) (h : Deliverable files a)
    (notices : List Notice) : Delivers files a s (deliver files a notices s) := by
  unfold deliver
  rcases h with hout | ⟨p, hout, hp⟩
  · rw [hout]
    simp only [hs, Bool.false_eq_true, if_false]
    exact .inl ⟨hout, _, rfl⟩
  · obtain ⟨after, hwrite⟩ : ∃ after, files.write p (Text.Utf8.encode s) = .ok after :=
      FileTree.write_isOk_iff.mpr hp
    rw [hout]
    simp only [hs, Bool.false_eq_true, if_false, hwrite]
    exact .inr ⟨p, _, after, hout, rfl, FileTree.written_of_write hwrite⟩

/-- A file is emptied by its opening, and only then the snippet turns out to have no encoding. -/
theorem deliver_of_unencodable (hs : Host.isUnencodable s = true) (notices : List Notice) :
    (a.out = none → deliver files a notices s = .error (.unencodable s files)) ∧
    ∀ p, a.out = some (.value p) → files.Writable p → ∃ after,
      deliver files a notices s = .error (.unencodable s after) ∧ files.Written p [] after := by
  unfold deliver
  refine ⟨fun hout => ?_, fun p hout hp => ?_⟩
  · rw [hout]
    simp only [hs, if_true]
  · obtain ⟨after, hwrite⟩ : ∃ after, files.write p [] = .ok after :=
      FileTree.write_isOk_iff.mpr hp
    rw [hout]
    simp only [hs, if_true, hwrite]
    exact ⟨after, rfl, FileTree.written_of_write hwrite⟩

theorem deliver_of_not_deliverable (h : ¬Deliverable files a) (notices : List Notice) (s : Text) :
    LeavesNothing files (deliver files a notices s) := by
  unfold deliver
  cases hout : a.out with
  | none => exact absurd (.inl hout) h
  | some out =>
    cases out with
    | nothing => exact .inl ⟨_, rfl, rfl⟩
    | value p =>
      dsimp only
      cases hwrite : files.write p (if Host.isUnencodable s then [] else Text.Utf8.encode s) with
      | ok after => exact absurd (.inr ⟨p, hout, FileTree.write_isOk_iff.mp ⟨after, hwrite⟩⟩) h
      | error e =>
        cases e with
        | nulInside => exact .inl ⟨_, rfl, rfl⟩
        | _ => exact .inr ⟨_, rfl⟩

/-! ### Runs -/

theorem loadInputs_eq_ok_iff {p : Path} {r : Request} {o : Fields} :
    loadInputs files a p = .ok (r, o) ↔ loadRequest files p = .ok r ∧
      ∃ fields, fileOptions files a = .ok fields ∧ fields.overlay a.overrides.fields = o := by
  have hmerged : mergedOptions files a =
      (fileOptions files a).map (Fields.overlay · a.overrides.fields) := by
    unfold mergedOptions fileOptions
    cases a.optionsFile.bind (·.value?) with
    | none => rfl
    | some p => cases loadOptions files p <;> rfl
  unfold loadInputs
  rw [hmerged]
  cases loadRequest files p with
  | error e => simp [bind, Except.bind]
  | ok r' =>
    cases fileOptions files a with
    | error e => simp [bind, Except.bind, Except.map]
    | ok fields => simp [bind, Except.bind, Except.map, pure, Except.pure]

theorem runGenerate_of_yields (h : parse argv = .ok (.generate a)) (hs : Yields files argv a s) :
    ∃ notices, runGenerate files a = deliver files a notices s := by
  obtain ⟨id, target, p, r, fields, hid, htarget, hp, hr, hfields, hs⟩ := hs
  have hload := loadInputs_eq_ok_iff.mpr ⟨hr, fields, hfields, rfl⟩
  rw [← generateFor_overrides h] at hs
  unfold runGenerate
  simp only [hid, hp, needed, htarget, hload, hs, bind, Except.bind]
  exact ⟨_, rfl⟩

/-- A run hands over the snippet that the command line yields, or it leaves nothing. -/
theorem runGenerate_cases (files : FileTree) (h : parse argv = .ok (.generate a)) :
    (∃ s, Yields files argv a s) ∨ LeavesNothing files (runGenerate files a) := by
  unfold runGenerate
  cases hid : a.target with
  | nothing => exact .inr (.inl ⟨_, rfl, rfl⟩)
  | value id =>
    simp only [needed, bind, Except.bind]
    cases htarget : Target.ofId? id with
    | none => exact .inr (.inr ⟨_, rfl⟩)
    | some target =>
      cases hp : a.request with
      | nothing => exact .inr (.inl ⟨_, rfl, rfl⟩)
      | value p =>
        dsimp only
        cases hload : loadInputs files a p with
        | error e =>
          dsimp only
          split
          · exact .inr (.inr ⟨_, rfl⟩)
          · exact .inr (.inl ⟨_, rfl, rfl⟩)
        | ok inputs =>
          obtain ⟨r, o⟩ := inputs
          obtain ⟨hr, fields, hfields, rfl⟩ := loadInputs_eq_ok_iff.mp hload
          dsimp only
          cases hs : ({ target } : Converter).generateFor r
              (.map (fields.overlay a.overrides.fields)) with
          | ok s =>
            rw [generateFor_overrides h] at hs
            exact .inl ⟨s, id, target, p, r, fields, hid, htarget, hp, hr, hfields, hs⟩
          | error e =>
            split
            · rename_i hok
              cases hok
            · exact .inr (.inr ⟨_, rfl⟩)
            · exact .inr (.inl ⟨_, rfl, rfl⟩)

/-- The snippet that a command line yields goes to one place. Without a snippet, or without a place
for it, nothing is printed and no file changes. A snippet without an encoding is not printed, but
the file that it should go to is there and empty. Options of the file that flags decide do not
count. -/
theorem run_generate (h : parse argv = .ok (.generate a)) (files : FileTree) :
    (∀ s, Yields files argv a s →
      (Host.isUnencodable s = false → Deliverable files a →
        Delivers files a s (run files argv)) ∧
      (Host.isUnencodable s = true →
        (a.out = none → run files argv = .error (.unencodable s files)) ∧
        ∀ p, a.out = some (.value p) → files.Writable p → ∃ after,
          run files argv = .error (.unencodable s after) ∧ files.Written p [] after)) ∧
    ((¬∃ s, Yields files argv a s ∧ Deliverable files a) → LeavesNothing files (run files argv)) ∧
    ∀ others fields otherFields, SameBeyondFlags argv a files others fields otherFields →
      ∀ s, Yields files argv a s ↔ Yields others argv a s := by
  have hrun : run files argv = runGenerate files a := by
    unfold run
    rw [h]
    rfl
  rw [hrun]
  refine ⟨fun s hs => ?_, fun hnone => ?_, fun others fields otherFields hsame s => ?_⟩
  · obtain ⟨notices, hdeliver⟩ := runGenerate_of_yields h hs
    rw [hdeliver]
    exact ⟨fun hs hplace => delivers_of_encodable hs hplace notices,
      fun hs => deliver_of_unencodable hs notices⟩
  · rcases runGenerate_cases files h with ⟨s, hs⟩ | hleaves
    · obtain ⟨notices, hdeliver⟩ := runGenerate_of_yields h hs
      rw [hdeliver]
      exact deliver_of_not_deliverable (fun hplace => hnone ⟨s, hs, hplace⟩) notices s
    · exact hleaves
  · exact ⟨Yields.of_same hsame, Yields.of_same hsame.symm⟩

end

section

attribute [local instance] Host.usual

/-- A timeout of zero and redirects that are not followed are given, whatever the options file
says, and the snippet goes to a file. -/
theorem run_generate_of_flags :
    let argv : List Text := ["generate", "--target", "php-httprequest2", "--request", "r.json",
      "--options", "o.json", "--timeout", "0", "--no-follow", "--out", "s.php"]
    let a : GenerateArguments := {
      target := .value "php-httprequest2"
      request := .value (.ofText "r.json")
      optionsFile := some (.value (.ofText "o.json"))
      overrides := { requestTimeout := some (.value 0), followRedirect := some false }
      out := some (.value (.ofText "s.php")) }
    let files : FileTree := ⟨[
      ({ below := ["r.json"] }, .file (Text.Utf8.encode "\x7b\x7d")),
      ({ below := ["o.json"] }, .file (Text.Utf8.encode "\x7b\"requestTimeout\": 30\x7d"))]⟩
    parse argv = .ok (.generate a) ∧
      settings argv.tail = [(.str "requestTimeout", .int 0), (.str "followRedirect", .bool false)] ∧
      ∃ s messages after, Yields files argv a s ∧
        run files argv = .ok { code := 0, out := [], messages, files := after } ∧
          files.Written (.ofText "s.php") (Text.Utf8.encode s) after := by
  intro argv a files
  have hparse : parse argv = .ok (.generate a) := by decide +kernel
  have hsettings : settings argv.tail =
      [(.str "requestTimeout", .int 0), (.str "followRedirect", .bool false)] := by rfl
  have hsnippet : Option.isSome ((loadRequest files (.ofText "r.json")).toOption.bind fun r =>
      (fileOptions files a).toOption.bind fun fields =>
        (Except.toOption (({ target := .php } : Converter).generateFor r (.map (fields.overlay
          [(.str "requestTimeout", .int 0), (.str "followRedirect", .bool false)])))).filter
            (!Host.isUnencodable ·)) = true := by
    decide +kernel
  obtain ⟨s, hs⟩ := Option.isSome_iff_exists.mp hsnippet
  obtain ⟨r, hr, hs⟩ := Option.bind_eq_some_iff.mp hs
  obtain ⟨fields, hfields, hs⟩ := Option.bind_eq_some_iff.mp hs
  obtain ⟨hs, hencodable⟩ := Option.filter_eq_some_iff.mp hs
  have hyields : Yields files argv a s := by
    refine ⟨_, .php, _, r, fields, rfl, by decide +kernel, rfl, toOption_eq_some.mp hr,
      toOption_eq_some.mp hfields, ?_⟩
    rw [hsettings]
    exact toOption_eq_some.mp hs
  have hwritable : files.Writable (.ofText "s.php") :=
    ⟨_, rfl, by decide +kernel⟩
  rcases ((run_generate hparse files).1 s hyields).1 (by simpa using hencodable)
    (.inr ⟨_, rfl, hwritable⟩) with ⟨hout, -⟩ | ⟨p, messages, after, hout, hrun, hwritten⟩
  · cases hout
  · cases hout
    exact ⟨hparse, hsettings, s, messages, after, hyields, hrun, hwritten⟩

/-- A request names its host by the escape of a surrogate. Its snippet has no encoding, and a file
that was not there is left behind empty. -/
theorem run_generate_of_surrogate :
    let argv : List Text :=
      ["generate", "--target", "nodejs-native", "--request", "r.json", "--out", "o.js"]
    let a : GenerateArguments := {
      target := .value "nodejs-native"
      request := .value (.ofText "r.json")
      out := some (.value (.ofText "o.js")) }
    let request : Place × FileEntry := ({ below := ["r.json"] },
      .file (Text.Utf8.encode "\x7b\"url\": \x7b\"host\": [\"\\ud800\"]\x7d\x7d"))
    let files : FileTree := ⟨[request]⟩
    let after : FileTree := ⟨[request, ({ below := ["o.js"] }, .file [])]⟩
    parse argv = .ok (.generate a) ∧ ∃ s, Yields files argv a s ∧ Deliverable files a ∧
      run files argv = .error (.unencodable s after) ∧
        ¬Delivers files a s (run files argv) ∧ ¬LeavesNothing files (run files argv) := by
  intro argv a request files after
  have hparse : parse argv = .ok (.generate a) := by decide +kernel
  have hsettings : settings argv.tail = [] := by rfl
  have hsnippet : Option.isSome ((loadRequest files (.ofText "r.json")).toOption.bind fun r =>
      (Except.toOption (({ target := .node } : Converter).generateFor r (.map []))).filter fun s =>
        run files argv = .error (.unencodable s after)) = true := by
    decide +kernel
  obtain ⟨s, hs⟩ := Option.isSome_iff_exists.mp hsnippet
  obtain ⟨r, hr, hs⟩ := Option.bind_eq_some_iff.mp hs
  obtain ⟨hs, hrun⟩ := Option.filter_eq_some_iff.mp hs
  have hrun : run files argv = .error (.unencodable s after) := of_decide_eq_true hrun
  have hyields : Yields files argv a s := by
    refine ⟨_, .node, _, r, [], rfl, by decide +kernel, rfl, toOption_eq_some.mp hr, rfl, ?_⟩
    rw [hsettings]
    exact toOption_eq_some.mp hs
  refine ⟨hparse, s, hyields, .inr ⟨_, rfl, _, rfl, by decide +kernel⟩, hrun, ?_, ?_⟩
  · rw [hrun]
    rintro (⟨-, _, h⟩ | ⟨_, _, _, -, h, -⟩)
    · cases h
    · cases h
  · rw [hrun]
    rintro (⟨_, h, hfiles⟩ | ⟨_, h⟩)
    · cases h
      exact absurd (show after = files from hfiles) (by decide +kernel)
    · cases h

end

end HttpSnippet.CommandLine

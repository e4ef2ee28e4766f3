import HttpSnippet.Proofs.Check.Fields
import HttpSnippet.Proofs.CommandLine.Flags

/-!
# Options that are given as flags

The flags of a command line that stand for options set them in their order, each to the value that
it was given. A flag that sets an option to zero or to false sets it, and only an option without a
flag is left to the file.
-/
namespace HttpSnippet.CommandLine

/-- What a flag for a natural number sets its option to. -/
def naturalSetting (t : Text) : Value :=
  match Number.readInteger t with
  | .ok n => .int n
  | .error _ => .null

/-- The option that a flag sets, with its value. -/
def FlagUse.setting? (u : FlagUse GenerateArguments) : Option (Value × Value) :=
  let flag := u.flag.names.head?.getD []
  if flag = "--indent-type".toList then some (.str "indentType", u.given.option .str)
  else if flag = "--indent-count".toList then
    some (.str "indentCount", u.given.option naturalSetting)
  else if flag = "--timeout".toList then
    some (.str "requestTimeout", u.given.option naturalSetting)
  else if flag = "--follow-redirect".toList then
    some (.str "followRedirect", .bool (u.name = "--follow-redirect".toList))
  else if flag = "--trim-body".toList then some (.str "trimRequestBody", .bool true)
  else none

/-- The options that the words behind the name of the command set, in the order of their flags. -/
def settings (words : List Text) : Fields :=
  match classifyAll generateFlags words with
  | .ok words => (flagUses generateFlags words).filterMap FlagUse.setting?
  | .error _ => []

/-! ### Overrides -/

theorem get?_field {α : Type} (key id : Text) (value : Option α) (f : α → Value) :
    Fields.get? (value.map fun a => (Value.str key, f a)).toList id =
      if key = id then value.map f else none := by
  cases value with
  | none => simp [Fields.get?, Value.find?]
  | some a => by_cases h : key = id <;> simp [Value.str_sameKey_str, h, Fields.get?, Value.find?]

/-- The value of a natural number. -/
def ofNatural (n : Nat) : Value := .int n

/-- The options that are given, each under its id. -/
theorem get?_fields (o : Overrides) (id : Text) : o.fields.get? id =
    (((((if "indentType".toList = id then
          o.indentKind.map (Operand.option fun kind => .str kind.name) else none).or
      (if "indentCount".toList = id then o.indentCount.map (Operand.option ofNatural) else none)).or
      (if "requestTimeout".toList = id then
        o.requestTimeout.map (Operand.option ofNatural) else none)).or
      (if "followRedirect".toList = id then o.followRedirect.map .bool else none)).or
      (if "trimRequestBody".toList = id then o.trimBody.map .bool else none)) := by
  unfold Overrides.fields
  simp only [Fields.get?_append, get?_field]
  rfl

theorem ids_nodup : ["indentType".toList, "indentCount".toList, "requestTimeout".toList,
    "followRedirect".toList, "trimRequestBody".toList].Nodup := by decide

/-- Overriding an option changes what is found under its id, and nothing else. -/
theorem get?_fields_override (o : Overrides) (id : Text) :
    (∀ kind, Fields.get? { o with indentKind := some kind }.fields id =
      if "indentType".toList = id then some (kind.option fun kind => .str kind.name)
      else o.fields.get? id) ∧
    (∀ n, Fields.get? { o with indentCount := some n }.fields id =
      if "indentCount".toList = id then some (n.option ofNatural) else o.fields.get? id) ∧
    (∀ n, Fields.get? { o with requestTimeout := some n }.fields id =
      if "requestTimeout".toList = id then some (n.option ofNatural) else o.fields.get? id) ∧
    (∀ b, Fields.get? { o with followRedirect := some b }.fields id =
      if "followRedirect".toList = id then some (.bool b) else o.fields.get? id) ∧
    (∀ b, Fields.get? { o with trimBody := some b }.fields id =
      if "trimRequestBody".toList = id then some (.bool b) else o.fields.get? id) := by
  have hids := ids_nodup
  simp only [get?_fields]
  generalize "indentType".toList = a, "indentCount".toList = b, "requestTimeout".toList = c,
    "followRedirect".toList = d, "trimRequestBody".toList = e at *
  refine ⟨?_, ?_, ?_, ?_, ?_⟩ <;> intro v <;> grind

/-! ### One flag -/

theorem option_natural {flag : List Text} {given : Operand Text} {n : Operand Nat}
    (h : given.read (naturalValue flag) = .ok n) :
    n.option ofNatural = given.option naturalSetting := by
  cases given with
  | nothing =>
    cases h
    rfl
  | value t =>
    rw [Operand.read, naturalValue] at h
    rw [Operand.option, naturalSetting]
    cases hread : Number.readInteger t with
    | error fault =>
      rw [hread] at h
      cases h
    | ok k =>
      rw [hread] at h
      dsimp only at h
      split at h
      · cases h
      · cases h
        exact congrArg Value.int (Int.toNat_of_nonneg (by omega))

theorem option_indentKind {given : Operand Text} {kind : Operand IndentKind}
    (h : given.read indentKindValue = .ok kind) :
    kind.option (fun kind => .str kind.name) = given.option .str := by
  cases given with
  | nothing =>
    cases h
    rfl
  | value t =>
    rw [Operand.read, indentKindValue] at h
    cases hkind : IndentKind.all.find? (·.name = t) with
    | none =>
      rw [hkind] at h
      cases h
    | some k =>
      rw [hkind] at h
      cases h
      have hname : k.name = t := by simpa using List.find?_some hkind
      rw [← hname]
      rfl

/-- A flag does to the options what its setting does to a mapping of them. -/
def Sets (f : Flag GenerateArguments) : Prop :=
  ∀ name given a b, f.apply name given a = .ok b → ∀ id, b.overrides.fields.get? id =
    (Fields.overlay a.overrides.fields (FlagUse.setting? ⟨f, name, given⟩).toList).get? id

theorem sets_of_setting {f : Flag GenerateArguments} (id : Text)
    (h : ∀ name given a b, f.apply name given a = .ok b → ∃ v,
      FlagUse.setting? ⟨f, name, given⟩ = some (.str id, v) ∧ ∀ other,
        b.overrides.fields.get? other =
          if id = other then some v else a.overrides.fields.get? other) : Sets f := by
  intro name given a b happly other
  obtain ⟨v, hsetting, hfields⟩ := h name given a b happly
  rw [hsetting, hfields]
  exact (Fields.get?_insertEntry _ _ _ _).symm

theorem sets_of_overrides {f : Flag GenerateArguments}
    (hsetting : ∀ name given, FlagUse.setting? ⟨f, name, given⟩ = none)
    (h : ∀ name given a b, f.apply name given a = .ok b → b.overrides = a.overrides) : Sets f := by
  intro name given a b happly other
  rw [hsetting, h name given a b happly]
  rfl

theorem sets_of_mem : ∀ f ∈ generateFlags, Sets f := by
  simp only [generateFlags, List.forall_mem_cons]
  refine ⟨?_, ?_, ?_, ?_, ?_, ?_, ?_, ?_, ?_, ?_, ?_, by simp⟩
  · refine sets_of_overrides (fun _ _ => rfl) fun name given a b h => ?_
    cases h
  · refine sets_of_overrides (fun _ _ => rfl) fun name given a b h => ?_
    cases h
    rfl
  · refine sets_of_overrides (fun _ _ => rfl) fun name given a b h => ?_
    obtain ⟨p, -, h⟩ := bind_eq_ok.mp h
    cases h
    rfl
  · refine sets_of_overrides (fun _ _ => rfl) fun name given a b h => ?_
    obtain ⟨p, -, h⟩ := bind_eq_ok.mp h
    cases h
    rfl
  · refine sets_of_setting "indentType" fun name given a b h => ?_
    obtain ⟨kind, hkind, h⟩ := bind_eq_ok.mp h
    cases h
    refine ⟨given.option .str, rfl, fun id => ?_⟩
    rw [← option_indentKind hkind]
    exact (get?_fields_override a.overrides id).1 kind
  · refine sets_of_setting "indentCount" fun name given a b h => ?_
    obtain ⟨n, hn, h⟩ := bind_eq_ok.mp h
    cases h
    refine ⟨given.option naturalSetting, rfl, fun id => ?_⟩
    rw [← option_natural hn]
    exact (get?_fields_override a.overrides id).2.1 n
  · refine sets_of_setting "requestTimeout" fun name given a b h => ?_
    obtain ⟨n, hn, h⟩ := bind_eq_ok.mp h
    cases h
    refine ⟨given.option naturalSetting, rfl, fun id => ?_⟩
    rw [← option_natural hn]
    exact (get?_fields_override a.overrides id).2.2.1 n
  · refine sets_of_setting "followRedirect" fun name given a b h => ?_
    cases h
    exact ⟨_, rfl, fun id => (get?_fields_override a.overrides id).2.2.2.1 _⟩
  · refine sets_of_setting "trimRequestBody" fun name given a b h => ?_
    cases h
    exact ⟨_, rfl, fun id => (get?_fields_override a.overrides id).2.2.2.2 _⟩
  · refine sets_of_overrides (fun _ _ => rfl) fun name given a b h => ?_
    obtain ⟨p, -, h⟩ := bind_eq_ok.mp h
    cases h
    rfl
  · refine sets_of_overrides (fun _ _ => rfl) fun name given a b h => ?_
    cases h
    rfl

/-! ### All flags -/

theorem overlay_append (below above more : Fields) :
    Fields.overlay below (above ++ more) = (below.overlay above).overlay more := List.foldl_append

/-- What the flags come to is what their settings come to, laid over each other in order. -/
theorem get?_fields_of_applyUses {uses : List (FlagUse GenerateArguments)}
    (hmem : ∀ u ∈ uses, u.flag ∈ generateFlags) {a b : GenerateArguments}
    (h : applyUses uses a = .ok b) {base : Fields}
    (hbase : ∀ id, a.overrides.fields.get? id = base.get? id) (id : Text) :
    b.overrides.fields.get? id = (base.overlay (uses.filterMap FlagUse.setting?)).get? id := by
  induction uses generalizing a base with
  | nil =>
    cases h
    exact hbase id
  | cons u uses ih =>
    obtain ⟨hu, huses⟩ := List.forall_mem_cons.mp hmem
    obtain ⟨m, hm, h⟩ := applyUses_cons.mp h
    have hsets := sets_of_mem u.flag hu u.name u.given a m hm
    have hcons : (u :: uses).filterMap FlagUse.setting? =
        u.setting?.toList ++ uses.filterMap FlagUse.setting? := by
      rw [List.filterMap_cons]
      cases u.setting? <;> rfl
    rw [hcons, overlay_append]
    refine ih huses h fun id => ?_
    rw [hsets, Fields.get?_overlay_or, hbase, ← Fields.get?_overlay_or]

theorem keys_fields_sublist (o : Overrides) : (o.fields.map (·.1)).Sublist
    [.str "indentType", .str "indentCount", .str "requestTimeout", .str "followRedirect",
      .str "trimRequestBody"] := by
  have hkey {α : Type} (key : Text) (value : Option α) (f : α → Value) :
      List.Sublist ((value.map fun a => (Value.str key, f a)).toList.map (·.1)) [.str key] := by
    cases value
    · exact List.nil_sublist _
    · exact List.Sublist.refl _
  unfold Overrides.fields
  simp only [List.map_append]
  exact ((((hkey _ _ _).append (hkey _ _ _)).append (hkey _ _ _)).append (hkey _ _ _)).append
    (hkey _ _ _)

theorem distinct_fields (o : Overrides) : o.fields.Distinct := by
  have hdistinct : [Value.str "indentType", .str "indentCount", .str "requestTimeout",
      .str "followRedirect", .str "trimRequestBody"].Pairwise fun a b => a.sameKey b = false := by
    decide
  exact List.pairwise_map.mp (hdistinct.sublist (keys_fields_sublist o))

theorem textKeys_fields (o : Overrides) : o.fields.TextKeys := by
  intro entry hentry
  have hkey := (keys_fields_sublist o).subset (List.mem_map_of_mem hentry)
  simp only [List.mem_cons, List.not_mem_nil, or_false] at hkey
  rcases hkey with h | h | h | h | h <;> exact ⟨_, h⟩

theorem textKeys_settings (words : List Text) : (settings words).TextKeys := by
  have hsetting {u : FlagUse GenerateArguments} {entry : Value × Value}
      (h : u.setting? = some entry) : ∃ t, entry.1 = .str t := by
    unfold FlagUse.setting? at h
    dsimp only at h
    repeat' split at h
    all_goals first
      | exact ⟨_, (congrArg Prod.fst (Option.some.inj h)).symm⟩
      | cases h
  intro entry hentry
  unfold settings at hentry
  split at hentry
  · obtain ⟨u, -, hu⟩ := List.mem_filterMap.mp hentry
    exact hsetting hu
  · exact absurd hentry List.not_mem_nil

/-- The overrides of a command line are what its flags set, in their order. -/
theorem get?_overlay_overrides {argv : List Text} {a : GenerateArguments}
    (h : parse argv = .ok (.generate a)) (fields : Fields) (id : Text) :
    (fields.overlay a.overrides.fields).get? id =
      (fields.overlay (settings argv.tail)).get? id := by
  obtain ⟨name, words, rfl, classified, hwords, hargs⟩ := exists_words_of_parse h
  have hmem : ∀ u ∈ flagUses generateFlags classified, u.flag ∈ generateFlags :=
    mem_of_flagUses fun _ _ _ hmem => mem_of_classifyAll hwords hmem
  have hsettings : settings (name :: words).tail =
      (flagUses generateFlags classified).filterMap FlagUse.setting? := by
    rw [List.tail_cons, settings, hwords]
  have hnone (id : Text) : Fields.get? ({} : GenerateArguments).overrides.fields id =
      Fields.get? [] id := rfl
  rw [Fields.get?_overlay (distinct_fields _), hsettings, Fields.get?_overlay_or,
    get?_fields_of_applyUses hmem hargs hnone]

end HttpSnippet.CommandLine

import HttpSnippet.Converter

/-!
# Options from a mapping

A mapping whose keys are texts always comes to options. Each option is decided by the value of its
own id alone: the value is taken if the schema admits it, and the default stands otherwise.
-/
namespace HttpSnippet

namespace Value

/-- Only a text is the same key as a text. -/
theorem sameKey_str {k : Value} {t : Text} : k.sameKey (.str t) = true ↔ k = .str t := by
  cases k <;> simp [sameKey, number?]

def natural? : Value → Option Nat
  | .int (.ofNat n) => some n
  | _ => none

def truth? : Value → Option Bool
  | .bool b => some b
  | _ => none

def indentKind? : Value → Option IndentKind
  | .str t => IndentKind.all.find? (·.name = t)
  | _ => none

end Value

namespace Fields

/-- Every key is a text. -/
def TextKeys (fields : Fields) : Prop := ∀ entry ∈ fields, ∃ t, entry.1 = .str t

/-- Setting a field changes what is found under its name and nothing else. -/
theorem get?_insertEntry (fields : Fields) (name other : Text) (v : Value) :
    Fields.get? (Value.insertEntry (.str name) v fields) other =
      if name = other then some v else fields.get? other := by
  unfold get? Value.find? Value.insertEntry
  induction fields with
  | nil =>
    by_cases h : name = other
    · simp [Value.insertBy, Value.sameKey_str, h]
    · simp [Value.insertBy, Value.sameKey, Value.number?, h]
  | cons entry rest ih =>
    obtain ⟨k, w⟩ := entry
    rw [Value.insertBy]
    by_cases hk : k.sameKey (.str name) = true
    · obtain rfl := Value.sameKey_str.mp hk
      rw [if_pos hk]
      by_cases h : name = other
      · subst h
        simp [hk]
      · have hother : (Value.str name).sameKey (.str other) = false := by
          simp [Value.sameKey, Value.number?, h]
        simp [hother, h]
    · rw [if_neg hk]
      by_cases ho : k.sameKey (.str other) = true
      · have hne : name ≠ other := by
          rintro rfl
          exact hk ho
        simp [ho, hne]
      · rw [List.find?_cons_of_neg (by simpa using ho), List.find?_cons_of_neg (by simpa using ho)]
        exact ih

theorem TextKeys.insertEntry {fields : Fields} (h : fields.TextKeys) (name : Text) (v : Value) :
    TextKeys (Value.insertEntry (.str name) v fields) := by
  unfold Value.insertEntry
  induction fields with
  | nil => exact fun entry hentry => ⟨name, by rw [List.mem_singleton.mp hentry]⟩
  | cons entry rest ih =>
    obtain ⟨hentry, hrest⟩ := List.forall_mem_cons.mp h
    rw [Value.insertBy]
    split
    · exact List.forall_mem_cons.mpr ⟨hentry, hrest⟩
    · exact List.forall_mem_cons.mpr ⟨hentry, ih hrest⟩

end Fields

namespace Options

/-- The option of an id: the value that is given for it, as far as it can be read as one, and the
default otherwise. -/
def given {α : Type} (entries : Fields) (id : Text) (read : Value → Option α) (default : α) : α :=
  ((entries.get? id).bind read).getD default

/-- The options that a mapping asks for. -/
def ofMapping (entries : Fields) : Options where
  indentKind := given entries "indentType" Value.indentKind? .space
  indentCount := given entries "indentCount" Value.natural? 2
  requestTimeout := given entries "requestTimeout" Value.natural? 0
  followRedirect := given entries "followRedirect" Value.truth? true
  trimBody := given entries "trimRequestBody" Value.truth? false

theorem given_insertEntry {α : Type} (entries : Fields) (name id : Text) (v : Value)
    (read : Value → Option α) (default : α) :
    given (Value.insertEntry (.str name) v entries) id read default =
      if name = id then (read v).getD default else given entries id read default := by
  unfold given
  rw [Fields.get?_insertEntry]
  split <;> rfl

/-! ### The schema -/

/-- A schema entry admits what can be read and has a default that can, so what it contributes is
read as the option of its id. -/
theorem reading_chosen {α : Type} {spec : OptionSpec} {read : Value → Option α} {d : α}
    {reading : Reading α} (hadmits : ∀ v, admits spec v = (read v).isSome)
    (hreading : ∀ v a, read v = some a → reading v = .valid a) (hd : read spec.default = some d)
    (entries : Fields) :
    reading (chosen (.mapping entries) spec) = .valid (given entries spec.id read d) := by
  have hvalue : (Given.mapping entries).value? spec.id = entries.get? spec.id := rfl
  refine hreading _ _ ?_
  unfold chosen given
  rw [hvalue]
  cases entries.get? spec.id with
  | none => exact hd
  | some v =>
    rw [Option.bind_some]
    cases hv : read v with
    | none => simp [hadmits, hv, hd]
    | some a => simp [hadmits, hv]

theorem natural_chosen {spec : OptionSpec} (hk : spec.kind = .positiveInteger) {d : Nat}
    (hd : Value.natural? spec.default = some d) (entries : Fields) :
    Reading.natural (chosen (.mapping entries) spec) =
      .valid (given entries spec.id Value.natural? d) := by
  refine reading_chosen (fun v => ?_) (fun v n hv => ?_) hd entries
  · unfold admits
    rw [hk]
    cases v with
    | int n => cases n <;> rfl
    | _ => rfl
  · cases v with
    | int m =>
      cases m with
      | ofNat m =>
        obtain rfl := Option.some.inj hv
        rfl
      | negSucc m => cases hv
    | _ => cases hv

theorem bool_chosen {spec : OptionSpec} (hk : spec.kind = .boolean) {d : Bool}
    (hd : Value.truth? spec.default = some d) (entries : Fields) :
    Reading.bool (chosen (.mapping entries) spec) =
      .valid (given entries spec.id Value.truth? d) := by
  refine reading_chosen (fun v => ?_) (fun v b hv => ?_) hd entries
  · unfold admits
    rw [hk]
    cases v <;> rfl
  · cases v with
    | bool c =>
      obtain rfl := Option.some.inj hv
      rfl
    | _ => cases hv

theorem indentKind_chosen {spec : OptionSpec} (hk : spec.kind = .enum)
    (hc : spec.choices = some (IndentKind.all.map (·.name))) {d : IndentKind}
    (hd : Value.indentKind? spec.default = some d) (entries : Fields) :
    Reading.oneOf IndentKind.all IndentKind.name (chosen (.mapping entries) spec) =
      .valid (given entries spec.id Value.indentKind? d) := by
  refine reading_chosen (fun v => ?_) (fun v kind hv => ?_) hd entries
  · unfold admits
    rw [hk, hc, Bool.eq_iff_iff, List.any_eq_true]
    simp only [Option.getD_some, List.mem_map, Value.sameKey_str]
    cases v with
    | str t =>
      simp only [Value.indentKind?, List.find?_isSome, decide_eq_true_eq, Value.str.injEq]
      constructor
      · rintro ⟨_, ⟨kind, hmem, rfl⟩, rfl⟩
        exact ⟨kind, hmem, rfl⟩
      · rintro ⟨kind, hmem, rfl⟩
        exact ⟨_, ⟨kind, hmem, rfl⟩, rfl⟩
    | _ => simp only [Value.indentKind?, reduceCtorEq, and_false, exists_false, Option.isSome_none]
  · cases v with
    | str t =>
      have hfind : IndentKind.all.find? (·.name = t) = some kind := hv
      simp [Reading.oneOf, Reading.stringOf, Except.toOption, hfind]
    | _ => cases hv

/-- What each entry of the schema contributes, under the name of its field. -/
theorem chosenFields_commonSpecs (entries : Fields) :
    ∃ count kind timeout redirect trim,
      chosenFields (.mapping entries) commonSpecs =
        [(.str "indent_count", count), (.str "indent_type", kind),
          (.str "request_timeout", timeout), (.str "follow_redirect", redirect),
          (.str "trim_request_body", trim)] ∧
      Reading.natural count = .valid (ofMapping entries).indentCount ∧
      Reading.oneOf IndentKind.all IndentKind.name kind = .valid (ofMapping entries).indentKind ∧
      Reading.natural timeout = .valid (ofMapping entries).requestTimeout ∧
      Reading.bool redirect = .valid (ofMapping entries).followRedirect ∧
      Reading.bool trim = .valid (ofMapping entries).trimBody :=
  ⟨_, _, _, _, _, rfl, natural_chosen rfl rfl entries, indentKind_chosen rfl rfl rfl entries,
    natural_chosen rfl rfl entries, bool_chosen rfl rfl entries, bool_chosen rfl rfl entries⟩

theorem reading_chosenFields (entries : Fields) :
    Reading.options (.map (chosenFields (.mapping entries) commonSpecs)) =
      .valid (ofMapping entries) := by
  obtain ⟨count, kind, timeout, redirect, trim, hfields, hcount, hkind, htimeout, hredirect,
    htrim⟩ := chosenFields_commonSpecs entries
  have hread : Reading.options (.map [(.str "indent_count", count), (.str "indent_type", kind),
      (.str "request_timeout", timeout), (.str "follow_redirect", redirect),
      (.str "trim_request_body", trim)]) =
      Checked.map (·.1) ((Options.mk
        <$> (Reading.oneOf IndentKind.all IndentKind.name kind).under (.field "indent_type")
        <*> (Reading.natural count).under (.field "indent_count")
        <*> (Reading.natural timeout).under (.field "request_timeout")
        <*> (Reading.bool redirect).under (.field "follow_redirect")
        <*> (Reading.bool trim).under (.field "trim_request_body")).and (.valid ())) := rfl
  rw [hfields, hread, hcount, hkind, htimeout, hredirect, htrim]
  rfl

theorem usable_mapping {entries : Fields} (h : entries.TextKeys) (specs : List OptionSpec) :
    (Given.mapping entries).usable specs = true := by
  unfold Given.usable
  rw [Bool.and_eq_true, List.all_eq_true, List.all_eq_true]
  constructor
  · intro k hk
    obtain ⟨entry, hentry, rfl⟩ := List.mem_map.mp (List.mem_filter.mp hk).1
    obtain ⟨t, ht⟩ := h entry hentry
    rw [ht]
  · intro spec _
    have hholds : (Given.mapping entries).holds spec.id =
        ((Given.mapping entries).value? spec.id).isSome := rfl
    rw [hholds, Bool.not_or_self]

/-- A key that the schema does not know has to be a text, and one that it knows is one. -/
theorem textKeys_of_usable {entries : Fields} {specs : List OptionSpec}
    (h : (Given.mapping entries).usable specs = true) : entries.TextKeys := by
  unfold Given.usable at h
  rw [Bool.and_eq_true, List.all_eq_true] at h
  intro entry hentry
  by_cases hknown : specs.any fun spec => entry.1.sameKey (.str spec.id)
  · obtain ⟨spec, -, hspec⟩ := List.any_eq_true.mp hknown
    exact ⟨spec.id, Value.sameKey_str.mp hspec⟩
  · have hmem : entry.1 ∈ (Given.mapping entries).unknown specs :=
      List.mem_filter.mpr ⟨List.mem_map.mpr ⟨entry, hentry, rfl⟩, by simp [hknown]⟩
    have htext := h.1 _ hmem
    split at htext
    · next t hk => exact ⟨t, hk⟩
    · cases htext

end Options

/-- A mapping whose keys are texts comes to options, whatever its values are. -/
theorem mergeOptions_map {entries : Fields} (h : entries.TextKeys) :
    mergeOptions (.map entries) = .ok (Options.ofMapping entries) := by
  have hgiven : Options.Given.ofValue? (.map entries) = some (.mapping entries) := by
    cases entries <;> rfl
  unfold mergeOptions Options.merge
  rw [hgiven]
  simp only [Options.usable_mapping h, if_true, Options.reading_chosenFields]

/-- A key that is no text keeps a mapping from coming to options. -/
theorem mergeOptions_of_not_textKeys {entries : Fields} (h : ¬entries.TextKeys) :
    mergeOptions (.map entries) = .error (.broken .wrongKind) := by
  have hgiven : Options.Given.ofValue? (.map entries) = some (.mapping entries) := by
    cases entries <;> rfl
  have husable : (Options.Given.mapping entries).usable commonSpecs = false :=
    Bool.eq_false_iff.mpr fun husable => h (Options.textKeys_of_usable husable)
  unfold mergeOptions Options.merge
  simp only [hgiven, husable]
  rfl

/-- A mapping comes to options exactly if all its keys are texts. -/
theorem mergeOptions_map_eq_ok {entries : Fields} {o : Options} :
    mergeOptions (.map entries) = .ok o ↔ entries.TextKeys ∧ o = Options.ofMapping entries := by
  by_cases hkeys : entries.TextKeys
  · rw [mergeOptions_map hkeys, Except.ok.injEq, and_iff_right hkeys, eq_comm]
  · rw [mergeOptions_of_not_textKeys hkeys]
    constructor
    · intro h
      cases h
    · intro h
      exact absurd h.1 hkeys

/-- Options depend on a mapping by what is found under their ids, and by its keys being texts. -/
theorem mergeOptions_congr {entries others : Fields} (hkeys : entries.TextKeys ↔ others.TextKeys)
    (h : ∀ id, entries.get? id = others.get? id) :
    mergeOptions (.map entries) = mergeOptions (.map others) := by
  by_cases htext : entries.TextKeys
  · have hoptions : Options.ofMapping entries = Options.ofMapping others := by
      simp only [Options.ofMapping, Options.given, h]
    rw [mergeOptions_map htext, mergeOptions_map (hkeys.mp htext), hoptions]
  · rw [mergeOptions_of_not_textKeys htext, mergeOptions_of_not_textKeys (mt hkeys.mpr htext)]

end HttpSnippet

import HttpSnippet.Proofs.Check.Fields

/-!
# Options one by one

Every option is decided by what stands under its own id. A value counts if it is one that the option
itself would be written as; all others, and none at all, leave the default. So nothing else in a
mapping matters, and options that are written under their ids are read back as they are.
-/
namespace HttpSnippet

namespace Fields

variable {fields others : Fields}

/-- With keys that are all different every entry is found under its key. -/
theorem get?_eq_some_iff (h : (fields.map (·.1)).Nodup) {name : Text} {v : Value} :
    fields.get? name = some v ↔ (.str name, v) ∈ fields := by
  induction fields with
  | nil => simp [get?, Value.find?]
  | cons entry rest ih =>
    obtain ⟨k, w⟩ := entry
    obtain ⟨hk, hrest⟩ := List.nodup_cons.mp h
    rw [get?_cons, List.mem_cons, Prod.mk.injEq]
    by_cases hsame : k.sameKey (.str name) = true
    · obtain rfl := Value.sameKey_str.mp hsame
      have hnot : (.str name, v) ∉ rest := fun hmem =>
        hk (List.mem_map.mpr ⟨_, hmem, rfl⟩)
      simp [hsame, hnot, eq_comm]
    · have hne : Value.str name ≠ k := fun heq => hsame (Value.sameKey_str.mpr heq.symm)
      simp [hsame, hne, ih hrest]

theorem get?_perm (hperm : others.Perm fields) (h : (fields.map (·.1)).Nodup) (name : Text) :
    others.get? name = fields.get? name := by
  have hothers : (others.map (·.1)).Nodup := (hperm.map _).nodup_iff.mpr h
  refine Option.ext fun v => ?_
  rw [get?_eq_some_iff hothers, get?_eq_some_iff h, hperm.mem_iff]

theorem TextKeys.perm (h : fields.TextKeys) (hperm : others.Perm fields) : others.TextKeys :=
  fun entry hentry => h entry (hperm.mem_iff.mp hentry)

end Fields

namespace Options

/-- The ids of all options. -/
def ids : List Text := commonSpecs.map (·.id)

/-- What an option comes to: the value under its id, if that is how an option is written, and the
default otherwise. -/
inductive Decided {α : Type} (found : Option Value) (write : α → Value) (default : α) : α → Prop
  | given {a : α} (h : found = some (write a)) : Decided found write default a
  | default (h : ∀ a, found ≠ some (write a)) : Decided found write default default

/-- Each option is decided by the value under its id. -/
structure Merged (entries : Fields) (o : Options) : Prop where
  indentKind : Decided (entries.get? "indentType") (fun kind : IndentKind => .str kind.name) .space
    o.indentKind
  indentCount : Decided (entries.get? "indentCount") (fun n : Nat => .int n) 2 o.indentCount
  requestTimeout : Decided (entries.get? "requestTimeout") (fun n : Nat => .int n) 0
    o.requestTimeout
  followRedirect : Decided (entries.get? "followRedirect") .bool true o.followRedirect
  trimBody : Decided (entries.get? "trimRequestBody") .bool false o.trimBody

/-- The options as a mapping of their ids. -/
def entries (o : Options) : Fields := [
  (.str "indentType", .str o.indentKind.name), (.str "indentCount", .int o.indentCount),
  (.str "requestTimeout", .int o.requestTimeout), (.str "followRedirect", .bool o.followRedirect),
  (.str "trimRequestBody", .bool o.trimBody)]

/-! ### Reading what is written -/

theorem natural?_eq_some_iff {v : Value} {n : Nat} : v.natural? = some n ↔ v = .int n := by
  cases v with
  | int m =>
    cases m with
    | ofNat m =>
      rw [Value.natural?, Option.some.injEq, Value.int.injEq]
      exact Int.ofNat_inj.symm
    | negSucc m => simp [Value.natural?]
  | _ => simp [Value.natural?]

theorem truth?_eq_some_iff {v : Value} {b : Bool} : v.truth? = some b ↔ v = .bool b := by
  cases v <;> simp [Value.truth?]

theorem indentKind?_eq_some_iff {v : Value} {kind : IndentKind} :
    v.indentKind? = some kind ↔ v = .str kind.name := by
  cases v with
  | str t =>
    rw [Value.indentKind?, Value.str.injEq]
    constructor
    · intro h
      have hname := List.find?_some h
      exact (of_decide_eq_true hname).symm
    · rintro rfl
      cases kind <;> decide
  | _ => simp [Value.indentKind?]

theorem decided_iff {α : Type} {read : Value → Option α} {write : α → Value}
    (hread : ∀ {v a}, read v = some a ↔ v = write a) {found : Option Value} {default a : α} :
    Decided found write default a ↔ a = (found.bind read).getD default := by
  cases hfound : found.bind read with
  | some b =>
    obtain ⟨v, rfl, hv⟩ := Option.bind_eq_some_iff.mp hfound
    obtain rfl := hread.mp hv
    constructor
    · rintro (heq | hno)
      · have hwritten : read (write a) = some a := hread.mpr rfl
        rw [← Option.some.inj heq, hv] at hwritten
        exact (Option.some.inj hwritten).symm
      · exact absurd rfl (hno b)
    · rintro rfl
      exact .given rfl
  | none =>
    have hno (b : α) : found ≠ some (write b) := by
      rintro rfl
      rw [Option.bind_some, hread.mpr rfl] at hfound
      cases hfound
    constructor
    · rintro (heq | -)
      · exact absurd heq (hno a)
      · rfl
    · rintro rfl
      exact .default hno

theorem merged_iff {entries : Fields} {o : Options} :
    Merged entries o ↔ o = ofMapping entries := by
  constructor
  · rintro ⟨hkind, hcount, htimeout, hredirect, htrim⟩
    cases o
    rw [ofMapping, mk.injEq]
    exact ⟨(decided_iff indentKind?_eq_some_iff).mp hkind,
      (decided_iff natural?_eq_some_iff).mp hcount,
      (decided_iff natural?_eq_some_iff).mp htimeout,
      (decided_iff truth?_eq_some_iff).mp hredirect, (decided_iff truth?_eq_some_iff).mp htrim⟩
  · rintro rfl
    exact ⟨(decided_iff indentKind?_eq_some_iff).mpr rfl,
      (decided_iff natural?_eq_some_iff).mpr rfl, (decided_iff natural?_eq_some_iff).mpr rfl,
      (decided_iff truth?_eq_some_iff).mpr rfl, (decided_iff truth?_eq_some_iff).mpr rfl⟩

/-! ### What a mapping is asked for -/

theorem ofMapping_congr {fields others : Fields} (h : ∀ id ∈ ids, others.get? id = fields.get? id) :
    ofMapping others = ofMapping fields := by
  have hgiven {α : Type} {read : Value → Option α} {default : α} {id : Text} (hid : id ∈ ids) :
      given others id read default = given fields id read default := by
    rw [given, given, h id hid]
  rw [ofMapping, ofMapping, hgiven (by decide), hgiven (by decide), hgiven (by decide),
    hgiven (by decide), hgiven (by decide)]

/-- What is written under an id depends on what was found there. -/
theorem get?_entries_congr {fields others : Fields} {id : Text}
    (h : others.get? id = fields.get? id) :
    (ofMapping others).entries.get? id = (ofMapping fields).entries.get? id := by
  have hgiven {α : Type} {read : Value → Option α} {default : α} {key : Text}
      (hkey : (Value.str key).sameKey (.str id) = true) :
      given others key read default = given fields key read default := by
    obtain rfl := Value.str.inj (Value.sameKey_str.mp hkey)
    rw [given, given, h]
  simp only [entries, Fields.get?_cons, ofMapping]
  -- one entry after the other: either it is the one of the id or it is passed over
  repeat refine ite_congr rfl (fun hkey => by rw [hgiven hkey]) fun _ => ?_
  rfl

theorem textKeys_entries (o : Options) : o.entries.TextKeys := by
  simp [Fields.TextKeys, entries]

theorem ofMapping_entries (o : Options) : ofMapping o.entries = o := by
  refine (merged_iff.mp ⟨.given ?_, .given ?_, .given ?_, .given ?_, .given ?_⟩).symm <;> rfl

/-- A mapping whose keys are texts comes to options, each of which is decided by the value under its
own id alone. Neither other keys nor their order matter, another value for one id changes no other
option, and the options written under their ids come to themselves. -/
theorem mergeOptions_merged {fields : Fields} (h : fields.TextKeys) :
    ∃ o, mergeOptions (.map fields) = .ok o ∧
      (∀ o', Merged fields o' ↔ o' = o) ∧
      (∀ others : Fields, others.TextKeys → (∀ id ∈ ids, others.get? id = fields.get? id) →
        mergeOptions (.map others) = .ok o) ∧
      (∀ others : Fields, others.Perm fields → (fields.map (·.1)).Nodup →
        mergeOptions (.map others) = .ok o) ∧
      (∀ id, ∀ others : Fields, others.TextKeys →
        (∀ other ∈ ids, other ≠ id → others.get? other = fields.get? other) →
          ∃ o', mergeOptions (.map others) = .ok o' ∧
            ∀ other ∈ ids, other ≠ id → o'.entries.get? other = o.entries.get? other) ∧
      mergeOptions (.map o.entries) = .ok o := by
  refine ⟨ofMapping fields, mergeOptions_map h, fun o' => merged_iff, ?_, ?_, ?_, ?_⟩
  · intro others hkeys hids
    rw [mergeOptions_map hkeys, ofMapping_congr hids]
  · intro others hperm hnodup
    rw [mergeOptions_map (h.perm hperm),
      ofMapping_congr fun id _ => Fields.get?_perm hperm hnodup id]
  · intro id others hkeys hids
    exact ⟨ofMapping others, mergeOptions_map hkeys, fun other hother hne =>
      get?_entries_congr (hids other hother hne)⟩
  · rw [mergeOptions_map (textKeys_entries _), ofMapping_entries]

/-- A truth value is no number here, and a negative number, a text in other letters and an unknown
id count for nothing. -/
theorem mergeOptions_merged_of_wrong_values :
    let fields : Fields := [(.str "indentCount", .bool true), (.str "x", .null),
      (.str "indentType", .str "tab"), (.str "requestTimeout", .int 1000000000000000000000),
      (.str "trimRequestBody", .int 1), (.str "followRedirect", .bool false)]
    fields.TextKeys ∧ mergeOptions (.map fields) = .ok
      { requestTimeout := 1000000000000000000000, followRedirect := false } := by
  intro fields
  have hkeys : fields.TextKeys := by simp [Fields.TextKeys, fields]
  obtain ⟨o, ho, hmerged, -⟩ := mergeOptions_merged hkeys
  refine ⟨hkeys, ?_⟩
  rw [ho, Except.ok.injEq, eq_comm, ← hmerged]
  refine ⟨.default ?_, .default ?_, .given rfl, .given rfl, .default ?_⟩
  · rintro (_ | _) <;> simp [fields, Fields.get?_cons, Value.sameKey_str, IndentKind.name]
  · simp [fields, Fields.get?_cons, Value.sameKey_str]
  · simp [fields, Fields.get?_cons, Value.sameKey_str]

end Options
end HttpSnippet

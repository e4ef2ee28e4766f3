import Mathlib.Data.List.Induction
import HttpSnippet.Proofs.Options.Mapping

/-!
# Looking up fields

What is found under a name after fields were taken out, moved to another name, laid over others or
filled up from others. A reading that only looks fields up cannot tell two mappings with the same
lookups apart.
-/
namespace HttpSnippet

namespace Value

theorem str_sameKey_str (s t : Text) : (str s).sameKey (.str t) = (s == t) := rfl

/-- A text is the same key as a text only. -/
theorem str_sameKey {k : Value} {t : Text} : (str t).sameKey k = true ↔ k = .str t := by
  cases k with
  | str s => rw [str_sameKey_str, beq_iff_eq, str.injEq, eq_comm]
  | _ => simp [sameKey, number?]

end Value

namespace Fields

/-- Gives a field another name where it stands. -/
def rename (fields : Fields) (old new : Text) : Fields :=
  fields.map fun (k, v) => (if k.sameKey (.str old) then .str new else k, v)

/-- Fields, with others for those that are not there. -/
def withDefaults (fields defaults : Fields) : Fields :=
  fields ++ defaults.filter fun (k, _) => (Value.find? k fields).isNone

/-- No key stands in a mapping twice. -/
def Distinct (fields : Fields) : Prop := fields.Pairwise fun a b => a.1.sameKey b.1 = false

instance (fields : Fields) : Decidable fields.Distinct :=
  inferInstanceAs (Decidable (fields.Pairwise fun a b => a.1.sameKey b.1 = false))

variable {fields : Fields} {old new name : Text}

/-! ### Lookups -/

theorem get?_cons (k v : Value) (fields : Fields) (name : Text) :
    Fields.get? ((k, v) :: fields) name =
      if k.sameKey (.str name) then some v else fields.get? name := by
  unfold get? Value.find?
  rw [List.find?_cons]
  cases h : k.sameKey (.str name) <;> simp [h]

theorem get?_append (fields more : Fields) (name : Text) :
    Fields.get? (fields ++ more) name = (fields.get? name).or (Fields.get? more name) := by
  simp only [get?, Value.find?, List.find?_append, Option.map_or]

theorem get?_eq_none_iff :
    fields.get? name = none ↔ ∀ entry ∈ fields, entry.1.sameKey (.str name) = false := by
  simp [get?, Value.find?, List.find?_eq_none]

theorem get?_erase_self (fields : Fields) (name : Text) : (fields.erase name).get? name = none := by
  refine get?_eq_none_iff.mpr fun entry hentry => ?_
  simpa using (List.mem_filter.mp hentry).2

theorem get?_erase_of_ne (h : name ≠ old) : (fields.erase old).get? name = fields.get? name := by
  unfold get? Value.find? erase
  rw [List.find?_filter]
  congr 2
  funext entry
  cases hk : entry.1.sameKey (.str name) with
  | false => simp [hk]
  | true => simp [Value.sameKey_str.mp hk, Value.str_sameKey_str, h]

theorem get?_renamed_new (fields : Fields) (old new : Text) :
    (fields.renamed old new).get? new = (fields.get? new).or (fields.get? old) := by
  unfold renamed has
  cases hold : fields.get? old with
  | none => simp
  | some v =>
    cases hnew : fields.get? new with
    | some w => simp [hnew]
    | none =>
      have herase : (fields.erase old).get? new = none := by
        refine get?_eq_none_iff.mpr fun entry hentry => ?_
        exact get?_eq_none_iff.mp hnew entry (List.mem_filter.mp hentry).1
      simp [get?_append, herase, get?_cons, Value.sameKey_str]

theorem get?_renamed_of_ne (hold : name ≠ old) (hnew : name ≠ new) :
    (fields.renamed old new).get? name = fields.get? name := by
  unfold renamed has
  cases fields.get? old with
  | none => rfl
  | some v =>
    dsimp only
    split
    · rfl
    · have hlast : Fields.get? [(Value.str new, v)] name = none := by
        simp [get?, Value.find?, Value.str_sameKey_str, hnew.symm]
      rw [get?_append, get?_erase_of_ne hold, hlast, Option.or_none]

theorem get?_rename_new (h : fields.get? new = none) :
    (fields.rename old new).get? new = fields.get? old := by
  have hnew := get?_eq_none_iff.mp h
  clear h
  unfold rename
  induction fields with
  | nil => rfl
  | cons entry rest ih =>
    obtain ⟨k, v⟩ := entry
    obtain ⟨hk, hrest⟩ := List.forall_mem_cons.mp hnew
    rw [List.map_cons, get?_cons, get?_cons, ih hrest]
    by_cases hold : k.sameKey (.str old) = true
    · simp [hold, Value.str_sameKey_str]
    · simp [hold, hk]

theorem get?_rename_of_ne (hold : name ≠ old) (hnew : name ≠ new) :
    (fields.rename old new).get? name = fields.get? name := by
  unfold rename
  induction fields with
  | nil => rfl
  | cons entry rest ih =>
    obtain ⟨k, v⟩ := entry
    rw [List.map_cons, get?_cons, get?_cons, ih]
    by_cases hk : k.sameKey (.str old) = true
    · obtain rfl := Value.sameKey_str.mp hk
      simp [Value.str_sameKey_str, hold.symm, hnew.symm]
    · simp [hk]

theorem get?_rename_old (hne : old ≠ new) (fields : Fields) :
    (fields.rename old new).get? old = none := by
  refine get?_eq_none_iff.mpr fun entry hentry => ?_
  obtain ⟨⟨k, v⟩, -, rfl⟩ := List.mem_map.mp hentry
  by_cases hk : k.sameKey (.str old) = true
  · simp [hk, Value.str_sameKey_str, hne.symm]
  · simp [hk]

theorem get?_withDefaults (fields defaults : Fields) (name : Text) :
    (fields.withDefaults defaults).get? name = (fields.get? name).or (defaults.get? name) := by
  rw [withDefaults, get?_append]
  cases h : fields.get? name with
  | some v => simp
  | none =>
    rw [Option.none_or, Option.none_or]
    unfold get? Value.find?
    rw [List.find?_filter]
    congr 2
    funext entry
    cases hk : entry.1.sameKey (.str name) with
    | false => simp [hk]
    | true =>
      have hnone := get?_eq_none_iff.mp h
      simpa [Value.sameKey_str.mp hk] using fun _ k v => hnone (k, v)

/-- Setting a field of any key changes what is found under that key only. -/
theorem get?_insertEntry_of_ne {k : Value} (h : k ≠ .str name) (v : Value) (fields : Fields) :
    Fields.get? (Value.insertEntry k v fields) name = fields.get? name := by
  unfold Value.insertEntry
  induction fields with
  | nil =>
    have hk : k.sameKey (.str name) = false :=
      Bool.eq_false_iff.mpr fun hk => h (Value.sameKey_str.mp hk)
    rw [Value.insertBy, get?_cons, hk]
    rfl
  | cons entry rest ih =>
    obtain ⟨l, w⟩ := entry
    rw [Value.insertBy]
    by_cases hl : l.sameKey k = true
    · have hname : l.sameKey (.str name) = false := by
        refine Bool.eq_false_iff.mpr fun hl' => h ?_
        rw [Value.sameKey_str.mp hl'] at hl
        exact Value.str_sameKey.mp hl
      rw [if_pos hl, get?_cons, get?_cons, hname]
      rfl
    · rw [if_neg hl, get?_cons, get?_cons, ih]

/-- Of the fields that are laid over others, each is found in place of theirs. -/
theorem get?_overlay {above : Fields} (h : above.Distinct) (below : Fields) (name : Text) :
    (below.overlay above).get? name = (above.get? name).or (below.get? name) := by
  unfold overlay
  induction above generalizing below with
  | nil => rfl
  | cons entry rest ih =>
    obtain ⟨k, v⟩ := entry
    obtain ⟨hk, hrest⟩ := List.pairwise_cons.mp h
    rw [List.foldl_cons, ih hrest, get?_cons]
    by_cases hname : k.sameKey (.str name) = true
    · obtain rfl := Value.sameKey_str.mp hname
      have hnone : Fields.get? rest name = none := by
        refine get?_eq_none_iff.mpr fun e he => Bool.eq_false_iff.mpr fun hsame => ?_
        have hfalse := hk e he
        rw [Value.sameKey_str.mp hsame, hname] at hfalse
        cases hfalse
      simp [hnone, hname, get?_insertEntry]
    · have hne : k ≠ .str name := fun h => hname (Value.sameKey_str.mpr h)
      simp [hname, get?_insertEntry_of_ne hne]

/-- What is laid over fields is found as if there was nothing below, and else what is below. -/
theorem get?_overlay_or (below above : Fields) (name : Text) :
    (below.overlay above).get? name =
      ((Fields.overlay [] above).get? name).or (below.get? name) := by
  unfold overlay
  induction above using List.reverseRecOn with
  | nil => rfl
  | append_singleton above entry ih =>
    obtain ⟨k, v⟩ := entry
    rw [List.foldl_append, List.foldl_append, List.foldl_cons, List.foldl_cons]
    by_cases hk : k.sameKey (.str name) = true
    · obtain rfl := Value.sameKey_str.mp hk
      simp [get?_insertEntry]
    · have hne : k ≠ .str name := fun h => hk (Value.sameKey_str.mpr h)
      rw [List.foldl_nil, List.foldl_nil, get?_insertEntry_of_ne hne, get?_insertEntry_of_ne hne,
        ih]

/-- Fields that are laid over nothing are found exactly if they are there. -/
theorem get?_overlay_nil_eq_none_iff :
    (Fields.overlay [] fields).get? name = none ↔ fields.get? name = none := by
  unfold overlay
  induction fields using List.reverseRecOn with
  | nil => exact Iff.rfl
  | append_singleton fields entry ih =>
    obtain ⟨k, v⟩ := entry
    rw [List.foldl_append, List.foldl_cons, List.foldl_nil, get?_append, get?_cons]
    by_cases hk : k.sameKey (.str name) = true
    · obtain rfl := Value.sameKey_str.mp hk
      simp [get?_insertEntry, hk]
    · have hne : k ≠ .str name := fun h => hk (Value.sameKey_str.mpr h)
      rw [get?_insertEntry_of_ne hne, ih, if_neg hk, get?, get?]
      simp [Value.find?]

/-! ### Keys that are texts -/

/-- Setting a field takes no key away. -/
theorem textKeys_insertEntry_iff {v : Value} :
    TextKeys (Value.insertEntry (.str name) v fields) ↔ fields.TextKeys := by
  refine ⟨fun h => ?_, fun h => h.insertEntry name v⟩
  unfold Value.insertEntry at h
  induction fields with
  | nil => exact fun _ hentry => absurd hentry List.not_mem_nil
  | cons entry rest ih =>
    obtain ⟨k, w⟩ := entry
    rw [Value.insertBy] at h
    split at h
    · exact List.forall_mem_cons.mpr (List.forall_mem_cons.mp h)
    · obtain ⟨hk, hrest⟩ := List.forall_mem_cons.mp h
      exact List.forall_mem_cons.mpr ⟨hk, ih hrest⟩

theorem textKeys_overlay_iff {above : Fields} (habove : above.TextKeys) :
    (fields.overlay above).TextKeys ↔ fields.TextKeys := by
  unfold overlay
  induction above generalizing fields with
  | nil => exact Iff.rfl
  | cons entry rest ih =>
    obtain ⟨k, v⟩ := entry
    obtain ⟨⟨t, rfl⟩, hrest⟩ := List.forall_mem_cons.mp habove
    rw [List.foldl_cons, ih hrest, textKeys_insertEntry_iff]

/-! ### Distinct keys -/

theorem ofJsonMembers_eq_map (members : List (Text × Json)) :
    Value.ofJsonMembers members = members.map fun m => (.str m.1, .ofJson m.2) := by
  induction members with
  | nil => rfl
  | cons m ms ih => rw [Value.ofJsonMembers, ih, List.map_cons]

theorem Distinct.erase (h : fields.Distinct) (name : Text) : (fields.erase name).Distinct :=
  h.filter _

theorem Distinct.renamed (h : fields.Distinct) (old new : Text) :
    (fields.renamed old new).Distinct := by
  unfold Fields.renamed has
  cases fields.get? old with
  | none => exact h
  | some v =>
    cases hnew : fields.get? new with
    | some w => simpa using h
    | none =>
      have hnew := get?_eq_none_iff.mp hnew
      refine List.pairwise_append.mpr ⟨h.erase old, List.pairwise_singleton _ _, ?_⟩
      intro e he f hf
      rw [List.mem_singleton.mp hf]
      exact hnew e (List.mem_filter.mp he).1

theorem Distinct.rename (h : fields.Distinct) (hnew : fields.get? new = none) :
    (fields.rename old new).Distinct := by
  have hnew := get?_eq_none_iff.mp hnew
  refine List.pairwise_map.mpr (h.imp_of_mem fun {e f} he hf hsame => ?_)
  by_cases heold : e.1.sameKey (.str old) = true
  · obtain hek := Value.sameKey_str.mp heold
    have hfold : ¬f.1.sameKey (.str old) = true := by
      intro hfold
      rw [hek, Value.sameKey_str.mp hfold, Value.str_sameKey_str] at hsame
      simp at hsame
    simp only [heold, if_true, if_neg hfold]
    refine Bool.eq_false_iff.mpr fun hsame' => ?_
    have hfnew := hnew f hf
    rw [Value.str_sameKey.mp hsame', Value.str_sameKey_str] at hfnew
    simp at hfnew
  · by_cases hfold : f.1.sameKey (.str old) = true
    · simpa [heold, hfold] using hnew e he
    · simpa [heold, hfold] using hsame

end Fields
end HttpSnippet

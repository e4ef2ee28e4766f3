import HttpSnippet.Proofs.Form.Grouping

/-!
# Keys that return

The test for interleaving looks at the runs of the keys. What it finds is said here by positions: a
key, another one behind it, and the first one again. Groups are read one after another, so their
keys never interleave, and grouping changes the order of pairs whose keys do.
-/
namespace HttpSnippet

variable {α : Type}

/-- A key returns after another one. -/
def Interleaved (keys : List Text) : Prop :=
  ∃ key other, other ≠ key ∧ [key, other, key].Sublist keys

/-! ### The test by its runs -/

theorem not_interleaved_nil : ¬ Interleaved [] := by
  rintro ⟨key, other, -, h⟩
  cases h

/-- The first key is one that returns, or the others interleave. -/
theorem interleaved_cons_iff {key : Text} {keys : List Text} :
    Interleaved (key :: keys) ↔
      (∃ other, other ≠ key ∧ [other, key].Sublist keys) ∨ Interleaved keys := by
  constructor
  · rintro ⟨k, other, hne, h⟩
    rcases List.sublist_cons_iff.mp h with h | ⟨rest, heq, h⟩
    · exact .inr ⟨k, other, hne, h⟩
    · obtain ⟨rfl, rfl⟩ := List.cons.inj heq
      exact .inl ⟨other, hne, h⟩
  · rintro (⟨other, hne, h⟩ | ⟨k, other, hne, h⟩)
    · exact ⟨key, other, hne, h.cons_cons key⟩
    · exact ⟨k, other, hne, h.cons key⟩

theorem interleaved_cons_self {key : Text} {keys : List Text} :
    Interleaved (key :: key :: keys) ↔ Interleaved (key :: keys) := by
  rw [interleaved_cons_iff, or_iff_right_iff_imp]
  rintro ⟨other, hne, h⟩
  rcases List.sublist_cons_iff.mp h with h | ⟨rest, heq, -⟩
  · exact ⟨key, other, hne, h.cons_cons key⟩
  · exact absurd (List.cons.inj heq).1 hne

/-- A key that another one follows at once returns if it stands anywhere behind. -/
theorem interleaved_cons {key : Text} {keys : List Text} (h : keys.head? ≠ some key) :
    Interleaved (key :: keys) ↔ key ∈ keys ∨ Interleaved keys := by
  rw [interleaved_cons_iff]
  refine or_congr_left ⟨fun ⟨other, _, hsub⟩ => hsub.subset (by simp), fun hmem => ?_⟩
  cases keys with
  | nil => cases hmem
  | cons other rest =>
    have hne : other ≠ key := fun e => h (congrArg some e)
    have hrest : key ∈ rest := (List.mem_cons.mp hmem).resolve_left (Ne.symm hne)
    exact ⟨other, hne, (List.singleton_sublist.mpr hrest).cons_cons other⟩

theorem interleavesKeys_iff_interleaved (keys : List Text) :
    interleavesKeys keys = true ↔ Interleaved keys := by
  induction keys with
  | nil => exact iff_of_false (by decide) not_interleaved_nil
  | cons key keys ih =>
    by_cases hhead : keys.head? = some key
    · obtain ⟨rest, rfl⟩ := List.head?_eq_some_iff.mp hhead
      rw [interleavesKeys_cons_self, interleaved_cons_self, ih]
    · rw [interleavesKeys_cons hhead, interleaved_cons hhead, Bool.or_eq_true, ih,
        List.contains_iff_mem]

/-! ### Positions -/

theorem interleaved_iff_positions (keys : List Text) :
    Interleaved keys ↔ ∃ (i j k : Nat) (_ : i < j) (_ : j < k) (_ : k < keys.length),
      keys[i] = keys[k] ∧ keys[j] ≠ keys[i] := by
  constructor
  · rintro ⟨key, other, hne, h⟩
    obtain ⟨places, heq, hordered⟩ := List.sublist_eq_map_getElem h
    obtain ⟨i, j, k, rfl⟩ : ∃ i j k, places = [i, j, k] := by
      refine List.length_eq_three.mp ?_
      simpa using (congrArg List.length heq).symm
    simp only [List.map_cons, List.map_nil, List.cons.injEq, and_true] at heq
    obtain ⟨rfl, rfl, hk⟩ := heq
    simp only [List.pairwise_cons, List.mem_cons, List.not_mem_nil, or_false, forall_eq_or_imp,
      forall_eq] at hordered
    exact ⟨i, j, k, hordered.1.1, hordered.2.1, k.isLt, hk, hne⟩
  · rintro ⟨i, j, k, hij, hjk, hk, hreturn, hother⟩
    have hordered : [(⟨i, by omega⟩ : Fin keys.length), ⟨j, by omega⟩, ⟨k, hk⟩].Pairwise
        (· < ·) := by
      simp only [List.pairwise_cons, List.mem_cons, List.not_mem_nil, or_false,
        forall_eq_or_imp, forall_eq, Fin.mk_lt_mk, List.Pairwise.nil, and_true]
      exact ⟨⟨hij, Nat.lt_trans hij hjk⟩, hjk, by simp⟩
    have hsub := List.map_getElem_sublist hordered
    refine ⟨keys[i], keys[j], hother, ?_⟩
    simpa [hreturn] using hsub

/-! ### Groups read one after another -/

theorem interleavesKeys_replicate_append {key : Text} {keys : List Text} (hnew : key ∉ keys)
    (h : interleavesKeys keys = false) (n : Nat) :
    interleavesKeys (List.replicate n key ++ keys) = false := by
  induction n with
  | zero => exact h
  | succ n ih =>
    rw [List.replicate_succ, List.cons_append]
    cases n with
    | zero =>
      have hhead : keys.head? ≠ some key := fun e => hnew (List.mem_of_head? e)
      have hcontains : keys.contains key = false := by simpa using hnew
      rw [List.replicate_zero, List.nil_append, interleavesKeys_cons hhead, hcontains, h]
      rfl
    | succ n =>
      rw [List.replicate_succ, List.cons_append, interleavesKeys_cons_self]
      rwa [List.replicate_succ, List.cons_append] at ih

/-- Groups with different keys are read without interleaving. -/
theorem interleavesKeys_ungroup {groups : List (Text × List α)}
    (h : (groups.map (·.1)).Nodup) :
    interleavesKeys ((ungroup groups).map (·.1)) = false := by
  induction groups with
  | nil => rfl
  | cons g groups ih =>
    obtain ⟨key, values⟩ := g
    obtain ⟨hnew, hrest⟩ := List.nodup_cons.mp h
    have hgroup : (values.map (key, ·)).map (·.1) = List.replicate values.length key := by
      rw [List.map_map, Function.comp_def, List.map_const']
    have hkeys : key ∉ (ungroup groups).map (·.1) := by
      intro hmem
      obtain ⟨p, hp, hkey⟩ := List.mem_map.mp hmem
      obtain ⟨g, hg, hpg⟩ := List.mem_flatMap.mp hp
      obtain ⟨v, -, rfl⟩ := List.mem_map.mp hpg
      exact hnew (List.mem_map.mpr ⟨g, hg, hkey⟩)
    rw [ungroup, List.flatMap_cons, ← ungroup, List.map_append, hgroup]
    exact interleavesKeys_replicate_append hkeys (ih hrest) values.length

theorem nodup_keys_groupByKey (pairs : List (Text × α)) :
    ((groupByKey pairs).map (·.1)).Nodup := by
  rw [groupByKey_eq, List.map_map]
  simpa [Function.comp_def] using nodup_eraseDups (pairs.map (·.1))

/-- Grouping keeps the order of pairs exactly if their keys do not interleave. -/
theorem ungroup_groupByKey_eq_iff (pairs : List (Text × α)) :
    ungroup (groupByKey pairs) = pairs ↔ interleavesKeys (pairs.map (·.1)) = false := by
  refine ⟨fun h => ?_, ungroup_groupByKey⟩
  have hgroups := interleavesKeys_ungroup (nodup_keys_groupByKey pairs)
  rwa [h] at hgroups

/-- The test finds exactly the keys that stand at two places with another key between them, and it
fails exactly if grouping keeps the order of the pairs, whatever values belong to the keys: one
choice of values tells as much as all of them. -/
theorem interleavesKeys_iff_positions (keys : List Text) :
    (interleavesKeys keys = true ↔
      ∃ (i j k : Nat) (_ : i < j) (_ : j < k) (_ : k < keys.length),
        keys[i] = keys[k] ∧ keys[j] ≠ keys[i]) ∧
    (interleavesKeys keys = false ↔
      ∀ (α : Type) (values : List α), values.length = keys.length →
        ungroup (groupByKey (keys.zip values)) = keys.zip values) ∧
    ∀ (α : Type) (values : List α), values.length = keys.length →
      (interleavesKeys keys = false ↔
        ungroup (groupByKey (keys.zip values)) = keys.zip values) := by
  have hzip (α : Type) (values : List α) (hlength : values.length = keys.length) :
      interleavesKeys keys = false ↔
        ungroup (groupByKey (keys.zip values)) = keys.zip values := by
    rw [ungroup_groupByKey_eq_iff, List.map_fst_zip (Nat.le_of_eq hlength.symm)]
  refine ⟨?_, ⟨fun h α values hlength => (hzip α values hlength).mp h, fun h => ?_⟩, hzip⟩
  · rw [interleavesKeys_iff_interleaved, interleaved_iff_positions]
  · exact (hzip Text keys rfl).mpr (h Text keys rfl)

/-- Another key stands between two runs of one key, so grouping moves a value forward. -/
theorem interleavesKeys_iff_positions_of_runs :
    let keys : List Text := [['a'], ['a'], ['b'], ['a']]
    let values : List Nat := [0, 1, 2, 3]
    (0 < 2 ∧ 2 < 3 ∧ 3 < keys.length ∧ interleavesKeys keys = true) ∧
      values.length = keys.length ∧ ungroup (groupByKey (keys.zip values)) ≠ keys.zip values := by
  intro keys values
  obtain ⟨hpositions, -, hvalues⟩ := interleavesKeys_iff_positions keys
  have hkeys : interleavesKeys keys = true :=
    hpositions.mpr ⟨0, 2, 3, by decide, by decide, by decide, by decide⟩
  refine ⟨⟨by decide, by decide, by decide, hkeys⟩, rfl, fun hsame => ?_⟩
  rw [(hvalues Nat values rfl).mpr hsame] at hkeys
  cases hkeys

end HttpSnippet

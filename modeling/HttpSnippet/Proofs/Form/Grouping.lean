import Mathlib.Data.List.Induction
import Mathlib.Data.List.Nodup
import HttpSnippet.Snippet.Grouping

/-!
# Groups of pairs

Grouping is characterised without its accumulator: the keys in the order in which they first
appear, each with its own values in their order. Reading the groups one after another gives the
pairs back if no key returns after another one.
-/
namespace HttpSnippet

variable {α : Type}

/-- The values of a key, in their order. -/
def valuesOf (key : Text) (pairs : List (Text × α)) : List α :=
  (pairs.filter (·.1 = key)).map (·.2)

/-- The pairs of a list of groups, one group after another. -/
def ungroup (groups : List (Text × List α)) : List (Text × α) :=
  groups.flatMap fun (k, vs) => vs.map (k, ·)

/-! ### Groups -/

theorem addToGroup_of_not_mem (key : Text) (value : α) {groups : List (Text × List α)}
    (h : key ∉ groups.map (·.1)) : addToGroup key value groups = groups ++ [(key, [value])] := by
  induction groups with
  | nil => rfl
  | cons g gs ih =>
    obtain ⟨k, vs⟩ := g
    obtain ⟨hk, hgs⟩ := not_or.mp (mt List.mem_cons.mpr h)
    rw [addToGroup, if_neg (Ne.symm hk), ih hgs]
    rfl

/-- In groups with different keys exactly the group of the key changes. -/
theorem addToGroup_of_mem (key : Text) (value : α) (values : Text → List α) {keys : List Text}
    (hn : keys.Nodup) (h : key ∈ keys) :
    addToGroup key value (keys.map fun k => (k, values k)) =
      keys.map fun k => (k, if k = key then values k ++ [value] else values k) := by
  induction keys with
  | nil => cases h
  | cons k ks ih =>
    obtain ⟨hk, hks⟩ := List.nodup_cons.mp hn
    rw [List.map_cons, List.map_cons, addToGroup]
    by_cases he : k = key
    · subst he
      have hrest : (ks.map fun l => (l, if l = k then values l ++ [value] else values l)) =
          ks.map fun l => (l, values l) := by
        refine List.map_congr_left fun l hl => ?_
        have hlk : l ≠ k := fun e => hk (e ▸ hl)
        rw [if_neg hlk]
      rw [if_pos rfl, if_pos rfl, hrest]
    · have hmem : key ∈ ks := (List.mem_cons.mp h).resolve_left (Ne.symm he)
      rw [if_neg he, if_neg he, ih hks hmem]

theorem valuesOf_append (key k : Text) (v : α) (pairs : List (Text × α)) :
    valuesOf key (pairs ++ [(k, v)]) =
      if key = k then valuesOf key pairs ++ [v] else valuesOf key pairs := by
  by_cases h : key = k
  · subst h
    simp [valuesOf]
  · simp [valuesOf, h, Ne.symm h]

theorem filter_key_of_not_mem {key : Text} {pairs : List (Text × α)}
    (h : key ∉ pairs.map (·.1)) : pairs.filter (·.1 = key) = [] := by
  refine List.filter_eq_nil_iff.mpr fun p hp e => h ?_
  exact List.mem_map.mpr ⟨p, hp, of_decide_eq_true e⟩

theorem valuesOf_of_not_mem {key : Text} {pairs : List (Text × α)}
    (h : key ∉ pairs.map (·.1)) : valuesOf key pairs = [] := by
  rw [valuesOf, filter_key_of_not_mem h]
  rfl

theorem eraseDups_concat (keys : List Text) (key : Text) :
    (keys ++ [key]).eraseDups =
      if key ∈ keys then keys.eraseDups else keys.eraseDups ++ [key] := by
  rw [List.eraseDups_append]
  by_cases h : key ∈ keys
  · simp [List.removeAll, h]
  · simp [List.removeAll, h, List.eraseDups_cons]

theorem nodup_eraseDups (keys : List Text) : keys.eraseDups.Nodup := by
  induction keys using List.reverseRecOn with
  | nil => exact List.nodup_nil
  | append_singleton keys key ih =>
    rw [eraseDups_concat]
    by_cases h : key ∈ keys
    · rwa [if_pos h]
    · have hnew : key ∉ keys.eraseDups := mt List.mem_eraseDups.mp h
      rw [if_neg h]
      rw [← List.concat_eq_append]
      exact ih.concat hnew

theorem groupByKey_concat (pairs : List (Text × α)) (p : Text × α) :
    groupByKey (pairs ++ [p]) = addToGroup p.1 p.2 (groupByKey pairs) := by
  rw [groupByKey, List.foldl_append]
  rfl

/-- The groups are the different keys, each with its values. -/
theorem groupByKey_eq (pairs : List (Text × α)) :
    groupByKey pairs = (pairs.map (·.1)).eraseDups.map fun k => (k, valuesOf k pairs) := by
  induction pairs using List.reverseRecOn with
  | nil => rfl
  | append_singleton pairs p ih =>
    obtain ⟨key, value⟩ := p
    rw [groupByKey_concat, ih, List.map_append, List.map_singleton, eraseDups_concat]
    by_cases h : key ∈ pairs.map (·.1)
    · rw [if_pos h, addToGroup_of_mem key value (valuesOf · pairs) (nodup_eraseDups _)
        (List.mem_eraseDups.mpr h)]
      refine List.map_congr_left fun k _ => ?_
      rw [valuesOf_append]
    · have hnew : key ∉ (pairs.map (·.1)).eraseDups := mt List.mem_eraseDups.mp h
      rw [if_neg h, addToGroup_of_not_mem key value (by simpa using hnew), List.map_append,
        List.map_singleton, valuesOf_append, if_pos rfl, valuesOf_of_not_mem h, List.nil_append]
      congr 1
      refine List.map_congr_left fun k hk => ?_
      have hkey : k ≠ key := fun e => hnew (e ▸ hk)
      rw [valuesOf_append, if_neg hkey]

/-- No group is empty. -/
theorem values_ne_nil_of_mem {pairs : List (Text × α)} {g : Text × List α}
    (h : g ∈ groupByKey pairs) : g.2 ≠ [] := by
  rw [groupByKey_eq] at h
  obtain ⟨k, hk, rfl⟩ := List.mem_map.mp h
  obtain ⟨p, hp, rfl⟩ := List.mem_map.mp (List.mem_eraseDups.mp hk)
  have hmem : p.2 ∈ valuesOf p.1 pairs :=
    List.mem_map.mpr ⟨p, List.mem_filter.mpr ⟨hp, by simp⟩, rfl⟩
  exact List.ne_nil_of_mem hmem

/-- The values of different keys that cover the pairs are the values of the pairs, but for their
order. -/
theorem flatMap_valuesOf_perm {keys : List Text} (hn : keys.Nodup) {pairs : List (Text × α)}
    (h : ∀ p ∈ pairs, p.1 ∈ keys) :
    (keys.flatMap fun k => valuesOf k pairs).Perm (pairs.map (·.2)) := by
  induction keys generalizing pairs with
  | nil =>
    obtain rfl : pairs = [] := List.eq_nil_iff_forall_not_mem.mpr fun p hp => by simpa using h p hp
    exact .nil
  | cons k ks ih =>
    obtain ⟨hk, hks⟩ := List.nodup_cons.mp hn
    have hcovered : ∀ p ∈ pairs.filter (fun p => !decide (p.1 = k)), p.1 ∈ ks := by
      intro p hp
      obtain ⟨hp, hne⟩ := List.mem_filter.mp hp
      exact (List.mem_cons.mp (h p hp)).resolve_left (by simpa using hne)
    have hothers : (ks.flatMap fun l => valuesOf l pairs) =
        ks.flatMap fun l => valuesOf l (pairs.filter fun p => !decide (p.1 = k)) := by
      refine List.flatMap_congr fun l hl => ?_
      have hlk : l ≠ k := fun e => hk (e ▸ hl)
      rw [valuesOf, valuesOf, List.filter_filter]
      congr 1
      refine List.filter_congr fun p _ => ?_
      by_cases hp : p.1 = l
      · simp [hp, hlk]
      · simp [hp]
    have hsplit := (List.filter_append_perm (fun p => decide (p.1 = k)) pairs).map (·.2)
    rw [List.map_append] at hsplit
    rw [List.flatMap_cons, hothers]
    exact ((ih hks hcovered).append_left _).trans hsplit

/-- The values of a key, with the key in front of each, are its pairs. -/
theorem map_valuesOf (key : Text) (pairs : List (Text × α)) :
    (valuesOf key pairs).map (key, ·) = pairs.filter (·.1 = key) := by
  rw [valuesOf, List.map_map]
  conv_rhs => rw [← List.map_id (pairs.filter (·.1 = key))]
  refine List.map_congr_left fun p hp => ?_
  have hk : p.1 = key := of_decide_eq_true (List.mem_filter.mp hp).2
  rw [← hk]
  rfl

/-- Grouping loses no pair and adds none. -/
theorem ungroup_groupByKey_perm (pairs : List (Text × α)) :
    (ungroup (groupByKey pairs)).Perm pairs := by
  have hpairs (k : Text) : valuesOf k (pairs.map fun p => (p.1, p)) = pairs.filter (·.1 = k) := by
    simp [valuesOf, List.filter_map, Function.comp_def]
  have hcovered : ∀ p ∈ pairs.map (fun p => (p.1, p)), p.1 ∈ (pairs.map (·.1)).eraseDups := by
    intro p hp
    obtain ⟨q, hq, rfl⟩ := List.mem_map.mp hp
    exact List.mem_eraseDups.mpr (List.mem_map_of_mem hq)
  have hperm := flatMap_valuesOf_perm (nodup_eraseDups (pairs.map (·.1))) hcovered
  rw [List.map_map, Function.comp_def, List.map_id'] at hperm
  rw [groupByKey_eq, ungroup, List.flatMap_map]
  simpa only [map_valuesOf, hpairs] using hperm

theorem addToGroup_map {β : Type} {f : Text → Text} (hf : Function.Injective f) (g : α → β)
    (key : Text) (value : α) (groups : List (Text × List α)) :
    addToGroup (f key) (g value) (groups.map fun q => (f q.1, q.2.map g)) =
      (addToGroup key value groups).map fun q => (f q.1, q.2.map g) := by
  induction groups with
  | nil => rfl
  | cons q qs ih =>
    obtain ⟨k, vs⟩ := q
    rw [List.map_cons, addToGroup, addToGroup]
    by_cases hk : k = key
    · rw [if_pos (congrArg f hk), if_pos hk, List.map_cons, List.map_append]
      rfl
    · rw [if_neg (hf.ne hk), if_neg hk, List.map_cons, ih]

/-- How pairs are grouped depends on nothing but which of their keys are equal. -/
theorem groupByKey_map {β : Type} {f : Text → Text} (hf : Function.Injective f) (g : α → β)
    (pairs : List (Text × α)) :
    groupByKey (pairs.map fun p => (f p.1, g p.2)) =
      (groupByKey pairs).map fun q => (f q.1, q.2.map g) := by
  induction pairs using List.reverseRecOn with
  | nil => rfl
  | append_singleton pairs p ih =>
    rw [List.map_append, List.map_singleton, groupByKey_concat, ih, groupByKey_concat]
    exact addToGroup_map hf g p.1 p.2 (groupByKey pairs)

/-! ### Runs of keys -/

theorem mem_keyRuns (key : Text) (keys : List Text) : key ∈ keyRuns keys ↔ key ∈ keys := by
  fun_induction keyRuns keys with
  | case1 => rfl
  | case2 k => rfl
  | case3 k rest ih =>
    rw [ih]
    simp
  | case4 k l rest h ih =>
    rw [List.mem_cons, ih, List.mem_cons (a := key) (b := k)]

theorem interleavesKeys_cons_self (key : Text) (keys : List Text) :
    interleavesKeys (key :: key :: keys) = interleavesKeys (key :: keys) := by
  rw [interleavesKeys, keyRuns, if_pos rfl]
  rfl

/-- A key that another one follows at once must not return. -/
theorem interleavesKeys_cons {key : Text} {keys : List Text} (h : keys.head? ≠ some key) :
    interleavesKeys (key :: keys) = (keys.contains key || interleavesKeys keys) := by
  have hruns : keyRuns (key :: keys) = key :: keyRuns keys := by
    cases keys with
    | nil => rfl
    | cons l rest =>
      have hl : key ≠ l := fun e => h (by rw [e]; rfl)
      rw [keyRuns, if_neg hl]
  rw [interleavesKeys, hruns, hasRepeat]
  have hcontains : (keyRuns keys).contains key = keys.contains key := by
    simp [mem_keyRuns]
  rw [hcontains]
  rfl

/-- The pairs of the keys other than the first one do not contain the first pair. -/
theorem flatMap_filter_cons (key : Text) (value : α) (pairs : List (Text × α)) (keys : List Text) :
    ((keys.filter (!· == key)).eraseDups.flatMap fun k =>
        ((key, value) :: pairs).filter (·.1 = k)) =
      (keys.filter (!· == key)).eraseDups.flatMap fun k => pairs.filter (·.1 = k) := by
  refine List.flatMap_congr fun k hk => ?_
  have hne := (List.mem_filter.mp (List.mem_eraseDups.mp hk)).2
  have hkey : key ≠ k := by
    rintro rfl
    simp at hne
  exact List.filter_cons_of_neg (by simpa using hkey)

/-- Without interleaving the pairs of each key stand together, in the order of the keys. -/
theorem flatMap_filter_of_not_interleaves {pairs : List (Text × α)}
    (h : interleavesKeys (pairs.map (·.1)) = false) :
    ((pairs.map (·.1)).eraseDups.flatMap fun k => pairs.filter (·.1 = k)) = pairs := by
  induction pairs with
  | nil => rfl
  | cons p ps ih =>
    obtain ⟨key, value⟩ := p
    have hnone (hk : key ∉ ps.map (·.1)) : ps.filter (·.1 = key) = [] := filter_key_of_not_mem hk
    rw [List.map_cons] at h
    generalize hkeys : ps.map (·.1) = keys at h ih hnone
    -- behind the first pair stand the others of its key, and then those of the other keys
    have hrest : ps.filter (·.1 = key) ++
        ((keys.filter (!· == key)).eraseDups.flatMap fun k => ps.filter (·.1 = k)) = ps := by
      by_cases hhead : keys.head? = some key
      · obtain ⟨keys, rfl⟩ : ∃ rest, keys = key :: rest := by
          cases keys with
          | nil => cases hhead
          | cons k rest => exact ⟨rest, by rw [Option.some.inj hhead]⟩
        rw [interleavesKeys_cons_self] at h
        have hps := ih h
        rw [List.eraseDups_cons, List.flatMap_cons] at hps
        rwa [List.filter_cons_of_neg (by simp)]
      · rw [interleavesKeys_cons hhead, Bool.or_eq_false_iff] at h
        obtain ⟨hnew, h⟩ := h
        have hkey : key ∉ keys := by simpa using hnew
        have hsame : keys.filter (!· == key) = keys := by
          refine List.filter_eq_self.mpr fun k hk => ?_
          have hne : k ≠ key := fun e => hkey (e ▸ hk)
          simpa using hne
        rw [hsame, hnone hkey, ih h]
        rfl
    rw [List.map_cons, hkeys, List.eraseDups_cons, List.flatMap_cons, flatMap_filter_cons,
      List.filter_cons_of_pos (by simp), List.cons_append, hrest]

/-- Reading the groups one after another gives the pairs back. -/
theorem ungroup_groupByKey {pairs : List (Text × α)}
    (h : interleavesKeys (pairs.map (·.1)) = false) : ungroup (groupByKey pairs) = pairs := by
  rw [groupByKey_eq, ungroup, List.flatMap_map]
  simp only [map_valuesOf]
  exact flatMap_filter_of_not_interleaves h

end HttpSnippet

import HttpSnippet.Proofs.Form.Urlencoded
import HttpSnippet.Proofs.Json.Numeral

/-!
# Objects as they are enumerated

An object is not enumerated in the order of its source: names that are array indices come first, in
ascending order, and `__proto__` is no property at all. A form that is written as an object is sent
in the order of its members only if their keys are in this order already.
-/
namespace HttpSnippet.Node

open Fragment

-- powers are those of the core library, also where another library has its own
attribute [local instance (high)] instPowNat

/-- The array index that a name is: a decimal numeral without leading zeros, below the greatest
length of an array. -/
def arrayIndex? (name : Text) : Option Nat :=
  let n := Json.digitsValue name
  if name = Text.ofNat n ∧ n < 2 ^ (32 : Nat) - 1 then some n else none

def isIndex (name : Text) : Bool := (arrayIndex? name).isSome

/-- The order of entries whose names are array indices. -/
def indexLE (e f : Text × List Text) : Bool :=
  (arrayIndex? e.1).getD 0 ≤ (arrayIndex? f.1).getD 0

/-- The name that sets the prototype of an object instead of a property. -/
def prototypeName : Text := "__proto__"

/-- The properties of an object literal in the order in which they are enumerated. The names of its
entries are taken to be different, so that no entry replaces another one. -/
def properties (entries : List (Text × List Text)) : List (Text × List Text) :=
  let own := entries.filter (·.1 ≠ prototypeName)
  let indexed := own.filter (isIndex ·.1)
  let named := own.filter (!isIndex ·.1)
  indexed.mergeSort indexLE ++ named

/-- The pairs that an object of a query stands for when it is enumerated. -/
def objectPairs? (source : Text) : Option (List (Text × Text)) := do
  let ts ← behind? "qs.stringify(\x7b" (← Dialect.javascript.tokens? source)
  let entries ← readEntries (marks "\x7d)") .start (← Dialect.javascript.symbols? ts)
  return ungroup (properties entries)

/-- The pairs of a list of pairs, which may be empty. -/
def listedPairs? (source : Text) : Option (List (Text × Text)) := do
  let ts ← behind? "new URLSearchParams([" (← Dialect.javascript.tokens? source)
  let symbols ← Dialect.javascript.symbols? ts
  if symbols = marks "]).toString()" then return []
  else readPairs (marks "]).toString()") symbols

/-- An array index stands behind array indices only, and behind none that is greater. -/
def Precedes (k l : Text) : Prop := ∀ n ∈ arrayIndex? l, ∃ m ∈ arrayIndex? k, m ≤ n

instance (k l : Text) : Decidable (Precedes k l) :=
  inferInstanceAs (Decidable (∀ n ∈ arrayIndex? l, ∃ m ∈ arrayIndex? k, m ≤ n))

/-- Every key is a property, and enumerating the properties keeps the keys where they are. -/
def EnumeratesInOrder (keys : List Text) : Prop :=
  prototypeName ∉ keys ∧ keys.Pairwise Precedes

instance (keys : List Text) : Decidable (EnumeratesInOrder keys) :=
  inferInstanceAs (Decidable (prototypeName ∉ keys ∧ keys.Pairwise Precedes))

/-! ### Names -/

/-- The names that are indices are the decimal texts of the numbers up to the largest index. -/
theorem arrayIndex?_eq_some_iff {name : Text} {n : Nat} :
    arrayIndex? name = some n ↔ name = Text.ofNat n ∧ n < 2 ^ (32 : Nat) - 1 := by
  simp only [arrayIndex?, Option.ite_none_right_eq_some, Option.some.injEq]
  constructor
  · rintro ⟨h, rfl⟩
    exact h
  · rintro ⟨rfl, hn⟩
    rw [Json.digitsValue_ofNat]
    exact ⟨⟨rfl, hn⟩, rfl⟩

theorem precedes_refl (k : Text) : Precedes k k := fun n hn => ⟨n, hn, le_rfl⟩

theorem precedes_of_not_isIndex (k : Text) {l : Text} (hl : isIndex l = false) : Precedes k l := by
  intro n hn
  rw [isIndex, Option.mem_def.mp hn] at hl
  cases hl

theorem Precedes.isIndex {k l : Text} (h : Precedes k l) (hl : isIndex l = true) :
    isIndex k = true := by
  obtain ⟨n, hn⟩ := Option.isSome_iff_exists.mp hl
  obtain ⟨m, hm, -⟩ := h n hn
  exact Option.isSome_iff_exists.mpr ⟨m, hm⟩

/-- Array indices precede each other by their values. -/
theorem precedes_iff_of_isIndex {k l : Text} (hk : isIndex k = true) (hl : isIndex l = true) :
    Precedes k l ↔ (arrayIndex? k).getD 0 ≤ (arrayIndex? l).getD 0 := by
  obtain ⟨m, hm⟩ := Option.isSome_iff_exists.mp hk
  obtain ⟨n, hn⟩ := Option.isSome_iff_exists.mp hl
  simp [Precedes, hm, hn]

/-! ### Properties -/

variable {entries : List (Text × List Text)}

/-- Properties are enumerated in order, whatever the order of the source is. -/
theorem pairwise_properties (entries : List (Text × List Text)) :
    (properties entries).Pairwise fun e f => Precedes e.1 f.1 := by
  unfold properties
  refine List.pairwise_append.mpr ⟨?_, ?_, ?_⟩
  · have htrans (a b c : Text × List Text) (hab : indexLE a b = true) (hbc : indexLE b c = true) :
        indexLE a c = true := by
      simp only [indexLE, decide_eq_true_eq] at *
      omega
    have htotal (a b : Text × List Text) : (indexLE a b || indexLE b a) = true := by
      simp only [indexLE, Bool.or_eq_true, decide_eq_true_eq]
      omega
    have hsorted := List.pairwise_mergeSort htrans htotal
      ((entries.filter (·.1 ≠ prototypeName)).filter (isIndex ·.1))
    refine hsorted.imp_of_mem fun {e f} he hf hle => ?_
    have he := (List.mem_filter.mp (List.mem_mergeSort.mp he)).2
    have hf := (List.mem_filter.mp (List.mem_mergeSort.mp hf)).2
    exact (precedes_iff_of_isIndex he hf).mpr (of_decide_eq_true hle)
  · refine List.pairwise_of_forall_mem_list fun e _ f hf => ?_
    exact precedes_of_not_isIndex _ (by simpa using (List.mem_filter.mp hf).2)
  · intro e _ f hf
    exact precedes_of_not_isIndex _ (by simpa using (List.mem_filter.mp hf).2)

theorem mem_of_mem_properties {e : Text × List Text} (h : e ∈ properties entries) :
    e ∈ entries ∧ e.1 ≠ prototypeName := by
  have hown : e ∈ entries.filter (·.1 ≠ prototypeName) := by
    rcases List.mem_append.mp h with h | h
    · exact (List.mem_filter.mp (List.mem_mergeSort.mp h)).1
    · exact (List.mem_filter.mp h).1
  simpa using hown

/-- What stands in front of the rest already stays there. -/
theorem filter_append_filter_not {α : Type} {p : α → Bool} {l : List α}
    (h : l.Pairwise fun a b => p b = true → p a = true) : l.filter p ++ l.filter (!p ·) = l := by
  induction l with
  | nil => rfl
  | cons a l ih =>
    obtain ⟨ha, hl⟩ := List.pairwise_cons.mp h
    by_cases hp : p a = true
    · rw [List.filter_cons_of_pos hp, List.filter_cons_of_neg (by simp [hp]), List.cons_append,
        ih hl]
    · have hnone : l.filter p = [] := List.filter_eq_nil_iff.mpr fun b hb hpb => hp (ha b hb hpb)
      have hall : l.filter (!p ·) = l :=
        List.filter_eq_self.mpr fun b hb => by simpa using fun hpb => hp (ha b hb hpb)
      rw [List.filter_cons_of_neg hp, List.filter_cons_of_pos (by simp [hp]), hnone, hall]
      rfl

/-- Entries in the order of enumeration are enumerated as they stand. -/
theorem properties_eq_self (hproto : ∀ e ∈ entries, e.1 ≠ prototypeName)
    (horder : entries.Pairwise fun e f => Precedes e.1 f.1) : properties entries = entries := by
  have hown : entries.filter (·.1 ≠ prototypeName) = entries :=
    List.filter_eq_self.mpr fun e he => by simpa using hproto e he
  have hsorted : (entries.filter (isIndex ·.1)).mergeSort indexLE =
      entries.filter (isIndex ·.1) := by
    refine List.mergeSort_of_pairwise ((horder.filter _).imp_of_mem fun {e f} he hf h => ?_)
    exact decide_eq_true ((precedes_iff_of_isIndex (List.mem_filter.mp he).2
      (List.mem_filter.mp hf).2).mp h)
  unfold properties
  simp only [hown, hsorted]
  exact filter_append_filter_not (horder.imp fun h hf => h.isIndex hf)

/-! ### Pairs -/

theorem map_fst_ungroup (groups : List (Text × List Text)) :
    (ungroup groups).map (·.1) = groups.flatMap fun g => List.replicate g.2.length g.1 := by
  rw [ungroup, List.map_flatMap]
  refine List.flatMap_congr fun g _ => ?_
  rw [List.map_map, List.eq_replicate_iff]
  simp

/-- Groups are in the order of enumeration exactly if the keys of their pairs are. -/
theorem pairwise_ungroup_iff {groups : List (Text × List Text)} (hv : ∀ g ∈ groups, g.2 ≠ []) :
    ((ungroup groups).map (·.1)).Pairwise Precedes ↔
      groups.Pairwise fun e f => Precedes e.1 f.1 := by
  rw [map_fst_ungroup, List.pairwise_flatMap]
  constructor
  · rintro ⟨-, h⟩
    refine h.imp_of_mem fun {e f} he hf h => ?_
    have hmem {g : Text × List Text} (hg : g ∈ groups) : g.1 ∈ List.replicate g.2.length g.1 :=
      List.mem_replicate.mpr ⟨by simpa using hv g hg, rfl⟩
    exact h _ (hmem he) _ (hmem hf)
  · intro h
    refine ⟨fun g _ => List.pairwise_replicate.mpr (.inr (precedes_refl _)), h.imp fun h => ?_⟩
    intro k hk l hl
    rw [List.eq_of_mem_replicate hk, List.eq_of_mem_replicate hl]
    exact h

/-- Enumerating an object gives the pairs of its entries exactly if their keys are in the order of
enumeration. -/
theorem ungroup_properties_iff {groups : List (Text × List Text)} (hv : ∀ g ∈ groups, g.2 ≠ []) :
    ungroup (properties groups) = ungroup groups ↔
      EnumeratesInOrder ((ungroup groups).map (·.1)) := by
  constructor
  · intro h
    have hproperties : ∀ g ∈ properties groups, g.2 ≠ [] :=
      fun g hg => hv g (mem_of_mem_properties hg).1
    rw [← h]
    refine ⟨?_, (pairwise_ungroup_iff hproperties).mpr (pairwise_properties groups)⟩
    rw [map_fst_ungroup, List.mem_flatMap]
    rintro ⟨g, hg, hmem⟩
    exact (mem_of_mem_properties hg).2 (List.eq_of_mem_replicate hmem).symm
  · rintro ⟨hproto, horder⟩
    rw [properties_eq_self ?_ ((pairwise_ungroup_iff hv).mp horder)]
    intro g hg hname
    rw [map_fst_ungroup, List.mem_flatMap] at hproto
    exact hproto ⟨g, hg, List.mem_replicate.mpr ⟨by simpa using hv g hg, hname.symm⟩⟩

/-! ### Sources -/

variable {indent : Text}

theorem objectPairs?_groupObject (hi : ∀ c ∈ indent, isSpacing c = true)
    {groups : List (Text × List Text)} (hv : ∀ g ∈ groups, g.2 ≠ []) :
    objectPairs? ((groupObject groups).render indent) = some (ungroup (properties groups)) := by
  have hplain := plain_groupObject groups
  obtain ⟨f, hf, hsymbols⟩ := symbols_groupObject groups
  rw [hf] at hplain ⊢
  have htokens := tokens?_render (unquoted_of_spacing hi) hplain.fits
  have hread : readEntries (marks "\x7d)") .start (symbols f) = some groups := by
    rw [hsymbols]
    exact readEntries_groups rfl rfl hv
  simp only [objectPairs?, htokens, tokens_cons, Piece.tokens, behind?_append,
    symbols?_tokens hi (plain_cons.mp hplain).2, hread, Option.bind_eq_bind, Option.bind_some]
  rfl

theorem listedPairs?_pairList (hi : ∀ c ∈ indent, isSpacing c = true) (pairs : List (Text × Text)) :
    listedPairs? ((pairList pairs).render indent) = some pairs := by
  have hplain := plain_pairList pairs
  obtain ⟨f, hf, hsymbols⟩ := symbols_pairList pairs
  rw [hf] at hplain ⊢
  have htokens := tokens?_render (unquoted_of_spacing hi) hplain.fits
  simp only [listedPairs?, htokens, tokens_cons, Piece.tokens, behind?_append,
    symbols?_tokens hi (plain_cons.mp hplain).2, hsymbols, Option.bind_eq_bind, Option.bind_some]
  cases pairs with
  | nil => rfl
  | cons p ps =>
    have hhead : (pairSymbols (p :: ps) ++ marks "]).toString()").head? = some (.mark '[') := by
      cases ps <;> rfl
    have hne : pairSymbols (p :: ps) ++ marks "]).toString()" ≠ marks "]).toString()" := by
      intro h
      rw [h] at hhead
      cases hhead
    rw [if_neg hne]
    exact readPairs_pairs (by rintro s ⟨⟩) p ps

/-- A form that is written as an object is sent as the list of its pairs would be exactly if its
keys are in the order in which properties are enumerated. -/
theorem objectPairs?_urlencodedBody_iff (hi : ∀ c ∈ indent, c = ' ' ∨ c = '\t') (trim : Bool)
    {params : List UrlencodedParam}
    (h : interleavesKeys ((urlencodedPairs trim params).map (·.1)) = false) :
    objectPairs? ((urlencodedBody trim params).render indent) =
        listedPairs? ((pairList (urlencodedPairs trim params)).render indent) ↔
      EnumeratesInOrder ((urlencodedPairs trim params).map (·.1)) := by
  have hspacing : ∀ c ∈ indent, isSpacing c = true := by
    intro c hc
    rcases hi c hc with rfl | rfl <;> rfl
  have hbody : urlencodedBody trim params =
      groupObject (groupByKey (urlencodedPairs trim params)) := by
    unfold urlencodedBody
    simp only [h, Bool.false_eq_true, if_false]
  rw [hbody, listedPairs?_pairList hspacing,
    objectPairs?_groupObject hspacing fun g => values_ne_nil_of_mem, Option.some.injEq]
  have hvalues : ∀ g ∈ groupByKey (urlencodedPairs trim params), g.2 ≠ [] :=
    fun g => values_ne_nil_of_mem
  have hproperties := ungroup_properties_iff hvalues
  rwa [ungroup_groupByKey h] at hproperties

/-- An array index behind another key is sent before it. -/
theorem objectPairs?_urlencodedBody_ne :
    let params : List UrlencodedParam :=
      [{ key := "b", value := "1" }, { key := "1", value := "2" }]
    let pairs := urlencodedPairs false params
    interleavesKeys (pairs.map (·.1)) = false ∧
      objectPairs? ((urlencodedBody false params).render "  ") =
        some [(['1'], ['2']), (['b'], ['1'])] ∧
      listedPairs? ((pairList pairs).render "  ") = some [(['b'], ['1']), (['1'], ['2'])] := by
  decide +kernel

theorem objectPairs?_urlencodedBody_of_indices :
    let params : List UrlencodedParam := [{ key := "7", value := "x" }, { key := "10" },
      { key := "10", value := "y" }, { key := "07" }, { key := "4294967295" }]
    let pairs := urlencodedPairs true params
    interleavesKeys (pairs.map (·.1)) = false ∧ EnumeratesInOrder (pairs.map (·.1)) ∧
      objectPairs? ((urlencodedBody true params).render "\t") =
        listedPairs? ((pairList pairs).render "\t") := by
  intro params pairs
  have h : interleavesKeys (pairs.map (·.1)) = false := by decide
  have horder : EnumeratesInOrder (pairs.map (·.1)) := by decide
  exact ⟨h, horder, (objectPairs?_urlencodedBody_iff (by simp) true h).mpr horder⟩

/-- The prototype is no property, so nothing is sent. -/
example : objectPairs? ((urlencodedBody false [{ key := "__proto__", value := "x" }]).render []) =
    some [] := by cbv

end HttpSnippet.Node

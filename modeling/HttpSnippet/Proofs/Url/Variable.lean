import Mathlib.Data.Nat.Find
import HttpSnippet.Proofs.Text.Blank
import HttpSnippet.Proofs.Url.Placeholder

/-!
# The placeholders of one variable

A mark that stands in no placeholder of a variable leaves the texts on both sides of it to be
replaced by themselves. What a replaced text tells about the text before: a mark that is not in the
name stays, a value is there as a whole, and an end that has stayed holds no end of a placeholder.
-/
namespace HttpSnippet.Url

variable {bound : List UrlVariable} {s t x v r name value : Text} {i : Nat}

/-! ### Marks between placeholders -/

theorem Occurs.mem_braced {c : Char} {k : Nat} (h : Occurs t i x)
    (hk : i ≤ k ∧ k < i + (braced x).length) (hc : t[k]? = some c) : c ∈ braced x := by
  obtain ⟨rest, hrest⟩ := h.here
  obtain ⟨k, rfl⟩ := Nat.exists_eq_add_of_le hk.1
  rw [← List.getElem?_drop, ← hrest, List.getElem?_append_left (by omega)] at hc
  exact List.mem_of_getElem? hc

theorem mem_of_mem_braced {c : Char} (hc : isBrace c = false) (h : c ∈ braced x) : c ∈ x := by
  have hopen : c ≠ '\x7b' := fun he => by simp [he, isBrace] at hc
  have hclose : c ≠ '\x7d' := fun he => by simp [he, isBrace] at hc
  simpa [braced, hopen, hclose] using h

/-- A mark that no placeholder with a value has in it leaves the texts around it apart. -/
theorem Replaced.mark {a b r' : Text} {mark : Char} (ha : Replaced bound a r)
    (hb : Replaced bound b r')
    (hmark : ∀ i x v, Filled bound (a ++ mark :: b) i x v → mark ∉ braced x) :
    Replaced bound (a ++ mark :: b) (r ++ mark :: r') := by
  have hbehind : Replaced bound (mark :: b) (mark :: r') := by
    refine Replaced.append (a := [mark]) (r := [mark]) (replaced_of_length_lt (by simp)) hb
      fun i x v h => ?_
    rcases Nat.eq_zero_or_pos i with rfl | hpos
    · have hmem : mark ∈ braced x := h.mem_braced (covers_start x 0) rfl
      exact absurd hmem (hmark _ x v (filled_append_left_iff.mpr h))
    · exact .inr hpos
  refine ha.append hbehind fun i x v h => ?_
  by_contra hcover
  have hmem : mark ∈ braced x := h.mem_braced (k := a.length) (by omega) (by simp)
  exact hmark i x v h hmem

/-- Pieces are replaced one by one if no placeholder with a value has their mark in it. -/
theorem Replaced.join {mark : Char} {f : Text → Text} {pieces : List Text}
    (h : ∀ piece ∈ pieces, Replaced bound piece (f piece))
    (hmark : ∀ i x v, Filled bound (Text.join [mark] pieces) i x v → mark ∉ braced x) :
    Replaced bound (Text.join [mark] pieces) (Text.join [mark] (pieces.map f)) := by
  induction pieces with
  | nil => exact replaced_nil
  | cons piece pieces ih =>
    obtain ⟨hpiece, hrest⟩ := List.forall_mem_cons.mp h
    cases pieces with
    | nil => simpa [Text.join] using hpiece
    | cons next pieces =>
      rw [List.map_cons, List.map_cons, Text.join_cons_cons, Text.join_cons_cons]
      rw [Text.join_cons_cons] at hmark
      refine hpiece.mark (ih hrest fun i x v hfilled => ?_) hmark
      refine hmark (piece.length + (1 + i)) x v (filled_append_left_iff.mpr ?_)
      exact filled_append_left_iff (s := [mark]).mpr hfilled

/-! ### One variable -/

/-- The text has a placeholder of the name that ends behind a position. White space around the name
does not count. -/
def Reaches (t : Text) (n : Nat) (name : Text) : Prop :=
  ∃ i x, Occurs t i x ∧ x.strip = name ∧ n < i + (braced x).length

instance (t : Text) (n : Nat) (name : Text) : Decidable (Reaches t n name) :=
  decidable_of_iff
    (∃ i ∈ List.range t.length, ∃ x ∈ placeholder? (t.drop i),
      x.strip = name ∧ n < i + (braced x).length) <| by
    refine exists_congr fun i => ⟨?_, ?_⟩
    · rintro ⟨-, x, hx, hrest⟩
      exact ⟨x, occurs_iff.mpr hx, hrest⟩
    · rintro ⟨x, hx, hrest⟩
      have hlength := hx.length_le
      rw [length_braced] at hlength
      exact ⟨List.mem_range.mpr (by omega), x, occurs_iff.mp hx, hrest⟩

theorem filled_singleton_iff :
    Filled [⟨name, value⟩] t i x v ↔ Occurs t i x ∧ x.strip = name ∧ v = value := by
  have hbinds (other : Text) : Binds [⟨name, value⟩] other v ↔ other = name ∧ v = value := by
    rw [binds_iff_mem (by simp), List.mem_singleton, UrlVariable.mk.injEq]
  constructor
  · exact fun h => ⟨h.toOccurs, (hbinds _).mp h.binds⟩
  · exact fun h => ⟨h.1, (hbinds _).mpr h.2⟩

theorem reaches_of_filled (h : Filled [⟨name, value⟩] t i x v) : Reaches t 0 name :=
  ⟨i, x, h.toOccurs, (filled_singleton_iff.mp h).2.1, by rw [length_braced]; omega⟩

/-- A mark in a placeholder of the name is in the name. -/
theorem mem_of_filled {c : Char} (hblank : Text.isBlank c = false) (hbrace : isBrace c = false)
    (h : Filled [⟨name, value⟩] t i x v) (hc : c ∈ braced x) : c ∈ name := by
  rw [← (filled_singleton_iff.mp h).2.1]
  exact Text.mem_strip hblank (mem_of_mem_braced hbrace hc)

theorem Reaches.append_right {n : Nat} (h : Reaches s n name) (t : Text) :
    Reaches (s ++ t) n name := by
  obtain ⟨i, x, hx, hrest⟩ := h
  exact ⟨i, x, hx.append_right t, hrest⟩

theorem Reaches.append_left {n : Nat} (h : Reaches t n name) (s : Text) :
    Reaches (s ++ t) (s.length + n) name := by
  obtain ⟨i, x, hx, hname, hend⟩ := h
  exact ⟨s.length + i, x, occurs_append_left_iff.mpr hx, hname, by omega⟩

theorem Reaches.subset {n : Nat} (h : Reaches t n name) : name ⊆ t := by
  obtain ⟨i, x, hx, rfl, -⟩ := h
  intro c hc
  have hbraced : c ∈ braced x := List.mem_append_right _
    (List.mem_append_left _ ((Text.isInfix_strip x).subset hc))
  exact List.mem_of_mem_drop (hx.here.subset hbraced)

theorem substitute_eq_self (h : ¬ Reaches t 0 name) : substitute [⟨name, value⟩] t = t :=
  (replaced_iff.mp (replaced_self fun _ _ _ hfilled => h (reaches_of_filled hfilled))).symm

theorem substitute_eq_self_of_mark {mark : Char} (hname : mark ∈ name) (ht : mark ∉ t) :
    substitute [⟨name, value⟩] t = t :=
  substitute_eq_self fun h => ht (h.subset hname)

/-- What stands for a position is a part of the result. -/
theorem Replaced.exists_part (h : Replaced bound t r) (hi : i < t.length) :
    ∃ p, Shows bound t i p ∧ p <:+: r := by
  obtain ⟨parts, hparts, rfl⟩ := h
  have hi' : i < parts.length := by simpa [← hparts.length_eq] using hi
  have hpart : Shows bound t i parts[i] := by simpa using hparts.get (by simpa using hi) hi'
  obtain ⟨front, back, hsplit⟩ := List.append_of_mem (List.getElem_mem hi')
  generalize parts[i] = p at hpart hsplit
  exact ⟨p, hpart, front.flatten, back.flatten, by simp [hsplit]⟩

/-- Nothing is in the result but what stands for a position. -/
theorem Replaced.exists_shows {c : Char} (h : Replaced bound t r) (hc : c ∈ r) :
    ∃ i p, Shows bound t i p ∧ c ∈ p := by
  obtain ⟨parts, hparts, rfl⟩ := h
  obtain ⟨p, hp, hcp⟩ := List.mem_flatten.mp hc
  obtain ⟨k, hk, rfl⟩ := List.getElem_of_mem hp
  exact ⟨_, _, hparts.get (hparts.length_eq ▸ hk) hk, hcp⟩

theorem mem_substitute {c : Char} (h : c ∈ substitute [⟨name, value⟩] t) : c ∈ t ∨ c ∈ value := by
  obtain ⟨i, p, hp, hc⟩ := (replaced_substitute _ t).exists_shows h
  cases hp with
  | value hfilled => exact .inr ((filled_singleton_iff.mp hfilled).2.2 ▸ hc)
  | inside _ _ _ => cases hc
  | plain hget _ => exact .inl (List.mem_singleton.mp hc ▸ List.mem_of_getElem? hget)

/-- A value is in the result as a whole. -/
theorem Replaced.length_le (h : Replaced [⟨name, value⟩] t r) (ht : Reaches t 0 name) :
    value.length ≤ r.length := by
  obtain ⟨i, x, hx, hname, -⟩ := ht
  have hfilled : Filled [⟨name, value⟩] t i x value := filled_singleton_iff.mpr ⟨hx, hname, rfl⟩
  obtain ⟨p, hp, hr⟩ := h.exists_part (Shows.value hfilled).lt_length
  rw [hp.unique (.value hfilled)] at hr
  exact hr.length_le

/-- A mark that is not in the name stays. -/
theorem Replaced.mem {c : Char} (h : Replaced [⟨name, value⟩] t r) (hc : c ∈ t)
    (hblank : Text.isBlank c = false) (hbrace : isBrace c = false) (hname : c ∉ name) : c ∈ r := by
  obtain ⟨k, hk, rfl⟩ := List.getElem_of_mem hc
  have hget : t[k]? = some t[k] := List.getElem?_eq_getElem hk
  obtain ⟨p, hp, hr⟩ := h.exists_part hk
  have hplain : ∀ j x v, Filled [⟨name, value⟩] t j x v →
      ¬ (j ≤ k ∧ k < j + (braced x).length) := fun j x v hfilled hcover =>
    hname (mem_of_filled hblank hbrace hfilled (hfilled.mem_braced hcover hget))
  rw [hp.unique (.plain hget hplain)] at hr
  exact hr.subset List.mem_cons_self

/-- A result without a mark is that of a text without it, if it has no room for the value whenever
the mark is in the name. -/
theorem Replaced.not_mem {mark : Char} (h : Replaced [⟨name, value⟩] t r) (hr : mark ∉ r)
    (hblank : Text.isBlank mark = false) (hbrace : isBrace mark = false)
    (hroom : mark ∈ name → r.length < value.length) : mark ∉ t := by
  intro hmem
  by_cases hname : mark ∈ name
  · by_cases ht : Reaches t 0 name
    · exact absurd (h.length_le ht) (not_le.mpr (hroom hname))
    · rw [replaced_iff.mp h, substitute_eq_self ht] at hr
      exact hr hmem
  · exact hr (h.mem hmem hblank hbrace hname)

/-- Behind the last placeholder the text stays as it is, and its value stands right in front. -/
theorem replaced_last {a b : Text} (hx : Filled bound (a ++ (braced x ++ b)) a.length x v)
    (hlast : ∀ j y w, Filled bound (a ++ (braced x ++ b)) j y w → j ≤ a.length) :
    Replaced bound (a ++ (braced x ++ b)) (substitute bound a ++ (v ++ b)) := by
  have hx' : Filled bound (braced x ++ b) 0 x v := filled_append_left_iff.mp hx
  have hself : Filled bound (braced x) 0 x v :=
    ⟨hx'.toOccurs.of_append (Nat.zero_add _).le, hx'.binds⟩
  have hstays : Replaced bound b b := by
    refine replaced_self fun j y w hy => ?_
    have hbehind := hlast (a.length + ((braced x).length + j)) y w
      (filled_append_left_iff.mpr (filled_append_left_iff.mpr hy))
    rw [length_braced] at hbehind
    omega
  refine (replaced_substitute bound a).append ?_ fun j y w hy => ?_
  · refine (replaced_braced hself).append hstays fun j y w hy => ?_
    rcases Nat.eq_zero_or_pos j with rfl | hpos
    · obtain rfl := hx'.toOccurs.unique hy.toOccurs
      exact .inl (Nat.zero_add _).le
    · have hend := hx'.add_length_le hy.toOccurs hpos
      exact .inr (by omega)
  · rcases Nat.lt_or_ge j a.length with hlt | hge
    · exact .inl (hy.add_length_le hx.toOccurs hlt)
    · exact .inr hge

theorem Occurs.exists_append (h : Occurs t i x) :
    ∃ a b, t = a ++ (braced x ++ b) ∧ a.length = i := by
  obtain ⟨rest, hrest⟩ := h.here
  have hle := h.length_le
  refine ⟨t.take i, rest, by rw [hrest, List.take_append_drop], ?_⟩
  rw [List.length_take]
  omega

open Classical in
/-- Of the placeholders that have a value one is the last. -/
theorem Filled.exists_last (h : Filled bound t i x v) :
    ∃ j y w, Filled bound t j y w ∧ i + (braced x).length ≤ j + (braced y).length ∧
      ∀ k z u, Filled bound t k z u → k ≤ j := by
  let begins (j : Nat) : Prop := ∃ y w, Filled bound t j y w
  have hbound {k z u} (hz : Filled bound t k z u) : k ≤ t.length := (Shows.value hz).lt_length.le
  obtain ⟨y, w, hy⟩ : begins (Nat.findGreatest begins t.length) :=
    Nat.findGreatest_spec (P := begins) (hbound h) ⟨x, v, h⟩
  have hlast (k z u) (hz : Filled bound t k z u) : k ≤ Nat.findGreatest begins t.length :=
    Nat.le_findGreatest (hbound hz) ⟨z, u, hz⟩
  refine ⟨_, y, w, hy, ?_, hlast⟩
  rcases (hlast i x v h).lt_or_eq with hlt | heq
  · exact (h.add_length_le hy.toOccurs hlt).trans (Nat.le_add_right _ _)
  · obtain rfl := h.toOccurs.unique (heq ▸ hy.toOccurs)
    exact heq ▸ le_rfl

/-- If the result keeps the end of the text, no placeholder of the name reaches into it. -/
theorem Replaced.not_reaches {front back whole : Text} (hwhole : whole = front ++ back)
    (h : Replaced [⟨name, value⟩] whole (r ++ back)) (hne : value ≠ [])
    (hplain : ∀ c ∈ value, isBrace c = false) : ¬ Reaches whole front.length name := by
  rintro ⟨i, x, hx, hname, hend⟩
  obtain ⟨j, y, w, hy, hij, hlast⟩ :=
    (filled_singleton_iff.mpr ⟨hx, hname, rfl⟩ : Filled [⟨name, value⟩] whole i x value).exists_last
  obtain rfl := (filled_singleton_iff.mp hy).2.2
  obtain ⟨a, b, hsplit, rfl⟩ := hy.exists_append
  have hresult : r ++ back = substitute [⟨name, w⟩] a ++ (w ++ b) := by
    subst hsplit
    exact h.unique (replaced_last hy hlast)
  have hcount := congrArg List.length (hwhole.symm.trans hsplit)
  simp only [List.length_append] at hcount
  have hb : b <:+ whole := ⟨a ++ braced y, by rw [hsplit, List.append_assoc]⟩
  have hback : back <:+ whole := ⟨front, hwhole.symm⟩
  have hsuffix : b <:+ back := List.suffix_of_suffix_length_le hb hback (by omega)
  obtain ⟨z, rfl⟩ := hsuffix
  have hz : z ≠ [] := by
    rintro rfl
    simp only [List.length_append, List.length_nil] at hcount
    omega
  -- the end of the last placeholder and the end of its value are at the same place
  have hbrace : front ++ z = a ++ braced y := by
    apply (List.append_left_inj b).mp
    rw [List.append_assoc, List.append_assoc, ← hwhole, hsplit]
  have hvalue : r ++ z = substitute [⟨name, w⟩] a ++ w := by
    apply (List.append_left_inj b).mp
    rw [List.append_assoc, List.append_assoc, hresult]
  have hlastw : w.getLast? = some '\x7d' := by
    have hend := congrArg List.getLast? hbrace
    rw [List.getLast?_append_of_ne_nil _ hz, braced, ← List.append_assoc, ← List.append_assoc,
      List.getLast?_append_of_ne_nil _ (by simp)] at hend
    have hend' := congrArg List.getLast? hvalue
    rw [List.getLast?_append_of_ne_nil _ hz, List.getLast?_append_of_ne_nil _ hne] at hend'
    exact hend'.symm.trans hend
  cases hplain _ (List.mem_of_getLast? hlastw)

end HttpSnippet.Url

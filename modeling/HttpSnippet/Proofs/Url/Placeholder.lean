import Mathlib.Data.List.Forall2
import HttpSnippet.Proofs.Normal.Idempotence
import HttpSnippet.Proofs.Text.Separator

/-!
# Placeholders

A placeholder is a name in two pairs of braces, anywhere in a text. No two of them share a
character, so it can be said position by position what a text becomes when the placeholders of bound
names give way to their values. Substitution scans a text from the left, and comes to just that.
-/
namespace HttpSnippet.Url

/-- A text in two pairs of braces. -/
def braced (x : Text) : Text := "\x7b\x7b" ++ (x ++ "\x7d\x7d")

theorem braced_append (x rest : Text) :
    braced x ++ rest = '\x7b' :: '\x7b' :: (x ++ '\x7d' :: '\x7d' :: rest) := by
  simp [braced]

theorem length_braced (x : Text) : (braced x).length = x.length + 4 := by
  simp [braced]

theorem covers_start (x : Text) (i : Nat) : i ≤ i ∧ i < i + (braced x).length := by
  rw [length_braced]
  omega

/-- A placeholder stands at a position of the text. What is in its braces is not empty and holds no
brace. -/
structure Occurs (t : Text) (i : Nat) (x : Text) : Prop where
  ne : x ≠ []
  plain : ∀ c ∈ x, isBrace c = false
  here : braced x <+: t.drop i

variable {bound : List UrlVariable} {s t x y v : Text} {i j : Nat}

theorem placeholder?_eq_some_iff : placeholder? t = some x ↔ Occurs t 0 x := by
  constructor
  · intro h
    unfold placeholder? at h
    split at h
    · next rest =>
      have hjoin : rest.takeWhile (!isBrace ·) ++ rest.dropWhile (!isBrace ·) = rest :=
        List.takeWhile_append_dropWhile
      have hplain : ∀ c ∈ rest.takeWhile (!isBrace ·), isBrace c = false := by
        intro c hc
        simpa using List.mem_takeWhile_imp hc
      split at h
      · cases h
      · next tail htail hne =>
        obtain rfl := Option.some.inj h
        rw [htail] at hjoin
        exact ⟨hne, hplain, tail, by rw [braced_append, hjoin]; rfl⟩
      · cases h
    · cases h
  · intro h
    obtain ⟨rest, hrest⟩ := h.here
    have hx : ∀ c ∈ x, (!isBrace c) = true := by
      intro c hc
      simpa using h.plain c hc
    have htake : (x ++ '\x7d' :: '\x7d' :: rest).takeWhile (!isBrace ·) = x := by
      rw [List.takeWhile_append_of_pos hx, List.takeWhile_cons_of_neg (by decide), List.append_nil]
    have hdrop : (x ++ '\x7d' :: '\x7d' :: rest).dropWhile (!isBrace ·) =
        '\x7d' :: '\x7d' :: rest := by
      rw [List.dropWhile_append_of_pos hx, List.dropWhile_cons_of_neg (by decide)]
    rw [braced_append, List.drop_zero] at hrest
    obtain ⟨c, x', rfl⟩ := List.exists_cons_of_ne_nil h.ne
    rw [← hrest, placeholder?, htake, hdrop]
    rfl

theorem occurs_iff : Occurs t i x ↔ placeholder? (t.drop i) = some x := by
  rw [placeholder?_eq_some_iff]
  exact ⟨fun h => ⟨h.ne, h.plain, h.here⟩, fun h => ⟨h.ne, h.plain, h.here⟩⟩

instance (t : Text) (i : Nat) (x : Text) : Decidable (Occurs t i x) :=
  decidable_of_iff _ occurs_iff.symm

theorem Occurs.unique (hx : Occurs t i x) (hy : Occurs t i y) : x = y :=
  Option.some.inj ((occurs_iff.mp hx).symm.trans (occurs_iff.mp hy))

theorem occurs_append_left_iff : Occurs (s ++ t) (s.length + i) x ↔ Occurs t i x := by
  have hdrop : (s ++ t).drop (s.length + i) = t.drop i := by simp
  constructor
  · exact fun h => ⟨h.ne, h.plain, hdrop ▸ h.here⟩
  · exact fun h => ⟨h.ne, h.plain, hdrop ▸ h.here⟩

theorem Occurs.append_right (h : Occurs s i x) (t : Text) : Occurs (s ++ t) i x := by
  refine ⟨h.ne, h.plain, h.here.trans ?_⟩
  rw [List.drop_append]
  exact List.prefix_append _ _

theorem Occurs.length_le (h : Occurs t i x) : i + (braced x).length ≤ t.length := by
  have hle := h.here.length_le
  rw [length_braced, List.length_drop] at hle
  rw [length_braced]
  omega

theorem Occurs.of_append (h : Occurs (s ++ t) i x) (hle : i + (braced x).length ≤ s.length) :
    Occurs s i x := by
  refine ⟨h.ne, h.plain, List.prefix_of_prefix_length_le h.here ?_ ?_⟩
  · rw [List.drop_append]
    exact List.prefix_append _ _
  · rw [List.length_drop]
    omega

/-- No placeholder begins inside another. -/
theorem Occurs.add_length_le (hx : Occurs t i x) (hy : Occurs t j y) (hij : i < j) :
    i + (braced x).length ≤ j := by
  by_contra hlt
  obtain ⟨k, rfl⟩ := Nat.exists_eq_add_of_lt hij
  obtain ⟨rest, hrest⟩ := hx.here
  obtain ⟨c, x', rfl⟩ := List.exists_cons_of_ne_nil hx.ne
  have hyhere := hy.here
  rw [Nat.add_assoc, ← List.drop_drop, ← hrest, braced_append, List.drop_succ_cons] at hyhere
  obtain ⟨after, hafter⟩ := hyhere
  rw [braced_append] at hafter
  rw [length_braced] at hlt
  cases k with
  | zero =>
    obtain ⟨-, hsecond⟩ := List.cons.inj hafter
    obtain ⟨hc, -⟩ := List.cons.inj hsecond
    have hplain := hx.plain c List.mem_cons_self
    rw [← hc] at hplain
    cases hplain
  | succ k =>
    have hopen : (c :: x' ++ '\x7d' :: '\x7d' :: rest)[k]? = some '\x7b' := by
      rw [List.drop_succ_cons] at hafter
      rw [← List.head?_drop, ← hafter]
      rfl
    have hjoin : c :: x' ++ '\x7d' :: '\x7d' :: rest = (c :: x' ++ ['\x7d', '\x7d']) ++ rest := by
      simp
    have hwithin : k < (c :: x' ++ ['\x7d', '\x7d']).length := by
      rw [List.length_append]
      simp only [List.length_cons, List.length_nil] at hlt ⊢
      omega
    rw [hjoin, List.getElem?_append_left hwithin] at hopen
    rcases List.mem_append.mp (List.mem_of_getElem? hopen) with hmem | hmem
    · cases hx.plain _ hmem
    · simp at hmem

/-! ### Bindings -/

/-- The last variable of a name gives it its value. -/
def Binds (bound : List UrlVariable) (name value : Text) : Prop :=
  ∃ before after, bound = before ++ ⟨name, value⟩ :: after ∧ ∀ other ∈ after, other.key ≠ name

theorem lookup_eq_some_iff {name value : Text} :
    lookup bound name = some value ↔ Binds bound name value := by
  unfold lookup
  rw [Option.map_eq_some_iff]
  constructor
  · rintro ⟨⟨key, value⟩, hfind, rfl⟩
    obtain ⟨hkey, after, before, hbound, hafter⟩ := List.find?_eq_some_iff_append.mp hfind
    obtain rfl : key = name := by simpa using hkey
    refine ⟨before.reverse, after.reverse, ?_, fun other hother => ?_⟩
    · have := congrArg List.reverse hbound
      simpa using this
    · simpa using hafter other (List.mem_reverse.mp hother)
  · rintro ⟨before, after, rfl, hafter⟩
    refine ⟨⟨name, value⟩, List.find?_eq_some_iff_append.mpr ⟨by simp, after.reverse,
      before.reverse, by simp, fun other hother => ?_⟩, rfl⟩
    simpa using hafter other (List.mem_reverse.mp hother)

theorem Binds.unique {name v w : Text} (hv : Binds bound name v) (hw : Binds bound name w) :
    v = w :=
  Option.some.inj ((lookup_eq_some_iff.mpr hv).symm.trans (lookup_eq_some_iff.mpr hw))

/-! ### Replacing at once -/

/-- A placeholder whose name, without white space around it, has a value. -/
structure Filled (bound : List UrlVariable) (t : Text) (i : Nat) (x v : Text) : Prop
    extends Occurs t i x where
  binds : Binds bound x.strip v

/-- What stands for one position of a text: a value for the first character of a placeholder that
has one, nothing for its other characters, and any other character for itself. -/
inductive Shows (bound : List UrlVariable) (t : Text) (i : Nat) : Text → Prop
  | value {x v : Text} (h : Filled bound t i x v) : Shows bound t i v
  | inside {j : Nat} {x v : Text} (h : Filled bound t j x v) (hbegin : j < i)
      (hend : i < j + (braced x).length) : Shows bound t i []
  | plain {c : Char} (hc : t[i]? = some c)
      (h : ∀ j x v, Filled bound t j x v → ¬ (j ≤ i ∧ i < j + (braced x).length)) :
      Shows bound t i [c]

/-- Every position of the text is shown, and nothing else. -/
def Replaced (bound : List UrlVariable) (t r : Text) : Prop :=
  ∃ parts : List Text, List.Forall₂ (Shows bound t) (List.range t.length) parts ∧
    r = parts.flatten

theorem Filled.eq_of_covers {w : Text} {k : Nat} (hx : Filled bound t i x v)
    (hy : Filled bound t j y w) (hik : i ≤ k ∧ k < i + (braced x).length)
    (hjk : j ≤ k ∧ k < j + (braced y).length) : i = j ∧ v = w := by
  rcases Nat.lt_trichotomy i j with hlt | rfl | hlt
  · have := hx.add_length_le hy.toOccurs hlt
    omega
  · obtain rfl := hx.toOccurs.unique hy.toOccurs
    exact ⟨rfl, hx.binds.unique hy.binds⟩
  · have := hy.add_length_le hx.toOccurs hlt
    omega

/-- Placeholders are apart, so each position is shown in one way. -/
theorem Shows.unique {p q : Text} (hp : Shows bound t i p) (hq : Shows bound t i q) : p = q := by
  cases hp with
  | value h =>
    cases hq with
    | value h' => exact (h.eq_of_covers h' (covers_start _ i) (covers_start _ i)).2
    | inside h' hbegin hend =>
      have := (h.eq_of_covers h' (covers_start _ i) ⟨hbegin.le, hend⟩).1
      omega
    | plain _ hno => exact absurd (covers_start _ i) (hno _ _ _ h)
  | inside h hbegin hend =>
    cases hq with
    | value h' =>
      have := (h.eq_of_covers h' ⟨hbegin.le, hend⟩ (covers_start _ i)).1
      omega
    | inside _ _ _ => rfl
    | plain _ hno => exact absurd ⟨hbegin.le, hend⟩ (hno _ _ _ h)
  | plain hc hno =>
    cases hq with
    | value h' => exact absurd (covers_start _ i) (hno _ _ _ h')
    | inside h' hbegin hend => exact absurd ⟨hbegin.le, hend⟩ (hno _ _ _ h')
    | plain hc' _ => rw [Option.some.inj (hc.symm.trans hc')]

theorem Replaced.unique {r r' : Text} (h : Replaced bound t r) (h' : Replaced bound t r') :
    r = r' := by
  obtain ⟨parts, hparts, rfl⟩ := h
  obtain ⟨parts', hparts', rfl⟩ := h'
  have hright : Relator.RightUnique (Shows bound t) := fun _ _ _ hp hq => hp.unique hq
  rw [List.right_unique_forall₂' hright hparts hparts']

theorem Shows.lt_length {p : Text} (h : Shows bound t i p) : i < t.length := by
  cases h with
  | @value x _ h =>
    have hle := h.length_le
    have hcover := covers_start x i
    omega
  | inside h _ hend =>
    have hle := h.length_le
    omega
  | plain hc _ => exact (List.getElem?_eq_some_iff.mp hc).1

theorem filled_append_left_iff :
    Filled bound (s ++ t) (s.length + i) x v ↔ Filled bound t i x v :=
  ⟨fun h => ⟨occurs_append_left_iff.mp h.toOccurs, h.binds⟩,
    fun h => ⟨occurs_append_left_iff.mpr h.toOccurs, h.binds⟩⟩

/-- Two texts are replaced one after the other if no placeholder with a value reaches from one into
the other. -/
theorem Replaced.append {a b r r' : Text} (ha : Replaced bound a r) (hb : Replaced bound b r')
    (hcut : ∀ i x v, Filled bound (a ++ b) i x v →
      i + (braced x).length ≤ a.length ∨ a.length ≤ i) :
    Replaced bound (a ++ b) (r ++ r') := by
  obtain ⟨parts, hparts, rfl⟩ := ha
  obtain ⟨parts', hparts', rfl⟩ := hb
  refine ⟨parts ++ parts', ?_, by rw [List.flatten_append]⟩
  rw [List.length_append, List.range_add]
  refine List.rel_append ?_ ?_
  · refine hparts.imp fun i p hp => ?_
    have hi := hp.lt_length
    cases hp with
    | value h => exact .value ⟨h.toOccurs.append_right b, h.binds⟩
    | inside h hbegin hend => exact .inside ⟨h.toOccurs.append_right b, h.binds⟩ hbegin hend
    | plain hc hno =>
      refine .plain (by rwa [List.getElem?_append_left hi]) fun j x v h hcover => ?_
      rcases hcut j x v h with hle | hle
      · exact hno j x v ⟨h.toOccurs.of_append hle, h.binds⟩ hcover
      · omega
  · rw [List.forall₂_map_left_iff]
    refine hparts'.imp fun i p hp => ?_
    cases hp with
    | value h => exact .value (filled_append_left_iff.mpr h)
    | inside h hbegin hend =>
      exact .inside (filled_append_left_iff.mpr h) (by omega) (by omega)
    | plain hc hno =>
      refine .plain ?_ fun j x v h hcover => ?_
      · rwa [List.getElem?_append_right (Nat.le_add_right _ _), Nat.add_sub_cancel_left]
      rcases hcut j x v h with hle | hle
      · omega
      · obtain ⟨j, rfl⟩ := Nat.exists_eq_add_of_le hle
        exact hno j x v (filled_append_left_iff.mp h) (by omega)

/-! ### Substitution -/

theorem replaced_nil : Replaced bound [] [] := ⟨[], .nil, rfl⟩

/-- A text without placeholders that have values stays as it is. -/
theorem replaced_self (h : ∀ i x v, ¬ Filled bound t i x v) : Replaced bound t t := by
  refine ⟨t.map fun c => [c], ?_, by rw [← List.flatMap_def, List.flatMap_singleton']⟩
  rw [List.forall₂_map_right_iff, List.forall₂_iff_get]
  refine ⟨by simp, fun i hi ht => ?_⟩
  refine .plain ?_ fun j x v hfilled => absurd hfilled (h j x v)
  simp

theorem replaced_of_length_lt (h : t.length < 4) : Replaced bound t t :=
  replaced_self fun i x v hfilled => by
    have hlength := hfilled.length_le
    rw [length_braced] at hlength
    omega

theorem Occurs.eq_of_braced (h : Occurs (braced x) i y) (hx : Occurs (braced x) 0 x) :
    i = 0 ∧ y = x := by
  rcases Nat.eq_zero_or_pos i with rfl | hpos
  · exact ⟨rfl, h.unique hx⟩
  · have hend := hx.add_length_le h hpos
    have hlength := h.length_le
    rw [length_braced y] at hlength
    omega

/-- A placeholder by itself is replaced by its value. -/
theorem replaced_braced (h : Filled bound (braced x) 0 x v) : Replaced bound (braced x) v := by
  have hlength : (braced x).length = (x.length + 3) + 1 := length_braced x
  refine ⟨v :: List.replicate (x.length + 3) [], ?_, by simp⟩
  rw [hlength, List.range_succ_eq_map]
  refine .cons (.value h) ?_
  rw [List.forall₂_map_left_iff, List.forall₂_iff_get]
  refine ⟨by simp, fun i hi _ => ?_⟩
  have hi' : i < x.length + 3 := by simpa using hi
  simpa using Shows.inside h (Nat.succ_pos i) (by omega)

theorem substituteFrom_skip (value? : Text → Option Text) (skip : Nat) (t : Text) :
    substituteFrom value? skip t = substituteFrom value? 0 (t.drop skip) := by
  induction skip generalizing t with
  | zero => rfl
  | succ skip ih =>
    cases t with
    | nil => simp [substituteFrom]
    | cons c t => rw [substituteFrom, ih, List.drop_succ_cons]

theorem substitute_braced (hx : Occurs (braced x ++ t) 0 x) :
    substitute bound (braced x ++ t) =
      (lookup bound x.strip).getD (braced x) ++ substitute bound t := by
  have hsome := placeholder?_eq_some_iff.mpr hx
  unfold substitute
  have hcons : braced x ++ t = '\x7b' :: ('\x7b' :: (x ++ '\x7d' :: '\x7d' :: t)) :=
    braced_append x t
  have htake : (braced x ++ t).take (x.length + 4) = braced x := by
    rw [← length_braced, List.take_left]
  have hdrop : ('\x7b' :: (x ++ '\x7d' :: '\x7d' :: t)).drop (x.length + 4 - 1) = t := by
    simp
  rw [hcons] at hsome htake ⊢
  rw [substituteFrom, hsome]
  dsimp only
  rw [htake, substituteFrom_skip, hdrop]

theorem substitute_cons {c : Char} (h : ∀ x, ¬ Occurs (c :: t) 0 x) :
    substitute bound (c :: t) = c :: substitute bound t := by
  have hnone : placeholder? (c :: t) = none :=
    Option.eq_none_iff_forall_not_mem.mpr fun x hx => h x (placeholder?_eq_some_iff.mp hx)
  rw [substitute, substituteFrom, hnone]
  rfl

/-- A text begins with a placeholder or with another character. -/
theorem placeholder_induction {motive : Text → Prop} (nil : motive [])
    (hit : ∀ x t, Occurs (braced x ++ t) 0 x → motive t → motive (braced x ++ t))
    (skip : ∀ c t, (∀ x, ¬ Occurs (c :: t) 0 x) → motive t → motive (c :: t)) (t : Text) :
    motive t := by
  induction hn : t.length using Nat.strong_induction_on generalizing t with
  | _ n ih =>
    cases t with
    | nil => exact nil
    | cons c t =>
      by_cases h : ∃ x, Occurs (c :: t) 0 x
      · obtain ⟨x, hx⟩ := h
        obtain ⟨rest, hrest⟩ := hx.here
        rw [List.drop_zero] at hrest
        rw [← hrest] at hx hn ⊢
        refine hit x rest hx (ih rest.length ?_ rest rfl)
        rw [← hn, List.length_append, length_braced]
        omega
      · refine skip c t (fun x hx => h ⟨x, hx⟩) (ih t.length ?_ t rfl)
        rw [← hn]
        exact Nat.lt_succ_self _

/-- Substitution replaces every placeholder that has a value. -/
theorem replaced_substitute (bound : List UrlVariable) (t : Text) :
    Replaced bound t (substitute bound t) := by
  induction t using placeholder_induction with
  | nil => exact replaced_nil
  | hit x t hx ih =>
    rw [substitute_braced hx]
    have hx' : Occurs (braced x) 0 x := hx.of_append (Nat.zero_add _).le
    refine Replaced.append ?_ ih fun i y v h => ?_
    · cases hvalue : lookup bound x.strip with
      | some v => exact replaced_braced ⟨hx', lookup_eq_some_iff.mp hvalue⟩
      | none =>
        refine replaced_self fun i y v h => ?_
        obtain ⟨-, rfl⟩ := h.toOccurs.eq_of_braced hx'
        rw [lookup_eq_some_iff.mpr h.binds] at hvalue
        cases hvalue
    · rcases Nat.eq_zero_or_pos i with rfl | hpos
      · obtain rfl := hx.unique h.toOccurs
        exact .inl (Nat.zero_add _).le
      · have hend := hx.add_length_le h.toOccurs hpos
        exact .inr (by omega)
  | skip c t hc ih =>
    rw [substitute_cons hc]
    refine Replaced.append (a := [c]) (r := [c]) (replaced_of_length_lt (by simp)) ih
      fun i y v h => ?_
    rcases Nat.eq_zero_or_pos i with rfl | hpos
    · exact absurd h.toOccurs (hc y)
    · exact .inr hpos

theorem replaced_iff {r : Text} : Replaced bound t r ↔ r = substitute bound t := by
  constructor
  · exact fun h => h.unique (replaced_substitute bound t)
  · rintro rfl
    exact replaced_substitute bound t

/-! ### Which bindings count -/

theorem substitute_congr {others : List UrlVariable}
    (h : ∀ i x, Occurs t i x → lookup bound x.strip = lookup others x.strip) :
    substitute bound t = substitute others t := by
  induction t using placeholder_induction with
  | nil => rfl
  | hit x t hx ih =>
    rw [substitute_braced hx, substitute_braced hx, h 0 x hx,
      ih fun i y hy => h _ y (occurs_append_left_iff.mpr hy)]
  | skip c t hc ih =>
    rw [substitute_cons hc, substitute_cons hc,
      ih fun i y hy => h _ y (occurs_append_left_iff (s := [c]).mpr hy)]

/-- With keys that are all different every variable gives its name its value. -/
theorem binds_iff_mem (h : (bound.map (·.key)).Nodup) {name value : Text} :
    Binds bound name value ↔ ⟨name, value⟩ ∈ bound := by
  constructor
  · rintro ⟨before, after, rfl, -⟩
    simp
  · intro hmem
    obtain ⟨before, after, rfl⟩ := List.append_of_mem hmem
    refine ⟨before, after, rfl, fun other hother hkey => ?_⟩
    rw [List.map_append, List.map_cons, List.nodup_append] at h
    exact (List.nodup_cons.mp h.2.1).1 (List.mem_map.mpr ⟨other, hother, hkey⟩)

theorem lookup_perm {others : List UrlVariable} (hperm : others.Perm bound)
    (h : (bound.map (·.key)).Nodup) (name : Text) : lookup others name = lookup bound name := by
  have hothers : (others.map (·.key)).Nodup := (hperm.map _).nodup_iff.mpr h
  refine Option.ext fun value => ?_
  rw [lookup_eq_some_iff, lookup_eq_some_iff, binds_iff_mem hothers, binds_iff_mem h,
    hperm.mem_iff]

theorem lookup_insert {before more after : List UrlVariable} {name : Text}
    (h : ∀ other ∈ more, other.key ≠ name) :
    lookup (before ++ more ++ after) name = lookup (before ++ after) name := by
  have hmore : more.reverse.find? (·.key = name) = none :=
    List.find?_eq_none.mpr fun other hother => by simpa using h other (List.mem_reverse.mp hother)
  simp only [lookup, List.reverse_append, List.find?_append, hmore, Option.none_or]

/-! ### Whole URLs -/

/-- What a path segment becomes: the value of the name that it stands for as a whole, else itself
with its placeholders replaced. -/
inductive ShowsSegment (bound : List UrlVariable) (segment : Text) : Text → Prop
  | named {name value : Text} (hname : segment = ':' :: name) (h : Binds bound name value) :
      ShowsSegment bound segment value
  | replaced {r : Text} (hname : ∀ name value, segment = ':' :: name → ¬ Binds bound name value)
      (h : Replaced bound segment r) : ShowsSegment bound segment r

theorem segmentName?_eq_some_iff {segment name : Text} :
    segmentName? segment = some name ↔ segment = ':' :: name := by
  unfold segmentName?
  split
  · simp
  · next hne =>
    constructor
    · intro h
      cases h
    · intro h
      exact absurd h (hne name)

theorem showsSegment_iff {segment r : Text} :
    ShowsSegment bound segment r ↔ r = resolvePathSegment bound segment := by
  unfold resolvePathSegment
  cases hvalue : (segmentName? segment).bind (lookup bound) with
  | some v =>
    obtain ⟨name, hname, hlookup⟩ := Option.bind_eq_some_iff.mp hvalue
    have hname := segmentName?_eq_some_iff.mp hname
    have hbinds := lookup_eq_some_iff.mp hlookup
    constructor
    · rintro (⟨hname', h⟩ | ⟨hno, -⟩)
      · obtain ⟨-, rfl⟩ := List.cons.inj (hname.symm.trans hname')
        exact h.unique hbinds
      · exact absurd hbinds (hno name v hname)
    · rintro rfl
      exact .named hname hbinds
  | none =>
    have hno : ∀ name value, segment = ':' :: name → ¬ Binds bound name value := by
      intro name value hname h
      rw [segmentName?_eq_some_iff.mpr hname, Option.bind_some, lookup_eq_some_iff.mpr h] at hvalue
      cases hvalue
    rw [Option.getD_none, ← replaced_iff]
    constructor
    · rintro (⟨hname, h⟩ | ⟨-, h⟩)
      · exact absurd h (hno _ _ hname)
      · exact h
    · exact .replaced hno

/-- A URL with its variables in place: the same parts, and as many segments, each with what it
becomes. -/
structure Resolved (u v : Url) : Prop where
  protocol : v.protocol = u.protocol
  port : v.port = u.port
  query : v.query = u.query
  hash : v.hash = u.hash
  pathVariables : v.pathVariables = u.pathVariables
  host : List.Forall₂ (Replaced u.pathVariables) u.host v.host
  path : List.Forall₂ (ShowsSegment u.pathVariables) u.path v.path

theorem forall₂_iff_map {α β : Type} {R : α → β → Prop} {f : α → β} (h : ∀ a b, R a b ↔ b = f a)
    {as : List α} {bs : List β} : List.Forall₂ R as bs ↔ bs = as.map f := by
  have hR : R = fun a b => f a = b := by
    funext a b
    exact propext ((h a b).trans eq_comm)
  rw [hR, ← List.forall₂_map_left_iff, List.forall₂_eq_eq_eq, eq_comm]

theorem resolved_iff {u v : Url} : Resolved u v ↔ v = u.resolve := by
  rw [resolve_eq]
  constructor
  · rintro ⟨hprotocol, hport, hquery, hhash, hvariables, hhost, hpath⟩
    cases v
    dsimp only at *
    rw [hprotocol, hport, hquery, hhash, hvariables,
      (forall₂_iff_map (R := Replaced u.pathVariables) fun _ _ => replaced_iff).mp hhost,
      (forall₂_iff_map (R := ShowsSegment u.pathVariables) fun _ _ => showsSegment_iff).mp hpath]
  · rintro rfl
    exact
      { protocol := rfl, port := rfl, query := rfl, hash := rfl, pathVariables := rfl
        host := (forall₂_iff_map (R := Replaced u.pathVariables) fun _ _ => replaced_iff).mpr rfl
        path :=
          (forall₂_iff_map (R := ShowsSegment u.pathVariables)
            fun _ _ => showsSegment_iff).mpr rfl }

/-- A segment holds a placeholder of the name, or a path segment stands for it. -/
def Mentions (u : Url) (name : Text) : Prop :=
  (∃ segment ∈ u.host ++ u.path, ∃ i x, Occurs segment i x ∧ x.strip = name) ∨
    ':' :: name ∈ u.path

/-- Only the names that a URL mentions are looked up. -/
theorem resolve_congr {u : Url} {others : List UrlVariable}
    (h : ∀ name, u.Mentions name → lookup others name = lookup u.pathVariables name) :
    resolve { u with pathVariables := others } = { u.resolve with pathVariables := others } := by
  have hsegment : ∀ segment ∈ u.host ++ u.path,
      substitute others segment = substitute u.pathVariables segment := fun segment hs =>
    substitute_congr fun i x hx => h _ (.inl ⟨segment, hs, i, x, hx, rfl⟩)
  rw [resolve_eq, resolve_eq]
  simp only [Url.mk.injEq, true_and, and_true, List.map_inj_left]
  refine ⟨fun segment hs => hsegment segment (List.mem_append_left _ hs), fun segment hs => ?_⟩
  have hname : (segmentName? segment).bind (lookup others) =
      (segmentName? segment).bind (lookup u.pathVariables) := by
    cases hname : segmentName? segment with
    | none => rfl
    | some name =>
      rw [segmentName?_eq_some_iff] at hname
      exact h name (.inr (hname ▸ hs))
  rw [resolvePathSegment, resolvePathSegment, hname,
    hsegment segment (List.mem_append_right _ hs)]

/-- Variables are put in place all at once: what a segment becomes is said position by position,
placeholders never meet, and of the bindings only the last one of each mentioned name counts. -/
theorem resolves_all_at_once (u : Url) :
    (∀ v, Resolved u v ↔ v = u.resolve) ∧
      (∀ t i j x y, Occurs t i x → Occurs t j y →
        (i = j ∧ x = y) ∨ i + (braced x).length ≤ j ∨ j + (braced y).length ≤ i) ∧
      (∀ others, others.Perm u.pathVariables → (u.pathVariables.map (·.key)).Nodup →
        resolve { u with pathVariables := others } = { u.resolve with pathVariables := others }) ∧
      ∀ before more after, u.pathVariables = before ++ after →
        (∀ other ∈ more, ¬ u.Mentions other.key) →
          resolve { u with pathVariables := before ++ more ++ after } =
            { u.resolve with pathVariables := before ++ more ++ after } := by
  refine ⟨fun v => resolved_iff, fun t i j x y hx hy => ?_, fun others hperm hnodup => ?_,
    fun before more after hvariables hmore => ?_⟩
  · rcases Nat.lt_trichotomy i j with hlt | rfl | hlt
    · exact .inr (.inl (hx.add_length_le hy hlt))
    · exact .inl ⟨rfl, hx.unique hy⟩
    · exact .inr (.inr (hy.add_length_le hx hlt))
  · exact resolve_congr fun name _ => lookup_perm hperm hnodup name
  · refine resolve_congr fun name hname => ?_
    rw [hvariables]
    exact lookup_insert fun other hother hkey => hmore other hother (hkey ▸ hname)

/-- The last of two values counts, and it is not searched for placeholders again. -/
example : substitute [⟨"a", "1"⟩, ⟨"b", "2"⟩, ⟨"a", "\x7b\x7bb\x7d\x7d"⟩]
    "\x7b\x7b\x7b a \x7d\x7d\x7d\x7b\x7bb\x7d" =
      ("\x7b\x7b\x7bb\x7d\x7d\x7d\x7b\x7bb\x7d" : Text) := by decide

end HttpSnippet.Url

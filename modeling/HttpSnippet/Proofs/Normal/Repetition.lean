import HttpSnippet.Proofs.Url.Placeholder

/-!
# A second normal form

A second normal form substitutes the variables and expands a form once more. It is the first one
again if what the segments have become lasts and no path is left in a list. A text lasts if its
placeholders stand for themselves; where some values are longer and some shorter than their
placeholders, the placeholders may also give back the text between them.
-/
namespace HttpSnippet

namespace Url

variable {bound : List UrlVariable} {s t x y v : Text} {i : Nat}

/-! ### The placeholders of a text, one after the other -/

/-- A placeholder behind the first one stands in the rest of the text. -/
theorem filled_braced_append (hx : Occurs (braced x ++ t) 0 x)
    (h : Filled bound (braced x ++ t) i y v) : (i = 0 ∧ y = x) ∨ ∃ j, Filled bound t j y v := by
  rcases Nat.eq_zero_or_pos i with rfl | hpos
  · exact .inl ⟨rfl, h.unique hx⟩
  · have hend := hx.add_length_le h.toOccurs hpos
    rw [Nat.zero_add] at hend
    obtain ⟨j, rfl⟩ := Nat.exists_eq_add_of_le hend
    exact .inr ⟨j, filled_append_left_iff.mp h⟩

theorem filled_cons {c : Char} (hc : ∀ x, ¬Occurs (c :: t) 0 x) (h : Filled bound (c :: t) i y v) :
    ∃ j, Filled bound t j y v := by
  rcases Nat.eq_zero_or_pos i with rfl | hpos
  · exact absurd h.toOccurs (hc y)
  · obtain ⟨j, rfl⟩ := Nat.exists_eq_add_of_le (show 1 ≤ i from hpos)
    exact ⟨j, filled_append_left_iff (s := [c]).mp h⟩

/-- The text is to what it becomes as the placeholders are to their values, where lengths are
compared. -/
theorem length_substitute {r : Nat → Nat → Prop} (hrefl : ∀ n, r n n)
    (hadd : ∀ {k l m n}, r k l → r m n → r (k + m) (l + n))
    (h : ∀ i x v, Filled bound t i x v → r v.length (braced x).length) :
    r (substitute bound t).length t.length := by
  induction t using placeholder_induction with
  | nil => exact hrefl 0
  | hit x t hx ih =>
    rw [substitute_braced hx, List.length_append, List.length_append]
    refine hadd ?_ (ih fun j y v hy => h _ y v (filled_append_left_iff.mpr hy))
    cases hvalue : lookup bound x.strip with
    | none => exact hrefl _
    | some v => exact h 0 x v ⟨hx, lookup_eq_some_iff.mp hvalue⟩
  | skip c t hc ih =>
    rw [substitute_cons hc]
    exact hadd (ih fun j y v hy => h _ y v (filled_append_left_iff (s := [c]).mpr hy)) (hrefl 1)

/-! ### Texts that last -/

/-- The text becomes itself. -/
def Lasts (bound : List UrlVariable) (t : Text) : Prop := Replaced bound t t

theorem lasts_iff : Lasts bound t ↔ substitute bound t = t := replaced_iff.trans eq_comm

/-- The values are all no longer than their placeholders, or all no shorter. -/
def Balanced (bound : List UrlVariable) (t : Text) : Prop :=
  (∀ i x v, Filled bound t i x v → v.length ≤ (braced x).length) ∨
    ∀ i x v, Filled bound t i x v → (braced x).length ≤ v.length

theorem Balanced.of_append (h : Balanced bound (s ++ t)) : Balanced bound t :=
  h.imp (fun h _ y v hy => h _ y v (filled_append_left_iff.mpr hy))
    fun h _ y v hy => h _ y v (filled_append_left_iff.mpr hy)

/-- In a text that becomes itself the first placeholder is as long as its value, if no other one
makes up for it. -/
theorem Balanced.length_value (h : Balanced bound (braced x ++ t))
    (hx : Filled bound (braced x ++ t) 0 x v)
    (ht : v ++ substitute bound t = braced x ++ t) : v.length = (braced x).length := by
  have htotal := congrArg List.length ht
  rw [List.length_append, List.length_append] at htotal
  rcases h with h | h
  · have hfirst := h 0 x v hx
    have hrest : (substitute bound t).length ≤ t.length :=
      length_substitute (r := (· ≤ ·)) le_refl Nat.add_le_add fun j y v hy =>
        h _ y v (filled_append_left_iff.mpr hy)
    omega
  · have hfirst := h 0 x v hx
    have hrest : t.length ≤ (substitute bound t).length :=
      length_substitute (r := (· ≥ ·)) le_refl Nat.add_le_add fun j y v hy =>
        h _ y v (filled_append_left_iff.mpr hy)
    omega

/-- A text lasts if each placeholder that has a value stands for itself. -/
theorem lasts_of_own (h : ∀ i x v, Filled bound t i x v → v = braced x) : Lasts bound t := by
  rw [lasts_iff]
  induction t using placeholder_induction with
  | nil => rfl
  | hit x t hx ih =>
    rw [substitute_braced hx, ih fun j y v hy => h _ y v (filled_append_left_iff.mpr hy)]
    cases hvalue : lookup bound x.strip with
    | none => rfl
    | some v => rw [Option.getD_some, h 0 x v ⟨hx, lookup_eq_some_iff.mp hvalue⟩]
  | skip c t hc ih =>
    rw [substitute_cons hc, ih fun j y v hy => h _ y v (filled_append_left_iff (s := [c]).mpr hy)]

/-- Where the values cannot make up for each other, no other text lasts. -/
theorem Balanced.lasts_iff (h : Balanced bound t) :
    Lasts bound t ↔ ∀ i x v, Filled bound t i x v → v = braced x := by
  refine ⟨fun ht => ?_, lasts_of_own⟩
  rw [Url.lasts_iff] at ht
  induction t using placeholder_induction with
  | nil =>
    intro i x v hx
    have hle := hx.length_le
    rw [length_braced] at hle
    cases hle
  | hit x t hx ih =>
    rw [substitute_braced hx] at ht
    have hvalue : (lookup bound x.strip).getD (braced x) = braced x ∧ substitute bound t = t := by
      refine List.append_inj ht ?_
      cases hvalue : lookup bound x.strip with
      | none => rfl
      | some v =>
        rw [hvalue] at ht
        exact h.length_value ⟨hx, lookup_eq_some_iff.mp hvalue⟩ ht
    intro i y v hy
    rcases filled_braced_append hx hy with ⟨rfl, rfl⟩ | ⟨j, hj⟩
    · rw [lookup_eq_some_iff.mpr hy.binds] at hvalue
      exact hvalue.1
    · exact ih h.of_append hvalue.2 j y v hj
  | skip c t hc ih =>
    rw [substitute_cons hc, List.cons_inj_right] at ht
    intro i y v hy
    obtain ⟨j, hj⟩ := filled_cons hc hy
    exact ih (h.of_append (s := [c])) ht j y v hj

/-- Two placeholders give back their text together, and neither of them by itself. -/
example : substitute [⟨"a", "\x7b\x7ba\x7d\x7d\x7b\x7bb\x7d\x7d"⟩, ⟨"b", ""⟩]
    "\x7b\x7ba\x7d\x7d\x7b\x7bb\x7d\x7d" = ("\x7b\x7ba\x7d\x7d\x7b\x7bb\x7d\x7d" : Text) := by
  decide

/-! ### Requests -/

/-- What a segment of the host or the path becomes, becomes itself. -/
structure Settles (u : Url) : Prop where
  host : ∀ t ∈ u.host, ∀ r, Replaced u.pathVariables t r → Lasts u.pathVariables r
  path : ∀ t ∈ u.path, ∀ r, ShowsSegment u.pathVariables t r → ShowsSegment u.pathVariables r r

theorem resolve_resolve_iff {u : Url} (query : List QueryParam) :
    Url.resolve { u.resolve with query } = { u.resolve with query } ↔ u.Settles := by
  have hsettles : u.Settles ↔
      (∀ t ∈ u.host, substitute u.pathVariables (substitute u.pathVariables t) =
        substitute u.pathVariables t) ∧
      ∀ t ∈ u.path, resolvePathSegment u.pathVariables (resolvePathSegment u.pathVariables t) =
        resolvePathSegment u.pathVariables t := by
    constructor
    · exact fun ⟨hhost, hpath⟩ => ⟨
        fun t ht => lasts_iff.mp (hhost t ht _ (replaced_substitute _ t)),
        fun t ht => (showsSegment_iff.mp (hpath t ht _ (showsSegment_iff.mpr rfl))).symm⟩
    · refine fun ⟨hhost, hpath⟩ => ⟨fun t ht r hr => ?_, fun t ht r hr => ?_⟩
      · rw [lasts_iff, replaced_iff.mp hr, hhost t ht]
      · rw [showsSegment_iff, showsSegment_iff.mp hr, hpath t ht]
  rw [hsettles]
  simp only [resolve_eq, Url.mk.injEq, true_and, and_true, List.map_map, List.map_inj_left,
    Function.comp_apply]

end Url

/-- Neither a second substitution nor a second expansion finds anything left to do. -/
structure Request.Settles (r : Request) : Prop where
  url : r.url.Settles
  body : ∀ b, r.body = some b → b.Settles

/-- The normal form of a request is its own normal form exactly if the request settles. -/
theorem Request.normalize_normalize_eq_iff (r : Request) :
    r.normalize.normalize = r.normalize ↔ r.Settles := by
  obtain ⟨headers, query, hnormal⟩ := normalize_eq r
  have hbodies : (r.body.map (·.expandFormdata)).map (·.expandFormdata) =
      r.body.map (·.expandFormdata) ↔ ∀ b, r.body = some b → b.Settles := by
    cases r.body with
    | none => simp
    | some b => simp [Body.expandFormdata_expandFormdata_iff]
  have hparts : r.normalize.normalize = r.normalize ↔
      r.normalize.url.resolve = r.normalize.url ∧
        r.normalize.body.map (·.expandFormdata) = r.normalize.body := by
    rw [normalize_normalize]
    cases r.normalize
    simp [Request.mk.injEq]
  rw [hparts, hnormal, hbodies, Url.resolve_resolve_iff]
  exact ⟨fun ⟨hu, hb⟩ => ⟨hu, hb⟩, fun ⟨hu, hb⟩ => ⟨hu, hb⟩⟩

/-- A value that is a placeholder itself is replaced next time, and so is a list inside a list of
paths. -/
theorem Request.normalize_normalize_ne :
    let bound : List UrlVariable := [⟨"a", "\x7b\x7bb\x7d\x7d"⟩, ⟨"b", "x"⟩]
    let chained : Request := { url := { path := ["\x7b\x7ba\x7d\x7d"], pathVariables := bound } }
    let paths : Value := .list [.list [.str "a", .str "b"]]
    let member : FormParam := { key := "f", kind := .file, src := paths }
    let nested : Request := { body := some { mode := "formdata", formdata := some [member] } }
    chained.normalize.normalize ≠ chained.normalize ∧
      nested.normalize.normalize ≠ nested.normalize := by
  intro bound chained paths member nested
  constructor
  · intro h
    have hpath : chained.normalize.normalize.url.path = chained.normalize.url.path := by rw [h]
    exact absurd hpath (by decide)
  · intro h
    have hsize : nested.normalize.normalize.body.map (·.formdata.map List.length) =
        nested.normalize.body.map (·.formdata.map List.length) := by rw [h]
    exact absurd hsize (by decide)

end HttpSnippet

import HttpSnippet.Json.Printer
import HttpSnippet.Proofs.Source.Fragment

/-!
# Tokens of written JSON

Numbers and names are code without quotes, and names of members and strings are the only literals.
So a value leaves its structure and its numbers outside of literals and nothing of its texts.
-/
namespace HttpSnippet

/-- The characters that written JSON has outside of its strings. -/
def Json.codeMarks : Text := "[]\x7b\x7d,: +-.0123456789NaInfinitytrueslu"

/-- What written JSON is made of: no literal is a single-quoted one. -/
def Piece.IsJson : Piece → Prop
  | .code t => t ⊆ Json.codeMarks
  | .newline _ | .string _ _ => True
  | .literal _ _ | .verbatim _ => False

@[simp] theorem Piece.isJson_code {t : Text} : IsJson (.code t) ↔ t ⊆ Json.codeMarks := Iff.rfl

@[simp] theorem Piece.isJson_newline {level : Nat} : IsJson (.newline level) := trivial

@[simp] theorem Piece.isJson_string {ascii : Bool} {t : Text} : IsJson (.string ascii t) := trivial

theorem Piece.IsJson.fits {p : Piece} (h : p.IsJson) : p.Fits .javascript := by
  have hmarks : Dialect.javascript.Unquoted Json.codeMarks := by decide
  cases p with
  | code t => exact fun c hc => hmarks c (h hc)
  | newline level => trivial
  | string ascii t => rfl
  | literal d t => exact h.elim
  | verbatim t => exact h.elim

namespace Json

/-! ### Numbers -/

theorem ofNat_subset_codeMarks (n : Nat) : Text.ofNat n ⊆ codeMarks :=
  List.Subset.trans (Text.ofNat_subset n) (by decide)

theorem replicate_subset_codeMarks (n : Nat) : List.replicate n '0' ⊆ codeMarks := by
  intro c hc
  rw [List.eq_of_mem_replicate hc]
  decide

theorem notate_subset_codeMarks (x : Binary64.Decimal) : x.notate ⊆ codeMarks := by
  have hdigits := ofNat_subset_codeMarks x.digits
  have htake (n : Nat) := List.Subset.trans (List.take_subset n _) hdigits
  have hdrop (n : Nat) := List.Subset.trans (List.drop_subset n _) hdigits
  have hsize (n : Nat) :
      (if (Text.ofNat n).length = 1 then '0' :: Text.ofNat n else Text.ofNat n) ⊆ codeMarks := by
    split
    · exact List.cons_subset.mpr ⟨by decide, ofNat_subset_codeMarks n⟩
    · exact ofNat_subset_codeMarks n
  unfold Binary64.Decimal.notate
  simp only []
  split
  · split
    · simp only [List.append_subset]
      exact ⟨⟨hdigits, replicate_subset_codeMarks _⟩, by decide⟩
    split
    · simp only [List.append_subset]
      exact ⟨⟨htake _, by decide⟩, hdrop _⟩
    · simp only [List.append_subset]
      exact ⟨⟨by decide, replicate_subset_codeMarks _⟩, hdigits⟩
  · simp only [List.append_subset]
    refine ⟨⟨⟨htake 1, ?_⟩, ?_⟩, hsize _⟩
    · split
      · exact List.nil_subset _
      · exact List.cons_subset.mpr ⟨by decide, hdrop 1⟩
    · split <;> decide

theorem floatText_subset_codeMarks (x : Binary64) : floatText x ⊆ codeMarks := by
  cases x with
  | nan => decide
  | infinity negative => cases negative <;> decide
  | finite negative m q =>
    have hsize : (if m = 0 then ("0.0" : Text) else (Binary64.shortest m q).notate) ⊆
        codeMarks := by
      split
      · decide
      · exact notate_subset_codeMarks _
    cases negative with
    | true => exact List.cons_subset.mpr ⟨by decide, hsize⟩
    | false => exact hsize

/-! ### Values -/

theorem isJson_opened (layout : Layout) (level : Nat) : ∀ p ∈ layout.opened level, p.IsJson := by
  cases layout <;> simp [Layout.opened]

theorem isJson_comma (layout : Layout) (level : Nat) : ∀ p ∈ layout.comma level, p.IsJson := by
  cases layout with
  | compact => simpa [Layout.comma] using by decide
  | spaced => simpa [Layout.comma] using by decide
  | indented => simpa [Layout.comma] using by decide

theorem isJson_colon (layout : Layout) : (Piece.code layout.colon).IsJson := by
  cases layout <;> exact Piece.isJson_code.mpr (by decide)

mutual
theorem isJson_fragment (layout : Layout) (ascii : Bool) :
    ∀ (level : Nat) (v : Json), ∀ p ∈ v.fragment layout ascii level, p.IsJson
  | _, .null => by simpa [fragment] using by decide
  | _, .bool true => by simpa [fragment] using by decide
  | _, .bool false => by simpa [fragment] using by decide
  | _, .int n => by
    simpa [fragment] using List.Subset.trans (Text.ofInt_subset n) (by decide)
  | _, .float x => by simpa [fragment] using floatText_subset_codeMarks x
  | _, .str t => by simp [fragment]
  | _, .arr [] => by simpa [fragment] using by decide
  | level, .arr (v :: vs) => by
    have hv := isJson_fragment layout ascii (level + 1) v
    have hvs := isJson_itemFragments layout ascii (level + 1) vs
    simp only [fragment, List.cons_append, List.forall_mem_cons, List.forall_mem_append,
      Piece.isJson_code]
    exact ⟨by decide, ⟨⟨⟨isJson_opened _ _, hv⟩, hvs⟩, isJson_opened _ _⟩, by decide,
      List.forall_mem_nil _⟩
  | _, .obj [] => by simpa [fragment] using by decide
  | level, .obj ((k, v) :: ms) => by
    have hv := isJson_fragment layout ascii (level + 1) v
    have hms := isJson_memberFragments layout ascii (level + 1) ms
    simp only [fragment, List.cons_append, List.forall_mem_cons, List.forall_mem_append,
      Piece.isJson_code]
    exact ⟨by decide, ⟨⟨⟨isJson_opened _ _, trivial, isJson_colon _, hv⟩, hms⟩,
      isJson_opened _ _⟩, by decide, List.forall_mem_nil _⟩

theorem isJson_itemFragments (layout : Layout) (ascii : Bool) :
    ∀ (level : Nat) (vs : List Json), ∀ p ∈ itemFragments layout ascii level vs, p.IsJson
  | _, [] => List.forall_mem_nil _
  | level, v :: vs => by
    simp only [itemFragments, List.forall_mem_append]
    exact ⟨⟨isJson_comma _ _, isJson_fragment layout ascii level v⟩,
      isJson_itemFragments layout ascii level vs⟩

theorem isJson_memberFragments (layout : Layout) (ascii : Bool) :
    ∀ (level : Nat) (ms : List (Text × Json)),
      ∀ p ∈ memberFragments layout ascii level ms, p.IsJson
  | _, [] => List.forall_mem_nil _
  | level, (k, v) :: ms => by
    simp only [memberFragments, List.forall_mem_append, List.forall_mem_cons]
    exact ⟨⟨isJson_comma _ _, trivial, isJson_colon _, isJson_fragment layout ascii level v⟩,
      isJson_memberFragments layout ascii level ms⟩
end

theorem fits_fragment (layout : Layout) (ascii : Bool) (level : Nat) (v : Json) :
    Fragment.Fits .javascript (v.fragment layout ascii level) :=
  fun p hp => (isJson_fragment layout ascii level v p hp).fits

/-! ### Values without their texts -/

mutual
/-- The value with every string and every member name replaced by the empty text. -/
def erased : Json → Json
  | .str _ => .str []
  | .arr items => .arr (erasedItems items)
  | .obj members => .obj (erasedMembers members)
  | v => v

def erasedItems : List Json → List Json
  | [] => []
  | v :: vs => erased v :: erasedItems vs

def erasedMembers : List (Text × Json) → List (Text × Json)
  | [] => []
  | (_, v) :: ms => ([], erased v) :: erasedMembers ms
end

@[simp] theorem hollow_opened (layout : Layout) (level : Nat) :
    Fragment.hollow (layout.opened level) = layout.opened level := by cases layout <;> rfl

@[simp] theorem hollow_comma (layout : Layout) (level : Nat) :
    Fragment.hollow (layout.comma level) = layout.comma level := by cases layout <;> rfl

mutual
/-- Outside of its literals a written value shows its structure only. -/
theorem hollow_fragment (layout : Layout) (ascii : Bool) :
    ∀ (level : Nat) (v : Json),
      Fragment.hollow (v.fragment layout ascii level) = v.erased.fragment layout ascii level
  | _, .null => rfl
  | _, .bool true => rfl
  | _, .bool false => rfl
  | _, .int _ => rfl
  | _, .float _ => rfl
  | _, .str _ => rfl
  | _, .arr [] => rfl
  | level, .arr (v :: vs) => by
    simp only [fragment, erased, erasedItems, Fragment.hollow_cons, Fragment.hollow_append,
      List.cons_append, hollow_opened, hollow_fragment layout ascii (level + 1) v,
      hollow_itemFragments layout ascii (level + 1) vs]
    rfl
  | _, .obj [] => rfl
  | level, .obj ((k, v) :: ms) => by
    simp only [fragment, erased, erasedMembers, Fragment.hollow_cons, Fragment.hollow_append,
      List.cons_append, hollow_opened, hollow_fragment layout ascii (level + 1) v,
      hollow_memberFragments layout ascii (level + 1) ms]
    rfl

theorem hollow_itemFragments (layout : Layout) (ascii : Bool) :
    ∀ (level : Nat) (vs : List Json),
      Fragment.hollow (itemFragments layout ascii level vs) =
        itemFragments layout ascii level (erasedItems vs)
  | _, [] => rfl
  | level, v :: vs => by
    simp only [itemFragments, erasedItems, Fragment.hollow_append, hollow_comma,
      hollow_fragment layout ascii level v, hollow_itemFragments layout ascii level vs]

theorem hollow_memberFragments (layout : Layout) (ascii : Bool) :
    ∀ (level : Nat) (ms : List (Text × Json)),
      Fragment.hollow (memberFragments layout ascii level ms) =
        memberFragments layout ascii level (erasedMembers ms)
  | _, [] => rfl
  | level, (k, v) :: ms => by
    simp only [memberFragments, erasedMembers, Fragment.hollow_append, Fragment.hollow_cons,
      hollow_comma, hollow_fragment layout ascii level v,
      hollow_memberFragments layout ascii level ms]
    rfl
end

end Json
end HttpSnippet

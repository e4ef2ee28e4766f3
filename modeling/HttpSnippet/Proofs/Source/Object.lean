import HttpSnippet.Proofs.Source.Reader
import HttpSnippet.Target.Node

/-!
# Objects read back

The entries of an object literal are read back as the names and the values they were written from,
whether a value stands alone or in an array.
-/
namespace HttpSnippet.Node

open Fragment

@[simp] theorem plain_quoted (t : Text) : (quoted t).Plain .javascript := rfl

@[simp] theorem symbols_quoted (t : Text) : (quoted t).symbols = [.text t] := rfl

theorem plain_property {name : Text} {value : Fragment} (hv : Plain .javascript value) :
    Plain .javascript (property name value) := by
  simp [property, hv]

@[simp] theorem symbols_property (name : Text) (value : Fragment) :
    symbols (property name value) = .text name :: .mark ':' :: symbols value := rfl

theorem plain_oneOrArray (vs : List Text) : Plain .javascript (oneOrArray vs) := by
  have hjoin (vs : List Text) :
      Plain .javascript (join [.code [',', ' ']] (vs.map fun v => [quoted v])) := by
    refine plain_join (by simp) ?_
    intro f hf
    obtain ⟨v, -, rfl⟩ := List.mem_map.mp hf
    simp
  unfold oneOrArray
  split
  · simp
  · simp [hjoin]

theorem plain_groupEntries (groups : List (Text × List Text)) :
    ∀ f ∈ groupEntries groups, Plain .javascript f := by
  intro f hf
  obtain ⟨g, -, rfl⟩ := List.mem_map.mp hf
  exact plain_property (plain_oneOrArray g.2)

theorem plain_groupObject (groups : List (Text × List Text)) :
    Plain .javascript (groupObject groups) := by
  have hlines := plain_commaLines 1 (plain_groupEntries groups)
  unfold groupObject
  split
  · simp only [plain_append, plain_cons, plain_nil, Piece.plain_code, Piece.plain_newline]
    decide
  · simp only [plain_append, plain_cons, plain_nil, Piece.plain_code, Piece.plain_newline]
    exact ⟨⟨by decide, trivial, hlines⟩, trivial, by decide, trivial⟩

theorem plain_headersObject (groups : List (Text × List Text)) :
    Plain .javascript (headersObject groups) := by
  have hlines := plain_commaLines 2 (plain_groupEntries groups)
  refine plain_property ?_
  split
  · simp only [plain_append, plain_cons, plain_nil, Piece.plain_code, Piece.plain_newline]
    decide
  · simp only [plain_append, plain_cons, plain_nil, Piece.plain_code, Piece.plain_newline]
    exact ⟨⟨by decide, trivial, hlines⟩, trivial, by decide, trivial⟩

theorem plain_pairList (pairs : List (Text × Text)) : Plain .javascript (pairList pairs) := by
  have hentries : ∀ f ∈ pairs.map fun p =>
      ([.code "[", quoted p.1, .code ", ", quoted p.2, .code "]"] : Fragment),
      Plain .javascript f := by
    intro f hf
    obtain ⟨p, -, rfl⟩ := List.mem_map.mp hf
    simp
  simp only [pairList, plain_append, plain_cons, plain_nil, Piece.plain_code, Piece.plain_newline]
  exact ⟨⟨⟨by decide, trivial, trivial⟩, plain_commaLines 1 hentries⟩, trivial, by decide, trivial⟩

/-! ### Entries -/

variable {ending : List Symbol}

/-- The symbols of texts with commas between them. -/
def itemSymbols (vs : List Text) : List Symbol :=
  [Symbol.mark ','].intercalate (vs.map fun v => [.text v])

theorem itemSymbols_cons_cons (v w : Text) (vs : List Text) :
    itemSymbols (v :: w :: vs) = .text v :: .mark ',' :: itemSymbols (w :: vs) := rfl

/-- The items of an array are read one by one, behind those that were read before. -/
theorem readEntries_items (name : Text) (us vs : List Text) (v : Text) (s : List Symbol) :
    readEntries ending (.item name us) (itemSymbols (v :: vs) ++ .mark ']' :: s) =
      (readEntries ending .afterEntry s).map ((name, us ++ v :: vs) :: ·) := by
  induction vs generalizing us v with
  | nil =>
    have hv : itemSymbols [v] = [.text v] := rfl
    rw [hv, List.cons_append, List.nil_append, readEntries, readEntries]
  | cons w vs ih =>
    rw [itemSymbols_cons_cons, List.cons_append, List.cons_append, readEntries, readEntries, ih,
      List.append_assoc]
    rfl

theorem symbols_oneOrArray (v w : Text) (vs : List Text) :
    symbols (oneOrArray (v :: w :: vs)) =
      .mark '[' :: itemSymbols (v :: w :: vs) ++ [.mark ']'] := by
  have hmap (vs : List Text) : (vs.map fun v => ([quoted v] : Fragment)).map symbols =
      vs.map fun v => [.text v] := by
    simp [Function.comp_def]
  simp only [oneOrArray, List.cons_append, symbols_cons, symbols_append, symbols_join, hmap]
  rfl

theorem readEntries_value (name : Text) {vs : List Text} (hv : vs ≠ []) (s : List Symbol) :
    readEntries ending (.value name) (symbols (oneOrArray vs) ++ s) =
      (readEntries ending .afterEntry s).map ((name, vs) :: ·) := by
  match vs with
  | [] => exact absurd rfl hv
  | [v] => rfl
  | v :: w :: vs =>
    rw [symbols_oneOrArray, List.cons_append, List.cons_append, readEntries, List.append_assoc]
    exact readEntries_items name [] (w :: vs) v s

theorem readEntries_property (name : Text) {vs : List Text} (hv : vs ≠ []) (s : List Symbol) :
    readEntries ending .name (symbols (property name (oneOrArray vs)) ++ s) =
      (readEntries ending .afterEntry s).map ((name, vs) :: ·) := by
  rw [symbols_property, List.cons_append, List.cons_append, readEntries, readEntries,
    readEntries_value name hv]

/-- Where an entry stands first, it is read like any other. -/
theorem readEntries_start (name : Text) (value : Fragment) (s : List Symbol) :
    readEntries ending .start (symbols (property name value) ++ s) =
      readEntries ending .name (symbols (property name value) ++ s) := by
  rw [symbols_property, List.cons_append, readEntries, readEntries]

/-- The symbols of entries with commas between them. -/
def entrySymbols (groups : List (Text × List Text)) : List Symbol :=
  [Symbol.mark ','].intercalate ((groupEntries groups).map symbols)

theorem entrySymbols_singleton (g : Text × List Text) :
    entrySymbols [g] = symbols (property g.1 (oneOrArray g.2)) := by
  simp [entrySymbols, groupEntries]

theorem entrySymbols_cons_cons (g g' : Text × List Text) (gs : List (Text × List Text)) :
    entrySymbols (g :: g' :: gs) =
      symbols (property g.1 (oneOrArray g.2)) ++ .mark ',' :: entrySymbols (g' :: gs) := by
  simp [entrySymbols, groupEntries, List.intercalate_cons_cons]

theorem readEntries_entries (he : readEntries ending .afterEntry ending = some [])
    (g : Text × List Text) (gs : List (Text × List Text)) (hv : ∀ x ∈ g :: gs, x.2 ≠ []) :
    readEntries ending .name (entrySymbols (g :: gs) ++ ending) = some (g :: gs) := by
  induction gs generalizing g with
  | nil =>
    rw [entrySymbols_singleton, readEntries_property g.1 (hv g List.mem_cons_self), he]
    rfl
  | cons g' gs ih =>
    have hrest : ∀ x ∈ g' :: gs, x.2 ≠ [] := fun x hx => hv x (List.mem_cons_of_mem g hx)
    rw [entrySymbols_cons_cons, List.append_assoc,
      readEntries_property g.1 (hv g List.mem_cons_self), List.cons_append, readEntries,
      ih g' hrest]
    rfl

/-- The entries of an object are read back in their order. -/
theorem readEntries_groups (hs : readEntries ending .start ending = some [])
    (he : readEntries ending .afterEntry ending = some []) {groups : List (Text × List Text)}
    (hv : ∀ g ∈ groups, g.2 ≠ []) :
    readEntries ending .start (entrySymbols groups ++ ending) = some groups := by
  cases groups with
  | nil => exact hs
  | cons g gs =>
    have hfirst : readEntries ending .start (entrySymbols (g :: gs) ++ ending) =
        readEntries ending .name (entrySymbols (g :: gs) ++ ending) := by
      cases gs with
      | nil => rw [entrySymbols_singleton, readEntries_start]
      | cons g' gs => rw [entrySymbols_cons_cons, List.append_assoc, readEntries_start]
    rw [hfirst, readEntries_entries he g gs hv]

end HttpSnippet.Node

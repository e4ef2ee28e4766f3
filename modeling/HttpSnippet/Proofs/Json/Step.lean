import HttpSnippet.Proofs.Conversion

/-!
# Steps of the JSON readers

A reader looks at a character or two, reads a part with less room or a lower bound, and goes on
behind it. What a single step can be is said here once, for a value, for items and for members, with
all the ways in which it fails. Whatever holds of a whole text is proved from these steps.
-/
namespace HttpSnippet.Json

/-- White space only. -/
def Spacing (t : Text) : Prop := ∀ c ∈ t, Cursor.isSpace c = true

/-- The elements of a collection: the items of an array, or the members of an object. -/
inductive Element where
  | item
  | member
deriving DecidableEq, Repr

namespace Element

def opening : Element → Char
  | item => '['
  | member => '\x7b'

def closing : Element → Char
  | item => ']'
  | member => '\x7d'

/-- The collection that has no elements. -/
def nothing : Element → Json
  | item => .arr []
  | member => .obj []

/-- What comes to an end where there is no room for the collection. -/
def descent : Element → Descent
  | item => .readingArray
  | member => .readingObject

end Element

/-- Reads the collection whose elements begin at a cursor. -/
def readElements (bound room : Nat) (c : Cursor) : Element → Except ReadError (Json × Cursor)
  | .item => do
    let (items, c) ← readItems bound room c
    return (.arr items, c)
  | .member => do
    let (members, c) ← readMembers bound room [] c
    return (.obj members, c)

theorem readElements_item_eq_ok {bound room : Nat} {c c' : Cursor} {v : Json} :
    readElements bound room c .item = .ok (v, c') ↔
      ∃ items, readItems bound room c = .ok (items, c') ∧ v = .arr items := by
  refine bind_eq_ok.trans ⟨?_, ?_⟩
  · rintro ⟨⟨items, _⟩, h, heq⟩
    cases heq
    exact ⟨items, h, rfl⟩
  · rintro ⟨items, h, rfl⟩
    exact ⟨_, h, rfl⟩

theorem readElements_member_eq_ok {bound room : Nat} {c c' : Cursor} {v : Json} :
    readElements bound room c .member = .ok (v, c') ↔
      ∃ members, readMembers bound room [] c = .ok (members, c') ∧ v = .obj members := by
  refine bind_eq_ok.trans ⟨?_, ?_⟩
  · rintro ⟨⟨members, _⟩, h, heq⟩
    cases heq
    exact ⟨members, h, rfl⟩
  · rintro ⟨members, h, rfl⟩
    exact ⟨_, h, rfl⟩

theorem readElements_item_eq_error {bound room : Nat} {c : Cursor} {e : ReadError} :
    readElements bound room c .item = .error e ↔ readItems bound room c = .error e :=
  bind_eq_error.trans (or_iff_left fun ⟨_, _, h⟩ => by cases h)

theorem readElements_member_eq_error {bound room : Nat} {c : Cursor} {e : ReadError} :
    readElements bound room c .member = .error e ↔ readMembers bound room [] c = .error e :=
  bind_eq_error.trans (or_iff_left fun ⟨_, _, h⟩ => by cases h)

/-! ### White space -/

/-- Skipping white space leaves what is behind it. -/
theorem exists_spacing_skipSpace (c : Cursor) :
    ∃ gap, Spacing gap ∧ c.rest = gap ++ c.skipSpace.rest :=
  ⟨_, fun _ hb => List.all_eq_true.mp List.all_takeWhile _ hb,
    (List.takeWhile_append_dropWhile).symm⟩

theorem rest_drop_one {c : Cursor} {b : Char} {t : Text} (h : c.rest = b :: t) :
    (c.drop 1).rest = t := by
  rw [Cursor.drop, h, List.drop_succ_cons, List.drop_zero]

/-- The white space behind a character that has been looked at. -/
theorem exists_spacing_behind {c : Cursor} {b : Char} {t : Text} (h : c.rest = b :: t) :
    ∃ gap, Spacing gap ∧ c.rest = b :: (gap ++ (c.drop 1).skipSpace.rest) := by
  obtain ⟨gap, hgap, hrest⟩ := exists_spacing_skipSpace (c.drop 1)
  exact ⟨gap, hgap, by rw [← hrest, rest_drop_one h, h]⟩

/-- A mark behind white space, and what is left behind the mark. -/
theorem exists_spacing_mark {c : Cursor} {b : Char} {t : Text} (h : c.skipSpace.rest = b :: t) :
    ∃ gap, Spacing gap ∧ c.rest = gap ++ b :: (c.skipSpace.drop 1).rest := by
  obtain ⟨gap, hgap, hrest⟩ := exists_spacing_skipSpace c
  exact ⟨gap, hgap, by rw [hrest, rest_drop_one h, h]⟩

/-- A mark with white space on both sides of it. -/
theorem exists_spacing_around {c : Cursor} {b : Char} {t : Text} (h : c.skipSpace.rest = b :: t) :
    ∃ gap gap', Spacing gap ∧ Spacing gap' ∧
      c.rest = gap ++ b :: (gap' ++ (c.skipSpace.drop 1).skipSpace.rest) := by
  obtain ⟨gap, hgap, hrest⟩ := exists_spacing_skipSpace c
  obtain ⟨gap', hgap', hrest'⟩ := exists_spacing_behind h
  exact ⟨gap, gap', hgap, hgap', by rw [← hrest', hrest]⟩

/-! ### Steps -/

/-- A name stands at the first cursor, and behind its colon a value begins at the second one. -/
def NameAt (c : Cursor) (name : Text) (c' : Cursor) : Prop :=
  ∃ t c₁ gap gap', c.rest = '"' :: t ∧
    readString c.position (c.position + 1) t = .ok (name, c₁) ∧
    Spacing gap ∧ Spacing gap' ∧ c₁.rest = gap ++ ':' :: (gap' ++ c'.rest)

/-- How a value is read in one step. -/
inductive ValueStep (bound : Nat) (c : Cursor) : Nat → Except ReadError (Json × Cursor) → Prop
  | fault (room : Nat) {e : ReadError} {t : Text}
      (h : readString c.position (c.position + 1) t = .error e) : ValueStep bound c room (.error e)
  | string (room : Nat) {t s : Text} {c' : Cursor} (hquote : c.rest = '"' :: t)
      (h : readString c.position (c.position + 1) t = .ok (s, c')) :
      ValueStep bound c room (.ok (.str s, c'))
  | full {kind : Element} {t : Text} (h : c.rest = kind.opening :: t) :
      ValueStep bound c 0 (.error (.tooDeep kind.descent))
  | empty (room : Nat) {kind : Element} {gap : Text} {c' : Cursor} (hgap : Spacing gap)
      (h : c.rest = kind.opening :: (gap ++ kind.closing :: c'.rest)) :
      ValueStep bound c (room + 1) (.ok (kind.nothing, c'))
  | inside (room : Nat) {kind : Element} {gap : Text} {c' : Cursor} (hgap : Spacing gap)
      (h : c.rest = kind.opening :: (gap ++ c'.rest)) :
      ValueStep bound c (room + 1) (readElements bound room c' kind)
  | atom (room : Nat) : ValueStep bound c room (readAtom c)

/-- How items are read in one step. -/
inductive ItemsStep (bound room : Nat) (c : Cursor) : Except ReadError (List Json × Cursor) → Prop
  | first {e : ReadError} (h : readValue bound room c = .error e) :
      ItemsStep bound room c (.error e)
  | fault (fault : Fault) (position : Nat) :
      ItemsStep bound room c (.error (.syntaxError fault position))
  | last {v : Json} {c₁ c' : Cursor} {gap : Text} (h : readValue bound room c = .ok (v, c₁))
      (hgap : Spacing gap) (hrest : c₁.rest = gap ++ ']' :: c'.rest) :
      ItemsStep bound room c (.ok ([v], c'))
  | next {v : Json} {c₁ c₂ : Cursor} {gap gap' : Text} (h : readValue bound room c = .ok (v, c₁))
      (hgap : Spacing gap) (hgap' : Spacing gap')
      (hrest : c₁.rest = gap ++ ',' :: (gap' ++ c₂.rest)) :
      ItemsStep bound room c (readItems bound room c₂ >>= fun (vs, c) => .ok (v :: vs, c))

/-- How members are read in one step. -/
inductive MembersStep (bound room : Nat) (members : List (Text × Json)) (c : Cursor) :
    Except ReadError (List (Text × Json) × Cursor) → Prop
  | name {e : ReadError} {t : Text} (h : readString c.position (c.position + 1) t = .error e) :
      MembersStep bound room members c (.error e)
  | value {e : ReadError} {name : Text} {c₁ : Cursor} (hname : NameAt c name c₁)
      (h : readValue bound room c₁ = .error e) : MembersStep bound room members c (.error e)
  | fault (fault : Fault) (position : Nat) :
      MembersStep bound room members c (.error (.syntaxError fault position))
  | last {name : Text} {v : Json} {c₁ c₂ c' : Cursor} {gap : Text} (hname : NameAt c name c₁)
      (h : readValue bound room c₁ = .ok (v, c₂)) (hgap : Spacing gap)
      (hrest : c₂.rest = gap ++ '\x7d' :: c'.rest) :
      MembersStep bound room members c (.ok (insertMember name v members, c'))
  | next {name : Text} {v : Json} {c₁ c₂ c₃ : Cursor} {gap gap' : Text} (hname : NameAt c name c₁)
      (h : readValue bound room c₁ = .ok (v, c₂)) (hgap : Spacing gap) (hgap' : Spacing gap')
      (hrest : c₂.rest = gap ++ ',' :: (gap' ++ c₃.rest)) :
      MembersStep bound room members c (readMembers bound room (insertMember name v members) c₃)

theorem valueStep (bound room : Nat) (c : Cursor) :
    ValueStep bound c room (readValue (bound + 1) room c) := by
  rw [readValue]
  split
  · next t hquote =>
    cases hstring : readString c.position (c.position + 1) t with
    | error e => exact .fault room hstring
    | ok found => exact .string room hquote hstring
  · next t hopening =>
    cases room with
    | zero => exact @ValueStep.full bound c .item t hopening
    | succ room =>
      dsimp only [enter]
      split
      · next t' hclosing =>
        obtain ⟨gap, hgap, hrest⟩ := exists_spacing_mark (c := c.drop 1) hclosing
        rw [rest_drop_one hopening] at hrest
        exact @ValueStep.empty bound c room .item gap _ hgap (hopening.trans (congrArg _ hrest))
      · obtain ⟨gap, hgap, hrest⟩ := exists_spacing_behind hopening
        exact @ValueStep.inside bound c room .item gap _ hgap hrest
  · next t hopening =>
    cases room with
    | zero => exact @ValueStep.full bound c .member t hopening
    | succ room =>
      dsimp only [enter]
      split
      · next t' hclosing =>
        obtain ⟨gap, hgap, hrest⟩ := exists_spacing_mark (c := c.drop 1) hclosing
        rw [rest_drop_one hopening] at hrest
        exact @ValueStep.empty bound c room .member gap _ hgap (hopening.trans (congrArg _ hrest))
      · obtain ⟨gap, hgap, hrest⟩ := exists_spacing_behind hopening
        exact @ValueStep.inside bound c room .member gap _ hgap hrest
  · exact .atom room

theorem itemsStep (bound room : Nat) (c : Cursor) :
    ItemsStep bound room c (readItems (bound + 1) room c) := by
  rw [readItems]
  cases hvalue : readValue bound room c with
  | error e => exact .first hvalue
  | ok found =>
    obtain ⟨v, c₁⟩ := found
    simp only [bind, Except.bind]
    split
    · next t hclosing =>
      obtain ⟨gap, hgap, hrest⟩ := exists_spacing_mark hclosing
      exact .last hvalue hgap hrest
    · next t hcomma =>
      obtain ⟨gap, gap', hgap, hgap', hrest⟩ := exists_spacing_around hcomma
      exact .next hvalue hgap hgap' hrest
    · exact .fault _ _

theorem membersStep (bound room : Nat) (members : List (Text × Json)) (c : Cursor) :
    MembersStep bound room members c (readMembers (bound + 1) room members c) := by
  rw [readMembers]
  split
  · next t hquote =>
    cases hstring : readString c.position (c.position + 1) t with
    | error e => exact .name hstring
    | ok found =>
      obtain ⟨name, c₁⟩ := found
      simp only [bind, Except.bind]
      split
      · next t' hcolon =>
        obtain ⟨gap, gap', hgap, hgap', hrest⟩ := exists_spacing_around hcolon
        have hname : NameAt c name (c₁.skipSpace.drop 1).skipSpace :=
          ⟨t, c₁, gap, gap', hquote, hstring, hgap, hgap', hrest⟩
        cases hvalue : readValue bound room (c₁.skipSpace.drop 1).skipSpace with
        | error e => exact .value hname hvalue
        | ok found =>
          obtain ⟨v, c₂⟩ := found
          dsimp only
          split
          · next t'' hclosing =>
            obtain ⟨gap, hgap, hrest⟩ := exists_spacing_mark hclosing
            exact .last hname hvalue hgap hrest
          · next t'' hcomma =>
            obtain ⟨gap, gap', hgap, hgap', hrest⟩ := exists_spacing_around hcomma
            exact .next hname hvalue hgap hgap' hrest
          · exact .fault _ _
      · exact .fault _ _
  · exact .fault _ _

/-! ### Whole texts -/

/-- The error is no fault of the text. -/
def ReadError.IsHalt (e : ReadError) : Prop := ∀ fault position, e ≠ .syntaxError fault position

theorem isHalt_numeralTooLong (digits : Nat) : (ReadError.numeralTooLong digits).IsHalt := nofun

theorem isHalt_tooDeep (descent : Descent) : (ReadError.tooDeep descent).IsHalt := nofun

/-- A text that is read holds one value and white space around it. -/
theorem exists_readValue_of_readWithin {room : Nat} {t : Text} {v : Json}
    (h : readWithin room t = .ok v) :
    ∃ gap c c', (Spacing gap ∧ Spacing c'.rest ∧ t = gap ++ c.rest) ∧
      readValue (2 * t.length + 2) room c = .ok (v, c') := by
  unfold readWithin at h
  split at h
  · cases h
  · obtain ⟨-, -, h⟩ := bind_eq_ok.mp h
    obtain ⟨⟨w, c⟩, hw, h⟩ := bind_eq_ok.mp h
    obtain ⟨gap, hgap, hrest⟩ := exists_spacing_skipSpace ⟨0, t⟩
    obtain ⟨gap', hgap', hrest'⟩ := exists_spacing_skipSpace c
    dsimp only at h
    split at h
    · next hempty =>
      cases h
      rw [List.isEmpty_iff.mp hempty, List.append_nil] at hrest'
      exact ⟨gap, _, c, ⟨hgap, hrest' ▸ hgap', hrest⟩, hw⟩
    · cases h

/-- A failure that is no fault of the text is one of its value. -/
theorem exists_readValue_of_readWithin_eq_error {room : Nat} {t : Text} {e : ReadError}
    (h : readWithin room t = .error e) (he : e.IsHalt) :
    ∃ gap c, (Spacing gap ∧ t = gap ++ c.rest) ∧
      readValue (2 * t.length + 2) room c = .error e := by
  unfold readWithin at h
  split at h
  · cases h
    exact absurd rfl (he _ _)
  · obtain ⟨gap, hgap, hrest⟩ := exists_spacing_skipSpace ⟨0, t⟩
    rcases bind_eq_error.mp h with h | ⟨⟨v, c⟩, -, h⟩
    · exact ⟨gap, _, ⟨hgap, hrest⟩, h⟩
    · dsimp only at h
      split at h
      · cases h
      · cases h
        exact absurd rfl (he _ _)

end HttpSnippet.Json

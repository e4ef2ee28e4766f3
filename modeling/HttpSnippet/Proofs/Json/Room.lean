import HttpSnippet.Proofs.Json.Halt

/-!
# Room for nested collections

More room changes nothing but where reading stops for want of it, so a text is read alike with any
room that is enough. A text never has more collections inside each other than characters, and with
room for all of its characters only integers make the reader stop.
-/
namespace HttpSnippet.Json

/-- The first outcome is the second one, unless there was no room for an array or an object. -/
def OrTooDeep {α : Type} (x y : Except ReadError α) : Prop :=
  x = y ∨ ∃ kind : Element, x = .error (.tooDeep kind.descent)

namespace OrTooDeep

variable {α β : Type}

theorem refl (x : Except ReadError α) : OrTooDeep x x := .inl rfl

theorem bind {x y : Except ReadError α} {f g : α → Except ReadError β} (h : OrTooDeep x y)
    (hf : ∀ a, OrTooDeep (f a) (g a)) : OrTooDeep (x >>= f) (y >>= g) := by
  rcases h with rfl | ⟨kind, rfl⟩
  · cases x with
    | error e => exact .refl _
    | ok a => exact hf a
  · exact .inr ⟨kind, rfl⟩

theorem enter (kind : Element) {room room' : Nat} {f g : Nat → Except ReadError α}
    (hroom : room ≤ room') (h : ∀ {room room'}, room ≤ room' → OrTooDeep (f room) (g room')) :
    OrTooDeep (Json.enter kind.descent room f) (Json.enter kind.descent room' g) := by
  cases room with
  | zero => exact .inr ⟨kind, rfl⟩
  | succ room =>
    obtain ⟨room', rfl⟩ := Nat.exists_eq_add_of_le' (Nat.le_trans (Nat.le_add_left 1 room) hroom)
    exact h (Nat.le_of_succ_le_succ hroom)

end OrTooDeep

/-- How the three readers compare where one has more room. -/
structure ReadsAlike (bound : Nat) : Prop where
  value {room room' : Nat} (hroom : room ≤ room') (c : Cursor) :
    OrTooDeep (readValue bound room c) (readValue bound room' c)
  items {room room' : Nat} (hroom : room ≤ room') (c : Cursor) :
    OrTooDeep (readItems bound room c) (readItems bound room' c)
  members {room room' : Nat} (hroom : room ≤ room') (members : List (Text × Json)) (c : Cursor) :
    OrTooDeep (readMembers bound room members c) (readMembers bound room' members c)

theorem readsAlike (bound : Nat) : ReadsAlike bound := by
  induction bound with
  | zero => exact ⟨fun _ _ => .refl _, fun _ _ => .refl _, fun _ _ _ => .refl _⟩
  | succ bound ih =>
    refine ⟨fun {room room'} hroom c => ?_, fun {room room'} hroom c => ?_,
      fun {room room'} hroom ms c => ?_⟩
    · rw [readValue, readValue]
      split
      · exact .refl _
      · refine .enter .item hroom fun hroom => ?_
        dsimp only
        split
        · exact .refl _
        · exact .bind (ih.items hroom _) fun _ => .refl _
      · refine .enter .member hroom fun hroom => ?_
        dsimp only
        split
        · exact .refl _
        · exact .bind (ih.members hroom _ _) fun _ => .refl _
      · exact .refl _
    · rw [readItems, readItems]
      refine .bind (ih.value hroom c) fun found => ?_
      obtain ⟨item, c⟩ := found
      dsimp only
      split
      · exact .refl _
      · exact .bind (ih.items hroom _) fun _ => .refl _
      · exact .refl _
    · rw [readMembers, readMembers]
      split
      · refine .bind (.refl _) fun found => ?_
        obtain ⟨name, c⟩ := found
        dsimp only
        split
        · refine .bind (ih.value hroom _) fun found => ?_
          obtain ⟨value, c⟩ := found
          dsimp only
          split
          · exact .refl _
          · exact ih.members hroom _ _
          · exact .refl _
        · exact .refl _
      · exact .refl _

theorem readWithin_orTooDeep {room room' : Nat} (hroom : room ≤ room') (t : Text) :
    OrTooDeep (readWithin room t) (readWithin room' t) := by
  unfold readWithin
  split
  · exact .refl _
  · exact .bind ((readsAlike _).value hroom _) fun _ => .refl _

/-- Every collection has a bracket of its own. -/
theorem Halts.room_lt_length {room : Nat} {part : Part} {t : Text} (h : Halts .deep room part t) :
    room < t.length := by
  generalize hhalt : Halt.deep = halt at h
  induction h with
  | integer _ _ _ _ _ _ _ => cases hhalt
  | bracket kind t => simp
  | collection kind hgap _ ih =>
    have hlength := ih hhalt
    simp only [List.length_cons, List.length_append]
    omega
  | item _ ih => exact ih hhalt
  | member hname hgap hgap' _ ih =>
    have hstring := hname.length_lt
    have hlength := ih hhalt
    simp only [List.length_cons, List.length_append] at hstring ⊢
    omega
  | first _ ih => exact ih hhalt
  | next h hgap hgap' _ ih =>
    have hfirst := h.length_lt
    have hlength := ih hhalt
    simp only [List.length_cons, List.length_append] at hfirst
    omega

theorem room_lt_length_of_tooDeep {room : Nat} {t : Text} {descent : Descent}
    (h : readWithin room t = .error (.tooDeep descent)) : room < t.length := by
  obtain ⟨gap, u, -, rfl, hhalts⟩ := hasHalt_of_readWithin h (show _ = some .deep from rfl)
  have hlength := hhalts.room_lt_length
  rw [List.length_append]
  omega

/-- With any room a text is read as with all the room that it could need, or there is too little. -/
theorem readWithin_orTooDeep_read (room : Nat) (t : Text) :
    OrTooDeep (readWithin room t) (read t) := by
  rcases Nat.le_total room t.length with hroom | hroom
  · exact readWithin_orTooDeep hroom t
  · rcases readWithin_orTooDeep hroom t with hsame | ⟨kind, h⟩
    · exact .inl hsame.symm
    · exact absurd (room_lt_length_of_tooDeep h) (Nat.lt_irrefl _)

/-- Only an array or an object can have no room. -/
theorem exists_descent_of_tooDeep {room : Nat} {t : Text} {descent : Descent}
    (h : readWithin room t = .error (.tooDeep descent)) :
    ∃ kind : Element, descent = kind.descent := by
  rcases readWithin_orTooDeep_read room t with hsame | ⟨kind, hdeep⟩
  · exact absurd (room_lt_length_of_tooDeep (hsame ▸ h)) (Nat.lt_irrefl _)
  · cases h.symm.trans hdeep
    exact ⟨kind, rfl⟩

theorem readWithin_eq_read {room : Nat} {t : Text}
    (h : ∀ descent, readWithin room t ≠ .error (.tooDeep descent)) :
    readWithin room t = read t := by
  rcases readWithin_orTooDeep_read room t with hsame | ⟨kind, hdeep⟩
  · exact hsame
  · exact absurd hdeep (h kind.descent)

theorem read_of_readWithin {room : Nat} {t : Text} {v : Json} (h : readWithin room t = .ok v) :
    read t = .ok v := by
  rcases readWithin_orTooDeep_read room t with hsame | ⟨kind, hdeep⟩
  · exact hsame ▸ h
  · cases h.symm.trans hdeep

theorem extended_of_read {t : Text} {v : Json} (h : read t = .ok v) : Extended t :=
  extended_of_readWithin h

variable {layout : Layout} {indent : Text}

theorem read_render (hi : layout = .indented → Spacing indent) (ascii : Bool) (level : Nat)
    {v : Json} (hv : v.WellFormed) :
    read (Fragment.render indent (v.fragment layout ascii level)) = .ok v :=
  read_of_readWithin (readWithin_render hi ascii level hv le_rfl)

theorem readWithin_write (layout : Layout) (ascii : Bool) {v : Json} (hv : v.WellFormed)
    {room : Nat} (hroom : v.depth ≤ room) : readWithin room (write layout ascii v) = .ok v :=
  readWithin_render (fun _ => by simp [Spacing]) ascii 0 hv hroom

theorem read_write (layout : Layout) (ascii : Bool) {v : Json} (hv : v.WellFormed) :
    read (write layout ascii v) = .ok v :=
  read_of_readWithin (readWithin_write layout ascii hv le_rfl)

theorem read_quote (ascii : Bool) (t : Text) : read (quote ascii t) = .ok (.str t) := by
  have h := read_write .compact ascii (.str t)
  rwa [write, fragment, Fragment.render_cons, Piece.render, Fragment.render, List.flatMap_nil,
    List.append_nil] at h

end HttpSnippet.Json

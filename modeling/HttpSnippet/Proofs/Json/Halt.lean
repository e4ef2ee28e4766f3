import HttpSnippet.Proofs.Json.Completeness

/-!
# Where reading stops without a fault

The reader stops at an integer of more digits than it reads, and at the bracket of a collection that
there is no room for. Neither is a fault of the text: up to there it is JSON. Where this happens is
described along the grammar, for reading stops in this way exactly if the text is derived up to such
a place.
-/
namespace HttpSnippet.Json

/-- Nothing of a kind stands at the beginning of a text. -/
def Lacks (kind : Text → Prop) (t : Text) : Prop := ∀ u rest, t = u ++ rest → kind u → u = []

/-- What the reader stops at. -/
inductive Halt where
  /-- An integer of too many digits. -/
  | overlong
  /-- A collection that there is no room for. -/
  | deep
deriving DecidableEq, Repr

def ReadError.halt? : ReadError → Option Halt
  | .syntaxError _ _ => none
  | .numeralTooLong _ => some .overlong
  | .tooDeep _ => some .deep

/-- The text is derived up to a place where reading stops, with room for so many collections inside
each other. -/
inductive Halts : Halt → Nat → Part → Text → Prop where
  | integer (room : Nat) (negative : Bool) {whole rest : Text} (hw : IsWhole whole)
      (hlong : Number.maxDigits < whole.length) (hrest : NoDigit rest)
      (hfraction : Lacks Fraction rest) (hexponent : Lacks Exponent rest) :
      Halts .overlong room .value (signText negative ++ (whole ++ rest))
  | bracket (kind : Element) (t : Text) : Halts .deep 0 .value (kind.opening :: t)
  | collection {halt : Halt} {room : Nat} (kind : Element) {gap t : Text} (hgap : Spacing gap)
      (h : Halts halt room (.elements kind) t) :
      Halts halt (room + 1) .value (kind.opening :: (gap ++ t))
  | item {halt : Halt} {room : Nat} {t : Text} (h : Halts halt room .value t) :
      Halts halt room (.element .item) t
  | member {halt : Halt} {room : Nat} {t gap gap' u : Text}
      (hname : StringEnd t (gap ++ ':' :: (gap' ++ u))) (hgap : Spacing gap) (hgap' : Spacing gap')
      (h : Halts halt room .value u) : Halts halt room (.element .member) ('"' :: t)
  | first {halt : Halt} {room : Nat} {kind : Element} {t : Text}
      (h : Halts halt room (.element kind) t) : Halts halt room (.elements kind) t
  | next {halt : Halt} {room : Nat} {kind : Element} {t gap gap' u : Text}
      (h : Derives knownNames (.element kind) t (gap ++ ',' :: (gap' ++ u))) (hgap : Spacing gap)
      (hgap' : Spacing gap') (hmore : Halts halt room (.elements kind) u) :
      Halts halt room (.elements kind) t

/-- A text with a place where reading stops, up to which it is JSON. -/
def HasHalt (halt : Halt) (room : Nat) (t : Text) : Prop :=
  ∃ gap u, Spacing gap ∧ t = gap ++ u ∧ Halts halt room .value u

theorem isHalt_iff {e : ReadError} : e.IsHalt ↔ ∃ halt, e.halt? = some halt := by
  cases e with
  | syntaxError fault position => exact iff_of_false (fun h => h _ _ rfl) nofun
  | numeralTooLong digits => exact iff_of_true nofun ⟨_, rfl⟩
  | tooDeep descent => exact iff_of_true nofun ⟨_, rfl⟩

/-! ### What is not there -/

/-- The digits that a text begins with, as many as there are. -/
theorem exists_run {ds : Text} (hd : Digits ds) (hne : ds ≠ []) (rest : Text) :
    ∃ run rest', ds ++ rest = run ++ rest' ∧ Digits run ∧ run ≠ [] ∧ NoDigit rest' := by
  obtain ⟨hrun, hsplit⟩ := digits_takeWhile (ds ++ rest)
  refine ⟨_, _, hsplit, hrun, ?_, ?_⟩
  · obtain ⟨c, ds', rfl⟩ := List.exists_cons_of_ne_nil hne
    rw [List.cons_append, List.takeWhile_cons_of_pos (hd c List.mem_cons_self)]
    simp
  · intro c hc
    have hhead := List.head?_dropWhile_not isDigit (ds ++ rest)
    rw [hc] at hhead
    exact hhead

theorem fraction?_eq_none_iff {t : Text} : fraction? t = none ↔ Lacks Fraction t := by
  constructor
  · intro h u rest ht hu
    cases hu with
    | none => rfl
    | places hd hne =>
      obtain ⟨run, rest', hsplit, hrun, hne', hend⟩ := exists_run hd hne rest
      rw [ht, List.cons_append, hsplit, fraction?_append hrun hne' hend] at h
      cases h
  · intro h
    cases hread : fraction? t with
    | none => rfl
    | some found =>
      obtain ⟨places, rest⟩ := found
      obtain ⟨hd, hne, ht⟩ := exists_places_of_fraction? hread
      have hnil := h ('.' :: places) rest ht (.places hd hne)
      cases hnil

theorem exponent?_eq_none_iff {t : Text} : exponent? t = none ↔ Lacks Exponent t := by
  constructor
  · intro h u rest ht hu
    cases hu with
    | none => rfl
    | size hmark hsign hd hne =>
      obtain ⟨run, rest', hsplit, hrun, hne', hend⟩ := exists_run hd hne rest
      obtain ⟨e, n, hread⟩ := exponent?_size hmark hsign hrun hne' hend
      rw [ht, List.cons_append, List.append_assoc, hsplit, hread] at h
      cases h
  · intro h
    cases hread : exponent? t with
    | none => rfl
    | some found =>
      obtain ⟨e, size, rest⟩ := found
      obtain ⟨exponent, hne, he, ht⟩ := exponent_of_exponent? hread
      exact absurd (h exponent rest ht he) hne

/-! ### The reader stops -/

theorem Halts.begins {halt : Halt} {room : Nat} {part : Part} {t : Text}
    (h : Halts halt room part t) : Begins t := by
  induction h with
  | integer _ negative hw _ _ _ _ => exact hw.begins negative _
  | bracket kind _ => exact kind.begins_opening _
  | collection kind _ _ _ => exact kind.begins_opening _
  | item _ ih => exact ih
  | member _ _ _ _ _ => exact ⟨_, _, rfl, by decide⟩
  | first _ ih => exact ih
  | next h _ _ _ _ => exact h.begins

theorem readAtom_overlong (negative : Bool) {whole rest : Text} (hw : IsWhole whole)
    (hlong : Number.maxDigits < whole.length) (hrest : NoDigit rest)
    (hfraction : Lacks Fraction rest) (hexponent : Lacks Exponent rest) (position : Nat) :
    Ends none (readAtom ⟨position, signText negative ++ (whole ++ rest)⟩) := by
  have hpart := integerPart?_append hw hrest
  have hfraction := fraction?_eq_none_iff.mpr hfraction
  have hexponent := exponent?_eq_none_iff.mpr hexponent
  obtain ⟨c, u, hcons, hc⟩ := hw.append_eq_cons rest
  have hsign : c ≠ '-' := ne_of_isDigit hc rfl
  refine ⟨_, ?_, isHalt_numeralTooLong whole.length⟩
  rw [readAtom_whole hw, hcons]
  rw [hcons] at hpart
  cases negative <;> simp [readNumber, signText, hsign, hpart, hfraction, hexponent, hlong]

/-- Reading stops in a text that is derived up to such a place, be it there or before. -/
theorem Halts.ends {halt : Halt} {room : Nat} {part : Part} {t : Text} (h : Halts halt room part t)
    (bound : Nat) (hbound : part.boundFor t.length ≤ bound) : PartEnds none bound room part t := by
  induction h generalizing bound with
  | integer room negative hw hlong hrest hfraction hexponent =>
    obtain ⟨bound, rfl⟩ := Part.bound_eq_succ hbound
    exact fun position =>
      (readAtom_overlong negative hw hlong hrest hfraction hexponent position).readValue bound room
  | bracket kind t =>
    obtain ⟨bound, rfl⟩ := Part.bound_eq_succ hbound
    exact fun position => ends_readValue_full kind t position
  | collection kind hgap h ih =>
    obtain ⟨bound, rfl⟩ := Part.bound_eq_succ hbound
    simp only [Part.boundFor, List.length_cons, List.length_append] at hbound
    exact ends_readValue_collection hgap h.begins (ih bound (by simp only [Part.boundFor]; omega))
  | item h ih => exact ih bound hbound
  | member hname hgap hgap' h ih =>
    have hlength := hname.length_lt
    simp only [Part.boundFor, List.length_append, List.length_cons] at hbound hlength
    exact ⟨_, _, _, _, rfl, hname, hgap, hgap', h.begins,
      ih bound (by simp only [Part.boundFor]; omega)⟩
  | first h ih =>
    obtain ⟨bound, rfl⟩ := Part.bound_eq_succ hbound
    simp only [Part.boundFor] at hbound
    exact elementsEnd_of_stop (ih bound (by simp only [Part.boundFor]; omega))
  | @next halt room kind t gap gap' u h hgap hgap' hmore ih =>
    have hlength := h.length_lt
    obtain ⟨bound, rfl⟩ := Part.bound_eq_succ hbound
    simp only [Part.boundFor, List.length_append, List.length_cons] at hbound hlength
    have helements := ih bound (by simp only [Part.boundFor]; omega)
    have hbehind := endsNumeral_append hgap (endsNumeral_comma (gap' ++ u))
    rcases h.ends hbehind bound room (by simp only [Part.boundFor]; omega) with
      helement | hstop
    · exact elementsEnd_of_after helement (afterEnds_next hgap hgap' hmore.begins helements)
    · exact elementsEnd_of_stop hstop

/-! ### The reader stops nowhere else -/

/-- Behind a whole part no digit is left, unless it is a zero. -/
theorem noDigit_of_integerPart? {t whole rest : Text} (h : integerPart? t = some (whole, rest)) :
    whole = ['0'] ∨ NoDigit rest := by
  unfold integerPart? at h
  split at h
  · cases h
    exact .inl rfl
  · split at h
    · cases h
    · cases h
      refine .inr fun c hc => ?_
      have hhead := List.head?_dropWhile_not isDigit t
      rw [hc] at hhead
      exact hhead

theorem overlong_of_readNumber {c : Cursor} {e : ReadError} {halt : Halt}
    (h : readNumber c = .error e) (he : e.halt? = some halt) (room : Nat) :
    Halts halt room .value c.rest := by
  unfold readNumber at h
  split at h
  next negative size u hsigned =>
  have hrest : c.rest = signText negative ++ u := by
    split at hsigned
    · next hminus =>
      cases hsigned
      exact hminus
    · cases hsigned
      rfl
  dsimp only at h
  split at h
  · cases h
    cases he
  · next whole t hwhole =>
    obtain ⟨hw, rfl⟩ := isWhole_of_integerPart? hwhole
    rw [hrest]
    cases hfraction : fraction? t with
    | some found =>
      simp only [hfraction] at h
      split at h
      · cases h
      · cases h
    | none =>
      simp only [hfraction, Bool.false_eq_true, if_false] at h
      split at h
      · cases h
      · next hexponent =>
        split at h
        · next hlong =>
          cases h
          cases he
          have hnoDigit : NoDigit t := (noDigit_of_integerPart? hwhole).resolve_left fun hzero => by
            rw [hzero] at hlong
            exact absurd hlong (by decide)
          exact .integer room negative hw hlong hnoDigit (fraction?_eq_none_iff.mp hfraction)
            (exponent?_eq_none_iff.mp hexponent)
        · cases h

theorem overlong_of_readAtom {c : Cursor} {e : ReadError} {halt : Halt} (h : readAtom c = .error e)
    (he : e.halt? = some halt) (room : Nat) : Halts halt room .value c.rest := by
  unfold readAtom at h
  split at h
  · cases h
  · exact overlong_of_readNumber h he room

/-- A string is no reason to stop. -/
theorem halt?_of_readString {start position : Nat} {t : Text} {e : ReadError}
    (h : readString start position t = .error e) : e.halt? = none := by
  have hmap {c : Char} {outcome : Except ReadError (Text × Cursor)}
      (ih : outcome = .error e → e.halt? = none) (h : consRead c outcome = .error e) :
      e.halt? = none := by
    cases outcome with
    | error e' => exact ih h
    | ok _ => cases h
  fun_induction readString start position t
  all_goals first
    | (cases h <;> rfl)
    | (refine hmap ?_ h; assumption)

/-- What the text is like where each of the three readers stops. -/
structure StopsHalting (bound : Nat) : Prop where
  value {room : Nat} {c : Cursor} {e : ReadError} {halt : Halt}
    (h : readValue bound room c = .error e) (he : e.halt? = some halt) :
    Halts halt room .value c.rest
  items {room : Nat} {c : Cursor} {e : ReadError} {halt : Halt}
    (h : readItems bound room c = .error e) (he : e.halt? = some halt) :
    Halts halt room (.elements .item) c.rest
  members {room : Nat} {c : Cursor} {ms : List (Text × Json)} {e : ReadError} {halt : Halt}
    (h : readMembers bound room ms c = .error e) (he : e.halt? = some halt) :
    Halts halt room (.elements .member) c.rest

theorem StopsHalting.elements {bound : Nat} (h : StopsHalting bound) {kind : Element} {room : Nat}
    {c : Cursor} {e : ReadError} {halt : Halt} (hread : readElements bound room c kind = .error e)
    (he : e.halt? = some halt) : Halts halt room (.elements kind) c.rest := by
  cases kind with
  | item => exact h.items (readElements_item_eq_error.mp hread) he
  | member => exact h.members (readElements_member_eq_error.mp hread) he

theorem stopsHalting (bound : Nat) : StopsHalting bound := by
  induction bound with
  | zero =>
    refine ⟨fun h he => ?_, fun h he => ?_, fun h he => ?_⟩ <;> (cases h; cases he)
  | succ bound ih =>
    refine ⟨fun {room c e halt} h he => ?_, fun {room c e halt} h he => ?_,
      fun {room c ms e halt} h he => ?_⟩
    · have hstep := valueStep bound room c
      generalize readValue (bound + 1) room c = outcome at h hstep
      cases hstep with
      | fault _ hstring =>
        cases h
        cases (halt?_of_readString hstring).symm.trans he
      | string => cases h
      | full hrest =>
        cases h
        cases he
        rw [hrest]
        exact .bracket _ _
      | empty => cases h
      | inside _ hgap hrest =>
        rw [hrest]
        exact .collection _ hgap (ih.elements h he)
      | atom => exact overlong_of_readAtom h he room
    · have hstep := itemsStep bound room c
      generalize readItems (bound + 1) room c = outcome at h hstep
      cases hstep with
      | first hvalue =>
        cases h
        exact .first (.item (ih.value hvalue he))
      | fault =>
        cases h
        cases he
      | last => cases h
      | next hvalue hgap hgap' hrest =>
        rcases bind_eq_error.mp h with h | ⟨_, -, h⟩
        · exact .next (.item (hrest ▸ (readsDerived bound).value hvalue)) hgap hgap' (ih.items h he)
        · cases h
    · have hstep := membersStep bound room ms c
      generalize readMembers (bound + 1) room ms c = outcome at h hstep
      cases hstep with
      | name hstring =>
        cases h
        cases (halt?_of_readString hstring).symm.trans he
      | value hname hvalue =>
        cases h
        obtain ⟨t, gap, gap', hquote, hgap, hgap', hend⟩ := hname.stringEnd
        rw [hquote]
        exact .first (.member hend hgap hgap' (ih.value hvalue he))
      | fault =>
        cases h
        cases he
      | last => cases h
      | next hname hvalue hgap hgap' hrest =>
        exact .next (hname.derives (hrest ▸ (readsDerived bound).value hvalue)) hgap hgap'
          (ih.members h he)

/-- Where reading stops without a fault, the text tells. -/
theorem hasHalt_of_readWithin {room : Nat} {t : Text} {e : ReadError} {halt : Halt}
    (h : readWithin room t = .error e) (he : e.halt? = some halt) : HasHalt halt room t := by
  obtain ⟨gap, c, ⟨hgap, ht⟩, hvalue⟩ :=
    exists_readValue_of_readWithin_eq_error h (isHalt_iff.mpr ⟨halt, he⟩)
  exact ⟨gap, c.rest, hgap, ht, (stopsHalting _).value hvalue he⟩

/-- The reader stops without a fault exactly where the text is derived up to such a place. -/
theorem exists_isHalt_iff {room : Nat} {t : Text} :
    (∃ e, readWithin room t = .error e ∧ e.IsHalt) ↔ ∃ halt, HasHalt halt room t := by
  constructor
  · rintro ⟨e, h, hhalt⟩
    obtain ⟨halt, he⟩ := isHalt_iff.mp hhalt
    exact ⟨halt, hasHalt_of_readWithin h he⟩
  · rintro ⟨halt, gap, u, hgap, rfl, h⟩
    rw [readWithin_eq hgap h.begins]
    have hvalue := h.ends (2 * (gap ++ u).length + 2)
      (by simp only [Part.boundFor, List.length_append]; omega)
    obtain ⟨e, he, hhalt⟩ := hvalue gap.length
    exact ⟨e, by rw [he]; rfl, hhalt⟩

/-- A text of JSON, special numbers included, is read unless it has a place where reading stops. -/
theorem exists_readWithin_iff_not_hasHalt {room : Nat} {t : Text} :
    (∃ v, readWithin room t = .ok v) ↔ Extended t ∧ ¬∃ halt, HasHalt halt room t := by
  rw [exists_readWithin_iff, ← exists_isHalt_iff]

end HttpSnippet.Json

import HttpSnippet.Proofs.Json.RoundTrip

/-!
# The grammar of JSON

The rules of RFC 8259 relate a text to what is left of it behind a value, or behind the items or
members of a collection. They leave open which literal names there are: with the names of the
standard they derive its texts, and the reader knows the names of three special numbers besides.
Whatever the reader accepts is derived with the names that it knows.
-/
namespace HttpSnippet.Json

/-! ### Numbers and strings -/

inductive Fraction : Text → Prop where
  | none : Fraction []
  | places {ds : Text} (hd : Digits ds) (hne : ds ≠ []) : Fraction ('.' :: ds)

inductive Exponent : Text → Prop where
  | none : Exponent []
  | size {mark : Char} {sign ds : Text} (hmark : mark = 'e' ∨ mark = 'E')
      (hsign : sign = [] ∨ sign = ['-'] ∨ sign = ['+']) (hd : Digits ds) (hne : ds ≠ []) :
      Exponent (mark :: (sign ++ ds))

/-- A whole part with a sign in front if need be, and a fraction and an exponent behind it. -/
inductive Numeral : Text → Prop where
  | mk (negative : Bool) {whole fraction exponent : Text} (hw : IsWhole whole)
      (hf : Fraction fraction) (he : Exponent exponent) :
      Numeral (signText negative ++ (whole ++ (fraction ++ exponent)))

/-- The characters that may stand behind a backslash by themselves. -/
def shortEscapes : Text := ['"', '\\', '/', 'b', 'f', 'n', 'r', 't']

/-- What is left behind the closing quote of a string. -/
inductive StringEnd : Text → Text → Prop where
  | close (rest : Text) : StringEnd ('"' :: rest) rest
  | plain {c : Char} {t rest : Text} (hquote : c ≠ '"') (hslash : c ≠ '\\') (hc : 0x20 ≤ c.toNat)
      (h : StringEnd t rest) : StringEnd (c :: t) rest
  | escape {c : Char} {t rest : Text} (hc : c ∈ shortEscapes) (h : StringEnd t rest) :
      StringEnd ('\\' :: c :: t) rest
  | unit {a b c d : Char} {n : Nat} {t rest : Text} (hunit : hexUnit? a b c d = some n)
      (h : StringEnd t rest) : StringEnd ('\\' :: 'u' :: a :: b :: c :: d :: t) rest

/-! ### Values -/

/-- What a part of a text is derived as. -/
inductive Part where
  | value
  | element (kind : Element)
  /-- Elements up to the bracket that closes them. -/
  | elements (kind : Element)

/-- The first text begins with a part, and the second one is left of it. -/
inductive Derives (names : List Text) : Part → Text → Text → Prop where
  | name {name : Text} (h : name ∈ names) (rest : Text) : Derives names .value (name ++ rest) rest
  | numeral {t : Text} (h : Numeral t) (rest : Text) : Derives names .value (t ++ rest) rest
  | string {t rest : Text} (h : StringEnd t rest) : Derives names .value ('"' :: t) rest
  | empty (kind : Element) {gap : Text} (hgap : Spacing gap) (rest : Text) :
      Derives names .value (kind.opening :: (gap ++ kind.closing :: rest)) rest
  | collection (kind : Element) {gap t rest : Text} (hgap : Spacing gap)
      (h : Derives names (.elements kind) t rest) :
      Derives names .value (kind.opening :: (gap ++ t)) rest
  | item {t rest : Text} (h : Derives names .value t rest) :
      Derives names (.element .item) t rest
  | member {t gap gap' u rest : Text} (hname : StringEnd t (gap ++ ':' :: (gap' ++ u)))
      (hgap : Spacing gap) (hgap' : Spacing gap') (h : Derives names .value u rest) :
      Derives names (.element .member) ('"' :: t) rest
  | last {kind : Element} {t gap rest : Text}
      (h : Derives names (.element kind) t (gap ++ kind.closing :: rest)) (hgap : Spacing gap) :
      Derives names (.elements kind) t rest
  | next {kind : Element} {t gap gap' u rest : Text}
      (h : Derives names (.element kind) t (gap ++ ',' :: (gap' ++ u))) (hgap : Spacing gap)
      (hgap' : Spacing gap') (hmore : Derives names (.elements kind) u rest) :
      Derives names (.elements kind) t rest

/-- The literal names of the standard. -/
def standardNames : List Text := ["null", "true", "false"]

/-- The literal names that the reader knows. -/
def knownNames : List Text := ["null", "true", "false", "NaN", "Infinity", "-Infinity"]

/-- A text that is a value with white space around it. -/
def IsText (names : List Text) (t : Text) : Prop :=
  ∃ gap u rest, Spacing gap ∧ Spacing rest ∧ t = gap ++ u ∧ Derives names .value u rest

/-- A JSON text by RFC 8259. -/
def Standard (t : Text) : Prop := IsText standardNames t

/-- A JSON text in which special numbers may stand too. -/
def Extended (t : Text) : Prop := IsText knownNames t

theorem Derives.mono {names more : List Text} (hnames : names ⊆ more) {part : Part} {t rest : Text}
    (h : Derives names part t rest) : Derives more part t rest := by
  induction h with
  | name h rest => exact .name (hnames h) rest
  | numeral h rest => exact .numeral h rest
  | string h => exact .string h
  | empty kind hgap rest => exact .empty kind hgap rest
  | collection kind hgap _ ih => exact .collection kind hgap ih
  | item _ ih => exact .item ih
  | member hname hgap hgap' _ ih => exact .member hname hgap hgap' ih
  | last _ hgap ih => exact .last ih hgap
  | next _ hgap hgap' _ ih ihmore => exact .next ih hgap hgap' ihmore

theorem Standard.extended {t : Text} (h : Standard t) : Extended t := by
  obtain ⟨gap, u, rest, hgap, hrest, rfl, hvalue⟩ := h
  exact ⟨gap, u, rest, hgap, hrest, rfl, hvalue.mono (by decide)⟩

/-! ### What the reader accepts -/

theorem isWhole_of_integerPart? {t whole rest : Text} (h : integerPart? t = some (whole, rest)) :
    IsWhole whole ∧ t = whole ++ rest := by
  have hdigits := digits_of_integerPart? h
  unfold integerPart? at h
  split at h
  · cases h
    exact ⟨isWhole_zero, rfl⟩
  · next hzero =>
    split at h
    · cases h
    · next hne =>
      cases h
      refine ⟨⟨hdigits, hne, .inl fun hhead => ?_⟩, List.takeWhile_append_dropWhile.symm⟩
      obtain ⟨u, hu⟩ := List.head?_eq_some_iff.mp hhead
      have ht := List.takeWhile_append_dropWhile (p := isDigit) (l := t)
      rw [hu] at ht
      exact hzero _ ht.symm

/-- A run of digits that is not empty, and what is left behind it. -/
theorem digits_takeWhile (t : Text) :
    Digits (t.takeWhile isDigit) ∧ t = t.takeWhile isDigit ++ t.dropWhile isDigit :=
  ⟨fun _ hc => List.all_eq_true.mp List.all_takeWhile _ hc, List.takeWhile_append_dropWhile.symm⟩

theorem exists_places_of_fraction? {t places rest : Text}
    (h : fraction? t = some (places, rest)) :
    Digits places ∧ places ≠ [] ∧ t = '.' :: (places ++ rest) := by
  unfold fraction? at h
  split at h
  · next u =>
    obtain ⟨hd, hu⟩ := digits_takeWhile u
    split at h
    · cases h
    · next hne =>
      cases h
      exact ⟨hd, hne, congrArg _ hu⟩
  · cases h

theorem exists_exponent {mark : Char} {sign u : Text} (hmark : mark = 'e' ∨ mark = 'E')
    (hsign : sign = [] ∨ sign = ['-'] ∨ sign = ['+']) (hne : u.takeWhile isDigit ≠ []) :
    ∃ exponent, exponent ≠ [] ∧ Exponent exponent ∧
      mark :: (sign ++ u) = exponent ++ u.dropWhile isDigit := by
  obtain ⟨hd, hu⟩ := digits_takeWhile u
  refine ⟨_, List.cons_ne_nil _ _, .size hmark hsign hd hne, ?_⟩
  rw [List.cons_append, List.append_assoc, ← hu]

theorem exponent_of_exponent? {t rest : Text} {e : Int} {size : Nat}
    (h : exponent? t = some (e, size, rest)) :
    ∃ exponent, exponent ≠ [] ∧ Exponent exponent ∧ t = exponent ++ rest := by
  unfold exponent? at h
  dsimp only at h
  split at h
  · split at h
    · next hmark =>
      have hmark := by simpa using hmark
      split at h <;> split at h
      · cases h
      · next hne =>
        cases h
        exact exists_exponent hmark (.inr (.inl rfl)) hne
      · cases h
      · next hne =>
        cases h
        exact exists_exponent hmark (.inr (.inr rfl)) hne
      · cases h
      · next hne =>
        cases h
        exact exists_exponent hmark (.inl rfl) hne
    · cases h
  · cases h

/-- What is read as a number is a numeral. -/
theorem numeral_of_readNumber {c c' : Cursor} {v : Json} (h : readNumber c = .ok (v, c')) :
    ∃ t, Numeral t ∧ c.rest = t ++ c'.rest := by
  unfold readNumber at h
  split at h
  next negative size u hsigned =>
  have hrest : c.rest = signText negative ++ u := by
    split at hsigned
    · next hminus =>
      cases hsigned
      exact hminus
    · cases hsigned
      rfl
  split at h
  · cases h
  · next whole t hwhole =>
    obtain ⟨hw, rfl⟩ := isWhole_of_integerPart? hwhole
    rw [hrest]
    cases hfraction : fraction? t with
    | some found =>
      obtain ⟨places, t'⟩ := found
      obtain ⟨hd, hne, rfl⟩ := exists_places_of_fraction? hfraction
      simp only [hfraction] at h
      split at h
      · next hexponent =>
        obtain ⟨exponent, -, he, rfl⟩ := exponent_of_exponent? hexponent
        cases h
        exact ⟨_, .mk negative hw (.places hd hne) he, by simp⟩
      · cases h
        exact ⟨_, .mk negative hw (.places hd hne) .none, by simp⟩
    | none =>
      simp only [hfraction, Bool.false_eq_true, if_false] at h
      split at h
      · next hexponent =>
        obtain ⟨exponent, -, he, rfl⟩ := exponent_of_exponent? hexponent
        cases h
        exact ⟨_, .mk negative hw .none he, by simp⟩
      · split at h
        · cases h
        · cases h
          exact ⟨_, .mk negative hw .none .none, by simp⟩

/-- What is read as a literal name or a number is one. -/
theorem derives_of_readAtom {c c' : Cursor} {v : Json} (h : readAtom c = .ok (v, c')) :
    Derives knownNames .value c.rest c'.rest := by
  unfold readAtom at h
  split at h
  · next name w hfound =>
    cases h
    have hprefix := List.find?_some hfound
    obtain ⟨rest, hrest⟩ := List.isPrefixOf_iff_prefix.mp hprefix
    have hname : name ∈ knownNames :=
      List.mem_map_of_mem (f := Prod.fst) (List.mem_of_find?_eq_some hfound)
    rw [Cursor.drop, ← hrest, List.drop_left]
    exact .name hname rest
  · obtain ⟨t, ht, hrest⟩ := numeral_of_readNumber h
    rw [hrest]
    exact .numeral ht _

theorem mem_shortEscapes {c m : Char} (h : unescape? c = some m) : c ∈ shortEscapes := by
  unfold unescape? at h
  split at h
  all_goals first | decide | cases h

/-- One more character of a string leaves the same behind it. -/
theorem rest_of_map_cons {c : Char} {outcome : Except ReadError (Text × Cursor)} {s : Text}
    {c' : Cursor} (h : (outcome.map fun (s, rest) => (c :: s, rest)) = .ok (s, c')) :
    ∃ s', outcome = .ok (s', c') := by
  cases outcome with
  | error e => cases h
  | ok read =>
    cases h
    exact ⟨_, rfl⟩

theorem stringEnd_of_readString {start position : Nat} {t s : Text} {c' : Cursor}
    (h : readString start position t = .ok (s, c')) : StringEnd t c'.rest := by
  fun_induction readString start position t generalizing s with
  | case2 position t =>
    cases h
    exact .close t
  | case6 position a b c d e f g h after t high hhigh _ low hlow _ ih =>
    obtain ⟨s', h⟩ := rest_of_map_cons ‹_›
    exact .unit hhigh (.unit hlow (ih h))
  | case7 position a b c d e f g h after t high hhigh _ low hlow _ ih =>
    obtain ⟨s', h⟩ := rest_of_map_cons ‹_›
    exact .unit hhigh (ih h)
  | case8 position a b c d e f g h after t high hhigh _ ih =>
    obtain ⟨s', h⟩ := rest_of_map_cons ‹_›
    exact .unit hhigh (ih h)
  | case10 position a b c d after t _ unit hunit ih =>
    obtain ⟨s', h⟩ := rest_of_map_cons h
    exact .unit hunit (ih h)
  | case13 position c t _ _ _ m hm ih =>
    obtain ⟨s', h⟩ := rest_of_map_cons h
    exact .escape (mem_shortEscapes hm) (ih h)
  | case15 position c t hquote hend _ _ hmore hc ih =>
    have hslash : c ≠ '\\' := fun hslash => by
      cases t with
      | nil => exact hend hslash rfl
      | cons b t => exact hmore b t hslash rfl
    obtain ⟨s', h⟩ := rest_of_map_cons h
    exact .plain hquote hslash (by omega) (ih h)
  | _ => cases h

theorem NameAt.stringEnd {c c' : Cursor} {name : Text} (h : NameAt c name c') :
    ∃ t gap gap', c.rest = '"' :: t ∧ Spacing gap ∧ Spacing gap' ∧
      StringEnd t (gap ++ ':' :: (gap' ++ c'.rest)) := by
  obtain ⟨t, c₁, gap, gap', hquote, hstring, hgap, hgap', hrest⟩ := h
  exact ⟨t, gap, gap', hquote, hgap, hgap', hrest ▸ stringEnd_of_readString hstring⟩

/-- A name and what is derived behind its colon are a member. -/
theorem NameAt.derives {c c' : Cursor} {name rest : Text} (h : NameAt c name c')
    (hvalue : Derives knownNames .value c'.rest rest) :
    Derives knownNames (.element .member) c.rest rest := by
  obtain ⟨t, gap, gap', hquote, hgap, hgap', hend⟩ := h.stringEnd
  rw [hquote]
  exact .member hend hgap hgap' hvalue

/-- What each of the three readers accepts is derived. -/
structure ReadsDerived (bound : Nat) : Prop where
  value {room : Nat} {c c' : Cursor} {v : Json} (h : readValue bound room c = .ok (v, c')) :
    Derives knownNames .value c.rest c'.rest
  items {room : Nat} {c c' : Cursor} {vs : List Json} (h : readItems bound room c = .ok (vs, c')) :
    Derives knownNames (.elements .item) c.rest c'.rest
  members {room : Nat} {c c' : Cursor} {ms ms' : List (Text × Json)}
    (h : readMembers bound room ms c = .ok (ms', c')) :
    Derives knownNames (.elements .member) c.rest c'.rest

theorem ReadsDerived.elements {bound : Nat} (h : ReadsDerived bound) {kind : Element} {room : Nat}
    {c c' : Cursor} {v : Json} (hread : readElements bound room c kind = .ok (v, c')) :
    Derives knownNames (.elements kind) c.rest c'.rest := by
  cases kind with
  | item =>
    obtain ⟨_, hitems, -⟩ := readElements_item_eq_ok.mp hread
    exact h.items hitems
  | member =>
    obtain ⟨_, hmembers, -⟩ := readElements_member_eq_ok.mp hread
    exact h.members hmembers

theorem readsDerived (bound : Nat) : ReadsDerived bound := by
  induction bound with
  | zero => exact ⟨nofun, nofun, nofun⟩
  | succ bound ih =>
    refine ⟨fun {room c c' v} h => ?_, fun {room c c' vs} h => ?_, fun {room c c' ms ms'} h => ?_⟩
    · have hstep := valueStep bound room c
      generalize readValue (bound + 1) room c = outcome at h hstep
      cases hstep with
      | fault => cases h
      | string _ hquote hstring =>
        cases h
        rw [hquote]
        exact .string (stringEnd_of_readString hstring)
      | full => cases h
      | empty _ hgap hrest =>
        cases h
        rw [hrest]
        exact .empty _ hgap _
      | inside _ hgap hrest =>
        rw [hrest]
        exact .collection _ hgap (ih.elements h)
      | atom => exact derives_of_readAtom h
    · have hstep := itemsStep bound room c
      generalize readItems (bound + 1) room c = outcome at h hstep
      cases hstep with
      | first => cases h
      | fault => cases h
      | last hvalue hgap hrest =>
        cases h
        exact .last (.item (hrest ▸ ih.value hvalue)) hgap
      | next hvalue hgap hgap' hrest =>
        obtain ⟨⟨_, _⟩, hitems, h⟩ := bind_eq_ok.mp h
        cases h
        exact .next (.item (hrest ▸ ih.value hvalue)) hgap hgap' (ih.items hitems)
    · have hstep := membersStep bound room ms c
      generalize readMembers (bound + 1) room ms c = outcome at h hstep
      cases hstep with
      | name => cases h
      | value => cases h
      | fault => cases h
      | last hname hvalue hgap hrest =>
        cases h
        exact .last (hname.derives (hrest ▸ ih.value hvalue)) hgap
      | next hname hvalue hgap hgap' hrest =>
        exact .next (hname.derives (hrest ▸ ih.value hvalue)) hgap hgap' (ih.members h)

/-- Whatever is read is a JSON text, but for the names of special numbers. -/
theorem extended_of_readWithin {room : Nat} {t : Text} {v : Json} (h : readWithin room t = .ok v) :
    Extended t := by
  obtain ⟨gap, c, c', ⟨hgap, hrest, ht⟩, hread⟩ := exists_readValue_of_readWithin h
  exact ⟨gap, c.rest, c'.rest, hgap, hrest, ht, (readsDerived _).value hread⟩

end HttpSnippet.Json

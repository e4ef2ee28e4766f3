import HttpSnippet.Proofs.Json.Room
import HttpSnippet.Proofs.Source.Token

/-!
# Special numbers

The names of the special numbers are all that the reader takes beyond the standard, and they alone
hold certain letters outside of strings. So a text that is read is a text of the standard exactly if
none of these letters stands there. A written value keeps to the standard exactly if its
floating-point numbers are finite, whatever the text was that it has been read from.
-/
namespace HttpSnippet.Json

/-! ### Ordinary code -/

/-- A character outside of strings that tells nothing of a special number. -/
def isOrdinary (c : Char) : Bool := !Dialect.javascript.opens c && c ≠ 'N' && c ≠ 'I'

/-- No letter of the code is one that only special numbers have in their names. -/
def Ordinary (tokens : List Token) : Prop := .code 'N' ∉ tokens ∧ .code 'I' ∉ tokens

theorem ordinary_append {s t : List Token} : Ordinary (s ++ t) ↔ Ordinary s ∧ Ordinary t := by
  simp only [Ordinary, List.mem_append, not_or]
  tauto

theorem isOrdinary_of_isDigit {c : Char} (hc : isDigit c = true) : isOrdinary c = true := by
  have hopens : Dialect.javascript.opens c = false :=
    Dialect.opens_of_isDigit (isDigit_eq c ▸ hc)
  simp [isOrdinary, hopens, ne_of_isDigit hc (b := 'N') rfl, ne_of_isDigit hc (b := 'I') rfl]

theorem isOrdinary_of_isSpace {c : Char} (hc : Cursor.isSpace c = true) : isOrdinary c = true := by
  simp only [Cursor.isSpace, Bool.or_eq_true, decide_eq_true_eq] at hc
  rcases hc with ((rfl | rfl) | rfl) | rfl <;> rfl

/-- The scanner passes what stands in front of a rest, and the code there is ordinary exactly
if `p`. -/
def Scans (t rest : Text) (p : Prop) : Prop :=
  ∃ tokens, Dialect.javascript.scan .code t =
    (Dialect.javascript.scan .code rest).map (tokens ++ ·) ∧ (Ordinary tokens ↔ p)

namespace Scans

variable {t u rest : Text} {p q : Prop}

theorem nil (t : Text) : Scans t t True := ⟨[], by simp, by simp [Ordinary]⟩

theorem trans (h : Scans t u p) (h' : Scans u rest q) : Scans t rest (p ∧ q) := by
  obtain ⟨tokens, hscan, hp⟩ := h
  obtain ⟨tokens', hscan', hq⟩ := h'
  refine ⟨tokens ++ tokens', ?_, by rw [ordinary_append, hp, hq]⟩
  rw [hscan, hscan', Option.map_map]
  congr 1
  funext more
  simp

theorem iff (h : Scans t rest p) (hpq : p ↔ q) : Scans t rest q := by
  obtain ⟨tokens, hscan, hp⟩ := h
  exact ⟨tokens, hscan, hp.trans hpq⟩

/-- Code is ordinary if it has neither of the letters. -/
theorem code_iff {code : Text} (hc : Dialect.javascript.Unquoted code) (rest : Text) :
    Scans (code ++ rest) rest ('N' ∉ code ∧ 'I' ∉ code) :=
  ⟨_, Dialect.scan_code hc rest, by simp [Ordinary]⟩

theorem code {code : Text} (hc : ∀ c ∈ code, isOrdinary c = true) (h : Scans t rest p) :
    Scans (code ++ t) rest p := by
  have hall (c : Char) (h : c ∈ code) := hc c h
  simp only [isOrdinary, Bool.and_eq_true, Bool.not_eq_true', decide_eq_true_eq] at hall
  refine ((code_iff (fun c h => (hall c h).1.1) t).trans h).iff (and_iff_right ⟨?_, ?_⟩)
  · exact fun h => (hall _ h).1.2 rfl
  · exact fun h => (hall _ h).2 rfl

theorem cons {c : Char} (hc : isOrdinary c = true) (h : Scans t rest p) :
    Scans (c :: t) rest p := by
  have hcode : ∀ b ∈ [c], isOrdinary b = true := List.forall_mem_singleton.mpr hc
  exact h.code hcode

theorem spacing {gap : Text} (hgap : Spacing gap) (h : Scans t rest p) :
    Scans (gap ++ t) rest p :=
  h.code fun c hc => isOrdinary_of_isSpace (hgap c hc)

end Scans

/-! ### Strings -/

/-- A character that is neither barred from a literal, nor a backslash, nor the closing quote. -/
theorem plain_of_hexValue? {c : Char} {n : Nat} (h : hexValue? c = some n) :
    Dialect.javascript.bars c = false ∧ c ≠ '\\' ∧ c ≠ '"' := by
  have hne : ∀ b ∈ ['\n', '\r', '\\', '"'], c ≠ b := by
    rintro b hb rfl
    have hnone : ∀ b ∈ ['\n', '\r', '\\', '"'], hexValue? b = none := by
      simp only [List.forall_mem_cons]
      exact ⟨rfl, rfl, rfl, rfl, by simp⟩
    cases h.symm.trans (hnone c hb)
  simp only [List.forall_mem_cons] at hne
  obtain ⟨hn, hr, hslash, hquote, -⟩ := hne
  exact ⟨by simp [Dialect.bars, hn, hr], hslash, hquote⟩

theorem keeps_hexUnit {a b c d : Char} {n : Nat} (h : hexUnit? a b c d = some n) :
    Dialect.javascript.Keeps '"' [a, b, c, d] := by
  simp only [hexUnit?, Option.bind_eq_bind, Option.bind_eq_some_iff] at h
  obtain ⟨_, ha, _, hb, _, hc, _, hd, -⟩ := h
  refine Dialect.keeps_of_forall ?_
  simp only [List.forall_mem_cons, List.not_mem_nil, false_implies, implies_true, and_true]
  exact ⟨plain_of_hexValue? ha, plain_of_hexValue? hb, plain_of_hexValue? hc,
    plain_of_hexValue? hd⟩

/-- What stands in a string of the grammar stands in a literal. -/
theorem StringEnd.exists_keeps {t rest : Text} (h : StringEnd t rest) :
    ∃ inside, t = inside ++ '"' :: rest ∧ Dialect.javascript.Keeps '"' inside := by
  induction h with
  | close rest => exact ⟨[], rfl, Dialect.keeps_nil⟩
  | @plain c t rest hquote hslash hc _ ih =>
    obtain ⟨inside, rfl, hkeeps⟩ := ih
    have hbars : Dialect.javascript.bars c = false := by
      simp only [Dialect.bars, Bool.or_eq_false_iff, decide_eq_false_iff_not]
      constructor <;> rintro rfl <;> exact absurd hc (by decide)
    exact ⟨c :: inside, rfl, (Dialect.keeps_singleton hbars hslash hquote).append hkeeps⟩
  | @escape c t rest hc _ ih =>
    obtain ⟨inside, rfl, hkeeps⟩ := ih
    have hbars : Dialect.javascript.bars c = false := by
      simp only [shortEscapes, List.mem_cons, List.not_mem_nil, or_false] at hc
      rcases hc with rfl | rfl | rfl | rfl | rfl | rfl | rfl | rfl <;> rfl
    exact ⟨'\\' :: c :: inside, rfl, (Dialect.keeps_escape rfl hbars).append hkeeps⟩
  | @unit a b c d n t rest hunit _ ih =>
    obtain ⟨inside, rfl, hkeeps⟩ := ih
    exact ⟨'\\' :: 'u' :: a :: b :: c :: d :: inside, rfl,
      ((Dialect.keeps_escape rfl rfl).append (keeps_hexUnit hunit)).append hkeeps⟩

theorem Scans.string {t u rest : Text} {p : Prop} (ht : StringEnd t u) (h : Scans u rest p) :
    Scans ('"' :: t) rest p := by
  obtain ⟨inside, rfl, hkeeps⟩ := ht.exists_keeps
  have hscan := Dialect.scan_literal (q := '"') rfl rfl (by decide) hkeeps u
  have hliteral : Scans ('"' :: (inside ++ '"' :: u)) u True :=
    ⟨[.literal '"' inside], hscan, by simp [Ordinary]⟩
  exact (hliteral.trans h).iff (by rw [true_and])

/-! ### Numerals and names -/

theorem isOrdinary_of_mem_sign (negative : Bool) :
    ∀ c ∈ signText negative, isOrdinary c = true := by
  cases negative <;> exact List.all_eq_true.mp rfl

theorem isOrdinary_of_mem_exponent {exponent : Text} (he : Exponent exponent) :
    ∀ c ∈ exponent, isOrdinary c = true := by
  cases he with
  | none => simp
  | size hmark hsign hd _ =>
    simp only [List.forall_mem_cons, List.forall_mem_append]
    refine ⟨?_, ?_, fun c hc => isOrdinary_of_isDigit (hd c hc)⟩
    · rcases hmark with rfl | rfl <;> rfl
    · rcases hsign with rfl | rfl | rfl <;> exact List.all_eq_true.mp rfl

theorem isOrdinary_of_mem_numeral {t : Text} (ht : Numeral t) : ∀ c ∈ t, isOrdinary c = true := by
  obtain ⟨negative, hw, hf, he⟩ := ht
  simp only [List.forall_mem_append]
  refine ⟨isOrdinary_of_mem_sign negative, fun c hc => isOrdinary_of_isDigit (hw.digits c hc), ?_,
    isOrdinary_of_mem_exponent he⟩
  cases hf with
  | none => simp
  | places hd _ =>
    exact List.forall_mem_cons.mpr ⟨rfl, fun c hc => isOrdinary_of_isDigit (hd c hc)⟩

/-- A name that the reader knows is a name of the standard if it is ordinary. -/
theorem scans_name {name : Text} (h : name ∈ knownNames) (rest : Text) :
    Scans (name ++ rest) rest (name ∈ standardNames) := by
  have hall : ∀ name ∈ knownNames, Dialect.javascript.Unquoted name ∧
      ('N' ∉ name ∧ 'I' ∉ name ↔ name ∈ standardNames) := by decide
  exact (Scans.code_iff (hall name h).1 rest).iff (hall name h).2

/-! ### Texts -/

theorem isOrdinary_opening (kind : Element) : isOrdinary kind.opening = true := by
  cases kind <;> rfl

theorem isOrdinary_closing (kind : Element) : isOrdinary kind.closing = true := by
  cases kind <;> rfl

/-- What is derived with the names of the standard is ordinary, and the other way round. -/
theorem Derives.scans {names : List Text} (hnames : names ⊆ knownNames) {part : Part}
    {t rest : Text} (h : Derives names part t rest) :
    ∃ p, Scans t rest p ∧ (names ⊆ standardNames → p) ∧
      (p → Derives standardNames part t rest) := by
  induction h with
  | name h rest =>
    exact ⟨_, scans_name (hnames h) rest, fun hstandard => hstandard h, fun h => .name h rest⟩
  | numeral h rest =>
    exact ⟨True, (Scans.nil rest).code (isOrdinary_of_mem_numeral h), fun _ => trivial,
      fun _ => .numeral h rest⟩
  | string h =>
    exact ⟨True, (Scans.nil _).string h, fun _ => trivial, fun _ => .string h⟩
  | empty kind hgap rest =>
    exact ⟨True, (((Scans.nil rest).cons (isOrdinary_closing kind)).spacing hgap).cons
      (isOrdinary_opening kind), fun _ => trivial, fun _ => .empty kind hgap rest⟩
  | collection kind hgap _ ih =>
    obtain ⟨p, hscan, hp, hderives⟩ := ih
    exact ⟨p, (hscan.spacing hgap).cons (isOrdinary_opening kind), hp,
      fun h => .collection kind hgap (hderives h)⟩
  | item _ ih =>
    obtain ⟨p, hscan, hp, hderives⟩ := ih
    exact ⟨p, hscan, hp, fun h => .item (hderives h)⟩
  | member hname hgap hgap' _ ih =>
    obtain ⟨p, hscan, hp, hderives⟩ := ih
    exact ⟨p, (((hscan.spacing hgap').cons rfl).spacing hgap).string hname, hp,
      fun h => .member hname hgap hgap' (hderives h)⟩
  | @last kind t gap rest _ hgap ih =>
    obtain ⟨p, hscan, hp, hderives⟩ := ih
    have hclosing := ((Scans.nil rest).cons (isOrdinary_closing kind)).spacing hgap
    exact ⟨p, (hscan.trans hclosing).iff (by rw [and_true]), hp,
      fun h => .last (hderives h) hgap⟩
  | next _ hgap hgap' _ ih ihmore =>
    obtain ⟨p, hscan, hp, hderives⟩ := ih
    obtain ⟨q, hmore, hq, hderives'⟩ := ihmore
    exact ⟨p ∧ q, hscan.trans (((hmore.spacing hgap').cons rfl).spacing hgap),
      fun hstandard => ⟨hp hstandard, hq hstandard⟩,
      fun h => .next (hderives h.1) hgap hgap' (hderives' h.2)⟩

/-- No special number stands in the text: its code, outside of its strings, is ordinary. -/
def SpecialFree (t : Text) : Prop :=
  ∃ tokens, Dialect.javascript.tokens? t = some tokens ∧ Ordinary tokens

theorem specialFree_iff {t : Text} {p : Prop} (h : Scans t [] p) : SpecialFree t ↔ p := by
  obtain ⟨tokens, hscan, hp⟩ := h
  have htokens : Dialect.javascript.tokens? t = some tokens := by
    rw [Dialect.tokens?, hscan]
    simp [Dialect.scan]
  rw [SpecialFree, htokens, ← hp]
  simp

theorem IsText.scans {names : List Text} (hnames : names ⊆ knownNames) {t : Text}
    (h : IsText names t) :
    ∃ p, Scans t [] p ∧ (names ⊆ standardNames → p) ∧ (p → Standard t) := by
  obtain ⟨gap, u, rest, hgap, hrest, rfl, hvalue⟩ := h
  obtain ⟨p, hscan, hp, hderives⟩ := hvalue.scans hnames
  have hend : Scans rest [] True := by
    have := (Scans.nil []).spacing hrest
    rwa [List.append_nil] at this
  exact ⟨p, ((hscan.trans hend).iff (by rw [and_true])).spacing hgap, hp,
    fun h => ⟨gap, u, rest, hgap, hrest, rfl, hderives h⟩⟩

/-- The texts of the standard are those without special numbers. -/
theorem standard_iff {t : Text} : Standard t ↔ Extended t ∧ SpecialFree t := by
  constructor
  · intro h
    obtain ⟨p, hscan, hp, -⟩ := IsText.scans (by decide) h
    exact ⟨h.extended, (specialFree_iff hscan).mpr (hp (List.Subset.refl _))⟩
  · rintro ⟨h, hfree⟩
    obtain ⟨p, hscan, -, hstandard⟩ := IsText.scans (List.Subset.refl _) h
    exact hstandard ((specialFree_iff hscan).mp hfree)

/-- The text is read with some room, although it is no text of the standard. -/
def BeyondStandard (room : Nat) (t : Text) : Prop :=
  Extended t ∧ (¬∃ halt, HasHalt halt room t) ∧ ¬SpecialFree t

theorem beyondStandard_iff {room : Nat} {t : Text} :
    BeyondStandard room t ↔ (∃ v, readWithin room t = .ok v) ∧ ¬Standard t := by
  rw [exists_readWithin_iff_not_hasHalt, standard_iff, BeyondStandard]
  tauto

/-! ### The empty object -/

theorem insertMember_ne_nil (name : Text) (value : Json) (members : List (Text × Json)) :
    insertMember name value members ≠ [] := by
  cases members with
  | nil => exact List.cons_ne_nil _ _
  | cons m ms =>
    unfold insertMember
    split <;> exact List.cons_ne_nil _ _

/-- Members are read only where there is one. -/
theorem readMembers_ne_nil {bound room : Nat} {ms ms' : List (Text × Json)} {c c' : Cursor}
    (h : readMembers bound room ms c = .ok (ms', c')) : ms' ≠ [] := by
  induction bound generalizing ms c with
  | zero => cases h
  | succ bound ih =>
    have hstep := membersStep bound room ms c
    generalize readMembers (bound + 1) room ms c = outcome at h hstep
    cases hstep with
    | name => cases h
    | value => cases h
    | fault => cases h
    | last =>
      cases h
      exact insertMember_ne_nil _ _ _
    | next => exact ih h

theorem readNumber_ne_obj {c c' : Cursor} {ms : List (Text × Json)} :
    readNumber c ≠ .ok (.obj ms, c') := by
  intro h
  unfold readNumber at h
  dsimp only at h
  split at h
  · cases h
  · next whole t _ =>
    cases hfraction : fraction? t with
    | some found =>
      simp only [hfraction] at h
      split at h <;> cases h
    | none =>
      simp only [hfraction, Bool.false_eq_true, if_false] at h
      split at h
      · cases h
      · split at h <;> cases h

theorem readAtom_ne_obj {c c' : Cursor} {ms : List (Text × Json)} :
    readAtom c ≠ .ok (.obj ms, c') := by
  intro h
  unfold readAtom at h
  split at h
  · next name w hfound =>
    cases h
    have hmem := List.mem_of_find?_eq_some hfound
    simp [literals] at hmem
  · exact readNumber_ne_obj h

/-- Only a text of the standard is read as an empty object. -/
theorem standard_of_readWithin_eq_empty {room : Nat} {t : Text}
    (h : readWithin room t = .ok (.obj [])) : Standard t := by
  obtain ⟨gap, c, c', ⟨hgap, hrest, ht⟩, hread⟩ := exists_readValue_of_readWithin h
  refine ⟨gap, c.rest, c'.rest, hgap, hrest, ht, ?_⟩
  have hstep := valueStep (2 * t.length + 1) room c
  generalize hvalue : (Json.obj [], c') = found at hread
  generalize readValue (2 * t.length + 1 + 1) room c = outcome at hread hstep
  cases hstep with
  | fault => cases hread
  | string =>
    cases hread
    cases hvalue
  | full => cases hread
  | @empty _ kind gap _ hgap hinner =>
    cases hread
    cases kind with
    | item => cases hvalue
    | member =>
      cases hvalue
      rw [hinner]
      exact .empty .member hgap _
  | @inside _ kind _ _ _ _ =>
    cases hvalue
    cases kind with
    | item =>
      obtain ⟨_, -, hitems⟩ := readElements_item_eq_ok.mp hread
      cases hitems
    | member =>
      obtain ⟨members, hmembers, hnil⟩ := readElements_member_eq_ok.mp hread
      cases hnil
      exact absurd rfl (readMembers_ne_nil hmembers)
  | atom =>
    cases hvalue
    exact absurd hread readAtom_ne_obj

/-! ### Values -/

/-- No floating-point number in the value is a special one. -/
inductive Finite : Json → Prop where
  | null : Finite .null
  | bool (b : Bool) : Finite (.bool b)
  | int (n : Int) : Finite (.int n)
  | float (negative : Bool) (m : Nat) (q : Int) : Finite (.float (.finite negative m q))
  | str (t : Text) : Finite (.str t)
  | arr {items : List Json} (h : ∀ v ∈ items, Finite v) : Finite (.arr items)
  | obj {members : List (Text × Json)} (h : ∀ m ∈ members, Finite m.2) : Finite (.obj members)

theorem finite_arr {items : List Json} : Finite (.arr items) ↔ ∀ v ∈ items, Finite v :=
  ⟨fun h => by cases h; assumption, .arr⟩

theorem finite_obj {members : List (Text × Json)} :
    Finite (.obj members) ↔ ∀ m ∈ members, Finite m.2 :=
  ⟨fun h => by cases h; assumption, .obj⟩

variable {layout : Layout} {ascii : Bool} {indent : Text}

theorem numeral_signText (negative : Bool) {t : Text} {digits : Nat} {e : Int}
    (ht : FloatNumeral t digits e) : Numeral (signText negative ++ t) := by
  cases ht with
  | places hw hp hne =>
    have h := Numeral.mk negative hw (.places hp hne) .none
    rwa [List.append_nil] at h
  | @exponent whole places size below hw hp hs hne =>
    have hsign : [signMark below] = [] ∨ [signMark below] = ['-'] ∨ [signMark below] = ['+'] := by
      cases below <;> simp [signMark]
    have hsize : Exponent ('e' :: signMark below :: size) := .size (.inl rfl) hsign hs hne
    cases places with
    | nil => exact .mk negative hw .none hsize
    | cons d ds => exact .mk negative hw (.places hp (List.cons_ne_nil d ds)) hsize

theorem scans_floatText {x : Binary64} (hx : x.Canonical) (rest : Text) :
    Scans (floatText x ++ rest) rest (Finite (.float x)) := by
  cases x with
  | nan => exact (Scans.code_iff (by decide) rest).iff (iff_of_false (by decide) nofun)
  | infinity negative =>
    cases negative with
    | true => exact (Scans.code_iff (by decide) rest).iff (iff_of_false (by decide) nofun)
    | false => exact (Scans.code_iff (by decide) rest).iff (iff_of_false (by decide) nofun)
  | finite negative m q =>
    obtain ⟨t, digits, e, htext, hnumeral, -⟩ := exists_floatNumeral hx
    rw [htext]
    have hcode := isOrdinary_of_mem_numeral (numeral_signText negative hnumeral)
    exact ((Scans.nil rest).code hcode).iff (iff_of_true trivial (.float negative m q))

/-- A value is passed wherever it is written, and its code is ordinary exactly if it is finite. -/
def ScansFinite (layout : Layout) (ascii : Bool) (indent : Text) (v : Json) : Prop :=
  ∀ level rest, Scans (Fragment.render indent (v.fragment layout ascii level) ++ rest) rest v.Finite

theorem scans_items (hi : layout = .indented → Spacing indent) {vs : List Json}
    (h : ∀ v ∈ vs, ScansFinite layout ascii indent v) (level : Nat) (rest : Text) :
    Scans (Fragment.render indent (itemFragments layout ascii level vs) ++ rest) rest
      (∀ v ∈ vs, v.Finite) := by
  induction vs with
  | nil => exact (Scans.nil rest).iff (by simp)
  | cons v vs ih =>
    obtain ⟨hv, hvs⟩ := List.forall_mem_cons.mp h
    obtain ⟨gap, hgap, hcomma⟩ := render_comma hi level
    rw [itemFragments, Fragment.render_append, Fragment.render_append, hcomma, List.append_assoc,
      List.append_assoc, List.cons_append, List.forall_mem_cons]
    exact (((hv level _).trans (ih hvs)).spacing hgap).cons rfl

/-- What a text is written as in a string ends at the closing quote. -/
theorem stringEnd_inside (ascii : Bool) (t rest : Text) :
    StringEnd (inside ascii t ++ '"' :: rest) rest := by
  obtain ⟨p, hp⟩ := readString_inside ascii t 0 1 rest
  exact stringEnd_of_readString hp

theorem scans_member {v : Json} (h : ScansFinite layout ascii indent v) (level : Nat)
    (k rest : Text) :
    Scans (Fragment.render indent (memberFragment layout ascii level k v) ++ rest) rest
      v.Finite := by
  obtain ⟨gap, hgap, htext⟩ := render_member layout ascii indent k v level
  rw [htext, List.cons_append, List.append_assoc, List.cons_append, List.cons_append,
    List.append_assoc]
  exact (((h level rest).spacing hgap).cons rfl).string (stringEnd_inside ascii k _)

theorem scans_members (hi : layout = .indented → Spacing indent) {ms : List (Text × Json)}
    (h : ∀ m ∈ ms, ScansFinite layout ascii indent m.2) (level : Nat) (rest : Text) :
    Scans (Fragment.render indent (memberFragments layout ascii level ms) ++ rest) rest
      (∀ m ∈ ms, m.2.Finite) := by
  induction ms with
  | nil => exact (Scans.nil rest).iff (by simp)
  | cons m ms ih =>
    obtain ⟨k, v⟩ := m
    obtain ⟨hv, hms⟩ := List.forall_mem_cons.mp h
    obtain ⟨gap, hgap, hcomma⟩ := render_comma hi level
    rw [memberFragments, ← memberFragment, Fragment.render_append, Fragment.render_append, hcomma,
      List.append_assoc, List.append_assoc, List.cons_append, List.forall_mem_cons]
    exact (((scans_member hv level k _).trans (ih hms)).spacing hgap).cons rfl

theorem scansFinite_arr (hi : layout = .indented → Spacing indent) {items : List Json}
    (h : ∀ v ∈ items, ScansFinite layout ascii indent v) :
    ScansFinite layout ascii indent (.arr items) := by
  intro level rest
  rw [finite_arr]
  cases items with
  | nil =>
    rw [fragment, render_code]
    exact (((Scans.nil rest).cons (c := ']') rfl).cons (c := '[') rfl).iff (by simp)
  | cons v vs =>
    obtain ⟨hv, hvs⟩ := List.forall_mem_cons.mp h
    have hclosing := ((Scans.nil rest).cons (c := ']') rfl).spacing (spacing_opened hi level)
    have hitems := (hv (level + 1) _).trans ((scans_items hi hvs (level + 1) _).trans hclosing)
    have hall := (hitems.spacing (spacing_opened hi (level + 1))).cons (c := '[') rfl
    rw [List.forall_mem_cons]
    simpa [fragment, Fragment.render_append, Fragment.render_cons, Fragment.render, Piece.render]
      using hall

theorem scansFinite_obj (hi : layout = .indented → Spacing indent) {members : List (Text × Json)}
    (h : ∀ m ∈ members, ScansFinite layout ascii indent m.2) :
    ScansFinite layout ascii indent (.obj members) := by
  intro level rest
  rw [finite_obj]
  cases members with
  | nil =>
    rw [fragment, render_code]
    exact (((Scans.nil rest).cons (c := '\x7d') rfl).cons (c := '\x7b') rfl).iff (by simp)
  | cons m ms =>
    obtain ⟨k, v⟩ := m
    obtain ⟨hv, hms⟩ := List.forall_mem_cons.mp h
    have hclosing := ((Scans.nil rest).cons (c := '\x7d') rfl).spacing (spacing_opened hi level)
    have hitems := (scans_member hv (level + 1) k _).trans
      ((scans_members hi hms (level + 1) _).trans hclosing)
    have hall := (hitems.spacing (spacing_opened hi (level + 1))).cons (c := '\x7b') rfl
    rw [List.forall_mem_cons]
    simpa [fragment, memberFragment, Fragment.render_append, Fragment.render_cons, Fragment.render,
      Piece.render] using hall

theorem scansFinite (hi : layout = .indented → Spacing indent) (ascii : Bool) {v : Json}
    (hv : v.WellFormed) : ScansFinite layout ascii indent v := by
  induction hv with
  | null =>
    intro level rest
    rw [fragment, render_code]
    exact ((Scans.nil rest).code (List.all_eq_true.mp rfl)).iff (iff_of_true trivial .null)
  | bool b =>
    intro level rest
    cases b <;> rw [fragment, render_code] <;>
      exact ((Scans.nil rest).code (List.all_eq_true.mp rfl)).iff (iff_of_true trivial (.bool _))
  | @int n hn =>
    intro level rest
    rw [fragment, render_code, ofInt_eq, List.append_assoc]
    have hdigits : ∀ c ∈ Text.ofNat n.natAbs, isOrdinary c = true :=
      fun c hc => isOrdinary_of_isDigit (digits_ofNat _ c hc)
    exact (((Scans.nil rest).code hdigits).code (isOrdinary_of_mem_sign _)).iff
      (iff_of_true trivial (.int n))
  | float hx =>
    intro level rest
    rw [fragment, render_code]
    exact scans_floatText hx rest
  | str t =>
    intro level rest
    rw [fragment, Fragment.render_cons, Piece.render, quote, ← inside]
    simpa [Fragment.render] using
      ((Scans.nil rest).string (stringEnd_inside ascii t rest)).iff (iff_of_true trivial (.str t))
  | arr h ih => exact scansFinite_arr hi ih
  | obj hnames h ih => exact scansFinite_obj hi ih

/-- A written value is a text of the standard exactly if it is finite. -/
theorem standard_render_iff (hi : layout = .indented → Spacing indent) (ascii : Bool) (level : Nat)
    {v : Json} (hv : v.WellFormed) :
    Standard (Fragment.render indent (v.fragment layout ascii level)) ↔ v.Finite := by
  have hscan := scansFinite hi ascii hv level []
  rw [List.append_nil] at hscan
  rw [standard_iff, specialFree_iff hscan]
  exact and_iff_right (extended_of_read (read_render hi ascii level hv))

end HttpSnippet.Json

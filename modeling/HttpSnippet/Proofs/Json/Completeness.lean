import Mathlib.Data.List.TakeWhile
import HttpSnippet.Proofs.Json.Grammar

/-!
# Texts that the reader accepts

What the grammar derives is read, and nothing is left over but the rest that the derivation leaves.
The only things that the reader refuses in such a text are an integer of too many digits and a
collection that there is no room for, so what it stops at is described by the grammar too: a text
that is derived up to there.
-/
namespace HttpSnippet.Json

/-- How a reading ends: with some rest, or else where the reader stops without a fault. -/
def Ends {α : Type} (stop : Option Text) (outcome : Except ReadError (α × Cursor)) : Prop :=
  match stop with
  | some rest => ∃ a position, outcome = .ok (a, ⟨position, rest⟩)
  | none => ∃ e, outcome = .error e ∧ e.IsHalt

theorem Ends.bind_none {α β : Type} {x : Except ReadError (α × Cursor)}
    (h : Ends none x) (f : α × Cursor → Except ReadError (β × Cursor)) :
    Ends none (x >>= f) := by
  obtain ⟨e, rfl, he⟩ := h
  exact ⟨e, rfl, he⟩

theorem Ends.bind {α β : Type} {x : Except ReadError (α × Cursor)} {rest : Text}
    {stop : Option Text} {f : α × Cursor → Except ReadError (β × Cursor)}
    (h : Ends (some rest) x) (hf : ∀ a position, Ends stop (f (a, ⟨position, rest⟩))) :
    Ends stop (x >>= f) := by
  obtain ⟨a, position, rfl⟩ := h
  exact hf a position

/-- What is made of the outcome does not change where the reading ends. -/
theorem Ends.bind_pure {α β : Type} {x : Except ReadError (α × Cursor)} {stop : Option Text}
    (h : Ends stop x) {f : α × Cursor → Except ReadError (β × Cursor)}
    (hf : ∀ a c, ∃ b, f (a, c) = .ok (b, c)) : Ends stop (x >>= f) := by
  cases stop with
  | none => exact h.bind_none f
  | some rest =>
    refine h.bind fun a position => ?_
    obtain ⟨b, hb⟩ := hf a ⟨position, rest⟩
    exact ⟨b, position, hb⟩

/-! ### Numerals -/

theorem exponent?_size {mark : Char} {sign ds rest : Text} (hmark : mark = 'e' ∨ mark = 'E')
    (hsign : sign = [] ∨ sign = ['-'] ∨ sign = ['+']) (hd : Digits ds) (hne : ds ≠ [])
    (hr : NoDigit rest) :
    ∃ e n, exponent? (mark :: (sign ++ (ds ++ rest))) = some (e, n, rest) := by
  obtain ⟨c, ds', rfl⟩ := List.exists_cons_of_ne_nil hne
  have htake := takeWhile_digits hd hr
  have hdrop := dropWhile_digits hd hr
  have hc := hd c List.mem_cons_self
  have hminus : c ≠ '-' := ne_of_isDigit hc rfl
  have hplus : c ≠ '+' := ne_of_isDigit hc rfl
  rw [List.cons_append] at htake hdrop ⊢
  rcases hsign with rfl | rfl | rfl <;>
    simp [exponent?, hmark, hminus, hplus, htake, hdrop]

theorem Fraction.noDigit {fraction rest : Text} (hf : Fraction fraction) (hr : NoDigit rest) :
    NoDigit (fraction ++ rest) := by
  cases hf with
  | none => exact hr
  | places _ _ => exact noDigit_cons rfl _

theorem Exponent.noDigit {exponent rest : Text} (he : Exponent exponent) (hr : NoDigit rest) :
    NoDigit (exponent ++ rest) := by
  cases he with
  | none => exact hr
  | size hmark _ _ _ =>
    refine noDigit_cons ?_ _
    rcases hmark with rfl | rfl <;> rfl

theorem Exponent.head_ne_point {exponent rest : Text} (he : Exponent exponent)
    (hr : EndsNumeral rest) : (exponent ++ rest).head? ≠ some '.' := by
  cases he with
  | none => exact fun h => (hr '.' h).2.1 rfl
  | size hmark _ _ _ => rcases hmark with rfl | rfl <;> simp

/-- A numeral is read up to its end, unless it is an integer of too many digits. -/
theorem ends_readNumber {t rest : Text} (ht : Numeral t) (hr : EndsNumeral rest) :
    (∀ position, Ends (some rest) (readNumber ⟨position, t ++ rest⟩)) ∨
      ∀ position, Ends none (readNumber ⟨position, t ++ rest⟩) := by
  obtain ⟨negative, hw, hf, he⟩ := ht
  rename_i whole fraction exponent
  set tail := exponent ++ rest with htail
  have hpart : integerPart? (whole ++ (fraction ++ tail)) = some (whole, fraction ++ tail) :=
    integerPart?_append hw (hf.noDigit (he.noDigit hr.noDigit))
  obtain ⟨c, u, hcons, hc⟩ := hw.append_eq_cons (fraction ++ tail)
  have hsign : c ≠ '-' := ne_of_isDigit hc rfl
  have hassoc : signText negative ++ (whole ++ (fraction ++ exponent)) ++ rest =
      signText negative ++ (whole ++ (fraction ++ tail)) := by
    simp only [List.append_assoc, htail]
  rw [hassoc, hcons]
  rw [hcons] at hpart
  have hexponent : exponent? tail = none ∧ tail = rest ∨
      ∃ e n, exponent? tail = some (e, n, rest) := by
    cases he with
    | none => exact .inl ⟨exponent?_eq_none hr, rfl⟩
    | size hmark hsign hd hne =>
      rw [htail, List.cons_append, List.append_assoc]
      exact .inr (exponent?_size hmark hsign hd hne hr.noDigit)
  have hfraction : fraction? (fraction ++ tail) = none ∧ fraction ++ tail = tail ∨
      ∃ ds, fraction? (fraction ++ tail) = some (ds, tail) := by
    cases hf with
    | none => exact .inl ⟨fraction?_eq_none (he.head_ne_point hr), rfl⟩
    | places hd hne => exact .inr ⟨_, fraction?_append hd hne (he.noDigit hr.noDigit)⟩
  unfold Ends
  clear_value tail
  rcases hfraction with ⟨hfraction, hsame⟩ | ⟨ds, hfraction⟩
  · rw [hsame] at hpart hfraction
    rcases hexponent with ⟨hexponent, rfl⟩ | ⟨e, n, hexponent⟩
    · by_cases hlong : Number.maxDigits < whole.length
      · refine .inr fun position => ⟨_, ?_, isHalt_numeralTooLong whole.length⟩
        cases negative <;> simp [readNumber, signText, hsign, hpart, hfraction, hexponent, hlong]
      · refine .inl fun position => ?_
        cases negative <;> simp [readNumber, signText, hsign, hpart, hfraction, hexponent, hlong]
    · refine .inl fun position => ?_
      cases negative <;> simp [readNumber, signText, hsign, hpart, hfraction, hexponent]
  · refine .inl fun position => ?_
    rcases hexponent with ⟨hexponent, rfl⟩ | ⟨e, n, hexponent⟩ <;>
      cases negative <;> simp [readNumber, signText, hsign, hpart, hfraction, hexponent]

/-! ### Strings -/

theorem StringEnd.ne_nil {t rest : Text} (h : StringEnd t rest) : t ≠ [] := by
  cases h <;> simp

/-- Whether a text begins with the escape of a unit is seen from how its string goes on. -/
theorem StringEnd.unit_or {t rest : Text} (h : StringEnd t rest) :
    (∃ a b c d n s, t = '\\' :: 'u' :: a :: b :: c :: d :: s ∧ hexUnit? a b c d = some n ∧
      StringEnd s rest) ∨ ∀ s, t ≠ '\\' :: 'u' :: s := by
  cases h with
  | close => exact .inr (by simp)
  | plain _ hslash _ _ => exact .inr fun s hs => hslash (List.cons.inj hs).1
  | escape hc _ =>
    refine .inr fun s hs => ?_
    obtain rfl := (List.cons.inj (List.cons.inj hs).2).1
    exact absurd hc (by decide)
  | unit hunit h => exact .inl ⟨_, _, _, _, _, _, rfl, hunit, h⟩

/-- A unit is read by itself, or together with the second half of its pair. -/
theorem readString_unit_or {a b c d : Char} {n : Nat} (hn : hexUnit? a b c d = some n)
    {t rest : Text} (h : StringEnd t rest) (start position : Nat) :
    (∃ x, readString start position ('\\' :: 'u' :: a :: b :: c :: d :: t) =
      consRead x (readString start (position + 6) t)) ∨
    ∃ e f g i low s x, t = '\\' :: 'u' :: e :: f :: g :: i :: s ∧ hexUnit? e f g i = some low ∧
      isHighSurrogate low = false ∧ s ≠ [] ∧
      readString start position ('\\' :: 'u' :: a :: b :: c :: d :: t) =
        consRead x (readString start (position + 12) s) := by
  cases hhigh : isHighSurrogate n with
  | false => exact .inl ⟨_, readString_unit hn hhigh start position h.ne_nil⟩
  | true =>
    rcases h.unit_or with ⟨e, f, g, i, low, s, rfl, hlow, hs⟩ | hother
    · cases hisLow : isLowSurrogate low with
      | true =>
        have hnot : isHighSurrogate low = false := by
          simp only [isLowSurrogate, isHighSurrogate, Bool.and_eq_true, Bool.and_eq_false_iff,
            decide_eq_true_eq, decide_eq_false_iff_not] at hisLow ⊢
          omega
        exact .inr ⟨e, f, g, i, low, s, _, rfl, hlow, hnot, hs.ne_nil,
          readString_pair hn hlow hhigh hisLow start position hs.ne_nil⟩
      | false =>
        obtain ⟨after, u, rfl⟩ := List.exists_cons_of_ne_nil hs.ne_nil
        refine .inl ⟨unitChar n, ?_⟩
        generalize hout : readString start (position + 6) _ = out
        rw [readString]
        simp only [hn, hhigh, hlow, hisLow, hout, if_true, Bool.false_eq_true, if_false]
        rfl
    · obtain ⟨after, u, rfl⟩ := List.exists_cons_of_ne_nil h.ne_nil
      refine .inl ⟨unitChar n, ?_⟩
      generalize hout : readString start (position + 6) _ = out
      rw [readString]
      · simp only [hn, hout]
        rfl
      · rintro e f g i x v rfl rfl
        exact hother _ rfl

theorem ends_consRead_iff {c : Char} {rest : Text}
    {outcome : Except ReadError (Text × Cursor)} :
    Ends (some rest) (consRead c outcome) ↔ Ends (some rest) outcome := by
  constructor
  · rintro ⟨s, p, h⟩
    obtain ⟨s', hs⟩ := rest_of_map_cons h
    exact ⟨s', p, hs⟩
  · rintro ⟨s, p, rfl⟩
    exact ⟨_, p, rfl⟩

/-- A string of the grammar is read up to its end. -/
theorem ends_readString {t rest : Text} (h : StringEnd t rest) (start position : Nat) :
    Ends (some rest) (readString start position t) := by
  induction h generalizing position with
  | close rest => exact ⟨_, _, rfl⟩
  | plain hquote hslash hc _ ih =>
    rw [readString_plain hquote hslash hc, ends_consRead_iff]
    exact ih _
  | @escape c t rest hc _ ih =>
    have hu : c ≠ 'u' := by
      rintro rfl
      exact absurd hc (by decide)
    obtain ⟨m, hm⟩ : ∃ m, unescape? c = some m := by
      simp only [shortEscapes, List.mem_cons, List.not_mem_nil, or_false] at hc
      rcases hc with rfl | rfl | rfl | rfl | rfl | rfl | rfl | rfl <;> exact ⟨_, rfl⟩
    rw [readString_escape hu hm, ends_consRead_iff]
    exact ih _
  | unit hunit h ih =>
    rcases readString_unit_or hunit h start position with
      ⟨x, hx⟩ | ⟨e, f, g, i, low, s, x, rfl, hlow, hnot, hs, hx⟩
    · rw [hx, ends_consRead_iff]
      exact ih _
    · -- the second half of the pair could be read by itself, and so can what is behind it
      have hsecond := ih (position + 6)
      rw [readString_unit hlow hnot start _ hs, ends_consRead_iff] at hsecond
      rw [hx, ends_consRead_iff]
      exact hsecond

/-! ### Values -/

/-- The text begins with a character that stands neither for white space nor for an end. -/
def Begins (t : Text) : Prop :=
  ∃ b u, t = b :: u ∧ Cursor.isSpace b = false ∧ b ≠ ']' ∧ b ≠ '\x7d' ∧ b ≠ '\uFEFF'

theorem Begins.skipSpace {gap t : Text} (h : Begins t) (hgap : Spacing gap) (position : Nat) :
    (Cursor.mk position (gap ++ t)).skipSpace = ⟨position + gap.length, t⟩ := by
  obtain ⟨b, u, rfl, hb, -⟩ := h
  exact skipSpace_append hgap hb position u

theorem IsWhole.begins {whole : Text} (hw : IsWhole whole) (negative : Bool) (t : Text) :
    Begins (signText negative ++ (whole ++ t)) := by
  obtain ⟨c, u, hcons, hc⟩ := hw.append_eq_cons t
  rw [hcons]
  have hne {b : Char} (hb : isDigit b = false) : c ≠ b := ne_of_isDigit hc hb
  cases negative with
  | true => exact ⟨'-', c :: u, rfl, by decide⟩
  | false =>
    refine ⟨c, u, rfl, ?_, hne rfl, hne rfl, hne rfl⟩
    simp [Cursor.isSpace, hne (b := ' ') rfl, hne (b := '\t') rfl, hne (b := '\n') rfl,
      hne (b := '\r') rfl]

theorem Element.begins_opening (kind : Element) (t : Text) : Begins (kind.opening :: t) := by
  cases kind <;> exact ⟨_, _, rfl, by decide⟩

theorem Derives.begins {part : Part} {t rest : Text} (h : Derives knownNames part t rest) :
    Begins t := by
  induction h with
  | name h rest =>
    simp only [knownNames, List.mem_cons, List.not_mem_nil, or_false] at h
    rcases h with rfl | rfl | rfl | rfl | rfl | rfl <;> exact ⟨_, _, rfl, by decide⟩
  | numeral h rest =>
    obtain ⟨negative, hw, -, -⟩ := h
    rw [List.append_assoc, List.append_assoc]
    exact hw.begins negative _
  | string h => exact ⟨_, _, rfl, by decide⟩
  | empty kind _ _ => exact kind.begins_opening _
  | collection kind _ _ _ => exact kind.begins_opening _
  | item _ ih => exact ih
  | member _ _ _ _ _ => exact ⟨_, _, rfl, by decide⟩
  | last _ _ ih => exact ih
  | next _ _ _ _ ih _ => exact ih

/-- A literal name or a number is all that a value is, unless no value is there at all. -/
theorem readValue_eq_readAtom {c : Cursor} (h : ∀ p, readAtom c ≠ .error (.syntaxError .value p))
    (bound room : Nat) : readValue (bound + 1) room c = readAtom c := by
  obtain ⟨position, t⟩ := c
  unfold readValue
  split
  · next heq =>
    obtain rfl : t = _ := heq
    exact absurd rfl (h position)
  · next heq =>
    obtain rfl : t = _ := heq
    exact absurd rfl (h position)
  · next heq =>
    obtain rfl : t = _ := heq
    exact absurd rfl (h position)
  · rfl

theorem Ends.readValue {stop : Option Text} {c : Cursor} (h : Ends stop (readAtom c))
    (bound room : Nat) : Ends stop (Json.readValue (bound + 1) room c) := by
  rw [readValue_eq_readAtom _ bound room]
  · exact h
  · intro p hp
    rw [hp] at h
    cases stop with
    | none =>
      obtain ⟨_, h, he⟩ := h
      cases h
      exact he _ _ rfl
    | some rest =>
      obtain ⟨_, _, h⟩ := h
      cases h

/-- How the elements of a kind are read from a text. -/
def ElementsEnd (stop : Option Text) (bound room : Nat) : Element → Text → Prop
  | .item, t => ∀ position, Ends stop (readItems bound room ⟨position, t⟩)
  | .member, t => ∀ members position, Ends stop (readMembers bound room members ⟨position, t⟩)

/-- How one element is read from a text, which is at the same time how its value is read. -/
def ElementEnds (stop : Option Text) (bound room : Nat) : Element → Text → Prop
  | .item, t => ∀ position, Ends stop (readValue bound room ⟨position, t⟩)
  | .member, t => ∃ s gap gap' u, t = '"' :: s ∧ StringEnd s (gap ++ ':' :: (gap' ++ u)) ∧
      Spacing gap ∧ Spacing gap' ∧ Begins u ∧
        ∀ position, Ends stop (readValue bound room ⟨position, u⟩)

variable {stop : Option Text} {bound room : Nat} {kind : Element}

/-- There is no room for a collection where all of it is taken. -/
theorem ends_readValue_full (kind : Element) (t : Text) (position : Nat) :
    Ends none (readValue (bound + 1) 0 ⟨position, kind.opening :: t⟩) := by
  cases kind with
  | item => exact ⟨_, rfl, isHalt_tooDeep .readingArray⟩
  | member => exact ⟨_, rfl, isHalt_tooDeep .readingObject⟩

theorem ends_readValue_collection {gap t : Text} (hgap : Spacing gap) (ht : Begins t)
    (h : ElementsEnd stop bound room kind t) (position : Nat) :
    Ends stop (readValue (bound + 1) (room + 1) ⟨position, kind.opening :: (gap ++ t)⟩) := by
  have hskip := ht.skipSpace hgap (position + 1)
  obtain ⟨b, u, rfl, -, hitem, hmember, -⟩ := ht
  cases kind with
  | item =>
    simp only [Element.opening, readValue, enter, Cursor.drop, List.drop_succ_cons, List.drop_zero,
      hskip]
    split
    · next heq => exact absurd (List.cons.inj heq).1 hitem
    · exact (h _).bind_pure fun items c => ⟨_, rfl⟩
  | member =>
    simp only [Element.opening, readValue, enter, Cursor.drop, List.drop_succ_cons, List.drop_zero,
      hskip]
    split
    · next heq => exact absurd (List.cons.inj heq).1 hmember
    · exact (h [] _).bind_pure fun members c => ⟨_, rfl⟩

theorem ends_readValue_empty (kind : Element) {gap : Text} (hgap : Spacing gap) (rest : Text)
    (position : Nat) :
    Ends (some rest)
      (readValue (bound + 1) (room + 1)
        ⟨position, kind.opening :: (gap ++ kind.closing :: rest)⟩) := by
  cases kind with
  | item =>
    have hskip := skipSpace_append hgap (c := ']') rfl (position + 1) rest
    refine ⟨.arr [], position + 1 + gap.length + 1, ?_⟩
    simp only [Element.opening, Element.closing, readValue, enter, Cursor.drop, List.drop_succ_cons,
      List.drop_zero, hskip]
  | member =>
    have hskip := skipSpace_append hgap (c := '\x7d') rfl (position + 1) rest
    refine ⟨.obj [], position + 1 + gap.length + 1, ?_⟩
    simp only [Element.opening, Element.closing, readValue, enter, Cursor.drop, List.drop_succ_cons,
      List.drop_zero, hskip]

theorem ends_readValue_string {t rest : Text} (h : StringEnd t rest) (position : Nat) :
    Ends (some rest) (readValue (bound + 1) room ⟨position, '"' :: t⟩) :=
  (ends_readString h position (position + 1)).bind fun s p => ⟨.str s, p, rfl⟩

/-- What reading does once an item has been read. -/
def afterItem (bound room : Nat) (item : Json) (c : Cursor) :
    Except ReadError (List Json × Cursor) :=
  match c.skipSpace.rest with
  | ']' :: _ => .ok ([item], c.skipSpace.drop 1)
  | ',' :: _ => do
    let (items, c) ← readItems bound room (c.skipSpace.drop 1).skipSpace
    return (item :: items, c)
  | _ => c.skipSpace.fail .comma

theorem readItems_eq (bound room : Nat) (c : Cursor) :
    readItems (bound + 1) room c =
      readValue bound room c >>= fun (item, c) => afterItem bound room item c :=
  rfl

/-- A member is read up to its value, whatever that is. -/
theorem readMembers_eq {s gap gap' u : Text} (hname : StringEnd s (gap ++ ':' :: (gap' ++ u)))
    (hgap : Spacing gap) (hgap' : Spacing gap') (hu : Begins u) (bound room : Nat)
    (members : List (Text × Json)) (position : Nat) :
    ∃ name p, readMembers (bound + 1) room members ⟨position, '"' :: s⟩ =
      readValue bound room ⟨p, u⟩ >>= fun (value, c) =>
        afterMember bound room (insertMember name value members) c := by
  obtain ⟨name, p, hp⟩ := ends_readString hname position (position + 1)
  have hcolon := skipSpace_append hgap (c := ':') rfl p (gap' ++ u)
  have hskip := hu.skipSpace hgap' (p + gap.length + 1)
  refine ⟨name, p + gap.length + 1 + gap'.length, ?_⟩
  simp only [readMembers, hp, bind, Except.bind, hcolon, Cursor.drop, List.drop_succ_cons,
    List.drop_zero, hskip]
  rfl

/-- How reading goes on behind an element. -/
def AfterEnds (stop : Option Text) (bound room : Nat) : Element → Text → Prop
  | .item, t => ∀ item position, Ends stop (afterItem bound room item ⟨position, t⟩)
  | .member, t => ∀ members position, Ends stop (afterMember bound room members ⟨position, t⟩)

/-- Reading stops for all elements where it stops for the first one. -/
theorem elementsEnd_of_stop {t : Text} (h : ElementEnds none bound room kind t) :
    ElementsEnd none (bound + 1) room kind t := by
  cases kind with
  | item =>
    intro position
    rw [readItems_eq]
    exact (h position).bind_none _
  | member =>
    obtain ⟨s, gap, gap', u, rfl, hname, hgap, hgap', hu, hvalue⟩ := h
    intro members position
    obtain ⟨name, p, hread⟩ := readMembers_eq hname hgap hgap' hu bound room members position
    rw [hread]
    exact (hvalue p).bind_none _

theorem elementsEnd_of_after {t rest : Text} (h : ElementEnds (some rest) bound room kind t)
    (hafter : AfterEnds stop bound room kind rest) : ElementsEnd stop (bound + 1) room kind t := by
  cases kind with
  | item =>
    intro position
    rw [readItems_eq]
    exact (h position).bind fun item p => hafter item p
  | member =>
    obtain ⟨s, gap, gap', u, rfl, hname, hgap, hgap', hu, hvalue⟩ := h
    intro members position
    obtain ⟨name, p, hread⟩ := readMembers_eq hname hgap hgap' hu bound room members position
    rw [hread]
    exact (hvalue p).bind fun value p => hafter _ p

theorem afterEnds_last {gap : Text} (hgap : Spacing gap) (rest : Text) :
    AfterEnds (some rest) bound room kind (gap ++ kind.closing :: rest) := by
  cases kind with
  | item =>
    intro item position
    have hskip := skipSpace_append hgap (c := ']') rfl position rest
    exact ⟨[item], position + gap.length + 1,
      by simp [afterItem, Element.closing, hskip, Cursor.drop]⟩
  | member =>
    intro members position
    have hskip := skipSpace_append hgap (c := '\x7d') rfl position rest
    exact ⟨members, position + gap.length + 1,
      by simp [afterMember, Element.closing, hskip, Cursor.drop]⟩

theorem afterEnds_next {gap gap' u : Text} (hgap : Spacing gap) (hgap' : Spacing gap')
    (hu : Begins u) (h : ElementsEnd stop bound room kind u) :
    AfterEnds stop bound room kind (gap ++ ',' :: (gap' ++ u)) := by
  have hcomma (position : Nat) := skipSpace_append hgap (c := ',') rfl position (gap' ++ u)
  cases kind with
  | item =>
    intro item position
    simp only [afterItem, hcomma, Cursor.drop, List.drop_succ_cons, List.drop_zero,
      hu.skipSpace hgap']
    exact (h _).bind_pure fun items c => ⟨_, rfl⟩
  | member =>
    intro members position
    simp only [afterMember, hcomma, Cursor.drop, List.drop_succ_cons, List.drop_zero,
      hu.skipSpace hgap']
    exact h _ _

/-! ### Derived texts -/

theorem StringEnd.length_lt {t rest : Text} (h : StringEnd t rest) : rest.length < t.length := by
  induction h with
  | close rest => simp
  | plain _ _ _ _ ih => simp only [List.length_cons]; omega
  | escape _ _ ih => simp only [List.length_cons]; omega
  | unit _ _ ih => simp only [List.length_cons]; omega

theorem Derives.length_lt {part : Part} {t rest : Text} (h : Derives knownNames part t rest) :
    rest.length < t.length := by
  induction h with
  | name h rest =>
    have hnames : ∀ name ∈ knownNames, 0 < name.length := by decide
    have hpos := hnames _ h
    simp only [List.length_append]
    omega
  | numeral h rest =>
    obtain ⟨negative, hw, -, -⟩ := h
    have hpos := List.length_pos_iff.mpr hw.nonempty
    simp only [List.length_append]
    omega
  | string h => exact h.length_lt.trans (Nat.lt_succ_self _)
  | empty kind _ _ =>
    simp only [List.length_cons, List.length_append]
    omega
  | collection _ _ _ ih =>
    simp only [List.length_cons, List.length_append]
    omega
  | item _ ih => exact ih
  | member hname _ _ _ ih =>
    have hstring := hname.length_lt
    simp only [List.length_append, List.length_cons] at hstring ⊢
    omega
  | last _ _ ih =>
    simp only [List.length_append, List.length_cons] at ih
    omega
  | next _ _ _ _ ih ihmore =>
    simp only [List.length_append, List.length_cons] at ih
    omega

/-- How a part of a text is read with some room. -/
def PartEnds (stop : Option Text) (bound room : Nat) : Part → Text → Prop
  | .value, t => ∀ position, Ends stop (readValue bound room ⟨position, t⟩)
  | .element kind, t => ElementEnds stop bound room kind t
  | .elements kind, t => ElementsEnd stop bound room kind t

/-- What can be behind a part of a text. A numeral has to end in front of it. -/
def Part.Behind : Part → Text → Prop
  | .elements _, _ => True
  | _, rest => EndsNumeral rest

/-- The bound with which a part of some length is read. Every two nested calls take a character. -/
def Part.boundFor : Part → Nat → Nat
  | .elements _, n => 2 * n + 2
  | _, n => 2 * n + 1

theorem Part.bound_eq_succ {part : Part} {n bound : Nat} (h : part.boundFor n ≤ bound) :
    ∃ n, bound = n + 1 := by
  refine ⟨bound - 1, ?_⟩
  cases part <;> simp only [Part.boundFor] at h <;> omega

theorem readAtom_numeral {t : Text} (ht : Numeral t) (rest : Text) (position : Nat) :
    readAtom ⟨position, t ++ rest⟩ = readNumber ⟨position, t ++ rest⟩ := by
  obtain ⟨negative, hw, -, -⟩ := ht
  rw [List.append_assoc, List.append_assoc]
  exact readAtom_whole hw position _

/-- What is derived is read up to its end, unless an integer in it has too many digits or there is
no room for a collection. -/
theorem Derives.ends {part : Part} {t rest : Text} (h : Derives knownNames part t rest)
    (hrest : part.Behind rest) (bound room : Nat) (hbound : part.boundFor t.length ≤ bound) :
    PartEnds (some rest) bound room part t ∨ PartEnds none bound room part t := by
  induction h generalizing bound room with
  | name h rest =>
    obtain ⟨bound, rfl⟩ := Part.bound_eq_succ hbound
    refine .inl fun position => Ends.readValue ?_ bound room
    simp only [knownNames, List.mem_cons, List.not_mem_nil, or_false] at h
    rcases h with rfl | rfl | rfl | rfl | rfl | rfl <;> exact ⟨_, _, rfl⟩
  | numeral h rest =>
    obtain ⟨bound, rfl⟩ := Part.bound_eq_succ hbound
    have hatom (position : Nat) := readAtom_numeral h rest position
    refine (ends_readNumber h hrest).imp (fun hread position => ?_) fun hread position => ?_
    · exact Ends.readValue (hatom position ▸ hread position) bound room
    · exact Ends.readValue (hatom position ▸ hread position) bound room
  | string h =>
    obtain ⟨bound, rfl⟩ := Part.bound_eq_succ hbound
    exact .inl fun position => ends_readValue_string h position
  | empty kind hgap rest =>
    obtain ⟨bound, rfl⟩ := Part.bound_eq_succ hbound
    cases room with
    | zero => exact .inr fun position => ends_readValue_full kind _ position
    | succ room => exact .inl fun position => ends_readValue_empty kind hgap rest position
  | collection kind hgap h ih =>
    obtain ⟨bound, rfl⟩ := Part.bound_eq_succ hbound
    simp only [Part.boundFor, List.length_cons, List.length_append] at hbound
    cases room with
    | zero => exact .inr fun position => ends_readValue_full kind _ position
    | succ room =>
      refine (ih trivial bound room (by simp only [Part.boundFor]; omega)).imp ?_ ?_
      · exact fun helements position => ends_readValue_collection hgap h.begins helements position
      · exact fun helements position => ends_readValue_collection hgap h.begins helements position
  | item h ih => exact ih hrest bound room hbound
  | @member t gap gap' u rest hname hgap hgap' h ih =>
    have hlength := hname.length_lt
    simp only [Part.boundFor, List.length_append, List.length_cons] at hbound hlength
    refine (ih hrest bound room (by simp only [Part.boundFor]; omega)).imp ?_ ?_
    · exact fun hvalue => ⟨t, gap, gap', u, rfl, hname, hgap, hgap', h.begins, hvalue⟩
    · exact fun hvalue => ⟨t, gap, gap', u, rfl, hname, hgap, hgap', h.begins, hvalue⟩
  | @last kind t gap rest h hgap ih =>
    obtain ⟨bound, rfl⟩ := Part.bound_eq_succ hbound
    simp only [Part.boundFor] at hbound
    have hbehind : EndsNumeral (gap ++ kind.closing :: rest) :=
      endsNumeral_closing hgap (by cases kind <;> simp [Element.closing]) rest
    refine (ih hbehind bound room (by simp only [Part.boundFor]; omega)).imp ?_ ?_
    · exact fun helement => elementsEnd_of_after helement (afterEnds_last hgap rest)
    · exact elementsEnd_of_stop
  | @next kind t gap gap' u rest h hgap hgap' hmore ih ihmore =>
    have hlength := h.length_lt
    obtain ⟨bound, rfl⟩ := Part.bound_eq_succ hbound
    simp only [Part.boundFor, List.length_append, List.length_cons] at hbound hlength
    have hbehind : EndsNumeral (gap ++ ',' :: (gap' ++ u)) :=
      endsNumeral_append hgap (endsNumeral_comma _)
    rcases ih hbehind bound room (by simp only [Part.boundFor]; omega) with helement | hstop
    · refine (ihmore trivial bound room (by simp only [Part.boundFor]; omega)).imp ?_ ?_
      · exact fun helements => elementsEnd_of_after helement
          (afterEnds_next hgap hgap' hmore.begins helements)
      · exact fun helements => elementsEnd_of_after helement
          (afterEnds_next hgap hgap' hmore.begins helements)
    · exact .inr (elementsEnd_of_stop hstop)

/-- What is behind the white space in front of a text decides how it is read. -/
theorem readWithin_eq {gap u : Text} (hgap : Spacing gap) (hu : Begins u) (room : Nat) :
    readWithin room (gap ++ u) =
      readValue (2 * (gap ++ u).length + 2) room ⟨gap.length, u⟩ >>= fun (v, c) =>
        if c.skipSpace.rest.isEmpty then .ok v else c.skipSpace.fail .endOfText := by
  have hskip := hu.skipSpace hgap 0
  have hmark : (gap ++ u).head? ≠ some '\uFEFF' := by
    cases gap with
    | nil =>
      obtain ⟨b, w, rfl, -, -, -, hb⟩ := hu
      exact fun h => hb (Option.some.inj h)
    | cons b gap =>
      intro h
      obtain rfl := Option.some.inj h
      exact absurd (hgap _ List.mem_cons_self) (by decide)
  unfold readWithin
  rw [if_neg hmark, hskip, Nat.zero_add]
  rfl

/-- A text of JSON, special numbers included, is read unless the reader stops in it without a fault,
and nothing else is read. -/
theorem exists_readWithin_iff {room : Nat} {t : Text} :
    (∃ v, readWithin room t = .ok v) ↔
      Extended t ∧ ¬∃ e, readWithin room t = .error e ∧ e.IsHalt := by
  constructor
  · rintro ⟨v, hv⟩
    exact ⟨extended_of_readWithin hv, fun ⟨e, h, _⟩ => by cases hv.symm.trans h⟩
  · rintro ⟨⟨gap, u, rest, hgap, hrest, rfl, h⟩, hread⟩
    rw [readWithin_eq hgap h.begins] at hread ⊢
    have hend : EndsNumeral rest := by
      have := endsNumeral_append hrest (t := []) (by simp [EndsNumeral])
      rwa [List.append_nil] at this
    have hbound : Part.boundFor .value u.length ≤ 2 * (gap ++ u).length + 2 := by
      simp only [Part.boundFor, List.length_append]
      omega
    rcases h.ends hend _ room hbound with hvalue | hstop
    · obtain ⟨v, p, hv⟩ := hvalue gap.length
      have hempty : (Cursor.mk p rest).skipSpace.rest = [] :=
        List.dropWhile_eq_nil_iff.mpr hrest
      rw [hv]
      exact ⟨v, if_pos (by rw [hempty]; rfl)⟩
    · obtain ⟨e, he, hhalt⟩ := hstop gap.length
      exact absurd ⟨e, by rw [he]; rfl, hhalt⟩ hread

end HttpSnippet.Json

import HttpSnippet.Json.Printer
import HttpSnippet.Proofs.Json.Text
import HttpSnippet.Proofs.Json.WellFormed
import HttpSnippet.Proofs.Source.Fragment

/-!
# JSON read back

A well-formed value is read back from what it is written as, in every layout and at every level;
only the indented layout asks for an indentation that is white space to the reader. Item lists and
member lists are read one element after another, so their proofs go along the list, given that each
element is read back by itself. The room that reading needs is the depth of the value, and the
number of nested calls is measured by the length of the text.
-/
namespace HttpSnippet

namespace Json

/-! ### White space -/

theorem spacing_repeated {indent : Text} (hi : Spacing indent) (level : Nat) :
    Spacing (Text.repeated level indent) := by
  intro c hc
  obtain ⟨l, hl, hc⟩ := List.mem_flatten.mp hc
  rw [List.eq_of_mem_replicate hl] at hc
  exact hi c hc

theorem spacing_newline {indent : Text} (hi : Spacing indent) (level : Nat) :
    Spacing (Piece.render indent (.newline level)) :=
  List.forall_mem_cons.mpr ⟨rfl, spacing_repeated hi level⟩

theorem skipSpace_append {gap : Text} (hgap : Spacing gap) {c : Char}
    (hc : Cursor.isSpace c = false) (position : Nat) (t : Text) :
    (Cursor.mk position (gap ++ c :: t)).skipSpace = ⟨position + gap.length, c :: t⟩ := by
  have htake : (gap ++ c :: t).takeWhile Cursor.isSpace = gap := by
    rw [List.takeWhile_append_of_pos hgap, List.takeWhile_cons_of_neg (by simp [hc]),
      List.append_nil]
  have hdrop : (gap ++ c :: t).dropWhile Cursor.isSpace = c :: t := by
    rw [List.dropWhile_append_of_pos hgap, List.dropWhile_cons_of_neg (by simp [hc])]
  simp only [Cursor.skipSpace, htake, hdrop]

theorem skipSpace_cons {c : Char} (hc : Cursor.isSpace c = false) (position : Nat) (t : Text) :
    (Cursor.mk position (c :: t)).skipSpace = ⟨position, c :: t⟩ :=
  skipSpace_append (show Spacing [] by simp [Spacing]) hc position t

theorem endsNumeral_cons {c : Char} (hc : isDigit c = false ∧ c ≠ '.' ∧ c ≠ 'e' ∧ c ≠ 'E')
    (t : Text) : EndsNumeral (c :: t) := by
  intro b hb
  obtain rfl := Option.some.inj hb
  exact hc

theorem endsNumeral_append {gap : Text} (hgap : Spacing gap) {t : Text} (ht : EndsNumeral t) :
    EndsNumeral (gap ++ t) := by
  cases gap with
  | nil => exact ht
  | cons c gap =>
    refine endsNumeral_cons ?_ _
    have hc := hgap c List.mem_cons_self
    simp only [Cursor.isSpace, Bool.or_eq_true, decide_eq_true_eq] at hc
    obtain ((rfl | rfl) | rfl) | rfl := hc <;> decide

/-- What cannot begin a value. -/
theorem readValue_eq_error {b : Char} (hb : Cursor.isSpace b = true ∨ b = ']' ∨ b = '\uFEFF')
    (bound room position : Nat) (t : Text) :
    ∃ e, readValue bound room ⟨position, b :: t⟩ = .error e := by
  cases bound with
  | zero => exact ⟨_, rfl⟩
  | succ bound =>
    simp only [Cursor.isSpace, Bool.or_eq_true, decide_eq_true_eq] at hb
    obtain (((rfl | rfl) | rfl) | rfl) | rfl | rfl := hb <;> exact ⟨_, rfl⟩

theorem readValue_nil_eq_error (bound room position : Nat) :
    ∃ e, readValue bound room ⟨position, []⟩ = .error e := by
  cases bound with
  | zero => exact ⟨_, rfl⟩
  | succ bound => exact ⟨_, rfl⟩

/-- A text that a value is read from begins with a character that can begin a value. -/
theorem exists_head_of_readValue {bound room position : Nat} {t : Text} {r : Json × Cursor}
    (h : readValue bound room ⟨position, t⟩ = .ok r) :
    ∃ b u, t = b :: u ∧ Cursor.isSpace b = false ∧ b ≠ ']' ∧ b ≠ '\uFEFF' := by
  cases t with
  | nil =>
    obtain ⟨e, he⟩ := readValue_nil_eq_error bound room position
    rw [he] at h
    cases h
  | cons b u =>
    by_contra hne
    have hb : Cursor.isSpace b = true ∨ b = ']' ∨ b = '\uFEFF' := by
      by_contra hall
      rw [not_or, not_or, Bool.not_eq_true] at hall
      exact hne ⟨b, u, rfl, hall⟩
    obtain ⟨e, he⟩ := readValue_eq_error hb bound room position u
    rw [he] at h
    cases h

/-! ### Separators -/

variable {layout : Layout} {ascii : Bool} {indent : Text}

theorem spacing_opened (hi : layout = .indented → Spacing indent) (level : Nat) :
    Spacing (Fragment.render indent (layout.opened level)) := by
  cases layout with
  | compact => simp [Layout.opened, Fragment.render, Spacing]
  | spaced => simp [Layout.opened, Fragment.render, Spacing]
  | indented =>
    simpa [Layout.opened, Fragment.render] using spacing_newline (hi rfl) level

theorem render_comma (hi : layout = .indented → Spacing indent) (level : Nat) :
    ∃ gap, Spacing gap ∧ Fragment.render indent (layout.comma level) = ',' :: gap := by
  cases layout with
  | compact => exact ⟨[], by simp [Spacing], rfl⟩
  | spaced => exact ⟨[' '], by simp [Spacing, Cursor.isSpace], rfl⟩
  | indented =>
    exact ⟨_, spacing_newline (hi rfl) level, by simp [Layout.comma, Fragment.render, Piece.render]⟩

theorem colon_eq (layout : Layout) : ∃ gap, Spacing gap ∧ layout.colon = ':' :: gap := by
  cases layout with
  | compact => exact ⟨[], by simp [Spacing], rfl⟩
  | spaced => exact ⟨[' '], by simp [Spacing, Cursor.isSpace], rfl⟩
  | indented => exact ⟨[' '], by simp [Spacing, Cursor.isSpace], rfl⟩

/-! ### Values -/

theorem depthOfItems_cons_le {v : Json} {vs : List Json} {room : Nat} :
    depthOfItems (v :: vs) ≤ room ↔ v.depth ≤ room ∧ depthOfItems vs ≤ room := by
  rw [depthOfItems, Nat.max_le]

theorem depthOfMembers_cons_le {k : Text} {v : Json} {ms : List (Text × Json)} {room : Nat} :
    depthOfMembers ((k, v) :: ms) ≤ room ↔ v.depth ≤ room ∧ depthOfMembers ms ≤ room := by
  rw [depthOfMembers, Nat.max_le]

/-- A value is read back wherever it is written, before anything that ends a numeral, if there is
room for the collections in it. -/
def ReadsBack (layout : Layout) (ascii : Bool) (indent : Text) (v : Json) : Prop :=
  ∀ level position rest bound room, EndsNumeral rest → v.depth ≤ room →
    2 * (Fragment.render indent (v.fragment layout ascii level)).length ≤ bound →
    ∃ p, readValue bound room
        ⟨position, Fragment.render indent (v.fragment layout ascii level) ++ rest⟩ =
      .ok (v, ⟨p, rest⟩)

/-- A value that reads back begins with a character that can begin a value. -/
theorem ReadsBack.exists_head {v : Json} (hv : ReadsBack layout ascii indent v) (level : Nat)
    {rest : Text} (hr : EndsNumeral rest) :
    ∃ b u, Fragment.render indent (v.fragment layout ascii level) ++ rest = b :: u ∧
      Cursor.isSpace b = false ∧ b ≠ ']' ∧ b ≠ '\uFEFF' := by
  obtain ⟨p, hp⟩ := hv level 0 rest _ _ hr le_rfl le_rfl
  exact exists_head_of_readValue hp

/-- White space in front of a value is skipped. -/
theorem ReadsBack.skipSpace {v : Json} (hv : ReadsBack layout ascii indent v) (level : Nat)
    {gap rest : Text} (hgap : Spacing gap) (hr : EndsNumeral rest) (position : Nat) :
    (Cursor.mk position
        (gap ++ (Fragment.render indent (v.fragment layout ascii level) ++ rest))).skipSpace =
      ⟨position + gap.length, Fragment.render indent (v.fragment layout ascii level) ++ rest⟩ := by
  obtain ⟨b, u, hcons, hb, -⟩ := hv.exists_head level hr
  rw [hcons]
  exact skipSpace_append hgap hb position u

/-- What follows an item or a member up to the closing bracket ends a numeral. -/
theorem endsNumeral_closing {closing : Text} (hclosing : Spacing closing) {c : Char}
    (hc : c = ']' ∨ c = '\x7d') (rest : Text) : EndsNumeral (closing ++ c :: rest) := by
  refine endsNumeral_append hclosing (endsNumeral_cons ?_ rest)
  obtain rfl | rfl := hc <;> decide

theorem endsNumeral_comma (rest : Text) : EndsNumeral (',' :: rest) :=
  endsNumeral_cons (by decide) rest

theorem endsNumeral_items (ascii : Bool) (hi : layout = .indented → Spacing indent) (level : Nat)
    (vs : List Json) {t : Text} (ht : EndsNumeral t) :
    EndsNumeral (Fragment.render indent (itemFragments layout ascii level vs) ++ t) := by
  cases vs with
  | nil => exact ht
  | cons v vs =>
    obtain ⟨gap, -, hcomma⟩ := render_comma hi level
    rw [itemFragments, List.append_assoc, Fragment.render_append, hcomma]
    exact endsNumeral_comma _

/-- Items are read up to the closing bracket. -/
theorem readItems_render (hi : layout = .indented → Spacing indent) (level : Nat) {closing : Text}
    (hclosing : Spacing closing) (rest : Text) {v : Json} {vs : List Json} :
    (∀ w ∈ v :: vs, ReadsBack layout ascii indent w) → ∀ bound room position,
      depthOfItems (v :: vs) ≤ room → 2 * (Fragment.render indent (v.fragment layout ascii level ++
        itemFragments layout ascii level vs)).length + 1 ≤ bound →
      ∃ p, readItems bound room ⟨position, Fragment.render indent (v.fragment layout ascii level ++
        itemFragments layout ascii level vs) ++ (closing ++ ']' :: rest)⟩ =
        .ok (v :: vs, ⟨p, rest⟩) := by
  have hends := endsNumeral_closing hclosing (.inl rfl) rest
  induction vs generalizing v with
  | nil =>
    intro hread bound room position hroom hbound
    rw [itemFragments, List.append_nil] at hbound ⊢
    obtain ⟨bound, rfl⟩ : ∃ n, bound = n + 1 := ⟨bound - 1, by omega⟩
    obtain ⟨p, hp⟩ := hread v List.mem_cons_self level position _ bound room hends
      (depthOfItems_cons_le.mp hroom).1 (by omega)
    refine ⟨p + closing.length + 1, ?_⟩
    simp only [readItems, hp, bind, Except.bind, skipSpace_append hclosing (c := ']') rfl]
    rfl
  | cons w ws ih =>
    intro hread bound room position hroom hbound
    obtain ⟨hv, hws⟩ := List.forall_mem_cons.mp hread
    obtain ⟨hw, -⟩ := List.forall_mem_cons.mp hws
    obtain ⟨hroom, hrooms⟩ := depthOfItems_cons_le.mp hroom
    obtain ⟨gap, hgap, hcomma⟩ := render_comma hi level
    have htail : Fragment.render indent (itemFragments layout ascii level (w :: ws)) =
        ',' :: (gap ++ Fragment.render indent (w.fragment layout ascii level ++
          itemFragments layout ascii level ws)) := by
      rw [itemFragments, List.append_assoc, Fragment.render_append, hcomma, List.cons_append]
    rw [Fragment.render_append, htail] at hbound ⊢
    simp only [List.length_append, List.length_cons] at hbound
    obtain ⟨bound, rfl⟩ : ∃ n, bound = n + 1 := ⟨bound - 1, by omega⟩
    rw [List.append_assoc, List.cons_append, List.append_assoc]
    obtain ⟨p, hp⟩ := hv level position _ bound room (endsNumeral_comma (gap ++
      (Fragment.render indent (w.fragment layout ascii level ++ itemFragments layout ascii level ws)
        ++ (closing ++ ']' :: rest)))) hroom (by omega)
    have hskip := hw.skipSpace level hgap (endsNumeral_items ascii hi level ws hends) (p + 1)
    rw [← List.append_assoc (Fragment.render indent _), ← Fragment.render_append] at hskip
    obtain ⟨q, hq⟩ := ih hws bound room (p + 1 + gap.length) hrooms (by omega)
    refine ⟨q, ?_⟩
    simp only [readItems, hp, bind, Except.bind, skipSpace_cons (c := ',') rfl, Cursor.drop,
      List.drop_succ_cons, List.drop_zero, hskip, hq]
    rfl

/-- What reading does once a member has been read. -/
def afterMember (bound room : Nat) (members : List (Text × Json)) (c : Cursor) :
    Except ReadError (List (Text × Json) × Cursor) :=
  match c.skipSpace.rest with
  | '\x7d' :: _ => .ok (members, c.skipSpace.drop 1)
  | ',' :: _ => readMembers bound room members (c.skipSpace.drop 1).skipSpace
  | _ => c.skipSpace.fail .comma

/-- A member with its name. -/
def memberFragment (layout : Layout) (ascii : Bool) (level : Nat) (k : Text) (v : Json) :
    Fragment :=
  .string ascii k :: .code layout.colon :: v.fragment layout ascii level

theorem render_member (layout : Layout) (ascii : Bool) (indent k : Text) (v : Json) (level : Nat) :
    ∃ gap, Spacing gap ∧ Fragment.render indent (memberFragment layout ascii level k v) =
      '"' :: (inside ascii k ++ '"' :: ':' ::
        (gap ++ Fragment.render indent (v.fragment layout ascii level))) := by
  obtain ⟨gap, hgap, hcolon⟩ := colon_eq layout
  refine ⟨gap, hgap, ?_⟩
  rw [memberFragment, Fragment.render_cons, Fragment.render_cons, Piece.render, Piece.render,
    hcolon, quote, inside]
  simp

/-- One member is read and put behind those read before. -/
theorem readMembers_member {k : Text} {v : Json} (hv : ReadsBack layout ascii indent v)
    (level : Nat) {done : List (Text × Json)} (hnew : k ∉ done.map (·.1)) {rest : Text}
    (hr : EndsNumeral rest) {bound room : Nat} (hroom : v.depth ≤ room)
    (hbound : 2 * (Fragment.render indent (memberFragment layout ascii level k v)).length ≤ bound)
    (position : Nat) :
    ∃ p, readMembers (bound + 1) room done
        ⟨position, Fragment.render indent (memberFragment layout ascii level k v) ++ rest⟩ =
      afterMember bound room (done ++ [(k, v)]) ⟨p, rest⟩ := by
  obtain ⟨gap, hgap, htext⟩ := render_member layout ascii indent k v level
  rw [htext] at hbound ⊢
  simp only [List.length_cons, List.length_append] at hbound
  rw [List.cons_append, List.append_assoc, List.cons_append, List.cons_append, List.append_assoc]
  obtain ⟨p, hp⟩ := readString_inside ascii k position (position + 1)
    (':' :: (gap ++ (Fragment.render indent (v.fragment layout ascii level) ++ rest)))
  have hskip := hv.skipSpace level hgap hr (p + 1)
  obtain ⟨q, hq⟩ := hv level (p + 1 + gap.length) rest bound room hr hroom (by omega)
  refine ⟨q, ?_⟩
  simp only [readMembers, hp, bind, Except.bind, skipSpace_cons (c := ':') rfl, Cursor.drop,
    List.drop_succ_cons, List.drop_zero, hskip, hq, insertMember_of_notMem hnew]
  rfl

theorem notMem_of_nodup_append {done ms : List (Text × Json)} {k : Text} {v : Json}
    (h : ((done ++ (k, v) :: ms).map (·.1)).Nodup) : k ∉ done.map (·.1) := by
  intro hk
  rw [List.map_append, List.nodup_append] at h
  exact h.2.2 k hk k List.mem_cons_self rfl

/-- Members are read up to the closing brace. -/
theorem readMembers_render (hi : layout = .indented → Spacing indent) (level : Nat) {closing : Text}
    (hclosing : Spacing closing) (rest : Text) {k : Text} {v : Json} {ms : List (Text × Json)} :
    (∀ m ∈ (k, v) :: ms, ReadsBack layout ascii indent m.2) → ∀ done bound room position,
      depthOfMembers ((k, v) :: ms) ≤ room → ((done ++ (k, v) :: ms).map (·.1)).Nodup →
      2 * (Fragment.render indent (memberFragment layout ascii level k v ++
        memberFragments layout ascii level ms)).length + 1 ≤ bound →
      ∃ p, readMembers bound room done ⟨position, Fragment.render indent
        (memberFragment layout ascii level k v ++ memberFragments layout ascii level ms) ++
        (closing ++ '\x7d' :: rest)⟩ =
        .ok (done ++ (k, v) :: ms, ⟨p, rest⟩) := by
  have hends := endsNumeral_closing hclosing (.inr rfl) rest
  induction ms generalizing k v with
  | nil =>
    intro hread done bound room position hroom hnames hbound
    rw [memberFragments, List.append_nil] at hbound ⊢
    obtain ⟨bound, rfl⟩ : ∃ n, bound = n + 1 := ⟨bound - 1, by omega⟩
    obtain ⟨p, hp⟩ := readMembers_member (hread (k, v) List.mem_cons_self) level
      (notMem_of_nodup_append hnames) hends (depthOfMembers_cons_le.mp hroom).1
      (Nat.le_of_lt_succ hbound) position
    refine ⟨p + closing.length + 1, ?_⟩
    rw [hp]
    simp only [afterMember, skipSpace_append hclosing (c := '\x7d') rfl]
    rfl
  | cons m ms ih =>
    intro hread done bound room position hroom hnames hbound
    obtain ⟨k', v'⟩ := m
    obtain ⟨hroom, hrooms⟩ := depthOfMembers_cons_le.mp hroom
    obtain ⟨hv, hms⟩ := List.forall_mem_cons.mp hread
    replace hv : ReadsBack layout ascii indent v := hv
    obtain ⟨gap, hgap, hcomma⟩ := render_comma hi level
    have htail : Fragment.render indent (memberFragments layout ascii level ((k', v') :: ms)) =
        ',' :: (gap ++ Fragment.render indent (memberFragment layout ascii level k' v' ++
          memberFragments layout ascii level ms)) := by
      rw [memberFragments, ← memberFragment, List.append_assoc, Fragment.render_append, hcomma,
        List.cons_append]
    rw [Fragment.render_append, htail] at hbound ⊢
    simp only [List.length_append, List.length_cons] at hbound
    obtain ⟨bound, rfl⟩ : ∃ n, bound = n + 1 := ⟨bound - 1, by omega⟩
    rw [List.append_assoc, List.cons_append, List.append_assoc]
    obtain ⟨p, hp⟩ := readMembers_member hv level (notMem_of_nodup_append hnames)
      (endsNumeral_comma (gap ++ (Fragment.render indent (memberFragment layout ascii level k' v' ++
        memberFragments layout ascii level ms) ++ (closing ++ '\x7d' :: rest))))
      hroom (show _ ≤ bound by omega) position
    obtain ⟨q, hq⟩ := ih hms (done ++ [(k, v)]) bound room (p + 1 + gap.length) hrooms
      (by simpa using hnames) (by omega)
    have hskip : (Cursor.mk (p + 1) (gap ++ (Fragment.render indent
        (memberFragment layout ascii level k' v' ++ memberFragments layout ascii level ms) ++
        (closing ++ '\x7d' :: rest)))).skipSpace = ⟨p + 1 + gap.length, Fragment.render indent
        (memberFragment layout ascii level k' v' ++ memberFragments layout ascii level ms) ++
        (closing ++ '\x7d' :: rest)⟩ := by
      obtain ⟨gap', -, hmember⟩ := render_member layout ascii indent k' v' level
      rw [Fragment.render_append, hmember]
      exact skipSpace_append hgap rfl _ _
    refine ⟨q, ?_⟩
    rw [hp]
    simp only [afterMember, skipSpace_cons (c := ',') rfl, Cursor.drop, List.drop_succ_cons,
      List.drop_zero, hskip, hq]
    simp

theorem readValue_of_readAtom {c : Cursor} {r : Json × Cursor} (h : readAtom c = .ok r)
    (bound room : Nat) : readValue (bound + 1) room c = .ok r := by
  obtain ⟨position, t⟩ := c
  unfold readValue
  split
  · next heq =>
    obtain rfl : t = _ := heq
    cases h
  · next heq =>
    obtain rfl : t = _ := heq
    cases h
  · next heq =>
    obtain rfl : t = _ := heq
    cases h
  · exact h

/-- Literal names and numbers are read without going deeper. -/
theorem readsBack_of_readAtom {v : Json} {t : Text}
    (ht : ∀ level, Fragment.render indent (v.fragment layout ascii level) = t)
    (hread : ∀ position rest, EndsNumeral rest →
      ∃ p, readAtom ⟨position, t ++ rest⟩ = .ok (v, ⟨p, rest⟩)) :
    ReadsBack layout ascii indent v := by
  intro level position rest bound room hr _ hbound
  rw [ht] at hbound ⊢
  have hne : t ≠ [] := by
    rintro rfl
    obtain ⟨p, hp⟩ := hread 0 [] (by simp [EndsNumeral])
    cases hp
  have hlength := List.length_pos_iff.mpr hne
  obtain ⟨bound, rfl⟩ : ∃ n, bound = n + 1 := ⟨bound - 1, by omega⟩
  obtain ⟨p, hp⟩ := hread position rest hr
  exact ⟨p, readValue_of_readAtom hp bound room⟩

theorem render_code (indent t : Text) : Fragment.render indent [.code t] = t := by
  simp [Fragment.render, Piece.render]

theorem readsBack_arr (hi : layout = .indented → Spacing indent) {v : Json} {vs : List Json}
    (hread : ∀ w ∈ v :: vs, ReadsBack layout ascii indent w) :
    ReadsBack layout ascii indent (.arr (v :: vs)) := by
  intro level position rest bound room hr hroom hbound
  obtain ⟨room, rfl⟩ : ∃ n, room = n + 1 := ⟨room - 1, by simp only [depth] at hroom; omega⟩
  have hopened := spacing_opened hi (level + 1)
  have hclosing := spacing_opened hi level
  set opening := Fragment.render indent (layout.opened (level + 1))
  set closing := Fragment.render indent (layout.opened level)
  set inner := Fragment.render indent (v.fragment layout ascii (level + 1) ++
    itemFragments layout ascii (level + 1) vs) with hinner
  have htext : Fragment.render indent (Json.fragment layout ascii level (.arr (v :: vs))) =
      '[' :: (opening ++ (inner ++ (closing ++ [']']))) := by
    simp [fragment, inner, opening, closing, Fragment.render_append, Piece.render,
      Fragment.render]
  rw [htext] at hbound ⊢
  simp only [List.length_cons, List.length_append] at hbound
  obtain ⟨bound, rfl⟩ : ∃ n, bound = n + 1 := ⟨bound - 1, by omega⟩
  have hends := endsNumeral_items ascii hi (level + 1) vs
    (endsNumeral_closing hclosing (c := ']') (.inl rfl) rest)
  obtain ⟨p, hp⟩ := readItems_render hi (level + 1) hclosing rest hread bound room
    (position + 1 + opening.length) (Nat.le_of_succ_le_succ hroom) (by rw [← hinner]; omega)
  obtain ⟨b, u, hcons, hspace, hbracket, -⟩ :=
    (hread v List.mem_cons_self).exists_head (level + 1) hends
  rw [← List.append_assoc, ← Fragment.render_append, ← hinner] at hcons
  have hsplit : '[' :: (opening ++ (inner ++ (closing ++ [']']))) ++ rest =
      '[' :: (opening ++ b :: u) := by
    rw [← hcons]
    simp
  rw [← hinner, hcons] at hp
  refine ⟨p, ?_⟩
  rw [hsplit]
  simp only [readValue, enter, Cursor.drop, List.drop_succ_cons, List.drop_zero,
    skipSpace_append hopened hspace, hp, bind, Except.bind]
  split
  · next heq => exact absurd (List.cons.inj heq).1 hbracket
  · rfl

theorem readsBack_obj (hi : layout = .indented → Spacing indent) {k : Text} {v : Json}
    {ms : List (Text × Json)}
    (hread : ∀ m ∈ (k, v) :: ms, ReadsBack layout ascii indent m.2)
    (hnames : (((k, v) :: ms).map (·.1)).Nodup) :
    ReadsBack layout ascii indent (.obj ((k, v) :: ms)) := by
  intro level position rest bound room hr hroom hbound
  obtain ⟨room, rfl⟩ : ∃ n, room = n + 1 := ⟨room - 1, by simp only [depth] at hroom; omega⟩
  have hopened := spacing_opened hi (level + 1)
  have hclosing := spacing_opened hi level
  set opening := Fragment.render indent (layout.opened (level + 1))
  set closing := Fragment.render indent (layout.opened level)
  set inner := Fragment.render indent (memberFragment layout ascii (level + 1) k v ++
    memberFragments layout ascii (level + 1) ms) with hinner
  have htext : Fragment.render indent (Json.fragment layout ascii level (.obj ((k, v) :: ms))) =
      '\x7b' :: (opening ++ (inner ++ (closing ++ ['\x7d']))) := by
    simp [fragment, inner, opening, closing, memberFragment, Fragment.render_append, Piece.render,
      Fragment.render]
  rw [htext] at hbound ⊢
  simp only [List.length_cons, List.length_append] at hbound
  obtain ⟨bound, rfl⟩ : ∃ n, bound = n + 1 := ⟨bound - 1, by omega⟩
  obtain ⟨p, hp⟩ := readMembers_render hi (level + 1) hclosing rest hread [] bound room
    (position + 1 + opening.length) (Nat.le_of_succ_le_succ hroom) hnames (by rw [← hinner]; omega)
  obtain ⟨gap, -, hmember⟩ := render_member layout ascii indent k v (level + 1)
  obtain ⟨u, hcons⟩ : ∃ u, inner ++ (closing ++ '\x7d' :: rest) = '"' :: u := by
    rw [hinner, Fragment.render_append, hmember]
    exact ⟨_, rfl⟩
  have hsplit : '\x7b' :: (opening ++ (inner ++ (closing ++ ['\x7d']))) ++ rest =
      '\x7b' :: (opening ++ '"' :: u) := by
    rw [← hcons]
    simp
  rw [← hinner, hcons] at hp
  refine ⟨p, ?_⟩
  rw [hsplit]
  simp only [readValue, enter, Cursor.drop, List.drop_succ_cons, List.drop_zero,
    skipSpace_append hopened (c := '"') rfl, hp, bind, Except.bind]
  rfl

/-- Every well-formed value is read back. -/
theorem readsBack (hi : layout = .indented → Spacing indent) (ascii : Bool) {v : Json}
    (hv : v.WellFormed) : ReadsBack layout ascii indent v := by
  induction hv with
  | null =>
    exact readsBack_of_readAtom (fun _ => by rw [fragment, render_code])
      fun position rest _ => ⟨_, readAtom_null position rest⟩
  | bool b =>
    refine readsBack_of_readAtom (t := if b then "true" else "false") (fun _ => ?_)
      fun position rest _ => readAtom_bool position b rest
    cases b <;> rw [fragment, render_code] <;> rfl
  | int hn =>
    exact readsBack_of_readAtom (fun _ => by rw [fragment, render_code])
      fun position rest hr => readAtom_int position hn hr
  | float hx =>
    exact readsBack_of_readAtom (fun _ => by rw [fragment, render_code])
      fun position rest hr => readAtom_float position hx hr
  | str t =>
    intro level position rest bound room hr _ hbound
    have htext : Fragment.render indent (Json.fragment layout ascii level (.str t)) =
        '"' :: (inside ascii t ++ ['"']) := by
      simp [fragment, Fragment.render, Piece.render, quote, inside]
    rw [htext] at hbound ⊢
    simp only [List.length_cons] at hbound
    obtain ⟨bound, rfl⟩ : ∃ n, bound = n + 1 := ⟨bound - 1, by omega⟩
    obtain ⟨p, hp⟩ := readString_inside ascii t position (position + 1) rest
    refine ⟨p, ?_⟩
    rw [List.cons_append, List.append_assoc]
    simp only [readValue, List.cons_append, List.nil_append, hp]
    rfl
  | @arr items h ih =>
    cases items with
    | nil =>
      intro level position rest bound room hr hroom hbound
      obtain ⟨room, rfl⟩ : ∃ n, room = n + 1 := ⟨room - 1, by simp only [depth] at hroom; omega⟩
      rw [fragment, render_code] at hbound ⊢
      obtain ⟨bound, rfl⟩ : ∃ n, bound = n + 1 := ⟨bound - 1, by simp at hbound; omega⟩
      exact ⟨position + 2, rfl⟩
    | cons v vs => exact readsBack_arr hi ih
  | @obj members hnames h ih =>
    cases members with
    | nil =>
      intro level position rest bound room hr hroom hbound
      obtain ⟨room, rfl⟩ : ∃ n, room = n + 1 := ⟨room - 1, by simp only [depth] at hroom; omega⟩
      rw [fragment, render_code] at hbound ⊢
      obtain ⟨bound, rfl⟩ : ∃ n, bound = n + 1 := ⟨bound - 1, by simp at hbound; omega⟩
      exact ⟨position + 2, rfl⟩
    | cons m ms => exact readsBack_obj hi ih hnames

/-- A well-formed value is read back from what it is written as, with white space around it. -/
theorem readWithin_render (hi : layout = .indented → Spacing indent) (ascii : Bool) (level : Nat)
    {v : Json} (hv : v.WellFormed) {room : Nat} (hroom : v.depth ≤ room) :
    readWithin room (Fragment.render indent (v.fragment layout ascii level)) = .ok v := by
  have hread := readsBack hi ascii hv
  have hends : EndsNumeral [] := by simp [EndsNumeral]
  obtain ⟨b, u, hcons, hspace, -, hmark⟩ := hread.exists_head level hends
  obtain ⟨p, hp⟩ := hread level 0 [] _ room hends hroom (Nat.le_add_right _ 2)
  rw [List.append_nil] at hcons hp
  rw [hcons] at hp ⊢
  have hhead : ¬ (b :: u).head? = some '\uFEFF' := fun h => hmark (Option.some.inj h)
  unfold readWithin
  rw [if_neg hhead, skipSpace_cons hspace, hp]
  rfl

end Json
end HttpSnippet

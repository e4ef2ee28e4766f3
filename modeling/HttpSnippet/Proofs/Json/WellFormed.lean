import HttpSnippet.Proofs.Json.Numeral
import HttpSnippet.Proofs.Json.Step

/-!
# Values that a text can hold

Reading never gives an object with a repeated name, an integer too long to be written or a
floating-point number that is not one of the binary64 numbers. These are also the values that are
read back from what they are written as.
-/
namespace HttpSnippet.Json

inductive WellFormed : Json → Prop where
  | null : WellFormed .null
  | bool (b : Bool) : WellFormed (.bool b)
  | int {n : Int} (hn : Value.writable n = true) : WellFormed (.int n)
  | float {x : Binary64} (hx : x.Canonical) : WellFormed (.float x)
  | str (t : Text) : WellFormed (.str t)
  | arr {items : List Json} (h : ∀ v ∈ items, WellFormed v) : WellFormed (.arr items)
  | obj {members : List (Text × Json)} (hnames : (members.map (·.1)).Nodup)
    (h : ∀ m ∈ members, WellFormed m.2) : WellFormed (.obj members)

/-! ### Numbers that reading gives -/

theorem digits_of_integerPart? {t whole rest : Text} (h : integerPart? t = some (whole, rest)) :
    Digits whole := by
  unfold integerPart? at h
  split at h
  · obtain ⟨rfl, -⟩ := Prod.mk.inj (Option.some.inj h)
    exact digits_zeros 1
  · split at h
    · cases h
    · obtain ⟨rfl, -⟩ := Prod.mk.inj (Option.some.inj h)
      next t _ _ _ =>
      intro c hc
      exact List.all_eq_true.mp List.all_takeWhile c hc

theorem digitsValue_lt {ds : Text} (hd : Digits ds) : digitsValue ds < 10 ^ ds.length := by
  have hfold (n : Nat) : ds.foldl (fun n c => 10 * n + (c.toNat - '0'.toNat)) n <
      (n + 1) * 10 ^ ds.length := by
    induction ds generalizing n with
    | nil => simp
    | cons c ds ih =>
      obtain ⟨hc, hds⟩ := List.forall_mem_cons.mp hd
      have hdigit : c.toNat - '0'.toNat < 10 := by
        simp only [isDigit, Bool.and_eq_true, decide_eq_true_eq, Char.le_def,
          UInt32.le_iff_toNat_le] at hc
        show c.val.toNat - 48 < 10
        have hle : c.val.toNat ≤ 57 := hc.2
        omega
      calc (c :: ds).foldl (fun n c => 10 * n + (c.toNat - '0'.toNat)) n
          < (10 * n + (c.toNat - '0'.toNat) + 1) * 10 ^ ds.length := ih hds _
        _ ≤ ((n + 1) * 10) * 10 ^ ds.length := Nat.mul_le_mul_right _ (by omega)
        _ = (n + 1) * 10 ^ (c :: ds).length := by rw [List.length_cons, Nat.pow_succ]; ring
  have h := hfold 0
  rw [Nat.zero_add, Nat.one_mul] at h
  exact h

theorem writable_withSign (negative : Bool) {ds : Text} (hd : Digits ds)
    (hlength : ds.length ≤ Number.maxDigits) :
    Value.writable (withSign negative (digitsValue ds)) = true := by
  have hnat : (withSign negative (digitsValue ds)).natAbs = digitsValue ds := by
    cases negative <;> simp [withSign]
  rw [← length_ofNat_le_iff, hnat, Text.ofNat,
    Nat.length_toDigits_le_iff (by decide) (by decide)]
  exact (digitsValue_lt hd).trans_le (Nat.pow_le_pow_right (by decide) hlength)

theorem wellFormed_readNumber {c c' : Cursor} {v : Json} (h : readNumber c = .ok (v, c')) :
    v.WellFormed := by
  unfold readNumber at h
  dsimp only at h
  split at h
  · cases h
  · next whole t hwhole =>
    have hdigits := digits_of_integerPart? hwhole
    cases hfraction : fraction? t with
    | some places =>
      simp only [hfraction] at h
      split at h
      · cases h
        exact .float (Binary64.canonical_ofDecimal _ _ _)
      · cases h
        exact .float (Binary64.canonical_ofDecimal _ _ _)
    | none =>
      simp only [hfraction, Bool.false_eq_true, if_false] at h
      split at h
      · cases h
        exact .float (Binary64.canonical_ofDecimal _ _ _)
      · by_cases hlength : Number.maxDigits < whole.length
        · rw [if_pos hlength] at h
          cases h
        · rw [if_neg hlength] at h
          cases h
          exact .int (writable_withSign _ hdigits (by omega))

theorem wellFormed_readAtom {c c' : Cursor} {v : Json} (h : readAtom c = .ok (v, c')) :
    v.WellFormed := by
  have hliterals : ∀ entry ∈ literals, WellFormed entry.2 := by
    simp only [literals, List.forall_mem_cons]
    exact ⟨.null, .bool _, .bool _, .float trivial, .float trivial, .float trivial, by simp⟩
  unfold readAtom at h
  split at h
  · next name w hfound =>
    cases h
    exact hliterals _ (List.mem_of_find?_eq_some hfound)
  · exact wellFormed_readNumber h

/-! ### Members that reading gives -/

theorem mem_insertMember {name : Text} {value : Json} {m : Text × Json} :
    ∀ {members : List (Text × Json)}, m ∈ insertMember name value members →
      m ∈ members ∨ m.2 = value
  | [], h => .inr (by rw [List.mem_singleton.mp h])
  | (n, v) :: rest, h => by
    unfold insertMember at h
    split at h
    · rcases List.mem_cons.mp h with rfl | h
      · exact .inr rfl
      · exact .inl (List.mem_cons_of_mem _ h)
    · rcases List.mem_cons.mp h with rfl | h
      · exact .inl List.mem_cons_self
      · exact (mem_insertMember h).imp_left (List.mem_cons_of_mem _)

theorem insertMember_of_notMem {name : Text} {value : Json} :
    ∀ {members : List (Text × Json)}, name ∉ members.map (·.1) →
      insertMember name value members = members ++ [(name, value)]
  | [], _ => rfl
  | (n, v) :: rest, h => by
    rw [List.map_cons, List.mem_cons, not_or] at h
    rw [insertMember, if_neg (Ne.symm h.1), insertMember_of_notMem h.2, List.cons_append]

theorem names_insertMember_of_mem {name : Text} {value : Json} :
    ∀ {members : List (Text × Json)}, name ∈ members.map (·.1) →
      (insertMember name value members).map (·.1) = members.map (·.1)
  | (n, v) :: rest, h => by
    unfold insertMember
    split
    · rfl
    · next hne =>
      have hrest : name ∈ rest.map (·.1) :=
        (List.mem_cons.mp h).resolve_left (Ne.symm hne)
      rw [List.map_cons, List.map_cons, names_insertMember_of_mem hrest]

theorem WellFormed.insertMember (name : Text) {value : Json} {members : List (Text × Json)}
    (hm : WellFormed (.obj members)) (hv : value.WellFormed) :
    WellFormed (.obj (insertMember name value members)) := by
  cases hm with
  | obj hnames hms =>
    refine .obj ?_ fun m h => ?_
    · by_cases hin : name ∈ members.map (·.1)
      · rw [names_insertMember_of_mem hin]
        exact hnames
      · rw [insertMember_of_notMem hin, List.map_append]
        refine List.nodup_append.mpr ⟨hnames, by simp, fun a ha b hb => ?_⟩
        rw [List.map_singleton, List.mem_singleton] at hb
        rintro rfl
        rw [show a = name from hb] at ha
        exact hin ha
    · rcases mem_insertMember h with h | h
      · exact hms m h
      · exact h ▸ hv

/-- What the three readers give below some bound. -/
structure ReadsWellFormed (bound : Nat) : Prop where
  value {room : Nat} {c c' : Cursor} {v : Json} (h : readValue bound room c = .ok (v, c')) :
    v.WellFormed
  items {room : Nat} {c c' : Cursor} {vs : List Json} (h : readItems bound room c = .ok (vs, c')) :
    ∀ v ∈ vs, v.WellFormed
  members {room : Nat} {c c' : Cursor} {ms ms' : List (Text × Json)}
    (h : readMembers bound room ms c = .ok (ms', c')) (hms : WellFormed (.obj ms)) :
    WellFormed (.obj ms')

theorem wellFormed_nothing (kind : Element) : kind.nothing.WellFormed := by
  cases kind with
  | item => exact .arr (by simp)
  | member => exact .obj List.nodup_nil (by simp)

theorem ReadsWellFormed.elements {bound : Nat} (h : ReadsWellFormed bound) {kind : Element}
    {room : Nat} {c c' : Cursor} {v : Json} (hread : readElements bound room c kind = .ok (v, c')) :
    v.WellFormed := by
  cases kind with
  | item =>
    obtain ⟨_, hitems, rfl⟩ := readElements_item_eq_ok.mp hread
    exact .arr (h.items hitems)
  | member =>
    obtain ⟨_, hmembers, rfl⟩ := readElements_member_eq_ok.mp hread
    exact h.members hmembers (wellFormed_nothing .member)

theorem readsWellFormed (bound : Nat) : ReadsWellFormed bound := by
  induction bound with
  | zero => exact ⟨nofun, nofun, nofun⟩
  | succ bound ih =>
    refine ⟨fun {room c c' v} h => ?_, fun {room c c' vs} h => ?_,
      fun {room c c' ms ms'} h hms => ?_⟩
    · have hstep := valueStep bound room c
      generalize readValue (bound + 1) room c = outcome at h hstep
      cases hstep with
      | fault => cases h
      | string =>
        cases h
        exact .str _
      | full => cases h
      | empty =>
        cases h
        exact wellFormed_nothing _
      | inside => exact ih.elements h
      | atom => exact wellFormed_readAtom h
    · have hstep := itemsStep bound room c
      generalize readItems (bound + 1) room c = outcome at h hstep
      cases hstep with
      | first => cases h
      | fault => cases h
      | last hvalue =>
        cases h
        exact List.forall_mem_singleton.mpr (ih.value hvalue)
      | next hvalue =>
        obtain ⟨⟨vs', _⟩, hitems, h⟩ := bind_eq_ok.mp h
        cases h
        exact List.forall_mem_cons.mpr ⟨ih.value hvalue, ih.items hitems⟩
    · have hstep := membersStep bound room ms c
      generalize readMembers (bound + 1) room ms c = outcome at h hstep
      cases hstep with
      | name => cases h
      | value => cases h
      | fault => cases h
      | last _ hvalue =>
        cases h
        exact hms.insertMember _ (ih.value hvalue)
      | next _ hvalue => exact ih.members h (hms.insertMember _ (ih.value hvalue))

/-- Whatever a text is read as is well-formed. -/
theorem wellFormed_readWithin {room : Nat} {t : Text} {v : Json} (h : readWithin room t = .ok v) :
    v.WellFormed := by
  obtain ⟨_, _, _, -, h⟩ := exists_readValue_of_readWithin h
  exact (readsWellFormed _).value h

theorem wellFormed_read {t : Text} {v : Json} (h : read t = .ok v) : v.WellFormed :=
  wellFormed_readWithin h

end HttpSnippet.Json

import Mathlib.Algebra.Group.Nat.Defs
import HttpSnippet.Text.Base64

/-!
# Base64 read back

A strict reader of the encoding takes groups of four characters of the alphabet, of which the last
may be filled up, and refuses everything else, also bits beyond the last octet. It reads exactly
what is written for some octets. The decoder that passes over foreign characters gives the same
octets.
-/
namespace HttpSnippet.Text.Base64

/-- The number that some characters of the alphabet stand for, six bits each. -/
def value? (t : Text) : Option Nat :=
  t.foldlM (fun n c => (sixBits? c).map (n * 64 + ·)) 0

/-- The octets of a text in groups of four characters. -/
def read? : Text → Option (List UInt8)
  | [] => some []
  | [a, b, '=', '='] =>
    (value? [a, b]).bind fun n => if n % 16 = 0 then some [UInt8.ofNat (n / 16)] else none
  | [a, b, c, '='] =>
    (value? [a, b, c]).bind fun n =>
      if n % 4 = 0 then some [UInt8.ofNat (n / 1024), UInt8.ofNat (n / 4)] else none
  | a :: b :: c :: d :: t =>
    (value? [a, b, c, d]).bind fun n =>
      (read? t).map fun octets =>
        UInt8.ofNat (n / 65536) :: UInt8.ofNat (n / 256) :: UInt8.ofNat n :: octets
  | _ => none

/-- The last `count` characters for a number. -/
def letters : Nat → Nat → Text
  | 0, _ => []
  | count + 1, n => letters count (n / 64) ++ [letter (n % 64)]

/-! ### The alphabet -/

theorem sixBits?_letter : ∀ n < 64, sixBits? (letter n) = some n := by decide

theorem letter_ne_padding : ∀ n < 64, letter n ≠ '=' := by decide

theorem letter_ascii : ∀ n < 64, (letter n).toNat < 128 := by decide

theorem sixBits?_ascii : ∀ m < 128, ∀ n ∈ sixBits? (Char.ofNat m),
    n < 64 ∧ letter n = Char.ofNat m := by decide

theorem sixBits?_eq_none {c : Char} (h : 128 ≤ c.toNat) : sixBits? c = none := by
  have habove {d : Char} (hd : d.toNat < 128) : ¬ c ≤ d := fun hle => by
    have hnat : c.toNat ≤ d.toNat := hle
    omega
  have hne {d : Char} (hd : d.toNat < 128) : c ≠ d := fun e => habove hd (e ▸ Char.le_refl c)
  simp [sixBits?, habove, hne]

theorem sixBits?_eq_some_iff {c : Char} {n : Nat} :
    sixBits? c = some n ↔ n < 64 ∧ letter n = c := by
  constructor
  · intro h
    have hc : c.toNat < 128 := by
      refine Nat.lt_of_not_le fun hc => ?_
      rw [sixBits?_eq_none hc] at h
      cases h
    have hascii := sixBits?_ascii c.toNat hc n
    rw [Char.ofNat_toNat] at hascii
    exact hascii h
  · rintro ⟨hn, rfl⟩
    exact sixBits?_letter n hn

/-! ### Groups -/

theorem length_letters (count n : Nat) : (letters count n).length = count := by
  induction count generalizing n with
  | zero => rfl
  | succ count ih => rw [letters, List.length_append, ih, List.length_singleton]

theorem value?_concat (t : Text) (c : Char) :
    value? (t ++ [c]) = (value? t).bind fun n => (sixBits? c).map (n * 64 + ·) := by
  rw [value?, List.foldlM_append]
  refine Option.bind_congr fun n _ => ?_
  exact bind_pure _

/-- Characters have a value exactly if they are the characters that it is written with. -/
theorem value?_eq_some_iff (count : Nat) {t : Text} (ht : t.length = count) {n : Nat} :
    value? t = some n ↔ n < 64 ^ count ∧ t = letters count n := by
  induction count generalizing t n with
  | zero =>
    obtain rfl := List.length_eq_zero_iff.mp ht
    simp [value?, letters, eq_comm]
  | succ count ih =>
    obtain ⟨front, c, rfl⟩ := List.eq_nil_or_concat t |>.resolve_left fun h => by simp [h] at ht
    have hfront : front.length = count := by simpa using ht
    rw [List.concat_eq_append, value?_concat, letters, Option.bind_eq_some_iff, Nat.pow_succ]
    constructor
    · rintro ⟨m, hm, hc⟩
      obtain ⟨k, hk, rfl⟩ := Option.map_eq_some_iff.mp hc
      obtain ⟨hm, rfl⟩ := (ih hfront).mp hm
      obtain ⟨hk, rfl⟩ := sixBits?_eq_some_iff.mp hk
      have hdiv : (m * 64 + k) / 64 = m := by omega
      have hmod : (m * 64 + k) % 64 = k := by omega
      exact ⟨by omega, by rw [hdiv, hmod]⟩
    · rintro ⟨hn, heq⟩
      obtain ⟨rfl, hc⟩ := List.append_inj' heq rfl
      obtain rfl := List.singleton_inj.mp hc
      refine ⟨n / 64, (ih hfront).mpr ⟨by omega, rfl⟩, ?_⟩
      rw [sixBits?_letter _ (Nat.mod_lt n (by decide)), Option.map_some, Option.some.injEq]
      omega

theorem encode_one (a : UInt8) : encode [a] = letters 2 (a.toNat * 16) ++ ['=', '='] := by
  have ha := a.toNat_lt
  have hlead : a.toNat * 16 / 64 % 64 = a.toNat * 16 / 64 := by omega
  simp only [encode, letters, hlead, List.nil_append, List.cons_append]

theorem encode_two (a b : UInt8) :
    encode [a, b] = letters 3 ((a.toNat * 256 + b.toNat) * 4) ++ ['='] := by
  have ha := a.toNat_lt
  have hb := b.toNat_lt
  have hlead : (a.toNat * 256 + b.toNat) * 4 / 64 / 64 % 64 =
      (a.toNat * 256 + b.toNat) * 4 / 4096 := by omega
  simp only [encode, letters, hlead, List.nil_append, List.cons_append]

theorem encode_three (a b c : UInt8) (rest : List UInt8) :
    encode (a :: b :: c :: rest) =
      letters 4 ((a.toNat * 256 + b.toNat) * 256 + c.toNat) ++ encode rest := by
  have ha := a.toNat_lt
  have hb := b.toNat_lt
  have hc := c.toNat_lt
  generalize hn : (a.toNat * 256 + b.toNat) * 256 + c.toNat = n
  have hlead : n / 64 / 64 / 64 % 64 = n / 262144 := by omega
  have hsecond : n / 64 / 64 % 64 = n / 4096 % 64 := by omega
  simp only [encode, letters, hn, hlead, hsecond, List.nil_append, List.cons_append]

theorem value?_letters (count : Nat) {n : Nat} (hn : n < 64 ^ count) :
    value? (letters count n) = some n :=
  (value?_eq_some_iff count (length_letters count n)).mpr ⟨hn, rfl⟩

/-! ### Reading -/

theorem read?_quad {a b c d : Char} (hd : d ≠ '=') (t : Text) :
    read? (a :: b :: c :: d :: t) =
      (value? [a, b, c, d]).bind fun n =>
        (read? t).map fun octets =>
          UInt8.ofNat (n / 65536) :: UInt8.ofNat (n / 256) :: UInt8.ofNat n :: octets := by
  rw [read?]
  · exact fun _ h _ => hd h
  · exact fun h _ => hd h

theorem read?_triple {a b c : Char} (hc : c ≠ '=') :
    read? [a, b, c, '='] =
      (value? [a, b, c]).bind fun n =>
        if n % 4 = 0 then some [UInt8.ofNat (n / 1024), UInt8.ofNat (n / 4)] else none := by
  rw [read?]
  exact hc

theorem ofNat_eq_of_toNat {n : Nat} {a : UInt8} (h : n % 256 = a.toNat) : UInt8.ofNat n = a := by
  rw [← UInt8.toNat_inj, UInt8.toNat_ofNat']
  exact h

/-- What is written for some octets is read as those octets. -/
theorem read?_encode (octets : List UInt8) : read? (encode octets) = some octets := by
  induction octets using encode.induct with
  | case1 => rfl
  | case2 a =>
    have ha := a.toNat_lt
    have hvalue := value?_letters 2 (n := a.toNat * 16) (by omega)
    have hoctet : UInt8.ofNat (a.toNat * 16 / 16) = a := ofNat_eq_of_toNat (by omega)
    rw [encode_one]
    simp only [letters, List.nil_append, List.cons_append] at hvalue ⊢
    rw [read?, hvalue, Option.bind_some, if_pos (Nat.mul_mod_left ..), hoctet]
  | case3 a b =>
    have ha := a.toNat_lt
    have hb := b.toNat_lt
    have hpadding := letter_ne_padding ((a.toNat * 256 + b.toNat) * 4 % 64)
      (Nat.mod_lt _ (by decide))
    have hvalue := value?_letters 3 (n := (a.toNat * 256 + b.toNat) * 4) (by omega)
    have hfirst : UInt8.ofNat ((a.toNat * 256 + b.toNat) * 4 / 1024) = a :=
      ofNat_eq_of_toNat (by omega)
    have hsecond : UInt8.ofNat ((a.toNat * 256 + b.toNat) * 4 / 4) = b :=
      ofNat_eq_of_toNat (by omega)
    rw [encode_two]
    simp only [letters, List.nil_append, List.cons_append] at hvalue ⊢
    rw [read?_triple hpadding, hvalue, Option.bind_some, if_pos (Nat.mul_mod_left ..), hfirst,
      hsecond]
  | case4 a b c rest ih =>
    have ha := a.toNat_lt
    have hb := b.toNat_lt
    have hc := c.toNat_lt
    generalize hn : (a.toNat * 256 + b.toNat) * 256 + c.toNat = n
    have hpadding := letter_ne_padding (n % 64) (Nat.mod_lt n (by decide))
    have hvalue := value?_letters 4 (n := n) (by omega)
    have hfirst : UInt8.ofNat (n / 65536) = a := ofNat_eq_of_toNat (by omega)
    have hsecond : UInt8.ofNat (n / 256) = b := ofNat_eq_of_toNat (by omega)
    have hthird : UInt8.ofNat n = c := ofNat_eq_of_toNat (by omega)
    rw [encode_three, hn]
    simp only [letters, List.nil_append, List.cons_append] at hvalue ⊢
    rw [read?_quad hpadding, hvalue, Option.bind_some, ih, Option.map_some, hfirst, hsecond, hthird]

/-- Whatever is read is written in this way and in no other. -/
theorem eq_encode_of_read? {t : Text} {octets : List UInt8} (h : read? t = some octets) :
    t = encode octets := by
  fun_induction read? t generalizing octets with
  | case1 =>
    cases h
    rfl
  | case2 a b =>
    obtain ⟨n, hn, h⟩ := Option.bind_eq_some_iff.mp h
    obtain ⟨hn, hletters⟩ := (value?_eq_some_iff 2 rfl).mp hn
    obtain ⟨hrest, h⟩ := Option.ite_none_right_eq_some.mp h
    cases h
    have hnumber : (UInt8.ofNat (n / 16)).toNat * 16 = n := by
      rw [UInt8.toNat_ofNat']
      omega
    rw [encode_one, hnumber, ← hletters]
    rfl
  | case3 a b c hc =>
    obtain ⟨n, hn, h⟩ := Option.bind_eq_some_iff.mp h
    obtain ⟨hn, hletters⟩ := (value?_eq_some_iff 3 rfl).mp hn
    obtain ⟨hrest, h⟩ := Option.ite_none_right_eq_some.mp h
    cases h
    have hnumber :
        ((UInt8.ofNat (n / 1024)).toNat * 256 + (UInt8.ofNat (n / 4)).toNat) * 4 = n := by
      rw [UInt8.toNat_ofNat', UInt8.toNat_ofNat']
      omega
    rw [encode_two, hnumber, ← hletters]
    rfl
  | case4 a b c d t _ _ ih =>
    obtain ⟨n, hn, h⟩ := Option.bind_eq_some_iff.mp h
    obtain ⟨hn, hletters⟩ := (value?_eq_some_iff 4 rfl).mp hn
    obtain ⟨rest, hrest, rfl⟩ := Option.map_eq_some_iff.mp h
    have hnumber : ((UInt8.ofNat (n / 65536)).toNat * 256 + (UInt8.ofNat (n / 256)).toNat) * 256 +
        (UInt8.ofNat n).toNat = n := by
      rw [UInt8.toNat_ofNat', UInt8.toNat_ofNat', UInt8.toNat_ofNat']
      omega
    rw [encode_three, hnumber, ← hletters, ← ih hrest]
    rfl
  | case5 => cases h

theorem read?_eq_some_iff {t : Text} {octets : List UInt8} :
    read? t = some octets ↔ t = encode octets := by
  constructor
  · exact eq_encode_of_read?
  · rintro rfl
    exact read?_encode octets

/-- Bits beyond the last octet make a text that nothing is written as. -/
example : read? ['+', '/', '8', '='] = some [0xFB, 0xFF] ∧ read? ['+', '/', '9', '='] = none := by
  decide

theorem encode_ascii (octets : List UInt8) : ∀ c ∈ encode octets, c.toNat < 128 := by
  have hletters (count n : Nat) : ∀ c ∈ letters count n, c.toNat < 128 := by
    induction count generalizing n with
    | zero => simp [letters]
    | succ count ih =>
      intro c hc
      rcases List.mem_append.mp hc with hc | hc
      · exact ih _ c hc
      · rw [List.mem_singleton.mp hc]
        exact letter_ascii _ (Nat.mod_lt n (by decide))
  induction octets using encode.induct with
  | case1 => simp [encode]
  | case2 a =>
    rw [encode_one]
    exact List.forall_mem_append.mpr ⟨hletters _ _, by simp⟩
  | case3 a b =>
    rw [encode_two]
    exact List.forall_mem_append.mpr ⟨hletters _ _, by simp⟩
  | case4 a b c rest ih =>
    rw [encode_three]
    exact List.forall_mem_append.mpr ⟨hletters _ _, ih⟩

/-! ### The decoder that passes over foreign characters -/

theorem decodeFrom?_zero {n : Nat} (hn : n < 64) (held pads : Nat) (t : Text) :
    decodeFrom? 0 held pads (letter n :: t) = decodeFrom? 1 n 0 t := by
  simp [decodeFrom?, letter_ne_padding n hn, sixBits?_letter n hn]

theorem decodeFrom?_one {n : Nat} (hn : n < 64) (held pads : Nat) (t : Text) :
    decodeFrom? 1 held pads (letter n :: t) =
      (decodeFrom? 2 (n % 16) 0 t).map (UInt8.ofNat (held * 4 + n / 16) :: ·) := by
  simp [decodeFrom?, letter_ne_padding n hn, sixBits?_letter n hn]

theorem decodeFrom?_two {n : Nat} (hn : n < 64) (held pads : Nat) (t : Text) :
    decodeFrom? 2 held pads (letter n :: t) =
      (decodeFrom? 3 (n % 4) 0 t).map (UInt8.ofNat (held * 16 + n / 4) :: ·) := by
  simp [decodeFrom?, letter_ne_padding n hn, sixBits?_letter n hn]

theorem decodeFrom?_three {n : Nat} (hn : n < 64) (held pads : Nat) (t : Text) :
    decodeFrom? 3 held pads (letter n :: t) =
      (decodeFrom? 0 0 0 t).map (UInt8.ofNat (held * 64 + n) :: ·) := by
  simp [decodeFrom?, letter_ne_padding n hn, sixBits?_letter n hn]

/-- The decoder that passes over foreign characters reads what is written as the strict one does. -/
theorem decode?_encode (octets : List UInt8) : decode? (encode octets) = some octets := by
  have hsix (m : Nat) : m % 64 < 64 := Nat.mod_lt m (by decide)
  unfold decode?
  induction octets using encode.induct with
  | case1 => rfl
  | case2 a =>
    have ha := a.toNat_lt
    rw [encode_one]
    simp only [letters, List.nil_append, List.cons_append]
    rw [decodeFrom?_zero (hsix _), decodeFrom?_one (hsix _), ofNat_eq_of_toNat (a := a) (by omega)]
    rfl
  | case3 a b =>
    have ha := a.toNat_lt
    have hb := b.toNat_lt
    rw [encode_two]
    simp only [letters, List.nil_append, List.cons_append]
    rw [decodeFrom?_zero (hsix _), decodeFrom?_one (hsix _), decodeFrom?_two (hsix _),
      ofNat_eq_of_toNat (a := a) (by omega), ofNat_eq_of_toNat (a := b) (by omega)]
    rfl
  | case4 a b c rest ih =>
    have ha := a.toNat_lt
    have hb := b.toNat_lt
    have hc := c.toNat_lt
    rw [encode_three]
    simp only [letters, List.nil_append, List.cons_append]
    rw [decodeFrom?_zero (hsix _), decodeFrom?_one (hsix _), decodeFrom?_two (hsix _),
      decodeFrom?_three (hsix _), ih, ofNat_eq_of_toNat (a := a) (by omega),
      ofNat_eq_of_toNat (a := b) (by omega), ofNat_eq_of_toNat (a := c) (by omega)]
    rfl

end HttpSnippet.Text.Base64

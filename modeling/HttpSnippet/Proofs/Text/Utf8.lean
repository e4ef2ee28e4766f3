import Mathlib.Data.List.Basic
import HttpSnippet.Proofs.Conversion

/-!
# Bytes that are a text

A sequence under way holds what its bytes contribute to a character: whatever completes it makes it
the encoding of one. So the decoder accepts nothing but encodings, and it accepts each of them as
the text that was encoded.
-/
namespace HttpSnippet.Text.Utf8

/-- A byte that may stand behind the second one of a sequence. -/
def IsContinuation (b : UInt8) : Prop := 0x80 ≤ b.toNat ∧ b.toNat ≤ 0xBF

namespace Pending

/-- The code point of a sequence, from what its bytes so far contribute and from the others. -/
def codePoint (bits : Nat) (more : List UInt8) : Nat :=
  more.foldl (fun n b => n * 64 + b.toNat % 64) bits

/-- The bytes that complete a sequence. -/
def CompletedBy (p : Pending) : List UInt8 → Prop
  | [] => False
  | b :: more => p.low ≤ b.toNat ∧ b.toNat ≤ p.high ∧ more.length + 1 = p.missing ∧
      ∀ c ∈ more, IsContinuation c

/-- Whatever completes the sequence, its bytes so far begin the encoding of its character. -/
def Holds (p : Pending) (before : List UInt8) : Prop :=
  ∀ more, p.CompletedBy more →
    before ++ more = String.utf8EncodeChar (Char.ofNat (codePoint p.bits more))

end Pending

theorem encodeChar_ofNat {n : Nat} (h : n.isValidChar) :
    String.utf8EncodeChar (Char.ofNat n) =
      if n ≤ 0x7F then [UInt8.ofNat n]
      else if n ≤ 0x7FF then [UInt8.ofNat (n / 64 % 32 + 192), UInt8.ofNat (n % 64 + 128)]
      else if n ≤ 0xFFFF then
        [UInt8.ofNat (n / 4096 % 16 + 224), UInt8.ofNat (n / 64 % 64 + 128),
          UInt8.ofNat (n % 64 + 128)]
      else
        [UInt8.ofNat (n / 262144 % 8 + 240), UInt8.ofNat (n / 4096 % 64 + 128),
          UInt8.ofNat (n / 64 % 64 + 128), UInt8.ofNat (n % 64 + 128)] := by
  have hn : (Char.ofNat n).val.toNat = n := by
    rw [Char.ofNat, dif_pos h]
    rfl
  rw [String.utf8EncodeChar.eq_1, hn]

theorem eq_ofNat {b : UInt8} {n : Nat} (h : b.toNat = n) : b = UInt8.ofNat n := by
  rw [← UInt8.toNat_inj, UInt8.toNat_ofNat', h]
  have := b.toNat_lt
  omega

theorem two_eq {b c : UInt8} (hb : 0xC2 ≤ b.toNat ∧ b.toNat < 0xE0) (hc : IsContinuation c) :
    [b, c] = String.utf8EncodeChar (Char.ofNat ((b.toNat - 0xC0) * 64 + c.toNat % 64)) := by
  obtain ⟨hlow, hhigh⟩ := hc
  rw [encodeChar_ofNat (.inl (by omega)), if_neg (by omega), if_pos (by omega),
    ← eq_ofNat (b := b) (by omega), ← eq_ofNat (b := c) (by omega)]

theorem three_eq {b c d : UInt8} (hb : 0xE0 ≤ b.toNat ∧ b.toNat < 0xF0)
    (hc : IsContinuation c) (hshort : b.toNat = 0xE0 → 0xA0 ≤ c.toNat)
    (hsurrogate : b.toNat = 0xED → c.toNat ≤ 0x9F) (hd : IsContinuation d) :
    [b, c, d] = String.utf8EncodeChar
      (Char.ofNat (((b.toNat - 0xE0) * 64 + c.toNat % 64) * 64 + d.toNat % 64)) := by
  obtain ⟨hc, hc'⟩ := hc
  obtain ⟨hd, hd'⟩ := hd
  have hvalid : (((b.toNat - 0xE0) * 64 + c.toNat % 64) * 64 + d.toNat % 64).isValidChar := by
    simp only [Nat.isValidChar]
    omega
  rw [encodeChar_ofNat hvalid, if_neg (by omega), if_neg (by omega), if_pos (by omega),
    ← eq_ofNat (b := b) (by omega), ← eq_ofNat (b := c) (by omega), ← eq_ofNat (b := d) (by omega)]

theorem four_eq {b c d e : UInt8} (hb : 0xF0 ≤ b.toNat ∧ b.toNat < 0xF5)
    (hc : IsContinuation c) (hshort : b.toNat = 0xF0 → 0x90 ≤ c.toNat)
    (hlast : b.toNat = 0xF4 → c.toNat ≤ 0x8F) (hd : IsContinuation d) (he : IsContinuation e) :
    [b, c, d, e] = String.utf8EncodeChar
      (Char.ofNat ((((b.toNat - 0xF0) * 64 + c.toNat % 64) * 64 + d.toNat % 64) * 64 +
        e.toNat % 64)) := by
  obtain ⟨hc, hc'⟩ := hc
  obtain ⟨hd, hd'⟩ := hd
  obtain ⟨he, he'⟩ := he
  have hvalid : ((((b.toNat - 0xF0) * 64 + c.toNat % 64) * 64 + d.toNat % 64) * 64 +
      e.toNat % 64).isValidChar := by
    simp only [Nat.isValidChar]
    omega
  rw [encodeChar_ofNat hvalid, if_neg (by omega), if_neg (by omega), if_neg (by omega),
    ← eq_ofNat (b := b) (by omega), ← eq_ofNat (b := c) (by omega), ← eq_ofNat (b := d) (by omega),
    ← eq_ofNat (b := e) (by omega)]

/-- A lead byte tells how many bytes follow it, and between which bounds the next one is. -/
theorem ofLead?_eq (position : Nat) (b : UInt8) :
    Pending.ofLead? position b =
      if 0xC2 ≤ b.toNat ∧ b.toNat < 0xE0 then
        some { position, lead := b, size := 1, missing := 1, low := 0x80, high := 0xBF,
               bits := b.toNat - 0xC0 }
      else if 0xE0 ≤ b.toNat ∧ b.toNat < 0xF0 then
        some { position, lead := b, size := 1, missing := 2,
               low := if b.toNat = 0xE0 then 0xA0 else 0x80,
               high := if b.toNat = 0xED then 0x9F else 0xBF, bits := b.toNat - 0xE0 }
      else if 0xF0 ≤ b.toNat ∧ b.toNat < 0xF5 then
        some { position, lead := b, size := 1, missing := 3,
               low := if b.toNat = 0xF0 then 0x90 else 0x80,
               high := if b.toNat = 0xF4 then 0x8F else 0xBF, bits := b.toNat - 0xF0 }
      else none := by
  unfold Pending.ofLead?
  dsimp only
  split_ifs <;> first
    | omega
    | (simp only [Option.some.injEq, Pending.mk.injEq, true_and]; omega)
    | rfl

theorem holds_ofLead {position : Nat} {b : UInt8} {p : Pending}
    (h : Pending.ofLead? position b = some p) : p.Holds [b] := by
  rw [ofLead?_eq] at h
  intro more hmore
  split at h
  · next htwo =>
    cases h
    match more, hmore with
    | [c], ⟨hlow, hhigh, _, _⟩ => exact two_eq htwo ⟨hlow, hhigh⟩
  split at h
  · next hthree =>
    cases h
    match more, hmore with
    | [c, d], ⟨hlow, hhigh, _, hmore⟩ =>
      dsimp only at hlow hhigh
      have hd := List.forall_mem_singleton.mp hmore
      exact three_eq hthree ⟨by split at hlow <;> omega, by split at hhigh <;> omega⟩
        (fun h => by rwa [if_pos h] at hlow) (fun h => by rwa [if_pos h] at hhigh) hd
  split at h
  · next hfour =>
    cases h
    match more, hmore with
    | [c, d, e], ⟨hlow, hhigh, _, hmore⟩ =>
      dsimp only at hlow hhigh
      obtain ⟨hd, he⟩ := List.forall_mem_cons.mp hmore
      exact four_eq hfour ⟨by split at hlow <;> omega, by split at hhigh <;> omega⟩
        (fun h => by rwa [if_pos h] at hlow) (fun h => by rwa [if_pos h] at hhigh) hd
        (List.forall_mem_singleton.mp he)
  · cases h

/-- One more byte of a sequence that goes on. -/
theorem Pending.Holds.next {p : Pending} {before : List UInt8} (hp : p.Holds before) {b : UInt8}
    (hlow : p.low ≤ b.toNat) (hhigh : b.toNat ≤ p.high) (size : Nat) :
    Pending.Holds { p with size, missing := p.missing - 1, low := 0x80, high := 0xBF,
                           bits := p.bits * 64 + b.toNat % 64 } (before ++ [b]) := by
  intro more hmore
  match more, hmore with
  | c :: more, ⟨hc, hc', hlength, hmore⟩ =>
    have hcompleted : p.CompletedBy (b :: c :: more) :=
      ⟨hlow, hhigh, by simp only [List.length_cons] at hlength ⊢; omega,
        List.forall_mem_cons.mpr ⟨⟨hc, hc'⟩, hmore⟩⟩
    rw [List.append_assoc]
    exact hp _ hcompleted

theorem encode_cons (c : Char) (t : Text) : encode (c :: t) = String.utf8EncodeChar c ++ encode t :=
  rfl

theorem map_cons_eq_ok {c : Char} {x : Except DecodeError Text} {t : Text} :
    x.map (c :: ·) = .ok t ↔ ∃ u, x = .ok u ∧ t = c :: u := by
  cases x with
  | error e => simp [Except.map]
  | ok u => simp [Except.map, eq_comm]

/-- Whatever the decoder accepts is an encoding, together with what it has read before. -/
theorem eq_encode_of_decodeFrom {bytes : List UInt8} :
    ∀ {position : Nat} {t : Text},
      (decodeFrom position none bytes = .ok t → bytes = encode t) ∧
      ∀ {p : Pending} {before : List UInt8}, p.Holds before →
        decodeFrom position (some p) bytes = .ok t → before ++ bytes = encode t := by
  induction bytes with
  | nil =>
    intro position t
    refine ⟨fun h => ?_, fun _ h => by cases h⟩
    cases h
    rfl
  | cons b rest ih =>
    intro position t
    constructor
    · intro h
      rw [decodeFrom] at h
      split at h
      · next hascii =>
        obtain ⟨u, hu, rfl⟩ := map_cons_eq_ok.mp h
        rw [ih.1 hu, encode_cons, encodeChar_ofNat (.inl (by omega)), if_pos (by omega),
          ← eq_ofNat rfl]
        rfl
      · split at h
        · next p hp =>
          exact ih.2 (holds_ofLead hp) h
        · cases h
    · intro p before hp h
      rw [decodeFrom] at h
      dsimp only at h
      split at h
      · next hbounds =>
        obtain ⟨hlow, hhigh⟩ : p.low ≤ b.toNat ∧ b.toNat ≤ p.high := by simpa using hbounds
        split at h
        · next hlast =>
          obtain ⟨u, hu, rfl⟩ := map_cons_eq_ok.mp h
          have hchar : before ++ [b] =
              String.utf8EncodeChar (Char.ofNat (p.bits * 64 + b.toNat % 64)) :=
            hp [b] ⟨hlow, hhigh, hlast.symm, by simp⟩
          rw [ih.1 hu, encode_cons, ← hchar, List.append_assoc]
          rfl
        · have hnext := ih.2 (hp.next hlow hhigh (p.size + 1)) h
          rwa [List.append_assoc] at hnext
      · cases h

/-! ### Every encoding is decoded -/

/-- The bytes that complete a sequence are read together. -/
theorem decodeFrom_completed {more : List UInt8} {p : Pending} (h : p.CompletedBy more)
    (position : Nat) (rest : List UInt8) :
    ∃ position', decodeFrom position (some p) (more ++ rest) =
      (decodeFrom position' none rest).map (Char.ofNat (Pending.codePoint p.bits more) :: ·) := by
  induction more generalizing p position with
  | nil => exact h.elim
  | cons b more ih =>
    obtain ⟨hlow, hhigh, hlength, hmore⟩ := h
    rw [List.cons_append, decodeFrom]
    simp only [hlow, hhigh, decide_true, Bool.and_self, if_true]
    cases more with
    | nil =>
      rw [if_pos (show p.missing = 1 from hlength.symm)]
      exact ⟨_, rfl⟩
    | cons c more =>
      rw [if_neg (by rw [← hlength]; simp)]
      obtain ⟨hc, hmore⟩ := List.forall_mem_cons.mp hmore
      exact ih ⟨hc.1, hc.2, by simp only [List.length_cons] at hlength ⊢; omega, hmore⟩ _

/-- A character is its lead byte and the bytes that complete it. -/
theorem exists_completedBy {c : Char} (hc : 0x80 ≤ c.toNat) (position : Nat) :
    ∃ b more p, String.utf8EncodeChar c = b :: more ∧ Pending.ofLead? position b = some p ∧
      p.CompletedBy more ∧ Pending.codePoint p.bits more = c.toNat := by
  have hvalid : c.toNat < 0xD800 ∨ 0xDFFF < c.toNat ∧ c.toNat < 0x110000 := c.valid
  have hcode : c.val.toNat = c.toNat := rfl
  rw [String.utf8EncodeChar.eq_1, hcode]
  generalize c.toNat = n at hc hvalid
  have hbyte {m : Nat} (h : m < 256) : (UInt8.ofNat m).toNat = m := by
    rw [UInt8.toNat_ofNat', Nat.mod_eq_of_lt h]
  have hcontinuation (m : Nat) : IsContinuation (UInt8.ofNat (m % 64 + 128)) := by
    rw [IsContinuation, hbyte (by omega)]
    omega
  rw [if_neg (by omega)]
  split
  · have hlead := hbyte (show n / 64 % 32 + 192 < 256 by omega)
    refine ⟨_, _, _, rfl, by rw [ofLead?_eq, hlead, if_pos (by omega)], ?_, ?_⟩
    · exact ⟨(hcontinuation n).1, (hcontinuation n).2, rfl, by simp⟩
    · simp only [Pending.codePoint, List.foldl_cons, List.foldl_nil,
        hbyte (show n % 64 + 128 < 256 by omega)]
      omega
  split
  · have hlead := hbyte (show n / 4096 % 16 + 224 < 256 by omega)
    have hsecond := hbyte (show n / 64 % 64 + 128 < 256 by omega)
    refine ⟨_, _, _, rfl, by rw [ofLead?_eq, hlead, if_neg (by omega), if_pos (by omega)], ?_, ?_⟩
    · refine ⟨?_, ?_, rfl, List.forall_mem_singleton.mpr (hcontinuation n)⟩
      · dsimp only
        split <;> omega
      · dsimp only
        split <;> omega
    · simp only [Pending.codePoint, List.foldl_cons, List.foldl_nil, hsecond,
        hbyte (show n % 64 + 128 < 256 by omega)]
      omega
  · have hlead := hbyte (show n / 262144 % 8 + 240 < 256 by omega)
    have hsecond := hbyte (show n / 4096 % 64 + 128 < 256 by omega)
    refine ⟨_, _, _, rfl, by
      rw [ofLead?_eq, hlead, if_neg (by omega), if_neg (by omega), if_pos (by omega)], ?_, ?_⟩
    · refine ⟨?_, ?_, rfl, List.forall_mem_cons.mpr
        ⟨hcontinuation (n / 64), List.forall_mem_singleton.mpr (hcontinuation n)⟩⟩
      · dsimp only
        split <;> omega
      · dsimp only
        split <;> omega
    · simp only [Pending.codePoint, List.foldl_cons, List.foldl_nil, hsecond,
        hbyte (show n / 64 % 64 + 128 < 256 by omega), hbyte (show n % 64 + 128 < 256 by omega)]
      omega

theorem decodeFrom_encode (t : Text) (position : Nat) :
    decodeFrom position none (encode t) = .ok t := by
  induction t generalizing position with
  | nil => rfl
  | cons c t ih =>
    rw [encode_cons]
    by_cases hc : 0x80 ≤ c.toNat
    · obtain ⟨b, more, p, hencode, hlead, hcompleted, hcode⟩ := exists_completedBy hc position
      have hb : ¬b.toNat < 0x80 := fun hb => by
        rw [ofLead?_eq, if_neg (by omega), if_neg (by omega), if_neg (by omega)] at hlead
        cases hlead
      obtain ⟨position', hread⟩ := decodeFrom_completed hcompleted (position + 1) (encode t)
      rw [hencode, List.cons_append, decodeFrom, if_neg hb, hlead]
      dsimp only
      rw [hread, ih, hcode, Char.ofNat_toNat]
      rfl
    · have hencode : String.utf8EncodeChar c = [UInt8.ofNat c.toNat] := by
        rw [String.utf8EncodeChar.eq_1]
        exact if_pos (show c.toNat ≤ 127 by omega)
      have hb : (UInt8.ofNat c.toNat).toNat = c.toNat := by
        rw [UInt8.toNat_ofNat', Nat.mod_eq_of_lt (by omega)]
      rw [hencode, List.cons_append, decodeFrom, hb, if_pos (by omega), List.nil_append, ih,
        Char.ofNat_toNat]
      rfl

/-- The decoder accepts the encodings of texts and nothing else. -/
theorem decode_eq_ok_iff {bytes : List UInt8} {t : Text} :
    decode bytes = .ok t ↔ bytes = encode t := by
  constructor
  · exact eq_encode_of_decodeFrom.1
  · rintro rfl
    exact decodeFrom_encode t 0

end HttpSnippet.Text.Utf8

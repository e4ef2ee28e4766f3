import HttpSnippet.Json.Reader
import HttpSnippet.Proofs.Source.Token

/-!
# JSON strings read back

Each character of a written string is read as itself, be it plain, a short escape, one 16-bit unit
or a pair of them. So a string is read up to its own closing quote, whatever follows. A unit alone
is never the first half of a pair, because no character lies among the surrogates.
-/
namespace HttpSnippet.Json

theorem hexValue?_digitChar : ∀ n < 16, hexValue? (Nat.digitChar n) = some n := by decide

/-- Four hexadecimal digits are read back as the number that they were written for. -/
theorem hexUnit?_hex {n : Nat} (hn : n < 0x10000) :
    ∃ a b c d, Text.hex 4 n = [a, b, c, d] ∧ hexUnit? a b c d = some n := by
  refine ⟨_, _, _, _, rfl, ?_⟩
  have hdigit (m : Nat) : hexValue? (Nat.digitChar (m % 16)) = some (m % 16) :=
    hexValue?_digitChar _ (Nat.mod_lt m (by decide))
  simp only [hexUnit?, hdigit, Option.bind_eq_bind, Option.bind_some, Option.pure_def,
    Option.some.injEq]
  omega

/-- The outcome of reading a string with one more character in front. -/
def consRead (c : Char) (outcome : Except ReadError (Text × Cursor)) :
    Except ReadError (Text × Cursor) := outcome.map fun (s, rest) => (c :: s, rest)

theorem readString_unit {a b c d : Char} {n : Nat} (hn : hexUnit? a b c d = some n)
    (hs : isHighSurrogate n = false) (start position : Nat) {s : Text} (ht : s ≠ []) :
    readString start position ('\\' :: 'u' :: a :: b :: c :: d :: s) =
      consRead (unitChar n) (readString start (position + 6) s) := by
  obtain ⟨after, t, rfl⟩ := List.exists_cons_of_ne_nil ht
  -- the unit may stand before another one that it forms no pair with
  by_cases hpair : ∃ e f g h x u, after :: t = '\\' :: 'u' :: e :: f :: g :: h :: x :: u
  · obtain ⟨e, f, g, h, x, u, hu⟩ := hpair
    rw [hu]
    generalize hout : readString start (position + 6) ('\\' :: 'u' :: e :: f :: g :: h :: x :: u)
      = out
    rw [readString]
    simp only [hn, hs, hout]
    rfl
  · generalize hout : readString start (position + 6) (after :: t) = out
    rw [readString]
    · simp only [hn, hout]
      rfl
    · rintro e f g h x u rfl rfl
      exact hpair ⟨e, f, g, h, x, u, rfl⟩

theorem readString_pair {a b c d e f g h : Char} {high low : Nat}
    (hhigh : hexUnit? a b c d = some high) (hlow : hexUnit? e f g h = some low)
    (hh : isHighSurrogate high = true) (hl : isLowSurrogate low = true) (start position : Nat)
    {s : Text} (ht : s ≠ []) :
    readString start position
        ('\\' :: 'u' :: a :: b :: c :: d :: '\\' :: 'u' :: e :: f :: g :: h :: s) =
      consRead (joinSurrogates high low) (readString start (position + 12) s) := by
  obtain ⟨after, t, rfl⟩ := List.exists_cons_of_ne_nil ht
  generalize hout : readString start (position + 12) (after :: t) = out
  rw [readString]
  simp only [hhigh, hlow, hh, hl, if_true, hout]
  rfl

theorem readString_escape {c m : Char} (hc : c ≠ 'u') (hm : unescape? c = some m)
    (start position : Nat) (s : Text) :
    readString start position ('\\' :: c :: s) =
      consRead m (readString start (position + 2) s) := by
  generalize hout : readString start (position + 2) s = out
  rw [readString]
  · simp only [hc, if_false, hm, hout]
    rfl
  · rintro _ _ _ _ _ _ _ _ _ _ rfl
    exact absurd rfl hc
  · rintro _ _ _ _ _ _ rfl
    exact absurd rfl hc

theorem readString_plain {c : Char} (hq : c ≠ '"') (hb : c ≠ '\\') (hc : 0x20 ≤ c.toNat)
    (start position : Nat) (s : Text) :
    readString start position (c :: s) = consRead c (readString start (position + 1) s) := by
  generalize hout : readString start (position + 1) s = out
  rw [readString]
  · rw [if_neg (by omega), hout]
    rfl
  all_goals simp [hq, hb]

theorem toNat_valid (c : Char) :
    c.toNat < 0xD800 ∨ 0xDFFF < c.toNat ∧ c.toNat < 0x110000 := c.valid

theorem isHighSurrogate_toNat (c : Char) : isHighSurrogate c.toNat = false := by
  have hvalid := toNat_valid c
  simp only [isHighSurrogate, Bool.and_eq_false_iff, decide_eq_false_iff_not]
  omega

theorem isLowSurrogate_toNat (c : Char) : isLowSurrogate c.toNat = false := by
  have hvalid := toNat_valid c
  simp only [isLowSurrogate, Bool.and_eq_false_iff, decide_eq_false_iff_not]
  omega

/-- A character beyond the first 65536 is a pair of surrogates. -/
theorem joinSurrogates_toNat {c : Char} (hc : 0x10000 ≤ c.toNat) :
    isHighSurrogate (0xD800 + (c.toNat - 0x10000) / 0x400) = true ∧
      isLowSurrogate (0xDC00 + (c.toNat - 0x10000) % 0x400) = true ∧
      joinSurrogates (0xD800 + (c.toNat - 0x10000) / 0x400)
        (0xDC00 + (c.toNat - 0x10000) % 0x400) = c := by
  have hvalid := toNat_valid c
  have hsum : 0x10000 + (0xD800 + (c.toNat - 0x10000) / 0x400 - 0xD800) * 0x400 +
      (0xDC00 + (c.toNat - 0x10000) % 0x400 - 0xDC00) = c.toNat := by omega
  simp only [isHighSurrogate, isLowSurrogate, Bool.and_eq_true, decide_eq_true_eq]
  refine ⟨by omega, by omega, ?_⟩
  rw [joinSurrogates, hsum, Char.ofNat_toNat]

/-- A unit that is a whole character. -/
theorem readString_escapeUnit {c : Char} (hc : c.toNat < 0x10000) (start position : Nat)
    {s : Text} (ht : s ≠ []) :
    readString start position (escapeUnit c.toNat ++ s) =
      consRead c (readString start (position + 6) s) := by
  obtain ⟨a, b, d, e, hhex, hunit⟩ := hexUnit?_hex hc
  have hvalid := toNat_valid c
  have hchar : unitChar c.toNat = c := by
    rw [unitChar, if_neg, Char.ofNat_toNat]
    simp only [Bool.and_eq_true, decide_eq_true_eq]
    omega
  have h := readString_unit hunit (isHighSurrogate_toNat c) start position ht
  rw [hchar] at h
  rw [escapeUnit, hhex]
  exact h

/-- Two units that are one character beyond the first 65536. -/
theorem readString_escapeUnits {c : Char} (hc : 0x10000 ≤ c.toNat) (start position : Nat)
    {s : Text} (ht : s ≠ []) :
    readString start position
        (escapeUnit (0xD800 + (c.toNat - 0x10000) / 0x400) ++
          escapeUnit (0xDC00 + (c.toNat - 0x10000) % 0x400) ++ s) =
      consRead c (readString start (position + 12) s) := by
  have hvalid := toNat_valid c
  obtain ⟨a, b, d, e, hhex, hhigh⟩ :=
    hexUnit?_hex (n := 0xD800 + (c.toNat - 0x10000) / 0x400) (by omega)
  obtain ⟨f, g, h, i, hhex', hlow⟩ :=
    hexUnit?_hex (n := 0xDC00 + (c.toNat - 0x10000) % 0x400) (by omega)
  obtain ⟨hisHigh, hisLow, hchar⟩ := joinSurrogates_toNat hc
  have hread := readString_pair hhigh hlow hisHigh hisLow start position ht
  rw [hchar] at hread
  rw [escapeUnit, escapeUnit, hhex, hhex']
  exact hread

/-- A character is read back as itself, however it is written. -/
theorem readString_escapeChar (ascii : Bool) (c : Char) (start position : Nat) {s : Text}
    (ht : s ≠ []) :
    ∃ p, readString start position (escapeChar ascii c ++ s) =
      consRead c (readString start p s) := by
  have hshort {b m : Char} (h : c = m) (hb : b ≠ 'u') (hm : unescape? b = some m) :
      ∃ p, readString start position (['\\', b] ++ s) = consRead c (readString start p s) :=
    ⟨_, h ▸ readString_escape hb hm start position s⟩
  simp only [escapeChar, Bool.or_eq_true, decide_eq_true_eq]
  split
  · next h => exact ⟨_, readString_escape (by rcases h with rfl | rfl <;> decide)
      (by rcases h with rfl | rfl <;> rfl) start position s⟩
  split
  · next h => exact hshort h (by decide) rfl
  split
  · next h => exact hshort h (by decide) rfl
  split
  · next h => exact hshort h (by decide) rfl
  split
  · next h => exact hshort h (by decide) rfl
  split
  · next h => exact hshort h (by decide) rfl
  split
  · exact ⟨_, readString_escapeUnit (by omega) start position ht⟩
  split
  · next hq _ _ _ _ _ hc _ =>
    obtain ⟨hquote, hslash⟩ := not_or.mp hq
    exact ⟨_, readString_plain hquote hslash (by omega) start position s⟩
  split
  · next h => exact ⟨_, readString_escapeUnit h start position ht⟩
  · next h => exact ⟨_, readString_escapeUnits (by omega) start position ht⟩

/-- A string is read up to its own closing quote, whatever follows. -/
theorem readString_inside (ascii : Bool) (t : Text) (start position : Nat) (rest : Text) :
    ∃ p, readString start position (inside ascii t ++ '"' :: rest) = .ok (t, ⟨p, rest⟩) := by
  induction t generalizing position with
  | nil => exact ⟨position + 1, by rw [inside, List.flatMap_nil, List.nil_append, readString]⟩
  | cons c t ih =>
    obtain ⟨p, hc⟩ := readString_escapeChar ascii c start position
      (s := inside ascii t ++ '"' :: rest) (by simp)
    obtain ⟨p', ht⟩ := ih p
    refine ⟨p', ?_⟩
    rw [inside, List.flatMap_cons, List.append_assoc, ← inside, hc, ht]
    rfl

end HttpSnippet.Json

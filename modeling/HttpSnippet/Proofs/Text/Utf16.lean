import HttpSnippet.Proofs.Json.Text

/-!
# UTF-16

Some languages take a string for a sequence of 16-bit units. A character beyond the first 65536 is a
pair of surrogates there, and no character lies among the surrogates, so the units of a text are
read back as that text.
-/
namespace HttpSnippet.Text.Utf16

open Json (isHighSurrogate isLowSurrogate joinSurrogates)

/-- The units of a code point; one below 65536 is its own unit, even if it is a surrogate. -/
def ofCodePoint (n : Nat) : List Nat :=
  if n < 0x10000 then [n]
  else [0xD800 + (n - 0x10000) / 0x400, 0xDC00 + (n - 0x10000) % 0x400]

def encode (t : Text) : List Nat := t.flatMap fun c => ofCodePoint c.toNat

/-- The text of some units; there is none if a surrogate stands alone. -/
def decode? : List Nat → Option Text
  | [] => some []
  | [unit] => if isHighSurrogate unit || isLowSurrogate unit then none else some [Char.ofNat unit]
  | unit :: next :: units =>
    if isHighSurrogate unit then
      if isLowSurrogate next then (decode? units).map (joinSurrogates unit next :: ·) else none
    else if isLowSurrogate unit then none
    else (decode? (next :: units)).map (Char.ofNat unit :: ·)

theorem encode_singleton (c : Char) : encode [c] = ofCodePoint c.toNat := List.append_nil _

theorem encode_append (s t : Text) : encode (s ++ t) = encode s ++ encode t := List.flatMap_append

theorem encode_cons (c : Char) (t : Text) : encode (c :: t) = ofCodePoint c.toNat ++ encode t :=
  rfl

theorem decode?_unit {n : Nat} (hh : isHighSurrogate n = false) (hl : isLowSurrogate n = false)
    (units : List Nat) : decode? (n :: units) = (decode? units).map (Char.ofNat n :: ·) := by
  cases units with
  | nil => simp [decode?, hh, hl]
  | cons next units => simp [decode?, hh, hl]

/-- A character is read back, whatever units follow its own. -/
theorem decode?_ofCodePoint (c : Char) (units : List Nat) :
    decode? (ofCodePoint c.toNat ++ units) = (decode? units).map (c :: ·) := by
  unfold ofCodePoint
  split
  · rw [List.singleton_append,
      decode?_unit (Json.isHighSurrogate_toNat c) (Json.isLowSurrogate_toNat c), Char.ofNat_toNat]
  · obtain ⟨hhigh, hlow, hchar⟩ := Json.joinSurrogates_toNat (c := c) (by omega)
    rw [List.cons_append, List.cons_append, List.nil_append, decode?, if_pos hhigh, if_pos hlow,
      hchar]

theorem decode?_encode (t : Text) : decode? (encode t) = some t := by
  induction t with
  | nil => rfl
  | cons c t ih =>
    rw [encode_cons, decode?_ofCodePoint, ih]
    rfl

end HttpSnippet.Text.Utf16

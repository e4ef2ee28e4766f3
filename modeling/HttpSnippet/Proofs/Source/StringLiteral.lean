import HttpSnippet.Proofs.Source.Literal
import HttpSnippet.Proofs.Source.Replacement
import HttpSnippet.Proofs.Text.Utf16

/-!
# Single-quoted literals by the rules of their languages

Here stand the whole rules by which the two languages read a single-quoted literal, with all the
escapes that are never written. The reader of a dialect agrees with them: it is the rule of PHP, and
whatever it reads in JavaScript is read by the full rule as well. So an escaped text is read back
exactly, up to its own closing quote and whatever follows.
-/
namespace HttpSnippet

/-- The two cases in which a reader looks for a backslash exclude it together. -/
theorem ne_backslash {c : Char} {t : Text} (hlast : c = '\\' → t = [] → False)
    (hslash : ∀ b u, c = '\\' → t = b :: u → False) : c ≠ '\\' := by
  intro h
  cases t with
  | nil => exact hlast h rfl
  | cons b u => exact hslash b u h rfl

/-! ### JavaScript -/

namespace JavaScript

/-- Where a reader stands in a literal. -/
inductive Place where
  | plain
  /-- Behind a backslash. -/
  | escaped
  /-- In a numbered escape of octal digits, of which so many more may follow. -/
  | octal (left value : Nat)
  /-- In an escape that needs so many more hexadecimal digits. -/
  | hex (left value : Nat)
  /-- Behind the letter of an escape that names a code point, with or without braces. -/
  | unicode
  /-- Between braces, with the digits that were read. -/
  | braced (value : Option Nat)
  /-- Behind a carriage return that continues the line; a line feed belongs to it. -/
  | continued

/-- What a character does: it breaks the literal, closes it, or adds units to its value. Escapes
that end where they cannot go on add their units with the character behind them. -/
inductive Move where
  | broken
  | closes (units : List Nat)
  | goes (units : List Nat) (next : Place)

/-- The move with the units of an escape that ends in front of it. -/
def Move.after (units : List Nat) : Move → Move
  | .broken => .broken
  | .closes more => .closes (units ++ more)
  | .goes more next => .goes (units ++ more) next

def octalValue? (c : Char) : Option Nat :=
  if '0' ≤ c && c ≤ '7' then some (c.toNat - '0'.toNat) else none

def moveFromPlain (c : Char) : Move :=
  if c = '\'' then .closes []
  else if c = '\\' then .goes [] .escaped
  else if c = '\n' || c = '\r' then .broken
  else .goes (Text.Utf16.ofCodePoint c.toNat) .plain

/-- The character that a single one behind a backslash stands for. -/
def unescaped : Char → Char
  | 'b' => '\x08'
  | 't' => '\t'
  | 'n' => '\n'
  | 'v' => '\x0b'
  | 'f' => '\x0c'
  | 'r' => '\r'
  | c => c

/-- The character behind a backslash opens an escape of several characters, is a line break that is
passed over, or is the whole escape. -/
def moveFromEscaped (c : Char) : Move :=
  if c = 'x' then .goes [] (.hex 2 0)
  else if c = 'u' then .goes [] .unicode
  else if c = '\r' then .goes [] .continued
  else if Dialect.endsLine c then .goes [] .plain
  else
    match octalValue? c with
    | some value => .goes [] (.octal (if value < 4 then 2 else 1) value)
    | none => .goes (Text.Utf16.ofCodePoint (unescaped c).toNat) .plain

/-- A further digit of an escape with a fixed number of hexadecimal digits. -/
def moveFromHex (left value : Nat) (c : Char) : Move :=
  match Json.hexValue? c with
  | none => .broken
  | some digit =>
    if left ≤ 1 then .goes [value * 16 + digit] .plain
    else .goes [] (.hex (left - 1) (value * 16 + digit))

/-- A digit between braces, or the brace that ends them. Code points beyond the last one are
refused. -/
def moveFromBraced (value : Option Nat) (c : Char) : Move :=
  if c = '}' then
    match value with
    | none => .broken
    | some n => .goes (Text.Utf16.ofCodePoint n) .plain
  else
    match Json.hexValue? c with
    | none => .broken
    | some digit =>
      let n := value.getD 0 * 16 + digit
      if 0x10FFFF < n then .broken else .goes [] (.braced (some n))

def Place.move : Place → Char → Move
  | .plain, c => moveFromPlain c
  | .escaped, c => moveFromEscaped c
  | .octal left value, c =>
    match left, octalValue? c with
    | left + 1, some digit => .goes [] (.octal left (value * 8 + digit))
    | _, _ => (moveFromPlain c).after [value]
  | .hex left value, c => moveFromHex left value c
  | .unicode, c => if c = '{' then .goes [] (.braced none) else moveFromHex 4 0 c
  | .braced value, c => moveFromBraced value c
  | .continued, c => if c = '\n' then .goes [] .plain else moveFromPlain c

/-- A literal from behind its opening quote on, by the rule for code that is not strict: the 16-bit
units of its value, and what follows its closing quote. -/
def readUnits? : Place → Text → Option (List Nat × Text)
  | _, [] => none
  | place, c :: t =>
    match place.move c with
    | .broken => none
    | .closes units => some (units, t)
    | .goes units next => (readUnits? next t).map fun (more, rest) => (units ++ more, rest)

/-- A literal from behind its opening quote on: the text that it stands for, and what follows its
closing quote. With a surrogate that stands alone it stands for no text. -/
def readString? (t : Text) : Option (Text × Text) :=
  (readUnits? .plain t).bind fun (units, rest) => (Text.Utf16.decode? units).map (·, rest)

/-- Numbered escapes, pairs of surrogates and continued lines are read; a raw line break and a
number with a digit too few are not. -/
example :
    readString? "\\x41\\ud83d\\ude00\\\r\n\\0018\\a' + b".toList =
      some (['A', '😀', '\x01', '8', 'a'], [' ', '+', ' ', 'b']) ∧
    readString? "a\nb'".toList = none ∧ readString? "\\x4'".toList = none := by
  decide

theorem octalValue?_eq_none {c : Char} (h : c.isDigit = false) : octalValue? c = none := by
  refine if_neg fun hoctal => ?_
  obtain ⟨hlow, hhigh⟩ : '0' ≤ c ∧ c ≤ '7' := by simpa using hoctal
  have hdigit : c.isDigit = true := by
    simp only [Char.isDigit, Bool.and_eq_true, decide_eq_true_eq]
    exact ⟨hlow, UInt32.le_trans hhigh (by decide)⟩
  rw [hdigit] at h
  cases h

/-- What a backslash stands for in the reader of the dialect, it stands for by the full rule. -/
theorem moveFromEscaped_of_meaning? {c : Char} {m : Text}
    (h : Dialect.javascript.meaning? c = some m) :
    moveFromEscaped c = .goes (Text.Utf16.encode m) .plain := by
  unfold Dialect.meaning? at h
  split at h
  · cases h; rfl
  · cases h; rfl
  · cases h; rfl
  · cases h; rfl
  · cases h; rfl
  · cases h; rfl
  · next c _ _ _ hb ht hn hv hf hr =>
    have hself : unescaped c = c := by
      unfold unescaped
      split
      · exact (hb rfl).elim
      · exact (ht rfl).elim
      · exact (hn rfl).elim
      · exact (hv rfl).elim
      · exact (hf rfl).elim
      · exact (hr rfl).elim
      · rfl
    split at h
    · cases h
    · next hplain =>
      cases h
      simp only [Bool.or_eq_true, decide_eq_true_eq, not_or, Bool.not_eq_true] at hplain
      obtain ⟨⟨⟨hdigit, hx⟩, hu⟩, hline⟩ := hplain
      have hreturn : c ≠ '\r' := by
        rintro rfl
        exact absurd hline (by decide)
      rw [moveFromEscaped, if_neg hx, if_neg hu, if_neg hreturn, hline,
        octalValue?_eq_none hdigit, hself, Text.Utf16.encode_singleton]
      rfl
  · contradiction
  · contradiction
  · contradiction

theorem moveFromPlain_of_not_bars {c : Char} (hb : Dialect.javascript.bars c = false)
    (hs : c ≠ '\\') (hq : c ≠ '\'') :
    moveFromPlain c = .goes (Text.Utf16.encode [c]) .plain := by
  have hbreak : (c = '\n' || c = '\r') = false := hb
  rw [moveFromPlain, if_neg hq, if_neg hs, hbreak, Text.Utf16.encode_singleton]
  rfl

/-- The outcome of a reading with more units in front. -/
theorem readUnits?_of_goes {place next : Place} {c : Char} {units : List Nat}
    (h : place.move c = .goes units next) (t : Text) :
    readUnits? place (c :: t) =
      (readUnits? next t).map fun (more, rest) => (units ++ more, rest) := by
  rw [readUnits?, h]

/-- Whatever the reader of the dialect reads, the full rule reads likewise. -/
theorem readUnits?_of_readLiteral? {t s rest : Text}
    (h : Dialect.javascript.readLiteral? t = some (s, rest)) :
    readUnits? .plain t = some (Text.Utf16.encode s, rest) := by
  fun_induction Dialect.readLiteral? Dialect.javascript t generalizing s with
  | case1 | case2 | case3 | case6 => cases h
  | case4 c t hb ih =>
    obtain ⟨m, hm, h⟩ := Option.bind_eq_some_iff.mp h
    obtain ⟨⟨u, rest⟩, hu, heq⟩ := Option.map_eq_some_iff.mp h
    cases heq
    have hescaped : Place.escaped.move c = .goes (Text.Utf16.encode m) .plain :=
      moveFromEscaped_of_meaning? hm
    have hslash : Place.plain.move '\\' = .goes [] .escaped := rfl
    rw [readUnits?_of_goes hslash, readUnits?_of_goes hescaped, ih hu, Text.Utf16.encode_append]
    rfl
  | case5 t =>
    cases h
    rfl
  | case7 c t hslash hslash' hq hb ih =>
    obtain ⟨⟨u, rest⟩, hu, heq⟩ := Option.map_eq_some_iff.mp h
    cases heq
    have hs : c ≠ '\\' := ne_backslash hslash hslash'
    have hplain : Place.plain.move c = .goes (Text.Utf16.encode [c]) .plain :=
      moveFromPlain_of_not_bars (by simpa using hb) hs hq
    rw [readUnits?_of_goes hplain, ih hu, Text.Utf16.encode_singleton, Text.Utf16.encode_cons]
    rfl

theorem readString?_of_readLiteral? {t s rest : Text}
    (h : Dialect.javascript.readLiteral? t = some (s, rest)) :
    readString? t = some (s, rest) := by
  rw [readString?, readUnits?_of_readLiteral? h, Option.bind_some]
  dsimp only
  rw [Text.Utf16.decode?_encode]
  rfl

/-- An escaped text in front of a quote is a literal that stands for the text and ends at that
quote, whatever follows; so different texts are escaped differently. Escaping is what four
replacements in the whole text come to, one after another, with the backslash first: no later
replacement touches what an earlier one has put in. Among the orders of the replacements these are
the only ones. -/
theorem readString?_javascript_escape :
    (∀ (s w : Text) (trim : Bool),
      readString? (Dialect.javascript.escape (s.trimmed trim) ++ '\'' :: w) =
        some (if trim then s.strip else s, w)) ∧
    Function.Injective (fun s : Text => Dialect.javascript.escape (s.trimmed false)) ∧
    (∀ s, Text.replaceInTurn Dialect.javascript.replacements s = Dialect.javascript.escape s) ∧
    ∀ order, order.Perm Dialect.javascript.replacements →
      ((∀ s, Text.replaceInTurn order s = Dialect.javascript.escape s) ↔
        order.head?.map (·.1) = some '\\') := by
  refine ⟨fun s w trim => ?_, Dialect.escape_injective .javascript, ?_, fun order horder => ?_⟩
  · exact readString?_of_readLiteral? (Dialect.readLiteral?_escape .javascript (s.trimmed trim) w)
  · exact (Dialect.replaceInTurn_eq_escape_iff (.refl _)).mpr rfl
  · exact Dialect.replaceInTurn_eq_escape_iff horder

/-- Backslashes in front of a quote and of line breaks, with a quote behind the literal; and the
replacements with the line breaks before the quote. -/
theorem readString?_javascript_escape_of_backslashes :
    let s : Text := [' ', '\\', '\\', '\'', '\\', '\r', '\n', 'n']
    let order : List (Char × Text) := [('\\', ['\\', '\\']), ('\r', ['\\', 'r']),
      ('\n', ['\\', 'n']), ('\'', ['\\', '\''])]
    readString? (Dialect.javascript.escape (s.trimmed true) ++ ['\'', '\'', ';']) =
        some (s.strip, ['\'', ';']) ∧
      order.Perm Dialect.javascript.replacements ∧
      ∀ t, Text.replaceInTurn order t = Dialect.javascript.escape t := by
  intro s order
  have horder : order.Perm Dialect.javascript.replacements := by decide
  exact ⟨readString?_javascript_escape.1 s ['\'', ';'] true, horder,
    (readString?_javascript_escape.2.2.2 order horder).mpr rfl⟩

end JavaScript

/-! ### PHP -/

namespace Php

/-- A literal from behind its opening quote on: the text that it stands for, and what follows its
closing quote. A backslash in front of a backslash or a quote stands for that character, any other
backslash for itself. -/
def readString? : Text → Option (Text × Text)
  | [] => none
  | '\\' :: '\\' :: t => (readString? t).map fun (s, rest) => ('\\' :: s, rest)
  | '\\' :: '\'' :: t => (readString? t).map fun (s, rest) => ('\'' :: s, rest)
  | '\'' :: t => some ([], t)
  | c :: t => (readString? t).map fun (s, rest) => (c :: s, rest)

theorem readString?_plain {c : Char} (hs : c ≠ '\\') (hq : c ≠ '\'') (t : Text) :
    readString? (c :: t) = (readString? t).map fun (s, rest) => (c :: s, rest) := by
  rw [readString?]
  · rintro _ rfl
    exact absurd rfl hs
  · rintro _ rfl
    exact absurd rfl hs
  · exact hq

/-- A backslash that escapes nothing is itself. -/
theorem readString?_backslash {c : Char} (hs : c ≠ '\\') (hq : c ≠ '\'') (t : Text) :
    readString? ('\\' :: c :: t) =
      (readString? (c :: t)).map fun (s, rest) => ('\\' :: s, rest) := by
  rw [readString?]
  · rintro _ - heq
    exact hs (List.cons.inj heq).1
  · rintro _ - heq
    exact hq (List.cons.inj heq).1
  · decide

/-- The reader of the dialect reads by the rule of the language. -/
theorem readLiteral?_eq_readString? (t : Text) : Dialect.php.readLiteral? t = readString? t := by
  fun_induction Dialect.readLiteral? Dialect.php t with
  | case1 => rfl
  | case2 => rfl
  | case3 c t hb => cases hb
  | case4 c t hb ih =>
    rw [ih]
    by_cases hs : c = '\\'
    · subst hs
      rfl
    by_cases hq : c = '\''
    · subst hq
      rfl
    have hmeaning : Dialect.php.meaning? c = some ['\\', c] := by
      rw [Dialect.meaning?]
      · exact hs
      · exact hq
    rw [hmeaning, readString?_backslash hs hq, readString?_plain hs hq, Option.map_map]
    rfl
  | case5 t => rfl
  | case6 c t hslash hslash' hq hb => cases hb
  | case7 c t hslash hslash' hq hb ih =>
    rw [ih, readString?_plain (ne_backslash hslash hslash') hq]

/-- An escaped text in front of a quote is a literal that stands for the text and ends at that
quote, whatever follows; so different texts are escaped differently. Escaping is what two
replacements in the whole text come to, the backslash first. -/
theorem readString?_php_escape :
    (∀ (s w : Text) (trim : Bool),
      readString? (Dialect.php.escape (s.trimmed trim) ++ '\'' :: w) =
        some (if trim then s.strip else s, w)) ∧
    Function.Injective (fun s : Text => Dialect.php.escape (s.trimmed false)) ∧
    ∀ s, Text.replaceInTurn Dialect.php.replacements s = Dialect.php.escape s := by
  refine ⟨fun s w trim => ?_, Dialect.escape_injective .php, ?_⟩
  · rw [← readLiteral?_eq_readString?]
    exact Dialect.readLiteral?_escape .php (s.trimmed trim) w
  · exact (Dialect.replaceInTurn_eq_escape_iff (.refl _)).mpr rfl

end Php
end HttpSnippet

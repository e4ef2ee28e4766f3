import HttpSnippet.Proofs.Source.Token

/-!
# What literals stand for

The inside of a literal is decoded by the rules of its language. Escaping is undone exactly, so
different texts have different literals.
-/
namespace HttpSnippet.Dialect

/-- Characters behind a backslash that continue a line in JavaScript. -/
def endsLine (c : Char) : Bool := c = '\n' || c = '\r' || c = '\u2028' || c = '\u2029'

/-- What a backslash and a character stand for. JavaScript's numbered escapes and its line
continuations are not read here. PHP knows two escapes, and any other backslash is itself. -/
def meaning? : Dialect → Char → Option Text
  | .javascript, 'b' => some ['\x08']
  | .javascript, 't' => some ['\t']
  | .javascript, 'n' => some ['\n']
  | .javascript, 'v' => some ['\x0b']
  | .javascript, 'f' => some ['\x0c']
  | .javascript, 'r' => some ['\r']
  | .javascript, c => if c.isDigit || c = 'x' || c = 'u' || endsLine c then none else some [c]
  | .php, '\\' => some ['\\']
  | .php, '\'' => some ['\'']
  | .php, c => some ['\\', c]

/-- The text that the inside of a literal stands for. -/
def decode? (d : Dialect) : Text → Option Text
  | [] => some []
  | '\\' :: c :: t => (d.meaning? c).bind fun m => (d.decode? t).map (m ++ ·)
  | ['\\'] => none
  | c :: t => (d.decode? t).map (c :: ·)

variable {d : Dialect}

theorem decode?_pair {b c : Char} (hc : d.meaning? c = some [b]) (t : Text) :
    d.decode? (['\\', c] ++ t) = (d.decode? t).map (b :: ·) := by
  rw [List.cons_append, List.cons_append, List.nil_append, decode?, hc, Option.bind_some]
  rfl

theorem decode?_plain {c : Char} (hc : c ≠ '\\') (t : Text) :
    d.decode? (c :: t) = (d.decode? t).map (c :: ·) := by
  rw [decode?]
  · rintro _ _ rfl
    exact absurd rfl hc
  · rintro rfl
    exact absurd rfl hc

/-- A character is read back as itself, whatever follows it. -/
theorem decode?_escapeChar (d : Dialect) (c : Char) (t : Text) :
    d.decode? (d.escapeChar c ++ t) = (d.decode? t).map (c :: ·) := by
  unfold escapeChar
  split
  · exact decode?_pair (by cases d <;> rfl) t
  · exact decode?_pair (by cases d <;> rfl) t
  · exact decode?_pair rfl t
  · exact decode?_pair rfl t
  · next hs _ _ _ => exact decode?_plain hs t

theorem decode?_escape (d : Dialect) (t : Text) : d.decode? (d.escape t) = some t := by
  induction t with
  | nil => rfl
  | cons c t ih =>
    rw [escape, List.flatMap_cons, decode?_escapeChar, ← escape, ih]
    rfl

/-! ### Literals in front of other text -/

/-- A literal from behind its opening quote on: the text that it stands for, and what follows its
closing quote. A barred character breaks it. -/
def readLiteral? (d : Dialect) : Text → Option (Text × Text)
  | [] => none
  | ['\\'] => none
  | '\\' :: c :: t =>
    if d.bars c then none
    else (d.meaning? c).bind fun m => (d.readLiteral? t).map fun (s, rest) => (m ++ s, rest)
  | '\'' :: t => some ([], t)
  | c :: t => if d.bars c then none else (d.readLiteral? t).map fun (s, rest) => (c :: s, rest)

/-- The outcome of reading a literal with one more character in front. -/
def consLiteral (c : Char) (outcome : Option (Text × Text)) : Option (Text × Text) :=
  outcome.map fun (s, rest) => (c :: s, rest)

theorem readLiteral?_pair {b c : Char} (hb : d.bars c = false) (hc : d.meaning? c = some [b])
    (t : Text) : d.readLiteral? (['\\', c] ++ t) = consLiteral b (d.readLiteral? t) := by
  rw [List.cons_append, List.cons_append, List.nil_append, readLiteral?, hb, hc, if_neg (by simp)]
  rfl

theorem readLiteral?_plain {c : Char} (hb : d.bars c = false) (hs : c ≠ '\\') (hq : c ≠ '\'')
    (t : Text) : d.readLiteral? (c :: t) = consLiteral c (d.readLiteral? t) := by
  rw [readLiteral?]
  · rw [hb, if_neg (by simp)]
    rfl
  · exact fun h _ => hs h
  · exact fun _ _ h _ => hs h
  · exact hq

/-- A character is read back as itself, whatever follows it. -/
theorem readLiteral?_escapeChar (d : Dialect) (c : Char) (t : Text) :
    d.readLiteral? (d.escapeChar c ++ t) = consLiteral c (d.readLiteral? t) := by
  unfold escapeChar
  split
  · exact readLiteral?_pair (bars_backslash d) (by cases d <;> rfl) t
  · exact readLiteral?_pair (bars_quote d) (by cases d <;> rfl) t
  · exact readLiteral?_pair rfl rfl t
  · exact readLiteral?_pair rfl rfl t
  · next hs hq hn hr =>
    refine readLiteral?_plain ?_ hs hq t
    cases d with
    | javascript =>
      simp only [bars, Bool.or_eq_false_iff, decide_eq_false_iff_not]
      exact ⟨hn rfl, hr rfl⟩
    | php => rfl

/-- A literal ends at its own closing quote, and stands for the text that was escaped. -/
theorem readLiteral?_escape (d : Dialect) (t rest : Text) :
    d.readLiteral? (d.escape t ++ '\'' :: rest) = some (t, rest) := by
  induction t with
  | nil => rfl
  | cons c t ih =>
    rw [escape, List.flatMap_cons, List.append_assoc, readLiteral?_escapeChar, ← escape, ih]
    rfl

theorem escape_injective (d : Dialect) : Function.Injective d.escape := by
  intro s t h
  have hdecode := congrArg d.decode? h
  rw [decode?_escape, decode?_escape] at hdecode
  exact Option.some.inj hdecode

end HttpSnippet.Dialect

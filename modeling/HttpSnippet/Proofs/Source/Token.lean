import HttpSnippet.Snippet.Literal

/-!
# Tokens of a program text

The scanner below knows nothing of a program but where its literals begin and end, by the rules of
the language it is written in. What a literal stands for is left to a reader of its inside. The
lemmas say which texts stand in a literal without ending it; they do not depend on the programs
that are written here.
-/
namespace HttpSnippet

namespace Text

/-! ### Texts of numbers -/

theorem ofNat_subset (n : Nat) : ofNat n ⊆ "0123456789" := by
  have hcodes : ∀ n < 58, 48 ≤ n → Char.ofNat n ∈ ("0123456789" : Text) := by decide
  intro c hc
  have hdigit : c.isDigit = true := Nat.isDigit_of_mem_toDigits (by decide) (by decide) hc
  obtain ⟨hlow, hhigh⟩ := Char.isDigit_iff_toNat.mp hdigit
  have hcode := hcodes c.toNat (Nat.lt_succ_of_le hhigh) hlow
  rwa [Char.ofNat_toNat] at hcode

theorem ofInt_subset (n : Int) : ofInt n ⊆ "-0123456789" := by
  have hnat (n : Nat) : ofNat n ⊆ "-0123456789" :=
    fun c hc => List.mem_cons_of_mem '-' (ofNat_subset n hc)
  cases n with
  | ofNat n => exact hnat n
  | negSucc n => exact List.cons_subset.mpr ⟨List.mem_cons_self, hnat (n + 1)⟩

end Text

/-- A character of code, or a literal: its quote, and what stands between its quotes as written. -/
inductive Token where
  | code (c : Char)
  | literal (quote : Char) (inside : Text)
deriving DecidableEq, Repr

/-- The token with nothing left of a literal but its two quotes. -/
def Token.bare : Token → Text
  | .code c => [c]
  | .literal q _ => [q, q]

namespace Dialect

/-- Where a scanner stands. Inside a literal it knows the quote that ends it and what it has read
behind that quote. -/
inductive State where
  | code
  | inside (quote : Char) (before : Text)
  | escaped (quote : Char) (before : Text)

/-- The quotes that open a literal. -/
def opens : Dialect → Char → Bool
  | .javascript, c => c = '\'' || c = '"'
  | .php, c => c = '\''

/-- The characters that a literal may not hold as they are, not even behind a backslash. -/
def bars : Dialect → Char → Bool
  | .javascript, c => c = '\n' || c = '\r'
  | .php, _ => false

/-- The tokens of a text; `none` if a literal is broken by a barred character or not closed. -/
def scan (d : Dialect) : State → Text → Option (List Token)
  | .code, [] => some []
  | .inside _ _, [] => none
  | .escaped _ _, [] => none
  | .code, c :: t =>
    if d.opens c then d.scan (.inside c []) t else (d.scan .code t).map (.code c :: ·)
  | .inside q s, c :: t =>
    if d.bars c then none
    else if c = '\\' then d.scan (.escaped q (s ++ [c])) t
    else if c = q then (d.scan .code t).map (.literal q s :: ·)
    else d.scan (.inside q (s ++ [c])) t
  -- where PHP knows no escape the backslash stands for itself, and what follows is no quote
  | .escaped q s, c :: t => if d.bars c then none else d.scan (.inside q (s ++ [c])) t

def tokens? (d : Dialect) (t : Text) : Option (List Token) := d.scan .code t

/-- The text outside of the literals, with the quotes of each literal left in place. -/
def outside? (d : Dialect) (t : Text) : Option Text := (d.tokens? t).map (·.flatMap Token.bare)

/-- Code opens no literal. -/
def Unquoted (d : Dialect) (t : Text) : Prop := ∀ c ∈ t, d.opens c = false

/-- Whatever stands in front of it and behind it, the text neither ends the literal it stands in
nor leaves an escape open. -/
def Keeps (d : Dialect) (q : Char) (t : Text) : Prop :=
  ∀ before rest, d.scan (.inside q before) (t ++ rest) = d.scan (.inside q (before ++ t)) rest

variable {d : Dialect} {q : Char}

@[simp] theorem opens_javascript (c : Char) :
    Dialect.javascript.opens c = (decide (c = '\'') || decide (c = '"')) := rfl

@[simp] theorem opens_php (c : Char) : Dialect.php.opens c = decide (c = '\'') := rfl

@[simp] theorem unquoted_nil : d.Unquoted [] := by simp [Unquoted]

@[simp] theorem unquoted_cons {c : Char} {t : Text} :
    d.Unquoted (c :: t) ↔ d.opens c = false ∧ d.Unquoted t := by simp [Unquoted]

@[simp] theorem unquoted_append {s t : Text} :
    d.Unquoted (s ++ t) ↔ d.Unquoted s ∧ d.Unquoted t := by
  simp only [Unquoted, List.mem_append]
  exact ⟨fun h => ⟨fun c hc => h c (.inl hc), fun c hc => h c (.inr hc)⟩,
    fun h c hc => hc.elim (h.1 c) (h.2 c)⟩

-- characters are finitely many, so the quantifier is decided over the text and not over its type
instance (d : Dialect) (t : Text) : Decidable (d.Unquoted t) :=
  decidable_of_iff (t.all (!d.opens ·) = true) (by simp [Unquoted])

theorem opens_of_isDigit {c : Char} (hc : c.isDigit = true) : d.opens c = false := by
  have hs : c ≠ '\'' := by rintro rfl; exact absurd hc (by decide)
  have hq : c ≠ '"' := by rintro rfl; exact absurd hc (by decide)
  cases d <;> simp [opens, hs, hq]

theorem unquoted_ofNat (n : Nat) : d.Unquoted (Text.ofNat n) := by
  intro c hc
  exact opens_of_isDigit (Nat.isDigit_of_mem_toDigits (by decide) (by decide) hc)

theorem unquoted_ofInt (n : Int) : d.Unquoted (Text.ofInt n) := by
  cases n with
  | ofNat n => exact unquoted_ofNat n
  | negSucc n => exact unquoted_cons.mpr ⟨by cases d <;> rfl, unquoted_ofNat (n + 1)⟩

theorem unquoted_replicate {c : Char} (hc : d.opens c = false) (n : Nat) :
    d.Unquoted (List.replicate n c) := by
  intro b hb
  rw [List.eq_of_mem_replicate hb]
  exact hc

/-- Code is scanned character by character. -/
theorem scan_code {t : Text} (ht : d.Unquoted t) (rest : Text) :
    d.scan .code (t ++ rest) = (d.scan .code rest).map (t.map .code ++ ·) := by
  induction t with
  | nil => simp
  | cons c t ih =>
    obtain ⟨hc, ht⟩ := unquoted_cons.mp ht
    rw [List.cons_append, scan, hc, ih ht, Option.map_map]
    rfl

theorem keeps_nil : d.Keeps q [] := by
  intro before rest
  rw [List.nil_append, List.append_nil]

theorem Keeps.append {s t : Text} (hs : d.Keeps q s) (ht : d.Keeps q t) : d.Keeps q (s ++ t) := by
  intro before rest
  rw [List.append_assoc, hs, ht, List.append_assoc]

theorem Keeps.flatMap {f : Char → Text} (hf : ∀ c, d.Keeps q (f c)) (t : Text) :
    d.Keeps q (t.flatMap f) := by
  induction t with
  | nil => exact keeps_nil
  | cons c t ih => exact (hf c).append ih

/-- A character that is no backslash, no closing quote and not barred stands for itself. -/
theorem keeps_singleton {c : Char} (hb : d.bars c = false) (hs : c ≠ '\\') (hq : c ≠ q) :
    d.Keeps q [c] := by
  intro before rest
  simp [scan, hb, hs, hq]

/-- A backslash takes the character behind it along, also a quote. -/
theorem keeps_escape {c : Char} (hs : d.bars '\\' = false) (hb : d.bars c = false) :
    d.Keeps q ['\\', c] := by
  intro before rest
  simp [scan, hs, hb]

theorem keeps_of_forall {t : Text} (h : ∀ c ∈ t, d.bars c = false ∧ c ≠ '\\' ∧ c ≠ q) :
    d.Keeps q t := by
  induction t with
  | nil => exact keeps_nil
  | cons c t ih =>
    obtain ⟨hb, hs, hq⟩ := h c List.mem_cons_self
    exact (keeps_singleton hb hs hq).append (ih fun a ha => h a (List.mem_cons_of_mem c ha))

/-- A literal is scanned as one token, whatever follows its closing quote. -/
theorem scan_literal {t : Text} (ho : d.opens q = true) (hb : d.bars q = false) (hs : q ≠ '\\')
    (ht : d.Keeps q t) (rest : Text) :
    d.scan .code (q :: t ++ q :: rest) = (d.scan .code rest).map (.literal q t :: ·) := by
  rw [List.cons_append, scan, if_pos ho, ht, List.nil_append, scan, hb]
  simp [hs]

@[simp] theorem bars_backslash (d : Dialect) : d.bars '\\' = false := by cases d <;> rfl

@[simp] theorem bars_quote (d : Dialect) : d.bars '\'' = false := by cases d <;> rfl

theorem opens_quote (d : Dialect) : d.opens '\'' = true := by cases d <;> rfl

theorem keeps_escapeChar (d : Dialect) (c : Char) : d.Keeps '\'' (d.escapeChar c) := by
  unfold escapeChar
  split
  · exact keeps_escape (bars_backslash d) (bars_backslash d)
  · exact keeps_escape (bars_backslash d) (bars_quote d)
  · exact keeps_escape rfl rfl
  · exact keeps_escape rfl rfl
  · next hs hq hn hr =>
    refine keeps_singleton ?_ hs hq
    cases d with
    | javascript =>
      simp only [bars, Bool.or_eq_false_iff, decide_eq_false_iff_not]
      exact ⟨hn rfl, hr rfl⟩
    | php => rfl

/-- Escaping keeps a whole text inside of its literal. -/
theorem keeps_escaped (d : Dialect) (t : Text) : d.Keeps '\'' (d.escape t) :=
  Keeps.flatMap (keeps_escapeChar d) t

end Dialect

namespace Json

open Dialect

theorem digitChar_plain : ∀ n < 16, Dialect.javascript.bars (Nat.digitChar n) = false ∧
    Nat.digitChar n ≠ '\\' ∧ Nat.digitChar n ≠ '"' := by decide

theorem hex_plain (width n : Nat) : ∀ c ∈ Text.hex width n,
    Dialect.javascript.bars c = false ∧ c ≠ '\\' ∧ c ≠ '"' := by
  induction width generalizing n with
  | zero => simp [Text.hex]
  | succ width ih =>
    intro c hc
    rcases List.mem_append.mp hc with h | h
    · exact ih _ c h
    · obtain rfl := List.mem_singleton.mp h
      exact digitChar_plain _ (Nat.mod_lt n (by decide))

theorem keeps_escapeUnit (n : Nat) : Dialect.javascript.Keeps '"' (escapeUnit n) :=
  (keeps_escape (c := 'u') rfl rfl).append (keeps_of_forall (hex_plain 4 n))

/-- A character of a JSON string stands in a JavaScript literal with double quotes. -/
theorem keeps_escapeChar (ascii : Bool) (c : Char) :
    Dialect.javascript.Keeps '"' (escapeChar ascii c) := by
  have hplain (hq : ¬(c = '"' ∨ c = '\\')) (hn : c ≠ '\n') (hr : c ≠ '\r') :
      Dialect.javascript.Keeps '"' [c] :=
    keeps_singleton (by simp [bars, hn, hr]) (fun h => hq (.inr h)) (fun h => hq (.inl h))
  simp only [escapeChar, Bool.or_eq_true, decide_eq_true_eq]
  split
  · next h => exact keeps_escape rfl (by rcases h with rfl | rfl <;> rfl)
  split
  · exact keeps_escape rfl rfl
  split
  · exact keeps_escape rfl rfl
  split
  · exact keeps_escape rfl rfl
  split
  · exact keeps_escape rfl rfl
  split
  · exact keeps_escape rfl rfl
  split
  · exact keeps_escapeUnit _
  split
  · exact hplain ‹_› ‹_› ‹_›
  split
  · exact keeps_escapeUnit _
  · exact (keeps_escapeUnit _).append (keeps_escapeUnit _)

/-- The inside of a JSON string, as it is written. -/
def inside (ascii : Bool) (t : Text) : Text := t.flatMap (escapeChar ascii)

theorem keeps_inside (ascii : Bool) (t : Text) :
    Dialect.javascript.Keeps '"' (inside ascii t) :=
  Keeps.flatMap (keeps_escapeChar ascii) t

end Json
end HttpSnippet

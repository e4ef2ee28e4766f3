import HttpSnippet.Proofs.Source.Fragment
import HttpSnippet.Proofs.Source.Literal

/-!
# Reading programs back

A reader sees a program as symbols: the marks of its code without white space, and the texts that
its literals stand for. Objects and lists are read from symbols, so a reader depends neither on the
indentation nor on how a literal is escaped.
-/
namespace HttpSnippet

/-- A character of code that is not white space, or the text of a literal. -/
inductive Symbol where
  | mark (c : Char)
  | text (t : Text)
deriving DecidableEq, Repr

/-- White space between the tokens of a program. -/
def isSpacing (c : Char) : Bool := c = ' ' || c = '\t' || c = '\n' || c = '\r'

def marks (t : Text) : List Symbol := (t.filter (!isSpacing ·)).map .mark

/-- The symbols of some tokens; `none` if a literal cannot be decoded. -/
def Dialect.symbols? (d : Dialect) : List Token → Option (List Symbol)
  | [] => some []
  | .code c :: ts => (d.symbols? ts).map (marks [c] ++ ·)
  | .literal _ s :: ts => (d.decode? s).bind fun t => (d.symbols? ts).map (.text t :: ·)

/-- What follows some code at the beginning of tokens. -/
def behind? (code : Text) (ts : List Token) : Option (List Token) :=
  if (codeTokens code).isPrefixOf ts then some (ts.drop code.length) else none

/-! ### Readers -/

/-- What a reader of an object expects next. -/
inductive Expected where
  /-- The first name, or the end of an object without entries. -/
  | start
  | name
  | colon (name : Text)
  | value (name : Text)
  /-- An item of an array, behind those that were read. -/
  | item (name : Text) (items : List Text)
  | afterItem (name : Text) (items : List Text)
  | afterEntry

/-- The names of an object with their values, one or an array of them, in the order of the
source. The object ends with the symbols `ending`. -/
def readEntries (ending : List Symbol) : Expected → List Symbol → Option (List (Text × List Text))
  | .start, .text k :: s => readEntries ending (.colon k) s
  | .start, s => if s = ending then some [] else none
  | .name, .text k :: s => readEntries ending (.colon k) s
  | .colon k, .mark ':' :: s => readEntries ending (.value k) s
  | .value k, .text v :: s => (readEntries ending .afterEntry s).map ((k, [v]) :: ·)
  | .value k, .mark '[' :: s => readEntries ending (.item k []) s
  | .item k vs, .text v :: s => readEntries ending (.afterItem k (vs ++ [v])) s
  | .afterItem k vs, .mark ',' :: s => readEntries ending (.item k vs) s
  | .afterItem k vs, .mark ']' :: s => (readEntries ending .afterEntry s).map ((k, vs) :: ·)
  | .afterEntry, .mark ',' :: s => readEntries ending .name s
  | .afterEntry, s => if s = ending then some [] else none
  | _, _ => none

/-- A list of pairs in brackets. -/
def readPairs (ending : List Symbol) : List Symbol → Option (List (Text × Text))
  | .mark '[' :: .text k :: .mark ',' :: .text v :: .mark ']' :: .mark ',' :: s =>
    (readPairs ending s).map ((k, v) :: ·)
  | .mark '[' :: .text k :: .mark ',' :: .text v :: .mark ']' :: s =>
    if s = ending then some [(k, v)] else none
  | _ => none

/-- Keys with an arrow to their values. -/
def readArrows (ending : List Symbol) : List Symbol → Option (List (Text × Text))
  | .text k :: .mark '=' :: .mark '>' :: .text v :: .mark ',' :: s =>
    (readArrows ending s).map ((k, v) :: ·)
  | .text k :: .mark '=' :: .mark '>' :: .text v :: s =>
    if s = ending then some [(k, v)] else none
  | _ => none

/-! ### Symbols of fragments -/

theorem marks_append (s t : Text) : marks (s ++ t) = marks s ++ marks t := by
  simp [marks]

theorem marks_of_spacing {t : Text} (ht : ∀ c ∈ t, isSpacing c = true) : marks t = [] := by
  simpa [marks] using ht

variable {d : Dialect} {indent : Text}

theorem isSpacing_of_mem_repeated (hi : ∀ c ∈ indent, isSpacing c = true) (level : Nat) :
    ∀ c ∈ Text.repeated level indent, isSpacing c = true := by
  intro c hc
  obtain ⟨l, hl, hc⟩ := List.mem_flatten.mp hc
  rw [List.eq_of_mem_replicate hl] at hc
  exact hi c hc

theorem Dialect.symbols?_append (ts us : List Token) :
    d.symbols? (ts ++ us) =
      (d.symbols? ts).bind fun s => (d.symbols? us).map (s ++ ·) := by
  induction ts with
  | nil => simp [symbols?]
  | cons t ts ih =>
    cases t with
    | code c =>
      rw [List.cons_append, symbols?, symbols?, ih]
      cases d.symbols? ts <;> cases d.symbols? us <;> simp
    | literal q s =>
      rw [List.cons_append, symbols?, symbols?, ih]
      cases d.decode? s <;> cases d.symbols? ts <;> cases d.symbols? us <;> simp

theorem Dialect.symbols?_codeTokens (t : Text) : d.symbols? (codeTokens t) = some (marks t) := by
  induction t with
  | nil => rfl
  | cons c t ih =>
    have hc : marks (c :: t) = marks [c] ++ marks t := marks_append [c] t
    rw [codeTokens, List.map_cons, symbols?, ← codeTokens, ih, hc]
    rfl

theorem behind?_append (code : Text) (ts : List Token) :
    behind? code (codeTokens code ++ ts) = some ts := by
  have hlength : (codeTokens code).length = code.length := List.length_map _
  rw [behind?, if_pos (by simp [List.isPrefixOf_iff_prefix]), ← hlength, List.drop_left]

namespace Piece

/-- What a reader finds in a piece whose literal is a single-quoted one. -/
def symbols : Piece → List Symbol
  | .code t => marks t
  | .newline _ => []
  | .literal _ t | .string _ t | .verbatim t => [.text t]

/-- Code without quotes, a line break, or a literal that is escaped for the dialect. -/
def Plain (d : Dialect) : Piece → Prop
  | .code t => d.Unquoted t
  | .newline _ => True
  | .literal e _ => e = d
  | .string _ _ | .verbatim _ => False

@[simp] theorem plain_code {t : Text} : Plain d (.code t) ↔ d.Unquoted t := Iff.rfl

@[simp] theorem plain_newline {level : Nat} : Plain d (.newline level) := trivial

@[simp] theorem plain_literal {e : Dialect} {t : Text} : Plain d (.literal e t) ↔ e = d := Iff.rfl

theorem Plain.fits {p : Piece} (h : p.Plain d) : p.Fits d := by
  cases p with
  | code t => exact h
  | newline level => trivial
  | literal e t => exact h
  | string ascii t => exact h.elim
  | verbatim t => exact h.elim

theorem symbols?_tokens (hi : ∀ c ∈ indent, isSpacing c = true) {p : Piece} (h : p.Plain d) :
    d.symbols? (p.tokens indent) = some p.symbols := by
  cases p with
  | code t => exact Dialect.symbols?_codeTokens t
  | newline level =>
    have hspacing : ∀ c ∈ '\n' :: Text.repeated level indent, isSpacing c = true := by
      intro c hc
      rcases List.mem_cons.mp hc with rfl | hc
      · rfl
      · exact isSpacing_of_mem_repeated hi level c hc
    rw [tokens, Dialect.symbols?_codeTokens, marks_of_spacing hspacing]
    rfl
  | literal e t =>
    obtain rfl : e = d := h
    simp [tokens, symbols, Dialect.symbols?, Dialect.decode?_escape]
  | string ascii t => exact h.elim
  | verbatim t => exact h.elim

end Piece

theorem unquoted_of_spacing (hi : ∀ c ∈ indent, isSpacing c = true) : d.Unquoted indent := by
  intro c hc
  have hs := hi c hc
  simp only [isSpacing, Bool.or_eq_true, decide_eq_true_eq] at hs
  rcases hs with ((rfl | rfl) | rfl) | rfl <;> cases d <;> rfl

namespace Fragment

def symbols (f : Fragment) : List Symbol := f.flatMap Piece.symbols

/-- Every piece is plain. -/
def Plain (d : Dialect) (f : Fragment) : Prop := ∀ p ∈ f, Piece.Plain d p

@[simp] theorem plain_nil : Plain d [] := by simp [Plain]

@[simp] theorem plain_cons {p : Piece} {f : Fragment} :
    Plain d (p :: f) ↔ p.Plain d ∧ Plain d f := by simp [Plain]

@[simp] theorem plain_append {f g : Fragment} : Plain d (f ++ g) ↔ Plain d f ∧ Plain d g := by
  simp only [Plain, List.mem_append]
  exact ⟨fun h => ⟨fun p hp => h p (.inl hp), fun p hp => h p (.inr hp)⟩,
    fun h p hp => hp.elim (h.1 p) (h.2 p)⟩

@[simp] theorem symbols_nil : symbols [] = [] := rfl

@[simp] theorem symbols_cons (p : Piece) (f : Fragment) :
    symbols (p :: f) = p.symbols ++ symbols f := rfl

@[simp] theorem symbols_append (f g : Fragment) : symbols (f ++ g) = symbols f ++ symbols g :=
  List.flatMap_append

theorem Plain.fits {f : Fragment} (h : f.Plain d) : f.Fits d := fun p hp => (h p hp).fits

/-- The symbols of a plain fragment are found again in its tokens. -/
theorem symbols?_tokens (hi : ∀ c ∈ indent, isSpacing c = true) {f : Fragment} (h : f.Plain d) :
    d.symbols? (tokens indent f) = some f.symbols := by
  induction f with
  | nil => rfl
  | cons p f ih =>
    obtain ⟨hp, hf⟩ := plain_cons.mp h
    rw [tokens_cons, Dialect.symbols?_append, Piece.symbols?_tokens hi hp, ih hf]
    rfl

theorem plain_join {sep : Fragment} (hs : Plain d sep) {fs : List Fragment}
    (hf : ∀ f ∈ fs, Plain d f) : Plain d (join sep fs) := forall_mem_join hs hf

@[simp] theorem symbols_join (sep : Fragment) (fs : List Fragment) :
    symbols (join sep fs) = (symbols sep).intercalate (fs.map symbols) := by
  induction fs with
  | nil => rfl
  | cons f fs ih =>
    cases fs with
    | nil => simp [join]
    | cons g gs =>
      rw [join_cons_cons, symbols_append, symbols_append, ih, List.map_cons, List.map_cons,
        List.map_cons, List.intercalate_cons_cons]

theorem plain_commaLines (level : Nat) {fs : List Fragment} (hf : ∀ f ∈ fs, Plain d f) :
    Plain d (commaLines level fs) := by
  refine plain_join ?_ hf
  cases d <;> simp

/-- Fragments on lines of their own keep their symbols, with commas between them. -/
@[simp] theorem symbols_commaLines (level : Nat) (fs : List Fragment) :
    symbols (commaLines level fs) = [Symbol.mark ','].intercalate (fs.map symbols) :=
  symbols_join _ fs

end Fragment

namespace Program

/-- What a reader finds in the lines of a program. -/
def symbols (p : Program) : List Symbol := p.flatMap fun l => l.content.symbols

@[simp] theorem symbols_append (p q : Program) : (p ++ q).symbols = p.symbols ++ q.symbols :=
  List.flatMap_append

theorem plain_flat (hi : ∀ c ∈ indent, isSpacing c = true) {p : Program}
    (hp : ∀ l ∈ p, Fragment.Plain d l.content) : Fragment.Plain d (p.flat indent) := by
  have hbreak : d.Unquoted ['\n'] := by cases d <;> decide
  induction p with
  | nil => exact Fragment.plain_nil
  | cons l p ih =>
    obtain ⟨hl, hrest⟩ := List.forall_mem_cons.mp hp
    rw [Program.flat, List.flatMap_cons, ← Program.flat]
    simp only [List.cons_append, Fragment.plain_cons, Fragment.plain_append, Fragment.plain_nil,
      Piece.plain_code]
    exact ⟨unquoted_repeated (unquoted_of_spacing hi) _, ⟨hl, hbreak, trivial⟩, ih hrest⟩

/-- Indentations and line breaks leave no symbols. -/
theorem symbols_flat (hi : ∀ c ∈ indent, isSpacing c = true) (p : Program) :
    (p.flat indent).symbols = p.symbols := by
  have hlevel (level : Nat) : marks (Text.repeated level indent) = [] :=
    marks_of_spacing (isSpacing_of_mem_repeated hi level)
  induction p with
  | nil => rfl
  | cons l p ih =>
    rw [Program.flat, List.flatMap_cons, ← Program.flat, Fragment.symbols_append, ih, symbols,
      symbols, List.flatMap_cons, List.cons_append, Fragment.symbols_cons,
      Fragment.symbols_append, Piece.symbols, hlevel]
    have hbreak : Fragment.symbols [.code ['\n']] = [] := rfl
    rw [hbreak, List.nil_append, List.append_nil]

end Program
end HttpSnippet

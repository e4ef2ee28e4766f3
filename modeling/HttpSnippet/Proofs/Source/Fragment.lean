import HttpSnippet.Options.Basic
import HttpSnippet.Proofs.Source.Token
import HttpSnippet.Snippet.Program

/-!
# Tokens of programs

A program is built from pieces, and its text is scanned as one. If every piece fits the dialect,
the scanner finds the pieces again: each literal is one token and the code around it stays code,
however the program is indented. Taking the texts out of the literals then gives the same as
scanning a program that had none.
-/
namespace HttpSnippet

/-- The characters of some code as tokens. -/
def codeTokens (t : Text) : List Token := t.map .code

@[simp] theorem bare_codeTokens (t : Text) : (codeTokens t).flatMap Token.bare = t := by
  induction t with
  | nil => rfl
  | cons c t ih => exact congrArg (c :: ·) ih

namespace Piece

/-- What a scanner finds in a piece. -/
def tokens (indent : Text) : Piece → List Token
  | .code t => codeTokens t
  | .newline level => codeTokens ('\n' :: Text.repeated level indent)
  | .literal d t => [.literal '\'' (d.escape t)]
  | .string ascii t => [.literal '"' (Json.inside ascii t)]
  | .verbatim t => [.literal '\'' t]

/-- A literal without its text; anything else stays. -/
def hollow : Piece → Piece
  | .literal d _ => .literal d []
  | .string ascii _ => .string ascii []
  | .verbatim _ => .verbatim []
  | p => p

/-- Code opens no literal, a literal is one of the dialect, and one that is written as it is ends
at its own closing quote. -/
def Fits (d : Dialect) : Piece → Prop
  | .code t => d.Unquoted t
  | .newline _ => True
  | .literal e _ => e = d
  | .string _ _ => d = .javascript
  | .verbatim t => d.Keeps '\'' t

@[simp] theorem hollow_hollow (p : Piece) : p.hollow.hollow = p.hollow := by cases p <;> rfl

@[simp] theorem fits_code {d : Dialect} {t : Text} : Fits d (.code t) ↔ d.Unquoted t := Iff.rfl

@[simp] theorem fits_newline {d : Dialect} {level : Nat} : Fits d (.newline level) := trivial

@[simp] theorem fits_literal {d e : Dialect} {t : Text} : Fits d (.literal e t) ↔ e = d := Iff.rfl

@[simp] theorem fits_string {d : Dialect} {ascii : Bool} {t : Text} :
    Fits d (.string ascii t) ↔ d = .javascript := Iff.rfl

theorem bare_tokens (indent : Text) (p : Piece) :
    (p.tokens indent).flatMap Token.bare = p.hollow.render indent := by
  cases p with
  | code t => exact bare_codeTokens t
  | newline level => exact bare_codeTokens _
  | literal e t => rfl
  | string ascii t => rfl
  | verbatim t => rfl

end Piece

variable {d : Dialect} {indent : Text}

theorem unquoted_repeated (hi : d.Unquoted indent) (level : Nat) :
    d.Unquoted (Text.repeated level indent) := by
  intro c hc
  obtain ⟨l, hl, hc⟩ := List.mem_flatten.mp hc
  rw [List.eq_of_mem_replicate hl] at hc
  exact hi c hc

theorem unquoted_indent (d : Dialect) (o : Options) : d.Unquoted o.indent := by
  refine Dialect.unquoted_replicate ?_ o.indentCount
  cases o.indentKind <;> cases d <;> rfl

theorem opens_newline (d : Dialect) : d.opens '\n' = false := by cases d <;> rfl

theorem Piece.scan_render (hi : d.Unquoted indent) {p : Piece} (hp : p.Fits d) (rest : Text) :
    d.scan .code (p.render indent ++ rest) = (d.scan .code rest).map (p.tokens indent ++ ·) := by
  cases p with
  | code t => exact Dialect.scan_code hp rest
  | newline level =>
    have hn : d.Unquoted ('\n' :: Text.repeated level indent) :=
      Dialect.unquoted_cons.mpr ⟨opens_newline d, unquoted_repeated hi level⟩
    exact Dialect.scan_code hn rest
  | literal e t =>
    have he : e = d := hp
    subst he
    have h := Dialect.scan_literal (Dialect.opens_quote e) (Dialect.bars_quote e) (by decide)
      (Dialect.keeps_escaped e t) rest
    simpa [Piece.render, Piece.tokens] using h
  | string ascii t =>
    have hd : d = .javascript := hp
    subst hd
    have h := Dialect.scan_literal (q := '"') rfl rfl (by decide) (Json.keeps_inside ascii t) rest
    simpa [Piece.render, Piece.tokens, Json.quote, Json.inside] using h
  | verbatim t =>
    have h := Dialect.scan_literal (Dialect.opens_quote d) (Dialect.bars_quote d) (by decide)
      (show d.Keeps '\'' t from hp) rest
    simpa [Piece.render, Piece.tokens] using h

namespace Fragment

def tokens (indent : Text) (f : Fragment) : List Token := f.flatMap (Piece.tokens indent)

def hollow (f : Fragment) : Fragment := f.map Piece.hollow

/-- Every piece fits. -/
def Fits (d : Dialect) (f : Fragment) : Prop := ∀ p ∈ f, Piece.Fits d p

@[simp] theorem fits_nil : Fits d [] := by simp [Fits]

@[simp] theorem fits_cons {p : Piece} {f : Fragment} :
    Fits d (p :: f) ↔ p.Fits d ∧ Fits d f := by simp [Fits]

@[simp] theorem fits_append {f g : Fragment} : Fits d (f ++ g) ↔ Fits d f ∧ Fits d g := by
  simp only [Fits, List.mem_append]
  exact ⟨fun h => ⟨fun p hp => h p (.inl hp), fun p hp => h p (.inr hp)⟩,
    fun h p hp => hp.elim (h.1 p) (h.2 p)⟩

@[simp] theorem hollow_nil : hollow [] = [] := rfl

@[simp] theorem hollow_cons (p : Piece) (f : Fragment) :
    hollow (p :: f) = p.hollow :: hollow f := rfl

@[simp] theorem hollow_append (f g : Fragment) : hollow (f ++ g) = hollow f ++ hollow g :=
  List.map_append

@[simp] theorem hollow_hollow (f : Fragment) : hollow (hollow f) = hollow f := by
  simp [hollow, Function.comp_def]

@[simp] theorem tokens_nil : tokens indent [] = [] := rfl

@[simp] theorem tokens_cons (p : Piece) (f : Fragment) :
    tokens indent (p :: f) = p.tokens indent ++ tokens indent f := rfl

theorem render_cons (indent : Text) (p : Piece) (f : Fragment) :
    render indent (p :: f) = p.render indent ++ render indent f := rfl

theorem render_append (indent : Text) (f g : Fragment) :
    render indent (f ++ g) = render indent f ++ render indent g := List.flatMap_append

theorem join_cons_cons (sep f g : Fragment) (fs : List Fragment) :
    join sep (f :: g :: fs) = f ++ sep ++ join sep (g :: fs) := List.intercalate_cons_cons

/-- What holds of the pieces of fragments and of a separator holds of all pieces between. -/
theorem forall_mem_join {P : Piece → Prop} {sep : Fragment} (hs : ∀ p ∈ sep, P p)
    {fs : List Fragment} (hf : ∀ f ∈ fs, ∀ p ∈ f, P p) : ∀ p ∈ join sep fs, P p := by
  induction fs with
  | nil => simp [join]
  | cons f fs ih =>
    have hh := hf f List.mem_cons_self
    have ht := ih fun g hg => hf g (List.mem_cons_of_mem f hg)
    cases fs with
    | nil => simpa [join] using hh
    | cons g gs =>
      intro p hp
      rw [join_cons_cons] at hp
      rcases List.mem_append.mp hp with hp | hp
      · exact (List.mem_append.mp hp).elim (hh p) (hs p)
      · exact ht p hp

theorem fits_join {sep : Fragment} (hs : Fits d sep) {fs : List Fragment}
    (hf : ∀ f ∈ fs, Fits d f) : Fits d (join sep fs) := forall_mem_join hs hf

@[simp] theorem hollow_join (sep : Fragment) (fs : List Fragment) :
    hollow (join sep fs) = join (hollow sep) (fs.map hollow) := by
  induction fs with
  | nil => rfl
  | cons f fs ih =>
    cases fs with
    | nil => simp [join]
    | cons g gs =>
      rw [List.map_cons, List.map_cons, join_cons_cons, join_cons_cons, hollow_append,
        hollow_append, ih, List.map_cons]

theorem fits_commaLines (level : Nat) {fs : List Fragment} (hf : ∀ f ∈ fs, Fits d f) :
    Fits d (commaLines level fs) := by
  refine fits_join ?_ hf
  cases d <;> simp [Piece.Fits, Dialect.opens]

@[simp] theorem hollow_commaLines (level : Nat) (fs : List Fragment) :
    hollow (commaLines level fs) = commaLines level (fs.map hollow) := hollow_join _ fs

theorem bare_tokens (indent : Text) (f : Fragment) :
    (tokens indent f).flatMap Token.bare = render indent (hollow f) := by
  induction f with
  | nil => rfl
  | cons p f ih =>
    rw [tokens_cons, List.flatMap_append, ih, Piece.bare_tokens]
    rfl

/-- The scanner finds the pieces of a fragment again, whatever follows it. -/
theorem scan_render (hi : d.Unquoted indent) {f : Fragment} (hf : Fits d f) (rest : Text) :
    d.scan .code (render indent f ++ rest) =
      (d.scan .code rest).map (tokens indent f ++ ·) := by
  induction f with
  | nil => simp [render]
  | cons p f ih =>
    obtain ⟨hp, hf⟩ := fits_cons.mp hf
    rw [render, List.flatMap_cons, List.append_assoc, Piece.scan_render hi hp]
    rw [← render, ih hf, Option.map_map]
    congr 1
    funext ts
    simp

theorem tokens?_render (hi : d.Unquoted indent) {f : Fragment} (hf : Fits d f) :
    d.tokens? (render indent f) = some (tokens indent f) := by
  have h := scan_render hi hf []
  rw [List.append_nil] at h
  rw [Dialect.tokens?, h]
  simp [Dialect.scan]

end Fragment

def Line.hollow (l : Line) : Line := { l with content := l.content.hollow }

@[simp] theorem Line.hollow_hollow (l : Line) : l.hollow.hollow = l.hollow := by
  simp [Line.hollow]

namespace Program

def hollow (p : Program) : Program := p.map Line.hollow

/-- Every line fits. -/
def Fits (d : Dialect) (p : Program) : Prop := ∀ l ∈ p, Fragment.Fits d l.content

@[simp] theorem fits_nil : Fits d [] := by simp [Fits]

@[simp] theorem fits_cons {l : Line} {p : Program} :
    Fits d (l :: p) ↔ Fragment.Fits d l.content ∧ Fits d p := by simp [Fits]

@[simp] theorem fits_append {p q : Program} : Fits d (p ++ q) ↔ Fits d p ∧ Fits d q := by
  simp only [Fits, List.mem_append]
  exact ⟨fun h => ⟨fun l hl => h l (.inl hl), fun l hl => h l (.inr hl)⟩,
    fun h l hl => hl.elim (h.1 l) (h.2 l)⟩

@[simp] theorem hollow_nil : hollow [] = [] := rfl

@[simp] theorem hollow_cons (l : Line) (p : Program) :
    hollow (l :: p) = l.hollow :: hollow p := rfl

@[simp] theorem hollow_append (p q : Program) : hollow (p ++ q) = hollow p ++ hollow q :=
  List.map_append

@[simp] theorem hollow_hollow (p : Program) : hollow (hollow p) = hollow p := by
  simp [hollow, Function.comp_def]

theorem render_cons (indent : Text) (l : Line) (p : Program) :
    render indent (l :: p) = l.render indent ++ render indent p := rfl

theorem render_append (indent : Text) (p q : Program) :
    (p ++ q).render indent = p.render indent ++ q.render indent := List.flatMap_append

theorem fits_when {condition : Bool} {p : Program} (hp : condition = true → Fits d p) :
    Fits d (Program.when condition p) := by
  cases condition with
  | true => exact hp rfl
  | false => exact fits_nil

@[simp] theorem hollow_when (condition : Bool) (p : Program) :
    hollow (Program.when condition p) = Program.when condition (hollow p) := by
  cases condition <;> rfl

/-- A program as one fragment: each line is its indentation, its content and a line break. -/
def flat (indent : Text) (p : Program) : Fragment :=
  p.flatMap fun l => .code (Text.repeated l.level indent) :: l.content ++ [.code ['\n']]

theorem render_flat (indent : Text) (p : Program) :
    (p.flat indent).render indent = p.render indent := by
  induction p with
  | nil => rfl
  | cons l p ih =>
    rw [flat, List.flatMap_cons, ← flat, Fragment.render, List.flatMap_append, ← Fragment.render,
      ← Fragment.render, ih]
    simp [Program.render, Line.render, Fragment.renderAt, Fragment.render, Piece.render]

theorem fits_flat (hi : d.Unquoted indent) {p : Program} (hp : p.Fits d) :
    Fragment.Fits d (p.flat indent) := by
  induction p with
  | nil => exact Fragment.fits_nil
  | cons l p ih =>
    obtain ⟨hl, hp⟩ := fits_cons.mp hp
    rw [flat, List.flatMap_cons, ← flat]
    simp only [List.cons_append, Fragment.fits_cons, Fragment.fits_append]
    exact ⟨unquoted_repeated hi _, ⟨hl, by simp [Piece.Fits, opens_newline]⟩, ih hp⟩

theorem hollow_flat (indent : Text) (p : Program) :
    Fragment.hollow (p.flat indent) = p.hollow.flat indent := by
  induction p with
  | nil => rfl
  | cons l p ih =>
    rw [flat, List.flatMap_cons, ← flat, Fragment.hollow_append, ih]
    simp [flat, Line.hollow, Piece.hollow]

/-- The text of a program that fits its dialect closes every literal, and what stands outside of
the literals is the program without their texts. -/
theorem outside?_render (hi : d.Unquoted indent) {p : Program} (hp : p.Fits d) :
    d.outside? (p.render indent) = some (p.hollow.render indent) := by
  rw [← render_flat, Dialect.outside?, Fragment.tokens?_render hi (fits_flat hi hp),
    Option.map_some, Fragment.bare_tokens, hollow_flat, render_flat]

end Program
end HttpSnippet

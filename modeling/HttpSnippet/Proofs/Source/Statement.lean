import Mathlib.Data.List.Basic
import HttpSnippet.Proofs.Source.Search

/-!
# Lines, declarations and names

What a program does is read off its tokens: a line of its own with some code, the value that is
declared for a name, and the names that the code of a value has. A literal is a single token, so
nothing of this is found inside of one.
-/
namespace HttpSnippet

/-- Some code stands in a program as a line of its own. -/
def Dialect.HasLine (d : Dialect) (line : Text) (ts : List Token) : Prop :=
  ∃ us, d.tokens? line = some us ∧ .code '\n' :: us ++ [.code '\n'] <:+: ts

/-- The value in the first declaration of a name. -/
def declared? (name : Text) (ts : List Token) : Option (List Token) :=
  (seek? (codeTokens ("const " ++ name ++ " = ")) ts).map (·.takeWhile (· ≠ .code ';'))

/-- A character that can stand in a name. -/
def Token.inName : Token → Bool
  | .code c => c.isAlphanum || c = '_' || c = '$'
  | .literal _ _ => false

/-- A name stands in code, and not as a part of a longer one. -/
def Uses (name : Text) (ts : List Token) : Prop :=
  ∃ before after, ts = before ++ (codeTokens name ++ after) ∧
    before.getLast?.all (!·.inName) = true ∧ after.head?.all (!·.inName) = true

variable {sought ts : List Token}

theorem seek?_eq_none_iff (h : sought ≠ []) : seek? sought ts = none ↔ ¬ sought <:+: ts := by
  induction ts with
  | nil => simpa [seek?] using h
  | cons t ts ih =>
    rw [seek?, List.infix_cons_iff, not_or]
    split
    · next hprefix => simp [List.isPrefixOf_iff_prefix.mp hprefix]
    · next hprefix => rw [ih, and_iff_right (mt List.isPrefixOf_iff_prefix.mpr hprefix)]

theorem not_hasLine {d : Dialect} {line : Text} (hline : d.tokens? line = some sought)
    (hne : sought ≠ []) (h : seek? sought ts = none) : ¬ d.HasLine line ts := by
  rintro ⟨us, hus, hinfix⟩
  obtain rfl := Option.some.inj (hline.symm.trans hus)
  refine (seek?_eq_none_iff hne).mp h (List.IsInfix.trans ⟨[.code '\n'], [.code '\n'], ?_⟩ hinfix)
  simp

theorem not_uses_of_notMem {c : Char} {name : Text} (h : .code c ∉ ts) : ¬ Uses (c :: name) ts := by
  rintro ⟨before, after, rfl, -⟩
  simp [codeTokens] at h

/-- Where its first letter stands once, with another one behind it, a name is not used. -/
theorem not_uses_of_once {c d e : Char} {name : Text} {front rest : List Token}
    (hfront : .code c ∉ front) (hrest : .code c ∉ rest) (hc : c ≠ e) (hd : d ≠ e) :
    ¬ Uses (c :: d :: name) (front ++ .code c :: .code e :: rest) := by
  rintro ⟨before, after, heq, -⟩
  have hbehind : .code c ∉ .code e :: rest := by simpa [hc] using hrest
  obtain ⟨-, -, hnext⟩ := (List.append_cons_inj_of_notMem hfront hbehind).mp heq
  exact hd (Token.code.inj (List.cons.inj hnext).1).symm

/-- What is declared is read up to the end of the statement. -/
theorem declared?_append {name : Text} {value rest : List Token} (h : .code ';' ∉ value) :
    declared? name (codeTokens ("const " ++ name ++ " = ") ++ (value ++ .code ';' :: rest)) =
      some value := by
  have hvalue : ∀ t ∈ value, decide (t ≠ .code ';') = true := by
    intro t ht
    rw [decide_eq_true_eq]
    rintro rfl
    exact h ht
  rw [declared?, seek?_append (by simp [codeTokens]), Option.map_some,
    List.takeWhile_append_of_pos hvalue, List.takeWhile_cons_of_neg (by simp), List.append_nil]

namespace Line

/-- Some token of those that are sought is missing in a line. -/
def Lacks (sought : List Token) (l : Line) : Prop :=
  (∃ c, .code c ∈ sought ∧ isSpacing c = false ∧ ∀ p ∈ l.content, p.shows c = false) ∨
    ∃ t, .literal '\'' t ∈ sought ∧ ∀ p ∈ l.content, p.holds t = false

end Line

theorem lacks_of_shows {p : Program} {c : Char} (hc : .code c ∈ sought)
    (hspacing : isSpacing c = false) (h : ∀ l ∈ p, ∀ q ∈ l.content, q.shows c = false) :
    ∀ l ∈ p, l.Lacks sought := fun l hl => .inl ⟨c, hc, hspacing, h l hl⟩

theorem lacks_of_holds {p : Program} {t : Text} (ht : .literal '\'' t ∈ sought)
    (h : ∀ l ∈ p, ∀ q ∈ l.content, q.holds t = false) : ∀ l ∈ p, l.Lacks sought :=
  fun l hl => .inr ⟨t, ht, h l hl⟩

namespace Program

variable {indent : Text} {p : Program}

theorem tokens_flat_append (indent : Text) (p q : Program) :
    (Program.flat indent (p ++ q)).tokens indent =
      (Program.flat indent p).tokens indent ++ (Program.flat indent q).tokens indent := by
  rw [flat_append, Fragment.tokens, List.flatMap_append]
  rfl

theorem tokens_flat_cons (indent : Text) (l : Line) (p : Program) :
    (Program.flat indent (l :: p)).tokens indent =
      codeTokens (Text.repeated l.level indent) ++ (l.content.tokens indent ++
        .code '\n' :: (Program.flat indent p).tokens indent) := by
  rw [flat, List.flatMap_cons, Fragment.tokens, List.flatMap_append, List.cons_append,
    List.flatMap_cons, List.flatMap_append, List.append_assoc, List.append_assoc]
  rfl

/-- Lines that lack some of the tokens each are passed over. -/
theorem seek?_of_lacks (hi : ∀ c ∈ indent, isSpacing c = true) (hbreak : .code '\n' ∉ sought)
    (h : ∀ l ∈ p, l.Lacks sought) (rest : List Token) :
    seek? sought ((Program.flat indent p).tokens indent ++ rest) = seek? sought rest := by
  induction p with
  | nil => rfl
  | cons l p ih =>
    obtain ⟨hl, hp⟩ := List.forall_mem_cons.mp h
    have hsplit : l :: p = [l] ++ p := rfl
    rw [hsplit, tokens_flat_append, List.append_assoc]
    rcases hl with ⟨c, hc, hspacing, hshows⟩ | ⟨t, ht, hholds⟩
    · have hmem := code_notMem_tokens hi hspacing (p := [l]) (by simpa using hshows)
      rw [seek?_flat hc hbreak hmem, ih hp]
    · have hmem := literal_notMem_flat indent (p := [l]) (by simpa using hholds)
      rw [seek?_flat ht hbreak hmem, ih hp]

theorem seek?_eq_none_of_lacks (hi : ∀ c ∈ indent, isSpacing c = true) (hne : sought ≠ [])
    (hbreak : .code '\n' ∉ sought) (h : ∀ l ∈ p, l.Lacks sought) :
    seek? sought ((Program.flat indent p).tokens indent) = none := by
  have hpasses := seek?_of_lacks hi hbreak h []
  rw [List.append_nil] at hpasses
  exact hpasses.trans ((seek?_eq_none_iff hne).mpr fun hinfix => hne (List.infix_nil.mp hinfix))

theorem not_hasLine_of_lacks (hi : ∀ c ∈ indent, isSpacing c = true) {d : Dialect} {line : Text}
    (hline : d.tokens? line = some sought) (hne : sought ≠ []) (hbreak : .code '\n' ∉ sought)
    (h : ∀ l ∈ p, l.Lacks sought) :
    ¬ d.HasLine line ((Program.flat indent p).tokens indent) :=
  not_hasLine hline hne (seek?_eq_none_of_lacks hi hne hbreak h)

/-- A line without indentation is found if another one is in front of it. -/
theorem hasLine_flat {d : Dialect} {line : Text} {l : Line} (hlevel : l.level = 0)
    (hline : d.tokens? line = some (l.content.tokens indent)) (hp : p ≠ []) {q : Program}
    (hl : l ∈ q) : d.HasLine line ((Program.flat indent (p ++ q)).tokens indent) := by
  obtain ⟨before, after, rfl⟩ := List.append_of_mem hl
  obtain ⟨front, k, hfront⟩ := (List.eq_nil_or_concat (p ++ before)).resolve_left (by simp [hp])
  refine ⟨_, hline, (Program.flat indent front).tokens indent ++
    (codeTokens (Text.repeated k.level indent) ++ k.content.tokens indent),
    (Program.flat indent after).tokens indent, ?_⟩
  have hindent : codeTokens (Text.repeated l.level indent) = [] := by rw [hlevel]; rfl
  have hsplit : p ++ (before ++ l :: after) = front ++ k :: l :: after := by
    rw [← List.append_assoc, hfront, List.concat_eq_append, List.append_assoc]
    rfl
  rw [hsplit, tokens_flat_append, tokens_flat_cons, tokens_flat_cons, hindent]
  simp

end Program
end HttpSnippet

import HttpSnippet.Proofs.Form.Grouping
import HttpSnippet.Proofs.Source.Object
import HttpSnippet.Target.Php

/-!
# Forms that are sent like a query

Both targets write the enabled members of a form into the source of a program. Reading the source
back gives these members in their order, whichever way they were written: as an object with the
values of each key, as a list of pairs, or as an array with arrows.
-/
namespace HttpSnippet

open Fragment

/-- The pairs that a Node expression stands for: an object of a query, or a list of pairs. -/
def Node.readForm? (source : Text) : Option (List (Text × Text)) := do
  let ts ← Dialect.javascript.tokens? source
  match behind? "qs.stringify(\x7b" ts with
  | some ts =>
    (readEntries (marks "\x7d)") .start (← Dialect.javascript.symbols? ts)).map ungroup
  | none =>
    let ts ← behind? "new URLSearchParams([" ts
    readPairs (marks "]).toString()") (← Dialect.javascript.symbols? ts)

/-- The pairs that a PHP statement adds to a form; no statement adds none. -/
def Php.readForm? (source : Text) : Option (List (Text × Text)) :=
  if source = [] then some []
  else do
    let ts ← behind? "$request->addPostParameter(array(" (← Dialect.php.tokens? source)
    readArrows (marks "));") (← Dialect.php.symbols? ts)

variable {indent : Text}

/-! ### Node -/

namespace Node

theorem symbols_groupObject (groups : List (Text × List Text)) :
    ∃ f, groupObject groups = .code "qs.stringify(\x7b" :: f ∧
      symbols f = entrySymbols groups ++ marks "\x7d)" := by
  unfold groupObject
  match groups with
  | [] => exact ⟨_, rfl, rfl⟩
  | g :: gs =>
    refine ⟨.newline 1 :: commaLines 1 (groupEntries (g :: gs)) ++ [.newline 0, .code "\x7d)"],
      rfl, ?_⟩
    simp only [List.cons_append, symbols_append, symbols_cons, symbols_commaLines]
    rfl

/-- An object is read back as the pairs of its groups. -/
theorem readForm?_groupObject (hi : ∀ c ∈ indent, isSpacing c = true)
    {groups : List (Text × List Text)} (hv : ∀ g ∈ groups, g.2 ≠ []) :
    readForm? ((groupObject groups).render indent) = some (ungroup groups) := by
  have hplain := plain_groupObject groups
  obtain ⟨f, hf, hsymbols⟩ := symbols_groupObject groups
  rw [hf] at hplain ⊢
  have htokens := tokens?_render (unquoted_of_spacing hi) hplain.fits
  have hread : readEntries (marks "\x7d)") .start (symbols f) = some groups := by
    rw [hsymbols]
    exact readEntries_groups rfl rfl hv
  simp only [readForm?, htokens, tokens_cons, Piece.tokens, behind?_append,
    symbols?_tokens hi (plain_cons.mp hplain).2, hread, Option.bind_eq_bind, Option.bind_some,
    Option.map_some]

/-- The symbols of pairs in brackets with commas between them. -/
def pairSymbols (pairs : List (Text × Text)) : List Symbol :=
  [Symbol.mark ','].intercalate
    (pairs.map fun (k, v) => [.mark '[', .text k, .mark ',', .text v, .mark ']'])

theorem pairSymbols_cons_cons (p p' : Text × Text) (ps : List (Text × Text)) :
    pairSymbols (p :: p' :: ps) =
      [.mark '[', .text p.1, .mark ',', .text p.2, .mark ']'] ++
        .mark ',' :: pairSymbols (p' :: ps) := by
  simp [pairSymbols, List.intercalate_cons_cons]

theorem readPairs_pairs {ending : List Symbol} (he : ∀ s, ending ≠ .mark ',' :: s)
    (p : Text × Text) (ps : List (Text × Text)) :
    readPairs ending (pairSymbols (p :: ps) ++ ending) = some (p :: ps) := by
  induction ps generalizing p with
  | nil =>
    have hone : pairSymbols [p] = [.mark '[', .text p.1, .mark ',', .text p.2, .mark ']'] := rfl
    rw [hone]
    simp only [List.cons_append, List.nil_append]
    rw [readPairs]
    · rw [if_pos rfl]
    · exact he
  | cons p' ps ih =>
    rw [pairSymbols_cons_cons]
    simp only [List.cons_append, List.nil_append]
    rw [readPairs, ih p']
    rfl

theorem symbols_pairList (pairs : List (Text × Text)) :
    ∃ f, pairList pairs = .code "new URLSearchParams([" :: f ∧
      symbols f = pairSymbols pairs ++ marks "]).toString()" := by
  have hmap : (pairs.map fun (k, v) =>
        ([.code "[", quoted k, .code ", ", quoted v, .code "]"] : Fragment)).map symbols =
      pairs.map fun (k, v) => [.mark '[', .text k, .mark ',', .text v, .mark ']'] := by
    rw [List.map_map]
    rfl
  refine ⟨.newline 1 :: commaLines 1 (pairs.map fun (k, v) =>
    [.code "[", quoted k, .code ", ", quoted v, .code "]"]) ++
      [.newline 0, .code "]).toString()"], rfl, ?_⟩
  simp only [List.cons_append, symbols_append, symbols_cons, symbols_commaLines, hmap]
  rfl

/-- A list of pairs is read back as it is. -/
theorem readForm?_pairList (hi : ∀ c ∈ indent, isSpacing c = true) (p : Text × Text)
    (ps : List (Text × Text)) :
    readForm? ((pairList (p :: ps)).render indent) = some (p :: ps) := by
  have hplain := plain_pairList (p :: ps)
  obtain ⟨f, hf, hsymbols⟩ := symbols_pairList (p :: ps)
  rw [hf] at hplain ⊢
  have htokens := tokens?_render (unquoted_of_spacing hi) hplain.fits
  have hobject (ts : List Token) :
      behind? "qs.stringify(\x7b" (codeTokens "new URLSearchParams([" ++ ts) = none := rfl
  have hread : readPairs (marks "]).toString()") (symbols f) = some (p :: ps) := by
    rw [hsymbols]
    exact readPairs_pairs (by rintro s ⟨⟩) p ps
  simp only [readForm?, htokens, tokens_cons, Piece.tokens, hobject, behind?_append,
    symbols?_tokens hi (plain_cons.mp hplain).2, hread, Option.bind_eq_bind, Option.bind_some]

/-- Either way of writing a form is read back as its pairs. -/
theorem readForm?_urlencodedBody (hi : ∀ c ∈ indent, isSpacing c = true) (trim : Bool)
    (params : List UrlencodedParam) :
    readForm? ((urlencodedBody trim params).render indent) =
      some (urlencodedPairs trim params) := by
  unfold urlencodedBody
  simp only []
  generalize urlencodedPairs trim params = pairs
  split
  · next h =>
    cases pairs with
    | nil => cases h
    | cons p ps => exact readForm?_pairList hi p ps
  · next h =>
    rw [readForm?_groupObject hi fun g => values_ne_nil_of_mem,
      ungroup_groupByKey (Bool.not_eq_true _ ▸ h)]

end Node

/-! ### PHP -/

namespace Php

/-- The symbols of keys with arrows to their values, with commas between them. -/
def arrowSymbols (pairs : List (Text × Text)) : List Symbol :=
  [Symbol.mark ','].intercalate
    (pairs.map fun (k, v) => [.text k, .mark '=', .mark '>', .text v])

theorem arrowSymbols_cons_cons (p p' : Text × Text) (ps : List (Text × Text)) :
    arrowSymbols (p :: p' :: ps) =
      [.text p.1, .mark '=', .mark '>', .text p.2] ++ .mark ',' :: arrowSymbols (p' :: ps) := by
  simp [arrowSymbols, List.intercalate_cons_cons]

theorem readArrows_arrows {ending : List Symbol} (he : ∀ s, ending ≠ .mark ',' :: s)
    (p : Text × Text) (ps : List (Text × Text)) :
    readArrows ending (arrowSymbols (p :: ps) ++ ending) = some (p :: ps) := by
  induction ps generalizing p with
  | nil =>
    have hone : arrowSymbols [p] = [.text p.1, .mark '=', .mark '>', .text p.2] := rfl
    rw [hone]
    simp only [List.cons_append, List.nil_append]
    rw [readArrows]
    · rw [if_pos rfl]
    · exact he
  | cons p' ps ih =>
    rw [arrowSymbols_cons_cons]
    simp only [List.cons_append, List.nil_append]
    rw [readArrows, ih p']
    rfl

/-- The entries of a form. -/
def arrows (pairs : List (Text × Text)) : List Fragment :=
  pairs.map fun (k, v) => arrow k [quoted v]

theorem plain_arrows (pairs : List (Text × Text)) : ∀ f ∈ arrows pairs, Plain .php f := by
  intro f hf
  obtain ⟨⟨k, v⟩, -, rfl⟩ := List.mem_map.mp hf
  simp [arrow, quoted]

/-- A statement that adds pairs to a form, with the line break behind it. -/
def statement (indent : Text) (pairs : List (Text × Text)) : Text :=
  Program.render indent [setter "addPostParameter" (array (arrows pairs))]

/-- What follows the opening of the array in a statement. -/
def behindOpening (pairs : List (Text × Text)) : Fragment :=
  .newline 1 :: commaLines 1 (arrows pairs) ++ [.newline 0, .code ")", .code ");", .code ['\n']]

theorem plain_behindOpening (pairs : List (Text × Text)) : Plain .php (behindOpening pairs) := by
  have hlines := plain_commaLines 1 (plain_arrows pairs)
  simp only [behindOpening, List.cons_append, plain_append, plain_cons, plain_nil,
    Piece.plain_code, Piece.plain_newline, hlines]
  decide

theorem symbols_behindOpening (pairs : List (Text × Text)) :
    symbols (behindOpening pairs) = arrowSymbols pairs ++ marks "));" := by
  have hmap : (arrows pairs).map symbols =
      pairs.map fun (k, v) => [.text k, .mark '=', .mark '>', .text v] := by
    rw [arrows, List.map_map]
    rfl
  simp only [behindOpening, List.cons_append, symbols_append, symbols_cons, symbols_commaLines,
    hmap]
  rfl

theorem tokens?_statement (hi : ∀ c ∈ indent, isSpacing c = true) (pairs : List (Text × Text)) :
    Dialect.php.tokens? (statement indent pairs) =
      some (codeTokens "$request->addPostParameter(array(" ++
        tokens indent (behindOpening pairs)) := by
  have hflat : Program.flat indent [setter "addPostParameter" (array (arrows pairs))] =
      .code [] :: .code "$request->addPostParameter(" :: .code "array(" ::
        behindOpening pairs := by
    simp only [Program.flat, setter, array, behindOpening, List.flatMap_cons, List.flatMap_nil,
      List.cons_append, List.append_assoc, List.nil_append, List.append_nil]
    rfl
  have hplain : Plain .php (.code [] :: .code "$request->addPostParameter(" :: .code "array(" ::
      behindOpening pairs) := by
    simp only [plain_cons, Piece.plain_code, plain_behindOpening]
    decide
  rw [statement, ← Program.render_flat, hflat]
  exact tokens?_render (unquoted_of_spacing hi) hplain.fits

/-- A statement with an array of pairs is read back as these pairs. -/
theorem readForm?_statement (hi : ∀ c ∈ indent, isSpacing c = true) (p : Text × Text)
    (ps : List (Text × Text)) : readForm? (statement indent (p :: ps)) = some (p :: ps) := by
  have htokens := tokens?_statement hi (p :: ps)
  have hne : statement indent (p :: ps) ≠ [] := by
    intro h
    rw [h] at htokens
    cases htokens
  have hread : readArrows (marks "));") (symbols (behindOpening (p :: ps))) = some (p :: ps) := by
    rw [symbols_behindOpening]
    exact readArrows_arrows (by rintro s ⟨⟩) p ps
  simp only [readForm?, if_neg hne, htokens, behind?_append,
    symbols?_tokens hi (plain_behindOpening _), hread, Option.bind_eq_bind, Option.bind_some]

theorem readForm?_urlencodedBody (hi : ∀ c ∈ indent, isSpacing c = true) (trim : Bool)
    (params : List UrlencodedParam) :
    readForm? ((urlencodedBody trim params).render indent) =
      some ((params.filter (!·.disabled)).map fun p =>
        (p.key.trimmed trim, p.value.trimmed trim)) := by
  have hbody : urlencodedBody trim params = arraySetter "addPostParameter"
      (arrows ((params.filter (!·.disabled)).map fun p =>
        (p.key.trimmed trim, p.value.trimmed trim))) := by
    rw [arrows, List.map_map]
    rfl
  rw [hbody]
  generalize ((params.filter (!·.disabled)).map fun p =>
    (p.key.trimmed trim, p.value.trimmed trim)) = pairs
  cases pairs with
  | nil => rfl
  | cons p ps => exact readForm?_statement hi p ps

end Php

/-- The source that either target writes for a form reads back as the enabled members, each once
and in their order, with both parts stripped if they are to be trimmed. -/
theorem readForm?_urlencodedBodies (indent : Text) (hi : ∀ c ∈ indent, c = ' ' ∨ c = '\t')
    (trim : Bool) (params : List UrlencodedParam) :
    let sent := (params.filter (!·.disabled)).map fun p =>
      (p.key.trimmed trim, p.value.trimmed trim)
    Node.readForm? ((Node.urlencodedBody trim params).render indent) = some sent ∧
      Php.readForm? ((Php.urlencodedBody trim params).render indent) = some sent := by
  have hspacing : ∀ c ∈ indent, isSpacing c = true := by
    intro c hc
    rcases hi c hc with rfl | rfl <;> rfl
  exact ⟨Node.readForm?_urlencodedBody hspacing trim params,
    Php.readForm?_urlencodedBody hspacing trim params⟩

theorem readForm?_urlencodedBodies_of_tab :
    let params : List UrlencodedParam := [{ key := "a'", value := " b\\\n" },
      { key := "c", disabled := true }, { key := "d", value := "e" }, { key := " a'" }]
    let sent : List (Text × Text) := [("a'", "b\\"), ("d", "e"), ("a'", [])]
    Node.readForm? ((Node.urlencodedBody true params).render "\t") = some sent ∧
      Php.readForm? ((Php.urlencodedBody true params).render "\t") = some sent := by
  intro params sent
  have hsent : ((params.filter (!·.disabled)).map fun p =>
      (p.key.trimmed true, p.value.trimmed true)) = sent := by decide
  have h := readForm?_urlencodedBodies "\t" (by simp) true params
  rw [hsent] at h
  exact h

end HttpSnippet

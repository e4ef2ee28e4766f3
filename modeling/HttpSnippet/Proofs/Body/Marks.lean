import HttpSnippet.Proofs.Form.Announced
import HttpSnippet.Proofs.Source.Statement

/-!
# The marks of a payload

Each mode has its own expression for the payload, and its code has no other characters than the
marks of this expression, whatever the texts in its literals are. So the expression that uses the
module `querystring` is told from all others by its marks, but for the one with the word `query`.
-/
namespace HttpSnippet

open Fragment

theorem Piece.IsJson.within {p : Piece} (h : p.IsJson) : p.within Json.codeMarks = true := by
  cases p with
  | code t => exact within_code.mpr h
  | newline level => rfl
  | string ascii t => rfl
  | literal d t => exact h.elim
  | verbatim t => exact h.elim

theorem Piece.IsJson.holds {p : Piece} (h : p.IsJson) (t : Text) : p.holds t = false := by
  cases p with
  | code t => rfl
  | newline level => rfl
  | string ascii t => rfl
  | literal d t => exact h.elim
  | verbatim t => exact h.elim

namespace Node

/-! ### The characters of the code -/

/-- The characters that the expression for a payload has outside of its literals. -/
def BodyShape.marks : BodyShape → Text
  | .json _ => "JSON.stringify()" ++ Json.codeMarks
  | .text => []
  | .pairs _ => "new URLSearchParams([, ]).toString()"
  | .groups _ => "qs.stringify(\x7b: [, ]\x7d)"
  | .form _ | .file => "fs.readFileSync() +"
  | .graphql _ => "JSON.stringify(\x7bquery: , variables\x7d)" ++ Json.codeMarks

/-- No expression ends a statement, and none has the letters that the other statements are told
by. -/
theorem BodyShape.notMem_marks {c : Char} (hc : c = ';' ∨ c = 'H') (s : BodyShape) :
    c ∉ s.marks := by
  unfold marks
  rcases hc with rfl | rfl <;> cases s <;> dsimp only <;> decide

theorem within_call (marks : Text) {function : Text} {arguments : Fragment}
    (hf : function ++ "(" ⊆ marks) (hclose : (")" : Text) ⊆ marks)
    (ha : ∀ p ∈ arguments, p.within marks = true) :
    ∀ p ∈ call function arguments, p.within marks = true := by
  simp only [call, List.cons_append, List.forall_mem_cons, List.forall_mem_append]
  exact ⟨Piece.within_code.mpr hf, ha, Piece.within_code.mpr hclose, List.forall_mem_nil _⟩

theorem within_json {marks : Text} (h : Json.codeMarks ⊆ marks) (layout : Json.Layout)
    (ascii : Bool) (level : Nat) (v : Json) :
    ∀ p ∈ v.fragment layout ascii level, p.within marks = true :=
  fun p hp => Piece.within_of_subset h (Json.isJson_fragment layout ascii level v p hp).within

theorem within_pairList (pairs : List (Text × Text)) :
    ∀ p ∈ pairList pairs, p.within "new URLSearchParams([, ]).toString()" = true := by
  unfold pairList
  simp only [List.cons_append, List.nil_append, List.forall_mem_cons, List.forall_mem_append]
  refine ⟨by decide, rfl, forall_mem_join (by decide) fun f hf => ?_, by decide⟩
  obtain ⟨pair, -, rfl⟩ := List.mem_map.mp hf
  simp only [List.forall_mem_cons]
  exact ⟨by decide, rfl, by decide, rfl, by decide, List.forall_mem_nil _⟩

theorem within_groupObject (groups : List (Text × List Text)) :
    ∀ p ∈ groupObject groups, p.within "qs.stringify(\x7b: [, ]\x7d)" = true := by
  have hlines : ∀ p ∈ commaLines 1 (groupEntries groups),
      p.within "qs.stringify(\x7b: [, ]\x7d)" = true :=
    fun p hp => Piece.within_of_subset (by decide) (within_groupLines 1 groups p hp)
  unfold groupObject
  split
  · decide
  · simp only [List.cons_append, List.forall_mem_cons, List.forall_mem_append]
    exact ⟨by decide, rfl, hlines, by decide⟩

theorem within_graphqlObject (query : Text) (vars : Json) :
    ∀ p ∈ graphqlObject query vars,
      p.within ("JSON.stringify(\x7bquery: , variables\x7d)" ++ Json.codeMarks) = true := by
  simp only [graphqlObject, List.cons_append, List.nil_append, List.forall_mem_cons,
    List.forall_mem_append]
  exact ⟨by decide, rfl, by decide, rfl, by decide, rfl, by decide,
    within_json (by decide) _ _ _ _, by decide⟩

theorem within_payloadBody (boundary : Text) (trim : Bool) (contentType : Option Text)
    (payload : Payload) : ∀ p ∈ payloadBody boundary trim contentType payload,
      p.within (payloadShape trim contentType payload).marks = true := by
  cases payload with
  | raw t =>
    simp only [payloadBody, rawBody, payloadShape]
    cases rawJson? contentType (t.trimmed trim) with
    | some v =>
      exact within_call ("JSON.stringify()" ++ Json.codeMarks) (by decide) (by decide)
        (within_json (by decide) _ _ _ _)
    | none => exact List.forall_mem_singleton.mpr rfl
  | urlencoded params =>
    simp only [payloadBody, urlencodedBody, payloadShape]
    split
    · exact within_pairList _
    · exact within_groupObject _
  | formdata params => exact within_concatenation _
  | file source =>
    exact within_call "fs.readFileSync() +" (by decide) (by decide)
      (List.forall_mem_singleton.mpr rfl)
  | graphql payload => exact within_graphqlObject _ _

theorem shows_payloadBody {boundary : Text} {trim : Bool} {contentType : Option Text}
    {payload : Payload} {c : Char} (hc : c ∉ (payloadShape trim contentType payload).marks) :
    ∀ p ∈ payloadBody boundary trim contentType payload, p.shows c = false :=
  fun p hp => Piece.shows_of_within (within_payloadBody boundary trim contentType payload p hp) hc

/-- The strings of a query and its variables stand in double quotes. -/
theorem holds_graphqlObject (query : Text) (vars : Json) (t : Text) :
    ∀ p ∈ graphqlObject query vars, p.holds t = false := by
  simp only [graphqlObject, List.cons_append, List.nil_append, List.forall_mem_cons,
    List.forall_mem_append]
  exact ⟨rfl, rfl, rfl, rfl, rfl, rfl, rfl,
    fun p hp => (Json.isJson_fragment .spaced false 0 vars p hp).holds t, rfl, rfl,
    List.forall_mem_nil _⟩

/-! ### The use of the module for queries -/

/-- A program asks for the module for the pairs of a form whose keys do not interleave. -/
theorem usesQuerystring_payloadShape_iff {trim : Bool} {contentType : Option Text}
    {payload : Payload} : (payloadShape trim contentType payload).usesQuerystring = true ↔
      ∃ params, payload = .urlencoded params ∧
        interleavesKeys ((urlencodedPairs trim params).map (·.1)) = false := by
  cases payload with
  | urlencoded params =>
    simp only [payloadShape, Payload.urlencoded.injEq, exists_eq_left', ← Bool.not_eq_true]
    split
    · next hinterleaves => exact iff_of_false Bool.false_ne_true (not_not_intro hinterleaves)
    · next hinterleaves => exact iff_of_true rfl hinterleaves
  | raw t =>
    simp only [payloadShape, reduceCtorEq, false_and, exists_false, iff_false]
    split <;> exact Bool.false_ne_true
  | formdata params => exact iff_of_false Bool.false_ne_true (by simp)
  | file source => exact iff_of_false Bool.false_ne_true (by simp)
  | graphql payload => exact iff_of_false Bool.false_ne_true (by simp)

theorem exists_graphql {trim : Bool} {contentType : Option Text} {payload : Payload} {vars : Json}
    (h : payloadShape trim contentType payload = .graphql vars) : ∃ g, payload = .graphql g := by
  cases payload with
  | graphql g => exact ⟨g, rfl⟩
  | raw t =>
    simp only [payloadShape] at h
    split at h <;> cases h
  | urlencoded params =>
    simp only [payloadShape] at h
    split at h <;> cases h
  | formdata params => cases h
  | file source => cases h

/-- A `q` stands in the name of the module or in the word `query`. -/
theorem of_q_mem_marks {trim : Bool} {contentType : Option Text} {payload : Payload}
    (h : 'q' ∈ (payloadShape trim contentType payload).marks) :
    (payloadShape trim contentType payload).usesQuerystring = true ∨ ∃ g, payload = .graphql g := by
  unfold BodyShape.marks at h
  cases hshape : payloadShape trim contentType payload with
  | groups counts => exact .inl rfl
  | graphql vars => exact .inr (exists_graphql hshape)
  | _ =>
    rw [hshape] at h
    dsimp only at h
    exact absurd h (by decide)

variable {indent : Text}

/-- A query is no `qs`. -/
theorem not_uses_graphqlObject (hi : ∀ c ∈ indent, isSpacing c = true) (query : Text)
    (vars : Json) : ¬ Uses "qs" ((graphqlObject query vars).tokens indent) := by
  have hvars : ∀ p ∈ vars.fragment .spaced false 0, p.shows 'q' = false := fun p hp =>
    Piece.shows_of_within (Json.isJson_fragment .spaced false 0 vars p hp).within (by decide)
  have hfront : Token.code 'q' ∉
      Fragment.tokens indent [.code "JSON.stringify(\x7b", .newline 1] :=
    code_notMem_tokens hi rfl (by decide)
  have hrest : Token.code 'q' ∉ Fragment.tokens indent (.code "ery: " :: .string false query ::
      .code "," :: .newline 1 :: .code "variables: " :: (vars.fragment .spaced false 0 ++
        [.newline 0, .code "\x7d)"])) := by
    refine code_notMem_tokens hi rfl ?_
    simp only [List.forall_mem_cons, List.forall_mem_append]
    exact ⟨by decide, rfl, by decide, rfl, by decide, hvars, by decide⟩
  have hquery : codeTokens "query: " = .code 'q' :: .code 'u' :: codeTokens "ery: " := rfl
  have hsplit : (graphqlObject query vars).tokens indent =
      Fragment.tokens indent [.code "JSON.stringify(\x7b", .newline 1] ++ .code 'q' :: .code 'u' ::
        Fragment.tokens indent (.code "ery: " :: .string false query :: .code "," :: .newline 1 ::
          .code "variables: " :: (vars.fragment .spaced false 0 ++
            [.newline 0, .code "\x7d)"])) := by
    simp only [graphqlObject, List.cons_append, List.nil_append, tokens_cons, tokens_nil,
      Piece.tokens, hquery, List.append_assoc, List.append_nil]
  rw [hsplit]
  exact not_uses_of_once hfront hrest (by decide : 'q' ≠ 'u') (by decide : 's' ≠ 'u')

theorem uses_groupObject (indent : Text) (groups : List (Text × List Text)) :
    Uses "qs" ((groupObject groups).tokens indent) := by
  refine ⟨[], _, rfl, rfl, ?_⟩
  rfl

/-- Only the expression for grouped pairs uses the module. -/
theorem uses_payloadBody_iff (hi : ∀ c ∈ indent, isSpacing c = true) (boundary : Text) (trim : Bool)
    (contentType : Option Text) (payload : Payload) :
    Uses "qs" ((payloadBody boundary trim contentType payload).tokens indent) ↔
      (payloadShape trim contentType payload).usesQuerystring = true := by
  constructor
  · intro huses
    by_contra hshape
    have hq : 'q' ∈ (payloadShape trim contentType payload).marks := by
      by_contra hq
      exact not_uses_of_notMem (code_notMem_tokens hi rfl (shows_payloadBody hq)) huses
    obtain ⟨g, rfl⟩ := (of_q_mem_marks hq).resolve_left hshape
    exact not_uses_graphqlObject hi _ _ huses
  · intro hshape
    obtain ⟨params, rfl, hkeys⟩ := usesQuerystring_payloadShape_iff.mp hshape
    have hbody : payloadBody boundary trim contentType (.urlencoded params) =
        groupObject (groupByKey (urlencodedPairs trim params)) :=
      if_neg (ne_true_of_eq_false hkeys)
    rw [hbody]
    exact uses_groupObject indent _

end Node
end HttpSnippet

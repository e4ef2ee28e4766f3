import HttpSnippet.Proofs.Body.Raw
import HttpSnippet.Proofs.Check.Variables

/-!
# GraphQL bodies

Both targets send the query and the value of the variables as JSON. A Node program spells the object
out and puts two JSON texts into it; a PHP program holds the whole object as one literal. Variables
that were given as data are written as JSON text first, which stands for the same data.
-/
namespace HttpSnippet

open Fragment

/-- The value that the variables of a payload stand for. -/
def GraphqlPayload.variableValues (payload : GraphqlPayload) : Json :=
  if payload.variablesText = [] then .obj []
  else
    match Json.read payload.variablesText with
    | .ok v => v
    | .error _ => .obj []

namespace GraphqlPayload

theorem variableValues_eq (payload : GraphqlPayload) :
    (jsonOf? payload.variablesText).getD (.obj []) = payload.variableValues := by
  unfold variableValues jsonOf?
  split
  · next h =>
    rw [h]
    rfl
  · cases Json.read payload.variablesText <;> rfl

theorem wellFormed_variableValues (payload : GraphqlPayload) :
    payload.variableValues.WellFormed := by
  unfold variableValues
  split
  · exact .obj List.nodup_nil (by simp)
  · split
    · next v h => exact Json.wellFormed_read h
    · exact .obj List.nodup_nil (by simp)

end GraphqlPayload

/-! ### Variables given as data -/

section Given

variable [Host]

end Given

theorem Node.render_graphqlBody (indent : Text) (trim : Bool) (payload : GraphqlPayload) :
    (graphqlBody trim payload).render indent =
      "JSON.stringify(\x7b\n" ++ indent ++ "query: " ++
        Json.quote false (payload.query.trimmed trim) ++ ",\n" ++ indent ++ "variables: " ++
        (payload.variableValues.fragment .spaced false 0).render indent ++ "\n\x7d)" := by
  have hvariables : graphqlVariables payload = payload.variableValues := payload.variableValues_eq
  rw [graphqlBody, hvariables, graphqlObject, render_append, render_append]
  simp [Fragment.render, Piece.render, Text.repeated]

section

attribute [local instance] Host.usual

end

end HttpSnippet

import HttpSnippet.Proofs.Body.Room
import HttpSnippet.Proofs.Source.Reader

/-!
# Bodies that are one text

A Node expression for a text is either the JSON value that the text stands for or a JSON string of
printable ASCII characters, and both are read back as what they were written from. A PHP statement
sets the body to one literal, which stands for the text itself. Where there is no room to read the
value, or to write it again, there is no expression at all.
-/
namespace HttpSnippet

open Fragment

/-- The text that a PHP statement sets as the body. -/
def Php.readBody? (source : Text) : Option Text := do
  match behind? "$request->setBody(" (← Dialect.php.tokens? source) with
  | some (.literal '\'' s :: ending) =>
    if ending = codeTokens ");\n" then Dialect.php.decode? s else none
  | _ => none

/-- A text is set as the body by a literal that stands for it. -/
theorem Php.readBody?_setBody (indent t : Text) :
    readBody? (Program.render indent [setter "setBody" [quoted t]]) = some t := by
  have hindent : Program.render indent [setter "setBody" [quoted t]] =
      Program.render [] [setter "setBody" [quoted t]] := rfl
  have hflat : Program.flat [] [setter "setBody" [quoted t]] =
      [.code [], .code "$request->setBody(", quoted t, .code ");", .code ['\n']] := rfl
  have hplain : Plain .php
      [.code [], .code "$request->setBody(", quoted t, .code ");", .code ['\n']] := by
    simp [quoted, Dialect.Unquoted]
  have htokens : Dialect.php.tokens? (Program.render [] [setter "setBody" [quoted t]]) =
      some (codeTokens "$request->setBody(" ++
        .literal '\'' (Dialect.php.escape t) :: codeTokens ");\n") := by
    rw [← Program.render_flat, hflat]
    exact tokens?_render Dialect.unquoted_nil hplain.fits
  simp only [readBody?, hindent, htokens, Option.bind_eq_bind, Option.bind_some, behind?_append,
    if_true, Dialect.decode?_escape]

namespace Json

end Json

namespace Node

variable {contentType : Option Text} {text : Text} {trim : Bool}

theorem render_rawBody_of_some {v : Json}
    (hv : rawJson? contentType (text.trimmed trim) = some v) (indent : Text) :
    (rawBody trim contentType text).render indent =
      "JSON.stringify(" ++ (v.fragment .indented false 0).render indent ++ ")" := by
  simp only [rawBody, hv, call, List.cons_append]
  rw [render_cons, render_append, Json.render_code, List.append_assoc]
  rfl

theorem render_rawBody_of_none (hv : rawJson? contentType (text.trimmed trim) = none)
    (indent : Text) :
    (rawBody trim contentType text).render indent = Json.quote true (text.trimmed trim) := by
  simp only [rawBody, hv]
  exact List.append_nil _

end Node

section

attribute [local instance] Host.usual

end

end HttpSnippet

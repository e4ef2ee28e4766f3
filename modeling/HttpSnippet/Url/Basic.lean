import HttpSnippet.Text.Basic

/-!
# URLs

A URL in its parts. Host and path are lists of segments, so that variables can be bound in each of
them; a port is a text because it may be a variable itself.
-/
namespace HttpSnippet

/-- A member of the query. Without a value only its key is written. -/
structure QueryParam where
  key : Text
  value : Option Text := none
  disabled : Bool := false
deriving DecidableEq, Repr

def QueryParam.text (p : QueryParam) : Text :=
  match p.value with
  | none => p.key
  | some v => p.key ++ '=' :: v

/-- A name with the value that takes its place in host and path. -/
structure UrlVariable where
  key : Text
  value : Text := []
deriving DecidableEq, Repr

structure Url where
  protocol : Option Text := none
  host : List Text := []
  port : Option Text := none
  path : List Text := []
  query : List QueryParam := []
  pathVariables : List UrlVariable := []
  hash : Option Text := none
deriving DecidableEq, Repr

namespace Url

/-- A part that is written only if it is there and not empty. -/
def optionalPart (lead : Text) : Option Text → Text
  | none | some [] => []
  | some t => lead ++ t

def hostText (u : Url) : Text := Text.join "." u.host

def pathText (u : Url) : Text := '/' :: Text.join "/" u.path

/-- The enabled members of the query. -/
def enabledQuery (u : Url) : List QueryParam := u.query.filter (!·.disabled)

def queryText (u : Url) : Text := Text.join "&" (u.enabledQuery.map (·.text))

/-- A question mark and the query, or nothing if the query is empty. -/
def queryPart (u : Url) : Text := optionalPart "?" (some u.queryText)

def pathAndQuery (u : Url) : Text := u.pathText ++ u.queryPart

/-- The whole URL. Parts that are absent or empty leave no mark. -/
def text (u : Url) : Text :=
  (match u.protocol with
    | none | some [] => []
    | some p => p ++ "://") ++
  u.hostText ++
  optionalPart ":" u.port ++
  (if u.path.isEmpty then [] else u.pathText) ++
  u.queryPart ++
  optionalPart "#" u.hash

end Url
end HttpSnippet

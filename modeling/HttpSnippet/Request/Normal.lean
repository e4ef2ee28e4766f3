import HttpSnippet.Request.Header
import HttpSnippet.Text.Base64
import HttpSnippet.Text.Utf8
import HttpSnippet.Url.Variables

/-!
# Normal requests

Before a request is written its URL variables are put in place, its credentials become a header or
a query parameter, every file member of a form carries one path, and a content type that the body
implies is added. What the caller set by itself always stays.
-/
namespace HttpSnippet

/-- What credentials put into a request. -/
inductive Credential where
  | header (key value : Text)
  | query (key value : Text)
deriving DecidableEq, Repr

namespace Auth

/-- The value of the header for basic credentials. -/
def basicValue (a : Auth) : Text :=
  "Basic " ++ Text.Base64.encode (Text.Utf8.encode (a.username ++ ':' :: a.password))

/-- An API key without a name stands for nothing. -/
def credential? (a : Auth) : Option Credential :=
  match a.kind with
  | .noauth => none
  | .basic => some (.header "Authorization" a.basicValue)
  | .bearer => some (.header "Authorization" ("Bearer " ++ a.token))
  | .apikey =>
    if a.key.isEmpty then none
    else if a.location = ("query" : Text) then some (.query a.key a.value)
    else some (.header a.key a.value)

end Auth

namespace Request

/-- Whether a request has what a credential would put into it: an enabled header of the name, or a
query parameter of the key, be it enabled or not. -/
def carries (r : Request) : Credential → Bool
  | .header key _ => r.hasHeader key
  | .query key _ => r.url.query.any (·.key = key)

def addCredential (r : Request) : Credential → Request
  | .header key value => r.addHeader key value
  | .query key value =>
    { r with url := { r.url with query := r.url.query ++ [{ key, value := some value }] } }

def applyAuth (r : Request) : Request :=
  match r.auth.bind (·.credential?) with
  | none => r
  | some c => if r.carries c then r else r.addCredential c

end Request

/-- The members that a member stands for: a file member with a list of paths one for each, and any
other file member without a path one with the placeholder. -/
def FormParam.expand (p : FormParam) : List FormParam :=
  match p.kind, p.src with
  | .text, _ => [p]
  | .file, .str _ => [p]
  | .file, .list (v :: vs) => (v :: vs).map fun v => { p with src := v }
  | .file, _ => [{ p with src := .str placeholderPath }]

/-- The body with one path in each file member, if it is sent in parts. -/
def Body.expandFormdata (b : Body) : Body :=
  if b.mode = BodyMode.formdata.name then
    { b with formdata := b.formdata.map fun params => params.flatMap (·.expand) }
  else b

/-- The content type that a body implies by its mode. -/
def Body.impliedType? (b : Body) : Option Text :=
  match BodyMode.ofName? b.mode with
  | some .file => some "text/plain"
  | some .graphql => some "application/json"
  | _ => none

namespace Request

/-- The content type to be added. -/
def missingType? (r : Request) : Option Text :=
  if r.hasHeader "Content-Type" then none else r.body.bind (·.impliedType?)

def addContentType (r : Request) : Request :=
  match r.missingType? with
  | some t => r.addHeader "Content-Type" t
  | none => r

def resolveUrl (r : Request) : Request := { r with url := r.url.resolve }

def expandBody (r : Request) : Request := { r with body := r.body.map (·.expandFormdata) }

def normalize (r : Request) : Request := r.resolveUrl.applyAuth.expandBody.addContentType

end Request
end HttpSnippet

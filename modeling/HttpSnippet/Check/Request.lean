import HttpSnippet.Check.Url
import HttpSnippet.Json.Printer
import HttpSnippet.Request.Basic
import HttpSnippet.Text.Case

/-!
# Reading requests from loose values

A request may be written in the layout of this library or in that of an exported collection, with
`header` for the headers, headers as a mapping, the URL as one text or with its text under `raw`,
and credentials as a list of parameters under the name of their kind.
-/
namespace HttpSnippet

namespace Value

def ofOption : Option Text → Value
  | none => .null
  | some t => .str t

def texts (ts : List Text) : Value := .list (ts.map .str)

def ofQueryParam (p : QueryParam) : Value :=
  .map [(.str "key", .str p.key), (.str "value", ofOption p.value),
    (.str "disabled", .bool p.disabled)]

/-- The fields of a URL text, as a URL mapping has them. -/
def urlFields (u : Url) : Fields := [
  (.str "protocol", ofOption u.protocol), (.str "host", texts u.host),
  (.str "port", ofOption u.port), (.str "path", texts u.path),
  (.str "query", .list (u.query.map ofQueryParam)), (.str "hash", ofOption u.hash)]

end Value

namespace Fields

def erase (fields : Fields) (name : Text) : Fields :=
  fields.filter fun (k, _) => !k.sameKey (.str name)

/-- The first fields with those of the second in place of theirs. -/
def overlay (below above : Fields) : Fields :=
  above.foldl (fun fields (k, v) => Value.insertEntry k v fields) below

/-- Moves a field to another name that is not in use. -/
def renamed (fields : Fields) (old new : Text) : Fields :=
  match fields.get? old with
  | some v => if fields.has new then fields else fields.erase old ++ [(.str new, v)]
  | none => fields

end Fields

namespace Reading

def header : Reading Header := mapping "Header" fun fields =>
  Header.mk <$> fields.required "key" string
    <*> fields.optional "value" [] string
    <*> fields.optional "disabled" false bool

/-- Credentials with the parameters that are listed under the name of their kind as fields. -/
def authLayout (fields : Fields) : Except Fault Fields :=
  let kind := fields.get? "type"
  let listName := kind.getD (.str [])
  if !listName.isKey then .error .wrongKind
  else
    match Value.find? listName fields with
    | some (.list params) =>
      if kind.isNone then .error .noKey
      else
        let others := fields.filter fun (k, _) => !k.sameKey listName
        params.foldlM (fun fields param =>
          match param with
          | .map entries =>
            match Fields.get? entries "key" with
            | some key =>
              if key.isKey then
                .ok (Value.insertEntry key ((Fields.get? entries "value").getD (.str [])) fields)
              else .error .wrongKind
            | none => .ok fields
          | _ => .ok fields) others
    | _ => .ok fields

def auth : Reading Auth := mapping "Auth" fun fields =>
  (Checked.ofExcept (authLayout fields)).bind fun fields =>
    Auth.mk <$> fields.optional "type" .noauth (oneOf AuthKind.all AuthKind.name)
      <*> fields.optional "username" [] string
      <*> fields.optional "password" [] string
      <*> fields.optional "token" [] string
      <*> fields.optional "key" [] string
      <*> fields.optional "value" [] string
      <*> fields.optionalAs ["in", "location"] "header" string

def urlencodedParam : Reading UrlencodedParam := mapping "UrlencodedParam" fun fields =>
  UrlencodedParam.mk <$> fields.required "key" string
    <*> fields.optional "value" [] string
    <*> fields.optional "disabled" false bool

def formParam : Reading FormParam := mapping "FormParam" fun fields =>
  FormParam.mk <$> fields.required "key" string
    <*> fields.optional "type" .text (oneOf FormKind.all FormKind.name)
    <*> fields.optional "value" [] string
    <*> fields.optional "src" .null .valid
    <*> fields.optional "disabled" false bool
    <*> fields.optionalAs ["contentType", "content_type"] none (nullable string)

def fileSource : Reading FileSource := mapping "FileSource" fun fields =>
  FileSource.mk <$> fields.optional "src" none (nullable string)

/-- Variables are JSON text; given as data they are written as such. -/
def graphqlVariables [Host] : Reading Text
  | .null => .valid []
  | v@(.list _) | v@(.map _) | v@(.again _) =>
    match v.toJson (Host.room .givenVariables) with
    | .ok json => .valid (json.write .spaced true)
    | .error .noForm => .broken .wrongKind
    | .error .tooDeep => .broken (.tooDeep .writing)
    | .error .numeralTooLong => .issue .unwritableInteger
    | .error .endless => .issue .endlessData
  | v => string v

def graphqlPayload [Host] : Reading GraphqlPayload := mapping "GraphQLPayload" fun fields =>
  GraphqlPayload.mk <$> fields.optional "query" [] string
    <*> fields.optional "variables" [] graphqlVariables

def body [Host] : Reading Body := mapping "Body" fun fields =>
  Body.mk <$> fields.required "mode" string
    <*> fields.optional "raw" none (nullable string)
    <*> fields.optional "urlencoded" none (nullable (list urlencodedParam))
    <*> fields.optional "formdata" none (nullable (list formParam))
    <*> fields.optional "file" none (nullable fileSource)
    <*> fields.optional "graphql" none (nullable graphqlPayload)

/-- Headers given as a mapping, as a list of headers. -/
def headersLayout : Value → Value
  | .map entries => .list (entries.map fun (k, v) => .map [(.str "key", k), (.str "value", v)])
  | v => v

/-- The fields of a URL in the library's own layout. A text under `raw` stands for the parts that it
has, unless the URL has a host; parts that are given by themselves win. -/
def urlLayout (fields : Fields) : Except Fault Fields :=
  let fields := fields.renamed "variable" "variables"
  match fields.get? "raw" with
  | none => .ok fields
  | some raw =>
    if fields.has "host" then .ok fields
    else
      match raw with
      | .str t => .ok ((Value.urlFields (Url.ofText t)).overlay (fields.erase "raw"))
      | .octets _ => .error .wrongKind
      | _ => .error .noText

/-- The URL field of a request, its layout recognised but not yet checked. -/
inductive UrlSource where
  | text (t : Text)
  | other (v : Value)

def urlSource : Value → Except Fault UrlSource
  | .str t => .ok (.text t)
  | .map fields => return .other (.map (← urlLayout fields))
  | v => .ok (.other v)

def urlOfSource : UrlSource → Checked Url
  | .text t => .valid (Url.ofText t)
  | .other v => url v

/-- Methods are written in upper case; one that is given as octets stays as it is. -/
def method : Reading Text
  | .str t => .valid t.toUpper
  | v => string v

def requestFields [Host] (fields : Fields) : Checked Request :=
  let fields := fields.renamed "header" "headers"
  let headers := (fields.get? "headers").map headersLayout
  -- layouts are recognised before anything is checked
  (Checked.ofExcept ((fields.get? "url").mapM urlSource)).bind fun source =>
    Request.mk <$> fields.optional "method" "GET" method
      <*> (match source with
        | some source => (urlOfSource source).under (.field "url")
        | none => .valid {})
      <*> (match headers with
        | some v => (list header v).under (.field "headers")
        | none => .valid [])
      <*> fields.optional "body" none (nullable body)
      <*> fields.optional "auth" none (nullable auth)

def request [Host] : Reading Request := mapping "Request" requestFields

end Reading
end HttpSnippet

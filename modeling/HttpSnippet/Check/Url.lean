import HttpSnippet.Check.Scalar
import HttpSnippet.Url.Reader

/-!
# Reading URLs from loose values

Host and path may be given as one text or as a list of segments, and a port as a number.
-/
namespace HttpSnippet.Reading

def queryParam : Reading QueryParam := mapping "QueryParam" fun fields =>
  QueryParam.mk <$> fields.required "key" string
    <*> fields.optional "value" none (nullable string)
    <*> fields.optional "disabled" false bool

def urlVariable : Reading UrlVariable := mapping "UrlVariable" fun fields =>
  UrlVariable.mk <$> fields.required "key" string <*> fields.optional "value" [] string

def host : Reading (List Text)
  | .str t => .valid (Url.hostSegments t)
  | v => list string v

def path : Reading (List Text)
  | .str t => .valid (Url.pathSegments t)
  | v => list string v

/-- A port is a text; an empty one is no port. -/
def port : Reading (Option Text)
  | .int n => if Value.writable n then .valid (some (Text.ofInt n)) else .issue .unwritableInteger
  | .str [] => .valid none
  | v => nullable string v

def urlFields (fields : Fields) : Checked Url :=
  Url.mk <$> fields.optional "protocol" none (nullable string)
    <*> fields.optional "host" [] host
    <*> fields.optional "port" none port
    <*> fields.optional "path" [] path
    <*> fields.optional "query" [] (list queryParam)
    <*> fields.optional "variables" [] (list urlVariable)
    <*> fields.optional "hash" none (nullable string)

def url : Reading Url := mapping "Url" urlFields

end HttpSnippet.Reading

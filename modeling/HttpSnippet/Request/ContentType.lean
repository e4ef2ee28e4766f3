import HttpSnippet.Text.Blank
import HttpSnippet.Text.Pattern

/-!
# JSON content types

A content type is JSON if, without its parameters and without regard to case, it is
`application/json` or any other `application/` type with the suffix `+json`.
-/
namespace HttpSnippet.ContentType

/-- The suffix belongs to a name on one line. -/
def jsonPattern : Pattern :=
  .followed (.letters "application/")
    (.followed (.optional (.followed .line (.letters "+"))) (.followed (.letters "json") .finish))

/-- The media type of a content type: what stands in front of its parameters. -/
def mediaType (contentType : Text) : Text := Text.strip (contentType.takeWhile (· ≠ ';'))

def isJson (contentType : Text) : Bool := jsonPattern.accepts (mediaType contentType)

end HttpSnippet.ContentType

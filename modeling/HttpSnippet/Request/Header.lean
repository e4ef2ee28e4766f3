import HttpSnippet.Request.Basic
import HttpSnippet.Text.Case

/-!
# Headers of a request

Header names are compared without regard to case, and only enabled headers count.
-/
namespace HttpSnippet.Request

def enabledHeaders (r : Request) : List Header := r.headers.filter (!·.disabled)

/-- The value of the first enabled header of a name. -/
def header? (r : Request) (name : Text) : Option Text :=
  (r.enabledHeaders.find? (·.key.toLower = name.toLower)).map (·.value)

def hasHeader (r : Request) (name : Text) : Bool := (r.header? name).isSome

/-- The request with one more header at the end. -/
def addHeader (r : Request) (key value : Text) : Request :=
  { r with headers := r.headers ++ [{ key, value }] }

end HttpSnippet.Request

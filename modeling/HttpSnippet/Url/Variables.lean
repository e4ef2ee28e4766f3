import HttpSnippet.Url.Basic
import HttpSnippet.Text.Blank

/-!
# URL variables

A bound variable replaces the path segment `:name` as a whole and the placeholder of its name
anywhere in a host or path segment. All replacements happen at once: a value is not searched for
placeholders again. Names without a value stay as written.
-/
namespace HttpSnippet.Url

/-- The value of a name; of several bindings the last one counts. -/
def lookup (bound : List UrlVariable) (name : Text) : Option Text :=
  (bound.reverse.find? (·.key = name)).map (·.value)

def isBrace (c : Char) : Bool := c = '\x7b' || c = '\x7d'

/-- The name between two opening and two closing braces that a text starts with. -/
def placeholder? : Text → Option Text
  | '\x7b' :: '\x7b' :: t =>
    match t.takeWhile (!isBrace ·), t.dropWhile (!isBrace ·) with
    | [], _ => none
    | name, '\x7d' :: '\x7d' :: _ => some name
    | _, _ => none
  | _ => none

/-- Replaces the placeholders of bound names behind the first `skip` characters, which belong to a
placeholder that was dealt with. A name may have white space around it. -/
def substituteFrom (bound : Text → Option Text) : (skip : Nat) → Text → Text
  | _, [] => []
  | skip + 1, _ :: t => substituteFrom bound skip t
  | 0, c :: t =>
    match placeholder? (c :: t) with
    | some name =>
      let size := name.length + 4
      (bound name.strip).getD ((c :: t).take size) ++ substituteFrom bound (size - 1) t
    | none => c :: substituteFrom bound 0 t

def substitute (bound : List UrlVariable) (t : Text) : Text :=
  substituteFrom (lookup bound) 0 t

/-- The name that a path segment stands for as a whole. -/
def segmentName? : Text → Option Text
  | ':' :: name => some name
  | _ => none

def resolvePathSegment (bound : List UrlVariable) (segment : Text) : Text :=
  ((segmentName? segment).bind (lookup bound)).getD (substitute bound segment)

/-- The URL with its variables in place. The bindings stay. -/
def resolve (u : Url) : Url :=
  if u.pathVariables.isEmpty then u
  else
    { u with
      host := u.host.map (substitute u.pathVariables)
      path := u.path.map (resolvePathSegment u.pathVariables) }

end HttpSnippet.Url

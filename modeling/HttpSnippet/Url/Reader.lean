import HttpSnippet.Url.Basic
import HttpSnippet.Text.Blank

/-!
# Reading URLs

A URL text is taken apart the way a request editor does it: nothing is decoded or checked,
placeholders stay as they are, and the scheme may be missing. The parts are cut off in a fixed
order: scheme, hash, query, path, user information, port.
-/
namespace HttpSnippet.Url

/-- The segments of a host written with dots. -/
def hostSegments (t : Text) : List Text := if t.isEmpty then [] else t.splitOn '.'

/-- The segments of a path. Slashes in front of the path count for nothing. -/
def pathSegments (t : Text) : List Text :=
  match t.dropWhile (· = '/') with
  | [] => []
  | path => Text.splitOn '/' path

/-- Cuts off what follows the first occurrence of a separator. -/
def cutAfter (sep : Text) (t : Text) : Text × Option Text :=
  match t.cut? sep with
  | some (before, after) => (before, some after)
  | none => (t, none)

/-- The host and the port of an authority. A text after the last colon is a port unless it is
empty or ends in the bracket of an address. -/
def splitPort (authority : Text) : Text × Option Text :=
  match authority.cutLast? ':' with
  | some (host, port) =>
    if port.isEmpty || port.contains ']' then (authority, none) else (host, some port)
  | none => (authority, none)

def readQueryParam (t : Text) : QueryParam :=
  let (key, value) := cutAfter "=" t
  { key, value }

def readQuery (t : Text) : List QueryParam :=
  if t.isEmpty then [] else (t.splitOn '&').map readQueryParam

def ofText (raw : Text) : Url :=
  let rest := raw.strip
  let (protocol, rest) := match rest.cut? "://" with
    | some (protocol, rest) => (some protocol, rest)
    | none => (none, rest)
  let (rest, hash) := cutAfter "#" rest
  let (rest, query) := cutAfter "?" rest
  let (authority, path) := cutAfter "/" rest
  let authority := match authority.cutLast? '@' with
    | some (_, address) => address
    | none => authority
  let (host, port) := splitPort authority
  { protocol
    host := hostSegments host
    port
    path := pathSegments (path.getD [])
    query := readQuery (query.getD [])
    hash }

end HttpSnippet.Url

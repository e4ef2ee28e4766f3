import HttpSnippet.Options.Basic
import HttpSnippet.Request.Header
import HttpSnippet.Number.Integer
import HttpSnippet.Json.Reader

/-!
# Targets

What the targets have in common: their names, the boundary between the parts of a form, and the
reasons for which no snippet can be written.
-/
namespace HttpSnippet

inductive Target where
  | node
  | php
deriving DecidableEq, Repr

namespace Target

/-- The targets in the order of their ids. -/
def all : List Target := [.node, .php]

def id : Target → Text
  | .node => "nodejs-native"
  | .php => "php-httprequest2"

def label : Target → Text
  | .node => "NodeJS-Native-Converter"
  | .php => "PHP-HttpRequest2-Converter"

def ofId? (t : Text) : Option Target := all.find? (·.id = t)

/-- What is said about an id that no target has. -/
def unknownMessage (id : Text) : Text :=
  "Unknown target '" ++ id ++ "'. Available: " ++ Text.join ", " (all.map (·.id))

end Target

/-- The boundary between the parts of a form, unless another one is asked for. It is fixed, so that
equal requests give equal snippets. -/
def defaultBoundary : Text := "----WebKitFormBoundary7MA4YWxkTrZu0gW"

/-- Why a program cannot be written. -/
inductive WriteError where
  /-- The body has a mode that is none of the known ones. -/
  | unknownMode (mode : Text)
  /-- The port is made of digits and still no number. -/
  | unreadablePort (port : Text) (fault : Number.IntegerFault)
  /-- An integer has too many digits to be written. -/
  | numeralTooLong
  /-- The timeout lies beyond the range of floating-point numbers. -/
  | timeoutTooLong
  /-- The indentation of one level is too long for a text. -/
  | indentTooLong (fault : IndentFault)
  /-- There is no room to enter a collection. -/
  | tooDeep (descent : Descent)
  /-- The text of the credentials has no encoding. -/
  | unencodable (t : Text)
deriving DecidableEq, Repr

/-- The name of a file without the directories before it. -/
def fileName (path : Text) : Text :=
  (path.reverse.takeWhile fun c => !(c = '/' || c = '\\')).reverse

/-- The path of a file member: its source if that is a text, and the placeholder otherwise. -/
def FormParam.path (p : FormParam) : Text :=
  match p.src with
  | .str t => t
  | _ => placeholderPath

/-- The path of a file body; a missing or empty one gives way to the placeholder. -/
def filePath (src : Option Text) : Text :=
  match src with
  | none | some [] => placeholderPath
  | some t => t

/-- A part that is there and not empty. -/
def nonempty? : Option Text → Option Text
  | some [] => none
  | t => t

theorem eq_of_nonempty? {part : Option Text} {t : Text} (h : nonempty? part = some t) :
    part = some t := by
  unfold nonempty? at h
  split at h
  · cases h
  · exact h

/-- The JSON value that a text stands for, if it is JSON. -/
def jsonOf? (t : Text) : Option Json := (Json.read t).toOption

/-- Refuses a text in which the reading of JSON runs out of room. -/
def checkReading [Host] (site : Site) (t : Text) : Except WriteError Unit :=
  match Json.readWithin (Host.room site) t with
  | .error (.tooDeep descent) => .error (.tooDeep descent)
  | _ => .ok ()

/-- Refuses a value that there is no room to write. -/
def checkWriting [Host] (site : Site) (descent : Descent) (v : Json) : Except WriteError Unit :=
  if v.depth ≤ Host.room site then .ok () else .error (.tooDeep descent)

end HttpSnippet

import HttpSnippet.Url.Basic
import HttpSnippet.Value.Basic

/-!
# Requests

One HTTP request as a snippet is to reproduce it. Disabled headers, parameters and members are kept
and never sent.
-/
namespace HttpSnippet

structure Header where
  key : Text
  value : Text := []
  disabled : Bool := false
deriving DecidableEq, Repr

inductive AuthKind where
  | noauth
  | basic
  | bearer
  | apikey
deriving DecidableEq, Repr

/-- Credentials of a request. Which of the texts are read depends on the kind. -/
structure Auth where
  kind : AuthKind := .noauth
  username : Text := []
  password : Text := []
  token : Text := []
  key : Text := []
  value : Text := []
  location : Text := "header"
deriving DecidableEq, Repr

/-- A member of a form that is sent like a query. -/
structure UrlencodedParam where
  key : Text
  value : Text := []
  disabled : Bool := false
deriving DecidableEq, Repr

inductive FormKind where
  | text
  | file
deriving DecidableEq, Repr

/-- A member of a form that is sent in parts. The source of a file is one path or a list of paths;
what else stands there is kept unchecked. -/
structure FormParam where
  key : Text
  kind : FormKind := .text
  value : Text := []
  src : Value := .null
  disabled : Bool := false
  contentType : Option Text := none
deriving Repr, BEq

structure FileSource where
  src : Option Text := none
deriving DecidableEq, Repr

/-- A GraphQL document with its variables as JSON text. -/
structure GraphqlPayload where
  query : Text := []
  variablesText : Text := []
deriving DecidableEq, Repr

inductive BodyMode where
  | raw
  | urlencoded
  | formdata
  | file
  | graphql
deriving DecidableEq, Repr

/-- A body with a payload for each mode that it was given. The mode may be none of the known ones:
that is for a conversion to find out. -/
structure Body where
  mode : Text
  raw : Option Text := none
  urlencoded : Option (List UrlencodedParam) := none
  formdata : Option (List FormParam) := none
  file : Option FileSource := none
  graphql : Option GraphqlPayload := none
deriving Repr, BEq

structure Request where
  method : Text := "GET"
  url : Url := {}
  headers : List Header := []
  body : Option Body := none
  auth : Option Auth := none
deriving Repr, BEq

/-- The path that stands in for a missing one. -/
def placeholderPath : Text := "/path/to/file"

namespace AuthKind

def all : List AuthKind := [.noauth, .basic, .bearer, .apikey]

def name : AuthKind → Text
  | .noauth => "noauth"
  | .basic => "basic"
  | .bearer => "bearer"
  | .apikey => "apikey"

end AuthKind

namespace FormKind

def all : List FormKind := [.text, .file]

def name : FormKind → Text
  | .text => "text"
  | .file => "file"

end FormKind

namespace BodyMode

def all : List BodyMode := [.raw, .urlencoded, .formdata, .file, .graphql]

def name : BodyMode → Text
  | .raw => "raw"
  | .urlencoded => "urlencoded"
  | .formdata => "formdata"
  | .file => "file"
  | .graphql => "graphql"

/-- The mode of a name. -/
def ofName? (t : Text) : Option BodyMode := all.find? (·.name = t)

theorem name_of_ofName? {t : Text} {mode : BodyMode} (h : ofName? t = some mode) :
    mode.name = t := by
  have hname := List.find?_some h
  simpa using hname

end BodyMode

/-- What a body carries for its mode. -/
inductive Payload where
  | raw (t : Text)
  | urlencoded (params : List UrlencodedParam)
  | formdata (params : List FormParam)
  | file (source : FileSource)
  | graphql (payload : GraphqlPayload)
deriving Repr, BEq

namespace Body

/-- The payload of the body's mode, if the mode is known and the payload is there. -/
def payload? (b : Body) : Option Payload :=
  match BodyMode.ofName? b.mode with
  | none => none
  | some .raw => b.raw.map .raw
  | some .urlencoded => b.urlencoded.map .urlencoded
  | some .formdata => b.formdata.map .formdata
  | some .file => b.file.map .file
  | some .graphql => b.graphql.map .graphql

/-- The payload of a mode; one that is not there counts as empty. -/
def payloadFor (b : Body) : BodyMode → Payload
  | .raw => .raw (b.raw.getD [])
  | .urlencoded => .urlencoded (b.urlencoded.getD [])
  | .formdata => .formdata (b.formdata.getD [])
  | .file => .file (b.file.getD {})
  | .graphql => .graphql (b.graphql.getD {})

end Body

/-- A text or a list without anything in it. -/
def Payload.isEmpty : Payload → Bool
  | .raw t => t.isEmpty
  | .urlencoded params => params.isEmpty
  | .formdata params => params.isEmpty
  | .file _ | .graphql _ => false

/-- The payload that is to be sent, if there is one. -/
def Body.content? (b : Body) : Option Payload := b.payload?.filter (!·.isEmpty)

def Body.isEmpty (b : Body) : Bool := b.content?.isNone

end HttpSnippet

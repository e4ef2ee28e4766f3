import HttpSnippet.Target.Basic
import HttpSnippet.Json.Printer
import HttpSnippet.Options.Basic
import HttpSnippet.Snippet.Program

/-!
# PHP programs

A program for the `HTTP_Request2` package: one statement for each part of the request, then the
request is sent. Timeouts are whole seconds there, so milliseconds are rounded up.
-/
namespace HttpSnippet.Php

/-- A single-quoted literal. -/
def quoted (t : Text) : Piece := .literal .php t

/-- A call of a method of the request, as a line of its own. -/
def setter (method : Text) (arguments : Fragment) : Line :=
  ⟨0, .code ("$request->" ++ method ++ "(") :: arguments ++ ");"⟩

/-- An array with one entry a line. -/
def array (entries : List Fragment) : Fragment :=
  [.code "array(", .newline 1] ++ Fragment.commaLines 1 entries ++ [.newline 0, .code ")"]

def arrow (key : Text) (value : Fragment) : Fragment := quoted key :: .code " => " :: value

/-- The call with an array of entries, if there are any. -/
def arraySetter (method : Text) (entries : List Fragment) : Program :=
  if entries.isEmpty then [] else [setter method (array entries)]

/-! ### Bodies -/

def rawBody (trim : Bool) (t : Text) : Program := [setter "setBody" [quoted (t.trimmed trim)]]

/-- An entry for each enabled member. A key that returns takes its last value. -/
def urlencodedBody (trim : Bool) (params : List UrlencodedParam) : Program :=
  arraySetter "addPostParameter" ((params.filter (!·.disabled)).map fun p =>
    arrow (p.key.trimmed trim) [quoted (p.value.trimmed trim)])

/-- The upload of a file member. -/
def upload (trim : Bool) (p : FormParam) : Line :=
  let arguments := [p.key.trimmed trim, p.path, fileName p.path] ++ (nonempty? p.contentType).toList
  setter "addUpload" (Fragment.join ", " (arguments.map fun t => [quoted t]))

/-- The text members in one array, and an upload for each file member. -/
def formdataBody (trim : Bool) (params : List FormParam) : Program :=
  let enabled := params.filter (!·.disabled)
  let texts := enabled.filter (·.kind = .text)
  let files := enabled.filter (·.kind = .file)
  arraySetter "addPostParameter"
    (texts.map fun p => arrow (p.key.trimmed trim) [quoted (p.value.trimmed trim)]) ++
    files.map (upload trim)

/-- What a GraphQL body sends. Variables that are no JSON count as an empty object. -/
def graphqlJson (trim : Bool) (payload : GraphqlPayload) : Json :=
  .obj [("query", .str (payload.query.trimmed trim)),
    ("variables", (jsonOf? payload.variablesText).getD (.obj []))]

def graphqlBody (trim : Bool) (payload : GraphqlPayload) : Program :=
  [setter "setBody" [quoted ((graphqlJson trim payload).write .compact false)]]

/-- The second argument marks the body as the name of a file to read. -/
def fileBody (src : Option Text) : Program :=
  [setter "setBody" [quoted (filePath src), .code ", true"]]

/-- The statements for a payload. -/
def payloadLines (trim : Bool) : Payload → Program
  | .raw t => rawBody trim t
  | .urlencoded params => urlencodedBody trim params
  | .formdata params => formdataBody trim params
  | .file source => fileBody source.src
  | .graphql payload => graphqlBody trim payload

/-- Refuses a payload with JSON that there is no room to read, or to write again. -/
def checkPayload [Host] (trim : Bool) : Payload → Except WriteError Unit
  | .graphql payload => do
    checkReading .variablesReading payload.variablesText
    checkWriting .variablesWriting .writing (graphqlJson trim payload)
  | .raw _ | .urlencoded _ | .formdata _ | .file _ => .ok ()

/-- The statements for a payload, if there is room for its JSON. -/
def writePayload [Host] (trim : Bool) (payload : Payload) : Except WriteError Program := do
  checkPayload trim payload
  return payloadLines trim payload

/-- Refuses a request if its payload is refused. -/
def checkBody [Host] (o : Options) (r : Request) : Except WriteError Unit :=
  (r.body.bind (·.content?)).forM (checkPayload o.trimBody)

/-- The statements for what is sent. -/
def bodyLines (o : Options) (r : Request) : Program :=
  ((r.body.bind (·.content?)).map (payloadLines o.trimBody)).getD []

/-! ### Statements -/

/-- The methods that the package has a constant for. -/
def knownMethods : List Text :=
  ["OPTIONS", "GET", "HEAD", "POST", "PUT", "DELETE", "TRACE", "CONNECT"]

def methodLine (r : Request) : Line :=
  if knownMethods.contains r.method then
    setter "setMethod" [.code ("HTTP_Request2::METHOD_" ++ r.method)]
  else setter "setMethod" [quoted r.method]

def urlLine (r : Request) : Line := setter "setUrl" [quoted r.url.text]

def headerLines (r : Request) : Program :=
  arraySetter "setHeader" (r.enabledHeaders.map fun h => arrow h.key [quoted h.value])

/-- Milliseconds as seconds: the quotient as a floating-point number, rounded up. -/
def seconds? (timeout : Nat) : Option Nat :=
  match Binary64.ofRatio false timeout 1000 with
  | .finite _ m q => some (Binary64.ceilNat m q)
  | _ => none

/-- The entry for a timeout, unless there is none. -/
def timeoutEntries (timeout : Nat) : Except WriteError (List Fragment) :=
  if timeout = 0 then .ok []
  else
    match seconds? timeout with
    | some s => .ok [arrow "timeout" [.code (Text.ofNat s)]]
    | none => .error .timeoutTooLong

def configLines (o : Options) : Except WriteError Program := do
  let timeout ← timeoutEntries o.requestTimeout
  let redirect : List Fragment := if o.followRedirect then [arrow "redirect" "TRUE"] else []
  return arraySetter "setConfig" (timeout ++ redirect)

/-- The lines that send the request and show the response. -/
def sendLines : Program := [
  ⟨0, "try \x7b"⟩,
  ⟨1, "$response = $request->send();"⟩,
  ⟨1, "if ($response->getStatus() == 200) \x7b"⟩,
  ⟨2, "echo $response->getBody();"⟩,
  ⟨1, "\x7d"⟩,
  ⟨1, "else \x7b"⟩,
  ⟨2, [.code "echo ", quoted "Unexpected HTTP status: ", .code " . $response->getStatus() . ",
    quoted " ", .code " ."]⟩,
  ⟨3, "$response->getReasonPhrase();"⟩,
  ⟨1, "\x7d"⟩,
  ⟨0, "\x7d"⟩,
  ⟨0, "catch(HTTP_Request2_Exception $e) \x7b"⟩,
  ⟨1, [.code "echo ", quoted "Error: ", .code " . $e->getMessage();"]⟩,
  ⟨0, "\x7d"⟩]

/-- The lines of a program: the request with its address and method, its configuration and headers,
the lines for the body, and those that send it. -/
def layout (o : Options) (url method : Line) (headers sending : Program) :
    Except WriteError Program := do
  let config ← configLines o
  return [⟨0, "<?php"⟩, ⟨0, [.code "require_once ", quoted "HTTP/Request2.php", .code ";"]⟩,
      ⟨0, "$request = new HTTP_Request2();"⟩, url, method] ++
    config ++ headers ++ sending ++ sendLines

/-- The program for a request as it is. -/
def program [Host] (o : Options) (r : Request) : Except WriteError Program := do
  checkBody o r
  layout o (urlLine r) (methodLine r) (headerLines r) (bodyLines o r)

end HttpSnippet.Php

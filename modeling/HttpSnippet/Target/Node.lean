import HttpSnippet.Target.Basic
import HttpSnippet.Json.Printer
import HttpSnippet.Options.Basic
import HttpSnippet.Request.ContentType
import HttpSnippet.Snippet.Grouping
import HttpSnippet.Snippet.Program

/-!
# Node.js programs

A program for the native `http` and `https` modules: an options object, a handler that collects and
prints the response, the body, and a timeout. To follow redirects it takes the modules from the
`follow-redirects` package.
-/
namespace HttpSnippet.Node

/-- A single-quoted literal. -/
def quoted (t : Text) : Piece := .literal .javascript t

/-- The name of a property with its value. -/
def property (name : Text) (value : Fragment) : Fragment := quoted name :: .code ": " :: value

/-- One value as it is, several as an array on one line. -/
def oneOrArray (values : List Text) : Fragment :=
  match values with
  | [v] => [quoted v]
  | vs => .code "[" :: Fragment.join ", " (vs.map fun v => [quoted v]) ++ "]"

def call (function : Text) (arguments : Fragment) : Fragment :=
  .code (function ++ "(") :: arguments ++ ")"

/-! ### Bodies -/

/-- The value of a text whose content type is JSON, if it has one. -/
def rawJson? (contentType : Option Text) (t : Text) : Option Json :=
  if contentType.any ContentType.isJson then jsonOf? t else none

/-- Text whose content type is JSON becomes the value it stands for; any other text a string. -/
def rawBody (trim : Bool) (contentType : Option Text) (t : Text) : Fragment :=
  let t := t.trimmed trim
  match rawJson? contentType t with
  | some v => call "JSON.stringify" (v.fragment .indented false 0)
  | none => [.string true t]

/-- The keys and values that are sent. -/
def urlencodedPairs (trim : Bool) (params : List UrlencodedParam) : List (Text × Text) :=
  (params.filter (!·.disabled)).map fun p => (p.key.trimmed trim, p.value.trimmed trim)

/-- A list of pairs. -/
def pairList (pairs : List (Text × Text)) : Fragment :=
  let entries := pairs.map fun (k, v) => [.code "[", quoted k, .code ", ", quoted v, .code "]"]
  [.code "new URLSearchParams([", .newline 1] ++ Fragment.commaLines 1 entries ++
    [.newline 0, .code "]).toString()"]

/-- The entries of an object, each with the values of its key. -/
def groupEntries (groups : List (Text × List Text)) : List Fragment :=
  groups.map fun (k, vs) => property k (oneOrArray vs)

/-- An object with the values of each key. -/
def groupObject (groups : List (Text × List Text)) : Fragment :=
  -- an object without entries still has an indented line of its own, which is empty
  let opened : Fragment := match groups with
    | [] => [.newline 0]
    | _ => .newline 1 :: Fragment.commaLines 1 (groupEntries groups)
  .code "qs.stringify(\x7b" :: opened ++ [.newline 0, .code "\x7d)"]

/-- An object that groups the values of a key, or a list of pairs where grouping would change
their order. -/
def urlencodedBody (trim : Bool) (params : List UrlencodedParam) : Fragment :=
  let pairs := urlencodedPairs trim params
  if interleavesKeys (pairs.map (·.1)) then pairList pairs else groupObject (groupByKey pairs)

/-- A piece of a form's payload: text, or the contents of a file. -/
inductive Chunk where
  | text (t : Text)
  | file (path : Text)
deriving DecidableEq, Repr

/-- Puts text in front of chunks, joined with text that stands there. -/
def prependText (t : Text) : List Chunk → List Chunk
  | .text u :: rest => .text (t ++ u) :: rest
  | chunks => .text t :: chunks

def partHeader (boundary key : Text) : Text :=
  "--" ++ boundary ++ "\r\nContent-Disposition: form-data; name=\"" ++ key ++ "\""

def typeHeader (contentType : Text) : Text := "Content-Type: " ++ contentType ++ "\r\n"

/-- The parts of the enabled members and the closing delimiter. -/
def formChunks (trim : Bool) (boundary : Text) : List FormParam → List Chunk
  | [] => [.text ("--" ++ boundary ++ "--")]
  | p :: ps =>
    let rest := formChunks trim boundary ps
    let header := partHeader boundary (p.key.trimmed trim)
    if p.disabled then rest
    else
      match p.kind with
      | .file =>
        let contentType := (nonempty? p.contentType).getD "application/octet-stream"
        let name := "; filename=\"" ++ fileName p.path ++ "\"\r\n"
        prependText (header ++ name ++ typeHeader contentType ++ "\r\n")
          (.file p.path :: prependText "\r\n" rest)
      | .text =>
        let typeLine := ((nonempty? p.contentType).map typeHeader).getD []
        prependText (header ++ "\r\n" ++ typeLine ++ "\r\n" ++ p.value.trimmed trim ++ "\r\n") rest

def readFile (path : Text) : Fragment := call "fs.readFileSync" [quoted path]

def Chunk.fragment : Chunk → Fragment
  | .text t => [.string true t]
  | .file path => readFile path

/-- The chunks as one expression. -/
def concatenation (chunks : List Chunk) : Fragment :=
  Fragment.join " + " (chunks.map (·.fragment))

def formdataBody (trim : Bool) (boundary : Text) (params : List FormParam) : Fragment :=
  concatenation (formChunks trim boundary params)

/-- The value of the variables; text that is no JSON counts as an empty object. -/
def graphqlVariables (payload : GraphqlPayload) : Json :=
  (jsonOf? payload.variablesText).getD (.obj [])

def graphqlObject (query : Text) (vars : Json) : Fragment :=
  [.code "JSON.stringify(\x7b", .newline 1, .code "query: ", .string false query, .code ",",
    .newline 1, .code "variables: "] ++ vars.fragment .spaced false 0 ++
    [.newline 0, .code "\x7d)"]

def graphqlBody (trim : Bool) (payload : GraphqlPayload) : Fragment :=
  graphqlObject (payload.query.trimmed trim) (graphqlVariables payload)

def fileBody (src : Option Text) : Fragment := readFile (filePath src)

/-- The expression for a payload. The content type is that of the request. -/
def payloadBody (boundary : Text) (trim : Bool) (contentType : Option Text) : Payload → Fragment
  | .raw t => rawBody trim contentType t
  | .urlencoded params => urlencodedBody trim params
  | .formdata params => formdataBody trim boundary params
  | .file source => fileBody source.src
  | .graphql payload => graphqlBody trim payload

/-- Refuses a payload with JSON that there is no room to read, or to write again. -/
def checkPayload [Host] (trim : Bool) (contentType : Option Text) : Payload → Except WriteError Unit
  | .raw t =>
    let t := t.trimmed trim
    if contentType.any ContentType.isJson then do
      checkReading .rawReading t
      (jsonOf? t).forM (checkWriting .rawWriting .layingOut)
    else .ok ()
  | .graphql payload => do
    checkReading .variablesReading payload.variablesText
    checkWriting .variablesWriting .writing (graphqlVariables payload)
  | .urlencoded _ | .formdata _ | .file _ => .ok ()

/-- The expression for a payload, if there is room for its JSON. -/
def writePayload [Host] (boundary : Text) (trim : Bool) (contentType : Option Text)
    (payload : Payload) : Except WriteError Fragment := do
  checkPayload trim contentType payload
  return payloadBody boundary trim contentType payload

/-- Refuses a request if its payload is refused. -/
def checkBody [Host] (o : Options) (r : Request) : Except WriteError Unit :=
  (r.body.bind (·.content?)).forM (checkPayload o.trimBody (r.header? "Content-Type"))

/-- The expression for what is sent, if anything is. -/
def body? (boundary : Text) (o : Options) (r : Request) : Option Fragment :=
  (r.body.bind (·.content?)).map (payloadBody boundary o.trimBody (r.header? "Content-Type"))

/-! ### Entries of the options object -/

def methodEntry (r : Request) : Fragment := property "method" [quoted r.method]

def hostEntry (r : Request) : Fragment := property "hostname" [quoted r.url.hostText]

/-- A port made of digits is written as a number and any other as a string. -/
def portEntry (r : Request) : Except WriteError Fragment :=
  let port := r.url.port.getD []
  if Text.allDigits port then
    match Number.readInteger port with
    | .ok n => .ok (property "port" [.code (Text.ofInt n)])
    | .error fault => .error (.unreadablePort port fault)
  else .ok (property "port" [quoted port])

def pathEntry (r : Request) : Fragment := property "path" [quoted r.url.pathAndQuery]

/-- The enabled headers by name; names count without white space around them. -/
def headerGroups (r : Request) : List (Text × List Text) :=
  groupByKey (r.enabledHeaders.map fun h => (h.key.strip, h.value))

/-- The property that holds the headers, each with its values. -/
def headersObject (groups : List (Text × List Text)) : Fragment :=
  let content : Fragment := match groups with
    | [] => []
    | _ => .newline 2 :: Fragment.commaLines 2 (groupEntries groups)
  property "headers" (.code "\x7b" :: content ++ [.newline 1, .code "\x7d"])

def headersEntry (r : Request) : Fragment := headersObject (headerGroups r)

/-! ### The program -/

def maxRedirects : Nat := 20

def clientModule (r : Request) : Text :=
  if (r.url.protocol.getD []).toLower = ("http" : Text) then "http" else "https"

def requireLine (name package : Text) (member : Text) : Line :=
  ⟨0, .code ("const " ++ name ++ " = ") :: call "require" [quoted package] ++
    [.code (member ++ ";")]⟩

def clientLine (client : Text) (followRedirect : Bool) : Line :=
  if followRedirect then requireLine client "follow-redirects" ('.' :: client)
  else requireLine client client []

/-- The entry for a port that is there and not empty. -/
def portEntries (r : Request) : Except WriteError (List Fragment) :=
  if (nonempty? r.url.port).isSome then (portEntry r).map ([·]) else .ok []

def optionEntries (o : Options) (r : Request) : Except WriteError (List Fragment) := do
  let port ← portEntries r
  let redirects : List Fragment :=
    if o.followRedirect then [property "maxRedirects" [.code (Text.ofNat maxRedirects)]] else []
  return [methodEntry r, hostEntry r] ++ port ++ [pathEntry r, headersEntry r] ++ redirects

/-- A handler on the response, from its opening line to its closing one. -/
def handler (event parameter : Text) (statements : List Text) : Program :=
  ⟨1, [.code "res.on(", .string true event, .code (", function (" ++ parameter ++ ") \x7b")]⟩ ::
    statements.map (fun s => ⟨2, [.code s]⟩) ++ [⟨1, "\x7d);"⟩]

def requestLines (client : Text) : Program :=
  [⟨0, [.code ("const req = " ++ client ++ ".request(options, function (res) \x7b")]⟩,
    ⟨1, "const chunks = [];"⟩, .blank] ++
  handler "data" "chunk" ["chunks.push(chunk);"] ++ [.blank] ++
  handler "end" "chunk"
    ["const body = Buffer.concat(chunks);", "console.log(body.toString());"] ++ [.blank] ++
  handler "error" "error" ["console.error(error);"] ++
  [⟨0, "\x7d);"⟩, .blank]

/-- The lines that send a body. A client adds the length by itself only for methods that usually
have a body, so for a deletion it is set. -/
def bodyLines (boundary : Text) (isDelete isForm : Bool) (body : Fragment) : Program :=
  [⟨0, .code "const postData = " :: body ++ ";"⟩, .blank] ++
  Program.when isDelete
    [⟨0, [.code "req.setHeader(", quoted "Content-Length",
      .code ", Buffer.byteLength(postData));"]⟩, .blank] ++
  Program.when isForm
    [⟨0, [.code "req.setHeader(", quoted "content-type", .code ", ",
      .verbatim ("multipart/form-data; boundary=" ++ boundary), .code ");"]⟩, .blank] ++
  [⟨0, "req.write(postData);"⟩, .blank]

def timeoutLines (timeout : Nat) : Program :=
  [⟨0, [.code ("req.setTimeout(" ++ Text.ofNat timeout ++ ", function () \x7b")]⟩,
    ⟨1, "req.destroy();"⟩, ⟨0, "\x7d);"⟩, .blank]

/-- The lines of a program: the modules, the options object, the request, the lines that send the
body, and the timeout. -/
def layout (o : Options) (client : Text) (usesQuerystring : Bool) (entries : List Fragment)
    (sending : Program) : Program :=
  [clientLine client o.followRedirect, requireLine "fs" "fs" []] ++
    Program.when usesQuerystring [requireLine "qs" "querystring" []] ++
    [.blank, ⟨0, "const options = \x7b"⟩, ⟨1, Fragment.commaLines 1 entries⟩, ⟨0, "\x7d;"⟩,
      .blank] ++
    requestLines client ++ sending ++
    Program.when (o.requestTimeout ≠ 0) (timeoutLines o.requestTimeout) ++
    [⟨0, "req.end();"⟩]

/-- Refuses an integer with more digits than can be written. -/
def checkNumeral (n : Nat) : Except WriteError Unit :=
  if Value.writable n then .ok () else .error .numeralTooLong

/-- The program for a request as it is. -/
def program [Host] (boundary : Text) (o : Options) (r : Request) : Except WriteError Program := do
  checkBody o r
  let body := body? boundary o r
  let entries ← optionEntries o r
  checkNumeral o.requestTimeout
  let usesQuerystring := body.any fun f => ("qs." : Text).isPrefixOf (f.render [])
  let isForm := r.body.any (·.mode = BodyMode.formdata.name)
  -- whether there is something to write is seen from the text alone
  let written := body.filter fun f => !(f.render []).isEmpty
  return layout o (clientModule r) usesQuerystring entries
    ((written.map (bodyLines boundary (r.method = ("DELETE" : Text)) isForm)).getD [])

end HttpSnippet.Node

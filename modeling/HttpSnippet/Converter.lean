import HttpSnippet.Check.Request
import HttpSnippet.Options.Merge
import HttpSnippet.Request.Normal
import HttpSnippet.Target.Node
import HttpSnippet.Target.Php

/-!
# Conversion of requests

A converter turns a request into a program for its target. A request is checked first, then its body
mode, then the options are merged; only then is it brought into normal form and written.
-/
namespace HttpSnippet

/-- A target, with the boundary for forms that are sent in parts. -/
structure Converter where
  target : Target
  boundary : Text := defaultBoundary
deriving DecidableEq, Repr

inductive ConversionError where
  /-- The request has issues. -/
  | request (issues : List Issue)
  /-- The merged options have issues. -/
  | options (issues : List Issue)
  /-- The data has a layout that cannot be recognised. -/
  | broken (fault : Fault)
  | write (error : WriteError)
  /-- There is nothing to hand the snippet to. -/
  | noCallback (label : Text)
deriving DecidableEq, Repr

namespace ConversionError

/-- The headline over a list of issues. -/
def issueCount (issues : List Issue) (model : Text) : Text :=
  Text.ofNat issues.length ++
    (if issues.length = 1 then " validation error for " else " validation errors for ") ++ model

end ConversionError

/-- What is said about a text that is no integer in a base. -/
def Number.IntegerFault.message (t : Text) (base : Nat) : Number.IntegerFault → Text
  -- a long text is cut off
  | .malformed =>
    "invalid literal for int() with base " ++ Text.ofNat base ++ ": " ++ t.display.take 200
  | .tooLong digits =>
    "Exceeds the limit (4300 digits) for integer string conversion: value has " ++
      Text.ofNat digits ++
      " digits; use sys.set_int_max_str_digits() to increase the limit"

def WriteError.message : WriteError → Text
  | .unknownMode mode => "invalid body mode: " ++ mode.display
  | .unreadablePort port fault => fault.message port 10
  | .numeralTooLong =>
    "Exceeds the limit (4300 digits) for integer string conversion; " ++
      "use sys.set_int_max_str_digits() to increase the limit"
  | .timeoutTooLong => "integer division result too large for a float"
  | .indentTooLong .uncountable => "cannot fit 'int' into an index-sized integer"
  | .indentTooLong .noRoom => "there is no room for the indentation"
  | .tooDeep descent => descent.message
  | .unencodable t => Text.Utf8.encodeMessage t

def ConversionError.message : ConversionError → Text
  | .request issues => "Invalid request: " ++ issueCount issues "Request"
  | .options issues => issueCount issues "CodegenOptions"
  | .broken fault => fault.message
  | .write error => error.message
  | .noCallback label => label ++ ": callback is not a function"

/-- Refuses a body with a mode that is none of the known ones. -/
def checkMode (body : Option Body) : Except WriteError Unit :=
  match body with
  | none => .ok ()
  | some b => if (BodyMode.ofName? b.mode).isSome then .ok () else .error (.unknownMode b.mode)

/-- The request that a loose value describes. -/
def parseRequest [Host] (v : Value) : Except ConversionError Request :=
  match Reading.request v with
  | .valid r => .ok r
  | .invalid issues => .error (.request issues)
  | .broken fault => .error (.broken fault)

/-- A request that can be converted, as far as its body mode goes. -/
def prepareRequest [Host] (v : Value) : Except ConversionError Request := do
  let r ← parseRequest v
  (checkMode r.body).mapError .write
  return r

def mergeOptions (v : Value) : Except ConversionError Options :=
  match Options.merge v commonSpecs with
  | .valid o => .ok o
  | .invalid issues => .error (.options issues)
  | .broken fault => .error (.broken fault)

namespace Converter

/-- The lines of the program for a request in normal form. -/
def program [Host] (c : Converter) (o : Options) (r : Request) : Except WriteError Program :=
  match c.target with
  | .node => Node.program c.boundary o r
  | .php => Php.program o r

/-- The indentation that the options ask for. -/
def indentOf [Host] (o : Options) : Except WriteError Text :=
  o.indentation.mapError .indentTooLong

/-- The text that sends a payload. The content type is that of the request. -/
def payloadText (c : Converter) (o : Options) (r : Request) (indent : Text) (payload : Payload) :
    Text :=
  match c.target with
  | .node =>
    (Node.payloadBody c.boundary o.trimBody (r.header? "Content-Type") payload).render indent
  | .php => (Php.payloadLines o.trimBody payload).render indent

/-- Refuses a payload with JSON that there is no room to read, or to write again. -/
def checkPayload [Host] (c : Converter) (o : Options) (r : Request) (payload : Payload) :
    Except WriteError Unit :=
  match c.target with
  | .node => Node.checkPayload o.trimBody (r.header? "Content-Type") payload
  | .php => Php.checkPayload o.trimBody payload

/-- The text that sends the body of a request as it is. The mode is looked at only if there is
something to send. -/
def bodyText [Host] (c : Converter) (o : Options) (r : Request) : Except WriteError Text :=
  match r.body with
  | none => .ok []
  | some b =>
    if b.isEmpty then .ok []
    else do
      let indent ← indentOf o
      match BodyMode.ofName? b.mode with
      | some mode =>
        c.checkPayload o r (b.payloadFor mode)
        return c.payloadText o r indent (b.payloadFor mode)
      | none => throw (.unknownMode b.mode)

/-- The program text for a request in normal form. -/
def assemble [Host] (c : Converter) (o : Options) (r : Request) : Except WriteError Text := do
  let indent ← indentOf o
  return (← c.program o r).render indent

/-- Refuses a request with a form member whose source there is no room to copy. A member counts even
where it is disabled. -/
def checkCopy [Host] (r : Request) : Except WriteError Unit :=
  let params := (r.body.bind (·.formdata)).getD []
  if params.all (·.src.depth ≤ Host.room .copy) then .ok () else .error (.tooDeep .copying)

/-- Refuses basic credentials that have no encoding, where they are needed for a header. -/
def checkCredentials [Host] (r : Request) : Except WriteError Unit :=
  match r.auth with
  | none => .ok ()
  | some a =>
    let t := a.username ++ ':' :: a.password
    if a.kind = .basic && !r.hasHeader "Authorization" && Host.isUnencodable t then
      .error (.unencodable t)
    else .ok ()

/-- The program text for a request. The request is copied to be brought into normal form. -/
def snippet [Host] (c : Converter) (o : Options) (r : Request) : Except WriteError Text := do
  checkCopy r
  checkCredentials r
  c.assemble o r.normalize

/-- The program text for a checked request under a caller's options. -/
def generateFor [Host] (c : Converter) (r : Request) (options : Value) :
    Except ConversionError Text := do
  (checkMode r.body).mapError .write
  let o ← mergeOptions options
  (c.snippet o r).mapError .write

/-- The program text for a described request under a caller's options. -/
def generate [Host] (c : Converter) (request options : Value) : Except ConversionError Text := do
  c.generateFor (← parseRequest request) options

end Converter

/-- What a caller calls back: a function of an error and of the snippet, either of which may be
missing. -/
abbrev Callback (α : Type) := Option ConversionError → Option Text → α

/-- What a caller hands over: data, or a function to be called back. -/
inductive Argument (α : Type) where
  | data (v : Value)
  | callback (f : Callback α)

namespace Argument

/-- A callback that looks at the snippet only. -/
def function {α : Type} (f : Text → α) : Argument α :=
  .callback fun _ snippet => f (snippet.getD [])

/-- The callback, and what is left for the options: where no callback was handed over, it may stand
in the place of the options. -/
def callee? {α : Type} : (options callback : Argument α) → Option (Callback α × Argument α)
  | options, .callback f => some (f, options)
  | .callback f, .data .null => some (f, .data .null)
  | _, .data _ => none

end Argument

/-- A request as a caller hands it over: described by a loose value, or checked before. -/
inductive RequestArgument where
  | described (v : Value)
  | checked (r : Request)

instance : Coe Value RequestArgument := ⟨.described⟩

/-- The request that is meant; what was checked before is passed through. -/
def RequestArgument.parse [Host] : RequestArgument → Except ConversionError Request
  | .described v => parseRequest v
  | .checked r => .ok r

namespace Converter

/-- The program text for a request, with whatever stands in the place of the options. A function has
no options to look up, which shows after the checks of the request. -/
def generateWith [Host] {α : Type} (c : Converter) (request : RequestArgument)
    (options : Argument α) :
    Except ConversionError Text := do
  let r ← request.parse
  match options with
  | .data v => c.generateFor r v
  | .callback _ =>
    (checkMode r.body).mapError .write
    throw (.broken .wrongKind)

/-- Converts a request and hands the snippet to the callback, which is looked for before anything
else. -/
def convert [Host] {α : Type} (c : Converter) (request : RequestArgument)
    (options callback : Argument α) : Except ConversionError α :=
  match Argument.callee? options callback with
  | some (f, options) => return f none (some (← c.generateWith request options))
  | none => .error (.noCallback c.target.label)

end Converter
end HttpSnippet

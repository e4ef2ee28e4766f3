import HttpSnippet.Converter

/-!
# Notices

What a conversion can tell about itself: the target, options that were not taken over, steps of
normalization, a body that is no JSON, a rounded timeout. Notices follow from the data alone; a
conversion does not depend on them.
-/
namespace HttpSnippet

inductive Notice where
  | selected (target : Target)
  | option (notice : Options.Notice)
  | generating (target : Target) (method url : Text)
  | expanded (before after : Nat)
  | addedType (contentType mode : Text)
  | rawNoJson
  | rounded (timeout seconds : Nat)
  | written (p : Text)
deriving Repr

namespace Notice

/-- The level and the part of the program that a notice comes from. -/
def source : Notice → Text
  | .selected _ => "DEBUG request_codegen.registry"
  | .option _ => "DEBUG request_codegen.sanitize"
  | .generating _ _ _ => "DEBUG request_codegen.target"
  | .expanded _ _ | .addedType _ _ => "DEBUG request_codegen.normalize"
  | .rawNoJson => "DEBUG request_codegen.nodejs_native"
  | .rounded _ _ => "DEBUG request_codegen.php_httprequest2"
  | .written _ => "INFO request_codegen.cli"

def message : Notice → Text
  | .selected target => "Selected target " ++ target.id
  | .option notice => notice.message
  | .generating target method url =>
    "Generating " ++ target.id ++ " snippet for " ++ method ++ " " ++ url
  | .expanded before after =>
    "Expanded " ++ Text.ofNat before ++ " formdata members into " ++ Text.ofNat after
  | .addedType contentType mode =>
    "Injecting Content-Type: " ++ contentType ++ " for " ++ mode ++ " body"
  | .rawNoJson => "Raw body declared as JSON does not parse; emitting it as a string"
  | .rounded timeout seconds =>
    "Rounding timeout " ++ Text.ofNat timeout ++ "ms up to " ++ Text.ofNat seconds ++ "s"
  | .written p => "Snippet written to " ++ p

def line (n : Notice) : Text := n.source ++ ": " ++ n.message

end Notice

/-- Form members that become more or fewer in the normal request. -/
def Request.expansionNotices (r : Request) : List Notice :=
  let count (r : Request) : Nat := ((r.body.bind (·.formdata)).getD []).length
  let before := count r
  let after := count r.expandBody
  if before = after then [] else [.expanded before after]

/-- A content type that is added to the normal request. -/
def Request.typeNotices (r : Request) : List Notice :=
  match r.body, r.resolveUrl.applyAuth.missingType? with
  | some b, some t => [.addedType t b.mode]
  | _, _ => []

/-- What the writing of a program for a normal request has to tell. -/
def Target.notices (target : Target) (o : Options) (r : Request) : List Notice :=
  match target with
  | .node =>
    match r.body.bind (·.content?) with
    | some (.raw t) =>
      let declared := (r.header? "Content-Type").any ContentType.isJson
      if declared && (jsonOf? (t.trimmed o.trimBody)).isNone then [.rawNoJson] else []
    | _ => []
  | .php =>
    match Php.seconds? o.requestTimeout with
    | some s => if o.requestTimeout % 1000 = 0 then [] else [.rounded o.requestTimeout s]
    | none => []

/-- What a conversion that succeeds has to tell, in order. -/
def Converter.notices (c : Converter) (r : Request) (options : Value) : List Notice :=
  match mergeOptions options with
  | .error _ => []
  | .ok o =>
    (Options.notices options commonSpecs).map .option ++
      [.generating c.target r.method r.url.text] ++ r.expansionNotices ++ r.typeNotices ++
      c.target.notices o r.normalize

end HttpSnippet

import HttpSnippet.Proofs.Conversion
import HttpSnippet.Proofs.Source.Json
import HttpSnippet.Proofs.Source.Object

/-!
# User text in Node programs

A Node program is scanned by the rules for JavaScript literals. Every literal in it is closed, and
the text outside of the literals is computed from the options and the shape of the request: which
parts are there, how many, and the numbers that are written as code. The shape holds no text.
-/
namespace HttpSnippet.Node

open Fragment

/-- What a port shows outside of literals: its value, if it is written as a number. -/
inductive PortShape where
  | absent
  | number (n : Int)
  | text
deriving DecidableEq, Repr

/-- What a payload shows outside of literals. The members of a form that are text leave no mark
there, so their number is not part of it. -/
inductive BodyShape where
  /-- Raw text as the value it stands for, with its strings erased. -/
  | json (v : Json)
  /-- Any other raw text. -/
  | text
  /-- Pairs one by one, because a key returns after another one. -/
  | pairs (count : Nat)
  /-- Keys with the number of their values. -/
  | groups (counts : List Nat)
  /-- A form in parts, with the number of its files. -/
  | form (files : Nat)
  | file
  /-- Variables with their strings erased. -/
  | graphql (vars : Json)

/-- What a request shows outside of literals. A body without a payload shows nothing. -/
structure Shape where
  isHttp : Bool
  isDelete : Bool
  port : PortShape
  /-- The number of values of each header name. -/
  headerCounts : List Nat
  body : Option BodyShape

def portShape (port : Option Text) : PortShape :=
  match nonempty? port with
  | none => .absent
  | some t =>
    if Text.allDigits t then
      match Number.readInteger t with
      | .ok n => .number n
      | .error _ => .text
    else .text

/-- The number of enabled members that are files. -/
def fileCount (params : List FormParam) : Nat :=
  (params.filter (!·.disabled)).countP (·.kind = .file)

def payloadShape (trim : Bool) (contentType : Option Text) : Payload → BodyShape
  | .raw t =>
    match rawJson? contentType (t.trimmed trim) with
    | some v => .json v.erased
    | none => .text
  | .urlencoded params =>
    let pairs := urlencodedPairs trim params
    if interleavesKeys (pairs.map (·.1)) then .pairs pairs.length
    else .groups ((groupByKey pairs).map (·.2.length))
  | .formdata params => .form (fileCount params)
  | .file _ => .file
  | .graphql payload => .graphql (graphqlVariables payload).erased

def shape (trim : Bool) (r : Request) : Shape where
  isHttp := (r.url.protocol.getD []).toLower = ("http" : Text)
  isDelete := r.method = ("DELETE" : Text)
  port := portShape r.url.port
  headerCounts := (headerGroups r).map (·.2.length)
  body := (r.body.bind (·.content?)).map (payloadShape trim (r.header? "Content-Type"))

/-! ### The program of a shape -/

/-- Groups of so many empty texts. -/
def blankGroups (counts : List Nat) : List (Text × List Text) :=
  counts.map fun n => ([], List.replicate n [])

/-- Texts with so many files between them. -/
def blankChunks : Nat → List Chunk
  | 0 => [.text []]
  | files + 1 => .text [] :: .file [] :: blankChunks files

namespace BodyShape

/-- The expression for a payload of the shape without any text in it. -/
def fragment : BodyShape → Fragment
  | .json v => call "JSON.stringify" (v.fragment .indented false 0)
  | .text => [.string true []]
  | .pairs count => pairList (List.replicate count ([], []))
  | .groups counts => groupObject (blankGroups counts)
  | .form files => concatenation (blankChunks files)
  | .file => readFile []
  | .graphql vars => graphqlObject [] vars

def isForm : BodyShape → Bool
  | .form _ => true
  | _ => false

def usesQuerystring : BodyShape → Bool
  | .groups _ => true
  | _ => false

end BodyShape

namespace Shape

def client (s : Shape) : Text := if s.isHttp then "http" else "https"

def portEntries (s : Shape) : List Fragment :=
  match s.port with
  | .absent => []
  | .number n => [property "port" [.code (Text.ofInt n)]]
  | .text => [property "port" [quoted []]]

def entries (o : Options) (s : Shape) : List Fragment :=
  let redirects : List Fragment :=
    if o.followRedirect then [property "maxRedirects" [.code (Text.ofNat maxRedirects)]] else []
  [property "method" [quoted []], property "hostname" [quoted []]] ++ s.portEntries ++
    [property "path" [quoted []], headersObject (blankGroups s.headerCounts)] ++ redirects

end Shape

/-- What stands outside of the literals of a program, computed without any user text. -/
def outline (o : Options) (s : Shape) : Program :=
  let sending := s.body.map fun b => bodyLines [] s.isDelete b.isForm b.fragment
  (layout o s.client (s.body.any (·.usesQuerystring)) (s.entries o) (sending.getD [])).hollow

/-! ### Pieces of a program -/

@[simp] theorem hollow_quoted (t : Text) : (quoted t).hollow = quoted [] := rfl

@[simp] theorem fits_quoted (t : Text) : (quoted t).Fits .javascript := rfl

@[simp] theorem hollow_property (name : Text) (value : Fragment) :
    hollow (property name value) = property [] (hollow value) := rfl

@[simp] theorem fits_property {name : Text} {value : Fragment} :
    Fits .javascript (property name value) ↔ Fits .javascript value := by simp [property]

@[simp] theorem hollow_call (function : Text) (arguments : Fragment) :
    hollow (call function arguments) = call function (hollow arguments) := by
  simp [call, Piece.hollow]

theorem fits_call {function : Text} {arguments : Fragment}
    (hf : Dialect.javascript.Unquoted function) (ha : Fits .javascript arguments) :
    Fits .javascript (call function arguments) := by
  simp [call, hf, ha]

theorem hollow_oneOrArray (vs : List Text) :
    hollow (oneOrArray vs) = oneOrArray (List.replicate vs.length []) := by
  have hmap (vs : List Text) : (vs.map fun v => [quoted v]).map hollow =
      (List.replicate vs.length []).map fun v => [quoted v] := by
    simp [List.map_const', Function.comp_def]
  unfold oneOrArray
  match vs with
  | [] => simp [Piece.hollow]
  | [v] => simp
  | v :: w :: vs =>
    simp only [hollow_append, hollow_cons, hollow_join, hmap, List.cons_append]
    rfl

theorem hollow_groupEntries (groups : List (Text × List Text)) :
    (groupEntries groups).map hollow = groupEntries (blankGroups (groups.map (·.2.length))) := by
  simp [groupEntries, blankGroups, Function.comp_def, hollow_oneOrArray]

theorem hollow_pairList (pairs : List (Text × Text)) :
    hollow (pairList pairs) = pairList (List.replicate pairs.length ([], [])) := by
  have hentries : (pairs.map fun p =>
        ([.code "[", quoted p.1, .code ", ", quoted p.2, .code "]"] : Fragment)).map hollow =
      List.replicate pairs.length [.code "[", quoted [], .code ", ", quoted [], .code "]"] := by
    rw [List.map_map, ← List.map_const']
    rfl
  simp only [pairList, hollow_append, hollow_cons, hollow_commaLines, hentries,
    List.map_replicate]
  rfl

theorem blankGroups_cons (n : Nat) (counts : List Nat) :
    blankGroups (n :: counts) = ([], List.replicate n []) :: blankGroups counts := rfl

theorem counts_blankGroups (counts : List Nat) :
    (blankGroups counts).map (·.2.length) = counts := by
  simp [blankGroups, Function.comp_def]

theorem hollow_groupObject (groups : List (Text × List Text)) :
    hollow (groupObject groups) = groupObject (blankGroups (groups.map (·.2.length))) := by
  unfold groupObject
  match groups with
  | [] => rfl
  | g :: gs =>
    simp only [List.map_cons, blankGroups_cons, hollow_append, hollow_cons, hollow_commaLines,
      hollow_groupEntries]
    rfl

theorem hollow_headersObject (groups : List (Text × List Text)) :
    hollow (headersObject groups) =
      hollow (headersObject (blankGroups (groups.map (·.2.length)))) := by
  unfold headersObject
  match groups with
  | [] => rfl
  | g :: gs =>
    simp only [List.map_cons, blankGroups_cons, hollow_property, hollow_append, hollow_cons,
      hollow_commaLines, hollow_groupEntries, counts_blankGroups, List.length_replicate]

/-! ### Forms in parts -/

/-- A chunk without its text. -/
def Chunk.blank : Chunk → Chunk
  | .text _ => .text []
  | .file _ => .file []

theorem hollow_chunk (c : Chunk) : hollow c.fragment = c.blank.fragment := by
  cases c with
  | text t => rfl
  | file path => exact hollow_call _ _

theorem fits_readFile (path : Text) : Fits .javascript (readFile path) :=
  fits_call (by decide) (by simp)

theorem fits_chunk (c : Chunk) : Fits .javascript c.fragment := by
  cases c with
  | text t => simp [Chunk.fragment]
  | file path => exact fits_readFile path

theorem hollow_concatenation (chunks : List Chunk) :
    hollow (concatenation chunks) = concatenation (chunks.map Chunk.blank) := by
  simp [concatenation, Function.comp_def, hollow_chunk, Piece.hollow]

theorem fits_concatenation (chunks : List Chunk) : Fits .javascript (concatenation chunks) := by
  refine fits_join (by simp) ?_
  intro f hf
  obtain ⟨c, -, rfl⟩ := List.mem_map.mp hf
  exact fits_chunk c

theorem map_blank_prependText (t : Text) (chunks : List Chunk) :
    (prependText t chunks).map Chunk.blank = prependText [] (chunks.map Chunk.blank) := by
  cases chunks with
  | nil => rfl
  | cons c chunks => cases c <;> rfl

theorem prependText_blankChunks (files : Nat) :
    prependText [] (blankChunks files) = blankChunks files := by
  cases files <;> rfl

/-- Text members merge with the text around them, so only the files are left apart. -/
theorem map_blank_formChunks (trim : Bool) (boundary : Text) (params : List FormParam) :
    (formChunks trim boundary params).map Chunk.blank = blankChunks (fileCount params) := by
  induction params with
  | nil => rfl
  | cons p ps ih =>
    unfold formChunks
    cases hd : p.disabled with
    | true => simpa [fileCount, hd] using ih
    | false =>
      cases hk : p.kind with
      | file =>
        have hcount : fileCount (p :: ps) = fileCount ps + 1 := by simp [fileCount, hd, hk]
        simp only [Bool.false_eq_true, if_false, map_blank_prependText, List.map_cons, ih,
          prependText_blankChunks, hcount]
        rfl
      | text =>
        have hcount : fileCount (p :: ps) = fileCount ps := by simp [fileCount, hd, hk]
        simp only [Bool.false_eq_true, if_false, map_blank_prependText, ih,
          prependText_blankChunks, hcount]

/-! ### Payloads -/

theorem hollow_graphqlObject (query : Text) (vars : Json) :
    hollow (graphqlObject query vars) = graphqlObject [] vars.erased := by
  simp only [graphqlObject, hollow_append, hollow_cons, Json.hollow_fragment]
  rfl

theorem fits_graphqlObject (query : Text) (vars : Json) :
    Fits .javascript (graphqlObject query vars) := by
  simp only [graphqlObject, fits_append, fits_cons, fits_nil, Piece.fits_code,
    Piece.fits_newline, Piece.fits_string, Json.fits_fragment]
  decide

/-- Outside of its literals the expression for a payload is that of its shape. -/
theorem hollow_payloadBody (boundary : Text) (trim : Bool) (contentType : Option Text)
    (payload : Payload) :
    hollow (payloadBody boundary trim contentType payload) =
      (payloadShape trim contentType payload).fragment := by
  cases payload with
  | raw t =>
    simp only [payloadBody, rawBody, payloadShape]
    cases rawJson? contentType (t.trimmed trim) with
    | some v =>
      rw [hollow_call, Json.hollow_fragment]
      rfl
    | none => rfl
  | urlencoded params =>
    simp only [payloadBody, urlencodedBody, payloadShape]
    split
    · exact hollow_pairList _
    · exact hollow_groupObject _
  | formdata params =>
    simp only [payloadBody, formdataBody, payloadShape, hollow_concatenation,
      map_blank_formChunks]
    rfl
  | file source => exact hollow_call _ _
  | graphql payload => exact hollow_graphqlObject _ _

theorem fits_payloadBody (boundary : Text) (trim : Bool) (contentType : Option Text)
    (payload : Payload) : Fits .javascript (payloadBody boundary trim contentType payload) := by
  cases payload with
  | raw t =>
    simp only [payloadBody, rawBody]
    split
    · exact fits_call (by decide) (Json.fits_fragment _ _ _ _)
    · simp
  | urlencoded params =>
    simp only [payloadBody, urlencodedBody]
    split
    · exact (plain_pairList _).fits
    · exact (plain_groupObject _).fits
  | formdata params => exact fits_concatenation _
  | file source => exact fits_readFile _
  | graphql payload => exact fits_graphqlObject _ _

theorem prependText_eq_cons (t : Text) (chunks : List Chunk) :
    ∃ u rest, prependText t chunks = .text u :: rest := by
  cases chunks with
  | nil => exact ⟨_, _, rfl⟩
  | cons c chunks =>
    cases c with
    | text u => exact ⟨_, _, rfl⟩
    | file path => exact ⟨_, _, rfl⟩

/-- A form begins with text. -/
theorem formChunks_eq_cons (trim : Bool) (boundary : Text) (params : List FormParam) :
    ∃ t rest, formChunks trim boundary params = .text t :: rest := by
  induction params with
  | nil => exact ⟨_, _, rfl⟩
  | cons p ps ih =>
    simp only [formChunks]
    split
    · exact ih
    · split
      · exact prependText_eq_cons _ _
      · exact prependText_eq_cons _ _

theorem concatenation_cons (c : Chunk) (chunks : List Chunk) :
    ∃ f, concatenation (c :: chunks) = c.fragment ++ f := by
  cases chunks with
  | nil => exact ⟨[], by simp [concatenation, join]⟩
  | cons c' chunks =>
    refine ⟨" + " ++ concatenation (c' :: chunks), ?_⟩
    rw [concatenation, List.map_cons, List.map_cons, join_cons_cons, List.append_assoc]
    rfl

/-- The module for queries is asked for by the only expression that uses it. -/
theorem usesQuerystring_payloadBody (boundary : Text) (trim : Bool) (contentType : Option Text)
    (payload : Payload) :
    ("qs." : Text).isPrefixOf (render [] (payloadBody boundary trim contentType payload)) =
      (payloadShape trim contentType payload).usesQuerystring := by
  cases payload with
  | raw t =>
    simp only [payloadBody, rawBody, payloadShape]
    cases rawJson? contentType (t.trimmed trim) <;> rfl
  | urlencoded params =>
    simp only [payloadBody, urlencodedBody, payloadShape]
    split <;> rfl
  | formdata params =>
    obtain ⟨t, rest, ht⟩ := formChunks_eq_cons trim boundary params
    obtain ⟨f, hf⟩ := concatenation_cons (.text t) rest
    simp only [payloadBody, formdataBody, ht, hf]
    rfl
  | file source => rfl
  | graphql payload => rfl

theorem render_payloadBody_ne_nil (boundary : Text) (trim : Bool) (contentType : Option Text)
    (payload : Payload) : render [] (payloadBody boundary trim contentType payload) ≠ [] := by
  cases payload with
  | raw t =>
    simp only [payloadBody, rawBody]
    cases rawJson? contentType (t.trimmed trim) <;> exact List.cons_ne_nil _ _
  | urlencoded params =>
    simp only [payloadBody, urlencodedBody]
    split <;> exact List.cons_ne_nil _ _
  | formdata params =>
    obtain ⟨t, rest, ht⟩ := formChunks_eq_cons trim boundary params
    obtain ⟨f, hf⟩ := concatenation_cons (.text t) rest
    simp only [payloadBody, formdataBody, ht, hf]
    exact List.cons_ne_nil _ _
  | file source => exact List.cons_ne_nil _ _
  | graphql payload => exact List.cons_ne_nil _ _

/-- No expression is without text, so whatever is to be sent is written. -/
theorem filter_body? (boundary : Text) (o : Options) (r : Request) :
    (body? boundary o r).filter (fun f => !(render [] f).isEmpty) = body? boundary o r := by
  unfold body?
  cases r.body.bind (·.content?) with
  | none => rfl
  | some payload =>
    have htext := render_payloadBody_ne_nil boundary o.trimBody (r.header? "Content-Type") payload
    rw [Option.map_some, Option.filter_some, if_pos (by simpa using htext)]

/-- A payload that is sent in parts belongs to the mode of that name. -/
theorem isForm_payloadShape {b : Body} {payload : Payload} (h : b.content? = some payload)
    (trim : Bool) (contentType : Option Text) :
    (payloadShape trim contentType payload).isForm = decide (b.mode = BodyMode.formdata.name) := by
  obtain ⟨hp, -⟩ := Option.filter_eq_some_iff.mp h
  unfold Body.payload? at hp
  split at hp
  · cases hp
  · next hm =>
    obtain ⟨t, -, rfl⟩ := Option.map_eq_some_iff.mp hp
    rw [← BodyMode.name_of_ofName? hm]
    simp only [payloadShape]
    cases rawJson? contentType (t.trimmed trim) <;> rfl
  · next hm =>
    obtain ⟨params, -, rfl⟩ := Option.map_eq_some_iff.mp hp
    rw [← BodyMode.name_of_ofName? hm]
    simp only [payloadShape]
    split <;> rfl
  · next hm =>
    obtain ⟨params, -, rfl⟩ := Option.map_eq_some_iff.mp hp
    rw [← BodyMode.name_of_ofName? hm]
    rfl
  · next hm =>
    obtain ⟨source, -, rfl⟩ := Option.map_eq_some_iff.mp hp
    rw [← BodyMode.name_of_ofName? hm]
    rfl
  · next hm =>
    obtain ⟨payload, -, rfl⟩ := Option.map_eq_some_iff.mp hp
    rw [← BodyMode.name_of_ofName? hm]
    rfl

/-! ### Programs -/

theorem portEntry_of_ok {r : Request} {t : Text} {f : Fragment} (hp : nonempty? r.url.port = some t)
    (h : portEntry r = .ok f) (trim : Bool) :
    Fits .javascript f ∧ [hollow f] = (shape trim r).portEntries.map hollow := by
  have ht : r.url.port.getD [] = t := by rw [eq_of_nonempty? hp]; rfl
  unfold portEntry at h
  simp only [ht] at h
  simp only [Shape.portEntries, shape, portShape, hp]
  by_cases hd : Text.allDigits t = true
  · rw [if_pos hd] at h
    rw [if_pos hd]
    cases hn : Number.readInteger t with
    | ok n =>
      rw [hn] at h
      cases h
      exact ⟨fits_property.mpr (by simpa using Dialect.unquoted_ofInt n), rfl⟩
    | error fault =>
      rw [hn] at h
      cases h
  · rw [if_neg hd] at h
    rw [if_neg hd]
    cases h
    exact ⟨by simp, rfl⟩

theorem portEntries_of_ok {r : Request} {port : List Fragment} (h : portEntries r = .ok port)
    (trim : Bool) :
    (∀ f ∈ port, Fits .javascript f) ∧
      port.map hollow = (shape trim r).portEntries.map hollow := by
  unfold portEntries at h
  cases hp : nonempty? r.url.port with
  | none =>
    rw [hp] at h
    cases h
    simp [Shape.portEntries, shape, portShape, hp]
  | some t =>
    rw [hp] at h
    cases hf : portEntry r with
    | error e =>
      rw [hf] at h
      cases h
    | ok f =>
      rw [hf] at h
      cases h
      obtain ⟨hfits, hhollow⟩ := portEntry_of_ok hp hf trim
      exact ⟨by simpa using hfits, hhollow⟩

/-- The entries of the options object are those of the shape, apart from the texts in them. -/
theorem optionEntries_of_ok {o : Options} {r : Request} {entries : List Fragment}
    (h : optionEntries o r = .ok entries) (trim : Bool) :
    (∀ f ∈ entries, Fits .javascript f) ∧
      entries.map hollow = ((shape trim r).entries o).map hollow := by
  obtain ⟨port, hport, h⟩ := bind_eq_ok.mp h
  obtain ⟨hfits, hhollow⟩ := portEntries_of_ok hport trim
  cases h
  have hmax : Fits .javascript (property "maxRedirects" [.code (Text.ofNat maxRedirects)]) :=
    fits_property.mpr (by simpa using Dialect.unquoted_ofNat maxRedirects)
  constructor
  · intro f hf
    simp only [List.mem_append, List.mem_cons, List.not_mem_nil, or_false] at hf
    rcases hf with (((rfl | rfl) | hf) | rfl | rfl) | hf
    · simp [methodEntry]
    · simp [hostEntry]
    · exact hfits f hf
    · simp [pathEntry]
    · exact (plain_headersObject _).fits
    · split at hf
      · obtain rfl := List.mem_singleton.mp hf
        exact hmax
      · cases hf
  · simp only [Shape.entries, List.map_append, List.map_cons, List.map_nil, hhollow, headersEntry,
      hollow_headersObject (headerGroups r), methodEntry, hostEntry, pathEntry, hollow_property]
    rfl

theorem hollow_layout {o : Options} {client : Text} {usesQuerystring : Bool}
    {entries entries' : List Fragment} {sending sending' : Program}
    (he : entries.map hollow = entries'.map hollow) (hs : sending.hollow = sending'.hollow) :
    (layout o client usesQuerystring entries sending).hollow =
      (layout o client usesQuerystring entries' sending').hollow := by
  simp only [layout, Program.hollow_append, Program.hollow_cons, Line.hollow, hollow_commaLines,
    he, hs]

theorem hollow_bodyLines (boundary : Text) (isDelete isForm : Bool) (body : Fragment) :
    (bodyLines boundary isDelete isForm body).hollow =
      (bodyLines [] isDelete isForm (hollow body)).hollow := by
  simp only [bodyLines, Program.hollow_append, Program.hollow_cons, Program.hollow_when,
    Line.hollow, hollow_append, hollow_cons, hollow_hollow]
  rfl

theorem fits_requireLine {name package member : Text} (hn : Dialect.javascript.Unquoted name)
    (hm : Dialect.javascript.Unquoted member) :
    Fits .javascript (requireLine name package member).content := by
  have hcall : Fits .javascript (call "require" [quoted package]) :=
    fits_call (by decide) (by simp)
  simp only [requireLine, fits_append, fits_cons, fits_nil, Piece.fits_code,
    Dialect.unquoted_append, hn, hm, hcall]
  decide

theorem fits_clientLine {client : Text} (hc : Dialect.javascript.Unquoted client) (follow : Bool) :
    Fits .javascript (clientLine client follow).content := by
  cases follow with
  | true => exact fits_requireLine hc (Dialect.unquoted_cons.mpr ⟨rfl, hc⟩)
  | false => exact fits_requireLine hc Dialect.unquoted_nil

theorem fits_handler {event parameter : Text} {statements : List Text}
    (hp : Dialect.javascript.Unquoted parameter)
    (hs : ∀ s ∈ statements, Dialect.javascript.Unquoted s) :
    Program.Fits .javascript (handler event parameter statements) := by
  have hlines : Program.Fits .javascript (statements.map fun s => ⟨2, [.code s]⟩) := by
    intro l hl
    obtain ⟨s, hmem, rfl⟩ := List.mem_map.mp hl
    simpa using hs s hmem
  simp only [handler, List.cons_append, Program.fits_cons, Program.fits_append, Program.fits_nil,
    fits_cons, fits_nil, Piece.fits_code, Piece.fits_string, Dialect.unquoted_append, hp, hlines]
  decide

theorem fits_requestLines {client : Text} (hc : Dialect.javascript.Unquoted client) :
    Program.Fits .javascript (requestLines client) := by
  have hdata : Program.Fits .javascript (handler "data" "chunk" ["chunks.push(chunk);"]) :=
    fits_handler (by decide) (by decide)
  have hend : Program.Fits .javascript (handler "end" "chunk"
      ["const body = Buffer.concat(chunks);", "console.log(body.toString());"]) :=
    fits_handler (by decide) (by decide)
  have herror : Program.Fits .javascript (handler "error" "error" ["console.error(error);"]) :=
    fits_handler (by decide) (by decide)
  simp only [requestLines, Line.blank, List.cons_append, Program.fits_cons, Program.fits_append,
    Program.fits_nil, fits_cons, fits_nil, Piece.fits_code, Dialect.unquoted_append, hc, hdata,
    hend, herror]
  decide

theorem fits_timeoutLines (timeout : Nat) : Program.Fits .javascript (timeoutLines timeout) := by
  simp only [timeoutLines, Line.blank, Program.fits_cons, Program.fits_nil, fits_cons, fits_nil,
    Piece.fits_code, Dialect.unquoted_append, Dialect.unquoted_ofNat]
  decide

/-- The default boundary can stand in a literal as it is. -/
theorem keeps_defaultBoundary :
    Dialect.javascript.Keeps '\'' ("multipart/form-data; boundary=" ++ defaultBoundary) := by
  have hplain : (("multipart/form-data; boundary=" : Text) ++ defaultBoundary).all
      (fun c => !Dialect.javascript.bars c && c != '\\' && c != '\'') = true := by decide
  refine Dialect.keeps_of_forall fun c hc => ?_
  simpa [and_assoc] using List.all_eq_true.mp hplain c hc

theorem fits_bodyLines {boundary : Text} {body : Fragment} (hb : Fits .javascript body)
    (isDelete : Bool) {isForm : Bool} (hkeeps : isForm = true →
      Dialect.javascript.Keeps '\'' ("multipart/form-data; boundary=" ++ boundary)) :
    Program.Fits .javascript (bodyLines boundary isDelete isForm body) := by
  have hdelete : Program.Fits .javascript (Program.when isDelete
      [⟨0, [.code "req.setHeader(", quoted "Content-Length",
        .code ", Buffer.byteLength(postData));"]⟩, .blank]) := by
    refine Program.fits_when fun _ => ?_
    simp only [Line.blank, Program.fits_cons, Program.fits_nil, fits_cons, fits_nil,
      Piece.fits_code, fits_quoted]
    decide
  have hform : Program.Fits .javascript (Program.when isForm
      [⟨0, [.code "req.setHeader(", quoted "content-type", .code ", ",
        .verbatim ("multipart/form-data; boundary=" ++ boundary), .code ");"]⟩, .blank]) := by
    refine Program.fits_when fun hisForm => ?_
    simp only [Line.blank, Program.fits_cons, Program.fits_nil, fits_cons, fits_nil,
      Piece.fits_code, fits_quoted]
    exact ⟨⟨by decide, trivial, by decide, hkeeps hisForm, by decide, trivial⟩, trivial,
      trivial⟩
  have hsend : Program.Fits .javascript [⟨0, "req.write(postData);"⟩, .blank] := by
    simp only [Line.blank, Program.fits_cons, Program.fits_nil, fits_cons, fits_nil,
      Piece.fits_code]
    decide
  have hdata : Program.Fits .javascript
      [⟨0, .code "const postData = " :: body ++ ";"⟩, .blank] := by
    simp only [Line.blank, Program.fits_cons, Program.fits_nil, List.cons_append, fits_append,
      fits_cons, fits_nil, Piece.fits_code, hb]
    decide
  exact Program.fits_append.mpr
    ⟨Program.fits_append.mpr ⟨Program.fits_append.mpr ⟨hdata, hdelete⟩, hform⟩, hsend⟩

theorem fits_layout {o : Options} {client : Text} {usesQuerystring : Bool}
    {entries : List Fragment} {sending : Program} (hc : Dialect.javascript.Unquoted client)
    (he : ∀ f ∈ entries, Fits .javascript f) (hs : Program.Fits .javascript sending) :
    Program.Fits .javascript (layout o client usesQuerystring entries sending) := by
  have hquery : Program.Fits .javascript
      (Program.when usesQuerystring [requireLine "qs" "querystring" []]) :=
    Program.fits_when fun _ => by
      simpa using fits_requireLine (by decide) Dialect.unquoted_nil
  have htimeout : Program.Fits .javascript
      (Program.when (o.requestTimeout ≠ 0) (timeoutLines o.requestTimeout)) :=
    Program.fits_when fun _ => fits_timeoutLines o.requestTimeout
  have hfs : Fits .javascript (requireLine "fs" "fs" []).content :=
    fits_requireLine (by decide) Dialect.unquoted_nil
  simp only [layout, Line.blank, List.cons_append, List.nil_append, List.append_assoc,
    Program.fits_cons, Program.fits_append, Program.fits_nil, fits_cons, fits_nil,
    Piece.fits_code, fits_clientLine hc, hfs, hquery, fits_commaLines 1 he, fits_requestLines hc,
    hs,
    htimeout]
  decide

theorem client_shape (trim : Bool) (r : Request) : clientModule r = (shape trim r).client := by
  unfold clientModule Shape.client shape
  split <;> simp_all

theorem unquoted_clientModule (r : Request) : Dialect.javascript.Unquoted (clientModule r) := by
  unfold clientModule
  split <;> decide

/-- A program fits its dialect, and without its texts it is the outline of the request's shape. -/
theorem program_of_ok [Host] {o : Options} {r : Request} {p : Program}
    (h : program defaultBoundary o r = .ok p) :
    p.Fits .javascript ∧ p.hollow = outline o (shape o.trimBody r) := by
  unfold program at h
  simp only [filter_body?] at h
  obtain ⟨_, -, h⟩ := bind_eq_ok.mp h
  obtain ⟨entries, hentries, h⟩ := bind_eq_ok.mp h
  obtain ⟨u, -, h⟩ := bind_eq_ok.mp h
  obtain rfl := Except.ok.inj h
  obtain ⟨hfits, hhollow⟩ := optionEntries_of_ok hentries o.trimBody
  have hclient := unquoted_clientModule r
  rw [client_shape o.trimBody r] at hclient ⊢
  unfold body? outline
  have hbody : (shape o.trimBody r).body =
      (r.body.bind (·.content?)).map (payloadShape o.trimBody (r.header? "Content-Type")) := rfl
  cases hc : r.body.bind (·.content?) with
  | none =>
    rw [hbody, hc]
    exact ⟨fits_layout hclient hfits Program.fits_nil, hollow_layout hhollow rfl⟩
  | some payload =>
    obtain ⟨b, hb, hpayload⟩ := Option.bind_eq_some_iff.mp hc
    have hform := isForm_payloadShape hpayload o.trimBody (r.header? "Content-Type")
    rw [hbody, hc, hb]
    simp only [Option.map_some, Option.any_some, Option.getD_some, usesQuerystring_payloadBody,
      ← hform, ← hollow_payloadBody defaultBoundary]
    refine ⟨fits_layout hclient hfits (fits_bodyLines (fits_payloadBody _ _ _ _) _
      fun _ => keeps_defaultBoundary), ?_⟩
    exact hollow_layout hhollow (hollow_bodyLines _ _ _ _)

/-- Whatever the texts of a request are, they stay inside of literals: a scanner finds every
literal of the program closed, and what it finds outside of them depends on the options and the
shape of the request alone. -/
theorem generate_outside_literals [Host] {request options : Value} {s : Text}
    (h : (⟨.node, defaultBoundary⟩ : Converter).generate request options = .ok s) :
    ∃ r o, parseRequest request = .ok r ∧ mergeOptions options = .ok o ∧
      Dialect.javascript.outside? s =
        some ((outline o (shape o.trimBody r.normalize)).render o.indent) := by
  obtain ⟨r, hr, h⟩ := Converter.generate_eq_ok.mp h
  obtain ⟨-, o, ho, -, p, hp, rfl⟩ := Converter.generateFor_eq_ok.mp h
  obtain ⟨hfits, hhollow⟩ := program_of_ok hp
  refine ⟨r, o, hr, ho, ?_⟩
  rw [Program.outside?_render (unquoted_indent _ o) hfits, hhollow]

section

attribute [local instance] Host.usual

theorem generate_outside_literals_of_quotes :
    let request : Value := .map [(.str "method", .str "DE'L"), (.str "url", .str "h'/\"a\\?x='"),
      (.str "body", .map [(.str "mode", .str "raw"), (.str "raw", .str "'\";\n//\\")])]
    ∃ s, (⟨.node, defaultBoundary⟩ : Converter).generate request .null = .ok s ∧
      ∃ r o, parseRequest request = .ok r ∧ mergeOptions .null = .ok o ∧
        Dialect.javascript.outside? s =
          some ((outline o (shape o.trimBody r.normalize)).render o.indent) := by
  intro request
  have hok : ((⟨.node, defaultBoundary⟩ : Converter).generate request .null).isOk = true := by
    decide +kernel
  cases h : (⟨.node, defaultBoundary⟩ : Converter).generate request .null with
  | error e =>
    rw [h] at hok
    cases hok
  | ok s => exact ⟨s, rfl, generate_outside_literals h⟩

end

end HttpSnippet.Node

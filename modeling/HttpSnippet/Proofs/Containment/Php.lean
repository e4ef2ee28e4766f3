import HttpSnippet.Proofs.Conversion
import HttpSnippet.Proofs.Source.Json

/-!
# User text in PHP programs

A PHP program is scanned by the rule for single-quoted literals, which may hold line breaks as they
are. Every literal in it is closed, and the text outside of the literals is computed from the
options and the shape of the request. The shape holds no text but the name of a known method.
-/
namespace HttpSnippet.Php

open Fragment

/-- What a payload shows outside of literals: how many statements and entries it takes. -/
inductive BodyShape where
  | literal
  | file
  | pairs (count : Nat)
  /-- The text members, and whether each upload has a content type. -/
  | form (texts : Nat) (uploads : List Bool)

/-- What a request shows outside of literals. A body without a payload shows nothing. -/
structure Shape where
  method : Option { m : Text // m ∈ knownMethods }
  headers : Nat
  body : Option BodyShape

/-- The enabled members of a form of one kind. -/
def membersOf (kind : FormKind) (params : List FormParam) : List FormParam :=
  (params.filter (!·.disabled)).filter (·.kind = kind)

def payloadShape : Payload → BodyShape
  | .raw _ | .graphql _ => .literal
  | .urlencoded params => .pairs (params.filter (!·.disabled)).length
  | .formdata params =>
    .form (membersOf .text params).length
      ((membersOf .file params).map fun p => (nonempty? p.contentType).isSome)
  | .file _ => .file

def shape (r : Request) : Shape where
  method := if h : r.method ∈ knownMethods then some ⟨r.method, h⟩ else none
  headers := r.enabledHeaders.length
  body := (r.body.bind (·.content?)).map payloadShape

/-! ### The program of a shape -/

/-- So many entries of an array, without the texts in them. -/
def blankEntries (count : Nat) : List Fragment := List.replicate count (arrow [] [quoted []])

/-- An upload without the texts in it. -/
def blankUpload (typed : Bool) : Line :=
  setter "addUpload" (join ", " (List.replicate (if typed then 4 else 3) [quoted []]))

/-- The statements for a payload of the shape without any text in them. -/
def BodyShape.lines : BodyShape → Program
  | .literal => [setter "setBody" [quoted []]]
  | .file => [setter "setBody" [quoted [], .code ", true"]]
  | .pairs count => arraySetter "addPostParameter" (blankEntries count)
  | .form texts uploads =>
    arraySetter "addPostParameter" (blankEntries texts) ++ uploads.map blankUpload

def Shape.methodLine (s : Shape) : Line :=
  match s.method with
  | some m => setter "setMethod" [.code ("HTTP_Request2::METHOD_" ++ m)]
  | none => setter "setMethod" [quoted []]

/-- What stands outside of the literals of a program, computed without any user text. -/
def outline (o : Options) (s : Shape) : Except WriteError Program :=
  (layout o (setter "setUrl" [quoted []]) s.methodLine
    (arraySetter "setHeader" (blankEntries s.headers)) ((s.body.map (·.lines)).getD [])).map
      Program.hollow

/-! ### Pieces of a program -/

@[simp] theorem hollow_quoted (t : Text) : (quoted t).hollow = quoted [] := rfl

@[simp] theorem fits_quoted (t : Text) : (quoted t).Fits .php := rfl

@[simp] theorem hollow_setter (method : Text) (arguments : Fragment) :
    (setter method arguments).hollow = setter method (hollow arguments) := by
  simp [setter, Line.hollow, Piece.hollow]

theorem fits_setter {method : Text} {arguments : Fragment} (hm : Dialect.php.Unquoted method)
    (ha : Fits .php arguments) : Fits .php (setter method arguments).content := by
  simp only [setter, List.cons_append, fits_append, fits_cons, fits_nil, Piece.fits_code,
    Dialect.unquoted_append, hm, ha]
  decide

theorem fits_arrow {key : Text} {value : Fragment} (hv : Fits .php value) :
    Fits .php (arrow key value) := by
  simp only [arrow, fits_cons, fits_quoted, Piece.fits_code, hv]
  decide

/-- An array keeps the number of its entries and what each shows outside of literals. -/
@[simp] theorem hollow_arraySetter (method : Text) (entries : List Fragment) :
    (arraySetter method entries).hollow = arraySetter method (entries.map hollow) := by
  cases entries with
  | nil => rfl
  | cons f fs =>
    have hne : ((f :: fs).map hollow).isEmpty = false := rfl
    simp only [arraySetter, hne, List.isEmpty_cons, Bool.false_eq_true, if_false,
      Program.hollow_cons, Program.hollow_nil, hollow_setter, array, hollow_append, hollow_cons,
      hollow_commaLines]
    rfl

theorem fits_arraySetter {method : Text} {entries : List Fragment}
    (hm : Dialect.php.Unquoted method) (he : ∀ f ∈ entries, Fits .php f) :
    Program.Fits .php (arraySetter method entries) := by
  have harray : Fits .php (array entries) := by
    simp only [array, fits_append, fits_cons, fits_nil, Piece.fits_code, Piece.fits_newline,
      fits_commaLines 1 he]
    decide
  unfold arraySetter
  split
  · exact Program.fits_nil
  · exact Program.fits_cons.mpr ⟨fits_setter hm harray, Program.fits_nil⟩

variable {α : Type}

/-- Entries that are a key and a value each leave nothing but their number. -/
theorem hollow_entries (key value : α → Text) (xs : List α) :
    (xs.map fun x => arrow (key x) [quoted (value x)]).map hollow = blankEntries xs.length := by
  rw [blankEntries, List.map_map, ← List.map_const']
  rfl

theorem fits_entries (key value : α → Text) (xs : List α) :
    ∀ f ∈ xs.map fun x => arrow (key x) [quoted (value x)], Fits .php f := by
  intro f hf
  obtain ⟨x, -, rfl⟩ := List.mem_map.mp hf
  exact fits_arrow (by simp)

theorem hollow_upload (trim : Bool) (p : FormParam) :
    (upload trim p).hollow = blankUpload (nonempty? p.contentType).isSome := by
  have hquoted (ts : List Text) : (ts.map fun t => [quoted t]).map hollow =
      List.replicate ts.length [quoted []] := by
    rw [List.map_map, ← List.map_const']
    rfl
  simp only [upload, blankUpload, hollow_setter, hollow_join, hquoted]
  cases nonempty? p.contentType <;> rfl

theorem fits_upload (trim : Bool) (p : FormParam) : Fits .php (upload trim p).content := by
  refine fits_setter (by decide) (fits_join ?_ ?_)
  · simp only [fits_cons, fits_nil, Piece.fits_code]
    decide
  · intro f hf
    obtain ⟨t, -, rfl⟩ := List.mem_map.mp hf
    simp

/-! ### Payloads -/

/-- Outside of their literals the statements for a payload are those of its shape. -/
theorem hollow_payloadLines (trim : Bool) (payload : Payload) :
    (payloadLines trim payload).hollow = (payloadShape payload).lines := by
  cases payload with
  | raw t => rfl
  | urlencoded params =>
    simp only [payloadLines, urlencodedBody, hollow_arraySetter, hollow_entries]
    rfl
  | formdata params =>
    have huploads (ps : List FormParam) : Program.hollow (ps.map (upload trim)) =
        (ps.map fun p => (nonempty? p.contentType).isSome).map blankUpload := by
      simp [Program.hollow, Function.comp_def, hollow_upload]
    simp only [payloadLines, formdataBody, Program.hollow_append, hollow_arraySetter,
      hollow_entries, huploads]
    rfl
  | file source => rfl
  | graphql payload => rfl

theorem fits_payloadLines (trim : Bool) (payload : Payload) :
    Program.Fits .php (payloadLines trim payload) := by
  have hliteral (t : Text) : Program.Fits .php [setter "setBody" [quoted t]] :=
    Program.fits_cons.mpr ⟨fits_setter (by decide) (by simp), Program.fits_nil⟩
  cases payload with
  | raw t => exact hliteral _
  | urlencoded params => exact fits_arraySetter (by decide) (fits_entries _ _ _)
  | formdata params =>
    refine Program.fits_append.mpr ⟨fits_arraySetter (by decide) (fits_entries _ _ _), ?_⟩
    intro l hl
    obtain ⟨p, -, rfl⟩ := List.mem_map.mp hl
    exact fits_upload trim p
  | file source =>
    have harguments : Fits .php [quoted (filePath source.src), .code ", true"] := by
      simp only [fits_cons, fits_nil, fits_quoted, Piece.fits_code]
      decide
    exact Program.fits_cons.mpr ⟨fits_setter (by decide) harguments, Program.fits_nil⟩
  | graphql payload => exact hliteral _

/-! ### Programs -/

theorem hollow_methodLine (r : Request) : (methodLine r).hollow = (shape r).methodLine := by
  unfold methodLine Shape.methodLine shape
  by_cases hm : r.method ∈ knownMethods
  · simp [hm, Piece.hollow]
  · simp [hm]

theorem unquoted_knownMethods : ∀ m ∈ knownMethods, Dialect.php.Unquoted m := by decide

theorem fits_methodLine (r : Request) : Fits .php (methodLine r).content := by
  unfold methodLine
  split
  · next h =>
    have hm := unquoted_knownMethods r.method (List.contains_iff_mem.mp h)
    refine fits_setter (by decide) ?_
    simp only [fits_cons, fits_nil, Piece.fits_code, Dialect.unquoted_append, hm]
    decide
  · exact fits_setter (by decide) (by simp)

theorem fits_timeoutEntries {timeout : Nat} {entries : List Fragment}
    (h : timeoutEntries timeout = .ok entries) : ∀ f ∈ entries, Fits .php f := by
  unfold timeoutEntries at h
  split at h
  · obtain rfl := Except.ok.inj h
    simp
  split at h
  · next s hs =>
    obtain rfl := Except.ok.inj h
    intro f hf
    obtain rfl := List.mem_singleton.mp hf
    exact fits_arrow (by simpa using Dialect.unquoted_ofNat s)
  · cases h

theorem fits_configLines {o : Options} {config : Program} (h : configLines o = .ok config) :
    config.Fits .php := by
  obtain ⟨timeout, htimeout, h⟩ := bind_eq_ok.mp h
  obtain rfl := Except.ok.inj h
  refine fits_arraySetter (by decide) ?_
  intro f hf
  rcases List.mem_append.mp hf with hf | hf
  · exact fits_timeoutEntries htimeout f hf
  · split at hf
    · obtain rfl := List.mem_singleton.mp hf
      refine fits_arrow ?_
      simp only [fits_cons, fits_nil, Piece.fits_code]
      decide
    · cases hf

theorem fits_sendLines : Program.Fits .php sendLines := by
  simp only [sendLines, Program.fits_cons, Program.fits_nil, fits_cons, fits_nil,
    Piece.fits_code, fits_quoted]
  decide

theorem layout_eq_ok {o : Options} {url method : Line} {headers sending p : Program} :
    layout o url method headers sending = .ok p ↔
      ∃ config, configLines o = .ok config ∧
        p = [⟨0, "<?php"⟩, ⟨0, [.code "require_once ", quoted "HTTP/Request2.php", .code ";"]⟩,
          ⟨0, "$request = new HTTP_Request2();"⟩, url, method] ++
          config ++ headers ++ sending ++ sendLines := by
  unfold layout
  simp only [bind_eq_ok, pure, Except.pure, Except.ok.injEq]
  constructor
  · rintro ⟨config, hconfig, hp⟩
    exact ⟨config, hconfig, hp.symm⟩
  · rintro ⟨config, hconfig, hp⟩
    exact ⟨config, hconfig, hp.symm⟩

/-- What a program shows outside of literals is determined by what its parts show there. -/
theorem hollow_layout {o : Options} {url url' method method' : Line}
    {headers headers' sending sending' : Program} (hu : url.hollow = url'.hollow)
    (hm : method.hollow = method'.hollow) (hh : headers.hollow = headers'.hollow)
    (hs : sending.hollow = sending'.hollow) :
    (layout o url method headers sending).map Program.hollow =
      (layout o url' method' headers' sending').map Program.hollow := by
  unfold layout
  cases configLines o with
  | error e => rfl
  | ok config =>
    simp only [bind, Except.bind, pure, Except.pure, Except.map, Program.hollow_append,
      Program.hollow_cons, hu, hm, hh, hs]

theorem hollow_bodyLines (o : Options) (r : Request) :
    (bodyLines o r).hollow = ((shape r).body.map (·.lines)).getD [] := by
  unfold bodyLines shape
  cases r.body.bind (·.content?) with
  | none => rfl
  | some payload => exact hollow_payloadLines o.trimBody payload

theorem hollow_headerLines (r : Request) :
    (headerLines r).hollow = arraySetter "setHeader" (blankEntries (shape r).headers) := by
  rw [headerLines, hollow_arraySetter, hollow_entries]
  rfl

theorem program_eq_ok [Host] {o : Options} {r : Request} {p : Program} :
    program o r = .ok p ↔ checkBody o r = .ok () ∧
      layout o (urlLine r) (methodLine r) (headerLines r) (bodyLines o r) = .ok p := by
  unfold program
  rw [bind_eq_ok]
  exact ⟨fun ⟨(), h⟩ => h, fun h => ⟨(), h⟩⟩

/-- The outline of a request's shape is its program without the texts. -/
theorem outline_shape [Host] {o : Options} {r : Request} {p : Program} (h : program o r = .ok p) :
    outline o (shape r) = .ok p.hollow := by
  have hlayout : outline o (shape r) =
      (layout o (urlLine r) (methodLine r) (headerLines r) (bodyLines o r)).map
        Program.hollow := by
    unfold outline
    rw [← hollow_methodLine, ← hollow_headerLines, ← hollow_bodyLines]
    refine hollow_layout ?_ (Line.hollow_hollow _) (Program.hollow_hollow _)
      (Program.hollow_hollow _)
    simp [urlLine]
  rw [hlayout, (program_eq_ok.mp h).2]
  rfl

theorem fits_program [Host] {o : Options} {r : Request} {p : Program} (h : program o r = .ok p) :
    p.Fits .php := by
  obtain ⟨config, hconfig, rfl⟩ := layout_eq_ok.mp (program_eq_ok.mp h).2
  have hurl : Fits .php (urlLine r).content := fits_setter (by decide) (by simp)
  have hheaders : Program.Fits .php (headerLines r) :=
    fits_arraySetter (by decide) (fits_entries _ _ _)
  have hsending : Program.Fits .php (bodyLines o r) := by
    unfold bodyLines
    cases r.body.bind (·.content?) with
    | none => exact Program.fits_nil
    | some payload => exact fits_payloadLines o.trimBody payload
  simp only [List.cons_append, List.nil_append, Program.fits_cons, Program.fits_append,
    fits_cons, fits_nil, Piece.fits_code, fits_quoted, hurl, fits_methodLine,
    fits_configLines hconfig, hheaders, hsending, fits_sendLines]
  decide

/-- Whatever the texts of a request are, they stay inside of literals: a scanner finds every
literal of the program closed, and what it finds outside of them depends on the options and the
shape of the request alone. -/
theorem generate_outside_quotes [Host] {boundary : Text} {request options : Value} {s : Text}
    (h : (⟨.php, boundary⟩ : Converter).generate request options = .ok s) :
    ∃ r o skeleton, parseRequest request = .ok r ∧ mergeOptions options = .ok o ∧
      outline o (shape r.normalize) = .ok skeleton ∧
      Dialect.php.outside? s = some (skeleton.render o.indent) := by
  obtain ⟨r, hr, h⟩ := Converter.generate_eq_ok.mp h
  obtain ⟨-, o, ho, -, p, hp, rfl⟩ := Converter.generateFor_eq_ok.mp h
  have hp : program o r.normalize = .ok p := hp
  exact ⟨r, o, p.hollow, hr, ho, outline_shape hp,
    Program.outside?_render (unquoted_indent _ o) (fits_program hp)⟩

section

attribute [local instance] Host.usual

theorem generate_outside_quotes_of_breaks :
    let request : Value := .map [(.str "method", .str "P'\\"), (.str "url", .str "h'/\"a\\?x='"),
      (.str "header", .list [.map [(.str "key", .str "a'b"), (.str "value", .str "\n'")]])]
    ∃ s, (⟨.php, defaultBoundary⟩ : Converter).generate request .null = .ok s ∧
      ∃ r o skeleton, parseRequest request = .ok r ∧ mergeOptions .null = .ok o ∧
        outline o (shape r.normalize) = .ok skeleton ∧
        Dialect.php.outside? s = some (skeleton.render o.indent) := by
  intro request
  have hok : ((⟨.php, defaultBoundary⟩ : Converter).generate request .null).isOk = true := by
    decide +kernel
  cases h : (⟨.php, defaultBoundary⟩ : Converter).generate request .null with
  | error e =>
    rw [h] at hok
    cases hok
  | ok s => exact ⟨s, rfl, generate_outside_quotes h⟩

end

end HttpSnippet.Php

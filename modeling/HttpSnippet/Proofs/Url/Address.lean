import HttpSnippet.Proofs.Form.Uploads
import HttpSnippet.Proofs.Header.Reading
import HttpSnippet.Proofs.Json.Numeral
import HttpSnippet.Proofs.Normal.Frame
import HttpSnippet.Proofs.Number.Integer

/-!
# The address in both programs

A Node program has host, port and path in entries of their own and leaves scheme and hash out. A PHP
program has the whole URL in one call. Both are read back from the texts of the programs, and the
URL is put together from the entries.
-/
namespace HttpSnippet

theorem Url.optionalPart_eq (lead : Text) (part : Option Text) :
    optionalPart lead part = ((nonempty? part).map (lead ++ ·)).getD [] := by
  match part with
  | none => rfl
  | some [] => rfl
  | some (c :: t) => rfl

/-! ### Symbols up to a broken literal -/

namespace Dialect

/-- The symbols of some tokens, up to the first literal that cannot be decoded. -/
def leadingSymbols (d : Dialect) : List Token → List Symbol
  | [] => []
  | .code c :: ts => marks [c] ++ d.leadingSymbols ts
  | .literal _ s :: ts =>
    match d.decode? s with
    | some t => .text t :: d.leadingSymbols ts
    | none => []

theorem leadingSymbols_append {d : Dialect} {ts : List Token} {s : List Symbol}
    (h : d.symbols? ts = some s) (us : List Token) :
    d.leadingSymbols (ts ++ us) = s ++ d.leadingSymbols us := by
  induction ts generalizing s with
  | nil =>
    obtain rfl := Option.some.inj h
    rfl
  | cons t ts ih =>
    cases t with
    | code c =>
      obtain ⟨s', hs', rfl⟩ := Option.map_eq_some_iff.mp h
      rw [List.cons_append, leadingSymbols, ih hs', List.append_assoc]
    | literal q inside =>
      obtain ⟨t, ht, hrest⟩ := Option.bind_eq_some_iff.mp h
      obtain ⟨s', hs', rfl⟩ := Option.map_eq_some_iff.mp hrest
      simp only [List.cons_append, leadingSymbols, ht, ih hs']

/-- The symbols of a text, as far as its literals can be read. -/
def reading (d : Dialect) (t : Text) : List Symbol := d.leadingSymbols (d.leading .code t)

end Dialect

/-- Plain lines are read, whatever follows them. -/
theorem Program.reading_render {d : Dialect} {indent : Text}
    (hi : ∀ c ∈ indent, isSpacing c = true) {p : Program}
    (hp : ∀ l ∈ p, Fragment.Plain d l.content) (rest : Text) :
    d.reading (p.render indent ++ rest) = p.symbols ++ d.reading rest := by
  have hplain := plain_flat hi hp
  have hsymbols := Fragment.symbols?_tokens hi hplain
  rw [Dialect.reading, ← render_flat, Fragment.leading_render (unquoted_of_spacing hi) hplain.fits,
    Dialect.leadingSymbols_append hsymbols, symbols_flat hi, ← Dialect.reading]

/-! ### Entries of the options object -/

namespace Node

/-- The value of a property that is a single text or a number. -/
inductive Scalar where
  | text (t : Text)
  | number (n : Nat)
deriving DecidableEq, Repr

/-- What a reader of an object expects next. -/
inductive Awaited where
  | name
  | colon (name : Text)
  | value (name : Text)
  /-- More digits of a number, or its end. -/
  | digit (name digits : Text)
  | comma

/-- The properties of an object, down to the first one that is neither a text nor a number. -/
def readScalars : Awaited → List Symbol → List (Text × Scalar)
  | .name, .text k :: s => readScalars (.colon k) s
  | .colon k, .mark ':' :: s => readScalars (.value k) s
  | .value k, .text t :: s => (k, .text t) :: readScalars .comma s
  | .value k, .mark c :: s => if Json.isDigit c then readScalars (.digit k [c]) s else []
  | .digit k ds, .mark c :: s =>
    if Json.isDigit c then readScalars (.digit k (ds ++ [c])) s
    else if c = ',' then (k, .number (Json.digitsValue ds)) :: readScalars .name s
    else []
  | .comma, .mark ',' :: s => readScalars .name s
  | _, _ => []

/-- The entries of the options object of a program that stand in front of its headers. -/
def scalars (t : Text) : List (Text × Scalar) :=
  readScalars .name (((Dialect.javascript.reading t).dropWhile (· ≠ .mark '\x7b')).drop 1)

/-- The entry of a name in front of the headers. -/
def scalar? (t name : Text) : Option Scalar := (scalars t).lookup name

def Scalar.symbols : Scalar → List Symbol
  | .text t => [.text t]
  | .number n => marks (Text.ofNat n)

def scalarSymbols (entry : Text × Scalar) : List Symbol :=
  .text entry.1 :: .mark ':' :: entry.2.symbols

theorem marks_ofNat (n : Nat) : marks (Text.ofNat n) = (Text.ofNat n).map .mark := by
  have hspacing : ∀ c ∈ Text.ofNat n, (!isSpacing c) = true := by
    intro c hc
    have hdigit := Json.digits_ofNat n c hc
    simp only [isSpacing, Bool.not_eq_true', Bool.or_eq_false_iff, decide_eq_false_iff_not]
    refine ⟨⟨⟨?_, ?_⟩, ?_⟩, ?_⟩ <;> exact Json.ne_of_isDigit hdigit rfl
  rw [marks, List.filter_eq_self.mpr hspacing]

theorem readScalars_digits (k : Text) {digits : Text} (h : Json.Digits digits) (read : Text)
    (s : List Symbol) :
    readScalars (.digit k read) (digits.map .mark ++ .mark ',' :: s) =
      (k, .number (Json.digitsValue (read ++ digits))) :: readScalars .name s := by
  induction digits generalizing read with
  | nil =>
    have hcomma : Json.isDigit ',' = false := rfl
    rw [List.map_nil, List.nil_append, readScalars, hcomma, List.append_nil]
    rfl
  | cons c digits ih =>
    obtain ⟨hc, hdigits⟩ := List.forall_mem_cons.mp h
    rw [List.map_cons, List.cons_append, readScalars, if_pos hc, ih hdigits, List.append_assoc,
      List.singleton_append]

theorem readScalars_scalar (entry : Text × Scalar) (s : List Symbol) :
    readScalars .name (scalarSymbols entry ++ .mark ',' :: s) = entry :: readScalars .name s := by
  obtain ⟨k, value⟩ := entry
  cases value with
  | text t => rfl
  | number n =>
    obtain ⟨c, digits, hn⟩ := List.exists_cons_of_ne_nil (Json.ofNat_ne_nil n)
    have hdigits := Json.digits_ofNat n
    have hvalue := Json.digitsValue_ofNat n
    rw [hn] at hdigits hvalue
    obtain ⟨hc, hrest⟩ := List.forall_mem_cons.mp hdigits
    rw [scalarSymbols, Scalar.symbols, marks_ofNat, hn]
    simp only [List.map_cons, List.cons_append, readScalars]
    rw [if_pos hc, readScalars_digits k hrest, List.singleton_append, hvalue]

/-- Entries are read one after the other, up to one that is none of them. -/
theorem readScalars_scalars (entries : List (Text × Scalar)) (last : List Symbol)
    (others : List (List Symbol)) (rest : List Symbol) :
    readScalars .name
        ([Symbol.mark ','].intercalate (entries.map scalarSymbols ++ last :: others) ++ rest) =
      entries ++ readScalars .name ([Symbol.mark ','].intercalate (last :: others) ++ rest) := by
  induction entries with
  | nil => rfl
  | cons entry entries ih =>
    rw [List.map_cons, List.cons_append, List.intercalate_cons_of_ne_nil (by simp),
      List.append_assoc, List.append_assoc, List.singleton_append, readScalars_scalar, ih,
      List.cons_append]

/-- Text and number in front of an object that holds an entry for a port itself. -/
example : scalars "= \x7b'a': 'b\\'', 'port': 80, 'headers': \x7b'port': 'c', \x7d, \x7d" =
    [(("a" : Text), .text "b'"), (("port" : Text), .number 80)] := by decide

/-! ### The entry for the port -/

/-- An entry agrees with a port: it has the port itself, or the integer that its digits are. -/
def Scalar.Denotes (port : Text) : Scalar → Prop
  | .text t => t = port ∧ Text.allDigits port = false
  | .number n => Text.allDigits port = true ∧ Number.readInteger port = .ok n

/-- What is written for a port behind the host of a URL: nothing, and there is no entry either; or a
colon and the port that the entry denotes. -/
def PortWritten (port : Option Text) : Option Scalar → Text → Prop
  | none, written => nonempty? port = none ∧ written = []
  | some entry, written => ∃ t, port = some t ∧ entry.Denotes t ∧ written = ':' :: t

def portScalars (entry : Option Scalar) : List (Text × Scalar) :=
  entry.toList.map fun value => ("port", value)

/-- An entry for a port is a scalar that denotes it. -/
theorem exists_scalar_of_portEntry {r : Request} {t : Text} (ht : r.url.port = some t)
    {f : Fragment} (h : portEntry r = .ok f) :
    ∃ entry : Scalar, entry.Denotes t ∧ f.symbols = scalarSymbols ("port", entry) ∧
      f.Plain .javascript := by
  unfold portEntry at h
  rw [ht, Option.getD_some] at h
  dsimp only at h
  by_cases hdigits : Text.allDigits t = true
  · rw [if_pos hdigits] at h
    have hall : t ≠ [] ∧ ∀ c ∈ t, Text.isDigit c = true := by
      simpa [Text.allDigits] using hdigits
    cases hread : Number.readInteger t with
    | error fault => simp [hread] at h
    | ok n =>
      obtain ⟨m, rfl⟩ := Number.exists_nat_of_readInteger hall.2 hall.1 hread
      rw [hread] at h
      obtain rfl := Except.ok.inj h
      refine ⟨.number m, ⟨hdigits, hread⟩, ?_, plain_property ?_⟩
      · rw [symbols_property, Fragment.symbols_cons, Fragment.symbols_nil, List.append_nil]
        rfl
      · simpa using Dialect.unquoted_ofInt (m : Int)
  · rw [if_neg hdigits] at h
    obtain rfl := Except.ok.inj h
    exact ⟨.text t, ⟨rfl, by simpa using hdigits⟩, rfl, plain_property (by simp)⟩

theorem exists_scalar_of_portEntries {r : Request} {port : List Fragment}
    (h : portEntries r = .ok port) :
    ∃ entry : Option Scalar, PortWritten r.url.port entry (Url.optionalPart ":" r.url.port) ∧
      port.map Fragment.symbols = (portScalars entry).map scalarSymbols ∧
        ∀ f ∈ port, f.Plain .javascript := by
  unfold portEntries at h
  cases hport : nonempty? r.url.port with
  | none =>
    rw [hport] at h
    obtain rfl := Except.ok.inj h
    have hpart : Url.optionalPart ":" r.url.port = [] := by
      rw [Url.optionalPart_eq, hport]
      rfl
    exact ⟨none, ⟨hport, hpart⟩, rfl, by simp⟩
  | some t =>
    have ht := eq_of_nonempty? hport
    rw [hport] at h
    cases hf : portEntry r with
    | error e => simp [hf, Except.map] at h
    | ok f =>
      obtain rfl : [f] = port := by simpa [hf, Except.map] using h
      obtain ⟨entry, hdenotes, hsymbols, hplain⟩ := exists_scalar_of_portEntry ht hf
      have hpart : Url.optionalPart ":" r.url.port = ':' :: t := by
        rw [Url.optionalPart_eq, hport]
        rfl
      refine ⟨some entry, ⟨t, ht, hdenotes, hpart⟩, ?_, by simpa using hplain⟩
      rw [List.map_singleton, hsymbols]
      rfl

/-! ### Reading the options object -/

theorem plain_requireLine {name package member : Text} (hn : Dialect.javascript.Unquoted name)
    (hm : Dialect.javascript.Unquoted member) :
    Fragment.Plain .javascript (requireLine name package member).content := by
  simp only [requireLine, call, List.cons_append, List.nil_append, Fragment.plain_cons,
    Fragment.plain_nil, Piece.plain_code, plain_quoted, Dialect.unquoted_append, hn, hm]
  decide

theorem plain_opening (o : Options) (r : Request) (usesQuerystring : Bool) :
    ∀ l ∈ opening o (clientModule r) usesQuerystring, Fragment.Plain .javascript l.content := by
  have hclient := unquoted_clientModule r
  have hplain {name package : Text} (hn : Dialect.javascript.Unquoted name) :
      Fragment.Plain .javascript (requireLine name package []).content :=
    plain_requireLine hn Dialect.unquoted_nil
  have hfirst : Fragment.Plain .javascript
      (clientLine (clientModule r) o.followRedirect).content := by
    unfold clientLine
    split
    · exact plain_requireLine hclient (Dialect.unquoted_cons.mpr ⟨rfl, hclient⟩)
    · exact hplain hclient
  have hquery : ∀ l ∈ Program.when usesQuerystring [requireLine "qs" "querystring" []],
      Fragment.Plain .javascript l.content := by
    cases usesQuerystring with
    | false => simp [Program.when]
    | true => simpa [Program.when] using hplain (by decide)
  simp only [opening, List.forall_mem_append, List.forall_mem_cons, List.not_mem_nil,
    false_imp_iff, implies_true, and_true]
  exact ⟨⟨⟨hfirst, hplain (by decide)⟩, hquery⟩, Fragment.plain_nil, by simp⟩

/-- The first brace of a program opens the options object. -/
theorem dropWhile_symbols_opening (o : Options) (r : Request) (usesQuerystring : Bool)
    (s : List Symbol) :
    ((opening o (clientModule r) usesQuerystring).symbols ++ s).dropWhile (· ≠ .mark '\x7b') =
      .mark '\x7b' :: s := by
  unfold opening clientLine
  -- the lines are fixed but for these choices
  rcases clientModule_cases r with h | h <;> rw [h] <;> cases o.followRedirect <;>
    cases usesQuerystring <;> rfl

/-- The headers are no scalar, so reading ends in front of them. -/
theorem readScalars_headersEntry (r : Request) (others : List (List Symbol)) (rest : List Symbol) :
    readScalars .name
      ([Symbol.mark ','].intercalate ((headersEntry r).symbols :: others) ++ rest) = [] := by
  obtain ⟨s, hs⟩ : ∃ s, (headersEntry r).symbols =
      .text "headers" :: .mark ':' :: .mark '\x7b' :: s := ⟨_, rfl⟩
  rw [hs, List.intercalate_cons_cons_left, List.intercalate_cons_cons_left,
    List.intercalate_cons_cons_left]
  rfl

/-- The entries in front of the headers. -/
def addressScalars (r : Request) (port : Option Scalar) : List (Text × Scalar) :=
  ("method", .text r.method) :: ("hostname", .text r.url.hostText) ::
    (portScalars port ++ [(("path" : Text), .text r.url.pathAndQuery)])

theorem plain_entriesWith {port : List Fragment} (hport : ∀ f ∈ port, f.Plain .javascript)
    (o : Options) (r : Request) : ∀ f ∈ entriesWith o r port, f.Plain .javascript := by
  have hliteral (name t : Text) : Fragment.Plain .javascript (property name [quoted t]) :=
    plain_property (by simp)
  have hnumber : Fragment.Plain .javascript [.code (Text.ofNat maxRedirects)] := by
    simpa using Dialect.unquoted_ofNat maxRedirects
  simp only [entriesWith, List.forall_mem_append, List.forall_mem_cons]
  refine ⟨⟨⟨⟨hliteral _ _, hliteral _ _, by simp⟩, hport⟩, hliteral _ _, plain_headersObject _,
    by simp⟩, ?_⟩
  split
  · exact List.forall_mem_singleton.mpr (plain_property hnumber)
  · simp

theorem exists_symbols_entriesWith {r : Request} {port : List Fragment} {entry : Option Scalar}
    (h : port.map Fragment.symbols = (portScalars entry).map scalarSymbols) (o : Options) :
    ∃ others, (entriesWith o r port).map Fragment.symbols =
      (addressScalars r entry).map scalarSymbols ++ (headersEntry r).symbols :: others := by
  obtain ⟨redirects, hentries⟩ : ∃ redirects, entriesWith o r port =
      [methodEntry r, hostEntry r] ++ port ++ [pathEntry r, headersEntry r] ++ redirects := ⟨_, rfl⟩
  refine ⟨redirects.map Fragment.symbols, ?_⟩
  simp only [hentries, List.map_append, List.map_cons, h, addressScalars, List.cons_append,
    List.append_assoc]
  rfl

/-- The entries in front of the headers are read back from a program. -/
theorem scalars_document {o : Options} {r : Request} {port : List Fragment} {entry : Option Scalar}
    (hsymbols : port.map Fragment.symbols = (portScalars entry).map scalarSymbols)
    (hport : ∀ f ∈ port, f.Plain .javascript) (boundary : Text) :
    scalars ((document boundary o r port).render o.indent) = addressScalars r entry := by
  have hi := isSpacing_of_mem_indent o
  obtain ⟨others, hentries⟩ := exists_symbols_entriesWith (r := r) hsymbols o
  let top : Program := opening o (clientModule r) (usesQuerystring boundary o r) ++
    [⟨1, Fragment.commaLines 1 (entriesWith o r port)⟩]
  have htop : ∀ l ∈ top, Fragment.Plain .javascript l.content :=
    List.forall_mem_append.mpr ⟨plain_opening o r _,
      List.forall_mem_singleton.mpr (Fragment.plain_commaLines 1 (plain_entriesWith hport o r))⟩
  have hdocument : document boundary o r port =
      top ++ closing o (clientModule r) (sending boundary o r) := by
    rw [document, layout_eq]
    exact List.append_cons _ _ _
  have hread : top.symbols = (opening o (clientModule r) (usesQuerystring boundary o r)).symbols ++
      [Symbol.mark ','].intercalate ((entriesWith o r port).map Fragment.symbols) := by
    have hlast (f : Fragment) : Program.symbols [⟨1, f⟩] = f.symbols := List.append_nil _
    rw [← Fragment.symbols_commaLines 1, Program.symbols_append, hlast]
  rw [scalars, hdocument, Program.render_append, Program.reading_render hi htop, hread,
    List.append_assoc, dropWhile_symbols_opening, List.drop_succ_cons, List.drop_zero, hentries,
    readScalars_scalars, readScalars_headersEntry, List.append_nil]

/-- Each entry is found under its name, whether there is one for the port or not. -/
theorem scalar?_document {o : Options} {r : Request} {port : List Fragment} {entry : Option Scalar}
    (hsymbols : port.map Fragment.symbols = (portScalars entry).map scalarSymbols)
    (hport : ∀ f ∈ port, f.Plain .javascript) (boundary : Text) :
    let s := (document boundary o r port).render o.indent
    scalar? s "hostname" = some (.text r.url.hostText) ∧ scalar? s "port" = entry ∧
      scalar? s "path" = some (.text r.url.pathAndQuery) := by
  intro s
  have hscalars : scalars s = addressScalars r entry := scalars_document hsymbols hport boundary
  simp only [scalar?, hscalars]
  cases entry <;> exact ⟨rfl, rfl, rfl⟩

end Node

/-! ### Reading the call for the URL -/

namespace Php

/-- The argument of the call that sets the URL. -/
def readSetUrl? (statement : List Symbol) : Option Text :=
  match after? "$request->setUrl(" statement with
  | some [.text t, .mark ')'] => some t
  | _ => none

/-- The URL that a program sets first. -/
def address? (t : Text) : Option Text :=
  ((Dialect.php.reading t).splitOn (.mark ';')).findSome? readSetUrl?

/-- The lines of a program down to the one for the URL. -/
def preamble (r : Request) : Program :=
  [⟨0, "<?php"⟩, ⟨0, [.code "require_once ", quoted "HTTP/Request2.php", .code ";"]⟩,
    ⟨0, "$request = new HTTP_Request2();"⟩, urlLine r]

theorem plain_preamble (r : Request) : ∀ l ∈ preamble r, Fragment.Plain .php l.content := by
  have hurl : Fragment.Plain .php (urlLine r).content := plain_setter (by decide) (by simp [quoted])
  simp only [preamble, List.forall_mem_cons, Fragment.plain_cons, Fragment.plain_nil,
    Piece.plain_code, hurl]
  exact ⟨⟨by decide, trivial⟩, ⟨by decide, rfl, by decide, trivial⟩, ⟨by decide, trivial⟩, trivial,
    by simp⟩

/-- The call for the URL is the third statement. -/
theorem address?_render {indent : Text} (hi : ∀ c ∈ indent, isSpacing c = true) (r : Request)
    (rest : Program) : address? ((preamble r ++ rest).render indent) = some r.url.text := by
  let including : List Symbol := marks "<?php require_once " ++ [.text "HTTP/Request2.php"]
  let creating : List Symbol := marks "$request = new HTTP_Request2()"
  let setting : List Symbol := marks "$request->setUrl(" ++ [.text r.url.text, .mark ')']
  have hsplit (rest : List Symbol) : ((preamble r).symbols ++ rest).splitOn (.mark ';') =
      including :: creating :: setting :: rest.splitOn (.mark ';') := by
    have hsymbols : (preamble r).symbols ++ rest =
        including ++ .mark ';' :: (creating ++ .mark ';' :: (setting ++ .mark ';' :: rest)) := rfl
    have hsetting : Symbol.mark ';' ∉ setting := List.not_mem_append (by decide) (by simp)
    rw [hsymbols, List.splitOn_append_cons_self_of_not_mem (by decide),
      List.splitOn_append_cons_self_of_not_mem (by decide),
      List.splitOn_append_cons_self_of_not_mem hsetting]
  have hincluding : readSetUrl? including = none := rfl
  have hcreating : readSetUrl? creating = none := rfl
  have hsetting : readSetUrl? setting = some r.url.text := by
    simp only [readSetUrl?, setting, after?_append]
  rw [address?, Program.render_append, Program.reading_render hi (plain_preamble r), hsplit,
    List.findSome?_cons, hincluding, List.findSome?_cons, hcreating, List.findSome?_cons, hsetting]

theorem address?_program [Host] {o : Options} {r : Request} {p : Program}
    (h : program o r = .ok p) :
    address? (p.render o.indent) = some r.url.text := by
  obtain ⟨config, -, rfl⟩ := layout_eq_ok.mp (program_eq_ok.mp h).2
  exact address?_render (Node.isSpacing_of_mem_indent o) r
    (methodLine r :: config ++ headerLines r ++ bodyLines o r ++ sendLines)

end Php

/-! ### Both addresses -/

namespace Url

/-- A scheme that is there and not empty, with its mark. -/
def scheme : Option Text → Text
  | none | some [] => []
  | some p => p ++ "://"

/-- The URL in the parts that a request is sent with, and those that it is not. -/
theorem text_eq (u : Url) :
    u.text = scheme u.protocol ++ u.hostText ++ optionalPart ":" u.port ++
      (if u.path = [] then Text.join "/" u.path ++ u.queryPart else u.pathAndQuery) ++
        optionalPart "#" u.hash := by
  have hpath : (if u.path.isEmpty then [] else u.pathText) ++ u.queryPart =
      if u.path = [] then Text.join "/" u.path ++ u.queryPart else u.pathAndQuery := by
    by_cases h : u.path = []
    · simp [h, Text.join]
    · simp [h, pathAndQuery]
  have htext : u.text = scheme u.protocol ++ u.hostText ++ optionalPart ":" u.port ++
      (if u.path.isEmpty then [] else u.pathText) ++ u.queryPart ++ optionalPart "#" u.hash := rfl
  rw [htext, ← hpath]
  simp only [List.append_assoc]

end Url

namespace Converter

/-- The URL of the PHP program is put together from the entries of the Node program: the scheme of
the request, the host, the port if there is an entry for it, the path without its slash if it has no
segments, and the hash of the request. -/
theorem address_generateFor [Host] {nodeBoundary phpBoundary : Text} {r : Request} {options : Value}
    {s t : Text} (hs : (⟨.node, nodeBoundary⟩ : Converter).generateFor r options = .ok s)
    (ht : (⟨.php, phpBoundary⟩ : Converter).generateFor r options = .ok t) :
    ∃ host port path,
      Node.scalar? s "hostname" = some (.text host) ∧
      Node.PortWritten r.url.port (Node.scalar? s "port") port ∧
      Node.scalar? s "path" = some (.text ('/' :: path)) ∧
      Php.address? t = some (Url.scheme r.url.protocol ++ host ++ port ++
        (if r.url.resolve.path = [] then path else '/' :: path) ++
          Url.optionalPart "#" r.url.hash) := by
  obtain ⟨-, o, -, -, p, hp, rfl⟩ := generateFor_eq_ok.mp hs
  obtain ⟨-, o', -, -, p', hp', rfl⟩ := generateFor_eq_ok.mp ht
  have hp : Node.program nodeBoundary o r.normalize = .ok p := hp
  obtain ⟨port, hport, -, rfl⟩ := Node.program_eq_ok.mp hp
  obtain ⟨entry, hwritten, hsymbols, hplain⟩ := Node.exists_scalar_of_portEntries hport
  obtain ⟨hhost, hentry, hpath⟩ := Node.scalar?_document (o := o) hsymbols hplain nodeBoundary
  have hframe := (Request.framed_normalize r).1
  have hsegments : r.normalize.url.path = r.url.resolve.path := by
    rw [Request.normalize_eq_added]
  refine ⟨_, Url.optionalPart ":" r.url.port,
    Text.join "/" r.url.resolve.path ++ r.normalize.url.queryPart, hhost, ?port, ?path, ?address⟩
  case port =>
    rw [hentry, ← hframe.port]
    exact hwritten
  case path =>
    rw [← hsegments]
    exact hpath
  case address =>
    rw [Php.address?_program hp', Url.text_eq, hframe.protocol, hframe.port, hframe.hash,
      Url.pathAndQuery, Url.pathText, hsegments]
    rfl

section

attribute [local instance] Host.usual

/-- A port with a leading zero, variables in host and path, and an API key behind a query with a
disabled member; backslashes, quotes and line breaks in the texts. -/
theorem address_generateFor_of_quotes :
    let url : Url :=
      { protocol := some "ftp'"
        host := ["\x7b\x7bv\x7d\x7d", "h\\"]
        port := some "080"
        path := [":v", ""]
        query := [{ key := "a'", value := some "\n" }, { key := "b", disabled := true }]
        pathVariables := [{ key := "v", value := "/'" }]
        hash := some "#\\'" }
    let auth : Auth := { kind := .apikey, key := "k", value := "?'", location := "query" }
    let r : Request := { url, auth := some auth }
    ∃ s t, (⟨.node, defaultBoundary⟩ : Converter).generateFor r (.map []) = .ok s ∧
      (⟨.php, defaultBoundary⟩ : Converter).generateFor r (.map []) = .ok t ∧
      ∃ host port path,
        Node.scalar? s "hostname" = some (.text host) ∧
        Node.PortWritten r.url.port (Node.scalar? s "port") port ∧
        Node.scalar? s "path" = some (.text ('/' :: path)) ∧
        Php.address? t = some (Url.scheme r.url.protocol ++ host ++ port ++
          (if r.url.resolve.path = [] then path else '/' :: path) ++
            Url.optionalPart "#" r.url.hash) := by
  intro url auth r
  have hok (target : Target) :
      ((⟨target, defaultBoundary⟩ : Converter).generateFor r (.map [])).isOk = true := by
    cases target <;> decide +kernel
  obtain ⟨s, hs⟩ := exists_eq_ok (hok .node)
  obtain ⟨t, ht⟩ := exists_eq_ok (hok .php)
  exact ⟨s, t, hs, ht, address_generateFor hs ht⟩

end

end Converter
end HttpSnippet

import HttpSnippet.Proofs.Header.Reading
import HttpSnippet.Proofs.Source.Literal
import HttpSnippet.Proofs.Text.Separator

/-!
# Headers without a loss

The entry for the headers is read back from its text, whatever stands in it as indentation: a reader
that is told the indentation follows the layout of the entry and decodes its literals by the rules
of the language. It finds each name once, where the name first stood, with all values of the enabled
headers of that name. Where the indentation is white space, a reader of tokens that knows nothing of
the layout finds the same.
-/
namespace HttpSnippet

/-! ### Elements with separators between them -/

section

variable {α : Type}

/-- Elements with a separator between them, no more than `count`, and what follows the last one. -/
def readElements (read : Text → Option (α × Text)) (sep : Text) :
    Nat → Text → Option (List α × Text)
  | 0, _ => none
  | count + 1, t =>
    (read t).bind fun (a, t) =>
      match t.dropPrefix? sep with
      | some t => (readElements read sep count t).map fun (as, rest) => (a :: as, rest)
      | none => some ([a], t)

/-- As many elements as there are; a text has no more of them than characters. -/
def readJoined (read : Text → Option (α × Text)) (sep t : Text) : Option (List α × Text) :=
  readElements read sep t.length t

theorem Text.length_le_join (sep : Text) {pieces : List Text} (h : ∀ piece ∈ pieces, piece ≠ []) :
    pieces.length ≤ (join sep pieces).length := by
  induction pieces with
  | nil => simp
  | cons piece pieces ih =>
    obtain ⟨hpiece, hrest⟩ := List.forall_mem_cons.mp h
    have hpos := List.length_pos_iff.mpr hpiece
    have hle := ih hrest
    cases pieces with
    | nil =>
      show 1 ≤ (join sep [piece]).length
      simpa [join] using Nat.one_le_iff_ne_zero.mpr hpos.ne'
    | cons next pieces =>
      rw [join_cons_cons]
      simp only [List.length_append, List.length_cons] at hle ⊢
      omega

theorem readElements_join {read : Text → Option (α × Text)} {write : α → Text} {sep rest : Text}
    (hrest : rest.dropPrefix? sep = none) (a : α) {as : List α}
    (hread : ∀ b ∈ a :: as, ∀ t, read (write b ++ t) = some (b, t)) {count : Nat}
    (hcount : as.length < count) :
    readElements read sep count (Text.join sep ((a :: as).map write) ++ rest) =
      some (a :: as, rest) := by
  induction as generalizing a count with
  | nil =>
    obtain ⟨count, rfl⟩ : ∃ n, count = n + 1 := ⟨count - 1, by simp at hcount; omega⟩
    have hone : Text.join sep ([a].map write) = write a := by simp [Text.join]
    rw [hone, readElements, hread a List.mem_cons_self, Option.bind_some]
    simp only [hrest]
  | cons next as ih =>
    obtain ⟨count, rfl⟩ : ∃ n, count = n + 1 := ⟨count - 1, by simp at hcount; omega⟩
    have hshorter : as.length < count := by simpa using hcount
    have hnext := ih next (fun b hb => hread b (List.mem_cons_of_mem a hb)) hshorter
    rw [List.map_cons, List.map_cons, Text.join_cons_cons, ← List.map_cons, List.append_assoc,
      readElements, hread a List.mem_cons_self, Option.bind_some, List.append_assoc]
    simp only [Text.dropPrefix?_append, hnext, Option.map_some]

/-- Elements that were written with a separator between them are read back, up to a text that does
not begin with the separator. -/
theorem readJoined_join {read : Text → Option (α × Text)} {write : α → Text} {sep rest : Text}
    (hrest : rest.dropPrefix? sep = none) (a : α) {as : List α}
    (hread : ∀ b ∈ a :: as, ∀ t, read (write b ++ t) = some (b, t))
    (hwrite : ∀ b ∈ a :: as, write b ≠ []) :
    readJoined read sep (Text.join sep ((a :: as).map write) ++ rest) = some (a :: as, rest) := by
  apply readElements_join hrest a hread
  have hpieces : ∀ piece ∈ (a :: as).map write, piece ≠ [] := by simpa using hwrite
  have hlength := Text.length_le_join sep hpieces
  simp only [List.length_map, List.length_cons] at hlength
  rw [List.length_append]
  omega

end

theorem Fragment.render_join (indent : Text) (sep : Fragment) (fs : List Fragment) :
    render indent (join sep fs) = Text.join (render indent sep) (fs.map (render indent)) := by
  induction fs with
  | nil => rfl
  | cons f fs ih =>
    cases fs with
    | nil => simp [join, Text.join]
    | cons g gs =>
      rw [join_cons_cons, render_append, render_append, ih, List.map_cons, List.map_cons,
        List.map_cons, Text.join_cons_cons, List.append_assoc]

namespace Node

/-! ### The reader -/

/-- A literal with its quotes, and what follows it. -/
def readQuoted? (t : Text) : Option (Text × Text) :=
  (t.dropPrefix? ['\'']).bind Dialect.javascript.readLiteral?

/-- One literal as a list with one value, or the values of an array. -/
def readValues? (t : Text) : Option (List Text × Text) :=
  match t.dropPrefix? ['['] with
  | some t => do
    let (values, t) ← readJoined readQuoted? ", " t
    return (values, ← t.dropPrefix? [']'])
  | none => (readQuoted? t).map fun (value, rest) => ([value], rest)

/-- A name with its values. -/
def readProperty? (t : Text) : Option ((Text × List Text) × Text) := do
  let (name, t) ← readQuoted? t
  let (values, rest) ← readValues? (← t.dropPrefix? ": ")
  return ((name, values), rest)

/-- The names and values of an entry for headers that is indented by one level. -/
def readHeaders? (indent source : Text) : Option (List (Text × List Text)) := do
  let t ← source.dropPrefix? (indent ++ "'headers': \x7b\n")
  if t = indent ++ "\x7d" then return []
  let (groups, rest) ←
    readJoined readProperty? (",\n" ++ (indent ++ indent)) (← t.dropPrefix? (indent ++ indent))
  if rest = '\n' :: (indent ++ "\x7d") then return groups else none

/-! ### The text of the entry -/

/-- A literal as it is written. -/
def quotedText (t : Text) : Text := '\'' :: Dialect.javascript.escape t ++ ['\'']

/-- The values of a name as they are written. -/
def valuesText : List Text → Text
  | [v] => quotedText v
  | vs => '[' :: Text.join ", " (vs.map quotedText) ++ [']']

def propertyText (g : Text × List Text) : Text := quotedText g.1 ++ (": " ++ valuesText g.2)

theorem render_quoted (indent t : Text) : Fragment.render indent [quoted t] = quotedText t :=
  List.append_nil _

theorem render_oneOrArray (indent : Text) (vs : List Text) :
    Fragment.render indent (oneOrArray vs) = valuesText vs := by
  have hitems (vs : List Text) :
      Fragment.render indent (.code "[" :: Fragment.join ", " (vs.map fun v => [quoted v]) ++ "]") =
        '[' :: Text.join ", " (vs.map quotedText) ++ [']'] := by
    rw [List.cons_append, Fragment.render_cons, Fragment.render_append, Fragment.render_join,
      List.map_map]
    have hvalue : (Fragment.render indent ∘ fun v => [quoted v]) = quotedText :=
      funext (render_quoted indent)
    rw [hvalue]
    rfl
  match vs with
  | [] => exact hitems []
  | [v] => exact render_quoted indent v
  | v :: w :: vs => exact hitems (v :: w :: vs)

theorem render_property (indent : Text) (g : Text × List Text) :
    Fragment.render indent (property g.1 (oneOrArray g.2)) = propertyText g := by
  rw [property, Fragment.render_cons, Fragment.render_cons, render_oneOrArray]
  rfl

theorem render_commaLines (indent : Text) (groups : List (Text × List Text)) :
    Fragment.render indent (Fragment.commaLines 2 (groupEntries groups)) =
      Text.join (",\n" ++ (indent ++ indent)) (groups.map propertyText) := by
  have hsep : Fragment.render indent [.code ",", .newline 2] = ",\n" ++ (indent ++ indent) := by
    simp [Fragment.render, Piece.render, Text.repeated]
  have hentry : (Fragment.render indent ∘ fun g : Text × List Text =>
      property g.1 (oneOrArray g.2)) = propertyText := funext (render_property indent)
  rw [Fragment.commaLines, Fragment.render_join, hsep, groupEntries, List.map_map]
  exact congrArg (Text.join _) (List.map_congr_left fun g _ => congrFun hentry g)

/-- The entry without headers, and with some of them, line by line. -/
theorem render_headersObject (indent : Text) (groups : List (Text × List Text)) :
    Fragment.renderAt indent 1 (headersObject groups) = (indent ++ "'headers': \x7b\n") ++
      match groups with
      | [] => indent ++ "\x7d"
      | groups => (indent ++ indent) ++ (Text.join (",\n" ++ (indent ++ indent))
          (groups.map propertyText) ++ '\n' :: (indent ++ "\x7d")) := by
  cases groups with
  | nil =>
    simp [headersObject, property, quoted, Fragment.renderAt, Fragment.render, Piece.render,
      Text.repeated]
    rfl
  | cons g gs =>
    simp only [headersObject, property, Fragment.renderAt, List.cons_append, Fragment.render_cons,
      Fragment.render_append, render_commaLines]
    simp [quoted, Fragment.render, Piece.render, Text.repeated]
    rfl

/-! ### Reading it back -/

theorem readQuoted?_quotedText (t rest : Text) :
    readQuoted? (quotedText t ++ rest) = some (t, rest) := by
  have hopened : quotedText t ++ rest =
      ['\''] ++ (Dialect.javascript.escape t ++ '\'' :: rest) := by
    simp [quotedText]
  rw [hopened, readQuoted?, Text.dropPrefix?_append, Option.bind_some,
    Dialect.readLiteral?_escape]

theorem dropPrefix?_bracket (t rest : Text) :
    (quotedText t ++ rest).dropPrefix? ['['] = none := rfl

theorem readValues?_valuesText {vs : List Text} (hv : vs ≠ []) (rest : Text) :
    readValues? (valuesText vs ++ rest) = some (vs, rest) := by
  match vs with
  | [] => exact absurd rfl hv
  | [v] =>
    rw [valuesText, readValues?, dropPrefix?_bracket]
    simp only [readQuoted?_quotedText, Option.map_some]
  | v :: w :: vs =>
    have hopened : valuesText (v :: w :: vs) ++ rest =
        ['['] ++ (Text.join ", " ((v :: w :: vs).map quotedText) ++ (']' :: rest)) := by
      simp [valuesText]
    have hitems : readJoined readQuoted? ", "
        (Text.join ", " ((v :: w :: vs).map quotedText) ++ (']' :: rest)) =
          some (v :: w :: vs, ']' :: rest) :=
      readJoined_join rfl v (fun t _ => readQuoted?_quotedText t) fun t _ => List.cons_ne_nil _ _
    have hclosed : (']' :: rest).dropPrefix? [']'] = some rest := Text.dropPrefix?_append [']'] rest
    rw [hopened, readValues?, Text.dropPrefix?_append]
    simp only [hitems, hclosed, Option.bind_eq_bind, Option.bind_some, Option.pure_def]

theorem readProperty?_propertyText {g : Text × List Text} (hv : g.2 ≠ []) (rest : Text) :
    readProperty? (propertyText g ++ rest) = some (g, rest) := by
  rw [propertyText, List.append_assoc, List.append_assoc, readProperty?, readQuoted?_quotedText]
  simp only [Text.dropPrefix?_append, readValues?_valuesText hv, Option.bind_eq_bind,
    Option.bind_some, Option.pure_def]

/-- Whatever the indentation is, the entry is read back as the groups it was written from. -/
theorem readHeaders?_headersObject (indent : Text) {groups : List (Text × List Text)}
    (hv : ∀ g ∈ groups, g.2 ≠ []) :
    readHeaders? indent (Fragment.renderAt indent 1 (headersObject groups)) = some groups := by
  rw [render_headersObject, readHeaders?, Text.dropPrefix?_append]
  simp only [Option.bind_eq_bind, Option.bind_some]
  cases groups with
  | nil => exact if_pos rfl
  | cons g gs =>
    have hlonger : (indent ++ indent) ++ (Text.join (",\n" ++ (indent ++ indent))
        ((g :: gs).map propertyText) ++ '\n' :: (indent ++ "\x7d")) ≠ indent ++ "\x7d" := by
      intro h
      have hlength := congrArg List.length h
      simp only [List.length_append, List.length_cons] at hlength
      omega
    have hproperties : readJoined readProperty? (",\n" ++ (indent ++ indent))
        (Text.join (",\n" ++ (indent ++ indent)) ((g :: gs).map propertyText) ++
          '\n' :: (indent ++ "\x7d")) = some (g :: gs, '\n' :: (indent ++ "\x7d")) :=
      readJoined_join rfl g (fun b hb => readProperty?_propertyText (hv b hb))
        fun b _ => List.cons_ne_nil _ _
    rw [if_neg hlonger, Text.dropPrefix?_append]
    simp only [hproperties, Option.bind_some, if_true, Option.pure_def]

/-- A reader of tokens, which knows nothing of the layout, finds the same where the indentation is
white space. -/
theorem headers?_headersObject {indent : Text} (hi : ∀ c ∈ indent, isSpacing c = true)
    {groups : List (Text × List Text)} (hv : ∀ g ∈ groups, g.2 ≠ []) :
    headers? (Fragment.renderAt indent 1 (headersObject groups)) = some groups := by
  have hunquoted := unquoted_of_spacing (d := .javascript) hi
  have hfits : Fragment.Fits .javascript
      (.code (Text.repeated 1 indent) :: headersObject groups) :=
    Fragment.fits_cons.mpr ⟨unquoted_repeated hunquoted 1, (plain_headersObject groups).fits⟩
  have hleading := Fragment.leading_render hunquoted hfits []
  rw [List.append_nil] at hleading
  have hpasses : Passes "headers" (codeTokens (Text.repeated 1 indent)) :=
    passes_of_notMem (literal_notMem_codeTokens _ _ _)
  show (behindBrace? "headers" (Dialect.javascript.leading .code (Fragment.render indent
    (.code (Text.repeated 1 indent) :: headersObject groups)))).bind _ = some groups
  rw [hleading, Fragment.tokens_cons, Piece.tokens, tokens_headersObject, List.append_assoc,
    hpasses, List.cons_append, behindBrace?, if_pos rfl, List.append_assoc, behind?_append,
    Option.some_or, List.append_assoc]
  exact readEntries_headerLines hi hv _

/-- The entry for the headers reads back as the names of the enabled headers without white space
around them, each once and where it first stood, with the values of all enabled headers of that name
in their order. So each enabled header is there once and nothing else is. It makes no difference
whether names are compared before or after they are escaped. -/
theorem readHeaders?_headersEntry (r : Request) (indent : Text) :
    let source := (headersEntry r).renderAt indent 1
    let sent := r.headers.filter (!·.disabled)
    ∃ groups, readHeaders? indent source = some groups ∧
      ((∀ c ∈ indent, isSpacing c = true) → headers? source = some groups) ∧
      (groups.map (·.1)).Nodup ∧ groups.map (·.1) = (sent.map (·.key.strip)).eraseDups ∧
      (∀ g ∈ groups, g.2 = (sent.filter (·.key.strip = g.1)).map (·.value)) ∧
      (ungroup groups).Perm (sent.map fun h => (h.key.strip, h.value)) ∧
      groupByKey (sent.map fun h =>
          (Dialect.javascript.escape h.key.strip, Dialect.javascript.escape h.value)) =
        groups.map fun g => (Dialect.javascript.escape g.1, g.2.map Dialect.javascript.escape) := by
  intro source sent
  have hv : ∀ g ∈ headerGroups r, g.2 ≠ [] := fun g hg => values_ne_nil_of_mem hg
  have hnames : (headerGroups r).map (·.1) = (sent.map (·.key.strip)).eraseDups := by
    rw [headerGroups, groupByKey_eq, List.map_map, List.map_map]
    exact List.map_id _
  refine ⟨headerGroups r, readHeaders?_headersObject indent hv,
    fun hi => headers?_headersObject hi hv, ?_, hnames, ?_, ungroup_groupByKey_perm _, ?_⟩
  · rw [hnames]
    exact nodup_eraseDups _
  · intro g hg
    rw [headerGroups, groupByKey_eq] at hg
    obtain ⟨k, -, rfl⟩ := List.mem_map.mp hg
    show valuesOf k (sent.map fun h => (h.key.strip, h.value)) = _
    simp [valuesOf, List.filter_map, Function.comp_def]
  · rw [headerGroups, ← groupByKey_map (Dialect.escape_injective .javascript), List.map_map]
    rfl

/-- Names with margins are one name, and texts that would break a literal come back as they are. -/
theorem readHeaders?_headersEntry_of_margins :
    let r : Request := { headers := [{ key := " X-Tag", value := "it's" },
      { key := "Off", value := "x", disabled := true }, { key := "A", value := "1\r\n" },
      { key := "X-Tag\t", value := "\\" }] }
    let indent : Text := "\t "
    let group : Text × List Text := ("A", ["1\r\n"])
    let groups : List (Text × List Text) := [("X-Tag", ["it's", "\\"]), group]
    (∀ c ∈ indent, isSpacing c = true) ∧ group ∈ groups ∧
      headers? ((headersEntry r).renderAt indent 1) = some groups ∧
        group.2 =
          ((r.headers.filter (!·.disabled)).filter (·.key.strip = group.1)).map (·.value) := by
  intro r indent group groups
  have hindent : ∀ c ∈ indent, isSpacing c = true := by simp [indent, isSpacing]
  have hmem : group ∈ groups := List.mem_cons_of_mem _ List.mem_cons_self
  have hgroups : readHeaders? indent ((headersEntry r).renderAt indent 1) = some groups := by
    decide +kernel
  obtain ⟨read, hread, hheaders, -, -, hvalues, -⟩ := readHeaders?_headersEntry r indent
  obtain rfl : groups = read := Option.some.inj (hgroups.symm.trans hread)
  exact ⟨hindent, hmem, hheaders hindent, hvalues group hmem⟩

end Node
end HttpSnippet

import HttpSnippet.Proofs.Form.Multipart
import HttpSnippet.Proofs.Form.Urlencoded

/-!
# Forms with uploads

A PHP program adds the text members of a form with one call and every file with a call of its own.
The statements are read back as these calls, and so both targets send the same items.
-/
namespace HttpSnippet

open Fragment

namespace Php

/-- A call that adds to a form. -/
inductive Call where
  | fields (pairs : List (Text × Text))
  | upload (arguments : List Text)
deriving DecidableEq, Repr

/-- Texts with commas between them. -/
def readArguments (ending : List Symbol) : List Symbol → Option (List Text)
  | .text t :: .mark ',' :: s => (readArguments ending s).map (t :: ·)
  | .text t :: s => if s = ending then some [t] else none
  | _ => none

/-- What follows the marks of some code. -/
def after? (code : Text) (s : List Symbol) : Option (List Symbol) :=
  if (marks code).isPrefixOf s then some (s.drop (marks code).length) else none

def readCall? (s : List Symbol) : Option Call :=
  match after? "$request->addPostParameter(array(" s with
  | some s => (readArrows (marks "))") s).map .fields
  | none => do
    let s ← after? "$request->addUpload(" s
    (readArguments (marks ")") s).map .upload

/-- The calls of statements that each end with a semicolon. -/
def readCalls? (source : Text) : Option (List Call) := do
  let s ← Dialect.php.symbols? (← Dialect.php.tokens? source)
  let statements := s.splitOn (.mark ';')
  if statements.getLast? = some [] then statements.dropLast.mapM readCall? else none

/-- The key and the value of a text item. -/
def field? : FormItem → Option (Text × Text)
  | .text key value _ => some (key, value)
  | .file _ _ _ => none

/-- The key, the path, the name and the content type of a file item. -/
def upload? : FormItem → Option (List Text)
  | .text _ _ _ => none
  | .file key path contentType => some ([key, path, fileName path] ++ contentType.toList)

/-- The calls for the items of a form: one for all texts, if there are any, and one for each
file. -/
def calls (items : List FormItem) : List Call :=
  (match items.filterMap field? with
    | [] => []
    | pairs => [.fields pairs]) ++ (items.filterMap upload?).map .upload

/-! ### Symbols of statements -/

def argumentSymbols (arguments : List Text) : List Symbol :=
  [Symbol.mark ','].intercalate (arguments.map fun t => [.text t])

def Call.symbols : Call → List Symbol
  | .fields pairs => marks "$request->addPostParameter(array(" ++ arrowSymbols pairs ++ marks "))"
  | .upload arguments => marks "$request->addUpload(" ++ argumentSymbols arguments ++ marks ")"

/-- A call with something to add. -/
def Call.Nonempty : Call → Prop
  | .fields pairs => pairs ≠ []
  | .upload arguments => arguments ≠ []

theorem readArguments_arguments {ending : List Symbol} (he : ∀ s, ending ≠ .mark ',' :: s)
    (t : Text) (ts : List Text) :
    readArguments ending (argumentSymbols (t :: ts) ++ ending) = some (t :: ts) := by
  induction ts generalizing t with
  | nil =>
    have hone : argumentSymbols [t] = [.text t] := rfl
    rw [hone]
    simp only [List.cons_append, List.nil_append]
    rw [readArguments]
    · rw [if_pos rfl]
    · exact he
  | cons t' ts ih =>
    have hcons : argumentSymbols (t :: t' :: ts) =
        .text t :: .mark ',' :: argumentSymbols (t' :: ts) := by
      simp [argumentSymbols, List.intercalate_cons_cons]
    rw [hcons, List.cons_append, List.cons_append, readArguments, ih]
    rfl

theorem after?_append (code : Text) (s : List Symbol) : after? code (marks code ++ s) = some s := by
  rw [after?, if_pos (by simp [List.isPrefixOf_iff_prefix]), List.drop_left]

theorem readCall?_symbols {c : Call} (hc : c.Nonempty) : readCall? c.symbols = some c := by
  cases c with
  | fields pairs =>
    obtain ⟨p, ps, rfl⟩ := List.exists_cons_of_ne_nil hc
    have hread : readArrows (marks "))") (arrowSymbols (p :: ps) ++ marks "))") = some (p :: ps) :=
      readArrows_arrows (by rintro s ⟨⟩) p ps
    rw [Call.symbols, List.append_assoc, readCall?, after?_append]
    simp only [hread, Option.map_some]
  | upload arguments =>
    obtain ⟨t, ts, rfl⟩ := List.exists_cons_of_ne_nil hc
    have hother (s : List Symbol) :
        after? "$request->addPostParameter(array(" (marks "$request->addUpload(" ++ s) = none := rfl
    have hread : readArguments (marks ")") (argumentSymbols (t :: ts) ++ marks ")") =
        some (t :: ts) := readArguments_arguments (by rintro s ⟨⟩) t ts
    rw [Call.symbols, List.append_assoc, readCall?, hother, after?_append]
    simp only [Option.bind_eq_bind, Option.bind_some, hread, Option.map_some]

theorem semicolon_notMem_intercalate {ls : List (List Symbol)}
    (h : ∀ l ∈ ls, Symbol.mark ';' ∉ l) :
    Symbol.mark ';' ∉ [Symbol.mark ','].intercalate ls := by
  induction ls with
  | nil => simp [List.intercalate]
  | cons l ls ih =>
    obtain ⟨hl, hls⟩ := List.forall_mem_cons.mp h
    cases ls with
    | nil => simpa [List.intercalate] using hl
    | cons l' ls =>
      rw [List.intercalate_cons_cons]
      simp [hl, ih hls]

theorem semicolon_notMem_symbols (c : Call) : Symbol.mark ';' ∉ c.symbols := by
  cases c with
  | fields pairs =>
    have harrows : Symbol.mark ';' ∉ arrowSymbols pairs := by
      refine semicolon_notMem_intercalate fun l hl => ?_
      obtain ⟨p, -, rfl⟩ := List.mem_map.mp hl
      simp
    rw [Call.symbols, List.mem_append, List.mem_append, not_or, not_or]
    exact ⟨⟨by decide, harrows⟩, by decide⟩
  | upload arguments =>
    have harguments : Symbol.mark ';' ∉ argumentSymbols arguments := by
      refine semicolon_notMem_intercalate fun l hl => ?_
      obtain ⟨t, -, rfl⟩ := List.mem_map.mp hl
      simp
    rw [Call.symbols, List.mem_append, List.mem_append, not_or, not_or]
    exact ⟨⟨by decide, harguments⟩, by decide⟩

/-! ### Programs of calls -/

def Call.line : Call → Line
  | .fields pairs => setter "addPostParameter" (array (arrows pairs))
  | .upload arguments => setter "addUpload" (join ", " (arguments.map fun t => [quoted t]))

theorem plain_setter {method : Text} (hm : Dialect.php.Unquoted ("$request->" ++ method ++ "("))
    {arguments : Fragment} (ha : Plain .php arguments) :
    Plain .php (setter method arguments).content := by
  simp only [setter, List.cons_append, plain_cons, plain_append, plain_nil, Piece.plain_code]
  exact ⟨hm, ha, by decide, trivial⟩

theorem plain_line (c : Call) : Plain .php c.line.content := by
  cases c with
  | fields pairs =>
    refine plain_setter (by decide) ?_
    simp only [array, plain_append, plain_cons, plain_nil, Piece.plain_code, Piece.plain_newline]
    exact ⟨⟨⟨by decide, trivial, trivial⟩, plain_commaLines 1 (plain_arrows pairs)⟩, trivial,
      by decide, trivial⟩
  | upload arguments =>
    refine plain_setter (by decide) (plain_join (by simp) fun f hf => ?_)
    obtain ⟨t, -, rfl⟩ := List.mem_map.mp hf
    simp [quoted]

theorem symbols_line (c : Call) : symbols c.line.content = c.symbols ++ [.mark ';'] := by
  cases c with
  | fields pairs =>
    have hmap : (arrows pairs).map symbols =
        pairs.map fun p => [.text p.1, .mark '=', .mark '>', .text p.2] := by
      rw [arrows, List.map_map]
      rfl
    simp only [Call.line, setter, array, List.cons_append, List.nil_append, symbols_append,
      symbols_cons, symbols_nil, symbols_commaLines, hmap, Call.symbols, arrowSymbols,
      List.append_assoc]
    rfl
  | upload arguments =>
    have hmap : (arguments.map fun t => ([quoted t] : Fragment)).map symbols =
        arguments.map fun t => [.text t] := by
      rw [List.map_map]
      rfl
    simp only [Call.line, setter, List.cons_append, symbols_append, symbols_cons, symbols_join,
      symbols_nil, hmap, Call.symbols, argumentSymbols, List.append_assoc]
    rfl

/-- Statements are separated by their semicolons, with nothing behind the last one. -/
theorem flatMap_symbols (cs : List Call) :
    cs.flatMap (fun c => c.symbols ++ [Symbol.mark ';']) =
      [Symbol.mark ';'].intercalate (cs.map Call.symbols ++ [[]]) := by
  induction cs with
  | nil => rfl
  | cons c cs ih =>
    rw [List.flatMap_cons, ih]
    cases cs with
    | nil => simp [List.intercalate]
    | cons c' cs => simp [List.intercalate_cons_cons]

theorem readCalls?_lines {indent : Text} (hi : ∀ c ∈ indent, isSpacing c = true)
    {cs : List Call} (hcs : ∀ c ∈ cs, c.Nonempty) :
    readCalls? (Program.render indent (cs.map Call.line)) = some cs := by
  have hplain : Plain .php (Program.flat indent (cs.map Call.line)) := by
    refine Program.plain_flat hi fun l hl => ?_
    obtain ⟨c, -, rfl⟩ := List.mem_map.mp hl
    exact plain_line c
  have htokens := tokens?_render (unquoted_of_spacing hi) hplain.fits
  have hsymbols : symbols (Program.flat indent (cs.map Call.line)) =
      [Symbol.mark ';'].intercalate (cs.map Call.symbols ++ [[]]) := by
    rw [Program.symbols_flat hi, Program.symbols, List.flatMap_map]
    simp only [symbols_line, flatMap_symbols]
  have hmarks : ∀ l ∈ cs.map Call.symbols ++ [[]], Symbol.mark ';' ∉ l := by
    refine List.forall_mem_append.mpr ⟨fun l hl => ?_, by simp⟩
    obtain ⟨c, -, rfl⟩ := List.mem_map.mp hl
    exact semicolon_notMem_symbols c
  have hsplit := List.splitOn_intercalate (Symbol.mark ';') hmarks (by simp)
  rw [Program.render_flat] at htokens
  simp only [readCalls?, htokens, symbols?_tokens hi hplain, hsymbols, hsplit,
    Option.bind_eq_bind, Option.bind_some, List.getLast?_concat, if_true, List.dropLast_concat]
  clear htokens hsymbols hsplit hmarks hplain
  induction cs with
  | nil => rfl
  | cons c cs ih =>
    obtain ⟨hc, hrest⟩ := List.forall_mem_cons.mp hcs
    rw [List.map_cons, List.mapM_cons, readCall?_symbols hc, ih hrest]
    rfl

/-! ### Bodies -/

theorem filterMap_field? (trim : Bool) (params : List FormParam) :
    (params.map (·.item trim)).filterMap field? = (params.filter (·.kind = .text)).map fun p =>
      (p.key.trimmed trim, p.value.trimmed trim) := by
  induction params with
  | nil => rfl
  | cons p ps ih =>
    have hitem : field? (p.item trim) =
        if p.kind = .text then some (p.key.trimmed trim, p.value.trimmed trim) else none := by
      unfold FormParam.item
      cases p.kind <;> rfl
    rw [List.map_cons, List.filterMap_cons, hitem, ih]
    by_cases hkind : p.kind = .text <;> simp [hkind]

theorem filterMap_upload? (trim : Bool) (params : List FormParam) :
    (params.map (·.item trim)).filterMap upload? = (params.filter (·.kind = .file)).map fun p =>
      [p.key.trimmed trim, p.path, fileName p.path] ++ (nonempty? p.contentType).toList := by
  induction params with
  | nil => rfl
  | cons p ps ih =>
    have hitem : upload? (p.item trim) =
        if p.kind = .file then
          some ([p.key.trimmed trim, p.path, fileName p.path] ++ (nonempty? p.contentType).toList)
        else none := by
      unfold FormParam.item
      cases p.kind <;> rfl
    rw [List.map_cons, List.filterMap_cons, hitem, ih]
    by_cases hkind : p.kind = .file <;> simp [hkind]

/-- The statements of a form are the lines of its calls. -/
theorem formdataBody_eq (trim : Bool) (params : List FormParam) :
    formdataBody trim params =
      (calls ((params.filter (!·.disabled)).map (·.item trim))).map Call.line := by
  have harrows (texts : List FormParam) :
      (texts.map fun p => arrow (p.key.trimmed trim) [quoted (p.value.trimmed trim)]) =
        arrows (texts.map fun p => (p.key.trimmed trim, p.value.trimmed trim)) := by
    rw [arrows, List.map_map]
    rfl
  rw [calls, filterMap_field?, filterMap_upload?, formdataBody, harrows, List.map_append,
    List.map_map, List.map_map]
  generalize ((params.filter (!·.disabled)).filter (·.kind = .text)).map
    (fun p => (p.key.trimmed trim, p.value.trimmed trim)) = pairs
  congr 1
  cases pairs with
  | nil => rfl
  | cons p ps => rfl

theorem nonempty_of_mem_calls {items : List FormItem} {c : Call} (h : c ∈ calls items) :
    c.Nonempty := by
  rcases List.mem_append.mp h with h | h
  · split at h
    · cases h
    · next hne =>
      rw [List.mem_singleton.mp h]
      exact hne
  · obtain ⟨arguments, hmem, rfl⟩ := List.mem_map.mp h
    obtain ⟨item, -, hitem⟩ := List.mem_filterMap.mp hmem
    cases item with
    | text key value contentType => cases hitem
    | file key path contentType =>
      obtain rfl := Option.some.inj hitem
      exact List.cons_ne_nil _ _

end Php

/-- Expanding a form and writing it keeps its items in either target. A Node expression evaluates to
the parts of the items, whatever the files contain, and never has one text next to another; a PHP
program adds the text items with one call and every file item with a call of its own. -/
theorem read_formdataBodies (indent : Text) (hi : ∀ c ∈ indent, c = ' ' ∨ c = '\t') (trim : Bool)
    (boundary : Text) (b : Body) (params : List FormParam) :
    let body : Body := { b with mode := BodyMode.formdata.name, formdata := some params }
    let items := formItems trim params
    ∃ sent, body.expandFormdata.formdata = some sent ∧
      (∃ chunks, Node.readSum? ((Node.formdataBody trim boundary sent).render indent) =
          some chunks ∧
        Node.Merged chunks ∧
        ∀ contents, Node.evaluate contents chunks = multipartText boundary contents items) ∧
      Php.readCalls? ((Php.formdataBody trim sent).render indent) = some (Php.calls items) := by
  intro body items
  have hspacing : ∀ c ∈ indent, isSpacing c = true := by
    intro c hc
    rcases hi c hc with rfl | rfl <;> rfl
  have hitems := formItems_eq trim params
  refine ⟨params.flatMap (·.expand), rfl,
    ⟨Node.formChunks trim boundary (params.flatMap (·.expand)), ?_,
      Node.merged_formChunks trim boundary _, ?_⟩, ?_⟩
  · obtain ⟨t, rest, hchunks⟩ :=
      Node.formChunks_eq_cons trim boundary (params.flatMap (·.expand))
    exact Node.readSum?_concatenation hspacing (by simp [hchunks])
  · intro contents
    rw [Node.evaluate_formChunks, hitems]
  · rw [Php.formdataBody_eq, hitems]
    exact Php.readCalls?_lines hspacing fun c => Php.nonempty_of_mem_calls

theorem read_formdataBodies_of_files :
    let params : List FormParam := [{ key := " a", value := "\"1\" " },
      { key := "f", kind := .file, src := .list [.str "x/y.png", .int 3] },
      { key := "g", kind := .file, contentType := some "text/plain" },
      { key := "h", disabled := true }]
    let body : Body := { mode := "formdata", formdata := some params }
    let items : List FormItem := [.text "a" "\"1\"" none, .file "f" "x/y.png" none,
      .file "f" "/path/to/file" none, .file "g" "/path/to/file" (some "text/plain")]
    ∃ sent, body.expandFormdata.formdata = some sent ∧
      (∃ chunks, Node.readSum? ((Node.formdataBody true "b" sent).render "\t") = some chunks ∧
        Node.Merged chunks ∧
        ∀ contents, Node.evaluate contents chunks = multipartText "b" contents items) ∧
      Php.readCalls? ((Php.formdataBody true sent).render "\t") = some (Php.calls items) := by
  intro params body items
  have hitems : formItems true params = items := by decide
  have h := read_formdataBodies "\t" (by simp) true "b" body params
  simp only [hitems] at h
  exact h

end HttpSnippet

import HttpSnippet.Proofs.Containment.Node
import HttpSnippet.Proofs.Disabled.Snippet
import HttpSnippet.Proofs.Form.Grouping
import HttpSnippet.Proofs.Source.Object
import HttpSnippet.Proofs.Source.Search

/-!
# Headers read back from a program

A reader takes a whole Node program, looks for the object of headers and reads its entries. It finds
what the program was written from, whatever the other parts of the request are: a boundary may break
the program further down, and a text that looks like the object stays inside its literal.
-/
namespace HttpSnippet

/-! ### Tokens up to a broken literal -/

/-- The tokens of a text, up to the first literal that is broken or not closed. -/
def Dialect.leading (d : Dialect) : State → Text → List Token
  | _, [] => []
  | .code, c :: t => if d.opens c then d.leading (.inside c []) t else .code c :: d.leading .code t
  | .inside q s, c :: t =>
    if d.bars c then []
    else if c = '\\' then d.leading (.escaped q (s ++ [c])) t
    else if c = q then .literal q s :: d.leading .code t
    else d.leading (.inside q (s ++ [c])) t
  | .escaped q s, c :: t => if d.bars c then [] else d.leading (.inside q (s ++ [c])) t

variable {d : Dialect} {indent : Text}

/-- What has been scanned stays, whatever follows. -/
theorem Dialect.leading_append {state : State} {t : Text} {ts : List Token}
    (h : d.scan state t = some ts) (rest : Text) :
    d.leading state (t ++ rest) = ts ++ d.leading .code rest := by
  induction t generalizing state ts with
  | nil =>
    cases state with
    | code =>
      obtain rfl := Option.some.inj h
      rfl
    | inside q s => cases h
    | escaped q s => cases h
  | cons c t ih =>
    cases state with
    | code =>
      rw [scan] at h
      rw [List.cons_append, leading]
      by_cases hc : d.opens c = true
      · rw [if_pos hc] at h ⊢
        exact ih h
      · rw [if_neg hc] at h ⊢
        obtain ⟨us, hus, rfl⟩ := Option.map_eq_some_iff.mp h
        rw [ih hus, List.cons_append]
    | inside q s =>
      rw [scan] at h
      rw [List.cons_append, leading]
      by_cases hb : d.bars c = true
      · rw [if_pos hb] at h
        cases h
      rw [if_neg hb] at h ⊢
      by_cases hs : c = '\\'
      · rw [if_pos hs] at h ⊢
        exact ih h
      rw [if_neg hs] at h ⊢
      by_cases hq : c = q
      · rw [if_pos hq] at h ⊢
        obtain ⟨us, hus, rfl⟩ := Option.map_eq_some_iff.mp h
        rw [ih hus, List.cons_append]
      · rw [if_neg hq] at h ⊢
        exact ih h
    | escaped q s =>
      rw [scan] at h
      rw [List.cons_append, leading]
      by_cases hb : d.bars c = true
      · rw [if_pos hb] at h
        cases h
      · rw [if_neg hb] at h ⊢
        exact ih h

theorem Fragment.leading_render (hi : d.Unquoted indent) {f : Fragment} (hf : f.Fits d)
    (rest : Text) :
    d.leading .code (f.render indent ++ rest) = f.tokens indent ++ d.leading .code rest :=
  Dialect.leading_append (tokens?_render hi hf) rest

/-! ### The reader -/

/-- What follows the opening brace of the object that a property holds. -/
def behindBrace? (name : Text) : List Token → Option (List Token)
  | [] => none
  | t :: ts =>
    if t = .literal '\'' name then (behind? ": \x7b" ts).or (behindBrace? name ts)
    else behindBrace? name ts

/-- Nothing in these tokens, and no end of them, holds an object of the name. -/
def Passes (name : Text) (ts : List Token) : Prop :=
  ∀ rest, behindBrace? name (ts ++ rest) = behindBrace? name rest

theorem Passes.append {name : Text} {ts us : List Token} (ht : Passes name ts)
    (hu : Passes name us) : Passes name (ts ++ us) := by
  intro rest
  rw [List.append_assoc, ht, hu]

theorem passes_of_notMem {name : Text} {ts : List Token} (h : .literal '\'' name ∉ ts) :
    Passes name ts := by
  intro rest
  induction ts with
  | nil => rfl
  | cons t ts ih =>
    obtain ⟨ht, hts⟩ := not_or.mp (mt List.mem_cons.mpr h)
    rw [List.cons_append, behindBrace?, if_neg (Ne.symm ht)]
    exact ih hts

theorem passes_flat {name : Text} (indent : Text) {p : Program}
    (h : ∀ l ∈ p, ∀ q ∈ l.content, Piece.holds name q = false) :
    Passes name ((p.flat indent).tokens indent) :=
  passes_of_notMem (literal_notMem_flat indent h)

theorem literal_notMem_codeTokens (q : Char) (s t : Text) : .literal q s ∉ codeTokens t := by
  simp [codeTokens]

/-- A literal in front of a comma holds no object, whatever its text is. -/
theorem passes_literal_comma (name : Text) (q : Char) (s : Text) :
    Passes name [.literal q s, .code ','] := by
  intro rest
  have hbehind : behind? ": \x7b" (.code ',' :: rest) = none := rfl
  have hrest : behindBrace? name (.code ',' :: rest) = behindBrace? name rest :=
    passes_of_notMem (literal_notMem_codeTokens '\'' name [',']) rest
  rw [List.cons_append, List.cons_append, List.nil_append, behindBrace?, hbehind, hrest,
    Option.none_or, ite_self]

namespace Node

/-- The names in the object of headers of a program, each with its values. -/
def headers? (t : Text) : Option (List (Text × List Text)) := do
  let ts ← behindBrace? "headers" (Dialect.javascript.leading .code t)
  readEntries [] .start (← Dialect.javascript.symbols? (ts.takeWhile (· ≠ .code '\x7d')))

/-- A port is written as a number or as a text. -/
theorem eq_of_mem_portEntries {r : Request} {port : List Fragment} (h : portEntries r = .ok port)
    {f : Fragment} (hf : f ∈ port) :
    (∃ n, f = property "port" [.code (Text.ofInt n)]) ∨ ∃ t, f = property "port" [quoted t] := by
  unfold portEntries at h
  split at h
  · cases hentry : portEntry r with
    | error e => simp [hentry, Except.map] at h
    | ok g =>
      obtain rfl : [g] = port := by simpa [hentry, Except.map] using h
      obtain rfl := List.mem_singleton.mp hf
      unfold portEntry at hentry
      dsimp only at hentry
      split at hentry
      · split at hentry
        · exact .inl ⟨_, (Except.ok.inj hentry).symm⟩
        · cases hentry
      · exact .inr ⟨_, (Except.ok.inj hentry).symm⟩
  · obtain rfl := Except.ok.inj h
    cases hf

/-! ### What stands in front of the headers -/

section

variable (indent : Text)

/-- The tokens of an entry with a comma hold no headers. -/
def EntryPasses (f : Fragment) : Prop :=
  Passes "headers" (f.tokens indent ++ codeTokens ",")

theorem entryPasses_quoted {name : Text} (h : Dialect.javascript.escape name ≠ ("headers" : Text))
    (t : Text) : EntryPasses indent (property name [quoted t]) := by
  have hname : Passes "headers" (.literal '\'' (Dialect.javascript.escape name) ::
      codeTokens ": ") := by
    refine passes_of_notMem ?_
    simpa [codeTokens] using Ne.symm h
  exact hname.append (passes_literal_comma _ _ _)

theorem entryPasses_code {name : Text} (h : Dialect.javascript.escape name ≠ ("headers" : Text))
    (t : Text) : EntryPasses indent (property name [.code t]) := by
  refine passes_of_notMem ?_
  simpa [property, quoted, Fragment.tokens, Piece.tokens, codeTokens] using Ne.symm h

theorem entryPasses_port {r : Request} {port : List Fragment} (h : portEntries r = .ok port) :
    ∀ f ∈ port, EntryPasses indent f := by
  have hname : Dialect.javascript.escape "port" ≠ ("headers" : Text) := by decide
  intro f hf
  rcases eq_of_mem_portEntries h hf with ⟨n, rfl⟩ | ⟨t, rfl⟩
  · exact entryPasses_code indent hname _
  · exact entryPasses_quoted indent hname _

/-- What stands in front of an entry passes, if each entry there does. -/
theorem exists_tokens_commaLines {before : List Fragment} (hb : ∀ f ∈ before, EntryPasses indent f)
    (f : Fragment) (after : List Fragment) :
    ∃ u v, (Fragment.commaLines 1 (before ++ f :: after)).tokens indent =
      u ++ f.tokens indent ++ v ∧ Passes "headers" u := by
  induction before with
  | nil =>
    cases after with
    | nil => exact ⟨[], [], by simp [Fragment.commaLines, Fragment.join], fun _ => rfl⟩
    | cons g gs =>
      refine ⟨[], Fragment.tokens indent ([.code ",", .newline 1] ++
        Fragment.commaLines 1 (g :: gs)), ?_, fun _ => rfl⟩
      rw [List.nil_append, Fragment.commaLines, Fragment.join_cons_cons, ← Fragment.commaLines]
      simp only [Fragment.tokens, List.flatMap_append, List.nil_append, List.append_assoc]
  | cons e es ih =>
    obtain ⟨he, hes⟩ := List.forall_mem_cons.mp hb
    obtain ⟨u, v, htokens, hu⟩ := ih hes
    obtain ⟨g, gs, hg⟩ := List.exists_cons_of_ne_nil (l := es ++ f :: after) (by simp)
    have hbreak : Passes "headers" (codeTokens ('\n' :: Text.repeated 1 indent)) :=
      passes_of_notMem (literal_notMem_codeTokens _ _ _)
    refine ⟨e.tokens indent ++ codeTokens "," ++
      (codeTokens ('\n' :: Text.repeated 1 indent) ++ u), v, ?_, he.append (hbreak.append hu)⟩
    rw [List.cons_append, hg, Fragment.commaLines, Fragment.join_cons_cons, ← hg]
    rw [← Fragment.commaLines]
    simp only [Fragment.tokens, List.flatMap_append] at htokens ⊢
    rw [htokens]
    simp [Piece.tokens]

end

/-- The lines of a program down to the one that opens the options object. -/
def opening (o : Options) (client : Text) (usesQuerystring : Bool) : Program :=
  [clientLine client o.followRedirect, requireLine "fs" "fs" []] ++
    Program.when usesQuerystring [requireLine "qs" "querystring" []] ++
    [.blank, ⟨0, "const options = \x7b"⟩]

/-- The lines of a program behind the entries of the options object. -/
def closing (o : Options) (client : Text) (sending : Program) : Program :=
  [⟨0, "\x7d;"⟩, .blank] ++ requestLines client ++ sending ++
    Program.when (o.requestTimeout ≠ 0) (timeoutLines o.requestTimeout) ++ [⟨0, "req.end();"⟩]

theorem layout_eq (o : Options) (client : Text) (usesQuerystring : Bool) (entries : List Fragment)
    (sending : Program) :
    layout o client usesQuerystring entries sending =
      opening o client usesQuerystring ++
        ⟨1, Fragment.commaLines 1 entries⟩ :: closing o client sending := by
  simp only [layout, opening, closing, List.append_assoc, List.cons_append, List.nil_append]

theorem fits_opening {o : Options} {client : Text} (hc : Dialect.javascript.Unquoted client)
    (usesQuerystring : Bool) : (opening o client usesQuerystring).Fits .javascript := by
  have hquery : Program.Fits .javascript
      (Program.when usesQuerystring [requireLine "qs" "querystring" []]) :=
    Program.fits_when fun _ => by
      simpa using fits_requireLine (by decide) Dialect.unquoted_nil
  have hfs : Fragment.Fits .javascript (requireLine "fs" "fs" []).content :=
    fits_requireLine (by decide) Dialect.unquoted_nil
  simp only [opening, Line.blank, List.cons_append, List.nil_append, Program.fits_cons,
    Program.fits_append, Program.fits_nil, Fragment.fits_cons, Fragment.fits_nil,
    Piece.fits_code, fits_clientLine hc, hfs, hquery]
  decide

theorem clientModule_cases (r : Request) :
    clientModule r = ("http" : Text) ∨ clientModule r = ("https" : Text) := by
  unfold clientModule
  split
  · exact .inl rfl
  · exact .inr rfl

theorem passes_opening (indent : Text) (o : Options) (r : Request) (usesQuerystring : Bool) :
    Passes "headers"
      (((opening o (clientModule r) usesQuerystring).flat indent).tokens indent) := by
  refine passes_flat indent ?_
  unfold opening clientLine
  -- the lines are fixed but for these choices
  rcases clientModule_cases r with h | h <;> rw [h] <;> cases o.followRedirect <;>
    cases usesQuerystring <;> decide

/-! ### The headers -/

/-- What stands in the braces of the object of headers. -/
def headerLines (groups : List (Text × List Text)) : Fragment :=
  match groups with
  | [] => [.newline 1]
  | _ => .newline 2 :: Fragment.commaLines 2 (groupEntries groups) ++ [.newline 1]

theorem tokens_headersObject (indent : Text) (groups : List (Text × List Text)) :
    (headersObject groups).tokens indent = .literal '\'' "headers" ::
      (codeTokens ": \x7b" ++ ((headerLines groups).tokens indent ++ [.code '\x7d'])) := by
  have hopened : headersObject groups = [quoted "headers", .code ": ", .code "\x7b"] ++
      (headerLines groups ++ [.code "\x7d"]) := by
    cases groups with
    | nil => rfl
    | cons g gs =>
      simp only [headersObject, headerLines, property, List.cons_append, List.nil_append,
        List.append_assoc]
  rw [hopened]
  simp only [Fragment.tokens, List.flatMap_append]
  rfl

theorem plain_headerLines (groups : List (Text × List Text)) :
    Fragment.Plain .javascript (headerLines groups) := by
  have hlines := Fragment.plain_commaLines 2 (plain_groupEntries groups)
  unfold headerLines
  split
  · simp
  · simp [hlines]

theorem symbols_headerLines (groups : List (Text × List Text)) :
    (headerLines groups).symbols = entrySymbols groups := by
  cases groups with
  | nil => rfl
  | cons g gs =>
    simp only [headerLines, List.cons_append, Fragment.symbols_cons, Fragment.symbols_append,
      Fragment.symbols_commaLines]
    exact List.append_nil _

/-- Whether a piece is code that closes a brace. -/
def closesBrace : Piece → Bool
  | .code t => t.contains '\x7d'
  | .newline _ | .literal _ _ | .string _ _ | .verbatim _ => false

theorem closesBrace_eq_shows (p : Piece) : closesBrace p = p.shows '\x7d' := by cases p <;> rfl

theorem brace_notMem_tokens {indent : Text} (hi : ∀ c ∈ indent, isSpacing c = true) {f : Fragment}
    (h : ∀ p ∈ f, closesBrace p = false) : .code '\x7d' ∉ f.tokens indent := by
  simp only [closesBrace_eq_shows] at h
  exact Fragment.code_notMem_tokens hi rfl h

theorem closesBrace_oneOrArray (vs : List Text) : ∀ p ∈ oneOrArray vs, closesBrace p = false := by
  have hjoin : ∀ p ∈ Fragment.join ", " (vs.map fun v => [quoted v]), closesBrace p = false := by
    refine Fragment.forall_mem_join (by decide) fun f hf => ?_
    obtain ⟨v, -, rfl⟩ := List.mem_map.mp hf
    simp [quoted, closesBrace]
  unfold oneOrArray
  split
  · simp [quoted, closesBrace]
  · simp only [List.cons_append, List.forall_mem_cons, List.forall_mem_append]
    exact ⟨by decide, hjoin, by decide⟩

/-- No brace stands between the braces. -/
theorem closesBrace_headerLines (groups : List (Text × List Text)) :
    ∀ p ∈ headerLines groups, closesBrace p = false := by
  have hentry : ∀ f ∈ groupEntries groups, ∀ p ∈ f, closesBrace p = false := by
    intro f hf
    obtain ⟨⟨k, vs⟩, -, rfl⟩ := List.mem_map.mp hf
    simp only [property, List.forall_mem_cons]
    exact ⟨rfl, rfl, closesBrace_oneOrArray vs⟩
  have hlines : ∀ p ∈ Fragment.commaLines 2 (groupEntries groups), closesBrace p = false :=
    Fragment.forall_mem_join (by decide) hentry
  unfold headerLines
  split
  · decide
  · simp only [List.cons_append, List.forall_mem_cons, List.forall_mem_append]
    exact ⟨rfl, hlines, by decide⟩

theorem isSpacing_of_mem_indent (o : Options) : ∀ c ∈ o.indent, isSpacing c = true := by
  intro c hc
  rw [List.eq_of_mem_replicate hc]
  cases o.indentKind <;> rfl

/-- Behind the name the object of headers is read to its closing brace. -/
theorem readEntries_headerLines {indent : Text} (hi : ∀ c ∈ indent, isSpacing c = true)
    {groups : List (Text × List Text)} (hv : ∀ g ∈ groups, g.2 ≠ []) (rest : List Token) :
    (Dialect.javascript.symbols? (((headerLines groups).tokens indent ++
      .code '\x7d' :: rest).takeWhile (· ≠ .code '\x7d'))).bind (readEntries [] .start) =
        some groups := by
  have hbrace := brace_notMem_tokens hi (closesBrace_headerLines groups)
  have hinside : ∀ t ∈ (headerLines groups).tokens indent, decide (t ≠ .code '\x7d') = true := by
    intro t ht
    rw [decide_eq_true_eq]
    rintro rfl
    exact hbrace ht
  have hread : readEntries [] .start (entrySymbols groups ++ []) = some groups :=
    readEntries_groups rfl rfl hv
  rw [List.append_nil] at hread
  rw [List.takeWhile_append_of_pos hinside, List.takeWhile_cons_of_neg (by simp), List.append_nil,
    Fragment.symbols?_tokens hi (plain_headerLines groups), symbols_headerLines, Option.bind_some,
    hread]

/-- In front of the entry for the headers stand only entries that hold none. -/
theorem exists_entriesWith_eq {r : Request} {port : List Fragment} (h : portEntries r = .ok port)
    (o : Options) (indent : Text) :
    ∃ before after, entriesWith o r port = before ++ headersEntry r :: after ∧
      ∀ f ∈ before, EntryPasses indent f := by
  refine ⟨[methodEntry r, hostEntry r] ++ port ++ [pathEntry r],
    if o.followRedirect then [property "maxRedirects" [.code (Text.ofNat maxRedirects)]] else [],
    ?_, ?_⟩
  · simp only [entriesWith, List.append_assoc, List.cons_append, List.nil_append]
  · simp only [List.forall_mem_append, List.forall_mem_cons]
    refine ⟨⟨⟨?_, ?_, by simp⟩, entryPasses_port indent h⟩, ?_, by simp⟩
    · exact entryPasses_quoted indent (by decide) _
    · exact entryPasses_quoted indent (by decide) _
    · exact entryPasses_quoted indent (by decide) _

/-- A program down to its entries, as one fragment, and the rest of its text. -/
theorem render_layout (indent : Text) (o : Options) (client : Text) (usesQuerystring : Bool)
    (entries : List Fragment) (sending : Program) :
    (layout o client usesQuerystring entries sending).render indent =
      Fragment.render indent ((opening o client usesQuerystring).flat indent ++
        .code (Text.repeated 1 indent) :: Fragment.commaLines 1 entries) ++
          '\n' :: (closing o client sending).render indent := by
  rw [layout_eq, Program.render_append, Program.render_cons, Line.render, Fragment.render_append,
    Program.render_flat, Fragment.render_cons, Fragment.renderAt]
  simp only [Piece.render, List.append_assoc, List.cons_append, List.nil_append]

/-- The headers are read back from a program as they were grouped. -/
theorem headers?_document {o : Options} {r : Request} {port : List Fragment}
    (h : portEntries r = .ok port) (boundary : Text) :
    headers? ((document boundary o r port).render o.indent) = some (headerGroups r) := by
  have hi := unquoted_indent .javascript o
  have hentries : optionEntries o r = .ok (entriesWith o r port) :=
    bind_eq_ok.mpr ⟨port, h, rfl⟩
  obtain ⟨before, after, hbody, hbefore⟩ := exists_entriesWith_eq h o o.indent
  obtain ⟨u, v, htokens, hu⟩ :=
    exists_tokens_commaLines o.indent hbefore (headersEntry r) after
  rw [← hbody] at htokens
  have hfits : Fragment.Fits .javascript
      ((opening o (clientModule r) (usesQuerystring boundary o r)).flat o.indent ++
        .code (Text.repeated 1 o.indent) :: Fragment.commaLines 1 (entriesWith o r port)) := by
    rw [Fragment.fits_append, Fragment.fits_cons]
    exact ⟨Program.fits_flat hi (fits_opening (unquoted_clientModule r) _),
      unquoted_repeated hi 1,
      Fragment.fits_commaLines 1 (optionEntries_of_ok hentries o.trimBody).1⟩
  have hpasses : Passes "headers" (codeTokens (Text.repeated 1 o.indent)) :=
    passes_of_notMem (literal_notMem_codeTokens _ _ _)
  have hvalues : ∀ g ∈ headerGroups r, g.2 ≠ [] := fun g hg => values_ne_nil_of_mem hg
  unfold headers? document
  rw [render_layout, Fragment.leading_render hi hfits]
  generalize Dialect.leading _ _ _ = rest
  have hsplit (f g : Fragment) :
      (f ++ g).tokens o.indent = f.tokens o.indent ++ g.tokens o.indent := List.flatMap_append
  rw [hsplit, Fragment.tokens_cons, htokens, headersEntry, tokens_headersObject]
  simp only [List.append_assoc]
  rw [passes_opening, Piece.tokens, hpasses, hu, List.cons_append, behindBrace?, if_pos rfl]
  simp only [List.append_assoc]
  rw [behind?_append, Option.some_or]
  exact readEntries_headerLines (isSpacing_of_mem_indent o) hvalues _

end Node
end HttpSnippet

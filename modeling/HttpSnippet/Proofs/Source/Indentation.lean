import HttpSnippet.Proofs.Conversion
import HttpSnippet.Proofs.Options.Mapping

/-!
# Indentation

A program is rows of text before an indentation is chosen: each row has a level and holds no line
break. A literal or a boundary may hold line breaks as they are, and what follows such a break is a
row of its own that is not indented. Choosing an indentation writes it in front of each row, as
often as its level says, and changes nothing else.
-/
namespace HttpSnippet

/-- A line of a program: how often it is indented, and what follows the indentation. -/
structure Row where
  level : Nat
  text : Text
deriving DecidableEq, Repr

def Row.render (indent : Text) (row : Row) : Text := Text.repeated row.level indent ++ row.text

/-- Rows as one text, with line breaks between them. -/
def Text.ofRows (indent : Text) (rows : List Row) : Text :=
  Text.join "\n" (rows.map (Row.render indent))

/-- What is left of a row, and the rows below it. -/
structure Remainder where
  line : Text
  below : List Row

namespace Remainder

/-- A text in front of a remainder. Each line break in it begins a row that is not indented. -/
def prepend : Text → Remainder → Remainder
  | [], rest => rest
  | c :: t, rest =>
    let rest := rest.prepend t
    if c = '\n' then ⟨[], ⟨0, rest.line⟩ :: rest.below⟩ else ⟨c :: rest.line, rest.below⟩

def render (indent : Text) (rest : Remainder) : Text :=
  rest.line ++ rest.below.flatMap fun row => '\n' :: row.render indent

/-- No line break is left in the text of a row. -/
def Broken (rest : Remainder) : Prop :=
  '\n' ∉ rest.line ∧ ∀ row ∈ rest.below, '\n' ∉ row.text

theorem render_cons (indent : Text) (level : Nat) (rest : Remainder) :
    render indent ⟨[], ⟨level, rest.line⟩ :: rest.below⟩ =
      '\n' :: Text.repeated level indent ++ rest.render indent := by
  simp [render, Row.render]

theorem render_prepend (indent t : Text) (rest : Remainder) :
    (rest.prepend t).render indent = t ++ rest.render indent := by
  induction t with
  | nil => rfl
  | cons c t ih =>
    rw [prepend]
    by_cases hc : c = '\n'
    · rw [if_pos hc, render_cons, ih, hc]
      rfl
    · rw [if_neg hc, List.cons_append, ← ih]
      rfl

theorem Broken.prepend {rest : Remainder} (h : rest.Broken) (t : Text) :
    (rest.prepend t).Broken := by
  induction t with
  | nil => exact h
  | cons c t ih =>
    obtain ⟨hline, hbelow⟩ := ih
    rw [Remainder.prepend]
    by_cases hc : c = '\n'
    · rw [if_pos hc]
      exact ⟨List.not_mem_nil, List.forall_mem_cons.mpr ⟨hline, hbelow⟩⟩
    · rw [if_neg hc]
      exact ⟨List.not_mem_cons_of_ne_of_not_mem (Ne.symm hc) hline, hbelow⟩

end Remainder

/-! ### Programs as rows -/

namespace Fragment

/-- A fragment in front of a remainder. Only a piece that breaks a line looks at the indentation,
and it becomes the level of a row. -/
def before (f : Fragment) (rest : Remainder) : Remainder :=
  f.foldr (fun p rest =>
    match p with
    | .newline level => ⟨[], ⟨level, rest.line⟩ :: rest.below⟩
    | p => rest.prepend (p.render [])) rest

theorem render_before (indent : Text) (f : Fragment) (rest : Remainder) :
    (f.before rest).render indent = render indent f ++ rest.render indent := by
  induction f with
  | nil => rfl
  | cons p f ih =>
    rw [before, List.foldr_cons, ← before, render, List.flatMap_cons, ← render, List.append_assoc,
      ← ih]
    cases p with
    | newline level => exact Remainder.render_cons indent level _
    | _ => exact Remainder.render_prepend indent _ _

theorem broken_before (f : Fragment) {rest : Remainder} (h : rest.Broken) :
    (f.before rest).Broken := by
  induction f with
  | nil => exact h
  | cons p f ih =>
    rw [before, List.foldr_cons, ← before]
    cases p with
    | newline level =>
      exact ⟨List.not_mem_nil, List.forall_mem_cons.mpr ⟨ih.1, ih.2⟩⟩
    | _ => exact ih.prepend _

end Fragment

namespace Program

/-- The rows of a program. The last one is empty, as every line ends with a break. -/
def rows : Program → List Row
  | [] => [⟨0, []⟩]
  | l :: p =>
    let rest := l.content.before ⟨[], rows p⟩
    ⟨l.level, rest.line⟩ :: rest.below

theorem ofRows_cons (indent : Text) (row : Row) (rows : List Row) :
    Text.ofRows indent (row :: rows) =
      row.render indent ++ rows.flatMap fun row => '\n' :: row.render indent := by
  induction rows generalizing row with
  | nil => simp [Text.ofRows, Text.join]
  | cons next rows ih =>
    rw [Text.ofRows, Text.join, List.map_cons, List.map_cons, List.intercalate_cons_cons,
      ← List.map_cons, ← Text.join, ← Text.ofRows, ih, List.flatMap_cons]
    simp

theorem exists_rows_eq (p : Program) : ∃ row rows, p.rows = row :: rows := by
  cases p with
  | nil => exact ⟨_, _, rfl⟩
  | cons l p => exact ⟨_, _, rfl⟩

/-- Whatever the indentation is, a program is its rows. -/
theorem ofRows_rows (indent : Text) (p : Program) :
    Text.ofRows indent p.rows = p.render indent := by
  induction p with
  | nil => rfl
  | cons l p ih =>
    obtain ⟨row, below, hrows⟩ := exists_rows_eq p
    have hrest : Remainder.render indent ⟨[], rows p⟩ = '\n' :: Program.render indent p := by
      rw [← ih, hrows, ofRows_cons]
      rfl
    have hcontent := Fragment.render_before indent l.content ⟨[], rows p⟩
    rw [hrest, Remainder.render] at hcontent
    rw [rows, ofRows_cons, Row.render, List.append_assoc, hcontent]
    simp [Program.render, Line.render, Fragment.renderAt]

theorem newline_notMem_rows (p : Program) : ∀ row ∈ p.rows, '\n' ∉ row.text := by
  induction p with
  | nil => simp [rows]
  | cons l p ih =>
    have hrest : Remainder.Broken ⟨[], rows p⟩ := ⟨List.not_mem_nil, ih⟩
    obtain ⟨hline, hbelow⟩ := l.content.broken_before hrest
    exact List.forall_mem_cons.mpr ⟨hline, hbelow⟩

/-- A line break inside of a literal is followed by no indentation. -/
example : rows [⟨1, [.code "f(", .literal .php "a\nb", .newline 2, .code ");"]⟩] =
    [⟨1, "f('a"⟩, ⟨0, "b'"⟩, ⟨2, ");"⟩, ⟨0, []⟩] := by decide

end Program

/-! ### Conversions -/

/-- The options of a mapping in which the indentation is set. -/
def Fields.withIndent (entries : Fields) (kind : IndentKind) (count : Nat) : Fields :=
  Value.insertEntry (.str "indentType") (.str kind.name)
    (Value.insertEntry (.str "indentCount") (.int count) entries)

theorem Options.ofMapping_withIndent (entries : Fields) (kind : IndentKind) (count : Nat) :
    ofMapping (entries.withIndent kind count) =
      { ofMapping entries with indentKind := kind, indentCount := count } := by
  have hkind : Value.indentKind? (.str kind.name) = some kind := by cases kind <;> rfl
  have hcount : Value.natural? (.int count) = some count := rfl
  have hne : ("indentType" : Text) ≠ "indentCount" := by decide
  have hkindField : given (entries.withIndent kind count) "indentType" Value.indentKind? .space =
      kind := by
    rw [Fields.withIndent, given_insertEntry, if_pos rfl, hkind]
    rfl
  have hcountField : given (entries.withIndent kind count) "indentCount" Value.natural? 2 =
      count := by
    rw [Fields.withIndent, given_insertEntry, if_neg hne, given_insertEntry, if_pos rfl, hcount]
    rfl
  have hother {α : Type} (id : Text) (read : Value → Option α) (d : α)
      (htype : ("indentType" : Text) ≠ id) (hsize : ("indentCount" : Text) ≠ id) :
      given (entries.withIndent kind count) id read d = given entries id read d := by
    rw [Fields.withIndent, given_insertEntry, if_neg htype, given_insertEntry, if_neg hsize]
  rw [ofMapping, hkindField, hcountField, hother "requestTimeout" _ _ (by decide) (by decide),
    hother "followRedirect" _ _ (by decide) (by decide),
    hother "trimRequestBody" _ _ (by decide) (by decide), ofMapping]

namespace Converter

/-- The lines of a program are the same for every indentation. -/
theorem program_withIndent [Host] (c : Converter) (o : Options) (kind : IndentKind) (count : Nat)
    (r : Request) :
    c.program { o with indentKind := kind, indentCount := count } r = c.program o r := rfl

/-- Where a conversion gives a snippet, one list of rows makes it up, and the same rows make up the
snippet for every other indentation that there is room for. -/
theorem generateFor_rows [Host] (c : Converter) (r : Request) {entries : Fields} {s : Text}
    (hs : c.generateFor r (.map entries) = .ok s) :
    ∃ rows : List Row, (∀ row ∈ rows, '\n' ∉ row.text) ∧
      s = Text.ofRows (Options.ofMapping entries).indent rows ∧ ∀ kind count t,
        c.generateFor r (.map (entries.withIndent kind count)) = .ok t ↔
          count ≤ Host.maxIndent ∧ t = Text.ofRows (List.replicate count kind.char) rows := by
  obtain ⟨hmode, o, ho, haffords, p, hp, hsp⟩ := generateFor_eq_ok.mp hs
  obtain ⟨hkeys, rfl⟩ := mergeOptions_map_eq_ok.mp ho
  -- apart from the indentation, the options have no part in what is afforded
  have hafford (o : Options) : Affords o r ↔ o.indentCount ≤ Host.maxIndent :=
    ⟨fun h => h.indented, fun h => ⟨haffords.copied, haffords.encoded, h⟩⟩
  refine ⟨p.rows, p.newline_notMem_rows, hsp.trans (p.ofRows_rows _).symm, fun kind count t => ?_⟩
  have hwith : (entries.withIndent kind count).TextKeys :=
    (hkeys.insertEntry _ _).insertEntry _ _
  rw [generateFor_eq_ok, mergeOptions_map hwith, Options.ofMapping_withIndent]
  simp only [hmode, true_and, Except.ok.injEq, exists_eq_left', program_withIndent, hp,
    Program.ofRows_rows, hafford]
  rfl

section

attribute [local instance] Host.usual

/-- A body with line breaks of its own, in a literal and in a value that is printed over several
lines. -/
theorem generateFor_rows_of_breaks :
    let r : Request :=
      { method := "POST"
        url := { host := ["h"] }
        headers := [{ key := "Content-Type", value := "application/json" },
          { key := "a", value := "1\n  2" }]
        body := some { mode := "raw", raw := some "\x7b\"k\": [1, \x7b\"l\": []\x7d]\x7d\n" } }
    let entries : Fields := [(.str "indentType", .str "Tab"), (.str "trimRequestBody", .bool true)]
    ∀ target : Target, let c : Converter := ⟨target, defaultBoundary⟩
      ∃ s, c.generateFor r (.map entries) = .ok s ∧
        ∃ rows : List Row, (∀ row ∈ rows, '\n' ∉ row.text) ∧
          s = Text.ofRows (Options.ofMapping entries).indent rows ∧ ∀ kind count t,
            c.generateFor r (.map (entries.withIndent kind count)) = .ok t ↔
              count ≤ Host.maxIndent ∧ t = Text.ofRows (List.replicate count kind.char) rows := by
  intro r entries target c
  have hok : (c.generateFor r (.map entries)).isOk = true := by cases target <;> decide +kernel
  obtain ⟨s, hs⟩ := exists_eq_ok hok
  exact ⟨s, hs, generateFor_rows c r hs⟩

end

end Converter
end HttpSnippet

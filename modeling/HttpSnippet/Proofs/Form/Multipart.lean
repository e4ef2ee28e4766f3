import Mathlib.Data.List.Chain
import HttpSnippet.Proofs.Containment.Node
import HttpSnippet.Proofs.Disabled.Normal
import HttpSnippet.Proofs.Json.Room
import HttpSnippet.Proofs.Source.Literal

/-!
# Forms that are sent in parts

What a form sends is a sequence of items: a text member is one, and a file member is one for each of
its files. A Node program puts the parts together from JSON strings and the contents of files.
Whatever these contents are, evaluating its expression gives the parts of the items one after
another, and text is never split between two strings.
-/
namespace HttpSnippet

open Fragment

/-- One part of a form. A content type is there only if it is not empty. -/
inductive FormItem where
  | text (key value : Text) (contentType : Option Text)
  | file (key path : Text) (contentType : Option Text)
deriving DecidableEq, Repr

/-- The places where the files of a member are looked for. -/
def FormParam.sources (p : FormParam) : List Value :=
  match p.src with
  | .list (v :: vs) => v :: vs
  | src => [src]

/-- A text is a path, and the placeholder stands for anything else. -/
def pathOf : Value → Text
  | .str t => t
  | _ => placeholderPath

/-- The items that a member stands for. -/
def FormParam.items (trim : Bool) (p : FormParam) : List FormItem :=
  match p.kind with
  | .text => [.text (p.key.trimmed trim) (p.value.trimmed trim) (nonempty? p.contentType)]
  | .file => p.sources.map fun v => .file (p.key.trimmed trim) (pathOf v) (nonempty? p.contentType)

/-- The items of the enabled members. -/
def formItems (trim : Bool) (params : List FormParam) : List FormItem :=
  (params.filter (!·.disabled)).flatMap (·.items trim)

/-- The lines of a part up to its content. -/
def FormItem.headLines (boundary : Text) : FormItem → List Text
  | .text key _ contentType =>
    ["--" ++ boundary, "Content-Disposition: form-data; name=\"" ++ key ++ "\""] ++
      (contentType.map fun (t : Text) => ("Content-Type: " : Text) ++ t).toList ++ [[]]
  | .file key path contentType =>
    ["--" ++ boundary, "Content-Disposition: form-data; name=\"" ++ key ++ "\"; filename=\"" ++
      fileName path ++ "\"",
      "Content-Type: " ++ contentType.getD "application/octet-stream", []]

/-- What a part carries, given the contents of files. -/
def FormItem.content (contents : Text → Text) : FormItem → Text
  | .text _ value _ => value
  | .file _ path _ => contents path

/-- Lines with the ending that the protocol asks for. -/
def protocolLines (lines : List Text) : Text := lines.flatMap (· ++ "\r\n")

/-- The parts of a form and the closing delimiter. -/
def multipartText (boundary : Text) (contents : Text → Text) (items : List FormItem) : Text :=
  items.flatMap (fun item =>
    protocolLines (item.headLines boundary ++ [item.content contents])) ++ "--" ++ boundary ++ "--"

/-! ### Expanded members -/

/-- The only item of a member with one path. -/
def FormParam.item (trim : Bool) (p : FormParam) : FormItem :=
  match p.kind with
  | .text => .text (p.key.trimmed trim) (p.value.trimmed trim) (nonempty? p.contentType)
  | .file => .file (p.key.trimmed trim) p.path (nonempty? p.contentType)

theorem path_eq (p : FormParam) : p.path = pathOf p.src := by
  unfold FormParam.path pathOf
  cases p.src <;> rfl

/-- A member is expanded into one member for each of its items. -/
theorem map_item_expand (trim : Bool) (p : FormParam) :
    p.expand.map (·.item trim) = p.items trim := by
  unfold FormParam.expand FormParam.items FormParam.sources
  cases hkind : p.kind with
  | text => simp [FormParam.item, hkind]
  | file =>
    cases hsrc : p.src with
    | list vs =>
      cases vs with
      | nil => simp [FormParam.item, path_eq, pathOf]
      | cons v vs => simp [FormParam.item, path_eq]
    | str t => simp [FormParam.item, path_eq, pathOf, hkind, hsrc]
    | _ => simp [FormParam.item, path_eq, pathOf]

theorem formItems_eq (trim : Bool) (params : List FormParam) :
    ((params.flatMap (·.expand)).filter (!·.disabled)).map (·.item trim) =
      formItems trim params := by
  rw [FormParam.filter_expand, formItems, List.map_flatMap]
  simp only [map_item_expand]

/-! ### The expression -/

namespace Node

/-- What an operand evaluates to, given the contents of files. -/
def Chunk.value (contents : Text → Text) : Chunk → Text
  | .text t => t
  | .file path => contents path

def evaluate (contents : Text → Text) (chunks : List Chunk) : Text :=
  chunks.flatMap (·.value contents)

/-- Texts do not follow one another. -/
def Merged (chunks : List Chunk) : Prop :=
  chunks.IsChain fun a b => ¬ ∃ s t, a = .text s ∧ b = .text t

/-- An operand of a sum: a JSON string, or a call that reads a file. -/
def readOperand? : List Token → Option Chunk
  | [.literal '"' s] =>
    match Json.read ('"' :: s ++ ['"']) with
    | .ok (.str t) => some (.text t)
    | _ => none
  | ts =>
    match behind? "fs.readFileSync(" ts with
    | some [.literal '\'' s, .code ')'] => (Dialect.javascript.decode? s).map .file
    | _ => none

/-- The operands of a sum, with white space around them. -/
def readSum? (source : Text) : Option (List Chunk) := do
  let ts ← Dialect.javascript.tokens? source
  ((ts.filter (· ≠ .code ' ')).splitOn (.code '+')).mapM readOperand?

/-- The operands of a sum that stands among other tokens. -/
def readOperands? (ts : List Token) : Option (List Chunk) :=
  ((ts.filter (· ≠ .code ' ')).splitOn (.code '+')).mapM readOperand?

theorem readSum?_eq (source : Text) :
    readSum? source = (Dialect.javascript.tokens? source).bind readOperands? := rfl

theorem evaluate_prependText (contents : Text → Text) (t : Text) (chunks : List Chunk) :
    evaluate contents (prependText t chunks) = t ++ evaluate contents chunks := by
  cases chunks with
  | nil => simp [evaluate, prependText, Chunk.value]
  | cons c chunks => cases c <;> simp [evaluate, prependText, Chunk.value]

theorem multipartText_cons (boundary : Text) (contents : Text → Text) (item : FormItem)
    (items : List FormItem) :
    multipartText boundary contents (item :: items) =
      protocolLines (item.headLines boundary ++ [item.content contents]) ++
        multipartText boundary contents items := by
  simp [multipartText]

theorem typeHeader_eq (t : Text) : typeHeader t = "Content-Type: " ++ t ++ "\r\n" := rfl

theorem disposition_eq : ("\r\nContent-Disposition: form-data; name=\"" : Text) =
    "\r\n" ++ "Content-Disposition: form-data; name=\"" := rfl

theorem text_part (boundary key value : Text) (contentType : Option Text)
    (contents : Text → Text) :
    protocolLines (FormItem.headLines boundary (.text key value contentType) ++
        [FormItem.content contents (.text key value contentType)]) =
      partHeader boundary key ++ "\r\n" ++ (contentType.map typeHeader).getD [] ++ "\r\n" ++
        value ++
        "\r\n" := by
  rw [partHeader, disposition_eq]
  cases contentType with
  | none =>
    simp only [protocolLines, FormItem.headLines, FormItem.content, Option.map_none,
      Option.toList_none, Option.getD_none, List.flatMap_append, List.flatMap_cons,
      List.flatMap_nil, List.append_assoc, List.append_nil, List.nil_append]
  | some t =>
    simp only [protocolLines, FormItem.headLines, FormItem.content, typeHeader_eq, Option.map_some,
      Option.toList_some, Option.getD_some, List.flatMap_append, List.flatMap_cons,
      List.flatMap_nil, List.append_assoc, List.append_nil, List.nil_append]

theorem file_part (boundary key path : Text) (contentType : Option Text)
    (contents : Text → Text) :
    protocolLines (FormItem.headLines boundary (.file key path contentType) ++
        [FormItem.content contents (.file key path contentType)]) =
      partHeader boundary key ++ ("; filename=\"" ++ fileName path ++ "\"\r\n") ++
        typeHeader (contentType.getD "application/octet-stream") ++ "\r\n" ++ (contents path ++
        "\r\n") := by
  have hname : ("\"; filename=\"" : Text) = "\"" ++ "; filename=\"" := rfl
  have hclose : ("\"\r\n" : Text) = "\"" ++ "\r\n" := rfl
  rw [partHeader, disposition_eq, hclose, typeHeader_eq]
  simp only [protocolLines, FormItem.headLines, FormItem.content, hname, List.flatMap_append,
    List.flatMap_cons, List.flatMap_nil, List.append_assoc, List.append_nil, List.nil_append]

/-- The expression for expanded members evaluates to the parts of their items. -/
theorem evaluate_formChunks (trim : Bool) (boundary : Text) (contents : Text → Text)
    (params : List FormParam) :
    evaluate contents (formChunks trim boundary params) =
      multipartText boundary contents ((params.filter (!·.disabled)).map (·.item trim)) := by
  induction params with
  | nil => simp [formChunks, evaluate, Chunk.value, multipartText]
  | cons p ps ih =>
    simp only [formChunks]
    cases hdisabled : p.disabled with
    | true => simp [hdisabled, ih]
    | false =>
      have hsent : ((p :: ps).filter (!·.disabled)).map (·.item trim) =
          p.item trim :: (ps.filter (!·.disabled)).map (·.item trim) := by simp [hdisabled]
      rw [if_neg Bool.false_ne_true, hsent, multipartText_cons, ← ih, FormParam.item]
      cases p.kind with
      | text =>
        dsimp only
        rw [evaluate_prependText, text_part]
      | file =>
        dsimp only
        rw [evaluate_prependText, file_part, evaluate, List.flatMap_cons, ← evaluate,
          evaluate_prependText, Chunk.value, List.append_assoc _ _ (evaluate _ _),
          List.append_assoc (contents _)]

theorem merged_prependText (t : Text) {chunks : List Chunk} (h : Merged chunks) :
    Merged (prependText t chunks) := by
  cases chunks with
  | nil => exact List.isChain_singleton _
  | cons c chunks =>
    cases c with
    | text u =>
      cases chunks with
      | nil => exact List.isChain_singleton _
      | cons c' chunks =>
        obtain ⟨hc, hrest⟩ := List.isChain_cons_cons.mp h
        refine List.isChain_cons_cons.mpr ⟨?_, hrest⟩
        rintro ⟨s, t', -, rfl⟩
        exact hc ⟨u, t', rfl, rfl⟩
    | file path =>
      refine List.isChain_cons_cons.mpr ⟨?_, h⟩
      rintro ⟨s, t', -, h⟩
      cases h

theorem merged_file {path : Text} {chunks : List Chunk} (h : Merged chunks) :
    Merged (.file path :: chunks) := by
  cases chunks with
  | nil => exact List.isChain_singleton _
  | cons c chunks =>
    refine List.isChain_cons_cons.mpr ⟨?_, h⟩
    rintro ⟨s, t', h, -⟩
    cases h

theorem merged_formChunks (trim : Bool) (boundary : Text) (params : List FormParam) :
    Merged (formChunks trim boundary params) := by
  induction params with
  | nil => exact List.isChain_singleton _
  | cons p ps ih =>
    simp only [formChunks]
    split
    · exact ih
    · split
      · exact merged_prependText _ (merged_file (merged_prependText _ ih))
      · exact merged_prependText _ ih

/-- The tokens of an operand. -/
def operandTokens : Chunk → List Token
  | .text t => [.literal '"' (Json.inside true t)]
  | .file path =>
    codeTokens "fs.readFileSync(" ++
      [.literal '\'' (Dialect.javascript.escape path), .code ')']

theorem readOperand?_operandTokens (c : Chunk) : readOperand? (operandTokens c) = some c := by
  cases c with
  | text t =>
    have hread : Json.read ('"' :: Json.inside true t ++ ['"']) = .ok (.str t) :=
      Json.read_quote true t
    simp only [operandTokens, readOperand?, hread]
  | file path =>
    have hbehind := behind?_append "fs.readFileSync("
      [.literal '\'' (Dialect.javascript.escape path), .code ')']
    unfold readOperand?
    split
    · next h => cases h
    · simp only [operandTokens, hbehind, Dialect.decode?_escape]
      rfl

theorem filter_tokens_concatenation (indent : Text) (chunks : List Chunk) :
    (tokens indent (concatenation chunks)).filter (· ≠ .code ' ') =
      [Token.code '+'].intercalate (chunks.map operandTokens) := by
  have hchunk (c : Chunk) :
      (tokens indent c.fragment).filter (· ≠ .code ' ') = operandTokens c := by
    cases c with
    | text t => rfl
    | file path => rfl
  induction chunks with
  | nil => rfl
  | cons c chunks ih =>
    cases chunks with
    | nil => simpa [concatenation, join] using hchunk c
    | cons c' chunks =>
      have htokens : tokens indent (concatenation (c :: c' :: chunks)) = tokens indent c.fragment ++
          codeTokens " + " ++ tokens indent (concatenation (c' :: chunks)) := by
        rw [concatenation, List.map_cons, List.map_cons, join_cons_cons, ← List.map_cons,
          ← concatenation, tokens, List.flatMap_append, List.flatMap_append]
        rfl
      rw [htokens, List.filter_append, List.filter_append, hchunk, ih, List.map_cons, List.map_cons,
        List.map_cons, List.intercalate_cons_cons]
      rfl

theorem readOperands?_concatenation (indent : Text) {chunks : List Chunk} (h : chunks ≠ []) :
    readOperands? ((concatenation chunks).tokens indent) = some chunks := by
  have hplus : ∀ l ∈ chunks.map operandTokens, Token.code '+' ∉ l := by
    intro l hl
    obtain ⟨c, -, rfl⟩ := List.mem_map.mp hl
    cases c with
    | text t => simp [operandTokens]
    | file path => simp [operandTokens, codeTokens]
  have hsplit := List.splitOn_intercalate (Token.code '+') hplus (by simp [h])
  rw [readOperands?, filter_tokens_concatenation, hsplit]
  clear hplus hsplit h
  induction chunks with
  | nil => rfl
  | cons c chunks ih =>
    rw [List.map_cons, List.mapM_cons, readOperand?_operandTokens, ih]
    rfl

theorem readSum?_concatenation {indent : Text} (hi : ∀ c ∈ indent, isSpacing c = true)
    {chunks : List Chunk} (h : chunks ≠ []) :
    readSum? ((concatenation chunks).render indent) = some chunks := by
  have htokens := tokens?_render (unquoted_of_spacing hi) (fits_concatenation chunks)
  rw [readSum?_eq, htokens, Option.bind_some, readOperands?_concatenation indent h]

end Node
end HttpSnippet

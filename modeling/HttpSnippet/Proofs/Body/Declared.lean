import HttpSnippet.Proofs.Body.Marks
import HttpSnippet.Proofs.Body.Refusal
import HttpSnippet.Proofs.Form.Interleaving

/-!
# What a program declares and writes

A Node program asks for the module `querystring` by a look at the text of its payload, and writes
the payload if this text is not empty. Both come to the right answer: the name `qs` is declared
exactly if the payload uses it, and there is something to write exactly if the request has a payload
for its mode. No text of a user can pretend either, as the statements are found outside of literals.
-/
namespace HttpSnippet

open Fragment

namespace Body

theorem payload?_eq_urlencoded_iff {b : Body} {params : List UrlencodedParam} :
    b.payload? = some (.urlencoded params) ↔
      b.mode = BodyMode.urlencoded.name ∧ b.urlencoded = some params := by
  constructor
  · intro h
    unfold payload? at h
    split at h
    · cases h
    case h_3 hmode =>
      obtain ⟨part, hpart, heq⟩ := Option.map_eq_some_iff.mp h
      cases heq
      exact ⟨(BodyMode.name_of_ofName? hmode).symm, hpart⟩
    all_goals
      obtain ⟨part, -, heq⟩ := Option.map_eq_some_iff.mp h
      cases heq
  · rintro ⟨hmode, hparams⟩
    have hknown : BodyMode.ofName? BodyMode.urlencoded.name = some .urlencoded := rfl
    rw [payload?, hmode, hknown, hparams]
    rfl

end Body

namespace Request

/-- The payload for the mode of the body is there and not empty. -/
def HasPayload (r : Request) : Prop :=
  ∃ b payload, r.body = some b ∧ b.payload? = some payload ∧ payload.isEmpty = false

theorem content?_eq_some_iff {r : Request} {payload : Payload} :
    r.body.bind (·.content?) = some payload ↔
      ∃ b, r.body = some b ∧ b.payload? = some payload ∧ payload.isEmpty = false := by
  simp only [Option.bind_eq_some_iff, Body.content?, Option.filter_eq_some_iff, Bool.not_eq_true']

theorem hasPayload_iff {r : Request} :
    r.HasPayload ↔ (r.body.bind (·.content?)).isSome = true := by
  simp only [HasPayload, Option.isSome_iff_exists, content?_eq_some_iff]
  exact exists_comm

end Request

namespace Node

/-! ### Lines of a program -/

/-- The line that declares the module for queries. -/
def moduleLine : Line := requireLine "qs" "querystring" []

def lengthLine : Line :=
  ⟨0, [.code "req.setHeader(", quoted "Content-Length", .code ", Buffer.byteLength(postData));"]⟩

def writeLine : Line := ⟨0, "req.write(postData);"⟩

def declarationLines (body : Fragment) : Program :=
  [⟨0, .code "const postData = " :: body ++ ";"⟩, .blank]

/-- The lines that announce the boundary of a form. -/
def announcementLines (boundary : Text) (isForm : Bool) : Program :=
  Program.when isForm [announcementLine ("multipart/form-data; boundary=" ++ boundary), .blank]

/-- The lines of a program behind those that send the body. -/
def ending (o : Options) : Program :=
  Program.when (o.requestTimeout ≠ 0) (timeoutLines o.requestTimeout) ++ [⟨0, "req.end();"⟩]

variable {indent boundary : Text} {o : Options} {r : Request} {port : List Fragment}

theorem usesQuerystring_of_some {payload : Payload}
    (h : r.body.bind (·.content?) = some payload) : usesQuerystring boundary o r =
      (payloadShape o.trimBody (r.header? "Content-Type") payload).usesQuerystring := by
  rw [usesQuerystring, body?, h, Option.map_some, Option.any_some, usesQuerystring_payloadBody]

theorem document_of_none (h : r.body.bind (·.content?) = none) :
    document boundary o r port = preamble o r false port ++ ending o := by
  rw [document_eq, usesQuerystring, sending, body?, h]
  rfl

theorem document_of_some {payload : Payload} (h : r.body.bind (·.content?) = some payload) :
    document boundary o r port =
      preamble o r (usesQuerystring boundary o r) port ++
        (declarationLines (payloadBody boundary o.trimBody (r.header? "Content-Type") payload) ++
          (lengthLines (r.method = ("DELETE" : Text)) ++
            (announcementLines boundary (r.body.any (·.mode = BodyMode.formdata.name)) ++
              ([writeLine, .blank] ++ ending o)))) := by
  rw [document_eq, sending, body?, h]
  simp only [Option.map_some, Option.getD_some, bodyLines, lengthLines, announcementLines,
    declarationLines, writeLine, announcementLine, ending, List.append_assoc, List.cons_append,
    List.nil_append]

/-! ### What the lines lack -/

theorem shows_declarationLines {c : Char} (hc : c ∉ ("const postData = ;" : Text)) {body : Fragment}
    (h : ∀ p ∈ body, p.shows c = false) :
    ∀ l ∈ declarationLines body, ∀ p ∈ l.content, p.shows c = false := by
  have hcode {t : Text} (ht : t ⊆ "const postData = ;") : (Piece.code t).shows c = false :=
    Piece.shows_of_within (Piece.within_code.mpr ht) hc
  simp only [declarationLines, Line.blank, List.cons_append, List.forall_mem_cons,
    List.forall_mem_append]
  exact ⟨⟨hcode (by decide), h, hcode (by decide), List.forall_mem_nil _⟩, List.forall_mem_nil _,
    List.forall_mem_nil _⟩

theorem shows_announcementLines {c : Char} (hc : c ∉ ("req.setHeader(, );" : Text))
    (boundary : Text) (isForm : Bool) :
    ∀ l ∈ announcementLines boundary isForm, ∀ p ∈ l.content, p.shows c = false := by
  have hcode {t : Text} (ht : t ⊆ "req.setHeader(, );") : (Piece.code t).shows c = false :=
    Piece.shows_of_within (Piece.within_code.mpr ht) hc
  cases isForm with
  | false => exact List.forall_mem_nil _
  | true =>
    simp only [announcementLines, announcementLine, Program.when, if_true, List.forall_mem_cons,
      Line.blank]
    exact ⟨⟨hcode (by decide), rfl, hcode (by decide), rfl, hcode (by decide),
      List.forall_mem_nil _⟩, List.forall_mem_nil _, List.forall_mem_nil _⟩

theorem holds_announcementLines (boundary : Text) (isForm : Bool) :
    ∀ l ∈ announcementLines boundary isForm, ∀ p ∈ l.content,
      p.holds "Content-Length" = false := by
  cases isForm with
  | false => exact List.forall_mem_nil _
  | true =>
    simp only [announcementLines, announcementLine, Program.when, if_true, List.forall_mem_cons,
      Line.blank]
    exact ⟨⟨rfl, by decide, rfl, rfl, rfl, List.forall_mem_nil _⟩, List.forall_mem_nil _,
      List.forall_mem_nil _⟩

theorem within_ending (o : Options) : ∀ l ∈ ending o, ∀ p ∈ l.content,
    p.within "req.setTimeout(, function () \x7bdestroyend;\x7d0123456789" = true := by
  have htimeout : ∀ l ∈ timeoutLines o.requestTimeout, ∀ p ∈ l.content,
      p.within "req.setTimeout(, function () \x7bdestroyend;\x7d0123456789" = true := by
    refine List.forall_mem_cons.mpr
      ⟨List.forall_mem_singleton.mpr (Piece.within_code.mpr ?_), by decide⟩
    simp only [List.append_subset]
    exact ⟨⟨by decide, List.Subset.trans (Text.ofNat_subset _) (by decide)⟩, by decide⟩
  refine List.forall_mem_append.mpr ⟨?_, by decide⟩
  cases decide (o.requestTimeout ≠ 0) with
  | true => exact htimeout
  | false => exact List.forall_mem_nil _

theorem shows_ending (o : Options) {c : Char}
    (hc : c ∉ ("req.setTimeout(, function () \x7bdestroyend;\x7d0123456789" : Text)) :
    ∀ l ∈ ending o, ∀ p ∈ l.content, p.shows c = false :=
  fun l hl p hp => Piece.shows_of_within (within_ending o l hl p hp) hc

theorem lacks_preamble (h : portEntries r = .ok port) :
    ∀ l ∈ preamble o r false port, l.Lacks (moduleLine.content.tokens []) := by
  have hname : .literal '\'' "querystring" ∈ moduleLine.content.tokens [] := by decide
  have hopening : ∀ l ∈ opening o (clientModule r) false, ∀ p ∈ l.content,
      p.holds "querystring" = false := by
    unfold opening clientLine
    -- the lines are fixed but for these choices
    rcases clientModule_cases r with h | h <;> rw [h] <;> cases o.followRedirect <;> decide
  have hentries : ∀ p ∈ commaLines 1 (entriesWith o r port), p.shows 'c' = false := fun p hp =>
    Piece.shows_of_within (forall_mem_join (by decide) (within_entriesWith h o) p hp) (by decide)
  have hrequest : ∀ l ∈ ([⟨0, "\x7d;"⟩, .blank] ++ requestLines (clientModule r) : Program),
      ∀ p ∈ l.content, p.holds "querystring" = false := by
    rcases clientModule_cases r with h | h <;> rw [h] <;> decide
  unfold preamble
  rw [List.forall_mem_append, List.forall_mem_cons]
  exact ⟨lacks_of_holds hname hopening, .inl ⟨'c', by decide, rfl, hentries⟩,
    lacks_of_holds hname hrequest⟩

/-- Where nothing is sent, the letter that all statements about the payload have is missing. -/
theorem lacks_of_none (hport : portEntries r = .ok port) (h : r.body.bind (·.content?) = none)
    {sought : List Token} (hletter : .code 'D' ∈ sought) :
    ∀ l ∈ document boundary o r port, l.Lacks sought := by
  rw [document_of_none h]
  exact lacks_of_shows hletter rfl (List.forall_mem_append.mpr
    ⟨shows_preamble hport false (.inl rfl), shows_ending o (by decide)⟩)

/-- A payload that does not use the module has no `q`, or it is a query without its name in single
quotes. -/
theorem lacks_declarationLines (boundary : Text) {payload : Payload}
    (h : (payloadShape o.trimBody (r.header? "Content-Type") payload).usesQuerystring = false) :
    ∀ l ∈ declarationLines (payloadBody boundary o.trimBody (r.header? "Content-Type") payload),
      l.Lacks (moduleLine.content.tokens []) := by
  by_cases hq : 'q' ∈ (payloadShape o.trimBody (r.header? "Content-Type") payload).marks
  · obtain ⟨g, rfl⟩ := (of_q_mem_marks hq).resolve_left (Bool.not_eq_true _ ▸ h)
    have hname : .literal '\'' "querystring" ∈ moduleLine.content.tokens [] := by decide
    refine lacks_of_holds hname ?_
    simp only [declarationLines, Line.blank, List.cons_append, List.forall_mem_cons,
      List.forall_mem_append]
    exact ⟨⟨rfl, holds_graphqlObject _ _ _, rfl, List.forall_mem_nil _⟩, List.forall_mem_nil _,
      List.forall_mem_nil _⟩
  · have hletter : .code 'q' ∈ moduleLine.content.tokens [] := by decide
    exact lacks_of_shows hletter rfl (shows_declarationLines (by decide) (shows_payloadBody hq))

/-! ### The line for the module -/

theorem tokens?_moduleLine (indent : Text) :
    Dialect.javascript.tokens? "const qs = require('querystring');" =
      some (moduleLine.content.tokens indent) := by rfl

theorem hasLine_moduleLine (h : usesQuerystring boundary o r = true) :
    Dialect.javascript.HasLine "const qs = require('querystring');"
      (((document boundary o r port).flat indent).tokens indent) := by
  have hdocument : document boundary o r port =
      [clientLine (clientModule r) o.followRedirect, requireLine "fs" "fs" []] ++
        (document boundary o r port).drop 2 := by
    rw [document_eq, h]
    rfl
  have hmem : moduleLine ∈ (document boundary o r port).drop 2 := by
    rw [document_eq, h]
    exact List.mem_cons_self
  rw [hdocument]
  exact Program.hasLine_flat rfl (tokens?_moduleLine indent) (List.cons_ne_nil _ _) hmem

/-- No other line has a `=` and the name of the module. -/
theorem not_hasLine_moduleLine (hi : ∀ c ∈ indent, isSpacing c = true)
    (hport : portEntries r = .ok port) (h : usesQuerystring boundary o r = false) :
    ¬ Dialect.javascript.HasLine "const qs = require('querystring');"
      (((document boundary o r port).flat indent).tokens indent) := by
  have hequals : .code '=' ∈ moduleLine.content.tokens [] := by decide
  have hname : .literal '\'' "querystring" ∈ moduleLine.content.tokens [] := by decide
  have hending := lacks_of_shows hequals rfl (shows_ending o (by decide))
  refine Program.not_hasLine_of_lacks hi (tokens?_moduleLine []) (by decide) (by decide) ?_
  cases hcontent : r.body.bind (·.content?) with
  | none =>
    rw [document_of_none hcontent]
    exact List.forall_mem_append.mpr ⟨lacks_preamble hport, hending⟩
  | some payload =>
    have hdeclaration := lacks_declarationLines boundary
      ((usesQuerystring_of_some hcontent).symm.trans h)
    have hlength : ∀ l ∈ lengthLines (r.method = ("DELETE" : Text)), ∀ p ∈ l.content,
        p.holds "querystring" = false := by
      cases decide (r.method = ("DELETE" : Text)) <;> decide
    have hannouncement := shows_announcementLines (c := '=') (by decide) boundary
      (r.body.any (·.mode = BodyMode.formdata.name))
    have hwrite : ∀ l ∈ [writeLine, .blank], ∀ p ∈ l.content, p.shows '=' = false := by decide
    rw [document_of_some hcontent, h]
    simp only [List.forall_mem_append]
    exact ⟨lacks_preamble hport, hdeclaration, lacks_of_holds hname hlength,
      lacks_of_shows hequals rfl hannouncement, lacks_of_shows hequals rfl hwrite, hending⟩

theorem hasLine_moduleLine_iff (hi : ∀ c ∈ indent, isSpacing c = true)
    (hport : portEntries r = .ok port) :
    Dialect.javascript.HasLine "const qs = require('querystring');"
      (((document boundary o r port).flat indent).tokens indent) ↔
        usesQuerystring boundary o r = true := by
  cases h : usesQuerystring boundary o r with
  | true => exact iff_of_true (hasLine_moduleLine h) rfl
  | false => exact iff_of_false (not_hasLine_moduleLine hi hport h) Bool.false_ne_true

/-! ### The lines for the payload -/

/-- What is declared is the expression for the payload. -/
theorem declared?_of_some (hi : ∀ c ∈ indent, isSpacing c = true) (hport : portEntries r = .ok port)
    {payload : Payload} (h : r.body.bind (·.content?) = some payload) :
    declared? "postData" (((document boundary o r port).flat indent).tokens indent) = some
      ((payloadBody boundary o.trimBody (r.header? "Content-Type") payload).tokens indent) := by
  have hpreamble (usesQuerystring : Bool) :=
    Program.code_notMem_tokens hi rfl (shows_preamble (o := o) hport usesQuerystring (.inl rfl))
  have hsemicolon : Token.code ';' ∉
      (payloadBody boundary o.trimBody (r.header? "Content-Type") payload).tokens indent :=
    code_notMem_tokens hi rfl (shows_payloadBody (BodyShape.notMem_marks (.inl rfl) _))
  have hletter : Token.code 'D' ∈ codeTokens ("const " ++ "postData" ++ " = ") := by decide
  have hlines (body : Fragment) (p : Program) :
      (Program.flat indent (declarationLines body ++ p)).tokens indent =
        codeTokens ("const " ++ "postData" ++ " = ") ++ (body.tokens indent ++
          .code ';' :: .code '\n' :: (Program.flat indent (.blank :: p)).tokens indent) := by
    rw [declarationLines, List.cons_append, Program.tokens_flat_cons]
    simp only [Fragment.tokens, List.flatMap_cons, List.flatMap_append, List.flatMap_nil,
      List.append_assoc, List.cons_append, List.append_nil]
    rfl
  rw [document_of_some h, Program.tokens_flat_append, declared?,
    Program.seek?_flat hletter (by decide) (hpreamble _), ← declared?, hlines,
    declared?_append hsemicolon]

theorem declared?_document_iff (hi : ∀ c ∈ indent, isSpacing c = true)
    (hport : portEntries r = .ok port) {e : List Token} :
    declared? "postData" (((document boundary o r port).flat indent).tokens indent) = some e ↔
      ∃ payload, r.body.bind (·.content?) = some payload ∧
        (payloadBody boundary o.trimBody (r.header? "Content-Type") payload).tokens indent = e := by
  cases hcontent : r.body.bind (·.content?) with
  | none =>
    have hletter : Token.code 'D' ∈ codeTokens ("const " ++ "postData" ++ " = ") := by decide
    rw [declared?, Program.seek?_eq_none_of_lacks hi (List.ne_nil_of_mem hletter) (by decide)
      (lacks_of_none hport hcontent hletter)]
    simp
  | some payload =>
    rw [declared?_of_some hi hport hcontent]
    simp only [Option.some.injEq, exists_eq_left']

theorem tokens?_writeLine (indent : Text) :
    Dialect.javascript.tokens? "req.write(postData);" = some (writeLine.content.tokens indent) :=
  rfl

theorem hasLine_writeLine_iff (hi : ∀ c ∈ indent, isSpacing c = true)
    (hport : portEntries r = .ok port) :
    Dialect.javascript.HasLine "req.write(postData);"
      (((document boundary o r port).flat indent).tokens indent) ↔
        (r.body.bind (·.content?)).isSome = true := by
  cases hcontent : r.body.bind (·.content?) with
  | none =>
    have hletter : Token.code 'D' ∈ writeLine.content.tokens [] := by decide
    refine iff_of_false ?_ Bool.false_ne_true
    exact Program.not_hasLine_of_lacks hi (tokens?_writeLine []) (by decide) (by decide)
      (lacks_of_none hport hcontent hletter)
  | some payload =>
    refine iff_of_true ?_ rfl
    rw [document_of_some hcontent]
    exact Program.hasLine_flat rfl (tokens?_writeLine indent) (List.cons_ne_nil _ _) (by simp)

theorem tokens?_lengthLine (indent : Text) :
    Dialect.javascript.tokens? "req.setHeader('Content-Length', Buffer.byteLength(postData));" =
      some (lengthLine.content.tokens indent) := by rfl

/-- Only for a deletion there is a line with the length, as no other line has an `H`, but for the
one that announces a boundary, and this one has another name. -/
theorem lacks_lengthLine (hport : portEntries r = .ok port) {payload : Payload}
    (hcontent : r.body.bind (·.content?) = some payload) (hmethod : r.method ≠ ("DELETE" : Text)) :
    ∀ l ∈ document boundary o r port, l.Lacks (lengthLine.content.tokens []) := by
  have hletter : Token.code 'H' ∈ lengthLine.content.tokens [] := by decide
  have hname : .literal '\'' "Content-Length" ∈ lengthLine.content.tokens [] := by decide
  have hdeclaration : ∀ l ∈ declarationLines (payloadBody boundary o.trimBody
      (r.header? "Content-Type") payload), ∀ p ∈ l.content, p.shows 'H' = false :=
    shows_declarationLines (by decide) (shows_payloadBody (BodyShape.notMem_marks (.inr rfl) _))
  have hwrite : ∀ l ∈ [writeLine, .blank], ∀ p ∈ l.content, p.shows 'H' = false := by decide
  rw [document_of_some hcontent, decide_eq_false hmethod]
  simp only [List.forall_mem_append]
  exact ⟨lacks_of_shows hletter rfl (shows_preamble hport _ (.inr rfl)),
    lacks_of_shows hletter rfl hdeclaration, List.forall_mem_nil _,
    lacks_of_holds hname (holds_announcementLines _ _), lacks_of_shows hletter rfl hwrite,
    lacks_of_shows hletter rfl (shows_ending o (by decide))⟩

theorem hasLine_lengthLine_iff (hi : ∀ c ∈ indent, isSpacing c = true)
    (hport : portEntries r = .ok port) :
    Dialect.javascript.HasLine "req.setHeader('Content-Length', Buffer.byteLength(postData));"
      (((document boundary o r port).flat indent).tokens indent) ↔
        r.method = ("DELETE" : Text) ∧ (r.body.bind (·.content?)).isSome = true := by
  have hnone := Program.not_hasLine_of_lacks (p := document boundary o r port) hi
    (tokens?_lengthLine []) (by decide) (by decide)
  cases hcontent : r.body.bind (·.content?) with
  | none =>
    have hletter : Token.code 'D' ∈ lengthLine.content.tokens [] := by decide
    exact iff_of_false (hnone (lacks_of_none hport hcontent hletter)) (by simp)
  | some payload =>
    by_cases hmethod : r.method = ("DELETE" : Text)
    · refine iff_of_true ?_ ⟨hmethod, rfl⟩
      rw [document_of_some hcontent, decide_eq_true hmethod]
      exact Program.hasLine_flat rfl (tokens?_lengthLine indent) (List.cons_ne_nil _ _)
        (by simp [lengthLines, lengthLine, Program.when])
    · exact iff_of_false (hnone (lacks_lengthLine hport hcontent hmethod)) fun h => hmethod h.1

/-! ### The program as a whole -/

/-- The literals of a program are closed if a boundary that stands in one is kept inside. -/
theorem fits_document (hport : portEntries r = .ok port)
    (hkeeps : r.body.any (·.mode = BodyMode.formdata.name) = true →
      Dialect.javascript.Keeps '\'' boundary) : (document boundary o r port).Fits .javascript := by
  have hprefix : Dialect.javascript.Keeps '\'' "multipart/form-data; boundary=" :=
    Dialect.keeps_of_avoids (by decide)
  have hsending : (sending boundary o r).Fits .javascript := by
    rw [sending, body?]
    cases r.body.bind (·.content?) with
    | none => exact Program.fits_nil
    | some payload =>
      exact fits_bodyLines (fits_payloadBody _ _ _ _) _ fun h => hprefix.append (hkeeps h)
  have hending : (ending o).Fits .javascript :=
    Program.fits_append.mpr ⟨Program.fits_when fun _ => fits_timeoutLines o.requestTimeout, by
      simp only [Program.fits_cons, Program.fits_nil, fits_cons, fits_nil, Piece.fits_code]
      decide⟩
  rw [document_eq]
  exact Program.fits_append.mpr
    ⟨fits_preamble hport _, Program.fits_append.mpr ⟨hsending, hending⟩⟩

theorem usesQuerystring_iff : usesQuerystring boundary o r = true ↔
    ∃ payload, r.body.bind (·.content?) = some payload ∧
      (payloadShape o.trimBody (r.header? "Content-Type") payload).usesQuerystring = true := by
  cases hcontent : r.body.bind (·.content?) with
  | none =>
    rw [usesQuerystring, body?, hcontent]
    simp
  | some payload =>
    simp only [usesQuerystring_of_some hcontent, Option.some.injEq, exists_eq_left']

/-- The declared expression uses the module exactly if the program asks for it. -/
theorem exists_uses_iff (hi : ∀ c ∈ indent, isSpacing c = true) (hport : portEntries r = .ok port) :
    (∃ e, declared? "postData" (((document boundary o r port).flat indent).tokens indent) = some e ∧
      Uses "qs" e) ↔ usesQuerystring boundary o r = true := by
  simp only [declared?_document_iff hi hport, usesQuerystring_iff]
  constructor
  · rintro ⟨_, ⟨payload, hpayload, rfl⟩, huses⟩
    exact ⟨payload, hpayload, (uses_payloadBody_iff hi _ _ _ _).mp huses⟩
  · rintro ⟨payload, hpayload, huses⟩
    exact ⟨_, ⟨payload, hpayload, rfl⟩, (uses_payloadBody_iff hi _ _ _ _).mpr huses⟩

/-- A program asks for the module for a list of pairs whose keys do not interleave. -/
theorem usesQuerystring_iff_pairs : usesQuerystring boundary o r = true ↔
    ∃ b params, r.body = some b ∧ b.mode = BodyMode.urlencoded.name ∧
      b.urlencoded = some params ∧ params ≠ [] ∧
      ¬ Interleaved ((params.filter (!·.disabled)).map (·.key.trimmed o.trimBody)) := by
  have hkeys (params : List UrlencodedParam) : (urlencodedPairs o.trimBody params).map (·.1) =
      (params.filter (!·.disabled)).map (·.key.trimmed o.trimBody) := by
    rw [urlencodedPairs, List.map_map]
    rfl
  simp only [usesQuerystring_iff, usesQuerystring_payloadShape_iff, hkeys,
    ← interleavesKeys_iff_interleaved, Bool.not_eq_true, Request.content?_eq_some_iff]
  constructor
  · rintro ⟨_, ⟨b, hb, hpayload, hempty⟩, params, rfl, hinterleaves⟩
    obtain ⟨hmode, hparams⟩ := Body.payload?_eq_urlencoded_iff.mp hpayload
    exact ⟨b, params, hb, hmode, hparams, by simpa [Payload.isEmpty] using hempty, hinterleaves⟩
  · rintro ⟨b, params, hb, hmode, hparams, hne, hinterleaves⟩
    have hpayload := Body.payload?_eq_urlencoded_iff.mpr ⟨hmode, hparams⟩
    exact ⟨_, ⟨b, hb, hpayload, by simpa [Payload.isEmpty] using hne⟩, params, rfl, hinterleaves⟩

/-- What the program for a request declares and writes is what it uses and has. Each literal of it
is closed, if a boundary that stands in one is kept inside. The name `qs` is declared as the module
`querystring` exactly if the expression for the payload uses it, which is exactly if that is a
non-empty list of pairs whose enabled keys do not interleave. The payload is declared and written,
and its length set for a deletion, exactly if there is one; what is declared is the text for the
body. -/
theorem assemble_declares_iff_uses [Host] {boundary : Text} {o : Options} {r : Request} {s : Text}
    (h : (⟨.node, boundary⟩ : Converter).assemble o r = .ok s)
    (hkeeps : r.body.any (·.mode = BodyMode.formdata.name) = true →
      Dialect.javascript.Keeps '\'' boundary) :
    ∃ ts, Dialect.javascript.tokens? s = some ts ∧
      (Dialect.javascript.HasLine "const qs = require('querystring');" ts ↔
        ∃ e, declared? "postData" ts = some e ∧ Uses "qs" e) ∧
      ((∃ e, declared? "postData" ts = some e ∧ Uses "qs" e) ↔
        ∃ b params, r.body = some b ∧ b.mode = BodyMode.urlencoded.name ∧
          b.urlencoded = some params ∧ params ≠ [] ∧
          ¬ Interleaved ((params.filter (!·.disabled)).map (·.key.trimmed o.trimBody))) ∧
      ((declared? "postData" ts).isSome = true ↔ r.HasPayload) ∧
      (Dialect.javascript.HasLine "req.write(postData);" ts ↔ r.HasPayload) ∧
      (Dialect.javascript.HasLine "req.setHeader('Content-Length', Buffer.byteLength(postData));"
        ts ↔ r.method = ("DELETE" : Text) ∧ r.HasPayload) ∧
      ∀ e, declared? "postData" ts = some e →
        ∃ text, (⟨.node, boundary⟩ : Converter).bodyText o r = .ok text ∧
          Dialect.javascript.tokens? text = some e := by
  obtain ⟨hcount, p, hp, rfl⟩ := Converter.assemble_eq_ok.mp h
  obtain ⟨port, hport, ⟨hbody, -⟩, rfl⟩ := program_eq_ok.mp hp
  have hi := isSpacing_of_mem_indent o
  have hindent := unquoted_indent .javascript o
  have hflat := Program.fits_flat hindent (fits_document (o := o) hport hkeeps)
  refine ⟨((document boundary o r port).flat o.indent).tokens o.indent, ?_, ?_, ?_, ?_, ?_, ?_, ?_⟩
  · rw [← Program.render_flat, Fragment.tokens?_render hindent hflat]
  · rw [hasLine_moduleLine_iff hi hport, exists_uses_iff hi hport]
  · rw [exists_uses_iff hi hport, usesQuerystring_iff_pairs]
  · simp only [Request.hasPayload_iff, Option.isSome_iff_exists, declared?_document_iff hi hport]
    exact ⟨fun ⟨_, payload, hpayload, _⟩ => ⟨payload, hpayload⟩,
      fun ⟨payload, hpayload⟩ => ⟨_, payload, hpayload, rfl⟩⟩
  · rw [hasLine_writeLine_iff hi hport, Request.hasPayload_iff]
  · rw [hasLine_lengthLine_iff hi hport, Request.hasPayload_iff]
  · intro e he
    obtain ⟨payload, hpayload, rfl⟩ := (declared?_document_iff hi hport).mp he
    have hindentOf : Converter.indentOf o = .ok o.indent :=
      mapError_eq_ok.mpr (indentation_eq_ok.mpr ⟨hcount, rfl⟩)
    refine ⟨_, Converter.bodyText_eq_ok _ o r hindentOf (forM_eq_ok.mp hbody), ?_⟩
    simp only [body?, hpayload, Option.map_some, Option.getD_some]
    exact Fragment.tokens?_render hindent (fits_payloadBody _ _ _ _)

section

attribute [local instance] Host.usual

/-- A deletion with pairs whose keys interleave only as long as white space and disabled pairs
count, and a form with a text that looks like the use of the module. -/
theorem assemble_declares_iff_uses_of_deletion :
    let params : List UrlencodedParam := [{ key := "a", value := "'; qs." },
      { key := "b", value := "1", disabled := true }, { key := "a ", value := "2" }]
    let pairs : Request :=
      { method := "DELETE"
        url := { host := ["h"] }
        body := some { mode := "urlencoded", urlencoded := some params } }
    let form : Request :=
      { method := "POST"
        url := { host := ["h"] }
        body := some { mode := "formdata", formdata := some [{ key := "qs", value := "qs.a;" }] } }
    let o : Options := { trimBody := true }
    let c : Converter := ⟨.node, defaultBoundary⟩
    (∃ s ts, c.assemble o pairs = .ok s ∧ Dialect.javascript.tokens? s = some ts ∧
      Dialect.javascript.HasLine "const qs = require('querystring');" ts ∧
      (∃ e, declared? "postData" ts = some e ∧ Uses "qs" e) ∧
      Dialect.javascript.HasLine "req.setHeader('Content-Length', Buffer.byteLength(postData));"
        ts ∧
      Dialect.javascript.HasLine "req.write(postData);" ts) ∧
    ∃ s ts, c.assemble o form = .ok s ∧ Dialect.javascript.Keeps '\'' defaultBoundary ∧
      Dialect.javascript.tokens? s = some ts ∧
      ¬ Dialect.javascript.HasLine "const qs = require('querystring');" ts ∧
      (declared? "postData" ts).isSome = true ∧
      ¬ Dialect.javascript.HasLine "req.setHeader('Content-Length', Buffer.byteLength(postData));"
        ts ∧
      Dialect.javascript.HasLine "req.write(postData);" ts := by
  intro params pairs form o c
  have hkeeps : Dialect.javascript.Keeps '\'' defaultBoundary :=
    Dialect.keeps_of_avoids (by decide)
  obtain ⟨s, hs⟩ := exists_eq_ok (show (c.assemble o pairs).isOk = true by decide +kernel)
  obtain ⟨s', hs'⟩ := exists_eq_ok (show (c.assemble o form).isOk = true by decide +kernel)
  refine ⟨?_, ?_⟩
  · obtain ⟨ts, hts, hline, huses, -, hwrite, hlength, -⟩ :=
      assemble_declares_iff_uses hs (fun _ => hkeeps)
    have hpayload : pairs.HasPayload := ⟨_, .urlencoded params, rfl, rfl, rfl⟩
    have hkeys : ¬ Interleaved ((params.filter (!·.disabled)).map (·.key.trimmed true)) :=
      mt (interleavesKeys_iff_interleaved _).mpr (by decide)
    have hqs := huses.mpr ⟨_, params, rfl, rfl, rfl, List.cons_ne_nil _ _, hkeys⟩
    exact ⟨s, ts, hs, hts, hline.mpr hqs, hqs, hlength.mpr ⟨rfl, hpayload⟩, hwrite.mpr hpayload⟩
  · obtain ⟨ts, hts, hline, huses, hdeclared, hwrite, hlength, -⟩ :=
      assemble_declares_iff_uses hs' (fun _ => hkeeps)
    have hpayload : form.HasPayload := ⟨_, .formdata _, rfl, rfl, rfl⟩
    refine ⟨s', ts, hs', hkeeps, hts, fun h => ?_, hdeclared.mpr hpayload, fun h => ?_,
      hwrite.mpr hpayload⟩
    · obtain ⟨b, _, hb, hmode, -⟩ := huses.mp (hline.mp h)
      cases hb
      exact absurd hmode (by decide)
    · exact absurd (hlength.mp h).1 (by decide)

end

end Node
end HttpSnippet

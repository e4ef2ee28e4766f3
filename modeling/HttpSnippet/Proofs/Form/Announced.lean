import HttpSnippet.Proofs.Form.Multipart
import HttpSnippet.Proofs.Header.Reading
import HttpSnippet.Proofs.Text.Separator

/-!
# The announced boundary

A Node program states the boundary of a form twice. The payload has it in its delimiters, inside of
JSON strings, and a header announces it in a literal that is not escaped. A reader of the program
finds the payload with the boundary that was asked for. The header announces the same boundary
exactly if the boundary can stand in a literal as it is.
-/
namespace HttpSnippet

open Fragment

/-! ### Literals that are not escaped -/

namespace Dialect

/-- Inside of a literal a scanner only adds to what it has read. -/
theorem leading_inside {d : Dialect} {q : Char} {t : Text} {x : Token} {us : List Token} :
    ∀ {s : Text}, d.leading (.inside q s) t = x :: us ∨ d.leading (.escaped q s) t = x :: us →
      ∃ inside, x = .literal q (s ++ inside) := by
  induction t with
  | nil =>
    intro s h
    rcases h with h | h <;> cases h
  | cons c t ih =>
    intro s h
    have hnext : (∃ inside, x = .literal q (s ++ [c] ++ inside)) →
        ∃ inside, x = .literal q (s ++ inside) := by
      rintro ⟨inside, rfl⟩
      exact ⟨c :: inside, by simp⟩
    rcases h with h | h
    · rw [leading] at h
      split at h
      · cases h
      split at h
      · exact hnext (ih (.inr h))
      split at h
      · obtain ⟨rfl, -⟩ := List.cons.inj h
        exact ⟨[], by simp⟩
      · exact hnext (ih (.inl h))
    · rw [leading] at h
      split at h
      · cases h
      · exact hnext (ih (.inl h))

theorem leading_verbatim {d : Dialect} {t : Text} (h : d.Keeps '\'' t) (rest : Text) :
    d.leading .code ('\'' :: t ++ '\'' :: rest) = .literal '\'' t :: d.leading .code rest := by
  have hscan := scan_literal (opens_quote d) (bars_quote d) (by decide) h []
  have hleading := leading_append hscan rest
  simpa using hleading

/-- What an escape in JavaScript stands for. -/
theorem eq_of_meaning? {c : Char} {m : Text} (h : Dialect.javascript.meaning? c = some m) :
    m = [c] ∨ ∃ b ∈ ("\x08\t\n\x0b\x0c\r" : Text), m = [b] := by
  unfold meaning? at h
  split at h
  case h_7 =>
    split at h
    · cases h
    · exact .inl (Option.some.inj h).symm
  case h_8 hd => cases hd
  case h_9 hd => cases hd
  case h_10 hd _ _ => cases hd
  all_goals exact .inr ⟨_, by decide, (Option.some.inj h).symm⟩

/-- The characters that do not stand for themselves in a literal. -/
def literalMarks : Text := "'\\\n\r"

theorem decode?_of_avoids {t : Text} (h : t.Avoids literalMarks) :
    Dialect.javascript.decode? t = some t := by
  induction t with
  | nil => rfl
  | cons c t ih =>
    obtain ⟨hc, ht⟩ := Text.avoids_cons.mp h
    rw [decode?_plain (by rintro rfl; exact hc (by decide)), ih ht]
    rfl

theorem keeps_of_avoids {t : Text} (h : t.Avoids literalMarks) :
    Dialect.javascript.Keeps '\'' t := by
  refine keeps_of_forall fun c hc => ?_
  have hne {b : Char} (hb : b ∈ literalMarks) : c ≠ b := by
    rintro rfl
    exact h c hb hc
  refine ⟨?_, hne (by decide), hne (by decide)⟩
  simp only [bars, Bool.or_eq_false_iff, decide_eq_false_iff_not]
  exact ⟨hne (by decide), hne (by decide)⟩

theorem exists_inside {d : Dialect} {q : Char} {s u inside t : Text} {us : List Token}
    (h : d.leading (.inside q (s ++ u)) t = .literal q (s ++ inside) :: us) :
    ∃ i, inside = u ++ i := by
  obtain ⟨i, hi⟩ := leading_inside (.inl h)
  rw [Token.literal.injEq, List.append_assoc, List.append_cancel_left_eq] at hi
  exact ⟨i, hi.2⟩

/-- Only two backslashes stand for one. -/
theorem eq_backslash_of_decode? {e : Char} {i rest : Text}
    (h : Dialect.javascript.decode? ('\\' :: e :: i) = some ('\\' :: rest)) :
    e = '\\' ∧ Dialect.javascript.decode? i = some rest := by
  rw [decode?] at h
  obtain ⟨m, hm, h⟩ := Option.bind_eq_some_iff.mp h
  obtain ⟨u, hu, heq⟩ := Option.map_eq_some_iff.mp h
  rcases eq_of_meaning? hm with rfl | ⟨b, hb, rfl⟩
  · obtain ⟨rfl, rfl⟩ := List.cons.inj heq
    exact ⟨rfl, hu⟩
  · obtain ⟨rfl, -⟩ := List.cons.inj heq
    exact absurd hb (by decide)

/-- A backslash is taken along with the character behind it. -/
theorem exists_inside_pair {s inside t : Text} {e : Char} {us : List Token}
    (h : Dialect.javascript.leading (.inside '\'' s) ('\\' :: e :: t) =
      .literal '\'' (s ++ inside) :: us) :
    ∃ i, inside = '\\' :: e :: i ∧
      Dialect.javascript.leading (.inside '\'' (s ++ ['\\', e])) t =
        .literal '\'' (s ++ ['\\', e] ++ i) :: us := by
  have hpair : Dialect.javascript.leading (.inside '\'' (s ++ ['\\', e])) t =
      .literal '\'' (s ++ inside) :: us := by
    cases hb : Dialect.javascript.bars e with
    | true => simp [leading, hb] at h
    | false => simpa [leading, hb] using h
  obtain ⟨i, rfl⟩ := exists_inside hpair
  exact ⟨i, rfl, by simpa using hpair⟩

/-- Any other character stands for itself, unless it is the closing quote. -/
theorem exists_inside_plain {s inside t : Text} {c : Char} {us : List Token} (hs : c ≠ '\\')
    (h : Dialect.javascript.leading (.inside '\'' s) (c :: t) =
      .literal '\'' (s ++ inside) :: us) :
    (c = '\'' ∧ inside = []) ∨ c ∉ literalMarks ∧ ∃ i, inside = c :: i ∧
      Dialect.javascript.leading (.inside '\'' (s ++ [c])) t =
        .literal '\'' (s ++ [c] ++ i) :: us := by
  rw [leading, if_neg hs] at h
  split at h
  · cases h
  next hb =>
  by_cases hq : c = '\''
  · obtain ⟨hinside, -⟩ : inside = [] ∧ _ := by simpa [hq] using h
    exact .inl ⟨hq, hinside⟩
  · rw [if_neg hq] at h
    obtain ⟨i, rfl⟩ := exists_inside h
    simp only [bars, Bool.or_eq_true, decide_eq_true_eq, not_or] at hb
    exact .inr ⟨by simp [literalMarks, hs, hq, hb], i, rfl, by simpa using h⟩

theorem replicate_append_cons (n : Nat) (c : Char) (t : Text) :
    List.replicate n c ++ c :: t = List.replicate (n + 1) c ++ t := by
  rw [List.replicate_succ', List.append_assoc, List.singleton_append]

/-- Where an unescaped literal stands for the text that it was written from, maybe with backslashes
in front, there are none of these and no character needs an escape. A backslash in the text would be
read together with the character behind it, so the text would have to go on with another one, and
once the text ends there is none left. -/
theorem avoids_of_leading {w : Text} {us : List Token} {t s inside : Text} {n : Nat}
    (h : Dialect.javascript.leading (.inside '\'' s) (t ++ '\'' :: w) =
      .literal '\'' (s ++ inside) :: us)
    (hd : Dialect.javascript.decode? inside = some (List.replicate n '\\' ++ t)) :
    n = 0 ∧ t.Avoids literalMarks := by
  -- a backslash takes two characters at once, so the induction is on the length
  induction hl : t.length using Nat.strong_induction_on generalizing t s inside n with
  | _ l ih =>
    cases t with
    | nil =>
      rcases exists_inside_plain (by decide) h with ⟨-, rfl⟩ | ⟨hmark, -⟩
      · exact ⟨by simpa [decode?] using hd, Text.avoids_nil _⟩
      · exact absurd (by decide) hmark
    | cons c t =>
      by_cases hs : c = '\\'
      · rw [hs, replicate_append_cons, List.replicate_succ, List.cons_append] at hd
        rw [hs] at h
        cases t with
        | nil =>
          obtain ⟨i, rfl, -⟩ := exists_inside_pair h
          exact absurd (eq_backslash_of_decode? hd).1 (by decide)
        | cons e t =>
          obtain ⟨i, rfl, hrest⟩ := exists_inside_pair h
          obtain ⟨rfl, hi⟩ := eq_backslash_of_decode? hd
          rw [replicate_append_cons] at hi
          have hshorter : t.length < l := by
            simp only [List.length_cons] at hl
            omega
          exact absurd (ih t.length hshorter hrest hi rfl).1 (Nat.succ_ne_zero n)
      · rcases exists_inside_plain hs h with ⟨-, rfl⟩ | ⟨hmark, i, rfl, hrest⟩
        · simp [decode?] at hd
        rw [decode?_plain hs] at hd
        obtain ⟨u, hu, heq⟩ := Option.map_eq_some_iff.mp hd
        cases n with
        | zero =>
          rw [(List.cons.inj heq).2] at hu
          have hshorter : t.length < l := by
            simp only [List.length_cons] at hl
            omega
          obtain ⟨-, ht⟩ := ih t.length hshorter (n := 0) hrest hu rfl
          exact ⟨rfl, Text.avoids_cons.mpr ⟨hmark, ht⟩⟩
        | succ n => exact absurd (List.cons.inj heq).1 hs

/-- What a literal stands for, if an argument list ends behind it. -/
def readArgument? : List Token → Option Text
  | .literal '\'' inside :: .code ')' :: .code ';' :: _ => Dialect.javascript.decode? inside
  | _ => none

/-- A text that is not escaped is read back exactly if nothing in it needs an escape. -/
theorem readArgument?_verbatim_iff (t rest : Text) :
    readArgument? (Dialect.javascript.leading .code ('\'' :: t ++ '\'' :: (");" ++ rest))) =
      some t ↔
      t.Avoids literalMarks := by
  constructor
  · intro h
    have hopen : Dialect.javascript.leading .code ('\'' :: t ++ '\'' :: (");" ++ rest)) =
        Dialect.javascript.leading (.inside '\'' []) (t ++ '\'' :: (");" ++ rest)) := rfl
    rw [hopen] at h
    unfold readArgument? at h
    split at h
    · next inside us heq => exact (avoids_of_leading (s := []) (n := 0) heq h).2
    · cases h
  · intro h
    rw [leading_verbatim (keeps_of_avoids h)]
    exact decode?_of_avoids h

end Dialect
namespace Node

/-! ### The reader -/

/-- The operands of the payload of a program. -/
def payload? (s : Text) : Option (List Chunk) := do
  let ts ← seek? (codeTokens "const postData = ") (Dialect.javascript.leading .code s)
  readOperands? (ts.takeWhile (· ≠ .code ';'))

/-- The tokens in front of an announced content type. -/
def announcement : List Token :=
  codeTokens "req.setHeader(" ++ .literal '\'' "content-type" :: codeTokens ", "

/-- The content type that a program announces for its payload. -/
def announced? (s : Text) : Option Text := do
  Dialect.readArgument? (← seek? announcement (Dialect.javascript.leading .code s))

/-! ### In front of the payload -/

/-- The characters around the texts of a property. -/
def valueMarks : Text := ": [,]"

theorem within_oneOrArray (vs : List Text) : ∀ p ∈ oneOrArray vs, p.within valueMarks = true := by
  have hjoin : ∀ p ∈ join ", " (vs.map fun v => [quoted v]), p.within valueMarks = true := by
    refine forall_mem_join (by decide) fun f hf => ?_
    obtain ⟨v, -, rfl⟩ := List.mem_map.mp hf
    simp [quoted, Piece.within]
  unfold oneOrArray
  split
  · simp [quoted, Piece.within]
  · simp only [List.cons_append, List.forall_mem_cons, List.forall_mem_append]
    exact ⟨by decide, hjoin, by decide⟩

theorem within_property {marks name : Text} {value : Fragment} (hcolon : (": " : Text) ⊆ marks)
    (hv : ∀ p ∈ value, p.within marks = true) :
    ∀ p ∈ property name value, p.within marks = true := by
  simp only [property, List.forall_mem_cons]
  exact ⟨rfl, Piece.within_code.mpr hcolon, hv⟩

/-- The entries of an object have nothing outside of literals but the marks between their texts. -/
theorem within_groupLines (level : Nat) (groups : List (Text × List Text)) :
    ∀ p ∈ commaLines level (groupEntries groups), p.within valueMarks = true := by
  refine forall_mem_join (by simp [valueMarks, Piece.within]) fun f hf => ?_
  obtain ⟨g, -, rfl⟩ := List.mem_map.mp hf
  exact within_property (by decide) (within_oneOrArray g.2)

/-- The characters of the options object outside of literals. -/
def entryMarks : Text := ": [,]\x7b\x7d-0123456789"

theorem within_headersEntry (r : Request) : ∀ p ∈ headersEntry r, p.within entryMarks = true := by
  refine within_property (by decide) ?_
  split
  · decide
  · have hlines : ∀ p ∈ commaLines 2 (groupEntries (headerGroups r)), p.within entryMarks = true :=
      fun p hp => Piece.within_of_subset (by decide) (within_groupLines 2 _ p hp)
    simp only [List.cons_append, List.forall_mem_cons, List.forall_mem_append]
    exact ⟨by decide, rfl, hlines, by decide⟩

theorem within_portEntries {r : Request} {port : List Fragment} (h : portEntries r = .ok port) :
    ∀ f ∈ port, ∀ p ∈ f, p.within entryMarks = true := by
  intro f hf
  rcases eq_of_mem_portEntries h hf with ⟨n, rfl⟩ | ⟨t, rfl⟩
  · refine within_property (by decide) (List.forall_mem_singleton.mpr ?_)
    exact Piece.within_code.mpr (List.Subset.trans (Text.ofInt_subset n) (by decide))
  · exact within_property (by decide) (by simp [quoted, Piece.within])

theorem within_entriesWith {r : Request} {port : List Fragment} (h : portEntries r = .ok port)
    (o : Options) : ∀ f ∈ entriesWith o r port, ∀ p ∈ f, p.within entryMarks = true := by
  have hquoted (name t : Text) : ∀ p ∈ property name [quoted t], p.within entryMarks = true :=
    within_property (by decide) (by simp [quoted, Piece.within])
  simp only [entriesWith, List.forall_mem_append, List.forall_mem_cons]
  refine ⟨⟨⟨⟨hquoted _ _, hquoted _ _, by simp⟩, within_portEntries h⟩, hquoted _ _,
    within_headersEntry r, by simp⟩, ?_⟩
  split
  · decide
  · simp

/-- The lines of a program down to those that send the body. -/
def preamble (o : Options) (r : Request) (usesQuerystring : Bool) (port : List Fragment) :
    Program :=
  opening o (clientModule r) usesQuerystring ++ ⟨1, commaLines 1 (entriesWith o r port)⟩ ::
    ([⟨0, "\x7d;"⟩, .blank] ++ requestLines (clientModule r))

theorem document_eq (boundary : Text) (o : Options) (r : Request) (port : List Fragment) :
    document boundary o r port =
      preamble o r (usesQuerystring boundary o r) port ++ (sending boundary o r ++
        (Program.when (o.requestTimeout ≠ 0) (timeoutLines o.requestTimeout) ++
          [⟨0, "req.end();"⟩])) := by
  rw [document, layout_eq, closing, preamble]
  simp only [List.append_assoc, List.cons_append, List.nil_append]

theorem fits_preamble {o : Options} {r : Request} {port : List Fragment}
    (h : portEntries r = .ok port) (usesQuerystring : Bool) :
    (preamble o r usesQuerystring port).Fits .javascript := by
  have hentries : optionEntries o r = .ok (entriesWith o r port) := bind_eq_ok.mpr ⟨port, h, rfl⟩
  have hclient := unquoted_clientModule r
  simp only [preamble, Line.blank, List.cons_append, List.nil_append, Program.fits_append,
    Program.fits_cons, fits_cons, fits_nil, Piece.fits_code, fits_opening hclient,
    fits_requestLines hclient, fits_commaLines 1 (optionEntries_of_ok hentries o.trimBody).1]
  decide

/-- The statements that send the body are told by letters that no code in front of them has. -/
theorem shows_preamble {o : Options} {r : Request} {port : List Fragment}
    (h : portEntries r = .ok port) (usesQuerystring : Bool) {c : Char} (hc : c = 'D' ∨ c = 'H') :
    ∀ l ∈ preamble o r usesQuerystring port, ∀ p ∈ l.content, p.shows c = false := by
  have hmark : c ∉ entryMarks := by rcases hc with rfl | rfl <;> decide
  have hentries : ∀ p ∈ commaLines 1 (entriesWith o r port), p.shows c = false := by
    intro p hp
    exact Piece.shows_of_within
      (forall_mem_join (by decide) (within_entriesWith h o) p hp) hmark
  have hopening : ∀ l ∈ opening o (clientModule r) usesQuerystring,
      ∀ p ∈ l.content, p.shows c = false := by
    unfold opening clientLine
    -- the lines are fixed but for these choices
    rcases hc with rfl | rfl <;> rcases clientModule_cases r with h | h <;> rw [h] <;>
      cases o.followRedirect <;> cases usesQuerystring <;> decide
  have hrequest : ∀ l ∈ requestLines (clientModule r), ∀ p ∈ l.content, p.shows c = false := by
    rcases hc with rfl | rfl <;> rcases clientModule_cases r with h | h <;> rw [h] <;> decide
  have hclose : ∀ l ∈ ([⟨0, "\x7d;"⟩, .blank] : Program), ∀ p ∈ l.content, p.shows c = false := by
    rcases hc with rfl | rfl <;> decide
  exact List.forall_mem_append.mpr ⟨hopening, List.forall_mem_cons.mpr ⟨hentries,
    List.forall_mem_append.mpr ⟨hclose, hrequest⟩⟩⟩

/-! ### The lines that send the body -/

def payloadLines (chunks : List Chunk) : Program :=
  [⟨0, .code "const postData = " :: concatenation chunks ++ ";"⟩, .blank]

def lengthLines (isDelete : Bool) : Program :=
  Program.when isDelete
    [⟨0, [.code "req.setHeader(", quoted "Content-Length",
      .code ", Buffer.byteLength(postData));"]⟩, .blank]

theorem within_concatenation (chunks : List Chunk) :
    ∀ p ∈ concatenation chunks, p.within "fs.readFileSync() +" = true := by
  refine forall_mem_join (by decide) fun f hf => ?_
  obtain ⟨chunk, -, rfl⟩ := List.mem_map.mp hf
  cases chunk with
  | text t => simp [Chunk.fragment, Piece.within]
  | file path =>
    simp only [Chunk.fragment, readFile, call, List.cons_append, List.nil_append,
      List.forall_mem_cons]
    exact ⟨by decide, rfl, by decide, by simp⟩

theorem shows_concatenation {c : Char} (hc : c ∉ ("fs.readFileSync() +" : Text))
    (chunks : List Chunk) : ∀ p ∈ concatenation chunks, p.shows c = false :=
  fun p hp => Piece.shows_of_within (within_concatenation chunks p hp) hc

theorem fits_payloadLines (chunks : List Chunk) : (payloadLines chunks).Fits .javascript := by
  simp only [payloadLines, Line.blank, List.cons_append, Program.fits_cons, Program.fits_nil,
    fits_append, fits_cons, fits_nil, Piece.fits_code, fits_concatenation]
  decide

theorem fits_lengthLines (isDelete : Bool) : (lengthLines isDelete).Fits .javascript := by
  refine Program.fits_when fun _ => ?_
  simp only [Line.blank, Program.fits_cons, Program.fits_nil, fits_cons, fits_nil,
    Piece.fits_code, fits_quoted]
  decide

/-- The line that announces a content type, which is not escaped. -/
def announcementLine (contentType : Text) : Line :=
  ⟨0, [.code "req.setHeader(", quoted "content-type", .code ", ", .verbatim contentType,
    .code ");"]⟩

theorem bodyLines_eq (boundary : Text) (isDelete : Bool) (chunks : List Chunk) :
    bodyLines boundary isDelete true (concatenation chunks) =
      payloadLines chunks ++ (lengthLines isDelete ++
        announcementLine ("multipart/form-data; boundary=" ++ boundary) ::
          [.blank, ⟨0, "req.write(postData);"⟩, .blank]) := by
  simp only [bodyLines, payloadLines, lengthLines, announcementLine, Program.when, if_true,
    List.append_assoc, List.cons_append, List.nil_append]

variable {indent : Text}

theorem leading_program (hi : ∀ c ∈ indent, isSpacing c = true) {p : Program}
    (hp : p.Fits .javascript) (rest : Text) :
    Dialect.javascript.leading .code (p.render indent ++ rest) =
      (p.flat indent).tokens indent ++ Dialect.javascript.leading .code rest := by
  have hindent := unquoted_of_spacing (d := .javascript) hi
  rw [← Program.render_flat, leading_render hindent (Program.fits_flat hindent hp)]

/-- The payload is read back from the lines that declare it. -/
theorem payload?_render (hi : ∀ c ∈ indent, isSpacing c = true) {p : Program}
    (hp : p.Fits .javascript) (hshows : ∀ l ∈ p, ∀ q ∈ l.content, q.shows 'D' = false)
    {chunks : List Chunk} (hc : chunks ≠ []) (rest : Text) :
    payload? (p.render indent ++ ((payloadLines chunks).render indent ++ rest)) = some chunks := by
  have hpasses := Program.code_notMem_tokens hi rfl hshows
  have hlines (ts : List Token) : ((payloadLines chunks).flat indent).tokens indent ++ ts =
      codeTokens "const postData = " ++ ((concatenation chunks).tokens indent ++
        .code ';' :: .code '\n' :: .code '\n' :: ts) := by
    simp only [payloadLines, Line.blank, Program.flat, Fragment.tokens, List.flatMap_cons,
      List.flatMap_append, List.flatMap_nil, List.append_assoc, List.cons_append, List.nil_append]
    rfl
  have hsemicolon : ∀ t ∈ (concatenation chunks).tokens indent,
      decide (t ≠ .code ';') = true := by
    intro t ht
    rw [decide_eq_true_eq]
    rintro rfl
    exact code_notMem_tokens hi rfl (shows_concatenation (by decide) chunks) ht
  rw [payload?, leading_program hi hp, leading_program hi (fits_payloadLines chunks),
    Program.seek?_flat (by decide) (by decide) hpasses, hlines, seek?_append (by decide)]
  simp only [Option.bind_eq_bind, Option.bind_some]
  rw [List.takeWhile_append_of_pos hsemicolon, List.takeWhile_cons_of_neg (by simp),
    List.append_nil, readOperands?_concatenation indent hc]

/-- The line that announces a content type is read back exactly if nothing needs an escape. -/
theorem announced?_render_iff (hi : ∀ c ∈ indent, isSpacing c = true) {p : Program}
    (hp : p.Fits .javascript) (hshows : ∀ l ∈ p, ∀ q ∈ l.content, q.shows 'H' = false)
    (isDelete : Bool) (t rest : Text) :
    announced? (p.render indent ++ ((lengthLines isDelete).render indent ++
        ((announcementLine t).render indent ++ rest))) = some t ↔
      t.Avoids Dialect.literalMarks := by
  have hpasses := Program.code_notMem_tokens hi rfl hshows
  have hletter : Token.code 'H' ∈ announcement := by decide
  have hlength : .literal '\'' "content-type" ∉
      ((lengthLines isDelete).flat indent).tokens indent := by
    refine literal_notMem_flat indent ?_
    cases isDelete <;> decide
  have hopened : (announcementLine t).render indent ++ rest =
      Fragment.render indent [.code "req.setHeader(", quoted "content-type", .code ", "] ++
        ('\'' :: t ++ '\'' :: (");" ++ '\n' :: rest)) := by
    simp only [announcementLine, Line.render, renderAt, Fragment.render, Piece.render, quoted,
      List.flatMap_cons, List.flatMap_nil, List.append_assoc, List.cons_append, List.nil_append,
      List.append_nil]
    rfl
  have hfits : Fits .javascript [.code "req.setHeader(", quoted "content-type", .code ", "] := by
    simp only [fits_cons, fits_nil, Piece.fits_code, fits_quoted]
    decide
  rw [announced?, leading_program hi hp, leading_program hi (fits_lengthLines isDelete), hopened,
    leading_render (unquoted_of_spacing hi) hfits,
    Program.seek?_flat hletter (by decide) hpasses,
    Program.seek?_flat (by decide) (by decide) hlength]
  have hannouncement : Fragment.tokens indent
      [.code "req.setHeader(", quoted "content-type", .code ", "] = announcement := rfl
  rw [hannouncement, seek?_append (by decide)]
  exact Dialect.readArgument?_verbatim_iff t _

/-! ### The boundary in the payload -/

/-- Every part has the boundary once, and the closing delimiter has it too. -/
theorem length_multipartText (boundary : Text) (contents : Text → Text) (items : List FormItem) :
    (multipartText boundary contents items).length =
      (items.length + 1) * boundary.length + (multipartText [] contents items).length := by
  induction items with
  | nil =>
    simp [multipartText]
  | cons item items ih =>
    have hpart : (protocolLines (item.headLines boundary ++ [item.content contents])).length =
        boundary.length +
          (protocolLines (item.headLines [] ++ [item.content contents])).length := by
      cases item <;> simp [protocolLines, FormItem.headLines] <;> omega
    rw [multipartText_cons, multipartText_cons, List.length_append, List.length_append, hpart, ih,
      List.length_cons, Nat.succ_mul (items.length + 1)]
    omega

theorem exists_multipartText_eq (boundary : Text) (contents : Text → Text)
    (items : List FormItem) :
    ∃ rest, multipartText boundary contents items = "--" ++ (boundary ++ rest) := by
  cases items with
  | nil => exact ⟨"--", by simp [multipartText]⟩
  | cons item items =>
    have hpart : ∃ rest, protocolLines (item.headLines boundary ++ [item.content contents]) =
        "--" ++ (boundary ++ rest) := by
      cases item <;> exact ⟨_, by simp [protocolLines, FormItem.headLines]; rfl⟩
    obtain ⟨rest, hrest⟩ := hpart
    exact ⟨rest ++ multipartText boundary contents items, by
      rw [multipartText_cons, hrest]
      simp⟩

/-- One text cannot be a form with two boundaries. -/
theorem multipartText_inj {boundary other : Text} {contents : Text → Text} {items : List FormItem}
    (h : multipartText other contents items = multipartText boundary contents items) :
    other = boundary := by
  have hlength := congrArg List.length h
  rw [length_multipartText, length_multipartText boundary] at hlength
  have hsame : other.length = boundary.length :=
    Nat.eq_of_mul_eq_mul_left (Nat.succ_pos items.length) (Nat.add_right_cancel hlength)
  obtain ⟨rest, hrest⟩ := exists_multipartText_eq boundary contents items
  obtain ⟨rest', hrest'⟩ := exists_multipartText_eq other contents items
  rw [hrest, hrest'] at h
  exact (List.append_inj (List.append_cancel_left h) hsame).1

/-! ### Conversions -/

/-- A form with members is sent as its chunks after normalization. -/
theorem sending_normalize {r : Request} {b : Body} (hb : r.body = some b)
    (hmode : b.mode = BodyMode.formdata.name) {params : List FormParam}
    (hparams : b.formdata = some params) (hne : params ≠ []) (boundary : Text) (o : Options) :
    sending boundary o r.normalize =
      bodyLines boundary (r.normalize.method = ("DELETE" : Text)) true
        (concatenation (formChunks o.trimBody boundary (params.flatMap (·.expand)))) := by
  have hknown : BodyMode.ofName? BodyMode.formdata.name = some .formdata := rfl
  have hpayload : b.payload? = some (.formdata params) := by
    rw [Body.payload?, hmode, hknown, hparams]
    rfl
  have hcontent : b.content? = some (.formdata params) := by
    rw [Body.content?, hpayload, Option.filter_some, if_pos (by simpa [Payload.isEmpty] using hne)]
  have hbody : r.normalize.body = some b.expandFormdata := by
    rw [Request.body_normalize, hb, Option.map_some]
  have hform : b.expandFormdata.mode = BodyMode.formdata.name := by
    rw [Request.mode_expandFormdata, hmode]
  simp only [sending, body?, hbody, Option.bind_some, Option.any_some, Body.content?_expandFormdata,
    hcontent, hform, Option.map_some, Option.getD_some, decide_true]
  rfl

/-- A Node program for a form carries the payload of its items with the boundary that was asked for,
and with no other one. The content type announces this boundary exactly if it has no character that
needs an escape in a literal. -/
theorem announced?_generateFor_iff [Host] {boundary : Text} {r : Request} {options : Value}
    {s : Text}
    (h : (⟨.node, boundary⟩ : Converter).generateFor r options = .ok s) {b : Body}
    (hb : r.body = some b) (hmode : b.mode = BodyMode.formdata.name) {params : List FormParam}
    (hparams : b.formdata = some params) (hne : params ≠ []) :
    ∃ o chunks, mergeOptions options = .ok o ∧ payload? s = some chunks ∧
      (∀ other, (∀ contents, evaluate contents chunks =
        multipartText other contents (formItems o.trimBody params)) ↔ other = boundary) ∧
      (announced? s = some ("multipart/form-data; boundary=" ++ boundary) ↔
        boundary.Avoids Dialect.literalMarks) := by
  obtain ⟨-, o, ho, -, p, hp, rfl⟩ := Converter.generateFor_eq_ok.mp h
  obtain ⟨port, hport, -, rfl⟩ := program_eq_ok.mp hp
  have hi := isSpacing_of_mem_indent o
  have hfits := fits_preamble (o := o) hport (usesQuerystring boundary o r.normalize)
  have hshows {c : Char} (hc : c = 'D' ∨ c = 'H') :=
    shows_preamble (o := o) hport (usesQuerystring boundary o r.normalize) hc
  generalize hchunks : formChunks o.trimBody boundary (params.flatMap (·.expand)) = chunks
  have hcons : chunks ≠ [] := by
    obtain ⟨t, rest, hcons⟩ := formChunks_eq_cons o.trimBody boundary (params.flatMap (·.expand))
    rw [← hchunks, hcons]
    exact List.cons_ne_nil _ _
  have hvalue (contents : Text → Text) : evaluate contents chunks =
      multipartText boundary contents (formItems o.trimBody params) := by
    rw [← hchunks, evaluate_formChunks, formItems_eq]
  have hsending := sending_normalize hb hmode hparams hne boundary o
  rw [hchunks, bodyLines_eq] at hsending
  refine ⟨o, chunks, ho, ?_, fun other => ⟨fun hother => ?_, ?_⟩, ?_⟩
  · rw [document_eq, hsending, Program.render_append, List.append_assoc, Program.render_append]
    exact payload?_render hi hfits (hshows (.inl rfl)) hcons _
  · exact multipartText_inj ((hother id).symm.trans (hvalue id))
  · rintro rfl
    exact hvalue
  · have hplain : Text.Avoids "multipart/form-data; boundary=" Dialect.literalMarks := by decide
    have hpayload : ∀ l ∈ payloadLines chunks, ∀ q ∈ l.content, q.shows 'H' = false := by
      simp only [payloadLines, Line.blank, List.cons_append, List.forall_mem_cons,
        List.forall_mem_append]
      exact ⟨⟨by decide, shows_concatenation (by decide) chunks, by decide⟩, by simp, by simp⟩
    have hfront : (preamble o r.normalize (usesQuerystring boundary o r.normalize) port ++
        payloadLines chunks).Fits .javascript :=
      Program.fits_append.mpr ⟨hfits, fits_payloadLines chunks⟩
    have hread (rest : Text) := announced?_render_iff hi hfront
      (List.forall_mem_append.mpr ⟨hshows (.inr rfl), hpayload⟩)
      (r.normalize.method = ("DELETE" : Text)) ("multipart/form-data; boundary=" ++ boundary) rest
    rw [Text.avoids_append, and_iff_right hplain] at hread
    rw [document_eq, hsending]
    simp only [Program.render_append, Program.render_cons, List.append_assoc,
      List.cons_append] at hread ⊢
    exact hread _

section

attribute [local instance] Host.usual

/-- A deletion with a file, and a boundary with double quotes, which need no escape. -/
theorem announced?_generateFor_of_file :
    let params : List FormParam := [{ key := "a", value := "1 + 'H';" },
      { key := "f", kind := .file, src := .list [.str "x", .str "y"] }]
    let r : Request :=
      { method := "DELETE"
        url := { host := ["h"] }
        headers := [{ key := "content-type", value := "const postData = \"D\";" }]
        body := some { mode := "formdata", formdata := some params } }
    ∃ s, (⟨.node, "\"b\""⟩ : Converter).generateFor r .null = .ok s ∧ params ≠ [] ∧
      ∃ o chunks, mergeOptions .null = .ok o ∧ payload? s = some chunks ∧
        (∀ other, (∀ contents, evaluate contents chunks =
          multipartText other contents (formItems o.trimBody params)) ↔ other = "\"b\"") ∧
        (announced? s = some ("multipart/form-data; boundary=" ++ "\"b\"") ↔
          Text.Avoids "\"b\"" Dialect.literalMarks) := by
  intro params r
  have hok : ((⟨.node, "\"b\""⟩ : Converter).generateFor r .null).isOk = true := by decide +kernel
  obtain ⟨s, hs⟩ := exists_eq_ok hok
  have hne : params ≠ [] := List.cons_ne_nil _ _
  exact ⟨s, hs, hne, announced?_generateFor_iff hs rfl rfl rfl hne⟩

/-- A quote ends the literal before the boundary does, and a backslash in it stands for nothing. -/
theorem not_announced?_of_quote :
    let params : List FormParam := [{ key := "a", value := "1" }]
    let r : Request :=
      { method := "POST"
        url := { host := ["h"] }
        body := some { mode := "formdata", formdata := some params } }
    let items : List FormItem := [.text "a" "1" none]
    (∃ s chunks, (⟨.node, "a'b"⟩ : Converter).generateFor r .null = .ok s ∧
      payload? s = some chunks ∧
      (∀ contents, evaluate contents chunks = multipartText "a'b" contents items) ∧
      announced? s = none) ∧
    (∃ s chunks, (⟨.node, "a\\c"⟩ : Converter).generateFor r .null = .ok s ∧
      payload? s = some chunks ∧
      (∀ contents, evaluate contents chunks = multipartText "a\\c" contents items) ∧
      announced? s = some "multipart/form-data; boundary=ac") := by
  intro params r items
  have hread (boundary : Text) (announced : Option Text)
      (h : ((⟨.node, boundary⟩ : Converter).generateFor r .null).toOption.map
        (fun s => (payload? s, announced? s)) =
          some (some (formChunks false boundary params), announced)) :
      ∃ s chunks, (⟨.node, boundary⟩ : Converter).generateFor r .null = .ok s ∧
        payload? s = some chunks ∧
        (∀ contents, evaluate contents chunks = multipartText boundary contents items) ∧
        announced? s = announced := by
    obtain ⟨s, hs, hpair⟩ := Option.map_eq_some_iff.mp h
    obtain ⟨hpayload, hannounced⟩ := Prod.mk.inj hpair
    exact ⟨s, _, toOption_eq_some.mp hs, hpayload,
      fun contents => evaluate_formChunks false boundary contents params, hannounced⟩
  exact ⟨hread "a'b" none (by decide +kernel),
    hread "a\\c" (some "multipart/form-data; boundary=ac") (by decide +kernel)⟩

end

end Node
end HttpSnippet

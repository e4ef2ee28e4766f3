import HttpSnippet.Proofs.Form.Multipart
import HttpSnippet.Proofs.Text.Separator

/-!
# Members recovered from a payload

The payload of a form has no escapes: a name stands between quotes as it is, and a value is put in
front of the next delimiter. A receiver that ends a name and a value at the first place where they
can end recovers the members exactly if none of them holds such a place in itself. Then payloads of
different members differ, while other members can share a payload.
-/
namespace HttpSnippet.Node

/-! ### The receiver -/

/-- The text in front of a name. -/
def partOpening (boundary : Text) : Text :=
  "--" ++ boundary ++ "\r\nContent-Disposition: form-data; name=\""

/-- The text between a name and a value. -/
def nameEnding : Text := "\"\r\n\r\n"

/-- The text between a value and the name that follows. -/
def partBreak (boundary : Text) : Text := "\r\n" ++ partOpening boundary

def closingDelimiter (boundary : Text) : Text := "--" ++ boundary ++ "--"

/-- The members from behind the text in front of the first name. -/
def receiveParts? (boundary t : Text) : Option (List (Text × Text)) :=
  match _hname : Text.cut? t nameEnding with
  | none => none
  | some (name, rest) =>
    match _hvalue : Text.cut? rest (partBreak boundary) with
    | some (value, next) => (receiveParts? boundary next).map ((name, value) :: ·)
    | none =>
      (rest.dropSuffix? ("\r\n" ++ closingDelimiter boundary)).map fun value => [(name, value)]
termination_by t.length
decreasing_by
  have hrest := (Text.append_of_cut?_eq_some _hname).1
  have hnext := (Text.append_of_cut?_eq_some _hvalue).1
  simp only [hrest, hnext, nameEnding, List.length_append]
  simp
  omega

/-- The members of a payload. -/
def receive? (boundary t : Text) : Option (List (Text × Text)) :=
  if t = closingDelimiter boundary then some []
  else (t.dropPrefix? (partOpening boundary)).bind (receiveParts? boundary)

/-! ### Payloads of texts -/

/-- The payload of members from behind the text in front of the first name. -/
def partsText (boundary : Text) : Text × Text → List (Text × Text) → Text
  | (name, value), [] => name ++ (nameEnding ++ (value ++ ("\r\n" ++ closingDelimiter boundary)))
  | (name, value), m :: ms =>
    name ++ (nameEnding ++ (value ++ (partBreak boundary ++ partsText boundary m ms)))

/-- A name and a value as an item without a content type. -/
def textItem (member : Text × Text) : FormItem := .text member.1 member.2 none

theorem multipartText_texts (boundary : Text) (contents : Text → Text) (member : Text × Text)
    (members : List (Text × Text)) :
    multipartText boundary contents ((member :: members).map textItem) =
      partOpening boundary ++ partsText boundary member members := by
  have hpart (name value : Text) : protocolLines
      ((textItem (name, value)).headLines boundary ++ [(textItem (name, value)).content contents]) =
        partOpening boundary ++ (name ++ (nameEnding ++ (value ++ "\r\n"))) := by
    have hname : nameEnding = "\"" ++ ("\r\n" ++ "\r\n") := rfl
    rw [textItem, text_part, partHeader, partOpening, hname]
    simp only [Option.map_none, Option.getD_none, List.append_assoc, List.nil_append]
  obtain ⟨name, value⟩ := member
  rw [List.map_cons, multipartText_cons, hpart]
  induction members generalizing name value with
  | nil => simp [partsText, closingDelimiter, multipartText]
  | cons next members ih =>
    obtain ⟨name', value'⟩ := next
    rw [List.map_cons, multipartText_cons, hpart, ih, partsText, partBreak]
    simp only [List.append_assoc]

/-! ### What a receiver recovers -/

/-- The line that a value ends at, with the break in front of it. -/
def delimiter (boundary : Text) : Text := "\r\n--" ++ boundary

/-- The text between a delimiter and the quote that opens a name. -/
def disposition : Text := "\r\nContent-Disposition: form-data; name="

/-- No place in a name ends it, and none in a value, nor one that begins in a value and goes on in
the delimiter behind it. -/
structure Separable (boundary : Text) (member : Text × Text) : Prop where
  name : ¬ nameEnding <:+: member.1
  value : ¬ partBreak boundary <:+: member.2 ++ delimiter boundary

instance (boundary : Text) (member : Text × Text) : Decidable (Separable boundary member) :=
  decidable_of_iff (¬ nameEnding <:+: member.1 ∧
      ¬ partBreak boundary <:+: member.2 ++ delimiter boundary)
    ⟨fun ⟨hname, hvalue⟩ => ⟨hname, hvalue⟩, fun ⟨hname, hvalue⟩ => ⟨hname, hvalue⟩⟩

/-- A name is cut off where the first text that ends a name begins. -/
theorem cut?_nameEnding_iff {t name rest : Text} :
    Text.cut? t nameEnding = some (name, rest) ↔
      t = name ++ (nameEnding ++ rest) ∧ ¬ nameEnding <:+: name := by
  constructor
  · intro h
    obtain ⟨heq, hname⟩ := Text.append_of_cut?_eq_some h
    exact ⟨heq, hname (by decide)⟩
  · rintro ⟨rfl, hname⟩
    exact Text.cut?_separator (by decide) hname rest

theorem partBreak_eq (boundary : Text) :
    partBreak boundary = delimiter boundary ++ (disposition ++ ['"']) := by
  have hopening : ("\r\nContent-Disposition: form-data; name=\"" : Text) =
      disposition ++ ['"'] := rfl
  have hline : ("\r\n--" : Text) = "\r\n" ++ "--" := rfl
  rw [partBreak, partOpening, delimiter, hopening, hline]
  simp only [List.append_assoc]

theorem partBreak_ne_nil (boundary : Text) : partBreak boundary ≠ [] := List.cons_ne_nil _ _

/-- Where the text that follows has no quote, a break ends in front of it. -/
theorem partBreak_prefix {boundary s u v : Text} (hv : '"' ∉ v)
    (h : s ++ partBreak boundary <+: u ++ v) : s ++ partBreak boundary <+: u := by
  rw [partBreak_eq, ← List.append_assoc, ← List.append_assoc] at h ⊢
  exact Text.prefix_of_prefix_append hv h

/-- A value is cut off at its own end exactly if no break begins in it. -/
theorem cut?_partBreak_iff (boundary value rest : Text) :
    Text.cut? (value ++ (partBreak boundary ++ rest)) (partBreak boundary) = some (value, rest) ↔
      ¬ partBreak boundary <:+: value ++ delimiter boundary := by
  have hlength : (partBreak boundary).length =
      (delimiter boundary).length + (disposition.length + 1) := by
    rw [partBreak_eq, List.length_append, List.length_append, List.length_singleton]
  have hsource : value ++ (partBreak boundary ++ rest) =
      value ++ delimiter boundary ++ disposition ++ '"' :: rest := by
    simp only [partBreak_eq, List.append_assoc, List.singleton_append]
  rw [Text.cut?_eq_some_iff (partBreak_ne_nil boundary), and_iff_right rfl, hsource]
  constructor
  · rintro h ⟨s, e, heq⟩
    have hbreak : s ++ partBreak boundary <+: value ++ delimiter boundary := ⟨e, heq⟩
    have hfirst := h s (hbreak.trans ((List.prefix_append _ _).trans (List.prefix_append _ _)))
    have hshort := hbreak.length_le
    rw [List.length_append, List.length_append] at hshort
    omega
  · intro h s hs
    by_contra hlater
    have hwithin : s ++ partBreak boundary <+: value ++ delimiter boundary ++ disposition := by
      refine List.prefix_of_prefix_length_le hs (List.prefix_append _ _) ?_
      simp only [List.length_append]
      omega
    have hbreak := partBreak_prefix (by decide) hwithin
    exact h ((List.suffix_append s _).isInfix.trans hbreak.isInfix)

/-- Nothing is cut off the last value exactly if no break begins in it. -/
theorem cut?_partBreak_eq_none_iff (boundary value : Text) :
    Text.cut? (value ++ ("\r\n" ++ closingDelimiter boundary)) (partBreak boundary) = none ↔
      ¬ partBreak boundary <:+: value ++ delimiter boundary := by
  have hline : ("\r\n--" : Text) = "\r\n" ++ "--" := rfl
  have hclosing : value ++ ("\r\n" ++ closingDelimiter boundary) =
      value ++ delimiter boundary ++ "--" := by
    rw [closingDelimiter, delimiter, hline]
    simp only [List.append_assoc]
  rw [Text.cut?_eq_none_iff (partBreak_ne_nil boundary), hclosing, not_iff_not]
  constructor
  · rintro ⟨s, e, heq⟩
    have hbreak : s ++ partBreak boundary <+: value ++ delimiter boundary :=
      partBreak_prefix (by decide) ⟨e, heq⟩
    exact (List.suffix_append s _).isInfix.trans hbreak.isInfix
  · exact fun h => h.trans (List.prefix_append _ _).isInfix

/-! ### The receiver on payloads -/

/-- One member, without the equations that the recursion is justified by. -/
theorem receiveParts?_eq (boundary t : Text) :
    receiveParts? boundary t =
      (Text.cut? t nameEnding).bind fun (name, rest) =>
        (Text.cut? rest (partBreak boundary)).elim
          ((rest.dropSuffix? ("\r\n" ++ closingDelimiter boundary)).map
            fun value => [(name, value)])
          fun (value, next) => (receiveParts? boundary next).map ((name, value) :: ·) := by
  rw [receiveParts?]
  split
  · next hname =>
    rw [hname]
    rfl
  · next hname =>
    rw [hname, Option.bind_some]
    dsimp only
    split
    · next hvalue =>
      rw [hvalue]
      rfl
    · next hvalue =>
      rw [hvalue]
      rfl

theorem receiveParts?_eq_none {boundary t : Text} (hname : Text.cut? t nameEnding = none) :
    receiveParts? boundary t = none := by
  rw [receiveParts?_eq, hname]
  rfl

theorem receiveParts?_last {boundary t name rest : Text}
    (hname : Text.cut? t nameEnding = some (name, rest))
    (hvalue : Text.cut? rest (partBreak boundary) = none) :
    receiveParts? boundary t =
      (rest.dropSuffix? ("\r\n" ++ closingDelimiter boundary)).map
        fun value => [(name, value)] := by
  rw [receiveParts?_eq, hname, Option.bind_some]
  dsimp only
  rw [hvalue]
  rfl

theorem receiveParts?_next {boundary t name rest value next : Text}
    (hname : Text.cut? t nameEnding = some (name, rest))
    (hvalue : Text.cut? rest (partBreak boundary) = some (value, next)) :
    receiveParts? boundary t = (receiveParts? boundary next).map ((name, value) :: ·) := by
  rw [receiveParts?_eq, hname, Option.bind_some]
  dsimp only
  rw [hvalue]
  rfl

theorem receiveParts?_ne_nil {boundary t : Text} : receiveParts? boundary t ≠ some [] := by
  intro h
  cases hname : Text.cut? t nameEnding with
  | none =>
    rw [receiveParts?_eq_none hname] at h
    cases h
  | some cut =>
    obtain ⟨name, rest⟩ := cut
    cases hvalue : Text.cut? rest (partBreak boundary) with
    | none =>
      rw [receiveParts?_last hname hvalue] at h
      obtain ⟨value, -, hnil⟩ := Option.map_eq_some_iff.mp h
      cases hnil
    | some cut =>
      rw [receiveParts?_next hname hvalue] at h
      obtain ⟨members, -, hnil⟩ := Option.map_eq_some_iff.mp h
      cases hnil

/-- The first member that is received is separable, and it is the last one or another follows it. -/
theorem of_receiveParts?_eq_some {boundary t : Text} {member : Text × Text}
    {members : List (Text × Text)} (h : receiveParts? boundary t = some (member :: members)) :
    Separable boundary member ∧
      ((members = [] ∧
          t = member.1 ++ (nameEnding ++ (member.2 ++ ("\r\n" ++ closingDelimiter boundary)))) ∨
        ∃ next, t = member.1 ++ (nameEnding ++ (member.2 ++ (partBreak boundary ++ next))) ∧
          receiveParts? boundary next = some members) := by
  cases hname : Text.cut? t nameEnding with
  | none =>
    rw [receiveParts?_eq_none hname] at h
    cases h
  | some cut =>
    obtain ⟨name, rest⟩ := cut
    obtain ⟨rfl, hfree⟩ := cut?_nameEnding_iff.mp hname
    cases hvalue : Text.cut? rest (partBreak boundary) with
    | none =>
      rw [receiveParts?_last hname hvalue] at h
      obtain ⟨value, hsuffix, heq⟩ := Option.map_eq_some_iff.mp h
      obtain ⟨rfl, rfl⟩ := List.cons.inj heq
      obtain ⟨_, rfl, hlast⟩ := List.dropSuffix?_eq_some_iff.mp hsuffix
      rw [eq_of_beq hlast] at hvalue
      exact ⟨⟨hfree, (cut?_partBreak_eq_none_iff boundary value).mp hvalue⟩,
        .inl ⟨rfl, by rw [eq_of_beq hlast]⟩⟩
    | some cut =>
      obtain ⟨value, next⟩ := cut
      rw [receiveParts?_next hname hvalue] at h
      obtain ⟨others, hnext, heq⟩ := Option.map_eq_some_iff.mp h
      obtain ⟨rfl, rfl⟩ := List.cons.inj heq
      obtain ⟨rfl, -⟩ := Text.append_of_cut?_eq_some hvalue
      exact ⟨⟨hfree, (cut?_partBreak_iff boundary value next).mp hvalue⟩,
        .inr ⟨next, rfl, hnext⟩⟩

theorem receiveParts?_lastPart {boundary name value : Text}
    (h : Separable boundary (name, value)) :
    receiveParts? boundary
        (name ++ (nameEnding ++ (value ++ ("\r\n" ++ closingDelimiter boundary)))) =
      some [(name, value)] := by
  rw [receiveParts?_last (cut?_nameEnding_iff.mpr ⟨rfl, h.name⟩)
    ((cut?_partBreak_eq_none_iff boundary value).mpr h.value), Text.dropSuffix?_append,
    Option.map_some]

theorem receiveParts?_nextPart {boundary name value : Text}
    (h : Separable boundary (name, value)) (next : Text) :
    receiveParts? boundary (name ++ (nameEnding ++ (value ++ (partBreak boundary ++ next)))) =
      (receiveParts? boundary next).map ((name, value) :: ·) :=
  receiveParts?_next (cut?_nameEnding_iff.mpr ⟨rfl, h.name⟩)
    ((cut?_partBreak_iff boundary value next).mpr h.value)

/-- The receiver takes apart exactly the texts of separable members, and gives these members. -/
theorem receiveParts?_eq_some_iff {boundary t : Text} {member : Text × Text}
    {members : List (Text × Text)} :
    receiveParts? boundary t = some (member :: members) ↔
      t = partsText boundary member members ∧ ∀ m ∈ member :: members, Separable boundary m := by
  induction members generalizing t member with
  | nil =>
    obtain ⟨name, value⟩ := member
    rw [List.forall_mem_singleton, partsText]
    constructor
    · intro h
      obtain ⟨hmember, ⟨-, heq⟩ | ⟨next, -, hnext⟩⟩ := of_receiveParts?_eq_some h
      · exact ⟨heq, hmember⟩
      · exact absurd hnext receiveParts?_ne_nil
    · rintro ⟨rfl, hmember⟩
      exact receiveParts?_lastPart hmember
  | cons follower members ih =>
    obtain ⟨name, value⟩ := member
    rw [List.forall_mem_cons, partsText]
    constructor
    · intro h
      obtain ⟨hmember, ⟨hnil, -⟩ | ⟨next, rfl, hnext⟩⟩ := of_receiveParts?_eq_some h
      · cases hnil
      · obtain ⟨rfl, hmembers⟩ := ih.mp hnext
        exact ⟨rfl, hmember, hmembers⟩
    · rintro ⟨rfl, hmember, hmembers⟩
      rw [receiveParts?_nextPart hmember, ih.mpr ⟨rfl, hmembers⟩, Option.map_some]

theorem multipartText_nil (boundary : Text) (contents : Text → Text) :
    multipartText boundary contents [] = closingDelimiter boundary := rfl

/-- Behind the boundary the first delimiter has a line break, and the closing one has two dashes. -/
theorem partOpening_append_ne (boundary t : Text) :
    partOpening boundary ++ t ≠ closingDelimiter boundary := by
  intro h
  rw [partOpening, closingDelimiter, List.append_assoc, List.append_cancel_left_eq] at h
  cases h

/-- What a receiver recovers from a text is a list of separable members, and the text is their
payload; every such payload is taken apart. -/
theorem receive?_eq_some_iff (contents : Text → Text) {boundary t : Text}
    {members : List (Text × Text)} :
    receive? boundary t = some members ↔
      t = multipartText boundary contents (members.map textItem) ∧
        ∀ m ∈ members, Separable boundary m := by
  rw [receive?]
  cases members with
  | nil =>
    rw [List.map_nil, multipartText_nil]
    split
    · next h => simp [h]
    · next h =>
      have hnone :
          (t.dropPrefix? (partOpening boundary)).bind (receiveParts? boundary) ≠ some [] := by
        intro hsome
        obtain ⟨rest, -, hrest⟩ := Option.bind_eq_some_iff.mp hsome
        exact receiveParts?_ne_nil hrest
      simp [h, hnone]
  | cons member members =>
    rw [multipartText_texts]
    split
    · next h =>
      subst h
      have hne := partOpening_append_ne boundary (partsText boundary member members)
      simp [hne.symm]
    · rw [Option.bind_eq_some_iff]
      constructor
      · rintro ⟨rest, hopening, hrest⟩
        obtain ⟨_, rfl, hbeq⟩ := List.dropPrefix?_eq_some_iff.mp hopening
        obtain ⟨rfl, hmembers⟩ := receiveParts?_eq_some_iff.mp hrest
        rw [eq_of_beq hbeq]
        exact ⟨rfl, hmembers⟩
      · rintro ⟨rfl, hmembers⟩
        exact ⟨_, Text.dropPrefix?_append _ _, receiveParts?_eq_some_iff.mpr ⟨rfl, hmembers⟩⟩

/-! ### Members that are plain texts -/

/-- A text member that is sent and has no content type. -/
structure PlainText (p : FormParam) : Prop where
  enabled : p.disabled = false
  text : p.kind = .text
  untyped : nonempty? p.contentType = none

instance (p : FormParam) : Decidable (PlainText p) :=
  decidable_of_iff (p.disabled = false ∧ p.kind = .text ∧ nonempty? p.contentType = none)
    ⟨fun ⟨henabled, htext, huntyped⟩ => ⟨henabled, htext, huntyped⟩,
      fun ⟨henabled, htext, huntyped⟩ => ⟨henabled, htext, huntyped⟩⟩

def memberOf (p : FormParam) : Text × Text := (p.key, p.value)

def plainText (member : Text × Text) : FormParam := { key := member.1, value := member.2 }

theorem plainText_plainText (member : Text × Text) : PlainText (plainText member) := ⟨rfl, rfl, rfl⟩

theorem map_memberOf (members : List (Text × Text)) :
    (members.map plainText).map memberOf = members := by
  rw [List.map_map]
  exact List.map_id members

/-- The payload that the expression for members evaluates to, given the contents of files. -/
def payloadText? (boundary : Text) (contents : Text → Text) (params : List FormParam) :
    Option Text :=
  (readSum? ((formdataBody false boundary params).render [])).map (evaluate contents)

theorem PlainText.item {p : FormParam} (h : PlainText p) :
    p.item false = textItem (memberOf p) := by
  simp only [FormParam.item, h.text, h.untyped, Text.trimmed, textItem, memberOf]
  rfl

theorem payloadText?_eq (boundary : Text) (contents : Text → Text) {params : List FormParam}
    (h : ∀ p ∈ params, PlainText p) :
    payloadText? boundary contents params =
      some (multipartText boundary contents ((params.map memberOf).map textItem)) := by
  obtain ⟨t, rest, hchunks⟩ := formChunks_eq_cons false boundary params
  have hread : readSum? ((formdataBody false boundary params).render []) =
      some (formChunks false boundary params) :=
    readSum?_concatenation (by simp) (by simp [hchunks])
  have hsent : params.filter (!·.disabled) = params :=
    List.filter_eq_self.mpr fun p hp => by simp [(h p hp).enabled]
  have hitems : params.map (·.item false) = (params.map memberOf).map textItem := by
    rw [List.map_map]
    exact List.map_congr_left fun p hp => (h p hp).item
  rw [payloadText?, hread, Option.map_some, evaluate_formChunks, hsent, hitems]

/-- Members that are plain texts always have a payload, and a receiver that ends names and values
at the first place where they can end recovers the members from it exactly if all of them are
separable. So two payloads of different separable members differ. If a member is not separable, the
receiver refuses the payload, or takes it for that of other members, which are separable. -/
theorem receive?_payloadText (boundary : Text) (contents : Text → Text) :
    (∀ params : List FormParam, (∀ p ∈ params, PlainText p) →
      ∃ t, payloadText? boundary contents params = some t ∧
        (receive? boundary t = some (params.map memberOf) ↔
          ∀ p ∈ params, Separable boundary (memberOf p)) ∧
        ∀ members, receive? boundary t = some members →
          ∃ others : List FormParam, others.map memberOf = members ∧
            (∀ p ∈ others, PlainText p ∧ Separable boundary (memberOf p)) ∧
            payloadText? boundary contents others = some t) ∧
    ∀ params others : List FormParam,
      (∀ p ∈ params, PlainText p ∧ Separable boundary (memberOf p)) →
      (∀ p ∈ others, PlainText p ∧ Separable boundary (memberOf p)) →
      params.map memberOf ≠ others.map memberOf →
      payloadText? boundary contents params ≠ payloadText? boundary contents others := by
  have hreceive (params : List FormParam) :
      receive? boundary (multipartText boundary contents ((params.map memberOf).map textItem)) =
          some (params.map memberOf) ↔ ∀ p ∈ params, Separable boundary (memberOf p) := by
    rw [receive?_eq_some_iff contents, and_iff_right rfl, List.forall_mem_map]
  constructor
  · intro params hplain
    refine ⟨_, payloadText?_eq boundary contents hplain, hreceive params,
      fun members hmembers => ?_⟩
    obtain ⟨heq, hseparable⟩ := (receive?_eq_some_iff contents).mp hmembers
    have hplain : ∀ p ∈ members.map plainText, PlainText p :=
      List.forall_mem_map.mpr fun m _ => plainText_plainText m
    refine ⟨members.map plainText, map_memberOf members, fun p hp => ⟨hplain p hp, ?_⟩, ?_⟩
    · obtain ⟨m, hm, rfl⟩ := List.mem_map.mp hp
      exact hseparable m hm
    · rw [payloadText?_eq boundary contents hplain, map_memberOf, heq]
  · intro params others hparams hothers hne heq
    rw [payloadText?_eq boundary contents fun p hp => (hparams p hp).1,
      payloadText?_eq boundary contents fun p hp => (hothers p hp).1, Option.some_inj] at heq
    have hfirst := (hreceive params).mpr fun p hp => (hparams p hp).2
    have hsecond := (hreceive others).mpr fun p hp => (hothers p hp).2
    rw [heq, hsecond] at hfirst
    exact hne (Option.some.inj hfirst).symm

theorem receive?_payloadText_of_delimiter :
    let params : List FormParam := [{ key := "a", value := "1\r\n--B" }]
    let others : List FormParam := [{ key := "a", value := "1" }, { key := "\"", value := "\r\n" }]
    (∃ t, payloadText? "B" id params = some t ∧ receive? "B" t = some (params.map memberOf)) ∧
      payloadText? "B" id params ≠ payloadText? "B" id others := by
  intro params others
  have hparams : ∀ p ∈ params, PlainText p ∧ Separable "B" (memberOf p) := by decide
  have hothers : ∀ p ∈ others, PlainText p ∧ Separable "B" (memberOf p) := by decide
  obtain ⟨hrecovered, hdiffer⟩ := receive?_payloadText "B" id
  obtain ⟨t, ht, hreceive, -⟩ := hrecovered params fun p hp => (hparams p hp).1
  exact ⟨⟨t, ht, hreceive.mpr fun p hp => (hparams p hp).2⟩,
    hdiffer params others hparams hothers (by decide)⟩

/-- A name that holds the end of a name, and a value that holds a delimiter with the headers behind
it, have the payloads of other members. -/
theorem payloadText?_eq_of_imitation :
    let quoted : FormParam := { key := "a\"\r\n\r\nb", value := "c" }
    let unquoted : FormParam := { key := "a", value := "b\"\r\n\r\nc" }
    let joined : FormParam :=
      { key := "a", value := "1\r\n--B\r\nContent-Disposition: form-data; name=\"b\"\r\n\r\n2" }
    let apart : List FormParam := [{ key := "a", value := "1" }, { key := "b", value := "2" }]
    (PlainText quoted ∧ PlainText unquoted ∧ memberOf quoted ≠ memberOf unquoted ∧
      ∃ t, payloadText? "B" id [quoted] = some t ∧ payloadText? "B" id [unquoted] = some t) ∧
    PlainText joined ∧ (∀ p ∈ apart, PlainText p) ∧ [memberOf joined] ≠ apart.map memberOf ∧
      ∃ t, payloadText? "B" id [joined] = some t ∧ payloadText? "B" id apart = some t := by
  intro quoted unquoted joined apart
  have hsingle {p : FormParam} (h : PlainText p) : ∀ q ∈ [p], PlainText q :=
    List.forall_mem_singleton.mpr h
  have hapart : ∀ p ∈ apart, PlainText p := by decide
  refine ⟨⟨by decide, by decide, by decide, _, payloadText?_eq "B" id (hsingle (by decide)), ?_⟩,
    by decide, hapart, by decide, _, payloadText?_eq "B" id (hsingle (by decide)), ?_⟩
  · rw [payloadText?_eq "B" id (hsingle (by decide))]
    rfl
  · rw [payloadText?_eq "B" id hapart]
    rfl

end HttpSnippet.Node

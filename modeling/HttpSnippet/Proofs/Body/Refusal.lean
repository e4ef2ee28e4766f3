import HttpSnippet.Proofs.Callback

/-!
# Bodies of unknown modes

The text for a body comes with a refusal of unknown modes behind all known ones. It is never given:
the payload is looked for by the mode, so a body of an unknown mode has nothing to send, and then
its text is empty and its mode is not looked at. The check in front of a conversion refuses such a
body.
-/
namespace HttpSnippet

namespace Body

theorem content?_of_unknown {b : Body} (h : b.mode ∉ BodyMode.names) : b.content? = none := by
  rw [content?, payload?, BodyMode.ofName?_eq_none_iff.mpr h]
  rfl

/-- What is sent is the payload of the body's mode, which is a known one. -/
theorem payloadFor_of_content? {b : Body} {payload : Payload} (h : b.content? = some payload) :
    ∃ mode, BodyMode.ofName? b.mode = some mode ∧ b.payloadFor mode = payload := by
  obtain ⟨hp, -⟩ := Option.filter_eq_some_iff.mp h
  unfold payload? at hp
  cases hmode : BodyMode.ofName? b.mode with
  | none =>
    rw [hmode] at hp
    cases hp
  | some mode =>
    rw [hmode] at hp
    refine ⟨mode, rfl, ?_⟩
    cases mode <;> obtain ⟨part, hpart, rfl⟩ := Option.map_eq_some_iff.mp hp <;>
      simp only [payloadFor, hpart, Option.getD_some]

end Body

namespace Converter

variable (c : Converter) (o : Options) (r : Request)

/-- The text for a body is that of the payload that is sent, and empty without one. -/
theorem bodyText_eq [Host] :
    c.bodyText o r = match r.body.bind (·.content?) with
      | none => .ok []
      | some payload => do
        let indent ← indentOf o
        c.checkPayload o r payload
        return c.payloadText o r indent payload := by
  unfold bodyText
  cases r.body with
  | none => rfl
  | some b =>
    rw [Option.bind_some]
    show (if b.content?.isNone then _ else _) = _
    cases hcontent : b.content? with
    | none => rfl
    | some payload =>
      obtain ⟨mode, hmode, rfl⟩ := Body.payloadFor_of_content? hcontent
      rw [hmode]
      rfl

/-- The text is the one that stands in a program for the request. -/
theorem bodyText_eq_ok [Host] {indent : Text} (h : indentOf o = .ok indent)
    (hroom : ∀ payload, r.body.bind (·.content?) = some payload →
      c.checkPayload o r payload = .ok ()) :
    c.bodyText o r = .ok (match c.target with
      | .node => ((Node.body? c.boundary o r).getD []).render indent
      | .php => (Php.bodyLines o r).render indent) := by
  rw [bodyText_eq, h, Node.body?, Php.bodyLines]
  unfold payloadText
  cases hcontent : r.body.bind (·.content?) with
  | none => cases c.target <;> rfl
  | some payload =>
    simp only [hroom payload hcontent]
    cases c.target <;> rfl

theorem tooDeep_of_checkPayload [Host] {payload : Payload} {e : WriteError}
    (h : c.checkPayload o r payload = .error e) : ∃ descent, e = .tooDeep descent := by
  unfold checkPayload at h
  cases hc : c.target with
  | node =>
    rw [hc] at h
    obtain ⟨descent, -, rfl⟩ := Node.tooDeep_of_checkPayload h
    exact ⟨descent, rfl⟩
  | php =>
    rw [hc] at h
    obtain ⟨descent, -, rfl⟩ := Php.tooDeep_of_checkPayload h
    exact ⟨descent, rfl⟩

/-- No mode is refused, whatever the body is. -/
theorem bodyText_ne_unknownMode [Host] (mode : Text) :
    c.bodyText o r ≠ .error (.unknownMode mode) := by
  intro h
  rw [bodyText_eq] at h
  split at h
  · cases h
  · rcases bind_eq_error.mp h with h | ⟨indent, -, h⟩
    · cases ofWriting_of_indentOf h
    rcases bind_eq_error.mp h with h | ⟨-, -, h⟩
    · obtain ⟨descent, he⟩ := c.tooDeep_of_checkPayload o r h
      cases he
    · cases h

/-- The text for a body is refused if the mode is unknown, with this mode, and else not. -/
def RefusesUnknown [Host] : Prop :=
  ∀ b, r.body = some b →
    (b.mode ∉ BodyMode.names → c.bodyText o r = .error (.unknownMode b.mode)) ∧
    (b.mode ∈ BodyMode.names → ∀ mode, c.bodyText o r ≠ .error (.unknownMode mode))

/-- Unknown modes are refused exactly if there are none. Otherwise the text is empty, and it is a
conversion that refuses the mode, whatever its options are. -/
theorem refusesUnknown_iff [Host] :
    (c.RefusesUnknown o r ↔ ∀ b, r.body = some b → b.mode ∈ BodyMode.names) ∧
      ∀ b, r.body = some b → b.mode ∉ BodyMode.names → c.bodyText o r = .ok [] ∧
        ∀ options, c.generateFor r options = .error (.write (.unknownMode b.mode)) := by
  have hempty {b : Body} (hb : r.body = some b) (hmode : b.mode ∉ BodyMode.names) :
      c.bodyText o r = .ok [] := by
    rw [bodyText_eq, hb, Option.bind_some, Body.content?_of_unknown hmode]
  refine ⟨⟨fun h b hb => ?_, fun h b hb => ⟨fun hmode => ?_, fun _ => ?_⟩⟩, fun b hb hmode => ?_⟩
  · by_cases hmode : b.mode ∈ BodyMode.names
    · exact hmode
    · have hrefused := (h b hb).1 hmode
      rw [hempty hb hmode] at hrefused
      cases hrefused
  · exact absurd (h b hb) hmode
  · exact c.bodyText_ne_unknownMode o r
  · refine ⟨hempty hb hmode, fun options => ?_⟩
    have hcheck := checkMode_eq_error_iff.mpr ⟨b, hb, hmode, rfl⟩
    rw [generateFor, hcheck]
    rfl

section

attribute [local instance] Host.usual

/-- A body of a mode that there is not, with a payload for another one. -/
theorem not_refusesUnknown_of_xml :
    let r : Request := { method := "POST", body := some { mode := "xml", raw := some "<a/>" } }
    ¬ (⟨.node, defaultBoundary⟩ : Converter).RefusesUnknown {} r ∧
      ¬ (⟨.php, defaultBoundary⟩ : Converter).RefusesUnknown {} r := by
  intro r
  have hunknown : ("xml" : Text) ∉ BodyMode.names := by decide
  constructor
  · intro h
    have hrefused := (h _ rfl).1 hunknown
    cases hrefused
  · intro h
    have hrefused := (h _ rfl).1 hunknown
    cases hrefused

end

end Converter
end HttpSnippet

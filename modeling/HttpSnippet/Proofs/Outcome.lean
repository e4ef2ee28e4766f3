import HttpSnippet.Proofs.Disabled.Snippet
import HttpSnippet.Proofs.Number.Integer
import HttpSnippet.Proofs.Number.Overflow
import HttpSnippet.Proofs.Options.Mapping

/-!
# When there is a snippet

Behind the checks of the request and its body mode a conversion can still fail. It may be for a
number: a port that counts as digits without being an integer that can be read, or a timeout that is
too large for the target. It may be for want of room: for the indentation, for the copy of the
request, for the JSON of its body. And it may be for credentials that have no encoding.
-/
namespace HttpSnippet

/-- A port that counts as digits is an integer: each digit is a decimal one, and there are not too
many. -/
def Url.PortReadable (u : Url) : Prop :=
  ∀ t, u.port = some t → Text.allDigits t = true →
    (∀ c ∈ t, Text.isDecimal c = true) ∧ t.length ≤ Number.maxDigits

theorem Request.port_normalize (r : Request) : r.normalize.url.port = r.url.port := by
  obtain ⟨headers, query, h⟩ := normalize_eq r
  rw [h, Url.resolve_eq]

/-- There is room to copy a request: no form member has a source that is too deep. -/
def Request.Copyable [Host] (r : Request) : Prop :=
  ∀ p ∈ (r.body.bind (·.formdata)).getD [], p.src.depth ≤ Host.room .copy

/-- Basic credentials have an encoding, unless there is a header in their place. -/
def Request.Encodable [Host] (r : Request) : Prop :=
  ∀ a, r.auth = some a → a.kind = .basic → r.hasHeader "Authorization" = false →
    Host.isUnencodable (a.username ++ ':' :: a.password) = false

namespace Converter

variable [Host]

theorem checkCopy_eq_ok {r : Request} : checkCopy r = .ok () ↔ r.Copyable := by
  rw [eq_ok_iff_forall_ne]
  constructor
  · exact fun h p hp => Nat.le_of_not_lt fun hdeep =>
      h _ (checkCopy_eq_error.mpr ⟨⟨p, hp, hdeep⟩, rfl⟩)
  · intro h e he
    obtain ⟨⟨p, hp, hdeep⟩, -⟩ := checkCopy_eq_error.mp he
    exact absurd (h p hp) (Nat.not_le.mpr hdeep)

theorem checkCredentials_eq_ok {r : Request} : checkCredentials r = .ok () ↔ r.Encodable := by
  simp only [eq_ok_iff_forall_ne, ne_eq, checkCredentials_eq_error, Request.Encodable]
  constructor
  · intro h a ha hkind hheader
    exact Bool.eq_false_iff.mpr fun ht => h _ ⟨a, ha, hkind, hheader, ht, rfl⟩
  · rintro h e ⟨a, ha, hkind, hheader, ht, -⟩
    exact absurd ht (Bool.eq_false_iff.mp (h a ha hkind hheader))

theorem affords_iff {o : Options} {r : Request} :
    Affords o r ↔ r.Copyable ∧ r.Encodable ∧ o.indentCount ≤ Host.maxIndent := by
  rw [← checkCopy_eq_ok, ← checkCredentials_eq_ok]
  exact ⟨fun h => ⟨h.copied, h.encoded, h.indented⟩, fun ⟨hc, he, hi⟩ => ⟨hc, he, hi⟩⟩

end Converter

namespace Node

theorem portEntry_isOk_iff {r : Request} {t : Text} (ht : r.url.port = some t) :
    (∃ f, portEntry r = .ok f) ↔ (Text.allDigits t = true →
      (∀ c ∈ t, Text.isDecimal c = true) ∧ t.length ≤ Number.maxDigits) := by
  unfold portEntry
  rw [ht, Option.getD_some]
  by_cases hd : Text.allDigits t = true
  · obtain ⟨hne, hdigits⟩ : t ≠ [] ∧ ∀ c ∈ t, Text.isDigit c = true := by
      simpa [Text.allDigits] using hd
    rw [if_pos hd, ← Number.readInteger_of_digits hdigits hne]
    cases Number.readInteger t <;> simp [hd]
  · simp [hd]

theorem portEntries_isOk_iff (r : Request) :
    (∃ port, portEntries r = .ok port) ↔ r.url.PortReadable := by
  unfold portEntries Url.PortReadable
  cases hp : r.url.port with
  | none => simp [nonempty?]
  | some t =>
    simp only [Option.some.injEq, forall_eq']
    cases t with
    | nil => simp [nonempty?, Text.allDigits]
    | cons c t =>
      rw [← portEntry_isOk_iff hp]
      cases portEntry r <;> simp [nonempty?, Except.map]

theorem checkNumeral_eq_ok {n : Nat} : checkNumeral n = .ok () ↔ Value.writable n = true := by
  unfold checkNumeral
  split <;> simp [*]

theorem program_isOk_iff [Host] {boundary : Text} {o : Options} {r : Request} :
    (∃ p, program boundary o r = .ok p) ↔
      r.url.PortReadable ∧ Value.writable o.requestTimeout = true ∧
        ∀ payload, r.body.bind (·.content?) = some payload →
          HasRoom o.trimBody (r.header? "Content-Type") payload := by
  simp only [program_eq_ok, ← portEntries_isOk_iff, ← checkNumeral_eq_ok, ← checkBody_eq_ok]
  constructor
  · rintro ⟨p, port, hport, ⟨hbody, hcheck⟩, -⟩
    exact ⟨⟨port, hport⟩, hcheck, hbody⟩
  · rintro ⟨⟨port, hport⟩, hcheck, hbody⟩
    exact ⟨_, port, hport, ⟨hbody, hcheck⟩, rfl⟩

end Node

namespace Php

theorem isSome_seconds?_iff (timeout : Nat) :
    (seconds? timeout).isSome = true ↔ timeout < Binary64.overflowBound * 1000 := by
  rw [← Binary64.isFinite_ofRatio_iff false (by decide)]
  unfold seconds?
  cases Binary64.ofRatio false timeout 1000 <;> simp [Binary64.IsFinite]

theorem timeoutEntries_isOk_iff (timeout : Nat) :
    (∃ entries, timeoutEntries timeout = .ok entries) ↔
      timeout < Binary64.overflowBound * 1000 := by
  rw [← isSome_seconds?_iff]
  unfold timeoutEntries
  by_cases h : timeout = 0
  · subst h
    simp [show (seconds? 0).isSome = true from rfl]
  · rw [if_neg h]
    cases seconds? timeout <;> simp

theorem program_isOk_iff [Host] {o : Options} {r : Request} :
    (∃ p, program o r = .ok p) ↔ o.requestTimeout < Binary64.overflowBound * 1000 ∧
      ∀ payload, r.body.bind (·.content?) = some payload → HasRoom o.trimBody payload := by
  rw [← timeoutEntries_isOk_iff, ← checkBody_eq_ok]
  simp only [program_eq_ok, layout_eq_ok]
  unfold configLines
  simp only [bind_eq_ok, pure, Except.pure, Except.ok.injEq]
  constructor
  · rintro ⟨p, hbody, config, ⟨entries, hentries, -⟩, -⟩
    exact ⟨⟨entries, hentries⟩, hbody⟩
  · rintro ⟨⟨entries, hentries⟩, hbody⟩
    exact ⟨_, hbody, _, ⟨entries, hentries, rfl⟩, rfl⟩

end Php

namespace Converter

/-- The target can write the numbers of a request and its options, and has room for the JSON of what
is sent. Node writes the timeout as it is, and PHP as seconds that come from a floating-point
division. -/
def CanWrite [Host] (c : Converter) (o : Options) (r : Request) : Prop :=
  match c.target with
  | .node =>
    r.url.PortReadable ∧ Value.writable o.requestTimeout = true ∧
      ∀ payload, r.normalize.body.bind (·.content?) = some payload →
        Node.HasRoom o.trimBody (r.normalize.header? "Content-Type") payload
  | .php =>
    o.requestTimeout < Binary64.overflowBound * 1000 ∧
      ∀ payload, r.normalize.body.bind (·.content?) = some payload →
        Php.HasRoom o.trimBody payload

theorem program_isOk_iff [Host] {c : Converter} {o : Options} {r : Request} :
    (∃ p, c.program o r.normalize = .ok p) ↔ c.CanWrite o r := by
  unfold program CanWrite
  cases c.target with
  | node =>
    rw [Node.program_isOk_iff, Url.PortReadable, r.port_normalize]
    rfl
  | php => exact Php.program_isOk_iff

theorem generateFor_isOk_iff_of_options [Host] {c : Converter} {r : Request} {options : Value}
    {o : Options} (ho : mergeOptions options = .ok o) :
    (∃ s, c.generateFor r options = .ok s) ↔
      checkMode r.body = .ok () ∧
        (r.Copyable ∧ r.Encodable ∧ o.indentCount ≤ Host.maxIndent) ∧ c.CanWrite o r := by
  simp only [generateFor_eq_ok, ho, Except.ok.injEq, exists_eq_left', ← program_isOk_iff,
    ← affords_iff]
  constructor
  · rintro ⟨s, hmode, haffords, p, hp, -⟩
    exact ⟨hmode, haffords, p, hp⟩
  · rintro ⟨hmode, haffords, p, hp⟩
    exact ⟨_, hmode, haffords, p, hp, rfl⟩

/-- With options from a mapping there is a snippet exactly if the body mode is known, there is room
to copy the request and for the indentation, the credentials have an encoding, and the target can
write the numbers and has room for the JSON of the body. -/
theorem generateFor_isOk_iff [Host] (c : Converter) (r : Request) {entries : Fields}
    (h : entries.TextKeys) :
    (∃ s, c.generateFor r (.map entries) = .ok s) ↔
      checkMode r.body = .ok () ∧
        (r.Copyable ∧ r.Encodable ∧
          (Options.ofMapping entries).indentCount ≤ Host.maxIndent) ∧
        c.CanWrite (Options.ofMapping entries) r :=
  generateFor_isOk_iff_of_options (mergeOptions_map h)

section

attribute [local instance] Host.usual

/-- Digits of another script are an integer, and a timeout of this size is in the range of both
targets. -/
theorem generateFor_arabic_port :
    let r : Request := { url := { host := ["h"], port := some "٨٠٨٠" } }
    let entries : Fields :=
      [(.str "requestTimeout", .int (10 ^ 200 : Nat)), (.str "indentCount", .str "2")]
    entries.TextKeys ∧ ∀ target : Target,
      ∃ s, (⟨target, defaultBoundary⟩ : Converter).generateFor r (.map entries) = .ok s := by
  intro r entries
  have hkeys : entries.TextKeys := by simp [entries, Fields.TextKeys]
  have hcount : (Options.ofMapping entries).indentCount ≤ Host.maxIndent := by decide +kernel
  have htimeout : (Options.ofMapping entries).requestTimeout = 10 ^ 200 := by decide +kernel
  have hport : r.url.PortReadable := by
    intro t ht _
    obtain rfl := Option.some.inj ht
    exact ⟨List.all_eq_true.mp (by decide), by decide⟩
  refine ⟨hkeys, fun target =>
    (generateFor_isOk_iff _ r hkeys).mpr ⟨rfl, ⟨nofun, nofun, hcount⟩, ?_⟩⟩
  unfold CanWrite
  rw [htimeout]
  cases target with
  | node => exact ⟨hport, by decide +kernel, nofun⟩
  | php =>
    refine ⟨?_, nofun⟩
    decide +kernel

/-- No snippet comes out for a port that is a superscript, nor for a timeout that no floating-point
number reaches. -/
theorem generate_eq_none :
    let superscript : Value := .map [
      (.str "url", .map [(.str "host", .list [.str "h"]), (.str "port", .str "²")])]
    let plain : Value := .map [(.str "url", .map [(.str "host", .list [.str "h"])])]
    let slow : Value := .map [(.str "requestTimeout", .int (10 ^ 399 : Nat))]
    (prepareRequest superscript).toOption.isSome = true ∧
      ((⟨.node, defaultBoundary⟩ : Converter).generate superscript (.map [])).toOption = none ∧
      (prepareRequest plain).toOption.isSome = true ∧
      ((⟨.php, defaultBoundary⟩ : Converter).generate plain slow).toOption = none := by
  decide +kernel

end

end Converter
end HttpSnippet

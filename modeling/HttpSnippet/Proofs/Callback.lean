import HttpSnippet.Proofs.Body.Room

/-!
# Who is called back, and which fault is reported

The callback is looked for before anything else, then the request is checked, then its body mode;
only behind these a conversion can fail for its options, for a number, for credentials that have no
encoding or for want of room. Each stage has faults of its own, so a fault tells the stage, and what
comes later is never reached. A callback that writes down its calls shows that there is at most one,
on success.
-/
namespace HttpSnippet

/-! ### Faults by stage -/

/-- The names of the modes that a body can be converted in. -/
def BodyMode.names : List Text := BodyMode.all.map (·.name)

theorem BodyMode.ofName?_eq_none_iff {t : Text} : ofName? t = none ↔ t ∉ names := by
  simp only [ofName?, names, List.find?_eq_none, List.mem_map, not_exists, not_and,
    decide_eq_true_eq]

theorem checkMode_eq_error_iff {body : Option Body} {e : WriteError} :
    checkMode body = .error e ↔
      ∃ b, body = some b ∧ b.mode ∉ BodyMode.names ∧ e = .unknownMode b.mode := by
  cases body with
  | none => simp [checkMode]
  | some b =>
    simp only [checkMode, Option.some.injEq, exists_eq_left', ← BodyMode.ofName?_eq_none_iff]
    cases BodyMode.ofName? b.mode with
    | none => simpa using eq_comm
    | some mode => simp

namespace ConversionError

/-- A fault of the check of a request. -/
inductive OfRequest : ConversionError → Prop where
  | request (issues : List Issue) : OfRequest (.request issues)
  | broken (fault : Fault) : OfRequest (.broken fault)

/-- A fault behind the checks of the request and its body mode. -/
inductive OfWriting : ConversionError → Prop where
  | options (issues : List Issue) : OfWriting (.options issues)
  | broken (fault : Fault) : OfWriting (.broken fault)
  | port (port : Text) (fault : Number.IntegerFault) :
    OfWriting (.write (.unreadablePort port fault))
  | numeral : OfWriting (.write .numeralTooLong)
  | timeout : OfWriting (.write .timeoutTooLong)
  | indent (fault : IndentFault) : OfWriting (.write (.indentTooLong fault))
  | depth (descent : Descent) : OfWriting (.write (.tooDeep descent))
  | credentials (t : Text) : OfWriting (.write (.unencodable t))

end ConversionError

open ConversionError

theorem ofRequest_of_parse [Host] {request : RequestArgument} {e : ConversionError}
    (h : request.parse = .error e) : e.OfRequest := by
  cases request with
  | checked r => cases h
  | described v =>
    change parseRequest v = .error e at h
    unfold parseRequest at h
    split at h
    · cases h
    · next issues _ =>
      cases h
      exact .request issues
    · next fault _ =>
      cases h
      exact .broken fault

theorem ofWriting_of_mergeOptions {v : Value} {e : ConversionError}
    (h : mergeOptions v = .error e) : e.OfWriting := by
  unfold mergeOptions at h
  split at h
  · cases h
  · next issues _ =>
    cases h
    exact .options issues
  · next fault _ =>
    cases h
    exact .broken fault

namespace Converter

theorem ofWriting_of_program [Host] {c : Converter} {o : Options} {r : Request} {e : WriteError}
    (h : c.program o r = .error e) : (ConversionError.write e).OfWriting := by
  cases ofProgram_of_program h with
  | port port fault => exact .port port fault
  | numeral => exact .numeral
  | timeout => exact .timeout
  | depth _ => exact .depth _

theorem ofWriting_of_indentOf [Host] {o : Options} {e : WriteError} (h : indentOf o = .error e) :
    (ConversionError.write e).OfWriting := by
  obtain ⟨fault, -, rfl⟩ := mapError_eq_error.mp h
  exact .indent fault

theorem ofWriting_of_snippet [Host] {c : Converter} {o : Options} {r : Request} {e : WriteError}
    (h : c.snippet o r = .error e) : (ConversionError.write e).OfWriting := by
  unfold snippet at h
  rcases bind_eq_error.mp h with h | ⟨-, -, h⟩
  · obtain ⟨-, rfl⟩ := checkCopy_eq_error.mp h
    exact .depth _
  rcases bind_eq_error.mp h with h | ⟨-, -, h⟩
  · obtain ⟨a, -, -, -, -, rfl⟩ := checkCredentials_eq_error.mp h
    exact .credentials _
  rcases bind_eq_error.mp h with h | ⟨indent, -, h⟩
  · exact ofWriting_of_indentOf h
  rcases bind_eq_error.mp h with h | ⟨p, -, h⟩
  · exact ofWriting_of_program h
  · cases h

/-- Behind the check of the body mode there are other faults only. -/
theorem generateFor_eq_error_cases [Host] {c : Converter} {r : Request} {options : Value}
    {e : ConversionError} (h : c.generateFor r options = .error e) :
    (∃ b, r.body = some b ∧ b.mode ∉ BodyMode.names ∧ e = .write (.unknownMode b.mode)) ∨
      checkMode r.body = .ok () ∧ e.OfWriting := by
  unfold generateFor at h
  rcases bind_eq_error.mp h with h | ⟨⟨⟩, hmode, h⟩
  · obtain ⟨w, hw, rfl⟩ := mapError_eq_error.mp h
    obtain ⟨b, hb, hmode, rfl⟩ := checkMode_eq_error_iff.mp hw
    exact .inl ⟨b, hb, hmode, rfl⟩
  · refine .inr ⟨mapError_eq_ok.mp hmode, ?_⟩
    rcases bind_eq_error.mp h with h | ⟨o, -, h⟩
    · exact ofWriting_of_mergeOptions h
    · obtain ⟨w, hw, rfl⟩ := mapError_eq_error.mp h
      exact ofWriting_of_snippet hw

/-- A fault belongs to the first stage that has one: the check of the request, that of the body
mode, or what comes behind them. -/
theorem generateWith_eq_error_cases [Host] {α : Type} {c : Converter} {request : RequestArgument}
    {options : Argument α} {e : ConversionError} (h : c.generateWith request options = .error e) :
    (request.parse = .error e ∧ e.OfRequest) ∨ ∃ r, request.parse = .ok r ∧
      ((∃ b, r.body = some b ∧ b.mode ∉ BodyMode.names ∧ e = .write (.unknownMode b.mode)) ∨
        checkMode r.body = .ok () ∧ e.OfWriting) := by
  unfold generateWith at h
  rcases bind_eq_error.mp h with h | ⟨r, hr, h⟩
  · exact .inl ⟨h, ofRequest_of_parse h⟩
  refine .inr ⟨r, hr, ?_⟩
  cases options with
  | data v => exact generateFor_eq_error_cases h
  | callback f =>
    rcases bind_eq_error.mp h with h | ⟨⟨⟩, hmode, h⟩
    · obtain ⟨w, hw, rfl⟩ := mapError_eq_error.mp h
      obtain ⟨b, hb, hmode, rfl⟩ := checkMode_eq_error_iff.mp hw
      exact .inl ⟨b, hb, hmode, rfl⟩
    · cases h
      exact .inr ⟨mapError_eq_ok.mp hmode, .broken _⟩

theorem generateWith_of_parse_error [Host] {α : Type} {c : Converter} {request : RequestArgument}
    {e : ConversionError} (h : request.parse = .error e) (options : Argument α) :
    c.generateWith request options = .error e := by
  unfold generateWith
  rw [h]
  rfl

theorem generateWith_of_unknownMode [Host] {α : Type} {c : Converter} {request : RequestArgument}
    {r : Request} {b : Body} (h : request.parse = .ok r) (hb : r.body = some b)
    (hmode : b.mode ∉ BodyMode.names) (options : Argument α) :
    c.generateWith request options = .error (.write (.unknownMode b.mode)) := by
  have hcheck : checkMode r.body = .error (.unknownMode b.mode) :=
    checkMode_eq_error_iff.mpr ⟨b, hb, hmode, rfl⟩
  rw [generateWith, h]
  cases options with
  | data v =>
    change c.generateFor r v = _
    rw [generateFor, hcheck]
    rfl
  | callback f =>
    change (checkMode r.body).mapError write >>= (fun _ => throw (broken .wrongKind)) = _
    rw [hcheck]
    rfl

/-- The mode is reported exactly if it is none of the known ones, whatever the options are. -/
theorem generateWith_eq_unknownMode_iff [Host] {α : Type} {c : Converter}
    {request : RequestArgument}
    {r : Request} (h : request.parse = .ok r) (options : Argument α) (mode : Text) :
    c.generateWith request options = .error (.write (.unknownMode mode)) ↔
      ∃ b, r.body = some b ∧ b.mode = mode ∧ mode ∉ BodyMode.names := by
  constructor
  · intro herror
    rcases generateWith_eq_error_cases herror with ⟨-, hrequest⟩ | ⟨r', hr', hstage⟩
    · cases hrequest
    obtain rfl : r = r' := Except.ok.inj (h.symm.trans hr')
    rcases hstage with ⟨b, hb, hmode, he⟩ | ⟨-, hwriting⟩
    · cases he
      exact ⟨b, hb, rfl, hmode⟩
    · cases hwriting
  · rintro ⟨b, hb, rfl, hmode⟩
    exact generateWith_of_unknownMode h hb hmode options

/-- A missing callback is no fault of a stage. -/
theorem generateWith_ne_noCallback [Host] {α : Type} (c : Converter) (request : RequestArgument)
    (options : Argument α) (label : Text) :
    c.generateWith request options ≠ .error (.noCallback label) := by
  intro herror
  rcases generateWith_eq_error_cases herror with ⟨-, hrequest⟩ | ⟨r, -, hstage⟩
  · cases hrequest
  rcases hstage with ⟨b, -, -, he⟩ | ⟨-, hwriting⟩
  · cases he
  · cases hwriting

end Converter

/-! ### Calls -/

/-- The arguments of a call. -/
structure Call where
  error : Option ConversionError
  snippet : Option Text
deriving DecidableEq, Repr

variable {α : Type}

/-- A callback that writes down each of its calls. -/
def Callback.recording (f : Callback α) : Callback (StateM (List Call) α) := fun error snippet => do
  modify (· ++ [⟨error, snippet⟩])
  return f error snippet

def Argument.recording : Argument α → Argument (StateM (List Call) α)
  | .data v => .data v
  | .callback f => .callback f.recording

/-- What a conversion comes to, and the calls that were made on the way. -/
def Converter.trace [Host] (c : Converter) (request : RequestArgument)
    (options callback : Argument α) :
    Except ConversionError α × List Call :=
  match c.convert request options.recording callback.recording with
  | .error e => (.error e, [])
  | .ok run =>
    let (result, calls) := run []
    (.ok result, calls)

/-- `f` is called back, and `left` is left for the options: a callback that was handed over, or one
that stands in the place of the options. -/
inductive CallsBack : (options callback : Argument α) → (f : Callback α) → (left : Argument α) →
    Prop where
  | handed (options : Argument α) (f : Callback α) : CallsBack options (.callback f) f options
  | moved (f : Callback α) : CallsBack (.callback f) (.data .null) f (.data .null)

theorem callee?_eq_some_iff {options callback left : Argument α} {f : Callback α} :
    Argument.callee? options callback = some (f, left) ↔ CallsBack options callback f left := by
  constructor
  · intro h
    unfold Argument.callee? at h
    split at h
    · cases h
      exact .handed _ _
    · cases h
      exact .moved _
    · cases h
  · rintro (_ | _) <;> rfl

theorem callee?_eq_none_iff {options callback : Argument α} :
    Argument.callee? options callback = none ↔ ¬ ∃ f left, CallsBack options callback f left := by
  simp only [← callee?_eq_some_iff, Option.eq_none_iff_forall_ne_some, Prod.forall, not_exists,
    ne_eq]

theorem callee?_recording (options callback : Argument α) :
    Argument.callee? options.recording callback.recording =
      (Argument.callee? options callback).map fun (f, left) => (f.recording, left.recording) := by
  cases callback with
  | callback f => rfl
  | data v => cases options <;> cases v <;> rfl

namespace Converter

theorem generateWith_recording [Host] (c : Converter) (request : RequestArgument)
    (options : Argument α) :
    c.generateWith request options.recording = c.generateWith request options := by
  cases options <;> rfl

theorem trace_of_callsBack [Host] {options callback left : Argument α} {f : Callback α}
    (h : CallsBack options callback f left) (c : Converter) (request : RequestArgument) :
    c.trace request options callback =
      match c.generateWith request left with
      | .error e => (.error e, [])
      | .ok s => (.ok (f none (some s)), [⟨none, some s⟩]) := by
  have hcallee := callee?_recording options callback
  rw [callee?_eq_some_iff.mpr h, Option.map_some] at hcallee
  unfold trace convert
  simp only [hcallee, generateWith_recording]
  cases c.generateWith request left <;> rfl

theorem trace_of_not_callsBack [Host] {options callback : Argument α}
    (h : ¬ ∃ f left, CallsBack options callback f left) (c : Converter)
    (request : RequestArgument) :
    c.trace request options callback = (.error (.noCallback c.target.label), []) := by
  have hcallee := callee?_recording options callback
  rw [callee?_eq_none_iff.mpr h, Option.map_none] at hcallee
  unfold trace convert
  simp only [hcallee]

theorem fst_trace_eq_error_iff [Host] {options callback left : Argument α} {f : Callback α}
    (h : CallsBack options callback f left) {c : Converter} {request : RequestArgument}
    {e : ConversionError} :
    (c.trace request options callback).1 = .error e ↔
      c.generateWith request left = .error e := by
  rw [trace_of_callsBack h]
  cases c.generateWith request left <;> simp

/-- A missing callback is reported before anything else, and only then. Otherwise the fault is that
of the request, then an unknown body mode, both whatever the options are. The callback is called
once and with the snippet if there is one, and never if there is none. -/
theorem trace_cases [Host] (c : Converter) (request : RequestArgument)
    (options callback : Argument α) :
    ((c.trace request options callback).1 = .error (.noCallback c.target.label) ↔
        ¬ ∃ f left, CallsBack options callback f left) ∧
      ((¬ ∃ f left, CallsBack options callback f left) →
        (c.trace request options callback).2 = []) ∧
      ∀ f left, CallsBack options callback f left →
        (∀ e, request.parse = .error e → c.trace request options callback = (.error e, [])) ∧
        (∀ r mode, request.parse = .ok r →
          ((c.trace request options callback).1 = .error (.write (.unknownMode mode)) ↔
            ∃ b, r.body = some b ∧ b.mode = mode ∧ mode ∉ BodyMode.names)) ∧
        (∀ s, c.generateWith request left = .ok s →
          c.trace request options callback = (.ok (f none (some s)), [⟨none, some s⟩])) ∧
        ∀ e, c.generateWith request left = .error e →
          c.trace request options callback = (.error e, []) := by
  refine ⟨⟨?reported, ?missing⟩, ?uncalled, fun f left hcalls =>
    ⟨?request, ?mode, ?called, ?failed⟩⟩
  case reported =>
    rintro h ⟨f, left, hcalls⟩
    exact generateWith_ne_noCallback c request left _ ((fst_trace_eq_error_iff hcalls).mp h)
  case missing =>
    intro h
    rw [trace_of_not_callsBack h]
  case uncalled =>
    intro h
    rw [trace_of_not_callsBack h]
  case request =>
    intro e he
    rw [trace_of_callsBack hcalls, generateWith_of_parse_error he]
  case mode =>
    intro r mode hr
    rw [fst_trace_eq_error_iff hcalls, generateWith_eq_unknownMode_iff hr]
  case called =>
    intro s hs
    rw [trace_of_callsBack hcalls, hs]
  case failed =>
    intro e he
    rw [trace_of_callsBack hcalls, he]

end Converter
end HttpSnippet

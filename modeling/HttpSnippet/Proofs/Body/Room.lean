import HttpSnippet.Proofs.Conversion
import HttpSnippet.Proofs.Json.Room

/-!
# Room for payloads

A raw payload with a JSON content type is read and written again, and so are the variables of a
GraphQL payload. Both need room on the call stack, and the want of it is the only reason for which a
payload is refused.
-/
namespace HttpSnippet

theorem jsonOf?_eq_some {t : Text} {v : Json} : jsonOf? t = some v ↔ Json.read t = .ok v := by
  unfold jsonOf?
  cases Json.read t <;> simp [Except.toOption]

theorem ne_copying_of_tooDeep {room : Nat} {t : Text} {descent : Descent}
    (h : Json.readWithin room t = .error (.tooDeep descent)) : descent ≠ .copying := by
  obtain ⟨kind, rfl⟩ := Json.exists_descent_of_tooDeep h
  cases kind <;> nofun

variable [Host]

theorem checkReading_eq_error {site : Site} {t : Text} {e : WriteError} :
    checkReading site t = .error e ↔
      ∃ descent, Json.readWithin (Host.room site) t = .error (.tooDeep descent) ∧
        e = .tooDeep descent := by
  unfold checkReading
  split
  · next descent h => simp [h, eq_comm]
  · next h =>
    refine iff_of_false nofun ?_
    rintro ⟨descent, hdeep, -⟩
    exact h descent hdeep

theorem checkReading_eq_ok {site : Site} {t : Text} :
    checkReading site t = .ok () ↔
      ∀ descent, Json.readWithin (Host.room site) t ≠ .error (.tooDeep descent) := by
  unfold checkReading
  split
  · next descent h => simp [h]
  · next h => exact iff_of_true rfl h

theorem checkWriting_eq_error {site : Site} {descent : Descent} {v : Json} {e : WriteError} :
    checkWriting site descent v = .error e ↔
      Host.room site < v.depth ∧ e = .tooDeep descent := by
  unfold checkWriting
  split
  · next h => exact iff_of_false nofun fun hdeep => absurd h (Nat.not_le.mpr hdeep.1)
  · next h => simp [Nat.lt_of_not_le h, eq_comm]

theorem checkWriting_eq_ok {site : Site} {descent : Descent} {v : Json} :
    checkWriting site descent v = .ok () ↔ v.depth ≤ Host.room site := by
  unfold checkWriting
  split <;> simp [*]

/-- With room enough to read a text, it is JSON exactly where it is with all the room there is. -/
theorem jsonOf?_eq_toOption {site : Site} {t : Text}
    (h : ∀ descent, Json.readWithin (Host.room site) t ≠ .error (.tooDeep descent)) :
    jsonOf? t = (Json.readWithin (Host.room site) t).toOption := by
  rw [jsonOf?, Json.readWithin_eq_read h]

/-- A raw payload is refused exactly where its value is too deep to be read, or to be written. -/
theorem Node.checkPayload_raw_eq_error {trim : Bool} {contentType : Option Text} {text : Text}
    {e : WriteError} :
    checkPayload trim contentType (.raw text) = .error e ↔
      contentType.any ContentType.isJson = true ∧
        ((∃ descent, Json.readWithin (Host.room .rawReading) (text.trimmed trim) =
            .error (.tooDeep descent) ∧ e = .tooDeep descent) ∨
          ∃ v, Json.readWithin (Host.room .rawReading) (text.trimmed trim) = .ok v ∧
            Host.room .rawWriting < v.depth ∧ e = .tooDeep .layingOut) := by
  unfold checkPayload
  dsimp only
  split
  · next hjson =>
    rw [bind_eq_error, checkReading_eq_error]
    refine (or_congr_right ?_).trans (and_iff_right hjson).symm
    constructor
    · rintro ⟨u, hread, hwrite⟩
      rw [jsonOf?_eq_toOption (checkReading_eq_ok.mp hread)] at hwrite
      cases hreading : Json.readWithin (Host.room .rawReading) (text.trimmed trim) with
      | error e' =>
        rw [hreading] at hwrite
        cases hwrite
      | ok v =>
        rw [hreading] at hwrite
        exact ⟨v, rfl, checkWriting_eq_error.mp hwrite⟩
    · rintro ⟨v, hreading, hdeep⟩
      have hread : checkReading .rawReading (text.trimmed trim) = .ok () :=
        checkReading_eq_ok.mpr fun descent h => by cases hreading.symm.trans h
      refine ⟨(), hread, ?_⟩
      rw [jsonOf?_eq_toOption (checkReading_eq_ok.mp hread), hreading]
      exact checkWriting_eq_error.mpr hdeep
  · next hjson => exact iff_of_false nofun fun h => hjson h.1

/-- The variables are read before they are written. -/
theorem checkVariables_eq_error {t : Text} {v : Json} {e : WriteError} :
    (checkReading .variablesReading t >>= fun _ => checkWriting .variablesWriting .writing v) =
        .error e ↔
      (∃ descent, Json.readWithin (Host.room .variablesReading) t = .error (.tooDeep descent) ∧
        e = .tooDeep descent) ∨
      (∀ descent, Json.readWithin (Host.room .variablesReading) t ≠ .error (.tooDeep descent)) ∧
        Host.room .variablesWriting < v.depth ∧ e = .tooDeep .writing := by
  rw [bind_eq_error, checkReading_eq_error]
  refine or_congr_right ?_
  rw [← checkReading_eq_ok, ← checkWriting_eq_error]
  exact ⟨fun ⟨(), h⟩ => h, fun h => ⟨(), h⟩⟩

/-! ### What a payload needs -/

/-- There is room for the JSON of a payload in a Node program. A raw payload is read under a JSON
content type only, and written if it is JSON. Variables are written in any case. -/
def Node.HasRoom (trim : Bool) (contentType : Option Text) : Payload → Prop
  | .raw text =>
    contentType.any ContentType.isJson = true →
      (∀ descent, Json.readWithin (Host.room .rawReading) (text.trimmed trim) ≠
        .error (.tooDeep descent)) ∧
      ∀ v, Json.readWithin (Host.room .rawReading) (text.trimmed trim) = .ok v →
        v.depth ≤ Host.room .rawWriting
  | .graphql payload =>
    (∀ descent, Json.readWithin (Host.room .variablesReading) payload.variablesText ≠
      .error (.tooDeep descent)) ∧
    (graphqlVariables payload).depth ≤ Host.room .variablesWriting
  | .urlencoded _ | .formdata _ | .file _ => True

/-- There is room for the JSON of a payload in a PHP program, which writes the variables inside
another object. -/
def Php.HasRoom (trim : Bool) : Payload → Prop
  | .graphql payload =>
    (∀ descent, Json.readWithin (Host.room .variablesReading) payload.variablesText ≠
      .error (.tooDeep descent)) ∧
    (graphqlJson trim payload).depth ≤ Host.room .variablesWriting
  | .raw _ | .urlencoded _ | .formdata _ | .file _ => True

theorem checkVariables_eq_ok {t : Text} {v : Json} :
    (checkReading .variablesReading t >>= fun _ => checkWriting .variablesWriting .writing v) =
        .ok () ↔
      (∀ descent, Json.readWithin (Host.room .variablesReading) t ≠ .error (.tooDeep descent)) ∧
        v.depth ≤ Host.room .variablesWriting := by
  rw [bind_eq_ok, ← checkReading_eq_ok, ← checkWriting_eq_ok]
  exact ⟨fun ⟨(), h⟩ => h, fun h => ⟨(), h⟩⟩

theorem Node.checkPayload_eq_ok {trim : Bool} {contentType : Option Text} {payload : Payload} :
    checkPayload trim contentType payload = .ok () ↔ HasRoom trim contentType payload := by
  cases payload with
  | raw text =>
    simp only [eq_ok_iff_forall_ne, ne_eq, checkPayload_raw_eq_error, HasRoom]
    constructor
    · exact fun h hjson => ⟨fun descent hdeep => h _ ⟨hjson, .inl ⟨descent, hdeep, rfl⟩⟩,
        fun v hread => Nat.le_of_not_lt fun hdeep => h _ ⟨hjson, .inr ⟨v, hread, hdeep, rfl⟩⟩⟩
    · rintro h e ⟨hjson, ⟨descent, hdeep, -⟩ | ⟨v, hread, hdeep, -⟩⟩
      · exact (h hjson).1 descent hdeep
      · exact absurd ((h hjson).2 v hread) (Nat.not_le.mpr hdeep)
  | graphql payload => exact checkVariables_eq_ok
  | urlencoded params | formdata params | file source => exact iff_of_true rfl trivial

theorem Php.checkPayload_eq_ok {trim : Bool} {payload : Payload} :
    checkPayload trim payload = .ok () ↔ HasRoom trim payload := by
  cases payload with
  | graphql payload => exact checkVariables_eq_ok
  | raw text | urlencoded params | formdata params | file source => exact iff_of_true rfl trivial

theorem tooDeep_of_checkVariables {t : Text} {v : Json} {e : WriteError}
    (h : (checkReading .variablesReading t >>= fun _ => checkWriting .variablesWriting .writing v) =
      .error e) : ∃ descent, descent ≠ .copying ∧ e = .tooDeep descent := by
  rcases checkVariables_eq_error.mp h with ⟨descent, hdeep, rfl⟩ | ⟨-, -, rfl⟩
  · exact ⟨descent, ne_copying_of_tooDeep hdeep, rfl⟩
  · exact ⟨.writing, nofun, rfl⟩

/-- The want of room is the only reason for a refusal, and it is not that for copying. -/
theorem Node.tooDeep_of_checkPayload {trim : Bool} {contentType : Option Text} {payload : Payload}
    {e : WriteError} (h : checkPayload trim contentType payload = .error e) :
    ∃ descent, descent ≠ .copying ∧ e = .tooDeep descent := by
  cases payload with
  | raw text =>
    rcases checkPayload_raw_eq_error.mp h with ⟨-, ⟨descent, hdeep, rfl⟩ | ⟨v, -, -, rfl⟩⟩
    · exact ⟨descent, ne_copying_of_tooDeep hdeep, rfl⟩
    · exact ⟨.layingOut, nofun, rfl⟩
  | graphql payload => exact tooDeep_of_checkVariables h
  | urlencoded params | formdata params | file source => cases h

theorem Php.tooDeep_of_checkPayload {trim : Bool} {payload : Payload} {e : WriteError}
    (h : checkPayload trim payload = .error e) :
    ∃ descent, descent ≠ .copying ∧ e = .tooDeep descent := by
  cases payload with
  | graphql payload => exact tooDeep_of_checkVariables h
  | raw text | urlencoded params | formdata params | file source => cases h

/-! ### Bodies -/

theorem Node.checkBody_eq_ok {o : Options} {r : Request} :
    checkBody o r = .ok () ↔ ∀ payload, r.body.bind (·.content?) = some payload →
      HasRoom o.trimBody (r.header? "Content-Type") payload := by
  simp only [checkBody, forM_eq_ok, checkPayload_eq_ok]

theorem Php.checkBody_eq_ok {o : Options} {r : Request} :
    checkBody o r = .ok () ↔ ∀ payload, r.body.bind (·.content?) = some payload →
      HasRoom o.trimBody payload := by
  simp only [checkBody, forM_eq_ok, checkPayload_eq_ok]

theorem Node.tooDeep_of_checkBody {o : Options} {r : Request} {e : WriteError}
    (h : checkBody o r = .error e) : ∃ descent, descent ≠ .copying ∧ e = .tooDeep descent := by
  obtain ⟨payload, -, h⟩ := forM_eq_error.mp h
  exact tooDeep_of_checkPayload h

theorem Php.tooDeep_of_checkBody {o : Options} {r : Request} {e : WriteError}
    (h : checkBody o r = .error e) : ∃ descent, descent ≠ .copying ∧ e = .tooDeep descent := by
  obtain ⟨payload, -, h⟩ := forM_eq_error.mp h
  exact tooDeep_of_checkPayload h

/-! ### Faults of a program -/

/-- A fault by which a program is not written. Nothing is copied for a program. -/
inductive WriteError.OfProgram : WriteError → Prop where
  | port (port : Text) (fault : Number.IntegerFault) : OfProgram (.unreadablePort port fault)
  | numeral : OfProgram .numeralTooLong
  | timeout : OfProgram .timeoutTooLong
  | depth {descent : Descent} (h : descent ≠ .copying) : OfProgram (.tooDeep descent)

omit [Host] in
theorem Node.ofProgram_of_portEntries {r : Request} {e : WriteError}
    (h : portEntries r = .error e) : e.OfProgram := by
  unfold portEntries at h
  split at h
  · unfold portEntry at h
    dsimp only at h
    split at h
    · split at h
      · cases h
      · next fault _ =>
        cases h
        exact .port _ fault
    · cases h
  · cases h

theorem Node.ofProgram_of_program {boundary : Text} {o : Options} {r : Request} {e : WriteError}
    (h : program boundary o r = .error e) : e.OfProgram := by
  unfold program optionEntries at h
  simp only [bind_eq_error, pure, Except.pure, reduceCtorEq, and_false, exists_false,
    or_false] at h
  rcases h with h | ⟨-, -, h | ⟨-, -, h⟩⟩
  · obtain ⟨_, hne, rfl⟩ := tooDeep_of_checkBody h
    exact .depth hne
  · exact ofProgram_of_portEntries h
  · unfold checkNumeral at h
    split at h
    · cases h
    · cases h
      exact .numeral

theorem Php.ofProgram_of_program {o : Options} {r : Request} {e : WriteError}
    (h : program o r = .error e) : e.OfProgram := by
  unfold program layout configLines timeoutEntries at h
  simp only [bind_eq_error, pure, Except.pure, reduceCtorEq, and_false, exists_false,
    or_false] at h
  rcases h with h | ⟨-, -, h⟩
  · obtain ⟨_, hne, rfl⟩ := tooDeep_of_checkBody h
    exact .depth hne
  · split at h
    · cases h
    · split at h
      · cases h
      · cases h
        exact .timeout

theorem Converter.ofProgram_of_program {c : Converter} {o : Options} {r : Request} {e : WriteError}
    (h : c.program o r = .error e) : e.OfProgram := by
  unfold program at h
  cases hc : c.target with
  | node =>
    rw [hc] at h
    exact Node.ofProgram_of_program h
  | php =>
    rw [hc] at h
    exact Php.ofProgram_of_program h

/-! ### Payloads by themselves -/

theorem Node.writePayload_eq_ok {boundary : Text} {trim : Bool} {contentType : Option Text}
    {payload : Payload} {f : Fragment} :
    writePayload boundary trim contentType payload = .ok f ↔
      HasRoom trim contentType payload ∧ f = payloadBody boundary trim contentType payload := by
  rw [← checkPayload_eq_ok]
  refine bind_eq_ok.trans ⟨?_, ?_⟩
  · rintro ⟨⟨⟩, hcheck, hf⟩
    exact ⟨hcheck, (Except.ok.inj hf).symm⟩
  · rintro ⟨hcheck, rfl⟩
    exact ⟨(), hcheck, rfl⟩

theorem Node.writePayload_eq_error {boundary : Text} {trim : Bool} {contentType : Option Text}
    {payload : Payload} {e : WriteError} :
    writePayload boundary trim contentType payload = .error e ↔
      checkPayload trim contentType payload = .error e :=
  bind_eq_error.trans (or_iff_left fun ⟨_, _, h⟩ => by cases h)

theorem Php.writePayload_eq_ok {trim : Bool} {payload : Payload} {p : Program} :
    writePayload trim payload = .ok p ↔
      HasRoom trim payload ∧ p = payloadLines trim payload := by
  rw [← checkPayload_eq_ok]
  refine bind_eq_ok.trans ⟨?_, ?_⟩
  · rintro ⟨⟨⟩, hcheck, hp⟩
    exact ⟨hcheck, (Except.ok.inj hp).symm⟩
  · rintro ⟨hcheck, rfl⟩
    exact ⟨(), hcheck, rfl⟩

theorem Php.writePayload_eq_error {trim : Bool} {payload : Payload} {e : WriteError} :
    writePayload trim payload = .error e ↔ checkPayload trim payload = .error e :=
  bind_eq_error.trans (or_iff_left fun ⟨_, _, h⟩ => by cases h)

/-- Without room a payload is refused. -/
theorem Node.exists_tooDeep_of_not_hasRoom {boundary : Text} {trim : Bool}
    {contentType : Option Text} {payload : Payload} (h : ¬HasRoom trim contentType payload) :
    ∃ descent, writePayload boundary trim contentType payload = .error (.tooDeep descent) := by
  cases hwrite : writePayload boundary trim contentType payload with
  | ok f => exact absurd (writePayload_eq_ok.mp hwrite).1 h
  | error e =>
    obtain ⟨descent, -, rfl⟩ := tooDeep_of_checkPayload (writePayload_eq_error.mp hwrite)
    exact ⟨descent, rfl⟩

theorem Php.exists_tooDeep_of_not_hasRoom {trim : Bool} {payload : Payload}
    (h : ¬HasRoom trim payload) :
    ∃ descent, writePayload trim payload = .error (.tooDeep descent) := by
  cases hwrite : writePayload trim payload with
  | ok p => exact absurd (writePayload_eq_ok.mp hwrite).1 h
  | error e =>
    obtain ⟨descent, -, rfl⟩ := tooDeep_of_checkPayload (writePayload_eq_error.mp hwrite)
    exact ⟨descent, rfl⟩

end HttpSnippet

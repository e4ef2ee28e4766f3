import HttpSnippet.Converter

/-!
# Stages of a conversion

A snippet comes out of a conversion exactly if every stage succeeds, and then the stages determine
it. Statements about snippets start here and need not look at the order of the stages again.
-/
namespace HttpSnippet

/-- A sequence of two computations succeeds exactly if both of them do, one after the other. -/
theorem bind_eq_ok {ε α β : Type} {x : Except ε α} {f : α → Except ε β} {b : β} :
    (x >>= f) = .ok b ↔ ∃ a, x = .ok a ∧ f a = .ok b := by
  cases x with
  | error e => simp [bind, Except.bind]
  | ok a => simp [bind, Except.bind]

theorem mapError_error {ε ε' : Type} (α : Type) (f : ε → ε') (e : ε) :
    (Except.error e : Except ε α).mapError f = .error (f e) := rfl

theorem mapError_ok {ε ε' α : Type} (f : ε → ε') (a : α) : (Except.ok a).mapError f = .ok a := rfl

/-- Another report of an error changes no success. -/
theorem mapError_eq_ok {ε ε' α : Type} {x : Except ε α} {f : ε → ε'} {a : α} :
    x.mapError f = .ok a ↔ x = .ok a := by
  cases x with
  | error e => simp [mapError_error]
  | ok b => simp [mapError_ok]

/-- Forgetting the error of a computation keeps its success. -/
theorem toOption_eq_some {ε α : Type} {x : Except ε α} {a : α} :
    x.toOption = some a ↔ x = .ok a := by
  cases x with
  | error e => simp [Except.toOption]
  | ok b => simp [Except.toOption]

/-- A sequence of two computations fails with the error of the first one that fails. -/
theorem bind_eq_error {ε α β : Type} {x : Except ε α} {f : α → Except ε β} {e : ε} :
    (x >>= f) = .error e ↔ x = .error e ∨ ∃ a, x = .ok a ∧ f a = .error e := by
  cases x with
  | error e' => simp [bind, Except.bind]
  | ok a => simp [bind, Except.bind]

theorem map_eq_ok {ε α β : Type} {x : Except ε α} {f : α → β} {b : β} :
    x.map f = .ok b ↔ ∃ a, x = .ok a ∧ f a = b := by
  cases x with
  | error e => simp [Except.map]
  | ok a => simp [Except.map]

theorem map_eq_error {ε α β : Type} {x : Except ε α} {f : α → β} {e : ε} :
    x.map f = .error e ↔ x = .error e := by
  cases x with
  | error e' => simp [Except.map]
  | ok a => simp [Except.map]

theorem mapError_eq_error {ε ε' α : Type} {x : Except ε α} {f : ε → ε'} {e : ε'} :
    x.mapError f = .error e ↔ ∃ e', x = .error e' ∧ f e' = e := by
  cases x with
  | error e' => simp [mapError_error]
  | ok a => simp [mapError_ok]

theorem eq_ok_iff_forall_ne {ε : Type} {x : Except ε Unit} : x = .ok () ↔ ∀ e, x ≠ .error e := by
  cases x <;> simp

theorem forM_eq_ok {ε α : Type} {x : Option α} {f : α → Except ε Unit} :
    x.forM f = .ok () ↔ ∀ a, x = some a → f a = .ok () := by
  cases x <;> simp [Option.forM, pure, Except.pure]

theorem forM_eq_error {ε α : Type} {x : Option α} {f : α → Except ε Unit} {e : ε} :
    x.forM f = .error e ↔ ∃ a, x = some a ∧ f a = .error e := by
  cases x <;> simp [Option.forM, pure, Except.pure]

theorem exists_eq_ok {ε α : Type} {x : Except ε α} (h : x.isOk = true) : ∃ a, x = .ok a := by
  cases x with
  | error e => cases h
  | ok a => exact ⟨a, rfl⟩

variable [Host]

theorem indentation_eq_ok {o : Options} {indent : Text} :
    o.indentation = .ok indent ↔ o.indentCount ≤ Host.maxIndent ∧ indent = o.indent := by
  have hmax := Host.maxIndent_lt
  unfold Options.indentation
  split
  · next h => simp only [reduceCtorEq, false_iff]; omega
  split
  · next h => simp only [reduceCtorEq, false_iff]; omega
  · next h =>
    have hc : o.indentCount ≤ Host.maxIndent := Nat.le_of_not_lt h
    rw [Except.ok.injEq, eq_comm]
    exact ⟨fun hi => ⟨hc, hi⟩, fun hi => hi.2⟩

namespace Converter

theorem assemble_eq_ok {c : Converter} {o : Options} {r : Request} {s : Text} :
    c.assemble o r = .ok s ↔
      o.indentCount ≤ Host.maxIndent ∧ ∃ p, c.program o r = .ok p ∧ s = p.render o.indent := by
  unfold assemble indentOf
  simp only [bind_eq_ok, mapError_eq_ok, indentation_eq_ok, pure, Except.pure, Except.ok.injEq]
  constructor
  · rintro ⟨indent, ⟨hc, rfl⟩, p, hp, rfl⟩
    exact ⟨hc, p, hp, rfl⟩
  · rintro ⟨hc, p, hp, rfl⟩
    exact ⟨_, ⟨hc, rfl⟩, p, hp, rfl⟩

theorem checkCopy_eq_error {r : Request} {e : WriteError} :
    checkCopy r = .error e ↔
      (∃ p ∈ (r.body.bind (·.formdata)).getD [], Host.room .copy < p.src.depth) ∧
        e = .tooDeep .copying := by
  unfold checkCopy
  dsimp only
  split
  · next h =>
    refine iff_of_false nofun ?_
    rintro ⟨⟨p, hp, hdeep⟩, -⟩
    exact absurd (of_decide_eq_true (List.all_eq_true.mp h p hp)) (Nat.not_le.mpr hdeep)
  · next h =>
    obtain ⟨p, hp, hdeep⟩ : ∃ p ∈ (r.body.bind (·.formdata)).getD [],
        Host.room .copy < p.src.depth := by simpa using h
    rw [and_iff_right ⟨p, hp, hdeep⟩, Except.error.injEq, eq_comm]

theorem checkCredentials_eq_error {r : Request} {e : WriteError} :
    checkCredentials r = .error e ↔
      ∃ a, r.auth = some a ∧ a.kind = .basic ∧ r.hasHeader "Authorization" = false ∧
        Host.isUnencodable (a.username ++ ':' :: a.password) = true ∧
        e = .unencodable (a.username ++ ':' :: a.password) := by
  unfold checkCredentials
  cases r.auth with
  | none => simp
  | some a =>
    have hrefused : (a.kind = .basic && !r.hasHeader "Authorization" &&
        Host.isUnencodable (a.username ++ ':' :: a.password)) = true ↔
        a.kind = .basic ∧ r.hasHeader "Authorization" = false ∧
          Host.isUnencodable (a.username ++ ':' :: a.password) = true := by
      simp only [Bool.and_eq_true, decide_eq_true_eq, Bool.not_eq_true', and_assoc]
    simp only [Option.some.injEq, exists_eq_left']
    split
    · next h =>
      obtain ⟨hkind, hheader, ht⟩ := hrefused.mp h
      rw [Except.error.injEq]
      exact ⟨fun he => ⟨hkind, hheader, ht, he.symm⟩, fun he => he.2.2.2.symm⟩
    · next h =>
      refine iff_of_false nofun ?_
      rintro ⟨hkind, hheader, ht, -⟩
      exact h (hrefused.mpr ⟨hkind, hheader, ht⟩)

/-- What a request and its options need before a program is put together: the request is copied, its
credentials are encoded and the indentation is made. -/
structure Affords (o : Options) (r : Request) : Prop where
  copied : checkCopy r = .ok ()
  encoded : checkCredentials r = .ok ()
  indented : o.indentCount ≤ Host.maxIndent

theorem snippet_eq_ok {c : Converter} {o : Options} {r : Request} {s : Text} :
    c.snippet o r = .ok s ↔
      Affords o r ∧ ∃ p, c.program o r.normalize = .ok p ∧ s = p.render o.indent := by
  unfold snippet
  simp only [bind_eq_ok, assemble_eq_ok]
  constructor
  · rintro ⟨u, hcopied, u', hencoded, hindented, h⟩
    exact ⟨⟨hcopied, hencoded, hindented⟩, h⟩
  · rintro ⟨⟨hcopied, hencoded, hindented⟩, h⟩
    exact ⟨(), hcopied, (), hencoded, hindented, h⟩

/-- The stages behind a snippet for a checked request. -/
theorem generateFor_eq_ok {c : Converter} {r : Request} {options : Value} {s : Text} :
    c.generateFor r options = .ok s ↔
      checkMode r.body = .ok () ∧ ∃ o, mergeOptions options = .ok o ∧ Affords o r ∧
        ∃ p, c.program o r.normalize = .ok p ∧ s = p.render o.indent := by
  unfold generateFor
  simp only [bind_eq_ok, mapError_eq_ok, snippet_eq_ok]
  constructor
  · rintro ⟨u, hm, h⟩
    exact ⟨hm, h⟩
  · rintro ⟨hm, h⟩
    exact ⟨(), hm, h⟩

/-- The stages behind a snippet for a described request. -/
theorem generate_eq_ok {c : Converter} {request options : Value} {s : Text} :
    c.generate request options = .ok s ↔
      ∃ r, parseRequest request = .ok r ∧ c.generateFor r options = .ok s := bind_eq_ok

end Converter
end HttpSnippet

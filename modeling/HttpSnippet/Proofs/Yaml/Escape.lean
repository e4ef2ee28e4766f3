import HttpSnippet.Proofs.Conversion
import HttpSnippet.Yaml.Document

/-!
# Escapes of characters that there are not

An escape in a quoted scalar may name any code point, and the reading of a document ends where it
names one beyond the last. Every other failure on the way to a document is that of a malformed text.
-/
namespace HttpSnippet.Yaml

variable {refusal : Refusal}

/-- Only a code point beyond the last one is refused for want of a character. -/
def Refusal.IsBeyond (refusal : Refusal) : Prop :=
  ∀ code, refusal = .noCharacter code → 0x110000 ≤ code

theorem isBeyond_malformed : Refusal.malformed.IsBeyond := fun _ h => by cases h

theorem isBeyond_of_required {α : Type} {a : Option α} (h : required a = .error refusal) :
    refusal.IsBeyond := by
  cases a with
  | none =>
    cases h
    exact isBeyond_malformed
  | some a => cases h

theorem isBeyond_of_escaped {c : Cursor} (h : escaped c = .error refusal) : refusal.IsBeyond := by
  unfold escaped at h
  rcases bind_eq_error.mp h with h | ⟨letter, -, h⟩
  · exact isBeyond_of_required h
  split at h
  · cases h
  split at h
  · dsimp only at h
    rcases bind_eq_error.mp h with h | ⟨values, -, h⟩
    · exact isBeyond_of_required h
    split at h
    · cases h
      exact isBeyond_malformed
    · split at h
      · next hcode =>
        cases h
        intro code hsame
        cases hsame
        exact hcode
      · cases h
  · rcases bind_eq_error.mp h with h | ⟨_, -, h⟩
    · exact isBeyond_of_required h
    · exact isBeyond_of_required h

theorem isBeyond_of_quotedRest {double : Bool} {bound : Nat} {c : Cursor}
    (h : quotedRest double bound c = .error refusal) : refusal.IsBeyond := by
  induction bound generalizing c with
  | zero =>
    cases h
    exact isBeyond_malformed
  | succ bound ih =>
    unfold quotedRest at h
    rcases bind_eq_error.mp h with h | ⟨x, -, h⟩
    · exact isBeyond_of_required h
    split at h
    · cases h
    split at h
    · split at h
      · rcases bind_eq_error.mp h with h | ⟨_, -, h⟩
        · exact ih h
        · cases h
      · cases h
    split at h
    · rcases bind_eq_error.mp h with h | ⟨_, -, h⟩
      · exact isBeyond_of_escaped h
      · rcases bind_eq_error.mp h with h | ⟨_, -, h⟩
        · exact ih h
        · cases h
    split at h
    · rcases bind_eq_error.mp h with h | ⟨_, -, h⟩
      · exact isBeyond_of_required h
      · rcases bind_eq_error.mp h with h | ⟨_, -, h⟩
        · exact ih h
        · cases h
    · rcases bind_eq_error.mp h with h | ⟨_, -, h⟩
      · exact ih h
      · cases h

theorem isBeyond_of_token {x : Char} {s : Scan} (h : s.token x = .error refusal) :
    refusal.IsBeyond := by
  have hquoted {double : Bool} (h : s.quoted double = .error refusal) : refusal.IsBeyond := by
    rcases bind_eq_error.mp h with h | ⟨_, -, h⟩
    · exact isBeyond_of_required h
    · rcases bind_eq_error.mp h with h | ⟨_, -, h⟩
      · exact isBeyond_of_quotedRest h
      · cases h
  unfold Scan.token at h
  split at h
  · exact hquoted h
  split at h
  · exact hquoted h
  · exact isBeyond_of_required h

theorem isBeyond_of_fetch {s : Scan} (h : s.fetch = .error refusal) : refusal.IsBeyond := by
  unfold Scan.fetch at h
  dsimp only at h
  rcases bind_eq_error.mp h with h | ⟨_, -, h⟩
  · exact isBeyond_of_required h
  split at h
  · rcases bind_eq_error.mp h with h | ⟨_, -, h⟩
    · exact isBeyond_of_required h
    · cases h
  · exact isBeyond_of_token h

/-- Tokens are read one after another, and each is refused as its quoted scalar is. -/
theorem isBeyond_of_run {bound told : Nat} {s : Scan}
    (h : (Scan.run bound told s).refusal = some refusal) : refusal.IsBeyond := by
  induction bound generalizing told s with
  | zero =>
    cases h
    exact isBeyond_malformed
  | succ bound ih =>
    unfold Scan.run at h
    split at h
    · cases h
    split at h
    · cases h
      exact isBeyond_malformed
    · split at h
      · next hfetch =>
        cases h
        exact isBeyond_of_fetch hfetch
      · exact ih h

theorem isBeyond_of_tokens {t : Text} (h : (tokens t).refusal = some refusal) :
    refusal.IsBeyond := by
  unfold tokens at h
  split at h
  · exact isBeyond_of_run h
  · cases h
    exact isBeyond_malformed

theorem isBeyond_of_document [Host] {t : Text} (h : document t = .error refusal) :
    refusal.IsBeyond := by
  unfold document at h
  dsimp only at h
  split at h
  · cases h
  · cases h
    exact isBeyond_malformed
  · cases h
    exact nofun
  · cases h
    cases hrefusal : (tokens t).refusal with
    | none => exact isBeyond_malformed
    | some refusal => exact isBeyond_of_tokens hrefusal

end HttpSnippet.Yaml

import HttpSnippet.Proofs.Normal.Frame
import HttpSnippet.Proofs.Text.Base64
import HttpSnippet.Proofs.Text.Separator
import HttpSnippet.Proofs.Text.Utf8

/-!
# Basic credentials read back

The value of the header for basic credentials is base64 text of their UTF-8 octets. A server that
undoes both encodings gets the user, a colon and the password, and can tell the two apart unless the
user has a colon as well.
-/
namespace HttpSnippet

namespace Request

variable {r : Request} {a : Auth}

/-- Basic credentials are added as a header, unless an enabled one of its name is there. -/
theorem applyAuth_of_kind_basic (hauth : r.auth = some a) (hkind : a.kind = .basic)
    (hfree : ∀ h ∈ r.headers, ¬ h.Provides "Authorization") :
    r.applyAuth = r.addHeader "Authorization" a.basicValue := by
  have hcredential : a.credential? = some (.header "Authorization" a.basicValue) := by
    rw [Auth.credential?, hkind]
  have hnone : r.hasHeader "Authorization" = false := by
    rw [Bool.eq_false_iff]
    intro hthere
    obtain ⟨h, hmem, hprovides⟩ := hasHeader_iff_provides.mp hthere
    exact hfree h hmem hprovides
  have hcarries : r.carries (.header "Authorization" a.basicValue) = false := hnone
  rw [applyAuth, hauth, Option.bind_some, hcredential]
  dsimp only
  rw [hcarries]
  rfl

/-- The header that is added for basic credentials has an ASCII value that both decoders of base64
and then the one of UTF-8 turn into the user, a colon and the password. Without a colon in the user
the first colon tells them apart. -/
theorem applyAuth_basic_roundTrip (hauth : r.auth = some a) (hkind : a.kind = .basic)
    (hfree : ∀ h ∈ r.headers, ¬ h.Provides "Authorization") :
    ∃ t : Text, r.applyAuth = r.addHeader "Authorization" ("Basic " ++ t) ∧
      (∀ c ∈ t, c.toNat < 128) ∧
      ∃ octets, Text.Base64.read? t = some octets ∧ Text.Base64.decode? t = some octets ∧
        Text.Utf8.decode octets = .ok (a.username ++ ':' :: a.password) ∧
        (':' ∉ a.username →
          Text.cut? (a.username ++ ':' :: a.password) [':'] = some (a.username, a.password)) := by
  let octets := Text.Utf8.encode (a.username ++ ':' :: a.password)
  refine ⟨Text.Base64.encode octets, ?_, ?_, octets, ?_, ?_, ?_, fun hcolon => ?_⟩
  · exact applyAuth_of_kind_basic hauth hkind hfree
  · exact Text.Base64.encode_ascii _
  · exact Text.Base64.read?_encode _
  · exact Text.Base64.decode?_encode _
  · exact Text.Utf8.decode_eq_ok_iff.mpr rfl
  · exact Text.cut?_mark hcolon a.password

/-- Credentials outside of ASCII, with a colon in the password, beside a disabled header. -/
theorem applyAuth_basic_roundTrip_of_umlaut :
    let a : Auth := { kind := .basic, username := ['j', 'ü'], password := [':', '😀'] }
    let r : Request :=
      { headers := [{ key := "authorization", value := "x", disabled := true }], auth := some a }
    ∃ t : Text, r.applyAuth = r.addHeader "Authorization" ("Basic " ++ t) ∧
      (∀ c ∈ t, c.toNat < 128) ∧
      ∃ octets, Text.Base64.read? t = some octets ∧ Text.Base64.decode? t = some octets ∧
        Text.Utf8.decode octets = .ok ['j', 'ü', ':', ':', '😀'] ∧
        Text.cut? ['j', 'ü', ':', ':', '😀'] [':'] = some (['j', 'ü'], [':', '😀']) := by
  intro a r
  have hfree : ∀ h ∈ r.headers, ¬ h.Provides "Authorization" := by decide
  obtain ⟨t, hadded, hascii, octets, hread, hdecode, htext, hcut⟩ :=
    applyAuth_basic_roundTrip (r := r) (a := a) rfl rfl hfree
  exact ⟨t, hadded, hascii, octets, hread, hdecode, htext, hcut (by decide)⟩

example :
    let a : Auth := { kind := .basic, username := "user", password := "pass" }
    a.basicValue = "Basic dXNlcjpwYXNz".toList := by
  decide

end Request
end HttpSnippet

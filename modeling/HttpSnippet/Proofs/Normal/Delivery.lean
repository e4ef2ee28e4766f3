import HttpSnippet.Proofs.Disabled.Normal
import HttpSnippet.Proofs.Normal.Frame

/-!
# Credentials that are sent

A normal form leaves credentials out that it takes to be there already. A header is there only if it
is enabled, so in a header credentials are always sent, be it with the caller's value or with their
own. A member of the query is there also if it is disabled, and then nothing is sent. The theorem at
the end says exactly for which requests the credentials are sent.
-/
namespace HttpSnippet

/-- An enabled member of the query is one of the parts that the text of the query is joined from. -/
theorem Url.exists_queryText_eq {u : Url} {p : QueryParam} (hp : p ∈ u.query)
    (henabled : p.disabled = false) :
    ∃ before after, u.queryText = Text.join "&" (before ++ p.text :: after) := by
  have hmem : p ∈ u.enabledQuery := List.mem_filter.mpr ⟨hp, by simp [henabled]⟩
  obtain ⟨before, after, hsplit⟩ := List.append_of_mem hmem
  refine ⟨before.map (·.text), after.map (·.text), ?_⟩
  rw [queryText, hsplit, List.map_append, List.map_cons]

namespace Request

/-- In a form of the request an enabled header has the name. It is a header of the caller, or it has
the value. -/
def SendsHeader (r form : Request) (name value : Text) : Prop :=
  ∃ h ∈ form.headers, h.Provides name ∧ (h ∈ r.headers ∨ h.value = value)

/-- In a form of the request an enabled member of the query has the key, and so stands in the text
of the query. It is a member of the caller, or it has the value. -/
def SendsMember (r form : Request) (key value : Text) : Prop :=
  ∃ p ∈ form.url.query, p.disabled = false ∧ p.key = key ∧
    (p ∈ r.url.query ∨ p.value = some value) ∧
      ∃ before after, form.url.queryText = Text.join "&" (before ++ p.text :: after)

/-- A form of the request sends the credentials in the place that belongs to their kind. An API key
without a name has none. -/
def Delivers (r form : Request) (a : Auth) : Prop :=
  match a.kind with
  | .noauth => True
  | .basic => r.SendsHeader form "Authorization" a.basicValue
  | .bearer => r.SendsHeader form "Authorization" ("Bearer " ++ a.token)
  | .apikey =>
    a.key ≠ [] →
      if a.location = ("query" : Text) then r.SendsMember form a.key a.value
      else r.SendsHeader form a.key a.value

/-- A form of the request sends what credentials put into a request. -/
def Sends (r form : Request) : Credential → Prop
  | .header key value => r.SendsHeader form key value
  | .query key value => r.SendsMember form key value

theorem delivers_iff {r form : Request} {a : Auth} :
    r.Delivers form a ↔ ∀ c, a.credential? = some c → r.Sends form c := by
  unfold Delivers Auth.credential?
  cases a.kind with
  | noauth => simp
  | basic => simp [Sends]
  | bearer => simp [Sends]
  | apikey =>
    by_cases hkey : a.key = []
    · simp [hkey]
    · by_cases hlocation : a.location = ("query" : Text)
      · simp only [if_pos hlocation, Sends, hkey, List.isEmpty_iff, if_false, Option.some.injEq,
          forall_eq', ne_eq, not_false_eq_true, true_imp_iff]
      · simp only [if_neg hlocation, Sends, hkey, List.isEmpty_iff, if_false, Option.some.injEq,
          forall_eq', ne_eq, not_false_eq_true, true_imp_iff]

/-! ### What a normal form sends -/

/-- A header for the credentials is added unless the caller has an enabled one. -/
theorem sendsHeader_normalize {r : Request} {h : Header} (hauth : r.auth.bind (·.header?) = some h)
    (henabled : h.disabled = false) : r.SendsHeader r.normalize h.key h.value := by
  have hheaders := (framed_normalize r).1.headers
  by_cases hprovided : ∃ g ∈ r.headers, g.Provides h.key
  · obtain ⟨g, hg, hprovides⟩ := hprovided
    refine ⟨g, ?_, hprovides, .inl hg⟩
    rw [hheaders, List.append_assoc]
    exact List.mem_append_left _ hg
  · have hadded : r.addedCredential? = some h := by
      unfold addedCredential?
      rw [hauth]
      exact if_neg hprovided
    refine ⟨h, ?_, ⟨henabled, rfl⟩, .inr rfl⟩
    rw [hheaders, hadded]
    exact List.mem_append_left _ (List.mem_append_right _ List.mem_cons_self)

/-- A member for an API key is added unless the caller has one of its key, which then has to be
enabled itself. -/
theorem sendsMember_normalize_iff {r : Request} {key value : Text}
    (hauth : r.auth.bind (·.member?) = some { key, value := some value }) :
    r.SendsMember r.normalize key value ↔
      ((∃ p ∈ r.url.query, p.key = key) → ∃ p ∈ r.url.query, p.key = key ∧ p.disabled = false) := by
  have hquery := (framed_normalize r).1.query
  have hadded : r.addedMember? =
      if ∃ q ∈ r.url.query, q.key = key then none else some { key, value := some value } := by
    unfold addedMember?
    rw [hauth]
  by_cases hthere : ∃ q ∈ r.url.query, q.key = key
  · rw [if_pos hthere] at hadded
    rw [hadded, Option.toList_none, List.append_nil] at hquery
    constructor
    · rintro ⟨p, hp, henabled, hkey, -⟩ -
      exact ⟨p, hquery ▸ hp, hkey, henabled⟩
    · intro hsent
      obtain ⟨p, hp, hkey, henabled⟩ := hsent hthere
      have hmem : p ∈ r.normalize.url.query := hquery ▸ hp
      exact ⟨p, hmem, henabled, hkey, .inl hp, Url.exists_queryText_eq hmem henabled⟩
  · rw [if_neg hthere] at hadded
    rw [hadded, Option.toList_some] at hquery
    refine iff_of_true ?_ fun h => absurd h hthere
    have hmem : { key, value := some value } ∈ r.normalize.url.query :=
      hquery ▸ List.mem_append_right _ List.mem_cons_self
    exact ⟨_, hmem, rfl, rfl, .inr rfl, Url.exists_queryText_eq hmem rfl⟩

/-- A normal form sends the credentials exactly if there are no members of the query that have their
key and are all disabled. -/
theorem delivers_normalize_iff (r : Request) :
    (∀ a, r.auth = some a → r.Delivers r.normalize a) ↔ ¬ r.BlocksCredential := by
  have hsends : (∀ a, r.auth = some a → r.Delivers r.normalize a) ↔
      ∀ c, r.auth.bind (·.credential?) = some c → r.Sends r.normalize c := by
    simp only [delivers_iff, Option.bind_eq_some_iff]
    exact ⟨fun h c ⟨a, ha, hc⟩ => h a ha c hc, fun h a ha c hc => h c ⟨a, ha, hc⟩⟩
  rw [hsends]
  unfold BlocksCredential
  obtain ⟨hc, -, -⟩ | ⟨key, value, hc, hheader, -⟩ | ⟨key, value, hc, -, hmember⟩ :=
    r.credential?_cases
  · simp [hc]
  · have hsent : r.SendsHeader r.normalize key value := sendsHeader_normalize hheader rfl
    simp [hc, Sends, hsent]
  · simp only [hc, Option.some.injEq, forall_eq', Sends, Credential.query.injEq,
      sendsMember_normalize_iff hmember]
    constructor
    · rintro hsent ⟨_, _, ⟨rfl, rfl⟩, hthere, hdisabled⟩
      obtain ⟨p, hp, hkey, henabled⟩ := hsent hthere
      rw [hdisabled p hp hkey] at henabled
      cases henabled
    · intro hfree hthere
      refine Classical.byContradiction fun hnone => hfree ⟨key, value, ⟨rfl, rfl⟩, hthere, ?_⟩
      intro p hp hkey
      cases hd : p.disabled with
      | true => rfl
      | false => exact absurd ⟨p, hp, hkey, hd⟩ hnone

/-- A disabled member of the query keeps an API key of its name away: no member of the key is
enabled, and the text of the query stays empty. -/
theorem not_delivers_normalize_of_disabled :
    let auth : Auth := { kind := .apikey, key := "k", value := "v", location := "query" }
    let query : List QueryParam := [{ key := "k", value := some "old", disabled := true }]
    let r : Request := { url := { host := ["h"], query }, auth := some auth }
    ¬ r.Delivers r.normalize auth ∧
      (∀ p ∈ r.normalize.url.query, p.key = auth.key → p.disabled = true) ∧
      r.normalize.url.queryText = [] := by
  intro auth query r
  have hdisabled : ∀ p ∈ r.normalize.url.query, p.key = auth.key → p.disabled = true := by decide
  refine ⟨?_, hdisabled, by decide⟩
  intro hdelivers
  obtain ⟨p, hp, henabled, hkey, -⟩ : r.SendsMember r.normalize "k" "v" := hdelivers (by decide)
  rw [hdisabled p hp hkey] at henabled
  cases henabled

end Request
end HttpSnippet

import HttpSnippet.Proofs.Conversion
import HttpSnippet.Yaml.Reader

/-!
# Failures of a survey

Surveying a document changes its graph: merged entries are put in place, and a bare equals sign
becomes a text. No step gives a scalar another text, and none gives a node a tag that could not be
read. So a survey fails because of the layout of the document, which is malformed or too deep, or
because a scalar of the document has the form of a number, a truth value or a date and no value.
-/
namespace HttpSnippet.Yaml

/-- The failure lies in how the nodes stand to each other, and not in the text of a scalar. -/
inductive ReadError.OfLayout : ReadError → Prop where
  | malformed : OfLayout .malformed
  | tooDeep : OfLayout .tooDeep

theorem ReadError.OfLayout.eq_tooDeep {e : ReadError} (h : e.OfLayout) (he : e ≠ .malformed) :
    e = .tooDeep := by
  cases h with
  | malformed => exact absurd rfl he
  | tooDeep => rfl

/-! ### What a survey leaves of the nodes -/

/-- What becomes of a node: it may turn into a text, and a mapping may get other entries. -/
inductive Node.Settles : Node → Node → Prop where
  | scalar {tag tag' : Tag} (t : Text) (h : tag' = tag ∨ tag' = .str) :
      Settles (.scalar tag t) (.scalar tag' t)
  | sequence {tag tag' : Tag} (items : List NodeId) (h : tag' = tag ∨ tag' = .str) :
      Settles (.sequence tag items) (.sequence tag' items)
  | mapping {tag tag' : Tag} (entries entries' : List NodeEntry) (h : tag' = tag ∨ tag' = .str) :
      Settles (.mapping tag entries) (.mapping tag' entries')

theorem Node.Settles.refl (n : Node) : n.Settles n := by
  cases n with
  | scalar tag t => exact .scalar t (.inl rfl)
  | sequence tag items => exact .sequence items (.inl rfl)
  | mapping tag entries => exact .mapping entries entries (.inl rfl)

theorem Node.Settles.trans {n m k : Node} (h : n.Settles m) (h' : m.Settles k) : n.Settles k := by
  have htag {a b c : Tag} (h : b = a ∨ b = .str) (h' : c = b ∨ c = .str) : c = a ∨ c = .str := by
    rcases h' with rfl | rfl
    · exact h
    · exact .inr rfl
  cases h with
  | scalar t h => cases h' with | scalar _ h' => exact .scalar t (htag h h')
  | sequence items h => cases h' with | sequence _ h' => exact .sequence items (htag h h')
  | mapping entries _ h => cases h' with | mapping _ _ h' => exact .mapping _ _ (htag h h')

theorem Node.settles_withTag (n : Node) : n.Settles (n.withTag .str) := by
  cases n with
  | scalar tag t => exact .scalar t (.inr rfl)
  | sequence tag items => exact .sequence items (.inr rfl)
  | mapping tag entries => exact .mapping entries entries (.inr rfl)

namespace Graph

/-- Each node of a graph becomes the one at its place. -/
def Settles (g g' : Graph) : Prop := ∀ i, (g.node i).Settles (g'.node i)

variable {g g' g'' : Graph}

theorem Settles.refl (g : Graph) : g.Settles g := fun i => .refl (g.node i)

theorem Settles.trans (h : g.Settles g') (h' : g'.Settles g'') : g.Settles g'' :=
  fun i => (h i).trans (h' i)

/-- What settling a mapping may do: it leaves the nodes as a survey may leave them, or it fails for
a reason that lies in the layout. -/
def SettlesOr (g : Graph) : ReadM Graph → Prop
  | .ok g' => g.Settles g'
  | .error e => e.OfLayout

theorem Settles.trans_or {read : ReadM Graph} (h : g.Settles g') (hread : SettlesOr g' read) :
    SettlesOr g read := by
  cases read with
  | error e => exact hread
  | ok g'' => exact h.trans hread

theorem SettlesOr.bind {α : Type} {read : ReadM (Graph × α)} {f : Graph × α → ReadM Graph}
    (h : SettlesOr g (read.map (·.1))) (hf : ∀ part, SettlesOr part.1 (f part)) :
    SettlesOr g (read >>= f) := by
  cases read with
  | error e => exact h
  | ok part => exact Settles.trans_or h (hf part)

theorem node_set (g : Graph) (i j : NodeId) (n : Node) :
    (g.set i n).node j = if i = j ∧ i < g.size then n else g.node j := by
  unfold node set size
  rw [Array.getElem?_setIfInBounds]
  by_cases hij : i = j
  · subst hij
    by_cases hi : i < g.nodes.size
    · simp [hi]
    · simp [hi]
  · simp [hij]

theorem settles_set {i : NodeId} {n : Node} (h : (g.node i).Settles n) : g.Settles (g.set i n) := by
  intro j
  rw [node_set]
  split
  · next hij =>
    rw [← hij.1]
    exact h
  · exact .refl _

theorem settles_settleKeys (g : Graph) (entries : List NodeEntry) :
    g.Settles (g.settleKeys entries) := by
  unfold settleKeys
  induction entries generalizing g with
  | nil => exact .refl g
  | cons entry entries ih =>
    rw [List.foldl_cons]
    refine Settles.trans ?_ (ih _)
    dsimp only
    split
    · exact settles_set (Node.settles_withTag _)
    · exact .refl g

/-- Putting entries together changes a graph as the settling of the sources does. -/
theorem settles_contribution {settle : NodeId → Graph → ReadM Graph}
    (hsettle : ∀ i g, SettlesOr g (settle i g)) (source : NodeId) (g : Graph) :
    SettlesOr g ((contribution settle source g).map (·.1)) := by
  let join (part : Graph × List NodeEntry) (i : NodeId) : ReadM (Graph × List NodeEntry) :=
    if part.1.isMapping i then (settle i part.1).map fun g => (g, g.entries i ++ part.2)
    else .error .malformed
  have hjoin (part : Graph × List NodeEntry) (i : NodeId) :
      SettlesOr part.1 ((join part i).map (·.1)) := by
    unfold join
    split
    · have h := hsettle i part.1
      generalize settle i part.1 = read at h ⊢
      cases read with
      | error e => exact h
      | ok g' => exact h
    · exact .malformed
  have hfold (items : List NodeId) (part : Graph × List NodeEntry) :
      SettlesOr part.1 ((items.foldlM join part).map (·.1)) := by
    induction items generalizing part with
    | nil => exact .refl _
    | cons i items ih =>
      rw [List.foldlM_cons]
      have hfirst := hjoin part i
      generalize join part i = read at hfirst ⊢
      cases read with
      | error e => exact hfirst
      | ok next => exact Settles.trans_or hfirst (ih next)
  unfold contribution
  split
  · exact hjoin (g, []) source
  · exact hfold _ (g, [])
  · exact .malformed

/-- Merging leaves every scalar with its text. -/
theorem settles_settle (bound room : Nat) (merged : List NodeEntry) (i : NodeId) (g : Graph) :
    SettlesOr g (Graph.settle bound room merged i g) := by
  induction bound generalizing room merged i g with
  | zero => exact .malformed
  | succ bound ih =>
    unfold settle
    split
    · next tag entries hnode =>
      have hset (entries' : List NodeEntry) : g.Settles (g.set i (.mapping tag entries')) :=
        settles_set (hnode ▸ .mapping entries entries' (.inl rfl))
      split
      · refine Settles.trans ?_ (settles_settleKeys _ entries)
        split
        · exact .refl g
        · exact hset _
      · next source rest _ =>
        refine (hset rest).trans_or (.bind (settles_contribution (fun i g => ?_) source _)
          fun (g, more) => ih room (merged ++ more) i g)
        cases room with
        | zero => exact .tooDeep
        | succ room => exact ih room [] i g
    · exact .malformed

/-! ### Scalars without a value -/

/-- A node of the graph brings an error about: a scalar whose text has no value under its tag, a
mapping that is tagged as a scalar and stands for such a text, or one that is tagged as a date. -/
inductive Valueless (g : Graph) : ReadError → Prop where
  | scalar {i : NodeId} {tag : Tag} {t : Text} {e : ReadError} (h : g.node i = .scalar tag t)
      (he : scalarValue tag t = .error e) : Valueless g e
  | mapping {i j : NodeId} {tag tag' : Tag} {entries : List NodeEntry} {t : Text} {e : ReadError}
      (h : g.node i = .mapping tag entries) (ht : g.node j = .scalar tag' t)
      (he : scalarValue tag t = .error e) : Valueless g e
  | date {i : NodeId} {entries : List NodeEntry} (h : g.node i = .mapping .timestamp entries) :
      Valueless g .noDateText

/-- The text of a node is the one of some scalar. -/
theorem exists_scalar_of_textOf {g : Graph} {room : Nat} {i : NodeId} {t : Text}
    (h : Survey.textOf g room i = .ok t) : ∃ j tag, g.node j = .scalar tag t := by
  induction room generalizing i with
  | zero => cases h
  | succ room ih =>
    rw [Survey.textOf] at h
    split at h
    · next tag t' hnode =>
      cases h
      exact ⟨i, tag, hnode⟩
    · cases h
    · split at h
      · exact ih h
      · cases h

theorem ofLayout_of_textOf {g : Graph} {room : Nat} {i : NodeId} {e : ReadError}
    (h : Survey.textOf g room i = .error e) : e.OfLayout := by
  induction room generalizing i with
  | zero =>
    cases h
    exact .tooDeep
  | succ room ih =>
    rw [Survey.textOf] at h
    split at h
    · cases h
    · cases h
      exact .malformed
    · split at h
      · exact ih h
      · cases h
        exact .malformed

/-- A text has a value, so a tag under which there is none was there from the beginning. -/
theorem Settles.valueless {e : ReadError} (h : g.Settles g') (hg' : g'.Valueless e) :
    g.Valueless e := by
  have htag {tag tag' : Tag} (h : tag' = tag ∨ tag' = .str) {t : Text}
      (he : scalarValue tag' t = .error e) : scalarValue tag t = .error e := by
    rcases h with rfl | rfl
    · exact he
    · cases he
  cases hg' with
  | @scalar i tag t _ hnode he =>
    have hi := h i
    rw [hnode] at hi
    generalize hn : g.node i = n at hi
    cases hi with
    | scalar _ h => exact .scalar hn (htag h he)
  | @mapping i j tag tag' entries t _ hnode ht he =>
    have hi := h i
    have hj := h j
    rw [hnode] at hi
    rw [ht] at hj
    generalize hn : g.node i = n at hi
    generalize hm : g.node j = m at hj
    cases hi with
    | mapping _ _ h =>
      cases hj with
      | scalar _ _ => exact .mapping hn hm (htag h he)
  | @date i entries hnode =>
    have hi := h i
    rw [hnode] at hi
    generalize hn : g.node i = n at hi
    cases hi with
    | mapping _ _ h =>
      obtain rfl := h.resolve_right (by simp)
      exact .date hn

end Graph

namespace Survey

/-- A computation that leaves the nodes as a survey may leave them, gives a result with a property
or fails for a reason that lies in the graph at the beginning. -/
def Follows (g : Graph) {α : Type} (m : SurveyM α) (post : α → Prop) : Prop :=
  ∀ s, g.Settles s.graph →
    match m.run s with
    | .ok (a, s') => g.Settles s'.graph ∧ post a
    | .error e => e.OfLayout ∨ g.Valueless e

variable {g : Graph} {α β : Type}

theorem follows_pure {post : α → Prop} {a : α} (h : post a) : Follows g (pure a) post :=
  fun _ hs => ⟨hs, h⟩

theorem Follows.bind {m : SurveyM α} {f : α → SurveyM β} {middle : α → Prop} {post : β → Prop}
    (hm : Follows g m middle) (hf : ∀ a, middle a → Follows g (f a) post) :
    Follows g (m >>= f) post := by
  intro s hs
  have h := hm s hs
  rw [StateT.run_bind]
  cases hrun : m.run s with
  | error e =>
    rw [hrun] at h
    exact h
  | ok next =>
    obtain ⟨a, s'⟩ := next
    rw [hrun] at h
    exact hf a h.2 s' h.1

theorem follows_get : Follows g (get : SurveyM Survey) fun s => g.Settles s.graph :=
  fun _ hs => ⟨hs, hs⟩

theorem follows_set {s : Survey} (h : g.Settles s.graph) :
    Follows g (set s : SurveyM PUnit) fun _ => True :=
  fun _ _ => ⟨h, trivial⟩

/-- Everything but the graph may be changed at will. -/
theorem follows_modify {f : Survey → Survey} (hf : ∀ s, (f s).graph = s.graph) :
    Follows g (modify f : SurveyM PUnit) fun _ => True :=
  fun s hs => ⟨(hf s).symm ▸ hs, trivial⟩

theorem follows_throw (post : α → Prop) : Follows g (throw .malformed : SurveyM α) post :=
  fun _ _ => .inl .malformed

/-- A computation without a survey leaves the survey as it is. -/
theorem follows_lift {read : ReadM α} {post : α → Prop} (hok : ∀ a, read = .ok a → post a)
    (herror : ∀ e, read = .error e → e.OfLayout ∨ g.Valueless e) :
    Follows g (read : SurveyM α) post := by
  intro s hs
  have hrun : (read : SurveyM α).run s = read.map fun a => (a, s) := by
    show (read >>= fun a => pure (a, s)) = _
    cases read <;> rfl
  rw [hrun]
  cases read with
  | ok a => exact ⟨hs, hok a rfl⟩
  | error e => exact herror e rfl

theorem follows_forM {f : α → SurveyM PUnit} (hf : ∀ a, Follows g (f a) fun _ => True)
    (as : List α) : Follows g (as.forM f) fun _ => True := by
  induction as with
  | nil => exact follows_pure trivial
  | cons a as ih => exact (hf a).bind fun _ _ => ih

/-! ### The steps -/

variable [Host]

/-- Reading a scalar fails for want of a value, or for a reason that lies in the layout. -/
theorem valueless_of_scalarAt {g : Graph} {i : NodeId} {e : ReadError}
    (h : scalarAt g i = .error e) : e.OfLayout ∨ g.Valueless e := by
  rcases bind_eq_error.mp h with ht | ⟨t, ht, h⟩
  · exact .inl (Graph.ofLayout_of_textOf ht)
  split at h
  · next entries hnode =>
    cases h
    exact .inr (.date hnode)
  · cases hnode : g.node i with
    | scalar tag t' =>
      rw [textOf, hnode] at ht
      cases ht
      rw [hnode] at h
      exact .inr (.scalar hnode h)
    | sequence tag items =>
      rw [textOf, hnode] at ht
      cases ht
    | mapping tag entries =>
      rw [hnode] at h
      obtain ⟨j, tag', hj⟩ := Graph.exists_scalar_of_textOf ht
      exact .inr (.mapping hnode hj h)

theorem follows_scalarAt {g' : Graph} (h : g.Settles g') (i : NodeId) :
    Follows g (scalarAt g' i : SurveyM Value) fun _ => True :=
  follows_lift (fun _ _ => trivial) fun _ hscalar =>
    (valueless_of_scalarAt hscalar).imp_right h.valueless

theorem follows_meet (i : NodeId) : Follows g (meet i) fun _ => True := by
  unfold meet
  refine follows_get.bind fun s hs => ?_
  split
  · exact follows_pure trivial
  · refine (follows_modify fun _ => by rfl).bind fun _ _ => follows_get.bind fun s hs => ?_
    split
    · exact follows_modify fun _ => rfl
    · exact follows_get.bind fun s hs => (follows_scalarAt hs i).bind fun _ _ =>
        follows_modify fun _ => rfl

theorem follows_meetEntry (entry : NodeEntry) : Follows g (meetEntry entry) fun _ => True := by
  unfold meetEntry
  refine (follows_meet entry.1).bind fun _ _ => follows_get.bind fun s hs => ?_
  dsimp only
  split
  · exact follows_meet entry.2
  · exact (follows_throw fun _ => True).bind fun _ _ => follows_meet entry.2

theorem follows_settle (i : NodeId) : Follows g (settle i) fun _ => True := by
  unfold settle
  refine follows_get.bind fun s hs => ?_
  have hsettle := Graph.settles_settle (s.merges + 1) (Host.room .merges) [] i s.graph
  generalize Graph.settle _ _ [] i s.graph = read at hsettle
  have hread : Follows g (read : SurveyM Graph) g.Settles := by
    refine follows_lift (fun g' hg' => ?_) fun e he => ?_
    · rw [hg'] at hsettle
      exact hs.trans hsettle
    · rw [he] at hsettle
      exact .inl hsettle
  exact hread.bind fun g' hg' => follows_set hg'

theorem follows_enter (i : NodeId) : Follows g (enter i) fun _ => True := by
  unfold enter
  refine follows_get.bind fun s hs => ?_
  split
  · exact follows_forM follows_meet _
  · refine follows_forM (fun item => follows_get.bind fun s hs => ?_) _
    split
    · exact (follows_meet _).bind fun _ _ => follows_meet _
    · exact follows_throw _
  · exact (follows_settle i).bind fun _ _ => follows_get.bind fun s hs =>
      follows_forM follows_meetEntry _
  · exact (follows_settle i).bind fun _ _ => follows_get.bind fun s hs =>
      follows_forM follows_meetEntry _
  · exact follows_throw _

/-! ### A whole survey -/

theorem follows_enterAll (bound : Nat) : Follows g (enterAll bound) fun _ => True := by
  induction bound with
  | zero => exact follows_pure trivial
  | succ bound ih =>
    rw [enterAll]
    exact follows_get.bind fun s hs => (follows_modify fun _ => by rfl).bind fun _ _ =>
      (follows_forM follows_enter _).bind fun _ _ => ih

/-- A survey that fails has met a layout that it cannot go through, or a scalar without a value. -/
theorem valueless_of_of {root : NodeId} {e : ReadError} (h : Survey.of g root = .error e) :
    e.OfLayout ∨ g.Valueless e := by
  have hsurvey : Follows g (do meet root; enterAll g.size) fun _ => True :=
    (follows_meet root).bind fun _ _ => follows_enterAll g.size
  unfold Survey.of at h
  dsimp only at h
  rcases bind_eq_error.mp h with hrun | ⟨_, -, h⟩
  · have hstart := hsurvey
      { graph := g, merges := g.merges, scalars := Array.replicate g.size none,
        met := Array.replicate g.size false } (.refl g)
    rw [hrun] at hstart
    exact hstart
  · cases h

end Survey

/-! ### Reading a text -/

variable [Host] {t : Text} {e : ReadError}

theorem survey?_eq_error_iff :
    survey? t = .error e ↔
      document t = .error .malformed ∧ e = .malformed ∨
      document t = .error .tooDeep ∧ e = .tooDeep ∨
      (∃ code, document t = .error (.noCharacter code) ∧ e = .noCharacter code) ∨
      ∃ g root, document t = .ok (some (g, root)) ∧ Survey.of g root = .error e := by
  unfold survey?
  cases hdocument : document t with
  | error refusal =>
    cases refusal with
    | malformed => simp [eq_comm]
    | tooDeep => simp [eq_comm]
    | noCharacter code => simp [eq_comm]
  | ok found =>
    cases found with
    | none => simp
    | some found =>
      obtain ⟨g, root⟩ := found
      have hsurvey : (Survey.of g root >>= fun s => pure (some (s, root))) = .error e ↔
          Survey.of g root = .error e :=
        bind_eq_error.trans (or_iff_left fun ⟨_, _, h⟩ => by cases h)
      simp only [hsurvey, reduceCtorEq, false_and, exists_false, false_or, Except.ok.injEq,
        Option.some.injEq, Prod.mk.injEq]
      constructor
      · exact fun h => ⟨g, root, ⟨rfl, rfl⟩, h⟩
      · rintro ⟨_, _, ⟨rfl, rfl⟩, h⟩
        exact h

/-- Putting the values together never fails. -/
theorem read_eq_error_iff {turns : Nat} : read turns t = .error e ↔ survey? t = .error e := by
  refine bind_eq_error.trans (or_iff_left fun ⟨found, _, h⟩ => ?_)
  cases found <;> cases h

theorem readParts_eq_error_iff : readParts t = .error e ↔ survey? t = .error e := by
  refine bind_eq_error.trans (or_iff_left fun ⟨found, _, h⟩ => ?_)
  cases found with
  | none => cases h
  | some found =>
    dsimp only at h
    split at h <;> cases h

end HttpSnippet.Yaml

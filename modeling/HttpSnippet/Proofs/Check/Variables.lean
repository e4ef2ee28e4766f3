import HttpSnippet.Proofs.Check.Steady
import HttpSnippet.Proofs.Json.WellFormed

/-!
# Variables given as data

The variables of a GraphQL body may be given as an array or an object, and are then written as JSON.
Writing goes through the data in its order and stops at the first integer that is too long, or at
the first collection for which there is no room.
-/
namespace HttpSnippet

/-- Arrays and objects. -/
def Json.IsCollection : Json → Prop
  | .arr _ | .obj _ => True
  | _ => False

namespace Json

/-- Every integer in a value can be written. -/
inductive Writable : Json → Prop where
  | null : Writable .null
  | bool (b : Bool) : Writable (.bool b)
  | int {n : Int} (hn : Value.writable n = true) : Writable (.int n)
  | float (x : Binary64) : Writable (.float x)
  | str (t : Text) : Writable (.str t)
  | arr {items : List Json} (h : ∀ v ∈ items, Writable v) : Writable (.arr items)
  | obj {members : List (Text × Json)} (h : ∀ v ∈ members.map (·.2), Writable v) :
      Writable (.obj members)

mutual
/-- A value has a collection for which there is no room, and before it only integers that can be
written. -/
inductive Overruns : Nat → Json → Prop where
  | array (items : List Json) : Overruns 0 (.arr items)
  | object (members : List (Text × Json)) : Overruns 0 (.obj members)
  | item {room : Nat} {items : List Json} (h : ItemsOverrun room items) :
      Overruns (room + 1) (.arr items)
  | member {room : Nat} {members : List (Text × Json)}
      (h : ItemsOverrun room (members.map (·.2))) : Overruns (room + 1) (.obj members)

inductive ItemsOverrun : Nat → List Json → Prop where
  | first {room : Nat} {v : Json} (h : Overruns room v) (vs : List Json) :
      ItemsOverrun room (v :: vs)
  | next {room : Nat} {v : Json} {vs : List Json} (hv : v.Writable) (h : ItemsOverrun room vs) :
      ItemsOverrun room (v :: vs)
end

theorem Overruns.isCollection {room : Nat} {v : Json} (h : Overruns room v) : v.IsCollection := by
  cases h <;> trivial

theorem WellFormed.writable {v : Json} (h : v.WellFormed) : v.Writable := by
  induction h with
  | null => exact .null
  | bool b => exact .bool b
  | int hn => exact .int hn
  | float _ => exact .float _
  | str t => exact .str t
  | arr _ ih => exact .arr ih
  | obj _ _ ih => exact .obj (List.forall_mem_map.mpr ih)

theorem writable_arr {items : List Json} : (arr items).Writable ↔ ∀ v ∈ items, v.Writable :=
  ⟨fun | .arr h => h, .arr⟩

theorem writable_obj {members : List (Text × Json)} :
    (obj members).Writable ↔ ∀ v ∈ members.map (·.2), v.Writable :=
  ⟨fun | .obj h => h, .obj⟩

theorem overruns_arr {room : Nat} {items : List Json} :
    Overruns (room + 1) (.arr items) ↔ ItemsOverrun room items :=
  ⟨fun | .item h => h, .item⟩

theorem overruns_obj {room : Nat} {members : List (Text × Json)} :
    Overruns (room + 1) (.obj members) ↔ ItemsOverrun room (members.map (·.2)) :=
  ⟨fun | .member h => h, .member⟩

theorem itemsOverrun_cons {room : Nat} {v : Json} {vs : List Json} :
    ItemsOverrun room (v :: vs) ↔ Overruns room v ∨ v.Writable ∧ ItemsOverrun room vs :=
  ⟨fun | .first h _ => .inl h | .next hv h => .inr ⟨hv, h⟩,
    fun | .inl h => .first h _ | .inr ⟨hv, h⟩ => .next hv h⟩

end Json

namespace Value

/-- How writing comes out: with the data, or with what is met first of the two things that stop
it. -/
inductive Written {α : Type} (a : α) (writable overruns : Prop) : Except JsonFault α → Prop where
  | whole (hwritable : writable) (hroom : ¬overruns) : Written a writable overruns (.ok a)
  | numeral (hwritable : ¬writable) (hroom : ¬overruns) :
      Written a writable overruns (.error .numeralTooLong)
  | room (hroom : overruns) : Written a writable overruns (.error .tooDeep)

namespace Written

variable {α β γ : Type} {a : α} {b : β} {P P' Q Q' : Prop}

theorem congr {x : Except JsonFault α} (h : Written a P Q x) (hP : P ↔ P') (hQ : Q ↔ Q') :
    Written a P' Q' x := by
  rwa [propext hP, propext hQ] at h

theorem map {x : Except JsonFault α} (f : α → β) (h : Written a P Q x) :
    Written (f a) P Q (x >>= fun a => pure (f a)) := by
  cases h with
  | whole hwritable hroom => exact .whole hwritable hroom
  | numeral hwritable hroom => exact .numeral hwritable hroom
  | room hroom => exact .room hroom

/-- The second part is written only if nothing stops the writing of the first. -/
theorem seq {x : Except JsonFault α} {y : Except JsonFault β} (f : α → β → γ)
    (hx : Written a P Q x) (hy : Written b P' Q' y) :
    Written (f a b) (P ∧ P') (Q ∨ P ∧ Q') (x >>= fun a => y >>= fun b => pure (f a b)) := by
  cases hx with
  | whole hP hQ =>
    cases hy with
    | whole hP' hQ' => exact .whole ⟨hP, hP'⟩ (by simp [hQ, hQ'])
    | numeral hP' hQ' => exact .numeral (fun h => hP' h.2) (by simp [hQ, hQ'])
    | room hQ' => exact .room (.inr ⟨hP, hQ'⟩)
  | numeral hP hQ => exact .numeral (fun h => hP h.1) (by simp [hQ, hP])
  | room hQ => exact .room (.inl hQ)

end Written

theorem written_items {room : Nat} {items : List Json}
    (h : ∀ v ∈ items, Written v v.Writable (v.Overruns room) (toJson room (ofJson v))) :
    Written items (∀ v ∈ items, v.Writable) (Json.ItemsOverrun room items)
      (toJsonItems room (ofJsonItems items)) := by
  induction items with
  | nil => exact .whole (by simp) nofun
  | cons v vs ih =>
    obtain ⟨hv, hvs⟩ := List.forall_mem_cons.mp h
    rw [ofJsonItems, toJsonItems]
    exact (hv.seq List.cons (ih hvs)).congr List.forall_mem_cons.symm Json.itemsOverrun_cons.symm

theorem written_members {room : Nat} {members : List (Text × Json)}
    (h : ∀ m ∈ members, Written m.2 m.2.Writable (m.2.Overruns room) (toJson room (ofJson m.2))) :
    Written members (∀ v ∈ members.map (·.2), v.Writable)
      (Json.ItemsOverrun room (members.map (·.2)))
      (toJsonMembers room (ofJsonMembers members)) := by
  induction members with
  | nil => exact .whole (by simp) nofun
  | cons m ms ih =>
    obtain ⟨k, v⟩ := m
    obtain ⟨hv, hms⟩ := List.forall_mem_cons.mp h
    rw [ofJsonMembers, toJsonMembers]
    exact ((Written.seq (fun v ms => (k, v) :: ms) hv (ih hms)).congr List.forall_mem_cons.symm
      Json.itemsOverrun_cons.symm)

mutual
/-- JSON data is written as itself. -/
theorem written_toJson : ∀ (room : Nat) (v : Json),
    Written v v.Writable (v.Overruns room) (toJson room (ofJson v))
  | _, .null => .whole .null nofun
  | _, .bool b => .whole (.bool b) nofun
  | _, .float x => .whole (.float x) nofun
  | _, .str t => .whole (.str t) nofun
  | _, .int n => by
    rw [ofJson, toJson]
    split
    · next hn => exact .whole (.int hn) nofun
    · next hn => exact .numeral (fun | .int h => hn h) nofun
  | 0, .arr items => .room (.array items)
  | 0, .obj members => .room (.object members)
  | room + 1, .arr items =>
    ((written_items (written_toJson_items room items)).map Json.arr).congr Json.writable_arr.symm
      Json.overruns_arr.symm
  | room + 1, .obj members =>
    ((written_members (written_toJson_members room members)).map Json.obj).congr
      Json.writable_obj.symm Json.overruns_obj.symm

theorem written_toJson_items (room : Nat) : ∀ items : List Json,
    ∀ v ∈ items, Written v v.Writable (v.Overruns room) (toJson room (ofJson v))
  | [] => by simp
  | v :: vs =>
    List.forall_mem_cons.mpr ⟨written_toJson room v, written_toJson_items room vs⟩

theorem written_toJson_members (room : Nat) : ∀ members : List (Text × Json),
    ∀ m ∈ members, Written m.2 m.2.Writable (m.2.Overruns room) (toJson room (ofJson m.2))
  | [] => by simp
  | (_, v) :: ms =>
    List.forall_mem_cons.mpr ⟨written_toJson room v, written_toJson_members room ms⟩
end

end Value

namespace Reading

variable [Host]

/-- An array or an object is written. -/
theorem graphqlVariables_collection {w : Json} (hc : w.IsCollection) :
    graphqlVariables (.ofJson w) =
      match (Value.ofJson w).toJson (Host.room .givenVariables) with
      | .ok json => .valid (json.write .spaced true)
      | .error .noForm => .broken .wrongKind
      | .error .tooDeep => .broken (.tooDeep .writing)
      | .error .numeralTooLong => .issue .unwritableInteger
      | .error .endless => .issue .endlessData := by
  cases w with
  | arr items => rfl
  | obj members => rfl
  | null | bool _ | int _ | float _ | str _ => exact hc.elim

/-- Only data with a collection for which there is no room breaks the reading off. -/
theorem fault?_graphqlVariables {j : Json} {fault : Fault} :
    (graphqlVariables (.ofJson j)).fault? = some fault ↔
      j.Overruns (Host.room .givenVariables) ∧ fault = .tooDeep .writing := by
  have hscalar (hsteady : (graphqlVariables (.ofJson j)).fault? = none)
      (hfits : ¬j.Overruns (Host.room .givenVariables)) :
      (graphqlVariables (.ofJson j)).fault? = some fault ↔
        j.Overruns (Host.room .givenVariables) ∧ fault = .tooDeep .writing := by
    simp [hsteady, hfits]
  have hcollection (hc : j.IsCollection) : (graphqlVariables (.ofJson j)).fault? = some fault ↔
      j.Overruns (Host.room .givenVariables) ∧ fault = .tooDeep .writing := by
    have hwritten := Value.written_toJson (Host.room .givenVariables) j
    rw [graphqlVariables_collection hc]
    generalize Value.toJson (Host.room .givenVariables) (.ofJson j) = x at hwritten ⊢
    cases hwritten with
    | whole _ hfits => simp [hfits]
    | numeral _ hfits => simp [hfits]
    | room hdeep => simp [hdeep, eq_comm]
  cases j with
  | arr items => exact hcollection trivial
  | obj members => exact hcollection trivial
  | null | bool _ | int _ | float _ | str _ => exact hscalar rfl fun h => h.isCollection

end Reading
end HttpSnippet

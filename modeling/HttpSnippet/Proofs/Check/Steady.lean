import HttpSnippet.Check.Request

/-!
# Readings that are never broken off

A fault of a part breaks off the reading of the whole, and the first one counts. The scalars of a
request, its lists and most of its models have no faults, whatever value they are read from: these
readings end with a result or with issues.
-/
namespace HttpSnippet

namespace Checked

variable {α β : Type}

/-- The fault by which a reading is broken off. -/
def fault? : Checked α → Option Fault
  | .broken fault => some fault
  | _ => none

@[simp] theorem fault?_valid (a : α) : (Checked.valid a).fault? = none := rfl

@[simp] theorem fault?_broken (fault : Fault) :
    (Checked.broken fault : Checked α).fault? = some fault := rfl

@[simp] theorem fault?_invalid (issues : List Issue) :
    (Checked.invalid issues : Checked α).fault? = none := rfl

@[simp] theorem fault?_issue (cause : Cause) : (issue cause : Checked α).fault? = none := rfl

@[simp] theorem fault?_map (f : α → β) (x : Checked α) : (x.map f).fault? = x.fault? := by
  cases x <;> rfl

@[simp] theorem fault?_under (step : Step) (x : Checked α) : (x.under step).fault? = x.fault? := by
  cases x <;> rfl

/-- Of two faults the first one counts, and no issue takes precedence over a fault. -/
@[simp] theorem fault?_and (x : Checked α) (y : Checked β) :
    (x.and y).fault? = x.fault?.or y.fault? := by
  cases x <;> cases y <;> rfl

@[simp] theorem fault?_seq (f : Checked (α → β)) (x : Checked α) :
    (f <*> x).fault? = f.fault?.or x.fault? := by
  cases f <;> cases x <;> rfl

@[simp] theorem fault?_functor_map (f : α → β) (x : Checked α) :
    (f <$> x).fault? = x.fault? := by
  cases x <;> rfl

@[simp] theorem fault?_ofScalar (x : Except Cause α) : (ofScalar x).fault? = none := by
  cases x <;> rfl

end Checked

namespace Reading

open Checked

variable {α : Type} {reading : Reading α}

/-- A reading that no value breaks off. -/
def Steady (reading : Reading α) : Prop := ∀ v, (reading v).fault? = none

@[simp] theorem steady_string : string.Steady := fun _ => fault?_ofScalar _

@[simp] theorem Steady.nullable (h : reading.Steady) : (nullable reading).Steady := by
  intro v
  unfold Reading.nullable
  split
  · rfl
  · rw [fault?_map, h]

theorem fault?_itemsFrom (h : reading.Steady) (n : Nat) (vs : List Value) :
    (itemsFrom reading n vs).fault? = none := by
  induction vs generalizing n with
  | nil => rfl
  | cons v vs ih => rw [itemsFrom, fault?_map, fault?_and, fault?_under, h, ih, Option.or_none]

@[simp] theorem Steady.list (h : reading.Steady) : (list reading).Steady := by
  intro v
  unfold Reading.list
  split
  · exact fault?_itemsFrom h 0 _
  · exact fault?_itemsFrom h 0 _
  · rfl

@[simp] theorem steady_oneOf (all : List α) (name : α → Text) : (oneOf all name).Steady := by
  intro v
  unfold oneOf
  split <;> rfl

theorem fault?_boolOfInt (n : Int) : (boolOfInt n).fault? = none := by
  unfold boolOfInt
  repeat' split
  all_goals rfl

theorem fault?_boolOfWord (t : Text) : (boolOfWord t).fault? = none := by
  unfold boolOfWord
  split <;> rfl

@[simp] theorem steady_bool : bool.Steady := by
  intro v
  unfold bool
  split
  · rfl
  · exact fault?_boolOfWord _
  · split
    · exact fault?_boolOfWord _
    · rfl
  · exact fault?_boolOfInt _
  · split
    · exact fault?_boolOfInt _
    · rfl
  · rfl

@[simp] theorem steady_valid : Steady Checked.valid := fun _ => rfl

theorem steady_mapping {model : Text} {reading : Fields → Checked α}
    (h : ∀ fields, (reading fields).fault? = none) : (mapping model reading).Steady := by
  intro v
  unfold mapping
  split
  · exact h _
  · rfl

end Reading

namespace Fields

open Checked

variable {α : Type} {reading : Reading α} {fields : Fields} {name : Text}

/-- A field that may be missing breaks a reading off as its value does. -/
theorem fault?_optional (fields : Fields) (name : Text) (default : α) (reading : Reading α) :
    (fields.optional name default reading).fault? =
      (fields.get? name).bind fun v => (reading v).fault? := by
  unfold Fields.optional optionalAs first?
  rw [List.findSome?_cons, List.findSome?_nil]
  cases fields.get? name with
  | none => rfl
  | some v => exact fault?_under _ _

@[simp] theorem fault?_required (h : reading.Steady) :
    (fields.required name reading).fault? = none := by
  unfold required
  split
  · rw [fault?_under, h]
  · rfl

@[simp] theorem fault?_optionalAs (names : List Text) (default : α) (h : reading.Steady) :
    (fields.optionalAs names default reading).fault? = none := by
  unfold optionalAs
  split
  · rw [fault?_under, h]
  · rfl

@[simp] theorem fault?_optional_of_steady (default : α) (h : reading.Steady) :
    (fields.optional name default reading).fault? = none :=
  fault?_optionalAs [name] default h

end Fields

/-! ### The models of a request -/

namespace Reading

@[simp] theorem steady_queryParam : queryParam.Steady := steady_mapping fun _ => by simp

@[simp] theorem steady_urlVariable : urlVariable.Steady := steady_mapping fun _ => by simp

@[simp] theorem steady_header : header.Steady := steady_mapping fun _ => by simp

@[simp] theorem steady_urlencodedParam : urlencodedParam.Steady := steady_mapping fun _ => by simp

@[simp] theorem steady_formParam : formParam.Steady := steady_mapping fun _ => by simp

@[simp] theorem steady_fileSource : fileSource.Steady := steady_mapping fun _ => by simp

@[simp] theorem steady_host : host.Steady := by
  intro v
  unfold host
  split
  · rfl
  · exact steady_string.list _

@[simp] theorem steady_path : path.Steady := by
  intro v
  unfold path
  split
  · rfl
  · exact steady_string.list _

@[simp] theorem steady_port : port.Steady := by
  intro v
  unfold port
  split
  · split <;> rfl
  · rfl
  · exact steady_string.nullable _

@[simp] theorem steady_method : method.Steady := by
  intro v
  unfold method
  split
  · rfl
  · exact steady_string _

@[simp] theorem steady_url : url.Steady := steady_mapping fun _ => by simp [urlFields]

end Reading
end HttpSnippet

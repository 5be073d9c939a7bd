import Mathlib.Data.List.Nodup
import NewsService.Pipeline.Join
import NewsService.Proofs.Document.Fields
import NewsService.Proofs.Record.Decode
import NewsService.Proofs.Record.Embedded

/-!
# Joins and schemas

The joins of a kind and the schema of its records are two tables about the same fields. Here they
are compared entry by entry: every join leads from a field of the schema to the record type that the
field refers to, a single reference is a join whose result is taken out of its list, and no two
joins share a field. What a decoded document holds in the field of a join follows.
-/

namespace NewsService

namespace Join

/-- The type that a field must have for its references to be joined. -/
def fieldType (j : Join) : FieldType :=
  match j.shape with
  | .one => .reference j.collection.recordType
  | .many | .nested _ => .references j.collection.recordType

/-- Whether a join is about a field of a record type, and expands what it joins as records of its
own collection. -/
def agrees (type : RecordType) (j : Join) : Bool :=
  (type.field? j.field).any (fun field => field.type == j.fieldType) &&
    j.nestedKind?.all fun kind => kind.collection == j.collection

/-- What the field of a join may hold for the join to be possible: no list where one reference is
expected, and a list or nothing where the items are handed to a pipeline. -/
def Fits (j : Join) (stored : Value) : Prop :=
  match j.shape with
  | .one => ∀ items, stored ≠ .array items
  | .many => True
  | .nested _ => stored = .null ∨ ∃ items, stored = .array items

end Join

/-! ## The tables -/

namespace Kind

/-- All joins of a kind. -/
def allJoins (kind : Kind) : List Join :=
  kind.joinGraph.joins .full

theorem allJoins_agree (kind : Kind) : ∀ j ∈ kind.allJoins, j.agrees kind.recordType = true := by
  cases kind <;> decide

theorem nodup_fields (kind : Kind) : (kind.allJoins.map Join.field).Nodup := by
  cases kind <;> decide

theorem idKey_not_joined (kind : Kind) : idKey ∉ kind.allJoins.map Join.field := by
  cases kind <;> decide

theorem fields_not_reserved (kind : Kind) :
    ∀ j ∈ kind.allJoins, isReserved j.field = false := by
  cases kind <;> decide

theorem joins_sublist (kind : Kind) (expansion : Expansion) :
    (kind.joinGraph.joins expansion).Sublist kind.allJoins := by
  cases expansion with
  | summary => exact List.sublist_append_left _ _
  | full => exact List.Sublist.refl _

theorem nestedJoins_sublist (kind : Kind) (remaining : Nat) :
    (kind.nestedJoins remaining).Sublist kind.allJoins :=
  List.Sublist.append (List.Sublist.refl _) List.filter_sublist

end Kind

/-! ## What decoded documents hold -/

namespace Join

variable {type : RecordType} {j : Join}

theorem field_of_agrees (h : j.agrees type = true) :
    ∃ field ∈ type.fields, field.key = j.field ∧ field.type = j.fieldType := by
  rw [agrees, Bool.and_eq_true, Option.any_eq_true] at h
  obtain ⟨⟨field, hfield, htype⟩, -⟩ := h
  obtain ⟨hmem, hkey⟩ := RecordType.mem_of_field? hfield
  exact ⟨field, hmem, hkey, by simpa using htype⟩

theorem type_of_agrees (h : j.agrees type = true) {field : Field FieldType}
    (hfield : field ∈ type.fields) (hkey : field.key = j.field) : field.type = j.fieldType := by
  obtain ⟨other, hother, hotherKey, htype⟩ := field_of_agrees h
  have hfound := RecordType.field?_of_mem field hfield
  rw [hkey, ← hotherKey, RecordType.field?_of_mem other hother] at hfound
  rw [← Option.some.inj hfound, htype]

theorem collection_of_agrees {kind : Kind} (h : j.agrees type = true)
    (hshape : j.shape = .nested kind) : j.collection = kind.collection := by
  rw [agrees, Bool.and_eq_true] at h
  have hall := h.2
  rw [nestedKind?, hshape] at hall
  have heq : kind.collection = j.collection := by simpa using hall
  exact heq.symm

end Join

/-- A list is no reference. -/
theorem Related.decode_array (target : RecordType) (items : List Value) (r : Related) :
    Related.decode target (.array items) ≠ .ok r := by
  intro h
  rw [Related.decode, Value.resolve] at h
  cases hitems : Value.resolveItems items with
  | error e => simp [hitems, bind, Except.bind] at h
  | ok resolved => simp [hitems, bind, Except.bind, pure, Except.pure, Related.ofResolved] at h

/-- A value that can be read as the field of a join can be joined. -/
theorem Join.fits_of_decode {j : Join} {v : Value} {content : Content}
    (h : Content.decode j.fieldType v = .ok content) : j.Fits v := by
  rw [Join.Fits]
  cases hshape : j.shape with
  | one =>
    rintro items rfl
    rw [Join.fieldType, hshape, Content.decode] at h
    · cases hr : Related.decode j.collection.recordType (.array items) with
      | ok r => exact Related.decode_array _ _ _ hr
      | error e => simp [hr] at h
    · simp
  | many => trivial
  | nested kind =>
    rw [Join.fieldType, hshape] at h
    cases v with
    | null => exact Or.inl rfl
    | array items => exact Or.inr ⟨items, rfl⟩
    | _ => simp [Content.decode] at h

/-- A document without faults can be joined in the field of any join. -/
theorem Join.fits_of_faultless {type : RecordType} {j : Join} {d : Document}
    (hj : j.agrees type = true) (hd : ∀ entry ∈ d, type.fault? entry = none) :
    j.Fits (d.valueAt j.field) := by
  obtain ⟨field, hmem, hkey, htype⟩ := field_of_agrees hj
  have hread := Record.readField_of_faultless hd hmem
  rw [htype, hkey] at hread
  rw [Document.valueAt]
  cases hlookup : d.lookup j.field with
  | none =>
    have hnull : Content.decode j.fieldType .null = .ok j.fieldType.default := rfl
    exact fits_of_decode hnull
  | some v =>
    rw [hlookup] at hread
    exact fits_of_decode hread

end NewsService

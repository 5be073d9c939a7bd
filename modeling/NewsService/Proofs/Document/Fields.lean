import Mathlib.Data.List.Nodup
import NewsService.Document.Value

/-!
# Fields of a document

What setting and dropping fields does to the other fields: each key keeps its value unless it is the
key in question. Documents that are made along a table with distinct keys hold what its entries give
them.
-/

namespace NewsService

/-- The first entry decides a lookup if it has the key. -/
theorem lookup_cons_ite {α : Type} (entry : String × α) (rest : List (String × α)) (k : String) :
    (entry :: rest).lookup k = if k = entry.1 then some entry.2 else rest.lookup k := by
  obtain ⟨key, a⟩ := entry
  by_cases hk : k = key
  · simp [hk]
  · simp [List.lookup_cons, beq_false_of_ne hk, hk]

/-- The items of an array. -/
def Value.items : Value → List Value
  | .array items => items
  | _ => []

namespace Document

/-- The value under a key; null for a missing field. -/
def valueAt (d : Document) (key : String) : Value :=
  (d.lookup key).getD .null

/-- Drops the fields with the given keys. -/
def without (keys : List String) (d : Document) : Document :=
  d.filter fun field => !keys.contains field.1

theorem valueAt_congr {d d' : Document} {key : String} (h : d.lookup key = d'.lookup key) :
    valueAt d key = valueAt d' key := by
  rw [valueAt, h, valueAt]

@[simp]
theorem lookup_insert (key : String) (v : Value) (d : Document) (k : String) :
    (insert key v d).lookup k = if k = key then some v else d.lookup k := by
  induction d with
  | nil => rw [insert, lookup_cons_ite]
  | cons field rest ih =>
    by_cases hfield : field.1 = key
    · rw [insert, if_pos hfield, lookup_cons_ite, lookup_cons_ite, hfield]
      split <;> rfl
    · rw [insert, if_neg hfield, lookup_cons_ite, lookup_cons_ite, ih]
      by_cases hk : k = field.1
      · have hne : ¬ k = key := fun h => hfield (hk.symm.trans h)
        rw [if_pos hk, if_neg hne, if_pos hk]
      · rw [if_neg hk, if_neg hk]

/-- Setting a field brings in no other entry. -/
theorem mem_insert {key : String} {v : Value} {d : Document} {entry : String × Value}
    (h : entry ∈ insert key v d) : entry = (key, v) ∨ entry ∈ d := by
  induction d with
  | nil => exact Or.inl (List.mem_singleton.1 h)
  | cons field rest ih =>
    by_cases hfield : field.1 = key
    · rw [insert, if_pos hfield] at h
      rcases List.mem_cons.1 h with h | h
      · exact Or.inl h
      · exact Or.inr (List.mem_cons_of_mem _ h)
    · rw [insert, if_neg hfield] at h
      rcases List.mem_cons.1 h with h | h
      · exact Or.inr (h ▸ List.mem_cons_self)
      · rcases ih h with h | h
        · exact Or.inl h
        · exact Or.inr (List.mem_cons_of_mem _ h)

/-- Of two values for one key the later one counts. -/
theorem insert_insert (key : String) (v w : Value) (d : Document) :
    insert key w (insert key v d) = insert key w d := by
  induction d with
  | nil => simp [insert]
  | cons field rest ih =>
    by_cases hfield : field.1 = key
    · simp [insert, hfield]
    · simp [insert, hfield, ih]

/-- What a lookup finds is an entry. -/
theorem mem_of_lookup {d : Document} {key : String} {v : Value} (h : d.lookup key = some v) :
    (key, v) ∈ d := by
  obtain ⟨before, after, rfl, -⟩ := List.lookup_eq_some_iff.1 h
  simp

theorem exists_lookup_iff {d : Document} {key : String} :
    (∃ v, d.lookup key = some v) ↔ ∃ v, (key, v) ∈ d := by
  constructor
  · rintro ⟨v, hv⟩
    exact ⟨v, mem_of_lookup hv⟩
  · rintro ⟨v, hv⟩
    rw [← Option.isSome_iff_exists, List.lookup_isSome_iff]
    exact ⟨(key, v), hv, by simp⟩

/-- When keys are distinct, the entry with a key is the one that is found. -/
theorem lookup_eq_some_iff_mem {α : Type} {d : List (String × α)} (h : (d.map Prod.fst).Nodup)
    {key : String} {v : α} :
    d.lookup key = some v ↔ (key, v) ∈ d := by
  induction d with
  | nil => simp
  | cons entry rest ih =>
    rw [List.map_cons, List.nodup_cons] at h
    rw [lookup_cons_ite, List.mem_cons]
    by_cases hkey : key = entry.1
    · have hrest : (key, v) ∉ rest := fun hmem =>
        h.1 (hkey ▸ List.mem_map_of_mem hmem)
      rw [if_pos hkey, Option.some.injEq]
      constructor
      · rintro rfl
        exact Or.inl (Prod.ext hkey rfl)
      · rintro (rfl | hmem)
        · rfl
        · exact absurd hmem hrest
    · rw [if_neg hkey, ih h.2]
      constructor
      · exact Or.inr
      · rintro (rfl | hmem)
        · exact absurd rfl hkey
        · exact hmem

theorem lookup_eq_of_perm {d d' : Document} (hnodup : (d.map Prod.fst).Nodup) (h : d'.Perm d)
    (key : String) : d'.lookup key = d.lookup key := by
  have hnodup' : (d'.map Prod.fst).Nodup := (h.map Prod.fst).nodup_iff.2 hnodup
  refine Option.ext fun v => ?_
  rw [lookup_eq_some_iff_mem hnodup, lookup_eq_some_iff_mem hnodup', h.mem_iff]

@[simp]
theorem lookup_without (keys : List String) (d : Document) (k : String) :
    (without keys d).lookup k = if k ∈ keys then none else d.lookup k := by
  induction d with
  | nil => simp [without]
  | cons field rest ih =>
    rw [without] at ih ⊢
    by_cases hfield : field.1 ∈ keys
    · rw [List.filter_cons_of_neg (by simp [hfield]), ih, lookup_cons_ite]
      by_cases hk : k ∈ keys
      · rw [if_pos hk, if_pos hk]
      · have hne : k ≠ field.1 := fun h => hk (h ▸ hfield)
        rw [if_neg hk, if_neg hk, if_neg hne]
    · rw [List.filter_cons_of_pos (by simp [hfield]), lookup_cons_ite, lookup_cons_ite, ih]
      by_cases hk : k = field.1
      · rw [if_pos hk, if_neg (hk ▸ hfield), if_pos hk]
      · rw [if_neg hk, if_neg hk]

theorem mem_of_mem_without {keys : List String} {d : Document} {entry : String × Value}
    (h : entry ∈ without keys d) : entry ∈ d :=
  (List.mem_filter.1 h).1

/-- A field that is dropped may as well be set before. -/
theorem without_insert {keys : List String} {key : String} (h : key ∈ keys) (v : Value)
    (d : Document) : without keys (insert key v d) = without keys d := by
  induction d with
  | nil => simp [without, insert, h]
  | cons field rest ih =>
    rw [without] at ih ⊢
    by_cases hfield : field.1 = key
    · rw [insert, if_pos hfield, without, List.filter_cons_of_neg (by simp [h]),
        List.filter_cons_of_neg (by simp [hfield, h])]
    · rw [insert, if_neg hfield, List.filter_cons, ih, without, without, List.filter_cons]

/-- A field that is dropped may as well be dropped twice. -/
theorem without_without {keys : List String} {key : String} (h : key ∈ keys) (d : Document) :
    without keys (without [key] d) = without keys d := by
  rw [without, without, List.filter_filter, without]
  refine List.filter_congr fun field _ => ?_
  by_cases hfield : field.1 = key
  · simp [hfield, h]
  · simp [hfield]

end Document

/-! ## Lists made along a table -/

/-- The keys of what a table puts into a list are those of the table, some left out. -/
theorem map_filterMap_keyed_sublist {α β : Type} (key : α → String) (f : α → Option β)
    (table : List α) :
    ((table.filterMap fun a => (f a).map fun b => (key a, b)).map Prod.fst).Sublist
      (table.map key) := by
  induction table with
  | nil => exact .refl _
  | cons a rest ih =>
    rw [List.filterMap_cons, List.map_cons]
    cases f a with
    | none => exact ih.cons _
    | some b => exact ih.cons_cons _

/-- What an entry of a table with distinct keys puts into a list is found there under its key. -/
theorem lookup_filterMap_keyed {α β : Type} (key : α → String) {table : List α}
    (hkeys : (table.map key).Nodup) (f : α → Option β) {a : α} (ha : a ∈ table) :
    (table.filterMap fun a => (f a).map fun b => (key a, b)).lookup (key a) = f a := by
  have hnodup := hkeys.sublist (map_filterMap_keyed_sublist key f table)
  refine Option.ext fun b => ?_
  rw [Document.lookup_eq_some_iff_mem hnodup, List.mem_filterMap]
  constructor
  · rintro ⟨other, hother, h⟩
    obtain ⟨b', hb', hpair⟩ := Option.map_eq_some_iff.1 h
    obtain ⟨hkey, rfl⟩ := Prod.mk.inj hpair
    rw [← hb', List.inj_on_of_nodup_map hkeys hother ha hkey]
  · intro hb
    exact ⟨a, ha, by rw [hb]; rfl⟩

/-- What the entries of a table with distinct keys put into a list can be read off the list. -/
theorem filterMap_keyed_inj {α β : Type} (key : α → String) {table : List α}
    (hkeys : (table.map key).Nodup) (f g : α → Option β) :
    (table.filterMap fun a => (f a).map fun b => (key a, b)) =
        (table.filterMap fun a => (g a).map fun b => (key a, b)) ↔
      ∀ a ∈ table, f a = g a := by
  constructor
  · intro h a ha
    rw [← lookup_filterMap_keyed key hkeys f ha, h, lookup_filterMap_keyed key hkeys g ha]
  · intro h
    exact List.filterMap_congr fun a ha => by rw [h a ha]

end NewsService

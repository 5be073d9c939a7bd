import Mathlib.Data.List.Forall2
import NewsService.Json
import NewsService.Proofs.Document.Fields

/-!
# Comparing JSON values

JSON values can be compared as they are written, or as what they stand for: the members of an object
are found by their names, in any order, and the two zeros are one number. Both ways see all that a
value holds, and no more of that is used where served values are told apart.
-/

namespace NewsService.Json

mutual

/-- Whether two values are the same up to the order of members and the sign of zeros. -/
inductive Alike : Json → Json → Prop
  | null : Alike .null .null
  | bool (b : Bool) : Alike (.bool b) (.bool b)
  | integer (n : Int) : Alike (.integer n) (.integer n)
  | double {x y : Binary64} (h : x = y ∨ x.mantissa = 0 ∧ y.mantissa = 0) :
      Alike (.double x) (.double y)
  | string (s : String) : Alike (.string s) (.string s)
  | array {items items' : List Json} (h : ItemsAlike items items') :
      Alike (.array items) (.array items')
  | object {members members' : List (String × Json)} (h : MembersAlike members members') :
      Alike (.object members) (.object members')

/-- Whether the items of two arrays are the same, one by one. -/
inductive ItemsAlike : List Json → List Json → Prop
  | nil : ItemsAlike [] []
  | cons {x y : Json} {xs ys : List Json} (h : Alike x y) (hrest : ItemsAlike xs ys) :
      ItemsAlike (x :: xs) (y :: ys)

/-- Whether the members of two objects are the same in some order. -/
inductive MembersAlike : List (String × Json) → List (String × Json) → Prop
  | nil : MembersAlike [] []
  | cons {name : String} {x y : Json} {rest before after : List (String × Json)} (h : Alike x y)
      (hrest : MembersAlike rest (before ++ after)) :
      MembersAlike ((name, x) :: rest) (before ++ (name, y) :: after)

end

/-- Whether a value can be written in one way only. -/
def isAtom : Json → Bool
  | .double _ | .array _ | .object _ => false
  | _ => true

/-- Whether a relation sees all that values hold: it relates doubles to doubles, other values
without parts to themselves, arrays item by item, and objects with distinct names name by name. -/
structure IsComparison (Same : Json → Json → Prop) : Prop where
  atom : ∀ {x y}, Same x y → x.isAtom = true → y = x
  double : ∀ {x y}, Same (.double x) y → ∃ x', y = .double x'
  array : ∀ {items y}, Same (.array items) y →
    ∃ items', y = .array items' ∧ List.Forall₂ Same items items'
  object : ∀ {members y}, Same (.object members) y →
    ∃ members', y = .object members' ∧ ((members.map Prod.fst).Nodup →
      ∀ name x, members.lookup name = some x → ∃ x', members'.lookup name = some x' ∧ Same x x')

theorem isComparison_eq : IsComparison (· = ·) where
  atom := fun h _ => h.symm
  double := fun h => ⟨_, h.symm⟩
  array := by
    rintro items _ rfl
    exact ⟨items, rfl, List.forall₂_same.2 fun _ _ => rfl⟩
  object := by
    rintro members _ rfl
    exact ⟨members, rfl, fun _ _ x hx => ⟨x, hx, rfl⟩⟩

variable {members members' : List (String × Json)}

theorem ItemsAlike.forall₂ : ∀ {xs ys : List Json}, ItemsAlike xs ys → List.Forall₂ Alike xs ys
  | _, _, .nil => .nil
  | _, _, .cons h hrest => .cons h hrest.forall₂

theorem MembersAlike.perm_names :
    ∀ {members members' : List (String × Json)}, MembersAlike members members' →
      (members.map Prod.fst).Perm (members'.map Prod.fst)
  | _, _, .nil => .nil
  | _, _, @MembersAlike.cons name _ _ _ before after _ hrest => by
    have hnames := (hrest.perm_names).cons name
    rw [List.map_append] at hnames
    rw [List.map_cons, List.map_append, List.map_cons]
    exact hnames.trans List.perm_middle.symm

theorem MembersAlike.exists_mem :
    ∀ {members members' : List (String × Json)}, MembersAlike members members' →
      ∀ {name : String} {x : Json}, (name, x) ∈ members → ∃ y, (name, y) ∈ members' ∧ Alike x y
  | _, _, @MembersAlike.cons _ _ _ _ before after h hrest, name, x, hx => by
    rcases List.mem_cons.1 hx with heq | hx
    · obtain ⟨rfl, rfl⟩ := Prod.mk.inj heq
      exact ⟨_, List.mem_append_right _ List.mem_cons_self, h⟩
    · obtain ⟨y, hy, hxy⟩ := hrest.exists_mem hx
      refine ⟨y, ?_, hxy⟩
      rcases List.mem_append.1 hy with hbefore | hafter
      · exact List.mem_append_left _ hbefore
      · exact List.mem_append_right _ (List.mem_cons_of_mem _ hafter)

theorem MembersAlike.exists_lookup (h : MembersAlike members members')
    (hnames : (members.map Prod.fst).Nodup) {name : String} {x : Json}
    (hx : members.lookup name = some x) : ∃ y, members'.lookup name = some y ∧ Alike x y := by
  have hnames' : (members'.map Prod.fst).Nodup := h.perm_names.nodup_iff.1 hnames
  obtain ⟨y, hy, hxy⟩ := h.exists_mem ((Document.lookup_eq_some_iff_mem hnames).1 hx)
  exact ⟨y, (Document.lookup_eq_some_iff_mem hnames').2 hy, hxy⟩

theorem isComparison_alike : IsComparison Alike where
  atom := by
    intro x y h hatom
    cases h with
    | double _ => cases hatom
    | array _ => cases hatom
    | object _ => cases hatom
    | _ => rfl
  double := by
    intro x y h
    cases h with
    | double _ => exact ⟨_, rfl⟩
  array := by
    intro items y h
    cases h with
    | array h => exact ⟨_, rfl, h.forall₂⟩
  object := by
    intro members y h
    cases h with
    | object h => exact ⟨_, rfl, fun hnames name x hx => h.exists_lookup hnames hx⟩

namespace IsComparison

variable {Same : Json → Json → Prop}

/-- What two objects that are the same have under one name is the same. -/
theorem of_lookup (hsame : IsComparison Same) (h : Same (.object members) (.object members'))
    (hnames : (members.map Prod.fst).Nodup) {name : String} {x y : Json}
    (hx : members.lookup name = some x) (hy : members'.lookup name = some y) : Same x y := by
  obtain ⟨found, heq, hlookup⟩ := hsame.object h
  obtain rfl := Json.object.inj heq
  obtain ⟨y', hy', hxy⟩ := hlookup hnames name x hx
  rw [hy] at hy'
  rwa [Option.some.inj hy']

theorem eq_null_iff (hsame : IsComparison Same) {x y : Json} (h : Same x y) :
    x = .null ↔ y = .null := by
  cases x with
  | double x =>
    obtain ⟨x', rfl⟩ := hsame.double h
    exact ⟨nofun, nofun⟩
  | array items =>
    obtain ⟨items', rfl, -⟩ := hsame.array h
    exact ⟨nofun, nofun⟩
  | object members =>
    obtain ⟨members', rfl, -⟩ := hsame.object h
    exact ⟨nofun, nofun⟩
  | _ => rw [hsame.atom h rfl]

end IsComparison

end NewsService.Json

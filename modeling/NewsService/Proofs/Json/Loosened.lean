import NewsService.Json
import NewsService.Proofs.Document.Fields

/-!
# Looser forms of objects

An object whose members may be missing can be written in several ways: members at the value that
they have when they are missing can be left out, members can stand in any order, and members that
nobody knows can be added, in the object and in the objects inside it. Main statement: a reader that
takes missing members for their defaults and passes over other names reads all of these forms alike,
if the readers of the members do.
-/

namespace NewsService.Json

mutual

/-- Whether a value is another one in a looser form. The first argument is written for the value at
which all members may be missing, the second one for the value that is meant. -/
inductive Loosened : Json → Json → Json → Prop
  | same (zero written : Json) : Loosened zero written written
  | object {zeros members kept extra members' : List (String × Json)}
      (h : MembersLoosened zeros members kept)
      (hextra : ∀ entry ∈ extra, entry.1 ∉ members.map Prod.fst)
      (hperm : members'.Perm (kept ++ extra)) :
      Loosened (.object zeros) (.object members) (.object members')

/-- Whether members are those of an object in looser forms, less some that may be missing. -/
inductive MembersLoosened :
    List (String × Json) → List (String × Json) → List (String × Json) → Prop
  | nil : MembersLoosened [] [] []
  | keep {name : String} {zero written found : Json} {zeros members kept : List (String × Json)}
      (h : Loosened zero written found) (hrest : MembersLoosened zeros members kept) :
      MembersLoosened ((name, zero) :: zeros) ((name, written) :: members) ((name, found) :: kept)
  | leaveOut {name : String} {zero : Json} {zeros members kept : List (String × Json)}
      (hrest : MembersLoosened zeros members kept) :
      MembersLoosened ((name, zero) :: zeros) ((name, zero) :: members) kept

end

variable {zeros members kept extra members' : List (String × Json)} {name : String}
  {zero written found : Json}

theorem MembersLoosened.sublist_names :
    ∀ {zeros members kept : List (String × Json)}, MembersLoosened zeros members kept →
      (kept.map Prod.fst).Sublist (members.map Prod.fst)
  | _, _, _, .nil => .slnil
  | _, _, _, .keep _ hrest => hrest.sublist_names.cons_cons _
  | _, _, _, .leaveOut hrest => hrest.sublist_names.cons _

/-- What is kept under a name is a looser form of what was there; nothing is kept only where the
value may be missing. -/
theorem MembersLoosened.lookup_cases :
    ∀ {zeros members kept : List (String × Json)}, MembersLoosened zeros members kept →
      (members.map Prod.fst).Nodup → zeros.lookup name = some zero →
      members.lookup name = some written →
      kept.lookup name = none ∧ zero = written ∨
        ∃ found, kept.lookup name = some found ∧ Loosened zero written found
  | _, _, _, .nil, _, hzero, _ => by
    cases hzero
  | _, _, _, @MembersLoosened.keep other _ _ _ _ _ _ h hrest, hnames, hzero, hwritten => by
    by_cases hname : name = other
    · subst hname
      rw [List.lookup_cons_self] at hzero hwritten
      obtain rfl := Option.some.inj hzero
      obtain rfl := Option.some.inj hwritten
      exact Or.inr ⟨_, List.lookup_cons_self, h⟩
    · rw [List.lookup_cons, beq_false_of_ne hname] at hzero hwritten
      rw [List.lookup_cons, beq_false_of_ne hname]
      exact hrest.lookup_cases (List.nodup_cons.1 hnames).2 hzero hwritten
  | _, _, kept, @MembersLoosened.leaveOut other _ _ _ _ hrest, hnames, hzero, hwritten => by
    obtain ⟨hother, hnames⟩ := List.nodup_cons.1 hnames
    by_cases hname : name = other
    · subst hname
      rw [List.lookup_cons_self] at hzero hwritten
      -- names are distinct, so nothing else is kept under this one
      have hnone : kept.lookup name = none := by
        rw [List.lookup_eq_none_iff]
        intro entry hentry
        have hmem : entry.1 ∈ kept.map Prod.fst := List.mem_map_of_mem hentry
        have hne : name ≠ entry.1 := by
          rintro rfl
          exact hother (hrest.sublist_names.subset hmem)
        exact bne_iff_ne.2 hne
      exact Or.inl ⟨hnone, Option.some.inj (hzero.symm.trans hwritten)⟩
    · rw [List.lookup_cons, beq_false_of_ne hname] at hzero hwritten
      exact hrest.lookup_cases hnames hzero hwritten

/-- Neither the order of members nor other names change what is found under a name. -/
theorem lookup_eq_of_perm_append (hnames : (kept.map Prod.fst).Nodup)
    (hextra : ∀ entry ∈ extra, entry.1 ≠ name) (hperm : members'.Perm (kept ++ extra)) :
    members'.lookup name = kept.lookup name := by
  have honly : ∀ v, members'.lookup name = some v → kept.lookup name = some v := by
    intro v hv
    obtain ⟨before, after, hsplit, -⟩ := List.lookup_eq_some_iff.1 hv
    have hmem : (name, v) ∈ members' := by simp [hsplit]
    rcases List.mem_append.1 (hperm.subset hmem) with hkept | hother
    · exact (Document.lookup_eq_some_iff_mem hnames).2 hkept
    · exact absurd rfl (hextra _ hother)
  cases hkept : kept.lookup name with
  | some v =>
    have hmem : (name, v) ∈ members' :=
      hperm.symm.subset (List.mem_append_left _ ((Document.lookup_eq_some_iff_mem hnames).1 hkept))
    cases hfound : members'.lookup name with
    | none =>
      have hne := List.lookup_eq_none_iff.1 hfound _ hmem
      simp at hne
    | some w =>
      have hw := honly w hfound
      rw [hkept] at hw
      rw [Option.some.inj hw]
  | none =>
    cases hfound : members'.lookup name with
    | none => rfl
    | some w =>
      have hw := honly w hfound
      rw [hkept] at hw
      cases hw

/-- Whether a list of members has a looser form of a value under a name, or leaves it out. -/
def HasLoosened (members : List (String × Json)) (name : String) (zero written : Json) : Prop :=
  members.lookup name = none ∧ zero = written ∨
    ∃ found, members.lookup name = some found ∧ Loosened zero written found

theorem Loosened.exists_members (h : Loosened (.object zeros) (.object members) found)
    (hnames : (members.map Prod.fst).Nodup) :
    ∃ members', found = .object members' ∧ ∀ name zero written,
      zeros.lookup name = some zero → members.lookup name = some written →
        HasLoosened members' name zero written := by
  cases h with
  | same => exact ⟨members, rfl, fun name zero written _ hw => Or.inr ⟨written, hw, .same _ _⟩⟩
  | @object _ _ kept extra members' h hextra hperm =>
    refine ⟨members', rfl, fun name zero written hzero hwritten => ?_⟩
    obtain ⟨before, after, hsplit, -⟩ := List.lookup_eq_some_iff.1 hwritten
    have hname : name ∈ members.map Prod.fst := by simp [hsplit]
    have hothers : ∀ entry ∈ extra, entry.1 ≠ name := by
      rintro entry hentry rfl
      exact hextra entry hentry hname
    have hkept := hnames.sublist h.sublist_names
    unfold HasLoosened
    rw [lookup_eq_of_perm_append hkept hothers hperm]
    exact h.lookup_cases hnames hzero hwritten

/-- Only objects have looser forms. -/
theorem Loosened.eq_of_not_object (h : Loosened zero written found)
    (hwritten : ∀ members, written ≠ .object members) : found = written := by
  cases h with
  | same => rfl
  | object => exact absurd rfl (hwritten _)

/-! ## Readers -/

/-- Whether a reader takes all forms of what is written for a value for that value. -/
def ReadsLoosened {α : Type} (read : Json → Option α) (write : α → Json) (default : α) : Prop :=
  ∀ a found, Loosened (write default) (write a) found → read found = some a

variable {α : Type} {read : Json → Option α} {write : α → Json} {default a : α}

theorem readsLoosened_of_not_object (hwrite : ∀ a members, write a ≠ .object members)
    (hread : ∀ a, read (write a) = some a) : ReadsLoosened read write default := by
  intro a found h
  rw [h.eq_of_not_object (hwrite a)]
  exact hread a

/-- Such a reader also reads the member of an object, which may be missing. -/
theorem ReadsLoosened.member? (hread : ReadsLoosened read write default)
    (h : HasLoosened members name (write default) (write a)) :
    member? members name default read = some a := by
  unfold Json.member?
  rcases h with ⟨hnone, hdefault⟩ | ⟨found, hfound, hloose⟩
  · -- the reader tells apart what is written for different values
    have hsame : some default = some a := by
      calc some default = read (write default) := (hread default _ (.same _ _)).symm
        _ = read (write a) := by rw [hdefault]
        _ = some a := hread a _ (.same _ _)
    rw [hnone]
    exact hsame
  · rw [hfound]
    exact hread a found hloose

end NewsService.Json

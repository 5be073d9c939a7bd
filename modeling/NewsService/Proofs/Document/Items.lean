import Mathlib.Data.List.Forall2

/-!
# Reading lists

A list is read item by item, in order: it can be read when all its items can, and it fails as the
first item that cannot.
-/

namespace NewsService

variable {α β ε : Type} {f : α → Except ε β} {l : List α}

theorem mapM_eq_ok {bs : List β} :
    l.mapM f = .ok bs ↔ List.Forall₂ (fun a b => f a = .ok b) l bs := by
  induction l generalizing bs with
  | nil =>
    rw [List.forall₂_nil_left_iff, List.mapM_nil]
    constructor
    · intro h
      exact (Except.ok.inj h).symm
    · rintro rfl
      rfl
  | cons a rest ih =>
    rw [List.forall₂_cons_left_iff, List.mapM_cons]
    cases hread : f a with
    | error e =>
      constructor
      · intro h
        cases h
      · rintro ⟨b, -, h, -⟩
        cases h
    | ok b =>
      cases hrest : rest.mapM f with
      | error e =>
        constructor
        · intro h
          cases h
        · rintro ⟨-, bs', -, hbs', -⟩
          rw [ih.2 hbs'] at hrest
          cases hrest
      | ok bs' =>
        constructor
        · intro h
          exact ⟨b, bs', rfl, ih.1 hrest, (Except.ok.inj h).symm⟩
        · rintro ⟨b', bs'', h, hbs'', rfl⟩
          obtain rfl := Except.ok.inj h
          obtain rfl := Except.ok.inj (hrest.symm.trans (ih.2 hbs''))
          rfl

theorem exists_mapM_eq_ok : (∃ bs, l.mapM f = .ok bs) ↔ ∀ a ∈ l, ∃ b, f a = .ok b := by
  constructor
  · rintro ⟨bs, hbs⟩ a ha
    obtain ⟨i, hi, rfl⟩ := List.getElem_of_mem ha
    have hitems := mapM_eq_ok.1 hbs
    exact ⟨_, hitems.get hi (hitems.length_eq ▸ hi)⟩
  · intro h
    induction l with
    | nil => exact ⟨[], rfl⟩
    | cons a rest ih =>
      obtain ⟨⟨b, hb⟩, hrest⟩ := List.forall_mem_cons.1 h
      obtain ⟨bs, hbs⟩ := ih hrest
      exact ⟨b :: bs, mapM_eq_ok.2 (.cons hb (mapM_eq_ok.1 hbs))⟩

theorem exists_mapM_eq_error : (∃ e, l.mapM f = .error e) ↔ ∃ a ∈ l, ∃ e, f a = .error e := by
  have hfails : ∀ {γ : Type} (x : Except ε γ), (∃ e, x = .error e) ↔ ¬ ∃ b, x = .ok b := by
    intro γ x
    cases x <;> simp
  simp only [hfails, exists_mapM_eq_ok, not_forall, exists_prop]

/-- A list fails as the first item that cannot be read. -/
theorem mapM_eq_error {i : Nat} {a : α} {e : ε}
    (hbefore : ∀ before ∈ l.take i, ∃ b, f before = .ok b) (ha : l[i]? = some a)
    (he : f a = .error e) : l.mapM f = .error e := by
  induction l generalizing i with
  | nil => cases ha
  | cons first rest ih =>
    rw [List.mapM_cons]
    cases i with
    | zero =>
      obtain rfl := Option.some.inj ha
      rw [he]
      rfl
    | succ i =>
      obtain ⟨⟨b, hb⟩, hrest⟩ := List.forall_mem_cons.1 hbefore
      rw [hb, ih hrest ha]
      rfl

theorem mapM_eq_error_iff {e : ε} :
    l.mapM f = .error e ↔ ∃ before a after, l = before ++ a :: after ∧
      (∀ b ∈ before, ∃ x, f b = .ok x) ∧ f a = .error e := by
  constructor
  · intro h
    induction l with
    | nil => cases h
    | cons first rest ih =>
      rw [List.mapM_cons] at h
      cases hfirst : f first with
      | error e' =>
        rw [hfirst] at h
        obtain rfl := Except.error.inj h
        exact ⟨[], first, rest, rfl, by simp, hfirst⟩
      | ok b =>
        cases hrest : rest.mapM f with
        | ok bs =>
          rw [hfirst, hrest] at h
          cases h
        | error e' =>
          rw [hfirst, hrest] at h
          obtain rfl := Except.error.inj h
          obtain ⟨before, a, after, rfl, hbefore, ha⟩ := ih hrest
          exact ⟨first :: before, a, after, rfl, List.forall_mem_cons.2 ⟨⟨b, hfirst⟩, hbefore⟩, ha⟩
  · rintro ⟨before, a, after, rfl, hbefore, ha⟩
    refine mapM_eq_error (i := before.length) (fun b hb => hbefore b ?_) ?_ ha
    · rwa [List.take_left] at hb
    · simp

/-- Of one item in a list, only what is read from it counts. -/
theorem mapM_around (before after : List α) (a : α) :
    (before ++ a :: after).mapM f = do
      let front ← before.mapM f
      let b ← f a
      let back ← after.mapM f
      return front ++ b :: back := by
  rw [List.mapM_append, List.mapM_cons]
  cases before.mapM f with
  | error e => rfl
  | ok front =>
    cases f a with
    | error e => rfl
    | ok b =>
      cases after.mapM f with
      | error e => rfl
      | ok back => rfl

end NewsService

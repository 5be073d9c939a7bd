import Mathlib.Data.List.Induction
import Mathlib.Data.List.Nodup
import NewsService.Proofs.Document.Fields
import NewsService.Store.IndexPage

/-!
# Entries of the index page

The index page is a map: its names increase, so each of them is there once, and two pages that show
the same under every name are the same page. Taking up the end of a query changes what is shown
under one name only.
-/

namespace NewsService

/-- How the query of a section ended. -/
abbrev Section.Ended := Section × Settled (List Record)

/-- A section shows the records that were found, and none when the query failed. -/
theorem Section.shown_eq (s : Section) (result : Except StoreError (List Record)) :
    s.shown result = ⟨s.kind, result.toOption.getD []⟩ := by
  cases result <;> rfl

namespace IndexPage

/-- Entries by increasing name. -/
def Increasing (entries : List (String × SectionRecords)) : Prop :=
  entries.Pairwise fun a b => a.1 < b.1

theorem lookup_insertEntry (name : String) (shown : SectionRecords)
    (entries : List (String × SectionRecords)) (k : String) :
    (insertEntry name shown entries).lookup k =
      if k = name then some shown else entries.lookup k := by
  induction entries with
  | nil => rw [insertEntry, lookup_cons_ite]
  | cons entry rest ih =>
    rw [insertEntry]
    by_cases hsame : name = entry.1
    · rw [if_pos hsame, lookup_cons_ite, lookup_cons_ite, ← hsame]
      split <;> rfl
    · rw [if_neg hsame]
      by_cases hlt : name < entry.1
      · rw [if_pos hlt, lookup_cons_ite]
      · rw [if_neg hlt, lookup_cons_ite, lookup_cons_ite, ih]
        by_cases hk : k = entry.1
        · have hne : ¬ k = name := fun h => hsame (h.symm.trans hk)
          rw [if_pos hk, if_neg hne, if_pos hk]
        · rw [if_neg hk, if_neg hk]

theorem mem_insertEntry {name : String} {shown : SectionRecords}
    {entries : List (String × SectionRecords)} {entry : String × SectionRecords}
    (h : entry ∈ insertEntry name shown entries) : entry = (name, shown) ∨ entry ∈ entries := by
  induction entries with
  | nil => exact Or.inl (List.mem_singleton.1 h)
  | cons first rest ih =>
    rw [insertEntry] at h
    split_ifs at h
    · rcases List.mem_cons.1 h with heq | hrest
      · exact Or.inl heq
      · exact Or.inr (List.mem_cons_of_mem _ hrest)
    · rcases List.mem_cons.1 h with heq | hall
      · exact Or.inl heq
      · exact Or.inr hall
    · rcases List.mem_cons.1 h with heq | hrest
      · exact Or.inr (heq ▸ List.mem_cons_self)
      · rcases ih hrest with heq | hmem
        · exact Or.inl heq
        · exact Or.inr (List.mem_cons_of_mem _ hmem)

/-- Putting in an entry keeps the order of names. -/
theorem increasing_insertEntry (name : String) (shown : SectionRecords)
    {entries : List (String × SectionRecords)} (h : Increasing entries) :
    Increasing (insertEntry name shown entries) := by
  induction entries with
  | nil => exact List.pairwise_singleton _ _
  | cons first rest ih =>
    obtain ⟨hfirst, hrest⟩ := List.pairwise_cons.1 h
    rw [insertEntry]
    split_ifs with hsame hlt
    · refine List.pairwise_cons.2 ⟨?_, hrest⟩
      intro entry hentry
      exact hsame ▸ hfirst entry hentry
    · refine List.pairwise_cons.2 ⟨?_, h⟩
      intro entry hentry
      rcases List.mem_cons.1 hentry with rfl | hmem
      · exact hlt
      · exact String.lt_trans hlt (hfirst entry hmem)
    · refine List.pairwise_cons.2 ⟨?_, ih hrest⟩
      intro entry hentry
      rcases mem_insertEntry hentry with rfl | hmem
      · exact Std.lt_of_le_of_ne (String.not_lt.1 hlt) (Ne.symm hsame)
      · exact hfirst entry hmem

theorem lookup_eq_some {entries : List (String × SectionRecords)} (h : Increasing entries)
    {name : String} {shown : SectionRecords} :
    entries.lookup name = some shown ↔ (name, shown) ∈ entries := by
  induction entries with
  | nil => simp
  | cons first rest ih =>
    obtain ⟨hfirst, hrest⟩ := List.pairwise_cons.1 h
    rw [lookup_cons_ite, List.mem_cons]
    by_cases hname : name = first.1
    · have hnot : (name, shown) ∉ rest := fun hmem =>
        String.ne_of_lt (hfirst _ hmem) hname.symm
      rw [if_pos hname, or_iff_left hnot, Option.some.injEq, Prod.ext_iff]
      exact ⟨fun heq => ⟨hname, heq.symm⟩, fun heq => heq.2.symm⟩
    · have hnot : (name, shown) ≠ first := fun heq => hname (congrArg Prod.fst heq)
      rw [if_neg hname, or_iff_right hnot, ih hrest]

/-- Entries by increasing name are determined by what is found under each name. -/
theorem eq_of_lookup_eq {entries entries' : List (String × SectionRecords)}
    (h : Increasing entries) (h' : Increasing entries')
    (hlookup : ∀ name, entries.lookup name = entries'.lookup name) : entries = entries' := by
  have hnodup : ∀ {l : List (String × SectionRecords)}, Increasing l → l.Nodup :=
    fun hl => hl.imp fun hlt heq => String.ne_of_lt hlt (congrArg Prod.fst heq)
  have hmem : ∀ entry, entry ∈ entries ↔ entry ∈ entries' := by
    rintro ⟨name, shown⟩
    rw [← lookup_eq_some h, ← lookup_eq_some h', hlookup]
  have hperm := (List.perm_ext_iff_of_nodup (hnodup h) (hnodup h')).2 hmem
  exact hperm.eq_of_pairwise (fun _ _ _ _ hab hba => absurd hba (String.lt_asymm hab)) h h'

/-! ## Pages -/

/-- What a page shows under a name. -/
def shownAt (page : IndexPage) (name : String) : Option SectionRecords :=
  page.sections.lookup name

theorem shownAt_takeUp (page : IndexPage) (m : Section.Ended) (name : String) :
    (page.takeUp m).shownAt name =
      if name = m.1.name then some (m.1.shown m.2.result) else page.shownAt name :=
  lookup_insertEntry _ _ _ _

theorem collect_append (ended : List Section.Ended)
    (m : Section.Ended) : collect (ended ++ [m]) = (collect ended).takeUp m := by
  rw [collect, List.foldl_append]
  rfl

theorem increasing_collect (ended : List Section.Ended) :
    Increasing (collect ended).sections := by
  induction ended using List.reverseRecOn with
  | nil => exact List.Pairwise.nil
  | append_singleton rest m ih =>
    rw [collect_append]
    exact increasing_insertEntry _ _ ih

/-- What a page shows under a name is the end of a query of a section with that name. -/
theorem of_shownAt_collect {ended : List Section.Ended} {name : String}
    {shown : SectionRecords} (h : (collect ended).shownAt name = some shown) :
    ∃ m ∈ ended, m.1.name = name ∧ m.1.shown m.2.result = shown := by
  induction ended using List.reverseRecOn with
  | nil => cases h
  | append_singleton rest m ih =>
    rw [collect_append, shownAt_takeUp] at h
    by_cases hname : name = m.1.name
    · rw [if_pos hname, Option.some.injEq] at h
      exact ⟨m, List.mem_append_right _ List.mem_cons_self, hname.symm, h⟩
    · rw [if_neg hname] at h
      obtain ⟨k, hk, hshown⟩ := ih h
      exact ⟨k, List.mem_append_left _ hk, hshown⟩

/-- A page shows something under every name that was taken up. -/
theorem shownAt_collect_isSome {ended : List Section.Ended}
    {m : Section.Ended} (h : m ∈ ended) :
    ((collect ended).shownAt m.1.name).isSome = true := by
  induction ended using List.reverseRecOn with
  | nil => simp at h
  | append_singleton rest last ih =>
    rw [collect_append, shownAt_takeUp]
    split
    · rfl
    · next hname =>
      rcases List.mem_append.1 h with hrest | hlast
      · exact ih hrest
      · exact absurd (congrArg (fun k => k.1.name) (List.mem_singleton.1 hlast)) hname

/-- When names do not repeat, each section shows the end of its own query. -/
theorem shownAt_collect {ended : List Section.Ended}
    (hnodup : (ended.map fun m => m.1.name).Nodup) {m : Section.Ended}
    (h : m ∈ ended) : (collect ended).shownAt m.1.name = some (m.1.shown m.2.result) := by
  obtain ⟨shown, hshown⟩ := Option.isSome_iff_exists.1 (shownAt_collect_isSome h)
  obtain ⟨k, hk, hname, rfl⟩ := of_shownAt_collect hshown
  rw [hshown, List.inj_on_of_nodup_map hnodup hk h hname]

/-- When names do not repeat, the order in which ends are taken up does not matter. -/
theorem collect_perm {ended ended' : List Section.Ended}
    (hnodup : (ended.map fun m => m.1.name).Nodup) (hperm : ended.Perm ended') :
    collect ended = collect ended' := by
  have hnodup' := (hperm.map fun m => m.1.name).nodup_iff.1 hnodup
  have hlookup : ∀ name, (collect ended).shownAt name = (collect ended').shownAt name := by
    intro name
    cases hshown : (collect ended).shownAt name with
    | some shown =>
      obtain ⟨m, hm, rfl, rfl⟩ := of_shownAt_collect hshown
      exact (shownAt_collect hnodup' (hperm.subset hm)).symm
    | none =>
      cases hshown' : (collect ended').shownAt name with
      | none => rfl
      | some shown =>
        obtain ⟨m, hm, rfl, -⟩ := of_shownAt_collect hshown'
        have hsome := shownAt_collect_isSome (hperm.symm.subset hm)
        rw [hshown] at hsome
        cases hsome
  exact congrArg IndexPage.mk
    (eq_of_lookup_eq (increasing_collect ended) (increasing_collect ended') hlookup)

end IndexPage

end NewsService

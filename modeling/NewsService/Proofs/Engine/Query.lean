import NewsService.Pipeline.Compile
import NewsService.Proofs.Engine.Basic

/-!
# The documents that a query chooses

The stages of a query in front of its joins never fail: they cut the window out of the ordered
documents that match the filter. Parts of a query that ask for nothing put no stage and change
nothing.
-/

namespace NewsService

/-- The part of a list that a window shows. -/
def Window.cut {α : Type} (w : Window) (l : List α) : List α :=
  let rest := l.drop w.offset.toNatClampNeg
  if 0 < w.limit then rest.take w.limit.toNatClampNeg else rest

theorem Window.cut_sublist {α : Type} (w : Window) (l : List α) : (w.cut l).Sublist l := by
  rw [cut]
  split
  · exact (List.take_sublist _ _).trans (List.drop_sublist _ _)
  · exact List.drop_sublist _ _

theorem toNatClampNeg_of_not_pos {n : Int64} (h : ¬ 0 < n) : n.toNatClampNeg = 0 := by
  rw [Int64.lt_iff_toInt_lt, Int64.toInt_zero] at h
  rw [← Int64.toNat_toInt]
  omega

namespace Engine

variable (e : Engine)

/-- The documents that match a filter. -/
def matching (f : Filter) (docs : List Document) : List Document :=
  if f.conditions.isEmpty then docs else e.select f.conditions docs

/-- The documents in an order. -/
def ordered (s : SortOrder) (docs : List Document) : List Document :=
  if s.keys.isEmpty then docs else e.sort s.keys docs

/-- The documents that a query chooses from a list. -/
def chosen (q : Query) (docs : List Document) : List Document :=
  q.window.cut (e.ordered q.sort (e.matching q.filter docs))

variable {e} {db : Database} {ids : Option (List Value)}

theorem matching_sublist (f : Filter) (docs : List Document) :
    (e.matching f docs).Sublist docs := by
  rw [matching]
  split
  · exact List.Sublist.refl _
  · exact e.select_sublist _ _

theorem ordered_perm (s : SortOrder) (docs : List Document) : (e.ordered s docs).Perm docs := by
  rw [ordered]
  split
  · exact List.Perm.refl _
  · exact e.sort_perm _ _

/-- A query chooses from the documents only. -/
theorem chosen_subset (q : Query) (docs : List Document) : e.chosen q docs ⊆ docs := by
  intro d hd
  have hordered := (q.window.cut_sublist _).subset hd
  exact (matching_sublist q.filter docs).subset ((ordered_perm q.sort _).subset hordered)

theorem run_filter (f : Filter) (docs : List Document) :
    e.run db ids f.stages docs = some (e.matching f docs) := by
  rw [Filter.stages, matching]
  split
  · rfl
  · rfl

theorem run_sort (s : SortOrder) (docs : List Document) :
    e.run db ids s.stages docs = some (e.ordered s docs) := by
  rw [SortOrder.stages, ordered]
  split
  · rfl
  · next hkeys =>
    rw [run_cons, runStage, if_neg hkeys]
    rfl

theorem run_window (w : Window) (docs : List Document) :
    e.run db ids w.stages docs = some (w.cut docs) := by
  have hskip : e.run db ids (if 0 < w.offset then [.skip w.offset] else []) docs =
      some (docs.drop w.offset.toNatClampNeg) := by
    by_cases hoffset : 0 < w.offset
    · have hnot : ¬ w.offset < 0 := by
        rw [Int64.lt_iff_toInt_lt] at hoffset ⊢
        omega
      rw [if_pos hoffset, run_cons, runStage, if_neg hnot]
      rfl
    · rw [if_neg hoffset, toNatClampNeg_of_not_pos hoffset]
      rfl
  have hlimit : ∀ rest : List Document,
      e.run db ids (if 0 < w.limit then [.limit w.limit] else []) rest =
        some (if 0 < w.limit then rest.take w.limit.toNatClampNeg else rest) := by
    intro rest
    by_cases hpos : 0 < w.limit
    · have hnot : ¬ w.limit ≤ 0 := by
        rw [Int64.lt_iff_toInt_lt] at hpos
        rw [Int64.le_iff_toInt_le]
        omega
      rw [if_pos hpos, if_pos hpos, run_cons, runStage, if_neg hnot]
      rfl
    · rw [if_neg hpos, if_neg hpos]
      rfl
  rw [Window.stages, run_append, hskip, Option.bind_some, hlimit, Window.cut]

/-- The stages of a query in front of its joins. -/
theorem run_stages (q : Query) (docs : List Document) :
    e.run db ids q.stages docs = some (e.chosen q docs) := by
  rw [Query.stages, run_append, run_append, run_filter, Option.bind_some, run_sort,
    Option.bind_some, run_window, chosen]

/-- A store never refuses the stages of a query in front of its joins. -/
theorem aggregate_stages (collection : Collection) (q : Query) :
    e.aggregate db collection q.stages.toDocuments = some (e.chosen q (db collection)) := by
  rw [aggregate_toDocuments, run_stages]

/-- The joins of a query run over the documents that it chooses. -/
theorem aggregate_pipeline (kind : Kind) (depth : Nat) (q : Query) :
    e.aggregate db kind.collection (q.pipeline kind depth).toDocuments =
      e.run db none (kind.joinStages q.expansion depth) (e.chosen q (db kind.collection)) := by
  rw [aggregate_toDocuments, Query.pipeline, run_append, run_stages, Option.bind_some]

end Engine

end NewsService

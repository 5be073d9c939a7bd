import NewsService.Proofs.Engine.Answers
import NewsService.Proofs.Pipeline.Layout
import NewsService.Proofs.Store.Calls

/-!
# Pages of an answer

Windows of one size that follow each other divide an answer: put together they give the answer
without a window. Joining stages do not disturb this, since they work on each document by itself.
The count of a query is the length of that answer.
-/

namespace NewsService

/-! ## Parts of a list -/

/-- Parts of one size that follow each other make up the beginning of a list. -/
theorem flatten_parts {α : Type} (l : List α) (size n : Nat) :
    ((List.range n).map fun i => (l.drop (i * size)).take size).flatten = l.take (n * size) := by
  induction n with
  | zero => simp
  | succ n ih =>
    rw [List.range_succ, List.map_append, List.flatten_append, ih, Nat.succ_mul, List.take_add]
    simp

namespace Window

/-- The window of a page, counted from zero, when pages are of one size. -/
def page (size : Int64) (i : Nat) : Window :=
  ⟨Int64.ofNat (i * size.toNatClampNeg), size⟩

theorem cut_default {α : Type} (l : List α) : cut {} l = l := by
  have hnot : ¬ (0 : Int64) < 0 := by decide
  rw [cut, if_neg hnot]
  rfl

theorem cut_page {α : Type} {size : Int64} (hsize : 0 < size) {i : Nat}
    (hi : i * size.toNatClampNeg ≤ Int64.maxValue.toNatClampNeg) (l : List α) :
    (page size i).cut l = (l.drop (i * size.toNatClampNeg)).take size.toNatClampNeg := by
  rw [cut, page, if_pos hsize, Int64.toNatClampNeg_ofNat_of_lt (Nat.lt_succ_of_le hi)]

/-- How much a window shows. -/
theorem length_cut {α : Type} {w : Window} (hoffset : 0 ≤ w.offset) (hlimit : 0 < w.limit)
    (l : List α) :
    ((w.cut l).length : Int) = max 0 (min w.limit.toInt (l.length - w.offset.toInt)) := by
  have hoffset' : (w.offset.toNatClampNeg : Int) = w.offset.toInt := by
    rw [Int64.le_iff_toInt_le, Int64.toInt_zero] at hoffset
    rw [← Int64.toNat_toInt, Int.toNat_of_nonneg hoffset]
  have hlimit' : (w.limit.toNatClampNeg : Int) = w.limit.toInt ∧ 0 < w.limit.toInt := by
    have hpos := hlimit
    rw [Int64.lt_iff_toInt_lt, Int64.toInt_zero] at hpos
    rw [← Int64.toNat_toInt, Int.toNat_of_nonneg (Int.le_of_lt hpos)]
    exact ⟨rfl, hpos⟩
  rw [cut, if_pos hlimit, List.length_take, List.length_drop]
  omega

end Window

/-- The query for another window of the same answer. -/
def Query.showing (q : Query) (w : Window) : Query :=
  { q with window := w }

/-! ## Stages that work on each document by itself -/

/-- Whether what is made of a list is made of its parts. -/
structure Distributes (f : List Document → Option (List Document)) : Prop where
  nil : f [] = some []
  append : ∀ a b, f (a ++ b) = (f a).bind fun x => (f b).map fun y => x ++ y

namespace Distributes

variable {f g : List Document → Option (List Document)}

theorem pure : Distributes some := ⟨rfl, fun _ _ => rfl⟩

/-- The order in which two parts fail does not matter. -/
theorem bind (hf : Distributes f) (hg : Distributes g) : Distributes fun l => (f l).bind g := by
  refine ⟨by rw [hf.nil, Option.bind_some, hg.nil], fun a b => ?_⟩
  rw [hf.append]
  cases f a with
  | none => rfl
  | some x =>
    cases f b with
    | none =>
      change none = (g x).bind fun _ => none
      rw [Option.bind_fun_none]
    | some y => exact hg.append x y

theorem of_flatMap (g : Document → List Document) : Distributes fun l => some (l.flatMap g) :=
  ⟨rfl, fun a b => by rw [List.flatMap_append]; rfl⟩

theorem of_mapM (g : Document → Option Document) : Distributes fun l => l.mapM g :=
  ⟨rfl, fun a b => by
    rw [List.mapM_append]
    cases a.mapM g with
    | none => rfl
    | some x => cases b.mapM g <;> rfl⟩

theorem flatten (hf : Distributes f) (parts : List (List Document)) :
    f parts.flatten = (parts.mapM f).map List.flatten := by
  induction parts with
  | nil => exact hf.nil
  | cons a rest ih =>
    rw [List.flatten_cons, hf.append, ih, List.mapM_cons]
    cases f a with
    | none => rfl
    | some x => cases rest.mapM f <;> rfl

end Distributes

namespace Engine

variable {e : Engine} {db : Database} {ids : Option (List Value)}

theorem distributes_runStage {stage : Stage} (h : stage.isJoining = true) :
    Distributes (e.runStage db ids stage) := by
  cases stage with
  | join collection field =>
    have hmap : e.runStage db ids (.join collection field) = fun docs => some (docs.flatMap fun d =>
        [putAll field (e.found db collection (d.valueAt field)) d]) := by
      funext docs
      rw [runStage, List.map_eq_flatMap]
    rw [hmap]
    exact Distributes.of_flatMap _
  | unwind field =>
    have hmap : e.runStage db ids (.unwind field) =
        fun docs => some (docs.flatMap (unwindDocument field)) := by
      funext docs
      rw [runStage]
    rw [hmap]
    exact Distributes.of_flatMap _
  | joinThrough collection field pipeline =>
    have hmapM : e.runStage db ids (.joinThrough collection field pipeline) =
        fun docs => docs.mapM fun d => do
          let ids ← boundIds? field d
          let found ← e.run db (some ids) pipeline (db collection)
          return putAll field found d := by
      funext docs
      rw [runStage]
    rw [hmapM]
    exact Distributes.of_mapM _
  | _ => cases h

theorem distributes_run {pipeline : Pipeline} (h : ∀ stage ∈ pipeline, stage.isJoining = true) :
    Distributes (e.run db ids pipeline) := by
  induction pipeline with
  | nil => exact Distributes.pure
  | cons stage rest ih =>
    have hstage : Distributes (e.runStage db ids stage) :=
      distributes_runStage (h stage List.mem_cons_self)
    exact hstage.bind (ih fun s hs => h s (List.mem_cons_of_mem _ hs))

theorem distributes_joinStages (kind : Kind) (expansion : Expansion) (depth : Nat) :
    Distributes (e.run db ids (kind.joinStages expansion depth)) := by
  refine distributes_run fun stage hstage => ?_
  obtain ⟨j, -, hj⟩ := List.mem_flatMap.1 hstage
  exact Join.isJoining_of_mem_stages stage hj

/-! ## Pages -/

/-- The answers of the pages of a query, put together; `none` when the store refuses one of them. -/
def pages (e : Engine) (db : Database) (collection : Collection) (pipeline : Window → Pipeline)
    (size : Int64) (n : Nat) : Option (List Document) :=
  ((List.range n).mapM fun i =>
    e.aggregate db collection (pipeline (Window.page size i)).toDocuments).map List.flatten

/-- Pages of a list make up the list, also after stages that work on each document by itself. -/
theorem flatten_pages {f : List Document → Option (List Document)} (hf : Distributes f)
    {size : Int64} (hsize : 0 < size) {l : List Document} {n : Nat}
    (hlength : l.length ≤ n * size.toNatClampNeg)
    (hoffsets : ∀ i < n, i * size.toNatClampNeg ≤ Int64.maxValue.toNatClampNeg) :
    ((List.range n).mapM fun i => f ((Window.page size i).cut l)).map List.flatten = f l := by
  have hcut : (List.range n).map (fun i => (Window.page size i).cut l) =
      (List.range n).map fun i => (l.drop (i * size.toNatClampNeg)).take size.toNatClampNeg :=
    List.map_congr_left fun i hi => Window.cut_page hsize (hoffsets i (List.mem_range.1 hi)) l
  have hl : ((List.range n).map fun i => (Window.page size i).cut l).flatten = l := by
    rw [hcut, flatten_parts, List.take_of_length_le hlength]
  have hflatten := hf.flatten ((List.range n).map fun i => (Window.page size i).cut l)
  rw [hl, List.mapM_map] at hflatten
  exact hflatten.symm

/-- The row of a count is read as the number that it counts. -/
theorem totalOf_countRows {n : Nat} (h : n ≤ Int64.maxValue.toNatClampNeg) :
    totalOf (countRows Query.totalKey n) = .ok n := by
  cases n with
  | zero => rfl
  | succ n =>
    have hread : readTotal [(Query.totalKey,
        if n + 1 ≤ Int32.maxValue.toNatClampNeg then .int32 (Int32.ofNat (n + 1))
        else .int64 (Int64.ofNat (n + 1)))] = .ok (n + 1) := by
      rw [readTotal, lookup_cons_ite, if_pos rfl]
      by_cases hsmall : n + 1 ≤ Int32.maxValue.toNatClampNeg
      · have hvalue := Int32.toInt_ofNat_of_lt (Nat.lt_succ_of_le hsmall)
        simp only [if_pos hsmall, Value.integer?, hvalue]
        rfl
      · have hvalue := Int64.toInt_ofNat_of_lt (Nat.lt_succ_of_le h)
        simp only [if_neg hsmall, Value.integer?, hvalue]
        rfl
    rw [countRows, totalOf_cons, hread]
    exact Nat.succ_ne_zero n

/-- A store that counts matches in time answers with their number, if it has 64 bits for it. -/
theorem count_source (e : Engine) (db : Database) (kind : Kind) (depth : Nat) (q : Query)
    {delay : Nat} {limit : Duration} (hdelay : delay ≤ limit.millis) (earlier : List Call)
    (hfits : (e.matching q.filter (db kind.collection)).length ≤ Int64.maxValue.toNatClampNeg) :
    ((Store.mk (e.source db delay) depth).count kind q limit earlier).1 =
      .ok (e.matching q.filter (db kind.collection)).length := by
  have hrun : e.aggregate db kind.collection q.countPipeline.toDocuments =
      some (countRows Query.totalKey (e.matching q.filter (db kind.collection)).length) := by
    rw [aggregate_toDocuments, Query.countPipeline, run_append, run_filter, Option.bind_some]
    rfl
  rw [Store.count_apply]
  exact Inquiry.settle_eq_ok.2 ⟨hdelay, _, hrun, totalOf_countRows hfits⟩

/-- The pages of a query divide its answer, with joins and without: every match is on exactly one
of them. Each window shows as much as its place in the answer allows, and the count is the length of
the answer, whatever the order, the window and the expansion of the query that is counted. -/
theorem pages_divide_answer (e : Engine) (db : Database) (kind : Kind) (depth : Nat) (q : Query) :
    ∃ full,
      e.aggregate db kind.collection (q.showing {}).stages.toDocuments = some full ∧
      full.Perm (e.matching q.filter (db kind.collection)) ∧
      (∀ size n, 0 < size → full.length ≤ n * size.toNatClampNeg →
        (∀ i < n, i * size.toNatClampNeg ≤ Int64.maxValue.toNatClampNeg) →
        e.pages db kind.collection (fun w => (q.showing w).stages) size n = some full ∧
        e.pages db kind.collection (fun w => (q.showing w).pipeline kind depth) size n =
          e.aggregate db kind.collection ((q.showing {}).pipeline kind depth).toDocuments) ∧
      (∀ w : Window, 0 ≤ w.offset → 0 < w.limit → ∃ page,
        e.aggregate db kind.collection (q.showing w).stages.toDocuments = some page ∧
        (page.length : Int) = max 0 (min w.limit.toInt (full.length - w.offset.toInt)) ∧
        (db.Valid → ∃ joined,
          e.aggregate db kind.collection ((q.showing w).pipeline kind depth).toDocuments =
            some joined ∧
          joined.length = page.length)) ∧
      (full.length ≤ Int64.maxValue.toNatClampNeg → ∀ counted : Query, counted.filter = q.filter →
        ∀ delay (limit : Duration) earlier, delay ≤ limit.millis →
          ((Store.mk (e.source db delay) depth).count kind counted limit earlier).1 =
            .ok full.length) := by
  let full := e.ordered q.sort (e.matching q.filter (db kind.collection))
  have hperm : full.Perm (e.matching q.filter (db kind.collection)) := ordered_perm q.sort _
  -- every window is cut out of the same list, before the joins
  have hstages : ∀ w, e.aggregate db kind.collection (q.showing w).stages.toDocuments =
      some (w.cut full) := fun w => aggregate_stages kind.collection (q.showing w)
  have hpipeline : ∀ w,
      e.aggregate db kind.collection ((q.showing w).pipeline kind depth).toDocuments =
        e.run db none (kind.joinStages q.expansion depth) (w.cut full) :=
    fun w => aggregate_pipeline kind depth (q.showing w)
  refine ⟨full, ?_, hperm, ?_, ?_, ?_⟩
  · rw [hstages, Window.cut_default]
  · intro size n hsize htotal hoffsets
    constructor
    · have hpages := flatten_pages Distributes.pure hsize htotal hoffsets
      rw [← hpages, pages]
      simp only [hstages]
    · have hjoins : Distributes (e.run db none (kind.joinStages q.expansion depth)) :=
        distributes_joinStages kind q.expansion depth
      have hpages := flatten_pages hjoins hsize htotal hoffsets
      rw [hpipeline, Window.cut_default, ← hpages, pages]
      simp only [hpipeline]
  · intro w hoffset hlimit
    refine ⟨_, hstages w, Window.length_cut hoffset hlimit full, fun h => ?_⟩
    exact ⟨_, aggregate_joined e h kind depth (q.showing w), List.length_map _⟩
  · intro hfits counted hfilter delay limit earlier hdelay
    have hlength : full.length = (e.matching counted.filter (db kind.collection)).length := by
      rw [hfilter, hperm.length_eq]
    rw [hlength] at hfits ⊢
    exact count_source e db kind depth counted hdelay earlier hfits

theorem pages_divide_published : Database.sample.Valid ∧ ∃ full,
    full.length = 2 ∧
    standard.pages Database.sample .posts (fun w => (publishedInFull.showing w).stages) 1 2 =
      some full ∧
    standard.pages Database.sample .posts (fun w => (publishedInFull.showing w).pipeline .post 1)
        1 2 =
      standard.aggregate Database.sample .posts
        ((publishedInFull.showing {}).pipeline .post 1).toDocuments ∧
    (∃ joined,
      standard.aggregate Database.sample .posts
        ((publishedInFull.showing ⟨1, 2⟩).pipeline .post 1).toDocuments = some joined ∧
      joined.length = 1) ∧
    ((Store.mk (standard.source Database.sample 5) 1).count .post publishedInFull ⟨10⟩ []).1 =
      .ok 2 := by
  obtain ⟨full, -, hperm, hpages, hwindow, hcount⟩ :=
    pages_divide_answer standard Database.sample .post 1 publishedInFull
  have hlength : full.length = 2 := by
    rw [hperm.length_eq]
    decide
  obtain ⟨hplain, hjoined⟩ := hpages 1 2 (by decide) (by rw [hlength]; decide) (by decide)
  obtain ⟨page, -, hpage, hvalid⟩ := hwindow ⟨1, 2⟩ (by decide) (by decide)
  obtain ⟨joined, hrun, hsame⟩ := hvalid Database.sample_valid
  have hone : page.length = 1 := by
    rw [hlength] at hpage
    exact Int.ofNat.inj hpage
  have htotal := hcount (by rw [hlength]; decide) publishedInFull rfl 5 ⟨10⟩ [] (by decide)
  rw [hlength] at htotal
  exact ⟨Database.sample_valid, full, hlength, hplain, hjoined, ⟨joined, hrun, hsame.trans hone⟩,
    htotal⟩

end Engine

end NewsService

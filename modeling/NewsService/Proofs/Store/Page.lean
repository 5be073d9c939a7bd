import NewsService.Proofs.Pipeline.Layout
import NewsService.Proofs.Runs
import NewsService.Proofs.Store.Calls

/-!
# The two calls of a page

A page needs two calls, one for its records and one for their number. The call for the records is
sent first; then the two run side by side and end in any order. The first failure is the answer, and
what the other call does no longer matters. Main statement: a page holds what both calls give, or it
is the failure of one of them, whatever the order in which they end.
-/

namespace NewsService

/-- A page that is asked for. -/
structure PageTask where
  store : Store
  kind : Kind
  query : Query
  /-- The limit on each call. -/
  limit : Duration
  /-- The calls that the source has seen before the one for the records. -/
  beforeFind : List Call
  /-- The calls that the source has seen before the one for their number. -/
  beforeCount : List Call

namespace PageTask

variable (t : PageTask)

/-- The call for the records. -/
def findCall : Call :=
  t.store.findCall t.kind t.query

/-- The call for the number of records. -/
def countCall : Call :=
  Store.countCall t.kind t.query

/-- How the call for the records ends. -/
def found : Except StoreError (List Record) :=
  (t.store.find t.kind t.query t.limit t.beforeFind).1

/-- How the call for the number of records ends. -/
def counted : Except StoreError Nat :=
  (t.store.count t.kind t.query t.limit t.beforeCount).1

/-- Where a call is. -/
inductive Progress (α : Type) where
  | unsent
  | running
  | ended (result : Except StoreError α)

/-- Where both calls are. -/
structure State where
  /-- What has been sent. -/
  sent : List Call
  find : Progress (List Record)
  count : Progress Nat

/-- Nothing has been sent. -/
def start : State :=
  ⟨[], .unsent, .unsent⟩

/-- The answer, once there is one: a failure, or a page when both calls have succeeded. -/
def answer? (s : State) : Option (Except StoreError Page) :=
  match s.find, s.count with
  | .ended (.error e), _ => some (.error e)
  | .ended (.ok records), .ended (.ok total) => some (.ok ⟨total, t.query.window, records⟩)
  | _, .ended (.error e) => some (.error e)
  | _, _ => none

/-- A move of one of the calls. There is none after the answer. -/
inductive Step : State → State → Prop
  | sendFind {s : State} (h : s.find = .unsent) (hopen : t.answer? s = none) :
      Step s { s with sent := s.sent ++ [t.findCall], find := .running }
  | sendCount {s : State} (hfind : s.find ≠ .unsent) (h : s.count = .unsent)
      (hopen : t.answer? s = none) :
      Step s { s with sent := s.sent ++ [t.countCall], count := .running }
  | endFind {s : State} (h : s.find = .running) (hopen : t.answer? s = none) :
      Step s { s with find := .ended t.found }
  | endCount {s : State} (h : s.count = .running) (hopen : t.answer? s = none) :
      Step s { s with count := .ended t.counted }

/-- A number of moves. -/
abbrev Run (n : Nat) (s u : State) : Prop :=
  Moves (Step t) n s u

/-- Whether some run ends with an answer after sending some calls. -/
def Yields (answer : Except StoreError Page) (sent : List Call) : Prop :=
  ∃ n s, Run t n start s ∧ t.answer? s = some answer ∧ s.sent = sent

variable {t}

/-! ## Every run ends -/

/-- The number of moves of a call that are left. -/
def Progress.left {α : Type} : Progress α → Nat
  | .unsent => 2
  | .running => 1
  | .ended _ => 0

/-- The number of moves that are left. -/
def State.left (s : State) : Nat :=
  s.find.left + s.count.left

theorem Step.left_eq {s u : State} (h : Step t s u) : s.left = u.left + 1 := by
  cases h with
  | sendFind h => simp only [State.left, h, Progress.left]; omega
  | sendCount _ h => simp only [State.left, h, Progress.left]
  | endFind h => simp only [State.left, h, Progress.left]; omega
  | endCount h => simp only [State.left, h, Progress.left]

theorem Run.length_le {n : Nat} {s : State} (h : Run t n start s) : n ≤ 4 := by
  have hleft := h.measure_eq State.left fun _ _ hstep => hstep.left_eq
  simp only [State.left, start, Progress.left] at hleft
  omega

/-- A failure is an answer at once. -/
theorem answer?_eq_none {s : State} :
    t.answer? s = none ↔ (∀ e, s.find ≠ .ended (.error e)) ∧ (∀ e, s.count ≠ .ended (.error e)) ∧
      ¬ ((∃ records, s.find = .ended (.ok records)) ∧ ∃ total, s.count = .ended (.ok total)) := by
  obtain ⟨sent, find, count⟩ := s
  rcases find with _ | _ | _ | _ <;> rcases count with _ | _ | _ | _ <;> simp [answer?]

/-! ## What the calls have done -/

/-- What a call can have given: nothing yet, or how it ends. -/
def Progress.Fits {α : Type} (result : Except StoreError α) (p : Progress α) : Prop :=
  ∀ given, p = .ended given → given = result

/-- The calls that have been sent fit where the calls are, and at most one call has failed. -/
structure State.Sound (t : PageTask) (s : State) : Prop where
  find : s.find.Fits t.found
  count : s.count.Fits t.counted
  sent : s.find = .unsent ∧ s.count = .unsent ∧ s.sent = [] ∨
    s.find ≠ .unsent ∧ s.count = .unsent ∧ s.sent = [t.findCall] ∨
    s.find ≠ .unsent ∧ s.count ≠ .unsent ∧ s.sent = [t.findCall, t.countCall]
  one_failure : ∀ e, s.find = .ended (.error e) → ∀ e', s.count ≠ .ended (.error e')

theorem sound_start : start.Sound t := by
  exact ⟨nofun, nofun, Or.inl ⟨rfl, rfl, rfl⟩, nofun⟩

theorem Step.sound {s u : State} (h : Step t s u) (hs : s.Sound t) : u.Sound t := by
  obtain ⟨hfind, hcount, hsent, hone⟩ := hs
  cases h with
  | sendFind h hopen =>
    refine ⟨nofun, hcount, ?_, nofun⟩
    rcases hsent with ⟨-, hunsent, hnone⟩ | ⟨hnot, -⟩ | ⟨hnot, -⟩
    · exact Or.inr (Or.inl ⟨nofun, hunsent, by rw [hnone, List.nil_append]⟩)
    · exact absurd h hnot
    · exact absurd h hnot
  | sendCount hnot h hopen =>
    refine ⟨hfind, nofun, ?_, fun _ _ _ => nofun⟩
    rcases hsent with ⟨hunsent, -⟩ | ⟨-, -, hone⟩ | ⟨-, hsent, -⟩
    · exact absurd hunsent hnot
    · exact Or.inr (Or.inr ⟨hnot, nofun, by simp only [hone, List.singleton_append]⟩)
    · exact absurd h hsent
  | endFind h hopen =>
    obtain ⟨-, hcounted, -⟩ := answer?_eq_none.1 hopen
    refine ⟨fun given hgiven => (Progress.ended.inj hgiven).symm, hcount, ?_, fun _ _ => hcounted⟩
    rcases hsent with ⟨hunsent, -⟩ | ⟨-, hsent⟩ | ⟨-, hsent⟩
    · rw [h] at hunsent
      cases hunsent
    · exact Or.inr (Or.inl ⟨nofun, hsent⟩)
    · exact Or.inr (Or.inr ⟨nofun, hsent⟩)
  | endCount h hopen =>
    obtain ⟨hfound, -, -⟩ := answer?_eq_none.1 hopen
    refine ⟨hfind, fun given hgiven => (Progress.ended.inj hgiven).symm, ?_,
      fun e he => absurd he (hfound e)⟩
    rcases hsent with ⟨-, hunsent, -⟩ | ⟨-, hunsent, -⟩ | ⟨hnot, -, hsent⟩
    · rw [h] at hunsent
      cases hunsent
    · rw [h] at hunsent
      cases hunsent
    · exact Or.inr (Or.inr ⟨hnot, nofun, hsent⟩)

theorem Run.sound {n : Nat} {s : State} (h : Run t n start s) : s.Sound t :=
  h.keeps (State.Sound t) (fun _ _ hstep => hstep.sound) sound_start

/-! ## There is a move until there is an answer -/

theorem Step.not_answered {s u : State} (h : Step t s u) : t.answer? s = none := by
  cases h <;> assumption

theorem exists_step {s : State} (hopen : t.answer? s = none) : ∃ u, Step t s u := by
  cases hfind : s.find with
  | unsent => exact ⟨_, .sendFind hfind hopen⟩
  | running => exact ⟨_, .endFind hfind hopen⟩
  | ended found =>
    have hsent : s.find ≠ .unsent := by
      rw [hfind]
      nofun
    cases hcount : s.count with
    | unsent => exact ⟨_, .sendCount hsent hcount hopen⟩
    | running => exact ⟨_, .endCount hcount hopen⟩
    | ended counted =>
      obtain ⟨hfound, hcounted, hboth⟩ := answer?_eq_none.1 hopen
      cases found with
      | error e => exact absurd hfind (hfound e)
      | ok records =>
        cases counted with
        | error e => exact absurd hcount (hcounted e)
        | ok total => exact absurd ⟨⟨records, hfind⟩, total, hcount⟩ hboth

/-! ## Answers -/

/-- Whether `e` is the failure of one of the calls, and the other one has not failed before. -/
def State.FailedFirst (t : PageTask) (s : State) (e : StoreError) : Prop :=
  (s.find = .ended (.error e) ∧ t.found = .error e ∧ ∀ e', s.count ≠ .ended (.error e')) ∨
    (s.count = .ended (.error e) ∧ t.counted = .error e ∧ ∀ e', s.find ≠ .ended (.error e'))

theorem State.Sound.of_page {s : State} (hs : s.Sound t) {page : Page}
    (h : t.answer? s = some (.ok page)) :
    t.found = .ok page.records ∧ t.counted = .ok page.total ∧ page.window = t.query.window ∧
      s.sent = [t.findCall, t.countCall] := by
  rw [answer?] at h
  split at h
  · cases h
  · next records total hfind hcount =>
    obtain rfl := Except.ok.inj (Option.some.inj h)
    refine ⟨(hs.find _ hfind).symm, (hs.count _ hcount).symm, rfl, ?_⟩
    rcases hs.sent with ⟨hunsent, -⟩ | ⟨-, hunsent, -⟩ | ⟨-, -, hsent⟩
    · rw [hfind] at hunsent
      cases hunsent
    · rw [hcount] at hunsent
      cases hunsent
    · exact hsent
  · cases h
  · cases h

theorem State.Sound.failedFirst {s : State} (hs : s.Sound t) {e : StoreError}
    (h : t.answer? s = some (.error e)) : s.FailedFirst t e := by
  rw [answer?] at h
  split at h
  · next e' hfind =>
    obtain rfl := Except.error.inj (Option.some.inj h)
    exact Or.inl ⟨hfind, (hs.find _ hfind).symm, hs.one_failure _ hfind⟩
  · cases h
  · next hcount hnot =>
    obtain rfl := Except.error.inj (Option.some.inj h)
    exact Or.inr ⟨hcount, (hs.count _ hcount).symm, hnot⟩
  · cases h

/-- An answer is a page just when both calls succeed. -/
theorem State.Sound.exists_page_iff {s : State} (hs : s.Sound t) (hanswer : t.answer? s ≠ none) :
    (∃ page, t.answer? s = some (.ok page)) ↔
      (∃ records, t.found = .ok records) ∧ ∃ total, t.counted = .ok total := by
  constructor
  · rintro ⟨page, hpage⟩
    obtain ⟨hfound, hcounted, -, -⟩ := hs.of_page hpage
    exact ⟨⟨_, hfound⟩, _, hcounted⟩
  · rintro ⟨⟨records, hfound⟩, total, hcounted⟩
    obtain ⟨answer, hsome⟩ := Option.ne_none_iff_exists'.1 hanswer
    cases answer with
    | ok page => exact ⟨page, hsome⟩
    | error e =>
      rcases hs.failedFirst hsome with ⟨-, hfailed, -⟩ | ⟨-, hfailed, -⟩
      · rw [hfound] at hfailed
        cases hfailed
      · rw [hcounted] at hfailed
        cases hfailed

theorem State.FailedFirst.collection {s : State} {e : StoreError} (h : s.FailedFirst t e) :
    e.collection = t.kind.collection := by
  have hfailed : t.found = .error e ∨ t.counted = .error e := by
    rcases h with ⟨-, hfound, -⟩ | ⟨-, hcounted, -⟩
    · exact Or.inl hfound
    · exact Or.inr hcounted
  exact Store.collection_of_failed hfailed

/-- Nothing has been sent after the call for the records. -/
def finding (t : PageTask) : State :=
  ⟨[t.findCall], .running, .unsent⟩

/-- Both calls have been sent, and none has ended. -/
def waiting (t : PageTask) : State :=
  ⟨[t.findCall, t.countCall], .running, .running⟩

theorem run_finding : Run t 1 start t.finding :=
  .step (.sendFind rfl rfl) (.refl _)

theorem run_waiting : Run t 2 start t.waiting :=
  .step (.sendFind rfl rfl) (.step (.sendCount nofun rfl rfl) (.refl _))

/-- A page is the answer when both calls succeed, and then it holds what they give. -/
theorem yields_ok_iff {page : Page} {sent : List Call} :
    t.Yields (.ok page) sent ↔
      t.found = .ok page.records ∧ t.counted = .ok page.total ∧ page.window = t.query.window ∧
        sent = [t.findCall, t.countCall] := by
  constructor
  · rintro ⟨n, s, hrun, hanswer, rfl⟩
    exact (hrun.sound).of_page hanswer
  · rintro ⟨hfound, hcounted, hwindow, rfl⟩
    have hlast : Run t 2 t.waiting ⟨t.waiting.sent, .ended t.found, .ended t.counted⟩ := by
      refine .step (.endFind rfl rfl) (.step (.endCount rfl ?_) (.refl _))
      rw [hfound]
      rfl
    refine ⟨_, _, run_waiting.trans hlast, ?_, rfl⟩
    rw [answer?, hfound, hcounted, ← hwindow]

/-- A failure is the answer when it is that of one of the calls. -/
theorem yields_error_iff {e : StoreError} {sent : List Call} :
    t.Yields (.error e) sent ↔
      (t.found = .error e ∧ (sent = [t.findCall] ∨ sent = [t.findCall, t.countCall])) ∨
        (t.counted = .error e ∧ sent = [t.findCall, t.countCall]) := by
  constructor
  · rintro ⟨n, s, hrun, hanswer, rfl⟩
    have hs := hrun.sound
    rcases hs.failedFirst hanswer with ⟨hfind, hfound, -⟩ | ⟨hcount, hcounted, -⟩
    · refine Or.inl ⟨hfound, ?_⟩
      rcases hs.sent with ⟨hunsent, -⟩ | ⟨-, -, hsent⟩ | ⟨-, -, hsent⟩
      · rw [hfind] at hunsent
        cases hunsent
      · exact Or.inl hsent
      · exact Or.inr hsent
    · refine Or.inr ⟨hcounted, ?_⟩
      rcases hs.sent with ⟨-, hunsent, -⟩ | ⟨-, hunsent, -⟩ | ⟨-, -, hsent⟩
      · rw [hcount] at hunsent
        cases hunsent
      · rw [hcount] at hunsent
        cases hunsent
      · exact hsent
  · rintro (⟨hfound, rfl | rfl⟩ | ⟨hcounted, rfl⟩)
    · refine ⟨_, _, run_finding.trans (.step (.endFind rfl rfl) (.refl _)), ?_, rfl⟩
      rw [answer?, hfound]
    · refine ⟨_, _, run_waiting.trans (.step (.endFind rfl rfl) (.refl _)), ?_, rfl⟩
      rw [answer?, hfound]
    · refine ⟨_, _, run_waiting.trans (.step (.endCount rfl rfl) (.refl _)), ?_, rfl⟩
      rw [answer?, hcounted]
      rfl

/-! ## The page of one session -/

/-- The page whose two calls are sent one right after the other. -/
def sentTogether (t : PageTask) (earlier : List Call) : PageTask :=
  { t with beforeFind := earlier, beforeCount := earlier ++ [t.findCall] }

/-- The page of one session is one that its calls yield, and its failure is the first in time. -/
theorem yields_page (t : PageTask) (earlier : List Call) :
    ∃ sent, (t.store.page t.kind t.query t.limit earlier).2 = earlier ++ sent ∧
      (t.sentTogether earlier).Yields (t.store.page t.kind t.query t.limit earlier).1 sent ∧
      ∀ e, (t.store.page t.kind t.query t.limit earlier).1 = .error e →
        (t.store.startFind t.kind t.query t.limit earlier).1.FailsFirst
          (t.store.startCount t.kind t.query t.limit (earlier ++ [t.findCall])).1 e ∨
        (t.store.startCount t.kind t.query t.limit (earlier ++ [t.findCall])).1.FailsFirst
          (t.store.startFind t.kind t.query t.limit earlier).1 e := by
  have hfind : (t.sentTogether earlier).found =
      (t.store.startFind t.kind t.query t.limit earlier).1.result := rfl
  have hcount : (t.sentTogether earlier).counted =
      (t.store.startCount t.kind t.query t.limit (earlier ++ [t.findCall])).1.result := rfl
  by_cases hfailed :
      ∃ e, (t.store.startFind t.kind t.query t.limit earlier).1 = ⟨0, .error e⟩
  · obtain ⟨e, he⟩ := hfailed
    rw [Store.page_of_failed_at_once he, he]
    rw [he] at hfind
    refine ⟨[t.findCall], rfl, yields_error_iff.2 (Or.inl ⟨hfind, Or.inl rfl⟩), ?_⟩
    intro e' he'
    obtain rfl := Except.error.inj he'
    exact Or.inl ⟨rfl, fun _ _ => Nat.zero_le _⟩
  · rw [Store.page_of_not_failed_at_once (not_exists.1 hfailed)]
    refine ⟨[t.findCall, t.countCall], rfl, ?_⟩
    rw [← findCall]
    generalize (t.store.startFind t.kind t.query t.limit earlier).1 = find at hfind ⊢
    generalize (t.store.startCount t.kind t.query t.limit (earlier ++ [t.findCall])).1 = count
      at hcount ⊢
    cases hboth : find.both count with
    | error e =>
      have hfirst := Settled.both_eq_error hboth
      refine ⟨yields_error_iff.2 ?_, fun e' he' => Except.error.inj he' ▸ hfirst⟩
      rcases hfirst with ⟨hfailed, -⟩ | ⟨hfailed, -⟩
      · exact Or.inl ⟨hfind.trans hfailed, Or.inr rfl⟩
      · exact Or.inr ⟨hcount.trans hfailed, rfl⟩
    | ok both =>
      obtain ⟨records, total⟩ := both
      obtain ⟨hfound, hcounted⟩ := Settled.both_eq_ok.1 hboth
      exact ⟨yields_ok_iff.2 ⟨hfind.trans hfound, hcount.trans hcounted, rfl, rfl⟩, nofun⟩

end PageTask

namespace Store

variable {store : Store} {kind : Kind} {q : Query} {limit : Duration} {earlier : List Call}

theorem page_eq_error {e : StoreError} (h : (store.page kind q limit earlier).1 = .error e) :
    (store.records kind q).result store limit earlier = .error e ∨
      (total kind q).result store limit (earlier ++ [store.findCall kind q]) = .error e := by
  rw [← find_apply, ← count_apply]
  obtain ⟨sent, -, hyields, -⟩ := PageTask.yields_page ⟨store, kind, q, limit, [], []⟩ earlier
  rw [h] at hyields
  rcases PageTask.yields_error_iff.1 hyields with ⟨hfound, -⟩ | ⟨hcounted, -⟩
  · exact Or.inl hfound
  · exact Or.inr hcounted

theorem of_page_eq_ok {page : Page} (h : (store.page kind q limit earlier).1 = .ok page) :
    (store.records kind q).result store limit earlier = .ok page.records ∧
      (total kind q).result store limit (earlier ++ [store.findCall kind q]) = .ok page.total := by
  rw [← find_apply, ← count_apply]
  obtain ⟨sent, -, hyields, -⟩ := PageTask.yields_page ⟨store, kind, q, limit, [], []⟩ earlier
  rw [h] at hyields
  obtain ⟨hfound, hcounted, -, -⟩ := PageTask.yields_ok_iff.1 hyields
  exact ⟨hfound, hcounted⟩

end Store

namespace PageTask

variable {t : PageTask}

theorem State.Sound.sent_prefix {s : State} (hs : s.Sound t) :
    s.sent <+: [t.findCall, t.countCall] := by
  rcases hs.sent with ⟨-, -, hsent⟩ | ⟨-, -, hsent⟩ | ⟨-, -, hsent⟩
  · exact hsent ▸ List.nil_prefix
  · exact hsent ▸ ⟨[t.countCall], rfl⟩
  · exact hsent ▸ List.prefix_refl _

/-- A page is all or nothing. Its calls send at most one call each, that for the records first, and
there is a move until there is an answer; a failure is the answer as soon as one call has failed.
The answer is a page when both calls succeed, with what they give, and the failure of one of them
otherwise. Both calls are for the collection of the kind, and the number is counted by the match
with which the records are found. The page of one session is one of those answers. -/
theorem page_all_or_nothing (t : PageTask) :
    (∀ n s, Run t n start s →
      n ≤ 4 ∧ s.sent <+: [t.findCall, t.countCall] ∧
      (t.answer? s = none ↔ ∃ u, Step t s u) ∧
      (t.answer? s ≠ none → ((∃ page, t.answer? s = some (.ok page)) ↔
        (∃ records, t.found = .ok records) ∧ ∃ total, t.counted = .ok total)) ∧
      ∀ e, t.answer? s = some (.error e) →
        s.FailedFirst t e ∧ e.collection = t.kind.collection) ∧
    (∀ page sent, t.Yields (.ok page) sent ↔
      t.found = .ok page.records ∧ t.counted = .ok page.total ∧ page.window = t.query.window ∧
        sent = [t.findCall, t.countCall]) ∧
    (∀ e sent, t.Yields (.error e) sent ↔
      (t.found = .error e ∧ (sent = [t.findCall] ∨ sent = [t.findCall, t.countCall])) ∨
        (t.counted = .error e ∧ sent = [t.findCall, t.countCall])) ∧
    (t.findCall.collection = t.kind.collection ∧ t.countCall.collection = t.kind.collection ∧
      (t.findCall.pipeline.toDocuments.filter (Stage.isUnder "$match")).length ≤ 1 ∧
      t.countCall.pipeline.toDocuments =
        t.findCall.pipeline.toDocuments.filter (Stage.isUnder "$match") ++
          [[("$count", .string Query.totalKey)]]) ∧
    (∀ earlier, ∃ sent,
      (t.store.page t.kind t.query t.limit earlier).2 = earlier ++ sent ∧
      (t.sentTogether earlier).Yields (t.store.page t.kind t.query t.limit earlier).1 sent ∧
      ∀ e, (t.store.page t.kind t.query t.limit earlier).1 = .error e →
        (t.store.startFind t.kind t.query t.limit earlier).1.FailsFirst
          (t.store.startCount t.kind t.query t.limit (earlier ++ [t.findCall])).1 e ∨
        (t.store.startCount t.kind t.query t.limit (earlier ++ [t.findCall])).1.FailsFirst
          (t.store.startFind t.kind t.query t.limit earlier).1 e) := by
  refine ⟨fun n s hrun => ?_, fun page sent => yields_ok_iff, fun e sent => yields_error_iff,
    ⟨rfl, rfl, ?_, ?_⟩, yields_page t⟩
  · have hs := hrun.sound
    refine ⟨hrun.length_le, hs.sent_prefix, ⟨exists_step, ?_⟩, hs.exists_page_iff, fun e he => ?_⟩
    · rintro ⟨u, hstep⟩
      exact hstep.not_answered
    · have hfirst := hs.failedFirst he
      exact ⟨hfirst, hfirst.collection⟩
  · exact Query.length_filter_match_pipeline t.query t.kind t.store.relatedDepth
  · exact Query.countPipeline_toDocuments t.query t.kind t.store.relatedDepth

/-- A page from a source that takes too long to count. -/
def uncounted : PageTask where
  store :=
    { source :=
        { answer := fun seen _ => ⟨if seen.isEmpty then 20 else 200, some []⟩
          pingDelay := 0
          isUp := true } }
  kind := .post
  query := { window := ⟨0, 10⟩ }
  limit := ⟨100⟩
  beforeFind := []
  beforeCount := [⟨.posts, []⟩]

theorem page_all_or_nothing_uncounted :
    (∀ answer sent, uncounted.Yields answer sent ↔
      answer = .error (.timeout .posts ⟨100⟩) ∧
        sent = [uncounted.findCall, uncounted.countCall]) ∧
    ∀ n s, Run uncounted n start s → n ≤ 4 := by
  obtain ⟨hruns, hpage, herror, -⟩ := page_all_or_nothing uncounted
  have hfound : uncounted.found = .ok [] := rfl
  have hcounted : uncounted.counted = .error (.timeout .posts ⟨100⟩) := rfl
  refine ⟨fun answer sent => ?_, fun n s hrun => (hruns n s hrun).1⟩
  cases answer with
  | ok page =>
    rw [hpage, hcounted]
    simp
  | error e =>
    rw [herror, hfound, hcounted]
    simp [eq_comm]

end PageTask

end NewsService

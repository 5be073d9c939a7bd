import NewsService.Proofs.IndexPage.Entries
import NewsService.Proofs.Runs
import NewsService.Proofs.Store.Calls

/-!
# The fan-in of the index page

Each section has a task of its own. A task waits for its query to end, sends the end on a channel
with a place for every section, and is gone. One receiver takes the ends from the channel and puts
them on the page, until there is neither a task left nor an end in the channel. The tasks and the
receiver move one at a time, in any order.
-/

namespace NewsService

namespace FanIn

/-- The task of a section. -/
structure Task where
  /-- The section. -/
  asked : Section
  /-- The calls that the source has seen before the one of the task. -/
  earlier : List Call

/-- How the query of a task ends. -/
def Task.ending (store : Store) (limit : Duration) (t : Task) : Section.Ended :=
  (t.asked, (store.startFind t.asked.kind t.asked.query limit t.earlier).1)

/-- Where the tasks, the channel and the receiver are. -/
structure State where
  /-- Tasks whose query has not ended. -/
  running : List Task
  /-- The ends of queries that are to be sent. -/
  ended : List Section.Ended
  /-- What is in the channel, the oldest first. -/
  channel : List Section.Ended
  /-- The page so far. -/
  page : IndexPage
  /-- Whether the receiver has found the channel closed. -/
  closed : Bool

/-- The places of the channel. -/
def capacity (tasks : List Task) : Nat :=
  max tasks.length 1

/-- All tasks have been started, and none has ended. -/
def start (tasks : List Task) : State :=
  ⟨tasks, [], [], {}, false⟩

section Moves

variable (store : Store) (limit : Duration) (places : Nat)

/-- A move of a task or of the receiver. -/
inductive Step : State → State → Prop
  /-- The query of a task ends. -/
  | finish {s : State} {before after : List Task} {t : Task}
      (h : s.running = before ++ t :: after) :
      Step s { s with running := before ++ after, ended := t.ending store limit :: s.ended }
  /-- A task sends; there must be a place in the channel. -/
  | send {s : State} {before after : List Section.Ended} {m : Section.Ended}
      (h : s.ended = before ++ m :: after) (hplace : s.channel.length < places) :
      Step s { s with ended := before ++ after, channel := s.channel ++ [m] }
  /-- The receiver takes the oldest end from the channel. -/
  | receive {s : State} {rest : List Section.Ended} {m : Section.Ended}
      (h : s.channel = m :: rest) :
      Step s { s with channel := rest, page := s.page.takeUp m }
  /-- The receiver finds that nothing can come any more. -/
  | close {s : State} (hrunning : s.running = []) (hended : s.ended = [])
      (hchannel : s.channel = []) (hopen : s.closed = false) : Step s { s with closed := true }

/-- A number of moves. -/
abbrev Run (n : Nat) (s t : State) : Prop :=
  Moves (Step store limit places) n s t

end Moves

variable {store : Store} {limit : Duration} {places : Nat}

/-! ## Every run ends -/

/-- The number of moves that are left. -/
def State.left (s : State) : Nat :=
  3 * s.running.length + 2 * s.ended.length + s.channel.length + if s.closed then 0 else 1

theorem Step.left_eq {s t : State} (h : Step store limit places s t) : s.left = t.left + 1 := by
  cases h with
  | finish hrunning =>
    simp only [State.left, hrunning, List.length_append, List.length_cons]
    omega
  | send hended =>
    simp only [State.left, hended, List.length_append, List.length_cons, List.length_nil]
    omega
  | receive hchannel =>
    simp only [State.left, hchannel, List.length_cons]
    omega
  | close _ _ _ hopen => simp [State.left, hopen]

/-! ## Nothing is lost or doubled -/

/-- What was received, what is under way and what is still to end make up the ends of all tasks, and
the page is that of what was received. -/
structure State.Accounts (store : Store) (limit : Duration) (tasks : List Task)
    (received : List Section.Ended) (s : State) : Prop where
  page_eq : s.page = IndexPage.collect received
  perm : (received ++ s.channel ++ s.ended ++ s.running.map (Task.ending store limit)).Perm
    (tasks.map (Task.ending store limit))
  closed : s.closed = true → s.running = [] ∧ s.ended = [] ∧ s.channel = []

theorem accounts_start (tasks : List Task) : (start tasks).Accounts store limit tasks [] :=
  ⟨rfl, List.Perm.refl _, fun h => absurd h Bool.false_ne_true⟩

/-- No move loses or doubles an end. -/
theorem Step.accounts {tasks : List Task} {received : List Section.Ended} {s t : State}
    (h : Step store limit places s t) (hs : s.Accounts store limit tasks received) :
    ∃ received, t.Accounts store limit tasks received := by
  obtain ⟨hpage, hperm, hclosed⟩ := hs
  cases h with
  | @finish before after t hrunning =>
    refine ⟨received, hpage, List.Perm.trans ?_ hperm, ?_⟩
    · simp only [hrunning, List.map_append, List.map_cons, List.append_assoc, List.cons_append]
      refine List.Perm.append_left _ (List.Perm.append_left _ ?_)
      rw [← List.append_assoc, ← List.append_assoc]
      exact List.perm_middle.symm
    · intro h
      have hnone := (hclosed h).1
      simp [hrunning] at hnone
  | @send before after m hended =>
    refine ⟨received, hpage, List.Perm.trans ?_ hperm, ?_⟩
    · simp only [hended, List.append_assoc, List.cons_append, List.nil_append]
      exact List.Perm.append_left _ (List.Perm.append_left _ List.perm_middle.symm)
    · intro h
      have hnone := (hclosed h).2.1
      simp [hended] at hnone
  | @receive rest m hchannel =>
    refine ⟨received ++ [m], ?_, ?_, ?_⟩
    · rw [IndexPage.collect_append, ← hpage]
    · rw [List.append_assoc received]
      rw [hchannel] at hperm
      exact hperm
    · intro h
      have hnone := (hclosed h).2.2
      simp [hchannel] at hnone
  | close hrunning hended hchannel =>
    exact ⟨received, hpage, hperm, fun _ => ⟨hrunning, hended, hchannel⟩⟩

section FromStart

variable {tasks : List Task} {n : Nat} {s : State}

theorem Run.accounts (h : Run store limit places n (start tasks) s) :
    ∃ received, s.Accounts store limit tasks received := by
  refine h.keeps (fun s => ∃ received, s.Accounts store limit tasks received) ?_
    ⟨[], accounts_start tasks⟩
  rintro s t hstep ⟨received, hs⟩
  exact hstep.accounts hs

/-- A run of `k` tasks has at most `3 * k + 1` moves. -/
theorem Run.length_le (h : Run store limit places n (start tasks) s) :
    n ≤ 3 * tasks.length + 1 := by
  have hleft := h.measure_eq State.left fun _ _ hstep => hstep.left_eq
  simp only [State.left, start, List.length_nil, Bool.false_eq_true, if_false] at hleft
  omega

/-- A task never waits for a place in the channel. -/
theorem Run.room (h : Run store limit places n (start tasks) s) (hended : s.ended ≠ []) :
    s.channel.length < capacity tasks := by
  obtain ⟨received, hs⟩ := h.accounts
  have hlength := hs.perm.length_eq
  have hpos := List.length_pos_iff.2 hended
  simp only [List.length_append, List.length_map] at hlength
  rw [capacity]
  omega

/-- There is a move until the receiver has found the channel closed. -/
theorem Run.exists_step (h : Run store limit places n (start tasks) s) (hopen : s.closed = false) :
    ∃ t, Step store limit (capacity tasks) s t := by
  -- what is furthest behind moves first
  cases hrunning : s.running with
  | cons t rest =>
    have hfirst : s.running = [] ++ t :: rest := hrunning
    exact ⟨_, .finish hfirst⟩
  | nil =>
    cases hended : s.ended with
    | cons m rest =>
      have hfirst : s.ended = [] ++ m :: rest := hended
      have hroom := h.room (hended ▸ List.cons_ne_nil m rest)
      exact ⟨_, .send hfirst hroom⟩
    | nil =>
      cases hchannel : s.channel with
      | cons m rest => exact ⟨_, .receive hchannel⟩
      | nil => exact ⟨_, .close hrunning hended hchannel hopen⟩

/-- When the channel is found closed, the ends of all tasks have been received, in some order. -/
theorem Run.received_all (h : Run store limit places n (start tasks) s)
    (hclosed : s.closed = true) :
    ∃ received, received.Perm (tasks.map (Task.ending store limit)) ∧
      s.page = IndexPage.collect received := by
  obtain ⟨received, hs⟩ := h.accounts
  obtain ⟨hrunning, hended, hchannel⟩ := hs.closed hclosed
  have hperm := hs.perm
  rw [hrunning, hended, hchannel, List.map_nil, List.append_nil, List.append_nil,
    List.append_nil] at hperm
  exact ⟨received, hperm, hs.page_eq⟩

end FromStart

/-! ## The page -/

/-- Whether some run of the tasks ends with a page. -/
def Yields (store : Store) (limit : Duration) (tasks : List Task) (page : IndexPage) : Prop :=
  ∃ n s, Run store limit (capacity tasks) n (start tasks) s ∧ s.closed = true ∧ s.page = page

/-- What the section of a task shows in the end: the records that are found for it, or none. -/
def Task.shown (store : Store) (limit : Duration) (t : Task) : SectionRecords :=
  ⟨t.asked.kind, ((store.find t.asked.kind t.asked.query limit t.earlier).1.toOption).getD []⟩

theorem Task.shown_ending (t : Task) :
    (t.ending store limit).1.shown (t.ending store limit).2.result = t.shown store limit :=
  Section.shown_eq _ _

namespace Yields

variable {tasks : List Task} {page : IndexPage}

theorem received_all (h : Yields store limit tasks page) :
    ∃ received, received.Perm (tasks.map (Task.ending store limit)) ∧
      page = IndexPage.collect received := by
  obtain ⟨n, s, hrun, hclosed, rfl⟩ := h
  exact hrun.received_all hclosed

theorem increasing (h : Yields store limit tasks page) : IndexPage.Increasing page.sections := by
  obtain ⟨received, -, rfl⟩ := h.received_all
  exact IndexPage.increasing_collect received

/-- What a page shows under a name is the outcome of a task with this name. -/
theorem of_shownAt (h : Yields store limit tasks page) {name : String} {shown : SectionRecords}
    (hshown : page.shownAt name = some shown) :
    ∃ t ∈ tasks, t.asked.name = name ∧ t.shown store limit = shown := by
  obtain ⟨received, hperm, rfl⟩ := h.received_all
  obtain ⟨m, hm, hname, hresult⟩ := IndexPage.of_shownAt_collect hshown
  obtain ⟨t, ht, rfl⟩ := List.mem_map.1 (hperm.subset hm)
  exact ⟨t, ht, hname, (t.shown_ending).symm.trans hresult⟩

/-- A page shows something under the name of every task. -/
theorem shownAt_isSome (h : Yields store limit tasks page) {t : Task} (ht : t ∈ tasks) :
    (page.shownAt t.asked.name).isSome = true := by
  obtain ⟨received, hperm, rfl⟩ := h.received_all
  exact IndexPage.shownAt_collect_isSome (hperm.symm.subset (List.mem_map_of_mem ht))

variable (hnodup : (tasks.map fun t => t.asked.name).Nodup)
include hnodup

/-- When names do not repeat, each section shows the outcome of its own task. -/
theorem shownAt (h : Yields store limit tasks page) {t : Task} (ht : t ∈ tasks) :
    page.shownAt t.asked.name = some (t.shown store limit) := by
  obtain ⟨shown, hshown⟩ := Option.isSome_iff_exists.1 (h.shownAt_isSome ht)
  obtain ⟨u, hu, hname, rfl⟩ := h.of_shownAt hshown
  rw [hshown, List.inj_on_of_nodup_map hnodup hu ht hname]

/-- When names do not repeat, every run ends with the same page. -/
theorem unique (h : Yields store limit tasks page) {page' : IndexPage}
    (h' : Yields store limit tasks page') : page = page' := by
  obtain ⟨received, hperm, rfl⟩ := h.received_all
  obtain ⟨received', hperm', rfl⟩ := h'.received_all
  refine IndexPage.collect_perm ?_ (hperm.trans hperm'.symm)
  have hnames := hperm.map fun m => m.1.name
  rw [List.map_map] at hnames
  exact hnames.nodup_iff.2 hnodup

end Yields

/-- What a task shows depends on what the source does for the collection of its section only. -/
theorem Task.shown_congr {other : Store} {t : Task}
    (hdepth : other.relatedDepth = store.relatedDepth)
    (hanswer : ∀ earlier call, call.collection = t.asked.kind.collection →
      other.source.answer earlier call = store.source.answer earlier call) :
    t.shown other limit = t.shown store limit := by
  have hask : other.records t.asked.kind t.asked.query =
      store.records t.asked.kind t.asked.query := by
    rw [Store.records, Store.records, Store.findCall, Store.findCall, hdepth]
  have hreply := hanswer t.earlier (store.records t.asked.kind t.asked.query).call rfl
  rw [shown, shown, Store.find_apply, Store.find_apply, hask, Inquiry.result, Inquiry.result,
    hreply]

/-! ## Runs for every order -/

/-- All queries can end before anything is sent. -/
theorem exists_run_finish (tasks : List Task) (ended : List Section.Ended) :
    ∃ n ended', ended'.Perm (tasks.map (Task.ending store limit) ++ ended) ∧
      Run store limit places n ⟨tasks, ended, [], {}, false⟩ ⟨[], ended', [], {}, false⟩ := by
  induction tasks generalizing ended with
  | nil => exact ⟨0, ended, List.Perm.refl _, .refl _⟩
  | cons t rest ih =>
    obtain ⟨n, ended', hperm, hrun⟩ := ih (t.ending store limit :: ended)
    have hfirst : [] ++ t :: rest = t :: rest := rfl
    exact ⟨n + 1, ended', hperm.trans List.perm_middle, .step (.finish hfirst.symm) hrun⟩

/-- Ends can be sent and received in any order. -/
theorem exists_run_receive (hplaces : 0 < places) {received ended : List Section.Ended}
    (hperm : received.Perm ended) (page : IndexPage) :
    ∃ n, Run store limit places n ⟨[], ended, [], page, false⟩
      ⟨[], [], [], received.foldl IndexPage.takeUp page, true⟩ := by
  induction received generalizing ended page with
  | nil =>
    rw [List.nil_perm.1 hperm]
    exact ⟨1, .step (.close rfl rfl rfl rfl) (.refl _)⟩
  | cons m rest ih =>
    obtain ⟨before, after, rfl⟩ := List.append_of_mem (hperm.subset List.mem_cons_self)
    have hrest : rest.Perm (before ++ after) := (hperm.trans List.perm_middle).cons_inv
    -- one end at a time is in the channel, so there is always a place
    obtain ⟨n, hrun⟩ := ih hrest (page.takeUp m)
    exact ⟨n + 1 + 1, .step (.send rfl hplaces) (.step (.receive rfl) hrun)⟩

/-- For every order of the ends there is a run that receives them in this order. -/
theorem yields_of_perm {tasks : List Task} {received : List Section.Ended}
    (hperm : received.Perm (tasks.map (Task.ending store limit))) :
    Yields store limit tasks (IndexPage.collect received) := by
  obtain ⟨n, ended, hended, hfinish⟩ := exists_run_finish tasks []
  rw [List.append_nil] at hended
  have hplaces : 0 < capacity tasks := Nat.lt_of_lt_of_le Nat.one_pos (Nat.le_max_right _ _)
  obtain ⟨k, hreceive⟩ := exists_run_receive hplaces (hperm.trans hended.symm) {}
  exact ⟨n + k, _, hfinish.trans hreceive, rfl, rfl⟩

/-- The tasks of sections that are started one after another, each of which sends its call at
once. -/
def spawn (store : Store) : List Section → List Call → List Task
  | [], _ => []
  | s :: rest, earlier =>
    ⟨s, earlier⟩ :: spawn store rest (earlier ++ [store.findCall s.kind s.query])

theorem asked_spawn (sections : List Section) (earlier : List Call) :
    (spawn store sections earlier).map Task.asked = sections := by
  induction sections generalizing earlier with
  | nil => rfl
  | cons s rest ih => rw [spawn, List.map_cons, ih]

theorem mapM_startFind (sections : List Section) (earlier : List Call) :
    ((sections.mapM fun s => do
      return (s, ← store.startFind s.kind s.query limit) : Session (List Section.Ended))
        earlier).1 = (spawn store sections earlier).map (Task.ending store limit) := by
  induction sections generalizing earlier with
  | nil => rfl
  | cons s rest ih =>
    rw [List.mapM_cons, spawn, List.map_cons, ← ih]
    rfl

/-- The page that is assembled in one session is one that the tasks yield. -/
theorem yields_assemble (store : Store) (limit : Duration) (sections : List Section)
    (earlier : List Call) :
    Yields store limit (spawn store sections earlier)
      (IndexPage.assemble store sections limit earlier).1 := by
  have hperm := List.mergeSort_perm ((spawn store sections earlier).map (Task.ending store limit))
    fun a b => decide (a.2.time ≤ b.2.time)
  rw [← mapM_startFind] at hperm
  exact yields_of_perm (hperm.trans (List.Perm.of_eq (mapM_startFind sections earlier)))

/-- The fan-in loses, doubles and mixes nothing. Every run of the tasks ends, and no task waits for
a place in the channel. A page has exactly the names of the sections, and what it shows under a name
is the outcome of a section with that name. When names do not repeat, the page does not depend on
the order of moves, and what a source does for one collection touches no section of another one. The
page that is assembled in one session is one of those that the tasks of its sections yield. -/
theorem fan_in_exact (store : Store) (limit : Duration) (tasks : List Task) :
    (∀ n s, Run store limit (capacity tasks) n (start tasks) s →
      n ≤ 3 * tasks.length + 1 ∧
      (s.ended ≠ [] → s.channel.length < capacity tasks) ∧
      (s.closed = false → ∃ t, Step store limit (capacity tasks) s t)) ∧
    (∀ page, Yields store limit tasks page →
      IndexPage.Increasing page.sections ∧
      (∀ name, (page.shownAt name).isSome = true ↔ ∃ t ∈ tasks, t.asked.name = name) ∧
      (∀ name shown, page.shownAt name = some shown →
        ∃ t ∈ tasks, t.asked.name = name ∧ t.shown store limit = shown)) ∧
    ((tasks.map fun t => t.asked.name).Nodup →
      (∀ page page', Yields store limit tasks page → Yields store limit tasks page' →
        page = page') ∧
      (∀ (other : Store) (collection : Collection), other.relatedDepth = store.relatedDepth →
        (∀ earlier call, call.collection ≠ collection →
          other.source.answer earlier call = store.source.answer earlier call) →
        ∀ page page', Yields store limit tasks page → Yields other limit tasks page' →
          ∀ t ∈ tasks, t.asked.kind.collection ≠ collection →
            page'.shownAt t.asked.name = page.shownAt t.asked.name)) ∧
    (∀ earlier, Yields store limit (spawn store (tasks.map Task.asked) earlier)
      (IndexPage.assemble store (tasks.map Task.asked) limit earlier).1) := by
  refine ⟨?_, ?_, ?_, yields_assemble store limit (tasks.map Task.asked)⟩
  · intro n s hrun
    exact ⟨hrun.length_le, hrun.room, hrun.exists_step⟩
  · intro page hpage
    refine ⟨hpage.increasing, fun name => ⟨?_, ?_⟩, fun name shown => hpage.of_shownAt⟩
    · intro hsome
      obtain ⟨shown, hshown⟩ := Option.isSome_iff_exists.1 hsome
      obtain ⟨t, ht, hname, -⟩ := hpage.of_shownAt hshown
      exact ⟨t, ht, hname⟩
    · rintro ⟨t, ht, rfl⟩
      exact hpage.shownAt_isSome ht
  · intro hnodup
    refine ⟨fun page page' hpage hpage' => hpage.unique hnodup hpage', ?_⟩
    intro other collection hdepth hanswer page page' hpage hpage' t ht hne
    rw [hpage.shownAt hnodup ht, hpage'.shownAt hnodup ht]
    refine congrArg some (t.shown_congr hdepth fun earlier call hcall => ?_)
    exact hanswer earlier call (hcall ▸ hne)

/-- A store that refuses the calls for some collections and finds nothing in the others. -/
def refusing (refused : Collection → Bool) : Store where
  source :=
    { answer := fun _ call => ⟨20, if refused call.collection then none else some []⟩
      pingDelay := 0
      isUp := true }

/-- The tasks of the standard page when topics are refused. -/
def standardTasks : List Task :=
  spawn (refusing (· == .topics)) Section.standard []

/-- The standard page when topics are refused, beside the page when nothing is. -/
theorem fan_in_exact_standard :
    (standardTasks.map fun t => t.asked.name).Nodup ∧
    (∀ page, Yields (refusing (· == .topics)) ⟨100⟩ standardTasks page →
      page = (IndexPage.assemble (refusing (· == .topics)) Section.standard ⟨100⟩ []).1 ∧
      ∀ page', Yields (refusing fun _ => false) ⟨100⟩ standardTasks page' →
        page'.shownAt "latest" = page.shownAt "latest") ∧
    (∀ n s, Run (refusing (· == .topics)) ⟨100⟩ (capacity standardTasks) n (start standardTasks) s →
      n ≤ 19) := by
  obtain ⟨hruns, -, hdistinct, hassemble⟩ :=
    fan_in_exact (refusing (· == .topics)) ⟨100⟩ standardTasks
  have hnodup : (standardTasks.map fun t => t.asked.name).Nodup := by decide
  obtain ⟨hunique, hisolated⟩ := hdistinct hnodup
  have hpage := hassemble []
  rw [standardTasks, asked_spawn] at hpage
  refine ⟨hnodup, fun page hyields => ⟨hunique _ _ hyields hpage, ?_⟩, fun n s hrun => ?_⟩
  · intro page' hyields'
    have hlatest : ∃ t ∈ standardTasks, t.asked.name = "latest" ∧ t.asked.kind = .post := by decide
    obtain ⟨t, ht, hname, hkind⟩ := hlatest
    have hother : t.asked.kind.collection ≠ .topics := by
      rw [hkind]
      decide
    have hanswer : ∀ earlier call, call.collection ≠ .topics →
        (refusing fun _ => false).source.answer earlier call =
          (refusing (· == .topics)).source.answer earlier call := by
      intro earlier call hne
      simp [refusing, hne]
    rw [← hname]
    exact hisolated (refusing fun _ => false) .topics rfl hanswer page page' hyields hyields' t ht
      hother
  · exact (hruns n s hrun).1

end FanIn

end NewsService

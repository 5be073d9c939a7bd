import NewsService.Proofs.Document.Items
import NewsService.Proofs.Pipeline.Layout
import NewsService.Proofs.Store.Page
import NewsService.Store.Script

/-!
# The store over a script

What a script says of a collection decides how every call for it ends: whether time runs out, and
otherwise whether the call is refused or a row cannot be read. Main statements: each operation of
the store runs out of time, or breaks, just when the script says so.
-/

namespace NewsService

namespace Script

variable (script : Script) (kind : Kind)

/-- How long the calls for a kind take, in milliseconds. -/
def delayOf : Nat :=
  (script.delays.lookup kind.collection.name).getD 0

/-- The documents that are given for a kind. -/
def documentsOf : List Document :=
  (script.documents.lookup kind.collection.name).getD []

/-- The reply to a call for a kind that has `rows` as its answer, unless it is refused. -/
def replyOf (rows : List Document) : Reply :=
  ⟨script.delayOf kind, if script.failing.contains kind.collection.name then none else some rows⟩

/-- Whether the calls for a kind take longer than they are given. -/
def IsLate (limit : Duration) : Prop :=
  limit.millis < script.delayOf kind

/-- Whether the calls for a kind are refused. -/
def Refuses : Prop :=
  script.failing.contains kind.collection.name = true

instance (limit : Duration) : Decidable (script.IsLate kind limit) :=
  inferInstanceAs (Decidable (limit.millis < script.delayOf kind))

instance : Decidable (script.Refuses kind) :=
  inferInstanceAs (Decidable (script.failing.contains kind.collection.name = true))

/-- Whether some document that is given for a kind is no record of it. -/
def HasUnreadable : Prop :=
  ∃ d ∈ script.documentsOf kind, ∃ e, Record.decode kind.recordType d = .error e

/-- Whether the first row of the count for a kind holds no number. -/
def HasUnreadableCount : Prop :=
  ∃ row e, (script.countRows kind.collection.name).head? = some row ∧ readTotal row = .error e

end Script

/-! ## Results -/

/-- Whether a result is that time ran out. -/
def TimesOut {α : Type} (result : Except StoreError α) : Prop :=
  ∃ e, result = .error e ∧ e.isTimeout = true

/-- Whether a result is any other failure. -/
def Breaks {α : Type} (result : Except StoreError α) : Prop :=
  ∃ e, result = .error e ∧ e.isTimeout = false

/-- A result that is no failure is a success. -/
theorem exists_ok_of_not_failed {α : Type} {result : Except StoreError α} (h : ¬ TimesOut result)
    (h' : ¬ Breaks result) : ∃ a, result = .ok a := by
  cases result with
  | ok a => exact ⟨a, rfl⟩
  | error e =>
    cases htimeout : e.isTimeout with
    | false => exact absurd ⟨e, rfl, htimeout⟩ h'
    | true => exact absurd ⟨e, rfl, htimeout⟩ h

theorem timesOut_map {α β : Type} {result : Except StoreError α} {f : α → β} :
    TimesOut (result.map f) ↔ TimesOut result := by
  cases result <;> simp [TimesOut, Except.map]

theorem breaks_map {α β : Type} {result : Except StoreError α} {f : α → β} :
    Breaks (result.map f) ↔ Breaks result := by
  cases result <;> simp [Breaks, Except.map]

/-- A call that is answered with `a` unless it is refused: it is refused, or `a` has a property. -/
theorem refused_or_iff {α : Type} {refused : Bool} {a : α} {p : α → Prop} :
    ((if refused then none else some a) = none ∨
      ∃ b, (if refused then none else some a) = some b ∧ p b) ↔ refused = true ∨ p a := by
  cases refused <;> simp

/-! ## Inquiries -/

namespace Inquiry

variable {α : Type} {ask : Inquiry α} {limit : Duration}

/-- A call runs out of time just when its reply comes too late. -/
theorem settle_timesOut_iff {reply : Reply} :
    TimesOut (ask.settle limit reply).result ↔ limit.millis < reply.delay := by
  constructor
  · rintro ⟨e, he, htimeout⟩
    rcases settle_eq_error.1 he with ⟨hlate, -⟩ | ⟨-, -, rfl⟩ | ⟨-, _, cause, -, -, rfl⟩
    · exact hlate
    · cases htimeout
    · cases htimeout
  · intro hlate
    exact ⟨_, settle_eq_error.2 (Or.inl ⟨hlate, rfl⟩), rfl⟩

/-- A call breaks when its reply comes in time, but is a refusal or cannot be read. -/
theorem settle_breaks_iff {reply : Reply} :
    Breaks (ask.settle limit reply).result ↔
      reply.delay ≤ limit.millis ∧ (reply.documents = none ∨
        ∃ documents, reply.documents = some documents ∧ ∃ e, ask.read documents = .error e) := by
  constructor
  · rintro ⟨e, he, htimeout⟩
    rcases settle_eq_error.1 he with ⟨-, rfl⟩ | ⟨hle, hnone, -⟩ |
      ⟨hle, documents, cause, hdocuments, hread, -⟩
    · cases htimeout
    · exact ⟨hle, Or.inl hnone⟩
    · exact ⟨hle, Or.inr ⟨documents, hdocuments, cause, hread⟩⟩
  · rintro ⟨hle, hnone | ⟨documents, hdocuments, cause, hread⟩⟩
    · exact ⟨_, settle_eq_error.2 (Or.inr (Or.inl ⟨hle, hnone, rfl⟩)), rfl⟩
    · exact ⟨_, settle_eq_error.2 (Or.inr (Or.inr
        ⟨hle, documents, cause, hdocuments, hread, rfl⟩)), rfl⟩

variable {script : Script} {store : Store} {kind : Kind} {rows : List Document}
  {earlier : List Call} (hsource : store.source = script.source)
  (hreply : script.reply ask.call = script.replyOf kind rows)
include hsource hreply

theorem result_eq :
    ask.result store limit earlier = (ask.settle limit (script.replyOf kind rows)).result := by
  rw [result, hsource, ← hreply]
  rfl

theorem result_timesOut_iff :
    TimesOut (ask.result store limit earlier) ↔ script.IsLate kind limit := by
  rw [result_eq hsource hreply, settle_timesOut_iff]
  rfl

theorem result_breaks_iff :
    Breaks (ask.result store limit earlier) ↔ ¬ script.IsLate kind limit ∧
      (script.Refuses kind ∨ ∃ e, ask.read rows = .error e) := by
  rw [result_eq hsource hreply, settle_breaks_iff, Script.IsLate, Nat.not_lt]
  exact and_congr_right fun _ => refused_or_iff

/-- What is learnt is read from the rows that are given. -/
theorem read_of_result_eq_ok {a : α} (h : ask.result store limit earlier = .ok a) :
    ask.read rows = .ok a := by
  rw [result_eq hsource hreply] at h
  obtain ⟨-, documents, hdocuments, hread⟩ := settle_eq_ok.1 h
  rw [Script.replyOf] at hdocuments
  split at hdocuments
  · cases hdocuments
  · rwa [Option.some.inj hdocuments]

end Inquiry

namespace Script

variable {script : Script} {store : Store} {kind : Kind} {q : Query} {limit : Duration}
  {earlier : List Call}

theorem isCounting_pipeline (q : Query) (kind : Kind) (depth : Nat) :
    isCounting (q.pipeline kind depth) = false := by
  rw [isCounting]
  split
  · next key hlast =>
    have hplace := Query.place_of_mem_pipeline _ (List.mem_of_getLast? hlast)
    exact absurd hplace (by simp [Stage.place])
  · rfl

theorem isCounting_countPipeline (q : Query) : isCounting q.countPipeline = true := by
  rw [isCounting, Query.countPipeline, List.getLast?_concat]

theorem reply_findCall (script : Script) (store : Store) (kind : Kind) (q : Query) :
    script.reply (store.findCall kind q) = script.replyOf kind (script.documentsOf kind) := by
  rw [reply, Store.findCall, isCounting_pipeline]
  rfl

theorem reply_countCall (script : Script) (kind : Kind) (q : Query) :
    script.reply (Store.countCall kind q) =
      script.replyOf kind (script.countRows kind.collection.name) := by
  rw [reply, Store.countCall, isCounting_countPipeline]
  rfl

/-- Records cannot be read just when one of them cannot. -/
theorem hasUnreadable_iff :
    script.HasUnreadable kind ↔
      ∃ e, (store.records kind q).read (script.documentsOf kind) = .error e :=
  exists_mapM_eq_error.symm

/-- A total cannot be read just when the first row holds none. -/
theorem hasUnreadableCount_iff :
    script.HasUnreadableCount kind ↔
      ∃ e, (Store.total kind q).read (script.countRows kind.collection.name) = .error e := by
  rw [HasUnreadableCount, Store.total]
  cases script.countRows kind.collection.name with
  | nil => simp [totalOf]
  | cons row rest => simp [totalOf_cons]

variable (hsource : store.source = script.source)
include hsource

/-! ## Pages -/

theorem page_timesOut_iff :
    TimesOut (store.page kind q limit earlier).1 ↔ script.IsLate kind limit := by
  have hrecords := script.reply_findCall store kind q
  have htotal := script.reply_countCall kind q
  constructor
  · rintro ⟨e, he, htimeout⟩
    rcases Store.page_eq_error he with hfound | hcounted
    · exact (Inquiry.result_timesOut_iff hsource hrecords).1 ⟨e, hfound, htimeout⟩
    · exact (Inquiry.result_timesOut_iff hsource htotal).1 ⟨e, hcounted, htimeout⟩
  · intro hlate
    have hnot : ¬ Breaks (store.page kind q limit earlier).1 := by
      rintro ⟨e, he, hbroken⟩
      rcases Store.page_eq_error he with hfound | hcounted
      · exact ((Inquiry.result_breaks_iff hsource hrecords).1 ⟨e, hfound, hbroken⟩).1 hlate
      · exact ((Inquiry.result_breaks_iff hsource htotal).1 ⟨e, hcounted, hbroken⟩).1 hlate
    by_contra htime
    obtain ⟨page, hpage⟩ := exists_ok_of_not_failed htime hnot
    have hfound : TimesOut ((store.records kind q).result store limit earlier) :=
      (Inquiry.result_timesOut_iff hsource hrecords).2 hlate
    obtain ⟨e, he, -⟩ := hfound
    rw [(Store.of_page_eq_ok hpage).1] at he
    cases he

theorem page_breaks_iff :
    Breaks (store.page kind q limit earlier).1 ↔ ¬ script.IsLate kind limit ∧
      (script.Refuses kind ∨ script.HasUnreadable kind ∨ script.HasUnreadableCount kind) := by
  have hrecords := script.reply_findCall store kind q
  have htotal := script.reply_countCall kind q
  rw [hasUnreadable_iff, hasUnreadableCount_iff]
  constructor
  · rintro ⟨e, he, hbroken⟩
    rcases Store.page_eq_error he with hfound | hcounted
    · obtain ⟨htime, hfault⟩ :=
        (Inquiry.result_breaks_iff hsource hrecords).1 ⟨e, hfound, hbroken⟩
      exact ⟨htime, hfault.imp_right Or.inl⟩
    · obtain ⟨htime, hfault⟩ := (Inquiry.result_breaks_iff hsource htotal).1 ⟨e, hcounted, hbroken⟩
      exact ⟨htime, hfault.imp_right Or.inr⟩
  · rintro ⟨htime, hfault⟩
    by_contra hnot
    obtain ⟨page, hpage⟩ := exists_ok_of_not_failed (mt (page_timesOut_iff hsource).1 htime) hnot
    obtain ⟨hfound, hcounted⟩ := Store.of_page_eq_ok hpage
    have hsplit : Breaks ((store.records kind q).result store limit earlier) ∨
        Breaks ((Store.total kind q).result store limit (earlier ++ [store.findCall kind q])) := by
      rw [Inquiry.result_breaks_iff hsource hrecords, Inquiry.result_breaks_iff hsource htotal]
      rcases hfault with hrefused | hunreadable | hcount
      · exact Or.inl ⟨htime, Or.inl hrefused⟩
      · exact Or.inl ⟨htime, Or.inr hunreadable⟩
      · exact Or.inr ⟨htime, Or.inr hcount⟩
    rw [hfound, hcounted] at hsplit
    rcases hsplit with ⟨e, he, -⟩ | ⟨e, he, -⟩ <;> cases he

/-! ## Single records -/

theorem findOne_timesOut_iff :
    TimesOut (store.findOne kind q limit earlier).1 ↔ script.IsLate kind limit := by
  rw [Store.findOne_apply, timesOut_map, Store.find_apply,
    Inquiry.result_timesOut_iff hsource (reply_findCall ..)]

theorem findOne_breaks_iff :
    Breaks (store.findOne kind q limit earlier).1 ↔
      ¬ script.IsLate kind limit ∧ (script.Refuses kind ∨ script.HasUnreadable kind) := by
  rw [Store.findOne_apply, breaks_map, Store.find_apply,
    Inquiry.result_breaks_iff hsource (reply_findCall ..), hasUnreadable_iff]

/-- There is no record to find just when no document is given. -/
theorem findOne_eq_none_iff (h : ¬ TimesOut (store.findOne kind q limit earlier).1)
    (h' : ¬ Breaks (store.findOne kind q limit earlier).1) :
    (store.findOne kind q limit earlier).1 = .ok none ↔ script.documentsOf kind = [] := by
  rw [Store.findOne_apply, Store.find_apply] at h h' ⊢
  rw [timesOut_map] at h
  rw [breaks_map] at h'
  obtain ⟨records, hrecords⟩ := exists_ok_of_not_failed h h'
  have hread := Inquiry.read_of_result_eq_ok hsource (reply_findCall ..) hrecords
  have hlength := (mapM_eq_ok.1 hread).length_eq
  rw [hrecords, ← List.length_eq_zero_iff, hlength, List.length_eq_zero_iff]
  cases records <;> simp [Except.map]

end Script

end NewsService

import NewsService.Store.Basic

/-!
# Calls of the store

Every query sends one call, and its result is settled by the reply alone. What finding and counting
have in common is an inquiry: a call, and how its answer is read.
-/

namespace NewsService

/-! ## Inquiries -/

theorem mapError_eq_ok {α ε ε' : Type} {x : Except ε α} {f : ε → ε'} {a : α} :
    x.mapError f = .ok a ↔ x = .ok a := by
  cases x with
  | ok b =>
    constructor
    · intro h
      exact congrArg _ (Except.ok.inj h)
    · intro h
      exact congrArg _ (Except.ok.inj h)
  | error cause =>
    constructor
    · intro h
      cases h
    · intro h
      cases h

theorem mapError_eq_error {α ε ε' : Type} {x : Except ε α} {f : ε → ε'} {e : ε'} :
    x.mapError f = .error e ↔ ∃ cause, x = .error cause ∧ e = f cause := by
  cases x with
  | ok b =>
    constructor
    · intro h
      cases h
    · rintro ⟨cause, h, -⟩
      cases h
  | error cause =>
    constructor
    · intro h
      exact ⟨cause, rfl, (Except.error.inj h).symm⟩
    · rintro ⟨cause', h, rfl⟩
      rw [Except.error.inj h]
      rfl

/-- What is asked of the store with one call: the call, and how its answer is read. -/
structure Inquiry (α : Type) where
  call : Call
  read : List Document → Except DecodeError α

namespace Inquiry

variable {α : Type} {ask : Inquiry α} {limit : Duration} {reply : Reply}

/-- How the call ends with a reply. -/
def settle (ask : Inquiry α) (limit : Duration) (reply : Reply) : Settled α :=
  (reply.settle ask.call.collection limit).bind fun documents =>
    (ask.read documents).mapError (.decode ask.call.collection)

/-- A call fails when it takes too long, when it is refused, or when its answer cannot be read. -/
theorem settle_eq_error {e : StoreError} :
    (ask.settle limit reply).result = .error e ↔
      (limit.millis < reply.delay ∧ e = .timeout ask.call.collection limit) ∨
      (reply.delay ≤ limit.millis ∧ reply.documents = none ∧ e = .execute ask.call.collection) ∨
      (reply.delay ≤ limit.millis ∧ ∃ documents cause, reply.documents = some documents ∧
        ask.read documents = .error cause ∧ e = .decode ask.call.collection cause) := by
  obtain ⟨delay, documents⟩ := reply
  unfold settle
  by_cases hlate : limit.millis < delay
  · have hnot : ¬ delay ≤ limit.millis := Nat.not_le.2 hlate
    simp [Reply.settle, Settled.bind, hlate, hnot, Except.bind, eq_comm]
  · have hle : delay ≤ limit.millis := Nat.not_lt.1 hlate
    cases documents with
    | none => simp [Reply.settle, Settled.bind, hlate, hle, Except.bind, eq_comm]
    | some documents =>
      simp [Reply.settle, Settled.bind, hlate, hle, Except.bind, mapError_eq_error]

theorem settle_eq_ok {a : α} :
    (ask.settle limit reply).result = .ok a ↔
      reply.delay ≤ limit.millis ∧
        ∃ documents, reply.documents = some documents ∧ ask.read documents = .ok a := by
  obtain ⟨delay, documents⟩ := reply
  unfold settle
  by_cases hlate : limit.millis < delay
  · have hnot : ¬ delay ≤ limit.millis := Nat.not_le.2 hlate
    simp [Reply.settle, Settled.bind, hlate, hnot, Except.bind]
  · have hle : delay ≤ limit.millis := Nat.not_lt.1 hlate
    cases documents with
    | none => simp [Reply.settle, Settled.bind, hlate, Except.bind]
    | some documents => simp [Reply.settle, Settled.bind, hlate, hle, Except.bind, mapError_eq_ok]

/-- What comes of the call in a store, after earlier calls. -/
def result (ask : Inquiry α) (store : Store) (limit : Duration) (earlier : List Call) :
    Except StoreError α :=
  (ask.settle limit (store.source.answer earlier ask.call)).result

/-- A call whose answer is decoded as the inquiry reads it has the result of the inquiry. -/
theorem result_of_read (ask : Inquiry α) {store : Store} {earlier : List Call}
    {decode : List Document → Except StoreError α}
    (hread : ∀ documents,
      decode documents = (ask.read documents).mapError (.decode ask.call.collection)) :
    (((store.source.answer earlier ask.call).settle ask.call.collection limit).bind decode).result =
      ask.result store limit earlier := by
  rw [funext hread]
  rfl

/-- Every failure names the collection of the call. -/
theorem collection_of_result {store : Store} {earlier : List Call} {e : StoreError}
    (h : ask.result store limit earlier = .error e) : e.collection = ask.call.collection := by
  rcases settle_eq_error.1 h with ⟨-, rfl⟩ | ⟨-, -, rfl⟩ | ⟨-, _, cause, -, -, rfl⟩
  · rfl
  · rfl
  · rfl

end Inquiry

/-! ## Two calls at the same time -/

namespace Settled

variable {α β : Type}

/-- Whether `e` is the failure of `a`, and `b` does not fail before. -/
def FailsFirst (a : Settled α) (b : Settled β) (e : StoreError) : Prop :=
  a.result = .error e ∧ ∀ e', b.result = .error e' → a.time ≤ b.time

theorem both_eq_error {a : Settled α} {b : Settled β} {e : StoreError} (h : a.both b = .error e) :
    a.FailsFirst b e ∨ b.FailsFirst a e := by
  rw [both] at h
  split at h
  · cases h
  · next hb => exact Or.inl ⟨Except.error.inj h ▸ by assumption, by simp [hb]⟩
  · next ha hb => exact Or.inr ⟨Except.error.inj h ▸ hb, by simp [ha]⟩
  · next ha hb =>
    split at h
    · next htime => exact Or.inl ⟨Except.error.inj h ▸ ha, fun _ _ => Nat.le_of_lt htime⟩
    · next htime => exact Or.inr ⟨Except.error.inj h ▸ hb, fun _ _ => Nat.not_lt.1 htime⟩

theorem both_eq_ok {a : Settled α} {b : Settled β} {x : α} {y : β} :
    a.both b = .ok (x, y) ↔ a.result = .ok x ∧ b.result = .ok y := by
  rw [both]
  cases a.result <;> cases b.result <;> simp
  split <;> simp

end Settled

/-! ## Finding and counting -/

/-- The total that the rows of a count give: that of the first one, or zero without rows. -/
def totalOf (rows : List Document) : Except DecodeError Nat :=
  (rows.head?.map readTotal).getD (.ok 0)

theorem totalOf_cons (row : Document) (rest : List Document) :
    totalOf (row :: rest) = readTotal row := rfl

theorem decodeRecords_eq (kind : Kind) (documents : List Document) :
    decodeRecords kind documents =
      (documents.mapM (Record.decode kind.recordType)).mapError (.decode kind.collection) := by
  rw [decodeRecords]
  cases documents.mapM (Record.decode kind.recordType) <;> rfl

theorem decodeTotal_eq (kind : Kind) (rows : List Document) :
    decodeTotal kind rows = (totalOf rows).mapError (.decode kind.collection) := by
  cases rows with
  | nil => rfl
  | cons row rest =>
    rw [decodeTotal, totalOf_cons]
    cases readTotal row <;> rfl

namespace Store

variable (store : Store) (kind : Kind) (q : Query) (limit : Duration) (earlier : List Call)

/-- The call with which records are asked for. -/
def findCall : Call :=
  ⟨kind.collection, q.pipeline kind store.relatedDepth⟩

/-- The call with which matches are counted. -/
def countCall : Call :=
  ⟨kind.collection, q.countPipeline⟩

/-- The inquiry for records: every document of the answer is one. -/
def records : Inquiry (List Record) :=
  ⟨store.findCall kind q, fun documents => documents.mapM (Record.decode kind.recordType)⟩

/-- The inquiry for their number. -/
def total : Inquiry Nat :=
  ⟨countCall kind q, totalOf⟩

theorem find_apply :
    (store.find kind q limit earlier).1 = (store.records kind q).result store limit earlier :=
  (store.records kind q).result_of_read (decodeRecords_eq kind)

theorem count_apply :
    (store.count kind q limit earlier).1 = (total kind q).result store limit earlier :=
  (total kind q).result_of_read (decodeTotal_eq kind)

/-- Looking up one record is finding in the window of the first one. -/
theorem findOne_apply :
    store.findOne kind q limit earlier =
      ((store.find kind { q with window := ⟨0, 1⟩ } limit earlier).1.map List.head?,
        earlier ++ [store.findCall kind { q with window := ⟨0, 1⟩ }]) := rfl

variable {store kind q limit earlier}

/-- Whichever of the two fails, the failure names the collection of the kind. -/
theorem collection_of_failed {earlier' : List Call} {e : StoreError}
    (h : (store.find kind q limit earlier).1 = .error e ∨
      (store.count kind q limit earlier').1 = .error e) : e.collection = kind.collection := by
  rw [find_apply, count_apply] at h
  rcases h with h | h
  · exact Inquiry.collection_of_result h
  · exact Inquiry.collection_of_result h

theorem page_of_failed_at_once {e : StoreError}
    (h : (store.startFind kind q limit earlier).1 = ⟨0, .error e⟩) :
    store.page kind q limit earlier = (.error e, earlier ++ [store.findCall kind q]) := by
  have hstart : store.startFind kind q limit earlier =
      (⟨0, .error e⟩, earlier ++ [store.findCall kind q]) := by
    rw [← h]
    rfl
  rw [page]
  simp only [bind, StateT.bind, hstart]
  rfl

theorem page_of_not_failed_at_once
    (h : ∀ e, (store.startFind kind q limit earlier).1 ≠ ⟨0, .error e⟩) :
    store.page kind q limit earlier =
      (((store.startFind kind q limit earlier).1.both
          (store.startCount kind q limit (earlier ++ [store.findCall kind q])).1).map
        fun (records, total) => ⟨total, q.window, records⟩,
      earlier ++ [store.findCall kind q, countCall kind q]) := by
  have hstart : store.startFind kind q limit earlier =
      ((store.startFind kind q limit earlier).1, earlier ++ [store.findCall kind q]) := rfl
  have hcalls : earlier ++ [store.findCall kind q, countCall kind q] =
      earlier ++ [store.findCall kind q] ++ [countCall kind q] := by simp
  rw [page, hcalls]
  simp only [bind, StateT.bind]
  rw [hstart]
  generalize (store.startFind kind q limit earlier).1 = found at h
  obtain ⟨time, result⟩ := found
  dsimp only
  split
  · next e => exact absurd rfl (h e)
  · rfl

/-- A page asks for its records first. It asks for their number, too, unless the records fail at
once; only then does it show anything, and the window it shows is that of the query. -/
theorem page_cases :
    (∃ e, store.page kind q limit earlier = (.error e, earlier ++ [store.findCall kind q])) ∨
      ∃ result : Except StoreError Page,
        store.page kind q limit earlier =
          (result, earlier ++ [store.findCall kind q, countCall kind q]) ∧
        ∀ page, result = .ok page → page.window = q.window := by
  by_cases h : ∃ e, (store.startFind kind q limit earlier).1 = ⟨0, .error e⟩
  · obtain ⟨e, he⟩ := h
    exact Or.inl ⟨e, page_of_failed_at_once he⟩
  · refine Or.inr ⟨_, page_of_not_failed_at_once (not_exists.1 h), fun page hpage => ?_⟩
    generalize ((store.startFind kind q limit earlier).1.both
      (store.startCount kind q limit (earlier ++ [store.findCall kind q])).1) = both at hpage
    cases both with
    | error e => cases hpage
    | ok pair => rw [← Except.ok.inj hpage]

end Store

end NewsService

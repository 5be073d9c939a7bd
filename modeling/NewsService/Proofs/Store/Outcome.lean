import NewsService.Proofs.Document.Items
import NewsService.Proofs.Store.Script

/-!
# How a call ends

How a call ends follows from its reply, and of several faults the first in a fixed order counts. A
call that takes too long has timed out, whatever it would have brought. One that is refused in time
has failed. Only then do the documents matter: either all of them are read, or the first one that
cannot be read is the failure. Main statement: a query sends one call, which ends in this way.
-/

namespace NewsService

/-! ## Endings -/

/-- How a call of a collection ends after a reply; `Gives` tells what documents are read as. -/
inductive CallEnds {α : Type} (collection : Collection) (limit : Duration) (reply : Reply)
    (Gives : List Document → Except DecodeError α → Prop) : Except StoreError α → Prop
  /-- It took too long, whether or not it would have been answered. -/
  | late (h : limit.millis < reply.delay) :
      CallEnds collection limit reply Gives (.error (.timeout collection limit))
  | refused (hdelay : reply.delay ≤ limit.millis) (h : reply.documents = none) :
      CallEnds collection limit reply Gives (.error (.execute collection))
  | unreadable {documents : List Document} {e : DecodeError} (hdelay : reply.delay ≤ limit.millis)
      (h : reply.documents = some documents) (hread : Gives documents (.error e)) :
      CallEnds collection limit reply Gives (.error (.decode collection e))
  | answered {documents : List Document} {a : α} (hdelay : reply.delay ≤ limit.millis)
      (h : reply.documents = some documents) (hread : Gives documents (.ok a)) :
      CallEnds collection limit reply Gives (.ok a)

/-- What documents are read as: a record for each, in their order, or the error of the first one
that is no record. -/
inductive GivesRecords (type : RecordType) :
    List Document → Except DecodeError (List Record) → Prop
  | records {documents : List Document} {records : List Record}
      (h : List.Forall₂ (fun d r => Record.decode type d = .ok r) documents records) :
      GivesRecords type documents (.ok records)
  | fault {before after : List Document} {d : Document} {e : DecodeError}
      (hbefore : ∀ d ∈ before, ∃ r, Record.decode type d = .ok r)
      (h : Record.decode type d = .error e) :
      GivesRecords type (before ++ d :: after) (.error e)

/-- What rows are read as: the total in the first one, which is an integer of either width and
counts as zero below zero. Without rows it is zero. -/
inductive GivesTotal : List Document → Except DecodeError Nat → Prop
  | none : GivesTotal [] (.ok 0)
  | int32 {row : Document} {rest : List Document} {n : Int32}
      (h : row.lookup Query.totalKey = some (.int32 n)) :
      GivesTotal (row :: rest) (.ok (max n.toInt 0).toNat)
  | int64 {row : Document} {rest : List Document} {n : Int64}
      (h : row.lookup Query.totalKey = some (.int64 n)) :
      GivesTotal (row :: rest) (.ok (max n.toInt 0).toNat)
  | missing {row : Document} {rest : List Document} (h : row.lookup Query.totalKey = .none) :
      GivesTotal (row :: rest) (.error (.missingField Query.totalKey))
  | other {row : Document} {rest : List Document} {v : Value}
      (h : row.lookup Query.totalKey = some v) (hv : v.type ≠ .int32 ∧ v.type ≠ .int64) :
      GivesTotal (row :: rest) (.error .mismatch)

/-! ## Reading what was answered -/

theorem givesRecords_iff {type : RecordType} {documents : List Document}
    {read : Except DecodeError (List Record)} :
    GivesRecords type documents read ↔ documents.mapM (Record.decode type) = read := by
  cases read with
  | ok records =>
    rw [mapM_eq_ok]
    constructor
    · intro h
      cases h with
      | records h => exact h
    · exact .records
  | error e =>
    rw [mapM_eq_error_iff]
    constructor
    · intro h
      cases h with
      | fault hbefore hd => exact ⟨_, _, _, rfl, hbefore, hd⟩
    · rintro ⟨before, d, after, rfl, hbefore, hd⟩
      exact .fault hbefore hd

theorem givesTotal_iff {rows : List Document} {total : Except DecodeError Nat} :
    GivesTotal rows total ↔ totalOf rows = total := by
  have hpositive : ∀ n : Int, (max n 0).toNat = n.toNat := by
    intro n
    omega
  have hinteger : ∀ v : Value, v.type ≠ .int32 ∧ v.type ≠ .int64 → v.integer? = none := by
    rintro v ⟨h32, h64⟩
    cases v with
    | int32 n => exact absurd rfl h32
    | int64 n => exact absurd rfl h64
    | _ => rfl
  constructor
  · intro h
    cases h with
    | none => rfl
    | int32 h => simp only [totalOf_cons, readTotal, h, hpositive]; rfl
    | int64 h => simp only [totalOf_cons, readTotal, h, hpositive]; rfl
    | missing h => simp only [totalOf_cons, readTotal, h]
    | other h hv => simp only [totalOf_cons, readTotal, h, hinteger _ hv]; rfl
  · rintro rfl
    cases rows with
    | nil => exact .none
    | cons row rest =>
      rw [totalOf_cons]
      cases hlookup : row.lookup Query.totalKey with
      | none =>
        have hread : readTotal row = .error (.missingField Query.totalKey) := by
          simp only [readTotal, hlookup]
        rw [hread]
        exact .missing hlookup
      | some v =>
        have hread : readTotal row = (fun n => n.toNat) <$> DecodeError.orMismatch v.integer? := by
          simp only [readTotal, hlookup]
        rw [hread]
        cases v with
        | int32 n =>
          have h : GivesTotal (row :: rest) (.ok (max n.toInt 0).toNat) := .int32 hlookup
          rwa [hpositive] at h
        | int64 n =>
          have h : GivesTotal (row :: rest) (.ok (max n.toInt 0).toNat) := .int64 hlookup
          rwa [hpositive] at h
        | _ => exact .other hlookup ⟨nofun, nofun⟩

/-! ## Calls -/

/-- A call ends as its reply and what is made of the documents say. -/
theorem Inquiry.settle_eq_iff {α : Type} {ask : Inquiry α} {limit : Duration} {reply : Reply}
    {Gives : List Document → Except DecodeError α → Prop}
    (hgives : ∀ documents read, Gives documents read ↔ ask.read documents = read)
    {result : Except StoreError α} :
    (ask.settle limit reply).result = result ↔
      CallEnds ask.call.collection limit reply Gives result := by
  cases result with
  | ok a =>
    rw [settle_eq_ok]
    constructor
    · rintro ⟨hdelay, documents, hdocuments, hread⟩
      exact .answered hdelay hdocuments ((hgives documents _).2 hread)
    · intro h
      cases h with
      | answered hdelay hdocuments hread => exact ⟨hdelay, _, hdocuments, (hgives _ _).1 hread⟩
  | error e =>
    rw [settle_eq_error]
    constructor
    · rintro (⟨hlate, rfl⟩ | ⟨hdelay, hrefused, rfl⟩ |
        ⟨hdelay, documents, cause, hdocuments, hread, rfl⟩)
      · exact .late hlate
      · exact .refused hdelay hrefused
      · exact .unreadable hdelay hdocuments ((hgives documents _).2 hread)
    · intro h
      cases h with
      | late h => exact Or.inl ⟨h, rfl⟩
      | refused hdelay h => exact Or.inr (Or.inl ⟨hdelay, h, rfl⟩)
      | unreadable hdelay h hread =>
        exact Or.inr (Or.inr ⟨hdelay, _, _, h, (hgives _ _).1 hread, rfl⟩)

namespace Store

/-- Finding and counting each send one call, of the collection of the kind, whatever comes of it.
The call ends as its reply says, and nothing else: late, refused, with the first document that
cannot be read, or with all that was asked for. A count reads the first row only. Every failure
names the collection. -/
theorem one_call_ends (store : Store) (kind : Kind) (q : Query) (limit : Duration)
    (earlier : List Call) :
    (store.find kind q limit earlier).2 =
      earlier ++ [⟨kind.collection, q.pipeline kind store.relatedDepth⟩] ∧
    (∀ result, (store.find kind q limit earlier).1 = result ↔
      CallEnds kind.collection limit
        (store.source.answer earlier ⟨kind.collection, q.pipeline kind store.relatedDepth⟩)
        (GivesRecords kind.recordType) result) ∧
    (store.count kind q limit earlier).2 = earlier ++ [⟨kind.collection, q.countPipeline⟩] ∧
    (∀ result, (store.count kind q limit earlier).1 = result ↔
      CallEnds kind.collection limit
        (store.source.answer earlier ⟨kind.collection, q.countPipeline⟩) GivesTotal result) ∧
    ∀ e, (store.find kind q limit earlier).1 = .error e ∨
      (store.count kind q limit earlier).1 = .error e → e.collection = kind.collection := by
  refine ⟨rfl, fun result => ?_, rfl, fun result => ?_, fun e => collection_of_failed⟩
  · rw [find_apply]
    exact Inquiry.settle_eq_iff fun _ _ => givesRecords_iff
  · rw [count_apply]
    exact Inquiry.settle_eq_iff fun _ _ => givesTotal_iff

/-- Two authors, of which neither can be read, and a total below zero. -/
def contacts (delay : Nat) (failing : List String) : Script where
  documents := [("contacts", [[("name", .string "nobody")], [("name", .int32 1)]])]
  counts := [("contacts", [[("total", .int32 (-3))], [("total", .string "many")]])]
  failing := failing
  delays := [("contacts", delay)]

theorem one_call_ends_contacts (q : Query) :
    (find ⟨(contacts 5 []).source, 1⟩ .author q ⟨5⟩ []).1 =
      .error (.decode .contacts (.missingField idKey)) ∧
    (count ⟨(contacts 5 []).source, 1⟩ .author q ⟨5⟩ []).1 = .ok 0 ∧
    (find ⟨(contacts 6 ["contacts"]).source, 1⟩ .author q ⟨5⟩ []).1 =
      .error (.timeout .contacts ⟨5⟩) := by
  obtain ⟨-, hfind, -, hcount, -⟩ := one_call_ends ⟨(contacts 5 []).source, 1⟩ .author q ⟨5⟩ []
  obtain ⟨-, hlate, -⟩ :=
    one_call_ends ⟨(contacts 6 ["contacts"]).source, 1⟩ .author q ⟨5⟩ []
  have hnobody : Record.decode .author [("name", .string "nobody")] =
      .error (.missingField idKey) := rfl
  have hfound := Script.reply_findCall (contacts 5 []) ⟨(contacts 5 []).source, 1⟩ .author q
  have hcounted := Script.reply_countCall (contacts 5 []) .author q
  have htotal : List.lookup Query.totalKey [("total", Value.int32 (-3))] = some (.int32 (-3)) := rfl
  have hbelow : GivesTotal ((contacts 5 []).countRows "contacts") (.ok 0) := .int32 htotal
  refine ⟨(hfind _).2 (.unreadable ?_ (congrArg Reply.documents hfound) ?_),
    (hcount _).2 (.answered ?_ (congrArg Reply.documents hcounted) hbelow),
    (hlate _).2 (.late ?_)⟩
  · exact Nat.le_refl 5
  · exact .fault (List.forall_mem_nil _) hnobody
  · exact Nat.le_refl 5
  · exact Nat.lt_succ_self 5

end Store

end NewsService

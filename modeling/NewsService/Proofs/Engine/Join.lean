import NewsService.Proofs.Engine.Query
import NewsService.Proofs.Pipeline.Graph

/-!
# Joins over a valid database

In a valid database every document has an identifier of its own and can be decoded as a record of
its collection. There the stages of a join have a simple effect on each document by itself: the
field takes the documents that it refers to, and nothing else changes. Main statement: the joins of
a query change neither how many documents are found, nor which, nor in which order.
-/

namespace NewsService

/-- The identifiers that a stored value refers to. -/
def Value.ids : Value → List ObjectId
  | .objectId id => [id]
  | v => v.items.filterMap objectId?

theorem Value.objectId?_eq_some {v : Value} {id : ObjectId} :
    v.objectId? = some id ↔ v = .objectId id := by
  cases v <;> simp [objectId?]

theorem Value.mem_ids {v : Value} {id : ObjectId} :
    id ∈ v.ids ↔ v = .objectId id ∨ .objectId id ∈ v.items := by
  cases v with
  | objectId other => simp [ids, items, eq_comm]
  | array items => simp [ids, Value.items, objectId?_eq_some]
  | _ => simp [ids, items]

/-- The identifier of a document. -/
def Document.id? (d : Document) : Option ObjectId :=
  (d.lookup idKey).bind Value.objectId?

namespace Database

/-- The documents of a collection that a stored value refers to, in the order of the collection. -/
def targets (db : Database) (collection : Collection) (stored : Value) : List Document :=
  (db collection).filter fun d => (Document.id? d).any fun id => stored.ids.contains id

/-- Every document is a record of its collection under an identifier of its own. -/
structure Valid (db : Database) : Prop where
  /-- A document is stored under an identifier. -/
  hasId : ∀ collection, ∀ d ∈ db collection, ∃ id, d.lookup idKey = some (.objectId id)
  /-- No two documents of a collection have the same identifier. -/
  distinct : ∀ collection, ((db collection).map Document.id?).Nodup
  /-- A document decodes as a record of its collection. -/
  decodes : ∀ collection, ∀ d ∈ db collection, ∃ r, Record.decode collection.recordType d = .ok r

variable {db : Database}

/-- The documents of a kind can be joined in the field of any join. -/
theorem Valid.fits (h : db.Valid) {kind : Kind} {d : Document} (hd : d ∈ db kind.collection)
    {j : Join} (hj : j ∈ kind.allJoins) : j.Fits (d.valueAt j.field) := by
  obtain ⟨r, hr⟩ := h.decodes kind.collection d hd
  exact Join.fits_of_faultless (kind.allJoins_agree j hj) (Record.decode_eq_ok.1 hr).1

theorem mem_of_mem_targets {collection : Collection} {stored : Value} {d : Document}
    (h : d ∈ db.targets collection stored) : d ∈ db collection :=
  (List.mem_filter.1 h).1

/-- A single identifier is that of one document at most. -/
theorem Valid.length_targets_le (h : db.Valid) (collection : Collection) {stored : Value}
    (hstored : ∀ items, stored ≠ .array items) : (db.targets collection stored).length ≤ 1 := by
  cases hids : stored.ids with
  | nil => simp [targets, hids]
  | cons id rest =>
    have hrest : rest = [] := by
      cases stored with
      | objectId other => exact (List.cons.inj hids).2.symm
      | array items => exact absurd rfl (hstored items)
      | _ => simp [Value.ids, Value.items] at hids
    subst hrest
    have hsame : ∀ found ∈ (db.targets collection stored).map Document.id?, found = some id := by
      intro found hfound
      obtain ⟨d, hd, rfl⟩ := List.mem_map.1 hfound
      have hany := (List.mem_filter.1 hd).2
      rw [hids, Option.any_eq_true] at hany
      obtain ⟨other, hother, hmem⟩ := hany
      rw [hother, List.mem_singleton.1 (List.contains_iff_mem.1 hmem)]
    have hnodup : ((db.targets collection stored).map Document.id?).Nodup :=
      (h.distinct collection).sublist (List.filter_sublist.map _)
    rw [List.eq_replicate_of_mem hsame, List.nodup_replicate, List.length_map] at hnodup
    exact hnodup

end Database

/-! ## What a join makes of a document -/

/-- The document in which the first of a list of documents has taken the place of a field; the field
is gone when there is none. -/
def Document.putFirst (field : String) (found : List Document) (d : Document) : Document :=
  match found with
  | [] => d.without [field]
  | target :: _ => d.insert field (.document target)

/-- The document that a join makes of a document, with nested joins followed to a depth. -/
def Join.fill (db : Database) : Nat → Join → Document → Document
  | depth, ⟨field, collection, shape⟩, d =>
    let found := db.targets collection (d.valueAt field)
    match shape, depth with
    | .one, _ => Document.putFirst field found d
    | .many, _ => Engine.putAll field found d
    | .nested _, 0 => d
    | .nested kind, remaining + 1 =>
      let expanded := found.map fun target =>
        (kind.nestedJoins remaining).foldl (fun t j => Join.fill db remaining j t) target
      Engine.putAll field expanded d

/-- The document that joins make of a document, one after another. -/
def Database.expand (db : Database) (depth : Nat) (joins : List Join) (d : Document) : Document :=
  joins.foldl (fun d j => j.fill db depth d) d

namespace Join

variable {db : Database} {depth : Nat} {j : Join}

/-- A join touches its own field only. -/
theorem lookup_fill (d : Document) {key : String} (h : key ≠ j.field) :
    (j.fill db depth d).lookup key = d.lookup key := by
  obtain ⟨field, collection, shape⟩ := j
  cases shape with
  | one =>
    rw [fill]
    cases db.targets collection (d.valueAt field) with
    | nil => simp [Document.putFirst, h]
    | cons target _ => simp [Document.putFirst, h]
  | many => simp [fill, Engine.putAll, h]
  | nested kind =>
    cases depth with
    | zero => rfl
    | succ remaining => simp [fill, Engine.putAll, h]

/-- Apart from its field a join leaves the document as it is. -/
theorem without_fill {keys : List String} (h : j.field ∈ keys) (d : Document) :
    (j.fill db depth d).without keys = d.without keys := by
  obtain ⟨field, collection, shape⟩ := j
  cases shape with
  | one =>
    rw [fill]
    cases db.targets collection (d.valueAt field) with
    | nil => exact Document.without_without h d
    | cons target _ => exact Document.without_insert h _ d
  | many =>
    rw [fill]
    exact Document.without_insert h _ d
  | nested kind =>
    cases depth with
    | zero => rfl
    | succ remaining =>
      rw [fill]
      exact Document.without_insert h _ d

end Join

namespace Database

variable {db : Database} {depth : Nat}

theorem expand_cons (j : Join) (joins : List Join) (d : Document) :
    db.expand depth (j :: joins) d = db.expand depth joins (j.fill db depth d) := rfl

/-- Joins touch their fields only. -/
theorem lookup_expand {joins : List Join} (d : Document) {key : String}
    (h : key ∉ joins.map Join.field) : (db.expand depth joins d).lookup key = d.lookup key := by
  induction joins generalizing d with
  | nil => rfl
  | cons j rest ih =>
    rw [List.map_cons, List.mem_cons, not_or] at h
    rw [expand_cons, ih _ h.2, Join.lookup_fill d h.1]

/-- Apart from their fields joins leave a document as it is. -/
theorem without_expand {joins : List Join} {keys : List String}
    (h : ∀ j ∈ joins, j.field ∈ keys) (d : Document) :
    (db.expand depth joins d).without keys = d.without keys := by
  induction joins generalizing d with
  | nil => rfl
  | cons j rest ih =>
    rw [expand_cons, ih fun j hj => h j (List.mem_cons_of_mem _ hj),
      Join.without_fill (h j List.mem_cons_self)]

end Database

/-! ## The stages of a join -/

section MapM

variable {m : Type → Type} [Monad m] [LawfulMonad m] {α β : Type} {l : List α}

theorem mapM_congr_mem {f g : α → m β} (h : ∀ a ∈ l, f a = g a) : l.mapM f = l.mapM g := by
  induction l with
  | nil => rfl
  | cons a rest ih =>
    rw [List.mapM_cons, List.mapM_cons, h a List.mem_cons_self,
      ih fun b hb => h b (List.mem_cons_of_mem _ hb)]

theorem mapM_eq_pure_map {f : α → m β} {g : α → β} (h : ∀ a ∈ l, f a = pure (g a)) :
    l.mapM f = pure (l.map g) :=
  (mapM_congr_mem h).trans List.mapM_pure

end MapM

namespace Engine

variable {e : Engine} {db : Database} {depth : Nat}

/-- Whether a value is a stored identifier is decided by looking at the identifiers in it. -/
theorem refersTo_eq {d : Document} {id : ObjectId} (h : d.lookup idKey = some (.objectId id))
    (stored : Value) : e.refersTo stored d = stored.ids.contains id := by
  have hid : d.valueAt idKey = .objectId id := by rw [Document.valueAt, h, Option.getD_some]
  rw [refersTo, hid, Bool.eq_iff_iff, Bool.or_eq_true, e.same_objectId, List.any_eq_true,
    List.contains_iff_mem, Value.mem_ids]
  refine or_congr Iff.rfl ⟨?_, ?_⟩
  · rintro ⟨v, hv, hsame⟩
    exact (e.same_objectId v id).1 hsame ▸ hv
  · intro hmem
    exact ⟨_, hmem, (e.same_objectId _ _).2 rfl⟩

theorem found_eq_targets (h : db.Valid) (collection : Collection) (stored : Value) :
    e.found db collection stored = db.targets collection stored := by
  refine List.filter_congr fun d hd => ?_
  obtain ⟨id, hid⟩ := h.hasId collection d hd
  rw [refersTo_eq hid, Document.id?, hid]
  rfl

/-- The list that a join of single references leaves is taken out of its field again. -/
theorem unwindDocument_putAll {field : String} {found : List Document} (d : Document)
    (h : found.length ≤ 1) :
    unwindDocument field (putAll field found d) = [Document.putFirst field found d] := by
  rw [unwindDocument, putAll, Document.lookup_insert, if_pos rfl]
  match found with
  | [] => simp [Document.putFirst, Document.without_insert]
  | [target] => simp [Document.putFirst, Document.insert_insert]
  | _ :: _ :: _ => simp at h

/-- What a field binds to `$$ids` refers to the documents that the field refers to. -/
theorem filter_boundIds (h : db.Valid) {field : String} {d : Document}
    (hfits : d.valueAt field = .null ∨ ∃ items, d.valueAt field = .array items)
    (collection : Collection) :
    ∃ ids, boundIds? field d = some ids ∧
      (db collection).filter (fun t => ids.any fun v => e.same v (t.valueAt idKey)) =
        db.targets collection (d.valueAt field) := by
  have hitems : ∃ items, boundIds? field d = some items ∧ (d.valueAt field).items = items ∧
      ∀ id, d.valueAt field ≠ .objectId id := by
    rcases hfits with hnull | ⟨items, harray⟩
    · exact ⟨[], by simp [boundIds?, hnull], by simp [hnull, Value.items], by simp [hnull]⟩
    · exact ⟨items, by simp [boundIds?, harray], by simp [harray, Value.items], by simp [harray]⟩
  obtain ⟨items, hbound, hstored, hsingle⟩ := hitems
  refine ⟨items, hbound, ?_⟩
  rw [← found_eq_targets (e := e) h, found]
  refine List.filter_congr fun t ht => ?_
  obtain ⟨id, hid⟩ := h.hasId collection t ht
  have hnot : e.same (d.valueAt field) (.objectId id) = false := by
    rw [Bool.eq_false_iff, ne_eq, e.same_objectId]
    exact hsingle id
  rw [refersTo, hstored, Document.valueAt, hid, Option.getD_some, hnot, Bool.false_or]

/-- The stages of a join fill its field in each document. The hypothesis on nested joins is the
same statement at a smaller depth. -/
theorem run_join (h : db.Valid) {type : RecordType} {j : Join} (hj : j.agrees type = true)
    {ids : Option (List Value)} {docs : List Document}
    (hfits : ∀ d ∈ docs, j.Fits (d.valueAt j.field))
    (hnested : ∀ kind remaining, j.shape = .nested kind → depth = remaining + 1 →
      ∀ ids docs, (∀ d ∈ docs, d ∈ db kind.collection) →
        e.run db ids ((kind.nestedJoins remaining).flatMap (Join.stages remaining)) docs =
          some (docs.map (db.expand remaining (kind.nestedJoins remaining)))) :
    e.run db ids (j.stages depth) docs = some (docs.map (j.fill db depth)) := by
  have hcollection : ∀ kind, j.shape = .nested kind → j.collection = kind.collection :=
    fun kind => Join.collection_of_agrees hj
  obtain ⟨field, collection, shape⟩ := j
  cases shape with
  | one =>
    rw [Join.stages, run_cons, runStage, Option.bind_some, run_cons, runStage, Option.bind_some,
      run_nil, List.flatMap_map, List.map_eq_flatMap]
    refine congrArg some (List.flatMap_congr fun d hd => ?_)
    have hfound := h.length_targets_le collection (hfits d hd)
    rw [found_eq_targets h, unwindDocument_putAll d hfound, Join.fill]
  | many =>
    rw [Join.stages, run_cons, runStage, Option.bind_some, run_nil]
    refine congrArg some (List.map_congr_left fun d _ => ?_)
    rw [found_eq_targets h, Join.fill]
  | nested kind =>
    cases depth with
    | zero => simp [Join.stages, Join.fill]
    | succ remaining =>
      rw [Join.stages, run_cons, runStage]
      have hdocs : docs.mapM (fun d => do
          let ids ← boundIds? field d
          let found ← e.run db (some ids)
            (.selectReferenced :: (kind.nestedJoins remaining).flatMap (Join.stages remaining))
            (db collection)
          return putAll field found d) =
          some (docs.map (Join.fill db (remaining + 1) ⟨field, collection, .nested kind⟩)) := by
        refine mapM_eq_pure_map fun d hd => ?_
        obtain ⟨items, hbound, hfilter⟩ := filter_boundIds (e := e) h (hfits d hd) collection
        have htargets : ∀ t ∈ db.targets collection (d.valueAt field), t ∈ db kind.collection :=
          fun t ht => hcollection kind rfl ▸ Database.mem_of_mem_targets ht
        have hrun := hnested kind remaining rfl rfl (some items) _ htargets
        simp only [hbound, Option.bind_eq_bind, Option.bind_some, run_cons, runStage,
          Option.map_some, hfilter, hrun, Join.fill]
        rfl
      rw [hdocs]
      rfl

/-- Joins of different fields fill their fields one after another. -/
theorem run_joins_of_fill {joins : List Join} (hnodup : (joins.map Join.field).Nodup)
    {ids : Option (List Value)}
    (hfill : ∀ j ∈ joins, ∀ docs : List Document, (∀ d ∈ docs, j.Fits (d.valueAt j.field)) →
      e.run db ids (j.stages depth) docs = some (docs.map (j.fill db depth)))
    {docs : List Document} (hfits : ∀ d ∈ docs, ∀ j ∈ joins, j.Fits (d.valueAt j.field)) :
    e.run db ids (joins.flatMap (Join.stages depth)) docs =
      some (docs.map (db.expand depth joins)) := by
  induction joins generalizing docs with
  | nil => exact congrArg some (List.map_id docs).symm
  | cons j rest ih =>
    rw [List.map_cons, List.nodup_cons] at hnodup
    have hj := hfill j List.mem_cons_self docs fun d hd => hfits d hd j List.mem_cons_self
    have hrest : ∀ d ∈ docs.map (j.fill db depth), ∀ k ∈ rest, k.Fits (d.valueAt k.field) := by
      intro filled hfilled k hk
      obtain ⟨d, hd, rfl⟩ := List.mem_map.1 hfilled
      have hne : k.field ≠ j.field := fun heq => hnodup.1 (heq ▸ List.mem_map_of_mem hk)
      rw [Document.valueAt_congr (Join.lookup_fill d hne)]
      exact hfits d hd k (List.mem_cons_of_mem _ hk)
    rw [List.flatMap_cons, run_append, hj, Option.bind_some,
      ih hnodup.2 (fun k hk => hfill k (List.mem_cons_of_mem _ hk)) hrest, List.map_map]
    rfl

/-- Over a valid database the joining stages expand each document by itself. The induction is on
the depth, since the pipeline of a nested join has a smaller one. -/
theorem run_joins (h : db.Valid) {kind : Kind} {joins : List Join}
    (hjoins : joins.Sublist kind.allJoins) {ids : Option (List Value)} {docs : List Document}
    (hdocs : ∀ d ∈ docs, d ∈ db kind.collection) :
    e.run db ids (joins.flatMap (Join.stages depth)) docs =
      some (docs.map (db.expand depth joins)) := by
  induction depth using Nat.strongRecOn generalizing kind joins ids docs with
  | ind depth ih =>
    refine run_joins_of_fill ((kind.nodup_fields).sublist (hjoins.map _)) ?_ ?_
    · intro j hj docs hfits
      refine run_join h (kind.allJoins_agree j (hjoins.subset hj)) hfits ?_
      rintro nested remaining - rfl ids docs hdocs
      exact ih remaining (Nat.lt_succ_self _) (nested.nestedJoins_sublist remaining) hdocs
    · intro d hd j hj
      exact h.fits (hdocs d hd) (hjoins.subset hj)

end Engine

end NewsService

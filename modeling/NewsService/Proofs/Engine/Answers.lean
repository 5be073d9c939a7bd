import NewsService.Proofs.Engine.Expansion

/-!
# The answers of joined queries

What a query with joins answers over a valid database, beside what its stages answer without them:
the same documents in the same order, with the fields of the joins filled. They decode, and into the
records that the joins are meant to give.
-/

namespace NewsService

namespace Engine

variable (e : Engine) {db : Database}

/-- Over a valid database a query answers with the documents that it chooses, expanded. -/
theorem aggregate_joined (h : db.Valid) (kind : Kind) (depth : Nat) (q : Query) :
    e.aggregate db kind.collection (q.pipeline kind depth).toDocuments =
      some ((e.chosen q (db kind.collection)).map
        (db.expand depth (kind.joinGraph.joins q.expansion))) := by
  rw [aggregate_pipeline, Kind.joinStages]
  exact run_joins h (kind.joins_sublist q.expansion) fun d hd => chosen_subset q _ hd

/-- Joins never change which documents a query answers with, nor their order, nor what they hold
outside the fields of the joins. -/
theorem joins_keep_answers (h : db.Valid) (kind : Kind) (depth : Nat) (q : Query) :
    ∃ plain joined,
      e.aggregate db kind.collection q.stages.toDocuments = some plain ∧
      e.aggregate db kind.collection (q.pipeline kind depth).toDocuments = some joined ∧
      joined.length = plain.length ∧
      joined.map (fun d => d.lookup idKey) = plain.map (fun d => d.lookup idKey) ∧
      joined.map (Document.without ((kind.joinGraph.joins q.expansion).map Join.field)) =
        plain.map (Document.without ((kind.joinGraph.joins q.expansion).map Join.field)) := by
  refine ⟨_, _, aggregate_stages _ q, aggregate_joined e h kind depth q, List.length_map _, ?_, ?_⟩
  · have hkey : idKey ∉ (kind.joinGraph.joins q.expansion).map Join.field :=
      fun hmem => kind.idKey_not_joined (((kind.joins_sublist q.expansion).map _).subset hmem)
    rw [List.map_map]
    exact List.map_congr_left fun d _ => Database.lookup_expand d hkey
  · rw [List.map_map]
    refine List.map_congr_left fun d _ => ?_
    exact Database.without_expand (fun j hj => List.mem_map_of_mem hj) d

/-- The query for the published records, the latest first, with all references. -/
def publishedInFull : Query :=
  { filter := { state := "published" }
    sort := { publishedDate := some .descending }
    window := ⟨0, 2⟩
    full := true }

theorem joins_keep_published : Database.sample.Valid ∧
    ∃ plain joined,
      standard.aggregate Database.sample .posts publishedInFull.stages.toDocuments = some plain ∧
      standard.aggregate Database.sample .posts (publishedInFull.pipeline .post 2).toDocuments =
        some joined ∧
      joined.length = plain.length ∧
      joined.map (fun d => d.lookup idKey) = plain.map (fun d => d.lookup idKey) ∧
      joined.map (Document.without ((Kind.post.joinGraph.joins .full).map Join.field)) =
        plain.map (Document.without ((Kind.post.joinGraph.joins .full).map Join.field)) :=
  ⟨Database.sample_valid, joins_keep_answers standard Database.sample_valid .post 2 publishedInFull⟩

/-- Over a valid database without reserved keys, what a query answers with decodes, and the records
are those of the documents before the joins, with their references expanded. -/
theorem joined_answers_decode (h : db.Valid) (hplain : db.Plain) (kind : Kind) (depth : Nat)
    (q : Query) :
    ∃ plain joined records,
      e.aggregate db kind.collection q.stages.toDocuments = some plain ∧
      e.aggregate db kind.collection (q.pipeline kind depth).toDocuments = some joined ∧
      decodeRecords kind joined = .ok records ∧
      plain.mapM (Record.expand db depth (kind.joinGraph.joins q.expansion) kind.recordType) =
        .ok records := by
  have hjoins := kind.joins_sublist q.expansion
  have hexpand : ∀ d ∈ e.chosen q (db kind.collection),
      Record.decode kind.recordType (db.expand depth (kind.joinGraph.joins q.expansion) d) =
          Record.expand db depth (kind.joinGraph.joins q.expansion) kind.recordType d ∧
        ∃ r, Record.expand db depth (kind.joinGraph.joins q.expansion) kind.recordType d = .ok r :=
    fun d hd => Record.decode_expand h hplain hjoins (chosen_subset q _ hd)
  obtain ⟨records, hrecords⟩ := exists_mapM_eq_ok.2 fun d hd => (hexpand d hd).2
  have hdecode : ((e.chosen q (db kind.collection)).map
      (db.expand depth (kind.joinGraph.joins q.expansion))).mapM (Record.decode kind.recordType) =
      .ok records := by
    rw [List.mapM_map]
    exact (mapM_congr_mem fun d hd => (hexpand d hd).1).trans hrecords
  refine ⟨_, _, records, aggregate_stages _ q, aggregate_joined e h kind depth q, ?_, hrecords⟩
  rw [decodeRecords, hdecode]

theorem sample_plain : Database.sample.Plain := by
  intro collection
  cases collection <;> decide

theorem joined_published_decode : (Database.sample.Valid ∧ Database.sample.Plain) ∧
    ∃ plain joined records,
      standard.aggregate Database.sample .posts publishedInFull.stages.toDocuments = some plain ∧
      standard.aggregate Database.sample .posts (publishedInFull.pipeline .post 2).toDocuments =
        some joined ∧
      decodeRecords .post joined = .ok records ∧
      plain.mapM (Record.expand Database.sample 2 (Kind.post.joinGraph.joins .full) .post) =
        .ok records :=
  ⟨⟨Database.sample_valid, sample_plain⟩,
    joined_answers_decode standard Database.sample_valid sample_plain .post 2 publishedInFull⟩

end Engine

end NewsService

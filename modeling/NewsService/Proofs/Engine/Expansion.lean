import NewsService.Proofs.Document.Items
import NewsService.Proofs.Engine.Standard
import NewsService.Proofs.Record.Embedded
import NewsService.Store.Basic

/-!
# Records with joined references

The joins of a kind and the schema of its records agree: what the expanded pipeline answers always
decodes. Each record is that of the document before the joins, in which a joined reference holds the
record it refers to, a joined list holds the records it refers to, and lists of related records are
expanded in turn while there is depth left.
-/

namespace NewsService

/-- The database has no reserved keys at any depth. -/
def Database.Plain (db : Database) : Prop :=
  ∀ collection, ∀ d ∈ db collection, Value.plainFields d = true

/-! ## The intended expansion -/

/-- The record of a document, with the contents of joined fields put in by a function. -/
def Record.decodeWith (content : Join → Document → Content → Except DecodeError Content)
    (joins : List Join) (type : RecordType) (d : Document) : Except DecodeError Record := do
  let r ← Record.decode type d
  let contents ← (type.fields.zip r.contents).mapM fun (field, unjoined) =>
    match joins.find? fun j => j.field == field.key with
    | none => .ok unjoined
    | some j => content j d unjoined
  return { r with contents }

/-- The content that a join is meant to give its field in the record of a document: the record that
the stored identifier refers to, or the records that the stored list refers to. Nested joins expand
these records with one level less, and leave the field as it is when no level is left. -/
def Join.content (db : Database) : Nat → Join → Document → Content → Except DecodeError Content
  | depth, ⟨field, collection, shape⟩, d, unjoined =>
    let targets := db.targets collection (d.valueAt field)
    match shape, depth with
    | .one, _ =>
      match targets with
      | [] => .ok (.reference none)
      | t :: _ =>
        (fun r => .reference (some (.expanded r))) <$> Record.decode collection.recordType t
    | .many, _ =>
      .references <$> targets.mapM fun t => .expanded <$> Record.decode collection.recordType t
    | .nested _, 0 => .ok unjoined
    | .nested kind, remaining + 1 =>
      .references <$> targets.mapM fun t =>
        .expanded <$> Record.decodeWith (fun j d unjoined => Join.content db remaining j d unjoined)
          (kind.nestedJoins remaining) kind.recordType t

/-- The record of a document, with the references of joins expanded as they are meant to be. -/
def Record.expand (db : Database) (depth : Nat) (joins : List Join) (type : RecordType)
    (d : Document) : Except DecodeError Record :=
  Record.decodeWith (Join.content db depth) joins type d

/-! ## What joined documents hold -/

/-- What the field of a join holds afterwards, given what it held before. -/
def Join.filled? (db : Database) : Nat → Join → Option Value → Option Value
  | depth, ⟨_, collection, shape⟩, stored? =>
    let targets := db.targets collection (stored?.getD .null)
    match shape, depth with
    | .one, _ => targets.head?.map .document
    | .many, _ => some (.array (targets.map .document))
    | .nested _, 0 => stored?
    | .nested kind, remaining + 1 =>
      some (.array ((targets.map (db.expand remaining (kind.nestedJoins remaining))).map .document))

section Joined

variable {db : Database} {depth : Nat}

theorem Join.lookup_fill_self (j : Join) (d : Document) :
    (j.fill db depth d).lookup j.field = j.filled? db depth (d.lookup j.field) := by
  obtain ⟨field, collection, shape⟩ := j
  cases shape with
  | one =>
    rw [fill, filled?, ← Document.valueAt]
    cases db.targets collection (d.valueAt field) with
    | nil => simp [Document.putFirst]
    | cons t _ => simp [Document.putFirst]
  | many => simp [fill, filled?, Engine.putAll, Document.valueAt]
  | nested kind =>
    cases depth with
    | zero => rfl
    | succ remaining =>
      rw [fill, filled?, ← Document.valueAt, Engine.putAll, Document.lookup_insert, if_pos rfl]
      rfl

theorem Database.lookup_expand_self {joins : List Join} (hnodup : (joins.map Join.field).Nodup)
    {j : Join} (hj : j ∈ joins) (d : Document) :
    (db.expand depth joins d).lookup j.field = j.filled? db depth (d.lookup j.field) := by
  induction joins generalizing d with
  | nil => simp at hj
  | cons k rest ih =>
    rw [List.map_cons, List.nodup_cons] at hnodup
    rw [expand_cons]
    rcases List.mem_cons.1 hj with rfl | hj
    · rw [lookup_expand _ hnodup.1, Join.lookup_fill_self]
    · have hne : j.field ≠ k.field := fun heq => hnodup.1 (heq ▸ List.mem_map_of_mem hj)
      rw [ih hnodup.2 hj, Join.lookup_fill d hne]

theorem Join.mem_fill {j : Join} {d : Document} {entry : String × Value}
    (h : entry ∈ j.fill db depth d) :
    entry ∈ d ∨ entry.1 = j.field ∧ j.filled? db depth (d.lookup j.field) = some entry.2 := by
  rw [← lookup_fill_self]
  obtain ⟨field, collection, shape⟩ := j
  have hput : ∀ v, entry ∈ Document.insert field v d →
      entry ∈ d ∨ entry.1 = field ∧ (Document.insert field v d).lookup field = some entry.2 := by
    intro v hentry
    rcases Document.mem_insert hentry with rfl | hd
    · exact Or.inr ⟨rfl, by simp⟩
    · exact Or.inl hd
  cases shape with
  | one =>
    rw [fill] at h ⊢
    cases htargets : db.targets collection (d.valueAt field) with
    | nil =>
      rw [htargets] at h
      exact Or.inl (Document.mem_of_mem_without h)
    | cons t _ =>
      rw [htargets] at h
      exact hput _ h
  | many =>
    rw [fill] at h ⊢
    exact hput _ h
  | nested kind =>
    cases depth with
    | zero => exact Or.inl h
    | succ remaining =>
      rw [fill] at h ⊢
      exact hput _ h

/-- Joins bring in no entries but those of their fields. -/
theorem Database.mem_expand {joins : List Join} (hnodup : (joins.map Join.field).Nodup)
    {d : Document} {entry : String × Value} (h : entry ∈ db.expand depth joins d) :
    entry ∈ d ∨
      ∃ j ∈ joins, entry.1 = j.field ∧ j.filled? db depth (d.lookup j.field) = some entry.2 := by
  induction joins generalizing d with
  | nil => exact Or.inl h
  | cons k rest ih =>
    rw [List.map_cons, List.nodup_cons] at hnodup
    rw [expand_cons] at h
    rcases ih hnodup.2 h with hfill | ⟨j, hj, hkey, hfilled⟩
    · rcases Join.mem_fill hfill with hd | ⟨hkey, hfilled⟩
      · exact Or.inl hd
      · exact Or.inr ⟨k, List.mem_cons_self, hkey, hfilled⟩
    · have hne : j.field ≠ k.field := fun heq => hnodup.1 (heq ▸ List.mem_map_of_mem hj)
      rw [Join.lookup_fill d hne] at hfilled
      exact Or.inr ⟨j, List.mem_cons_of_mem _ hj, hkey, hfilled⟩

/-- Joining brings in no reserved keys. The induction is on the depth, since what a nested join puts
in is expanded with a smaller one. -/
theorem Database.plain_expand (hplain : db.Plain) {kind : Kind} {joins : List Join}
    (hjoins : joins.Sublist kind.allJoins) {d : Document} (hd : Value.plainFields d = true) :
    Value.plainFields (db.expand depth joins d) = true := by
  induction depth using Nat.strongRecOn generalizing kind joins d with
  | ind depth ih =>
    rw [Value.plainFields_iff] at hd ⊢
    intro entry hentry
    rcases mem_expand ((kind.nodup_fields).sublist (hjoins.map _)) hentry with
      hmem | ⟨j, hj, hkey, hfilled⟩
    · exact hd entry hmem
    refine ⟨hkey ▸ kind.fields_not_reserved j (hjoins.subset hj), ?_⟩
    obtain ⟨field, collection, shape⟩ := j
    have htargets : ∀ stored, ∀ t ∈ db.targets collection stored, Value.plainFields t = true :=
      fun stored t ht => hplain collection t (mem_of_mem_targets ht)
    cases shape with
    | one =>
      obtain ⟨t, ht, hvalue⟩ := Option.map_eq_some_iff.1 hfilled
      exact hvalue ▸ htargets _ t (List.mem_of_mem_head? ht)
    | many =>
      rw [Join.filled?, Option.some.injEq] at hfilled
      rw [← hfilled, Value.isPlain, Value.plainItems_iff]
      intro v hv
      obtain ⟨t, ht, rfl⟩ := List.mem_map.1 hv
      exact htargets _ t ht
    | nested nested =>
      cases depth with
      | zero => exact (hd _ (Document.mem_of_lookup hfilled)).2
      | succ remaining =>
        rw [Join.filled?, Option.some.injEq] at hfilled
        rw [← hfilled, Value.isPlain, Value.plainItems_iff, List.map_map]
        intro v hv
        obtain ⟨t, ht, rfl⟩ := List.mem_map.1 hv
        exact ih remaining (Nat.lt_succ_self _) (nested.nestedJoins_sublist remaining)
          (htargets _ t ht)

/-! ## Decoding joined documents -/

/-- What a join leaves in its field is read as the content that it is meant to give. The hypothesis
on nested joins is about the documents that they expand. -/
theorem Join.readField_filled (h : db.Valid) (hplain : db.Plain) {type : RecordType} {j : Join}
    (hj : j.agrees type = true) {d : Document} {unjoined : Content}
    (hunjoined : Record.readField j.fieldType (d.lookup j.field) = .ok unjoined)
    (hnested : ∀ kind remaining, j.shape = .nested kind → depth = remaining + 1 →
      ∀ t ∈ db kind.collection,
        Record.decode kind.recordType (db.expand remaining (kind.nestedJoins remaining) t) =
            Record.expand db remaining (kind.nestedJoins remaining) kind.recordType t ∧
          ∃ r, Record.expand db remaining (kind.nestedJoins remaining) kind.recordType t = .ok r) :
    ∃ content, j.content db depth d unjoined = .ok content ∧
      Record.readField j.fieldType (j.filled? db depth (d.lookup j.field)) = .ok content := by
  have hcollection : ∀ kind, j.shape = .nested kind → j.collection = kind.collection :=
    fun kind => Join.collection_of_agrees hj
  obtain ⟨field, collection, shape⟩ := j
  have hmem : ∀ t ∈ db.targets collection (d.valueAt field), t ∈ db collection :=
    fun t ht => Database.mem_of_mem_targets ht
  cases shape with
  | one =>
    rw [content, filled?, ← Document.valueAt]
    cases htargets : db.targets collection (d.valueAt field) with
    | nil => exact ⟨_, rfl, rfl⟩
    | cons t rest =>
      have ht := hmem t (htargets ▸ List.mem_cons_self)
      obtain ⟨r, hr⟩ := h.decodes collection t ht
      refine ⟨.reference (some (.expanded r)), by simp [hr], ?_⟩
      simp [Record.readField, fieldType, Content.decode,
        Related.decode_document (hplain collection t ht), hr]
  | many =>
    have hdocs := Related.decodeList_documents (fun t ht => hplain collection t (hmem t ht))
      collection.recordType
    obtain ⟨rs, hrs⟩ :=
      (exists_mapM_eq_ok (f := fun t => Related.expanded <$> Record.decode _ t)).2 fun t ht => by
        obtain ⟨r, hr⟩ := h.decodes collection t (hmem t ht)
        exact ⟨.expanded r, by rw [hr]; rfl⟩
    refine ⟨.references rs, ?_, ?_⟩
    · simp [content, hrs]
    · rw [filled?, ← Document.valueAt]
      simp [Record.readField, fieldType, Content.decode, hdocs, hrs]
  | nested kind =>
    cases depth with
    | zero => exact ⟨unjoined, rfl, hunjoined⟩
    | succ remaining =>
      have hkind : collection = kind.collection := hcollection kind rfl
      subst hkind
      have hexpand := fun t ht => hnested kind remaining rfl rfl t (hmem t ht)
      obtain ⟨rs, hrs⟩ := (exists_mapM_eq_ok
        (f := fun t => Related.expanded <$> Record.expand db remaining
          (kind.nestedJoins remaining) kind.recordType t)).2
        fun t ht => by
          obtain ⟨r, hr⟩ := (hexpand t ht).2
          exact ⟨.expanded r, by rw [hr]; rfl⟩
      have hdecode : Related.decodeList kind.recordType
          (((db.targets kind.collection (d.valueAt field)).map
            (db.expand remaining (kind.nestedJoins remaining))).map .document) = .ok rs := by
        rw [Related.decodeList_documents, List.mapM_map, ← hrs]
        · refine mapM_congr_mem fun t ht => ?_
          exact congrArg (Related.expanded <$> ·) (hexpand t ht).1
        · intro expanded hexpanded
          obtain ⟨t, ht, rfl⟩ := List.mem_map.1 hexpanded
          exact Database.plain_expand hplain (kind.nestedJoins_sublist remaining)
            (hplain _ t (hmem t ht))
      refine ⟨.references rs, ?_, ?_⟩
      · exact congrArg (Content.references <$> ·) hrs
      · rw [filled?, ← Document.valueAt]
        exact congrArg (Content.references <$> ·) hdecode

open Record in
/-- The document that joins make of a document decodes, and its record is expanded as it is meant to
be. The induction is on the depth, since nested joins expand with a smaller one. -/
theorem Record.decode_expand (h : db.Valid) (hplain : db.Plain) {kind : Kind} {joins : List Join}
    (hjoins : joins.Sublist kind.allJoins) {d : Document} (hd : d ∈ db kind.collection) :
    Record.decode kind.recordType (db.expand depth joins d) =
        Record.expand db depth joins kind.recordType d ∧
      ∃ r, Record.expand db depth joins kind.recordType d = .ok r := by
  induction depth using Nat.strongRecOn generalizing kind joins d with
  | ind depth ih =>
    have hnodup := (kind.nodup_fields).sublist (hjoins.map _)
    obtain ⟨r, hdecode⟩ := h.decodes kind.collection d hd
    change decode kind.recordType d = .ok r at hdecode
    obtain ⟨hfaults, id, hid, rfl⟩ := decode_eq_ok.1 hdecode
    -- what each join is meant to give, and what is read from its field
    have hjoined : ∀ j ∈ joins, ∀ field ∈ kind.recordType.fields, field.key = j.field →
        ∃ content, j.content db depth d (contentOf field d) = .ok content ∧
          readField field.type (j.filled? db depth (d.lookup j.field)) = .ok content := by
      intro j hj field hfield hkey
      have hagrees := kind.allJoins_agree j (hjoins.subset hj)
      have hread := readField_of_faultless hfaults hfield
      rw [Join.type_of_agrees hagrees hfield hkey] at hread ⊢
      refine j.readField_filled h hplain hagrees (hkey ▸ hread) ?_
      rintro nested remaining - rfl t ht
      exact ih remaining (Nat.lt_succ_self _) (nested.nestedJoins_sublist remaining) ht
    have hfaults' : ∀ entry ∈ db.expand depth joins d, kind.recordType.fault? entry = none := by
      rintro ⟨key, v⟩ hentry
      rcases Database.mem_expand hnodup hentry with hmem | ⟨j, hj, rfl, hfilled⟩
      · exact hfaults _ hmem
      · obtain ⟨field, hfield, hkey, -⟩ :=
          Join.field_of_agrees (kind.allJoins_agree j (hjoins.subset hj))
        obtain ⟨content, -, hread⟩ := hjoined j hj field hfield hkey
        rw [hfilled] at hread
        rw [← hkey, RecordType.fault?_field hfield, DecodeError.of?_eq_none]
        exact ⟨content, hread⟩
    have hid' : idOf (db.expand depth joins d) = some id := by
      have hkey : idKey ∉ joins.map Join.field :=
        fun hmem => kind.idKey_not_joined ((hjoins.map _).subset hmem)
      rw [idOf, Database.lookup_expand d hkey, ← idOf, hid]
    have hcontents : (kind.recordType.fields.zip
        (ofDocument kind.recordType id d).contents).mapM (fun (field, unjoined) =>
          match joins.find? fun (j : Join) => j.field == field.key with
          | none => Except.ok unjoined
          | some j => j.content db depth d unjoined) =
        .ok (ofDocument kind.recordType id (db.expand depth joins d)).contents := by
      rw [ofDocument, ← List.map_prod_left_eq_zip, List.mapM_map]
      refine mapM_eq_pure_map fun field hfield => ?_
      cases hfind : joins.find? fun (j : Join) => j.field == field.key with
      | none =>
        have hunjoined : field.key ∉ joins.map Join.field := by
          intro hmem
          obtain ⟨j, hj, hkey⟩ := List.mem_map.1 hmem
          have hne := List.find?_eq_none.1 hfind j hj
          exact hne (beq_iff_eq.2 hkey)
        simp only [Function.comp_apply, hfind]
        rw [contentOf, contentOf, Database.lookup_expand d hunjoined]
        rfl
      | some j =>
        have hj := List.mem_of_find?_eq_some hfind
        have hsame := List.find?_some hfind
        have hkey : field.key = j.field := (beq_iff_eq.1 hsame).symm
        obtain ⟨content, hcontent, hread⟩ := hjoined j hj field hfield hkey
        have hcontentOf : contentOf field (db.expand depth joins d) = content := by
          refine contentOf_of_read ?_
          rw [hkey, Database.lookup_expand_self hnodup hj, hread]
        simp only [Function.comp_apply, hfind]
        rw [hcontent, hcontentOf]
        rfl
    have hexpand : Record.expand db depth joins kind.recordType d =
        .ok (ofDocument kind.recordType id (db.expand depth joins d)) := by
      rw [Record.expand, decodeWith, hdecode]
      exact congrArg (Except.map _) hcontents
    refine ⟨?_, _, hexpand⟩
    rw [hexpand, decode_eq_ok]
    exact ⟨hfaults', id, hid', rfl⟩

end Joined

end NewsService

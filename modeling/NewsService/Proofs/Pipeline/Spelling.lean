import NewsService.Pipeline.Compile

/-!
# Reading spelled stages

The document store knows a pipeline by its spelling only. Here a spelled stage is read back as the
stage it stands for: every key and every option of the spelling is looked at, and a document that
differs in any of them is no stage. Main statement: what `Stage.toDocument` writes is read back as
the same stage, at every nesting of pipelines.
-/

namespace NewsService

/-- The collection with a name. -/
def Collection.ofName? (name : String) : Option Collection :=
  all.find? fun c => c.name == name

theorem Collection.ofName?_name (c : Collection) : ofName? c.name = some c := by
  cases c <;> decide

namespace Value

/-- The identifier that a value is. -/
def objectId? : Value → Option ObjectId
  | .objectId id => some id
  | _ => none

theorem mapM_objectId? (ids : List ObjectId) : (ids.map objectId).mapM objectId? = some ids := by
  induction ids with
  | nil => rfl
  | cons id rest ih => simp [objectId?, ih]

end Value

namespace Stage

/-- The field that a path leads to. -/
def fieldOfPath? (path : String) : Option String :=
  match path.toList with
  | '$' :: name => some (String.ofList name)
  | _ => none

/-- The condition that a value spells. -/
def conditionOf? : Value → Option Condition
  | .string s => some (.text s)
  | .boolean b => some (.flag b)
  | .document [("$in", .array ids)] => .oneOf <$> ids.mapM Value.objectId?
  | _ => none

/-- The direction that a value spells. -/
def directionOf? : Value → Option Direction
  | .int32 n => if n = 1 then some .ascending else if n = -1 then some .descending else none
  | _ => none

/-- The field whose value a binding gives to `$$ids`, with the empty list for a missing one. -/
def boundField? : Value → Option String
  | .document [("ids", .document [("$ifNull", .array [.string path, .array []])])] =>
    fieldOfPath? path
  | _ => none

/-- Reads a stage that has no pipeline inside. -/
def ofFlatDocument? : Document → Option Stage
  | [("$match", .document
      [("$expr", .document [("$in", .array [.string "$_id", .string "$$ids"])])])] =>
    some .selectReferenced
  | [("$match", .document conditions)] =>
    .select <$> conditions.mapM fun (key, v) => (key, ·) <$> conditionOf? v
  | [("$sort", .document keys)] =>
    .sort <$> keys.mapM fun (key, v) => (key, ·) <$> directionOf? v
  | [("$skip", .int64 n)] => some (.skip n)
  | [("$limit", .int64 n)] => some (.limit n)
  | [("$count", .string key)] => some (.count key)
  | [("$lookup", .document
      [("from", .string name), ("localField", .string field), ("foreignField", .string "_id"),
        ("as", .string target)])] => do
    let collection ← Collection.ofName? name
    if field = target then some (.join collection field) else none
  | [("$unwind", .document
      [("path", .string path), ("preserveNullAndEmptyArrays", .boolean true)])] =>
    .unwind <$> fieldOfPath? path
  | _ => none

mutual

/-- The stage that a value spells. -/
def ofValue? : Value → Option Stage
  | .document [("$lookup", .document
      [("from", .string name), ("let", bindings), ("pipeline", .array stages),
        ("as", .string target)])] => do
    let collection ← Collection.ofName? name
    let field ← boundField? bindings
    let pipeline ← ofValues? stages
    if field = target then some (.joinThrough collection field pipeline) else none
  | .document document => ofFlatDocument? document
  | _ => none

/-- The stages that values spell. -/
def ofValues? : List Value → Option (List Stage)
  | [] => some []
  | v :: rest => do
    let stage ← ofValue? v
    let stages ← ofValues? rest
    return stage :: stages

end

/-- The stage that a document spells. -/
def ofDocument? (document : Document) : Option Stage :=
  ofValue? (.document document)

/-! ## Parts of a spelling -/

theorem fieldOfPath?_path (field : String) : fieldOfPath? (path field) = some field := by
  simp [fieldOfPath?, path]

theorem conditionOf?_conditionValue (c : Condition) :
    conditionOf? (conditionValue c) = some c := by
  cases c with
  | text s => rfl
  | flag b => rfl
  | oneOf ids =>
    rw [conditionValue, conditionOf?, Value.mapM_objectId?]
    rfl

theorem directionOf?_number (d : Direction) : directionOf? (.int32 d.number) = some d := by
  cases d <;> decide

/-- Fields that are spelled one by one are read back one by one. -/
theorem mapM_spelled {α : Type} (write : α → Value) (read : Value → Option α)
    (h : ∀ a, read (write a) = some a) (fields : List (String × α)) :
    (fields.map fun (key, a) => (key, write a)).mapM (fun (key, v) => (key, ·) <$> read v) =
      some fields := by
  induction fields with
  | nil => rfl
  | cons field rest ih =>
    rw [List.map_cons, List.mapM_cons, ih]
    simp [h]

theorem ofDocument?_select (conditions : List (String × Condition)) :
    ofDocument? (toDocument (.select conditions)) = some (.select conditions) := by
  have hread := mapM_spelled conditionValue conditionOf? conditionOf?_conditionValue conditions
  have hne : (conditions.map fun p => (p.1, conditionValue p.2)) ≠
      [("$expr", .document [("$in", .array [.string "$_id", .string "$$ids"])])] := by
    intro h
    obtain ⟨⟨key, c⟩, -, hc⟩ : ∃ p ∈ conditions, (p.1, conditionValue p.2) =
        ("$expr", .document [("$in", .array [.string "$_id", .string "$$ids"])]) :=
      List.mem_map.1 (by rw [h]; exact List.mem_singleton_self _)
    cases c with
    | text s => simp [conditionValue] at hc
    | flag b => simp [conditionValue] at hc
    | oneOf ids => cases ids <;> simp [conditionValue] at hc
  rw [toDocument, ofDocument?, ofValue?, ofFlatDocument?, hread]
  · rfl
  · exact fun h => hne h
  · simp

theorem ofDocument?_sort (keys : List (String × Direction)) :
    ofDocument? (toDocument (.sort keys)) = some (.sort keys) := by
  have hread := mapM_spelled (fun d : Direction => .int32 d.number) directionOf?
    directionOf?_number keys
  rw [toDocument, ofDocument?, ofValue?, ofFlatDocument?, hread]
  · rfl
  · simp

/-! ## Reading back -/

mutual

/-- A spelled stage is read back as the stage. -/
theorem ofDocument?_toDocument : ∀ stage : Stage, ofDocument? (toDocument stage) = some stage
  | .select conditions => ofDocument?_select conditions
  | .sort keys => ofDocument?_sort keys
  | .skip n => by simp [toDocument, ofDocument?, ofValue?, ofFlatDocument?]
  | .limit n => by simp [toDocument, ofDocument?, ofValue?, ofFlatDocument?]
  | .count key => by simp [toDocument, ofDocument?, ofValue?, ofFlatDocument?]
  | .join collection field => by
    simp [toDocument, ofDocument?, ofValue?, ofFlatDocument?, Collection.ofName?_name]
  | .unwind field => by simp [toDocument, ofDocument?, ofValue?, ofFlatDocument?, fieldOfPath?_path]
  | .joinThrough collection field pipeline => by
    have hread := ofValues?_toValues pipeline
    simp [toDocument, ofDocument?, ofValue?, boundField?, Collection.ofName?_name,
      fieldOfPath?_path, hread]
  | .selectReferenced => by simp [toDocument, ofDocument?, ofValue?, ofFlatDocument?]

theorem ofValues?_toValues : ∀ stages : List Stage, ofValues? (toValues stages) = some stages
  | [] => rfl
  | stage :: rest => by
    have hstage : ofValue? (.document (toDocument stage)) = some stage :=
      ofDocument?_toDocument stage
    have hrest := ofValues?_toValues rest
    simp [toValues, ofValues?, hstage, hrest]

end

end Stage

/-- The pipeline that documents spell. -/
def Pipeline.ofDocuments? (documents : List Document) : Option Pipeline :=
  documents.mapM Stage.ofDocument?

/-- A spelled pipeline is read back as the pipeline. -/
theorem Pipeline.ofDocuments?_toDocuments (pipeline : Pipeline) :
    ofDocuments? pipeline.toDocuments = some pipeline := by
  induction pipeline with
  | nil => rfl
  | cons stage rest ih =>
    rw [ofDocuments?, toDocuments] at ih ⊢
    rw [List.map_cons, List.mapM_cons, ih, Stage.ofDocument?_toDocument]
    rfl

end NewsService

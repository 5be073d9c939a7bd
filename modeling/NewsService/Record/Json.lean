import NewsService.Record.Basic

/-!
# Records as JSON

Every field of the schema is written under its name, in the order of the schema, after the
identifier; what is absent is null. Identifiers are written as their text, and so are references
that have not been joined.
-/

namespace NewsService

/-- The JSON form of a plain field. -/
def Scalar.toJson : Scalar → Json
  | .text s => .string s
  | .flag b => .bool b
  | .number n => Json.ofOption (fun n => .integer n.toInt) n
  | .date t => Json.ofOption (fun t => .string (t.text .grouped)) t
  | .free j => Json.ofOption id j

mutual

/-- The JSON form of a record. -/
def Record.toJson : Record → Json
  | ⟨type, id, contents⟩ =>
    .object (("id", .string id.text) :: Content.members type.fields contents)

/-- The members for contents, along the fields that say what they are. -/
def Content.members : List (Field FieldType) → List Content → List (String × Json)
  | field :: fields, content :: rest =>
    (field.name, Content.toJson field.type content) :: Content.members fields rest
  | _, _ => []

/-- The JSON form of the content of a field. -/
def Content.toJson : FieldType → Content → Json
  | _, .scalar s => s.toJson
  | .asset type, .asset (some scalars) =>
    .object ((type.fields.map (·.name)).zip (scalars.map Scalar.toJson))
  | _, .asset _ => .null
  | _, .reference none => .null
  | _, .reference (some r) => Related.toJson r
  | _, .references rs => .array (Related.listToJson rs)

/-- The JSON form of a reference. -/
def Related.toJson : Related → Json
  | .id id => .string id.text
  | .expanded record => Record.toJson record

/-- The JSON forms of a list of references. -/
def Related.listToJson : List Related → List Json
  | [] => []
  | r :: rest => Related.toJson r :: Related.listToJson rest

end

end NewsService

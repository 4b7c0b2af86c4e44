import FeatureFlow.Cascade.Written
import FeatureFlow.Files
import FeatureFlow.Manifest.Definition

/-!
# Schemas

The shapes of manifests and of cascade reports as JSON schemas. A shape takes
its fields from the rules by which the record is decoded, so a field is required
exactly where the decoder requires it. Records inside a document are defined
once and referred to by name.
-/

namespace FeatureFlow.Schema

inductive Kind where
  | any
  | text
  | boolean
  | integer
  | moment
  | list (item : Kind)
  | table (item : Kind)
  | nullable (kind : Kind)
  | record (name : String)

def Kind.toJson : Kind → Json
  | any => .boolean true
  | text => .record [("type", .text "string")]
  | boolean => .record [("type", .text "boolean")]
  | integer => .record [("type", .text "integer"), ("format", .text "int64")]
  | moment => .record [("type", .text "string"), ("format", .text "date-time")]
  | list item => .record [("type", .text "array"), ("items", item.toJson)]
  | table item => .record [("type", .text "object"), ("additionalProperties", item.toJson)]
  | nullable kind => .record [("anyOf", .array [kind.toJson, .record [("type", .text "null")]])]
  | record name => .record [("$ref", .text ("#/$defs/" ++ name))]

structure Field where
  name : String
  kind : Kind
  required : Bool

def Field.ofRule (rule : Decode.Rule) (kind : Kind) : Field :=
  { name := rule.name, kind, required := rule.presence = .required }

structure Shape where
  name : String
  fields : List Field

namespace Shape

def ofRules (name : String) (rules : List Decode.Rule) (kinds : List Kind) : Shape :=
  { name, fields := List.zipWith Field.ofRule rules kinds }

def required (s : Shape) : List String :=
  (s.fields.filter (·.required)).map (·.name)

def toFields (s : Shape) : List (String × Json) :=
  [("type", .text "object"),
    ("properties", .record (s.fields.map fun field => (field.name, field.kind.toJson)))] ++
    (if s.required.isEmpty then [] else [("required", .texts s.required)])

end Shape

-- ---------------------------------------------------------------------------
-- The shapes
-- ---------------------------------------------------------------------------

def nodeKinds : List Kind :=
  [.text, .text, .any, .nullable .text]

def component : Shape :=
  .ofRules "ComponentDefinition" (NodeDefinition.rules ++ ComponentDefinition.rules)
    (nodeKinds ++ [.nullable .text, .table (.list .text), .boolean])

def dataObject : Shape :=
  .ofRules "DataObjectDefinition" (NodeDefinition.rules ++ DataObjectDefinition.rules)
    (nodeKinds ++ [.nullable .text])

def provider : Shape :=
  .ofRules "ProviderDefinition" NodeDefinition.rules nodeKinds

def manifest : Shape :=
  .ofRules "ManifestDocument" ManifestDocument.rules
    ([component, dataObject, provider].map fun shape => .nullable (.list (.record shape.name)))

def step : Shape :=
  .ofRules "StepRecord" WrittenRecord.rules
    [.text, .text, .moment, .moment, .list .text, .nullable .text]

def report : Shape :=
  .ofRules "CascadeReport" WrittenReport.rules
    [.text, .text, .list (.record step.name), .boolean, .integer]

-- ---------------------------------------------------------------------------
-- Documents
-- ---------------------------------------------------------------------------

structure Document where
  fileName : String
  shape : Shape
  definitions : List Shape

def Document.toJson (d : Document) : Json :=
  .record ([("title", .text d.shape.name),
    ("$defs", .record (d.definitions.map fun shape => (shape.name, .record shape.toFields)))] ++
    d.shape.toFields)

def Document.text (d : Document) : String :=
  Json.indented 0 d.toJson

def documents : List Document :=
  [{ fileName := "manifest.schema.json", shape := manifest,
     definitions := [component, dataObject, provider] },
    { fileName := "cascade-report.schema.json", shape := report, definitions := [step] }]

inductive WriteError where
  | noDirectory (path : String) (reason : FileError)
  | notWritten (path : String) (reason : FileError)
deriving DecidableEq

def WriteError.message : WriteError → String
  | noDirectory path _ => "could not create " ++ path
  | notWritten path _ => "could not write " ++ path

def writeEach (directory : String) : List Document → Files → Except WriteError (List String) × Files
  | [], files => (.ok [], files)
  | document :: rest, files =>
    let path := Path.join directory document.fileName
    match files.writeText path document.text with
    | .error e => (.error (.notWritten path e), files)
    | .ok after =>
      let (paths, last) := writeEach directory rest after
      (paths.map (path :: ·), last)

def writeAll (directory : String) (files : Files) : Except WriteError (List String) × Files :=
  match files.makeDirectories directory with
  | (.error e, made) => (.error (.noDirectory directory e), made)
  | (.ok (), made) => writeEach directory documents made

end FeatureFlow.Schema

import ApiDiscovery.Document
import ApiDiscovery.Validation.Record

/-!
# Reading discovery documents

Checks the data of a document and builds it. Some fields have a second spelling with capitals inside
the word; it is looked for first.

Resources are nested without limit. `Resource.read` goes down by the depth of the data: each level of
resources takes at least one level of mappings.
-/

namespace ApiDiscovery

open Validation

/-! ## Parameters -/

def Location.read (v : Value) : Checked Location :=
  match text v with
  | .ok "path" => .ok .path
  | .ok "query" => .ok .query
  | .ok "body" => .ok .body
  | _ => .fail .location

def Parameter.shape : Shape where
  name := "ParameterSchema"
  fields := ["type", "location", "required", "default", "repeated", "enum", "description",
    "pattern", "format"].map .plain
  frozen := true
  keepsUnknown := true

def Parameter.read : Value → Checked Parameter :=
  shape.read fun es =>
    Parameter.mk
      <$> (shape.field "type").read es "string" text
      <*> (shape.field "location").read es .query Location.read
      <*> (shape.field "required").read es false bool
      <*> (shape.field "default").read es .null .ok
      <*> (shape.field "repeated").read es false bool
      <*> (shape.field "enum").read es none (optional (list text))
      <*> (shape.field "description").read es none (optional text)
      <*> (shape.field "pattern").read es none (optional text)
      <*> (shape.field "format").read es none (optional text)
      <*> Validation.unknown shape.fields es

/-! ## Methods -/

def Method.shape : Shape where
  name := "MethodSchema"
  fields := [.plain "id", .spelled "http_method" "httpMethod", .plain "path",
    .spelled "flat_path" "flatPath", .plain "description", .plain "parameters",
    .spelled "parameter_order" "parameterOrder", .plain "request", .plain "response", .plain "scopes"]
  frozen := true
  keepsUnknown := true

def Method.read : Value → Checked Method :=
  shape.read fun es =>
    Method.mk
      <$> (shape.field "id").read es none (optional text)
      <*> (shape.field "http_method").read es none (optional text)
      <*> (shape.field "path").read es none (optional text)
      <*> (shape.field "flat_path").read es none (optional text)
      <*> (shape.field "description").read es none (optional text)
      <*> (shape.field "parameters").read es ∅ (table Parameter.read)
      <*> (shape.field "parameter_order").read es [] (list text)
      <*> (shape.field "request").read es none (optional anyTable)
      <*> (shape.field "response").read es none (optional anyTable)
      <*> (shape.field "scopes").read es [] (list text)
      <*> Validation.unknown shape.fields es

/-! ## Resources and documents -/

def Resource.shape : Shape where
  name := "ResourceSchema"
  fields := [.plain "methods", .plain "resources"]
  frozen := true
  keepsUnknown := true

/-- The methods and the resources of a mapping, the latter read by `inner`. -/
def Resource.readParts (inner : Value → Checked Resource) (es : List (Value × Value)) :
    Checked (Table Method × List (String × Resource)) :=
  Prod.mk
    <$> (shape.field "methods").read es ∅ (table Method.read)
    <*> (shape.field "resources").read es [] fun v => (table inner v).map Table.entries

/-- A resource from data of at most the given depth. -/
def Resource.readWithin : Nat → Value → Checked Resource
  | 0, _ => .fail (.recordKind shape.name)
  | depth + 1, v =>
      shape.read (fun es =>
        (fun parts unknown => Resource.mk parts.1 parts.2 unknown)
          <$> readParts (readWithin depth) es
          <*> Validation.unknown shape.fields es) v

def Resource.read (v : Value) : Checked Resource := readWithin v.depth v

def Document.shape : Shape where
  name := "DiscoveryDocument"
  fields := Resource.shape.fields ++
    [.plain "name", .plain "version", .plain "title", .plain "description",
      .spelled "root_url" "rootUrl", .spelled "service_path" "servicePath",
      .spelled "base_path" "basePath", .spelled "base_url" "baseUrl", .plain "parameters",
      .plain "schemas"]
  frozen := true
  keepsUnknown := true

def Document.read (v : Value) : Checked Document :=
  shape.read (fun es =>
    (fun parts name version title description rootUrl servicePath basePath baseUrl parameters
        schemas unknown =>
      { name, version, title, description, rootUrl, servicePath, basePath, baseUrl, parameters,
        schemas, tree := .mk parts.1 parts.2 unknown : Document })
      <$> Resource.readParts (Resource.readWithin v.depth) es
      <*> (shape.field "name").require es text
      <*> (shape.field "version").require es text
      <*> (shape.field "title").read es none (optional text)
      <*> (shape.field "description").read es none (optional text)
      <*> (shape.field "root_url").read es none (optional text)
      <*> (shape.field "service_path").read es none (optional text)
      <*> (shape.field "base_path").read es none (optional text)
      <*> (shape.field "base_url").read es none (optional text)
      <*> (shape.field "parameters").read es ∅ (table Parameter.read)
      <*> (shape.field "schemas").read es ∅ anyTable
      <*> Validation.unknown shape.fields es) v

def Document.ofValue? (v : Value) : Except Rejection Document :=
  (Document.read v).toExcept shape.name

end ApiDiscovery

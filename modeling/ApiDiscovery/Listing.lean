import ApiDiscovery.Validation.Record

/-!
# The directory of a discovery service

One row for each version of an API that the service knows. Unknown keys of a row are kept.
-/

namespace ApiDiscovery

open Validation

/-- A row of the directory. -/
structure Listing where
  name : String
  version : String
  title : Option String
  description : Option String
  documentUrl : Option String
  preferred : Bool
  unknown : Table Value

namespace Listing

def shape : Shape where
  name := "DirectoryEntry"
  fields := [.plain "name", .plain "version", .plain "title", .plain "description",
    .spelled "discovery_rest_url" "discoveryRestUrl", .plain "preferred"]
  frozen := false
  keepsUnknown := true

def read : Value → Checked Listing :=
  shape.read fun es =>
    Listing.mk
      <$> (shape.field "name").require es text
      <*> (shape.field "version").require es text
      <*> (shape.field "title").read es none (optional text)
      <*> (shape.field "description").read es none (optional text)
      <*> (shape.field "discovery_rest_url").read es none (optional text)
      <*> (shape.field "preferred").read es false bool
      <*> Validation.unknown shape.fields es

def ofValue? (v : Value) : Except Rejection Listing := (read v).toExcept shape.name

end Listing

end ApiDiscovery

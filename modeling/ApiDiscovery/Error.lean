import ApiDiscovery.Content
import ApiDiscovery.Files
import ApiDiscovery.Http.Fault
import ApiDiscovery.Settings.Store

/-!
# Errors

Everything that can go wrong for a caller, by cause, with the words for it in one place:
`Error.message?`. A fault of the file system has none, nor has what is left open.
-/

namespace ApiDiscovery

open Text Validation

/-- What a caller gets wrong about the members of a client or of the factory of clients. -/
inductive MemberFault where
  /-- A node has no member of the name. -/
  | noMember (owner name : String)
  /-- Nor has an object that is no node. -/
  | noAttribute (kind name : String)
  | noItem (name : String)
  | readOnly (owner : String)
  /-- What an object works out itself cannot be assigned. -/
  | computed (kind name : String)
  /-- The factory knows no API of the name. -/
  | noApi (name : String)
  /-- Names that begin with an underscore are nobody's. -/
  | hidden (name : String)

/-- What a caller gets wrong about the kinds and numbers of arguments. -/
inductive UsageFault where
  | notCallable (kind : String)
  | notSubscriptable (kind : String)
  | noItemAssignment (kind : String)
  | notContainer (kind : String)
  | notMapping (kind : String)
  | notIterable (kind : String)
  /-- Parameters of another kind than a mapping, with the method that they are for. -/
  | parameters (method : Option String) (kind : String)
  /-- An argument that is given twice, with the operation that takes it. -/
  | twice (operation argument : String)
  /-- An argument that is missing, with the operation that takes it. -/
  | noArgument (operation argument : String)

/-- Everything that can go wrong for a caller. -/
inductive Error where
  | document (f : Document.Fault)
  /-- No document describes the API, for a reason in words of its own or not. -/
  | unknownApi (name version : String) (text : Option String)
  | missing (m : MissingParameter)
  | settings (f : SettingsFault)
  | transport (f : TransportFault)
  /-- A fault of the package in the words of another. -/
  | described (text : String)
  /-- A fault of a document in the words of another. -/
  | describedDocument (text : String) (method : Option String)
  | rejected (r : Rejection)
  | longNumber (e : Json.Error)
  | scalar (f : Yaml.Fault)
  /-- A mapping that contains itself, where it is left open what comes of it. -/
  | looped (g : Yaml.Graph)
  | undecodable (f : Utf8.Fault)
  /-- The body of a response is not read as a text. -/
  | unreadable (f : Charset.Fault)
  | unencodable (f : Http.TextFault)
  | unwritable (w : Json.WriteFault)
  | network (f : Http.Failure)
  | url (f : Url.Fault)
  | unknownScheme (url : String)
  | file (f : FileFault)
  | member (f : MemberFault)
  | usage (f : UsageFault)
  | given (f : Options.CoerceFault)
  | assign (f : Shape.AssignFault)
  /-- A callback fails, in its own words. -/
  | callback (text : String)

namespace MemberFault

def message : MemberFault → String
  | noMember owner name => owner ++ " has no member " ++ quoted name
  | noAttribute kind name => "'" ++ kind ++ "' object has no attribute '" ++ name ++ "'"
  | noItem name => quoted name
  | readOnly owner => owner ++ " is read-only"
  | computed kind name => "property '" ++ name ++ "' of '" ++ kind ++ "' object has no setter"
  | noApi name => "DiscoGen has no API named " ++ quoted name
  | hidden name => name

end MemberFault

namespace UsageFault

def message : UsageFault → String
  | notCallable kind => "'" ++ kind ++ "' object is not callable"
  | notSubscriptable kind => "'" ++ kind ++ "' object is not subscriptable"
  | noItemAssignment kind => "'" ++ kind ++ "' object does not support item assignment"
  | notContainer kind => "argument of type '" ++ kind ++ "' is not iterable"
  | notMapping kind => "'" ++ kind ++ "' object is not a mapping"
  | notIterable kind => "'" ++ kind ++ "' object is not iterable"
  | parameters method kind =>
      method.getD "None" ++ ": params must be a mapping, got " ++ kind
  | twice operation argument =>
      operation ++ "() got multiple values for argument '" ++ argument ++ "'"
  | noArgument operation argument =>
      operation ++ "() missing 1 required positional argument: '" ++ argument ++ "'"

end UsageFault

def Options.CoerceFault.message : Options.CoerceFault → String
  | .rejected r => (SettingsFault.options r).message
  | .notIterable kind => (UsageFault.notIterable kind).message
  | .itemKind i =>
      "cannot convert dictionary update sequence element #" ++ toString i ++ " to a sequence"
  | .itemLength i n =>
      "dictionary update sequence element #" ++ toString i ++ " has length " ++ toString n ++
        "; 2 is required"
  | .keyKind kind => "unhashable type: '" ++ kind ++ "'"

namespace Error

def ofContent : ContentFault → Error
  | .document f => document f
  | .longNumber e => longNumber e
  | .scalar f => scalar f
  | .looped g => looped g

def ofRequest : RequestFault → Error
  | .missing m => missing m
  | .unwritable w => unwritable w

def ofSend : Http.SendFault → Error
  | .url f => url f
  | .header f => unencodable f
  | .body w => unwritable w
  | .network f => network f
  | .unknownScheme u => unknownScheme u

def ofCall : CallFault → Error
  | .transport f => transport f
  | .send f => ofSend f
  | .unreadable f => unreadable f

def ofStore : StoreFault → Error
  | .files f => file f
  | .settings f => settings f

def ofGiven : Options.CoerceFault → Error
  | .rejected r => settings (.options r)
  | f => given f

def message? : Error → Option String
  | document f => some f.message
  | unknownApi name version text =>
      some (((text.filter (!·.isEmpty)).getD ("Unknown API: " ++ name ++ " " ++ version)))
  | missing m => some m.message
  | settings f => some f.message
  | transport f => some f.message
  | described text | describedDocument text _ => some text
  | rejected r => some r.message
  | longNumber e => some e.message
  | scalar f => some f.message
  | undecodable f => some f.message
  | unreadable f => some f.message
  | unencodable f => some f.message
  | unwritable w => some w.message
  | network f => some f.text
  | url f => some f.message
  | unknownScheme u => some ("unknown url type: " ++ quoted u)
  | file _ | looped _ => none
  | member f => some f.message
  | usage f => some f.message
  | given f => some f.message
  | assign f => some f.message
  | callback text => some text

end Error

end ApiDiscovery

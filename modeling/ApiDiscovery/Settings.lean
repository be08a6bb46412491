import ApiDiscovery.Options

/-!
# Settings of a user

The defaults that a user keeps on disk: where the discovery service is, where bundled documents are,
and how requests are made.
-/

namespace ApiDiscovery

open Number Validation

/-- The discovery service that is used where none is set. -/
def defaultDiscoveryUrl : String := "https://www.googleapis.com/discovery/v1"

structure Settings where
  discoveryUrl : String := defaultDiscoveryUrl
  bundleDir : Option String := none
  timeout : Double := Options.defaultTimeout
  maxRetries : Int := Options.defaultRetries
  verifyTls : Bool := true
deriving DecidableEq

namespace Settings

def shape : Shape where
  name := "GlobalConfig"
  fields := ["discovery_url", "bundle_dir", "timeout", "max_retries", "verify_ssl"].map .plain
  frozen := false
  keepsUnknown := false

/-- Settings from entries; `timeout` is the check of the number that the limit of time is. -/
def readFields (timeout : Value → Checked Double) (es : List (Value × Value)) : Checked Settings :=
  Settings.mk
    <$> (shape.field "discovery_url").read es defaultDiscoveryUrl text
    <*> (shape.field "bundle_dir").read es none (optional text)
    <*> (shape.field "timeout").read es Options.defaultTimeout timeout
    <*> (shape.field "max_retries").read es Options.defaultRetries whole
    <*> (shape.field "verify_ssl").read es true bool

def read : Value → Checked Settings := shape.read (readFields number)

def ofValue? (v : Value) : Except Rejection Settings := (read v).toExcept shape.name

def fields (s : Settings) : List (String × Value) :=
  [("discovery_url", .str s.discoveryUrl), ("bundle_dir", .ofText? s.bundleDir),
    ("timeout", .float s.timeout), ("max_retries", .int s.maxRetries),
    ("verify_ssl", .bool s.verifyTls)]

def options (s : Settings) : Options :=
  { timeout? := some s.timeout, maxRetries? := some s.maxRetries, verifyTls? := some s.verifyTls }

end Settings

end ApiDiscovery

import ApiDiscovery.Document
import ApiDiscovery.Template

/-!
# Parameters of a call

A call starts from the client's defaults; what is given with the call goes over them, and null counts
as not given in either. A parameter is required if its declaration says so or if the path has a hole
of its name. A required parameter that has no value takes the default that its declaration names; if
there is none, the call is refused for the first such parameter. The declared default of a parameter
that is not required is never sent.
-/

namespace ApiDiscovery

/-- Appends the names that are not there yet, each once. -/
def appendNew (names more : List String) : List String :=
  more.foldl (fun acc n => if acc.contains n then acc else acc ++ [n]) names

namespace Method

/-- Whether a parameter is declared and required. -/
def requires (m : Method) (name : String) : Bool := ((m.parameters.get? name).map (·.required)).getD false

def holes (m : Method) : List String := Template.names (m.path.getD "")

/-- The parameters that need a value: first the declared ones in the order of the method, then the
other declared ones, then the holes of the path. -/
def requiredParameters (m : Method) : List String :=
  let ordered := m.parameterOrder.filter m.requires
  let declared := m.parameters.keys.filter m.requires
  appendNew (appendNew (appendNew [] ordered) declared) m.holes

end Method

def dropNulls (t : Table Value) : Table Value := t.filter fun _ v => v != .null

def namedDefaults (declarations : Table Parameter) : Table Value :=
  dropNulls (declarations.mapValues (·.default))

/-- The defaults that a method's declarations name, over those of the document. -/
def declaredDefaults (m : Method) (shared : Table Parameter) : Table Value :=
  (namedDefaults m.parameters).onto (namedDefaults shared)

/-- Gives the required parameters values, or reports the first that has none. -/
def fillRequired (declared : Table Value) (method : Option String) :
    List String → Table Value → Except MissingParameter (Table Value)
  | [], t => .ok t
  | name :: rest, t =>
      if !Template.isMissing (t.get? name) then fillRequired declared method rest t
      else
        match declared.get? name with
        | none => .error ⟨name, method⟩
        | some v =>
            if Template.isMissing (some v) then .error ⟨name, method⟩
            else fillRequired declared method rest (t.set name v)

def resolveParameters (defaults given : Table Value) (m : Method) (shared : Table Parameter) :
    Except MissingParameter (Table Value) :=
  fillRequired (declaredDefaults m shared) m.id m.requiredParameters
    ((dropNulls given).onto (dropNulls defaults))

end ApiDiscovery

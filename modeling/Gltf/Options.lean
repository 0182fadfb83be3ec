import Gltf.Schema.Extensions

/-!
Options of reading: which extensions are read as records and how. A handler is registered for an
extension of a kind of object, and holds for the more special kinds too; a state set for a kind or
for all kinds overrides what follows from the handlers.
-/

namespace Gltf

inductive ExtensionState where
  | typed
  | genericCapture
  | disabled
deriving DecidableEq, Repr

namespace ExtensionState

def all : List ExtensionState := [.typed, .genericCapture, .disabled]

def name : ExtensionState → String
  | .typed => "typed"
  | .genericCapture => "generic_capture"
  | .disabled => "disabled"

def ofName? (name : String) : Option ExtensionState := all.find? (·.name == name)

end ExtensionState

/-- What a reader function makes of an extension: a value, or none to keep the JSON, and texts to
report. -/
structure Reported where
  value : Option Value
  errors : List String
  warnings : List String

/-- Reads an extension: as a record of an object type, or by a function that may fail. -/
inductive Handler where
  | record (type : ObjectType)
  | function (name : String) (read : List (String × Json) → Except String Reported)

def Handler.name : Handler → String
  | .record type => type.name
  | .function name _ => name

/-- What a caller may offer for a handler. -/
inductive Candidate where
  | handler (handler : Handler)
  /-- A type that is none of objects. -/
  | otherType (name : String)
  /-- A value that is neither type nor function, with its printed form. -/
  | value (text : String)

/-- Why a handler is not registered, or a state not set. -/
inductive OptionProblem where
  | noObjectType (name : String)
  | noHandler (text : String)
  | noName (handler : String)
  | unknownState (name : String)
deriving DecidableEq, Repr

def OptionProblem.message : OptionProblem → String
  | .noObjectType name => s!"{name} is not an ExtensibleObject subclass"
  | .noHandler text => s!"extension handler must be a model class or a callable, got {text}"
  | .noName handler => s!"{handler} has no EXTENSION_NAME and no name was given"
  | .unknownState name => s!"'{name}' is not a valid ExtensionState"

/-- Handlers by the kind of the object and the name of the extension. -/
abbrev Registry := Table (String × String) Handler

namespace Registry

/-- The name that a handler is registered under: the one given, unless it is empty or missing. -/
def nameFor (handler : Handler) (name : Option String) : String :=
  match name, handler with
  | some "", .record type => type.extensionName
  | none, .record type => type.extensionName
  | name, _ => name.getD ""

def register (r : Registry) (parent : String) (candidate : Candidate) (name : Option String) :
    Except OptionProblem Registry :=
  match candidate with
  | .otherType name => .error (.noObjectType name)
  | .value text => .error (.noHandler text)
  | .handler handler =>
      let name := nameFor handler name
      if name.isEmpty then .error (.noName handler.name)
      else .ok (Table.put r (parent, name) handler)

def unregister (r : Registry) (parent name : String) : Registry := Table.erase r (parent, name)

/-- The handler for an extension of an object of the given kinds, the first of which wins. -/
def lookup (r : Registry) (chain : List String) (name : String) : Option Handler :=
  chain.findSome? fun kind => Table.get? r (kind, name)

/-- The handlers for the extensions that are read out of the box. -/
def default : Registry :=
  [ (("Gltf", Schema.cesiumRtc.extensionName), .record Schema.cesiumRtc),
    (("MeshPrimitive", Schema.dracoMeshCompression.extensionName),
      .record Schema.dracoMeshCompression),
    (("BufferView", Schema.meshoptCompression.extensionName), .record Schema.meshoptCompression),
    (("Buffer", Schema.meshoptCompressionBuffer.extensionName),
      .record Schema.meshoptCompressionBuffer),
    (("Texture", Schema.textureBasisu.extensionName), .record Schema.textureBasisu),
    (("TextureInfo", Schema.textureTransform.extensionName), .record Schema.textureTransform),
    (("Material", Schema.materialsUnlit.extensionName), .record Schema.materialsUnlit),
    (("Node", Schema.meshGpuInstancing.extensionName), .record Schema.meshGpuInstancing)]

end Registry

structure Options where
  captureUnknown : Bool := true
  registry : Registry := Registry.default
  /-- States by the kind they are set for, if any, and the name of the extension. -/
  states : Table (Option String × String) ExtensionState := []

namespace Options

def setState (o : Options) (name : String) (state : ExtensionState) (parent : Option String) :
    Options :=
  { o with states := Table.put o.states (parent, name) state }

/-- As `setState`, with the state given by its name. -/
def setStateNamed (o : Options) (name state : String) (parent : Option String) :
    Except OptionProblem Options :=
  match ExtensionState.ofName? state with
  | some state => .ok (o.setState name state parent)
  | none => .error (.unknownState state)

def clearState (o : Options) (name : String) (parent : Option String) : Options :=
  { o with states := Table.erase o.states (parent, name) }

def state? (o : Options) (name : String) (parent : Option String) : Option ExtensionState :=
  Table.get? o.states (parent, name)

def register (o : Options) (parent : String) (candidate : Candidate) (name : Option String) :
    Except OptionProblem Options :=
  match o.registry.register parent candidate name with
  | .ok registry => .ok { o with registry }
  | .error problem => .error problem

def unregister (o : Options) (parent name : String) : Options :=
  { o with registry := o.registry.unregister parent name }

def lookup (o : Options) (chain : List String) (name : String) : Option Handler :=
  o.registry.lookup chain name

/-- The state in effect for an extension of an object of the given kinds: the one set for the most
special kind, else the one set for all, else typed exactly if there is a handler. -/
def resolve (o : Options) (chain : List String) (name : String) : ExtensionState :=
  match chain.findSome? fun kind => o.state? name (some kind) with
  | some state => state
  | none =>
      match o.state? name none with
      | some state => state
      | none => if (o.lookup chain name).isSome then .typed else .genericCapture

/-- The handler that an extension is given to, which only typed ones are. -/
def handler? (o : Options) (chain : List String) (name : String) : Option Handler :=
  if o.resolve chain name = .typed then o.lookup chain name else none

end Options

end Gltf

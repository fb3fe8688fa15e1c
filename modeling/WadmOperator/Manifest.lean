import WadmOperator.Foundation.Dict
import WadmOperator.SocketAddr

/-!
# Manifests and their HTTP server

The parts of wadm's manifest types that the operator reads, and the search for
the HTTP server component. The search keeps the source's shape: components are
filtered by their image, the first daemonscaler and the first link of each are
collected in two separate lists, and the details are folded over the links.
-/

namespace WadmOperator

structure ConfigProperty where
  name : String
  properties : Option (Dict String String)
  deriving DecidableEq

structure ConfigDefinition where
  config : List ConfigProperty
  deriving DecidableEq

structure LinkProperty where
  ns : String
  package : String
  interfaces : List String
  source : Option ConfigDefinition
  deriving DecidableEq

structure Spread where
  requirements : Dict String String
  deriving DecidableEq

structure SpreadScalerProperty where
  spread : List Spread
  deriving DecidableEq

inductive TraitProperty where
  | link (props : LinkProperty)
  | spreadScaler (scaler : SpreadScalerProperty)
  | custom
  deriving DecidableEq

structure Trait where
  traitType : String
  properties : TraitProperty
  deriving DecidableEq

inductive Properties where
  | component
  | capability (image : String)
  deriving DecidableEq

structure Component where
  properties : Properties
  traits : Option (List Trait)
  deriving DecidableEq

structure Manifest where
  name : String
  components : List Component
  deriving DecidableEq

structure HttpServerComponent where
  labels : Option (Dict String String)
  address : String

def startsWith (pre s : String) : Bool := pre.toList.isPrefixOf s.toList

namespace Manifest

def isHttpServer (c : Component) : Bool :=
  match c.properties with
  | .capability image => startsWith "ghcr.io/wasmcloud/http-server" image
  | .component => false

/-- The loop over the traits returns at the first one of the wanted type. -/
def firstTrait (traitType : String) (c : Component) : Option Trait :=
  match c.traits with
  | some traits => traits.find? fun t => t.traitType = traitType
  | none => none

abbrev Details := HttpServerComponent × Bool

def visitConfig (d : Details) (cp : ConfigProperty) : Details :=
  match cp.properties.bind fun p => p.get? "address" with
  | some addr => ({ d.1 with address := addr }, true)
  | none => d

def insertLabel (d : Details) (kv : String × String) : Details :=
  ({ d.1 with labels := some ((d.1.labels.getD Dict.empty).put kv.1 kv.2) }, d.2)

def visitSpread (d : Details) (spread : Spread) : Details :=
  spread.requirements.toPairs.foldl insertLabel d

def visitLink (d : Details) (l : Trait) : Details :=
  match l.properties with
  | .link props =>
    if props.ns = "wasi" ∧ props.package = "http" ∧ "incoming-handler" ∈ props.interfaces then
      match props.source with
      | some source => source.config.foldl visitConfig d
      | none => d
    else d
  | .spreadScaler scaler => scaler.spread.foldl visitSpread d
  | .custom => d

def httpServerComponent (manifest : Manifest) : Option HttpServerComponent :=
  let components := manifest.components.filter isHttpServer
  let scalers := components.filterMap (firstTrait "daemonscaler")
  if scalers.isEmpty then none
  else
    let links := components.filterMap (firstTrait "link")
    let (details, shouldCreateService) := links.foldl visitLink (⟨none, ""⟩, false)
    if shouldCreateService then some details else none

def httpAddress (manifest : Manifest) : Option (SocketAddr × Option (Dict String String)) :=
  match httpServerComponent manifest with
  | some http => (SocketAddr.parse http.address).map fun addr => (addr, http.labels)
  | none => none

/-- The HTTP server component of the repository's own test manifest. -/
def httpServer (address : String) (traits : List Trait) : Component where
  properties := .capability "ghcr.io/wasmcloud/http-server:0.20.0"
  traits := some (⟨"link", .link ⟨"wasi", "http", ["incoming-handler"],
    some ⟨[⟨"default-http", some (Dict.empty.put "address" address)⟩]⟩⟩⟩ :: traits)

def httpApp (name address : String) : Manifest where
  name := name
  components := [⟨.component, none⟩, httpServer address [⟨"daemonscaler", .spreadScaler ⟨[]⟩⟩]]

example : (httpServerComponent (httpApp "rust-http-hello-world" "0.0.0.0:8080")).isSome := by
  decide
example : (httpServerComponent
    ⟨"rust-http-hello-world", [httpServer "0.0.0.0:8080" []]⟩).isNone := by decide

end Manifest
end WadmOperator

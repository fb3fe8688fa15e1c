import WadmOperator.Foundation.Footprint
import WadmOperator.Foundation.Json
import WadmOperator.HostConfig
import WadmOperator.Nats

/-!
# The API of the applications

The handlers for wadm applications of a namespace. Each lists the configs of the
namespace, connects to NATS and asks wadm; a failure on the way is answered at once. The
requests that a handler sends to wadm are recorded, they are what it does. The two
listings ask every lattice id once, all other handlers settle on one config.
-/

namespace WadmOperator

structure ObjectMeta where
  name : Option String := none
  ns : Option String := none
  uid : Option String := none
  resourceVersion : Option String := none
  deriving DecidableEq

structure Application where
  apiVersion : String := "v1beta1"
  kind : String := "Application"
  metadata : ObjectMeta

def Application.new (name : String) : Application := { metadata := { name := some name } }

/-- `spec` and `status` of an item are always empty. -/
structure ApplicationPartial where
  metadata : ObjectMeta
  deriving DecidableEq

structure ApplicationList where
  apiVersion : String := "core.oam.dev/v1beta1"
  kind : String := "ApplicationList"
  items : List ApplicationPartial := []
  resourceVersion : Option String := none

structure TableColumnDefinition where
  name : String
  kind : String
  format : String := ""
  description : String
  priority : UInt8 := 0

structure TableRow where
  cells : List String
  deriving DecidableEq

structure ApplicationTable where
  apiVersion : String := "meta.k8s.io/v1"
  kind : String := "Table"
  columnDefinitions : List TableColumnDefinition :=
    [{ name := "Application", kind := "string", description := "Name of the Application",
       format := "name" },
     { name := "Deployed Version", kind := "string",
       description := "Currently deployed version of the Application" },
     { name := "Latest Version", kind := "string",
       description := "Latest available version of the Application" },
     { name := "Status", kind := "string", description := "Current status of the Application" }]
  rows : List TableRow := []

inductive As where
  | apiGroupDiscoveryList | partialObjectMetadataList | table | notSpecified
  deriving DecidableEq

def As.text : As → String
  | apiGroupDiscoveryList => "APIGroupDiscoveryList"
  | partialObjectMetadataList => "PartialObjectMetadataList"
  | table => "Table"
  | notSpecified => "NotSpecified"

structure StatusKind where
  code : Nat
  message : String
  reason : String
  status : String

inductive Body where
  | table (table : ApplicationTable)
  | list (list : ApplicationList)
  | manifest (value : Value)
  | application (app : Application)
  | text (s : String)
  | status (kind : StatusKind)

structure Response where
  code : Nat
  body : Body

namespace Response

def ok (body : Body) : Response := ⟨200, body⟩

def internalError (err : String) : Response :=
  ⟨500, .status ⟨500, err, "StatusInternalServerError", "Failure"⟩⟩

def notFoundError (err : String) : Response := ⟨404, .status ⟨404, err, "NotFound", "Failure"⟩⟩

theorem ok_inj {a b : Body} (h : ok a = ok b) : a = b := (Response.mk.inj h).2

end Response

structure Lattice where
  natsAddress : String
  natsClientPort : Nat
  latticeId : String
  deriving DecidableEq

def HostConfig.latticeOf (config : HostConfig) : Lattice :=
  ⟨config.spec.natsAddress, config.spec.natsClientPort.toNat, config.spec.lattice⟩

inductive WadmCall where
  | listManifests
  | getManifest (name : String) (version : Option String)
  | getManifestStatus (name : String)
  | putAndDeployManifest (manifest : StoredManifest)
  | deleteManifest (name : String) (version : Option String)

structure Request where
  client : NatsClient
  latticeId : String
  call : WadmCall

def Request.lattice (q : Request) : Lattice :=
  ⟨q.client.natsAddress, q.client.natsClientPort, q.latticeId⟩

inductive Abort where
  | answered (response : Response)
  | panicked (msg : String)

abbrev HandlerM (α : Type) := Procedure (List Request) Abort α

/-- Serialization and the JSON merge, which other packages do. -/
structure Documents where
  parseValue : ByteArray → Except String Value
  parseManifest : ByteArray → Except String StoredManifest
  toValue : StoredManifest → Value
  fromValue : Value → Except String StoredManifest
  merge : Value → Value → Value
  version : StoredManifest → String
  partialsText : List ApplicationPartial → String
  /-- `Uuid::new_v5` in the namespace of OIDs. -/
  uuidV5 : String → String
  toValue_metadata (m) : ∃ metadata, (toValue m).HasObject "metadata" metadata ∧
    metadata.lookup "name" = some (.string m.name)
  version_annotation (m v) : m.annotations.get? "version" = some v → version m = v

def Documents.sample : Documents where
  parseValue _ := .ok (.object [])
  parseManifest _ := .error "EOF while parsing a value"
  toValue m := .object [("metadata", .object [("name", .string m.name)])]
  fromValue v :=
    match v.getIn ["metadata", "name"] with
    | some (.string name) => .ok { name := name, components := [] }
    | _ => .error "missing field"
  merge := Value.mergePatch
  version m := (m.annotations.get? "version").getD ""
  partialsText _ := "[]"
  uuidV5 s := s
  toValue_metadata _ := ⟨_, ⟨_, rfl, rfl⟩, rfl⟩
  version_annotation _ _ h := by rw [h]; rfl

structure ApplicationApi where
  kubeClient : Except String Unit := .ok ()
  listConfigs : Option String → Except String (List HostConfig)
  natsCreds : Dict NameNamespace String := Dict.empty
  nats : Nats := {}
  /-- The outcome of the attempt that is made for a config. -/
  connect : HostConfig → Except String Unit := fun _ => .ok ()
  documents : Documents

def StatusType.text : StatusType → String
  | undeployed => "Undeployed"
  | reconciling => "Reconciling"
  | deployed => "Deployed"
  | failed => "Failed"

structure CombinedManifest where
  manifest : StoredManifest
  status : Status

namespace CombinedManifest

def name (cm : CombinedManifest) : String := cm.manifest.name

def deployedVersion (cm : CombinedManifest) : String :=
  match cm.manifest.annotations.get? "version" with
  | some v => v
  | none => "N/A"

def latestVersion (cm : CombinedManifest) : String := cm.status.version

def statusText (cm : CombinedManifest) : String := cm.status.statusType.text

end CombinedManifest

namespace ApplicationTable

def summaryRow (app : AppSummary) : TableRow :=
  ⟨[app.name, app.deployedVersion.getD "N/A", app.version, app.status.text]⟩

def combinedRow (cm : CombinedManifest) : TableRow :=
  ⟨[cm.name, cm.deployedVersion, cm.latestVersion, cm.statusText]⟩

def ofSummaries (summaries : List AppSummary) : ApplicationTable :=
  { rows := summaries.map summaryRow }

def ofManifests (manifests : List CombinedManifest) : ApplicationTable :=
  { rows := manifests.map combinedRow }

end ApplicationTable

def ClientError.text : ClientError → String
  | notFound msg => msg
  | other msg => msg

namespace Applications

def orInternal {α : Type} (what : String) (r : Except String α) : HandlerM α :=
  ofExcept (r.mapError fun e => .answered (.internalError (what ++ e)))

theorem orInternal_readOnly {α : Type} (what : String) (r : Except String α) :
    Procedure.ReadOnly (orInternal what r) :=
  .ofExcept _

theorem orInternal_ok {α : Type} {what : String} {r : Except String α} {a : α}
    {log log' : List Request} (h : orInternal what r log = (.ok a, log')) :
    r = .ok a ∧ log' = log :=
  Procedure.mapError_eq_ok h

def wadm {α : Type} (client : NatsClient) (latticeId : String) (call : WadmCall)
    (answer : Except ClientError α) (refused : ClientError → Response) : HandlerM α := fun log =>
  (answer.mapError fun e => .answered (refused e), log ++ [⟨client, latticeId, call⟩])

def record (q : Request) : HandlerM Unit := fun log => (.ok (), log ++ [q])

def notFoundOr (missing other : String) : ClientError → Response
  | .notFound _ => .notFoundError missing
  | .other msg => .internalError (other ++ msg)

def applicationNotFound (name : String) : String := "applications \"" ++ name ++ "\" not found"

section

variable (api : ApplicationApi)

def hostConfigs (unable : String) (ns : Option String) : HandlerM (List HostConfig) := do
  orInternal "unable to initialize kubernetes client: " api.kubeClient
  orInternal unable (api.listConfigs ns)

theorem hostConfigs_readOnly (unable : String) (ns : Option String) :
    Procedure.ReadOnly (hostConfigs api unable ns) :=
  .bind (orInternal_readOnly _ _) fun _ => orInternal_readOnly _ _

theorem hostConfigs_ok {unable : String} {ns : Option String} {configs : List HostConfig}
    {log log' : List Request} (h : hostConfigs api unable ns log = (.ok configs, log')) :
    api.listConfigs ns = .ok configs ∧ log' = log := by
  obtain ⟨⟨⟩, log₁, hkube, hlist⟩ := Procedure.bind_eq_ok h
  obtain ⟨-, rfl⟩ := orInternal_ok hkube
  exact orInternal_ok hlist

/-- The server is in the spec, the credentials are stored for the config. -/
def connectionOf (ns : String) (config : HostConfig) : NatsClient :=
  ⟨config.spec.natsAddress, config.spec.natsClientPort.toNat, api.natsCreds.get? ⟨config.name, ns⟩⟩

def natsClientFor (ns : String) (config : HostConfig) : Attempt NatsClient :=
  api.nats.getNatsClient (api.connect config) config.spec.natsAddress config.spec.natsClientPort
    api.natsCreds ⟨config.name, ns⟩

def getLatticeConnection (ns : String) : List HostConfig → HandlerM (NatsClient × String)
  | [] => throw (.answered (.internalError "unable to initialize nats client"))
  | config :: configs =>
    match natsClientFor api ns config with
    | .done client => pure (client, config.spec.lattice)
    | .failed _ => getLatticeConnection ns configs
    | .panicked msg => throw (.panicked msg)

def connection (unable ns : String) : HandlerM (NatsClient × String) := do
  let configs ← hostConfigs api unable (some ns)
  getLatticeConnection api ns configs

def createApplication (ns : String) (body : ByteArray) : HandlerM Response := do
  let (client, latticeId) ← connection api "Unable to list cosmonic host configs: " ns
  let manifest ← orInternal "unable to decode the patch: " (api.documents.parseManifest body)
  let (name, _) ← wadm client latticeId (.putAndDeployManifest manifest)
    (api.nats.putAndDeployManifest client latticeId manifest) fun e =>
      .internalError ("could not deploy app: " ++ e.text)
  pure (.ok (.application (.new name)))

def addApps (nsOf : HostConfig → String) (config : HostConfig)
    (acc : List AppSummary × Finset String) : HandlerM (List AppSummary × Finset String) :=
  let latticeId := config.spec.lattice
  if latticeId ∈ acc.2 then pure acc
  else do
    let result ← orInternal "unable to list applications: "
      (api.nats.listApps (api.connect config) config.spec.natsAddress config.spec.natsClientPort
        (api.natsCreds.get? ⟨config.name, nsOf config⟩) latticeId)
    record ⟨connectionOf api (nsOf config) config, latticeId, .listManifests⟩
    pure (acc.1 ++ result, insert latticeId acc.2)

def collectApps (nsOf : HostConfig → String) :
    List HostConfig → List AppSummary × Finset String → HandlerM (List AppSummary)
  | [], acc => pure acc.1
  | config :: configs, acc => do
    let acc ← addApps api nsOf config acc
    collectApps nsOf configs acc

def partialOf (summary : AppSummary) : ApplicationPartial :=
  let uid := api.documents.uuidV5 (summary.name ++ "/" ++ summary.version)
  ⟨{ name := some summary.name, ns := some "default", uid := some uid,
     resourceVersion := some uid }⟩

def listOf (partials : List ApplicationPartial) : ApplicationList :=
  { items := partials
    resourceVersion := some (api.documents.uuidV5 (api.documents.partialsText partials)) }

def listResponse (accept : As) (apps : List AppSummary) : Response :=
  match accept with
  | .table => .ok (.table (.ofSummaries apps))
  | .notSpecified => .ok (.list (listOf api (apps.map (partialOf api))))
  | _ => .ok (.text "")

def listAllApplications (accept : As) : HandlerM Response := do
  let configs ← hostConfigs api "Unable to list cosmonic host configs: " none
  let apps ← collectApps api HostConfig.ns configs ([], ∅)
  pure (listResponse api accept apps)

def listApplications (accept : As) (ns : String) : HandlerM Response := do
  let configs ← hostConfigs api "Unable to list cosmonic host configs: " (some ns)
  let apps ← collectApps api (fun _ => ns) configs ([], ∅)
  pure (listResponse api accept apps)

/-- The manifest as JSON with what wadm does not keep; `none` is a panic of an index. -/
def manifestValue (ns name : String) (manifest : StoredManifest) (status : Status) :
    Option Value := do
  let uid := api.documents.uuidV5 (name ++ "/" ++ api.documents.version manifest)
  let v ← (api.documents.toValue manifest).setIn ["metadata", "uid"] (.string uid)
  let v ← v.setIn ["metadata", "resourceVersion"] (.string uid)
  let v ← v.setIn ["metadata", "namespace"] (.string ns)
  let v ← v.setIn ["metadata", "labels"] (.object [("app.kubernetes.io/instance", .string name)])
  v.setIn ["status"] (.object [("phase", .string status.statusType.text)])

theorem manifestValue_object (ns name : String) (manifest : StoredManifest) (status : Status) :
    ∃ value metadata, manifestValue api ns name manifest status = some value ∧
      value.HasObject "metadata" metadata ∧
      metadata.lookup "name" = some (.string manifest.name) ∧
      metadata.lookup "namespace" = some (.string ns) ∧
      ∀ key, key = "uid" ∨ key = "resourceVersion" → metadata.lookup key =
        some (.string (api.documents.uuidV5 (name ++ "/" ++ api.documents.version manifest))) := by
  obtain ⟨metadata, hvalue, hname⟩ := api.documents.toValue_metadata manifest
  obtain ⟨v₁, h₁, hv₁⟩ := hvalue.setIn_inside "uid"
    (.string (api.documents.uuidV5 (name ++ "/" ++ api.documents.version manifest)))
  obtain ⟨v₂, h₂, hv₂⟩ := hv₁.setIn_inside "resourceVersion"
    (.string (api.documents.uuidV5 (name ++ "/" ++ api.documents.version manifest)))
  obtain ⟨v₃, h₃, hv₃⟩ := hv₂.setIn_inside "namespace" (.string ns)
  obtain ⟨v₄, h₄, hv₄⟩ := hv₃.setIn_inside "labels"
    (.object [("app.kubernetes.io/instance", .string name)])
  obtain ⟨v₅, h₅, hv₅⟩ := hv₄.setIn_beside (show "metadata" ≠ "status" by decide)
    (.object [("phase", .string status.statusType.text)])
  refine ⟨v₅, _, ?_, hv₅, ?_, ?_, ?_⟩
  · simp [manifestValue, h₁, h₂, h₃, h₄, h₅]
  · simp [Value.lookup_put, hname]
  · simp [Value.lookup_put]
  · intro key hkey
    rcases hkey with rfl | rfl <;> simp [Value.lookup_put]

def manifestResponse (accept : As) (ns name : String) (manifest : StoredManifest)
    (status : Status) : HandlerM Response :=
  match accept with
  | .table => pure (.ok (.table (.ofManifests [⟨manifest, status⟩])))
  | .notSpecified =>
    match manifestValue api ns name manifest status with
    | some value => pure (.ok (.manifest value))
    | none => throw (.panicked "cannot access key in JSON value")
  | other => pure (.internalError ("unknown type: " ++ other.text))

def getApplication (accept : As) (ns name : String) : HandlerM Response := do
  let (client, latticeId) ← connection api "unable to list cosmonic host configs: " ns
  let manifest ← wadm client latticeId (.getManifest name none)
    (api.nats.getManifest client latticeId name none)
    (notFoundOr (applicationNotFound name) "unable to request app from wadm: ")
  let status ← wadm client latticeId (.getManifestStatus name)
    (api.nats.getManifestStatus client latticeId name)
    (notFoundOr (applicationNotFound name) "unable to request app status from wadm: ")
  manifestResponse api accept ns name manifest status

def lastAppliedAnnotation : String := "kubectl.kubernetes.io/last-applied-configuration"

/-- The document that a patch makes of the stored one. The last applied configuration is
kept out of the merge, and the version is dropped. -/
def patchedValue (current patch : Value) : Value :=
  let annotations := ["metadata", "annotations"]
  let lastApplied := ((current.getIn annotations).bind Value.members?).bind
    (List.lookup lastAppliedAnnotation)
  let current := current.modifyIn annotations (Value.remove lastAppliedAnnotation)
  let current := current.modifyIn annotations (Value.remove "version")
  let merged := api.documents.merge current patch
  match lastApplied with
  | some config => merged.modifyIn annotations (Value.put lastAppliedAnnotation config)
  | none => merged

def deployPatched (client : NatsClient) (latticeId name : String) (manifest : StoredManifest)
    (body : ByteArray) : HandlerM Response := do
  let patch ← orInternal "unable to decode the patch: " (api.documents.parseValue body)
  let updated ← orInternal "unable to patch the application: "
    (api.documents.fromValue (patchedValue api (api.documents.toValue manifest) patch))
  let (appName, _) ← wadm client latticeId (.putAndDeployManifest updated)
    (api.nats.putAndDeployManifest client latticeId updated)
    (notFoundOr (applicationNotFound name) "could not update application: ")
  pure (.ok (.application (.new appName)))

def patchApplication (ns name : String) (body : ByteArray) : HandlerM Response := do
  let (client, latticeId) ← connection api "unable to list cosmonic host configs: " ns
  let manifest ← wadm client latticeId (.getManifest name none)
    (api.nats.getManifest client latticeId name none)
    (notFoundOr (applicationNotFound name) "unable to request app from wadm: ")
  deployPatched api client latticeId name manifest body

def deleteApplication (ns name : String) : HandlerM Response := do
  let (client, latticeId) ← connection api "unable to list cosmonic host configs: " ns
  wadm client latticeId (.deleteManifest name none)
    (api.nats.deleteManifest client latticeId name none)
    (notFoundOr ("apps \"" ++ name ++ "\" not found") "could not delete app: ")
  pure (.ok (.application (.new name)))

end
end Applications
end WadmOperator

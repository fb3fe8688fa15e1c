import WadmOperator.Controller
import WadmOperator.PodTemplate

/-!
# The reconcile of a host config

`reconcile_crd` with all that it reads, applies and keeps in memory, and runs of
successful reconciles and cleanups between edits of the cluster's objects by others.
`Answers` is what the API server, NATS and wadm answer during one reconcile.
`Reconciled` is a record for the statements, the program returns only when to come
back.
-/

namespace WadmOperator

structure Answers where
  fails : KubeCall → Bool := fun _ => false
  nats : Nats := {}
  /-- The connection attempts of `list_apps` and of `get_nats_client`. -/
  listConnected : Except String Unit := .ok ()
  clientConnected : Except String Unit := .ok ()
  /-- The error of making the stream or the consumer of a new watcher. -/
  watchError : Option String := none

structure Secrets where
  natsCreds : Option String := none

structure Reconciled where
  config : HostConfig
  secrets : Secrets
  template : PodTemplateSpec
  apps : List AppSummary
  client : NatsClient

namespace Reconcile

def fromK8sSecret (name : String) (secret : Secret) : Except String Secrets :=
  match secret.data with
  | none => .error ("Secret " ++ name ++ " has no data")
  | some data => .ok ⟨(data.get? "nats.creds").bind String.fromUTF8?⟩

def quoted (s : String) : String := "\"" ++ s ++ "\""

def escaped (escapeChar : Char → String) (s : String) : String :=
  String.ofList (s.toList.flatMap fun c => (escapeChar c).toList)

def confHead : String := "\njetstream \x7b\n  domain: "

def confRemotes : String := "\n\x7d\nleafnodes \x7b\n  remotes: [\n    \x7b\n      url: "

def credentialsLine : String := "credentials: " ++ quoted "/nats/nats.creds"

def confCredentials : String := "      " ++ credentialsLine ++ "\n"

def confTail : String := "    \x7d\n  ]\n\x7d\n"

/-- The rendered template; a line with a block tag alone leaves nothing behind. -/
def natsConf (escapeChar : Char → String) (spec : HostConfigSpec) (useCredentials : Bool) :
    String :=
  confHead ++ escaped escapeChar spec.leafNodeDomain ++ confRemotes ++
    quoted (escaped escapeChar spec.natsAddress ++ ":" ++ toString spec.natsLeafnodePort) ++ "\n" ++
    (if useCredentials then confCredentials else "") ++ confTail

def statusOf (apps : List AppSummary) : WasmCloudHostConfigStatus where
  apps := apps.map fun app => ⟨app.name, app.version⟩
  appCount := UInt32.ofNat apps.length

def policyRule : PolicyRule where
  apiGroups := some [""]
  resources := some ["services"]
  verbs := ["get", "list", "create", "update", "patch", "delete"]

def roleBindingFor (config : HostConfig) : RoleBinding where
  ownerReferences := [config.controllerOwnerRef]
  roleRef := ⟨"rbac.authorization.k8s.io", "Role", config.name⟩
  subjects := some [⟨"ServiceAccount", config.name, some config.ns⟩]

/-- The environment of the second container is extended in place; the indexing and the
unwraps panic where there is none. -/
def appendEnv (envVars : List EnvVar) (template : PodTemplateSpec) :
    Except ReconcileError PodTemplateSpec :=
  match template.spec with
  | none => .error (.panicked "no pod spec")
  | some spec =>
    match spec.containers with
    | nats :: wasmcloud :: rest =>
      match wasmcloud.env with
      | none => .error (.panicked "no environment")
      | some env => .ok { template with spec := some { spec with
          containers := nats :: { wasmcloud with env := some (env ++ envVars) } :: rest } }
    | _ => .error (.panicked "no second container")

def deploymentFor (config : HostConfig) (template : PodTemplateSpec) : Deployment where
  labels := commonLabels
  ownerReferences := [config.controllerOwnerRef]
  replicas := some config.spec.hostReplicas.toInt32
  selector := Routing.selectorLabels config.base
  template := template

def daemonSetFor (config : HostConfig) (template : PodTemplateSpec) : DaemonSet where
  labels := commonLabels
  ownerReferences := [config.controllerOwnerRef]
  selector := Routing.selectorLabels config.base
  template := template

def nameNamespace (key : ObjectKey) : NameNamespace := ⟨key.2, key.1⟩

section

variable (lib : Libraries) (answers : Answers)

def dockerConfig (secret : Secret) : Except String DockerConfigJson :=
  match secret.data with
  | none => .error "No data in secret"
  | some data =>
    match data.get? ".dockerconfigjson" with
    | none => .error "No .dockerconfigjson in secret"
    | some bytes =>
      match String.fromUTF8? bytes with
      | none => .error ("Error decoding secret: " ++ lib.utf8Error bytes)
      | some text => lib.dockerConfigJson text

def storeNatsCreds (config : HostConfig) (creds : String) : ReconcileM Unit := fun s =>
  (.ok (), { s with natsCreds := s.natsCreds.put (nameNamespace config.key) creds })

def storeSecrets (config : HostConfig) (secrets : Secrets) : ReconcileM Unit :=
  match secrets.natsCreds with
  | some creds => storeNatsCreds config creds
  | none => pure ()

def readSecrets (config : HostConfig) : ReconcileM Secrets :=
  match config.spec.secretName with
  | none => pure {}
  | some name => do
    let secret ← ReconcileM.getObject answers.fails .secret (config.ns, name)
    let secrets ← ofExcept ((fromK8sSecret name secret).mapError fun e =>
      .secretError ("Failed to read all secrets from " ++ name ++ ": " ++ e))
    storeSecrets config secrets
    pure secrets

def configMapFor (config : HostConfig) (useNatsCreds : Bool) : ConfigMap where
  ownerReferences := [config.controllerOwnerRef]
  data := some (Dict.empty.put "nats.conf" (natsConf lib.escapeChar config.spec useNatsCreds))

def configmap (config : HostConfig) (useNatsCreds : Bool) : ReconcileM Unit :=
  ReconcileM.applyObject answers.fails lib.api .configMap config.key
    (configMapFor lib config useNatsCreds)

def configureAuth (config : HostConfig) : ReconcileM Unit := do
  ReconcileM.applyObject answers.fails lib.api .serviceAccount config.key
    ⟨[config.controllerOwnerRef]⟩
  ReconcileM.applyObject answers.fails lib.api .role config.key
    ⟨[config.controllerOwnerRef], some [policyRule]⟩
  ReconcileM.applyObject answers.fails lib.api .roleBinding config.key (roleBindingFor config)

/-- The unwrap of the first entry panics where there is none. -/
def registryVars (secretName : String) (docker : DockerConfigJson) :
    Except ReconcileError (List EnvVar) :=
  match docker.auths.toPairs with
  | [] => .error (.panicked "no entry in auths")
  | [(registry, auth)] =>
    .ok [PodTemplate.envVar "WASMCLOUD_OCI_REGISTRY_USER" auth.username,
      PodTemplate.envVar "WASMCLOUD_OCI_REGISTRY_PASSWORD" auth.password,
      PodTemplate.envVar "WASMCLOUD_OCI_REGISTRY" registry]
  | auths => .error (.secretError ("Only one registry is supported: the secret named " ++
      secretName ++ " contains " ++ toString auths.length))

def registryEnv (config : HostConfig) : ReconcileM (List EnvVar) :=
  match config.spec.registryCredentialsSecret with
  | none => pure []
  | some name => do
    let secret ← ReconcileM.getObject answers.fails .secret (config.ns, name)
    let docker ← ofExcept ((dockerConfig lib secret).mapError fun e =>
      .secretError ("Failed to convert image pull secret " ++ name ++ ": " ++ e))
    ofExcept (registryVars name docker)

def applyWorkload (config : HostConfig) (template : PodTemplateSpec) : ReconcileM Unit :=
  if config.daemonset then
    ReconcileM.applyObject answers.fails lib.api .daemonSet config.key
      (daemonSetFor config template)
  else
    ReconcileM.applyObject answers.fails lib.api .deployment config.key
      (deploymentFor config template)

def configureHosts (config : HostConfig) : ReconcileM PodTemplateSpec := do
  let envVars ← registryEnv lib answers config
  let template ← PodTemplate.podTemplate lib answers.fails config
  let template ← ofExcept (appendEnv envVars template)
  applyWorkload lib answers config template
  pure template

def configureService (config : HostConfig) : ReconcileM Unit :=
  ReconcileM.applyService answers.fails lib.api config.key (Cluster.hostService config.base)

def listApps (config : HostConfig) (creds : Option String) : ReconcileM (List AppSummary) :=
  ofExcept ((answers.nats.listApps answers.listConnected config.spec.natsAddress
    config.spec.natsClientPort creds config.spec.lattice).mapError fun e =>
      .natsError ("Failed to list apps: " ++ e))

def getNatsClient (config : HostConfig) : ReconcileM NatsClient := fun s =>
  match answers.nats.getNatsClient answers.clientConnected config.spec.natsAddress
    config.spec.natsClientPort s.natsCreds (nameNamespace config.key) with
  | .done client => (.ok client, s)
  | .failed e => (.error (.natsError ("Failed to get nats client: " ++ e)), s)
  | .panicked msg => (.error (.panicked msg), s)

def watch (config : HostConfig) (client : NatsClient) : ReconcileM Unit := fun s =>
  let (watcher, ok) :=
    s.serviceWatcher.watch client config.ns config.spec.lattice answers.watchError.isNone
  (if ok then .ok ()
    else .error (.natsError ("Failed to watch services: " ++ answers.watchError.getD "")),
    { s with serviceWatcher := watcher })

/-- The manifests that the pass fetches, through the client of the stored watcher. -/
def fetchManifests (latticeId : String) (apps : List AppSummary) (s : ServiceWatcher) :
    List (ModelSummary × Option Manifest) :=
  apps.map fun app =>
    let manifest := (s.watchers.get? latticeId).bind fun w =>
      (answers.nats.getManifest w.natsClient latticeId app.name app.deployedVersion).toOption
    (app.toModelSummary, manifest.map StoredManifest.toManifest)

def reconcileServices (config : HostConfig) (apps : List AppSummary) : ReconcileM Unit := fun s =>
  let manifests := fetchManifests answers config.spec.lattice apps s.serviceWatcher
  (.ok (), { s with
    serviceWatcher := Controller.reconcileApps config.spec.lattice manifests s.serviceWatcher })

def reconcileConfig (config : HostConfig) : ReconcileM Reconciled := do
  let secrets ← readSecrets answers config
  configmap lib answers config secrets.natsCreds.isSome
  configureAuth lib answers config
  let template ← configureHosts lib answers config
  configureService lib answers config
  let apps ← listApps answers config secrets.natsCreds
  ReconcileM.patchStatus answers.fails config.key (statusOf apps)
  let client ← getNatsClient answers config
  watch answers config client
  reconcileServices answers config apps
  pure ⟨config, secrets, template, apps, client⟩

def configOf (key : ObjectKey) (stored : StoredConfig) : HostConfig :=
  { stored with ns := key.1, name := key.2 }

def reconcileCrd (key : ObjectKey) : ReconcileM Reconciled := do
  let stored ← ReconcileM.getObject answers.fails .hostConfig key
  reconcileConfig lib answers (configOf key stored)

end

/-- `cleanup` runs on a config that is in deletion. -/
def cleanup (config : HostConfig) (s : Context) : Context × Bool :=
  let (watcher, ok) := s.serviceWatcher.stopWatch config.spec.lattice config.ns
  ({ s with
    natsCreds := s.natsCreds.remove (nameNamespace config.key)
    serviceWatcher := watcher }, ok)

inductive Label where
  | reconcile (key : ObjectKey) (answers : Answers)
  | cleanup (key : ObjectKey)
  | edit (kind : ObjectKind) (key : ObjectKey) (x : Option (Obj kind))

def edited (s : Context) (kind : ObjectKind) (key : ObjectKey) : Option (Obj kind) → Context
  | some x => s.putObject kind key x
  | none => { s with objects := Function.update s.objects kind ((s.objects kind).remove key) }

def step (lib : Libraries) (s : Context) : Label → Option Context
  | .reconcile key answers =>
    match reconcileCrd lib answers key s with
    | (.ok _, u) => some u
    | (.error _, _) => none
  | .cleanup key =>
    match (s.objects .hostConfig).get? key with
    | some stored =>
      match cleanup (configOf key stored) s with
      | (u, true) => some u
      | (_, false) => none
    | none => none
  | .edit kind key x => some (edited s kind key x)

end Reconcile
end WadmOperator

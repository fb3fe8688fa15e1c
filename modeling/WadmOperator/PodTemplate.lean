import WadmOperator.Context
import WadmOperator.Routing

/-!
# The pods of the hosts

`pod_template` and the Deployment or DaemonSet around it. The environment and the
arguments follow the spec alone; the certificate authorities and the registry
credentials are read from the cluster. Maps are walked in the order of their entries.
-/

namespace WadmOperator

structure DockerConfigJsonAuth where
  username : String
  password : String
  auth : String

structure DockerConfigJson where
  auths : Dict String DockerConfigJsonAuth

structure Libraries where
  api : HostApi := .basic
  deepMerge : DeepMerge := .basic
  dockerConfigJson : String → Except String DockerConfigJson
  /-- The text of the error of `from_utf8`. -/
  utf8Error : ByteArray → String
  /-- What Handlebars writes for a character of a string value. -/
  escapeChar : Char → String
  escapeChar_quote (c) : '"' ∉ (escapeChar c).toList

namespace Libraries

def escapeHtml (c : Char) : String :=
  if c = '"' then "&quot;"
  else if c = '&' then "&amp;"
  else if c = '<' then "&lt;"
  else if c = '>' then "&gt;"
  else if c = '=' then "&#x3D;"
  else if c = Char.ofNat 39 then "&#x27;"
  else if c = Char.ofNat 96 then "&#x60;"
  else String.singleton c

theorem escapeHtml_quote (c : Char) : '"' ∉ (escapeHtml c).toList := by
  unfold escapeHtml
  split_ifs with hquote
  all_goals first
    | decide
    | simpa using Ne.symm hquote

def sample : Libraries where
  dockerConfigJson _ := .error "expected value"
  utf8Error _ := "invalid utf-8 sequence"
  escapeChar := escapeHtml
  escapeChar_quote := escapeHtml_quote

end Libraries

structure Certificates where
  volumes : List Volume
  mounts : List VolumeMount := []
  args : List String := []

namespace PodTemplate

def envVar (name value : String) : EnvVar := ⟨name, some value⟩

def policyEnv (policy : PolicyService) : List EnvVar :=
  (policy.topic.map (envVar "WASMCLOUD_POLICY_TOPIC")).toList ++
  (policy.changesTopic.map (envVar "WASMCLOUD_POLICY_CHANGES_TOPIC")).toList ++
  (policy.timeoutMs.map fun timeout =>
    envVar "WASMCLOUD_POLICY_TIMEOUT" (toString timeout)).toList

def labelEnv (labels : Labels) : List EnvVar :=
  labels.toPairs.map fun kv => envVar ("WASMCLOUD_LABEL_" ++ kv.1) kv.2

def wasmcloudEnv (spec : HostConfigSpec) : List EnvVar :=
  [envVar "WASMCLOUD_STRUCTURED_LOGGING_ENABLED"
      (toString (spec.enableStructuredLogging.getD true)),
    envVar "WASMCLOUD_LOG_LEVEL" spec.logLevel,
    envVar "WASMCLOUD_JS_DOMAIN" spec.jetstreamDomain,
    envVar "WASMCLOUD_LATTICE" spec.lattice,
    envVar "WASMCLOUD_LATTICE_PREFIX" spec.lattice,
    envVar "WASMCLOUD_NATS_HOST" "127.0.0.1",
    envVar "WASMCLOUD_NATS_PORT" "4222",
    envVar "WASMCLOUD_RPC_TIMEOUT_MS" "4000",
    envVar "WASMCLOUD_LABEL_kubernetes" "true"] ++
  (spec.controlTopicPrefix.map (envVar "WASMCLOUD_CTL_TOPIC_PREFIX")).toList ++
  (if spec.configServiceEnabled then [envVar "WASMCLOUD_CONFIG_SERVICE" "true"] else []) ++
  (if spec.allowLatest then [envVar "WASMCLOUD_OCI_ALLOW_LATEST" "true"] else []) ++
  (spec.allowedInsecure.map fun values =>
    envVar "WASMCLOUD_OCI_ALLOWED_INSECURE" (String.intercalate "," values)).toList ++
  (spec.policyService.map policyEnv).getD [] ++
  (spec.hostLabels.map labelEnv).getD [] ++
  (spec.secretsTopicPrefix.map (envVar "WASMCLOUD_SECRETS_TOPIC")).toList ++
  (spec.maxLinearMemoryBytes.map fun max =>
    envVar "WASMCLOUD_MAX_LINEAR_MEMORY" (toString max)).toList

def signalArgs (enable override : String) (signal : Option OtelSignalConfiguration) :
    List String :=
  match signal with
  | some signal =>
    (if signal.enable.getD false then [enable] else []) ++
    (signal.endpoint.map fun endpoint => [override, endpoint]).getD []
  | none => []

def OtelProtocol.toArg : OtelProtocol → String
  | .grpc => "grpc"
  | .http => "http"

def configureObservability (spec : HostConfigSpec) : List String :=
  match spec.observability with
  | some observability =>
    (if observability.enable then ["--enable-observability"] else []) ++
    (if observability.endpoint.isEmpty then []
      else ["--override-observability-endpoint", observability.endpoint]) ++
    (observability.protocol.map fun protocol =>
      ["--observability-protocol", OtelProtocol.toArg protocol]).getD [] ++
    signalArgs "--enable-traces" "--override-traces-endpoint" observability.traces ++
    signalArgs "--enable-metrics" "--override-metrics-endpoint" observability.metrics ++
    signalArgs "--enable-logs" "--override-logs-endpoint" observability.logs
  | none => []

def endsWith (suffix s : String) : Bool := suffix.toList.isSuffixOf s.toList

def crtKeys {α : Type} (data : Option (Dict String α)) : List String :=
  match data with
  | some data => (data.toPairs.map Prod.fst).filter fun key => endsWith ".crt" key
  | none => []

section

variable (lib : Libraries) (fails : KubeCall → Bool)

def discoverConfigmapCertificates (ns name : String) : ReconcileM (List String) := do
  let configMap ← ReconcileM.getObject fails .configMap (ns, name)
  pure (crtKeys configMap.data)

def discoverSecretCertificates (ns name : String) : ReconcileM (List String) := do
  let secret ← ReconcileM.getObject fails .secret (ns, name)
  pure (crtKeys secret.data)

def secretItems (ns : String) (authority : Volume) : ReconcileM (Option (String × List String)) :=
  match authority.secret with
  | none => pure none
  | some ⟨none⟩ => throw (.certificateError
      ("Missing secret name for authority '" ++ authority.name ++ "'"))
  | some ⟨some name⟩ => do
    let items ← discoverSecretCertificates fails ns name
    pure (some (name, items))

def configmapItems (ns : String) (authority : Volume) :
    ReconcileM (Option (String × List String)) :=
  match authority.configMap with
  | none => pure none
  | some ⟨none⟩ => throw (.certificateError
      ("Missing configmap name for authority '" ++ authority.name ++ "'"))
  | some ⟨some name⟩ => do
    let items ← discoverConfigmapCertificates fails ns name
    pure (some (name, items))

def mountItems (volumeName : String) (items : List String) (acc : Certificates) : Certificates :=
  let volumePath := "/wasmcloud/certificates/" ++ volumeName
  { acc with
    mounts := acc.mounts ++ [{ name := volumeName, readOnly := some true, mountPath := volumePath }]
    args := acc.args ++ items.flatMap fun item => ["--tls-ca-path", volumePath ++ "/" ++ item] }

/-- The part of the loop body from the ConfigMap on; `items` are those of the Secret. -/
def addConfigmap (ns volumeName : String) (authority : Volume) (items : List String)
    (acc : Certificates) : ReconcileM Certificates := do
  let found ← configmapItems fails ns authority
  match found with
  | none => pure (mountItems volumeName items acc)
  | some (_, []) => pure acc
  | some (name, items) =>
    pure (mountItems volumeName items { acc with
      volumes := acc.volumes ++ [{ name := volumeName, configMap := some ⟨some name⟩ }] })

/-- The body of the loop over the authorities; an authority without a certificate is
skipped, also after its Secret was added. -/
def addAuthority (ns : String) (authority : Volume) (acc : Certificates) :
    ReconcileM Certificates :=
  let volumeName := "ca-" ++ authority.name
  if authority.secret.isNone && authority.configMap.isNone then
    throw (.certificateError ("'" ++ authority.name ++ "' has to be a Configmap or Secret"))
  else do
    let found ← secretItems fails ns authority
    match found with
    | none => addConfigmap fails ns volumeName authority [] acc
    | some (_, []) => pure acc
    | some (name, items) =>
      addConfigmap fails ns volumeName authority items { acc with
        volumes := acc.volumes ++ [{ name := volumeName, secret := some ⟨some name⟩ }] }

def addAuthorities (ns : String) : List Volume → Certificates → ReconcileM Certificates
  | [], acc => pure acc
  | authority :: authorities, acc => do
    let acc ← addAuthority fails ns authority acc
    addAuthorities ns authorities acc

def credsVolume (secretName : String) : Volume :=
  { name := "nats-creds", secret := some ⟨some secretName⟩ }

def credsMount : VolumeMount :=
  { name := "nats-creds", mountPath := "/nats/nats.creds", subPath := some "nats.creds",
    readOnly := some true }

def configMount : VolumeMount :=
  { name := "nats-config", mountPath := "/nats/nats.conf", readOnly := some true,
    subPath := some "nats.conf" }

def natsContainer (config : HostConfig) : Container where
  name := "nats-leaf"
  image := some (config.spec.natsLeafImage.getD "nats:2.10-alpine")
  args := some ["-js", "--config", "/nats/nats.conf"]
  imagePullPolicy := some "IfNotPresent"
  ports := some [4222]
  preStop := some ["sleep", "10"]
  resources := config.resources.nats
  volumeMounts := some (configMount :: (config.spec.secretName.map fun _ => credsMount).toList)

def wasmcloudContainer (config : HostConfig) (certificates : Certificates) : Container where
  name := "wasmcloud-host"
  image := some (config.spec.image.getD ("ghcr.io/wasmcloud/wasmcloud:" ++ config.spec.version))
  command := some ["wasmcloud"]
  args := some certificates.args
  env := some (wasmcloudEnv config.spec)
  resources := config.resources.wasmcloud
  volumeMounts := some certificates.mounts

def withAdditions (additions : Option Container) (c : Container) : Container :=
  match additions with
  | some own => lib.deepMerge.mergeFrom own c
  | none => c

def containers (config : HostConfig) (certificates : Certificates) : List Container :=
  let nats := natsContainer config
  let wasmcloud := wasmcloudContainer config certificates
  match config.containerTemplateAdditions with
  | some cta => [withAdditions lib cta.nats nats, withAdditions lib cta.wasmcloud wasmcloud]
  | none => [nats, wasmcloud]

def podSpec (config : HostConfig) (containers : List Container) (volumes : List Volume) :
    PodSpec :=
  match config.podTemplateAdditions with
  | some overrides =>
    { overrides with
      serviceAccountName := some config.name
      containers := containers
      volumes := some (volumes ++ overrides.volumes.getD []) }
  | none =>
    { serviceAccount := some config.name, containers := containers, volumes := some volumes }

def initialCertificates (config : HostConfig) : Certificates where
  volumes := [{ name := "nats-config", configMap := some ⟨some config.name⟩ }]
  args := configureObservability config.spec

def podTemplate (config : HostConfig) : ReconcileM PodTemplateSpec := do
  let certificates ← addAuthorities fails config.ns config.authorities (initialCertificates config)
  let volumes := certificates.volumes ++ (config.spec.secretName.map credsVolume).toList
  pure
    { labels := some (Routing.podLabels config.base)
      spec := some (podSpec config (containers lib config certificates) volumes) }

end
end PodTemplate
end WadmOperator

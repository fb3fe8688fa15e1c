import WadmOperator.Cluster

/-!
# Host configs and the objects made from them

The whole spec of a `WasmCloudHostConfig`, with its defaults, and the Kubernetes
objects that a reconcile reads and applies. Fields of pods and containers that the
operator hands on without a look are kept together as `others`.
-/

namespace WadmOperator

structure EnvVar where
  name : String
  value : Option String := none
  deriving DecidableEq

structure VolumeMount where
  name : String
  mountPath : String
  readOnly : Option Bool := none
  subPath : Option String := none
  deriving DecidableEq

structure SecretVolumeSource where
  secretName : Option String := none
  deriving DecidableEq

structure ConfigMapVolumeSource where
  name : Option String := none
  deriving DecidableEq

structure Volume where
  name : String
  secret : Option SecretVolumeSource := none
  configMap : Option ConfigMapVolumeSource := none
  deriving DecidableEq

structure ResourceRequirements where
  limits : Option Labels := none
  requests : Option Labels := none

structure Container where
  name : String
  image : Option String := none
  command : Option (List String) := none
  args : Option (List String) := none
  env : Option (List EnvVar) := none
  imagePullPolicy : Option String := none
  ports : Option (List Nat) := none
  /-- The command of `lifecycle.preStop.exec`. -/
  preStop : Option (List String) := none
  resources : Option ResourceRequirements := none
  volumeMounts : Option (List VolumeMount) := none
  others : Labels := Dict.empty

structure PodSpec where
  serviceAccount : Option String := none
  serviceAccountName : Option String := none
  containers : List Container := []
  volumes : Option (List Volume) := none
  others : Labels := Dict.empty

structure PodTemplateSpec where
  labels : Option Labels
  spec : Option PodSpec

structure PolicyService where
  topic : Option String := none
  timeoutMs : Option UInt32 := none
  changesTopic : Option String := none

structure WasmCloudHostConfigResources where
  nats : Option ResourceRequirements := none
  wasmcloud : Option ResourceRequirements := none

structure ContainerTemplateAdditions where
  nats : Option Container := none
  wasmcloud : Option Container := none

structure KubernetesSchedulingOptions where
  daemonset : Bool := false
  resources : Option WasmCloudHostConfigResources := none
  podTemplateAdditions : Option PodSpec := none
  containerTemplateAdditions : Option ContainerTemplateAdditions := none

inductive OtelProtocol where
  | grpc | http

structure OtelSignalConfiguration where
  enable : Option Bool := none
  endpoint : Option String := none

structure ObservabilityConfiguration where
  enable : Bool := false
  endpoint : String
  protocol : Option OtelProtocol := none
  logs : Option OtelSignalConfiguration := none
  metrics : Option OtelSignalConfiguration := none
  traces : Option OtelSignalConfiguration := none

structure WasmCloudHostCertificates where
  authorities : Option (List Volume) := none

structure HostConfigSpec extends WasmCloudHostConfigSpec where
  hostReplicas : UInt32 := 1
  version : String
  image : Option String := none
  natsLeafImage : Option String := none
  secretName : Option String := none
  enableStructuredLogging : Option Bool := none
  registryCredentialsSecret : Option String := none
  controlTopicPrefix : Option String := none
  leafNodeDomain : String := "leaf"
  configServiceEnabled : Bool := false
  natsAddress : String := "nats://nats.default.svc.cluster.local"
  natsClientPort : UInt16 := 4222
  natsLeafnodePort : UInt16 := 7422
  jetstreamDomain : String := "default"
  allowLatest : Bool := false
  allowedInsecure : Option (List String) := none
  logLevel : String := "INFO"
  policyService : Option PolicyService := none
  schedulingOptions : Option KubernetesSchedulingOptions := none
  observability : Option ObservabilityConfiguration := none
  certificates : Option WasmCloudHostCertificates := none
  secretsTopicPrefix : Option String := none
  maxLinearMemoryBytes : Option UInt32 := none

def HostConfigSpec.sample : HostConfigSpec := { lattice := "lattice", version := "1.0.0" }

structure StoredConfig where
  uid : String
  spec : HostConfigSpec

structure HostConfig extends StoredConfig where
  ns : String
  name : String

structure AppStatus where
  name : String
  version : String
  deriving DecidableEq

structure WasmCloudHostConfigStatus where
  apps : List AppStatus
  appCount : UInt32
  deriving DecidableEq

structure Secret where
  data : Option (Dict String ByteArray) := none

structure ConfigMap where
  ownerReferences : List OwnerReference := []
  data : Option Labels := none
  binaryData : Option (Dict String ByteArray) := none

structure ServiceAccount where
  ownerReferences : List OwnerReference

structure PolicyRule where
  apiGroups : Option (List String)
  resources : Option (List String)
  resourceNames : Option (List String) := none
  verbs : List String

structure Role where
  ownerReferences : List OwnerReference
  rules : Option (List PolicyRule)

structure RoleRef where
  apiGroup : String
  kind : String
  name : String

structure Subject where
  kind : String
  name : String
  ns : Option String

structure RoleBinding where
  ownerReferences : List OwnerReference
  roleRef : RoleRef
  subjects : Option (List Subject)

structure Deployment where
  labels : Labels
  ownerReferences : List OwnerReference
  replicas : Option Int32
  selector : Labels
  template : PodTemplateSpec

structure DaemonSet where
  labels : Labels
  ownerReferences : List OwnerReference
  selector : Labels
  template : PodTemplateSpec

/-- A stored Service: one in deletion still has a finalizer. -/
abbrev StoredService := { svc : Service // Cluster.afterWrite svc = some svc }

namespace HostConfig

def key (config : HostConfig) : ObjectKey := (config.ns, config.name)

def base (config : HostConfig) : WasmCloudHostConfig :=
  ⟨config.ns, config.name, config.uid, config.spec.toWasmCloudHostConfigSpec⟩

def controllerOwnerRef (config : HostConfig) : OwnerReference :=
  ⟨"k8s.wasmcloud.dev/v1alpha1", "WasmCloudHostConfig", config.name, config.uid, true⟩

def daemonset (config : HostConfig) : Bool :=
  config.spec.schedulingOptions.any fun so => so.daemonset

def authorities (config : HostConfig) : List Volume :=
  (config.spec.certificates.bind fun certificates => certificates.authorities).getD []

def containerTemplateAdditions (config : HostConfig) : Option ContainerTemplateAdditions :=
  config.spec.schedulingOptions.bind fun so => so.containerTemplateAdditions

def podTemplateAdditions (config : HostConfig) : Option PodSpec :=
  config.spec.schedulingOptions.bind fun so => so.podTemplateAdditions

def resources (config : HostConfig) : WasmCloudHostConfigResources :=
  (config.spec.schedulingOptions.bind fun so => so.resources).getD {}

end HostConfig
end WadmOperator

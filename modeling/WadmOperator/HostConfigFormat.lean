import Mathlib.Algebra.Group.Nat.Defs
import WadmOperator.Foundation.Schema
import WadmOperator.Reconcile

/-!
# The JSON format of a host config

How the API server's documents of a `WasmCloudHostConfig` are read and written: the spec
with its nested records, and the status. Names are in camel case, but for the status, and
the types of Kubernetes have the codecs of their own package, which are parameters.
-/

namespace WadmOperator
namespace HostConfigFormat

open Format Format.Codec Format.Record Reconcile

/-- The spec with the deprecated field that nothing reads. -/
structure SpecDocument extends HostConfigSpec where
  issuers : Option (List String) := none

structure KubernetesCodecs where
  volume : Codec Volume
  container : Codec Container
  podSpec : Codec PodSpec
  resources : Codec ResourceRequirements

/-- A variant without content may be written as a member with a null. -/
def otelProtocol : Codec OtelProtocol where
  encode
    | .grpc => .string "grpc"
    | .http => .string "http"
  decode
    | .string "grpc" | .object [("grpc", .null)] => some .grpc
    | .string "http" | .object [("http", .null)] => some .http
    | _ => none
  decode_encode p := by cases p <;> rfl
  decode_null := rfl

def policyService : Record PolicyService :=
  (cons "topic" (.optional string) <|
    cons "timeoutMs" (.optional uint32) <|
    cons "changesTopic" (.optional string) nil).as
  (fun (topic, timeoutMs, changesTopic, ()) => ⟨topic, timeoutMs, changesTopic⟩)
  (fun p => (p.topic, p.timeoutMs, p.changesTopic, ())) fun _ => rfl

def otelSignal : Record OtelSignalConfiguration :=
  (cons "enable" (.optional bool) <| cons "endpoint" (.optional string) nil).as
  (fun (enable, endpoint, ()) => ⟨enable, endpoint⟩)
  (fun o => (o.enable, o.endpoint, ())) fun _ => rfl

def observability : Record ObservabilityConfiguration :=
  (cons "enable" (.defaulted bool false) <|
    cons "endpoint" (.required string) <|
    cons "protocol" (.optional otelProtocol) <|
    cons "logs" (.optional otelSignal.codec) <|
    cons "metrics" (.optional otelSignal.codec) <|
    cons "traces" (.optional otelSignal.codec) nil).as
  (fun (enable, endpoint, protocol, logs, metrics, traces, ()) =>
    ⟨enable, endpoint, protocol, logs, metrics, traces⟩)
  (fun o => (o.enable, o.endpoint, o.protocol, o.logs, o.metrics, o.traces, ())) fun _ => rfl

def appStatus : Record AppStatus :=
  (cons "name" (.required string) <| cons "version" (.required string) nil).as
  (fun (name, version, ()) => ⟨name, version⟩) (fun a => (a.name, a.version, ())) fun _ => rfl

/-- The one record whose names are in snake case. -/
def status : Record WasmCloudHostConfigStatus :=
  (cons "apps" (.required appStatus.codec.list) <| cons "app_count" (.required uint32) nil).as
  (fun (apps, appCount, ()) => ⟨apps, appCount⟩) (fun s => (s.apps, s.appCount, ())) fun _ => rfl

/-! ### The modelled part of the types of Kubernetes -/

def requirements : Record ResourceRequirements :=
  (cons "limits" (.skipped string.dict) <| cons "requests" (.skipped string.dict) nil).as
  (fun (limits, requests, ()) => ⟨limits, requests⟩) (fun r => (r.limits, r.requests, ()))
  fun _ => rfl

def secretSource : Record SecretVolumeSource :=
  (cons "secretName" (.skipped string) nil).as (fun (name, ()) => ⟨name⟩)
  (fun s => (s.secretName, ())) fun _ => rfl

def configMapSource : Record ConfigMapVolumeSource :=
  (cons "name" (.skipped string) nil).as (fun (name, ()) => ⟨name⟩)
  (fun c => (c.name, ())) fun _ => rfl

def volume : Record Volume :=
  (cons "name" (.orDefault string "") <|
    cons "secret" (.skipped secretSource.codec) <|
    cons "configMap" (.skipped configMapSource.codec) nil).as
  (fun (name, secret, configMap, ()) => ⟨name, secret, configMap⟩)
  (fun v => (v.name, v.secret, v.configMap, ())) fun _ => rfl

def envVar : Record EnvVar :=
  (cons "name" (.orDefault string "") <| cons "value" (.skipped string) nil).as
  (fun (name, value, ()) => ⟨name, value⟩) (fun e => (e.name, e.value, ())) fun _ => rfl

def volumeMount : Record VolumeMount :=
  (cons "name" (.orDefault string "") <|
    cons "mountPath" (.orDefault string "") <|
    cons "readOnly" (.skipped Codec.bool) <|
    cons "subPath" (.skipped string) nil).as
  (fun (name, mountPath, readOnly, subPath, ()) => ⟨name, mountPath, readOnly, subPath⟩)
  (fun m => (m.name, m.mountPath, m.readOnly, m.subPath, ())) fun _ => rfl

def container : Record Container :=
  (cons "name" (.orDefault string "") <|
    cons "image" (.skipped string) <|
    cons "command" (.skipped string.list) <|
    cons "args" (.skipped string.list) <|
    cons "env" (.skipped envVar.codec.list) <|
    cons "imagePullPolicy" (.skipped string) <|
    cons "ports" (.skipped (single "containerPort" nat).list) <|
    cons "lifecycle" (.skipped (single "preStop" (single "exec" (single "command" string.list)))) <|
    cons "resources" (.skipped requirements.codec) <|
    cons "volumeMounts" (.skipped volumeMount.codec.list) <|
    cons "others" (.defaulted string.dict Dict.empty) nil).as
  (fun (name, image, command, args, env, imagePullPolicy, ports, preStop, resources, volumeMounts,
      others, ()) =>
    ⟨name, image, command, args, env, imagePullPolicy, ports, preStop, resources, volumeMounts,
      others⟩)
  (fun c => (c.name, c.image, c.command, c.args, c.env, c.imagePullPolicy, c.ports, c.preStop,
    c.resources, c.volumeMounts, c.others, ())) fun _ => rfl

def podSpec : Record PodSpec :=
  (cons "serviceAccount" (.skipped string) <|
    cons "serviceAccountName" (.skipped string) <|
    cons "containers" (.orDefault container.codec.list []) <|
    cons "volumes" (.skipped volume.codec.list) <|
    cons "others" (.defaulted string.dict Dict.empty) nil).as
  (fun (serviceAccount, serviceAccountName, containers, volumes, others, ()) =>
    ⟨serviceAccount, serviceAccountName, containers, volumes, others⟩)
  (fun p => (p.serviceAccount, p.serviceAccountName, p.containers, p.volumes, p.others, ()))
  fun _ => rfl

def modelled : KubernetesCodecs where
  volume := volume.codec
  container := container.codec
  podSpec := podSpec.codec
  resources := requirements.codec

/-! ### The records that hold them -/

section

variable (k8s : KubernetesCodecs)

def certificates : Record WasmCloudHostCertificates :=
  (cons "authorities" (.optional k8s.volume.list) nil).as
  (fun (authorities, ()) => ⟨authorities⟩) (fun c => (c.authorities, ())) fun _ => rfl

def resources : Record WasmCloudHostConfigResources :=
  (cons "nats" (.optional k8s.resources) <| cons "wasmcloud" (.optional k8s.resources) nil).as
  (fun (nats, wasmcloud, ()) => ⟨nats, wasmcloud⟩) (fun r => (r.nats, r.wasmcloud, ()))
  fun _ => rfl

def containerTemplateAdditions : Record ContainerTemplateAdditions :=
  (cons "nats" (.skipped k8s.container) <| cons "wasmcloud" (.skipped k8s.container) nil).as
  (fun (nats, wasmcloud, ()) => ⟨nats, wasmcloud⟩) (fun c => (c.nats, c.wasmcloud, ()))
  fun _ => rfl

def schedulingOptions : Record KubernetesSchedulingOptions :=
  (cons "daemonset" (.defaulted bool false) <|
    cons "resources" (.optional (resources k8s).codec) <|
    cons "podTemplateAdditions" (.skipped k8s.podSpec) <|
    cons "containerTemplateAdditions" (.optional (containerTemplateAdditions k8s).codec) nil).as
  (fun (daemonset, resources, pod, container, ()) => ⟨daemonset, resources, pod, container⟩)
  (fun o => (o.daemonset, o.resources, o.podTemplateAdditions, o.containerTemplateAdditions, ()))
  fun _ => rfl

def spec : Record SpecDocument :=
  (cons "hostReplicas" (.defaulted uint32 1) <|
    cons "issuers" (.optional string.list) <|
    cons "lattice" (.required string) <|
    cons "hostLabels" (.optional string.dict) <|
    cons "version" (.required string) <|
    cons "image" (.optional string) <|
    cons "natsLeafImage" (.optional string) <|
    cons "secretName" (.optional string) <|
    cons "enableStructuredLogging" (.optional bool) <|
    cons "registryCredentialsSecret" (.optional string) <|
    cons "controlTopicPrefix" (.optional string) <|
    cons "leafNodeDomain" (.defaulted string "leaf") <|
    cons "configServiceEnabled" (.defaulted bool false) <|
    cons "natsAddress" (.defaulted string "nats://nats.default.svc.cluster.local") <|
    cons "natsClientPort" (.defaulted uint16 4222) <|
    cons "natsLeafnodePort" (.defaulted uint16 7422) <|
    cons "jetstreamDomain" (.defaulted string "default") <|
    cons "allowLatest" (.defaulted bool false) <|
    cons "allowedInsecure" (.omissible string.list) <|
    cons "logLevel" (.defaulted string "INFO") <|
    cons "policyService" (.optional policyService.codec) <|
    cons "schedulingOptions" (.optional (schedulingOptions k8s).codec) <|
    cons "observability" (.optional observability.codec) <|
    cons "certificates" (.optional (certificates k8s).codec) <|
    cons "secretsTopicPrefix" (.optional string) <|
    cons "maxLinearMemoryBytes" (.optional uint32) nil).as
  (fun (hostReplicas, issuers, lattice, hostLabels, version, image, natsLeafImage, secretName,
      enableStructuredLogging, registryCredentialsSecret, controlTopicPrefix, leafNodeDomain,
      configServiceEnabled, natsAddress, natsClientPort, natsLeafnodePort, jetstreamDomain,
      allowLatest, allowedInsecure, logLevel, policyService, schedulingOptions, observability,
      certificates, secretsTopicPrefix, maxLinearMemoryBytes, ()) =>
    { hostReplicas, issuers, lattice, hostLabels, version, image, natsLeafImage, secretName,
      enableStructuredLogging, registryCredentialsSecret, controlTopicPrefix, leafNodeDomain,
      configServiceEnabled, natsAddress, natsClientPort, natsLeafnodePort, jetstreamDomain,
      allowLatest, allowedInsecure, logLevel, policyService, schedulingOptions, observability,
      certificates, secretsTopicPrefix, maxLinearMemoryBytes })
  (fun s => (s.hostReplicas, s.issuers, s.lattice, s.hostLabels, s.version, s.image,
    s.natsLeafImage, s.secretName, s.enableStructuredLogging, s.registryCredentialsSecret,
    s.controlTopicPrefix, s.leafNodeDomain, s.configServiceEnabled, s.natsAddress,
    s.natsClientPort, s.natsLeafnodePort, s.jetstreamDomain, s.allowLatest, s.allowedInsecure,
    s.logLevel, s.policyService, s.schedulingOptions, s.observability, s.certificates,
    s.secretsTopicPrefix, s.maxLinearMemoryBytes, ())) fun _ => rfl

/-! ## What is accepted -/

end

def Text (v : Value) : Prop := ∃ s, v = .string s

def Flag (v : Value) : Prop := ∃ b, v = .bool b

def Word (bits : Nat) (v : Value) : Prop := ∃ n < 2 ^ bits, v = .number (toString n)

def Each (test : Value → Prop) (v : Value) : Prop :=
  ∃ items, v = .array items ∧ ∀ item ∈ items, test item

def Values (test : Value → Prop) (v : Value) : Prop :=
  ∃ members, v = .object members ∧ ∀ m ∈ members, test m.2

def Protocol (v : Value) : Prop :=
  ∃ name ∈ ["grpc", "http"], v = .string name ∨ v = .object [(name, .null)]

def policyServiceSchema : List Entry :=
  [.optional "topic" Text, .optional "timeoutMs" (Word 32), .optional "changesTopic" Text]

def otelSignalSchema : List Entry := [.optional "enable" Flag, .optional "endpoint" Text]

def observabilitySchema : List Entry := [
  .defaulted "enable" Flag,
  .required "endpoint" Text,
  .optional "protocol" Protocol,
  .optional "logs" (Conforms otelSignalSchema),
  .optional "metrics" (Conforms otelSignalSchema),
  .optional "traces" (Conforms otelSignalSchema)]

section

variable (k8s : KubernetesCodecs)

def certificatesSchema : List Entry := [.optional "authorities" (Each k8s.volume.Accepts)]

def resourcesSchema : List Entry :=
  [.optional "nats" k8s.resources.Accepts, .optional "wasmcloud" k8s.resources.Accepts]

def containerTemplateAdditionsSchema : List Entry :=
  [.omissible "nats" k8s.container.Accepts, .omissible "wasmcloud" k8s.container.Accepts]

def schedulingOptionsSchema : List Entry := [
  .defaulted "daemonset" Flag,
  .optional "resources" (Conforms (resourcesSchema k8s)),
  .omissible "podTemplateAdditions" k8s.podSpec.Accepts,
  .optional "containerTemplateAdditions" (Conforms (containerTemplateAdditionsSchema k8s))]

def specSchema : List Entry := [
  .defaulted "hostReplicas" (Word 32),
  .optional "issuers" (Each Text),
  .required "lattice" Text,
  .optional "hostLabels" (Values Text),
  .required "version" Text,
  .optional "image" Text,
  .optional "natsLeafImage" Text,
  .optional "secretName" Text,
  .optional "enableStructuredLogging" Flag,
  .optional "registryCredentialsSecret" Text,
  .optional "controlTopicPrefix" Text,
  .defaulted "leafNodeDomain" Text,
  .defaulted "configServiceEnabled" Flag,
  .defaulted "natsAddress" Text,
  .defaulted "natsClientPort" (Word 16),
  .defaulted "natsLeafnodePort" (Word 16),
  .defaulted "jetstreamDomain" Text,
  .defaulted "allowLatest" Flag,
  .omissible "allowedInsecure" (Each Text),
  .defaulted "logLevel" Text,
  .optional "policyService" (Conforms policyServiceSchema),
  .optional "schedulingOptions" (Conforms (schedulingOptionsSchema k8s)),
  .optional "observability" (Conforms observabilitySchema),
  .optional "certificates" (Conforms (certificatesSchema k8s)),
  .optional "secretsTopicPrefix" Text,
  .optional "maxLinearMemoryBytes" (Word 32)]

end

theorem accepts_text (v : Value) : string.Accepts v ↔ Text v := accepts_string

theorem accepts_flag (v : Value) : bool.Accepts v ↔ Flag v := accepts_bool

theorem accepts_word32 (v : Value) : uint32.Accepts v ↔ Word 32 v := accepts_bounded

theorem accepts_word16 (v : Value) : uint16.Accepts v ↔ Word 16 v := accepts_bounded

theorem accepts_each {α : Type} {c : Codec α} {test : Value → Prop}
    (h : ∀ v, c.Accepts v ↔ test v) (v : Value) : c.list.Accepts v ↔ Each test v := by
  simp only [accepts_list, Each, h]

theorem accepts_values {α : Type} {c : Codec α} {test : Value → Prop}
    (h : ∀ v, c.Accepts v ↔ test v) (v : Value) : c.dict.Accepts v ↔ Values test v := by
  simp only [accepts_dict, Values, h]

theorem accepts_protocol (v : Value) : otelProtocol.Accepts v ↔ Protocol v := by
  simp only [Accepts, otelProtocol, Protocol]
  constructor
  · intro h
    split at h <;> simp_all
  · rintro ⟨name, hname, rfl | rfl⟩ <;>
      simp only [List.mem_cons, List.not_mem_nil, or_false] at hname
    all_goals rcases hname with rfl | rfl <;> rfl

theorem policyService_described : Describes policyServiceSchema policyService :=
  .as <| .cons (.optional accepts_text) <| .cons (.optional accepts_word32) <|
    .cons (.optional accepts_text) .nil

theorem otelSignal_described : Describes otelSignalSchema otelSignal :=
  .as <| .cons (.optional accepts_flag) <| .cons (.optional accepts_text) .nil

theorem observability_described : Describes observabilitySchema observability :=
  .as <| .cons (.defaulted accepts_flag _) <| .cons (.required accepts_text) <|
    .cons (.optional accepts_protocol) <| .cons (.optional otelSignal_described.accepts) <|
    .cons (.optional otelSignal_described.accepts) <|
    .cons (.optional otelSignal_described.accepts) .nil

section

variable (k8s : KubernetesCodecs)

theorem certificates_described : Describes (certificatesSchema k8s) (certificates k8s) :=
  .as <| .cons (.optional (accepts_each fun _ => .rfl)) .nil

theorem resources_described : Describes (resourcesSchema k8s) (resources k8s) :=
  .as <| .cons (.optional fun _ => .rfl) <| .cons (.optional fun _ => .rfl) .nil

theorem containerTemplateAdditions_described :
    Describes (containerTemplateAdditionsSchema k8s) (containerTemplateAdditions k8s) :=
  .as <| .cons (.skipped fun _ => .rfl) <| .cons (.skipped fun _ => .rfl) .nil

theorem schedulingOptions_described :
    Describes (schedulingOptionsSchema k8s) (schedulingOptions k8s) :=
  .as <| .cons (.defaulted accepts_flag _) <|
    .cons (.optional (resources_described k8s).accepts) <| .cons (.skipped fun _ => .rfl) <|
    .cons (.optional (containerTemplateAdditions_described k8s).accepts) .nil

theorem spec_described : Describes (specSchema k8s) (spec k8s) :=
  .as <| .cons (.defaulted accepts_word32 _) <| .cons (.optional (accepts_each accepts_text)) <|
    .cons (.required accepts_text) <| .cons (.optional (accepts_values accepts_text)) <|
    .cons (.required accepts_text) <| .cons (.optional accepts_text) <|
    .cons (.optional accepts_text) <| .cons (.optional accepts_text) <|
    .cons (.optional accepts_flag) <| .cons (.optional accepts_text) <|
    .cons (.optional accepts_text) <| .cons (.defaulted accepts_text _) <|
    .cons (.defaulted accepts_flag _) <| .cons (.defaulted accepts_text _) <|
    .cons (.defaulted accepts_word16 _) <| .cons (.defaulted accepts_word16 _) <|
    .cons (.defaulted accepts_text _) <| .cons (.defaulted accepts_flag _) <|
    .cons (.omissible (accepts_each accepts_text)) <| .cons (.defaulted accepts_text _) <|
    .cons (.optional policyService_described.accepts) <|
    .cons (.optional (schedulingOptions_described k8s).accepts) <|
    .cons (.optional observability_described.accepts) <|
    .cons (.optional (certificates_described k8s).accepts) <| .cons (.optional accepts_text) <|
    .cons (.optional accepts_word32) .nil

/-- The documents that are read as specs are those that conform to the schema. -/
theorem spec_accepts_iff (v : Value) :
    (spec k8s).codec.Accepts v ↔ Conforms (specSchema k8s) v :=
  (spec_described k8s).accepts v

/-- What the API server writes for a member that is missing, and the nulls of options. -/
def specDefaults : List (String × Value) := [
  ("hostReplicas", .number "1"),
  ("leafNodeDomain", .string "leaf"),
  ("configServiceEnabled", .bool false),
  ("natsAddress", .string "nats://nats.default.svc.cluster.local"),
  ("natsClientPort", .number "4222"),
  ("natsLeafnodePort", .number "7422"),
  ("jetstreamDomain", .string "default"),
  ("allowLatest", .bool false),
  ("logLevel", .string "INFO")] ++
  ["issuers", "hostLabels", "image", "natsLeafImage", "secretName", "enableStructuredLogging",
    "registryCredentialsSecret", "controlTopicPrefix", "allowedInsecure", "policyService",
    "schedulingOptions", "observability", "certificates", "secretsTopicPrefix",
    "maxLinearMemoryBytes"].map fun key => (key, .null)

theorem specDefaults_neutral : ∀ m ∈ specDefaults, (spec k8s).Neutral m := by
  have htext (s) : string.decode (.string s) = some s := rfl
  have hflag (b) : Codec.bool.decode (.bool b) = some b := rfl
  have hreplicas : uint32.decode (.number "1") = some 1 := uint32.decode_encode 1
  have hclient : uint16.decode (.number "4222") = some 4222 := uint16.decode_encode 4222
  have hleafnode : uint16.decode (.number "7422") = some 7422 := uint16.decode_encode 7422
  simp only [specDefaults, List.map_cons, List.map_nil, List.cons_append, List.nil_append,
    List.forall_mem_cons]
  simp [spec, htext, hflag, hreplicas, hclient, hleafnode]

theorem spec_decode_among (s : SpecDocument) {members others : List (String × Value)}
    (hmembers : members.Perm (others ++ (spec k8s).write s))
    (hothers : ∀ m ∈ others, m.1 ∉ (spec k8s).keys) :
    (spec k8s).codec.decode (.object members) = some s :=
  (spec k8s).read_among s hmembers hothers

theorem spec_decode_among_sample :
    (spec modelled).codec.decode (.object (("unknown", .null) ::
      ((spec modelled).write { HostConfigSpec.sample with }).reverse)) =
      some { HostConfigSpec.sample with } :=
  spec_decode_among modelled _
    (show List.Perm _ ([("unknown", .null)] ++ _) from .cons _ (List.reverse_perm _)) (by decide)

theorem spec_decode_filled {members fill doc : List (String × Value)}
    (hdoc : doc.Perm (fill ++ members)) (honce : (names fill).Nodup)
    (hnew : ∀ key ∈ names fill, key ∉ names members)
    (hfill : ∀ m ∈ fill, m ∈ specDefaults ∨ m.1 ∉ (spec k8s).keys) :
    (spec k8s).codec.decode (.object doc) = (spec k8s).codec.decode (.object members) := by
  refine ((spec k8s).read_perm hdoc).trans ((spec k8s).read_filled honce hnew fun m hm => ?_)
  rcases hfill m hm with hm | hm
  · exact specDefaults_neutral k8s m hm
  · exact neutral_of_not_mem hm

theorem spec_decode_filled_sample :
    (spec modelled).codec.decode (.object
      [("lattice", .string "a"), ("logLevel", .string "INFO"), ("version", .string "1")]) =
    (spec modelled).codec.decode (.object [("lattice", .string "a"), ("version", .string "1")]) :=
  spec_decode_filled modelled
    (show List.Perm _ ([("logLevel", .string "INFO")] ++ _) from .swap _ _ _)
    (by decide) (by decide) (by simp [specDefaults])

end

/-! ## The status -/

def statusPatch (st : WasmCloudHostConfigStatus) : Value :=
  .object [("status", status.codec.encode st)]

structure Stored (doc : Value) : Prop where
  names : ∃ members, doc = .object members ∧ (names members).Nodup
  status : ∀ own, doc.member "status" = some (.object own) → (Format.names own).Nodup

theorem status_write (st : WasmCloudHostConfigStatus) :
    status.write st = [("apps", appStatus.codec.list.encode st.apps),
      ("app_count", .number (toString st.appCount.toNat))] := rfl

theorem number_plain (text : String) :
    Value.number text ≠ .null ∧ ¬Value.IsObject (.number text) := by
  refine ⟨?_, ?_⟩
  · rintro ⟨⟩
  · rintro ⟨_, ⟨⟩⟩

theorem array_plain (items : List Value) :
    Value.array items ≠ .null ∧ ¬Value.IsObject (.array items) := by
  refine ⟨?_, ?_⟩
  · rintro ⟨⟩
  · rintro ⟨_, ⟨⟩⟩

theorem status_read_merged {own : List (String × Value)} (hown : (names own).Nodup)
    (st : WasmCloudHostConfigStatus) :
    status.read (Value.mergeMembers own (status.write st)) = some st := by
  have hkeys : status.keys.Nodup := by
    simp [status, Record.keys, Record.as, Record.cons, Record.nil]
  apply status.read_merged st hown rfl hkeys
  intro m hm
  simp only [status_write, List.mem_cons, List.not_mem_nil, or_false] at hm
  rcases hm with rfl | rfl
  · exact array_plain _
  · exact number_plain _

theorem count_merged (own : List (String × Value)) (st : WasmCloudHostConfigStatus) :
    (Value.mergeMembers own (status.write st)).lookup "app_count" =
      some (.number (toString st.appCount.toNat)) := by
  have hmem : ("app_count", Value.number (toString st.appCount.toNat)) ∈ status.write st := by
    simp [status_write]
  obtain ⟨hnull, hobject⟩ := number_plain (toString st.appCount.toNat)
  exact lookup_mergeMembers_plain own (by simp [status_write, names]) hmem hnull hobject

theorem mergePatch_statusPatch {doc : Value} (hdoc : Stored doc)
    (st : WasmCloudHostConfigStatus) :
    ∃ members own, doc = .object members ∧ (names members).Nodup ∧ (names own).Nodup ∧
      doc.mergePatch (statusPatch st) =
        .object (Value.put "status" (.object (Value.mergeMembers own (status.write st))) members)
    := by
  obtain ⟨members, rfl, honce⟩ := hdoc.names
  refine ⟨members, ((members.lookup "status").getD .null).members?.getD [], rfl, honce, ?_, ?_⟩
  · cases hstatus : members.lookup "status" with
    | none => exact List.nodup_nil
    | some v =>
      cases v with
      | object own => exact hdoc.status own hstatus
      | _ => exact List.nodup_nil
  · rw [statusPatch, Value.mergePatch, Value.mergeMembers, Value.mergeMembers]
    change Value.object (Value.mergeMember members ("status", .object (status.write st))) = _
    rw [Value.mergeMember, Value.mergePatch]
    rintro ⟨⟩

theorem after_statusPatch {doc : Value} (hdoc : Stored doc) (st : WasmCloudHostConfigStatus) :
    Stored (doc.mergePatch (statusPatch st)) ∧
      ((doc.mergePatch (statusPatch st)).member "status").bind status.codec.decode = some st ∧
      (doc.mergePatch (statusPatch st)).getIn ["status", "app_count"] =
        some (.number (toString st.appCount.toNat)) ∧
      ∀ key ≠ "status", (doc.mergePatch (statusPatch st)).member key = doc.member key := by
  obtain ⟨members, own, rfl, honce, hown, heq⟩ := mergePatch_statusPatch hdoc st
  have hstatus : (Value.put "status" (.object (Value.mergeMembers own (status.write st)))
      members).lookup "status" = some (.object (Value.mergeMembers own (status.write st))) := by
    rw [Value.lookup_put, if_pos rfl]
  rw [heq]
  refine ⟨⟨⟨_, rfl, ?_⟩, fun own' hown' => ?_⟩, ?_, ?_, fun key hkey => ?_⟩
  · rw [names_put]
    split_ifs with hin
    · exact honce
    · simpa [List.nodup_append] using ⟨honce, fun a ha heq => hin (heq ▸ ha)⟩
  · rw [Value.member_object, hstatus] at hown'
    obtain rfl := Value.object.inj (Option.some.inj hown')
    exact nodup_names_mergeMembers hown _
  · rw [Value.member_object, hstatus]
    exact status_read_merged hown st
  · rw [Value.getIn_cons, Value.member_object, hstatus, Option.bind_some, Value.getIn_cons,
      Value.member_object, count_merged]
    rfl
  · rw [Value.member_object, Value.lookup_put, if_neg hkey, Value.member_object]

/-- The document after the updates of reconciles that listed these applications. -/
def statusUpdates (doc : Value) (listings : List (List AppSummary)) : Value :=
  listings.foldl (fun doc apps => doc.mergePatch (statusPatch (statusOf apps))) doc

theorem statusUpdates_stored {doc : Value} (hdoc : Stored doc)
    (listings : List (List AppSummary)) :
    Stored (statusUpdates doc listings) ∧
      ∀ key ≠ "status", (statusUpdates doc listings).member key = doc.member key := by
  induction listings generalizing doc with
  | nil => exact ⟨hdoc, fun _ _ => rfl⟩
  | cons apps listings ih =>
    obtain ⟨hafter, -, -, hsame⟩ := after_statusPatch hdoc (statusOf apps)
    obtain ⟨hstored, hrest⟩ := ih hafter
    exact ⟨hstored, fun key hkey => (hrest key hkey).trans (hsame key hkey)⟩

theorem statusUpdates_read {doc : Value} (hdoc : Stored doc) (listings : List (List AppSummary))
    (apps : List AppSummary) :
    ((statusUpdates doc (listings ++ [apps])).member "status").bind status.codec.decode =
        some (statusOf apps) ∧
      (statusUpdates doc (listings ++ [apps])).getIn ["status", "app_count"] =
        some (.number (toString (apps.length % 2 ^ 32))) ∧
      ∀ key ≠ "status",
        (statusUpdates doc (listings ++ [apps])).member key = doc.member key := by
  obtain ⟨hstored, hrest⟩ := statusUpdates_stored hdoc listings
  obtain ⟨-, hstatus, hcount, hsame⟩ := after_statusPatch hstored (statusOf apps)
  have happend : statusUpdates doc (listings ++ [apps]) =
      (statusUpdates doc listings).mergePatch (statusPatch (statusOf apps)) :=
    List.foldl_append
  rw [happend]
  exact ⟨hstatus, hcount, fun key hkey => (hsame key hkey).trans (hrest key hkey)⟩

def summary (name version : String) : AppSummary :=
  { name := name, version := version, deployedVersion := some version, status := .deployed }

def storedSample : Value :=
  .object [("metadata", .object [("name", .string "a")]), ("spec", .null),
    ("status", status.codec.encode ⟨[⟨"echo", "v0"⟩], 1⟩)]

theorem stored_sample : Stored storedSample where
  names := ⟨_, rfl, by decide⟩
  status own hown := by
    obtain rfl := Value.object.inj (Option.some.inj hown)
    decide

/-- An application is upgraded, and a second one is deployed. -/
theorem statusUpdates_read_sample :
    let doc := statusUpdates storedSample
      ([[summary "echo" "v1"]] ++ [[summary "echo" "v2", summary "hello" "v1"]])
    (doc.member "status").bind status.codec.decode =
        some ⟨[⟨"echo", "v2"⟩, ⟨"hello", "v1"⟩], 2⟩ ∧
      doc.getIn ["status", "app_count"] = some (.number (toString 2)) ∧
      ∀ key ≠ "status", doc.member key = storedSample.member key :=
  statusUpdates_read stored_sample [[summary "echo" "v1"]]
    [summary "echo" "v2", summary "hello" "v1"]

end HostConfigFormat
end WadmOperator

import WadmOperator.Foundation.Footprint
import WadmOperator.HostConfig
import WadmOperator.Nats
import WadmOperator.Operator

/-!
# The context of a reconcile

What a reconcile works on: the objects of the cluster, read and applied through the API
server, and the credentials and watchers that the operator keeps in memory. An action
that fails leaves what it did before. Status is a subresource, so it is kept apart from
its config, and the credentials map is the one that the API handlers read, too.
-/

namespace WadmOperator

inductive ObjectKind where
  | hostConfig | secret | configMap | serviceAccount | role | roleBinding | deployment | daemonSet
  deriving DecidableEq

abbrev Obj : ObjectKind → Type
  | .hostConfig => StoredConfig
  | .secret => Secret
  | .configMap => ConfigMap
  | .serviceAccount => ServiceAccount
  | .role => Role
  | .roleBinding => RoleBinding
  | .deployment => Deployment
  | .daemonSet => DaemonSet

def owners : (kind : ObjectKind) → Obj kind → List OwnerReference
  | .hostConfig, _ => []
  | .secret, _ => []
  | .configMap, cm => cm.ownerReferences
  | .serviceAccount, account => account.ownerReferences
  | .role, role => role.ownerReferences
  | .roleBinding, binding => binding.ownerReferences
  | .deployment, deployment => deployment.ownerReferences
  | .daemonSet, ds => ds.ownerReferences

structure Context where
  objects : (kind : ObjectKind) → Dict ObjectKey (Obj kind) := fun _ => Dict.empty
  services : Dict ObjectKey StoredService := Dict.empty
  statuses : Dict ObjectKey WasmCloudHostConfigStatus := Dict.empty
  natsCreds : Dict NameNamespace String := Dict.empty
  serviceWatcher : ServiceWatcher := {}

inductive KubeCall where
  | get (kind : ObjectKind) (key : ObjectKey)
  | apply (kind : ObjectKind) (key : ObjectKey)
  | applyService (key : ObjectKey)
  | patchStatus (key : ObjectKey)
  deriving DecidableEq

inductive ReconcileError where
  | kubeError (call : KubeCall)
  | secretError (msg : String)
  | certificateError (msg : String)
  | natsError (msg : String)
  | panicked (msg : String)

abbrev ReconcileM (α : Type) := Procedure Context ReconcileError α

/-- Server-side apply under the field manager of the reconciler: what is applied is
stored, and the same object again changes nothing. -/
structure HostApi extends ApiServer where
  applyObject : (kind : ObjectKind) → Option (Obj kind) → Obj kind → Obj kind
  object_again (kind current x) :
    applyObject kind (some (applyObject kind current x)) x = applyObject kind current x
  service_again (current : Option Service) (svc : Service) : svc.finalizers = [] →
    applyService CLUSTER_CONFIG_FINALIZER false
        (some (applyService CLUSTER_CONFIG_FINALIZER false current svc)) svc =
      applyService CLUSTER_CONFIG_FINALIZER false current svc
  owner_applied (kind current x) : ∀ r ∈ owners kind x, r ∈ owners kind (applyObject kind current x)
  data_applied (current : Option ConfigMap) (cm : ConfigMap) (data : Labels) (k v : String) :
    cm.data = some data → data.get? k = some v →
      ∃ stored, (applyObject .configMap current cm).data = some stored ∧ stored.get? k = some v

namespace HostApi

theorem merge_again (old : Service) {svc : Service} (hnone : svc.finalizers = []) :
    ApiServer.merge CLUSTER_CONFIG_FINALIZER
        (ApiServer.merge CLUSTER_CONFIG_FINALIZER old svc) svc =
      ApiServer.merge CLUSTER_CONFIG_FINALIZER old svc := by
  have hports : (svc.ports.filter fun q => q.name ∉ svc.ports.map ServicePort.name) = [] := by
    rw [List.filter_eq_nil_iff]
    intro q hq
    simpa using ⟨q, hq, rfl⟩
  simp only [ApiServer.merge, hnone, Dict.extend_again svc.labels.toPairs_keys_nodup,
    List.filter_append, hports, List.nil_append, List.filter_filter, Bool.and_self]

def basic : HostApi where
  toApiServer := .basic
  applyObject _ _ x := x
  object_again _ _ _ := rfl
  service_again current _ hnone := merge_again (current.getD ApiServer.emptyService) hnone
  owner_applied _ _ _ _ hr := hr
  data_applied _ _ data _ _ hdata hv := ⟨data, hdata, hv⟩

theorem applied_settled (api : HostApi) (current : Option StoredService) (svc : Service) :
    let applied := api.applyService CLUSTER_CONFIG_FINALIZER false (current.map Subtype.val) svc
    Cluster.afterWrite applied = some applied := by
  intro applied
  unfold Cluster.afterWrite
  split
  · next hgone =>
    exfalso
    obtain ⟨hdeleted, hempty⟩ := Bool.and_eq_true_iff.mp hgone
    rw [api.deletionTimestamp_kept] at hdeleted
    cases current with
    | none => cases hdeleted
    | some old =>
      have hold : old.val.deletionTimestamp = true := hdeleted
      cases hfin : old.val.finalizers with
      | nil =>
        have hsettled := old.property
        simp [Cluster.afterWrite, hold, hfin] at hsettled
      | cons f rest =>
        have hf : f ∈ old.val.finalizers := by
          rw [hfin]
          exact List.mem_cons_self
        have hkept : f ∈ applied.finalizers :=
          api.finalizer_kept CLUSTER_CONFIG_FINALIZER false old.val svc f hf fun hboth =>
            absurd hboth.1 (by decide)
        rw [List.isEmpty_iff.mp hempty] at hkept
        cases hkept
  · rfl

/-- An apply ends no deletion and takes no finalizer, so the Service stays stored. -/
def applyHostService (api : HostApi) (current : Option StoredService) (svc : Service) :
    StoredService :=
  ⟨api.applyService CLUSTER_CONFIG_FINALIZER false (current.map Subtype.val) svc,
    api.applied_settled current svc⟩

theorem applyHostService_again (api : HostApi) (current : Option StoredService) {svc : Service}
    (hnone : svc.finalizers = []) :
    api.applyHostService (some (api.applyHostService current svc)) svc =
      api.applyHostService current svc :=
  Subtype.ext (api.service_again (current.map Subtype.val) svc hnone)

end HostApi

def overwriteEnv (e : EnvVar) : List EnvVar → List EnvVar
  | [] => [e]
  | own :: rest =>
    if own.name = e.name then { own with value := e.value.or own.value } :: rest
    else own :: overwriteEnv e rest

def mergeEnv (own new : List EnvVar) : List EnvVar :=
  new.foldl (fun env e => overwriteEnv e env) own

/-- Without a list of its own, a container gets the other one as it is. -/
def mergedEnv (own : Option (List EnvVar)) (new : List EnvVar) : List EnvVar :=
  match own with
  | some own => mergeEnv own new
  | none => new

def Container.MountsAt (c : Container) (path : String) : Prop :=
  ∃ m ∈ c.volumeMounts.getD [], m.mountPath = path

/-- The merge of two containers by the Kubernetes types: a field that the argument sets
wins, and lists are merged by the keys of their items. -/
structure DeepMerge where
  mergeFrom : Container → Container → Container
  name_merged (c other) : (mergeFrom c other).name = other.name
  image_merged (c other image) : other.image = some image → (mergeFrom c other).image = some image
  args_merged (c other args) : other.args = some args → (mergeFrom c other).args = some args
  env_merged (c other env) : other.env = some env →
    (mergeFrom c other).env = some (mergedEnv c.env env)
  mounts_merged (c other path) :
    (mergeFrom c other).MountsAt path ↔ c.MountsAt path ∨ other.MountsAt path

namespace DeepMerge

def mergeMounts (own new : List VolumeMount) : List VolumeMount :=
  (own.filter fun m => m.mountPath ∉ new.map VolumeMount.mountPath) ++ new

def mergedMounts : Option (List VolumeMount) → Option (List VolumeMount) → Option (List VolumeMount)
  | own, none => own
  | none, some new => some new
  | some own, some new => some (mergeMounts own new)

theorem mem_mergedMounts {own new : Option (List VolumeMount)} {m : VolumeMount} :
    m ∈ (mergedMounts own new).getD [] ↔ m ∈ new.getD [] ∨
      (m ∈ own.getD [] ∧ m.mountPath ∉ (new.getD []).map VolumeMount.mountPath) := by
  cases own <;> cases new <;> simp [mergedMounts, mergeMounts, or_comm]

def basic : DeepMerge where
  mergeFrom c other :=
    { name := other.name
      image := other.image.or c.image
      command := other.command.or c.command
      args := other.args.or c.args
      env := match other.env with
        | some env => some (mergedEnv c.env env)
        | none => c.env
      imagePullPolicy := other.imagePullPolicy.or c.imagePullPolicy
      ports := other.ports.or c.ports
      preStop := other.preStop.or c.preStop
      resources := other.resources.or c.resources
      volumeMounts := mergedMounts c.volumeMounts other.volumeMounts
      others := c.others.extend other.others.toPairs }
  name_merged _ _ := rfl
  image_merged _ _ _ h := by rw [h]; rfl
  args_merged _ _ _ h := by rw [h]; rfl
  env_merged _ _ _ h := by rw [h]
  mounts_merged c other path := by
    simp only [Container.MountsAt, mem_mergedMounts]
    constructor
    · intro hall
      obtain ⟨m, hm | ⟨hm, -⟩, hp⟩ := hall
      · exact .inr ⟨m, hm, hp⟩
      · exact .inl ⟨m, hm, hp⟩
    · intro hall
      rcases hall with ⟨m, hm, hp⟩ | ⟨m, hm, hp⟩
      · by_cases hin : m.mountPath ∈ (other.volumeMounts.getD []).map VolumeMount.mountPath
        · obtain ⟨m', hm', heq⟩ := List.mem_map.mp hin
          exact ⟨m', .inl hm', heq.trans hp⟩
        · exact ⟨m, .inr ⟨hm, hin⟩, hp⟩
      · exact ⟨m, .inl hm, hp⟩

end DeepMerge
namespace Context

variable {s : Context} {kind : ObjectKind} {key : ObjectKey}

def putObject (s : Context) (kind : ObjectKind) (key : ObjectKey) (x : Obj kind) : Context :=
  { s with objects := Function.update s.objects kind ((s.objects kind).put key x) }

theorem putObject_get? (x : Obj kind) (key' : ObjectKey) :
    ((s.putObject kind key x).objects kind).get? key' =
      if key' = key then some x else (s.objects kind).get? key' := by
  simp only [putObject, Function.update_self, Dict.get?_put]

theorem putObject_other (x : Obj kind) {kind' : ObjectKind} (h : kind' ≠ kind) :
    (s.putObject kind key x).objects kind' = s.objects kind' := by
  simp only [putObject, Function.update_of_ne h]

end Context

namespace ReconcileM

section

variable (fails : KubeCall → Bool)

def getObject (kind : ObjectKind) (key : ObjectKey) : ReconcileM (Obj kind) := fun s =>
  match fails (.get kind key), (s.objects kind).get? key with
  | false, some x => (.ok x, s)
  | _, _ => (.error (.kubeError (.get kind key)), s)

def applyObject (api : HostApi) (kind : ObjectKind) (key : ObjectKey) (x : Obj kind) :
    ReconcileM Unit := fun s =>
  if fails (.apply kind key) then (.error (.kubeError (.apply kind key)), s)
  else (.ok (), s.putObject kind key (api.applyObject kind ((s.objects kind).get? key) x))

def applyService (api : HostApi) (key : ObjectKey) (svc : Service) : ReconcileM Unit := fun s =>
  if fails (.applyService key) then (.error (.kubeError (.applyService key)), s)
  else
    let stored := api.applyHostService (s.services.get? key) svc
    (.ok (), { s with services := s.services.put key stored })

def patchStatus (key : ObjectKey) (status : WasmCloudHostConfigStatus) : ReconcileM Unit :=
  fun s =>
    if fails (.patchStatus key) then (.error (.kubeError (.patchStatus key)), s)
    else (.ok (), { s with statuses := s.statuses.put key status })

end

variable {fails : KubeCall → Bool} {api : HostApi} {kind : ObjectKind} {key : ObjectKey}
  {s u : Context}

theorem getObject_ok {x : Obj kind} (h : getObject fails kind key s = (.ok x, u)) :
    u = s ∧ (s.objects kind).get? key = some x := by
  unfold getObject at h
  split at h
  · next hx =>
    obtain ⟨hok, rfl⟩ := Prod.mk.inj h
    rw [hx, Except.ok.inj hok]
    exact ⟨rfl, rfl⟩
  · cases (Prod.mk.inj h).1

theorem applyObject_ok {x : Obj kind} (h : applyObject fails api kind key x s = (.ok (), u)) :
    u = s.putObject kind key (api.applyObject kind ((s.objects kind).get? key) x) := by
  unfold applyObject at h
  split at h
  · cases (Prod.mk.inj h).1
  · exact (Prod.mk.inj h).2.symm

theorem applyService_ok {svc : Service} (h : applyService fails api key svc s = (.ok (), u)) :
    ∃ stored, u = { s with services := s.services.put key stored } := by
  unfold applyService at h
  split at h
  · cases (Prod.mk.inj h).1
  · exact ⟨_, (Prod.mk.inj h).2.symm⟩

theorem patchStatus_ok {status : WasmCloudHostConfigStatus}
    (h : patchStatus fails key status s = (.ok (), u)) :
    u = { s with statuses := s.statuses.put key status } := by
  unfold patchStatus at h
  split at h
  · cases (Prod.mk.inj h).1
  · exact (Prod.mk.inj h).2.symm

end ReconcileM
end WadmOperator

import WadmOperator.Foundation.Dict

/-!
# The cluster and its API server

Objects live under their namespace and name, which the records do not repeat.
Only the fields that the operator reads or writes are kept. Server-side apply is
the API server's own code, so it is a parameter: `ApiServer` lists what the
operator relies on in a patch that is accepted. Removal follows the documented
rule: a deletion sets the timestamp, and an object in deletion goes away with its
last finalizer.
-/

namespace WadmOperator

def CLUSTER_CONFIG_FINALIZER : String := "operator.k8s.wasmcloud.dev/wasmcloud-host-config"
def SERVICE_FINALIZER : String := "operator.k8s.wasmcloud.dev/service"
def WASMCLOUD_OPERATOR_HOST_LABEL_PREFIX : String := "host-label.k8s.wasmcloud.dev"

abbrev ObjectKey := String × String

abbrev Labels := Dict String String

structure ServicePort where
  name : Option String
  port : Nat
  protocol : Option String
  deriving DecidableEq

structure OwnerReference where
  apiVersion : String
  kind : String
  name : String
  uid : String
  controller : Bool
  deriving DecidableEq

structure Service where
  uid : String
  labels : Labels
  finalizers : List String
  ownerReferences : List OwnerReference
  deletionTimestamp : Bool
  selector : Labels
  ports : List ServicePort

structure Endpoint where
  addresses : List String
  ready : Bool
  serving : Bool

structure EndpointSlice where
  labels : Labels
  ownerReferences : List OwnerReference
  addressType : String
  endpoints : List Endpoint
  ports : List ServicePort

structure PodStatus where
  phase : Option String
  podIps : Option (List (Option String))

structure Pod where
  ns : String
  labels : Labels
  status : Option PodStatus

structure WasmCloudHostConfigSpec where
  lattice : String
  hostLabels : Option Labels := none

structure WasmCloudHostConfig where
  ns : String
  name : String
  uid : String
  spec : WasmCloudHostConfigSpec

def WasmCloudHostConfig.sample (name lattice : String) (hostLabels : Option Labels) :
    WasmCloudHostConfig :=
  ⟨"default", name, "uid-" ++ name, ⟨lattice, hostLabels⟩⟩

structure Cluster where
  services : Dict ObjectKey Service := Dict.empty
  endpointSlices : Dict ObjectKey EndpointSlice := Dict.empty
  configs : List WasmCloudHostConfig := []
  pods : List Pod := []

inductive Verb where
  | get | list | patch | delete
  deriving DecidableEq

inductive Resource where
  | service | endpointSlice | pod | hostConfig
  deriving DecidableEq

structure ApiCall where
  verb : Verb
  resource : Resource
  ns : String
  name : String
  deriving DecidableEq

def commonLabels : Labels :=
  (Dict.empty.put "app.kubernetes.io/name" "wasmcloud").put
    "app.kubernetes.io/managed-by" "wadm-operator"

def matchesLabels (selector labels : Labels) : Bool :=
  selector.toPairs.all fun kv => labels.get? kv.1 = some kv.2

theorem matchesLabels_iff {selector labels : Labels} :
    matchesLabels selector labels = true ↔
      ∀ k v, selector.get? k = some v → labels.get? k = some v := by
  simp only [matchesLabels, List.all_eq_true, decide_eq_true_eq]
  constructor
  · intro h k v hk
    exact h (k, v) (Dict.mem_toPairs.mpr hk)
  · intro h kv hkv
    exact h kv.1 kv.2 (Dict.mem_toPairs.mp hkv)

namespace Service

def managedBy (svc : Service) : Option String := svc.labels.get? "app.kubernetes.io/managed-by"

def managed (svc : Service) : Bool := svc.managedBy = some "wadm-operator"

/-- A Service without a selector gets its endpoints from elsewhere. -/
def selects (svc : Service) (labels : Labels) : Bool :=
  !svc.selector.entries.isEmpty && matchesLabels svc.selector labels

end Service

namespace Cluster

def service (c : Cluster) (key : ObjectKey) : Option Service := c.services.get? key

def afterWrite (svc : Service) : Option Service :=
  if svc.deletionTimestamp && svc.finalizers.isEmpty then none else some svc

def writeService (c : Cluster) (key : ObjectKey) (svc : Service) : Cluster :=
  match afterWrite svc with
  | some stored => { c with services := c.services.put key stored }
  | none => { c with services := c.services.remove key }

def configsIn (c : Cluster) (ns : String) : List WasmCloudHostConfig :=
  c.configs.filter fun cfg => cfg.ns = ns

def managedServices (c : Cluster) (ns : String) : List ObjectKey :=
  (c.services.toPairs.filter fun e => e.1.1 = ns && e.2.managed).map Prod.fst

theorem service_writeService (c : Cluster) (key key' : ObjectKey) (svc : Service) :
    (c.writeService key svc).service key' =
      if key' = key then afterWrite svc else c.service key' := by
  unfold writeService
  split
  · next h => simp [service, Dict.get?_put, h]
  · next h => simp [service, Dict.get?_remove, h]

theorem mem_managedServices {c : Cluster} {ns : String} {key : ObjectKey} :
    key ∈ c.managedServices ns ↔
      key.1 = ns ∧ ∃ svc, c.service key = some svc ∧ svc.managed = true := by
  simp only [managedServices, List.mem_map, List.mem_filter, Bool.and_eq_true,
    decide_eq_true_eq]
  constructor
  · intro hall
    obtain ⟨⟨k, svc⟩, ⟨hmem, hns, hm⟩, rfl⟩ := hall
    exact ⟨hns, svc, Dict.mem_toPairs.mp hmem, hm⟩
  · intro hall
    obtain ⟨hns, svc, hsvc, hm⟩ := hall
    exact ⟨(key, svc), ⟨Dict.mem_toPairs.mpr hsvc, hns, hm⟩, rfl⟩

theorem managedServices_nodup (c : Cluster) (ns : String) : (c.managedServices ns).Nodup :=
  (List.filter_sublist.map Prod.fst).nodup c.services.toPairs_keys_nodup

end Cluster

/-- Server-side apply of a Service by a field manager: what is applied is stored,
nothing else is added, what others hold is kept, port names are unique, only the
operator's own managers hold its finalizer and its label, and no patch touches the
deletion timestamp. -/
structure ApiServer where
  applyService : String → Bool → Option Service → Service → Service
  applyEndpointSlice : String → Option EndpointSlice → EndpointSlice → EndpointSlice
  label_applied (manager force current svc) : ∀ k v, svc.labels.get? k = some v →
    (applyService manager force current svc).labels.get? k = some v
  label_origin (manager force current svc) : ∀ k v,
    (applyService manager force current svc).labels.get? k = some v →
      svc.labels.get? k = some v ∨ ∃ old, current = some old ∧ old.labels.get? k = some v
  managedBy_kept (force old svc) : svc.managedBy = none →
    (applyService CLUSTER_CONFIG_FINALIZER force (some old) svc).managedBy = old.managedBy
  finalizer_applied (manager force current svc) : ∀ f ∈ svc.finalizers,
    f ∈ (applyService manager force current svc).finalizers
  finalizer_origin (manager force current svc) :
    ∀ f ∈ (applyService manager force current svc).finalizers,
      f ∈ svc.finalizers ∨ ∃ old, current = some old ∧ f ∈ old.finalizers
  finalizer_kept (manager force old svc) : ∀ f ∈ old.finalizers,
    ¬(manager = SERVICE_FINALIZER ∧ f = SERVICE_FINALIZER) →
      f ∈ (applyService manager force (some old) svc).finalizers
  finalizer_dropped (force current svc) : SERVICE_FINALIZER ∉ svc.finalizers →
    SERVICE_FINALIZER ∉ (applyService SERVICE_FINALIZER force current svc).finalizers
  port_applied (manager force current svc) : (svc.ports.map ServicePort.name).Nodup →
    ∀ p ∈ svc.ports, p ∈ (applyService manager force current svc).ports ∧
      ∀ q ∈ (applyService manager force current svc).ports, q.name = p.name → q = p
  selector_applied (manager force current svc) :
    (applyService manager force current svc).selector = svc.selector
  deletionTimestamp_kept (manager force current svc) :
    (applyService manager force current svc).deletionTimestamp =
      current.any fun old => old.deletionTimestamp

namespace ApiServer

def emptyService : Service := ⟨"", Dict.empty, [], [], false, Dict.empty, []⟩

def merge (manager : String) (old svc : Service) : Service where
  uid := old.uid
  labels := old.labels.extend svc.labels.toPairs
  finalizers := svc.finalizers ++
    old.finalizers.filter fun f => ¬(manager = SERVICE_FINALIZER ∧ f = SERVICE_FINALIZER)
  ownerReferences := svc.ownerReferences
  deletionTimestamp := old.deletionTimestamp
  selector := svc.selector
  ports := svc.ports ++ old.ports.filter fun q => q.name ∉ svc.ports.map ServicePort.name

theorem merge_label (manager : String) (old svc : Service) (k : String) :
    (∀ v, svc.labels.get? k = some v → (merge manager old svc).labels.get? k = some v) ∧
      (svc.labels.get? k = none →
        (merge manager old svc).labels.get? k = old.labels.get? k) := by
  have h := Dict.get?_extend svc.labels.toPairs_keys_nodup old.labels k
  refine ⟨fun v hv => h.1 v (Dict.mem_toPairs.mpr hv), fun hnone => h.2 ?_⟩
  intro hmem
  obtain ⟨⟨k', v⟩, hkv, rfl⟩ := List.mem_map.mp hmem
  have hv := Dict.mem_toPairs.mp hkv
  rw [hnone] at hv
  cases hv

theorem merge_label_origin {manager k v : String} {current : Option Service} {svc : Service}
    (hv : (merge manager (current.getD emptyService) svc).labels.get? k = some v) :
    svc.labels.get? k = some v ∨ ∃ old, current = some old ∧ old.labels.get? k = some v := by
  have hm := merge_label manager (current.getD emptyService) svc k
  cases hk : svc.labels.get? k with
  | some w =>
    left
    rw [hm.1 w hk] at hv
    exact hv
  | none =>
    right
    rw [hm.2 hk] at hv
    cases current with
    | none => cases hv
    | some old => exact ⟨old, rfl, hv⟩

theorem merge_port {manager : String} {old svc : Service}
    (hn : (svc.ports.map ServicePort.name).Nodup) {p : ServicePort} (hp : p ∈ svc.ports) :
    p ∈ (merge manager old svc).ports ∧
      ∀ q ∈ (merge manager old svc).ports, q.name = p.name → q = p := by
  refine ⟨List.mem_append_left _ hp, fun q hq hname => ?_⟩
  rcases List.mem_append.mp hq with hq | hq
  · exact List.inj_on_of_nodup_map hn hq hp hname
  · have hout := (List.mem_filter.mp hq).2
    simp only [hname, decide_eq_true_eq] at hout
    exact absurd (List.mem_map_of_mem hp) hout

def basic : ApiServer where
  applyService manager _ current svc := merge manager (current.getD emptyService) svc
  applyEndpointSlice _ _ slice := slice
  label_applied _ _ _ _ k v hv := (merge_label _ _ _ k).1 v hv
  label_origin _ _ _ _ _ _ hv := merge_label_origin hv
  managedBy_kept _ _ _ hnone := (merge_label _ _ _ _).2 hnone
  finalizer_applied _ _ _ _ _ hf := List.mem_append_left _ hf
  finalizer_origin _ _ current _ f hf := by
    rcases List.mem_append.mp hf with hf | hf
    · exact .inl hf
    · cases current with
      | none => simp [emptyService] at hf
      | some old => exact .inr ⟨old, rfl, (List.mem_filter.mp hf).1⟩
  finalizer_kept _ _ _ _ _ hf hother :=
    List.mem_append_right _ (List.mem_filter.mpr ⟨hf, decide_eq_true hother⟩)
  finalizer_dropped _ _ _ hf := by simp [merge, hf]
  port_applied _ _ _ _ hn _ hp := merge_port hn hp
  selector_applied _ _ _ _ := rfl
  deletionTimestamp_kept _ _ current _ := by cases current <;> rfl

end ApiServer
end WadmOperator

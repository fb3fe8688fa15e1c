import WadmOperator.Cluster
import Mathlib.Data.Finset.Basic

/-!
# The commands of the service watcher

What the command loop does to the cluster for each command. `fails` is the
failure pattern of the API calls of one command, and a `HashSet` is iterated in
the order of a list that is given with the command. An `Outcome` records the
cluster, the API calls that had an effect or failed, and whether the function
returned `Ok`; `andThen` is the `?` operator and `forEach` a loop that swallows
errors.
-/

namespace WadmOperator

structure ServiceParams where
  name : String
  namespaces : Finset String
  latticeId : String
  port : Nat
  hostLabels : Option Labels
  deriving DecidableEq

inductive WatcherCommand where
  | upsertService (params : ServiceParams)
  | removeService (name : String) (namespaces : Finset String)
  | removeServices (namespaces : Finset String)
  deriving DecidableEq

namespace WatcherCommand

def namespaces : WatcherCommand → Finset String
  | upsertService params => params.namespaces
  | removeService _ namespaces => namespaces
  | removeServices namespaces => namespaces

def isRemoval : WatcherCommand → Bool
  | upsertService _ => false
  | _ => true

end WatcherCommand

/-- A `HashSet` yields every namespace once, in some order. -/
def IterationOf (order : List String) (namespaces : Finset String) : Prop :=
  order.Nodup ∧ order.toFinset = namespaces

instance (order : List String) (namespaces : Finset String) :
    Decidable (IterationOf order namespaces) :=
  inferInstanceAs (Decidable (_ ∧ _))

theorem IterationOf.mem {order : List String} {namespaces : Finset String}
    (h : IterationOf order namespaces) (ns : String) : ns ∈ order ↔ ns ∈ namespaces := by
  rw [← h.2, List.mem_toFinset]

inductive Effect where
  | applied (key : ObjectKey) (latticeId : String)
  | sliced (key : ObjectKey) (slice : EndpointSlice)
  | stripped (key : ObjectKey) (svc : Service)
  | deleted (key : ObjectKey) (svc : Service)
  | notFound (key : ObjectKey)
  | failed (call : ApiCall)

structure Outcome where
  cluster : Cluster
  effects : List Effect
  ok : Bool

namespace Outcome

def succeed (c : Cluster) : Outcome := ⟨c, [], true⟩

def fail (c : Cluster) (call : ApiCall) : Outcome := ⟨c, [.failed call], false⟩

def andThen (o : Outcome) (f : Cluster → Outcome) : Outcome :=
  if o.ok then ⟨(f o.cluster).cluster, o.effects ++ (f o.cluster).effects, (f o.cluster).ok⟩
  else o

def forEach (f : String → Cluster → Outcome) : List String → Cluster → Outcome
  | [], c => succeed c
  | ns :: rest, c =>
    let o := f ns c
    let r := forEach f rest o.cluster
    ⟨r.cluster, o.effects ++ r.effects, true⟩

/-- No API call of the command failed; a missing object is an answer, not a failure. -/
def NoFailure (o : Outcome) : Prop := ∀ call, Effect.failed call ∉ o.effects

end Outcome

namespace Commands

open Outcome

def formatServiceSelector (name : String) : String :=
  WASMCLOUD_OPERATOR_HOST_LABEL_PREFIX ++ "/" ++ name

def serviceLabels (params : ServiceParams) : Labels :=
  commonLabels.put "app.kubernetes.io/name" params.name

def serviceSelector (params : ServiceParams) : Labels :=
  match params.hostLabels with
  | some hostLabels =>
    (Dict.empty.put "app.kubernetes.io/name" "wasmcloud").extend
      (hostLabels.toPairs.map fun kv => (formatServiceSelector kv.1, kv.2))
  | none => Dict.empty

def serviceFor (params : ServiceParams) (ownerRef : Option OwnerReference) : Service where
  uid := ""
  labels := serviceLabels params
  finalizers := [SERVICE_FINALIZER]
  ownerReferences := ownerRef.toList
  deletionTimestamp := false
  selector := serviceSelector params
  ports := [⟨some "http", params.port, some "TCP"⟩]

def podSelector (name : String) : Labels :=
  (Dict.empty.put "app.kubernetes.io/name" "wasmcloud").put "app.kubernetes.io/instance" name

def listPods (c : Cluster) (ns name : String) : List Pod :=
  c.pods.filter fun pod => pod.ns = ns && matchesLabels (podSelector name) pod.labels

def podIps (pod : Pod) : List (Option String) :=
  match pod.status with
  | some status => if status.phase = some "Running" then status.podIps.getD [] else []
  | none => []

def collectIps (fails : ApiCall → Bool) (c : Cluster) (latticeId : String) :
    List WasmCloudHostConfig → Except ApiCall (List (Option String))
  | [] => .ok []
  | cfg :: configs =>
    if cfg.spec.lattice = latticeId then
      if fails ⟨.list, .pod, cfg.ns, cfg.name⟩ then .error ⟨.list, .pod, cfg.ns, cfg.name⟩
      else
        (collectIps fails c latticeId configs).map fun ips =>
          (listPods c cfg.ns cfg.name).flatMap podIps ++ ips
    else collectIps fails c latticeId configs

def endpointPods (c : Cluster) (ns latticeId : String) : List Pod :=
  ((c.configsIn ns).filter fun cfg => cfg.spec.lattice = latticeId).flatMap fun cfg =>
    listPods c cfg.ns cfg.name

def endpointSliceFor (params : ServiceParams) (svc : Service) (ips : List (Option String)) :
    EndpointSlice where
  labels := (serviceLabels params).put "kubernetes.io/service-name" params.name
  ownerReferences := [⟨"v1", "Service", params.name, svc.uid, true⟩]
  addressType := "IPv4"
  endpoints := ips.filterMap fun ip => ip.map fun i => ⟨[i], true, true⟩
  ports := [⟨some "http", params.port, some "TCP"⟩]

def getCall (key : ObjectKey) : ApiCall := ⟨.get, .service, key.1, key.2⟩
def patchCall (key : ObjectKey) : ApiCall := ⟨.patch, .service, key.1, key.2⟩
def deleteCall (key : ObjectKey) : ApiCall := ⟨.delete, .service, key.1, key.2⟩

section

variable (api : ApiServer) (fails : ApiCall → Bool)

def createEndpoints (params : ServiceParams) (svc : Service) (ns : String) (c : Cluster) :
    Outcome :=
  if fails ⟨.list, .hostConfig, ns, ""⟩ then fail c ⟨.list, .hostConfig, ns, ""⟩
  else
    match collectIps fails c params.latticeId (c.configsIn ns) with
    | .error call => fail c call
    | .ok ips =>
      if ips.isEmpty then succeed c
      else
        let key : ObjectKey := (ns, params.name)
        let slice := endpointSliceFor params svc ips
        let stored :=
          api.applyEndpointSlice CLUSTER_CONFIG_FINALIZER (c.endpointSlices.get? key) slice
        if fails ⟨.patch, .endpointSlice, ns, params.name⟩ then
          fail c ⟨.patch, .endpointSlice, ns, params.name⟩
        else
          ⟨{ c with endpointSlices := c.endpointSlices.put key stored }, [.sliced key slice], true⟩

def upsertIn (params : ServiceParams) (ownerRef : Option OwnerReference) (ns : String)
    (c : Cluster) : Outcome :=
  let key : ObjectKey := (ns, params.name)
  let svc := api.applyService SERVICE_FINALIZER false (c.service key) (serviceFor params ownerRef)
  if fails (patchCall key) then fail c (patchCall key)
  else
    let o : Outcome := ⟨c.writeService key svc, [.applied key params.latticeId], true⟩
    if params.hostLabels.isNone then o.andThen (createEndpoints api fails params svc ns) else o

def createOrUpdateService (params : ServiceParams) (ownerRef : Option OwnerReference) :
    List String → Cluster → Outcome
  | [], c => succeed c
  | ns :: rest, c =>
    (upsertIn api fails params ownerRef ns c).andThen (createOrUpdateService params ownerRef rest)

def stripFinalizers (svc : Service) : Service :=
  api.applyService SERVICE_FINALIZER true (some svc) { svc with finalizers := [] }

def deleteService (key : ObjectKey) (c : Cluster) : Outcome :=
  if fails (getCall key) then fail c (getCall key)
  else
    match c.service key with
    | none => ⟨c, [.notFound key], false⟩
    | some svc =>
      if fails (patchCall key) then fail c (patchCall key)
      else
        let c' := c.writeService key (stripFinalizers api svc)
        if fails (deleteCall key) then
          ⟨c', [.stripped key svc, .failed (deleteCall key)], false⟩
        else
          match c'.service key with
          | none => ⟨c', [.stripped key svc, .notFound key], false⟩
          | some stripped =>
            ⟨c'.writeService key { stripped with deletionTimestamp := true },
              [.stripped key svc, .deleted key svc], true⟩

def deleteEach : List ObjectKey → Cluster → Outcome
  | [], c => succeed c
  | key :: keys, c => (deleteService api fails key c).andThen (deleteEach keys)

def deleteServices (ns : String) (c : Cluster) : Outcome :=
  if fails ⟨.list, .service, ns, ""⟩ then fail c ⟨.list, .service, ns, ""⟩
  else deleteEach api fails (c.managedServices ns) c

/-- The body of the command loop; the namespaces of the command come in `order`. -/
def runCommand (order : List String) (cmd : WatcherCommand) (c : Cluster) : Outcome :=
  match cmd with
  | .upsertService params =>
    { createOrUpdateService api fails params none order c with ok := true }
  | .removeService name _ => forEach (fun ns => deleteService api fails (ns, name)) order c
  | .removeServices _ => forEach (deleteServices api fails) order c

end

end Commands
end WadmOperator

import WadmOperator.Foundation.Transition
import WadmOperator.Commands.Removals
import WadmOperator.Commands.Upserts
import WadmOperator.WatcherTasks

/-!
# The operator

Reconciles, event tasks, the command loop, cleanups and restarts in any order,
against the cluster and the applications that wadm has deployed. The API calls of
one command run without another writer in between. A reconcile is followed from
the answer of `list_apps` on, as a `Listing`. `History` is a record for the
statements; a restart loses everything in memory and keeps the rest.
-/

namespace WadmOperator

structure Listing where
  config : WasmCloudHostConfig
  apps : List ModelSummary
  watched : Bool

structure History where
  handled : List Message := []
  acked : List (Message × Option Sent) := []
  done : List Sent := []
  /-- The lattices whose upserts wrote a Service since it was last deleted. -/
  madeFor : Dict ObjectKey (Finset String) := Dict.empty
  /-- The namespaces and lattices whose last config was cleaned up. -/
  cleaned : Finset (String × String) := ∅

structure Operator where
  serviceWatcher : ServiceWatcher := {}
  cluster : Cluster := {}
  deployed : Finset (String × String) := ∅
  listings : List Listing := []
  history : History := {}

namespace WatcherCommand

def carriedOut (order : List String) (effects : List Effect) : WatcherCommand → Bool
  | upsertService params => order.all fun ns =>
      effects.any fun e => e.appliedFor = some ((ns, params.name), params.latticeId)
  | removeService name _ => order.all fun ns => effects.any fun e => e.removedKey = some (ns, name)
  | removeServices _ => true

end WatcherCommand

namespace Effect

def isFailure : Effect → Bool
  | failed _ => true
  | _ => false

def record (madeFor : Dict ObjectKey (Finset String)) : Effect → Dict ObjectKey (Finset String)
  | applied key latticeId => madeFor.put key (insert latticeId ((madeFor.get? key).getD ∅))
  | deleted key _ => madeFor.remove key
  | notFound key => madeFor.remove key
  | _ => madeFor

end Effect

namespace Cluster

def config (c : Cluster) (key : ObjectKey) : Option WasmCloudHostConfig :=
  c.configs.find? fun cfg => cfg.ns = key.1 && cfg.name = key.2

def uses (c : Cluster) (ns latticeId : String) : Bool :=
  c.configs.any fun cfg => cfg.ns = ns && cfg.spec.lattice = latticeId

def removeConfig (c : Cluster) (key : ObjectKey) : Cluster :=
  { c with configs := c.configs.filter fun cfg => ¬(cfg.ns = key.1 ∧ cfg.name = key.2) }

def hostService (config : WasmCloudHostConfig) : Service :=
  let selector := (Dict.empty.put "app.kubernetes.io/name" "wasmcloud").put
    "app.kubernetes.io/instance" config.name
  { uid := ""
    labels := selector.put "wasmcloud.dev/route-to" "true"
    finalizers := []
    ownerReferences :=
      [⟨"k8s.wasmcloud.dev/v1alpha1", "WasmCloudHostConfig", config.name, config.uid, true⟩]
    deletionTimestamp := false
    selector := selector
    ports := [⟨none, 4222, none⟩] }

def configureService (api : ApiServer) (config : WasmCloudHostConfig) (c : Cluster) : Cluster :=
  let key : ObjectKey := (config.ns, config.name)
  c.writeService key
    (api.applyService CLUSTER_CONFIG_FINALIZER false (c.service key) (hostService config))

end Cluster

namespace History

def recordExec (h : History) (order : List String) (q : Sent) (effects : List Effect) : History :=
  { h with
    madeFor := effects.foldl Effect.record h.madeFor
    done := if q.cmd.carriedOut order effects && effects.all (fun e => !e.isFailure)
      then q :: h.done else h.done }

def recordCleanup (h : History) (c : Cluster) (config : WasmCloudHostConfig) : History :=
  if c.uses config.ns config.spec.lattice then h
  else { h with cleaned := insert (config.ns, config.spec.lattice) h.cleaned }

/-- A lattice that some config uses again is no longer cleaned up. -/
def recordConfigs (h : History) (c : Cluster) : History :=
  { h with cleaned := h.cleaned.filter fun p => c.uses p.1 p.2 = false }

end History

namespace Operator

inductive Label where
  | next (i : Nat) (item : StreamItem)
  | handle (i : Nat)
  | settle (i : Nat)
  | observeCancel (i : Nat)
  | listApps (key : ObjectKey) (apps : List ModelSummary)
  | watch (k : Nat) (client : NatsClient) (created : Bool)
  | reconcileServices (k : Nat)
  | abort (k : Nat)
  | nextApp (j : Nat) (manifest : Option Manifest)
  | configureService (key : ObjectKey)
  | cleanup (key : ObjectKey)
  | exec (order : List String) (fails : ApiCall → Bool)
  | restart
  | editConfigs (configs : List WasmCloudHostConfig)
  | editPods (pods : List Pod)
  | deploy (latticeId app : String)
  | undeploy (latticeId app : String)

def initial (c : Cluster) : Operator := { cluster := c }

def takenMessage (i : Nat) (s : ServiceWatcher) : Option Message :=
  s.tasks[i]?.bind fun t =>
    match t.phase with
    | .taken m => some m
    | _ => none

def ackedMessage (i : Nat) (s : ServiceWatcher) : Option (Message × Option Sent) :=
  s.tasks[i]?.bind fun t =>
    match t.phase with
    | .handled m true sent => some (m, sent)
    | _ => none

def handle (i : Nat) (s : Operator) : Option Operator :=
  (s.serviceWatcher.handle i).map fun sw =>
    let handled := s.history.handled ++ (takenMessage i s.serviceWatcher).toList
    { s with serviceWatcher := sw, history := { s.history with handled := handled } }

def settle (i : Nat) (s : Operator) : Option Operator :=
  (s.serviceWatcher.settle i).map fun sw =>
    let acked := (ackedMessage i s.serviceWatcher).toList ++ s.history.acked
    { s with serviceWatcher := sw, history := { s.history with acked := acked } }

/-- The config is read before; wadm names a deployed version for what it has deployed. -/
def listApps (key : ObjectKey) (apps : List ModelSummary) (s : Operator) : Option Operator :=
  match s.cluster.config key with
  | some config =>
    if ∀ app ∈ apps, app.deployedVersion.isSome → (config.spec.lattice, app.name) ∈ s.deployed then
      some { s with listings := s.listings ++ [⟨config, apps, false⟩] }
    else none
  | none => none

def watch (k : Nat) (client : NatsClient) (created : Bool) (s : Operator) : Option Operator :=
  match s.listings[k]? with
  | some ⟨config, apps, false⟩ =>
    if s.serviceWatcher.passes.isEmpty then
      match s.serviceWatcher.watch client config.ns config.spec.lattice created with
      | (sw, true) => some
          { s with serviceWatcher := sw, listings := s.listings.set k ⟨config, apps, true⟩ }
      | (sw, false) => some { s with serviceWatcher := sw, listings := s.listings.eraseIdx k }
    else none
  | _ => none

def reconcileServices (k : Nat) (s : Operator) : Option Operator :=
  match s.listings[k]? with
  | some ⟨config, apps, true⟩ => some
      { s with
        serviceWatcher := s.serviceWatcher.reconcileServices apps config.spec.lattice
        listings := s.listings.eraseIdx k }
  | _ => none

def nextApp (j : Nat) (manifest : Option Manifest) (s : Operator) : Option Operator :=
  match s.serviceWatcher.passes[j]? with
  | some ⟨_, app :: _⟩ =>
    if ∀ m ∈ manifest, m.name = app.name then
      (s.serviceWatcher.nextApp j manifest).map fun sw => { s with serviceWatcher := sw }
    else none
  | _ => (s.serviceWatcher.nextApp j manifest).map fun sw => { s with serviceWatcher := sw }

/-- The finalizer of the config is taken away, and the config with it, once `cleanup`
returned `Ok`. -/
def cleanup (key : ObjectKey) (s : Operator) : Option Operator :=
  match s.cluster.config key with
  | some config =>
    if s.serviceWatcher.passes.isEmpty then
      match s.serviceWatcher.stopWatch config.spec.lattice config.ns with
      | (sw, true) =>
        let cluster := s.cluster.removeConfig key
        some { s with
          serviceWatcher := sw
          cluster := cluster
          history := s.history.recordCleanup cluster config }
      | (sw, false) => some { s with serviceWatcher := sw }
    else none
  | none => none

section

variable (api : ApiServer)

def exec (order : List String) (fails : ApiCall → Bool) (s : Operator) : Option Operator :=
  match s.serviceWatcher.recv with
  | some (q, sw) =>
    if IterationOf order q.cmd.namespaces then
      let o := Commands.runCommand api fails order q.cmd s.cluster
      some { s with
        serviceWatcher := sw
        cluster := o.cluster
        history := s.history.recordExec order q o.effects }
    else none
  | none => none

def step (s : Operator) : Label → Option Operator
  | .next i item => (s.serviceWatcher.next i item).map fun sw => { s with serviceWatcher := sw }
  | .handle i => s.handle i
  | .settle i => s.settle i
  | .observeCancel i =>
    (s.serviceWatcher.observeCancel i).map fun sw => { s with serviceWatcher := sw }
  | .listApps key apps => s.listApps key apps
  | .watch k client created => s.watch k client created
  | .reconcileServices k => s.reconcileServices k
  | .abort k => some { s with listings := s.listings.eraseIdx k }
  | .nextApp j manifest => s.nextApp j manifest
  | .configureService key =>
    (s.cluster.config key).map fun config =>
      { s with cluster := s.cluster.configureService api config }
  | .cleanup key => s.cleanup key
  | .exec order fails => s.exec api order fails
  | .restart => some { s with serviceWatcher := {}, listings := [] }
  | .editConfigs configs =>
    let cluster := { s.cluster with configs := configs }
    some { s with cluster := cluster, history := s.history.recordConfigs cluster }
  | .editPods pods => some { s with cluster := { s.cluster with pods := pods } }
  | .deploy latticeId app => some { s with deployed := insert (latticeId, app) s.deployed }
  | .undeploy latticeId app => some { s with deployed := s.deployed.erase (latticeId, app) }

end

def idleReconcile (key : ObjectKey) : List Label :=
  [.listApps key [], .watch 0 .sample true, .reconcileServices 0, .nextApp 0 none]

def deliver (i seq : Nat) (evt : Event) : List Label :=
  [.next i (.message ⟨seq, .event evt⟩), .handle i]

def publishApp (key : ObjectKey) : List Label :=
  idleReconcile key ++
    deliver 0 0 (.manifestPublished (Manifest.httpApp "app" "0.0.0.0:8080")) ++
    [.settle 0, .exec [key.1] fun _ => false]

def oneConfig : Cluster := { configs := [.sample "a" "lattice-a" none] }

def reach (s : Operator) (ls : List Label) : Operator :=
  (Transition.exec (step .basic) s ls).getD s

theorem reach_run {s : Operator} {ls : List Label}
    (h : (Transition.exec (step .basic) s ls).isSome = true) :
    Transition.Run (step .basic) s ls (reach s ls) := by
  obtain ⟨u, hu⟩ := Option.isSome_iff_exists.mp h
  rw [reach, hu]
  exact Transition.run_of_exec hu

abbrev queue (s : Operator) : List Sent := s.serviceWatcher.channel.queue

end Operator
end WadmOperator

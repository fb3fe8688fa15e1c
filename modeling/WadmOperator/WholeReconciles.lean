import WadmOperator.CommandQueue
import WadmOperator.Foundation.Simulation
import WadmOperator.ReconcileFrames
import WadmOperator.TaskLifetime

/-!
# Whole reconciles among the operator's steps

`reconcile_crd` as one procedure on the context, and the same reconcile as the steps that
the operator interleaves with events, commands and cleanups: the host Service, the answer
of `list_apps`, the watch, and the pass with one step for each application. A run of whole
reconciles, cleanups and edits is a run of those steps.
-/

namespace WadmOperator

open Transition Procedure

namespace ServiceWatcher

theorem reconcileApp_passes (s : ServiceWatcher) (latticeId : String) (app : ModelSummary)
    (manifest : Option Manifest) :
    (s.reconcileApp latticeId app manifest).passes = s.passes := by
  rcases reconcileApp_cases s latticeId app manifest with heq | ⟨-, -, cmd, -, -, -, -, heq⟩
  · rw [heq]
  · rw [heq]
    exact (send_frame s _).2.2.2

theorem reconcileApp_withPasses (s : ServiceWatcher) (latticeId : String) (app : ModelSummary)
    (manifest : Option Manifest) (passes : List Pass) :
    { s with passes := passes }.reconcileApp latticeId app manifest =
      { s.reconcileApp latticeId app manifest with passes := passes } := by
  unfold reconcileApp
  split
  · next w _ m hw hversion =>
    simp only at hw
    simp only [hw, hversion]
    split
    · unfold send
      simp only
      split <;> rfl
    · rfl
  · rfl

end ServiceWatcher

namespace Controller

theorem reconcileApps_passes (latticeId : String) (apps : List (ModelSummary × Option Manifest))
    (s : ServiceWatcher) : (reconcileApps latticeId apps s).passes = s.passes := by
  induction apps generalizing s with
  | nil => rfl
  | cons app apps ih =>
    obtain ⟨app, manifest⟩ := app
    rw [reconcileApps, ih, ServiceWatcher.reconcileApp_passes]

theorem reconcileApps_withPasses (latticeId : String)
    (apps : List (ModelSummary × Option Manifest)) (s : ServiceWatcher) (passes : List Pass) :
    reconcileApps latticeId apps { s with passes := passes } =
      { reconcileApps latticeId apps s with passes := passes } := by
  induction apps generalizing s with
  | nil => rfl
  | cons app apps ih =>
    obtain ⟨app, manifest⟩ := app
    rw [reconcileApps, reconcileApps, ServiceWatcher.reconcileApp_withPasses, ih]

end Controller

namespace Operator

variable {api : ApiServer} {s : Operator} {latticeId : String}

/-- The steps that reconciles, cleanups and edits are made of. -/
def Label.OfProcedures : Label → Prop
  | .configureService _ | .listApps _ _ | .watch _ _ _ | .reconcileServices _ | .nextApp _ _
  | .cleanup _ | .deploy _ _ | .editConfigs _ => True
  | _ => False

def passSteps (apps : List (ModelSummary × Option Manifest)) : List Label :=
  apps.map (fun app => .nextApp 0 app.2) ++ [.nextApp 0 none]

theorem run_pass (api : ApiServer) (latticeId : String)
    {apps : List (ModelSummary × Option Manifest)} (hnames : ∀ app ∈ apps, ∀ m ∈ app.2,
      m.name = app.1.name) (s : Operator)
    (hpasses : s.serviceWatcher.passes = [⟨latticeId, apps.map Prod.fst⟩]) :
    Run (step api) s (passSteps apps) { s with serviceWatcher :=
      { Controller.reconcileApps latticeId apps s.serviceWatcher with passes := [] } } := by
  induction apps generalizing s with
  | nil =>
    refine .single ?_
    simp [step, nextApp, ServiceWatcher.nextApp, hpasses, Controller.reconcileApps]
  | cons app apps ih =>
    obtain ⟨app, manifest⟩ := app
    have hname : ∀ m ∈ manifest, m.name = app.name := hnames (app, manifest) List.mem_cons_self
    let sent := s.serviceWatcher.reconcileApp latticeId app manifest
    let next : Operator := { s with serviceWatcher :=
      { sent with passes := [⟨latticeId, apps.map Prod.fst⟩] } }
    have hstep : step api s (.nextApp 0 manifest) = some next := by
      simpa [step, nextApp, ServiceWatcher.nextApp, hpasses, next, sent] using hname
    have hrest := ih (fun app happ => hnames app (List.mem_cons_of_mem _ happ)) next rfl
    have hsame : Controller.reconcileApps latticeId apps next.serviceWatcher =
        { Controller.reconcileApps latticeId ((app, manifest) :: apps) s.serviceWatcher with
          passes := [⟨latticeId, apps.map Prod.fst⟩] } :=
      Controller.reconcileApps_withPasses latticeId apps sent _
    rw [hsame] at hrest
    exact .cons hstep hrest

theorem run_deploy (api : ApiServer) (latticeId : String) (names : List String) (s : Operator) :
    ∃ deployed, Run (step api) s (names.map (.deploy latticeId)) { s with deployed := deployed } ∧
      s.deployed ⊆ deployed ∧ ∀ name ∈ names, (latticeId, name) ∈ deployed := by
  induction names generalizing s with
  | nil => exact ⟨s.deployed, .nil s, Finset.Subset.refl _, by simp⟩
  | cons name names ih =>
    obtain ⟨deployed, hrun, hsub, hall⟩ :=
      ih { s with deployed := insert (latticeId, name) s.deployed }
    refine ⟨deployed, .cons rfl hrun, (Finset.subset_insert _ _).trans hsub, fun other hother => ?_⟩
    rcases List.mem_cons.mp hother with rfl | hother
    · exact hsub (Finset.mem_insert_self _ _)
    · exact hall other hother

theorem run_listing (api : ApiServer) {key : ObjectKey} {config : WasmCloudHostConfig}
    {apps : List ModelSummary} {client : NatsClient} {sw : ServiceWatcher} (s : Operator)
    (hconfig : s.cluster.config key = some config) (hpasses : s.serviceWatcher.passes = [])
    (hdeployed : ∀ app ∈ apps, app.deployedVersion.isSome →
      (config.spec.lattice, app.name) ∈ s.deployed)
    (hwatch : s.serviceWatcher.watch client config.ns config.spec.lattice true = (sw, true)) :
    Run (step api) s [.listApps key apps, .watch s.listings.length client true,
        .reconcileServices s.listings.length]
      { s with serviceWatcher := { sw with passes := [⟨config.spec.lattice, apps⟩] } } := by
  let listed (watched : Bool) : List Listing := s.listings ++ [⟨config, apps, watched⟩]
  have hlist : step api s (.listApps key apps) = some { s with listings := listed false } := by
    simp only [step, listApps, hconfig, if_pos hdeployed, listed]
  have hwatched : step api { s with listings := listed false }
      (.watch s.listings.length client true) =
        some { s with serviceWatcher := sw, listings := listed true } := by
    simp [step, watch, listed, hpasses, hwatch]
  have hentry : (sw.watchers.get? config.spec.lattice).isSome := by
    have hok := congrArg Prod.snd hwatch
    have hwatcher := congrArg Prod.fst hwatch
    rw [← show _ = sw from hwatcher]
    exact ServiceWatcher.watch_ok_isSome hok
  have hstill : sw.passes = [] := by
    rw [← show _ = sw from congrArg Prod.fst hwatch, ServiceWatcher.watch_passes, hpasses]
  obtain ⟨w, hw⟩ := Option.isSome_iff_exists.mp hentry
  have hpass : step api { s with serviceWatcher := sw, listings := listed true }
      (.reconcileServices s.listings.length) = some { s with serviceWatcher :=
        { sw with passes := [⟨config.spec.lattice, apps⟩] } } := by
    simp [step, reconcileServices, ServiceWatcher.reconcileServices, listed, hw, hstill,
      List.eraseIdx_append_of_length_le]
  exact .cons hlist (.cons hwatched (.single hpass))

end Operator

namespace Reconcile

variable {lib : Libraries} {answers : Answers} {key : ObjectKey} {s u : Context} {o : Operator}

/-- The operator has the service watcher, the Services and the configs of the context, and
no pass is under way. -/
structure Related (s : Context) (o : Operator) : Prop where
  watcher : o.serviceWatcher = s.serviceWatcher
  still : s.serviceWatcher.passes = []
  services : ∀ key, o.cluster.service key = (s.services.get? key).map Subtype.val
  configs : ∀ key, o.cluster.config key =
    ((s.objects .hostConfig).get? key).map fun stored => (configOf key stored).base

def hostServiceAt (lib : Libraries) (config : HostConfig) (s : Context) : StoredService :=
  lib.api.applyHostService (s.services.get? config.key) (Cluster.hostService config.base)

theorem services_configureService {config : HostConfig}
    (h : configureService lib answers config s = (.ok (), u)) :
    u.services = s.services.put config.key (hostServiceAt lib config s) := by
  unfold configureService ReconcileM.applyService at h
  split at h
  · cases (Prod.mk.inj h).1
  · exact congrArg Context.services (Prod.mk.inj h).2.symm

theorem services_prepare {prepared : HostConfig × Secrets × PodTemplateSpec}
    (h : prepare lib answers key s = (.ok prepared, u)) :
    ∃ stored, (s.objects .hostConfig).get? key = some stored ∧ prepared.1 = configOf key stored ∧
      u.services = s.services.put key (hostServiceAt lib (configOf key stored) s) := by
  have keeps {α : Type} {x : ReconcileM α} (hx : Keeps Context.services x) {s t : Context} {a : α}
      (hs : x s = (.ok a, t)) : t.services = s.services := by
    have ht := hx s
    rwa [hs] at ht
  obtain ⟨stored, t, hget, hconfig⟩ := bind_eq_ok h
  obtain ⟨secrets, t₁, hsecrets, hobjects⟩ := bind_eq_ok hconfig
  obtain ⟨⟨⟩, t₂, hmap, hrest⟩ := bind_eq_ok hobjects
  obtain ⟨⟨⟩, t₃, hauth, hrest⟩ := bind_eq_ok hrest
  obtain ⟨template, t₄, hhosts, hrest⟩ := bind_eq_ok hrest
  obtain ⟨⟨⟩, t₅, hservice, hpure⟩ := bind_eq_ok hrest
  obtain ⟨rfl, hend⟩ := pure_eq_ok hpure
  obtain ⟨hsame, hstored⟩ := ReconcileM.getObject_ok hget
  have hkeep : t₄.services = s.services := by
    rw [← hsame, keeps (keeps_configureHosts (fun _ _ => rfl) fun _ _ => rfl) hhosts,
      keeps (.bind (keeps_applyObject _ _ _ fun _ _ => rfl) fun _ =>
        .bind (keeps_applyObject _ _ _ fun _ _ => rfl) fun _ =>
          keeps_applyObject _ _ _ fun _ _ => rfl) hauth,
      keeps (keeps_applyObject _ _ _ fun _ _ => rfl) hmap,
      keeps (keeps_readSecrets (fun _ _ => rfl) _) hsecrets]
  refine ⟨stored, hstored, rfl, ?_⟩
  rw [hend, services_configureService hservice, hostServiceAt, hostServiceAt, hkeep]
  rfl

theorem services_reconcileCrd {r : Reconciled} (h : reconcileCrd lib answers key s = (.ok r, u)) :
    u.services = s.services.put key (hostServiceAt lib r.config s) := by
  obtain ⟨found, hfound, hconfig⟩ := (reconcileCrd_ok h).config
  rw [reconcileCrd_eq] at h
  obtain ⟨prepared, t, hprepared, hconclude⟩ := bind_eq_ok h
  obtain ⟨stored, hstored, -, hservices⟩ := services_prepare hprepared
  have hkept := (Prod.mk.inj (conclude_keeps answers prepared t)).2
  rw [hconclude] at hkept
  rw [show u.services = t.services from hkept, hservices, hconfig,
    Option.some.inj (hfound.symm.trans hstored)]

theorem service_configureService {config : HostConfig} (hR : Related s o) (other : ObjectKey) :
    (o.cluster.configureService lib.api.toApiServer config.base).service other =
      ((s.services.put config.key (hostServiceAt lib config s)).get? other).map Subtype.val := by
  have hstored := lib.api.applied_settled (s.services.get? config.key)
    (Cluster.hostService config.base)
  have hcurrent : o.cluster.service (config.base.ns, config.base.name) =
      (s.services.get? config.key).map Subtype.val := hR.services config.key
  have hkey : (config.base.ns, config.base.name) = config.key := rfl
  rw [Cluster.configureService, Cluster.service_writeService, hcurrent, Dict.get?_put, hkey]
  by_cases hother : other = config.key
  · rw [if_pos hother, if_pos hother]
    exact hstored
  · rw [if_neg hother, if_neg hother]
    exact hR.services other

theorem config_configureService (api : ApiServer) (config : WasmCloudHostConfig) (c : Cluster)
    (other : ObjectKey) : (c.configureService api config).config other = c.config other := by
  unfold Cluster.configureService
  generalize api.applyService CLUSTER_CONFIG_FINALIZER false _ _ = svc
  simp only
  unfold Cluster.writeService
  split <;> rfl

theorem watched_reconcileCrd {client : NatsClient} {ns latticeId : String}
    {apps : List (ModelSummary × Option Manifest)} {sw sw' : ServiceWatcher}
    (h : Controller.reconcileCrd client ns latticeId apps sw = (sw', true)) :
    ∃ watched, sw.watch client ns latticeId true = (watched, true) ∧
      sw' = Controller.reconcileApps latticeId apps watched := by
  unfold Controller.reconcileCrd at h
  simp only at h
  split_ifs at h with hok
  · exact ⟨_, Prod.ext rfl hok, (Prod.mk.inj h).1.symm⟩
  · cases (Prod.mk.inj h).2

def NamesAnswered (answers : Answers) : Prop :=
  ∀ client latticeId name version m,
    answers.nats.getManifest client latticeId name version = .ok m → m.name = name

theorem fetchManifests_apps (answers : Answers) (latticeId : String) (apps : List AppSummary)
    (sw : ServiceWatcher) : (fetchManifests answers latticeId apps sw).map Prod.fst =
      apps.map AppSummary.toModelSummary := by
  simp [fetchManifests]

theorem fetchManifests_names (hnames : NamesAnswered answers) (latticeId : String)
    (apps : List AppSummary) (sw : ServiceWatcher) :
    ∀ app ∈ fetchManifests answers latticeId apps sw, ∀ m ∈ app.2, m.name = app.1.name := by
  intro app happ m hm
  obtain ⟨summary, -, rfl⟩ := List.mem_map.mp happ
  obtain ⟨stored, hstored, rfl⟩ := Option.map_eq_some_iff.mp hm
  obtain ⟨w, -, hanswer⟩ := Option.bind_eq_some_iff.mp hstored
  refine hnames w.natsClient latticeId summary.name summary.deployedVersion stored ?_
  cases hget : answers.nats.getManifest w.natsClient latticeId summary.name
      summary.deployedVersion with
  | error e =>
    rw [hget] at hanswer
    cases hanswer
  | ok m =>
    rw [hget] at hanswer
    rw [Option.some.inj hanswer]

def listedBy (lib : Libraries) (config : HostConfig) (apps : List AppSummary)
    (deployed : Finset (String × String)) (watched : ServiceWatcher) (o : Operator) : Operator :=
  { o with
    cluster := o.cluster.configureService lib.api.toApiServer config.base
    deployed := deployed
    serviceWatcher := { watched with
      passes := [⟨config.spec.lattice, apps.map AppSummary.toModelSummary⟩] } }

abbrev FollowedBy (lib : Libraries) (o : Operator) (u : Context) : Prop :=
  CatchesUp (Operator.step lib.api.toApiServer) Related Operator.Label.OfProcedures o u

theorem run_untilListed {config : HostConfig} {stored : StoredConfig} (hR : Related s o)
    (hstored : (s.objects .hostConfig).get? key = some stored)
    (hconfig : config = configOf key stored) (apps : List AppSummary) {client : NatsClient}
    {watched : ServiceWatcher}
    (hwatch : s.serviceWatcher.watch client key.1 config.spec.lattice true = (watched, true)) :
    ∃ ms deployed, Run (Operator.step lib.api.toApiServer) o ms
      (listedBy lib config apps deployed watched o) ∧ ∀ m ∈ ms, m.OfProcedures := by
  have hlookup : o.cluster.config key = some config.base := by
    rw [hR.configs, hstored, hconfig]
    rfl
  let served : Operator :=
    { o with cluster := o.cluster.configureService lib.api.toApiServer config.base }
  have hserved : Operator.step lib.api.toApiServer o (.configureService key) = some served := by
    simp only [Operator.step, hlookup, Option.map_some, served]
  obtain ⟨deployed, hdeploy, -, hdeployed⟩ := Operator.run_deploy lib.api.toApiServer
    config.spec.lattice (apps.map fun app => app.name) served
  have hfound : served.cluster.config key = some config.base :=
    (config_configureService _ _ _ _).trans hlookup
  have hstill : served.serviceWatcher.passes = [] := by
    rw [show served.serviceWatcher = s.serviceWatcher from hR.watcher]
    exact hR.still
  have hwatched : served.serviceWatcher.watch client config.base.ns config.base.spec.lattice true =
      (watched, true) := by
    rw [show served.serviceWatcher = s.serviceWatcher from hR.watcher]
    rw [hconfig] at hwatch ⊢
    exact hwatch
  have happs : ∀ app ∈ apps.map AppSummary.toModelSummary, app.deployedVersion.isSome →
      (config.base.spec.lattice, app.name) ∈ deployed := by
    intro app happ _
    obtain ⟨summary, hsummary, rfl⟩ := List.mem_map.mp happ
    exact hdeployed _ (List.mem_map_of_mem hsummary)
  have hlisting := Operator.run_listing lib.api.toApiServer { served with deployed := deployed }
    hfound hstill happs hwatched
  refine ⟨_, deployed, (Run.single hserved).append (hdeploy.append hlisting), fun m hm => ?_⟩
  simp only [List.mem_append, List.mem_cons, List.mem_map, List.not_mem_nil, or_false] at hm
  rcases hm with rfl | ⟨name, -, rfl⟩ | rfl | rfl | rfl <;> trivial

theorem run_reconcile (hR : Related s o) (hnames : NamesAnswered answers) {r : Reconciled}
    (h : reconcileCrd lib answers key s = (.ok r, u)) :
    FollowedBy lib o u := by
  have hdone := reconcileCrd_ok h
  obtain ⟨stored, hstored, hconfig⟩ := hdone.config
  obtain ⟨watched, hwatch, hsw⟩ := watched_reconcileCrd hdone.watcher
  obtain ⟨ms, deployed, hlisted, hms⟩ :=
    @run_untilListed lib key s o r.config stored hR hstored hconfig r.apps r.client watched hwatch
  rw [hwatch] at hsw
  have hpasses : (listedBy lib r.config r.apps deployed watched o).serviceWatcher.passes =
      [⟨r.config.spec.lattice,
        (fetchManifests answers r.config.spec.lattice r.apps watched).map Prod.fst⟩] := by
    rw [fetchManifests_apps]
    rfl
  have hpass := Operator.run_pass lib.api.toApiServer r.config.spec.lattice
    (fetchManifests_names hnames r.config.spec.lattice r.apps watched) _ hpasses
  have hstill : u.serviceWatcher.passes = [] := by
    rw [hsw, Controller.reconcileApps_passes, ← show _ = watched from congrArg Prod.fst hwatch,
      ServiceWatcher.watch_passes]
    exact hR.still
  have hlabels : ∀ m ∈ ms ++ Operator.passSteps
      (fetchManifests answers r.config.spec.lattice r.apps watched), m.OfProcedures := by
    intro m hm
    rcases List.mem_append.mp hm with hm | hm
    · exact hms m hm
    · simp only [Operator.passSteps, List.mem_append, List.mem_map, List.mem_singleton] at hm
      rcases hm with ⟨app, -, rfl⟩ | rfl <;> trivial
  refine ⟨_, _, hlisted.append hpass, hlabels, ?_, hstill, fun other => ?_, fun other => ?_⟩
  · simp only [listedBy, Controller.reconcileApps_withPasses, ← hsw, ← hstill]
  · have hkey : r.config.key = key := by rw [hconfig]; rfl
    rw [services_reconcileCrd h, ← hkey]
    exact service_configureService hR other
  · rw [hdone.inputs .hostConfig (.inl rfl)]
    exact (config_configureService _ _ _ _).trans (hR.configs other)

def configsOf (configs : Dict ObjectKey StoredConfig) : List WasmCloudHostConfig :=
  configs.toPairs.map fun e => (configOf e.1 e.2).base

theorem find?_toPairs (configs : Dict ObjectKey StoredConfig) (key : ObjectKey) :
    (configs.toPairs.find? fun e => e.1.1 = key.1 && e.1.2 = key.2) =
      (configs.get? key).map fun stored => (key, stored) := by
  cases hfind : configs.toPairs.find? fun e => e.1.1 = key.1 && e.1.2 = key.2 with
  | some e =>
    have hkey := List.find?_some hfind
    simp only [Bool.and_eq_true, decide_eq_true_eq] at hkey
    obtain rfl : e.1 = key := Prod.ext hkey.1 hkey.2
    rw [Dict.mem_toPairs.mp (List.mem_of_find?_eq_some hfind)]
    rfl
  | none =>
    cases hget : configs.get? key with
    | none => rfl
    | some stored =>
      have hnone := List.find?_eq_none.mp hfind _ (Dict.mem_toPairs.mpr hget)
      simp at hnone

theorem config_configsOf {c : Cluster} {configs : Dict ObjectKey StoredConfig}
    (hconfigs : c.configs = configsOf configs) (key : ObjectKey) :
    c.config key = (configs.get? key).map fun stored => (configOf key stored).base := by
  rw [Cluster.config, hconfigs, configsOf, List.find?_map]
  refine (congrArg (Option.map _) (find?_toPairs configs key)).trans ?_
  rw [Option.map_map]
  rfl

theorem cleanup_cases (h : step lib s (.cleanup key) = some u) :
    ∃ stored, (s.objects .hostConfig).get? key = some stored ∧
      cleanup (configOf key stored) s = (u, true) := by
  simp only [step] at h
  split at h
  · next stored hstored =>
    split at h
    · next hdone =>
      obtain rfl := Option.some.inj h
      exact ⟨stored, hstored, hdone⟩
    · cases h
  · cases h

/-- The operator drops the config with the cleanup; here it is still stored, as one that
was put back. -/
theorem run_cleanup (hR : Related s o) (h : step lib s (.cleanup key) = some u) :
    FollowedBy lib o u := by
  obtain ⟨stored, hstored, hdone⟩ := cleanup_cases h
  obtain ⟨rfl, hok⟩ := Prod.mk.inj hdone
  have hlookup : o.cluster.config key = some (configOf key stored).base := by
    rw [hR.configs, hstored]
    rfl
  let stopped := s.serviceWatcher.stopWatch stored.spec.lattice key.1
  have hstop : o.serviceWatcher.stopWatch (configOf key stored).base.spec.lattice
      (configOf key stored).base.ns = (stopped.1, true) := by
    rw [hR.watcher]
    exact Prod.ext rfl hok
  have hstill : o.serviceWatcher.passes.isEmpty = true := by
    rw [hR.watcher, hR.still]
    rfl
  let removed : Operator := { o with
    serviceWatcher := stopped.1
    cluster := o.cluster.removeConfig key
    history := o.history.recordCleanup (o.cluster.removeConfig key) (configOf key stored).base }
  have hremoved : Operator.step lib.api.toApiServer o (.cleanup key) = some removed := by
    simp only [Operator.step, Operator.cleanup, hlookup, hstill, hstop, if_true, removed]
  have hedit : Operator.step lib.api.toApiServer removed
      (.editConfigs (configsOf (s.objects .hostConfig))) = some _ := rfl
  refine ⟨_, _, .cons hremoved (.single hedit), by simp [Operator.Label.OfProcedures], rfl, ?_,
    hR.services, config_configsOf rfl⟩
  exact (ServiceWatcher.stopWatch_passes _ _ _).trans hR.still

theorem run_edited (hR : Related s o) (kind : ObjectKind) (key : ObjectKey)
    (x : Option (Obj kind)) : FollowedBy lib o (edited s kind key x) := by
  let configs := (edited s kind key x).objects .hostConfig
  have hedit : Operator.step lib.api.toApiServer o (.editConfigs (configsOf configs)) =
      some { o with
        cluster := { o.cluster with configs := configsOf configs }
        history := o.history.recordConfigs { o.cluster with configs := configsOf configs } } := rfl
  refine ⟨_, _, .single hedit, by simp [Operator.Label.OfProcedures], ?_, ?_, ?_,
    config_configsOf rfl⟩
  · cases x <;> exact hR.watcher
  · cases x <;> exact hR.still
  · cases x <;> exact hR.services

def Answered (l : Label) : Prop :=
  ∀ key answers, l = .reconcile key answers → NamesAnswered answers

theorem simulates_operator (lib : Libraries) :
    Simulates (step lib) (Operator.step lib.api.toApiServer) Related Answered
      Operator.Label.OfProcedures := by
  intro s l u o hR hl hstep
  cases l with
  | reconcile key answers =>
    obtain ⟨r, hr⟩ := step_reconcile hstep
    exact run_reconcile hR (hl key answers rfl) hr
  | cleanup key => exact run_cleanup hR hstep
  | edit kind key x =>
    obtain rfl := Option.some.inj hstep
    exact run_edited hR kind key x

/-- Any run of successful reconciles, cleanups and edits is a run of the operator's own
steps, in which events and commands may come between. -/
theorem run_interleaved (lib : Libraries) {ls : List Label} (hrun : Run (step lib) s ls u)
    (hanswered : ∀ l ∈ ls, Answered l) (hR : Related s o) :
    ∃ ms v, Run (Operator.step lib.api.toApiServer) o ms v ∧ (∀ m ∈ ms, m.OfProcedures) ∧
      Related u v :=
  (simulates_operator lib).run hrun hanswered hR

def asOperator (s : Context) : Operator :=
  { serviceWatcher := s.serviceWatcher
    cluster :=
      { services := Dict.empty.extend (s.services.toPairs.map fun e => (e.1, e.2.1))
        configs := configsOf (s.objects .hostConfig) } }

theorem related_asOperator (hstill : s.serviceWatcher.passes = []) : Related s (asOperator s) where
  watcher := rfl
  still := hstill
  services key := by
    have hvalue := Dict.lastValue_map Function.injective_id Subtype.val key s.services.toPairs
    rw [Cluster.service, asOperator, Dict.get?_extend_lastValue, Dict.get?_empty, Option.or_none]
    exact hvalue.trans (congrArg _ (Dict.lastValue_toPairs s.services key))
  configs := config_configsOf rfl

def helloAnswers : Answers where
  nats :=
    { listManifests := fun _ _ => .ok
        [{ name := "hello", version := "v1", deployedVersion := some "v1", status := .deployed }]
      getManifest := fun _ _ name _ => .ok { Manifest.httpApp name "0.0.0.0:8080" with } }

theorem helloAnswers_names : NamesAnswered helloAnswers := by
  intro client latticeId name version m hm
  cases hm
  rfl

def sharedThenCleaned : List Label :=
  [.reconcile ("default", "host") helloAnswers, .reconcile ("default", "other") helloAnswers,
    .cleanup ("default", "host"), .edit .hostConfig ("default", "host") none]

theorem sharedThenCleaned_answered : ∀ l ∈ sharedThenCleaned, Answered l := by
  intro l hl key answers heq
  simp only [sharedThenCleaned, List.mem_cons, List.not_mem_nil, or_false] at hl
  rcases hl with rfl | rfl | rfl | rfl <;> cases heq <;> exact helloAnswers_names

/-- Both passes send an upsert, and the cleanup sends the removal. -/
theorem sharedThenCleaned_sends :
    (exec (step .sample) sharingConfigs sharedThenCleaned).any
      (fun u => u.serviceWatcher.channel.queue.length = 3) = true := by decide +kernel

theorem run_interleaved_cleaned : ∃ u ms v,
    Run (step .sample) sharingConfigs sharedThenCleaned u ∧
      u.serviceWatcher.channel.queue.length = 3 ∧
        Run (Operator.step ApiServer.basic) (asOperator sharingConfigs) ms v ∧ Related u v := by
  obtain ⟨u, hu, hsent⟩ := (Option.any_eq_true _ _).mp sharedThenCleaned_sends
  have hrun := run_of_exec hu
  obtain ⟨ms, v, hsteps, -, hv⟩ :=
    run_interleaved .sample hrun sharedThenCleaned_answered (related_asOperator rfl)
  exact ⟨u, ms, v, hrun, of_decide_eq_true hsent, hsteps, hv⟩

end Reconcile

namespace Operator

variable {api : ApiServer} {s u : Operator} {key : ObjectKey}

theorem listApps_watcher {apps : List ModelSummary} (h : s.listApps key apps = some u) :
    u.serviceWatcher = s.serviceWatcher := by
  unfold listApps at h
  split at h
  · split_ifs at h
    rw [← Option.some.inj h]
  · cases h

theorem watch_watcher {k : Nat} {client : NatsClient} {created : Bool}
    (h : s.watch k client created = some u) :
    ∃ config : WasmCloudHostConfig, s.serviceWatcher.passes.isEmpty = true ∧ u.serviceWatcher =
      (s.serviceWatcher.watch client config.ns config.spec.lattice created).1 := by
  obtain ⟨config, apps, hk, hsw, -⟩ := watch_cases h
  refine ⟨config, ?_, hsw⟩
  simp only [watch, hk] at h
  split_ifs at h with hempty
  · exact hempty

theorem reconcileServices_watcher {k : Nat} (h : s.reconcileServices k = some u) :
    ∃ (config : WasmCloudHostConfig) (apps : List ModelSummary), u.serviceWatcher =
      s.serviceWatcher.reconcileServices apps config.spec.lattice := by
  unfold reconcileServices at h
  split at h
  · next config apps hk =>
    refine ⟨config, apps, ?_⟩
    rw [← Option.some.inj h]
  · cases h

theorem nextApp_watcher {j : Nat} {manifest : Option Manifest} (h : s.nextApp j manifest = some u) :
    s.serviceWatcher.nextApp j manifest = some u.serviceWatcher := by
  have hmap : (s.serviceWatcher.nextApp j manifest).map
      (fun sw => { s with serviceWatcher := sw }) = some u := by
    unfold nextApp at h
    split at h
    · split_ifs at h
      exact h
    · exact h
  obtain ⟨sw, hsw, rfl⟩ := Option.map_eq_some_iff.mp hmap
  exact hsw

theorem cleanup_watcher (h : s.cleanup key = some u) :
    ∃ config : WasmCloudHostConfig, s.serviceWatcher.passes.isEmpty = true ∧ u.serviceWatcher =
      (s.serviceWatcher.stopWatch config.spec.lattice config.ns).1 := by
  unfold cleanup at h
  split at h
  · next config hconfig =>
    split_ifs at h with hempty
    refine ⟨config, hempty, ?_⟩
    split at h
    · next sw hsw =>
      rw [← Option.some.inj h, hsw]
    · next sw hsw =>
      rw [← Option.some.inj h, hsw]
  · cases h

/-- Seen from the service watcher, each step of the operator is one of its own steps or none. -/
theorem simulates_serviceWatcher (api : ApiServer) :
    Simulates (step api) ServiceWatcher.step (fun o sw => o.serviceWatcher = sw)
      (fun l => l ≠ .restart) fun _ => True := by
  intro s l u sw hsw hl hstep
  subst hsw
  have hone : ∀ l', ServiceWatcher.step s.serviceWatcher l' = some u.serviceWatcher →
      CatchesUp ServiceWatcher.step (fun o sw => o.serviceWatcher = sw) (fun _ => True)
        s.serviceWatcher u := fun l' hl' => ⟨[l'], _, .single hl', by simp, rfl⟩
  have hnone : u.serviceWatcher = s.serviceWatcher →
      CatchesUp ServiceWatcher.step (fun o sw => o.serviceWatcher = sw) (fun _ => True)
        s.serviceWatcher u := fun hsame => .refl hsame
  cases l with
  | next i item =>
    obtain ⟨sw, hsw, rfl⟩ := Option.map_eq_some_iff.mp hstep
    exact hone (.next i item) hsw
  | handle i =>
    obtain ⟨sw, hsw, rfl⟩ := Option.map_eq_some_iff.mp hstep
    exact hone (.handle i) hsw
  | settle i =>
    obtain ⟨sw, hsw, rfl⟩ := Option.map_eq_some_iff.mp hstep
    exact hone (.settle i) hsw
  | observeCancel i =>
    obtain ⟨sw, hsw, rfl⟩ := Option.map_eq_some_iff.mp hstep
    exact hone (.observeCancel i) hsw
  | listApps key apps => exact hnone (listApps_watcher hstep)
  | watch k client created =>
    obtain ⟨config, hempty, hsw⟩ := watch_watcher hstep
    refine hone (.watch client config.ns config.spec.lattice created) ?_
    rw [ServiceWatcher.step, if_pos hempty, hsw]
  | reconcileServices k =>
    obtain ⟨config, apps, hsw⟩ := reconcileServices_watcher hstep
    exact hone (.reconcileServices apps config.spec.lattice) (congrArg some hsw.symm)
  | abort k =>
    obtain rfl := Option.some.inj hstep
    exact hnone rfl
  | nextApp j manifest => exact hone (.nextApp j manifest) (nextApp_watcher hstep)
  | configureService key =>
    obtain ⟨config, -, rfl⟩ := Option.map_eq_some_iff.mp hstep
    exact hnone rfl
  | cleanup key =>
    obtain ⟨config, hempty, hsw⟩ := cleanup_watcher hstep
    refine hone (.stopWatch config.spec.lattice config.ns) ?_
    rw [ServiceWatcher.step, if_pos hempty, hsw]
  | exec order fails =>
    obtain ⟨q, sw, hrecv, -, rfl⟩ := exec_cases hstep
    refine hone .recv ?_
    rw [ServiceWatcher.step, hrecv]
    rfl
  | restart => exact absurd rfl hl
  | editConfigs configs | editPods pods | deploy latticeId app | undeploy latticeId app =>
    obtain rfl := Option.some.inj hstep
    exact hnone rfl

end Operator

namespace Reconcile

variable {s u : Context}

/-- What whole reconciles, cleanups and edits do to the service watcher is a run of its own
steps: watches, passes with one application at a time, and lattices that are stopped. -/
theorem run_watched (lib : Libraries) {ls : List Label} (hrun : Run (step lib) s ls u)
    (hanswered : ∀ l ∈ ls, Answered l) (hstill : s.serviceWatcher.passes = []) :
    ∃ ms, Run ServiceWatcher.step s.serviceWatcher ms u.serviceWatcher := by
  have hnorestart : ∀ m : Operator.Label, m.OfProcedures → m ≠ .restart := by
    rintro m hm rfl
    exact hm
  have hboth := ((simulates_operator lib).weaken hnorestart).trans
    (Operator.simulates_serviceWatcher lib.api.toApiServer)
  obtain ⟨ms, sw, hsteps, -, v, hv, rfl⟩ :=
    hboth.run hrun hanswered ⟨asOperator s, related_asOperator hstill, rfl⟩
  rw [hv.watcher] at hsteps
  exact ⟨ms, hsteps⟩

theorem run_watched_cleaned : ∃ u ms,
    Run (step .sample) sharingConfigs sharedThenCleaned u ∧
      u.serviceWatcher.channel.queue.length = 3 ∧
        Run ServiceWatcher.step {} ms u.serviceWatcher := by
  obtain ⟨u, hu, hsent⟩ := (Option.any_eq_true _ _).mp sharedThenCleaned_sends
  have hrun := run_of_exec hu
  obtain ⟨ms, hsteps⟩ := run_watched .sample hrun sharedThenCleaned_answered rfl
  exact ⟨u, ms, hrun, of_decide_eq_true hsent, hsteps⟩

end Reconcile
end WadmOperator

import WadmOperator.Operator
import WadmOperator.RegisteredNamespaces

/-!
# The steps of the operator

What each step can do, said once: most steps neither touch a Service nor send a
command, and the others are listed with all they change.
-/

namespace WadmOperator

namespace ServiceWatcher

variable {s u : ServiceWatcher}

def Unsettled (s : ServiceWatcher) (m : Message) (ok : Bool) (sent : Option Sent) : Prop :=
  ∃ (i : Nat) (t : EventTask), s.tasks[i]? = some t ∧ t.phase = .handled m ok sent

theorem Unsettled.congr {m : Message} {ok : Bool} {sent : Option Sent}
    (h : u.Unsettled m ok sent) (ht : u.tasks = s.tasks) : s.Unsettled m ok sent := by
  unfold Unsettled at h ⊢
  rwa [ht] at h

theorem unsettled_setPhase {i : Nat} {phase : Phase} {m : Message} {ok : Bool}
    {sent : Option Sent} (h : (s.setPhase i phase).Unsettled m ok sent) :
    phase = .handled m ok sent ∨ s.Unsettled m ok sent := by
  obtain ⟨k, t, ht, hp⟩ := h
  obtain ⟨old, hold, -, -, hphase⟩ := task_setPhase ht
  by_cases hk : k = i
  · rw [if_pos hk] at hphase
    exact .inl (hphase.symm.trans hp)
  · rw [if_neg hk] at hphase
    exact .inr ⟨k, old, hold, hphase.symm.trans hp⟩

theorem unsettled_watch {client : NatsClient} {ns latticeId : String} {created : Bool}
    {m : Message} {ok : Bool} {sent : Option Sent}
    (h : (s.watch client ns latticeId created).1.Unsettled m ok sent) :
    s.Unsettled m ok sent := by
  unfold watch at h
  split at h
  · exact h
  split at h
  · obtain ⟨k, t, ht, hp⟩ := h
    simp only [spawn, List.getElem?_append] at ht
    split at ht
    · exact ⟨k, t, ht, hp⟩
    · obtain ⟨_, rfl⟩ := List.getElem?_eq_some_iff.mp ht
      simp at hp
  · exact h

theorem leave_tasks (s : ServiceWatcher) (latticeId ns : String) (w : Watcher) :
    (s.leave latticeId ns w).tasks = s.tasks := by
  unfold leave
  split <;> rfl

theorem stopWatch_tasks (s : ServiceWatcher) (latticeId ns : String) :
    (s.stopWatch latticeId ns).1.tasks = s.tasks := by
  unfold stopWatch
  split
  · next w hw => rw [(send_frame _ _).2.2.1, leave_tasks]
  · rfl

theorem stopWatch_failed {latticeId ns : String} (h : (s.stopWatch latticeId ns).2 = false) :
    (s.stopWatch latticeId ns).1.channel = s.channel := by
  rcases stopWatch_channel s latticeId ns with ⟨hsame, -⟩ | ⟨-, hok⟩
  · exact hsame
  · exact absurd (h.symm.trans hok) (by decide)

theorem leave_passes (s : ServiceWatcher) (latticeId ns : String) (w : Watcher) :
    (s.leave latticeId ns w).passes = s.passes := by
  unfold leave
  split <;> rfl

theorem stopWatch_passes (s : ServiceWatcher) (latticeId ns : String) :
    (s.stopWatch latticeId ns).1.passes = s.passes := by
  unfold stopWatch
  split
  · next w hw => rw [(send_frame _ _).2.2.2, leave_passes]
  · rfl

theorem watch_passes (s : ServiceWatcher) (client : NatsClient) (ns latticeId : String)
    (created : Bool) : (s.watch client ns latticeId created).1.passes = s.passes := by
  unfold watch
  split
  · rfl
  · split <;> rfl

end ServiceWatcher

namespace Cluster

variable {api : ApiServer} {config : WasmCloudHostConfig} {c : Cluster} {key : ObjectKey}

theorem hostService_managedBy (config : WasmCloudHostConfig) :
    (hostService config).managedBy = none := by
  simp [Service.managedBy, hostService, Dict.get?_put]

theorem configureService_cases (api : ApiServer) (config : WasmCloudHostConfig) (c : Cluster)
    (key : ObjectKey) :
    (c.configureService api config).service key = c.service key ∨
      (c.configureService api config).service key =
        afterWrite (api.applyService CLUSTER_CONFIG_FINALIZER false (c.service key)
          (hostService config)) := by
  unfold configureService
  by_cases hkey : key = (config.ns, config.name)
  · right
    rw [service_writeService, if_pos hkey, hkey]
  · left
    rw [service_writeService, if_neg hkey]

theorem configureService_keeps {svc : Service} (hsvc : c.service key = some svc)
    (hmanaged : svc.managed = true) (hfinalizer : SERVICE_FINALIZER ∈ svc.finalizers) :
    ∃ svc', (c.configureService api config).service key = some svc' ∧ svc'.managed = true ∧
      SERVICE_FINALIZER ∈ svc'.finalizers := by
  rcases configureService_cases api config c key with hsame | happlied
  · exact ⟨svc, hsame.trans hsvc, hmanaged, hfinalizer⟩
  · rw [hsvc] at happlied
    have hkept := api.finalizer_kept CLUSTER_CONFIG_FINALIZER false svc (hostService config)
      SERVICE_FINALIZER hfinalizer (by decide)
    have hlabel := api.managedBy_kept false svc (hostService config) (hostService_managedBy config)
    refine ⟨_, happlied.trans ?_, ?_, hkept⟩
    · have hne := List.isEmpty_eq_false_iff.mpr (List.ne_nil_of_mem hkept)
      simp [afterWrite, hne]
    · rw [Service.managed, hlabel]
      exact hmanaged

end Cluster

namespace Operator

variable {api : ApiServer} {s u : Operator} {l : Label}

def Holds (s : Operator) (latticeId : String) (app : ModelSummary) : Prop :=
  (∃ x ∈ s.listings, x.config.spec.lattice = latticeId ∧ app ∈ x.apps) ∨
    ∃ p ∈ s.serviceWatcher.passes, p.latticeId = latticeId ∧ app ∈ p.apps

/-- A step that touches no Service, sends nothing and settles nothing. -/
structure Quiet (s : Operator) (l : Label) (u : Operator) : Prop where
  channel : u.serviceWatcher.channel = s.serviceWatcher.channel
  services : u.cluster.services = s.cluster.services
  cleaned : u.history.cleaned ⊆ s.history.cleaned
  record : u.history = { s.history with cleaned := u.history.cleaned }
  unsettled : ∀ m ok sent, u.serviceWatcher.Unsettled m ok sent →
    s.serviceWatcher.Unsettled m ok sent
  holds : ∀ latticeId app, u.Holds latticeId app → s.Holds latticeId app ∨
    (app.deployedVersion.isSome = true → (latticeId, app.name) ∈ s.deployed)
  deployed : ∀ latticeId app, (latticeId, app) ∈ u.deployed →
    (latticeId, app) ∈ s.deployed ∨ l = .deploy latticeId app

theorem quiet_watcher {sw : ServiceWatcher} (hc : sw.channel = s.serviceWatcher.channel)
    (hp : ∀ p ∈ sw.passes, p ∈ s.serviceWatcher.passes)
    (hu : ∀ m ok sent, sw.Unsettled m ok sent → s.serviceWatcher.Unsettled m ok sent) :
    Quiet s l { s with serviceWatcher := sw } where
  channel := hc
  services := rfl
  cleaned := Finset.Subset.refl _
  record := rfl
  unsettled := hu
  holds latticeId app h := by
    left
    rcases h with hlisting | ⟨p, hin, hpass⟩
    · exact .inl hlisting
    · exact .inr ⟨p, hp p hin, hpass⟩
  deployed _ _ h := .inl h

inductive StepCase (api : ApiServer) (s : Operator) : Label → Operator → Prop where
  | quiet {l : Label} {u : Operator} (h : Quiet s l u)
      (hexec : ∀ order fails, l ≠ .exec order fails) (hrestart : l ≠ .restart) :
      StepCase api s l u
  | handle {i t m} (ht : s.serviceWatcher.tasks[i]? = some t) (hp : t.phase = .taken m) :
      StepCase api s (.handle i)
        { s with
          serviceWatcher := s.serviceWatcher.handleMessage i t m
          history := { s.history with handled := s.history.handled ++ [m] } }
  | settle {i t m ok sent} (ht : s.serviceWatcher.tasks[i]? = some t)
      (hp : t.phase = .handled m ok sent) :
      StepCase api s (.settle i)
        { s with
          serviceWatcher := s.serviceWatcher.setPhase i .idle
          history := { s.history with
            acked := (if ok then [(m, sent)] else []) ++ s.history.acked } }
  | nextApp {j latticeId app apps manifest}
      (hpass : s.serviceWatcher.passes[j]? = some ⟨latticeId, app :: apps⟩)
      (hname : ∀ m ∈ manifest, m.name = app.name) :
      StepCase api s (.nextApp j manifest)
        { s with
          serviceWatcher := { s.serviceWatcher.reconcileApp latticeId app manifest with
            passes := s.serviceWatcher.passes.set j ⟨latticeId, apps⟩ } }
  | configureService {key config} (hconfig : s.cluster.config key = some config) :
      StepCase api s (.configureService key)
        { s with cluster := s.cluster.configureService api config }
  | cleanup {key config} (hconfig : s.cluster.config key = some config)
      (hok : (s.serviceWatcher.stopWatch config.spec.lattice config.ns).2 = true) :
      StepCase api s (.cleanup key)
        { s with
          serviceWatcher := (s.serviceWatcher.stopWatch config.spec.lattice config.ns).1
          cluster := s.cluster.removeConfig key
          history := s.history.recordCleanup (s.cluster.removeConfig key) config }
  | exec {order fails q sw} (hrecv : s.serviceWatcher.recv = some (q, sw))
      (horder : IterationOf order q.cmd.namespaces) :
      StepCase api s (.exec order fails)
        { s with
          serviceWatcher := sw
          cluster := (Commands.runCommand api fails order q.cmd s.cluster).cluster
          history := s.history.recordExec order q
            (Commands.runCommand api fails order q.cmd s.cluster).effects }
  | restart : StepCase api s .restart { s with serviceWatcher := {}, listings := [] }

theorem exec_cases {order : List String} {fails : ApiCall → Bool}
    (h : s.exec api order fails = some u) :
    ∃ q sw, s.serviceWatcher.recv = some (q, sw) ∧ IterationOf order q.cmd.namespaces ∧
      u = { s with
        serviceWatcher := sw
        cluster := (Commands.runCommand api fails order q.cmd s.cluster).cluster
        history := s.history.recordExec order q
          (Commands.runCommand api fails order q.cmd s.cluster).effects } := by
  unfold exec at h
  split at h
  · next q sw hrecv =>
    split_ifs at h with horder
    exact ⟨q, sw, hrecv, horder, (Option.some.inj h).symm⟩
  · cases h

theorem watch_cases {k : Nat} {client : NatsClient} {created : Bool}
    (h : s.watch k client created = some u) :
    ∃ config apps, s.listings[k]? = some ⟨config, apps, false⟩ ∧
      u.serviceWatcher =
        (s.serviceWatcher.watch client config.ns config.spec.lattice created).1 ∧
      u.cluster = s.cluster ∧ u.deployed = s.deployed ∧ u.history = s.history ∧
      (u.listings = s.listings.set k ⟨config, apps, true⟩ ∨
        u.listings = s.listings.eraseIdx k) := by
  unfold watch at h
  split at h
  · next config apps hk =>
    refine ⟨config, apps, hk, ?_⟩
    split_ifs at h
    split at h
    · next sw hsw =>
      obtain rfl := Option.some.inj h
      exact ⟨by rw [hsw], rfl, rfl, rfl, .inl rfl⟩
    · next sw hsw =>
      obtain rfl := Option.some.inj h
      exact ⟨by rw [hsw], rfl, rfl, rfl, .inr rfl⟩
  · cases h

theorem quiet_watch {k : Nat} {client : NatsClient} {created : Bool}
    (h : s.watch k client created = some u) : Quiet s l u := by
  obtain ⟨config, apps, hk, hsw, hcluster, hdeployed, hhistory, hlistings⟩ := watch_cases h
  constructor
  · rw [hsw, ServiceWatcher.watch_channel]
  · rw [hcluster]
  · rw [hhistory]
  · rw [hhistory]
  · intro m ok sent hun
    rw [hsw] at hun
    exact ServiceWatcher.unsettled_watch hun
  · intro latticeId app hholds
    left
    rcases hholds with ⟨x, hx, hlattice, happ⟩ | ⟨p, hp, hpass⟩
    · left
      rcases hlistings with hset | herase
      · rw [hset] at hx
        rcases List.mem_or_eq_of_mem_set hx with hx | rfl
        · exact ⟨x, hx, hlattice, happ⟩
        · exact ⟨_, List.mem_of_getElem? hk, hlattice, happ⟩
      · rw [herase] at hx
        exact ⟨x, List.mem_of_mem_eraseIdx hx, hlattice, happ⟩
    · rw [hsw, ServiceWatcher.watch_passes] at hp
      exact .inr ⟨p, hp, hpass⟩
  · intro latticeId app hin
    rw [hdeployed] at hin
    exact .inl hin

theorem quiet_listApps {key : ObjectKey} {apps : List ModelSummary}
    (h : s.listApps key apps = some u) : Quiet s l u := by
  unfold listApps at h
  split at h
  · next config hconfig =>
    split_ifs at h with hdeployed
    obtain rfl := Option.some.inj h
    refine ⟨rfl, rfl, Finset.Subset.refl _, rfl, fun _ _ _ hun => hun, ?_, fun _ _ hin => .inl hin⟩
    intro latticeId app hholds
    rcases hholds with ⟨x, hx, hlattice, happ⟩ | hpass
    · rcases List.mem_append.mp hx with hx | hx
      · exact .inl (.inl ⟨x, hx, hlattice, happ⟩)
      · right
        obtain rfl := List.mem_singleton.mp hx
        subst hlattice
        exact hdeployed app happ
    · exact .inl (.inr hpass)
  · cases h

theorem quiet_reconcileServices {k : Nat} (h : s.reconcileServices k = some u) :
    Quiet s l u := by
  unfold reconcileServices at h
  split at h
  · next config apps hk =>
    obtain rfl := Option.some.inj h
    have hframe := ServiceWatcher.reconcileServices_frame s.serviceWatcher apps config.spec.lattice
    have hpasses : ∀ p ∈ (s.serviceWatcher.reconcileServices apps config.spec.lattice).passes,
        p ∈ s.serviceWatcher.passes ∨ p = ⟨config.spec.lattice, apps⟩ := by
      intro p hp
      unfold ServiceWatcher.reconcileServices at hp
      split at hp
      · exact (List.mem_append.mp hp).imp_right List.mem_singleton.mp
      · exact .inl hp
    refine ⟨?_, rfl, Finset.Subset.refl _, rfl, ?_, ?_, fun _ _ hin => .inl hin⟩
    · simp only [ServiceWatcher.reconcileServices]
      split <;> rfl
    · intro m ok sent hun
      exact hun.congr hframe.2.2
    · intro latticeId app hholds
      left
      rcases hholds with ⟨x, hx, hrest⟩ | ⟨p, hp, hlattice, happ⟩
      · exact .inl ⟨x, List.mem_of_mem_eraseIdx hx, hrest⟩
      · rcases hpasses p hp with hp | rfl
        · exact .inr ⟨p, hp, hlattice, happ⟩
        · exact .inl ⟨_, List.mem_of_getElem? hk, hlattice, happ⟩
  · cases h

theorem nextApp_cases {j : Nat} {manifest : Option Manifest} (h : s.nextApp j manifest = some u) :
    StepCase api s (.nextApp j manifest) u := by
  unfold nextApp at h
  split at h
  · next latticeId app apps hpass =>
    split_ifs at h with hname
    obtain ⟨sw, hsw, rfl⟩ := Option.map_eq_some_iff.mp h
    simp only [ServiceWatcher.nextApp, hpass, Option.some.injEq] at hsw
    subst hsw
    exact .nextApp hpass hname
  · next hlast =>
    obtain ⟨sw, hsw, rfl⟩ := Option.map_eq_some_iff.mp h
    rcases ServiceWatcher.nextApp_cases hsw with ⟨latticeId, app, apps, hpass, -⟩ | ⟨_, _, rfl⟩
    · exact absurd hpass (hlast latticeId app apps)
    · exact .quiet (quiet_watcher rfl (fun p hp => List.mem_of_mem_eraseIdx hp)
        fun _ _ _ hun => hun) (by simp) (by simp)

theorem cleanup_cases {key : ObjectKey} (h : s.cleanup key = some u) :
    StepCase api s (.cleanup key) u := by
  unfold cleanup at h
  split at h
  · next config hconfig =>
    split_ifs at h
    split at h
    · next sw hsw =>
      obtain rfl := Option.some.inj h
      have hok := congrArg Prod.snd hsw
      obtain rfl := congrArg Prod.fst hsw
      exact .cleanup hconfig hok
    · next sw hsw =>
      obtain rfl := Option.some.inj h
      have hfailed := congrArg Prod.snd hsw
      obtain rfl := congrArg Prod.fst hsw
      refine .quiet (quiet_watcher ?_ ?_ ?_) (by simp) (by simp)
      · exact ServiceWatcher.stopWatch_failed hfailed
      · intro p hp
        rwa [ServiceWatcher.stopWatch_passes] at hp
      · intro m ok sent hun
        exact hun.congr (ServiceWatcher.stopWatch_tasks _ _ _)
  · cases h

theorem handle_cases {i : Nat} (h : step api s (.handle i) = some u) :
    ∃ t m, s.serviceWatcher.tasks[i]? = some t ∧ t.phase = .taken m ∧
      u = { s with
        serviceWatcher := s.serviceWatcher.handleMessage i t m
        history := { s.history with handled := s.history.handled ++ [m] } } := by
  obtain ⟨sw, hsw, rfl⟩ := Option.map_eq_some_iff.mp h
  cases ServiceWatcher.handle_cases hsw with
  | @handle _ t m ht hp =>
    have htaken : takenMessage i s.serviceWatcher = some m := by
      simp [takenMessage, ht, hp]
    rw [htaken]
    exact ⟨t, m, ht, hp, rfl⟩

theorem step_cases (h : step api s l = some u) : StepCase api s l u := by
  cases l with
  | next i item =>
    obtain ⟨sw, hsw, rfl⟩ := Option.map_eq_some_iff.mp h
    refine .quiet (quiet_watcher ?_ ?_ ?_) (by simp) (by simp)
    · cases ServiceWatcher.next_cases hsw <;> rfl
    · cases ServiceWatcher.next_cases hsw <;> exact fun _ hp => hp
    · intro m ok sent hun
      cases ServiceWatcher.next_cases hsw with
      | take _ _ => exact (ServiceWatcher.unsettled_setPhase hun).resolve_left (by simp)
      | skip _ _ => exact hun
      | ended _ _ => exact (ServiceWatcher.unsettled_setPhase hun).resolve_left (by simp)
  | handle i =>
    obtain ⟨t, m, ht, hp, rfl⟩ := handle_cases h
    exact .handle ht hp
  | settle i =>
    obtain ⟨sw, hsw, rfl⟩ := Option.map_eq_some_iff.mp h
    cases ServiceWatcher.settle_cases hsw with
    | @settle _ t m ok sent ht hp =>
      have hacked : (ackedMessage i s.serviceWatcher).toList = if ok then [(m, sent)] else [] := by
        cases ok <;> simp [ackedMessage, ht, hp]
      rw [hacked]
      exact .settle ht hp
  | observeCancel i =>
    obtain ⟨sw, hsw, rfl⟩ := Option.map_eq_some_iff.mp h
    cases ServiceWatcher.observeCancel_cases hsw with
    | cancelled _ _ _ =>
      refine .quiet (quiet_watcher rfl (fun _ hp => hp) ?_) (by simp) (by simp)
      intro m ok sent hun
      exact (ServiceWatcher.unsettled_setPhase hun).resolve_left (by simp)
  | listApps key apps => exact .quiet (quiet_listApps h) (by simp) (by simp)
  | watch k client created => exact .quiet (quiet_watch h) (by simp) (by simp)
  | reconcileServices k => exact .quiet (quiet_reconcileServices h) (by simp) (by simp)
  | abort k =>
    obtain rfl := Option.some.inj h
    refine .quiet ⟨rfl, rfl, Finset.Subset.refl _, rfl, fun _ _ _ hun => hun, ?_,
      fun _ _ hin => .inl hin⟩ (by simp) (by simp)
    intro latticeId app hholds
    left
    exact hholds.imp_left fun ⟨x, hx, hrest⟩ => ⟨x, List.mem_of_mem_eraseIdx hx, hrest⟩
  | nextApp j manifest => exact nextApp_cases h
  | configureService key =>
    obtain ⟨config, hconfig, rfl⟩ := Option.map_eq_some_iff.mp h
    exact .configureService hconfig
  | cleanup key => exact cleanup_cases h
  | exec order fails =>
    obtain ⟨q, sw, hrecv, horder, rfl⟩ := exec_cases h
    exact .exec hrecv horder
  | restart =>
    obtain rfl := Option.some.inj h
    exact .restart
  | editConfigs configs =>
    obtain rfl := Option.some.inj h
    exact .quiet ⟨rfl, rfl, Finset.filter_subset _ _, rfl, fun _ _ _ hun => hun,
      fun _ _ hholds => .inl hholds, fun _ _ hin => .inl hin⟩ (by simp) (by simp)
  | editPods pods =>
    obtain rfl := Option.some.inj h
    exact .quiet ⟨rfl, rfl, Finset.Subset.refl _, rfl, fun _ _ _ hun => hun,
      fun _ _ hholds => .inl hholds, fun _ _ hin => .inl hin⟩ (by simp) (by simp)
  | deploy latticeId app =>
    obtain rfl := Option.some.inj h
    refine .quiet ⟨rfl, rfl, Finset.Subset.refl _, rfl, fun _ _ _ hun => hun,
      fun _ _ hholds => .inl hholds, ?_⟩ (by simp) (by simp)
    intro latticeId' app' hin
    rcases Finset.mem_insert.mp hin with heq | hin
    · obtain ⟨rfl, rfl⟩ := Prod.mk.inj heq
      exact .inr rfl
    · exact .inl hin
  | undeploy latticeId app =>
    obtain rfl := Option.some.inj h
    exact .quiet ⟨rfl, rfl, Finset.Subset.refl _, rfl, fun _ _ _ hun => hun,
      fun _ _ hholds => .inl hholds, fun _ _ hin => .inl (Finset.mem_of_mem_erase hin)⟩
      (by simp) (by simp)

theorem StepCase.holds (h : StepCase api s l u) {latticeId : String} {app : ModelSummary}
    (happ : u.Holds latticeId app) : s.Holds latticeId app ∨
      (app.deployedVersion.isSome = true → (latticeId, app.name) ∈ s.deployed) := by
  cases h with
  | quiet h _ _ => exact h.holds latticeId app happ
  | @handle i t m _ _ =>
    left
    refine happ.imp_right fun hpass => ?_
    rcases ServiceWatcher.handleMessage_cases s.serviceWatcher i t m with
      ⟨ok, heq⟩ | ⟨cmd, ok, sent, -, heq⟩
    · simp only [heq] at hpass
      exact hpass
    · simp only [heq, ServiceWatcher.setPhase, (ServiceWatcher.send_frame _ _).2.2.2] at hpass
      exact hpass
  | settle _ _ | configureService _ => exact .inl happ
  | @nextApp j lattice first apps manifest hpass _ =>
    left
    refine happ.imp_right fun hin => ?_
    obtain ⟨p, hp, hlattice, happ⟩ := hin
    rcases List.mem_or_eq_of_mem_set hp with hp | rfl
    · exact ⟨p, hp, hlattice, happ⟩
    · exact ⟨_, List.mem_of_getElem? hpass, hlattice, List.mem_cons_of_mem _ happ⟩
  | cleanup _ _ =>
    left
    refine happ.imp_right fun hpass => ?_
    simp only [ServiceWatcher.stopWatch_passes] at hpass
    exact hpass
  | exec hrecv _ =>
    left
    refine happ.imp_right fun hpass => ?_
    simp only [(ServiceWatcher.recv_frame hrecv).2.2.2] at hpass
    exact hpass
  | restart => simp [Holds] at happ

theorem StepCase.deployed (h : StepCase api s l u) {latticeId app : String}
    (hin : (latticeId, app) ∈ u.deployed) :
    (latticeId, app) ∈ s.deployed ∨ l = .deploy latticeId app := by
  cases h with
  | quiet h _ _ => exact h.deployed latticeId app hin
  | handle _ _ | settle _ _ | nextApp _ _ | configureService _ | cleanup _ _ | exec _ _ |
    restart => exact .inl hin

theorem recordCleanup_frame (h : History) (c : Cluster) (config : WasmCloudHostConfig) :
    (h.recordCleanup c config).acked = h.acked ∧ (h.recordCleanup c config).done = h.done ∧
      (h.recordCleanup c config).madeFor = h.madeFor := by
  unfold History.recordCleanup
  split <;> exact ⟨rfl, rfl, rfl⟩

end Operator
end WadmOperator

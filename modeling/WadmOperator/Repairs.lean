import WadmOperator.EventHistory

/-!
# Services that a reconcile repairs

A command that fails is not tried again, an event may be acked without effect, and a
restart loses what waits in the channel. The next reconcile asks wadm again and sends an
upsert for each deployed application, whatever happened before. Carried out, it leaves
the Service that the manifest calls for in every registered namespace.
-/

namespace WadmOperator

def WatcherCommand.Concerns (key : ObjectKey) : WatcherCommand → Prop
  | .upsertService params => key.1 ∈ params.namespaces ∧ params.name = key.2
  | .removeService name namespaces => key.1 ∈ namespaces ∧ name = key.2
  | .removeServices namespaces => key.1 ∈ namespaces

def WatcherCommand.Demands (key : ObjectKey) (params : ServiceParams) (cmd : WatcherCommand) :
    Prop :=
  ∃ own, cmd = .upsertService own ∧ key.1 ∈ own.namespaces ∧ own.name = key.2 ∧
    own.port = params.port ∧ own.hostLabels = params.hostLabels

def Cluster.Serves (c : Cluster) (key : ObjectKey) (params : ServiceParams) : Prop :=
  ∃ svc, c.service key = some svc ∧ svc.managed = true ∧ svc.HttpPort params.port ∧
    svc.selector = Commands.serviceSelector params

namespace Operator

open Transition Commands

variable {api : ApiServer} {s u : Operator} {l : Label} {key : ObjectKey} {params : ServiceParams}
  {order : List String} {fails : ApiCall → Bool} {cmd : WatcherCommand} {c : Cluster}

theorem service_unconcerned (horder : IterationOf order cmd.namespaces)
    (hnot : ¬cmd.Concerns key) :
    (runCommand api fails order cmd c).cluster.service key = c.service key := by
  cases cmd with
  | upsertService own =>
    exact (createOrUpdateService_sameOff order c).service _ fun hk =>
      hnot ⟨(horder.mem _).mp hk.1, hk.2.symm⟩
  | removeService name namespaces =>
    exact (removeService_sameOff order c).service _ fun hk =>
      hnot ⟨(horder.mem _).mp hk.1, hk.2.symm⟩
  | removeServices namespaces =>
    exact (removeServices_sameOff order c).service _ fun hk => hnot ((horder.mem _).mp hk)

theorem serves_upserted (current : Option Service) {own : ServiceParams}
    (hservice : c.service key = some (upserted api own none current))
    (hport : own.port = params.port) (hlabels : own.hostLabels = params.hostLabels) :
    c.Serves key params := by
  refine ⟨_, hservice, upserted_managed api own none current, ?_, ?_⟩
  · rw [← hport]
    exact upserted_httpPort own current
  · rw [upserted, api.selector_applied]
    simp only [serviceFor, serviceSelector, hlabels]

theorem serves_exec (horder : IterationOf order cmd.namespaces)
    (hanswered : ∀ call, fails call = false) (hdemands : cmd.Demands key params) :
    (runCommand api fails order cmd c).cluster.Serves key params := by
  obtain ⟨own, rfl, hns, hname, hport, hlabels⟩ := hdemands
  have hin : key.1 ∈ order := (horder.mem _).mpr hns
  have hnofail : (runCommand api fails order (.upsertService own) c).NoFailure :=
    runCommand_answered hanswered
  obtain ⟨-, -, -, hservice⟩ :=
    createOrUpdateService_applied horder.1 (createOrUpdateService_all hnofail hin) rfl
  rw [hname] at hservice
  exact serves_upserted _ hservice hport hlabels

def Assured (s : Operator) (key : ObjectKey) (params : ServiceParams) : Prop :=
  Channel.Pending (fun q => q.cmd.Demands key params) (fun q => q.cmd.Concerns key)
    (s.cluster.Serves key params) s.queue

/-- No restart, no host Service of that name, no call of a command on this Service fails,
and nothing sent asks for another one. -/
structure Undisturbed (key : ObjectKey) (params : ServiceParams) (s : Operator) (l : Label)
    (_ : Operator) : Prop where
  running : l ≠ .restart
  foreign : l ≠ .configureService key
  demanded : ∀ q, Sends s l q → q.cmd.Concerns key → q.cmd.Demands key params
  answered : ∀ q order fails, s.Executes l q order fails → q.cmd.Concerns key →
    ∀ call, fails call = false

theorem config_key {config : WasmCloudHostConfig} (h : c.config key = some config) :
    key = (config.ns, config.name) := by
  have hfound := List.find?_some h
  simp only [Bool.and_eq_true, decide_eq_true_eq] at hfound
  exact Prod.ext hfound.1.symm hfound.2.symm

theorem service_kept (hstep : StepCase api s l u) (hexec : ∀ order fails, l ≠ .exec order fails)
    (hforeign : l ≠ .configureService key) : u.cluster.service key = s.cluster.service key := by
  cases hstep with
  | quiet h _ _ => exact congrArg (fun services => services.get? key) h.services
  | handle _ _ | settle _ _ | nextApp _ _ | cleanup _ _ | restart => rfl
  | @configureService other config hconfig =>
    have hne : key ≠ (config.ns, config.name) := by
      intro heq
      rw [config_key hconfig, ← heq] at hforeign
      exact hforeign rfl
    unfold Cluster.configureService
    rw [Cluster.service_writeService, if_neg hne]
  | @exec order fails q sw hrecv horder => exact absurd rfl (hexec order fails)

theorem assured_of_sends (hs : s.Assured key params) (hstep : StepCase api s l u)
    (hexec : ∀ order fails, l ≠ .exec order fails) (hguard : Undisturbed key params s l u) :
    u.Assured key params := by
  have hservice := service_kept hstep hexec hguard.foreign
  have hserves : s.cluster.Serves key params → u.cluster.Serves key params := by
    unfold Cluster.Serves
    rw [hservice]
    exact id
  have hkept := hs.mono hserves
  unfold Assured
  rcases hstep.queue with hsame | ⟨q, hsends, hsent⟩ | ⟨q, order, fails, ⟨hl, -⟩, -⟩ | ⟨hl, -⟩
  · rw [hsame]
    exact hkept
  · rw [hsent, Channel.pending_append]
    by_cases hconcerns : q.cmd.Concerns key
    · exact .inl (hguard.demanded q hsends hconcerns)
    · exact .inr ⟨hkept, hconcerns⟩
  · exact absurd hl (hexec order fails)
  · exact absurd hl hguard.running

theorem assured_of_exec {q : Sent} {sw : ServiceWatcher} (hs : s.Assured key params)
    (hrecv : s.serviceWatcher.recv = some (q, sw)) (horder : IterationOf order q.cmd.namespaces)
    (hanswered : q.cmd.Concerns key → ∀ call, fails call = false) :
    Channel.Pending (fun q => q.cmd.Demands key params) (fun q => q.cmd.Concerns key)
      ((runCommand api fails order q.cmd s.cluster).cluster.Serves key params)
      sw.channel.queue := by
  rw [Assured, Operator.queue, ServiceWatcher.recv_queue hrecv] at hs
  refine Channel.Pending.mono hs fun hnow => ?_
  rcases hnow with hdemands | ⟨hserves, hnot⟩
  · have hconcerns : q.cmd.Concerns key := by
      obtain ⟨own, hcmd, hns, hname, -⟩ := hdemands
      rw [hcmd]
      exact ⟨hns, hname⟩
    exact serves_exec horder (hanswered hconcerns) hdemands
  · unfold Cluster.Serves
    rw [service_unconcerned horder hnot]
    exact hserves

theorem assured_step (hs : s.Assured key params) (hstep : StepCase api s l u)
    (hguard : Undisturbed key params s l u) : u.Assured key params := by
  have hsends := fun hexec => assured_of_sends hs hstep hexec hguard
  cases hstep with
  | quiet _ hexec _ => exact hsends hexec
  | handle _ _ | settle _ _ | nextApp _ _ | configureService _ | cleanup _ _ =>
    exact hsends (by simp)
  | @exec order fails q sw hrecv horder =>
    exact assured_of_exec hs hrecv horder (hguard.answered q order fails ⟨rfl, sw, hrecv⟩)
  | restart => exact absurd rfl hguard.running

theorem assured_run {ls : List Label} (hs : s.Assured key params) (hrun : Run (step api) s ls u)
    (hguard : Along (step api) (Undisturbed key params) s ls) : u.Assured key params := by
  induction hrun with
  | nil => exact hs
  | cons hl _ ih =>
    obtain ⟨hfirst, hrest⟩ := hguard _ hl
    exact ih (assured_step hs (step_cases hl) hfirst) hrest

theorem queue_handle {i : Nat} {q : Sent} (hopen : s.serviceWatcher.channel.closed = false)
    (hsends : Sends s (.handle i) q) (hstep : step api s (.handle i) = some u) :
    u.queue = s.queue ++ [q] := by
  obtain ⟨t, m, ht, hp, rfl⟩ := handle_cases hstep
  cases hsends with
  | event ht' hp' hcmd =>
    obtain rfl := Option.some.inj (ht.symm.trans ht')
    obtain rfl := Phase.taken.inj (hp.symm.trans hp')
    exact congrArg Channel.queue (ServiceWatcher.handleMessage_sends hcmd hopen)

theorem queue_nextApp {j : Nat} {manifest : Option Manifest} {q : Sent}
    (hopen : s.serviceWatcher.channel.closed = false) (hsends : Sends s (.nextApp j manifest) q)
    (hstep : step api s (.nextApp j manifest) = some u) : u.queue = s.queue ++ [q] := by
  cases hsends with
  | @reconcile _ latticeId app apps w m cmd hpass hw hdeployed hname hcmd =>
    obtain ⟨version, hversion⟩ := Option.isSome_iff_exists.mp hdeployed
    have hall : ∀ m' ∈ some m, m'.name = app.name := by
      intro m' hm'
      obtain rfl := Option.some.inj hm'
      exact hname
    simp only [step, nextApp, hpass, if_pos hall, ServiceWatcher.nextApp, Option.map_some,
      Option.some.injEq] at hstep
    subst hstep
    simp [Operator.queue, ServiceWatcher.reconcileApp, hw, hversion, hcmd, ServiceWatcher.send,
      Channel.send, hopen]

/-- Whatever the upsert finds in the channel and in the cluster, it is the last word. -/
theorem assured_sent {own : ServiceParams} {origin : Origin}
    (hopen : s.serviceWatcher.channel.closed = false)
    (hsends : Sends s l ⟨.upsertService own, origin⟩) (hstep : step api s l = some u)
    {ns : String} (hns : ns ∈ own.namespaces) : u.Assured (ns, own.name) own := by
  have hqueue : u.queue = s.queue ++ [⟨.upsertService own, origin⟩] := by
    cases l with
    | handle i => exact queue_handle hopen hsends hstep
    | nextApp j manifest => exact queue_nextApp hopen hsends hstep
    | cleanup key => cases hsends
    | _ => cases hsends
  rw [Assured, hqueue, Channel.pending_append]
  exact .inl ⟨own, rfl, hns, rfl, rfl, rfl⟩

/-- After any history, failed calls and restarts included: once a reconcile or an event
has sent the upsert of an application, and the commands are carried out, the Service of
its manifest stands in each of the namespaces, unless something later asks for another. -/
theorem run_repaired {start : Cluster} {before after : List Label} {t : Operator}
    {own : ServiceParams} {origin : Origin} {ns : String}
    (hbefore : Run (step api) (initial start) before s)
    (hsends : Sends s l ⟨.upsertService own, origin⟩) (hns : ns ∈ own.namespaces)
    (hstep : step api s l = some t) (hafter : Run (step api) t after u)
    (hguard : Along (step api) (Undisturbed (ns, own.name) own) t after) (hdrained : u.queue = []) :
    u.cluster.Serves (ns, own.name) own := by
  have hsent : t.Assured (ns, own.name) own :=
    assured_sent (run_channel_open hbefore) hsends hstep hns
  have hassured := assured_run hsent hafter hguard
  rw [Assured, hdrained] at hassured
  exact hassured

/-- The Service of the publication is refused, its event is acked, and the operator
restarts. -/
def refusedPublication : List Label :=
  .deploy "lattice-a" "app" :: idleReconcile ("default", "a") ++
    deliver 0 0 (.manifestPublished (Manifest.httpApp "app" "0.0.0.0:8080")) ++
    [.settle 0, .exec ["default"] fun _ => true, .restart,
      .listApps ("default", "a") [⟨"app", "v1", some "v1"⟩], .watch 0 .sample true,
      .reconcileServices 0]

def repairedParams : ServiceParams := ⟨"app", {"default"}, "lattice-a", 8080, none⟩

def repairing : List Label :=
  refusedPublication ++ [.nextApp 0 (some (Manifest.httpApp "app" "0.0.0.0:8080"))]

def repaired : List Label := repairing ++ [.exec ["default"] fun _ => false]

theorem sends_repairing : Sends (reach (initial oneConfig) refusedPublication)
    (.nextApp 0 (some (Manifest.httpApp "app" "0.0.0.0:8080")))
    ⟨.upsertService repairedParams, .reconcile "lattice-a"⟩ :=
  @Sends.reconcile _ 0 "lattice-a" ⟨"app", "v1", some "v1"⟩ [] _ _ _ rfl rfl rfl rfl rfl

theorem undisturbed_exec (key : ObjectKey) (params : ServiceParams) (order : List String)
    (s u : Operator) : Undisturbed key params s (.exec order fun _ => false) u where
  running := by simp
  foreign := by simp
  demanded q hsends := by cases hsends
  answered q order' fails hexec _ call := by
    obtain ⟨-, rfl⟩ := Label.exec.inj hexec.1
    rfl

theorem run_repaired_refused :
    (reach (initial oneConfig) refusedPublication).cluster.service ("default", "app") = none ∧
      (reach (initial oneConfig) repaired).cluster.Serves ("default", "app") repairedParams := by
  have hbefore : Run (step .basic) (initial oneConfig) refusedPublication
      (reach (initial oneConfig) refusedPublication) := reach_run (by decide +kernel)
  have hafter : Run (step .basic) (reach (initial oneConfig) repairing)
      [.exec ["default"] fun _ => false] (reach (initial oneConfig) repaired) := run_of_exec rfl
  refine ⟨by decide +kernel, ?_⟩
  refine run_repaired hbefore sends_repairing (Finset.mem_singleton_self _) rfl hafter ?_ rfl
  refine along_labels (fun l hl s u => ?_) _
  obtain rfl := List.mem_singleton.mp hl
  exact undisturbed_exec _ _ _ s u

end Operator
end WadmOperator

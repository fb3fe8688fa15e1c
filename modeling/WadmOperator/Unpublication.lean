import WadmOperator.Commands.Dormant
import WadmOperator.CommandQueue
import WadmOperator.LateUpserts

/-!
# Unpublished applications

Neither a command nor an entry of an app list says how old it is. A Service that an
unpublication removes comes back when a list from before the unpublication is still
worked off, or when an older publication is delivered again. As long as no step of
either kind sends an upsert for it, it stays away in every order of steps.
-/

namespace WadmOperator

def Payload.publishes (a : String) : Payload → Bool
  | .event (.manifestPublished manifest) => manifest.name = a
  | _ => false

namespace Operator

open Transition Commands

variable {api : ApiServer} {s u : Operator} {l : Label} {ns a : String}

structure AtUnpublication (api : ApiServer) (s : Operator) (i : Nat) (ns a : String) :
    Prop where
  reached : ∃ c ls, Run (step api) (initial c) ls s
  taken : ∃ t m, s.serviceWatcher.tasks[i]? = some t ∧ t.phase = .taken m ∧
    m.payload = .event (.manifestUnpublished a) ∧ ns ∈ t.watcher.namespaces

/-- A task that serves the namespace handles a publication of the application with an
HTTP server at an address that parses. -/
def republishes (ns a : String) (s : Operator) : Label → Bool
  | .handle i => s.serviceWatcher.tasks[i]?.any fun t =>
      decide (ns ∈ t.watcher.namespaces) && (takenMessage i s.serviceWatcher).any fun m =>
        m.payload.publishes a && m.payload.callsForUpsert
  | _ => false

/-- A pass over a lattice with the namespace comes to an entry of the application that
names a deployed version, and gets a manifest with such an HTTP server. -/
def relists (ns a : String) (s : Operator) : Label → Bool
  | .nextApp j (some manifest) =>
    match s.serviceWatcher.passes[j]? with
    | some ⟨latticeId, app :: _⟩ => decide (app.name = a) && app.deployedVersion.isSome &&
        decide (ns ∈ s.serviceWatcher.registered latticeId) && manifest.httpAddress.isSome
    | _ => false
  | _ => false

structure StaysAway (api : ApiServer) (ns a : String) (s : Operator) (l : Label)
    (_ : Operator) : Prop where
  answered : allAnswered api s l = true
  running : l ≠ .restart
  published : republishes ns a s l = false
  listed : relists ns a s l = false

/-- Once the passes have ended and the channel is drained, the key has no managed Service,
but for one that others hold in deletion. -/
def Gone (ns a : String) (s : Operator) : Prop :=
  s.listings = [] → s.serviceWatcher.passes = [] → s.queue = [] → Dormant (ns, a) s.cluster

def UpsertsApp (ns a : String) (q : Sent) : Prop :=
  ∃ params, q.cmd = .upsertService params ∧ params.name = a ∧ ns ∈ params.namespaces

def RemovesApp (ns a : String) (q : Sent) : Prop :=
  ∃ namespaces, q.cmd = .removeService a namespaces ∧ ns ∈ namespaces

def Removing (ns a : String) (s : Operator) : Prop :=
  ¬Channel.Pending (UpsertsApp ns a) (RemovesApp ns a) (¬Dormant (ns, a) s.cluster) s.queue

theorem gone_of_removing (h : Removing ns a s) : Gone ns a s := by
  intro _ _ hempty
  by_contra hawake
  refine h ?_
  rw [hempty]
  exact hawake

theorem publishes_of_upsert {w : Watcher} {payload : Payload} {params : ServiceParams}
    (h : w.handleEvent payload = some (some (.upsertService params))) :
    payload.publishes params.name = true ∧ params.namespaces = w.namespaces := by
  rcases ServiceWatcher.handleEvent_cases h with ⟨manifest, rfl, hcmd⟩ | ⟨name, rfl, hcmd⟩
  · obtain ⟨addr, labels, -, heq⟩ := ServiceWatcher.handleManifestPublished_cases hcmd
    rw [WatcherCommand.upsertService.inj heq]
    exact ⟨decide_eq_true rfl, rfl⟩
  · cases hcmd

theorem resurrects_of_sends {q : Sent} (hsends : Sends s l q) (hupserts : UpsertsApp ns a q) :
    republishes ns a s l = true ∨ relists ns a s l = true := by
  obtain ⟨params, hparams, rfl, hns⟩ := hupserts
  cases hsends with
  | @event i t m cmd ht hp hcmd =>
    obtain rfl : cmd = .upsertService params := hparams
    left
    obtain ⟨hpublishes, hnamespaces⟩ := publishes_of_upsert hcmd
    have hcalls := (ServiceWatcher.handleEvent_upsert hcmd).1
    rw [hnamespaces] at hns
    simp [republishes, takenMessage, ht, hp, hns, hpublishes, hcalls]
  | @reconcile j latticeId app apps w m cmd hpass hw hdeployed hname hcmd =>
    obtain rfl : cmd = .upsertService params := hparams
    right
    obtain ⟨addr, labels, haddr, heq⟩ := ServiceWatcher.handleManifestPublished_cases hcmd
    rw [WatcherCommand.upsertService.inj heq] at hns ⊢
    simp only [relists, hpass, ServiceWatcher.registered, hw]
    simp [hname, hdeployed, haddr, hns]
  | stopWatch _ => cases hparams

theorem dormant_of_step {key : ObjectKey} (hstep : StepCase api s l u)
    (hexec : ∀ order fails, l ≠ .exec order fails) (h : Dormant key s.cluster) :
    Dormant key u.cluster := by
  cases hstep with
  | quiet hq _ _ =>
    refine h.congr ?_
    rw [Cluster.service, Cluster.service, hq.services]
  | handle _ _ | settle _ _ | nextApp _ _ | restart => exact h
  | cleanup _ _ => exact h.congr rfl
  | configureService _ => exact h.configureService _
  | @exec order fails q sw _ _ => exact absurd rfl (hexec order fails)

theorem removing_exec {order : List String} {fails : ApiCall → Bool} {q : Sent}
    {sw : ServiceWatcher} (hs : Removing ns a s) (hrecv : s.serviceWatcher.recv = some (q, sw))
    (horder : IterationOf order q.cmd.namespaces)
    (hnofail : (runCommand api fails order q.cmd s.cluster).NoFailure) :
    ¬Channel.Pending (UpsertsApp ns a) (RemovesApp ns a)
      (¬Dormant (ns, a) (runCommand api fails order q.cmd s.cluster).cluster)
      sw.channel.queue := by
  intro hpending
  refine hs ?_
  rw [Operator.queue, ServiceWatcher.recv_queue hrecv]
  refine hpending.mono fun hawake => ?_
  by_cases hupserts : UpsertsApp ns a q
  · exact .inl hupserts
  right
  constructor
  · intro hdormant
    refine hawake (hdormant.runCommand fun params hcmd hkey => hupserts ?_)
    have hns := (horder.mem ns).mp hkey.1
    rw [hcmd] at hns
    exact ⟨params, hcmd, hkey.2.symm, hns⟩
  · intro hremoves
    obtain ⟨namespaces, hcmd, hns⟩ := hremoves
    rw [hcmd] at hawake horder hnofail
    exact hawake (dormant_removeService horder.1 ((horder.mem ns).mpr hns) hnofail)

theorem removing_step (hs : Removing ns a s) (hstep : StepCase api s l u)
    (hguard : StaysAway api ns a s l u) : Removing ns a u := by
  by_cases hexec : ∃ order fails, l = .exec order fails
  · obtain ⟨order, fails, rfl⟩ := hexec
    cases hstep with
    | quiet _ hne _ => exact absurd rfl (hne order fails)
    | @exec _ _ q sw hrecv horder =>
      have hexecutes : s.Executes (.exec order fails) q order fails := ⟨rfl, sw, hrecv⟩
      exact removing_exec hs hrecv horder (hexecutes.noFailure hguard.answered)
  · have hne : ∀ order fails, l ≠ .exec order fails := fun order fails hl =>
      hexec ⟨order, fails, hl⟩
    have hawake : ¬Dormant (ns, a) u.cluster → ¬Dormant (ns, a) s.cluster :=
      fun h hdormant => h (dormant_of_step hstep hne hdormant)
    intro hpending
    rcases hstep.queue with hsame | ⟨q, hsends, hsent⟩ | ⟨_, order, fails, ⟨hl, _⟩, _⟩ | ⟨hl, _⟩
    · rw [hsame] at hpending
      exact hs (hpending.mono hawake)
    · rw [hsent, Channel.pending_append] at hpending
      rcases hpending with hupserts | ⟨hold, -⟩
      · rcases resurrects_of_sends hsends hupserts with hpublished | hlisted
        · exact absurd (hguard.published.symm.trans hpublished) (by decide)
        · exact absurd (hguard.listed.symm.trans hlisted) (by decide)
      · exact hs (hold.mono hawake)
    · exact hne order fails hl
    · exact hguard.running hl

theorem removing_handle {i : Nat} (h : AtUnpublication api s i ns a)
    (hstep : step api s (.handle i) = some u) : Removing ns a u := by
  obtain ⟨c, ls, hrun⟩ := h.reached
  obtain ⟨t, m, ht, hp, hpayload, hns⟩ := h.taken
  obtain ⟨t', m', ht', hp', rfl⟩ := handle_cases hstep
  obtain rfl := Option.some.inj (ht.symm.trans ht')
  obtain rfl := Phase.taken.inj (hp.symm.trans hp')
  have hcmd : t.watcher.handleEvent m.payload =
      some (some (.removeService a t.watcher.namespaces)) := by
    rw [hpayload]
    rfl
  have hchannel := ServiceWatcher.handleMessage_sends (i := i) hcmd (run_channel_open hrun)
  intro hpending
  rw [Operator.queue, hchannel, Channel.pending_append] at hpending
  rcases hpending with hupserts | ⟨-, hkept⟩
  · obtain ⟨params, hparams, -⟩ := hupserts
    cases hparams
  · exact hkept ⟨t.watcher.namespaces, rfl, hns⟩

/-- As long as no stale publication and no stale list calls for an upsert, the Service
stays away in every order of steps. -/
theorem run_gone {i : Nat} {ls : List Label} (h : AtUnpublication api s i ns a)
    (hrun : Along (step api) (StaysAway api ns a) s (.handle i :: ls)) :
    Along (step api) (fun _ _ u => Gone ns a u) s (.handle i :: ls) := by
  intro u hu
  have hremoving := removing_handle h hu
  refine ⟨gone_of_removing hremoving, ?_⟩
  refine Along.of_guard (I := Removing ns a) ?_ hremoving (hrun u hu).2
  intro s l v hs hstep hguard
  have hv := removing_step hs (step_cases hstep) hguard
  exact ⟨gone_of_removing hv, hv⟩

def NoneListed (a : String) (s : Operator) : Prop :=
  ∀ latticeId app, s.Holds latticeId app → app.name = a → app.deployedVersion = none

theorem not_relists (hlisted : NoneListed a s) : relists ns a s l = false := by
  unfold relists
  split
  · next j manifest =>
    split
    · next latticeId app apps hpass =>
      by_cases hname : app.name = a
      · have hholds : s.Holds latticeId app :=
          .inr ⟨_, List.mem_of_getElem? hpass, rfl, List.mem_cons_self⟩
        simp [hlisted latticeId app hholds hname]
      · simp [hname]
    · rfl
  · rfl

theorem noneListed_step (hlisted : NoneListed a s)
    (hgone : ∀ latticeId, (latticeId, a) ∉ s.deployed) (hstep : StepCase api s l u) :
    NoneListed a u := by
  intro latticeId app hholds hname
  rcases hstep.holds hholds with hold | hfresh
  · exact hlisted latticeId app hold hname
  · cases hversion : app.deployedVersion with
    | none => rfl
    | some version =>
      rw [hname, hversion] at hfresh
      exact absurd (hfresh rfl) (hgone latticeId)

/-- Only a list from before the application was undeployed can call for an upsert. -/
theorem run_notRelists {ls : List Label} (hlisted : NoneListed a s)
    (hgone : ∀ latticeId, (latticeId, a) ∉ s.deployed)
    (hrun : Along (step api) (fun _ l _ => ∀ latticeId, l ≠ .deploy latticeId a) s ls) :
    Along (step api) (fun s l _ => relists ns a s l = false) s ls := by
  refine Along.of_guard (I := fun s => NoneListed a s ∧ ∀ latticeId, (latticeId, a) ∉ s.deployed)
    ?_ ⟨hlisted, hgone⟩ hrun
  intro s l u hs hstep hdeploy
  have hcase := step_cases hstep
  refine ⟨not_relists hs.1, noneListed_step hs.1 hs.2 hcase, fun latticeId hin => ?_⟩
  rcases hcase.deployed hin with hold | hl
  · exact hs.2 latticeId hold
  · exact hdeploy latticeId hl

def published : Message :=
  ⟨0, .event (.manifestPublished (Manifest.httpApp "app" "0.0.0.0:8080"))⟩

def unpublished : Message := ⟨1, .event (.manifestUnpublished "app")⟩

def takeUnpublished : Label := .next 0 (.message unpublished)

def unpublishing : Operator :=
  reach (initial oneConfig) (publishApp ("default", "a") ++ [takeUnpublished])

theorem at_unpublishing : AtUnpublication .basic unpublishing 0 "default" "app" where
  reached := ⟨_, _, reach_run (by decide +kernel)⟩
  taken := ⟨_, _, rfl, rfl, rfl, by decide⟩

def checkStaysAway (api : ApiServer) (ns a : String) (s : Operator) (l : Label) : Bool :=
  allAnswered api s l && !(l matches .restart) && !republishes ns a s l && !relists ns a s l

theorem staysAway_of_check (h : checkStaysAway api ns a s l = true) : StaysAway api ns a s l u := by
  simp only [checkStaysAway, Bool.and_eq_true, Bool.not_eq_true'] at h
  obtain ⟨⟨⟨hanswered, hrunning⟩, hpublished⟩, hlisted⟩ := h
  refine ⟨hanswered, ?_, hpublished, hlisted⟩
  rintro rfl
  cases hrunning

/-- The application is published and deployed again, at an address that does not parse. -/
theorem run_gone_unpublishing : Along (step .basic) (fun _ _ u => Gone "default" "app" u)
    unpublishing (.handle 0 :: ([.exec ["default"] fun _ => false, .settle 0] ++
      deliver 0 2 (.manifestPublished (Manifest.httpApp "app" "nowhere")) ++
      [.deploy "lattice-a" "app", .listApps ("default", "a") [⟨"app", "v2", some "v2"⟩],
        .watch 0 .sample true, .reconcileServices 0,
        .nextApp 0 (some (Manifest.httpApp "app" "nowhere")), .nextApp 0 none])) :=
  run_gone at_unpublishing
    (along_of_check (fun s l u (h : checkStaysAway .basic "default" "app" s l = true) _ =>
      staysAway_of_check h) (by decide +kernel))

/-- Every call is answered, the process goes on, and the application is not deployed
again; publications of it are only delivered again. -/
structure StaysUnpublished (api : ApiServer) (a : String) (s : Operator) (l : Label)
    (_ : Operator) : Prop where
  answered : allAnswered api s l = true
  running : l ≠ .restart
  undeployed : ∀ latticeId, l ≠ .deploy latticeId a
  redelivered : ∀ i m, l = .handle i → takenMessage i s.serviceWatcher = some m →
    m.payload.publishes a = true → m ∈ s.history.handled

def checkStays (api : ApiServer) (a : String) (s : Operator) : Label → Bool
  | .restart | .deploy _ _ => false
  | .handle i => (takenMessage i s.serviceWatcher).all fun m =>
      !m.payload.publishes a || decide (m ∈ s.history.handled)
  | l => allAnswered api s l

theorem staysUnpublished_of_check (h : checkStays api a s l = true) :
    StaysUnpublished api a s l u where
  answered := by
    cases l with
    | restart | deploy _ _ => cases h
    | handle i => rfl
    | _ => exact h
  running := by
    rintro rfl
    cases h
  undeployed latticeId := by
    rintro rfl
    cases h
  redelivered i m hl hm hpublishes := by
    subst hl
    simpa [checkStays, hm, hpublishes] using h

structure AfterUnpublication (api : ApiServer) (s : Operator) (i : Nat) (ns a : String)
    (ls : List Label) : Prop where
  start : AtUnpublication api s i ns a
  undeployed : ∀ latticeId, (latticeId, a) ∉ s.deployed
  stays : Along (step api) (StaysUnpublished api a) s (.handle i :: ls)

theorem afterUnpublication_of_check {i : Nat} {ls : List Label}
    (hstart : AtUnpublication api s i ns a) (hempty : s.deployed = ∅)
    (h : checkAlong (step api) (checkStays api a) s (.handle i :: ls) = true) :
    AfterUnpublication api s i ns a ls where
  start := hstart
  undeployed latticeId := by
    rw [hempty]
    exact Finset.notMem_empty _
  stays := along_of_check
    (fun s l u (h : checkStays api a s l = true) _ => staysUnpublished_of_check h) h

def NotRepublished (api : ApiServer) (ns a : String) (s : Operator) (ls : List Label) : Prop :=
  Along (step api) (fun s l _ => republishes ns a s l = false) s ls

def NotRelisted (api : ApiServer) (ns a : String) (s : Operator) (ls : List Label) : Prop :=
  Along (step api) (fun s l _ => relists ns a s l = false) s ls

def NoManaged (ns a : String) (s : Operator) : Prop :=
  s.listings = [] → s.serviceWatcher.passes = [] → s.queue = [] →
    ∀ svc, s.cluster.service (ns, a) = some svc → svc.managed = false

theorem never_of_check {P : Operator → Label → Bool} {ls : List Label}
    (h : checkAlong (step api) (fun s l => !P s l) s ls = true) :
    Along (step api) (fun s l _ => P s l = false) s ls :=
  along_of_check (fun _ _ _ hl _ => Bool.not_eq_true' _ ▸ hl) h

theorem not_dormant_of_fact {c : Cluster} {key : ObjectKey}
    (h : ((c.service key).any fun svc => svc.managed && !svc.deletionTimestamp) = true) :
    ¬Dormant key c := by
  intro hdormant
  obtain ⟨svc, hsvc, hboth⟩ := (Option.any_eq_true _ _).mp h
  obtain ⟨hmanaged, hlive⟩ := Bool.and_eq_true_iff.mp hboth
  have hleaving := hdormant svc hsvc hmanaged
  rw [hleaving.1] at hlive
  cases hlive

def endsWith (P : Service → Bool) (s : Operator) (ls : List Label) (l : Label) : Bool :=
  (lastStep (step .basic) s ls l).any fun p =>
    p.2.listings.isEmpty && p.2.serviceWatcher.passes.isEmpty && p.2.queue.isEmpty &&
      (p.2.cluster.service ("default", "app")).any P

theorem endsWith_last {P : Service → Bool} {ls : List Label} (h : endsWith P s ls l = true) :
    ∃ u v, lastStep (step .basic) s ls l = some (u, v) ∧ v.listings = [] ∧
      v.serviceWatcher.passes = [] ∧ v.queue = [] ∧
        (v.cluster.service ("default", "app")).any P = true := by
  obtain ⟨⟨u, v⟩, huv, hall⟩ := (Option.any_eq_true _ _).mp h
  simp only [Bool.and_eq_true, List.isEmpty_iff] at hall
  obtain ⟨⟨⟨hlistings, hpasses⟩, hqueue⟩, hany⟩ := hall
  exact ⟨u, v, huv, hlistings, hpasses, hqueue, hany⟩

theorem not_gone {ls : List Label}
    (h : endsWith (fun svc => svc.managed && !svc.deletionTimestamp) s ls l = true) :
    ¬Along (step .basic) (fun _ _ u => Gone "default" "app" u) s (ls ++ [l]) := by
  intro hgone
  obtain ⟨u, v, hlast, hlistings, hpasses, hqueue, hany⟩ := endsWith_last h
  exact not_dormant_of_fact hany (hgone.last hlast hlistings hpasses hqueue)

def unpublishingListed : Operator :=
  reach (initial oneConfig) (.deploy "lattice-a" "app" :: publishApp ("default", "a") ++
    [.listApps ("default", "a") [⟨"app", "v1", some "v1"⟩], .undeploy "lattice-a" "app",
      takeUnpublished])

theorem at_unpublishingListed : AtUnpublication .basic unpublishingListed 0 "default" "app" where
  reached := ⟨_, _, reach_run (by decide +kernel)⟩
  taken := ⟨_, _, rfl, rfl, rfl, by decide⟩

def execAll : Label := .exec ["default"] fun _ => false

def oldPass : List Label :=
  [execAll, .watch 0 .sample true, .reconcileServices 0,
    .nextApp 0 (some (Manifest.httpApp "app" "0.0.0.0:8080")), .nextApp 0 none]

def redelivery : List Label :=
  [execAll, .settle 0, .next 0 (.message published), .handle 0]

def heldElsewhere : Cluster :=
  { oneConfig with
    services := Dict.empty.put ("default", "app") { ApiServer.emptyService with
      finalizers := ["service.kubernetes.io/load-balancer-cleanup"] } }

def unpublishingHeld : Operator :=
  reach (initial heldElsewhere) (publishApp ("default", "a") ++ [takeUnpublished])

theorem at_unpublishingHeld : AtUnpublication .basic unpublishingHeld 0 "default" "app" where
  reached := ⟨_, _, reach_run (by decide +kernel)⟩
  taken := ⟨_, _, rfl, rfl, rfl, by decide⟩

/-- A pass with the old list brings the Service back, and so does the redelivery of the
publication; without both, the finalizer of another still keeps it. -/
theorem stale_upserts :
    (¬∀ api s i ns a ls, AfterUnpublication api s i ns a ls →
      NotRepublished api ns a s (.handle i :: ls) →
        Along (step api) (fun _ _ u => Gone ns a u) s (.handle i :: ls)) ∧
    (¬∀ api s i ns a ls, AfterUnpublication api s i ns a ls →
      NotRelisted api ns a s (.handle i :: ls) →
        Along (step api) (fun _ _ u => Gone ns a u) s (.handle i :: ls)) ∧
    ¬∀ api s i ns a ls, AfterUnpublication api s i ns a ls →
      NotRepublished api ns a s (.handle i :: ls) → NotRelisted api ns a s (.handle i :: ls) →
        Along (step api) (fun _ _ u => NoManaged ns a u) s (.handle i :: ls) := by
  refine ⟨fun h => ?_, fun h => ?_, fun h => ?_⟩
  · have hafter : AfterUnpublication .basic unpublishingListed 0 "default" "app"
        (oldPass ++ [execAll]) :=
      afterUnpublication_of_check at_unpublishingListed (by decide +kernel) (by decide +kernel)
    have hend : endsWith (fun svc => svc.managed && !svc.deletionTimestamp) unpublishingListed
        (.handle 0 :: oldPass) execAll = true := by decide +kernel
    exact not_gone hend (h _ _ _ _ _ _ hafter (never_of_check (by decide +kernel)))
  · have hafter : AfterUnpublication .basic unpublishing 0 "default" "app"
        (redelivery ++ [execAll]) :=
      afterUnpublication_of_check at_unpublishing (by decide +kernel) (by decide +kernel)
    have hend : endsWith (fun svc => svc.managed && !svc.deletionTimestamp) unpublishing
        (.handle 0 :: redelivery) execAll = true := by decide +kernel
    exact not_gone hend (h _ _ _ _ _ _ hafter (never_of_check (by decide +kernel)))
  · have hafter : AfterUnpublication .basic unpublishingHeld 0 "default" "app" [execAll] :=
      afterUnpublication_of_check at_unpublishingHeld (by decide +kernel) (by decide +kernel)
    have hnone : Along (step .basic) (fun _ _ u => NoManaged "default" "app" u)
        unpublishingHeld ([.handle 0] ++ [execAll]) :=
      h _ _ _ _ _ _ hafter (never_of_check (by decide +kernel)) (never_of_check (by decide +kernel))
    have hend : endsWith Service.managed unpublishingHeld [.handle 0] execAll = true := by
      decide +kernel
    obtain ⟨u, v, hlast, hlistings, hpasses, hqueue, hany⟩ := endsWith_last hend
    obtain ⟨svc, hsvc, hmanaged⟩ := (Option.any_eq_true _ _).mp hany
    have hfree := hnone.last hlast hlistings hpasses hqueue svc hsvc
    exact absurd (hmanaged.symm.trans hfree) (by decide)

end Operator
end WadmOperator

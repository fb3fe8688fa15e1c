import WadmOperator.Foundation.Finalizers
import WadmOperator.ReconcileFrames
import WadmOperator.RegisteredPairs

/-!
# The lifecycle of a config

`reconcile` with its finalizer: the finalizer comes before the first reconcile of a config,
and goes after a cleanup. The copy of the config that decides between the two may be out
of date, and users write to configs at any time, also between the `get` of a reconcile and
its other calls.
-/

namespace WadmOperator
namespace Lifecycle

open Finalizers Procedure Transition
open Reconcile hiding step Label

variable {lib : Libraries} {answers : Answers} {key : ObjectKey}

/-- What goes on beside the reconciles: the tasks of the service watcher, and edits of what
the reconciles read. -/
inductive Work where
  | next (i : Nat) (item : StreamItem)
  | handle (i : Nat)
  | settle (i : Nat)
  | observeCancel (i : Nat)
  | recv
  | edit (kind : ObjectKind) (key : ObjectKey) (x : Option (Obj kind))

def watcherStep (s : Context) (l : ServiceWatcher.Label) : Option Context :=
  (s.serviceWatcher.step l).map fun sw => { s with serviceWatcher := sw }

def Work.perform (s : Context) : Work → Option Context
  | next i item => watcherStep s (.next i item)
  | handle i => watcherStep s (.handle i)
  | settle i => watcherStep s (.settle i)
  | observeCancel i => watcherStep s (.observeCancel i)
  | recv => watcherStep s .recv
  | edit kind key x => some (edited s kind key x)

/-- `reconcile`: `reconcile_crd` acts for the config that it has read, and `cleanup` for the
copy that it is given. -/
def reconcile (lib : Libraries) (helper : Helper StoredConfig CLUSTER_CONFIG_FINALIZER) :
    Finalizers.Controller ObjectKey StoredConfig Context Answers Work where
  name := CLUSTER_CONFIG_FINALIZER
  helper := helper
  apply key stored answers s := (reconcileConfig lib answers (configOf key stored) s).2
  cleanup key stored s := cleanup (configOf key stored) s
  work w s := w.perform s
  restart := Retries.restarted

inductive Resource where
  | registered (latticeId ns : String)
  | credentials (nst : NameNamespace)

def Has (s : Context) : Resource → Prop
  | .registered latticeId ns => ns ∈ s.serviceWatcher.registered latticeId
  | .credentials nst => (s.natsCreds.get? nst).isSome = true

def Owes (key : ObjectKey) (stored : StoredConfig) : Resource → Prop
  | .registered latticeId ns => stored.spec.lattice = latticeId ∧ key.1 = ns
  | .credentials nst => nst = nameNamespace key

/-! ## What a reconcile and a cleanup do to the memory -/

def Gains (key : ObjectKey) (stored : StoredConfig) (s u : Context) : Prop :=
  ∀ r, Has u r → Has s r ∨ Owes key stored r

theorem gains_trans {stored : StoredConfig} (s t u : Context) (hst : Gains key stored s t)
    (htu : Gains key stored t u) : Gains key stored s u := by
  intro r hr
  rcases htu r hr with ht | howes
  · exact hst r ht
  · exact .inr howes

def remembered (s : Context) : Dict NameNamespace String × ServiceWatcher :=
  (s.natsCreds, s.serviceWatcher)

theorem gains_of_keeps {α : Type} {stored : StoredConfig} {x : ReconcileM α}
    (hx : Keeps remembered x) : Moves (Gains key stored) x := by
  refine hx.moves fun s t hsame r hr => .inl ?_
  obtain ⟨hcreds, hwatcher⟩ := Prod.mk.inj hsame
  cases r with
  | registered latticeId ns => rwa [Has, hwatcher] at hr
  | credentials nst => rwa [Has, hcreds] at hr

theorem gains_bind {α β : Type} {stored : StoredConfig} {x : ReconcileM α}
    {f : α → ReconcileM β} (hx : Moves (Gains key stored) x)
    (hf : ∀ a, Moves (Gains key stored) (f a)) : Moves (Gains key stored) (x >>= f) :=
  .bind gains_trans hx fun _ a t _ => hf a t

theorem gains_storeSecrets (stored : StoredConfig) (secrets : Secrets) :
    Moves (Gains key stored) (storeSecrets (configOf key stored) secrets) := by
  unfold storeSecrets
  split
  · next creds _ =>
    intro s r hr
    cases r with
    | registered latticeId ns => exact .inl hr
    | credentials nst =>
      simp only [Has, storeNatsCreds, Dict.get?_put] at hr
      split_ifs at hr with heq
      · exact .inr heq
      · exact .inl hr
  · exact gains_of_keeps (ReadOnly.pure _).keeps

theorem gains_readSecrets (stored : StoredConfig) :
    Moves (Gains key stored) (readSecrets answers (configOf key stored)) := by
  unfold readSecrets
  split
  · exact gains_of_keeps (ReadOnly.pure _).keeps
  · refine gains_bind (gains_of_keeps (PodTemplate.getObject_readOnly _ _).keeps) fun secret =>
      gains_bind (gains_of_keeps (ReadOnly.ofExcept _).keeps) fun secrets => ?_
    exact gains_bind (gains_storeSecrets stored secrets)
      fun _ => gains_of_keeps (ReadOnly.pure _).keeps

theorem gains_watch (stored : StoredConfig) (client : NatsClient) :
    Moves (Gains key stored) (watch answers (configOf key stored) client) := by
  intro s r hr
  cases r with
  | credentials nst => exact .inl hr
  | registered latticeId ns =>
    have hr : ns ∈ (s.serviceWatcher.watch client key.1 stored.spec.lattice
        answers.watchError.isNone).1.registered latticeId := hr
    cases hok : (s.serviceWatcher.watch client key.1 stored.spec.lattice
        answers.watchError.isNone).2 with
    | false =>
      rw [ServiceWatcher.watch_failed hok] at hr
      exact .inl hr
    | true =>
      rw [ServiceWatcher.watch_ok hok, ServiceWatcher.registered_watch] at hr
      split_ifs at hr with hlattice
      · rcases Finset.mem_insert.mp hr with rfl | hr
        · exact .inr ⟨hlattice.symm, rfl⟩
        · rw [hlattice]
          exact .inl hr
      · exact .inl hr

theorem gains_reconcileServices (stored : StoredConfig) (apps : List AppSummary) :
    Moves (Gains key stored) (reconcileServices answers (configOf key stored) apps) := by
  intro s r hr
  cases r with
  | credentials nst => exact .inl hr
  | registered latticeId ns =>
    refine .inl ?_
    have hsame := ServiceWatcher.registered_congr (Controller.reconcileApps_watchers
      stored.spec.lattice (fetchManifests answers stored.spec.lattice apps s.serviceWatcher)
      s.serviceWatcher) latticeId
    exact (congrArg (ns ∈ ·) hsame).mp hr

theorem gains_reconcileConfig (key : ObjectKey) (stored : StoredConfig) :
    Moves (Gains key stored) (reconcileConfig lib answers (configOf key stored)) := by
  have hobject : ∀ (kind : ObjectKind) (x : Obj kind), Moves (Gains key stored)
      (ReconcileM.applyObject answers.fails lib.api kind (configOf key stored).key x) :=
    fun kind x => gains_of_keeps (keeps_applyObject _ _ _ fun _ _ => rfl)
  refine gains_bind (gains_readSecrets stored) fun secrets => ?_
  refine gains_bind (hobject _ _) fun _ => ?_
  refine gains_bind (gains_bind (hobject _ _) fun _ => gains_bind (hobject _ _) fun _ =>
    hobject _ _) fun _ => ?_
  refine gains_bind (gains_of_keeps (keeps_configureHosts (fun _ _ => rfl) fun _ _ => rfl))
    fun template => ?_
  refine gains_bind (gains_of_keeps (keeps_configureService (fun _ _ => rfl) _)) fun _ => ?_
  refine gains_bind (gains_of_keeps (ReadOnly.ofExcept _).keeps) fun apps => ?_
  refine gains_bind (gains_of_keeps fun s => ?_) fun _ => ?_
  · unfold ReconcileM.patchStatus
    split <;> rfl
  refine gains_bind (gains_of_keeps (getNatsClient_readOnly _).keeps) fun client => ?_
  refine gains_bind (gains_watch stored client) fun _ => ?_
  refine gains_bind (gains_reconcileServices stored apps) fun _ => ?_
  exact gains_of_keeps (ReadOnly.pure _).keeps

theorem has_cleanup (key : ObjectKey) (stored : StoredConfig) (s : Context) (r : Resource) :
    Has (cleanup (configOf key stored) s).1 r ↔ Has s r ∧ ¬Owes key stored r := by
  cases r with
  | registered latticeId ns =>
    have hwatcher : (cleanup (configOf key stored) s).1.serviceWatcher =
        (s.serviceWatcher.stopWatch stored.spec.lattice key.1).1 := rfl
    rw [Has, Has, hwatcher, ServiceWatcher.registered_stopWatch]
    by_cases hlattice : latticeId = stored.spec.lattice
    · simp [hlattice, Owes, and_comm, eq_comm]
    · simp [hlattice, Owes, Ne.symm hlattice]
  | credentials nst =>
    have hcreds : (cleanup (configOf key stored) s).1.natsCreds =
        s.natsCreds.remove (nameNamespace key) := rfl
    rw [Has, Has, hcreds, Dict.get?_remove]
    by_cases hnst : nst = nameNamespace key
    · simp [hnst, Owes]
    · simp [hnst, Owes]

theorem has_work {w : Work} {s u : Context} {r : Resource} (h : w.perform s = some u)
    (hr : Has u r) : Has s r := by
  have htask : ∀ l, (∀ client ns k created, l ≠ .watch client ns k created) →
      (∀ k ns, l ≠ .stopWatch k ns) → watcherStep s l = some u → Has s r := by
    intro l hwatch hstop hl
    obtain ⟨sw, hsw, rfl⟩ := Option.map_eq_some_iff.mp hl
    cases r with
    | credentials nst => exact hr
    | registered latticeId ns =>
      have hsame := ServiceWatcher.registered_congr
        (ServiceWatcher.step_watchers hsw hwatch hstop) latticeId
      exact (congrArg (ns ∈ ·) hsame).mp hr
  cases w with
  | next i item => exact htask (.next i item) (by simp) (by simp) h
  | handle i => exact htask (.handle i) (by simp) (by simp) h
  | settle i => exact htask (.settle i) (by simp) (by simp) h
  | observeCancel i => exact htask (.observeCancel i) (by simp) (by simp) h
  | recv => exact htask .recv (by simp) (by simp) h
  | edit kind key x =>
    obtain rfl := Option.some.inj h
    cases x <;> exact hr

variable {helper : Helper StoredConfig CLUSTER_CONFIG_FINALIZER}

theorem accounts (lib : Libraries) (helper : Helper StoredConfig CLUSTER_CONFIG_FINALIZER) :
    Accounts (reconcile lib helper) Has Owes where
  apply key stored answers s r hr := gains_reconcileConfig key stored s r hr
  cleanup key stored s r hr := ((has_cleanup key stored s r).mp hr).1
  cleaned key stored s r _ howes hr := ((has_cleanup key stored s r).mp hr).2 howes
  work _ _ _ _ h hr := has_work h hr
  restart s r hr := by
    cases r with
    | registered latticeId ns => exact absurd hr (Finset.notMem_empty ns)
    | credentials nst => cases hr

/-! ## Runs -/

structure Started (s : State ObjectKey StoredConfig Context) : Prop where
  cache : ∀ key, s.cache key = none
  unseen : ∀ key, s.unseen key = []
  stage : ∀ key, s.stage key = .idle
  watcher : s.memory.serviceWatcher = {}
  credentials : s.memory.natsCreds = Dict.empty

/-- Nobody else sets or removes the operator's finalizer, and no config that has it gets
another lattice. -/
def LeavesFinalizer (s : State ObjectKey StoredConfig Context) :
    Label ObjectKey StoredConfig Answers Work → Prop
  | .request _ (.create _ finalizers) => CLUSTER_CONFIG_FINALIZER ∉ finalizers
  | .request key (.edit stored) => ∀ o ∈ held CLUSTER_CONFIG_FINALIZER (s.store key),
      o.content.spec.lattice = stored.spec.lattice
  | .request key (.setFinalizers finalizers) => ∀ o ∈ s.store key,
      CLUSTER_CONFIG_FINALIZER ∈ finalizers ↔ CLUSTER_CONFIG_FINALIZER ∈ o.finalizers
  | _ => True

theorem alike_of_lattice {a b : StoredConfig} (h : a.spec.lattice = b.spec.lattice) :
    Alike Owes key a b := by
  intro r
  cases r with
  | registered latticeId ns => simp only [Owes, h]
  | credentials nst => exact Iff.rfl

theorem leavesHeld (lib : Libraries) {s : State ObjectKey StoredConfig Context}
    {l : Label ObjectKey StoredConfig Answers Work} (h : LeavesFinalizer s l) :
    LeavesHeld (reconcile lib helper) Owes s l := by
  rintro key r rfl
  cases r with
  | create stored finalizers => exact h
  | delete => trivial
  | edit stored => exact fun o ho => alike_of_lattice (h o ho)
  | setFinalizers finalizers => exact h

variable {s u : State ObjectKey StoredConfig Context}
  {ls : List (Label ObjectKey StoredConfig Answers Work)}

theorem sound_started (hstart : Started s) : Sound (reconcile lib helper) Has Owes s := by
  refine sound_initial hstart.cache hstart.unseen hstart.stage fun r hr => ?_
  cases r with
  | registered latticeId ns =>
    rw [Has, hstart.watcher] at hr
    exact Finset.notMem_empty ns hr
  | credentials nst =>
    rw [Has, hstart.credentials] at hr
    cases hr

theorem sound_reached (hstart : Started s) (hrun : Run (step (reconcile lib helper)) s ls u)
    (hguard : Along (step (reconcile lib helper)) (fun s l _ => LeavesFinalizer s l) s ls) :
    Sound (reconcile lib helper) Has Owes u :=
  sound_run (accounts lib helper) hrun
    (.of_guard (I := fun _ => True) (fun _ _ _ _ _ h => ⟨leavesHeld lib h, trivial⟩) trivial hguard)
    (sound_started hstart)

theorem registered_held (h : Sound (reconcile lib helper) Has Owes s) {latticeId ns : String}
    (hns : ns ∈ s.memory.serviceWatcher.registered latticeId) :
    ∃ name o, s.store (ns, name) = some o ∧ CLUSTER_CONFIG_FINALIZER ∈ o.finalizers ∧
      o.content.spec.lattice = latticeId := by
  obtain ⟨⟨_, name⟩, o, ho, ⟨hlattice, rfl⟩, -⟩ := h.memory (.registered latticeId ns) hns
  obtain ⟨hstore, hin⟩ := mem_held.mp ho
  exact ⟨name, o, hstore, hin, hlattice⟩

theorem credentials_held (h : Sound (reconcile lib helper) Has Owes s)
    (hcreds : (s.memory.natsCreds.get? (nameNamespace key)).isSome = true) :
    ∃ o, s.store key = some o ∧ CLUSTER_CONFIG_FINALIZER ∈ o.finalizers := by
  obtain ⟨other, o, ho, howes, -⟩ := h.memory (.credentials (nameNamespace key)) hcreds
  obtain ⟨hname, hns⟩ := NameNamespace.mk.inj howes
  obtain rfl : key = other := Prod.ext hns hname
  obtain ⟨hstore, hin⟩ := mem_held.mp ho
  exact ⟨o, hstore, hin⟩

/-- Whatever becomes of configs, copies and calls, and wherever the process is restarted: it
watches a lattice for a namespace, and has the credentials of a config, only while the API
server keeps such a config with the operator's finalizer. -/
theorem run_configs_held (hstart : Started s) (hrun : Run (step (reconcile lib helper)) s ls u)
    (hguard : Along (step (reconcile lib helper)) (fun s l _ => LeavesFinalizer s l) s ls) :
    (∀ latticeId, ∀ ns ∈ u.memory.serviceWatcher.registered latticeId,
      ∃ name o, u.store (ns, name) = some o ∧ CLUSTER_CONFIG_FINALIZER ∈ o.finalizers ∧
        o.content.spec.lattice = latticeId) ∧
    ∀ key, (u.memory.natsCreds.get? (nameNamespace key)).isSome = true →
      ∃ o, u.store key = some o ∧ CLUSTER_CONFIG_FINALIZER ∈ o.finalizers := by
  have hsound := sound_reached hstart hrun hguard
  exact ⟨fun _ _ hns => registered_held hsound hns, fun _ hcreds => credentials_held hsound hcreds⟩

/-- Once the copy shows the deletion of a config that nobody else holds, five steps for it,
however they are interleaved with others, are enough: the config is gone, the process has no
credentials for it, and what it still watches for the namespace belongs to other configs. -/
theorem run_config_gone {start : State ObjectKey StoredConfig Context}
    {first : List (Label ObjectKey StoredConfig Answers Work)} (hstart : Started start)
    (hfirst : Run (step (reconcile lib helper)) start first s)
    (hleaves : Along (step (reconcile lib helper)) (fun s l _ => LeavesFinalizer s l) start first)
    (hgoing : Going CLUSTER_CONFIG_FINALIZER (s.store key) (s.cache key))
    (hrun : Run (step (reconcile lib helper)) s ls u)
    (hguard : Along (step (reconcile lib helper))
      (fun s l u => LeavesFinalizer s l ∧ Unfailing key l u) s ls)
    (hsteps : 5 ≤ ls.countP (Label.isFor key)) :
    ∃ before after t, ls = before ++ after ∧ Run (step (reconcile lib helper)) s before t ∧
      t.store key = none ∧ t.memory.natsCreds.get? (nameNamespace key) = none ∧
      ∀ latticeId, key.1 ∈ t.memory.serviceWatcher.registered latticeId →
        ∃ name o, name ≠ key.2 ∧ t.store (key.1, name) = some o ∧
          o.content.spec.lattice = latticeId := by
  have hlib : Along (step (reconcile lib helper))
      (fun s l u => LeavesHeld (reconcile lib helper) Owes s l ∧ Unfailing key l u) s ls :=
    .of_guard (I := fun _ => True) (fun _ _ _ _ _ h => ⟨⟨leavesHeld lib h.1, h.2⟩, trivial⟩)
      trivial hguard
  obtain ⟨before, after, t, rfl, hbefore, hsound, hgone⟩ := run_released (accounts lib helper) hrun hlib
    (sound_reached hstart hfirst hleaves) hgoing ((rank_le _).trans hsteps)
  refine ⟨before, after, t, rfl, hbefore, hgone, ?_, fun latticeId hns => ?_⟩
  · cases hcreds : t.memory.natsCreds.get? (nameNamespace key) with
    | none => rfl
    | some creds =>
      obtain ⟨o, hstore, -⟩ := credentials_held hsound (Option.isSome_of_eq_some hcreds)
      rw [hgone] at hstore
      cases hstore
  · obtain ⟨name, o, hstore, -, hlattice⟩ := registered_held hsound hns
    refine ⟨name, o, ?_, hstore, hlattice⟩
    rintro rfl
    rw [hgone] at hstore
    cases hstore

/-! ## A config that comes, goes and comes again -/

def hostKey : ObjectKey := ("default", "host")

def process : Finalizers.Controller ObjectKey StoredConfig Context Answers Work :=
  reconcile .sample (.basic _ _)

def created : Label ObjectKey StoredConfig Answers Work :=
  .request hostKey (.create ⟨"uid-host", .sample⟩ ∅)

def fresh : State ObjectKey StoredConfig Context where
  store _ := none
  memory := {}

theorem fresh_started : Started fresh := ⟨fun _ => rfl, fun _ => rfl, fun _ => rfl, rfl, rfl⟩

/-- The copy that follows on the finalizer is still the one without it. -/
def reconciled : List (Label ObjectKey StoredConfig Answers Work) :=
  [created, .sync hostKey 1, .start hostKey, .hold hostKey, .sync hostKey 0, .sync hostKey 0,
    .start hostKey, .get hostKey, .apply hostKey {}]

def deleted : List (Label ObjectKey StoredConfig Answers Work) :=
  reconciled ++ [.request hostKey .delete, .sync hostKey 1]

/-- The config is there again when the copy still shows the one in deletion. -/
def replaced : List (Label ObjectKey StoredConfig Answers Work) :=
  [.start hostKey, .cleanup hostKey, .release hostKey, created, .sync hostKey 0,
    .sync hostKey 1, .start hostKey, .hold hostKey]

def plainCalls (s : State ObjectKey StoredConfig Context) :
    Label ObjectKey StoredConfig Answers Work → Bool
  | .request _ (.create _ finalizers) => CLUSTER_CONFIG_FINALIZER ∉ finalizers
  | .request _ (.edit _) | .request _ (.setFinalizers _) | .leave _ | .restart => false
  | .cleanup key =>
    match s.stage key with
    | .cleaning content => (process.cleanup key content s.memory).2
    | _ => false
  | _ => true

theorem plainCalls_leaves {s : State ObjectKey StoredConfig Context}
    {l : Label ObjectKey StoredConfig Answers Work} (h : plainCalls s l = true) :
    LeavesFinalizer s l := by
  cases l with
  | request key r =>
    cases r with
    | create stored finalizers =>
      have hfree : CLUSTER_CONFIG_FINALIZER ∉ finalizers := of_decide_eq_true h
      exact hfree
    | delete => trivial
    | edit stored => cases h
    | setFinalizers finalizers => cases h
  | _ => trivial

theorem plainCalls_unfailing {s u : State ObjectKey StoredConfig Context}
    {l : Label ObjectKey StoredConfig Answers Work} (h : plainCalls s l = true)
    (hstep : step process s l = some u) : Unfailing hostKey l u := by
  refine ⟨?_, ?_, ?_⟩
  · rintro rfl
    cases h
  · rintro rfl
    cases h
  · rintro rfl
    simp only [step] at hstep
    split at hstep
    · next content hstage =>
      simp only [plainCalls, hstage] at h
      obtain rfl := Option.some.inj hstep
      refine (s.enter_stage hostKey _).trans ?_
      rw [h]
      rfl
    · cases hstep

theorem along_leaves {s : State ObjectKey StoredConfig Context}
    {ls : List (Label ObjectKey StoredConfig Answers Work)}
    (h : checkAlong (step process) plainCalls s ls = true) :
    Along (step process) (fun s l _ => LeavesFinalizer s l) s ls :=
  along_of_check (P := fun s l _ => LeavesFinalizer s l)
    (fun _ _ _ hplain _ => plainCalls_leaves hplain) h

theorem run_configs_held_created : ∃ u name o, Run (step process) fresh reconciled u ∧
    u.store ("default", name) = some o ∧ CLUSTER_CONFIG_FINALIZER ∈ o.finalizers := by
  have hwatched : (exec (step process) fresh reconciled).any (fun u =>
      "default" ∈ u.memory.serviceWatcher.registered "lattice") = true := by decide +kernel
  obtain ⟨u, hu, hns⟩ := (Option.any_eq_true _ _).mp hwatched
  have hplain : checkAlong (step process) plainCalls fresh reconciled = true := by decide +kernel
  obtain ⟨name, o, hstore, hin, -⟩ := (run_configs_held fresh_started (run_of_exec hu)
    (along_leaves hplain)).1 "lattice" "default" (of_decide_eq_true hns)
  exact ⟨u, name, o, run_of_exec hu, hstore, hin⟩

theorem run_config_gone_replaced : ∃ s before after t, replaced = before ++ after ∧
    Run (step process) fresh deleted s ∧ Run (step process) s before t ∧
      t.store hostKey = none := by
  have hends : (exec (step process) fresh deleted).any (fun s =>
      (exec (step process) s replaced).isSome && checkAlong (step process) plainCalls s replaced &&
        (s.store hostKey).any (fun o => o.deleting && o.finalizers = {CLUSTER_CONFIG_FINALIZER}) &&
        (s.cache hostKey).any (fun o =>
          o.deleting && CLUSTER_CONFIG_FINALIZER ∈ o.finalizers)) = true := by decide +kernel
  obtain ⟨s, hs, hall⟩ := (Option.any_eq_true _ _).mp hends
  simp only [Bool.and_eq_true, Option.any_eq_true, decide_eq_true_eq] at hall
  obtain ⟨⟨⟨hu, hplain⟩, o, hstore, hdeleting, honly⟩, c, hcache, hcopy, hin⟩ := hall
  obtain ⟨u, hu⟩ := Option.isSome_iff_exists.mp hu
  have hfirst : checkAlong (step process) plainCalls fresh deleted = true := by decide +kernel
  obtain ⟨before, after, t, hsplit, hbefore, hgone, -⟩ := run_config_gone fresh_started
    (run_of_exec hs) (along_leaves hfirst)
    ⟨⟨o, hstore, hdeleting, honly⟩, c, hcache, hcopy, hin⟩ (run_of_exec hu)
    (along_of_check (fun _ _ _ h hstep => ⟨plainCalls_leaves h, plainCalls_unfailing h hstep⟩)
      hplain) (by decide)
  exact ⟨s, before, after, t, hsplit, run_of_exec hs, hbefore, hgone⟩

end Lifecycle
end WadmOperator

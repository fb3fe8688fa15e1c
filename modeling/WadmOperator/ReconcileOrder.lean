import WadmOperator.ReconcileFootprint

/-!
# Reconciles in any order

Reconciles of different configs keep to separate locations, so a schedule leaves in the
cluster and in the credentials map what each of its configs leaves alone. Configs may
share a lattice in the map of watchers; there a reconcile only adds its namespace, and
whether it comes so far does not depend on the others.
-/

namespace WadmOperator
namespace Reconcile

open Procedure

variable {lib : Libraries} {answers : Answers} {fails : KubeCall → Bool} {config : HostConfig}
  {key : ObjectKey} {s : Context} {ks js : List ObjectKey}

theorem applyObject_keeps (kind : ObjectKind) (x : Obj kind) :
    Keeps Context.serviceWatcher (ReconcileM.applyObject fails lib.api kind key x) := by
  intro s
  unfold ReconcileM.applyObject
  split <;> rfl

theorem applyService_keeps (svc : Service) :
    Keeps Context.serviceWatcher (ReconcileM.applyService fails lib.api key svc) := by
  intro s
  unfold ReconcileM.applyService
  split <;> rfl

theorem patchStatus_keeps (status : WasmCloudHostConfigStatus) :
    Keeps Context.serviceWatcher (ReconcileM.patchStatus fails key status) := by
  intro s
  unfold ReconcileM.patchStatus
  split <;> rfl

theorem getObject_keeps (kind : ObjectKind) :
    Keeps Context.serviceWatcher (ReconcileM.getObject fails kind key) :=
  (PodTemplate.getObject_readOnly kind key).keeps

theorem readSecrets_keeps (config : HostConfig) :
    Keeps Context.serviceWatcher (readSecrets answers config) := by
  unfold readSecrets
  split
  · exact (ReadOnly.pure _).keeps
  · refine .bind (getObject_keeps _) fun secret => .bind (ReadOnly.ofExcept _).keeps fun secrets =>
      .bind ?_ fun _ => (ReadOnly.pure _).keeps
    unfold storeSecrets
    split
    · exact fun _ => rfl
    · exact (ReadOnly.pure _).keeps

theorem configureAuth_keeps (config : HostConfig) :
    Keeps Context.serviceWatcher (configureAuth lib answers config) :=
  .bind (applyObject_keeps _ _) fun _ => .bind (applyObject_keeps _ _) fun _ =>
    applyObject_keeps _ _

theorem configureHosts_keeps (config : HostConfig) :
    Keeps Context.serviceWatcher (configureHosts lib answers config) := by
  refine .bind (registryEnv_readOnly config).keeps fun _ =>
    .bind (PodTemplate.podTemplate_readOnly config).keeps fun _ =>
      .bind (ReadOnly.ofExcept _).keeps fun template => .bind ?_ fun _ => (ReadOnly.pure _).keeps
  unfold applyWorkload
  split <;> exact applyObject_keeps _ _

theorem getNatsClient_readOnly (config : HostConfig) : ReadOnly (getNatsClient answers config) := by
  intro s
  unfold getNatsClient
  split <;> rfl

theorem reconcileCrd_onError (lib : Libraries) (hwatch : answers.watchError = none)
    (key : ObjectKey) :
    KeepsOnError Context.serviceWatcher (reconcileCrd lib answers key) := by
  refine .bind (getObject_keeps _) fun stored => ?_
  refine .bind (readSecrets_keeps _) fun secrets => ?_
  refine .bind (applyObject_keeps _ _) fun _ => ?_
  refine .bind (configureAuth_keeps _) fun _ => ?_
  refine .bind (configureHosts_keeps _) fun template => ?_
  refine .bind (applyService_keeps _) fun _ => ?_
  refine .bind (ReadOnly.ofExcept _).keeps fun apps => ?_
  refine .bind (patchStatus_keeps _) fun _ => ?_
  refine .bind (getNatsClient_readOnly _).keeps fun client => ?_
  intro s e he
  have hwatched := watch_answers hwatch (configOf key stored) client s
  rw [bind_of_ok (Prod.ext hwatched rfl)] at he
  cases he

def registeredPairs (s : Context) : Set (String × String) :=
  { p | p.2 ∈ s.serviceWatcher.registered p.1 }

def addedPair (key : ObjectKey) : Except ReconcileError Reconciled → Set (String × String)
  | .ok r => {(r.config.spec.lattice, key.1)}
  | .error _ => ∅

theorem registeredPairs_reconcile (hwatch : answers.watchError = none) (key : ObjectKey)
    (s : Context) : registeredPairs (reconcileCrd lib answers key s).2 =
      registeredPairs s ∪ addedPair key (reconcileCrd lib answers key s).1 := by
  have honError := reconcileCrd_onError lib hwatch key s
  rcases hs : reconcileCrd lib answers key s with ⟨e | r, u⟩
  · rw [hs] at honError
    have hsame : u.serviceWatcher = s.serviceWatcher := honError e rfl
    simp [registeredPairs, addedPair, hsame]
  · ext ⟨latticeId, ns⟩
    have hwatchers := Controller.reconcileCrd_watchers (reconcileCrd_ok hs).watcher
    simp only [registeredPairs, addedPair, Set.mem_union, Set.mem_ofPred_eq, Set.mem_singleton_iff,
      Prod.mk.injEq]
    rw [ServiceWatcher.registered_congr hwatchers, ServiceWatcher.registered_watch]
    by_cases hlattice : latticeId = r.config.spec.lattice
    · simp [hlattice, or_comm]
    · simp [hlattice]

def ForeignAuthorities (s : Context) (ks : List ObjectKey) : Prop :=
  ∀ key ∈ ks, ∀ stored, (s.objects .hostConfig).get? key = some stored →
    ∀ authority ∈ (configOf key stored).authorities, ∀ name,
      authority.configMap = some ⟨some name⟩ → (key.1, name) ∉ ks

theorem separate_reconciles (lib : Libraries) (hwatch : answers.watchError = none)
    (hforeign : ForeignAuthorities s ks) :
    Separate Loc.view (SpecsFixed (s.objects .hostConfig)) { key | key ∈ ks }
      (reads (s.objects .hostConfig)) writes (reconcileCrd lib answers) where
  footprint key _ := footprint_reconcileCrd hwatch _ key
  disjoint := by
    intro key hkey other hother hne
    rw [Set.disjoint_left]
    intro i hwrites hreads
    rcases hreads with ((hconfig | hwrites') | hsecret) | ⟨stored, hstored, hauthority⟩
    · obtain rfl : i = _ := hconfig
      simp [writes, authLocs, workloadLocs] at hwrites
    · exact hne ((owner_of_writes hwrites).symm.trans (owner_of_writes hwrites'))
    · obtain ⟨_, rfl⟩ := hsecret
      simp [writes, authLocs, workloadLocs] at hwrites
    · obtain ⟨authority, hin, name, hname, rfl⟩ := hauthority
      have hown : (other.1, name) = key := by
        simpa [writes, authLocs, workloadLocs] using hwrites
      exact hforeign other hother stored hstored authority hin name hname (hown ▸ hkey)

/-- What two schedules leave of all that a reconcile writes, the queued commands apart. -/
structure SameOutcome (u v : Context) : Prop where
  objects : ∀ kind key, (u.objects kind).get? key = (v.objects kind).get? key
  services : ∀ key, u.services.get? key = v.services.get? key
  statuses : ∀ key, u.statuses.get? key = v.statuses.get? key
  natsCreds : ∀ ns, u.natsCreds.get? ns = v.natsCreds.get? ns
  registered : ∀ latticeId, u.serviceWatcher.registered latticeId =
    v.serviceWatcher.registered latticeId

/-- From one state, in whatever order and however often each config is reconciled, the
outcome is the same; a call that fails does so each time. -/
theorem schedule_outcome (hwatch : answers.watchError = none) (hforeign : ForeignAuthorities s ks)
    (hsame : ∀ key, key ∈ ks ↔ key ∈ js) :
    SameOutcome (runAll (reconcileCrd lib answers) s ks) (runAll (reconcileCrd lib answers) s js) := by
  have hsep := separate_reconciles lib hwatch hforeign
  have hjs : ∀ key, key ∈ js ↔ key ∈ { key | key ∈ ks } := fun key => (hsame key).symm
  have hview : ∀ i : Loc, i.view (runAll (reconcileCrd lib answers) s ks) =
      i.view (runAll (reconcileCrd lib answers) s js) :=
    fun i => hsep.view_run_eq (fun _ => Iff.rfl) hjs rfl i
  have hpairs : ∀ is : List ObjectKey, (∀ key ∈ is, key ∈ ks) → ∀ p,
      p ∈ registeredPairs (runAll (reconcileCrd lib answers) s is) ↔
        p ∈ registeredPairs s ∨ ∃ key ∈ is, p ∈ addedPair key (reconcileCrd lib answers key s).1 :=
    fun is his p => hsep.marks_run (fun key _ s _ => registeredPairs_reconcile hwatch key s) his
      rfl p
  refine ⟨fun kind key => hview (.object kind key), fun key => hview (.service key),
    fun key => hview (.status key), fun ns => hview (.natsCreds ns), fun latticeId => ?_⟩
  ext ns
  have hks := hpairs ks (fun _ hkey => hkey) (latticeId, ns)
  have hjs := hpairs js (fun key hkey => (hsame key).mpr hkey) (latticeId, ns)
  simp only [← hsame] at hjs
  exact hks.trans hjs.symm

/-- Two configs of one namespace that share a lattice; one trusts a ConfigMap of others. -/
def sharingConfigs : Context :=
  let authority : Volume := { name := "corporate", configMap := some ⟨some "corporate-ca"⟩ }
  let configs := (({} : Context).putObject .hostConfig ("default", "host")
    ⟨"uid-host", .sample⟩).putObject .hostConfig ("default", "other")
      ⟨"uid-other", { HostConfigSpec.sample with certificates := some ⟨some [authority]⟩ }⟩
  configs.putObject .configMap ("default", "corporate-ca")
    { data := some (Dict.empty.put "ca.crt" "-----BEGIN CERTIFICATE-----") }

theorem schedule_outcome_sharing :
    SameOutcome
      (runAll (reconcileCrd .sample {}) sharingConfigs
        [("default", "host"), ("default", "other"), ("default", "host")])
      (runAll (reconcileCrd .sample {}) sharingConfigs
        [("default", "other"), ("default", "host")]) := by
  refine schedule_outcome rfl ?_ ?_
  · intro key hkey stored hstored authority hauthority name hname
    simp only [List.mem_cons, List.not_mem_nil, or_false] at hkey
    rcases hkey with rfl | rfl | rfl
    · obtain rfl := Option.some.inj hstored
      cases hauthority
    · obtain rfl := Option.some.inj hstored
      obtain rfl := List.mem_singleton.mp hauthority
      obtain rfl := Option.some.inj ((ConfigMapVolumeSource.mk.inj (Option.some.inj hname)))
      decide
    · obtain rfl := Option.some.inj hstored
      cases hauthority
  · intro key
    simp only [List.mem_cons, List.not_mem_nil, or_false]
    tauto

end Reconcile
end WadmOperator

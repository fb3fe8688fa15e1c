import WadmOperator.Foundation.Retry
import WadmOperator.ReconcileOrder

/-!
# Reconciles that fail and are tried again

The controller comes back to a config after an error, and the operator may be restarted at
any time. What an attempt wrote before it stopped stays in the cluster, so a later attempt
starts from a half configured state. A crash before a call leaves the cluster as a refusal
of that call does, so a crash is a failed attempt and a restart after it.
-/

namespace WadmOperator
namespace Reconcile

open Procedure

variable {lib : Libraries} {answers : Answers} {fails : KubeCall → Bool} {config : HostConfig}
  {configs : Dict ObjectKey StoredConfig} {key : ObjectKey} {R : Set Loc}

def applyObjects (lib : Libraries) (answers : Answers) (config : HostConfig) (secrets : Secrets) :
    ReconcileM (HostConfig × Secrets × PodTemplateSpec) := do
  configmap lib answers config secrets.natsCreds.isSome
  configureAuth lib answers config
  let template ← configureHosts lib answers config
  configureService lib answers config
  pure (config, secrets, template)

def prepareConfig (lib : Libraries) (answers : Answers) (config : HostConfig) :
    ReconcileM (HostConfig × Secrets × PodTemplateSpec) := do
  let secrets ← readSecrets answers config
  applyObjects lib answers config secrets

/-- The part of a reconcile that neither NATS nor wadm answers. -/
def prepare (lib : Libraries) (answers : Answers) (key : ObjectKey) :
    ReconcileM (HostConfig × Secrets × PodTemplateSpec) := do
  let stored ← ReconcileM.getObject answers.fails .hostConfig key
  prepareConfig lib answers (configOf key stored)

def conclude (answers : Answers) (prepared : HostConfig × Secrets × PodTemplateSpec) :
    ReconcileM Reconciled := do
  let apps ← listApps answers prepared.1 prepared.2.1.natsCreds
  ReconcileM.patchStatus answers.fails prepared.1.key (statusOf apps)
  let client ← getNatsClient answers prepared.1
  watch answers prepared.1 client
  reconcileServices answers prepared.1 apps
  pure ⟨prepared.1, prepared.2.1, prepared.2.2, apps, client⟩

theorem reconcileCrd_eq (lib : Libraries) (answers : Answers) (key : ObjectKey) :
    reconcileCrd lib answers key = prepare lib answers key >>= conclude answers := by
  simp only [reconcileCrd, reconcileConfig, prepare, prepareConfig, applyObjects, conclude,
    configureService, bind_assoc, pure_bind]

section Covered

variable (lib : Libraries) (answers : Answers) (fails : KubeCall → Bool)

theorem covers_getObject (kind : ObjectKind) (key : ObjectKey) :
    Covers (ReconcileM.getObject (fun _ => false) kind key)
      (ReconcileM.getObject fails kind key) := by
  intro s x t h
  obtain ⟨rfl, hx⟩ := ReconcileM.getObject_ok h
  simp only [ReconcileM.getObject, hx]

theorem covers_secretItems (ns : String) (authority : Volume) :
    Covers (PodTemplate.secretItems (fun _ => false) ns authority)
      (PodTemplate.secretItems fails ns authority) := by
  unfold PodTemplate.secretItems
  split
  · exact .refl _
  · exact .refl _
  · exact .bind (.bind (covers_getObject fails _ _) fun _ => .refl _) fun _ => .refl _

theorem covers_configmapItems (ns : String) (authority : Volume) :
    Covers (PodTemplate.configmapItems (fun _ => false) ns authority)
      (PodTemplate.configmapItems fails ns authority) := by
  unfold PodTemplate.configmapItems
  split
  · exact .refl _
  · exact .refl _
  · exact .bind (.bind (covers_getObject fails _ _) fun _ => .refl _) fun _ => .refl _

theorem covers_addConfigmap (ns volumeName : String) (authority : Volume) (items : List String)
    (acc : Certificates) :
    Covers (PodTemplate.addConfigmap (fun _ => false) ns volumeName authority items acc)
      (PodTemplate.addConfigmap fails ns volumeName authority items acc) :=
  .bind (covers_configmapItems fails ns authority) fun _ => .refl _

theorem covers_addAuthority (ns : String) (authority : Volume) (acc : Certificates) :
    Covers (PodTemplate.addAuthority (fun _ => false) ns authority acc)
      (PodTemplate.addAuthority fails ns authority acc) := by
  simp only [PodTemplate.addAuthority]
  split
  · exact .refl _
  · refine .bind (covers_secretItems fails ns authority) fun found => ?_
    split
    · exact covers_addConfigmap fails _ _ _ _ _
    · exact .refl _
    · exact covers_addConfigmap fails _ _ _ _ _

theorem covers_addAuthorities (ns : String) (authorities : List Volume) (acc : Certificates) :
    Covers (PodTemplate.addAuthorities (fun _ => false) ns authorities acc)
      (PodTemplate.addAuthorities fails ns authorities acc) := by
  induction authorities generalizing acc with
  | nil => exact .refl _
  | cons authority authorities ih => exact .bind (covers_addAuthority fails ns authority acc) ih

theorem covers_podTemplate (config : HostConfig) :
    Covers (PodTemplate.podTemplate lib (fun _ => false) config)
      (PodTemplate.podTemplate lib fails config) :=
  .bind (covers_addAuthorities fails _ _ _) fun _ => .refl _

theorem covers_registryEnv (config : HostConfig) :
    Covers (registryEnv lib {} config) (registryEnv lib answers config) := by
  unfold registryEnv
  split
  · exact .refl _
  · exact .bind (covers_getObject answers.fails _ _) fun _ => .refl _

end Covered

theorem interrupted_getObject {I : Context → Prop} {kind : ObjectKind}
    (h : Loc.object kind key ∈ R) :
    Interrupted Loc.view I R ∅ (ReconcileM.getObject (fun _ => false) kind key)
      (ReconcileM.getObject fails kind key) :=
  .read (footprint_getObject h) (footprint_getObject h) (covers_getObject fails kind key)

theorem interrupted_applyObject {kind : ObjectKind} (x : Obj kind) (hkind : kind ≠ .hostConfig) :
    Interrupted Loc.view (SpecsFixed configs) {.object kind key} {.object kind key}
      (ReconcileM.applyObject (fun _ => false) lib.api kind key x)
      (ReconcileM.applyObject fails lib.api kind key x) :=
  .guarded (fails (.apply kind key)) (.kubeError (.apply kind key))
    (.write (footprint_applyObject x hkind)) fun _ => rfl

theorem interrupted_applyService {svc : Service} (hnone : svc.finalizers = []) :
    Interrupted Loc.view (SpecsFixed configs) {.service key} {.service key}
      (ReconcileM.applyService (fun _ => false) lib.api key svc)
      (ReconcileM.applyService fails lib.api key svc) :=
  .guarded (fails (.applyService key)) (.kubeError (.applyService key))
    (.write (footprint_applyService hnone)) fun _ => rfl

theorem interrupted_applyWorkload (config : HostConfig) (template : PodTemplateSpec) :
    Interrupted Loc.view (SpecsFixed configs) (workloadLocs config.key) (workloadLocs config.key)
      (applyWorkload lib {} config template) (applyWorkload lib answers config template) := by
  unfold applyWorkload
  split
  · exact .mono (interrupted_applyObject _ (by decide)) (by simp [workloadLocs])
      (by simp [workloadLocs]) (Set.Subset.refl _)
  · exact .mono (interrupted_applyObject _ (by decide)) (by simp [workloadLocs])
      (by simp [workloadLocs]) (Set.Subset.refl _)

theorem interrupted_configureAuth (config : HostConfig) :
    Interrupted Loc.view (SpecsFixed configs) (authLocs config.key) (authLocs config.key)
      (configureAuth lib {} config) (configureAuth lib answers config) := by
  refine .mono (.bind (interrupted_applyObject _ (by decide)) (fun _ _ => .bind
    (interrupted_applyObject _ (by decide)) (fun _ _ => interrupted_applyObject _ (by decide))
      ?_ (Set.Subset.refl _)) ?_ (Set.Subset.refl _)) ?_ ?_ (Set.Subset.refl _)
  all_goals simp [authLocs, Set.insert_subset_iff]

theorem interrupted_configureHosts (config : HostConfig) :
    Interrupted Loc.view (SpecsFixed configs) (templateReads config ∪ workloadLocs config.key)
      (workloadLocs config.key) (configureHosts lib {} config)
      (configureHosts lib answers config) := by
  have hdisj : Disjoint (workloadLocs config.key) (templateReads config) := by
    simp [workloadLocs, templateReads, secretLocs, authorityLocs]
  have hsub : workloadLocs config.key ⊆ templateReads config ∪ workloadLocs config.key :=
    Set.subset_union_right
  have hread : ∀ fails, Footprint Loc.view (SpecsFixed configs) (templateReads config) ∅
      (PodTemplate.podTemplate lib fails config) := fun fails =>
    .bind_read (footprint_addAuthorities Set.subset_union_left Set.subset_union_right _)
      fun _ _ => .still _ fun _ => rfl
  have hregistry : ∀ answers, Footprint Loc.view (SpecsFixed configs) (templateReads config) ∅
      (registryEnv lib answers config) := fun answers =>
    footprint_registryEnv Set.subset_union_left config
  refine .mono (.bind_of_read (.read (hregistry {}) (hregistry answers)
    (covers_registryEnv lib answers config)) (fun envVars => ?_) hdisj hsub) ?_
    (Set.Subset.refl _) hsub
  · refine .bind_of_read (.read (hread _) (hread answers.fails)
      (covers_podTemplate lib answers.fails config)) (fun template => ?_) hdisj
      (Set.Subset.refl _)
    refine .still_bind _ (ofExcept_apply _) (fun template => ?_) (Set.Subset.refl _)
    exact .bind_still (interrupted_applyWorkload config template) fun _ =>
      ⟨.ok template, fun _ => rfl⟩
  · simp

def hostLocs (key : ObjectKey) : Set Loc :=
  {.object .configMap key} ∪ authLocs key ∪ workloadLocs key ∪ {.service key}

theorem interrupted_applyObjects (config : HostConfig) (secrets : Secrets) :
    Interrupted Loc.view (SpecsFixed configs) (hostLocs config.key ∪ templateReads config)
      (hostLocs config.key) (applyObjects lib {} config secrets)
      (applyObjects lib answers config secrets) := by
  unfold applyObjects
  refine .mono (.bind (interrupted_applyObject _ (by decide)) (fun _ _ =>
    .bind (interrupted_configureAuth config) (fun _ _ =>
      .bind (interrupted_configureHosts config) (fun template _ =>
        .bind_still (interrupted_applyService rfl) fun _ => ⟨.ok (config, secrets, template),
          fun _ => rfl⟩) ?_ ?_) ?_ ?_) ?_ ?_) ?reads ?_ ?_
  case reads =>
    intro i hi
    simp only [hostLocs, Set.mem_union, Set.mem_singleton_iff] at hi ⊢
    tauto
  -- each part writes what no part before it reads
  all_goals simp [hostLocs, authLocs, workloadLocs, templateReads, secretLocs, authorityLocs,
    Set.insert_subset_iff]

theorem interrupted_readSecrets (config : HostConfig) :
    Interrupted Loc.view (SpecsFixed configs)
      (secretLocs ∪ {.natsCreds (nameNamespace config.key)})
      {.natsCreds (nameNamespace config.key)} (readSecrets {} config)
      (readSecrets answers config) := by
  unfold readSecrets
  split
  · exact .mono (.still (.ok {}) fun _ => rfl) (Set.Subset.refl _) (Set.empty_subset _)
      Set.subset_union_right
  · refine .bind_of_read (interrupted_getObject ⟨_, rfl⟩) (fun secret => ?_) ?_
      (Set.Subset.refl _)
    · refine .still_bind _ (ofExcept_apply _) (fun secrets => ?_) (Set.Subset.refl _)
      exact .bind_still (.write (footprint_storeSecrets secrets)) fun _ =>
        ⟨.ok secrets, fun _ => rfl⟩
    · simp [secretLocs]

def hostReads (configs : Dict ObjectKey StoredConfig) (key : ObjectKey) : Set Loc :=
  {.object .hostConfig key} ∪ hostLocs key ∪ secretLocs ∪
    { i | ∃ stored, configs.get? key = some stored ∧
      i ∈ authorityLocs key.1 (configOf key stored).authorities }

theorem answered_config {stored : StoredConfig}
    (h : ∃ s, SpecsFixed configs s ∧
      (ReconcileM.getObject fails .hostConfig key s).1 = .ok stored) :
    configs.get? key = some stored := by
  obtain ⟨s, hs, hanswer⟩ := h
  rw [← hs]
  exact (ReconcileM.getObject_ok (Prod.ext hanswer rfl)).2

theorem hostReads_of_found {stored : StoredConfig} (hfound : configs.get? key = some stored) :
    hostLocs key ∪ templateReads (configOf key stored) ⊆ hostReads configs key := by
  intro i hi
  rcases hi with hi | hi | hi
  · exact .inl (.inl (.inr hi))
  · exact .inl (.inr hi)
  · exact .inr ⟨stored, hfound, hi⟩

theorem interrupted_prepare (lib : Libraries) (answers : Answers)
    (configs : Dict ObjectKey StoredConfig) (key : ObjectKey) :
    Interrupted Loc.view (SpecsFixed configs)
      ({.natsCreds (nameNamespace key)} ∪ hostReads configs key)
      ({.natsCreds (nameNamespace key)} ∪ hostLocs key) (prepare lib {} key)
      (prepare lib answers key) := by
  have hsub : {Loc.natsCreds (nameNamespace key)} ∪ hostLocs key ⊆
      {.natsCreds (nameNamespace key)} ∪ hostReads configs key := by
    refine Set.union_subset_union (Set.Subset.refl _) ?_
    intro i hi
    exact .inl (.inl (.inr hi))
  have hrest : ∀ stored, configs.get? key = some stored →
      Interrupted Loc.view (SpecsFixed configs)
        ({.natsCreds (nameNamespace key)} ∪ hostReads configs key)
        ({.natsCreds (nameNamespace key)} ∪ hostLocs key) (prepareConfig lib {} (configOf key stored))
        (prepareConfig lib answers (configOf key stored)) := by
    intro stored hfound
    refine .mono (.bind (interrupted_readSecrets _) (fun secrets _ =>
      interrupted_applyObjects _ secrets) ?_ Set.subset_union_left) ?_ (Set.Subset.refl _) hsub
    · simp [hostLocs, authLocs, workloadLocs, secretLocs]
    · have hreads := hostReads_of_found hfound
      intro i hi
      rcases hi with (hi | hi) | hi
      · exact .inr (.inl (.inr hi))
      · exact .inl hi
      · exact .inr (hreads hi)
  refine .mono (.bind (interrupted_getObject (R := {Loc.object .hostConfig key}) rfl)
    (fun stored hstored => hrest stored (hstored.elim answered_config answered_config)) ?_ hsub)
    ?_ ?_ hsub
  · simp [hostLocs, authLocs, workloadLocs]
  · simp [hostReads]
  · simp

/-- What the API server keeps of a config, its status apart. -/
def applied : Set Loc :=
  { i | (∃ kind key, i = .object kind key) ∨ ∃ key, i = .service key }

theorem hostReads_applied (configs : Dict ObjectKey StoredConfig) (key : ObjectKey) :
    hostReads configs key ⊆ applied := by
  intro i hi
  simp only [hostReads, hostLocs, authLocs, workloadLocs, secretLocs, authorityLocs, applied,
    Set.mem_union, Set.mem_insert_iff, Set.mem_singleton_iff, Set.mem_range, Set.mem_ofPred_eq]
    at hi ⊢
  rcases hi with ((rfl | hi) | ⟨other, rfl⟩) | ⟨stored, -, authority, -, name, -, rfl⟩
  · exact .inl ⟨_, _, rfl⟩
  · rcases hi with ((rfl | rfl | rfl | rfl) | rfl | rfl) | rfl
    all_goals simp
  · exact .inl ⟨_, _, rfl⟩
  · exact .inl ⟨_, _, rfl⟩

theorem view_natsCreds (s : Context) (natsCreds : Dict NameNamespace String) (i : applied) :
    viewIn Loc.view applied i { s with natsCreds := natsCreds } = viewIn Loc.view applied i s := by
  obtain ⟨i, hi⟩ := i
  rcases hi with ⟨kind, key, rfl⟩ | ⟨key, rfl⟩ <;> rfl

theorem interrupted_readSecrets_applied (config : HostConfig) :
    Interrupted (viewIn Loc.view applied) (SpecsFixed configs) (within applied secretLocs) ∅
      (readSecrets {} config) (readSecrets answers config) := by
  have hsecrets : secretLocs ⊆ applied := by
    intro i hi
    obtain ⟨key, rfl⟩ := hi
    exact .inl ⟨_, _, rfl⟩
  have hstore : ∀ secrets, Footprint (viewIn Loc.view applied) (SpecsFixed configs) ∅ ∅
      (storeSecrets config secrets) := by
    intro secrets
    unfold storeSecrets
    split
    · next creds _ =>
      exact .blind (.ok ())
        (fun s => { s with natsCreds := s.natsCreds.put (nameNamespace config.key) creds })
        (fun _ => rfl) (fun _ hs => hs) fun s i => view_natsCreds s _ i
    · exact .still (.ok ()) fun _ => rfl
  unfold readSecrets
  split
  · exact .still (.ok {}) fun _ => rfl
  · refine .mono (.bind_of_read ((interrupted_getObject (R := secretLocs) ⟨_, rfl⟩).restrict
        hsecrets)
      (fun secret => ?_) (Set.empty_disjoint _) (Set.Subset.refl _)) ?_ (Set.Subset.refl _)
      (Set.empty_subset _)
    · refine .still_bind _ (ofExcept_apply _) (fun secrets => ?_) (Set.Subset.refl _)
      exact .bind_still (.read (hstore secrets) (hstore secrets) (.refl _)) fun _ =>
        ⟨.ok secrets, fun _ => rfl⟩
    · simp

theorem interrupted_prepare_applied (lib : Libraries) (answers : Answers)
    (configs : Dict ObjectKey StoredConfig) (key : ObjectKey) :
    Interrupted (viewIn Loc.view applied) (SpecsFixed configs)
      (within applied (hostReads configs key)) (within applied (hostLocs key))
      (prepare lib {} key) (prepare lib answers key) := by
  have hreads := hostReads_applied configs key
  have hsub : within applied (hostLocs key) ⊆ within applied (hostReads configs key) :=
    fun _ hi => .inl (.inl (.inr hi))
  have hrest : ∀ stored, configs.get? key = some stored →
      Interrupted (viewIn Loc.view applied) (SpecsFixed configs)
        (within applied (hostReads configs key)) (within applied (hostLocs key))
        (prepareConfig lib {} (configOf key stored))
        (prepareConfig lib answers (configOf key stored)) := by
    intro stored hfound
    have hobjects := hostReads_of_found hfound
    refine .mono (.bind_of_read (interrupted_readSecrets_applied _) (fun secrets =>
      (interrupted_applyObjects _ secrets).restrict (hobjects.trans hreads)) ?_ ?_) ?_
      (Set.Subset.refl _) hsub
    · rw [Set.disjoint_left]
      intro i hi hsecret
      obtain ⟨other, heq⟩ := hsecret
      have hown : i.val ∈ hostLocs key := hi
      rw [← heq] at hown
      simp [hostLocs, authLocs, workloadLocs] at hown
    · exact fun _ hi => .inl hi
    · rintro i (hi | hi)
      · exact .inl (.inr hi)
      · exact hobjects hi
  refine .mono (.bind ((interrupted_getObject (R := {Loc.object .hostConfig key}) rfl).restrict ?_)
    (fun stored hstored => hrest stored (hstored.elim answered_config answered_config)) ?_ hsub)
    ?_ ?_ hsub
  · exact Set.singleton_subset_iff.mpr (.inl ⟨_, _, rfl⟩)
  · rw [Set.disjoint_left]
    intro i hi hconfig
    have hown : i.val ∈ hostLocs key := hi
    have heq : i.val = .object .hostConfig key := hconfig
    rw [heq] at hown
    simp [hostLocs, authLocs, workloadLocs] at hown
  · rintro i (hi | hi)
    · exact .inl (.inl (.inl hi))
    · exact hi
  · simp

theorem conclude_keeps (answers : Answers) (prepared : HostConfig × Secrets × PodTemplateSpec) :
    Keeps (fun s => (s.objects, s.services)) (conclude answers prepared) := by
  unfold conclude
  refine .bind (ReadOnly.ofExcept _).keeps fun apps => .bind ?_ fun _ =>
    .bind (getNatsClient_readOnly _).keeps fun client => .bind (fun _ => rfl) fun _ =>
      .bind (fun _ => rfl) fun _ => (ReadOnly.pure _).keeps
  intro s
  unfold ReconcileM.patchStatus
  split <;> rfl

theorem view_of_cluster {s t : Context} (hobjects : t.objects = s.objects)
    (hservices : t.services = s.services) (i : applied) :
    viewIn Loc.view applied i t = viewIn Loc.view applied i s := by
  obtain ⟨i, hi⟩ := i
  rcases hi with ⟨kind, key, rfl⟩ | ⟨key, rfl⟩
  · exact congrArg (fun objects => (objects kind).get? key) hobjects
  · exact congrArg (fun services => services.get? key) hservices

theorem view_reconcileCrd (lib : Libraries) (answers : Answers) (key : ObjectKey) (s : Context)
    (i : applied) : viewIn Loc.view applied i (reconcileCrd lib answers key s).2 =
      viewIn Loc.view applied i (prepare lib answers key s).2 := by
  rw [reconcileCrd_eq, bind_eq]
  rcases prepare lib answers key s with ⟨e | prepared, t⟩
  · rfl
  · have hkeeps := Prod.mk.inj (conclude_keeps answers prepared t)
    exact view_of_cluster hkeeps.1 hkeeps.2 i

theorem specsFixed_reconcileCrd {s : Context} (hs : SpecsFixed configs s) :
    SpecsFixed configs (reconcileCrd lib answers key s).2 := by
  have hprepared := (interrupted_prepare lib answers configs
    key).footprint.keeps s hs
  rw [reconcileCrd_eq, bind_eq]
  rcases hp : prepare lib answers key s with ⟨e | prepared, t⟩ <;> rw [hp] at hprepared
  · exact hprepared
  · have hkeeps := Prod.mk.inj (conclude_keeps answers prepared t)
    have hobjects : (conclude answers prepared t).2.objects = t.objects := hkeeps.1
    exact (congrFun hobjects .hostConfig).trans hprepared

end Reconcile

/-! ## Histories of attempts and restarts -/

namespace Retries

open Procedure Reconcile

inductive Event where
  | attempt (key : ObjectKey) (answers : Answers)
  | restart

def restarted (s : Context) : Context := { s with natsCreds := Dict.empty, serviceWatcher := {} }

def happen (lib : Libraries) (s : Context) : Event → Context
  | .attempt key answers => (reconcileCrd lib answers key s).2
  | .restart => restarted s

def replay (lib : Libraries) : Context → List Event → Context
  | s, [] => s
  | s, e :: events => replay lib (happen lib s e) events

def configured (lib : Libraries) : Context → List Event → Set ObjectKey
  | _, [] => ∅
  | s, .attempt key answers :: events =>
    { k | k = key ∧ ∃ prepared, (prepare lib answers key s).1 = .ok prepared } ∪
      configured lib (happen lib s (.attempt key answers)) events
  | s, .restart :: events => configured lib (happen lib s .restart) events

def Among (ks : List ObjectKey) (events : List Event) : Prop :=
  ∀ key answers, .attempt key answers ∈ events → key ∈ ks

variable {lib : Libraries} {s t : Context} {ks : List ObjectKey} {events : List Event}

abbrev Settled (lib : Libraries) (ks : List ObjectKey) (s : Context) (done : Set ObjectKey)
    (t : Context) : Prop :=
  Settling (viewIn Loc.view applied) (SpecsFixed (s.objects .hostConfig)) { key | key ∈ ks }
    (fun key => within applied (hostReads (s.objects .hostConfig) key))
    (fun key => within applied (hostLocs key)) (prepare lib {}) s done t

theorem hostLocs_writes (key : ObjectKey) : hostLocs key ⊆ writes key := by
  intro i hi
  simp only [hostLocs, writes, Set.mem_union, Set.mem_insert_iff, Set.mem_singleton_iff] at hi ⊢
  tauto

theorem hostReads_reads (configs : Dict ObjectKey StoredConfig) (key : ObjectKey) :
    hostReads configs key ⊆ reads configs key := by
  intro i hi
  rcases hi with ((hi | hi) | hi) | hi
  · exact .inl (.inl (.inl hi))
  · exact .inl (.inl (.inr (hostLocs_writes key hi)))
  · exact .inl (.inr hi)
  · exact .inr hi

theorem separate_locations (lib : Libraries) (hforeign : ForeignAuthorities s ks)
    {key other : ObjectKey} (hkey : key ∈ ks) (hother : other ∈ ks) (hne : key ≠ other) :
    Disjoint (writes key) (reads (s.objects .hostConfig) other) :=
  have hwatch : ({} : Answers).watchError = none := rfl
  (separate_reconciles lib hwatch hforeign).disjoint key hkey other hother hne

theorem interrupted_each (lib : Libraries) (hforeign : ForeignAuthorities s ks) :
    InterruptedEach (viewIn Loc.view applied) (SpecsFixed (s.objects .hostConfig))
      { key | key ∈ ks } (fun key => within applied (hostReads (s.objects .hostConfig) key))
      (fun key => within applied (hostLocs key)) (prepare lib {})
      (fun key answers => prepare lib answers key) where
  attempt key _ answers := interrupted_prepare_applied lib answers _ key
  disjoint key hkey other hother hne := by
    have hsep := separate_locations lib hforeign hkey hother hne
    rw [Set.disjoint_left] at hsep ⊢
    intro i hi hread
    exact hsep (hostLocs_writes key hi) (hostReads_reads _ other hread)

theorem settled_happen (hforeign : ForeignAuthorities s ks) {done : Set ObjectKey}
    (h : Settled lib ks s done t) {key : ObjectKey} (hkey : key ∈ ks) (answers : Answers) :
    Settled lib ks s
      (done ∪ { k | k = key ∧ ∃ prepared, (prepare lib answers key t).1 = .ok prepared })
      (happen lib t (.attempt key answers)) :=
  (h.attempt (interrupted_each lib hforeign) rfl hkey answers).2.unseen
    (specsFixed_reconcileCrd h.keeps) (view_reconcileCrd lib answers key t)

theorem settled_restarted {done : Set ObjectKey} (h : Settled lib ks s done t) :
    Settled lib ks s done (restarted t) :=
  h.unseen h.keeps (view_of_cluster rfl rfl)

theorem settled_replay (hforeign : ForeignAuthorities s ks) (hamong : Among ks events)
    {done : Set ObjectKey} (h : Settled lib ks s done t) :
    Settled lib ks s (done ∪ configured lib t events) (replay lib t events) := by
  induction events generalizing t done with
  | nil =>
    rw [configured, Set.union_empty]
    exact h
  | cons e events ih =>
    have hrest : Among ks events := fun key answers hin =>
      hamong key answers (List.mem_cons_of_mem _ hin)
    cases e with
    | attempt key answers =>
      have hkey := hamong key answers List.mem_cons_self
      rw [configured, ← Set.union_assoc]
      exact ih hrest (settled_happen hforeign h hkey answers)
    | restart => exact ih hrest (settled_restarted h)

theorem settled_start (lib : Libraries) (ks : List ObjectKey) (s : Context) :
    Settled lib ks s ∅ s := Settling.start rfl

/-- Whatever is refused in a history of attempts and restarts, each object of a config is as
at the start or as one reconcile without refusals applies it there, and it stays so once an
attempt came as far as asking wadm. Nothing else that the API server keeps is touched. -/
theorem replay_settles (hforeign : ForeignAuthorities s ks) (hamong : Among ks events) :
    (∀ key ∈ ks, ∀ i ∈ hostLocs key,
      (i.view (replay lib s events) = i.view s ∨
        i.view (replay lib s events) = i.view (reconcileCrd lib {} key s).2) ∧
      (key ∈ configured lib s events →
        i.view (replay lib s events) = i.view (reconcileCrd lib {} key s).2)) ∧
    ∀ i ∈ applied, (∀ key ∈ ks, i ∉ hostLocs key) →
      i.view (replay lib s events) = i.view s := by
  have hsettled := settled_replay hforeign hamong (settled_start lib ks s)
  rw [Set.empty_union] at hsettled
  constructor
  · intro key hkey i hi
    have hread : i ∈ hostReads (s.objects .hostConfig) key := .inl (.inl (.inr hi))
    have happlied := hostReads_applied (s.objects .hostConfig) key hread
    have hwhole := view_reconcileCrd lib {} key s ⟨i, happlied⟩
    constructor
    · rcases hsettled.between key hkey ⟨i, happlied⟩ hread with hold | hnew
      · exact .inl hold
      · exact .inr (hnew.trans hwhole.symm)
    · intro hdone
      exact (hsettled.final key hkey hdone ⟨i, happlied⟩ hi).trans hwhole.symm
  · intro i hi hother
    exact hsettled.frame ⟨i, hi⟩ fun key hkey hmem => hother key hkey hmem

def sharingKeys : List ObjectKey := [("default", "host"), ("default", "other")]

theorem sharingConfigs_foreign : ForeignAuthorities sharingConfigs sharingKeys := by
  intro key hkey stored hstored authority hauthority name hname
  simp only [sharingKeys, List.mem_cons, List.not_mem_nil, or_false] at hkey
  rcases hkey with rfl | rfl
  · obtain rfl := Option.some.inj hstored
    cases hauthority
  · obtain rfl := Option.some.inj hstored
    obtain rfl := List.mem_singleton.mp hauthority
    obtain rfl := Option.some.inj (ConfigMapVolumeSource.mk.inj (Option.some.inj hname))
    decide

/-- The first attempt has its Deployment refused, the second one finds no wadm. -/
def refusedOnce : List Event :=
  [.attempt ("default", "host")
      { fails := fun call => call = .apply .deployment ("default", "host") },
    .restart,
    .attempt ("default", "host") { nats := { listManifests := fun _ _ => .error "timed out" } },
    .attempt ("default", "other")
      { fails := fun call => call = .get .configMap ("default", "corporate-ca") },
    .attempt ("default", "other") {}]

theorem refusedOnce_among : Among sharingKeys refusedOnce := by
  intro key answers hin
  simp only [refusedOnce, List.mem_cons, Event.attempt.injEq, reduceCtorEq, List.not_mem_nil,
    or_false, false_or] at hin
  rcases hin with ⟨rfl, -⟩ | ⟨rfl, -⟩ | ⟨rfl, -⟩ | ⟨rfl, -⟩ <;> decide

theorem configured_refusedOnce :
    ∀ key ∈ sharingKeys, key ∈ configured .sample sharingConfigs refusedOnce := by
  intro key hkey
  simp only [sharingKeys, List.mem_cons, List.not_mem_nil, or_false] at hkey
  rcases hkey with rfl | rfl
  · exact .inr (.inl ⟨rfl, _, rfl⟩)
  · exact .inr (.inr (.inr (.inl ⟨rfl, _, rfl⟩)))

theorem replay_settles_refused :
    Loc.view (.object .deployment ("default", "host"))
        (replay .sample sharingConfigs refusedOnce) =
      Loc.view (.object .deployment ("default", "host"))
        (reconcileCrd .sample {} ("default", "host") sharingConfigs).2 ∧
    Loc.view (.object .deployment ("default", "other"))
        (replay .sample sharingConfigs refusedOnce) =
      Loc.view (.object .deployment ("default", "other"))
        (reconcileCrd .sample {} ("default", "other") sharingConfigs).2 := by
  have hsettles : ∀ key ∈ sharingKeys,
      Loc.view (.object .deployment key) (replay .sample sharingConfigs refusedOnce) =
        Loc.view (.object .deployment key) (reconcileCrd .sample {} key sharingConfigs).2 := by
    intro key hkey
    exact ((replay_settles sharingConfigs_foreign refusedOnce_among).1 key hkey _
      (by simp [hostLocs, workloadLocs])).2 (configured_refusedOnce key hkey)
  exact ⟨hsettles _ (by decide), hsettles _ (by decide)⟩

end Retries
end WadmOperator

import WadmOperator.ReconcileSteps

/-!
# The footprint of a reconcile

A reconcile reads its config, Secrets, the ConfigMaps of the certificate authorities and
its own objects, and it changes its own objects only. Each part keeps to its locations
and changes nothing when it is done again, so all of `reconcile_crd` does. The watchers
are not looked at here.
-/

namespace WadmOperator
namespace Reconcile

inductive Loc where
  | object (kind : ObjectKind) (key : ObjectKey)
  | service (key : ObjectKey)
  | status (key : ObjectKey)
  | natsCreds (ns : NameNamespace)

namespace Loc

abbrev Value : Loc → Type
  | object kind _ => Option (Obj kind)
  | service _ => Option StoredService
  | status _ => Option WasmCloudHostConfigStatus
  | natsCreds _ => Option String

def view : (i : Loc) → Context → i.Value
  | object kind key, s => (s.objects kind).get? key
  | service key, s => s.services.get? key
  | status key, s => s.statuses.get? key
  | natsCreds ns, s => s.natsCreds.get? ns

def owner : Loc → ObjectKey
  | object _ key => key
  | service key => key
  | status key => key
  | natsCreds ns => (ns.ns, ns.name)

end Loc

open Procedure

def SpecsFixed (configs : Dict ObjectKey StoredConfig) (s : Context) : Prop :=
  s.objects .hostConfig = configs

def secretLocs : Set Loc := Set.range (Loc.object .secret)

def authorityLocs (ns : String) (authorities : List Volume) : Set Loc :=
  { i | ∃ authority ∈ authorities, ∃ name,
    authority.configMap = some ⟨some name⟩ ∧ i = .object .configMap (ns, name) }

def workloadLocs (key : ObjectKey) : Set Loc := {.object .deployment key, .object .daemonSet key}

def authLocs (key : ObjectKey) : Set Loc :=
  {.object .serviceAccount key, .object .role key, .object .roleBinding key}

def writes (key : ObjectKey) : Set Loc :=
  {.natsCreds (nameNamespace key), .object .configMap key} ∪ authLocs key ∪ workloadLocs key ∪
    {.service key, .status key}

def reads (configs : Dict ObjectKey StoredConfig) (key : ObjectKey) : Set Loc :=
  {.object .hostConfig key} ∪ writes key ∪ secretLocs ∪
    { i | ∃ stored, configs.get? key = some stored ∧
      i ∈ authorityLocs key.1 (configOf key stored).authorities }

variable {lib : Libraries} {answers : Answers} {fails : KubeCall → Bool} {config : HostConfig}
  {configs : Dict ObjectKey StoredConfig} {key : ObjectKey} {R : Set Loc}

theorem owner_of_writes {i : Loc} (h : i ∈ writes key) : i.owner = key := by
  simp only [writes, authLocs, workloadLocs, Set.mem_union, Set.mem_insert_iff,
    Set.mem_singleton_iff] at h
  rcases h with (((rfl | rfl) | (rfl | rfl | rfl)) | (rfl | rfl)) | (rfl | rfl) <;> rfl

theorem footprint_getObject {I : Context → Prop} {kind : ObjectKind}
    (h : Loc.object kind key ∈ R) :
    Footprint Loc.view I R ∅ (ReconcileM.getObject fails kind key) := by
  refine .read (fun s => (ReconcileM.getObject fails kind key s).1) ?_ ?_
  · intro s
    unfold ReconcileM.getObject
    split <;> rfl
  · intro s t _ _ hagree
    have hsame : (s.objects kind).get? key = (t.objects kind).get? key := hagree _ h
    unfold ReconcileM.getObject
    rw [hsame]
    split <;> rfl

theorem view_putObject {s : Context} {kind : ObjectKind} (x : Obj kind) :
    ∀ i, i ≠ Loc.object kind key → i.view (s.putObject kind key x) = i.view s := by
  intro i hi
  cases i with
  | object kind' key' =>
    by_cases hkind : kind' = kind
    · subst hkind
      have hkey : key' ≠ key := fun heq => hi (by rw [heq])
      exact (Context.putObject_get? x key').trans (if_neg hkey)
    · exact congrArg (fun d => d.get? key') (Context.putObject_other x hkind)
  | service _ | status _ | natsCreds _ => rfl

theorem footprint_applyObject {kind : ObjectKind} (x : Obj kind) (hkind : kind ≠ .hostConfig) :
    Footprint Loc.view (SpecsFixed configs) {.object kind key} {.object kind key}
      (ReconcileM.applyObject fails lib.api kind key x) := by
  refine .guarded (fails (.apply kind key)) (.kubeError (.apply kind key))
    (.write (i := Loc.object kind key) (.ok ()) (fun s : Context =>
        s.putObject kind key (lib.api.applyObject kind ((s.objects kind).get? key) x))
      (fun current => some (lib.api.applyObject kind current x)) (fun _ => rfl) ?_ ?_ ?_ ?_)
    fun _ => rfl
  · intro s hs
    exact (Context.putObject_other _ (Ne.symm hkind)).trans hs
  · intro s
    exact (Context.putObject_get? _ key).trans (if_pos rfl)
  · intro s i hi
    exact view_putObject _ i hi
  · intro current
    exact congrArg some (lib.api.object_again kind current x)

theorem footprint_applyService {svc : Service} (hnone : svc.finalizers = []) :
    Footprint Loc.view (SpecsFixed configs) {.service key} {.service key}
      (ReconcileM.applyService fails lib.api key svc) := by
  refine .guarded (fails (.applyService key)) (.kubeError (.applyService key))
    (.write (i := Loc.service key) (.ok ()) (fun s : Context => { s with
        services := s.services.put key (lib.api.applyHostService (s.services.get? key) svc) })
      (fun current => some (lib.api.applyHostService current svc)) (fun _ => rfl)
      (fun _ hs => hs) ?_ ?_ ?_)
    fun _ => rfl
  · intro s
    exact Dict.get?_put_self _ _ _
  · intro s i hi
    cases i with
    | service key' => exact (Dict.get?_put _ _ _ _).trans (if_neg fun heq => hi (by rw [heq]))
    | object _ _ | status _ | natsCreds _ => rfl
  · intro current
    exact congrArg some (lib.api.applyHostService_again current hnone)

theorem footprint_patchStatus (status : WasmCloudHostConfigStatus) :
    Footprint Loc.view (SpecsFixed configs) {.status key} {.status key}
      (ReconcileM.patchStatus fails key status) := by
  refine .guarded (fails (.patchStatus key)) (.kubeError (.patchStatus key))
    (.write (i := Loc.status key) (.ok ()) (fun s : Context =>
        { s with statuses := s.statuses.put key status })
      (fun _ => some status) (fun _ => rfl) (fun _ hs => hs) ?_ ?_ fun _ => rfl)
    fun _ => rfl
  · intro s
    exact Dict.get?_put_self _ _ _
  · intro s i hi
    cases i with
    | status key' => exact (Dict.get?_put _ _ _ _).trans (if_neg fun heq => hi (by rw [heq]))
    | object _ _ | service _ | natsCreds _ => rfl

theorem footprint_storeSecrets (secrets : Secrets) :
    Footprint Loc.view (SpecsFixed configs) {.natsCreds (nameNamespace config.key)}
      {.natsCreds (nameNamespace config.key)} (storeSecrets config secrets) := by
  unfold storeSecrets
  split
  · next creds hcreds =>
    refine .write (i := Loc.natsCreds (nameNamespace config.key)) (.ok ())
      (fun s : Context => { s with natsCreds := s.natsCreds.put (nameNamespace config.key) creds })
      (fun _ => some creds) (fun _ => rfl) (fun _ hs => hs) ?_ ?_ (fun _ => rfl)
    · intro s
      exact Dict.get?_put_self _ _ _
    · intro s i hi
      cases i with
      | natsCreds ns => exact (Dict.get?_put _ _ _ _).trans (if_neg fun heq => hi (by rw [heq]))
      | object _ _ | service _ | status _ => rfl
  · exact .mono (.still (.ok ()) fun _ => rfl) (Set.Subset.refl _) (Set.empty_subset _)
      (Set.Subset.refl _)

theorem footprint_readSecrets (config : HostConfig) :
    Footprint Loc.view (SpecsFixed configs) (secretLocs ∪ {.natsCreds (nameNamespace config.key)})
      {.natsCreds (nameNamespace config.key)} (readSecrets answers config) := by
  unfold readSecrets
  split
  · exact .mono (.still (.ok {}) fun _ => rfl) (Set.Subset.refl _) (Set.empty_subset _)
      Set.subset_union_right
  · next name _ =>
    refine .bind_of_read (footprint_getObject ⟨_, rfl⟩) (fun secret _ => ?_) ?_ (Set.Subset.refl _)
    · refine .still_bind _ (ofExcept_apply _) (fun secrets => ?_) (Set.Subset.refl _)
      exact .bind_still (footprint_storeSecrets secrets) fun _ => ⟨.ok secrets, fun _ => rfl⟩
    · simp [secretLocs]

theorem footprint_secretItems {I : Context → Prop} (hR : secretLocs ⊆ R) (ns : String)
    (authority : Volume) :
    Footprint Loc.view I R ∅ (PodTemplate.secretItems fails ns authority) := by
  unfold PodTemplate.secretItems
  split
  · exact .still _ fun _ => rfl
  · exact .still _ fun _ => rfl
  · refine .bind_read ?_ fun _ _ => .still _ fun _ => rfl
    exact .bind_read (footprint_getObject (hR ⟨_, rfl⟩)) fun _ _ => .still _ fun _ => rfl

theorem footprint_configmapItems {I : Context → Prop} {ns : String} {authority : Volume}
    (hR : authorityLocs ns [authority] ⊆ R) :
    Footprint Loc.view I R ∅ (PodTemplate.configmapItems fails ns authority) := by
  unfold PodTemplate.configmapItems
  split
  · exact .still _ fun _ => rfl
  · exact .still _ fun _ => rfl
  · next name hname =>
    refine .bind_read ?_ fun _ _ => .still _ fun _ => rfl
    refine .bind_read (footprint_getObject (hR ?_)) fun _ _ => .still _ fun _ => rfl
    exact ⟨authority, List.mem_cons_self, name, hname, rfl⟩

theorem footprint_addConfigmap {I : Context → Prop} {ns : String} {authority : Volume}
    (hR : authorityLocs ns [authority] ⊆ R) (volumeName : String) (items : List String)
    (acc : Certificates) :
    Footprint Loc.view I R ∅ (PodTemplate.addConfigmap fails ns volumeName authority items acc) := by
  refine .bind_read (footprint_configmapItems hR) fun found _ => ?_
  split <;> exact .still _ fun _ => rfl

theorem footprint_addAuthorities {I : Context → Prop} {ns : String} {authorities : List Volume}
    (hsecrets : secretLocs ⊆ R) (hmaps : authorityLocs ns authorities ⊆ R) (acc : Certificates) :
    Footprint Loc.view I R ∅ (PodTemplate.addAuthorities fails ns authorities acc) := by
  induction authorities generalizing acc with
  | nil => exact .still _ fun _ => rfl
  | cons authority authorities ih =>
    have hfirst : authorityLocs ns [authority] ⊆ R := by
      intro i hi
      obtain ⟨own, hown, hname⟩ := hi
      rw [List.mem_singleton.mp hown] at hname
      exact hmaps ⟨authority, List.mem_cons_self, hname⟩
    have hrest : authorityLocs ns authorities ⊆ R := by
      intro i hi
      obtain ⟨own, hown, hname⟩ := hi
      exact hmaps ⟨own, List.mem_cons_of_mem _ hown, hname⟩
    refine .bind_read ?_ fun acc _ => ih hrest acc
    simp only [PodTemplate.addAuthority]
    split
    · exact .still _ fun _ => rfl
    · refine .bind_read (footprint_secretItems hsecrets ns authority) fun found _ => ?_
      split
      · exact footprint_addConfigmap hfirst _ _ _
      · exact .still _ fun _ => rfl
      · exact footprint_addConfigmap hfirst _ _ _

theorem footprint_registryEnv {I : Context → Prop} (hR : secretLocs ⊆ R) (config : HostConfig) :
    Footprint Loc.view I R ∅ (registryEnv lib answers config) := by
  unfold registryEnv
  split
  · exact .still _ fun _ => rfl
  · refine .bind_read (footprint_getObject (hR ⟨_, rfl⟩)) fun secret _ => ?_
    exact .bind_read (.still _ (ofExcept_apply _)) fun docker _ => .still _ (ofExcept_apply _)

theorem footprint_applyWorkload (config : HostConfig) (template : PodTemplateSpec) :
    Footprint Loc.view (SpecsFixed configs) (workloadLocs config.key) (workloadLocs config.key)
      (applyWorkload lib answers config template) := by
  unfold applyWorkload
  split
  · exact .mono (footprint_applyObject _ (by decide)) (by simp [workloadLocs])
      (by simp [workloadLocs]) (Set.Subset.refl _)
  · exact .mono (footprint_applyObject _ (by decide)) (by simp [workloadLocs])
      (by simp [workloadLocs]) (Set.Subset.refl _)

def templateReads (config : HostConfig) : Set Loc :=
  secretLocs ∪ authorityLocs config.ns config.authorities

theorem footprint_configureHosts (config : HostConfig) :
    Footprint Loc.view (SpecsFixed configs) (templateReads config ∪ workloadLocs config.key)
      (workloadLocs config.key) (configureHosts lib answers config) := by
  have hdisj : Disjoint (workloadLocs config.key) (templateReads config) := by
    simp [workloadLocs, templateReads, secretLocs, authorityLocs]
  have hsub : workloadLocs config.key ⊆ templateReads config ∪ workloadLocs config.key :=
    Set.subset_union_right
  have htemplate : Footprint Loc.view (SpecsFixed configs) (templateReads config) ∅
      (PodTemplate.podTemplate lib answers.fails config) :=
    .bind_read (footprint_addAuthorities Set.subset_union_left Set.subset_union_right _)
      fun _ _ => .still _ fun _ => rfl
  have happly : ∀ envVars template, Footprint Loc.view (SpecsFixed configs)
      (workloadLocs config.key) (workloadLocs config.key)
      (ofExcept (appendEnv envVars template) >>= fun template =>
        applyWorkload lib answers config template >>= fun _ => pure template) := by
    intro envVars template
    refine .still_bind _ (ofExcept_apply _) (fun template => ?_) (Set.Subset.refl _)
    exact .bind_still (footprint_applyWorkload config template) fun _ =>
      ⟨.ok template, fun _ => rfl⟩
  refine .mono (.bind_of_read (footprint_registryEnv (R := templateReads config)
    Set.subset_union_left config) (fun envVars _ => ?_) hdisj hsub) ?_ (Set.Subset.refl _) hsub
  · exact .bind_of_read htemplate (fun template _ => happly envVars template) hdisj
      (Set.Subset.refl _)
  · simp

theorem footprint_configureAuth (config : HostConfig) :
    Footprint Loc.view (SpecsFixed configs) (authLocs config.key) (authLocs config.key)
      (configureAuth lib answers config) := by
  refine .mono (.bind (footprint_applyObject _ (by decide)) (fun _ _ => .bind
    (footprint_applyObject _ (by decide)) (fun _ _ => footprint_applyObject _ (by decide))
      ?_ (Set.Subset.refl _)) ?_ (Set.Subset.refl _)) ?_ ?_ (Set.Subset.refl _)
  all_goals simp [authLocs, Set.insert_subset_iff]

theorem footprint_getNatsClient {I : Context → Prop} (config : HostConfig) :
    Footprint Loc.view I {.natsCreds (nameNamespace config.key)} ∅
      (getNatsClient answers config) := by
  refine .read (fun s => (getNatsClient answers config s).1) ?_ ?_
  · intro s
    unfold getNatsClient
    split <;> rfl
  · intro s t _ _ hagree
    have hsame : s.natsCreds.get? (nameNamespace config.key) =
        t.natsCreds.get? (nameNamespace config.key) := hagree _ rfl
    simp only [getNatsClient, Nats.getNatsClient, hsame]
    split <;> rfl

theorem watch_answers (hwatch : answers.watchError = none) (config : HostConfig)
    (client : NatsClient) (s : Context) : (watch answers config client s).1 = .ok () := by
  rw [watch_eq, hwatch, Option.isNone_none]
  exact if_pos (ServiceWatcher.watch_created client _ _ _)

/-- From the client on, a reconcile works on the watchers alone. -/
theorem footprint_watch (hwatch : answers.watchError = none) (config : HostConfig)
    (client : NatsClient) (apps : List AppSummary) (r : Reconciled) :
    Footprint Loc.view (SpecsFixed configs) ∅ ∅
      (watch answers config client >>= fun _ =>
        reconcileServices answers config apps >>= fun _ => pure r) := by
  have hviews : ∀ (s : Context) (w : ServiceWatcher) (i : Loc),
      i.view { s with serviceWatcher := w } = i.view s := by
    intro s w i
    cases i <;> rfl
  refine .bind_read (.blind (.ok ()) (fun s => (watch answers config client s).2) ?_
    (fun _ hs => hs) fun s i => hviews s _ i) fun _ _ => ?_
  · intro s
    rw [← watch_answers hwatch config client s]
    rfl
  · refine .bind_still (.blind (.ok ()) (fun s => (reconcileServices answers config apps s).2)
      (fun _ => rfl) (fun _ hs => hs) fun s i => hviews s _ i) fun _ => ⟨.ok r, fun _ => rfl⟩

theorem footprint_reconcileConfig (hwatch : answers.watchError = none) (config : HostConfig) :
    Footprint Loc.view (SpecsFixed configs) (writes config.key ∪ templateReads config)
      (writes config.key) (reconcileConfig lib answers config) := by
  have hclient : ∀ secrets template apps, Footprint Loc.view (SpecsFixed configs)
      {.natsCreds (nameNamespace config.key)} ∅
      (getNatsClient answers config >>= fun client =>
        watch answers config client >>= fun _ =>
          reconcileServices answers config apps >>= fun _ =>
            pure (⟨config, secrets, template, apps, client⟩ : Reconciled)) := by
    intro secrets template apps
    refine .bind_read (footprint_getNatsClient config) fun client _ => ?_
    exact .mono (footprint_watch hwatch config client apps _) (Set.empty_subset _)
      (Set.Subset.refl _) (Set.empty_subset _)
  have hstatus : ∀ secrets template, Footprint Loc.view (SpecsFixed configs)
      {.status config.key, .natsCreds (nameNamespace config.key)} {.status config.key}
      (listApps answers config secrets.natsCreds >>= fun apps =>
        ReconcileM.patchStatus answers.fails config.key (statusOf apps) >>= fun _ =>
          getNatsClient answers config >>= fun client =>
            watch answers config client >>= fun _ =>
              reconcileServices answers config apps >>= fun _ =>
                pure (⟨config, secrets, template, apps, client⟩ : Reconciled)) := by
    intro secrets template
    refine .still_bind _ (ofExcept_apply _) (fun apps => ?_) (by simp)
    exact .mono (.bind (footprint_patchStatus _) (fun _ _ => hclient secrets template apps)
      (Set.empty_disjoint _) (Set.empty_subset _)) (by simp [Set.insert_subset_iff]) (by simp)
      (by simp)
  unfold reconcileConfig
  refine .mono (.bind (footprint_readSecrets config) (fun secrets _ =>
    .bind (footprint_applyObject _ (by decide)) (fun _ _ =>
      .bind (footprint_configureAuth config) (fun _ _ =>
        .bind (footprint_configureHosts config) (fun template _ =>
          .bind (footprint_applyService rfl) (fun _ _ => hstatus secrets template)
            ?_ ?_) ?_ ?_) ?_ ?_) ?_ ?_) ?_ ?_) ?reads ?_ ?_
  case reads =>
    intro i hi
    simp only [writes, Set.mem_union, Set.mem_insert_iff, Set.mem_singleton_iff] at hi ⊢
    tauto
  -- each part writes what no part before it reads
  all_goals simp [writes, authLocs, workloadLocs, templateReads, secretLocs, authorityLocs,
    Set.insert_subset_iff]

theorem footprint_reconcileCrd (hwatch : answers.watchError = none)
    (configs : Dict ObjectKey StoredConfig) (key : ObjectKey) :
    Footprint Loc.view (SpecsFixed configs) (reads configs key) (writes key)
      (reconcileCrd lib answers key) := by
  have hwrites : writes key ⊆ reads configs key := by
    intro i hi
    exact .inl (.inl (.inr hi))
  have hrest : ∀ stored, configs.get? key = some stored →
      Footprint Loc.view (SpecsFixed configs) (reads configs key) (writes key)
        (reconcileConfig lib answers (configOf key stored)) := by
    intro stored hfound
    refine .mono (footprint_reconcileConfig hwatch (configOf key stored)) ?_ (Set.Subset.refl _)
      hwrites
    intro i hi
    rcases hi with hi | hi | hi
    · exact hwrites hi
    · exact .inl (.inr hi)
    · exact .inr ⟨stored, hfound, hi⟩
  refine .mono (.bind_of_read (footprint_getObject (R := {Loc.object .hostConfig key}) rfl)
    (fun stored hstored => hrest stored ?_) ?_ hwrites) ?_ (Set.Subset.refl _) hwrites
  · obtain ⟨s, hs, hanswer⟩ := hstored
    rw [← hs]
    exact (ReconcileM.getObject_ok (Prod.ext hanswer rfl)).2
  · simp [writes, authLocs, workloadLocs]
  · simp [reads]

end Reconcile
end WadmOperator

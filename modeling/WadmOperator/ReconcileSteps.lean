import WadmOperator.Reconcile
import WadmOperator.RegisteredPairs

/-!
# What a successful reconcile does

One inversion of `reconcile_crd` for all later results: where each value came from and
what is changed in the context.
-/

namespace WadmOperator

open Procedure

namespace PodTemplate

variable {lib : Libraries} {fails : KubeCall → Bool} {s u : Context}

theorem getObject_readOnly (kind : ObjectKind) (key : ObjectKey) :
    ReadOnly (ReconcileM.getObject fails kind key) := by
  intro s
  unfold ReconcileM.getObject
  split <;> rfl

theorem secretItems_readOnly (ns : String) (authority : Volume) :
    ReadOnly (secretItems fails ns authority) := by
  unfold secretItems
  split
  · exact .pure _
  · exact .throw _
  · exact .bind (.bind (getObject_readOnly _ _) fun _ => .pure _) fun _ => .pure _

theorem configmapItems_readOnly (ns : String) (authority : Volume) :
    ReadOnly (configmapItems fails ns authority) := by
  unfold configmapItems
  split
  · exact .pure _
  · exact .throw _
  · exact .bind (.bind (getObject_readOnly _ _) fun _ => .pure _) fun _ => .pure _

theorem addConfigmap_readOnly (ns volumeName : String) (authority : Volume) (items : List String)
    (acc : Certificates) : ReadOnly (addConfigmap fails ns volumeName authority items acc) := by
  refine .bind (configmapItems_readOnly ns authority) fun found => ?_
  split <;> exact .pure _

theorem addAuthority_readOnly (ns : String) (authority : Volume) (acc : Certificates) :
    ReadOnly (addAuthority fails ns authority acc) := by
  simp only [addAuthority]
  split
  · exact .throw _
  · refine .bind (secretItems_readOnly ns authority) fun found => ?_
    split
    · exact addConfigmap_readOnly _ _ _ _ _
    · exact .pure _
    · exact addConfigmap_readOnly _ _ _ _ _

theorem addAuthorities_readOnly (ns : String) (authorities : List Volume) (acc : Certificates) :
    ReadOnly (addAuthorities fails ns authorities acc) := by
  induction authorities generalizing acc with
  | nil => exact .pure _
  | cons authority authorities ih => exact .bind (addAuthority_readOnly ns authority acc) ih

theorem podTemplate_readOnly (config : HostConfig) : ReadOnly (podTemplate lib fails config) :=
  .bind (addAuthorities_readOnly _ _ _) fun _ => .pure _

def CertificateMounts (acc : Certificates) : Prop :=
  ∀ m ∈ acc.mounts, ∃ volumeName, m.mountPath = "/wasmcloud/certificates/" ++ volumeName

theorem mountItems_mounts {acc : Certificates} (h : CertificateMounts acc) (volumeName : String)
    (items : List String) : CertificateMounts (mountItems volumeName items acc) := by
  intro m hm
  rcases List.mem_append.mp hm with hm | hm
  · exact h m hm
  · rw [List.mem_singleton.mp hm]
    exact ⟨volumeName, rfl⟩

theorem addConfigmap_mounts {ns volumeName : String} {authority : Volume} {items : List String}
    {acc acc' : Certificates} (hacc : CertificateMounts acc)
    (h : addConfigmap fails ns volumeName authority items acc s = (.ok acc', u)) :
    CertificateMounts acc' := by
  obtain ⟨found, t, -, hrest⟩ := bind_eq_ok h
  split at hrest <;> obtain ⟨rfl, -⟩ := pure_eq_ok hrest
  · exact mountItems_mounts hacc volumeName items
  · exact hacc
  · apply mountItems_mounts
    exact hacc

theorem addAuthority_mounts {ns : String} {authority : Volume} {acc acc' : Certificates}
    (hacc : CertificateMounts acc) (h : addAuthority fails ns authority acc s = (.ok acc', u)) :
    CertificateMounts acc' := by
  simp only [addAuthority] at h
  split at h
  · exact absurd h throw_ne_ok
  · obtain ⟨found, t, -, hrest⟩ := bind_eq_ok h
    split at hrest
    · exact addConfigmap_mounts hacc hrest
    · obtain ⟨rfl, -⟩ := pure_eq_ok hrest
      exact hacc
    · refine addConfigmap_mounts ?_ hrest
      exact hacc

theorem addAuthorities_mounts {ns : String} {authorities : List Volume} {acc acc' : Certificates}
    (hacc : CertificateMounts acc)
    (h : addAuthorities fails ns authorities acc s = (.ok acc', u)) : CertificateMounts acc' := by
  induction authorities generalizing acc s with
  | nil =>
    obtain ⟨rfl, -⟩ := pure_eq_ok h
    exact hacc
  | cons authority authorities ih =>
    obtain ⟨next, t, hfirst, hrest⟩ := bind_eq_ok h
    exact ih (addAuthority_mounts hacc hfirst) hrest

theorem podTemplate_ok {config : HostConfig} {template : PodTemplateSpec}
    (h : podTemplate lib fails config s = (.ok template, u)) :
    u = s ∧ ∃ certificates volumes, CertificateMounts certificates ∧ template =
      { labels := some (Routing.podLabels config.base)
        spec := some (podSpec config (containers lib config certificates) volumes) } := by
  refine ⟨(podTemplate_readOnly config).eq h, ?_⟩
  obtain ⟨certificates, t, hcertificates, hrest⟩ := bind_eq_ok h
  obtain ⟨rfl, -⟩ := pure_eq_ok hrest
  refine ⟨certificates, _, addAuthorities_mounts ?_ hcertificates, rfl⟩
  intro m hm
  cases hm

def natsAdditions (config : HostConfig) : Option Container :=
  config.containerTemplateAdditions.bind fun cta => cta.nats

def wasmcloudAdditions (config : HostConfig) : Option Container :=
  config.containerTemplateAdditions.bind fun cta => cta.wasmcloud

theorem containers_eq (lib : Libraries) (config : HostConfig) (certificates : Certificates) :
    containers lib config certificates =
      [withAdditions lib (natsAdditions config) (natsContainer config),
        withAdditions lib (wasmcloudAdditions config) (wasmcloudContainer config certificates)] := by
  unfold containers natsAdditions wasmcloudAdditions
  cases config.containerTemplateAdditions <;> rfl

theorem podSpec_containers (config : HostConfig) (cs : List Container) (volumes : List Volume) :
    (podSpec config cs volumes).containers = cs := by
  unfold podSpec
  cases config.podTemplateAdditions <;> rfl

def ownEnv (config : HostConfig) : Option (List EnvVar) :=
  (wasmcloudAdditions config).bind Container.env

def hostEnv (config : HostConfig) : List EnvVar :=
  mergedEnv (ownEnv config) (wasmcloudEnv config.spec)

theorem wasmcloudContainer_env (lib : Libraries) (config : HostConfig) (certificates : Certificates) :
    (withAdditions lib (wasmcloudAdditions config)
        (wasmcloudContainer config certificates)).env = some (hostEnv config) := by
  unfold hostEnv ownEnv
  cases wasmcloudAdditions config with
  | none => rfl
  | some own => exact lib.deepMerge.env_merged own _ _ rfl

end PodTemplate
namespace Reconcile

variable {lib : Libraries} {answers : Answers} {config : HostConfig} {key : ObjectKey}
  {s u : Context}

def currentCreds (s : Context) (config : HostConfig) : Option String :=
  config.spec.secretName.bind fun name =>
    ((s.objects .secret).get? (config.ns, name)).bind fun secret =>
      secret.data.bind fun data => (data.get? "nats.creds").bind String.fromUTF8?

/-- The entry is written when there are credentials, and left alone otherwise. -/
def storedCreds (s : Context) (config : HostConfig) : Dict NameNamespace String :=
  match currentCreds s config with
  | some creds => s.natsCreds.put (nameNamespace config.key) creds
  | none => s.natsCreds

theorem fromK8sSecret_ok {name : String} {secret : Secret} {secrets : Secrets}
    (h : fromK8sSecret name secret = .ok secrets) : secrets.natsCreds =
      secret.data.bind fun data => (data.get? "nats.creds").bind String.fromUTF8? := by
  unfold fromK8sSecret at h
  split at h
  · cases h
  · next data hdata =>
    obtain rfl := Except.ok.inj h
    simp [hdata]

theorem readSecrets_ok {secrets : Secrets} (h : readSecrets answers config s = (.ok secrets, u)) :
    secrets.natsCreds = currentCreds s config ∧
      u = { s with natsCreds := storedCreds s config } := by
  cases hname : config.spec.secretName with
  | none =>
    simp only [readSecrets, hname] at h
    obtain ⟨rfl, rfl⟩ := pure_eq_ok h
    have hnone : currentCreds u config = none := by simp [currentCreds, hname]
    exact ⟨hnone.symm, by simp [storedCreds, hnone]⟩
  | some name =>
    simp only [readSecrets, hname] at h
    obtain ⟨secret, t, hget, hrest⟩ := bind_eq_ok h
    obtain ⟨rfl, hsecret⟩ := ReconcileM.getObject_ok hget
    obtain ⟨read, t', hparse, hstored⟩ := bind_eq_ok hrest
    obtain ⟨hread, rfl⟩ := mapError_eq_ok hparse
    have hcreds : read.natsCreds = currentCreds t' config := by
      rw [fromK8sSecret_ok hread, currentCreds, hname, Option.bind_some, hsecret,
        Option.bind_some]
    obtain ⟨⟨⟩, t'', hstore, hpure⟩ := bind_eq_ok hstored
    obtain ⟨rfl, rfl⟩ := pure_eq_ok hpure
    refine ⟨hcreds, ?_⟩
    rw [storedCreds, ← hcreds]
    cases hsome : secrets.natsCreds with
    | none =>
      simp only [storeSecrets, hsome] at hstore
      exact (pure_eq_ok hstore).2
    | some creds =>
      simp only [storeSecrets, hsome] at hstore
      exact (Prod.mk.inj hstore).2.symm

theorem configureAuth_ok (h : configureAuth lib answers config s = (.ok (), u)) :
    ∃ account role binding, u =
      ((s.putObject .serviceAccount config.key account).putObject .role config.key role).putObject
        .roleBinding config.key binding := by
  obtain ⟨⟨⟩, t₁, h₁, hrest⟩ := bind_eq_ok h
  obtain ⟨⟨⟩, t₂, h₂, h₃⟩ := bind_eq_ok hrest
  obtain rfl := ReconcileM.applyObject_ok h₁
  obtain rfl := ReconcileM.applyObject_ok h₂
  exact ⟨_, _, _, ReconcileM.applyObject_ok h₃⟩

theorem registryEnv_readOnly (config : HostConfig) : ReadOnly (registryEnv lib answers config) := by
  unfold registryEnv
  split
  · exact .pure _
  · exact .bind (PodTemplate.getObject_readOnly _ _) fun _ => .bind (.ofExcept _) fun _ =>
      .ofExcept _

def withWorkload (lib : Libraries) (config : HostConfig) (template : PodTemplateSpec)
    (s : Context) : Context :=
  if config.daemonset then
    s.putObject .daemonSet config.key (lib.api.applyObject .daemonSet
      ((s.objects .daemonSet).get? config.key) (daemonSetFor config template))
  else
    s.putObject .deployment config.key (lib.api.applyObject .deployment
      ((s.objects .deployment).get? config.key) (deploymentFor config template))

/-- The template that was applied, up to the environment that was appended last. -/
def Templated (lib : Libraries) (config : HostConfig) (template : PodTemplateSpec) : Prop :=
  ∃ envVars certificates volumes, PodTemplate.CertificateMounts certificates ∧
    appendEnv envVars
      { labels := some (Routing.podLabels config.base)
        spec := some (PodTemplate.podSpec config
          (PodTemplate.containers lib config certificates) volumes) } = .ok template

theorem configureHosts_ok {template : PodTemplateSpec}
    (h : configureHosts lib answers config s = (.ok template, u)) :
    Templated lib config template ∧ u = withWorkload lib config template s := by
  obtain ⟨envVars, t₁, henv, hpod⟩ := bind_eq_ok h
  obtain rfl := (registryEnv_readOnly config).eq henv
  obtain ⟨base, t₂, hbase, htemplate⟩ := bind_eq_ok hpod
  obtain ⟨rfl, certificates, volumes, hmounts, rfl⟩ := PodTemplate.podTemplate_ok hbase
  obtain ⟨applied, t₃, hextend, hworkload⟩ := bind_eq_ok htemplate
  obtain ⟨happend, rfl⟩ := ofExcept_eq_ok hextend
  obtain ⟨⟨⟩, t₄, happly, hpure⟩ := bind_eq_ok hworkload
  obtain ⟨rfl, rfl⟩ := pure_eq_ok hpure
  refine ⟨⟨envVars, certificates, volumes, hmounts, happend⟩, ?_⟩
  unfold withWorkload
  cases hkind : config.daemonset with
  | true =>
    simp only [applyWorkload, hkind] at happly
    exact ReconcileM.applyObject_ok happly
  | false =>
    simp only [applyWorkload, hkind] at happly
    exact ReconcileM.applyObject_ok happly

theorem listApps_ok {creds : Option String} {apps : List AppSummary}
    (h : listApps answers config creds s = (.ok apps, u)) : u = s :=
  (ofExcept_eq_ok h).2

theorem getNatsClient_ok {client : NatsClient}
    (h : getNatsClient answers config s = (.ok client, u)) : u = s ∧ client =
      ⟨config.spec.natsAddress, config.spec.natsClientPort.toNat,
        s.natsCreds.get? (nameNamespace config.key)⟩ := by
  cases hclient : answers.nats.getNatsClient answers.clientConnected config.spec.natsAddress
      config.spec.natsClientPort s.natsCreds (nameNamespace config.key) with
  | done found =>
    simp only [getNatsClient, hclient] at h
    obtain ⟨hok, rfl⟩ := Prod.mk.inj h
    rw [← Except.ok.inj hok]
    exact ⟨rfl, Nats.getNatsClient_done hclient⟩
  | failed e =>
    simp only [getNatsClient, hclient] at h
    cases (Prod.mk.inj h).1
  | panicked msg =>
    simp only [getNatsClient, hclient] at h
    cases (Prod.mk.inj h).1

theorem watch_eq (config : HostConfig) (client : NatsClient) (s : Context) :
    let watched :=
      s.serviceWatcher.watch client config.ns config.spec.lattice answers.watchError.isNone
    watch answers config client s =
      (if watched.2 then .ok ()
        else .error (.natsError ("Failed to watch services: " ++ answers.watchError.getD "")),
        { s with serviceWatcher := watched.1 }) := rfl

theorem watch_ok {client : NatsClient} (h : watch answers config client s = (.ok (), u)) :
    s.serviceWatcher.watch client config.ns config.spec.lattice true = (u.serviceWatcher, true) ∧
      u = { s with serviceWatcher := u.serviceWatcher } := by
  rw [watch_eq] at h
  obtain ⟨hok, rfl⟩ := Prod.mk.inj h
  split_ifs at hok with hwatch
  rw [← ServiceWatcher.watch_ok hwatch]
  exact ⟨Prod.ext rfl hwatch, rfl⟩

/-- The template that the config's workload was last applied with, its ConfigMap, the
credentials and the watcher, as a successful reconcile leaves them. -/
structure Reconciles (lib : Libraries) (answers : Answers) (key : ObjectKey) (s : Context)
    (r : Reconciled) (u : Context) : Prop where
  config : ∃ stored, (s.objects .hostConfig).get? key = some stored ∧ r.config = configOf key stored
  inputs : ∀ kind, kind = .hostConfig ∨ kind = .secret → u.objects kind = s.objects kind
  secrets : r.secrets.natsCreds = currentCreds s r.config
  natsCreds : u.natsCreds = storedCreds s r.config
  natsConf : ∃ cm data, (u.objects .configMap).get? key = some cm ∧ cm.data = some data ∧
    data.get? "nats.conf" =
      some (natsConf lib.escapeChar r.config.spec (currentCreds s r.config).isSome)
  template : Templated lib r.config r.template
  workloads : ∀ kind, kind = .deployment ∨ kind = .daemonSet →
    u.objects kind = (withWorkload lib r.config r.template s).objects kind
  client : r.client = ⟨r.config.spec.natsAddress, r.config.spec.natsClientPort.toNat,
    u.natsCreds.get? (nameNamespace key)⟩
  watcher : Controller.reconcileCrd r.client key.1 r.config.spec.lattice
    (fetchManifests answers r.config.spec.lattice r.apps
      (s.serviceWatcher.watch r.client key.1 r.config.spec.lattice true).1) s.serviceWatcher =
      (u.serviceWatcher, true)

theorem withWorkload_frame (lib : Libraries) (config : HostConfig) (template : PodTemplateSpec)
    (s : Context) : (withWorkload lib config template s).natsCreds = s.natsCreds ∧
      (withWorkload lib config template s).serviceWatcher = s.serviceWatcher := by
  unfold withWorkload
  split <;> exact ⟨rfl, rfl⟩

theorem withWorkload_other (lib : Libraries) (config : HostConfig) (template : PodTemplateSpec)
    (s : Context) {kind : ObjectKind} (hkind : kind ≠ .deployment ∧ kind ≠ .daemonSet) :
    (withWorkload lib config template s).objects kind = s.objects kind := by
  unfold withWorkload
  split
  · exact Context.putObject_other _ hkind.2
  · exact Context.putObject_other _ hkind.1

theorem withWorkload_objects (lib : Libraries) (config : HostConfig) (template : PodTemplateSpec)
    {s t : Context} (h : ∀ kind, kind = .deployment ∨ kind = .daemonSet →
      s.objects kind = t.objects kind) :
    ∀ kind, kind = .deployment ∨ kind = .daemonSet →
      (withWorkload lib config template s).objects kind =
        (withWorkload lib config template t).objects kind := by
  intro kind hkind
  have hdeployment := h .deployment (.inl rfl)
  have hdaemonSet := h .daemonSet (.inr rfl)
  unfold withWorkload
  split
  · rcases hkind with rfl | rfl
    · simp only [Context.putObject_other, ne_eq, reduceCtorEq, not_false_eq_true, hdeployment]
    · simp only [Context.putObject, Function.update_self, hdaemonSet]
  · rcases hkind with rfl | rfl
    · simp only [Context.putObject, Function.update_self, hdeployment]
    · simp only [Context.putObject_other, ne_eq, reduceCtorEq, not_false_eq_true, hdaemonSet]

theorem reconcileCrd_ok {r : Reconciled} (h : reconcileCrd lib answers key s = (.ok r, u)) :
    Reconciles lib answers key s r u := by
  obtain ⟨stored, s₀, hget, hconfig⟩ := bind_eq_ok h
  obtain ⟨rfl, hstored⟩ := ReconcileM.getObject_ok hget
  obtain ⟨secrets, s₁, hsecrets, hmap⟩ := bind_eq_ok hconfig
  obtain ⟨⟨⟩, s₂, hmapped, hauth⟩ := bind_eq_ok hmap
  obtain ⟨⟨⟩, s₃, hauthed, hhosts⟩ := bind_eq_ok hauth
  obtain ⟨template, s₄, hworkload, hservice⟩ := bind_eq_ok hhosts
  obtain ⟨⟨⟩, s₅, hserved, hlist⟩ := bind_eq_ok hservice
  obtain ⟨apps, s₆, hlisted, hstatus⟩ := bind_eq_ok hlist
  obtain ⟨⟨⟩, s₇, hpatched, hclient⟩ := bind_eq_ok hstatus
  obtain ⟨client, s₈, hconnected, hwatch⟩ := bind_eq_ok hclient
  obtain ⟨⟨⟩, s₉, hwatched, hpass⟩ := bind_eq_ok hwatch
  obtain ⟨⟨⟩, s₁₀, hpassed, hpure⟩ := bind_eq_ok hpass
  obtain ⟨rfl, rfl⟩ := pure_eq_ok hpure
  obtain ⟨hcreds, rfl⟩ := readSecrets_ok hsecrets
  obtain rfl := ReconcileM.applyObject_ok hmapped
  obtain ⟨account, role, binding, rfl⟩ := configureAuth_ok hauthed
  clear hsecrets hmapped hauthed
  obtain ⟨htemplate, rfl⟩ := configureHosts_ok hworkload
  obtain ⟨service, rfl⟩ := ReconcileM.applyService_ok hserved
  clear hworkload hserved
  obtain rfl := listApps_ok hlisted
  obtain rfl := ReconcileM.patchStatus_ok hpatched
  clear hlisted hpatched
  obtain ⟨rfl, hconn⟩ := getNatsClient_ok hconnected
  clear hconnected
  obtain ⟨hwatcher, hs₉⟩ := watch_ok hwatched
  obtain rfl := (Prod.mk.inj hpassed).2
  clear hwatched hpassed
  refine ⟨⟨stored, hstored, rfl⟩, ?_, hcreds, ?_, ?_, htemplate, ?_, ?_, ?_⟩
  · intro kind hkind
    change s₉.objects kind = _
    rw [hs₉]
    change (withWorkload lib _ template _).objects kind = _
    rcases hkind with rfl | rfl <;> rw [withWorkload_other _ _ _ _ (by simp)] <;>
      simp only [Context.putObject_other, ne_eq, reduceCtorEq, not_false_eq_true]
  · change s₉.natsCreds = _
    rw [hs₉]
    exact (withWorkload_frame _ _ _ _).1
  · obtain ⟨data, hdata, hconf⟩ := lib.api.data_applied ((s₀.objects .configMap).get? key)
      (configMapFor lib (configOf key stored) secrets.natsCreds.isSome) _ "nats.conf" _ rfl
      (Dict.get?_put_self _ _ _)
    rw [hcreds] at hdata hconf
    refine ⟨_, data, ?_, hdata, hconf⟩
    change (s₉.objects .configMap).get? key = _
    rw [hs₉]
    change ((withWorkload lib _ template _).objects .configMap).get? key = _
    rw [withWorkload_other _ _ _ _ (by simp)]
    simp only [Context.putObject_other, ne_eq, reduceCtorEq, not_false_eq_true]
    rw [hcreds]
    exact (Context.putObject_get? _ key).trans (if_pos rfl)
  · intro kind hkind
    change s₉.objects kind = _
    rw [hs₉]
    refine withWorkload_objects _ _ _ ?_ kind hkind
    intro kind hkind
    rcases hkind with rfl | rfl <;>
      simp only [Context.putObject_other, ne_eq, reduceCtorEq, not_false_eq_true]
  · change client = (⟨_, _, s₉.natsCreds.get? _⟩ : NatsClient)
    rw [hs₉]
    exact hconn
  · have hsame : s₀.serviceWatcher.watch client key.1 stored.spec.lattice true =
        (s₉.serviceWatcher, true) := by
      rw [← hwatcher]
      change _ = (withWorkload lib _ template _).serviceWatcher.watch _ _ _ _
      rw [(withWorkload_frame _ _ _ _).2]
      rfl
    simp only [Controller.reconcileCrd, configOf, hsame]
    rfl

theorem step_reconcile (h : step lib s (.reconcile key answers) = some u) :
    ∃ r, reconcileCrd lib answers key s = (.ok r, u) := by
  simp only [step] at h
  split at h
  · next r v hr =>
    obtain rfl := Option.some.inj h
    exact ⟨r, hr⟩
  · cases h

theorem Reconciles.config_eq {r : Reconciled} (h : Reconciles lib answers key s r u)
    {stored : StoredConfig} (hstored : (s.objects .hostConfig).get? key = some stored) :
    r.config = configOf key stored := by
  obtain ⟨found, hfound, hconfig⟩ := h.config
  rw [hconfig, Option.some.inj (hfound.symm.trans hstored)]

/-- What holds after a reconcile just when its config met `Q` before, holds after a step
just when the stored config met `Q`. -/
theorem step_reconcile_iff {P : ObjectKey → Reconciled → Prop} {Q : HostConfig → Prop} {l : Label}
    (hiff : ∀ key answers r, Reconciles lib answers key s r u → (P key r ↔ Q r.config))
    (hstep : step lib s l = some u) :
    (∀ key answers r, l = .reconcile key answers →
      reconcileCrd lib answers key s = (.ok r, u) → P key r) ↔
      ∀ key answers stored, l = .reconcile key answers →
        (s.objects .hostConfig).get? key = some stored → Q (configOf key stored) := by
  constructor
  · intro hafter key answers stored hl hstored
    subst hl
    obtain ⟨r, hr⟩ := step_reconcile hstep
    have hdone := reconcileCrd_ok hr
    rw [← hdone.config_eq hstored]
    exact (hiff key answers r hdone).mp (hafter key answers r rfl hr)
  · intro hbefore key answers r hl hr
    have hdone := reconcileCrd_ok hr
    obtain ⟨stored, hstored, hconfig⟩ := hdone.config
    apply (hiff key answers r hdone).mpr
    rw [hconfig]
    exact hbefore key answers stored hl hstored

theorem step_edit {kind : ObjectKind} {x : Option (Obj kind)}
    (h : step lib s (.edit kind key x) = some u) : u = edited s kind key x :=
  (Option.some.inj h).symm

theorem edited_other {kind kind' : ObjectKind} (h : kind' ≠ kind) (key : ObjectKey)
    (x : Option (Obj kind)) : (edited s kind key x).objects kind' = s.objects kind' := by
  cases x with
  | some x => exact Context.putObject_other x h
  | none => simp only [edited, Function.update_of_ne h]

end Reconcile
end WadmOperator

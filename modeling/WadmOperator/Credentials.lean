import WadmOperator.Foundation.Transition
import WadmOperator.NatsConf
import WadmOperator.ReconcileSuccess

/-!
# The credentials of a config

The fresh Secret gives the credentials of `list_apps` and decides about the line in
`nats.conf`. The watcher's client takes them from the map, whose entry stays while the
config lives, and the mount follows from the name of the Secret alone.
-/

namespace WadmOperator
namespace Reconcile

open Transition

variable {lib : Libraries} {answers : Answers} {config : HostConfig} {key : ObjectKey}
  {s u : Context} {r : Reconciled}

def MountsCreds (template : PodTemplateSpec) : Prop :=
  ∃ spec, template.spec = some spec ∧ ∃ c ∈ spec.containers, c.MountsAt "/nats/nats.creds"

def AdditionsMount (config : HostConfig) : Prop :=
  ∃ cta own, config.containerTemplateAdditions = some cta ∧
    (cta.nats = some own ∨ cta.wasmcloud = some own) ∧ own.MountsAt "/nats/nats.creds"

/-- All uses of the credentials are those of the Secret that the config refers to. -/
structure CredsAgree (key : ObjectKey) (s : Context) (r : Reconciled) (u : Context) : Prop where
  entry : u.natsCreds.get? (nameNamespace key) = currentCreds s r.config
  listed : r.secrets.natsCreds = currentCreds s r.config
  watched : r.client.natsCreds = currentCreds s r.config
  conf : ∃ cm data text, (u.objects .configMap).get? key = some cm ∧ cm.data = some data ∧
    data.get? "nats.conf" = some text ∧
      (HasCredentialsLine text ↔ (currentCreds s r.config).isSome)
  mounted : MountsCreds r.template ↔ (currentCreds s r.config).isSome

/-- There are credentials, or the spec names no Secret, nothing is left in the map and no
addition mounts the path. -/
def CredsSettled (s : Context) (config : HostConfig) : Prop :=
  (currentCreds s config).isSome ∨
    config.spec.secretName = none ∧ s.natsCreds.get? (nameNamespace config.key) = none ∧
      ¬AdditionsMount config

theorem natsContainer_mounts (config : HostConfig) :
    (PodTemplate.natsContainer config).MountsAt "/nats/nats.creds" ↔
      config.spec.secretName.isSome := by
  simp only [PodTemplate.natsContainer, Container.MountsAt, Option.getD_some, List.mem_cons]
  cases config.spec.secretName with
  | none => simp [PodTemplate.configMount]
  | some name => simp [PodTemplate.configMount, PodTemplate.credsMount]

theorem wasmcloudContainer_mounts (config : HostConfig) {certificates : Certificates}
    (hmounts : PodTemplate.CertificateMounts certificates) :
    ¬(PodTemplate.wasmcloudContainer config certificates).MountsAt "/nats/nats.creds" := by
  intro hall
  obtain ⟨m, hm, hpath⟩ := hall
  obtain ⟨volumeName, hcert⟩ := hmounts m hm
  have hsecond := congrArg (fun path : String => path.toList[1]?) (hcert.symm.trans hpath)
  simp only [String.toList_append] at hsecond
  exact absurd hsecond (by simp)

theorem withAdditions_mounts (lib : Libraries) (additions : Option Container) (c : Container)
    (path : String) : (PodTemplate.withAdditions lib additions c).MountsAt path ↔
      (∃ own, additions = some own ∧ own.MountsAt path) ∨ c.MountsAt path := by
  cases additions with
  | none => simp [PodTemplate.withAdditions]
  | some own => simp [PodTemplate.withAdditions, lib.deepMerge.mounts_merged]

theorem containers_mounts (lib : Libraries) (config : HostConfig) {certificates : Certificates}
    (hmounts : PodTemplate.CertificateMounts certificates) :
    (∃ c ∈ PodTemplate.containers lib config certificates, c.MountsAt "/nats/nats.creds") ↔
      config.spec.secretName.isSome ∨ AdditionsMount config := by
  have hwasmcloud := wasmcloudContainer_mounts config hmounts
  have hnats := natsContainer_mounts config
  unfold PodTemplate.containers AdditionsMount
  cases config.containerTemplateAdditions with
  | none => simp [hwasmcloud, hnats]
  | some cta =>
    simp only [List.mem_cons, List.not_mem_nil, or_false, exists_eq_or_imp, exists_eq_left,
      withAdditions_mounts, hwasmcloud, hnats, Option.some.injEq]
    constructor
    · intro hall
      rcases hall with (⟨own, hown, hpath⟩ | hsome) | ⟨own, hown, hpath⟩
      · exact .inr ⟨cta, own, rfl, .inl hown, hpath⟩
      · exact .inl hsome
      · exact .inr ⟨cta, own, rfl, .inr hown, hpath⟩
    · intro hall
      rcases hall with hsome | ⟨cta', own, rfl, hown | hown, hpath⟩
      · exact .inl (.inr hsome)
      · exact .inl (.inl ⟨own, hown, hpath⟩)
      · exact .inr ⟨own, hown, hpath⟩

theorem appendEnv_mounts {envVars : List EnvVar} {template applied : PodTemplateSpec}
    (h : appendEnv envVars template = .ok applied) :
    MountsCreds applied ↔ MountsCreds template := by
  unfold appendEnv at h
  split at h
  · cases h
  next spec hspec =>
  split at h
  · next nats wasmcloud rest hcontainers =>
    split at h
    · cases h
    · obtain rfl := Except.ok.inj h
      simp [MountsCreds, hspec, hcontainers, Container.MountsAt]
  · cases h

theorem templated_mounts {template : PodTemplateSpec} (h : Templated lib config template) :
    MountsCreds template ↔ config.spec.secretName.isSome ∨ AdditionsMount config := by
  obtain ⟨envVars, certificates, volumes, hmounts, happend⟩ := h
  rw [appendEnv_mounts happend, ← containers_mounts lib config hmounts]
  simp [MountsCreds, PodTemplate.podSpec_containers]

theorem secretName_of_currentCreds (h : (currentCreds s config).isSome) :
    config.spec.secretName.isSome := by
  unfold currentCreds at h
  cases hname : config.spec.secretName with
  | none =>
    rw [hname] at h
    cases h
  | some name => rfl

theorem storedCreds_entry (s : Context) (config : HostConfig) :
    (storedCreds s config).get? (nameNamespace config.key) =
      (currentCreds s config).or (s.natsCreds.get? (nameNamespace config.key)) := by
  unfold storedCreds
  cases currentCreds s config with
  | none => rfl
  | some creds => simp

theorem credsAgree_iff (h : Reconciles lib answers key s r u) :
    CredsAgree key s r u ↔ CredsSettled s r.config := by
  obtain ⟨stored, -, hconfig⟩ := h.config
  have hkey : r.config.key = key := by rw [hconfig]; rfl
  have hentry := storedCreds_entry s r.config
  rw [hkey, ← h.natsCreds] at hentry
  have hmounts := templated_mounts h.template
  unfold CredsSettled
  rw [hkey]
  constructor
  · intro hagree
    cases hcurrent : currentCreds s r.config with
    | some creds => exact .inl rfl
    | none =>
      right
      rw [hagree.entry, hcurrent, Option.none_or] at hentry
      have hunmounted := hagree.mounted.not.mpr (by simp [hcurrent])
      rw [hmounts, not_or] at hunmounted
      exact ⟨by simpa using hunmounted.1, hentry.symm, hunmounted.2⟩
  · intro hsettled
    have hcreds : u.natsCreds.get? (nameNamespace key) = currentCreds s r.config := by
      rcases hsettled with hsome | ⟨-, hnone, -⟩
      · obtain ⟨creds, hcreds⟩ := Option.isSome_iff_exists.mp hsome
        rw [hentry, hcreds, Option.some_or]
      · rw [hentry, hnone, Option.or_none]
    refine ⟨hcreds, h.secrets, by rw [h.client]; exact hcreds, ?_, ?_⟩
    · obtain ⟨cm, data, hcm, hdata, htext⟩ := h.natsConf
      exact ⟨cm, data, _, hcm, hdata, htext, hasCredentialsLine_iff lib _ _⟩
    · rw [hmounts]
      rcases hsettled with hsome | ⟨hname, -, hadditions⟩
      · exact iff_of_true (.inl (secretName_of_currentCreds hsome)) hsome
      · have hcurrent : currentCreds s r.config = none := by simp [currentCreds, hname]
        simp [hname, hadditions, hcurrent]

def CredsAgreeAfter (lib : Libraries) (s : Context) (l : Label) (u : Context) : Prop :=
  ∀ key answers r, l = .reconcile key answers → reconcileCrd lib answers key s = (.ok r, u) →
    CredsAgree key s r u

def SettledBefore (s : Context) (l : Label) (_ : Context) : Prop :=
  ∀ key answers stored, l = .reconcile key answers →
    (s.objects .hostConfig).get? key = some stored → CredsSettled s (configOf key stored)

/-- Over all runs of reconciles, cleanups and edits: the uses agree after every reconcile
exactly when each reconcile starts from a settled state. -/
theorem run_credsAgree_iff (s : Context) (ls : List Label) :
    Along (step lib) (CredsAgreeAfter lib) s ls ↔ Along (step lib) SettledBefore s ls := by
  refine along_congr (I := fun _ => True) ?_ trivial
  intro s l u _ hstep
  have hiff := step_reconcile_iff (fun _ _ _ hdone => credsAgree_iff hdone) hstep
  exact ⟨hiff, trivial⟩

def secretSpec : HostConfigSpec := { HostConfigSpec.sample with secretName := some "creds" }

def keyMissing : List Label :=
  [.edit .hostConfig ("default", "host") (some ⟨"uid-host", secretSpec⟩),
    .edit .secret ("default", "creds") (some ⟨some Dict.empty⟩),
    .reconcile ("default", "host") {}]

/-- The pod mounts the key of the Secret that is not there. -/
theorem missing_key_mounted :
    ¬∀ lib ls, Along (step lib) (CredsAgreeAfter lib) {} ls := by
  intro h
  obtain ⟨-, h₁⟩ := h .sample keyMissing _ rfl
  obtain ⟨-, h₂⟩ := h₁ _ rfl
  have hstored : ((edited (edited {} .hostConfig ("default", "host") (some ⟨"uid-host", secretSpec⟩))
      .secret ("default", "creds") (some ⟨some Dict.empty⟩)).objects .hostConfig).get?
        ("default", "host") = some ⟨"uid-host", secretSpec⟩ := rfl
  obtain ⟨u, hu⟩ := step_succeeds allOk_default hstored
    (by
      intro name hname
      obtain rfl := Option.some.inj hname
      exact ⟨⟨some Dict.empty⟩, _, rfl, rfl⟩) rfl rfl
  obtain ⟨hagree, -⟩ := h₂ u hu
  obtain ⟨r, hr⟩ := step_reconcile hu
  have hdone := reconcileCrd_ok hr
  have hsettled := (credsAgree_iff hdone).mp (hagree _ _ r rfl hr)
  rw [hdone.config_eq hstored] at hsettled
  rcases hsettled with hsome | ⟨hname, -⟩
  · cases hsome
  · cases hname

end Reconcile
end WadmOperator

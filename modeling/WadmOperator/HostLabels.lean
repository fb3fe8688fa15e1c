import WadmOperator.PodEnvironment

/-!
# The labels of a host, in three spellings

A host label is a variable of the host container, a label of its pod and a requirement
of a selector. The operator gives every host one label more, as a variable only. The
selectors that it writes for its own workloads follow the name of the config.
-/

namespace WadmOperator

open Procedure

def lastEntry (name : String) (env : List EnvVar) : Option (Option String) :=
  Dict.lastValue name (env.map fun e => (e.name, e.value))

theorem lastEntry_append (name : String) (env more : List EnvVar) :
    lastEntry name (env ++ more) = (lastEntry name more).or (lastEntry name env) := by
  rw [lastEntry, List.map_append, Dict.lastValue_append]
  rfl

theorem lastEntry_of_not_mem {name : String} {env : List EnvVar}
    (h : name ∉ env.map EnvVar.name) : lastEntry name env = none := by
  apply Dict.lastValue_of_not_mem
  rw [List.map_map]
  exact h

namespace PodTemplate

variable {lib : Libraries} {fails : KubeCall → Bool} {s u : Context} {config : HostConfig}
  {spec : HostConfigSpec} {template : PodTemplateSpec}

def labelVar (key : String) : String := "WASMCLOUD_LABEL_" ++ key

theorem labelVar_injective : Function.Injective labelVar :=
  fun _ _ h => (String.append_right_inj _).mp h

theorem labelVar_starts (key : String) : "WASMCLOUD_LABEL_".toList <+: (labelVar key).toList := by
  delta labelVar
  rw [String.toList_append]
  exact List.prefix_append _ _

def StartedWith (template : PodTemplateSpec) (key value : String) : Prop :=
  ∃ spec, template.spec = some spec ∧ ∃ c ∈ spec.containers, c.name = "wasmcloud-host" ∧
    lastEntry (labelVar key) (c.env.getD []) = some (some value)

/-! ## The label variables of the spec -/

theorem lastEntry_label_none {env : List EnvVar} {names : List String}
    (hnames : (env.map EnvVar.name).Sublist names)
    (h : ∀ name ∈ names, ¬"WASMCLOUD_LABEL_".toList <+: name.toList) (key : String) :
    lastEntry (labelVar key) env = none := by
  apply lastEntry_of_not_mem
  intro hin
  exact h _ (hnames.subset hin) (labelVar_starts key)

theorem lastEntry_single (key key' value : String) :
    lastEntry (labelVar key) [envVar (labelVar key') value] =
      if key = key' then some (some value) else none := by
  by_cases hkey : key = key'
  · rw [if_pos hkey, hkey]
    simp [lastEntry, Dict.lastValue, envVar]
  · rw [if_neg hkey]
    apply lastEntry_of_not_mem
    intro hin
    exact hkey (labelVar_injective (List.mem_singleton.mp hin))

/-- Of the variables that every host gets only the last is a label. -/
theorem lastEntry_fixed {fixed : List EnvVar} (hnames : fixed.map EnvVar.name = fixedNames)
    (hlast : fixed.getLast? = some (envVar (labelVar "kubernetes") "true")) (key : String) :
    lastEntry (labelVar key) fixed = if key = "kubernetes" then some (some "true") else none := by
  obtain ⟨others, rfl⟩ := List.getLast?_eq_some_iff.mp hlast
  have hothers : (others.map EnvVar.name).Sublist fixedNames.dropLast := by
    rw [← hnames, List.map_append, List.map_singleton, List.dropLast_concat]
  have hnone := lastEntry_label_none hothers (by decide) key
  rw [lastEntry_append, hnone, Option.or_none, lastEntry_single]

theorem lastEntry_labels (spec : HostConfigSpec) (key : String) :
    lastEntry (labelVar key) ((spec.hostLabels.map labelEnv).getD []) =
      (spec.hostLabels.bind fun own => own.get? key).map some := by
  cases spec.hostLabels with
  | none => rfl
  | some own =>
    have hmap := Dict.lastValue_map labelVar_injective some key own.toPairs
    rw [Dict.lastValue_toPairs] at hmap
    rw [Option.map_some, Option.getD_some, Option.bind_some, ← hmap, lastEntry, labelEnv,
      List.map_map]
    rfl

theorem lastEntry_wasmcloudEnv (spec : HostConfigSpec) (key : String) :
    lastEntry (labelVar key) (wasmcloudEnv spec) =
      ((spec.hostLabels.bind fun own => own.get? key).map some).or
        (if key = "kubernetes" then some (some "true") else none) := by
  have hctl := lastEntry_label_none
    (option_names spec.controlTopicPrefix "WASMCLOUD_CTL_TOPIC_PREFIX" id) (by decide) key
  have hconfig := lastEntry_label_none
    (flag_names spec.configServiceEnabled "WASMCLOUD_CONFIG_SERVICE" "true") (by decide) key
  have hlatest := lastEntry_label_none
    (flag_names spec.allowLatest "WASMCLOUD_OCI_ALLOW_LATEST" "true") (by decide) key
  have hinsecure := lastEntry_label_none
    (option_names spec.allowedInsecure "WASMCLOUD_OCI_ALLOWED_INSECURE" (String.intercalate ","))
    (by decide) key
  have hpolicy := lastEntry_label_none (policy_names spec.policyService) (by decide) key
  have hsecrets := lastEntry_label_none
    (option_names spec.secretsTopicPrefix "WASMCLOUD_SECRETS_TOPIC" id) (by decide) key
  have hmemory := lastEntry_label_none
    (option_names spec.maxLinearMemoryBytes "WASMCLOUD_MAX_LINEAR_MEMORY" toString) (by decide) key
  simp only [id_eq] at hctl hsecrets
  simp only [wasmcloudEnv, lastEntry_append, hctl, hconfig, hlatest, hinsecure, hpolicy, hsecrets,
    hmemory, Option.none_or, lastEntry_labels]
  exact congrArg _ (lastEntry_fixed rfl rfl key)

/-! ## Requirements of Services -/

/-- The selector for the required labels reaches the pod exactly when its host is started
with them. -/
def SameMeaning (params : ServiceParams) (required : Labels) (template : PodTemplateSpec) : Prop :=
  ∀ labels, template.labels = some labels →
    (matchesLabels (Commands.serviceSelector params) labels = true ↔
      ∀ k v, required.get? k = some v → StartedWith template k v)

def OnlyKubernetesMissing (config : HostConfig) (required : Labels) : Prop :=
  required.get? "kubernetes" = some "true" ∧ NoKubernetesLabel config.spec ∧
    Routing.Carries config.base (required.remove "kubernetes")

theorem startedWith_iff_lastEntry (h : podTemplate lib fails config s = (.ok template, u))
    (hnone : config.containerTemplateAdditions = none) (key value : String) :
    StartedWith template key value ↔
      lastEntry (labelVar key) (wasmcloudEnv config.spec) = some (some value) := by
  obtain ⟨-, certificates, volumes, -, rfl⟩ := podTemplate_ok h
  have hcontainers : containers lib config certificates =
      [natsContainer config, wasmcloudContainer config certificates] := by
    rw [containers, hnone]
  constructor
  · intro hstarted
    obtain ⟨spec, hspec, c, hc, hname, hentry⟩ := hstarted
    obtain rfl := Option.some.inj hspec
    rw [podSpec_containers, hcontainers] at hc
    rcases List.mem_cons.mp hc with rfl | hc
    · have hne : "nats-leaf" ≠ "wasmcloud-host" := by decide
      exact absurd hname hne
    · rw [List.mem_singleton.mp hc] at hentry
      exact hentry
  · intro hentry
    refine ⟨_, rfl, wasmcloudContainer config certificates, ?_, rfl, hentry⟩
    rw [podSpec_containers, hcontainers]
    exact List.mem_cons_of_mem _ List.mem_cons_self

theorem startedWith_iff (h : podTemplate lib fails config s = (.ok template, u))
    (hnone : config.containerTemplateAdditions = none) (key value : String) :
    StartedWith template key value ↔
      (config.spec.hostLabels.bind fun own => own.get? key) = some value ∨
        (config.spec.hostLabels.bind fun own => own.get? key) = none ∧
          key = "kubernetes" ∧ value = "true" := by
  rw [startedWith_iff_lastEntry h hnone, lastEntry_wasmcloudEnv]
  cases config.spec.hostLabels.bind fun own => own.get? key with
  | some own => simp
  | none =>
    by_cases hkey : key = "kubernetes"
    · simp [hkey, eq_comm]
    · simp [hkey]

theorem noKubernetesLabel_iff : NoKubernetesLabel spec ↔
    (spec.hostLabels.bind fun own => own.get? "kubernetes") = none := by
  unfold NoKubernetesLabel
  cases spec.hostLabels with
  | none => simp
  | some own => simp

theorem carries_remove_iff {required : Labels} (key : String) :
    Routing.Carries config.base (required.remove key) ↔ ∀ k v, required.get? k = some v → k ≠ key →
      (config.spec.hostLabels.bind fun own => own.get? k) = some v := by
  constructor
  · intro hcarries k v hk hne
    apply hcarries
    rw [Dict.get?_remove, if_neg hne]
    exact hk
  · intro hothers k v hk
    rw [Dict.get?_remove] at hk
    split at hk
    · cases hk
    · next hne => exact hothers k v hk hne

theorem podTemplate_labels (h : podTemplate lib fails config s = (.ok template, u)) :
    template.labels = some (Routing.podLabels config.base) := by
  obtain ⟨-, certificates, volumes, -, rfl⟩ := podTemplate_ok h
  rfl

section

variable {params : ServiceParams} {required : Labels}

theorem not_sameMeaning (h : podTemplate lib fails config s = (.ok template, u))
    (hnone : config.containerTemplateAdditions = none) (hreq : params.hostLabels = some required)
    (hmissing : OnlyKubernetesMissing config required) : ¬SameMeaning params required template := by
  intro hsame
  obtain ⟨hkubernetes, hown, hothers⟩ := hmissing
  rw [noKubernetesLabel_iff] at hown
  have hstarted : ∀ k v, required.get? k = some v → StartedWith template k v := by
    intro k v hk
    rw [startedWith_iff h hnone]
    by_cases hkey : k = "kubernetes"
    · subst hkey
      exact .inr ⟨hown, rfl, Option.some.inj (hk.symm.trans hkubernetes)⟩
    · exact .inl ((carries_remove_iff _).mp hothers k v hk hkey)
  have hcarries := (Routing.selector_matches_iff hreq config.base).mp
    ((hsame _ (podTemplate_labels h)).mpr hstarted)
  have hset : (config.spec.hostLabels.bind fun own => own.get? "kubernetes") = some "true" :=
    hcarries _ _ hkubernetes
  rw [hown] at hset
  cases hset

theorem carries_of_startedWith (h : podTemplate lib fails config s = (.ok template, u))
    (hnone : config.containerTemplateAdditions = none)
    (hmissing : ¬OnlyKubernetesMissing config required)
    (hstarted : ∀ k v, required.get? k = some v → StartedWith template k v) :
    Routing.Carries config.base required := by
  intro k v hk
  rcases (startedWith_iff h hnone k v).mp (hstarted k v hk) with hset | ⟨hown, rfl, rfl⟩
  · exact hset
  · refine absurd ⟨hk, noKubernetesLabel_iff.mpr hown, (carries_remove_iff _).mpr ?_⟩ hmissing
    intro k v hk hne
    rcases (startedWith_iff h hnone k v).mp (hstarted k v hk) with hset | ⟨-, heq, -⟩
    · exact hset
    · exact absurd heq hne

/-- Selectors and host labels agree unless a Service requires the operator's own label
and the host has all the others. -/
theorem sameMeaning_iff (h : podTemplate lib fails config s = (.ok template, u))
    (hnone : config.containerTemplateAdditions = none) (hreq : params.hostLabels = some required) :
    SameMeaning params required template ↔ ¬OnlyKubernetesMissing config required := by
  constructor
  · intro hsame hmissing
    exact not_sameMeaning h hnone hreq hmissing hsame
  · intro hmissing labels hlabels
    obtain rfl := Option.some.inj ((podTemplate_labels h).symm.trans hlabels)
    rw [Routing.selector_matches_iff hreq]
    constructor
    · intro hcarries k v hk
      exact (startedWith_iff h hnone k v).mpr (.inl (hcarries k v hk))
    · exact carries_of_startedWith h hnone hmissing

end

def requiring (key : String) : Labels := Dict.empty.put key "true"

theorem labelledBy_podTemplate (key : String) : ∃ template u,
    podTemplate .sample (fun _ => false) (Reconcile.labelledBy key) {} = (.ok template, u) :=
  ⟨_, _, rfl⟩

theorem sameMeaning_zone : ∃ template u,
    podTemplate .sample (fun _ => false) (Reconcile.labelledBy "zone") {} = (.ok template, u) ∧
      SameMeaning (Routing.edgeParams "lattice" (some (requiring "zone"))) (requiring "zone")
        template := by
  obtain ⟨template, u, h⟩ := labelledBy_podTemplate "zone"
  refine ⟨template, u, h, (sameMeaning_iff h rfl rfl).mpr fun hmissing => ?_⟩
  exact absurd hmissing.1 (by decide)

/-- The host is started with the label, but no selector for it reaches the pod. -/
theorem kubernetes_label_not_selected : ¬∀ lib fails s u config template params required,
    podTemplate lib fails config s = (.ok template, u) →
      config.containerTemplateAdditions = none → params.hostLabels = some required →
        SameMeaning params required template := by
  intro hall
  obtain ⟨template, u, h⟩ := labelledBy_podTemplate "zone"
  have hsame := hall _ _ _ _ _ _
    (Routing.edgeParams "lattice" (some (requiring "kubernetes"))) _ h rfl rfl
  refine not_sameMeaning h rfl rfl ⟨rfl, ?_, (carries_remove_iff _).mpr ?_⟩ hsame
  · intro labels hlabels
    rw [← Option.some.inj hlabels]
    rfl
  · intro k v hk hne
    rw [requiring, Dict.get?_put, if_neg hne] at hk
    cases hk

end PodTemplate

namespace Reconcile

open PodTemplate

variable {template : PodTemplateSpec}

/-! ## Selectors of the operator -/

/-- The selectors written for a config: of its workload, which is a Deployment or a
DaemonSet, of its own Service, and of the pods for the slices of its lattice. -/
def operatorSelectors (config : HostConfig) (template : PodTemplateSpec) : List Labels :=
  [(deploymentFor config template).selector, (daemonSetFor config template).selector,
    (Cluster.hostService config.base).selector, Commands.podSelector config.name]

theorem operatorSelectors_eq (config : HostConfig) (template : PodTemplateSpec) :
    ∀ selector ∈ operatorSelectors config template,
      selector = Commands.podSelector config.name := by
  intro selector hselector
  simp only [operatorSelectors, List.mem_cons, List.not_mem_nil, or_false] at hselector
  rcases hselector with rfl | rfl | rfl | rfl <;> rfl

theorem appendEnv_labels {vars : List EnvVar} {applied : PodTemplateSpec}
    (h : appendEnv vars template = .ok applied) : applied.labels = template.labels := by
  unfold appendEnv at h
  split at h
  · cases h
  · split at h
    · split at h
      · cases h
      · rw [← Except.ok.inj h]
    · cases h

/-- Selectors follow the names of the configs, whatever labels their hosts carry, and the
pods of an applied workload have the labels of its config. -/
theorem selectors_match_iff (c₁ c₂ : HostConfig) (own : PodTemplateSpec) :
    (∀ selector ∈ operatorSelectors c₁ own,
      matchesLabels selector (Routing.podLabels c₂.base) = true ↔ c₁.name = c₂.name) ∧
    ∀ lib answers s u template, configureHosts lib answers c₁ s = (.ok template, u) →
      template.labels = some (Routing.podLabels c₁.base) ∧
        ∀ selector ∈ operatorSelectors c₁ template,
          matchesLabels selector (Routing.podLabels c₁.base) = true := by
  have hname : ∀ (c c' : HostConfig) (t : PodTemplateSpec), ∀ selector ∈ operatorSelectors c t,
      (matchesLabels selector (Routing.podLabels c'.base) = true ↔ c.name = c'.name) := by
    intro c c' t selector hselector
    rw [operatorSelectors_eq c t selector hselector]
    exact (Routing.podSelector_matches_iff c.name c'.base).trans eq_comm
  refine ⟨hname c₁ c₂ own, fun lib answers s u template h => ?_⟩
  obtain ⟨⟨vars, certificates, volumes, -, happend⟩, -⟩ := configureHosts_ok h
  exact ⟨appendEnv_labels happend, fun selector hselector => (hname _ _ _ _ hselector).mpr rfl⟩

theorem selectors_match_zone : ∃ template u,
    configureHosts .sample {} (labelledBy "zone") {} = (.ok template, u) ∧
      ∀ selector ∈ operatorSelectors (labelledBy "zone") template,
        matchesLabels selector (Routing.podLabels (labelledBy "zone").base) = true := by
  obtain ⟨template, u, h⟩ := labelledBy_configured "zone"
  exact ⟨template, u, h,
    ((selectors_match_iff _ (labelledBy "kubernetes") template).2 _ _ _ _ _ h).2⟩

end Reconcile
end WadmOperator

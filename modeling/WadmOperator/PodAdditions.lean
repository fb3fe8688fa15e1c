import WadmOperator.HostLabels

/-!
# Scheduling additions and the pod of the operator

Additions to a container are merged into it, additions to the pod replace the pod spec
around the containers. In both cases the operator's part of the pod stays.
-/

namespace WadmOperator

open Procedure

section

variable {own new : List EnvVar} {e : EnvVar} {name : String} {value : Option String}

theorem overwriteEnv_self (own : List EnvVar) (h : e.value.isSome) :
    ∃ e' ∈ overwriteEnv e own, e'.name = e.name ∧ e'.value = e.value := by
  induction own with
  | nil => exact ⟨e, List.mem_cons_self, rfl, rfl⟩
  | cons first own ih =>
    rw [overwriteEnv]
    split_ifs with hname
    · exact ⟨_, List.mem_cons_self, hname, Option.or_of_isSome h⟩
    · obtain ⟨e', he', hsame⟩ := ih
      exact ⟨e', List.mem_cons_of_mem _ he', hsame⟩

theorem overwriteEnv_other {e' : EnvVar} (h : e' ∈ own) (hname : e'.name ≠ e.name) :
    e' ∈ overwriteEnv e own := by
  induction own with
  | nil => cases h
  | cons first own ih =>
    rw [overwriteEnv]
    split_ifs with hfirst
    · rcases List.mem_cons.mp h with rfl | h
      · exact absurd hfirst hname
      · exact List.mem_cons_of_mem _ h
    · rcases List.mem_cons.mp h with rfl | h
      · exact List.mem_cons_self
      · exact List.mem_cons_of_mem _ (ih h)

theorem lastEntry_concat (name : String) (new : List EnvVar) (e : EnvVar) :
    lastEntry name (new ++ [e]) = if e.name = name then some e.value else lastEntry name new := by
  rw [lastEntry_append]
  by_cases hname : e.name = name
  · rw [if_pos hname]
    simp [lastEntry, Dict.lastValue, hname]
  · rw [if_neg hname, lastEntry_of_not_mem, Option.none_or]
    rw [List.map_singleton, List.mem_singleton]
    exact Ne.symm hname

theorem mergeEnv_last (own : List EnvVar) (hnew : ∀ e ∈ new, e.value.isSome)
    (h : lastEntry name new = some value) :
    ∃ e ∈ mergeEnv own new, e.name = name ∧ e.value = value := by
  induction new using List.reverseRecOn with
  | nil => cases h
  | append_singleton new e ih =>
    rw [mergeEnv, List.foldl_append]
    change ∃ e' ∈ overwriteEnv e (mergeEnv own new), _
    rw [lastEntry_concat] at h
    by_cases hname : e.name = name
    · rw [if_pos hname] at h
      obtain ⟨e', he', hn, hv⟩ := overwriteEnv_self (mergeEnv own new)
        (hnew e (List.mem_append_right _ List.mem_cons_self))
      exact ⟨e', he', hn.trans hname, hv.trans (Option.some.inj h)⟩
    · rw [if_neg hname] at h
      obtain ⟨e', he', hn, hv⟩ := ih (fun e he => hnew e (List.mem_append_left _ he)) h
      exact ⟨e', overwriteEnv_other he' (by rw [hn]; exact Ne.symm hname), hn, hv⟩

theorem lastEntry_mem (h : lastEntry name new = some value) :
    ∃ e ∈ new, e.name = name ∧ e.value = value := by
  obtain ⟨e, he, heq⟩ := List.mem_map.mp (Dict.mem_of_lastValue h)
  exact ⟨e, he, congrArg Prod.fst heq, congrArg Prod.snd heq⟩

end

namespace HostConfig

def withoutPodAdditions (config : HostConfig) : HostConfig :=
  { config with spec := { config.spec with
      schedulingOptions := config.spec.schedulingOptions.map fun so =>
        { so with podTemplateAdditions := none } } }

theorem withoutPodAdditions_podTemplateAdditions (config : HostConfig) :
    config.withoutPodAdditions.podTemplateAdditions = none := by
  unfold withoutPodAdditions podTemplateAdditions
  cases config.spec.schedulingOptions <;> rfl

theorem withoutPodAdditions_containerTemplateAdditions (config : HostConfig) :
    config.withoutPodAdditions.containerTemplateAdditions = config.containerTemplateAdditions := by
  unfold withoutPodAdditions containerTemplateAdditions
  cases config.spec.schedulingOptions <;> rfl

theorem withoutPodAdditions_resources (config : HostConfig) :
    config.withoutPodAdditions.resources = config.resources := by
  unfold withoutPodAdditions resources
  cases config.spec.schedulingOptions <;> rfl

end HostConfig

def PodSpec.account (spec : PodSpec) : Option String := spec.serviceAccountName.or spec.serviceAccount

namespace PodTemplate

variable {lib : Libraries} {fails : KubeCall → Bool} {s u : Context} {config : HostConfig}
  {template : PodTemplateSpec} {env more : List EnvVar}

def Valued (env : List EnvVar) : Prop := ∀ e ∈ env, e.value.isSome

theorem Valued.append (h : Valued env) (hmore : Valued more) : Valued (env ++ more) := by
  intro e he
  exact (List.mem_append.mp he).elim (h e) (hmore e)

theorem Valued.option {α : Type} (o : Option α) (name : String) (f : α → String) :
    Valued (o.map fun a => envVar name (f a)).toList := by
  cases o with
  | none => exact List.forall_mem_nil _
  | some a => exact List.forall_mem_singleton.mpr rfl

theorem Valued.flag (b : Bool) (name value : String) :
    Valued (if b then [envVar name value] else []) := by
  cases b with
  | false => exact List.forall_mem_nil _
  | true => exact List.forall_mem_singleton.mpr rfl

theorem policyEnv_valued (policy : Option PolicyService) :
    Valued ((policy.map policyEnv).getD []) := by
  cases policy with
  | none => exact List.forall_mem_nil _
  | some policy =>
    apply Valued.append _ (.option _ _ _)
    exact .append (.option _ _ id) (.option _ _ id)

theorem labelEnv_valued (labels : Option Labels) : Valued ((labels.map labelEnv).getD []) := by
  cases labels with
  | none => exact List.forall_mem_nil _
  | some labels =>
    intro e he
    obtain ⟨kv, -, rfl⟩ := List.mem_map.mp he
    rfl

theorem wasmcloudEnv_valued (spec : HostConfigSpec) : Valued (wasmcloudEnv spec) := by
  apply Valued.append _ (.option _ _ _)
  apply Valued.append _ (.option _ _ id)
  apply Valued.append _ (labelEnv_valued _)
  apply Valued.append _ (policyEnv_valued _)
  apply Valued.append _ (.option _ _ _)
  apply Valued.append _ (.flag _ _ _)
  apply Valued.append _ (.flag _ _ _)
  apply Valued.append _ (.option _ _ id)
  simp only [Valued, List.forall_mem_cons]
  exact ⟨rfl, rfl, rfl, rfl, rfl, rfl, rfl, rfl, rfl, List.forall_mem_nil _⟩

theorem hostEnv_last {name : String} {value : Option String}
    (h : lastEntry name (wasmcloudEnv config.spec) = some value) :
    ∃ e ∈ hostEnv config, e.name = name ∧ e.value = value := by
  unfold hostEnv mergedEnv
  split
  · exact mergeEnv_last _ (wasmcloudEnv_valued _) h
  · exact lastEntry_mem h

/-! ## The pod with and without additions -/

structure OperatorContainers (config : HostConfig) (spec : PodSpec) : Prop where
  containers : ∃ natsLeaf wasmcloudHost env, spec.containers = [natsLeaf, wasmcloudHost] ∧
    natsLeaf.name = "nats-leaf" ∧ wasmcloudHost.name = "wasmcloud-host" ∧
      wasmcloudHost.env = some env ∧ ∀ name value,
        lastEntry name (wasmcloudEnv config.spec) = some value →
          ∃ e ∈ env, e.name = name ∧ e.value = value
  account : spec.account = some config.name

structure Extends (additions plain spec : PodSpec) : Prop where
  containers : spec.containers = plain.containers
  volumes : ∃ own, plain.volumes = some own ∧ spec.volumes = some (own ++ additions.volumes.getD [])
  account : spec.account = plain.account
  others : spec = { additions with
    containers := spec.containers
    volumes := spec.volumes
    serviceAccountName := spec.serviceAccountName }

theorem withoutPodAdditions_containers (lib : Libraries) (config : HostConfig)
    (certificates : Certificates) :
    containers lib config.withoutPodAdditions certificates =
      containers lib config certificates := by
  have hnats : natsContainer config.withoutPodAdditions = natsContainer config := by
    rw [natsContainer, config.withoutPodAdditions_resources]
    rfl
  have hhost : wasmcloudContainer config.withoutPodAdditions certificates =
      wasmcloudContainer config certificates := by
    rw [wasmcloudContainer, config.withoutPodAdditions_resources]
    rfl
  rw [containers, containers, config.withoutPodAdditions_containerTemplateAdditions, hnats, hhost]

theorem podSpec_operatorContainers (lib : Libraries) (config : HostConfig)
    (certificates : Certificates) (volumes : List Volume) :
    OperatorContainers config (podSpec config (containers lib config certificates) volumes) where
  containers := by
    rw [podSpec_containers, containers_eq]
    exact ⟨_, _, hostEnv config, rfl, withAdditions_name _ _ _, withAdditions_name _ _ _,
      wasmcloudContainer_env _ _ _, fun _ _ => hostEnv_last⟩
  account := by
    unfold podSpec
    cases config.podTemplateAdditions <;> rfl

theorem podSpec_extends {additions : PodSpec} (h : config.podTemplateAdditions = some additions)
    (cs : List Container) (volumes : List Volume) :
    Extends additions (podSpec config.withoutPodAdditions cs volumes)
      (podSpec config cs volumes) := by
  rw [podSpec, podSpec, config.withoutPodAdditions_podTemplateAdditions, h]
  exact ⟨rfl, ⟨volumes, rfl, rfl⟩, rfl, rfl⟩

/-- Whatever the additions are, the containers, labels, volumes and the account of the
operator stay in the pod, and the environment of the host can be extended in place. -/
theorem podTemplate_additions (h : podTemplate lib fails config s = (.ok template, u)) :
    (∃ spec, template.spec = some spec ∧ OperatorContainers config spec ∧
      ∀ vars, ∃ applied, Reconcile.appendEnv vars template = .ok applied) ∧
    ∀ additions, config.podTemplateAdditions = some additions → ∃ plain spec plainSpec,
      podTemplate lib fails config.withoutPodAdditions s = (.ok plain, u) ∧
        template.spec = some spec ∧ plain.spec = some plainSpec ∧
          template.labels = plain.labels ∧ Extends additions plainSpec spec := by
  constructor
  · obtain ⟨-, certificates, volumes, -, rfl⟩ := podTemplate_ok h
    refine ⟨_, rfl, podSpec_operatorContainers lib config certificates volumes, fun vars => ?_⟩
    obtain ⟨applied, -, happlied, -⟩ :=
      Reconcile.appendEnv_podSpec lib config vars certificates _ volumes
    exact ⟨applied, happlied⟩
  · intro additions hadditions
    obtain ⟨certificates, t, hcertificates, hrest⟩ := bind_eq_ok h
    obtain ⟨rfl, rfl⟩ := pure_eq_ok hrest
    have hplain : podTemplate lib fails config.withoutPodAdditions s = (.ok _, u) :=
      bind_of_ok hcertificates
    refine ⟨_, _, _, hplain, rfl, rfl, rfl, ?_⟩
    rw [withoutPodAdditions_containers]
    exact podSpec_extends hadditions _ _

def scheduled : HostConfig where
  uid := "1"
  ns := "default"
  name := "host"
  spec := { HostConfigSpec.sample with
    schedulingOptions := some
      { podTemplateAdditions := some
          { serviceAccount := some "other", serviceAccountName := some "other"
            containers := [{ name := "sidecar" }], volumes := some [{ name := "cache" }] }
        containerTemplateAdditions := some
          { wasmcloud := some
              { name := "host", env := some [⟨"WASMCLOUD_LOG_LEVEL", some "DEBUG"⟩] } } } }

theorem scheduled_additions : ∃ template u spec,
    podTemplate .sample (fun _ => false) scheduled {} = (.ok template, u) ∧
      template.spec = some spec ∧ OperatorContainers scheduled spec ∧
        ∃ additions plain plainSpec, scheduled.podTemplateAdditions = some additions ∧
          podTemplate .sample (fun _ => false) scheduled.withoutPodAdditions {} = (.ok plain, u) ∧
            plain.spec = some plainSpec ∧ template.labels = plain.labels ∧
              Extends additions plainSpec spec := by
  have hrun : ∃ template u,
      podTemplate .sample (fun _ => false) scheduled {} = (.ok template, u) := ⟨_, _, rfl⟩
  obtain ⟨template, u, h⟩ := hrun
  obtain ⟨⟨spec, hspec, hoperator, -⟩, hextends⟩ := podTemplate_additions h
  obtain ⟨plain, spec', plainSpec, hplain, hspec', hplainSpec, hlabels, hall⟩ := hextends _ rfl
  obtain rfl := Option.some.inj (hspec.symm.trans hspec')
  exact ⟨template, u, spec, h, hspec, hoperator, _, plain, plainSpec, rfl, hplain, hplainSpec,
    hlabels, hall⟩

end PodTemplate
end WadmOperator

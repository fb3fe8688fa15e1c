import WadmOperator.PodVolumes
import WadmOperator.ReconcileSuccess

/-!
# The environment of the hosts

The names of the variables of the host container: those of the spec, with the container
additions merged by name, and last the registry credentials.
-/

namespace WadmOperator

open Procedure

section

variable {own new : List EnvVar} {e : EnvVar}

theorem overwriteEnv_names (e : EnvVar) (own : List EnvVar) :
    (overwriteEnv e own).map EnvVar.name =
      if e.name ∈ own.map EnvVar.name then own.map EnvVar.name
      else own.map EnvVar.name ++ [e.name] := by
  induction own with
  | nil => rfl
  | cons first own ih =>
    rw [overwriteEnv]
    by_cases hfirst : first.name = e.name
    · rw [if_pos hfirst, if_pos (by rw [List.map_cons, hfirst]; exact List.mem_cons_self)]
      rfl
    · rw [if_neg hfirst, List.map_cons, ih]
      simp only [List.map_cons, List.mem_cons, Ne.symm hfirst, false_or]
      split_ifs <;> rfl

theorem overwriteEnv_nodup_iff :
    ((overwriteEnv e own).map EnvVar.name).Nodup ↔ (own.map EnvVar.name).Nodup := by
  rw [overwriteEnv_names]
  split_ifs with hin
  · rfl
  · rw [List.nodup_append]
    refine ⟨fun h => h.1, fun h => ⟨h, List.nodup_singleton _, fun name hname name' hname' => ?_⟩⟩
    rw [List.mem_singleton.mp hname']
    intro heq
    exact hin (heq ▸ hname)

theorem mem_overwriteEnv_names {name : String} :
    name ∈ (overwriteEnv e own).map EnvVar.name ↔ name ∈ own.map EnvVar.name ∨ name = e.name := by
  rw [overwriteEnv_names]
  split_ifs with hin
  · constructor
    · exact Or.inl
    · intro h
      exact h.elim id fun heq => heq ▸ hin
  · rw [List.mem_append, List.mem_singleton]

/-- Only the entries that were there before the merge can share a name. -/
theorem mergeEnv_nodup_iff :
    ((mergeEnv own new).map EnvVar.name).Nodup ↔ (own.map EnvVar.name).Nodup := by
  induction new generalizing own with
  | nil => rfl
  | cons e new ih => exact ih.trans overwriteEnv_nodup_iff

theorem mem_mergeEnv_names {name : String} :
    name ∈ (mergeEnv own new).map EnvVar.name ↔
      name ∈ own.map EnvVar.name ∨ name ∈ new.map EnvVar.name := by
  induction new generalizing own with
  | nil => simp [mergeEnv]
  | cons e new ih =>
    refine ih.trans ?_
    rw [mem_overwriteEnv_names, List.map_cons, List.mem_cons, or_assoc]

end

namespace PodTemplate

variable {lib : Libraries} {fails : KubeCall → Bool} {s u : Context} {config : HostConfig}
  {spec : HostConfigSpec}

def fixedNames : List String :=
  ["WASMCLOUD_STRUCTURED_LOGGING_ENABLED", "WASMCLOUD_LOG_LEVEL", "WASMCLOUD_JS_DOMAIN",
    "WASMCLOUD_LATTICE", "WASMCLOUD_LATTICE_PREFIX", "WASMCLOUD_NATS_HOST", "WASMCLOUD_NATS_PORT",
    "WASMCLOUD_RPC_TIMEOUT_MS", "WASMCLOUD_LABEL_kubernetes"]

def policyNames : List String :=
  ["WASMCLOUD_POLICY_TOPIC", "WASMCLOUD_POLICY_CHANGES_TOPIC", "WASMCLOUD_POLICY_TIMEOUT"]

def namesBefore : List String :=
  fixedNames ++ ["WASMCLOUD_CTL_TOPIC_PREFIX"] ++ ["WASMCLOUD_CONFIG_SERVICE"] ++
    ["WASMCLOUD_OCI_ALLOW_LATEST"] ++ ["WASMCLOUD_OCI_ALLOWED_INSECURE"] ++ policyNames

def namesAfter : List String := ["WASMCLOUD_SECRETS_TOPIC"] ++ ["WASMCLOUD_MAX_LINEAR_MEMORY"]

def registryNames : List String :=
  ["WASMCLOUD_OCI_REGISTRY_USER", "WASMCLOUD_OCI_REGISTRY_PASSWORD", "WASMCLOUD_OCI_REGISTRY"]

def labelNames (spec : HostConfigSpec) : List String :=
  ((spec.hostLabels.map labelEnv).getD []).map EnvVar.name

theorem option_names {α : Type} (o : Option α) (name : String) (f : α → String) :
    ((o.map fun a => envVar name (f a)).toList.map EnvVar.name).Sublist [name] := by
  cases o with
  | none => exact List.nil_sublist _
  | some a => exact .refl _

theorem flag_names (b : Bool) (name value : String) :
    ((if b then [envVar name value] else []).map EnvVar.name).Sublist [name] := by
  cases b with
  | false => exact List.nil_sublist _
  | true => exact .refl _

theorem policy_names (policy : Option PolicyService) :
    (((policy.map policyEnv).getD []).map EnvVar.name).Sublist policyNames := by
  cases policy with
  | none => exact List.nil_sublist _
  | some policy =>
    change ((policyEnv policy).map EnvVar.name).Sublist _
    rw [policyEnv, List.map_append, List.map_append]
    exact ((option_names policy.topic _ id).append (option_names policy.changesTopic _ id)).append
      (option_names policy.timeoutMs _ _)

theorem wasmcloudEnv_names (spec : HostConfigSpec) : ∃ before after : List String,
    (wasmcloudEnv spec).map EnvVar.name = before ++ labelNames spec ++ after ∧
      before.Sublist namesBefore ∧ after.Sublist namesAfter ∧
        "WASMCLOUD_LABEL_kubernetes" ∈ before := by
  simp only [wasmcloudEnv, List.map_append, labelNames]
  refine ⟨_, _, List.append_assoc _ _ _, ?_, ?_, ?_⟩
  · apply List.Sublist.append _ (policy_names _)
    apply List.Sublist.append _ (option_names _ _ _)
    apply List.Sublist.append _ (flag_names _ _ _)
    apply List.Sublist.append _ (flag_names _ _ _)
    apply List.Sublist.append _ (option_names _ _ id)
    exact .refl _
  · exact (option_names _ _ id).append (option_names _ _ _)
  · simp only [List.mem_append]
    have hfixed : "WASMCLOUD_LABEL_kubernetes" ∈ fixedNames := by decide
    exact .inl (.inl (.inl (.inl (.inl hfixed))))

theorem label_not_operator : ∀ name ∈ namesBefore ++ namesAfter ++ registryNames,
    "WASMCLOUD_LABEL_".toList <+: name.toList → name = "WASMCLOUD_LABEL_kubernetes" := by
  decide +kernel

theorem operatorNames_nodup : (namesBefore ++ namesAfter ++ registryNames).Nodup := by
  decide +kernel

theorem labelNames_eq {labels : Labels} (h : spec.hostLabels = some labels) :
    labelNames spec = (labels.toPairs.map Prod.fst).map ("WASMCLOUD_LABEL_" ++ ·) := by
  rw [labelNames, h, List.map_map]
  exact List.map_map

theorem labelNames_nodup (spec : HostConfigSpec) : (labelNames spec).Nodup := by
  cases h : spec.hostLabels with
  | none =>
    rw [labelNames, h]
    exact List.nodup_nil
  | some labels =>
    rw [labelNames_eq h]
    exact labels.toPairs_keys_nodup.map fun key key' => (String.append_right_inj _).mp

theorem mem_labelNames {name : String} : name ∈ labelNames spec ↔
    ∃ labels key v, spec.hostLabels = some labels ∧ labels.get? key = some v ∧
      "WASMCLOUD_LABEL_" ++ key = name := by
  constructor
  · intro hname
    cases h : spec.hostLabels with
    | none =>
      rw [labelNames, h] at hname
      cases hname
    | some labels =>
      rw [labelNames_eq h] at hname
      obtain ⟨key, hkey, rfl⟩ := List.mem_map.mp hname
      obtain ⟨⟨k, v⟩, hkv, rfl⟩ := List.mem_map.mp hkey
      exact ⟨labels, k, v, rfl, Dict.mem_toPairs.mp hkv, rfl⟩
  · intro hname
    obtain ⟨labels, key, v, h, hkey, rfl⟩ := hname
    rw [labelNames_eq h]
    exact List.mem_map_of_mem (List.mem_map_of_mem (Dict.mem_toPairs.mpr hkey))

theorem label_of_operatorName {name : String} (hlabel : name ∈ labelNames spec)
    (hname : name ∈ namesBefore ++ namesAfter ++ registryNames) :
    ∃ labels v, spec.hostLabels = some labels ∧ labels.get? "kubernetes" = some v := by
  obtain ⟨labels, key, v, h, hkey, rfl⟩ := mem_labelNames.mp hlabel
  have hkubernetes := label_not_operator _ hname (by
    rw [String.toList_append]
    exact List.prefix_append _ _)
  have hsame : "WASMCLOUD_LABEL_" ++ key = "WASMCLOUD_LABEL_" ++ "kubernetes" :=
    hkubernetes.trans rfl
  rw [(String.append_right_inj _).mp hsame] at hkey
  exact ⟨labels, v, h, hkey⟩

def NoKubernetesLabel (spec : HostConfigSpec) : Prop :=
  ∀ labels, spec.hostLabels = some labels → labels.get? "kubernetes" = none

theorem NoKubernetesLabel.apart (h : NoKubernetesLabel spec) {name : String}
    (hlabel : name ∈ labelNames spec) : name ∉ namesBefore ++ namesAfter ++ registryNames := by
  intro hname
  obtain ⟨labels, v, hlabels, hv⟩ := label_of_operatorName hlabel hname
  rw [h labels hlabels] at hv
  cases hv

theorem wasmcloudEnv_nodup_iff (spec : HostConfigSpec) :
    ((wasmcloudEnv spec).map EnvVar.name).Nodup ↔ NoKubernetesLabel spec := by
  obtain ⟨before, after, hnames, hbefore, hafter, hkubernetes⟩ := wasmcloudEnv_names spec
  rw [hnames]
  constructor
  · intro hnodup labels hlabels
    obtain ⟨-, -, hapart⟩ := List.nodup_append.mp (List.nodup_append.mp hnodup).1
    by_contra hsome
    obtain ⟨v, hv⟩ := Option.ne_none_iff_exists'.mp hsome
    exact hapart _ hkubernetes _ (mem_labelNames.mpr ⟨labels, "kubernetes", v, hlabels, hv, rfl⟩) rfl
  · intro hnone
    have hoperator := (List.nodup_append.mp operatorNames_nodup).1
    obtain ⟨hbeforeNodup, hafterNodup, hapart⟩ :=
      List.nodup_append.mp (hoperator.sublist (hbefore.append hafter))
    have hlabels : ∀ name ∈ labelNames spec, name ∉ before ∧ name ∉ after := by
      intro name hlabel
      have hnot := hnone.apart hlabel
      simp only [List.mem_append, not_or] at hnot
      exact ⟨fun hin => hnot.1.1 (hbefore.subset hin), fun hin => hnot.1.2 (hafter.subset hin)⟩
    refine List.nodup_append.mpr ⟨List.nodup_append.mpr ⟨hbeforeNodup, labelNames_nodup spec, ?_⟩,
      hafterNodup, ?_⟩
    · intro name hname name' hname' heq
      exact (hlabels name' hname').1 (heq ▸ hname)
    · intro name hname name' hname' heq
      rcases List.mem_append.mp hname with hname | hname
      · exact hapart name hname name' hname' heq
      · exact (hlabels name hname).2 (heq ▸ hname')

theorem registryNames_apart (spec : HostConfigSpec) {name : String} (hname : name ∈ registryNames) :
    name ∉ (wasmcloudEnv spec).map EnvVar.name := by
  obtain ⟨before, after, hnames, hbefore, hafter, -⟩ := wasmcloudEnv_names spec
  have hapart := (List.nodup_append.mp operatorNames_nodup).2.2
  rw [hnames]
  intro hin
  rcases List.mem_append.mp hin with hin | hin
  · rcases List.mem_append.mp hin with hin | hin
    · exact hapart name (List.mem_append_left _ (hbefore.subset hin)) name hname rfl
    · have hnot : ∀ name ∈ registryNames, ¬"WASMCLOUD_LABEL_".toList <+: name.toList := by decide
      obtain ⟨labels, key, v, -, -, rfl⟩ := mem_labelNames.mp hin
      apply hnot _ hname
      rw [String.toList_append]
      exact List.prefix_append _ _
  · exact hapart name (List.mem_append_right _ (hafter.subset hin)) name hname rfl

/-! ## The applied environment -/

def natsLeaf (lib : Libraries) (config : HostConfig) : Container :=
  withAdditions lib (natsAdditions config) (natsContainer config)

def wasmcloudHost (lib : Libraries) (s : Context) (config : HostConfig) : Container :=
  withAdditions lib (wasmcloudAdditions config)
    (wasmcloudContainer config (ownCertificates s config))

theorem withAdditions_name (lib : Libraries) (additions : Option Container) (c : Container) :
    (withAdditions lib additions c).name = c.name := by
  cases additions with
  | none => rfl
  | some own => exact lib.deepMerge.name_merged own c

def HostEnds (lib : Libraries) (s : Context) (config : HostConfig) (vars : List EnvVar)
    (template : PodTemplateSpec) : Prop :=
  ∃ spec, template.spec = some spec ∧ spec.containers =
    [natsLeaf lib config, { wasmcloudHost lib s config with env := some (hostEnv config ++ vars) }]

theorem appendEnv_podTemplate {template : PodTemplateSpec}
    (h : podTemplate lib fails config s = (.ok template, u)) (vars : List EnvVar) :
    ∃ applied, Reconcile.appendEnv vars template = .ok applied ∧
      HostEnds lib s config vars applied := by
  rw [podTemplate_eq h]
  obtain ⟨applied, spec, happlied, hspec, hcontainers⟩ :=
    Reconcile.appendEnv_podSpec lib config vars (ownCertificates s config) _ (ownVolumes s config)
  exact ⟨applied, happlied, spec, hspec, hcontainers⟩

end PodTemplate

namespace Reconcile

open PodTemplate

variable {lib : Libraries} {answers : Answers} {config : HostConfig} {s u : Context}

def DistinctEnv (template : PodTemplateSpec) : Prop :=
  ∀ spec, template.spec = some spec → ∀ c ∈ spec.containers, c.name = "wasmcloud-host" →
    ((c.env.getD []).map EnvVar.name).Nodup

/-- Without an environment of the container additions there is no label for a variable that
the operator sets; with one its variables are different, and no registry credentials follow
for one of them. -/
def NamesApart (config : HostConfig) : Prop :=
  match ownEnv config with
  | none => NoKubernetesLabel config.spec
  | some own => (own.map EnvVar.name).Nodup ∧
      (config.spec.registryCredentialsSecret.isSome →
        ∀ name ∈ registryNames, name ∉ own.map EnvVar.name)

theorem hostEnds_distinctEnv_iff {vars : List EnvVar} {template : PodTemplateSpec}
    (h : HostEnds lib s config vars template) :
    DistinctEnv template ↔ ((hostEnv config ++ vars).map EnvVar.name).Nodup := by
  obtain ⟨spec, hspec, hcontainers⟩ := h
  constructor
  · intro hdistinct
    refine hdistinct spec hspec _ (hcontainers ▸ List.mem_cons_of_mem _ List.mem_cons_self) ?_
    exact withAdditions_name lib _ _
  · intro hnodup spec' hspec' c hc hname
    obtain rfl := Option.some.inj (hspec.symm.trans hspec')
    rw [hcontainers] at hc
    rcases List.mem_cons.mp hc with rfl | hc
    · rw [natsLeaf, withAdditions_name] at hname
      have hne : "nats-leaf" ≠ "wasmcloud-host" := by decide
      exact absurd hname hne
    · rw [List.mem_singleton.mp hc]
      exact hnodup

theorem registryVars_ok {secretName : String} {docker : DockerConfigJson} {vars : List EnvVar}
    (h : registryVars secretName docker = .ok vars) : vars.map EnvVar.name = registryNames := by
  unfold registryVars at h
  split at h
  · cases h
  · rw [← Except.ok.inj h]
    rfl
  · cases h

theorem registryEnv_names {vars : List EnvVar}
    (h : registryEnv lib answers config s = (.ok vars, u)) :
    vars.map EnvVar.name =
      if config.spec.registryCredentialsSecret.isSome then registryNames else [] := by
  unfold registryEnv at h
  cases hsecret : config.spec.registryCredentialsSecret with
  | none =>
    rw [hsecret] at h
    rw [(pure_eq_ok h).1]
    rfl
  | some name =>
    rw [hsecret] at h
    obtain ⟨secret, t, -, hdocker⟩ := bind_eq_ok h
    obtain ⟨docker, t', -, hvars⟩ := bind_eq_ok hdocker
    exact registryVars_ok (ofExcept_eq_ok hvars).1

theorem hostEnv_nodup_iff {vars : List EnvVar} (hvars : vars.map EnvVar.name =
    if config.spec.registryCredentialsSecret.isSome then registryNames else []) :
    ((hostEnv config ++ vars).map EnvVar.name).Nodup ↔ NamesApart config := by
  have hregistry : (vars.map EnvVar.name).Nodup := by
    rw [hvars]
    split_ifs
    · exact (List.nodup_append.mp operatorNames_nodup).2.1
    · exact List.nodup_nil
  have hin : ∀ name, name ∈ vars.map EnvVar.name ↔
      config.spec.registryCredentialsSecret.isSome ∧ name ∈ registryNames := by
    intro name
    rw [hvars]
    split_ifs with hsome <;> simp [hsome]
  rw [List.map_append, List.nodup_append]
  unfold hostEnv NamesApart mergedEnv
  cases ownEnv config with
  | none =>
    rw [wasmcloudEnv_nodup_iff]
    refine ⟨fun h => h.1, fun h => ⟨h, hregistry, fun name hname name' hname' heq => ?_⟩⟩
    exact registryNames_apart config.spec ((hin name').mp hname').2 (heq ▸ hname)
  | some own =>
    rw [mergeEnv_nodup_iff]
    refine and_congr_right fun _ => ⟨fun h hsome name hname hown => ?_, fun h => ⟨hregistry, ?_⟩⟩
    · exact h.2 name (mem_mergeEnv_names.mpr (.inl hown)) name ((hin name).mpr ⟨hsome, hname⟩) rfl
    · intro name hname name' hname' heq
      obtain ⟨hsome, hregistryName⟩ := (hin name').mp hname'
      rcases mem_mergeEnv_names.mp hname with hown | hspec
      · exact h hsome name' hregistryName (heq ▸ hown)
      · exact registryNames_apart config.spec hregistryName (heq ▸ hspec)

theorem configureHosts_hostEnds {template : PodTemplateSpec}
    (h : configureHosts lib answers config s = (.ok template, u)) :
    ∃ vars, registryEnv lib answers config s = (.ok vars, s) ∧
      HostEnds lib s config vars template := by
  obtain ⟨vars, t, hvars, hrest⟩ := bind_eq_ok h
  obtain rfl := (registryEnv_readOnly config).eq hvars
  obtain ⟨base, t', hbase, hrest⟩ := bind_eq_ok hrest
  obtain ⟨applied, t'', happlied, hrest⟩ := bind_eq_ok hrest
  obtain ⟨⟨⟩, t₃, -, hpure⟩ := bind_eq_ok hrest
  obtain ⟨rfl, -⟩ := pure_eq_ok hpure
  obtain ⟨extended, hextended, hends⟩ := appendEnv_podTemplate hbase vars
  obtain rfl := Except.ok.inj (hextended.symm.trans (ofExcept_eq_ok happlied).1)
  exact ⟨vars, hvars, hends⟩

/-- The variables of the applied host container have different names exactly when no names
of different origins meet. -/
theorem configureHosts_distinctEnv_iff {template : PodTemplateSpec}
    (h : configureHosts lib answers config s = (.ok template, u)) :
    u = withWorkload lib config template s ∧ (DistinctEnv template ↔ NamesApart config) := by
  refine ⟨(configureHosts_ok h).2, ?_⟩
  obtain ⟨vars, hvars, hends⟩ := configureHosts_hostEnds h
  exact (hostEnds_distinctEnv_iff hends).trans (hostEnv_nodup_iff (registryEnv_names hvars))

def labelledBy (key : String) : HostConfig where
  uid := "1"
  ns := "default"
  name := "host"
  spec := { HostConfigSpec.sample with hostLabels := some (Dict.empty.put key "true") }

theorem labelledBy_configured (key : String) : ∃ template u,
    configureHosts .sample {} (labelledBy key) {} = (.ok template, u) :=
  configureHosts_succeeds allOk_default rfl rfl {}

theorem configureHosts_distinctEnv_zone : ∃ template u,
    configureHosts .sample {} (labelledBy "zone") {} = (.ok template, u) ∧ DistinctEnv template := by
  obtain ⟨template, u, h⟩ := labelledBy_configured "zone"
  refine ⟨template, u, h, (configureHosts_distinctEnv_iff h).2.mpr ?_⟩
  intro labels hlabels
  rw [← Option.some.inj hlabels]
  decide

/-- The label of the user and that of the operator give one variable twice. -/
theorem kubernetes_label_twice : ∃ template u,
    configureHosts .sample {} (labelledBy "kubernetes") {} = (.ok template, u) ∧
      ¬DistinctEnv template := by
  obtain ⟨template, u, h⟩ := labelledBy_configured "kubernetes"
  refine ⟨template, u, h, fun hdistinct => ?_⟩
  obtain ⟨vars, hvars, hends⟩ := configureHosts_hostEnds h
  have hapart : NamesApart (labelledBy "kubernetes") :=
    (hostEnv_nodup_iff (registryEnv_names hvars)).mp ((hostEnds_distinctEnv_iff hends).mp hdistinct)
  exact absurd (hapart _ rfl) (by decide)

end Reconcile
end WadmOperator

import WadmOperator.Commands.Upserts

/-!
# Which host pods a Service reaches

Host pods get their labels from their config. A Service reaches a pod through its
label selector, when the daemonscaler has label requirements, or through the
EndpointSlice, which the loop over the configs of the lattice fills.
-/

namespace WadmOperator
namespace Routing

open Commands Outcome

def selectorLabels (config : WasmCloudHostConfig) : Labels :=
  (Dict.empty.put "app.kubernetes.io/name" "wasmcloud").put
    "app.kubernetes.io/instance" config.name

def podLabels (config : WasmCloudHostConfig) : Labels :=
  let labels := (selectorLabels config).extend commonLabels.toPairs
  match config.spec.hostLabels with
  | some hostLabels =>
    labels.extend (hostLabels.toPairs.map fun kv =>
      (WASMCLOUD_OPERATOR_HOST_LABEL_PREFIX ++ "/" ++ kv.1, kv.2))
  | none => labels

structure Host where
  config : WasmCloudHostConfig
  status : Option PodStatus

def Host.pod (h : Host) : Pod := ⟨h.config.ns, podLabels h.config, h.status⟩

/-- The pods of the cluster are host pods of its configs, and configs of one namespace
have different names. -/
structure BuiltFrom (c : Cluster) (hosts : List Host) : Prop where
  pods : c.pods = hosts.map Host.pod
  configs : ∀ h ∈ hosts, h.config ∈ c.configs
  names : ∀ a ∈ c.configs, ∀ b ∈ c.configs, a.ns = b.ns → a.name = b.name → a = b

def Carries (config : WasmCloudHostConfig) (required : Labels) : Prop :=
  ∀ k v, required.get? k = some v → (config.spec.hostLabels.bind fun own => own.get? k) = some v

theorem formatServiceSelector_injective : Function.Injective formatServiceSelector := by
  intro a b h
  unfold formatServiceSelector at h
  exact String.append_right_inj _ |>.mp h

theorem formatServiceSelector_ne (k : String) {own : String}
    (hown : own.toList.head? = some 'a') : formatServiceSelector k ≠ own := by
  intro heq
  subst heq
  simp [formatServiceSelector, WASMCLOUD_OPERATOR_HOST_LABEL_PREFIX] at hown

theorem prefixed_keys (labels : Labels) :
    (labels.toPairs.map fun kv => (formatServiceSelector kv.1, kv.2)).map Prod.fst =
      (labels.toPairs.map Prod.fst).map formatServiceSelector := by
  simp [Function.comp_def]

theorem get?_prefixed (base labels : Labels) (k : String) :
    (base.extend (labels.toPairs.map fun kv => (formatServiceSelector kv.1, kv.2))).get?
        (formatServiceSelector k) =
      (labels.get? k).or (base.get? (formatServiceSelector k)) := by
  have hnodup := labels.toPairs_keys_nodup.map formatServiceSelector_injective
  rw [← prefixed_keys] at hnodup
  obtain ⟨hin, hout⟩ := Dict.get?_extend hnodup base (formatServiceSelector k)
  cases hk : labels.get? k with
  | some v =>
    rw [hin v (List.mem_map.mpr ⟨(k, v), Dict.mem_toPairs.mpr hk, rfl⟩)]
    rfl
  | none =>
    rw [hout ?_]
    · rfl
    rw [prefixed_keys]
    intro hmem
    obtain ⟨k', hk', heq⟩ := List.mem_map.mp hmem
    obtain rfl := formatServiceSelector_injective heq
    obtain ⟨⟨k'', v⟩, hkv, rfl⟩ := List.mem_map.mp hk'
    rw [Dict.mem_toPairs.mp hkv] at hk
    cases hk

theorem get?_unprefixed (base labels : Labels) {k : String}
    (hk : ∀ k', formatServiceSelector k' ≠ k) :
    (base.extend (labels.toPairs.map fun kv => (formatServiceSelector kv.1, kv.2))).get? k =
      base.get? k := by
  have hnodup := labels.toPairs_keys_nodup.map formatServiceSelector_injective
  rw [← prefixed_keys] at hnodup
  apply (Dict.get?_extend hnodup base k).2
  rw [prefixed_keys]
  intro hmem
  obtain ⟨k', -, heq⟩ := List.mem_map.mp hmem
  exact hk k' heq

def baseLabels (config : WasmCloudHostConfig) : Labels :=
  (selectorLabels config).extend commonLabels.toPairs

theorem baseLabels_name (config : WasmCloudHostConfig) :
    (baseLabels config).get? "app.kubernetes.io/name" = some "wasmcloud" :=
  (Dict.get?_extend commonLabels.toPairs_keys_nodup _ _).1 _ (by decide)

theorem baseLabels_other (config : WasmCloudHostConfig) {k : String}
    (hk : k ∉ commonLabels.toPairs.map Prod.fst) :
    (baseLabels config).get? k = (selectorLabels config).get? k :=
  (Dict.get?_extend commonLabels.toPairs_keys_nodup _ _).2 hk

theorem baseLabels_instance (config : WasmCloudHostConfig) :
    (baseLabels config).get? "app.kubernetes.io/instance" = some config.name := by
  rw [baseLabels_other config (by decide)]
  exact Dict.get?_put_self _ _ _

theorem commonLabels_keys : commonLabels.toPairs.map Prod.fst =
    ["app.kubernetes.io/managed-by", "app.kubernetes.io/name"] := by decide

theorem baseLabels_prefixed (config : WasmCloudHostConfig) (k : String) :
    (baseLabels config).get? (formatServiceSelector k) = none := by
  have hname : formatServiceSelector k ≠ "app.kubernetes.io/name" :=
    formatServiceSelector_ne k (by decide)
  have hinstance : formatServiceSelector k ≠ "app.kubernetes.io/instance" :=
    formatServiceSelector_ne k (by decide)
  have hmanaged : formatServiceSelector k ≠ "app.kubernetes.io/managed-by" :=
    formatServiceSelector_ne k (by decide)
  have hnot : formatServiceSelector k ∉ commonLabels.toPairs.map Prod.fst := by
    rw [commonLabels_keys]
    simp only [List.mem_cons, List.not_mem_nil, or_false, not_or]
    exact ⟨hmanaged, hname⟩
  rw [baseLabels_other config hnot]
  simp only [selectorLabels, Dict.get?_put]
  rw [if_neg hinstance, if_neg hname]
  rfl

theorem podLabels_prefixed (config : WasmCloudHostConfig) (k : String) :
    (podLabels config).get? (formatServiceSelector k) =
      config.spec.hostLabels.bind fun own => own.get? k := by
  have hbase := baseLabels_prefixed config k
  unfold podLabels
  cases config.spec.hostLabels with
  | none => exact hbase
  | some own =>
    have hget := get?_prefixed (baseLabels config) own k
    rw [hbase, Option.or_none] at hget
    exact hget

theorem podLabels_own (config : WasmCloudHostConfig) (own : String)
    (hown : own.toList.head? = some 'a') :
    (podLabels config).get? own = (baseLabels config).get? own := by
  unfold podLabels
  cases config.spec.hostLabels with
  | none => rfl
  | some labels => exact get?_unprefixed _ labels fun k => formatServiceSelector_ne k hown

theorem selector_matches_iff {params : ServiceParams} {required : Labels}
    (hreq : params.hostLabels = some required) (config : WasmCloudHostConfig) :
    matchesLabels (serviceSelector params) (podLabels config) = true ↔ Carries config required := by
  have hselector : serviceSelector params =
      (Dict.empty.put "app.kubernetes.io/name" "wasmcloud").extend
        (required.toPairs.map fun kv => (formatServiceSelector kv.1, kv.2)) := by
    simp only [serviceSelector, hreq]
  rw [matchesLabels_iff, hselector]
  constructor
  · intro h k v hk
    rw [← podLabels_prefixed]
    apply h
    rw [get?_prefixed, hk]
    rfl
  · intro h k v hk
    by_cases hpre : ∃ k', formatServiceSelector k' = k
    · obtain ⟨k', rfl⟩ := hpre
      have hne : formatServiceSelector k' ≠ "app.kubernetes.io/name" :=
        formatServiceSelector_ne k' (by decide)
      rw [get?_prefixed, Dict.get?_put, if_neg hne, Dict.get?_empty, Option.or_none] at hk
      rw [podLabels_prefixed]
      exact h k' v hk
    · rw [get?_unprefixed _ _ fun k' heq => hpre ⟨k', heq⟩, Dict.get?_put] at hk
      split at hk
      · next heq =>
        subst heq
        obtain rfl := Option.some.inj hk
        exact (podLabels_own config _ (by decide)).trans (baseLabels_name config)
      · cases hk

theorem podSelector_matches_iff (name : String) (config : WasmCloudHostConfig) :
    matchesLabels (podSelector name) (podLabels config) = true ↔ config.name = name := by
  have hinstance := (podLabels_own config "app.kubernetes.io/instance" (by decide)).trans
    (baseLabels_instance config)
  have hname := (podLabels_own config "app.kubernetes.io/name" (by decide)).trans
    (baseLabels_name config)
  rw [matchesLabels_iff]
  constructor
  · intro h
    have hget := h "app.kubernetes.io/instance" name (Dict.get?_put_self _ _ _)
    rw [hinstance] at hget
    exact Option.some.inj hget
  · intro heq k v hk
    subst heq
    simp only [podSelector, Dict.get?_put] at hk
    split at hk
    · next heq =>
      subst heq
      obtain rfl := Option.some.inj hk
      exact hinstance
    split at hk
    · next heq =>
      subst heq
      obtain rfl := Option.some.inj hk
      exact hname
    · cases hk

variable {api : ApiServer} {fails : ApiCall → Bool} {c : Cluster} {params : ServiceParams}
  {ownerRef : Option OwnerReference} {hosts : List Host}

theorem collectIps_eq {latticeId : String} {configs : List WasmCloudHostConfig}
    {ips : List (Option String)} (h : collectIps fails c latticeId configs = .ok ips) :
    ips = ((configs.filter fun cfg => cfg.spec.lattice = latticeId).flatMap fun cfg =>
      listPods c cfg.ns cfg.name).flatMap podIps := by
  induction configs generalizing ips with
  | nil =>
    obtain rfl := Except.ok.inj h
    rfl
  | cons cfg configs ih =>
    unfold collectIps at h
    split at h
    · next hlattice =>
      split at h
      · cases h
      · cases hrest : collectIps fails c latticeId configs with
        | error call =>
          rw [hrest] at h
          cases h
        | ok rest =>
          rw [hrest] at h
          obtain rfl := Except.ok.inj h
          rw [ih hrest]
          simp [hlattice]
    · next hlattice =>
      rw [ih h]
      simp [hlattice]

theorem endpointPods_eq (hbuilt : BuiltFrom c hosts) (ns latticeId : String) :
    ∀ pod ∈ endpointPods c ns latticeId, ∃ h ∈ hosts, h.pod = pod ∧ h.config.ns = ns ∧
      h.config.spec.lattice = latticeId := by
  intro pod hpod
  simp only [endpointPods, Cluster.configsIn, List.mem_flatMap, List.mem_filter, listPods,
    Bool.and_eq_true, decide_eq_true_eq, hbuilt.pods, List.mem_map] at hpod
  obtain ⟨cfg, ⟨⟨hcfg, hns⟩, hlattice⟩, ⟨h, hh, rfl⟩, hpodns, hlabels⟩ := hpod
  have hname := (podSelector_matches_iff cfg.name h.config).mp hlabels
  have heq := hbuilt.names _ (hbuilt.configs h hh) _ hcfg hpodns hname
  refine ⟨h, hh, rfl, ?_, ?_⟩
  · rw [heq, hns]
  · rw [heq, hlattice]

def AddressesFrom (hosts : List Host) (ns latticeId : String) (slice : EndpointSlice) : Prop :=
  ∃ members : List Host,
    (∀ h ∈ members, h ∈ hosts ∧ h.config.ns = ns ∧ h.config.spec.lattice = latticeId) ∧
      slice.endpoints = (members.flatMap fun h => podIps h.pod).filterMap fun ip =>
        ip.map fun i => ⟨[i], true, true⟩

theorem exists_members (ns latticeId : String) (pods : List Pod)
    (hpods : ∀ pod ∈ pods, ∃ h ∈ hosts, h.pod = pod ∧ h.config.ns = ns ∧
      h.config.spec.lattice = latticeId) :
    ∃ members : List Host,
      (∀ h ∈ members, h ∈ hosts ∧ h.config.ns = ns ∧ h.config.spec.lattice = latticeId) ∧
        members.map Host.pod = pods := by
  induction pods with
  | nil => exact ⟨[], by simp, rfl⟩
  | cons pod pods ih =>
    obtain ⟨h, hh, rfl, hns, hlattice⟩ := hpods pod List.mem_cons_self
    obtain ⟨members, hmembers, hmap⟩ := ih fun p hp => hpods p (List.mem_cons_of_mem _ hp)
    refine ⟨h :: members, ?_, by rw [List.map_cons, hmap]⟩
    intro h' hh'
    rcases List.mem_cons.mp hh' with rfl | hin
    · exact ⟨hh, hns, hlattice⟩
    · exact hmembers h' hin

theorem createEndpoints_sliced (hbuilt : BuiltFrom c hosts) {svc : Service} {ns : String}
    {key : ObjectKey} {slice : EndpointSlice}
    (h : .sliced key slice ∈ (createEndpoints api fails params svc ns c).effects) :
    key.1 = ns ∧ AddressesFrom hosts ns params.latticeId slice := by
  unfold createEndpoints fail succeed at h
  split at h
  · simp at h
  split at h
  · simp at h
  next ips hips =>
  split at h
  · simp at h
  simp only at h
  split at h
  · simp at h
  obtain ⟨rfl, rfl⟩ := Effect.sliced.inj (List.mem_singleton.mp h)
  refine ⟨rfl, ?_⟩
  obtain ⟨members, hmembers, hmap⟩ := exists_members ns params.latticeId _
    (endpointPods_eq hbuilt ns params.latticeId)
  refine ⟨members, hmembers, ?_⟩
  have hpods : ips = (members.flatMap fun h => podIps h.pod) := by
    rw [collectIps_eq hips, ← List.flatMap_map Host.pod, hmap]
    rfl
  simp only [endpointSliceFor, hpods]

theorem BuiltFrom.sameOff {touched : ObjectKey → Prop} {c' : Cluster} (h : BuiltFrom c hosts)
    (hsame : SameOff touched c c') : BuiltFrom c' hosts where
  pods := hsame.pods.trans h.pods
  configs := by rw [hsame.configs]; exact h.configs
  names := by rw [hsame.configs]; exact h.names

theorem createOrUpdateService_sliced (hbuilt : BuiltFrom c hosts) {order : List String}
    {key : ObjectKey} {slice : EndpointSlice}
    (h : .sliced key slice ∈ (createOrUpdateService api fails params ownerRef order c).effects) :
    AddressesFrom hosts key.1 params.latticeId slice := by
  induction order generalizing c with
  | nil => cases h
  | cons ns rest ih =>
    rcases mem_andThen h with hfirst | ⟨_, hrest⟩
    · unfold upsertIn at hfirst
      simp only at hfirst
      split at hfirst
      · simp [fail] at hfirst
      split at hfirst
      · rcases mem_andThen hfirst with happlied | ⟨_, hslice⟩
        · simp at happlied
        · obtain ⟨rfl, haddr⟩ :=
            createEndpoints_sliced (hbuilt.sameOff (.writeService c _ _)) hslice
          exact haddr
      · simp at hfirst
    · exact ih (hbuilt.sameOff (upsertIn_sameOff ns c)) hrest

/-- Every pod that the written Services select, and every pod whose address is put in
an EndpointSlice, belongs to a config of the lattice. -/
structure RoutesWithin (params : ServiceParams) (hosts : List Host) (o : Outcome) : Prop where
  selected : ∀ ns svc, .applied (ns, params.name) params.latticeId ∈ o.effects →
    o.cluster.service (ns, params.name) = some svc → ∀ h ∈ hosts, h.config.ns = ns →
      svc.selects h.pod.labels = true → h.config.spec.lattice = params.latticeId
  sliced : ∀ key slice, .sliced key slice ∈ o.effects →
    AddressesFrom hosts key.1 params.latticeId slice

def LabelsNameLattice (params : ServiceParams) (hosts : List Host) : Prop :=
  ∀ required, params.hostLabels = some required → ∀ h ∈ hosts,
    h.config.ns ∈ params.namespaces → Carries h.config required →
      h.config.spec.lattice = params.latticeId

theorem upserted_selects_iff (current : Option Service) (config : WasmCloudHostConfig) :
    (upserted api params ownerRef current).selects (podLabels config) = true ↔
      ∃ required, params.hostLabels = some required ∧ Carries config required := by
  have hselector : (upserted api params ownerRef current).selector = serviceSelector params :=
    api.selector_applied _ _ _ _
  simp only [Service.selects, hselector, Bool.and_eq_true, Bool.not_eq_true']
  cases hlabels : params.hostLabels with
  | none => simp [serviceSelector, hlabels, Dict.empty]
  | some required =>
    have hne : (serviceSelector params).entries.isEmpty = false := by
      rw [List.isEmpty_eq_false_iff]
      intro hnil
      have hget : (serviceSelector params).get? "app.kubernetes.io/name" = some "wasmcloud" := by
        simp only [serviceSelector, hlabels]
        rw [get?_unprefixed _ _ fun k => formatServiceSelector_ne k (by decide)]
        exact Dict.get?_put_self _ _ _
      have hmem := Dict.mem_entries.mpr hget
      rw [hnil] at hmem
      cases hmem
    rw [hne, selector_matches_iff hlabels]
    simp

/-- An upsert routes to its own lattice only, under every failure pattern, exactly when
the required labels name the lattice. Without requirements it always does. -/
theorem routesWithin_iff (api : ApiServer) (ownerRef : Option OwnerReference)
    (hbuilt : BuiltFrom c hosts) {order : List String}
    (horder : IterationOf order params.namespaces) :
    (∀ fails, RoutesWithin params hosts (createOrUpdateService api fails params ownerRef order c)) ↔
      LabelsNameLattice params hosts := by
  constructor
  · intro hroutes required hreq h hh hns hcarries
    have hroute := hroutes fun _ => false
    have hnofail : (createOrUpdateService api (fun _ => false) params ownerRef order c).NoFailure :=
      fun call hcall => Bool.false_ne_true (createOrUpdateService_failed hcall)
    have happlied := createOrUpdateService_all hnofail ((horder.mem _).mpr hns)
    obtain ⟨-, -, -, hservice⟩ := createOrUpdateService_applied horder.1 happlied rfl
    exact hroute.selected _ _ happlied hservice h hh rfl
      ((upserted_selects_iff _ h.config).mpr ⟨required, hreq, hcarries⟩)
  · intro hname fails
    refine ⟨?_, fun key slice hslice => createOrUpdateService_sliced hbuilt hslice⟩
    intro ns svc happlied hservice h hh hns hselects
    obtain ⟨hin, -, -, hstored⟩ := createOrUpdateService_applied horder.1 happlied rfl
    obtain rfl := Option.some.inj (hservice.symm.trans hstored)
    obtain ⟨required, hreq, hcarries⟩ := (upserted_selects_iff _ h.config).mp hselects
    exact hname required hreq h hh (hns ▸ (horder.mem _).mp hin) hcarries

def edgeLabels : Labels := Dict.empty.put "region" "edge"

def sharedHosts : List Host :=
  [⟨.sample "a" "lattice-a" (some edgeLabels), none⟩,
    ⟨.sample "b" "lattice-b" (some edgeLabels), none⟩]

def sharedCluster : Cluster where
  configs := sharedHosts.map Host.config
  pods := sharedHosts.map Host.pod

def edgeParams (lattice : String) (hostLabels : Option Labels) : ServiceParams :=
  ⟨"app", {"default"}, lattice, 8080, hostLabels⟩

theorem sharedCluster_builtFrom : BuiltFrom sharedCluster sharedHosts where
  pods := rfl
  configs _ hh := List.mem_map_of_mem hh
  names := by simp [sharedCluster, sharedHosts, WasmCloudHostConfig.sample]

def running (ip : String) : Option PodStatus := some ⟨some "Running", some [some ip]⟩

def zoned (zone : String) : Labels := Dict.empty.put "zone" zone

def runningHosts : List Host :=
  [⟨.sample "a" "lattice-a" (some (zoned "a")), running "10.0.0.1"⟩,
    ⟨.sample "b" "lattice-b" (some (zoned "b")), running "10.0.0.2"⟩]

def runningCluster : Cluster where
  configs := runningHosts.map Host.config
  pods := runningHosts.map Host.pod

theorem runningCluster_builtFrom : BuiltFrom runningCluster runningHosts where
  pods := rfl
  configs _ hh := List.mem_map_of_mem hh
  names := by simp [runningCluster, runningHosts, WasmCloudHostConfig.sample]

/-- Without requirements the slice routes, and where the zone is required, the selector. -/
theorem routesWithin_running :
    (∀ fails, RoutesWithin (edgeParams "lattice-a" none) runningHosts
      (createOrUpdateService .basic fails (edgeParams "lattice-a" none) none ["default"]
        runningCluster)) ∧
    ∀ fails, RoutesWithin (edgeParams "lattice-a" (some (zoned "a"))) runningHosts
      (createOrUpdateService .basic fails (edgeParams "lattice-a" (some (zoned "a"))) none
        ["default"] runningCluster) := by
  constructor
  · have hname : LabelsNameLattice (edgeParams "lattice-a" none) runningHosts := by
      intro required hreq
      cases hreq
    exact (routesWithin_iff .basic none runningCluster_builtFrom (by decide)).mpr hname
  · have hname : LabelsNameLattice (edgeParams "lattice-a" (some (zoned "a"))) runningHosts := by
      intro required hreq h hh _ hcarries
      obtain rfl := Option.some.inj hreq
      have hzone := hcarries "zone" "a" (by decide)
      rcases List.mem_cons.mp hh with rfl | hh
      · rfl
      · obtain rfl := List.mem_singleton.mp hh
        exact absurd hzone (by decide)
    exact (routesWithin_iff .basic none runningCluster_builtFrom (by decide)).mpr hname

/-- With the same host labels on both lattices, the Service selects the pods of both. -/
theorem shared_labels_cross_lattices :
    ¬∀ (api : ApiServer) (ownerRef : Option OwnerReference) (c : Cluster) (hosts : List Host)
      (params : ServiceParams) (order : List String), BuiltFrom c hosts →
        IterationOf order params.namespaces → ∀ fails, RoutesWithin params hosts
          (createOrUpdateService api fails params ownerRef order c) := by
  intro h
  have hroutes := h .basic none sharedCluster sharedHosts (edgeParams "lattice-a" (some edgeLabels))
    ["default"] sharedCluster_builtFrom (by decide) fun _ => false
  have happlied : .applied ("default", "app") "lattice-a" ∈
      (createOrUpdateService .basic (fun _ => false) (edgeParams "lattice-a" (some edgeLabels))
        none ["default"] sharedCluster).effects := List.mem_cons_self
  obtain ⟨-, -, -, hservice⟩ := createOrUpdateService_applied (by decide) happlied rfl
  have hlattice := hroutes.selected "default" _ happlied hservice _
    (List.mem_cons_of_mem _ List.mem_cons_self) rfl
    ((upserted_selects_iff _ _).mpr ⟨edgeLabels, rfl, fun _ _ hk => hk⟩)
  exact absurd hlattice (by decide)

end Routing
end WadmOperator

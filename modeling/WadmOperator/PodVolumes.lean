import Mathlib.Data.List.Flatten
import WadmOperator.CertificateVolumes
import WadmOperator.Foundation.Pieces

/-!
# Well-formed pods

The volumes of a pod, the mounts of its containers and the certificate arguments of the
host, compared with the objects that the authorities refer to.
-/

namespace WadmOperator

/-- A mount of the argument is still there after the merge, under its own name. -/
def DeepMerge.KeepsMounts (d : DeepMerge) : Prop :=
  ∀ c other m, m ∈ other.volumeMounts.getD [] →
    (∀ m' ∈ other.volumeMounts.getD [], m'.mountPath = m.mountPath → m'.name = m.name) →
      ∃ m' ∈ (d.mergeFrom c other).volumeMounts.getD [],
        m'.name = m.name ∧ m'.mountPath = m.mountPath

namespace PodTemplate

open Procedure

variable {lib : Libraries} {fails : KubeCall → Bool} {s u : Context} {config : HostConfig}

def additionVolumes (config : HostConfig) : List Volume :=
  (config.podTemplateAdditions.bind fun overrides => overrides.volumes).getD []

def expectedPaths (s : Context) (config : HostConfig) : List String :=
  config.authorities.flatMap fun authority =>
    (certificateKeys s config.ns authority).map (certificatePath (caName authority))

/-- The path of an argument is a key in the directory where a volume with it is mounted. -/
def Backed (s : Context) (ns : String) (own : List Volume) (c : Container) (path : String) : Prop :=
  ∃ v ∈ own, ∃ m ∈ c.volumeMounts.getD [], m.name = v.name ∧
    ∃ key ∈ certificateKeys s ns v, path = m.mountPath ++ "/" ++ key

structure WellFormed (s : Context) (config : HostConfig) (own : List Volume)
    (nats wasmcloud : Container) : Prop where
  distinct : ((own ++ additionVolumes config).map Volume.name).Nodup
  found : config.containerTemplateAdditions = none → ∀ c ∈ [nats, wasmcloud],
    ∀ m ∈ c.volumeMounts.getD [], m.name ∈ (own ++ additionVolumes config).map Volume.name
  mounted : ∀ v ∈ own, "ca-".toList <+: v.name.toList →
    ∃ m ∈ wasmcloud.volumeMounts.getD [], m.name = v.name ∧
      m.mountPath = "/wasmcloud/certificates/" ++ v.name
  paths : ∃ paths, wasmcloud.args = some (configureObservability config.spec ++ tlsArgs paths) ∧
    paths.Nodup ∧ paths.Perm (expectedPaths s config) ∧
      ∀ path ∈ paths, Backed s config.ns own wasmcloud path

def WellFormedPod (s : Context) (config : HostConfig) (template : PodTemplateSpec) : Prop :=
  ∃ spec own nats wasmcloud, template.spec = some spec ∧ spec.containers = [nats, wasmcloud] ∧
    spec.volumes = some (own ++ additionVolumes config) ∧ WellFormed s config own nats wasmcloud

def certified (s : Context) (config : HostConfig) : List Volume :=
  config.authorities.filter fun authority => certificateKeys s config.ns authority ≠ []

/-- An authority refers to one object, and all names of volumes are different. -/
structure DistinctVolumes (s : Context) (config : HostConfig) : Prop where
  oneObject : ∀ authority ∈ config.authorities, OneObject s config.ns authority
  authorities : ((certified s config).map Volume.name).Nodup
  additions : ((additionVolumes config).map Volume.name).Nodup
  notOwn : ∀ v ∈ additionVolumes config, v.name ≠ "nats-config" ∧
    (config.spec.secretName.isSome → v.name ≠ "nats-creds") ∧
      ∀ authority ∈ certified s config, v.name ≠ caName authority

/-- The API server takes no other keys. -/
structure ValidKeys (s : Context) : Prop where
  secret : ∀ k x data key v, (s.objects .secret).get? k = some x → x.data = some data →
    data.get? key = some v → '/' ∉ key.toList
  configMap : ∀ k x data key v, (s.objects .configMap).get? k = some x → x.data = some data →
    data.get? key = some v → '/' ∉ key.toList
  binaryData : ∀ k x data key v, (s.objects .configMap).get? k = some x →
    x.binaryData = some data → data.get? key = some v → '/' ∉ key.toList

def ownVolumes (s : Context) (config : HostConfig) : List Volume :=
  { name := "nats-config", configMap := some ⟨some config.name⟩ } ::
    (config.authorities.flatMap (caVolumes s config.ns) ++
      (config.spec.secretName.map credsVolume).toList)

def ownCertificates (s : Context) (config : HostConfig) : Certificates :=
  (initialCertificates config).append (added s config.ns config.authorities)

theorem podSpec_volumes (config : HostConfig) (cs : List Container) (volumes : List Volume) :
    (podSpec config cs volumes).volumes = some (volumes ++ additionVolumes config) := by
  unfold podSpec additionVolumes
  cases config.podTemplateAdditions with
  | none => exact congrArg some (List.append_nil _).symm
  | some overrides => rfl

theorem podTemplate_eq {template : PodTemplateSpec}
    (h : podTemplate lib fails config s = (.ok template, u)) :
    template =
      { labels := some (Routing.podLabels config.base)
        spec := some (podSpec config (containers lib config (ownCertificates s config))
          (ownVolumes s config)) } := by
  obtain ⟨certificates, t, hcertificates, hrest⟩ := bind_eq_ok h
  obtain ⟨rfl, -⟩ := pure_eq_ok hrest
  rw [addAuthorities_ok hcertificates]
  rfl

theorem wellFormedPod_iff {template : PodTemplateSpec}
    (h : podTemplate lib fails config s = (.ok template, u)) :
    WellFormedPod s config template ↔ WellFormed s config (ownVolumes s config)
      (withAdditions lib (natsAdditions config) (natsContainer config))
      (withAdditions lib (wasmcloudAdditions config)
        (wasmcloudContainer config (ownCertificates s config))) := by
  have hspec := congrArg PodTemplateSpec.spec (podTemplate_eq h)
  constructor
  · intro hpod
    obtain ⟨spec, own, nats, wasmcloud, hspec', hcontainers, hvolumes, hwell⟩ := hpod
    obtain rfl := Option.some.inj (hspec.symm.trans hspec')
    rw [podSpec_containers, containers_eq] at hcontainers
    rw [podSpec_volumes] at hvolumes
    obtain ⟨rfl, rfl⟩ : nats = _ ∧ wasmcloud = _ := by simpa using hcontainers.symm
    obtain rfl : own = _ := (List.append_left_inj _).mp (Option.some.inj hvolumes).symm
    exact hwell
  · intro hwell
    refine ⟨_, _, _, _, hspec, ?_, podSpec_volumes _ _ _, hwell⟩
    rw [podSpec_containers, containers_eq]

/-! ## Volume names -/

theorem caVolumes_names {ns : String} {authorities : List Volume}
    (h : ∀ authority ∈ authorities, OneObject s ns authority) :
    (authorities.flatMap (caVolumes s ns)).map Volume.name =
      (authorities.filter fun authority => certificateKeys s ns authority ≠ []).map caName := by
  induction authorities with
  | nil => rfl
  | cons authority authorities ih =>
    have hrest := ih fun a ha => h a (List.mem_cons_of_mem _ ha)
    rw [List.flatMap_cons, List.map_append, hrest]
    rcases (h authority List.mem_cons_self).caVolumes_eq with
      ⟨hkeys, hvolumes⟩ | ⟨hkeys, v, hvolumes, hname, -⟩
    · rw [hvolumes, List.filter_cons_of_neg (by simpa using hkeys)]
      rfl
    · rw [hvolumes, List.filter_cons_of_pos (by simpa using hkeys), List.map_cons, List.map_cons,
        hname]
      rfl

theorem caName_injective {a b : Volume} : caName a = caName b ↔ a.name = b.name :=
  String.append_right_inj _

theorem caName_ne {name : String} (h : ¬"ca-".toList <+: name.toList) (authority : Volume) :
    caName authority ≠ name := by
  intro heq
  apply h
  rw [← heq, caName, String.toList_append]
  exact List.prefix_append _ _

def credsNames (config : HostConfig) : List String :=
  (config.spec.secretName.map fun _ => "nats-creds").toList

theorem ownVolumes_names (h : ∀ authority ∈ config.authorities, OneObject s config.ns authority) :
    (ownVolumes s config).map Volume.name =
      "nats-config" :: ((certified s config).map caName ++ credsNames config) := by
  rw [ownVolumes, List.map_cons, List.map_append, caVolumes_names h]
  congr 2
  unfold credsNames
  cases config.spec.secretName <;> rfl

theorem mem_credsNames {name : String} :
    name ∈ credsNames config ↔ config.spec.secretName.isSome ∧ name = "nats-creds" := by
  unfold credsNames
  cases config.spec.secretName <;> simp

theorem ownNames_nodup_iff (names : List Volume) :
    ("nats-config" :: (names.map caName ++ credsNames config)).Nodup ↔
      (names.map Volume.name).Nodup := by
  have hconfig : "nats-config" ∉ names.map caName ++ credsNames config := by
    intro hin
    rcases List.mem_append.mp hin with hin | hin
    · obtain ⟨a, -, ha⟩ := List.mem_map.mp hin
      exact caName_ne (by decide) a ha
    · exact absurd (mem_credsNames.mp hin).2 (by decide)
  have hcreds : (credsNames config).Nodup := by
    unfold credsNames
    cases config.spec.secretName <;> simp
  have hapart : ∀ name ∈ names.map caName, ∀ name' ∈ credsNames config, name ≠ name' := by
    intro name hname name' hname'
    obtain ⟨a, -, rfl⟩ := List.mem_map.mp hname
    rw [(mem_credsNames.mp hname').2]
    exact caName_ne (by decide) a
  have hca : (names.map caName).Nodup ↔ (names.map Volume.name).Nodup := by
    simp only [List.Nodup, List.pairwise_map, ne_eq, caName_injective]
  rw [List.nodup_cons, List.nodup_append, hca]
  exact ⟨fun h => h.2.1, fun h => ⟨hconfig, h, hcreds, hapart⟩⟩

theorem names_nodup_iff (h : ∀ authority ∈ config.authorities, OneObject s config.ns authority) :
    ((ownVolumes s config ++ additionVolumes config).map Volume.name).Nodup ↔
      DistinctVolumes s config := by
  rw [List.map_append, ownVolumes_names h, List.nodup_append, ownNames_nodup_iff]
  constructor
  · intro hnames
    obtain ⟨hauthorities, hadditions, hapart⟩ := hnames
    refine ⟨h, hauthorities, hadditions, fun v hv => ?_⟩
    have hnot : ∀ name ∈ "nats-config" :: ((certified s config).map caName ++ credsNames config),
        v.name ≠ name := fun name hname =>
      (hapart name hname v.name (List.mem_map_of_mem hv)).symm
    refine ⟨hnot _ List.mem_cons_self, fun hsecret => ?_, fun authority hauthority => ?_⟩
    · apply hnot
      exact List.mem_cons_of_mem _ (List.mem_append_right _ (mem_credsNames.mpr ⟨hsecret, rfl⟩))
    · apply hnot
      exact List.mem_cons_of_mem _ (List.mem_append_left _ (List.mem_map_of_mem hauthority))
  · intro hdistinct
    refine ⟨hdistinct.authorities, hdistinct.additions, fun name hname name' hname' => ?_⟩
    obtain ⟨v, hv, rfl⟩ := List.mem_map.mp hname'
    obtain ⟨hconfig, hcreds, hca⟩ := hdistinct.notOwn v hv
    rcases List.mem_cons.mp hname with rfl | hname
    · exact hconfig.symm
    · rcases List.mem_append.mp hname with hname | hname
      · obtain ⟨a, ha, rfl⟩ := List.mem_map.mp hname
        exact (hca a ha).symm
      · obtain ⟨hsecret, rfl⟩ := mem_credsNames.mp hname
        exact (hcreds hsecret).symm

/-! ## Mounts and arguments -/

theorem withAdditions_args {additions : Option Container} {c : Container} {args : List String}
    (h : c.args = some args) : (withAdditions lib additions c).args = some args := by
  cases additions with
  | none => exact h
  | some own => exact lib.deepMerge.args_merged own c args h

theorem withAdditions_mounted (hmounts : lib.deepMerge.KeepsMounts) (additions : Option Container)
    {c : Container} {m : VolumeMount} (hm : m ∈ c.volumeMounts.getD [])
    (hown : ∀ m' ∈ c.volumeMounts.getD [], m'.mountPath = m.mountPath → m'.name = m.name) :
    ∃ m' ∈ (withAdditions lib additions c).volumeMounts.getD [],
      m'.name = m.name ∧ m'.mountPath = m.mountPath := by
  cases additions with
  | none => exact ⟨m, hm, rfl, rfl⟩
  | some own => exact hmounts own c m hm hown

theorem mem_caMounts {ns : String} {authorities : List Volume} {m : VolumeMount} :
    m ∈ authorities.flatMap (caMounts s ns) ↔
      ∃ a ∈ authorities, mountedKeys s ns a ≠ [] ∧ m = caMount (caName a) := by
  rw [List.mem_flatMap]
  refine exists_congr fun a => and_congr_right fun _ => ?_
  unfold caMounts
  split_ifs with hkeys <;> simp [hkeys]

theorem wasmcloud_mounts (s : Context) (config : HostConfig) :
    (wasmcloudContainer config (ownCertificates s config)).volumeMounts.getD [] =
      config.authorities.flatMap (caMounts s config.ns) := by
  simp only [wasmcloudContainer, ownCertificates, Certificates.append, initialCertificates, added,
    Option.getD_some, List.nil_append]

theorem authority_mounted (hmounts : lib.deepMerge.KeepsMounts) {a : Volume}
    (ha : a ∈ config.authorities) (hkeys : mountedKeys s config.ns a ≠ []) :
    ∃ m ∈ (withAdditions lib (wasmcloudAdditions config)
        (wasmcloudContainer config (ownCertificates s config))).volumeMounts.getD [],
      m.name = caName a ∧ m.mountPath = "/wasmcloud/certificates/" ++ caName a := by
  apply withAdditions_mounted hmounts _ (m := caMount (caName a))
  · rw [wasmcloud_mounts]
    exact mem_caMounts.mpr ⟨a, ha, hkeys, rfl⟩
  · intro m' hm' hpath
    rw [wasmcloud_mounts] at hm'
    obtain ⟨a', -, -, rfl⟩ := mem_caMounts.mp hm'
    exact (String.append_right_inj _).mp hpath

theorem wasmcloud_args (lib : Libraries) (s : Context) (config : HostConfig) :
    (withAdditions lib (wasmcloudAdditions config)
        (wasmcloudContainer config (ownCertificates s config))).args =
      some (configureObservability config.spec ++
        tlsArgs (config.authorities.flatMap (caPaths s config.ns))) := by
  apply withAdditions_args
  rfl

theorem eq_of_flatMap_length {α β : Type} {f g : α → List β} {l : List α}
    (hsub : ∀ a ∈ l, (f a).Sublist (g a)) (hlength : (l.flatMap f).length = (l.flatMap g).length) :
    ∀ a ∈ l, f a = g a := by
  induction l with
  | nil => simp
  | cons b l ih =>
    have hfirst := (hsub b List.mem_cons_self).length_le
    have hrest : (l.flatMap f).length ≤ (l.flatMap g).length :=
      (List.Sublist.flatMap_right l fun a ha => hsub a (List.mem_cons_of_mem _ ha)).length_le
    simp only [List.flatMap_cons, List.length_append] at hlength
    intro a ha
    rcases List.mem_cons.mp ha with rfl | ha
    · apply (hsub a List.mem_cons_self).eq_of_length
      omega
    · apply ih (fun a ha => hsub a (List.mem_cons_of_mem _ ha)) (by omega) a ha

theorem oneObject_of_paths
    (h : (config.authorities.flatMap (caPaths s config.ns)).Perm (expectedPaths s config)) :
    ∀ authority ∈ config.authorities, OneObject s config.ns authority := by
  have hpaths := eq_of_flatMap_length
    (fun a _ => (mountedKeys_sublist s config.ns a).map (certificatePath (caName a))) h.length_eq
  intro a ha
  apply oneObject_of_mountedKeys
  apply (mountedKeys_sublist s config.ns a).eq_of_length
  have hlength := congrArg List.length (hpaths a ha)
  rwa [List.length_map, List.length_map] at hlength

theorem caPaths_eq (h : ∀ authority ∈ config.authorities, OneObject s config.ns authority) :
    config.authorities.flatMap (caPaths s config.ns) = expectedPaths s config := by
  unfold expectedPaths
  apply List.flatMap_congr
  intro a ha
  rw [caPaths, (h a ha).mountedKeys_eq]

theorem mem_crtKeys {α : Type} {data : Option (Dict String α)} {key : String}
    (h : key ∈ crtKeys data) : ∃ d v, data = some d ∧ d.get? key = some v := by
  cases data with
  | none => cases h
  | some d =>
    obtain ⟨⟨k, v⟩, hkv, rfl⟩ := List.mem_map.mp (List.mem_filter.mp h).1
    exact ⟨d, v, rfl, Dict.mem_toPairs.mp hkv⟩

theorem mem_crtKeys_bind {β γ : Type} {name : Option String} {objects : String → Option β}
    {dataOf : β → Option (Dict String γ)} {key : String}
    (h : key ∈ crtKeys ((name.bind objects).bind dataOf)) :
    ∃ n object data v, objects n = some object ∧ dataOf object = some data ∧
      data.get? key = some v := by
  obtain ⟨data, v, hdata, hv⟩ := mem_crtKeys h
  obtain ⟨object, hobject, hdata⟩ := Option.bind_eq_some_iff.mp hdata
  obtain ⟨n, -, hobject⟩ := Option.bind_eq_some_iff.mp hobject
  exact ⟨n, object, data, v, hobject, hdata, hv⟩

theorem ValidKeys.certificateKeys (h : ValidKeys s) {ns : String} {v : Volume} {key : String}
    (hkey : key ∈ certificateKeys s ns v) : '/' ∉ key.toList := by
  rcases List.mem_append.mp hkey with hkey | hkey
  · rcases List.mem_append.mp hkey with hkey | hkey
    · obtain ⟨_, object, data, x, hobject, hdata, hx⟩ := mem_crtKeys_bind hkey
      exact h.secret _ object data key x hobject hdata hx
    · obtain ⟨_, object, data, x, hobject, hdata, hx⟩ := mem_crtKeys_bind hkey
      exact h.configMap _ object data key x hobject hdata hx
  · obtain ⟨_, object, data, x, hobject, hdata, hx⟩ := mem_crtKeys_bind hkey
    exact h.binaryData _ object data key x hobject hdata hx

theorem append_slash_injective {p p' key key' : String} (hkey : '/' ∉ key.toList)
    (hkey' : '/' ∉ key'.toList) (h : p ++ "/" ++ key = p' ++ "/" ++ key') : p = p' ∧ key = key' := by
  have hsplit : ∀ p key : String, (p ++ "/" ++ key).toList.reverse =
      key.toList.reverse ++ '/' :: p.toList.reverse := by
    intro p key
    have hslash : "/".toList = ['/'] := rfl
    rw [String.toList_append, String.toList_append, hslash, List.reverse_append,
      List.reverse_append, List.reverse_singleton, List.singleton_append]
  have hlist := congrArg (fun path => path.toList.reverse) h
  simp only [hsplit] at hlist
  obtain ⟨hk, hp⟩ := Pieces.append_cons_inj (by simpa using hkey) (by simpa using hkey') hlist
  exact ⟨String.toList_inj.mp (List.reverse_injective hp),
    String.toList_inj.mp (List.reverse_injective hk)⟩

theorem certificatePath_injective {n n' key key' : String} (hkey : '/' ∉ key.toList)
    (hkey' : '/' ∉ key'.toList) (h : certificatePath n key = certificatePath n' key') :
    n = n' ∧ key = key' := by
  obtain ⟨hdir, hsame⟩ := append_slash_injective hkey hkey' h
  exact ⟨(String.append_right_inj _).mp hdir, hsame⟩

theorem expectedPaths_nodup (hvalid : ValidKeys s) (h : DistinctVolumes s config) :
    (expectedPaths s config).Nodup := by
  apply List.nodup_flatMap.mpr
  constructor
  · intro a ha
    exact (h.oneObject a ha).keys_nodup.map fun key key' => (String.append_right_inj _).mp
  · have hnames := h.authorities
    rw [List.Nodup, List.pairwise_map, certified, List.pairwise_filter] at hnames
    refine hnames.imp fun {a b} hab => ?_
    intro path ha hb
    obtain ⟨key, hkey, rfl⟩ := List.mem_map.mp ha
    obtain ⟨key', hkey', hpath⟩ := List.mem_map.mp hb
    obtain ⟨hname, -⟩ := certificatePath_injective (hvalid.certificateKeys hkey')
      (hvalid.certificateKeys hkey) hpath
    apply hab
    · simpa using List.ne_nil_of_mem hkey
    · simpa using List.ne_nil_of_mem hkey'
    · exact (caName_injective.mp hname).symm

/-! ## Exactness -/

theorem volume_of_authority {a : Volume} (ha : a ∈ config.authorities)
    (hone : OneObject s config.ns a) (hkeys : certificateKeys s config.ns a ≠ []) :
    ∃ v ∈ ownVolumes s config, v.name = caName a ∧
      certificateKeys s config.ns v = certificateKeys s config.ns a := by
  rcases hone.caVolumes_eq with ⟨hempty, -⟩ | ⟨-, v, hvolumes, hname, hsame⟩
  · exact absurd hempty hkeys
  · refine ⟨v, ?_, hname, hsame⟩
    apply List.mem_cons_of_mem
    apply List.mem_append_left
    exact List.mem_flatMap.mpr ⟨a, ha, by rw [hvolumes]; exact List.mem_singleton_self v⟩

theorem authority_of_volume (h : ∀ authority ∈ config.authorities, OneObject s config.ns authority)
    {v : Volume} (hv : v ∈ ownVolumes s config) (hca : "ca-".toList <+: v.name.toList) :
    ∃ a ∈ config.authorities, v.name = caName a ∧ certificateKeys s config.ns a ≠ [] := by
  rcases List.mem_cons.mp hv with rfl | hv
  · have hnot : ¬"ca-".toList <+: "nats-config".toList := by decide
    exact absurd hca hnot
  · rcases List.mem_append.mp hv with hv | hv
    · obtain ⟨a, ha, hva⟩ := List.mem_flatMap.mp hv
      rcases (h a ha).caVolumes_eq with ⟨-, hvolumes⟩ | ⟨hkeys, v', hvolumes, hname, -⟩
      · rw [hvolumes] at hva
        cases hva
      · rw [hvolumes] at hva
        obtain rfl := List.mem_singleton.mp hva
        exact ⟨a, ha, hname, hkeys⟩
    · cases hsecret : config.spec.secretName with
      | none =>
        rw [hsecret] at hv
        cases hv
      | some name =>
        rw [hsecret] at hv
        obtain rfl := List.mem_singleton.mp hv
        have hnot : ¬"ca-".toList <+: "nats-creds".toList := by decide
        exact absurd hca hnot

theorem operator_mounts_found (lib : Libraries) (hnone : config.containerTemplateAdditions = none)
    (h : ∀ authority ∈ config.authorities, OneObject s config.ns authority) :
    ∀ c ∈ [withAdditions lib (natsAdditions config) (natsContainer config),
        withAdditions lib (wasmcloudAdditions config)
          (wasmcloudContainer config (ownCertificates s config))],
      ∀ m ∈ c.volumeMounts.getD [], m.name ∈ (ownVolumes s config).map Volume.name := by
  have hnats : natsAdditions config = none := by rw [natsAdditions, hnone]; rfl
  have hwasmcloud : wasmcloudAdditions config = none := by rw [wasmcloudAdditions, hnone]; rfl
  rw [hnats, hwasmcloud, ownVolumes_names h]
  intro c hc m hm
  rcases List.mem_cons.mp hc with rfl | hc
  · rcases List.mem_cons.mp hm with rfl | hm
    · exact List.mem_cons_self
    · cases hsecret : config.spec.secretName with
      | none =>
        rw [hsecret] at hm
        cases hm
      | some name =>
        rw [hsecret] at hm
        obtain rfl := List.mem_singleton.mp hm
        apply List.mem_cons_of_mem
        exact List.mem_append_right _ (mem_credsNames.mpr ⟨by rw [hsecret]; rfl, rfl⟩)
  · obtain rfl := List.mem_singleton.mp hc
    change m ∈ (wasmcloudContainer config (ownCertificates s config)).volumeMounts.getD [] at hm
    rw [wasmcloud_mounts] at hm
    obtain ⟨a, ha, hkeys, rfl⟩ := mem_caMounts.mp hm
    rw [(h a ha).mountedKeys_eq] at hkeys
    apply List.mem_cons_of_mem
    apply List.mem_append_left
    exact List.mem_map_of_mem (List.mem_filter.mpr ⟨ha, by simpa using hkeys⟩)

theorem distinctVolumes_of_wellFormedPod {template : PodTemplateSpec}
    (h : podTemplate lib fails config s = (.ok template, u))
    (hpod : WellFormedPod s config template) : DistinctVolumes s config := by
  have hwell := (wellFormedPod_iff h).mp hpod
  obtain ⟨paths, hargs, -, hperm, -⟩ := hwell.paths
  rw [wasmcloud_args] at hargs
  have hpaths := tlsArgs_injective ((List.append_right_inj _).mp (Option.some.inj hargs))
  rw [← hpaths] at hperm
  exact (names_nodup_iff (oneObject_of_paths hperm)).mp hwell.distinct

/-- A template that is made is well formed exactly when the volumes are distinct. -/
theorem podTemplate_wellFormed_iff (hmounts : lib.deepMerge.KeepsMounts) (hvalid : ValidKeys s)
    {template : PodTemplateSpec} (h : podTemplate lib fails config s = (.ok template, u)) :
    WellFormedPod s config template ↔ DistinctVolumes s config := by
  constructor
  · exact distinctVolumes_of_wellFormedPod h
  · intro hdistinct
    rw [wellFormedPod_iff h]
    have hone := hdistinct.oneObject
    have hmounted : ∀ a ∈ config.authorities, certificateKeys s config.ns a ≠ [] → _ :=
      fun a ha hkeys => authority_mounted hmounts ha (by rwa [(hone a ha).mountedKeys_eq])
    refine ⟨(names_nodup_iff hone).mpr hdistinct, ?_, ?_, expectedPaths s config, ?_,
      expectedPaths_nodup hvalid hdistinct, .refl _, ?_⟩
    · intro hnone c hc m hm
      rw [List.map_append]
      exact List.mem_append_left _ (operator_mounts_found lib hnone hone c hc m hm)
    · intro v hv hca
      obtain ⟨a, ha, hname, hkeys⟩ := authority_of_volume hone hv hca
      rw [hname]
      exact hmounted a ha hkeys
    · rw [wasmcloud_args, caPaths_eq hone]
    · intro path hpath
      obtain ⟨a, ha, hpath⟩ := List.mem_flatMap.mp hpath
      obtain ⟨key, hkey, rfl⟩ := List.mem_map.mp hpath
      have hkeys := List.ne_nil_of_mem hkey
      obtain ⟨v, hv, hname, hsame⟩ := volume_of_authority ha (hone a ha) hkeys
      obtain ⟨m, hm, hmname, hmpath⟩ := hmounted a ha hkeys
      refine ⟨v, hv, m, hm, hmname.trans hname.symm, key, by rw [hsame]; exact hkey, ?_⟩
      rw [hmpath]
      rfl

theorem basic_keepsMounts : DeepMerge.basic.KeepsMounts := by
  intro c other m hm _
  exact ⟨m, DeepMerge.mem_mergedMounts.mpr (.inl hm), rfl, rfl⟩

/-- A Secret with a certificate, and a ConfigMap without one. -/
def certificateObjects : Context :=
  (({} : Context).putObject .secret ("default", "tls")
    ⟨some (Dict.empty.put "ca.crt" .empty)⟩).putObject .configMap ("default", "empty") {}

def rootAuthority (configMap : Option ConfigMapVolumeSource) : Volume :=
  { name := "root", secret := some ⟨some "tls"⟩, configMap := configMap }

def certifiedBy (authority : Volume) : HostConfig where
  uid := "1"
  ns := "default"
  name := "host"
  spec := { HostConfigSpec.sample with certificates := some ⟨some [authority]⟩ }

theorem certificateObjects_validKeys : ValidKeys certificateObjects := by
  constructor
  · intro k x data key v hx hdata hkey
    obtain ⟨-, rfl⟩ := Dict.eq_of_get?_single hx
    obtain rfl := Option.some.inj hdata
    obtain ⟨rfl, -⟩ := Dict.eq_of_get?_single hkey
    decide
  · intro k x data key v hx hdata
    obtain ⟨-, rfl⟩ := Dict.eq_of_get?_single hx
    cases hdata
  · intro k x data key v hx hdata
    obtain ⟨-, rfl⟩ := Dict.eq_of_get?_single hx
    cases hdata

theorem rootAuthority_distinct :
    DistinctVolumes certificateObjects (certifiedBy (rootAuthority none)) := by
  refine ⟨?_, List.nodup_singleton _, List.nodup_nil, fun v hv => (by cases hv)⟩
  intro a ha
  obtain rfl := List.mem_singleton.mp ha
  exact ⟨rfl, fun _ hmap => by cases hmap⟩

theorem podTemplate_wellFormed_secret : ∃ template u,
    podTemplate .sample (fun _ => false) (certifiedBy (rootAuthority none)) certificateObjects =
      (.ok template, u) ∧
      WellFormedPod certificateObjects (certifiedBy (rootAuthority none)) template := by
  have hrun : ∃ template u, podTemplate .sample (fun _ => false) (certifiedBy (rootAuthority none))
    certificateObjects = (.ok template, u) := ⟨_, _, rfl⟩
  obtain ⟨template, u, h⟩ := hrun
  exact ⟨template, u, h,
    (podTemplate_wellFormed_iff basic_keepsMounts certificateObjects_validKeys h).mpr
      rootAuthority_distinct⟩

/-- The volume of the Secret stays without a mount where the ConfigMap is empty. -/
theorem unmounted_volume : ∃ template u,
    podTemplate .sample (fun _ => false) (certifiedBy (rootAuthority (some ⟨some "empty"⟩)))
      certificateObjects = (.ok template, u) ∧
      ¬WellFormedPod certificateObjects (certifiedBy (rootAuthority (some ⟨some "empty"⟩)))
        template := by
  have hrun : ∃ template u, podTemplate .sample (fun _ => false)
    (certifiedBy (rootAuthority (some ⟨some "empty"⟩))) certificateObjects = (.ok template, u) :=
      ⟨_, _, rfl⟩
  obtain ⟨template, u, h⟩ := hrun
  refine ⟨template, u, h, fun hpod => ?_⟩
  have hempty := (distinctVolumes_of_wellFormedPod h hpod).oneObject _
    (List.mem_singleton_self _)
  exact absurd (hempty.one rfl rfl) (by decide)

end PodTemplate
end WadmOperator

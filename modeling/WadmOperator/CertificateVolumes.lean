import WadmOperator.ReconcileSteps

/-!
# The volumes of the certificate authorities

Each authority with a certificate adds a volume, a mount and its arguments to the host.
The three agree as long as an authority reads one object, finds all of its certificates in
it, and no name is used twice.
-/

namespace WadmOperator

def Certificates.append (acc more : Certificates) : Certificates where
  volumes := acc.volumes ++ more.volumes
  mounts := acc.mounts ++ more.mounts
  args := acc.args ++ more.args

namespace PodTemplate

open Procedure

variable {lib : Libraries} {fails : KubeCall → Bool} {s u : Context} {ns : String}
  {config : HostConfig}

def secretKeys (s : Context) (ns : String) (v : Volume) : List String :=
  crtKeys (((v.secret.bind fun source => source.secretName).bind fun name =>
    (s.objects .secret).get? (ns, name)).bind Secret.data)

def configmapKeys (s : Context) (ns : String) (v : Volume) : List String :=
  crtKeys (((v.configMap.bind fun source => source.name).bind fun name =>
    (s.objects .configMap).get? (ns, name)).bind ConfigMap.data)

/-- Certificates that `discover_configmap_certificates` does not look for; they are in the
volume as well. -/
def binaryKeys (s : Context) (ns : String) (v : Volume) : List String :=
  crtKeys (((v.configMap.bind fun source => source.name).bind fun name =>
    (s.objects .configMap).get? (ns, name)).bind ConfigMap.binaryData)

def certificateKeys (s : Context) (ns : String) (v : Volume) : List String :=
  secretKeys s ns v ++ configmapKeys s ns v ++ binaryKeys s ns v

def caName (authority : Volume) : String := "ca-" ++ authority.name

def certificatePath (volumeName key : String) : String :=
  "/wasmcloud/certificates/" ++ volumeName ++ "/" ++ key

def caMount (volumeName : String) : VolumeMount :=
  { name := volumeName, readOnly := some true, mountPath := "/wasmcloud/certificates/" ++ volumeName }

def tlsArgs (paths : List String) : List String := paths.flatMap fun path => ["--tls-ca-path", path]

/-- The keys with an argument: a ConfigMap takes the place of a Secret, and a Secret without a
certificate ends the turn of its authority. -/
def mountedKeys (s : Context) (ns : String) (authority : Volume) : List String :=
  if authority.secret.isSome ∧ secretKeys s ns authority = [] then []
  else if authority.configMap.isSome then configmapKeys s ns authority
  else secretKeys s ns authority

def caVolumes (s : Context) (ns : String) (authority : Volume) : List Volume :=
  (if secretKeys s ns authority = [] then []
    else [{ name := caName authority, secret := authority.secret }]) ++
  (if (authority.secret.isSome ∧ secretKeys s ns authority = []) ∨
      configmapKeys s ns authority = [] then []
    else [{ name := caName authority, configMap := authority.configMap }])

def caMounts (s : Context) (ns : String) (authority : Volume) : List VolumeMount :=
  if mountedKeys s ns authority = [] then [] else [caMount (caName authority)]

def caPaths (s : Context) (ns : String) (authority : Volume) : List String :=
  (mountedKeys s ns authority).map (certificatePath (caName authority))

def added (s : Context) (ns : String) (authorities : List Volume) : Certificates where
  volumes := authorities.flatMap (caVolumes s ns)
  mounts := authorities.flatMap (caMounts s ns)
  args := tlsArgs (authorities.flatMap (caPaths s ns))

theorem tlsArgs_append (paths paths' : List String) :
    tlsArgs (paths ++ paths') = tlsArgs paths ++ tlsArgs paths' :=
  List.flatMap_append

theorem tlsArgs_injective {paths paths' : List String} (h : tlsArgs paths = tlsArgs paths') :
    paths = paths' := by
  induction paths generalizing paths' with
  | nil =>
    cases paths' with
    | nil => rfl
    | cons path paths' => cases h
  | cons path paths ih =>
    cases paths' with
    | nil => cases h
    | cons path' paths' =>
      simp only [tlsArgs, List.flatMap_cons, List.cons_append, List.nil_append,
        List.cons.injEq, true_and] at h
      rw [h.1, ih h.2]

theorem added_cons (authority : Volume) (authorities : List Volume) :
    added s ns (authority :: authorities) =
      (added s ns [authority]).append (added s ns authorities) := by
  simp only [added, Certificates.append, List.flatMap_cons, List.flatMap_nil, List.append_nil,
    tlsArgs_append]

theorem append_assoc (a b c : Certificates) : (a.append b).append c = a.append (b.append c) := by
  simp only [Certificates.append, List.append_assoc]

theorem secretItems_ok {authority : Volume} {found : Option (String × List String)}
    (h : secretItems fails ns authority s = (.ok found, u)) :
    u = s ∧ ((authority.secret = none ∧ found = none) ∨
      ∃ name, authority.secret = some ⟨some name⟩ ∧
        found = some (name, secretKeys s ns authority)) := by
  refine ⟨(secretItems_readOnly ns authority).eq h, ?_⟩
  unfold secretItems at h
  rcases hname : authority.secret with _ | ⟨_ | name⟩ <;> simp only [hname] at h
  · exact .inl ⟨rfl, (pure_eq_ok h).1⟩
  · exact absurd h throw_ne_ok
  · obtain ⟨items, t, hitems, hfound⟩ := bind_eq_ok h
    obtain ⟨secret, t', hsecret, hkeys⟩ := bind_eq_ok hitems
    obtain ⟨-, hget⟩ := ReconcileM.getObject_ok hsecret
    refine .inr ⟨name, rfl, ?_⟩
    rw [(pure_eq_ok hfound).1, (pure_eq_ok hkeys).1, secretKeys, hname]
    simp only [Option.bind_some, hget]

theorem configmapItems_ok {authority : Volume} {found : Option (String × List String)}
    (h : configmapItems fails ns authority s = (.ok found, u)) :
    u = s ∧ ((authority.configMap = none ∧ found = none) ∨
      ∃ name, authority.configMap = some ⟨some name⟩ ∧
        found = some (name, configmapKeys s ns authority)) := by
  refine ⟨(configmapItems_readOnly ns authority).eq h, ?_⟩
  unfold configmapItems at h
  rcases hname : authority.configMap with _ | ⟨_ | name⟩ <;> simp only [hname] at h
  · exact .inl ⟨rfl, (pure_eq_ok h).1⟩
  · exact absurd h throw_ne_ok
  · obtain ⟨items, t, hitems, hfound⟩ := bind_eq_ok h
    obtain ⟨configMap, t', hconfigMap, hkeys⟩ := bind_eq_ok hitems
    obtain ⟨-, hget⟩ := ReconcileM.getObject_ok hconfigMap
    refine .inr ⟨name, rfl, ?_⟩
    rw [(pure_eq_ok hfound).1, (pure_eq_ok hkeys).1, configmapKeys, hname]
    simp only [Option.bind_some, hget]

theorem secretKeys_of_none {v : Volume} (h : v.secret = none) : secretKeys s ns v = [] := by
  rw [secretKeys, h]
  rfl

theorem configmapKeys_of_none {v : Volume} (h : v.configMap = none) : configmapKeys s ns v = [] := by
  rw [configmapKeys, h]
  rfl

theorem mountItems_eq (volumeName : String) (items : List String) (acc : Certificates) :
    mountItems volumeName items acc = acc.append ⟨[], [caMount volumeName],
      tlsArgs (items.map (certificatePath volumeName))⟩ := by
  have hargs : (items.flatMap fun item =>
      ["--tls-ca-path", "/wasmcloud/certificates/" ++ volumeName ++ "/" ++ item]) =
        tlsArgs (items.map (certificatePath volumeName)) := by
    rw [tlsArgs, List.flatMap_map]
    congr 1
  rw [Certificates.append, ← hargs, List.append_nil]
  congr 1

theorem addConfigmap_ok {volumeName : String} {authority : Volume} {items : List String}
    {acc acc' : Certificates}
    (h : addConfigmap fails ns volumeName authority items acc s = (.ok acc', u)) :
    (authority.configMap = none ∧ acc' = mountItems volumeName items acc) ∨
      (authority.configMap.isSome ∧ configmapKeys s ns authority = [] ∧ acc' = acc) ∨
      (authority.configMap.isSome ∧ configmapKeys s ns authority ≠ [] ∧
        acc' = mountItems volumeName (configmapKeys s ns authority) (acc.append
          ⟨[{ name := volumeName, configMap := authority.configMap }], [], []⟩)) := by
  obtain ⟨found, t, hfound, hrest⟩ := bind_eq_ok h
  obtain ⟨-, ⟨hnone, rfl⟩ | ⟨name, hname, rfl⟩⟩ := configmapItems_ok hfound
  · exact .inl ⟨hnone, (pure_eq_ok hrest).1⟩
  · right
    rw [hname]
    cases hkeys : configmapKeys s ns authority with
    | nil =>
      rw [hkeys] at hrest
      exact .inl ⟨rfl, rfl, (pure_eq_ok hrest).1⟩
    | cons key keys =>
      rw [hkeys] at hrest
      refine .inr ⟨rfl, List.cons_ne_nil _ _, (pure_eq_ok hrest).1.trans ?_⟩
      simp only [Certificates.append, List.append_nil]

theorem addAuthority_ok {authority : Volume} {acc acc' : Certificates}
    (h : addAuthority fails ns authority acc s = (.ok acc', u)) :
    acc' = acc.append (added s ns [authority]) := by
  simp only [added, List.flatMap_cons, List.flatMap_nil, List.append_nil]
  simp only [addAuthority] at h
  split at h
  · exact absurd h throw_ne_ok
  · next hsource =>
    obtain ⟨found, t, hfound, hrest⟩ := bind_eq_ok h
    obtain ⟨rfl, ⟨hnone, rfl⟩ | ⟨name, hname, rfl⟩⟩ := secretItems_ok hfound
    · have hkeys : secretKeys t ns authority = [] := secretKeys_of_none hnone
      rcases addConfigmap_ok hrest with ⟨hmap, -⟩ | ⟨hmap, hempty, rfl⟩ | ⟨hmap, hcrt, rfl⟩
      · simp [hnone, hmap] at hsource
      · simp [caVolumes, caMounts, caPaths, mountedKeys, Certificates.append, tlsArgs, hnone, hkeys,
          hempty]
      · simp [caVolumes, caMounts, caPaths, mountedKeys, Certificates.append, hnone, hkeys,
          hmap, hcrt, mountItems_eq, caName]
    · cases hkeys : secretKeys t ns authority with
      | nil =>
        rw [hkeys] at hrest
        rw [(pure_eq_ok hrest).1]
        simp [caVolumes, caMounts, caPaths, mountedKeys, Certificates.append, tlsArgs, hname, hkeys]
      | cons key keys =>
        rw [hkeys] at hrest
        rcases addConfigmap_ok hrest with ⟨hmap, rfl⟩ | ⟨hmap, hempty, rfl⟩ | ⟨hmap, hcrt, rfl⟩
        · simp [caVolumes, caMounts, caPaths, mountedKeys, Certificates.append, hname, hkeys, hmap,
            configmapKeys_of_none hmap, mountItems_eq, caName]
        · simp [caVolumes, caMounts, caPaths, mountedKeys, Certificates.append, tlsArgs, hname,
            hkeys, hmap, hempty, caName]
        · simp [caVolumes, caMounts, caPaths, mountedKeys, Certificates.append, hname, hkeys, hmap,
            hcrt, mountItems_eq, caName]

theorem addAuthorities_ok {authorities : List Volume} {acc acc' : Certificates}
    (h : addAuthorities fails ns authorities acc s = (.ok acc', u)) :
    acc' = acc.append (added s ns authorities) := by
  induction authorities generalizing acc with
  | nil =>
    rw [(pure_eq_ok h).1]
    simp only [added, Certificates.append, List.flatMap_nil, List.append_nil, tlsArgs]
  | cons authority authorities ih =>
    obtain ⟨next, t, hfirst, hrest⟩ := bind_eq_ok h
    obtain rfl := (addAuthority_readOnly ns authority acc).eq hfirst
    rw [ih hrest, addAuthority_ok hfirst, append_assoc, ← added_cons]

/-- Nothing is in the binary data of a ConfigMap, and an authority that refers to a Secret and
a ConfigMap finds no certificate in them. -/
structure OneObject (s : Context) (ns : String) (authority : Volume) : Prop where
  text : binaryKeys s ns authority = []
  one : authority.secret.isSome → authority.configMap.isSome → certificateKeys s ns authority = []

theorem mountedKeys_sublist (s : Context) (ns : String) (authority : Volume) :
    (mountedKeys s ns authority).Sublist (certificateKeys s ns authority) := by
  refine List.Sublist.trans ?_ (List.sublist_append_left _ _)
  unfold mountedKeys
  split_ifs
  · exact List.nil_sublist _
  · exact List.sublist_append_right _ _
  · exact List.sublist_append_left _ _

theorem oneObject_of_mountedKeys {authority : Volume}
    (h : mountedKeys s ns authority = certificateKeys s ns authority) :
    OneObject s ns authority := by
  have hlength := congrArg List.length h
  rw [certificateKeys, List.length_append, List.length_append] at hlength
  constructor
  · refine List.length_eq_zero_iff.mp ?_
    unfold mountedKeys at hlength
    split_ifs at hlength
    · rw [List.length_nil] at hlength
      omega
    · omega
    · omega
  · intro hsecret hmap
    unfold mountedKeys at h hlength
    split_ifs at h hlength with hskip
    · exact h.symm
    · -- the keys of the ConfigMap alone are not all of them
      have hempty : secretKeys s ns authority = [] := List.length_eq_zero_iff.mp (by omega)
      exact absurd ⟨hsecret, hempty⟩ hskip

theorem OneObject.certificateKeys_eq {authority : Volume} (h : OneObject s ns authority) :
    certificateKeys s ns authority = secretKeys s ns authority ++ configmapKeys s ns authority := by
  rw [certificateKeys, h.text, List.append_nil]

theorem OneObject.keys {authority : Volume} (h : OneObject s ns authority) :
    (secretKeys s ns authority = [] ∨ authority.configMap = none) ∧
      (authority.secret = none ∨ configmapKeys s ns authority = []) := by
  cases hsecret : authority.secret with
  | none => exact ⟨.inl (secretKeys_of_none hsecret), .inl rfl⟩
  | some source =>
    cases hmap : authority.configMap with
    | none => exact ⟨.inr rfl, .inr (configmapKeys_of_none hmap)⟩
    | some source' =>
      have hkeys := h.one (by rw [hsecret]; rfl) (by rw [hmap]; rfl)
      have hboth := List.append_eq_nil_iff.mp (h.certificateKeys_eq.symm.trans hkeys)
      exact ⟨.inl hboth.1, .inr hboth.2⟩

theorem OneObject.mountedKeys_eq {authority : Volume} (h : OneObject s ns authority) :
    mountedKeys s ns authority = certificateKeys s ns authority := by
  obtain ⟨hleft, hright⟩ := h.keys
  rw [h.certificateKeys_eq]
  unfold mountedKeys
  split_ifs with hskip hmap
  · rcases hright with hnone | hempty
    · rw [hnone] at hskip
      cases hskip.1
    · rw [hskip.2, hempty]
      rfl
  · rcases hleft with hempty | hnone
    · rw [hempty]
      rfl
    · rw [hnone] at hmap
      cases hmap
  · have hnone : authority.configMap = none := by simpa using hmap
    rw [configmapKeys_of_none hnone, List.append_nil]

theorem OneObject.caVolumes_eq {authority : Volume} (h : OneObject s ns authority) :
    (certificateKeys s ns authority = [] ∧ caVolumes s ns authority = []) ∨
      (certificateKeys s ns authority ≠ [] ∧ ∃ v, caVolumes s ns authority = [v] ∧
        v.name = caName authority ∧
        certificateKeys s ns v = certificateKeys s ns authority) := by
  obtain ⟨hleft, hright⟩ := h.keys
  unfold caVolumes
  by_cases hs : secretKeys s ns authority = []
  · by_cases hc : configmapKeys s ns authority = []
    · left
      rw [h.certificateKeys_eq, if_pos hs, if_pos (.inr hc), hs, hc]
      exact ⟨rfl, rfl⟩
    · right
      have hnone := hright.resolve_right hc
      have hkeys : certificateKeys s ns authority = configmapKeys s ns authority := by
        rw [h.certificateKeys_eq, hs, List.nil_append]
      let v : Volume := { name := caName authority, configMap := authority.configMap }
      have hvolume : certificateKeys s ns v =
          configmapKeys s ns authority ++ binaryKeys s ns authority := rfl
      rw [h.text, List.append_nil] at hvolume
      refine ⟨by rw [hkeys]; exact hc, v, ?_, rfl, hvolume.trans hkeys.symm⟩
      rw [if_pos hs, if_neg, List.nil_append]
      intro hor
      rcases hor with hskip | hempty
      · rw [hnone] at hskip
        cases hskip.1
      · exact hc hempty
  · right
    have hnone := hleft.resolve_left hs
    have hc : configmapKeys s ns authority = [] := configmapKeys_of_none hnone
    have hkeys : certificateKeys s ns authority = secretKeys s ns authority := by
      rw [h.certificateKeys_eq, hc, List.append_nil]
    let v : Volume := { name := caName authority, secret := authority.secret }
    refine ⟨by rw [hkeys]; exact hs, v, ?_, rfl, ?_⟩
    · rw [if_neg hs, if_pos (.inr hc), List.append_nil]
    · have hvolume : certificateKeys s ns v = secretKeys s ns authority ++ [] ++ [] := rfl
      rw [hvolume, hkeys, List.append_nil, List.append_nil]

theorem crtKeys_nodup {α : Type} (data : Option (Dict String α)) : (crtKeys data).Nodup := by
  cases data with
  | none => exact List.nodup_nil
  | some data => exact data.toPairs_keys_nodup.filter _

theorem OneObject.keys_nodup {authority : Volume} (h : OneObject s ns authority) :
    (certificateKeys s ns authority).Nodup := by
  rw [h.certificateKeys_eq]
  rcases h.keys.1 with hempty | hnone
  · rw [hempty]
    exact crtKeys_nodup _
  · rw [configmapKeys_of_none hnone, List.append_nil]
    exact crtKeys_nodup _

end PodTemplate
end WadmOperator

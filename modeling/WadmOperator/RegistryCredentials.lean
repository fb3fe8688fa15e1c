import WadmOperator.HostWorkloads
import WadmOperator.PodEnvironment

/-!
# Workloads and their registry credentials

The credentials come from a Secret that others write. One entry in it leads to a workload
with these credentials and several to an error. None at all ends the task.
-/

namespace WadmOperator
namespace Reconcile

open Procedure PodTemplate

variable {lib : Libraries} {answers : Answers} {config : HostConfig} {s u : Context}
  {fails : KubeCall → Bool} {α : Type}

def IsPanic : ReconcileError → Prop
  | .panicked _ => True
  | _ => False

/-! ## Making the template does not panic -/

abbrev NoPanic (x : ReconcileM α) : Prop := FailsWith (fun e => ¬IsPanic e) x

theorem getObject_noPanic (kind : ObjectKind) (key : ObjectKey) :
    NoPanic (ReconcileM.getObject fails kind key) := by
  intro s e u h
  unfold ReconcileM.getObject at h
  split at h
  · cases (Prod.mk.inj h).1
  · obtain rfl := Except.error.inj (Prod.mk.inj h).1
    exact id

theorem secretItems_noPanic (ns : String) (authority : Volume) :
    NoPanic (secretItems fails ns authority) := by
  unfold secretItems
  split
  · exact .pure _
  · exact .throw id
  · exact .bind (.bind (getObject_noPanic _ _) fun _ => .pure _) fun _ => .pure _

theorem configmapItems_noPanic (ns : String) (authority : Volume) :
    NoPanic (configmapItems fails ns authority) := by
  unfold configmapItems
  split
  · exact .pure _
  · exact .throw id
  · exact .bind (.bind (getObject_noPanic _ _) fun _ => .pure _) fun _ => .pure _

theorem addConfigmap_noPanic (ns volumeName : String) (authority : Volume) (items : List String)
    (acc : Certificates) : NoPanic (addConfigmap fails ns volumeName authority items acc) := by
  refine .bind (configmapItems_noPanic ns authority) fun found => ?_
  split <;> exact .pure _

theorem addAuthority_noPanic (ns : String) (authority : Volume) (acc : Certificates) :
    NoPanic (addAuthority fails ns authority acc) := by
  simp only [addAuthority]
  split
  · exact .throw id
  · refine .bind (secretItems_noPanic ns authority) fun found => ?_
    split
    · exact addConfigmap_noPanic _ _ _ _ _
    · exact .pure _
    · exact addConfigmap_noPanic _ _ _ _ _

theorem addAuthorities_noPanic (ns : String) (authorities : List Volume) (acc : Certificates) :
    NoPanic (addAuthorities fails ns authorities acc) := by
  induction authorities generalizing acc with
  | nil => exact .pure _
  | cons authority authorities ih => exact .bind (addAuthority_noPanic ns authority acc) ih

theorem podTemplate_noPanic (config : HostConfig) : NoPanic (podTemplate lib fails config) :=
  .bind (addAuthorities_noPanic _ _ _) fun _ => .pure _

/-! ## What the Secret says -/

def credentialsVars (registry : String) (auth : DockerConfigJsonAuth) : List EnvVar :=
  [envVar "WASMCLOUD_OCI_REGISTRY_USER" auth.username,
    envVar "WASMCLOUD_OCI_REGISTRY_PASSWORD" auth.password,
    envVar "WASMCLOUD_OCI_REGISTRY" registry]

structure ReadsConfig (lib : Libraries) (answers : Answers) (config : HostConfig) (s : Context)
    (docker : DockerConfigJson) : Prop where
  secret : ∃ name secret, config.spec.registryCredentialsSecret = some name ∧
    ReconcileM.getObject answers.fails .secret (config.ns, name) s = (.ok secret, s) ∧
      dockerConfig lib secret = .ok docker

theorem ReadsConfig.unique {docker docker' : DockerConfigJson}
    (h : ReadsConfig lib answers config s docker) (h' : ReadsConfig lib answers config s docker') :
    docker = docker' := by
  obtain ⟨name, secret, hname, hread, hdocker⟩ := h.secret
  obtain ⟨name', secret', hname', hread', hdocker'⟩ := h'.secret
  obtain rfl := Option.some.inj (hname.symm.trans hname')
  obtain rfl := Except.ok.inj (Prod.mk.inj (hread.symm.trans hread')).1
  exact Except.ok.inj (hdocker.symm.trans hdocker')

theorem registryEnv_of_config {docker : DockerConfigJson} {name : String}
    (hname : config.spec.registryCredentialsSecret = some name)
    (h : ReadsConfig lib answers config s docker) :
    registryEnv lib answers config s = (registryVars name docker, s) := by
  obtain ⟨name', secret, hname', hread, hdocker⟩ := h.secret
  obtain rfl := Option.some.inj (hname.symm.trans hname')
  unfold registryEnv
  rw [hname]
  simp only
  rw [bind_of_ok hread, hdocker]
  exact (bind_of_ok (ofExcept_apply (.ok docker) s)).trans (ofExcept_apply _ _)

theorem registryEnv_of_no_config {name : String}
    (hname : config.spec.registryCredentialsSecret = some name)
    (h : ∀ docker, ¬ReadsConfig lib answers config s docker) :
    ∃ e, registryEnv lib answers config s = (.error e, s) ∧ ¬IsPanic e := by
  unfold registryEnv
  rw [hname]
  simp only
  rw [bind_eq]
  rcases hread : ReconcileM.getObject answers.fails .secret (config.ns, name) s with ⟨e | secret, t⟩
  · obtain rfl := (getObject_readOnly _ _).eq hread
    exact ⟨e, rfl, getObject_noPanic _ _ _ _ _ hread⟩
  · obtain rfl := (getObject_readOnly _ _).eq hread
    simp only
    cases hdocker : dockerConfig lib secret with
    | error e =>
      rw [bind_eq, ofExcept_apply]
      exact ⟨_, rfl, id⟩
    | ok docker => exact absurd ⟨name, secret, hname, hread, hdocker⟩ (h docker)

structure Credentialed (lib : Libraries) (answers : Answers) (config : HostConfig) (s : Context)
    (registry : String) (auth : DockerConfigJsonAuth) : Prop where
  entry : ∃ docker, ReadsConfig lib answers config s docker ∧
    docker.auths.toPairs = [(registry, auth)]
  template : ∃ base, podTemplate lib answers.fails config s = (.ok base, s)

def Accepts (answers : Answers) (config : HostConfig) : Prop :=
  answers.fails (.apply (workloadKind config.daemonset) config.key) = false

def EnvEndsWith (template : PodTemplateSpec) (vars : List EnvVar) : Prop :=
  ∃ spec, template.spec = some spec ∧ ∃ c ∈ spec.containers, c.name = "wasmcloud-host" ∧
    ∃ env, c.env = some (env ++ vars)

/-- A workload is applied with the credentials of the one registry, and in all other cases
there is an error and nothing is applied. -/
structure SoundCredentials (lib : Libraries) (answers : Answers) (config : HostConfig)
    (s : Context) (run : Except ReconcileError PodTemplateSpec × Context) : Prop where
  applied : ∀ registry auth, Credentialed lib answers config s registry auth →
    Accepts answers config → ∃ template, run = (.ok template, withWorkload lib config template s) ∧
      EnvEndsWith template (credentialsVars registry auth)
  refused : (¬∃ registry auth, Credentialed lib answers config s registry auth ∧
    Accepts answers config) → ∃ e, run = (.error e, s) ∧ ¬IsPanic e

def HasEntry (lib : Libraries) (answers : Answers) (config : HostConfig) (s : Context) : Prop :=
  ∀ docker, ReadsConfig lib answers config s docker → docker.auths.toPairs ≠ []

theorem applyWorkload_eq (lib : Libraries) (answers : Answers) (config : HostConfig)
    (template : PodTemplateSpec) (s : Context) :
    applyWorkload lib answers config template s =
      if answers.fails (.apply (workloadKind config.daemonset) config.key) then
        (.error (.kubeError (.apply (workloadKind config.daemonset) config.key)), s)
      else (.ok (), withWorkload lib config template s) := by
  unfold applyWorkload withWorkload workloadKind
  cases config.daemonset <;> rfl

theorem hostEnds_envEndsWith {vars : List EnvVar} {template : PodTemplateSpec}
    (h : HostEnds lib s config vars template) : EnvEndsWith template vars := by
  obtain ⟨spec, hspec, hcontainers⟩ := h
  refine ⟨spec, hspec, _, hcontainers ▸ List.mem_cons_of_mem _ List.mem_cons_self, ?_, _, rfl⟩
  exact withAdditions_name lib _ _

theorem configureHosts_of_vars {vars : List EnvVar}
    (hvars : registryEnv lib answers config s = (.ok vars, s)) :
    ((∃ base, podTemplate lib answers.fails config s = (.ok base, s)) ∧ Accepts answers config ∧
        ∃ template, configureHosts lib answers config s =
          (.ok template, withWorkload lib config template s) ∧ EnvEndsWith template vars) ∨
      ((∀ base, podTemplate lib answers.fails config s = (.ok base, s) →
          ¬Accepts answers config) ∧
        ∃ e, configureHosts lib answers config s = (.error e, s) ∧ ¬IsPanic e) := by
  unfold configureHosts
  rw [bind_of_ok hvars]
  rcases hpod : podTemplate lib answers.fails config s with ⟨e | base, t⟩
  · right
    obtain rfl := (podTemplate_readOnly config).eq hpod
    refine ⟨fun base hbase => ?_, e, ?_, podTemplate_noPanic config _ _ _ hpod⟩
    · cases (Prod.mk.inj hbase).1
    · rw [bind_eq, hpod]
  · obtain rfl := (podTemplate_readOnly config).eq hpod
    obtain ⟨template, happended, hends⟩ := appendEnv_podTemplate hpod vars
    rw [bind_of_ok hpod, happended, bind_of_ok (ofExcept_apply (.ok template) t)]
    cases haccepts : answers.fails (.apply (workloadKind config.daemonset) config.key) with
    | false =>
      left
      have happly : applyWorkload lib answers config template t =
          (.ok (), withWorkload lib config template t) := by
        rw [applyWorkload_eq, haccepts]
        rfl
      rw [bind_of_ok happly]
      exact ⟨⟨base, rfl⟩, haccepts, template, rfl, hostEnds_envEndsWith hends⟩
    | true =>
      right
      refine ⟨fun _ _ hnot => ?_,
        .kubeError (.apply (workloadKind config.daemonset) config.key), ?_, id⟩
      · rw [Accepts, haccepts] at hnot
        cases hnot
      · rw [bind_eq, applyWorkload_eq, haccepts]
        rfl

theorem configureHosts_of_error {e : ReconcileError}
    (h : registryEnv lib answers config s = (.error e, s)) :
    configureHosts lib answers config s = (.error e, s) := by
  rw [configureHosts, bind_eq, h]

theorem soundCredentials_of_error {e : ReconcileError}
    (h : registryEnv lib answers config s = (.error e, s)) (he : ¬IsPanic e)
    (hnone : ∀ registry auth, ¬Credentialed lib answers config s registry auth) :
    SoundCredentials lib answers config s (configureHosts lib answers config s) where
  applied registry auth hentry _ := absurd hentry (hnone registry auth)
  refused _ := ⟨e, configureHosts_of_error h, he⟩

theorem not_credentialed {docker : DockerConfigJson} (h : ReadsConfig lib answers config s docker)
    (hpairs : ∀ entry, docker.auths.toPairs ≠ [entry]) (registry : String)
    (auth : DockerConfigJsonAuth) : ¬Credentialed lib answers config s registry auth := by
  intro hentry
  obtain ⟨docker', hreads, hsingle⟩ := hentry.entry
  obtain rfl := h.unique hreads
  exact hpairs _ hsingle

theorem configureHosts_panics {docker : DockerConfigJson}
    (h : ReadsConfig lib answers config s docker) (hempty : docker.auths.toPairs = []) :
    ∃ msg, configureHosts lib answers config s = (.error (.panicked msg), s) := by
  obtain ⟨name, -, hname, -⟩ := h.secret
  have henv := registryEnv_of_config hname h
  rw [registryVars, hempty] at henv
  exact ⟨_, configureHosts_of_error henv⟩

theorem hasEntry_of_sound
    (h : SoundCredentials lib answers config s (configureHosts lib answers config s)) :
    HasEntry lib answers config s := by
  intro docker hreads hempty
  obtain ⟨msg, hpanics⟩ := configureHosts_panics hreads hempty
  obtain ⟨e, hrun, he⟩ := h.refused fun hall => by
    obtain ⟨registry, auth, hentry, -⟩ := hall
    exact not_credentialed hreads (fun entry => by rw [hempty]; simp) registry auth hentry
  rw [hpanics] at hrun
  obtain rfl := Except.error.inj (Prod.mk.inj hrun).1
  exact he trivial

theorem Credentialed.eq {docker : DockerConfigJson} {registry registry' : String}
    {auth auth' : DockerConfigJsonAuth} (hreads : ReadsConfig lib answers config s docker)
    (hsingle : docker.auths.toPairs = [(registry, auth)])
    (h : Credentialed lib answers config s registry' auth') :
    registry' = registry ∧ auth' = auth := by
  obtain ⟨docker', hreads', hsingle'⟩ := h.entry
  obtain rfl := hreads.unique hreads'
  have heq := List.singleton_inj.mp (hsingle'.symm.trans hsingle)
  exact Prod.mk.inj heq

theorem soundCredentials_of_entry {docker : DockerConfigJson} {registry : String}
    {auth : DockerConfigJsonAuth} (hreads : ReadsConfig lib answers config s docker)
    (hsingle : docker.auths.toPairs = [(registry, auth)])
    (henv : registryEnv lib answers config s = (.ok (credentialsVars registry auth), s)) :
    SoundCredentials lib answers config s (configureHosts lib answers config s) := by
  rcases configureHosts_of_vars henv with ⟨htemplate, haccepts, hrun⟩ | ⟨hnot, hrun⟩
  · constructor
    · intro registry' auth' h _
      obtain ⟨rfl, rfl⟩ := h.eq hreads hsingle
      exact hrun
    · intro hnone
      exact absurd ⟨registry, auth, ⟨⟨docker, hreads, hsingle⟩, htemplate⟩, haccepts⟩ hnone
  · constructor
    · intro registry' auth' h haccepts
      obtain ⟨base, hbase⟩ := h.template
      exact absurd haccepts (hnot base hbase)
    · intro _
      exact hrun

/-- Registry credentials lead to a workload or to an error, exactly when a Secret that
decodes has an entry. -/
theorem soundCredentials_iff (hset : config.spec.registryCredentialsSecret.isSome) :
    SoundCredentials lib answers config s (configureHosts lib answers config s) ↔
      HasEntry lib answers config s := by
  obtain ⟨name, hname⟩ := Option.isSome_iff_exists.mp hset
  refine ⟨hasEntry_of_sound, fun hhas => ?_⟩
  by_cases hreads : ∃ docker, ReadsConfig lib answers config s docker
  · obtain ⟨docker, hreads⟩ := hreads
    have henv := registryEnv_of_config hname hreads
    rw [registryVars] at henv
    split at henv
    · next hempty => exact absurd hempty (hhas docker hreads)
    · next registry auth hsingle => exact soundCredentials_of_entry hreads hsingle henv
    · next hmore hone =>
      refine soundCredentials_of_error henv id (not_credentialed hreads fun entry hsingle => ?_)
      exact hone _ _ hsingle
  · obtain ⟨e, henv, he⟩ := registryEnv_of_no_config hname fun docker h => hreads ⟨docker, h⟩
    refine soundCredentials_of_error henv he fun registry auth h => ?_
    obtain ⟨docker, hdocker, -⟩ := h.entry
    exact hreads ⟨docker, hdocker⟩

def noAuths : String := "\x7b\"auths\":\x7b\x7d\x7d"

def oneAuth : String :=
  "\x7b\"auths\":\x7b\"ghcr.io\":\x7b\"username\":\"u\",\"password\":\"p\",\"auth\":\"\"\x7d\x7d\x7d"

def decodingAuths : Libraries :=
  { Libraries.sample with
    dockerConfigJson := fun text =>
      if text = noAuths then .ok ⟨Dict.empty⟩
      else if text = oneAuth then .ok ⟨Dict.empty.put "ghcr.io" ⟨"u", "p", ""⟩⟩
      else .error "expected value" }

def pullingConfig : HostConfig where
  uid := "1"
  ns := "default"
  name := "host"
  spec := { HostConfigSpec.sample with registryCredentialsSecret := some "registry" }

def pullSecret (text : String) : Secret where
  data := some (Dict.empty.put ".dockerconfigjson" text.toUTF8)

def pullSecretStored (text : String) : Context :=
  ({} : Context).putObject .secret ("default", "registry") (pullSecret text)

theorem pullSecret_read {text : String} {docker : DockerConfigJson}
    (h : decodingAuths.dockerConfigJson text = .ok docker) :
    ReadsConfig decodingAuths {} pullingConfig (pullSecretStored text) docker := by
  refine ⟨"registry", pullSecret text, rfl, rfl, ?_⟩
  have hvalid : text.toUTF8.IsValidUTF8 := text.isValidUTF8
  have htext : String.fromUTF8? text.toUTF8 = some text := by
    rw [String.fromUTF8?, dif_pos hvalid]
    rfl
  simp only [dockerConfig, pullSecret, Dict.get?_put_self, htext]
  exact h

theorem soundCredentials_oneAuth :
    SoundCredentials decodingAuths {} pullingConfig (pullSecretStored oneAuth)
      (configureHosts decodingAuths {} pullingConfig (pullSecretStored oneAuth)) := by
  refine (soundCredentials_iff rfl).mpr fun docker hreads => ?_
  have hdecoded : decodingAuths.dockerConfigJson oneAuth =
      .ok ⟨Dict.empty.put "ghcr.io" ⟨"u", "p", ""⟩⟩ := rfl
  rw [hreads.unique (pullSecret_read hdecoded)]
  exact List.cons_ne_nil _ _

/-- A Secret without an entry is no error but a panic. -/
theorem empty_auths_panics :
    ¬SoundCredentials decodingAuths {} pullingConfig (pullSecretStored noAuths)
      (configureHosts decodingAuths {} pullingConfig (pullSecretStored noAuths)) := by
  intro h
  have hdecoded : decodingAuths.dockerConfigJson noAuths = .ok ⟨Dict.empty⟩ := rfl
  exact hasEntry_of_sound h _ (pullSecret_read hdecoded) rfl

end Reconcile
end WadmOperator

import WadmOperator.ReconcileSteps

/-!
# When a reconcile succeeds

No error and no panic: where neither the API server nor NATS fails and the Secret of the
spec is there, a config without registry credentials and certificates is reconciled.
-/

namespace WadmOperator
namespace Reconcile

open Procedure

variable {lib : Libraries} {answers : Answers} {config : HostConfig} {key : ObjectKey}
  {s : Context}

structure Answers.AllOk (answers : Answers) : Prop where
  fails : ∀ call, answers.fails call = false
  credentials : ∀ text, answers.nats.withCredentials text = .ok ()
  listConnected : answers.listConnected = .ok ()
  clientConnected : answers.clientConnected = .ok ()
  list : ∀ client latticeId, ∃ apps, answers.nats.listManifests client latticeId = .ok apps
  watch : answers.watchError = none

theorem Answers.AllOk.connectOptions (hok : Answers.AllOk answers) (creds : Option String) :
    answers.nats.connectOptions creds = .ok () := by
  cases creds with
  | none => rfl
  | some text => exact hok.credentials text

def SecretPresent (s : Context) (config : HostConfig) : Prop :=
  ∀ name, config.spec.secretName = some name → ∃ secret data,
    (s.objects .secret).get? (config.ns, name) = some secret ∧ secret.data = some data

theorem getObject_succeeds (hok : Answers.AllOk answers) {kind : ObjectKind} {x : Obj kind}
    (hx : (s.objects kind).get? key = some x) :
    ReconcileM.getObject answers.fails kind key s = (.ok x, s) := by
  simp [ReconcileM.getObject, hok.fails, hx]

theorem readSecrets_succeeds (hok : Answers.AllOk answers) (hsecret : SecretPresent s config) :
    Succeeds (readSecrets answers config) s := by
  unfold readSecrets
  split
  · exact .pure _ _
  · next name hname =>
    obtain ⟨secret, data, hget, hdata⟩ := hsecret name hname
    refine .bind ⟨_, _, getObject_succeeds hok hget⟩ fun found t hfound => ?_
    obtain ⟨-, hsecret⟩ := ReconcileM.getObject_ok hfound
    obtain rfl := Option.some.inj (hget.symm.trans hsecret)
    refine .bind (.ofExcept (by rw [fromK8sSecret, hdata]; rfl) _) fun secrets _ _ => ?_
    refine .bind ?_ fun _ _ _ => .pure _ _
    unfold storeSecrets
    split
    · exact ⟨_, _, rfl⟩
    · exact .pure _ _

theorem applyObject_succeeds (hok : Answers.AllOk answers) (kind : ObjectKind) (x : Obj kind)
    (s : Context) : Succeeds (ReconcileM.applyObject answers.fails lib.api kind key x) s := by
  simp [Succeeds, ReconcileM.applyObject, hok.fails]

theorem appendEnv_podSpec (lib : Libraries) (config : HostConfig) (vars : List EnvVar)
    (certificates : Certificates) (labels : Option Labels) (volumes : List Volume) :
    ∃ template spec, appendEnv vars
        { labels := labels
          spec := some (PodTemplate.podSpec config
            (PodTemplate.containers lib config certificates) volumes) } = .ok template ∧
      template.spec = some spec ∧ spec.containers =
        [PodTemplate.withAdditions lib (PodTemplate.natsAdditions config)
            (PodTemplate.natsContainer config),
          { PodTemplate.withAdditions lib (PodTemplate.wasmcloudAdditions config)
              (PodTemplate.wasmcloudContainer config certificates) with
            env := some (PodTemplate.hostEnv config ++ vars) }] := by
  simp only [appendEnv, PodTemplate.podSpec_containers, PodTemplate.containers_eq,
    PodTemplate.wasmcloudContainer_env]
  exact ⟨_, _, rfl, rfl, rfl⟩

theorem configureHosts_succeeds (hok : Answers.AllOk answers)
    (hregistry : config.spec.registryCredentialsSecret = none) (hauthorities : config.authorities = [])
    (s : Context) : Succeeds (configureHosts lib answers config) s := by
  refine .bind (by simp only [registryEnv, hregistry]; exact .pure _ _) fun envVars _ _ => ?_
  refine .bind ?_ fun template t htemplate => ?_
  · unfold PodTemplate.podTemplate
    rw [hauthorities]
    exact .bind (.pure _ _) fun _ _ _ => .pure _ _
  · obtain ⟨-, certificates, volumes, -, rfl⟩ := PodTemplate.podTemplate_ok htemplate
    obtain ⟨applied, -, happlied, -⟩ := appendEnv_podSpec lib config envVars certificates _ volumes
    refine .bind (.ofExcept happlied _) fun _ _ _ => .bind ?_ fun _ _ _ => .pure _ _
    unfold applyWorkload
    split <;> exact applyObject_succeeds hok _ _ _

theorem listApps_succeeds (hok : Answers.AllOk answers) (config : HostConfig)
    (creds : Option String) (s : Context) : Succeeds (listApps answers config creds) s := by
  obtain ⟨apps, happs⟩ := hok.list ⟨config.spec.natsAddress, config.spec.natsClientPort.toNat, creds⟩
    config.spec.lattice
  refine .ofExcept (a := apps) ?_ s
  rw [Nats.listApps, hok.connectOptions, hok.listConnected, happs]
  rfl

theorem getNatsClient_succeeds (hok : Answers.AllOk answers) (config : HostConfig) (s : Context) :
    Succeeds (getNatsClient answers config) s := by
  simp only [Succeeds, getNatsClient, Nats.getNatsClient, hok.connectOptions, hok.clientConnected]
  exact ⟨_, _, rfl⟩

theorem watch_succeeds (hok : Answers.AllOk answers) (config : HostConfig) (client : NatsClient)
    (s : Context) : Succeeds (watch answers config client) s := by
  rw [Succeeds, watch_eq, hok.watch, Option.isNone_none]
  exact ⟨_, _, by rw [if_pos (ServiceWatcher.watch_created client _ _ _)]⟩

/-- Where nothing fails, a config that needs no registry credentials and no certificates
is reconciled, once its Secret is there. -/
theorem reconcileCrd_succeeds (hok : Answers.AllOk answers) {stored : StoredConfig}
    (hstored : (s.objects .hostConfig).get? key = some stored)
    (hsecret : SecretPresent s (configOf key stored))
    (hregistry : stored.spec.registryCredentialsSecret = none)
    (hauthorities : (configOf key stored).authorities = []) :
    Succeeds (reconcileCrd lib answers key) s := by
  refine .bind ⟨_, _, getObject_succeeds hok hstored⟩ fun found t hfound => ?_
  obtain ⟨rfl, hfound⟩ := ReconcileM.getObject_ok hfound
  obtain rfl := Option.some.inj (hstored.symm.trans hfound)
  refine .bind (readSecrets_succeeds hok hsecret) fun secrets _ _ => ?_
  refine .bind (applyObject_succeeds hok _ _ _) fun _ _ _ => ?_
  refine .bind ?_ fun _ _ _ => ?_
  · exact .bind (applyObject_succeeds hok _ _ _) fun _ _ _ =>
      .bind (applyObject_succeeds hok _ _ _) fun _ _ _ => applyObject_succeeds hok _ _ _
  refine .bind (configureHosts_succeeds hok hregistry hauthorities _) fun _ _ _ => ?_
  refine .bind ⟨_, _, if_neg (by simp [hok.fails])⟩ fun _ _ _ => ?_
  refine .bind (listApps_succeeds hok _ _ _) fun apps _ _ => ?_
  refine .bind ⟨_, _, if_neg (by simp [hok.fails])⟩ fun _ _ _ => ?_
  refine .bind (getNatsClient_succeeds hok _ _) fun client _ _ => ?_
  refine .bind (watch_succeeds hok _ client _) fun _ _ _ => ?_
  exact .bind ⟨_, _, rfl⟩ fun _ _ _ => .pure _ _

theorem step_succeeds (hok : Answers.AllOk answers) {stored : StoredConfig}
    (hstored : (s.objects .hostConfig).get? key = some stored)
    (hsecret : SecretPresent s (configOf key stored))
    (hregistry : stored.spec.registryCredentialsSecret = none)
    (hauthorities : (configOf key stored).authorities = []) :
    ∃ u, step lib s (.reconcile key answers) = some u := by
  have hrun : Succeeds (reconcileCrd lib answers key) s :=
    reconcileCrd_succeeds hok hstored hsecret hregistry hauthorities
  obtain ⟨r, u, hr⟩ := hrun
  exact ⟨u, by simp [step, hr]⟩

theorem allOk_default : Answers.AllOk {} where
  fails _ := rfl
  credentials _ := rfl
  listConnected := rfl
  clientConnected := rfl
  list _ _ := ⟨[], rfl⟩
  watch := rfl

end Reconcile
end WadmOperator

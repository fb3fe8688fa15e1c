import WadmOperator.Retries

/-!
# What the parts of a reconcile leave alone

Frame rules for any part `g` of the context. The objects that a part applies are of a few
kinds, so what does not look at these is kept.
-/

namespace WadmOperator
namespace Reconcile

open Procedure

variable {τ : Type} {g : Context → τ} {lib : Libraries} {answers : Answers} {key : ObjectKey}
  {s : Context}

theorem applyObject_snd (fails : KubeCall → Bool) (api : HostApi) (kind : ObjectKind)
    (x : Obj kind) :
    (ReconcileM.applyObject fails api kind key x s).2 = s ∨
      (ReconcileM.applyObject fails api kind key x s).2 =
        s.putObject kind key (api.applyObject kind ((s.objects kind).get? key) x) := by
  unfold ReconcileM.applyObject
  split
  · exact .inl rfl
  · exact .inr rfl

theorem keeps_applyObject (fails : KubeCall → Bool) (api : HostApi) {kind : ObjectKind}
    (x : Obj kind) (hput : ∀ s y, g (s.putObject kind key y) = g s) :
    Keeps g (ReconcileM.applyObject fails api kind key x) := by
  intro s
  rcases applyObject_snd fails api kind x with h | h <;> rw [h]
  exact hput s _

theorem keeps_readSecrets (hcreds : ∀ (s : Context) natsCreds,
    g { s with natsCreds := natsCreds } = g s) (config : HostConfig) :
    Keeps g (readSecrets answers config) := by
  unfold readSecrets
  split
  · exact (ReadOnly.pure _).keeps
  · refine .bind (PodTemplate.getObject_readOnly _ _).keeps fun secret =>
      .bind (ReadOnly.ofExcept _).keeps fun secrets => .bind ?_ fun _ => (ReadOnly.pure _).keeps
    unfold storeSecrets
    split
    · exact fun s => hcreds s _
    · exact (ReadOnly.pure _).keeps

theorem keeps_configureHosts {config : HostConfig}
    (hdeployment : ∀ s y, g (s.putObject .deployment config.key y) = g s)
    (hdaemonSet : ∀ s y, g (s.putObject .daemonSet config.key y) = g s) :
    Keeps g (configureHosts lib answers config) := by
  refine .bind (registryEnv_readOnly config).keeps fun _ =>
    .bind (PodTemplate.podTemplate_readOnly config).keeps fun _ =>
      .bind (ReadOnly.ofExcept _).keeps fun template => .bind ?_ fun _ => (ReadOnly.pure _).keeps
  unfold applyWorkload
  split
  · exact keeps_applyObject _ _ _ hdaemonSet
  · exact keeps_applyObject _ _ _ hdeployment

theorem keeps_configureService (hservices : ∀ (s : Context) services,
    g { s with services := services } = g s) (config : HostConfig) :
    Keeps g (configureService lib answers config) := by
  intro s
  unfold configureService ReconcileM.applyService
  split
  · rfl
  · exact hservices s _

end Reconcile
end WadmOperator

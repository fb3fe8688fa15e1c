import WadmOperator.Commands.Effects
import WadmOperator.OperatorSteps

/-!
# Keys without a managed Service

Nothing but an upsert brings a managed Service back to a key, whichever calls fail; and
a removal that is carried out leaves none, but for one that others hold in deletion.
-/

namespace WadmOperator
namespace Commands

open Outcome

variable {api : ApiServer} {fails : ApiCall → Bool} {c : Cluster} {key : ObjectKey}

/-- In deletion, and kept by the finalizers of others alone. -/
def Leaving (svc : Service) : Prop :=
  svc.deletionTimestamp = true ∧ SERVICE_FINALIZER ∉ svc.finalizers ∧ svc.finalizers ≠ []

def Dormant (key : ObjectKey) (c : Cluster) : Prop :=
  ∀ svc, c.service key = some svc → svc.managed = true → Leaving svc

theorem leaving_of_afterWrite {svc left : Service} (h : Cluster.afterWrite svc = some left)
    (hdeleted : svc.deletionTimestamp = true) (hfinalizer : SERVICE_FINALIZER ∉ svc.finalizers) :
    Leaving left := by
  have heq := afterWrite_eq h
  subst heq
  refine ⟨hdeleted, hfinalizer, fun hnil => ?_⟩
  simp [Cluster.afterWrite, hdeleted, hnil] at h

theorem removed_leaving {svc left : Service} (h : removed api svc = some left) : Leaving left :=
  leaving_of_afterWrite h rfl (api.finalizer_dropped true (some svc) _ List.not_mem_nil)

theorem Dormant.congr {c' : Cluster} (h : Dormant key c) (hsame : c'.service key = c.service key) :
    Dormant key c' := by
  intro svc hsvc hmanaged
  rw [hsame] at hsvc
  exact h svc hsvc hmanaged

theorem stripFinalizers_managed {svc : Service} (h : (stripFinalizers api svc).managed = true) :
    svc.managed = true := by
  have hlabel := api.label_origin SERVICE_FINALIZER true (some svc) { svc with finalizers := [] }
    "app.kubernetes.io/managed-by" "wadm-operator" (of_decide_eq_true h)
  refine decide_eq_true ?_
  rcases hlabel with hown | ⟨old, hold, hv⟩
  · exact hown
  · obtain rfl := Option.some.inj hold
    exact hv

theorem Dormant.write {svc svc' : Service} (h : Dormant key c) (hsvc : c.service key = some svc)
    (hmanaged : svc'.managed = true → svc.managed = true)
    (hdeleted : svc.deletionTimestamp = true → svc'.deletionTimestamp = true)
    (hfinalizer : SERVICE_FINALIZER ∈ svc'.finalizers → SERVICE_FINALIZER ∈ svc.finalizers) :
    Dormant key (c.writeService key svc') := by
  intro left hleft hm
  rw [Cluster.service_writeService, if_pos rfl] at hleft
  have heq := afterWrite_eq hleft
  rw [heq] at hm
  have hold := h svc hsvc (hmanaged hm)
  exact leaving_of_afterWrite hleft (hdeleted hold.1) fun hin => hold.2.1 (hfinalizer hin)

theorem Dormant.strip {svc : Service} (h : Dormant key c) (hsvc : c.service key = some svc) :
    Dormant key (c.writeService key (stripFinalizers api svc)) := by
  refine h.write hsvc stripFinalizers_managed ?_ ?_
  · intro hdeleted
    rw [stripFinalizers, api.deletionTimestamp_kept]
    exact hdeleted
  · intro hin
    exact absurd hin (api.finalizer_dropped true (some svc) _ List.not_mem_nil)

theorem Dormant.deleteService (h : Dormant key c) (target : ObjectKey) :
    Dormant key (deleteService api fails target c).cluster := by
  by_cases hkey : key = target
  · subst hkey
    have hcases := deleteService_cases api fails key c
    generalize Commands.deleteService api fails key c = o at hcases
    cases hcases with
    | getFailed _ | absent _ _ | patchFailed _ _ => exact h
    | deleteFailed _ hsvc _ _ | gone _ hsvc _ _ => exact h.strip hsvc
    | @done svc _ hsvc _ hleft =>
      have hstripped : (c.writeService key (stripFinalizers api svc)).service key =
          some (stripFinalizers api svc) := by
        rw [Cluster.service_writeService, if_pos rfl, hleft]
      exact (h.strip hsvc).write hstripped id (fun _ => rfl) id
  · exact h.congr ((deleteService_sameOff api fails target c).service key hkey)

theorem Dormant.deleteEach (h : Dormant key c) (keys : List ObjectKey) :
    Dormant key (deleteEach api fails keys c).cluster := by
  induction keys generalizing c with
  | nil => exact h
  | cons first keys ih =>
    rw [Commands.deleteEach, cluster_andThen]
    split
    · exact ih (h.deleteService first)
    · exact h.deleteService first

theorem Dormant.deleteServices (h : Dormant key c) (ns : String) :
    Dormant key (deleteServices api fails ns c).cluster := by
  unfold Commands.deleteServices
  split
  · exact h
  · exact h.deleteEach _

theorem Dormant.forEach {f : String → Cluster → Outcome}
    (hf : ∀ ns c, Dormant key c → Dormant key (f ns c).cluster) (h : Dormant key c)
    (order : List String) : Dormant key (forEach f order c).cluster := by
  induction order generalizing c with
  | nil => exact h
  | cons ns rest ih => exact ih (hf ns c h)

theorem Dormant.runCommand {order : List String} {cmd : WatcherCommand} (h : Dormant key c)
    (hupsert : ∀ params, cmd = .upsertService params →
      ¬(key.1 ∈ order ∧ key.2 = params.name)) :
    Dormant key (runCommand api fails order cmd c).cluster := by
  cases cmd with
  | upsertService params =>
    exact h.congr ((createOrUpdateService_sameOff order c).service key (hupsert params rfl))
  | removeService name namespaces => exact h.forEach (fun ns c hc => hc.deleteService (ns, name)) order
  | removeServices namespaces => exact h.forEach (fun ns c hc => hc.deleteServices ns) order

theorem dormant_removeService {order : List String} {name ns : String}
    {namespaces : Finset String} (horder : order.Nodup) (hns : ns ∈ order)
    (h : (runCommand api fails order (.removeService name namespaces) c).NoFailure) :
    Dormant (ns, name) (runCommand api fails order (.removeService name namespaces) c).cluster := by
  intro left hleft _
  rw [(removeService_service horder h hns).1] at hleft
  obtain ⟨svc, -, hremoved⟩ := Option.bind_eq_some_iff.mp hleft
  exact removed_leaving hremoved

theorem Dormant.configureService (h : Dormant key c) (config : WasmCloudHostConfig) :
    Dormant key (c.configureService api config) := by
  rcases Cluster.configureService_cases api config c key with hsame | happlied
  · exact h.congr hsame
  intro left hleft hmanaged
  rw [happlied] at hleft
  have heq := afterWrite_eq hleft
  rw [heq] at hmanaged
  have hlabel := api.label_origin CLUSTER_CONFIG_FINALIZER false (c.service key)
    (Cluster.hostService config) "app.kubernetes.io/managed-by" "wadm-operator"
    (of_decide_eq_true hmanaged)
  rcases hlabel with hown | ⟨old, hold, hv⟩
  · have hnone := Cluster.hostService_managedBy config
    rw [Service.managedBy, hown] at hnone
    cases hnone
  · have hleaving := h old hold (decide_eq_true hv)
    refine leaving_of_afterWrite hleft ?_ fun hin => ?_
    · rw [api.deletionTimestamp_kept, hold]
      exact hleaving.1
    · rcases api.finalizer_origin _ _ _ _ _ hin with hown | ⟨old', hold', hf⟩
      · cases hown
      · obtain rfl := Option.some.inj (hold.symm.trans hold')
        exact hleaving.2.1 hf

end Commands
end WadmOperator

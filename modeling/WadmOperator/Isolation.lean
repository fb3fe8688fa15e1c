import WadmOperator.Commands.Effects
import WadmOperator.CommandQueue

/-!
# What removals do to the Services of others

A removal by name takes whatever Service has the name, and the removal for a cleaned
up config takes every managed Service of the namespace. Neither knows for which
lattice a Service was made. The conditions below say when this does no harm.
-/

namespace WadmOperator
namespace Operator

open Transition Commands

variable {api : ApiServer} {s u : Operator}

def ManagedOnly (api : ApiServer) (s : Operator) (l : Label) (_ : Operator) : Prop :=
  ∀ q order fails, s.Executes l q order fails →
    ∀ e ∈ (runCommand api fails order q.cmd s.cluster).effects, ∀ key svc,
      e.victim = some (key, svc) → svc.managed = true

/-- Where a `RemoveService` command finds a Service of its name, and can read and patch
it, the Service is the operator's own. -/
def NamesManaged (s : Operator) (l : Label) (_ : Operator) : Prop :=
  ∀ q order fails, s.Executes l q order fails →
    ∀ name namespaces, q.cmd = .removeService name namespaces → ∀ ns ∈ namespaces, ∀ svc,
      s.cluster.service (ns, name) = some svc → Reaches fails (ns, name) → svc.managed = true

theorem managedOnly_iff {l : Label} (hstep : step api s l = some u) :
    ManagedOnly api s l u ↔ NamesManaged s l u := by
  constructor
  · intro h q order fails hexec name namespaces hcmd ns hns svc hsvc hreach
    obtain ⟨horder, -⟩ := hexec.step_eq hstep
    rw [hcmd] at horder
    have hstrip : .stripped (ns, name) svc ∈ (runCommand api fails order q.cmd s.cluster).effects := by
      rw [hcmd]
      exact removeService_strips horder.1 ((horder.mem ns).mpr hns) hsvc hreach
    exact h q order fails hexec _ hstrip _ svc rfl
  · intro h q order fails hexec e he key svc hv
    obtain ⟨horder, -⟩ := hexec.step_eq hstep
    rcases runCommand_victim horder.1 he hv with
      hmanaged | ⟨name, namespaces, hcmd, hns, hname, hsvc, hreach⟩
    · exact hmanaged
    · obtain ⟨ns, name'⟩ := key
      subst hname
      have hmem := (horder.mem ns).mp hns
      rw [hcmd] at hmem
      exact h q order fails hexec _ namespaces hcmd ns hmem svc hsvc hreach

theorem run_managedOnly_iff (api : ApiServer) (s : Operator) (ls : List Label) :
    Along (step api) (ManagedOnly api) s ls ↔ Along (step api) NamesManaged s ls := by
  refine along_congr (I := fun _ => True) ?_ trivial
  intro s l u _ hstep
  exact ⟨managedOnly_iff hstep, trivial⟩

def userService : Service :=
  { uid := "uid-app"
    labels := Dict.empty
    finalizers := []
    ownerReferences := []
    deletionTimestamp := false
    selector := Dict.empty
    ports := [⟨some "http", 80, some "TCP"⟩] }

/-- An application is unpublished that never had a Service, and the user's Service of that
name is deleted. -/
theorem users_service_deleted :
    ¬∀ api c ls, Along (step api) (ManagedOnly api) (initial c) ls := by
  intro h
  let c : Cluster :=
    { services := Dict.empty.put ("default", "app") userService
      configs := [.sample "a" "lattice-a" none] }
  let labels : List Label :=
    idleReconcile ("default", "a") ++ deliver 0 0 (.manifestUnpublished "app")
  let last : Label := .exec ["default"] fun _ => false
  have hfact : (lastStep (step .basic) (initial c) labels last).map (fun p =>
      p.1.serviceWatcher.recv.any fun r =>
        (runCommand .basic (fun _ => false) ["default"] r.1.cmd p.1.cluster).effects.any fun e =>
          e.victim.any fun v => !v.2.managed) = some true := by decide +kernel
  obtain ⟨⟨u, v⟩, huv, hany⟩ := Option.map_eq_some_iff.mp hfact
  obtain ⟨⟨q, sw⟩, hrecv, hany⟩ := (Option.any_eq_true _ _).mp hany
  obtain ⟨e, he, hany⟩ := List.any_eq_true.mp hany
  obtain ⟨⟨key, svc⟩, hv, hunmanaged⟩ := (Option.any_eq_true _ _).mp hany
  have hmanaged := (h .basic c (labels ++ [last])).last huv q _ _ ⟨rfl, sw, hrecv⟩ e he key svc hv
  rw [hmanaged] at hunmanaged
  cases hunmanaged

/-- The Service was written for the lattice, which still has its application deployed. -/
def BelongsTo (s : Operator) (key : ObjectKey) (latticeId : String) : Prop :=
  latticeId ∈ (s.history.madeFor.get? key).getD ∅ ∧ (latticeId, key.2) ∈ s.deployed

def OthersKept (s : Operator) (l : Label) (u : Operator) : Prop :=
  ∀ q order fails, s.Executes l q order fails → q.cmd.isRemoval = true →
    ∀ key svc latticeId, latticeId ≠ q.origin.latticeId → s.cluster.service key = some svc →
      s.BelongsTo key latticeId → u.cluster.service key = some svc

/-- A removal that one lattice caused aims at no Service of another, or cannot read or
patch it. -/
def AimsAtOwn (s : Operator) (l : Label) (_ : Operator) : Prop :=
  ∀ q order fails, s.Executes l q order fails → q.cmd.isRemoval = true →
    ∀ key svc latticeId, latticeId ≠ q.origin.latticeId → s.cluster.service key = some svc →
      s.BelongsTo key latticeId → ¬(Targets key svc q.cmd ∧ Reaches fails key)

theorem othersKept_of_aimsAtOwn {l : Label} (hstep : step api s l = some u)
    (h : AimsAtOwn s l u) : OthersKept s l u := by
  intro q order fails hexec hremoval key svc latticeId hne hsvc hbelongs
  obtain ⟨horder, hcluster⟩ := hexec.step_eq hstep
  rw [hcluster]
  exact runCommand_untouched hremoval horder hsvc
    (h q order fails hexec hremoval key svc latticeId hne hsvc hbelongs)

theorem run_othersKept (api : ApiServer) {s : Operator} {ls : List Label}
    (h : Along (step api) AimsAtOwn s ls) : Along (step api) OthersKept s ls := by
  refine Along.of_guard (I := fun _ => True) ?_ trivial h
  intro s l u _ hstep hG
  exact ⟨othersKept_of_aimsAtOwn hstep hG, trivial⟩

def sharedNamespace : Cluster :=
  { configs := [.sample "a" "lattice-a" none, .sample "b" "lattice-b" none] }

def sharedRun : List Label :=
  .deploy "lattice-b" "app" :: idleReconcile ("default", "b") ++
    deliver 0 0 (.manifestPublished (Manifest.httpApp "app" "0.0.0.0:8080")) ++
    [.exec ["default"] fun _ => false] ++ idleReconcile ("default", "a")

def checkAims (s : Operator) : Label → Bool
  | .exec _ _ => s.serviceWatcher.recv.all fun r =>
    match r.1.cmd with
    | .upsertService _ => true
    | .removeService name _ => decide (∀ d ∈ s.deployed, d.2 ≠ name)
    | .removeServices _ => decide (s.deployed = ∅)
  | _ => true

theorem aimsAtOwn_of_check (s : Operator) (l : Label) (u : Operator) (h : checkAims s l = true) :
    AimsAtOwn s l u := by
  intro q order fails hexec _ key svc latticeId _ _ hbelongs htarget
  obtain ⟨rfl, sw, hrecv⟩ := hexec
  simp only [checkAims, hrecv, Option.all_some] at h
  cases hcmd : q.cmd with
  | upsertService params =>
    rw [hcmd] at htarget
    exact htarget.1
  | removeService name namespaces =>
    rw [hcmd] at htarget h
    exact of_decide_eq_true h _ hbelongs.2 htarget.1.2
  | removeServices namespaces =>
    rw [hcmd] at h
    have hempty := of_decide_eq_true h
    have hin := hbelongs.2
    rw [hempty] at hin
    cases hin

theorem run_othersKept_shared : Along (step .basic) OthersKept (initial sharedNamespace)
    (sharedRun ++ deliver 1 1 (.manifestUnpublished "other") ++
      [.exec ["default"] fun _ => false]) :=
  run_othersKept .basic (along_of_check (fun s l u h _ => aimsAtOwn_of_check s l u h)
    (by decide +kernel))

/-- The cleanup of the one lattice's config deletes the Service of the other's
application. -/
theorem others_service_deleted : ¬∀ api c ls, Along (step api) OthersKept (initial c) ls := by
  intro h
  let labels : List Label := sharedRun ++ [.cleanup ("default", "a")]
  let last : Label := .exec ["default"] fun _ => false
  have hfact : (lastStep (step .basic) (initial sharedNamespace) labels last).map (fun p =>
      (p.1.serviceWatcher.recv.any fun r =>
          r.1.cmd.isRemoval && decide ("lattice-b" ≠ r.1.origin.latticeId)) &&
        (p.1.cluster.service ("default", "app")).isSome &&
        decide ("lattice-b" ∈ (p.1.history.madeFor.get? ("default", "app")).getD ∅) &&
        decide (("lattice-b", "app") ∈ p.1.deployed) &&
        (p.2.cluster.service ("default", "app")).isNone) = some true := by decide +kernel
  obtain ⟨⟨u, v⟩, huv, hall⟩ := Option.map_eq_some_iff.mp hfact
  simp only [Bool.and_eq_true, decide_eq_true_eq] at hall
  obtain ⟨⟨⟨⟨hany, hsvc⟩, hmade⟩, hdeployed⟩, hgone⟩ := hall
  obtain ⟨⟨q, sw⟩, hrecv, hremoval⟩ := (Option.any_eq_true _ _).mp hany
  simp only [Bool.and_eq_true, decide_eq_true_eq] at hremoval
  obtain ⟨svc, hsvc⟩ := Option.isSome_iff_exists.mp hsvc
  have hkept := (h .basic sharedNamespace (labels ++ [last])).last huv q _ _ ⟨rfl, sw, hrecv⟩
    hremoval.1 ("default", "app") svc "lattice-b" hremoval.2 hsvc ⟨hmade, hdeployed⟩
  rw [hkept] at hgone
  cases hgone

end Operator
end WadmOperator

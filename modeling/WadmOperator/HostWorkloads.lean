import WadmOperator.Foundation.Transition
import WadmOperator.ReconcileSuccess

/-!
# The workloads of a host config

A reconcile applies a DaemonSet or a Deployment, as the spec asks for, and deletes
nothing. So the workloads that a config owns are those of all the kinds that its specs
ever asked for.
-/

namespace WadmOperator
namespace Reconcile

open Transition

def workloadKind (daemonset : Bool) : ObjectKind := if daemonset then .daemonSet else .deployment

theorem workloadKind_injective : Function.Injective workloadKind := by
  intro a b h
  cases a <;> cases b <;> first | rfl | cases h

def ownedWorkloads (s : Context) (uid : String) : Set (ObjectKind × ObjectKey) :=
  {p | (p.1 = .deployment ∨ p.1 = .daemonSet) ∧
    ∃ x, (s.objects p.1).get? p.2 = some x ∧ ∃ r ∈ owners p.1 x, r.uid = uid}

inductive OneConfig (key : ObjectKey) (uid : String) : Label → Prop where
  | reconcile (answers : Answers) : OneConfig key uid (.reconcile key answers)
  | spec (spec : HostConfigSpec) : OneConfig key uid (.edit .hostConfig key (some ⟨uid, spec⟩))
  | secret (k : ObjectKey) (x : Option Secret) : OneConfig key uid (.edit .secret k x)
  | configMap (k : ObjectKey) (x : Option ConfigMap) : OneConfig key uid (.edit .configMap k x)

def HasUid (key : ObjectKey) (uid : String) (s : Context) : Prop :=
  ∀ stored, (s.objects .hostConfig).get? key = some stored → stored.uid = uid

def daemonsetFlag (s : Context) : Label → Option Bool
  | .reconcile key _ =>
    ((s.objects .hostConfig).get? key).map fun stored => (configOf key stored).daemonset
  | _ => none

def reconciledFlags (lib : Libraries) (s : Context) : List Label → List Bool
  | [] => []
  | l :: ls =>
    match step lib s l with
    | some u => (daemonsetFlag s l).toList ++ reconciledFlags lib u ls
    | none => []

variable {lib : Libraries} {s u : Context} {key : ObjectKey} {uid : String} {l : Label}
  {ls : List Label}

theorem ownedWorkloads_congr {s t : Context} (h : ∀ kind, kind = .deployment ∨ kind = .daemonSet →
    s.objects kind = t.objects kind) (uid : String) : ownedWorkloads s uid = ownedWorkloads t uid := by
  ext p
  simp only [ownedWorkloads, Set.mem_ofPred_eq]
  refine and_congr_right fun hkind => ?_
  rw [h p.1 hkind]

theorem ownedWorkloads_edited {kind : ObjectKind}
    (hkind : kind ≠ .deployment ∧ kind ≠ .daemonSet) (x : Option (Obj kind)) :
    ownedWorkloads (edited s kind key x) uid = ownedWorkloads s uid := by
  apply ownedWorkloads_congr
  intro other hother
  apply edited_other
  rcases hother with rfl | rfl
  · exact hkind.1.symm
  · exact hkind.2.symm

theorem ownedWorkloads_put {kind : ObjectKind} {x : Obj kind}
    (hkind : kind = .deployment ∨ kind = .daemonSet) (hx : ∃ r ∈ owners kind x, r.uid = uid) :
    ownedWorkloads (s.putObject kind key x) uid = insert (kind, key) (ownedWorkloads s uid) := by
  ext ⟨kind', key'⟩
  simp only [ownedWorkloads, Set.mem_ofPred_eq, Set.mem_insert_iff, Prod.mk.injEq]
  by_cases hsame : kind' = kind
  · subst hsame
    rw [Context.putObject_get?]
    by_cases hkey : key' = key
    · simpa [hkey, hkind] using hx
    · simp [hkey]
  · rw [Context.putObject_other x hsame]
    simp [hsame]

theorem ownedWorkloads_withWorkload (lib : Libraries) (config : HostConfig)
    (template : PodTemplateSpec) (s : Context) :
    ownedWorkloads (withWorkload lib config template s) config.uid =
      insert (workloadKind config.daemonset, config.key) (ownedWorkloads s config.uid) := by
  unfold withWorkload workloadKind
  split
  · apply ownedWorkloads_put (.inr rfl)
    exact ⟨config.controllerOwnerRef, lib.api.owner_applied _ _ _ _ List.mem_cons_self, rfl⟩
  · apply ownedWorkloads_put (.inl rfl)
    exact ⟨config.controllerOwnerRef, lib.api.owner_applied _ _ _ _ List.mem_cons_self, rfl⟩

theorem owned_step (hl : OneConfig key uid l) (huid : HasUid key uid s)
    (hstep : step lib s l = some u) : HasUid key uid u ∧
      ∀ p, p ∈ ownedWorkloads u uid ↔ p ∈ ownedWorkloads s uid ∨
        ∃ flag ∈ (daemonsetFlag s l).toList, p = (workloadKind flag, key) := by
  cases hl with
  | reconcile answers =>
    obtain ⟨r, hr⟩ := step_reconcile hstep
    have hdone := reconcileCrd_ok hr
    obtain ⟨stored, hstored, hconfig⟩ := hdone.config
    refine ⟨?_, fun p => ?_⟩
    · intro stored' hstored'
      rw [hdone.inputs .hostConfig (.inl rfl)] at hstored'
      exact huid stored' hstored'
    · have hconfigUid : r.config.uid = uid := by
        rw [hconfig]
        exact huid stored hstored
      rw [ownedWorkloads_congr hdone.workloads, ← hconfigUid, ownedWorkloads_withWorkload]
      simp [daemonsetFlag, hstored, hconfig, configOf, HostConfig.key, or_comm]
  | spec spec =>
    obtain rfl := step_edit hstep
    refine ⟨?_, fun p => ?_⟩
    · intro stored hstored
      rw [edited, Context.putObject_get?, if_pos rfl] at hstored
      rw [← Option.some.inj hstored]
    · rw [ownedWorkloads_edited (by decide)]
      simp [daemonsetFlag]
  | secret k x | configMap k x =>
    obtain rfl := step_edit hstep
    refine ⟨?_, fun p => ?_⟩
    · intro stored hstored
      rw [edited_other (by decide)] at hstored
      exact huid stored hstored
    · rw [ownedWorkloads_edited (by decide)]
      simp [daemonsetFlag]

theorem owned_run (hrun : Run (step lib) s ls u) (hls : ∀ l ∈ ls, OneConfig key uid l)
    (huid : HasUid key uid s) (p : ObjectKind × ObjectKey) :
    p ∈ ownedWorkloads u uid ↔ p ∈ ownedWorkloads s uid ∨
      ∃ flag ∈ reconciledFlags lib s ls, p = (workloadKind flag, key) := by
  induction hrun with
  | nil => simp [reconciledFlags]
  | @cons s t u l ls hl _ ih =>
    obtain ⟨huid', howned⟩ := owned_step (hls l List.mem_cons_self) huid hl
    rw [ih (fun l' hl' => hls l' (List.mem_cons_of_mem _ hl')) huid', howned p]
    simp only [reconciledFlags, hl, List.mem_append, or_and_right, exists_or, or_assoc]

/-- After any run from a state in which the config owns no workload, it owns just the one
that the last reconciled spec asks for exactly when all reconciled specs ask for the same
kind. -/
theorem run_hostWorkloads_iff (hrun : Run (step lib) s ls u) (hls : ∀ l ∈ ls, OneConfig key uid l)
    (huid : HasUid key uid s) (hnew : ownedWorkloads s uid = ∅) {last : Bool}
    (hlast : (reconciledFlags lib s ls).getLast? = some last) :
    ownedWorkloads u uid = {(workloadKind last, key)} ↔
      ∀ flag ∈ reconciledFlags lib s ls, flag = last := by
  have howned := owned_run hrun hls huid
  simp only [hnew, Set.mem_empty_iff_false, false_or] at howned
  constructor
  · intro hjust flag hflag
    have hin : (workloadKind flag, key) ∈ ownedWorkloads u uid := (howned _).mpr ⟨flag, hflag, rfl⟩
    rw [hjust] at hin
    exact workloadKind_injective (Prod.mk.inj hin).1
  · intro hall
    ext p
    rw [howned p, Set.mem_singleton_iff]
    constructor
    · intro hp
      obtain ⟨flag, hflag, rfl⟩ := hp
      rw [hall flag hflag]
    · intro hp
      exact ⟨last, List.mem_of_getLast? hlast, hp⟩

def hostSpec (daemonset : Bool) : HostConfigSpec :=
  { HostConfigSpec.sample with schedulingOptions := some { daemonset := daemonset } }

def sampleKey : ObjectKey := ("default", "host")

def oneConfig (daemonset : Bool) : Context :=
  ({} : Context).putObject .hostConfig sampleKey ⟨"uid-host", hostSpec daemonset⟩

def flagSwitched (last : Bool) : List Label :=
  [.reconcile sampleKey {}, .edit .hostConfig sampleKey (some ⟨"uid-host", hostSpec last⟩),
    .reconcile sampleKey {}]

theorem oneConfig_hasUid (daemonset : Bool) : HasUid sampleKey "uid-host" (oneConfig daemonset) := by
  intro stored hstored
  rw [← Option.some.inj hstored]

theorem oneConfig_owns (daemonset : Bool) : ownedWorkloads (oneConfig daemonset) "uid-host" = ∅ := by
  rw [ownedWorkloads_congr (t := {}) ?_]
  · ext p
    simp [ownedWorkloads]
  · intro kind hkind
    rcases hkind with rfl | rfl <;> rfl

theorem flagSwitched_oneConfig (last : Bool) :
    ∀ l ∈ flagSwitched last, OneConfig sampleKey "uid-host" l := by
  intro l hl
  simp only [flagSwitched, List.mem_cons, List.not_mem_nil, or_false] at hl
  rcases hl with rfl | rfl | rfl
  · exact .reconcile _
  · exact .spec _
  · exact .reconcile _

theorem flagSwitched_run (first last : Bool) :
    ∃ u, Run (step .sample) (oneConfig first) (flagSwitched last) u ∧
      reconciledFlags .sample (oneConfig first) (flagSwitched last) = [first, last] := by
  have hstep : ∀ s flag, (s.objects .hostConfig).get? sampleKey = some ⟨"uid-host", hostSpec flag⟩ →
      ∃ u, step .sample s (.reconcile sampleKey {}) = some u := by
    intro s flag hstored
    refine step_succeeds allOk_default hstored ?_ rfl rfl
    intro name hname
    cases hname
  obtain ⟨u₁, h₁⟩ := hstep (oneConfig first) first rfl
  let edit := Label.edit .hostConfig sampleKey (some (⟨"uid-host", hostSpec last⟩ : StoredConfig))
  obtain ⟨u₂, h₂⟩ : ∃ u₂, step .sample u₁ edit = some u₂ := ⟨_, rfl⟩
  have hedited : (u₂.objects .hostConfig).get? sampleKey = some ⟨"uid-host", hostSpec last⟩ := by
    rw [step_edit h₂, edited, Context.putObject_get?, if_pos rfl]
  obtain ⟨u₃, h₃⟩ := hstep u₂ last hedited
  refine ⟨u₃, .cons h₁ (.cons h₂ (.cons h₃ (.nil _))), ?_⟩
  have hlast : daemonsetFlag u₂ (.reconcile sampleKey {}) = some last := by
    simp only [daemonsetFlag, hedited]
    rfl
  simp only [flagSwitched, reconciledFlags, h₁, edit, h₂, h₃, hlast]
  rfl

theorem run_hostWorkloads_deployment :
    ∃ u, Run (step .sample) (oneConfig false) (flagSwitched false) u ∧
      ownedWorkloads u "uid-host" = {(workloadKind false, sampleKey)} := by
  obtain ⟨u, hrun, hflags⟩ := flagSwitched_run false false
  refine ⟨u, hrun, (run_hostWorkloads_iff hrun (flagSwitched_oneConfig false)
    (oneConfig_hasUid false) (oneConfig_owns false) (by rw [hflags]; rfl)).mpr ?_⟩
  rw [hflags]
  decide

/-- The DaemonSet of the first spec stays beside the Deployment of the second. -/
theorem daemonset_left_behind :
    ¬∀ lib s u ls key uid last, Run (step lib) s ls u → (∀ l ∈ ls, OneConfig key uid l) →
      HasUid key uid s → ownedWorkloads s uid = ∅ →
      (reconciledFlags lib s ls).getLast? = some last →
      ownedWorkloads u uid = {(workloadKind last, key)} := by
  intro h
  obtain ⟨u, hrun, hflags⟩ := flagSwitched_run true false
  have hjust := h .sample _ u _ sampleKey "uid-host" false hrun (flagSwitched_oneConfig false)
    (oneConfig_hasUid true) (oneConfig_owns true) (by rw [hflags]; rfl)
  have hin := (owned_run hrun (flagSwitched_oneConfig false) (oneConfig_hasUid true)
    (.daemonSet, sampleKey)).mpr (.inr ⟨true, by rw [hflags]; decide, rfl⟩)
  rw [hjust] at hin
  cases hin

end Reconcile
end WadmOperator

import WadmOperator.RegisteredNamespaces

/-!
# Reconciles, cleanups and the registered namespaces

Successful runs of `reconcile_crd` and `cleanup`, as far as they touch the service
watcher. `reconciled` records the lattice of every config's most recently reconciled
spec, up to its cleanup; the program keeps no such count, only a set of namespaces
for each lattice.
-/

namespace WadmOperator

structure Controller where
  serviceWatcher : ServiceWatcher := {}
  reconciled : Dict ObjectKey String := Dict.empty

namespace Controller

open Transition

def reconcileApps (latticeId : String) :
    List (ModelSummary × Option Manifest) → ServiceWatcher → ServiceWatcher
  | [], s => s
  | (app, manifest) :: apps, s =>
    reconcileApps latticeId apps (s.reconcileApp latticeId app manifest)

/-- The end of `reconcile_crd`: the watch and then the pass. -/
def reconcileCrd (client : NatsClient) (ns latticeId : String)
    (apps : List (ModelSummary × Option Manifest)) (s : ServiceWatcher) : ServiceWatcher × Bool :=
  let (s', ok) := s.watch client ns latticeId true
  if ok then (reconcileApps latticeId apps s', true) else (s', false)

/-- `cleanup` knows the spec that the config has when it is deleted. -/
def cleanup (ns latticeId : String) (s : ServiceWatcher) : ServiceWatcher × Bool :=
  s.stopWatch latticeId ns

inductive Label where
  | reconcile (config : ObjectKey) (client : NatsClient) (latticeId : String)
      (apps : List (ModelSummary × Option Manifest))
  | cleanup (config : ObjectKey) (latticeId : String)

def step (c : Controller) : Label → Option Controller
  | .reconcile config client latticeId apps =>
    match reconcileCrd client config.1 latticeId apps c.serviceWatcher with
    | (s, true) => some ⟨s, c.reconciled.put config latticeId⟩
    | (_, false) => none
  | .cleanup config latticeId =>
    match cleanup config.1 latticeId c.serviceWatcher with
    | (s, true) => some ⟨s, c.reconciled.remove config⟩
    | (_, false) => none

def Uses (c : Controller) (ns latticeId : String) : Prop :=
  ∃ name, c.reconciled.get? (ns, name) = some latticeId

def OtherUses (c : Controller) (config : ObjectKey) (latticeId : String) : Prop :=
  ∃ name ≠ config.2, c.reconciled.get? (config.1, name) = some latticeId

def Registered (c : Controller) : Prop :=
  ∀ ns latticeId, ns ∈ c.serviceWatcher.registered latticeId ↔ c.Uses ns latticeId

/-- A config moves to another lattice only while another config of its namespace stays
on the old one, and is cleaned up only when no other config of its namespace shares
its lattice. -/
def SoleUser (c : Controller) (l : Label) (_ : Controller) : Prop :=
  match l with
  | .reconcile config _ latticeId _ => ∀ old, c.reconciled.get? config = some old →
      old ≠ latticeId → c.OtherUses config old
  | .cleanup config latticeId => ¬c.OtherUses config latticeId ∧
      ∀ old, c.reconciled.get? config = some old → old ≠ latticeId → c.OtherUses config old

variable {c u : Controller} {config : ObjectKey} {latticeId : String}

theorem reconcileApps_watchers (latticeId : String) (apps : List (ModelSummary × Option Manifest))
    (s : ServiceWatcher) : (reconcileApps latticeId apps s).watchers = s.watchers := by
  induction apps generalizing s with
  | nil => rfl
  | cons app apps ih =>
    obtain ⟨app, manifest⟩ := app
    rw [reconcileApps, ih]
    exact (ServiceWatcher.reconcileApp_frame s latticeId app manifest).1

theorem reconcileCrd_watchers {client : NatsClient} {ns : String}
    {apps : List (ModelSummary × Option Manifest)} {s s' : ServiceWatcher}
    (h : reconcileCrd client ns latticeId apps s = (s', true)) :
    s'.watchers = (s.watch client ns latticeId true).1.watchers := by
  simp only [reconcileCrd] at h
  split at h
  · obtain ⟨rfl, -⟩ := Prod.mk.inj h
    exact reconcileApps_watchers latticeId apps _
  · cases (Prod.mk.inj h).2

theorem step_reconcile {client : NatsClient} {apps : List (ModelSummary × Option Manifest)}
    (h : step c (.reconcile config client latticeId apps) = some u) :
    u.reconciled = c.reconciled.put config latticeId ∧
      ∀ k, u.serviceWatcher.registered k =
        if k = latticeId then insert config.1 (c.serviceWatcher.registered latticeId)
        else c.serviceWatcher.registered k := by
  simp only [step] at h
  split at h
  · next s hs =>
    obtain rfl := Option.some.inj h
    refine ⟨rfl, fun k => ?_⟩
    rw [ServiceWatcher.registered_congr (reconcileCrd_watchers hs), ServiceWatcher.registered_watch]
  · cases h

theorem step_cleanup (h : step c (.cleanup config latticeId) = some u) :
    u.reconciled = c.reconciled.remove config ∧
      ∀ k, u.serviceWatcher.registered k =
        if k = latticeId then (c.serviceWatcher.registered latticeId).erase config.1
        else c.serviceWatcher.registered k := by
  simp only [step] at h
  split at h
  · next s hs =>
    obtain rfl := Option.some.inj h
    refine ⟨rfl, fun k => ?_⟩
    have hs' : s = (c.serviceWatcher.stopWatch latticeId config.1).1 := by
      rw [← cleanup, hs]
    rw [hs', ServiceWatcher.registered_stopWatch]
  · cases h

theorem uses_put (hu : u.reconciled = c.reconciled.put config latticeId) (ns k : String) :
    u.Uses ns k ↔ (ns = config.1 ∧ (k = latticeId ∨ c.OtherUses config k)) ∨
      (ns ≠ config.1 ∧ c.Uses ns k) := by
  obtain ⟨ns', name'⟩ := config
  simp only [Uses, OtherUses, hu, Dict.get?_put, Prod.mk.injEq]
  by_cases hns : ns = ns'
  · subst hns
    simp only [true_and, ne_eq, not_true_eq_false, false_and, or_false]
    constructor
    · intro hall
      obtain ⟨name, h⟩ := hall
      by_cases hname : name = name'
      · rw [if_pos hname] at h
        exact .inl (Option.some.inj h).symm
      · rw [if_neg hname] at h
        exact .inr ⟨name, hname, h⟩
    · intro hall
      rcases hall with rfl | ⟨name, hname, h⟩
      · exact ⟨name', by simp⟩
      · exact ⟨name, by rw [if_neg hname]; exact h⟩
  · simp [hns]

theorem uses_remove (hu : u.reconciled = c.reconciled.remove config) (ns k : String) :
    u.Uses ns k ↔ (ns = config.1 ∧ c.OtherUses config k) ∨ (ns ≠ config.1 ∧ c.Uses ns k) := by
  obtain ⟨ns', name'⟩ := config
  simp only [Uses, OtherUses, hu, Dict.get?_remove, Prod.mk.injEq]
  by_cases hns : ns = ns'
  · subst hns
    simp only [true_and, ne_eq, not_true_eq_false, false_and, or_false]
    refine exists_congr fun name => ?_
    by_cases hname : name = name' <;> simp [hname]
  · simp [hns]

theorem uses_iff (c : Controller) (config : ObjectKey) (k : String) :
    c.Uses config.1 k ↔ c.reconciled.get? config = some k ∨ c.OtherUses config k := by
  obtain ⟨ns, name⟩ := config
  constructor
  · intro hall
    obtain ⟨name', h⟩ := hall
    by_cases hname : name' = name
    · exact .inl (hname ▸ h)
    · exact .inr ⟨name', hname, h⟩
  · intro hall
    rcases hall with h | ⟨name', -, h⟩
    · exact ⟨name, h⟩
    · exact ⟨name', h⟩

theorem registered_iff {l : Label} (hc : c.Registered) (hstep : step c l = some u) :
    u.Registered ↔ SoleUser c l u := by
  cases l with
  | reconcile config client latticeId apps =>
    obtain ⟨hrec, hreg⟩ := step_reconcile hstep
    constructor
    · intro hu old hold hne
      have hin : config.1 ∈ u.serviceWatcher.registered old := by
        rw [hreg, if_neg hne]
        exact (hc _ _).mpr ((uses_iff c config old).mpr (.inl hold))
      rcases (uses_put hrec _ _).mp ((hu _ _).mp hin) with ⟨-, heq | hother⟩ | ⟨hns, -⟩
      · exact absurd heq hne
      · exact hother
      · exact absurd rfl hns
    · intro hsole ns k
      rw [uses_put hrec, hreg]
      by_cases hk : k = latticeId
      · subst hk
        by_cases hns : ns = config.1 <;> simp [hns, hc ns k]
      · by_cases hns : ns = config.1
        · subst hns
          rw [if_neg hk, hc, uses_iff c config k]
          simp only [hk, true_and, false_or, ne_eq, not_true_eq_false, false_and, or_false]
          exact ⟨fun h => h.elim (fun hold => hsole k hold hk) id, .inr⟩
        · simp [hk, hns, hc ns k]
  | cleanup config latticeId =>
    obtain ⟨hrec, hreg⟩ := step_cleanup hstep
    constructor
    · intro hu
      have hiff : ∀ k, config.1 ∈ u.serviceWatcher.registered k ↔ c.OtherUses config k := by
        intro k
        rw [hu, uses_remove hrec]
        simp
      constructor
      · rw [← hiff, hreg, if_pos rfl]
        exact Finset.notMem_erase _ _
      · intro old hold hne
        rw [← hiff, hreg, if_neg hne]
        exact (hc _ _).mpr ((uses_iff c config old).mpr (.inl hold))
    · intro hall ns k
      obtain ⟨hnone, hsole⟩ := hall
      rw [uses_remove hrec, hreg]
      by_cases hns : ns = config.1
      · subst hns
        by_cases hk : k = latticeId
        · subst hk
          simp [hnone]
        · rw [if_neg hk, hc, uses_iff c config k]
          simp only [true_and, ne_eq, not_true_eq_false, false_and, or_false]
          exact ⟨fun h => h.elim (fun hold => hsole k hold hk) id, .inr⟩
      · by_cases hk : k = latticeId
        · subst hk
          simp [hns, hc ns k]
        · simp [hns, hk, hc ns k]

/-- Over all sequences of reconciles and cleanups: the registered namespaces match the
configs after every step exactly when no step moves or removes the sole user of a
lattice wrongly. -/
theorem run_registered_iff (ls : List Label) :
    Along step (fun _ _ u => u.Registered) {} ls ↔ Along step SoleUser {} ls := by
  refine along_exact (I := fun _ => True) (J := Registered) ?_ trivial ?_
  · intro c l u _ hc hstep
    exact ⟨registered_iff hc hstep, id, trivial⟩
  · intro ns latticeId
    simp [ServiceWatcher.registered, Uses]

/-- Two configs of one namespace share a lattice, and one of them is cleaned up. -/
theorem shared_lattice_unregistered :
    ¬∀ ls, Along step (fun _ _ u => u.Registered) {} ls := by
  intro h
  obtain ⟨-, h₁⟩ := h [.reconcile ("default", "a") .sample "lattice" [],
    .reconcile ("default", "b") .sample "lattice" [], .cleanup ("default", "a") "lattice"] _ rfl
  obtain ⟨-, h₂⟩ := h₁ _ rfl
  obtain ⟨hreg, -⟩ := h₂ _ rfl
  have hin := (hreg "default" "lattice").mpr ⟨"b", rfl⟩
  exact absurd hin (by decide)

end Controller
end WadmOperator

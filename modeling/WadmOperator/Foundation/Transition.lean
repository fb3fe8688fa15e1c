import Mathlib.Logic.Basic

/-!
# Finite runs of a partial labelled step

A system is given by `step : σ → ι → Option σ`: the label carries every choice
the environment makes, so a run is determined by its start and its labels.
`Along` says that each step of a run satisfies a predicate on the state before,
the label and the state after. The rules below move facts about one step to
facts about whole runs, also when a step keeps the invariant only under a guard.
-/

namespace Transition

variable {σ ι : Type*} {step : σ → ι → Option σ}

inductive Run (step : σ → ι → Option σ) : σ → List ι → σ → Prop where
  | nil (s : σ) : Run step s [] s
  | cons {s u t : σ} {l : ι} {ls : List ι} :
      step s l = some u → Run step u ls t → Run step s (l :: ls) t

def exec (step : σ → ι → Option σ) : σ → List ι → Option σ
  | s, [] => some s
  | s, l :: ls => (step s l).bind fun u => exec step u ls

theorem run_of_exec {s t : σ} {ls : List ι} (h : exec step s ls = some t) : Run step s ls t := by
  induction ls generalizing s with
  | nil =>
    obtain rfl : s = t := Option.some.inj h
    exact .nil s
  | cons l ls ih =>
    obtain ⟨u, hu, ht⟩ := Option.bind_eq_some_iff.mp h
    exact .cons hu (ih ht)

def lastStep (step : σ → ι → Option σ) (s : σ) (ls : List ι) (l : ι) : Option (σ × σ) :=
  (exec step s ls).bind fun u => (step u l).map fun v => (u, v)

theorem lastStep_eq {s u v : σ} {ls : List ι} {l : ι} (h : lastStep step s ls l = some (u, v)) :
    Run step s ls u ∧ step u l = some v := by
  obtain ⟨u', hu, hv⟩ := Option.bind_eq_some_iff.mp h
  obtain ⟨v', hv', heq⟩ := Option.map_eq_some_iff.mp hv
  obtain ⟨rfl, rfl⟩ := Prod.mk.inj heq
  exact ⟨run_of_exec hu, hv'⟩

def Along (step : σ → ι → Option σ) (P : σ → ι → σ → Prop) : σ → List ι → Prop
  | _, [] => True
  | s, l :: ls => ∀ u, step s l = some u → P s l u ∧ Along step P u ls

variable {P Q G : σ → ι → σ → Prop} {I J : σ → Prop}

def checkAlong (step : σ → ι → Option σ) (check : σ → ι → Bool) : σ → List ι → Bool
  | _, [] => true
  | s, l :: ls => check s l && (step s l).all fun u => checkAlong step check u ls

theorem along_of_check {check : σ → ι → Bool}
    (hcheck : ∀ s l u, check s l = true → step s l = some u → P s l u) {s : σ} {ls : List ι}
    (h : checkAlong step check s ls = true) : Along step P s ls := by
  induction ls generalizing s with
  | nil => trivial
  | cons l ls ih =>
    intro u hu
    obtain ⟨hl, hrest⟩ := Bool.and_eq_true_iff.mp h
    rw [hu] at hrest
    exact ⟨hcheck s l u hl hu, ih hrest⟩

theorem along_labels {ls : List ι} (h : ∀ l ∈ ls, ∀ s u, P s l u) (s : σ) : Along step P s ls := by
  induction ls generalizing s with
  | nil => trivial
  | cons l ls ih =>
    intro u _
    exact ⟨h l List.mem_cons_self s u, ih (fun l' hl => h l' (List.mem_cons_of_mem _ hl)) u⟩

theorem Along.last {s u v : σ} {ls : List ι} {l : ι} (h : Along step P s (ls ++ [l]))
    (hlast : lastStep step s ls l = some (u, v)) : P u l v := by
  obtain ⟨hr, hl⟩ := lastStep_eq hlast
  clear hlast
  induction hr with
  | nil => exact (h v hl).1
  | cons hs _ ih => exact ih (h _ hs).2 hl

theorem Run.invariant (hstep : ∀ s l u, I s → step s l = some u → I u)
    {s t : σ} {ls : List ι} (hr : Run step s ls t) (hs : I s) : I t := by
  induction hr with
  | nil => exact hs
  | cons hl _ ih => exact ih (hstep _ _ _ hs hl)

/-- From steps to runs: the guard keeps the invariant, and under the invariant it
gives the property of the step. -/
theorem Along.of_guard (hstep : ∀ s l u, I s → step s l = some u → G s l u → P s l u ∧ I u)
    {s : σ} {ls : List ι} (hs : I s) (hg : Along step G s ls) : Along step P s ls := by
  induction ls generalizing s with
  | nil => trivial
  | cons l ls ih =>
    intro u hu
    obtain ⟨hG, hrest⟩ := hg u hu
    obtain ⟨hP, hI⟩ := hstep s l u hs hu hG
    exact ⟨hP, ih hI hrest⟩

theorem along_congr_labels {A : ι → Prop}
    (hstep : ∀ s l u, I s → A l → step s l = some u → (P s l u ↔ Q s l u) ∧ I u)
    {s : σ} {ls : List ι} (hs : I s) (hls : ∀ l ∈ ls, A l) : Along step P s ls ↔ Along step Q s ls := by
  induction ls generalizing s with
  | nil => exact Iff.rfl
  | cons l ls ih =>
    refine forall_congr' fun u => forall_congr' fun hu => ?_
    obtain ⟨hPQ, hI⟩ := hstep s l u hs (hls l List.mem_cons_self) hu
    exact and_congr hPQ (ih hI fun l' hl => hls l' (List.mem_cons_of_mem _ hl))

theorem along_congr (hstep : ∀ s l u, I s → step s l = some u → (P s l u ↔ Q s l u) ∧ I u)
    {s : σ} {ls : List ι} (hs : I s) : Along step P s ls ↔ Along step Q s ls :=
  along_congr_labels (A := fun _ => True) (fun s l u hI _ hu => hstep s l u hI hu) hs
    fun _ _ => trivial

/-- The guard is exact: where one step that starts in `J` has the property `P` just
when it meets `G`, and `P` keeps `J`, a run has `P` throughout just when all its steps
meet `G`. -/
theorem along_exact
    (hstep : ∀ s l u, I s → J s → step s l = some u →
      (P s l u ↔ G s l u) ∧ (P s l u → J u) ∧ I u)
    {s : σ} {ls : List ι} (hs : I s) (hJ : J s) : Along step P s ls ↔ Along step G s ls := by
  induction ls generalizing s with
  | nil => exact Iff.rfl
  | cons l ls ih =>
    refine forall_congr' fun u => forall_congr' fun hu => ?_
    obtain ⟨hiff, hkeep, hI⟩ := hstep s l u hs hJ hu
    constructor
    · intro h
      exact ⟨hiff.mp h.1, (ih hI (hkeep h.1)).mp h.2⟩
    · intro h
      have hP := hiff.mpr h.1
      exact ⟨hP, (ih hI (hkeep hP)).mpr h.2⟩

end Transition

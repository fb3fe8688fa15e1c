import WadmOperator.Foundation.Transition

/-!
# Simulation between two systems

A step of the first system is a whole run of the second one, between related states.
Then so is each run, and what holds in every state that the second system reaches holds,
through the relation, in every state that the first one reaches.
-/

namespace Transition

variable {σ τ υ ι κ μ : Type*} {step : σ → ι → Option σ} {step' : τ → κ → Option τ}
  {step'' : υ → μ → Option υ} {R : σ → τ → Prop} {R' : τ → υ → Prop} {A : ι → Prop}
  {B : κ → Prop} {C : μ → Prop} {s u : σ} {t : τ} {ls : List ι}

theorem Run.single {l : ι} (h : step s l = some u) : Run step s [l] u := .cons h (.nil u)

theorem Run.append {v : σ} {ms : List ι} (h : Run step s ls u) (h' : Run step u ms v) :
    Run step s (ls ++ ms) v := by
  induction h with
  | nil => exact h'
  | cons hl _ ih => exact .cons hl (ih h')

def CatchesUp (step' : τ → κ → Option τ) (R : σ → τ → Prop) (B : κ → Prop) (t : τ) (u : σ) : Prop :=
  ∃ ms v, Run step' t ms v ∧ (∀ m ∈ ms, B m) ∧ R u v

theorem CatchesUp.refl (h : R s t) : CatchesUp step' R B t s := ⟨[], t, .nil t, by simp, h⟩

/-- A step under a label of `A` is followed from every related state. -/
def Simulates (step : σ → ι → Option σ) (step' : τ → κ → Option τ) (R : σ → τ → Prop)
    (A : ι → Prop) (B : κ → Prop) : Prop :=
  ∀ s l u t, R s t → A l → step s l = some u → CatchesUp step' R B t u

theorem Simulates.run (h : Simulates step step' R A B) (hrun : Run step s ls u)
    (hls : ∀ l ∈ ls, A l) (hR : R s t) : CatchesUp step' R B t u := by
  induction hrun generalizing t with
  | nil s => exact .refl hR
  | @cons s u w l ls hl hrest ih =>
    obtain ⟨ms, v, hfirst, hms, hu⟩ := h s l u t hR (hls l List.mem_cons_self) hl
    obtain ⟨ms', v', hlast, hms', hw⟩ := ih (fun l' hl' => hls l' (List.mem_cons_of_mem _ hl')) hu
    refine ⟨ms ++ ms', v', hfirst.append hlast, fun m hm => ?_, hw⟩
    exact (List.mem_append.mp hm).elim (hms m) (hms' m)

theorem Simulates.weaken {B' : κ → Prop} (h : Simulates step step' R A B)
    (hB : ∀ m, B m → B' m) : Simulates step step' R A B' := by
  intro s l u t hR hl hstep
  obtain ⟨ms, v, hrun, hms, hu⟩ := h s l u t hR hl hstep
  exact ⟨ms, v, hrun, fun m hm => hB m (hms m hm), hu⟩

theorem Simulates.trans (h : Simulates step step' R A B) (h' : Simulates step' step'' R' B C) :
    Simulates step step'' (fun s x => ∃ t, R s t ∧ R' t x) A C := by
  intro s l u x hrel hl hstep
  obtain ⟨t, hR, hR'⟩ := hrel
  obtain ⟨ms, v, hrun, hms, hu⟩ := h s l u t hR hl hstep
  obtain ⟨ns, y, hrun', hns, hv⟩ := h'.run hrun hms hR'
  exact ⟨ns, y, hrun', hns, v, hu, hv⟩

end Transition

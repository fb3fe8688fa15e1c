import Mathlib.Data.List.Perm.Basic

/-!
# Loops over targets whose steps may fail

A step works on one target of a state: it sees this target and the surroundings,
changes nothing but the target, and may fail, also after it has changed it. A loop over
the targets either goes on after a failure or stops at it. The loop that goes on makes
of each target what its own step makes of it. For the loop that stops, `Isolated` is
the exact condition for this, and for the end not to depend on the order.
-/

structure LocalSteps (S K V E : Type*) where
  run : K → S → S × Bool
  look : S → K → V
  surroundings : S → E
  surroundings_run : ∀ k s, surroundings (run k s).1 = surroundings s
  look_run : ∀ k s k', k' ≠ k → look (run k s).1 k' = look s k'
  run_local : ∀ k s t, surroundings s = surroundings t → look s k = look t k →
    (run k s).2 = (run k t).2 ∧ look (run k s).1 k = look (run k t).1 k

namespace LocalSteps

variable {S K V E : Type*} (L : LocalSteps S K V E)

def untilFailure : List K → S → S × Bool
  | [], s => (s, true)
  | k :: ks, s => if (L.run k s).2 then untilFailure ks (L.run k s).1 else L.run k s

def forEach : List K → S → S
  | [], s => s
  | k :: ks, s => forEach ks (L.run k s).1

def own (s : S) (k : K) : V := L.look (L.run k s).1 k

def Fails (s : S) (k : K) : Prop := (L.run k s).2 = false

def Still (s : S) (k : K) : Prop := L.own s k = L.look s k

/-- Once the step of one target fails, those of all other targets change nothing. -/
def Isolated (ts : List K) (s : S) : Prop :=
  ∀ b ∈ ts, L.Fails s b → ∀ k ∈ ts, k ≠ b → L.Still s k

variable {L} {s t : S} {k b : K} {ks ts : List K}

theorem own_congr (hs : L.surroundings s = L.surroundings t) (hk : L.look s k = L.look t k) :
    L.own s k = L.own t k :=
  (L.run_local k s t hs hk).2

theorem fails_congr (hs : L.surroundings s = L.surroundings t) (hk : L.look s k = L.look t k) :
    L.Fails s k ↔ L.Fails t k := by
  unfold Fails
  rw [(L.run_local k s t hs hk).1]

theorem untilFailure_surroundings (ks : List K) (s : S) :
    L.surroundings (L.untilFailure ks s).1 = L.surroundings s := by
  induction ks generalizing s with
  | nil => rfl
  | cons b ks ih =>
    simp only [untilFailure]
    split_ifs with hok
    · rw [ih, L.surroundings_run]
    · exact L.surroundings_run b s

theorem untilFailure_other (hk : k ∉ ks) (s : S) :
    L.look (L.untilFailure ks s).1 k = L.look s k := by
  induction ks generalizing s with
  | nil => rfl
  | cons b ks ih =>
    obtain ⟨hne, hks⟩ := not_or.mp (mt List.mem_cons.mpr hk)
    simp only [untilFailure]
    split_ifs with hok
    · rw [ih hks, L.look_run b s k hne]
    · exact L.look_run b s k hne

theorem untilFailure_of_fails (hb : L.Fails s b) (ks : List K) :
    L.untilFailure (b :: ks) s = L.run b s := by
  simp only [untilFailure]
  rw [hb]
  rfl

theorem untilFailure_own (hks : ks.Nodup) (hk : k ∈ ks)
    (h : ∀ b ∈ ks, L.Fails s b → k ≠ b → L.Still s k) :
    L.look (L.untilFailure ks s).1 k = L.own s k := by
  induction ks generalizing s with
  | nil => cases hk
  | cons b ks ih =>
    obtain ⟨hb, hrest⟩ := List.nodup_cons.mp hks
    by_cases heq : k = b
    · subst heq
      simp only [untilFailure]
      split_ifs with hok
      · rw [untilFailure_other hb]
        rfl
      · rfl
    · have hin : k ∈ ks := (List.mem_cons.mp hk).resolve_left heq
      by_cases hok : (L.run b s).2 = true
      · have hsame : ∀ k' ∈ ks, L.look (L.run b s).1 k' = L.look s k' := by
          intro k' hk'
          apply L.look_run b s
          intro he
          exact hb (he ▸ hk')
        have hsurr := L.surroundings_run b s
        have hown : L.own (L.run b s).1 k = L.own s k := own_congr hsurr (hsame k hin)
        simp only [untilFailure, hok, if_true]
        rw [ih hrest hin, hown]
        intro b' hb' hfails hne
        have hfails' := (fails_congr hsurr (hsame b' hb')).mp hfails
        have hstill := h b' (List.mem_cons_of_mem _ hb') hfails' hne
        rw [Still, hown, hsame k hin]
        exact hstill
      · have hfails : L.Fails s b := Bool.eq_false_iff.mpr hok
        rw [untilFailure_of_fails hfails, L.look_run b s k heq]
        exact (h b List.mem_cons_self hfails heq).symm

theorem forEach_other (hk : k ∉ ks) (s : S) : L.look (L.forEach ks s) k = L.look s k := by
  induction ks generalizing s with
  | nil => rfl
  | cons b ks ih =>
    obtain ⟨hne, hks⟩ := not_or.mp (mt List.mem_cons.mpr hk)
    rw [forEach, ih hks, L.look_run b s k hne]

theorem forEach_own (hks : ks.Nodup) (hk : k ∈ ks) (s : S) :
    L.look (L.forEach ks s) k = L.own s k := by
  induction ks generalizing s with
  | nil => cases hk
  | cons b ks ih =>
    obtain ⟨hb, hrest⟩ := List.nodup_cons.mp hks
    rw [forEach]
    by_cases heq : k = b
    · subst heq
      exact forEach_other hb _
    · rw [ih hrest ((List.mem_cons.mp hk).resolve_left heq)]
      exact own_congr (L.surroundings_run b s) (L.look_run b s k heq)

theorem Isolated.congr (h : L.Isolated ts s) (hs : L.surroundings s = L.surroundings t)
    (hts : ∀ k ∈ ts, L.look s k = L.look t k) : L.Isolated ts t := by
  intro b hb hfails k hk hne
  have hstill := h b hb ((fails_congr hs (hts b hb)).mpr hfails) k hk hne
  rw [Still, ← own_congr hs (hts k hk), ← hts k hk]
  exact hstill

theorem Isolated.own (h : L.Isolated ts s) (hts : ts.Nodup) (hks : ks.Perm ts) (hk : k ∈ ts) :
    L.look (L.untilFailure ks s).1 k = L.own s k := by
  apply untilFailure_own (hks.nodup_iff.mpr hts) (hks.mem_iff.mpr hk)
  intro b hb hfails hne
  exact h b (hks.mem_iff.mp hb) hfails k hk hne

theorem Isolated.perm {ks' : List K} (h : L.Isolated ts s) (hts : ts.Nodup) (hks : ks.Perm ts)
    (hks' : ks'.Perm ts) (k : K) :
    L.look (L.untilFailure ks s).1 k = L.look (L.untilFailure ks' s).1 k := by
  by_cases hk : k ∈ ts
  · rw [h.own hts hks hk, h.own hts hks' hk]
  · rw [untilFailure_other fun hin => hk (hks.mem_iff.mp hin),
      untilFailure_other fun hin => hk (hks'.mem_iff.mp hin)]

/-- The loop that stops at a failure completes every target whose step succeeds, and ends
the same in every order, only if it is isolated. -/
theorem isolated_of_orders [DecidableEq K]
    (hdone : ∀ ks, ks.Perm ts → ∀ k ∈ ts, ¬L.Fails s k →
      L.look (L.untilFailure ks s).1 k = L.own s k)
    (hsame : ∀ ks ks', ks.Perm ts → ks'.Perm ts → ∀ k ∈ ts,
      L.look (L.untilFailure ks s).1 k = L.look (L.untilFailure ks' s).1 k) :
    L.Isolated ts s := by
  intro b hb hfails k hk hne
  have hfirst : (b :: ts.erase b).Perm ts := (List.perm_cons_erase hb).symm
  have hleft : L.look (L.untilFailure (b :: ts.erase b) s).1 k = L.look s k := by
    rw [untilFailure_of_fails hfails, L.look_run b s k hne]
  by_cases hkfails : L.Fails s k
  · have hkfirst : (k :: ts.erase k).Perm ts := (List.perm_cons_erase hk).symm
    have horders := hsame _ _ hkfirst hfirst k hk
    rw [untilFailure_of_fails hkfails, hleft] at horders
    exact horders
  · exact (hdone _ hfirst k hk hkfails).symm.trans hleft

end LocalSteps

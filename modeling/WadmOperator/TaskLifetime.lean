import WadmOperator.WatcherTasks

/-!
# Live tasks and entries

The entries of the map against the tasks that are still running. A removed entry
always cancels its task; an entry without a live task arises in one way only, when
the stream of a task ends that nobody cancelled.
-/

namespace WadmOperator
namespace ServiceWatcher

open Transition

def Live (s : ServiceWatcher) (latticeId : String) : Prop :=
  ∃ (i : Nat) (t : EventTask), s.tasks[i]? = some t ∧ t.watcher.latticeId = latticeId ∧
    t.watcher.shutdown ∉ s.cancelled ∧ t.phase ≠ .finished

def Matched (s : ServiceWatcher) : Prop :=
  ∀ latticeId, (s.watchers.get? latticeId).isSome ↔ s.Live latticeId

structure LifetimeKept (s : ServiceWatcher) (l : Label) (u : ServiceWatcher) : Prop where
  matched : u.Matched
  watched : ∀ client ns latticeId created, l = .watch client ns latticeId created →
    (s.watch client ns latticeId created).2 = true → u.Live latticeId
  removed : ∀ latticeId w, s.watchers.get? latticeId = some w →
    u.watchers.get? latticeId = none → w.shutdown ∈ u.cancelled

/-- The stream of a task ends only after the task was cancelled. -/
def StreamKept (s : ServiceWatcher) (l : Label) (_ : ServiceWatcher) : Prop :=
  ∀ i t, l = .next i .ended → s.tasks[i]? = some t → t.watcher.shutdown ∈ s.cancelled

variable {s u : ServiceWatcher} {latticeId latticeId' : String}

theorem live_congr (ht : u.tasks = s.tasks) (hc : u.cancelled = s.cancelled) :
    u.Live latticeId ↔ s.Live latticeId := by
  simp only [Live, ht, hc]

theorem matched_congr (hw : u.watchers = s.watchers) (ht : u.tasks = s.tasks)
    (hc : u.cancelled = s.cancelled) : u.Matched ↔ s.Matched := by
  simp only [Matched, hw, live_congr ht hc]

theorem live_setPhase {i : Nat} {phase : Phase} {t : EventTask} (ht : s.tasks[i]? = some t)
    (hold : t.phase ≠ .finished) (hnew : phase ≠ .finished) :
    (s.setPhase i phase).Live latticeId ↔ s.Live latticeId := by
  constructor
  · intro hall
    obtain ⟨k, t', ht', hlat, hcan, hphase⟩ := hall
    obtain ⟨old, hk, hw, -, hp⟩ := task_setPhase ht'
    refine ⟨k, old, hk, hw ▸ hlat, hw ▸ hcan, ?_⟩
    by_cases hki : k = i
    · subst hki
      obtain rfl := Option.some.inj (hk.symm.trans ht)
      exact hold
    · rwa [hp, if_neg hki] at hphase
  · intro hall
    obtain ⟨k, old, hk, hlat, hcan, hphase⟩ := hall
    obtain ⟨t', ht', hw, hp⟩ := setPhase_task (i := i) phase hk
    refine ⟨k, t', ht', hw ▸ hlat, hw ▸ hcan, ?_⟩
    rw [hp]
    split
    · exact hnew
    · exact hphase

theorem live_finish_cancelled {i : Nat} {t : EventTask} (ht : s.tasks[i]? = some t)
    (hc : t.watcher.shutdown ∈ s.cancelled) :
    (s.finish i t).Live latticeId ↔ s.Live latticeId := by
  have hsame : (s.finish i t).cancelled = s.cancelled := Finset.insert_eq_of_mem hc
  constructor
  · intro hall
    obtain ⟨k, t', ht', hlat, hcan, hphase⟩ := hall
    obtain ⟨old, hk, hw, -, hp⟩ := task_setPhase ht'
    have hki : k ≠ i := by
      intro heq
      subst heq
      rw [hp, if_pos rfl] at hphase
      exact hphase rfl
    rw [hp, if_neg hki] at hphase
    rw [hsame] at hcan
    exact ⟨k, old, hk, hw ▸ hlat, hw ▸ hcan, hphase⟩
  · intro hall
    obtain ⟨k, old, hk, hlat, hcan, hphase⟩ := hall
    obtain ⟨t', ht', hw, hp⟩ := setPhase_task (i := i) .finished hk
    have hki : k ≠ i := by
      intro heq
      subst heq
      obtain rfl := Option.some.inj (hk.symm.trans ht)
      exact hcan hc
    refine ⟨k, t', ht', hw ▸ hlat, ?_, ?_⟩
    · rw [hsame, hw]
      exact hcan
    · rw [hp, if_neg hki]
      exact hphase

theorem not_live_finish {i : Nat} {t : EventTask} (h : s.Sound) (ht : s.tasks[i]? = some t)
    (hi : t.watcher.shutdown ∉ s.cancelled) : ¬(s.finish i t).Live t.watcher.latticeId := by
  intro hall
  obtain ⟨k, t', ht', hlat, hcan, -⟩ := hall
  obtain ⟨old, hk, hold, -, -⟩ := task_setPhase ht'
  rw [hold] at hlat hcan
  have hktok := h.token k old hk
  have hitok := h.token i t ht
  simp only [finish, Finset.mem_insert, not_or] at hcan
  have hkcan : k ∉ s.cancelled := hktok ▸ hcan.2
  have hican : i ∉ s.cancelled := hitok ▸ hi
  obtain ⟨w, hw, hwk⟩ := h.covered k old hk hkcan
  obtain ⟨w', hw', hwi⟩ := h.covered i t ht hican
  rw [hlat, hw'] at hw
  obtain rfl := Option.some.inj hw
  apply hcan.1
  rw [hktok, hitok, ← hwk, hwi]

theorem live_spawn (h : s.Sound) (client : NatsClient) (ns : String) :
    (s.spawn client ns latticeId).Live latticeId' ↔ latticeId' = latticeId ∨ s.Live latticeId' := by
  constructor
  · intro hall
    obtain ⟨k, t, ht, hlat, hcan, hphase⟩ := hall
    simp only [spawn, List.getElem?_append] at ht
    split at ht
    · exact .inr ⟨k, t, ht, hlat, hcan, hphase⟩
    · obtain ⟨_, rfl⟩ := List.getElem?_eq_some_iff.mp ht
      left
      simpa using hlat.symm
  · intro hall
    rcases hall with rfl | ⟨k, t, ht, hlat, hcan, hphase⟩
    · refine ⟨s.tasks.length, _, List.getElem?_concat_length, rfl, ?_, by simp⟩
      intro hin
      have hlt := h.fresh s.tasks.length hin
      omega
    · have hlt := (List.getElem?_eq_some_iff.mp ht).1
      refine ⟨k, t, ?_, hlat, hcan, hphase⟩
      simp only [spawn]
      rw [List.getElem?_append_left hlt]
      exact ht

theorem live_dropEntry (h : s.Sound) {w : Watcher} (hw : s.watchers.get? latticeId = some w) :
    Live { s with
      watchers := s.watchers.remove latticeId
      cancelled := insert w.shutdown s.cancelled } latticeId' ↔
        latticeId' ≠ latticeId ∧ s.Live latticeId' := by
  constructor
  · intro hall
    obtain ⟨k, t, ht, hlat, hcan, hphase⟩ := hall
    simp only [Finset.mem_insert, not_or] at hcan
    refine ⟨?_, k, t, ht, hlat, hcan.2, hphase⟩
    intro heq
    subst heq
    have hk := h.token k t ht
    obtain ⟨w', hw', htok⟩ := h.covered k t ht (hk ▸ hcan.2)
    rw [hlat, hw] at hw'
    obtain rfl := Option.some.inj hw'
    exact hcan.1 (hk.trans htok.symm)
  · intro hall
    obtain ⟨hne, k, t, ht, hlat, hcan, hphase⟩ := hall
    refine ⟨k, t, ht, hlat, ?_, hphase⟩
    simp only [Finset.mem_insert, not_or]
    refine ⟨?_, hcan⟩
    intro heq
    obtain ⟨-, t', ht', hlat'⟩ := h.entry latticeId w hw
    rw [← heq, h.token k t ht, ht] at ht'
    obtain rfl := Option.some.inj ht'
    exact hne (hlat.symm.trans hlat')

theorem isSome_put (d : Dict String Watcher) {w : Watcher} (hw : d.get? latticeId = some w)
    (w' : Watcher) (latticeId' : String) :
    ((d.put latticeId w').get? latticeId').isSome = (d.get? latticeId').isSome := by
  rw [Dict.get?_put]
  split
  · next heq => rw [heq, hw]; rfl
  · rfl

theorem Matched.watch (hm : s.Matched) (h : s.Sound) (client : NatsClient) (ns : String)
    (created : Bool) : (s.watch client ns latticeId created).1.Matched := by
  intro k
  unfold ServiceWatcher.watch
  split
  · next w hw =>
    simp only [isSome_put _ hw]
    exact hm k
  · split
    · rw [live_spawn h, ← hm k]
      simp only [spawn, Dict.get?_put]
      by_cases hk : k = latticeId <;> simp [hk]
    · exact hm k

theorem Matched.leave (hm : s.Matched) (h : s.Sound) (ns : String) {w : Watcher}
    (hw : s.watchers.get? latticeId = some w) : (s.leave latticeId ns w).Matched := by
  intro k
  unfold ServiceWatcher.leave
  split
  · rw [live_dropEntry h hw, ← hm k]
    simp only [Dict.get?_remove]
    by_cases hk : k = latticeId <;> simp [hk]
  · simp only [isSome_put _ hw]
    exact hm k

theorem matched_send (q : Sent) : (s.send q).1.Matched ↔ s.Matched :=
  let hf := send_frame s q
  matched_congr hf.1 hf.2.2.1 hf.2.1

theorem Matched.stopWatch (hm : s.Matched) (h : s.Sound) (ns : String) :
    (s.stopWatch latticeId ns).1.Matched := by
  unfold ServiceWatcher.stopWatch
  split
  · next w hw => exact (matched_send _).mpr (hm.leave h ns hw)
  · exact hm

theorem Matched.setPhase (hm : s.Matched) {i : Nat} {phase : Phase} {t : EventTask}
    (ht : s.tasks[i]? = some t) (hold : t.phase ≠ .finished) (hnew : phase ≠ .finished) :
    (s.setPhase i phase).Matched :=
  fun k => (hm k).trans (live_setPhase ht hold hnew).symm

theorem matched_taskStep (hm : s.Matched) (h : s.Sound) {l : Label} (hstep : TaskStep s l u) :
    u.Matched ↔ StreamKept s l u := by
  cases hstep with
  | take ht hp =>
    refine iff_of_true (hm.setPhase ht (by simp [hp]) (by simp)) ?_
    intro i t hl
    cases hl
  | skip ht hp =>
    refine iff_of_true hm ?_
    intro i t hl
    cases hl
  | @ended i t ht hp =>
    constructor
    · intro hu i' t' hl ht'
      cases hl
      obtain rfl := Option.some.inj (ht.symm.trans ht')
      by_contra hcan
      have hitok := h.token i t ht
      obtain ⟨w, hw, -⟩ := h.covered i t ht (hitok ▸ hcan)
      have hsome : ((s.finish i t).watchers.get? t.watcher.latticeId).isSome := by
        simp [finish, ServiceWatcher.setPhase, hw]
      exact not_live_finish h ht hcan ((hu _).mp hsome)
    · intro hG k
      have hcan := hG i t rfl ht
      rw [live_finish_cancelled ht hcan]
      exact hm k
  | @handle i t m ht hp =>
    refine iff_of_true ?_ fun i t hl => by cases hl
    rcases handleMessage_cases s i t m with ⟨ok, heq⟩ | ⟨cmd, ok, sent, -, heq⟩
    · rw [heq]
      exact hm.setPhase ht (by simp [hp]) (by simp)
    · rw [heq]
      refine ((matched_send _).mpr hm).setPhase (t := t) ?_ (by simp [hp]) (by simp)
      rw [(send_frame s _).2.2.1]
      exact ht
  | settle ht hp =>
    refine iff_of_true (hm.setPhase ht (by simp [hp]) (by simp)) ?_
    intro i t hl
    cases hl
  | cancelled ht hc _ =>
    refine iff_of_true ?_ fun i t hl => by cases hl
    intro k
    rw [live_finish_cancelled ht hc]
    exact hm k

theorem watch_isSome (client : NatsClient) (ns latticeId : String) (created : Bool)
    (h : (s.watchers.get? latticeId').isSome) :
    ((s.watch client ns latticeId created).1.watchers.get? latticeId').isSome := by
  unfold watch
  split
  · next w hw =>
    simp only [isSome_put _ hw]
    exact h
  · split
    · simp only [spawn, Dict.get?_put]
      split
      · rfl
      · exact h
    · exact h

theorem leave_removed {w w' : Watcher} (ns : String) (hw : s.watchers.get? latticeId = some w)
    (hw' : s.watchers.get? latticeId' = some w')
    (hnone : (s.leave latticeId ns w).watchers.get? latticeId' = none) :
    w'.shutdown ∈ (s.leave latticeId ns w).cancelled := by
  unfold leave at hnone ⊢
  split
  · next hlast =>
    simp only [if_pos hlast, Dict.get?_remove] at hnone
    by_cases hk : latticeId' = latticeId
    · rw [hk, hw] at hw'
      obtain rfl := Option.some.inj hw'
      exact Finset.mem_insert_self _ _
    · rw [if_neg hk, hw'] at hnone
      cases hnone
  · next hlast =>
    simp only [if_neg hlast] at hnone
    have hsome := isSome_put _ hw { w with namespaces := w.namespaces.erase ns } latticeId'
    rw [hnone, hw'] at hsome
    cases hsome

theorem removed_cancelled {l : Label} (hstep : step s l = some u) {w : Watcher}
    (hw : s.watchers.get? latticeId = some w) (hu : u.watchers.get? latticeId = none) :
    w.shutdown ∈ u.cancelled := by
  cases step_cases hstep with
  | @watch client ns k created hlock =>
    have hsome := watch_isSome client ns k created (by rw [hw]; rfl)
    rw [hu] at hsome
    cases hsome
  | @stopWatch k ns hlock =>
    unfold ServiceWatcher.stopWatch at hu ⊢
    split
    · next w' hw' =>
      simp only [hw', (send_frame _ _).1] at hu
      rw [(send_frame _ _).2.1]
      exact leave_removed ns hw' hw hu
    · next hnone =>
      rw [hnone] at hu
      rw [hw] at hu
      cases hu
  | task ht =>
    rw [taskStep_watchers ht, hw] at hu
    cases hu
  | rest hsame _ _ _ _ =>
    rw [hsame, hw] at hu
    cases hu

theorem watch_ok_isSome {client : NatsClient} {ns : String} {created : Bool}
    (h : (s.watch client ns latticeId created).2 = true) :
    ((s.watch client ns latticeId created).1.watchers.get? latticeId).isSome := by
  unfold watch at h ⊢
  split
  · simp
  · next hnone =>
    rw [hnone] at h
    simp only at h
    split
    · simp [spawn]
    · next hc =>
      rw [if_neg hc] at h
      cases h

theorem lifetimeKept_iff (h : s.Sound) (hm : s.Matched) {l : Label} (hstep : step s l = some u) :
    LifetimeKept s l u ↔ StreamKept s l u := by
  have hmatched : u.Matched ↔ StreamKept s l u := by
    cases step_cases hstep with
    | watch _ =>
      refine iff_of_true (hm.watch h _ _ _) ?_
      intro i t hl
      cases hl
    | stopWatch _ =>
      refine iff_of_true (hm.stopWatch h _) ?_
      intro i t hl
      cases hl
    | task ht => exact matched_taskStep hm h ht
    | rest hw hc ht _ hnext =>
      refine iff_of_true ((matched_congr hw ht hc).mpr hm) ?_
      intro i t hl
      exact absurd hl (hnext i .ended)
  constructor
  · intro hkept
    exact hmatched.mp hkept.matched
  · intro hG
    have hu := hmatched.mpr hG
    refine ⟨hu, ?_, fun k w hw hnone => removed_cancelled hstep hw hnone⟩
    intro client ns k created hl hok
    rw [hl] at hstep
    simp only [step] at hstep
    split_ifs at hstep
    obtain rfl := Option.some.inj hstep
    exact (hu k).mp (watch_ok_isSome hok)

theorem matched_initial : Matched {} := by
  intro k
  simp [Live]

/-- Over all runs from a new service watcher: live tasks and entries match after every
step exactly when no step ends the stream of a task that was not cancelled. -/
theorem run_lifetimeKept_iff (ls : List Label) :
    Along step LifetimeKept {} ls ↔ Along step StreamKept {} ls := by
  refine along_exact (I := Sound) (J := Matched) ?_ sound_initial matched_initial
  intro s l u hs hm hstep
  exact ⟨lifetimeKept_iff hs hm hstep, fun hkept => hkept.matched, hs.step hstep⟩

/-- The stream of the only task ends: its entry stays, without a live task. -/
theorem stream_end_leaves_entry : ¬∀ ls, Along step LifetimeKept {} ls := by
  intro h
  obtain ⟨-, hrest⟩ := h [.watch .sample "default" "lattice" true, .next 0 .ended] _ rfl
  obtain ⟨hkept, -⟩ := hrest _ rfl
  obtain ⟨i, t, ht, -, -, hphase⟩ := (hkept.matched "lattice").mp rfl
  cases i with
  | zero =>
    obtain rfl := Option.some.inj ht
    exact hphase rfl
  | succ i => cases ht

end ServiceWatcher
end WadmOperator

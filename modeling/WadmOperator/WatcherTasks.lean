import WadmOperator.Foundation.Transition
import WadmOperator.ServiceWatcher

/-!
# Tokens, entries and tasks

A task keeps the watcher it was spawned with, whatever happens to the entry of the
map, and an entry and its task share one token. These facts need no assumption on
the order of the steps.
-/

namespace WadmOperator
namespace ServiceWatcher

open Transition

structure Sound (s : ServiceWatcher) : Prop where
  token : ∀ (i : Nat) t, s.tasks[i]? = some t → t.watcher.shutdown = i
  startedFor : ∀ (i : Nat) t, s.tasks[i]? = some t → t.watcher.namespaces = {t.startedFor}
  entry : ∀ latticeId w, s.watchers.get? latticeId = some w → w.latticeId = latticeId ∧
    ∃ t, s.tasks[w.shutdown]? = some t ∧ t.watcher.latticeId = latticeId
  covered : ∀ (i : Nat) t, s.tasks[i]? = some t → i ∉ s.cancelled →
    ∃ w, s.watchers.get? t.watcher.latticeId = some w ∧ w.shutdown = i
  finished : ∀ (i : Nat) t, s.tasks[i]? = some t → t.phase = .finished → i ∈ s.cancelled
  fresh : ∀ i ∈ s.cancelled, i < s.tasks.length

variable {s u : ServiceWatcher}

theorem sound_initial : Sound {} where
  token i t h := by simp at h
  startedFor i t h := by simp at h
  entry latticeId w h := by simp at h
  covered i t h := by simp at h
  finished i t h := by simp at h
  fresh i h := by simp at h

theorem Sound.congr (h : Sound s) (hw : u.watchers = s.watchers) (hc : u.cancelled = s.cancelled)
    (ht : u.tasks = s.tasks) : Sound u where
  token := by rw [ht]; exact h.token
  startedFor := by rw [ht]; exact h.startedFor
  entry := by rw [ht, hw]; exact h.entry
  covered := by rw [ht, hw, hc]; exact h.covered
  finished := by rw [ht, hc]; exact h.finished
  fresh := by rw [ht, hc]; exact h.fresh

theorem send_frame (s : ServiceWatcher) (q : Sent) :
    (s.send q).1.watchers = s.watchers ∧ (s.send q).1.cancelled = s.cancelled ∧
      (s.send q).1.tasks = s.tasks ∧ (s.send q).1.passes = s.passes := by
  unfold send
  split <;> exact ⟨rfl, rfl, rfl, rfl⟩

theorem Sound.send (h : Sound s) (q : Sent) : Sound (s.send q).1 :=
  let hf := send_frame s q
  h.congr hf.1 hf.2.1 hf.2.2.1

theorem task_setPhase {i k : Nat} {phase : Phase} {t : EventTask}
    (h : (s.setPhase i phase).tasks[k]? = some t) :
    ∃ old, s.tasks[k]? = some old ∧ t.watcher = old.watcher ∧ t.startedFor = old.startedFor ∧
      t.phase = if k = i then phase else old.phase := by
  simp only [setPhase, List.getElem?_modify] at h
  obtain ⟨old, hold, rfl⟩ := Option.map_eq_some_iff.mp h
  refine ⟨old, hold, ?_⟩
  by_cases hk : k = i
  · simp [hk]
  · simp [hk, Ne.symm hk]

theorem setPhase_task {i k : Nat} (phase : Phase) {old : EventTask} (h : s.tasks[k]? = some old) :
    ∃ t, (s.setPhase i phase).tasks[k]? = some t ∧ t.watcher = old.watcher ∧
      t.phase = if k = i then phase else old.phase := by
  refine ⟨if k = i then { old with phase := phase } else old, ?_, ?_, ?_⟩
  · by_cases hk : k = i
    · simp [setPhase, hk, hk ▸ h]
    · simp [setPhase, hk, Ne.symm hk, h]
  · split <;> rfl
  · split <;> rfl

theorem Sound.setPhase (h : Sound s) (i : Nat) (phase : Phase)
    (hend : phase = .finished → i ∈ s.cancelled) : Sound (s.setPhase i phase) where
  token k t ht := by
    obtain ⟨old, hold, hw, -, -⟩ := task_setPhase ht
    rw [hw]
    exact h.token k old hold
  startedFor k t ht := by
    obtain ⟨old, hold, hw, hs, -⟩ := task_setPhase ht
    rw [hw, hs]
    exact h.startedFor k old hold
  entry latticeId w hw := by
    obtain ⟨hl, old, hold, hlat⟩ := h.entry latticeId w hw
    obtain ⟨t, ht, hwt, -⟩ := setPhase_task (i := i) phase hold
    exact ⟨hl, t, ht, by rw [hwt]; exact hlat⟩
  covered k t ht hk := by
    obtain ⟨old, hold, hw, -, -⟩ := task_setPhase ht
    rw [hw]
    exact h.covered k old hold hk
  finished k t ht hfin := by
    obtain ⟨old, hold, -, -, hphase⟩ := task_setPhase ht
    by_cases hk : k = i
    · rw [if_pos hk] at hphase
      exact hk ▸ hend (hphase.symm.trans hfin)
    · rw [if_neg hk] at hphase
      exact h.finished k old hold (hphase.symm.trans hfin)
  fresh k hk := by
    have hlt := h.fresh k hk
    simpa [ServiceWatcher.setPhase] using hlt

theorem Sound.cancel (h : Sound s) {i : Nat} {t : EventTask} (ht : s.tasks[i]? = some t) :
    Sound { s with cancelled := insert i s.cancelled } where
  token := h.token
  startedFor := h.startedFor
  entry := h.entry
  covered k t' ht' hk := h.covered k t' ht' fun hin => hk (Finset.mem_insert_of_mem hin)
  finished k t' ht' hfin := Finset.mem_insert_of_mem (h.finished k t' ht' hfin)
  fresh k hk := by
    rcases Finset.mem_insert.mp hk with rfl | hk
    · exact (List.getElem?_eq_some_iff.mp ht).1
    · exact h.fresh k hk

theorem Sound.finish (h : Sound s) {i : Nat} {t : EventTask} (ht : s.tasks[i]? = some t) :
    Sound (s.finish i t) := by
  have hi := h.token i t ht
  have hcancel := (h.cancel ht).setPhase i .finished fun _ => Finset.mem_insert_self i _
  unfold ServiceWatcher.finish
  rw [hi]
  exact hcancel.congr rfl rfl rfl

theorem Sound.spawn (h : Sound s) (client : NatsClient) (ns latticeId : String)
    (hnone : s.watchers.get? latticeId = none) : Sound (s.spawn client ns latticeId) where
  token k t ht := by
    simp only [ServiceWatcher.spawn, List.getElem?_append] at ht
    split at ht
    · exact h.token k t ht
    · obtain ⟨hlt, rfl⟩ := List.getElem?_eq_some_iff.mp ht
      simp only [List.length_singleton] at hlt
      simp only [List.getElem_singleton]
      omega
  startedFor k t ht := by
    simp only [ServiceWatcher.spawn, List.getElem?_append] at ht
    split at ht
    · exact h.startedFor k t ht
    · obtain ⟨hlt, rfl⟩ := List.getElem?_eq_some_iff.mp ht
      simp only [List.getElem_singleton]
  entry l w hw := by
    simp only [ServiceWatcher.spawn, Dict.get?_put] at hw ⊢
    split at hw
    · next heq =>
      obtain rfl := Option.some.inj hw
      exact ⟨heq.symm, _, List.getElem?_concat_length, heq.symm⟩
    · obtain ⟨hl, t, ht, hlat⟩ := h.entry l w hw
      have hlt := (List.getElem?_eq_some_iff.mp ht).1
      exact ⟨hl, t, by rw [List.getElem?_append_left hlt]; exact ht, hlat⟩
  covered k t ht hk := by
    simp only [ServiceWatcher.spawn, List.getElem?_append, Dict.get?_put] at ht hk ⊢
    split at ht
    · obtain ⟨w, hw, htok⟩ := h.covered k t ht hk
      have hne : t.watcher.latticeId ≠ latticeId := by
        intro heq
        rw [heq, hnone] at hw
        cases hw
      rw [if_neg hne]
      exact ⟨w, hw, htok⟩
    · obtain ⟨hlt, rfl⟩ := List.getElem?_eq_some_iff.mp ht
      simp only [List.length_singleton] at hlt
      simp only [List.getElem_singleton, if_true]
      exact ⟨_, rfl, by simp only; omega⟩
  finished k t ht hfin := by
    simp only [ServiceWatcher.spawn, List.getElem?_append] at ht
    split at ht
    · exact h.finished k t ht hfin
    · obtain ⟨hlt, rfl⟩ := List.getElem?_eq_some_iff.mp ht
      simp at hfin
  fresh k hk := by
    have hlt := h.fresh k hk
    simp only [ServiceWatcher.spawn, List.length_append, List.length_singleton]
    omega

theorem Sound.putEntry (h : Sound s) {latticeId : String} {w : Watcher}
    (hw : s.watchers.get? latticeId = some w) (namespaces : Finset String) :
    Sound { s with watchers := s.watchers.put latticeId { w with namespaces := namespaces } } where
  token := h.token
  startedFor := h.startedFor
  entry l w' hw' := by
    simp only [Dict.get?_put] at hw'
    split at hw'
    · next heq =>
      obtain rfl := Option.some.inj hw'
      rw [heq]
      exact h.entry latticeId w hw
    · exact h.entry l w' hw'
  covered k t ht hk := by
    obtain ⟨w', hw', htok⟩ := h.covered k t ht hk
    simp only [Dict.get?_put]
    split
    · next heq =>
      rw [heq, hw] at hw'
      obtain rfl := Option.some.inj hw'
      exact ⟨_, rfl, htok⟩
    · exact ⟨w', hw', htok⟩
  finished := h.finished
  fresh := h.fresh

theorem Sound.dropEntry (h : Sound s) {latticeId : String} {w : Watcher}
    (hw : s.watchers.get? latticeId = some w) :
    Sound { s with
      watchers := s.watchers.remove latticeId
      cancelled := insert w.shutdown s.cancelled } where
  token := h.token
  startedFor := h.startedFor
  entry l w' hw' := by
    simp only [Dict.get?_remove] at hw'
    split at hw'
    · cases hw'
    · exact h.entry l w' hw'
  covered k t ht hk := by
    simp only [Finset.mem_insert, not_or] at hk
    obtain ⟨w', hw', htok⟩ := h.covered k t ht hk.2
    have hne : t.watcher.latticeId ≠ latticeId := by
      intro heq
      rw [heq, hw] at hw'
      obtain rfl := Option.some.inj hw'
      exact hk.1 htok.symm
    simp only [Dict.get?_remove, if_neg hne]
    exact ⟨w', hw', htok⟩
  finished k t ht hfin := Finset.mem_insert_of_mem (h.finished k t ht hfin)
  fresh k hk := by
    rcases Finset.mem_insert.mp hk with rfl | hk
    · obtain ⟨-, t, ht, -⟩ := h.entry latticeId w hw
      exact (List.getElem?_eq_some_iff.mp ht).1
    · exact h.fresh k hk

theorem Sound.watch (h : Sound s) (client : NatsClient) (ns latticeId : String) (created : Bool) :
    Sound (s.watch client ns latticeId created).1 := by
  unfold ServiceWatcher.watch
  split
  · next w hw => exact h.putEntry hw _
  · next hnone =>
    split
    · exact h.spawn client ns latticeId hnone
    · exact h

theorem Sound.leave (h : Sound s) {latticeId : String} (ns : String) {w : Watcher}
    (hw : s.watchers.get? latticeId = some w) : Sound (s.leave latticeId ns w) := by
  unfold ServiceWatcher.leave
  split
  · exact h.dropEntry hw
  · exact h.putEntry hw _

theorem Sound.stopWatch (h : Sound s) (latticeId ns : String) :
    Sound (s.stopWatch latticeId ns).1 := by
  unfold ServiceWatcher.stopWatch
  split
  · next w hw => exact (h.leave ns hw).send _
  · exact h

inductive TaskStep (s : ServiceWatcher) : Label → ServiceWatcher → Prop where
  | take {i t m} (ht : s.tasks[i]? = some t) (hp : t.phase = .idle) :
      TaskStep s (.next i (.message m)) (s.setPhase i (.taken m))
  | skip {i t} (ht : s.tasks[i]? = some t) (hp : t.phase = .idle) :
      TaskStep s (.next i .failed) s
  | ended {i t} (ht : s.tasks[i]? = some t) (hp : t.phase = .idle) :
      TaskStep s (.next i .ended) (s.finish i t)
  | handle {i t m} (ht : s.tasks[i]? = some t) (hp : t.phase = .taken m) :
      TaskStep s (.handle i) (s.handleMessage i t m)
  | settle {i t m ok sent} (ht : s.tasks[i]? = some t) (hp : t.phase = .handled m ok sent) :
      TaskStep s (.settle i) (s.setPhase i .idle)
  | cancelled {i t} (ht : s.tasks[i]? = some t) (hc : t.watcher.shutdown ∈ s.cancelled)
      (hp : t.phase ≠ .finished) : TaskStep s (.observeCancel i) (s.finish i t)

theorem next_cases {i : Nat} {item : StreamItem} (h : s.next i item = some u) :
    TaskStep s (.next i item) u := by
  unfold next at h
  split at h
  · next t ht =>
    split at h
    · next hp =>
      obtain rfl := Option.some.inj h
      exact .take ht hp
    · next hp =>
      obtain rfl := Option.some.inj h
      exact .skip ht hp
    · next hp =>
      obtain rfl := Option.some.inj h
      exact .ended ht hp
    · cases h
  · cases h

theorem handle_cases {i : Nat} (h : s.handle i = some u) : TaskStep s (.handle i) u := by
  unfold handle at h
  split at h
  · next t ht =>
    split at h
    · next hp =>
      obtain rfl := Option.some.inj h
      exact .handle ht hp
    · cases h
  · cases h

theorem settle_cases {i : Nat} (h : s.settle i = some u) : TaskStep s (.settle i) u := by
  unfold settle at h
  split at h
  · next t ht =>
    split at h
    · next hp =>
      obtain rfl := Option.some.inj h
      exact .settle ht hp
    · cases h
  · cases h

theorem observeCancel_cases {i : Nat} (h : s.observeCancel i = some u) :
    TaskStep s (.observeCancel i) u := by
  unfold observeCancel at h
  split at h
  · next t ht =>
    split_ifs at h with hc
    split at h
    · next hp =>
      obtain rfl := Option.some.inj h
      exact .cancelled ht hc (by simp [hp])
    · next hp =>
      obtain rfl := Option.some.inj h
      exact .cancelled ht hc (by simp [hp])
    · cases h
  · cases h

theorem handleManifestPublished_cases {w : Watcher} {manifest : Manifest} {cmd : WatcherCommand}
    (h : w.handleManifestPublished manifest = some cmd) :
    ∃ addr labels, manifest.httpAddress = some (addr, labels) ∧
      cmd = .upsertService ⟨manifest.name, w.namespaces, w.latticeId, addr.port, labels⟩ := by
  obtain ⟨⟨addr, labels⟩, haddr, heq⟩ := Option.map_eq_some_iff.mp h
  exact ⟨addr, labels, haddr, heq.symm⟩

theorem handleEvent_cases {w : Watcher} {payload : Payload} {cmd : WatcherCommand}
    (h : w.handleEvent payload = some (some cmd)) :
    (∃ manifest, payload = .event (.manifestPublished manifest) ∧
      w.handleManifestPublished manifest = some cmd) ∨
    ∃ name, payload = .event (.manifestUnpublished name) ∧
      cmd = .removeService name w.namespaces := by
  cases payload with
  | malformed => cases h
  | unknown eventType => cases h
  | event evt =>
    cases evt with
    | manifestPublished manifest => exact .inl ⟨manifest, rfl, Option.some.inj h⟩
    | manifestUnpublished name =>
      have heq := Option.some.inj (Option.some.inj h)
      exact .inr ⟨name, rfl, heq.symm⟩
    | other => cases h

theorem handleMessage_cases (s : ServiceWatcher) (i : Nat) (t : EventTask) (m : Message) :
    (∃ ok, s.handleMessage i t m = s.setPhase i (.handled m ok none)) ∨
      ∃ cmd ok sent, t.watcher.handleEvent m.payload = some (some cmd) ∧
        s.handleMessage i t m =
          (s.send ⟨cmd, .event t.watcher.latticeId m⟩).1.setPhase i (.handled m ok sent) := by
  unfold handleMessage
  split
  · exact .inl ⟨false, rfl⟩
  · exact .inl ⟨true, rfl⟩
  · next cmd hcmd => exact .inr ⟨cmd, _, _, hcmd, rfl⟩

theorem taskStep_watchers {l : Label} (hstep : TaskStep s l u) : u.watchers = s.watchers := by
  cases hstep with
  | take _ _ | skip _ _ | ended _ _ | settle _ _ | cancelled _ _ _ => rfl
  | @handle i t m _ _ =>
    rcases handleMessage_cases s i t m with ⟨ok, heq⟩ | ⟨cmd, ok, sent, -, heq⟩
    · rw [heq]
      rfl
    · rw [heq]
      exact (send_frame s _).1

theorem Sound.taskStep (h : Sound s) {l : Label} (hstep : TaskStep s l u) : Sound u := by
  cases hstep with
  | take _ _ => exact h.setPhase _ _ (by simp)
  | skip _ _ => exact h
  | ended ht _ => exact h.finish ht
  | @handle i t m _ _ =>
    rcases handleMessage_cases s i t m with ⟨ok, heq⟩ | ⟨cmd, ok, sent, -, heq⟩
    · rw [heq]
      exact h.setPhase _ _ (by simp)
    · rw [heq]
      exact (h.send _).setPhase _ _ (by simp)
  | settle _ _ => exact h.setPhase _ _ (by simp)
  | cancelled ht _ _ => exact h.finish ht

theorem reconcileApp_cases (s : ServiceWatcher) (latticeId : String) (app : ModelSummary)
    (manifest : Option Manifest) :
    s.reconcileApp latticeId app manifest = s ∨
      ∃ w m cmd, s.watchers.get? latticeId = some w ∧ app.deployedVersion.isSome ∧
        manifest = some m ∧ w.handleManifestPublished m = some cmd ∧
        s.reconcileApp latticeId app manifest = (s.send ⟨cmd, .reconcile latticeId⟩).1 := by
  unfold reconcileApp
  split
  · next w version m hw hversion =>
    split
    · next cmd hcmd => exact .inr ⟨w, m, cmd, hw, by rw [hversion]; rfl, rfl, hcmd, rfl⟩
    · exact .inl rfl
  · exact .inl rfl

theorem nextApp_cases {j : Nat} {manifest : Option Manifest} (h : s.nextApp j manifest = some u) :
    (∃ latticeId app apps, s.passes[j]? = some ⟨latticeId, app :: apps⟩ ∧
      u = { s.reconcileApp latticeId app manifest with
        passes := s.passes.set j ⟨latticeId, apps⟩ }) ∨
    ∃ latticeId, s.passes[j]? = some ⟨latticeId, []⟩ ∧
      u = { s with passes := s.passes.eraseIdx j } := by
  unfold nextApp at h
  split at h
  · next latticeId app apps hpass =>
    exact .inl ⟨latticeId, app, apps, hpass, (Option.some.inj h).symm⟩
  · next latticeId hpass => exact .inr ⟨latticeId, hpass, (Option.some.inj h).symm⟩
  · cases h

theorem reconcileApp_frame (s : ServiceWatcher) (latticeId : String) (app : ModelSummary)
    (manifest : Option Manifest) :
    (s.reconcileApp latticeId app manifest).watchers = s.watchers ∧
      (s.reconcileApp latticeId app manifest).cancelled = s.cancelled ∧
      (s.reconcileApp latticeId app manifest).tasks = s.tasks := by
  rcases reconcileApp_cases s latticeId app manifest with heq | ⟨-, -, cmd, -, -, -, -, heq⟩
  · rw [heq]
    exact ⟨rfl, rfl, rfl⟩
  · rw [heq]
    exact ⟨(send_frame s _).1, (send_frame s _).2.1, (send_frame s _).2.2.1⟩

theorem nextApp_frame {j : Nat} {manifest : Option Manifest} (h : s.nextApp j manifest = some u) :
    u.watchers = s.watchers ∧ u.cancelled = s.cancelled ∧ u.tasks = s.tasks := by
  rcases nextApp_cases h with ⟨latticeId, app, -, -, rfl⟩ | ⟨-, -, rfl⟩
  · exact reconcileApp_frame s latticeId app manifest
  · exact ⟨rfl, rfl, rfl⟩

theorem recv_eq {q : Sent} (h : s.recv = some (q, u)) :
    s.channel.recv = some (q, u.channel) ∧ u = { s with channel := u.channel } := by
  obtain ⟨⟨q', ch⟩, hch, heq⟩ := Option.map_eq_some_iff.mp h
  obtain ⟨rfl, rfl⟩ := Prod.mk.inj heq
  exact ⟨hch, rfl⟩

theorem recv_frame {q : Sent} (h : s.recv = some (q, u)) :
    u.watchers = s.watchers ∧ u.cancelled = s.cancelled ∧ u.tasks = s.tasks ∧
      u.passes = s.passes := by
  rw [(recv_eq h).2]
  exact ⟨rfl, rfl, rfl, rfl⟩

theorem recv_queue {q : Sent} (h : s.recv = some (q, u)) :
    s.channel.queue = q :: u.channel.queue :=
  (Channel.recv_eq (recv_eq h).1).1

theorem reconcileServices_frame (s : ServiceWatcher) (apps : List ModelSummary)
    (latticeId : String) :
    (s.reconcileServices apps latticeId).watchers = s.watchers ∧
      (s.reconcileServices apps latticeId).cancelled = s.cancelled ∧
      (s.reconcileServices apps latticeId).tasks = s.tasks := by
  unfold reconcileServices
  split <;> exact ⟨rfl, rfl, rfl⟩

inductive StepCase (s : ServiceWatcher) : Label → ServiceWatcher → Prop where
  | watch {client ns latticeId created} (hlock : s.passes.isEmpty = true) :
      StepCase s (.watch client ns latticeId created) (s.watch client ns latticeId created).1
  | stopWatch {latticeId ns} (hlock : s.passes.isEmpty = true) :
      StepCase s (.stopWatch latticeId ns) (s.stopWatch latticeId ns).1
  | task {l u} (hstep : TaskStep s l u) : StepCase s l u
  | rest {l u} (hw : u.watchers = s.watchers) (hc : u.cancelled = s.cancelled)
      (ht : u.tasks = s.tasks) (hwatch : ∀ client ns latticeId b, l ≠ .watch client ns latticeId b)
      (htask : ∀ i item, l ≠ .next i item) : StepCase s l u

theorem step_cases {l : Label} (h : step s l = some u) : StepCase s l u := by
  cases l with
  | watch client ns latticeId created =>
    simp only [step] at h
    split_ifs at h with hlock
    obtain rfl := Option.some.inj h
    exact .watch hlock
  | stopWatch latticeId ns =>
    simp only [step] at h
    split_ifs at h with hlock
    obtain rfl := Option.some.inj h
    exact .stopWatch hlock
  | next i item => exact .task (next_cases h)
  | handle i => exact .task (handle_cases h)
  | settle i => exact .task (settle_cases h)
  | observeCancel i => exact .task (observeCancel_cases h)
  | reconcileServices apps latticeId =>
    obtain rfl := Option.some.inj h
    obtain ⟨hw, hc, ht⟩ := reconcileServices_frame s apps latticeId
    exact .rest hw hc ht (by simp) (by simp)
  | nextApp j manifest =>
    obtain ⟨hw, hc, ht⟩ := nextApp_frame h
    exact .rest hw hc ht (by simp) (by simp)
  | recv =>
    obtain ⟨⟨q, u'⟩, hrecv, rfl⟩ := Option.map_eq_some_iff.mp h
    obtain ⟨hw, hc, ht, -⟩ := recv_frame hrecv
    exact .rest hw hc ht (by simp) (by simp)
  | dropReceiver =>
    obtain rfl := Option.some.inj h
    exact .rest rfl rfl rfl (by simp) (by simp)

theorem Sound.step (h : Sound s) {l : Label} (hstep : ServiceWatcher.step s l = some u) :
    Sound u := by
  cases step_cases hstep with
  | watch _ => exact h.watch _ _ _ _
  | stopWatch _ => exact h.stopWatch _ _
  | task ht => exact h.taskStep ht
  | rest hw hc ht _ _ => exact h.congr hw hc ht

section Entries

variable {latticeId ns k : String} {w : Watcher}

theorem watch_entry {client : NatsClient} {created : Bool}
    (h : (s.watch client ns k created).1.watchers.get? latticeId = some w) :
    s.watchers.get? latticeId = some w ∨
      (∃ old, s.watchers.get? latticeId = some old ∧
        w = { old with namespaces := insert ns old.namespaces }) ∨
      (k = latticeId ∧ s.watchers.get? latticeId = none ∧
        (s.spawn client ns latticeId).watchers.get? latticeId = some w) := by
  unfold ServiceWatcher.watch at h
  split at h
  · next old hold =>
    rw [Dict.get?_put] at h
    split at h
    · next heq =>
      rw [heq]
      exact .inr (.inl ⟨old, hold, (Option.some.inj h).symm⟩)
    · exact .inl h
  · next hnone =>
    cases created with
    | false => exact .inl h
    | true =>
      by_cases heq : latticeId = k
      · subst heq
        exact .inr (.inr ⟨rfl, hnone, h⟩)
      · rw [if_pos rfl, ServiceWatcher.spawn, Dict.get?_put, if_neg heq] at h
        exact .inl h

theorem stopWatch_entry (h : (s.stopWatch k ns).1.watchers.get? latticeId = some w) :
    s.watchers.get? latticeId = some w ∨
      ∃ old, s.watchers.get? latticeId = some old ∧ old.namespaces.erase ns ≠ ∅ ∧
        w = { old with namespaces := old.namespaces.erase ns } := by
  unfold ServiceWatcher.stopWatch at h
  split at h
  · next old hold =>
    rw [(send_frame _ _).1, ServiceWatcher.leave] at h
    split at h
    · rw [Dict.get?_remove] at h
      split at h
      · cases h
      · exact .inl h
    · next hlast =>
      rw [Dict.get?_put] at h
      split at h
      · next heq =>
        rw [heq]
        exact .inr ⟨old, hold, hlast, (Option.some.inj h).symm⟩
      · exact .inl h
  · exact .inl h

theorem step_entry {l : Label} (hstep : step s l = some u)
    (h : u.watchers.get? latticeId = some w) :
    s.watchers.get? latticeId = some w ∨
      (∃ old namespaces, s.watchers.get? latticeId = some old ∧ namespaces.Nonempty ∧
        w = { old with namespaces := namespaces }) ∨
      (∃ client ns created, l = .watch client ns latticeId created ∧
        s.watchers.get? latticeId = none ∧
          (s.spawn client ns latticeId).watchers.get? latticeId = some w) := by
  cases step_cases hstep with
  | @watch client ns k created _ =>
    rcases watch_entry h with hkept | ⟨old, hold, rfl⟩ | ⟨rfl, hnone, hnew⟩
    · exact .inl hkept
    · exact .inr (.inl ⟨old, _, hold, Finset.insert_nonempty _ _, rfl⟩)
    · exact .inr (.inr ⟨client, ns, created, rfl, hnone, hnew⟩)
  | stopWatch _ =>
    rcases stopWatch_entry h with hkept | ⟨old, hold, hne, rfl⟩
    · exact .inl hkept
    · exact .inr (.inl ⟨old, _, hold, Finset.nonempty_iff_ne_empty.mpr hne, rfl⟩)
  | task ht => exact .inl ((taskStep_watchers ht) ▸ h)
  | rest hsame _ _ _ _ => exact .inl (hsame ▸ h)

end Entries

theorem TaskStep.task_watcher {l : Label} (h : TaskStep s l u) {k : Nat} {t : EventTask}
    (ht : u.tasks[k]? = some t) : ∃ old, s.tasks[k]? = some old ∧ t.watcher = old.watcher := by
  have hphase : ∀ (base : ServiceWatcher) (i : Nat) (phase : Phase), base.tasks = s.tasks →
      (base.setPhase i phase).tasks[k]? = some t →
        ∃ old, s.tasks[k]? = some old ∧ t.watcher = old.watcher := by
    intro base i phase hbase hin
    obtain ⟨old, hold, hwatcher, -, -⟩ := task_setPhase hin
    rw [hbase] at hold
    exact ⟨old, hold, hwatcher⟩
  cases h with
  | take _ _ | ended _ _ | settle _ _ | cancelled _ _ _ => exact hphase s _ _ rfl ht
  | skip _ _ => exact ⟨t, ht, rfl⟩
  | @handle i t' m _ _ =>
    rcases handleMessage_cases s i t' m with ⟨ok, heq⟩ | ⟨cmd, ok, sent, -, heq⟩
    · rw [heq] at ht
      exact hphase s _ _ rfl ht
    · rw [heq] at ht
      exact hphase _ _ _ (send_frame s _).2.2.1 ht

end ServiceWatcher
end WadmOperator

import WadmOperator.WatcherTasks

/-!
# The namespaces of a command

A reconcile pass reads the namespaces of the entry, an event task those of its own
clone, which never change. The two agree exactly while the registered namespaces
are the one that the task was started for.
-/

namespace WadmOperator
namespace ServiceWatcher

open Transition

variable {s u : ServiceWatcher}

theorem registered_congr (h : u.watchers = s.watchers) (latticeId : String) :
    u.registered latticeId = s.registered latticeId := by
  simp only [registered, h]

theorem registered_watch (s : ServiceWatcher) (client : NatsClient) (ns latticeId k : String) :
    (s.watch client ns latticeId true).1.registered k =
      if k = latticeId then insert ns (s.registered latticeId) else s.registered k := by
  cases hw : s.watchers.get? latticeId with
  | some w =>
    by_cases hk : k = latticeId
    · simp [watch, registered, hk, hw]
    · simp [watch, registered, hk, hw, Dict.get?_put]
  | none =>
    by_cases hk : k = latticeId
    · simp [watch, registered, hk, hw, spawn]
    · simp [watch, registered, hk, hw, spawn, Dict.get?_put]

theorem registered_leave {latticeId : String} {w : Watcher}
    (hw : s.watchers.get? latticeId = some w) (ns k : String) :
    (s.leave latticeId ns w).registered k =
      if k = latticeId then (s.registered latticeId).erase ns else s.registered k := by
  unfold leave
  split
  · next hlast =>
    by_cases hk : k = latticeId
    · simp [registered, hk, hw, hlast]
    · simp [registered, hk, Dict.get?_remove]
  · by_cases hk : k = latticeId
    · simp [registered, hk, hw]
    · simp [registered, hk, Dict.get?_put]

theorem registered_stopWatch (s : ServiceWatcher) (latticeId ns k : String) :
    (s.stopWatch latticeId ns).1.registered k =
      if k = latticeId then (s.registered latticeId).erase ns else s.registered k := by
  unfold stopWatch
  split
  · next w hw => rw [registered_congr (send_frame _ _).1, registered_leave hw]
  · next hnone =>
    by_cases hk : k = latticeId
    · simp [hk, registered, hnone]
    · simp [hk]

/-- Whatever an event task or a pass sends in this step names the registered
namespaces of its lattice. -/
def NamespacesAgree (s : ServiceWatcher) (_ : Label) (u : ServiceWatcher) : Prop :=
  ∀ q, u.channel.queue = s.channel.queue ++ [q] →
    (∀ latticeId, q.origin ≠ .stopWatch latticeId) →
      q.cmd.namespaces = s.registered q.origin.latticeId

/-- When a task handles an event that calls for a change, its lattice is registered
for the namespace of the task's own start and for no other. -/
def RegisteredAlone (s : ServiceWatcher) (l : Label) (_ : ServiceWatcher) : Prop :=
  ∀ i t m, l = .handle i → s.tasks[i]? = some t → t.phase = .taken m →
    m.payload.callsForChange = true → s.channel.closed = false →
      s.registered t.watcher.latticeId = {t.startedFor}

theorem handleManifestPublished_namespaces {w : Watcher} {manifest : Manifest}
    {cmd : WatcherCommand} (h : w.handleManifestPublished manifest = some cmd) :
    cmd.namespaces = w.namespaces := by
  obtain ⟨addr, labels, -, rfl⟩ := handleManifestPublished_cases h
  rfl

theorem handleEvent_command {w : Watcher} {payload : Payload} {cmd : WatcherCommand}
    (h : w.handleEvent payload = some (some cmd)) :
    payload.callsForChange = true ∧ cmd.namespaces = w.namespaces := by
  rcases handleEvent_cases h with ⟨manifest, rfl, hcmd⟩ | ⟨name, rfl, rfl⟩
  · refine ⟨?_, handleManifestPublished_namespaces hcmd⟩
    obtain ⟨addr, labels, haddr, -⟩ := handleManifestPublished_cases hcmd
    simp [Payload.callsForChange, haddr]
  · exact ⟨rfl, rfl⟩

theorem handleEvent_of_callsForChange {payload : Payload} (w : Watcher)
    (h : payload.callsForChange = true) : ∃ cmd, w.handleEvent payload = some (some cmd) := by
  cases payload with
  | malformed => cases h
  | unknown eventType => cases h
  | event evt =>
    cases evt with
    | manifestPublished manifest =>
      obtain ⟨addr, haddr⟩ := Option.isSome_iff_exists.mp h
      exact ⟨_, by simp [Watcher.handleEvent, Watcher.handleManifestPublished, haddr]; rfl⟩
    | manifestUnpublished name => exact ⟨_, rfl⟩
    | other => cases h

theorem send_queue (s : ServiceWatcher) (q : Sent) :
    (s.send q).1.channel.queue =
      if s.channel.closed then s.channel.queue else s.channel.queue ++ [q] := by
  unfold send Channel.send
  by_cases hc : s.channel.closed <;> simp [hc]

theorem send_channel (s : ServiceWatcher) (q : Sent) :
    (s.send q).1.channel = s.channel ∨
      (s.send q).1.channel = { s.channel with queue := s.channel.queue ++ [q] } := by
  unfold send Channel.send
  by_cases hc : s.channel.closed <;> simp [hc]

theorem handleMessage_channel {i : Nat} {t : EventTask} {m : Message} {cmd : WatcherCommand}
    (hcmd : t.watcher.handleEvent m.payload = some (some cmd)) :
    (s.handleMessage i t m).channel =
      (s.send ⟨cmd, .event t.watcher.latticeId m⟩).1.channel := by
  simp only [handleMessage, hcmd, setPhase]

theorem handleMessage_sends {i : Nat} {t : EventTask} {m : Message} {cmd : WatcherCommand}
    (hcmd : t.watcher.handleEvent m.payload = some (some cmd)) (hopen : s.channel.closed = false) :
    (s.handleMessage i t m).channel = { s.channel with
      queue := s.channel.queue ++ [⟨cmd, .event t.watcher.latticeId m⟩] } := by
  rw [handleMessage_channel hcmd]
  simp [send, Channel.send, hopen]

theorem handleMessage_quiet {i : Nat} {t : EventTask} {m : Message}
    (hnone : ∀ cmd, t.watcher.handleEvent m.payload ≠ some (some cmd)) :
    (s.handleMessage i t m).channel = s.channel := by
  rcases handleMessage_cases s i t m with ⟨ok, heq⟩ | ⟨cmd, ok, sent, hcmd, -⟩
  · rw [heq]
    rfl
  · exact absurd hcmd (hnone cmd)

theorem watch_channel (s : ServiceWatcher) (client : NatsClient) (ns latticeId : String)
    (created : Bool) : (s.watch client ns latticeId created).1.channel = s.channel := by
  unfold watch
  split
  · rfl
  · split <;> rfl

theorem leave_channel (s : ServiceWatcher) (latticeId ns : String) (w : Watcher) :
    (s.leave latticeId ns w).channel = s.channel := by
  unfold leave
  split <;> rfl

theorem stopWatch_channel (s : ServiceWatcher) (latticeId ns : String) :
    (s.stopWatch latticeId ns).1.channel = s.channel ∧
        ((s.stopWatch latticeId ns).2 = true → s.watchers.get? latticeId = none) ∨
      (s.stopWatch latticeId ns).1.channel = { s.channel with
        queue := s.channel.queue ++ [⟨.removeServices {ns}, .stopWatch latticeId⟩] } ∧
        (s.stopWatch latticeId ns).2 = true := by
  unfold stopWatch
  split
  · next w hw =>
    have hleave := leave_channel s latticeId ns w
    unfold send Channel.send
    rw [hleave]
    by_cases hc : s.channel.closed <;> simp [hc, hleave]
  · next hnone => exact .inl ⟨rfl, fun _ => hnone⟩

inductive Sends (s : ServiceWatcher) : Label → Sent → Prop where
  | event {i t m cmd} (ht : s.tasks[i]? = some t) (hp : t.phase = .taken m)
      (hcmd : t.watcher.handleEvent m.payload = some (some cmd)) :
      Sends s (.handle i) ⟨cmd, .event t.watcher.latticeId m⟩
  | reconcile {j manifest latticeId w m cmd} (hw : s.watchers.get? latticeId = some w)
      (hcmd : w.handleManifestPublished m = some cmd) :
      Sends s (.nextApp j manifest) ⟨cmd, .reconcile latticeId⟩
  | stopWatch {latticeId ns w} (hw : s.watchers.get? latticeId = some w) :
      Sends s (.stopWatch latticeId ns) ⟨.removeServices {ns}, .stopWatch latticeId⟩

def SendsAtMost (s : ServiceWatcher) (l : Label) (u : ServiceWatcher) : Prop :=
  u.channel.queue.length ≤ s.channel.queue.length ∨
    ∃ q, Sends s l q ∧ s.channel.closed = false ∧ u.channel.queue = s.channel.queue ++ [q]

theorem sendsAtMost_same {l : Label} (h : u.channel = s.channel) : SendsAtMost s l u := by
  left
  rw [h]

theorem sendsAtMost_send {l : Label} {q : Sent} (hsends : Sends s l q)
    (hu : u.channel = (s.send q).1.channel) : SendsAtMost s l u := by
  have hqueue := send_queue s q
  rw [← hu] at hqueue
  cases hc : s.channel.closed with
  | true =>
    rw [hc, if_pos rfl] at hqueue
    exact .inl (congrArg List.length hqueue).le
  | false =>
    rw [hc, if_neg (by simp)] at hqueue
    exact .inr ⟨q, hsends, hc, hqueue⟩

theorem sendsAtMost_handle {i : Nat} {t : EventTask} {m : Message} (ht : s.tasks[i]? = some t)
    (hp : t.phase = .taken m) : SendsAtMost s (.handle i) (s.handleMessage i t m) := by
  rcases handleMessage_cases s i t m with ⟨ok, heq⟩ | ⟨cmd, ok, sent, hcmd, -⟩
  · rw [heq]
    exact sendsAtMost_same rfl
  · exact sendsAtMost_send (.event ht hp hcmd) (handleMessage_channel hcmd)

theorem sendsAtMost_stopWatch (s : ServiceWatcher) (latticeId ns : String) :
    SendsAtMost s (.stopWatch latticeId ns) (s.stopWatch latticeId ns).1 := by
  cases hw : s.watchers.get? latticeId with
  | some w =>
    have hleave := leave_channel s latticeId ns w
    refine sendsAtMost_send (.stopWatch hw) ?_
    simp only [stopWatch, hw, send, Channel.send, hleave]
    split <;> simp [hleave]
  | none => exact sendsAtMost_same (by simp only [stopWatch, hw])

theorem sendsAtMost_nextApp {j : Nat} {manifest : Option Manifest}
    (h : s.nextApp j manifest = some u) : SendsAtMost s (.nextApp j manifest) u := by
  rcases nextApp_cases h with ⟨latticeId, app, apps, -, rfl⟩ | ⟨-, -, rfl⟩
  · rcases reconcileApp_cases s latticeId app manifest with
      heq | ⟨w, m, cmd, hw, -, -, hcmd, heq⟩
    · have hchannel := congrArg channel heq
      exact sendsAtMost_same hchannel
    · have hchannel := congrArg channel heq
      exact sendsAtMost_send (.reconcile hw hcmd) hchannel
  · exact sendsAtMost_same rfl

theorem step_sends {l : Label} (hstep : step s l = some u) : SendsAtMost s l u := by
  cases l with
  | watch client ns latticeId created =>
    simp only [step] at hstep
    split_ifs at hstep
    obtain rfl := Option.some.inj hstep
    exact sendsAtMost_same (watch_channel s client ns latticeId created)
  | stopWatch latticeId ns =>
    simp only [step] at hstep
    split_ifs at hstep
    obtain rfl := Option.some.inj hstep
    exact sendsAtMost_stopWatch s latticeId ns
  | next i item =>
    refine sendsAtMost_same ?_
    cases next_cases hstep <;> rfl
  | handle i =>
    cases handle_cases hstep with
    | handle ht hp => exact sendsAtMost_handle ht hp
  | settle i =>
    refine sendsAtMost_same ?_
    cases settle_cases hstep
    rfl
  | observeCancel i =>
    refine sendsAtMost_same ?_
    cases observeCancel_cases hstep
    rfl
  | reconcileServices apps latticeId =>
    obtain rfl := Option.some.inj hstep
    refine sendsAtMost_same ?_
    unfold reconcileServices
    split <;> rfl
  | nextApp j manifest => exact sendsAtMost_nextApp hstep
  | recv =>
    obtain ⟨⟨q, u'⟩, hrecv, rfl⟩ := Option.map_eq_some_iff.mp hstep
    left
    rw [recv_queue hrecv]
    exact Nat.le_succ _
  | dropReceiver =>
    obtain rfl := Option.some.inj hstep
    exact .inl (Nat.zero_le _)

theorem step_sent {l : Label} (hstep : step s l = some u) {q : Sent}
    (hq : u.channel.queue = s.channel.queue ++ [q]) : Sends s l q ∧ s.channel.closed = false := by
  rcases step_sends hstep with hle | ⟨q', hsends, hopen, hq'⟩
  · rw [hq, List.length_append, List.length_singleton] at hle
    omega
  · rw [hq'] at hq
    obtain rfl := List.singleton_inj.mp (List.append_cancel_left hq)
    exact ⟨hsends, hopen⟩

theorem namespacesAgree_iff (h : s.Sound) {l : Label} (hstep : step s l = some u) :
    NamespacesAgree s l u ↔ RegisteredAlone s l u := by
  constructor
  · intro hagree i t m hl ht hp hcalls hopen
    subst hl
    obtain ⟨cmd, hcmd⟩ := handleEvent_of_callsForChange t.watcher hcalls
    cases handle_cases hstep with
    | @handle _ t' m' ht' hp' =>
      obtain rfl := Option.some.inj (ht.symm.trans ht')
      obtain rfl := Phase.taken.inj (hp.symm.trans hp')
      have hsent := hagree _ (congrArg Channel.queue (handleMessage_sends hcmd hopen)) (by simp)
      rw [← h.startedFor i t ht, ← (handleEvent_command hcmd).2]
      exact hsent.symm
  · intro halone q hq horigin
    obtain ⟨hsends, hopen⟩ := step_sent hstep hq
    cases hsends with
    | @event i t m cmd ht hp hcmd =>
      obtain ⟨hcalls, hns⟩ := handleEvent_command hcmd
      have hregistered := halone i t m rfl ht hp hcalls hopen
      rw [hns, h.startedFor i t ht]
      exact hregistered.symm
    -- the pass reads the entry itself, so it names what is registered
    | @reconcile j manifest latticeId w m cmd hw hcmd =>
      simp only [handleManifestPublished_namespaces hcmd, registered, Origin.latticeId, hw]
    | @stopWatch latticeId ns w hw => exact absurd rfl (horigin latticeId)

/-- Over all runs from a new service watcher: what the event tasks and the passes send
names the registered namespaces throughout exactly when every task handles its events
while only the namespace of its start is registered. -/
theorem run_namespacesAgree_iff (ls : List Label) :
    Along step NamespacesAgree {} ls ↔ Along step RegisteredAlone {} ls := by
  refine along_congr (I := Sound) ?_ sound_initial
  intro s l u hs hstep
  exact ⟨namespacesAgree_iff hs hstep, hs.step hstep⟩

/-- A second namespace joins the lattice, and an unpublication is handled: the command
names the first namespace only. -/
theorem second_namespace_missed : ¬∀ ls, Along step NamespacesAgree {} ls := by
  intro h
  obtain ⟨-, h₁⟩ := h [.watch .sample "first" "lattice" true,
    .watch .sample "second" "lattice" true,
    .next 0 (.message ⟨0, .event (.manifestUnpublished "app")⟩), .handle 0] _ rfl
  obtain ⟨-, h₂⟩ := h₁ _ rfl
  obtain ⟨-, h₃⟩ := h₂ _ rfl
  obtain ⟨hagree, -⟩ := h₃ _ rfl
  have hns := hagree ⟨.removeService "app" {"first"}, _⟩ rfl (by simp)
  exact absurd hns (by decide)

end ServiceWatcher
end WadmOperator

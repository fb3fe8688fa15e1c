import WadmOperator.RegisteredNamespaces

/-!
# The map of watchers as a set of pairs

What callers see of the map is the set of lattices with their namespaces: `watch` adds
a pair and `stop_watch` takes it out, each when it returns `Ok`. While the receiver
lives, `stop_watch` always does.
-/

namespace WadmOperator

inductive Call where
  | watch (latticeId ns : String)
  | stopWatch (latticeId ns : String)
  deriving DecidableEq

def Call.pair : Call → String × String
  | watch latticeId ns => (latticeId, ns)
  | stopWatch latticeId ns => (latticeId, ns)

def lastOn (latticeId ns : String) (calls : List Call) : Option Call :=
  (calls.filter fun c => c.pair = (latticeId, ns)).getLast?

namespace ServiceWatcher

open Transition

def okCall (s : ServiceWatcher) : Label → Option Call
  | .watch client ns latticeId created =>
    if (s.watch client ns latticeId created).2 then some (.watch latticeId ns) else none
  | .stopWatch latticeId ns =>
    if (s.stopWatch latticeId ns).2 then some (.stopWatch latticeId ns) else none
  | _ => none

def okCalls (s : ServiceWatcher) : List Label → List Call
  | [] => []
  | l :: ls =>
    match step s l with
    | some u => (s.okCall l).toList ++ okCalls u ls
    | none => []

variable {s u : ServiceWatcher} {l : Label} {latticeId ns : String}

theorem watch_failed {client : NatsClient} {created : Bool}
    (h : (s.watch client ns latticeId created).2 = false) :
    (s.watch client ns latticeId created).1 = s := by
  unfold watch at h ⊢
  split
  · next w hw =>
    rw [hw] at h
    cases h
  · next hnone =>
    rw [hnone] at h
    cases created with
    | true => cases h
    | false => rfl

theorem watch_ok {client : NatsClient} {created : Bool}
    (h : (s.watch client ns latticeId created).2 = true) :
    s.watch client ns latticeId created = s.watch client ns latticeId true := by
  unfold watch at h ⊢
  split
  · rfl
  · next hnone =>
    rw [hnone] at h
    cases created with
    | true => rfl
    | false => cases h

theorem watch_created (client : NatsClient) (ns latticeId : String) (s : ServiceWatcher) :
    (s.watch client ns latticeId true).2 = true := by
  unfold watch
  split <;> rfl

theorem stopWatch_ok (hopen : s.channel.closed = false) : (s.stopWatch latticeId ns).2 = true := by
  unfold stopWatch
  split
  · next w hw => simp [send, Channel.send, leave_channel, hopen]
  · rfl

theorem send_closed (s : ServiceWatcher) (q : Sent) :
    (s.send q).1.channel.closed = s.channel.closed := by
  rcases send_channel s q with hsame | hsent
  · rw [hsame]
  · rw [hsent]

theorem step_closed (hstep : step s l = some u) (hl : l ≠ .dropReceiver) :
    u.channel.closed = s.channel.closed := by
  cases l with
  | watch client ns latticeId created =>
    simp only [step] at hstep
    split_ifs at hstep
    obtain rfl := Option.some.inj hstep
    rw [watch_channel]
  | stopWatch latticeId ns =>
    simp only [step] at hstep
    split_ifs at hstep
    obtain rfl := Option.some.inj hstep
    rcases stopWatch_channel s latticeId ns with ⟨hsame, -⟩ | ⟨hsent, -⟩
    · rw [hsame]
    · rw [hsent]
  | next i item => cases next_cases hstep <;> rfl
  | handle i =>
    cases handle_cases hstep with
    | @handle _ t m _ _ =>
      rcases handleMessage_cases s i t m with ⟨ok, heq⟩ | ⟨cmd, ok, sent, -, heq⟩
      · rw [heq]
        rfl
      · rw [heq]
        exact send_closed s _
  | settle i =>
    cases settle_cases hstep
    rfl
  | observeCancel i =>
    cases observeCancel_cases hstep
    rfl
  | reconcileServices apps latticeId =>
    obtain rfl := Option.some.inj hstep
    unfold reconcileServices
    split <;> rfl
  | nextApp j manifest =>
    rcases nextApp_cases hstep with ⟨latticeId, app, apps, -, rfl⟩ | ⟨-, -, rfl⟩
    · rcases reconcileApp_cases s latticeId app manifest with heq | ⟨-, -, cmd, -, -, -, -, heq⟩
      · exact congrArg (fun s => s.channel.closed) heq
      · exact (congrArg (fun s => s.channel.closed) heq).trans (send_closed s _)
    · rfl
  | recv =>
    obtain ⟨⟨q, u'⟩, hrecv, rfl⟩ := Option.map_eq_some_iff.mp hstep
    exact (Channel.recv_eq (recv_eq hrecv).1).2
  | dropReceiver => exact absurd rfl hl

theorem step_watchers (hstep : step s l = some u)
    (hwatch : ∀ client ns k created, l ≠ .watch client ns k created)
    (hstop : ∀ k ns, l ≠ .stopWatch k ns) : u.watchers = s.watchers := by
  cases step_cases hstep with
  | @watch client ns k created _ => exact absurd rfl (hwatch client ns k created)
  | @stopWatch k ns _ => exact absurd rfl (hstop k ns)
  | task ht => exact taskStep_watchers ht
  | rest hw _ _ _ _ => exact hw

theorem registered_step (hopen : s.channel.closed = false) (hstep : step s l = some u) :
    ns ∈ u.registered latticeId ↔ s.okCall l = some (.watch latticeId ns) ∨
      ns ∈ s.registered latticeId ∧ s.okCall l ≠ some (.stopWatch latticeId ns) := by
  have hsame : s.okCall l = none → u.watchers = s.watchers →
      (ns ∈ u.registered latticeId ↔ s.okCall l = some (.watch latticeId ns) ∨
        ns ∈ s.registered latticeId ∧ s.okCall l ≠ some (.stopWatch latticeId ns)) := by
    intro hcall hw
    rw [registered_congr hw, hcall]
    simp
  cases l with
  | watch client ns' k created =>
    simp only [step] at hstep
    split_ifs at hstep
    obtain rfl := Option.some.inj hstep
    cases hok : (s.watch client ns' k created).2 with
    | false => exact hsame (by simp [okCall, hok]) (by rw [watch_failed hok])
    | true =>
      rw [watch_ok hok, registered_watch]
      simp only [okCall, hok, if_true, Option.some.injEq, Call.watch.injEq, reduceCtorEq, ne_eq,
        not_false_eq_true, and_true]
      by_cases hk : latticeId = k
      · simp [hk, eq_comm]
      · simp [hk, Ne.symm hk]
  | stopWatch k ns' =>
    simp only [step] at hstep
    split_ifs at hstep
    obtain rfl := Option.some.inj hstep
    rw [registered_stopWatch]
    simp only [okCall, stopWatch_ok hopen, if_true, Option.some.injEq, Call.stopWatch.injEq,
      reduceCtorEq, false_or, ne_eq]
    by_cases hk : latticeId = k
    · simp [hk, eq_comm, and_comm]
    · simp [hk, Ne.symm hk]
  | _ => exact hsame rfl (step_watchers hstep (by simp) (by simp))

theorem run_open {ls : List Label} (hrun : Run step s ls u) (hls : .dropReceiver ∉ ls)
    (hopen : s.channel.closed = false) : u.channel.closed = false := by
  induction hrun with
  | nil => exact hopen
  | cons hstep _ ih =>
    rw [List.mem_cons, not_or] at hls
    exact ih hls.2 ((step_closed hstep (Ne.symm hls.1)).trans hopen)

theorem registered_run {ls : List Label} (hrun : Run step s ls u) (hls : .dropReceiver ∉ ls)
    (hopen : s.channel.closed = false) : ns ∈ u.registered latticeId ↔
      Channel.Pending (· = .watch latticeId ns) (· = .stopWatch latticeId ns)
        (ns ∈ s.registered latticeId) (s.okCalls ls) := by
  induction hrun with
  | nil => exact Iff.rfl
  | @cons s v t l ls hstep hrest ih =>
    rw [List.mem_cons, not_or] at hls
    rw [ih hls.2 ((step_closed hstep (Ne.symm hls.1)).trans hopen),
      Channel.pending_congr (registered_step hopen hstep)]
    simp only [okCalls, hstep]
    cases s.okCall l with
    | none => simp
    | some c => simp [Channel.Pending]

theorem pending_iff_last (now : Prop) (calls : List Call) :
    Channel.Pending (· = .watch latticeId ns) (· = .stopWatch latticeId ns) now calls ↔
      match lastOn latticeId ns calls with
      | some c => c = .watch latticeId ns
      | none => now := by
  induction calls using List.reverseRecOn with
  | nil => exact Iff.rfl
  | append_singleton calls c ih =>
    rw [Channel.pending_append, ih]
    simp only [lastOn, List.filter_append, List.filter_cons, List.filter_nil]
    by_cases hpair : c.pair = (latticeId, ns)
    · cases c with
      | watch k n =>
        obtain ⟨rfl, rfl⟩ := Prod.mk.inj hpair
        simp [Call.pair]
      | stopWatch k n =>
        obtain ⟨rfl, rfl⟩ := Prod.mk.inj hpair
        simp [Call.pair]
    · have hother : c ≠ .watch latticeId ns ∧ c ≠ .stopWatch latticeId ns := by
        constructor <;>
        · intro heq
          rw [heq] at hpair
          exact hpair rfl
      simp [hpair, hother]

def EntriesNonempty (s : ServiceWatcher) : Prop :=
  ∀ latticeId w, s.watchers.get? latticeId = some w → w.namespaces.Nonempty

/-- What one step does to the map: a failed `watch` changes nothing, a watcher and its
task are made only where there was no entry, and `stop_watch` sends one removal, for its
own namespace, just where there was one. -/
structure CallKept (s : ServiceWatcher) (l : Label) (u : ServiceWatcher) : Prop where
  failed : ∀ client ns latticeId created, l = .watch client ns latticeId created →
    (s.watch client ns latticeId created).2 = false → u = s
  created : u.tasks.length = s.tasks.length ∨ ∃ client ns latticeId,
    l = .watch client ns latticeId true ∧ s.watchers.get? latticeId = none ∧
      u = s.spawn client ns latticeId
  same : ∀ latticeId w w', s.watchers.get? latticeId = some w →
    u.watchers.get? latticeId = some w' → w'.shutdown = w.shutdown
  removal : ∀ latticeId ns, l = .stopWatch latticeId ns → u.channel.queue = s.channel.queue ++
    if (s.watchers.get? latticeId).isSome then [⟨.removeServices {ns}, .stopWatch latticeId⟩] else []

theorem entriesNonempty_step (h : s.EntriesNonempty) (hstep : step s l = some u) :
    u.EntriesNonempty := by
  intro latticeId w hw
  rcases step_entry hstep hw with
    hkept | ⟨old, namespaces, -, hne, rfl⟩ | ⟨client, ns, -, -, -, hnew⟩
  · exact h latticeId w hkept
  · exact hne
  · rw [spawn, Dict.get?_put_self] at hnew
    rw [← Option.some.inj hnew]
    exact Finset.singleton_nonempty ns

theorem taskStep_length (h : TaskStep s l u) : u.tasks.length = s.tasks.length := by
  have hphase : ∀ (base : ServiceWatcher) i phase, base.tasks = s.tasks →
      (base.setPhase i phase).tasks.length = s.tasks.length := by
    intro base i phase hbase
    simp [setPhase, hbase]
  cases h with
  | take _ _ | ended _ _ | settle _ _ | cancelled _ _ _ => exact hphase s _ _ rfl
  | skip _ _ => rfl
  | @handle i t m _ _ =>
    rcases handleMessage_cases s i t m with ⟨ok, heq⟩ | ⟨cmd, ok, sent, -, heq⟩
    · rw [heq]
      exact hphase s _ _ rfl
    · rw [heq]
      exact hphase _ _ _ (send_frame s _).2.2.1

theorem step_created (hstep : step s l = some u) :
    u.tasks.length = s.tasks.length ∨ ∃ client ns latticeId, l = .watch client ns latticeId true ∧
      s.watchers.get? latticeId = none ∧ u = s.spawn client ns latticeId := by
  cases step_cases hstep with
  | @watch client ns k created _ =>
    unfold ServiceWatcher.watch
    split
    · exact .inl rfl
    · next hnone =>
      cases created with
      | true => exact .inr ⟨client, ns, k, rfl, hnone, rfl⟩
      | false => exact .inl rfl
  | @stopWatch k ns _ =>
    left
    unfold ServiceWatcher.stopWatch
    split
    · rw [(send_frame _ _).2.2.1, leave]
      split <;> rfl
    · rfl
  | task ht => exact .inl (taskStep_length ht)
  | rest _ _ ht _ _ => exact .inl (congrArg List.length ht)

theorem step_sameWatcher (hstep : step s l = some u) {w w' : Watcher}
    (hw : s.watchers.get? latticeId = some w) (hw' : u.watchers.get? latticeId = some w') :
    w'.shutdown = w.shutdown := by
  rcases step_entry hstep hw' with hkept | ⟨old, namespaces, hold, -, rfl⟩ | ⟨-, -, -, -, hnone, -⟩
  · rw [Option.some.inj (hw.symm.trans hkept)]
  · rw [Option.some.inj (hw.symm.trans hold)]
  · rw [hw] at hnone
    cases hnone

theorem stopWatch_queue (hopen : s.channel.closed = false) (latticeId ns : String) :
    (s.stopWatch latticeId ns).1.channel.queue = s.channel.queue ++
      if (s.watchers.get? latticeId).isSome then [⟨.removeServices {ns}, .stopWatch latticeId⟩]
      else [] := by
  cases hw : s.watchers.get? latticeId with
  | some w => simp [stopWatch, hw, send, Channel.send, leave_channel, hopen]
  | none => simp [stopWatch, hw]

theorem callKept_step (hopen : s.channel.closed = false) (hstep : step s l = some u) :
    CallKept s l u where
  failed client ns latticeId created hl hfailed := by
    subst hl
    simp only [step] at hstep
    split_ifs at hstep
    obtain rfl := Option.some.inj hstep
    exact watch_failed hfailed
  created := step_created hstep
  same _ _ _ hw hw' := step_sameWatcher hstep hw hw'
  removal latticeId ns hl := by
    subst hl
    simp only [step] at hstep
    split_ifs at hstep
    obtain rfl := Option.some.inj hstep
    exact stopWatch_queue hopen latticeId ns

theorem running_unique (h : s.Sound) {i j : Nat} {t t' : EventTask} (ht : s.tasks[i]? = some t)
    (ht' : s.tasks[j]? = some t') (hi : i ∉ s.cancelled) (hj : j ∉ s.cancelled)
    (hsame : t.watcher.latticeId = t'.watcher.latticeId) : i = j := by
  obtain ⟨w, hw, hwi⟩ := h.covered i t ht hi
  obtain ⟨w', hw', hwj⟩ := h.covered j t' ht' hj
  rw [hsame, hw'] at hw
  obtain rfl := Option.some.inj hw
  rw [← hwi, hwj]

/-- Over all runs in which the receiver lives: the map holds just the pairs whose last
successful call was `watch`, no entry is empty, no two running tasks serve one lattice, and
every further step keeps the contract of the calls. -/
theorem run_registeredPairs {ls : List Label} (hrun : Run step {} ls s)
    (hls : .dropReceiver ∉ ls) :
    (∀ latticeId ns, ns ∈ s.registered latticeId ↔
      lastOn latticeId ns (okCalls {} ls) = some (.watch latticeId ns)) ∧
    s.EntriesNonempty ∧
    (∀ (i j : Nat) t t', s.tasks[i]? = some t → s.tasks[j]? = some t' → i ∉ s.cancelled →
      j ∉ s.cancelled → t.watcher.latticeId = t'.watcher.latticeId → i = j) ∧
    ∀ l u, step s l = some u → CallKept s l u := by
  have hopen := run_open hrun hls rfl
  have hsound : s.Sound := hrun.invariant (fun s l u hs hstep => hs.step hstep) sound_initial
  refine ⟨?_, ?_, ?_, fun l u hstep => callKept_step hopen hstep⟩
  · intro latticeId ns
    rw [registered_run hrun hls rfl, pending_iff_last]
    cases lastOn latticeId ns (okCalls {} ls) with
    | none => simp [registered]
    | some c => simp
  · refine hrun.invariant (I := EntriesNonempty) (fun s l u h hstep => entriesNonempty_step h hstep) ?_
    intro latticeId w hw
    cases hw
  · intro i j t t' ht ht' hi hj hsame
    exact running_unique hsound ht ht' hi hj hsame

def rewatched : List Label :=
  [.watch .sample "default" "lattice" true, .watch .sample "other" "lattice" false,
    .stopWatch "lattice" "default", .watch .sample "default" "second" false]

theorem run_registeredPairs_rewatched :
    "other" ∈ ((exec step {} rewatched).getD {}).registered "lattice" ∧
      lastOn "lattice" "default" (okCalls {} rewatched) = some (.stopWatch "lattice" "default") := by
  have hrun : Run step {} rewatched _ := run_of_exec rfl
  obtain ⟨hpairs, -⟩ := run_registeredPairs hrun (by simp [rewatched])
  exact ⟨(hpairs "lattice" "other").mpr (by decide), by decide⟩

end ServiceWatcher
end WadmOperator

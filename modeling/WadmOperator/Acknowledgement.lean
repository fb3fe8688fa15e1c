import WadmOperator.Commands.Effects
import WadmOperator.CommandQueue

/-!
# Acks and the changes they stand for

A message is acked once its command is in the channel, and the command loop drops the
command whatever its API calls return. So an acked update lasts just as long as no
call fails for it and the process does not end before it.
-/

namespace WadmOperator
namespace Operator

open Transition Commands

variable {api : ApiServer} {s u : Operator} {l : Label} {m : Message} {sent : Option Sent}

def CommandFor (q : Sent) (m : Message) : Prop :=
  ∃ w : Watcher, q.origin = .event w.latticeId m ∧ w.handleEvent m.payload = some (some q.cmd)

/-- The command for the message waits in the channel or was carried out. -/
def Accounted (s : Operator) (m : Message) (sent : Option Sent) : Prop :=
  ∃ q, sent = some q ∧ CommandFor q m ∧ (q ∈ s.queue ∨ q ∈ s.history.done)

/-- Every acked message that calls for a change of a Service is accounted for. -/
def AckedAccounted (s : Operator) : Prop :=
  ∀ m sent, (m, sent) ∈ s.history.acked → m.payload.callsForChange = true → s.Accounted m sent

/-- A message that is acked, or will be, stands for the command, which is not carried out
yet. -/
def Promised (s : Operator) (q : Sent) : Prop :=
  q ∉ s.history.done ∧ ∃ m, (m, some q) ∈ s.history.acked ∨
    s.serviceWatcher.Unsettled m true (some q)

/-- No call fails for a promised command, and no restart loses the command of an acked
message. -/
def PromisesKept (api : ApiServer) (s : Operator) (l : Label) (_ : Operator) : Prop :=
  (∀ q order fails, s.Executes l q order fails → s.Promised q →
    (runCommand api fails order q.cmd s.cluster).NoFailure) ∧
  (l = .restart → ∀ m q, (m, some q) ∈ s.history.acked → q ∉ s.history.done → q ∉ s.queue)

theorem Accounted.mono (h : s.Accounted m sent) (hqueue : ∀ q ∈ s.queue, q ∈ u.queue)
    (hdone : ∀ q ∈ s.history.done, q ∈ u.history.done) : u.Accounted m sent := by
  obtain ⟨q, hsent, hanswers, hwaits⟩ := h
  exact ⟨q, hsent, hanswers, hwaits.imp (hqueue q) (hdone q)⟩

theorem runCommand_carriedOut {fails : ApiCall → Bool} {order : List String}
    {cmd : WatcherCommand} {c : Cluster} (horder : order.Nodup)
    (h : (runCommand api fails order cmd c).NoFailure) :
    cmd.carriedOut order (runCommand api fails order cmd c).effects = true := by
  cases cmd with
  | upsertService params =>
    simp only [WatcherCommand.carriedOut, List.all_eq_true, List.any_eq_true, decide_eq_true_eq]
    intro ns hns
    exact ⟨_, createOrUpdateService_all h hns, rfl⟩
  | removeService name namespaces =>
    simp only [WatcherCommand.carriedOut, List.all_eq_true, List.any_eq_true, decide_eq_true_eq]
    intro ns hns
    exact (removeService_service horder h hns).2
  | removeServices namespaces => rfl

theorem recordExec_done {h : History} {order : List String} {q : Sent} {effects : List Effect}
    (hcarried : q.cmd.carriedOut order effects = true)
    (hfailed : ∀ call, Effect.failed call ∉ effects) :
    q ∈ (h.recordExec order q effects).done := by
  have hall : effects.all (fun e => !e.isFailure) = true := by
    rw [List.all_eq_true]
    intro e he
    cases e with
    | failed call => exact absurd he (hfailed call)
    | _ => rfl
  simp [History.recordExec, hcarried, hall]

theorem recordExec_done_mono (h : History) (order : List String) (q : Sent)
    (effects : List Effect) : ∀ q' ∈ h.done, q' ∈ (h.recordExec order q effects).done := by
  intro q' hq'
  simp only [History.recordExec]
  split
  · exact List.mem_cons_of_mem _ hq'
  · exact hq'

theorem handleMessage_unsettled {sw : ServiceWatcher} {i : Nat} {t : EventTask} {m' : Message}
    (h : (sw.handleMessage i t m').Unsettled m true sent) :
    sw.Unsettled m true sent ∨ (m.payload.callsForChange = true →
      ∃ q, sent = some q ∧ CommandFor q m ∧ q ∈ (sw.handleMessage i t m').channel.queue) := by
  unfold ServiceWatcher.handleMessage at h ⊢
  split at h
  · left
    exact (ServiceWatcher.unsettled_setPhase h).resolve_left (by simp)
  · next hcmd =>
    rcases ServiceWatcher.unsettled_setPhase h with heq | hold
    · right
      intro hcalls
      obtain ⟨rfl, -, -⟩ := Phase.handled.inj heq
      obtain ⟨cmd, hsome⟩ := ServiceWatcher.handleEvent_of_callsForChange t.watcher hcalls
      rw [hcmd] at hsome
      cases hsome
    · exact .inl hold
  · next cmd hcmd =>
    rcases ServiceWatcher.unsettled_setPhase h with heq | hold
    · right
      intro _
      obtain ⟨rfl, hok, rfl⟩ := Phase.handled.inj heq
      refine ⟨_, if_pos hok, ⟨t.watcher, rfl, hcmd⟩, ?_⟩
      split at hok
      · next ch hsend =>
        have hqueue := (Channel.send_eq hsend).1
        simp [ServiceWatcher.send, hsend, ServiceWatcher.setPhase, hqueue]
      · cases hok
    · left
      exact hold.congr (ServiceWatcher.send_frame sw _).2.2.1

def Standing (s : Operator) (m : Message) (sent : Option Sent) : Prop :=
  (m, sent) ∈ s.history.acked ∨ s.serviceWatcher.Unsettled m true sent

def StandingAccounted (s : Operator) : Prop :=
  ∀ m sent, s.Standing m sent → m.payload.callsForChange = true → s.Accounted m sent

theorem standingAccounted_of_kept (hs : s.StandingAccounted)
    (hstanding : ∀ m sent, u.Standing m sent → s.Standing m sent)
    (hqueue : ∀ q ∈ s.queue, q ∈ u.queue) (hdone : ∀ q ∈ s.history.done, q ∈ u.history.done) :
    u.StandingAccounted := by
  intro m sent hstands hcalls
  exact (hs m sent (hstanding m sent hstands) hcalls).mono hqueue hdone

theorem standingAccounted_handle (hs : s.StandingAccounted) {i : Nat} {t : EventTask}
    {m' : Message} (hacked : u.history.acked = s.history.acked)
    (hdone : u.history.done = s.history.done)
    (hwatcher : u.serviceWatcher = s.serviceWatcher.handleMessage i t m')
    (hqueue : ∀ q ∈ s.queue, q ∈ u.queue) : u.StandingAccounted := by
  have hmono : ∀ q ∈ s.history.done, q ∈ u.history.done := by
    intro q hq
    rwa [hdone]
  intro m sent hstands hcalls
  rcases hstands with hin | hun
  · rw [hacked] at hin
    exact (hs m sent (.inl hin) hcalls).mono hqueue hmono
  · rw [hwatcher] at hun
    rcases handleMessage_unsettled hun with hold | hnew
    · exact (hs m sent (.inr hold) hcalls).mono hqueue hmono
    · obtain ⟨q, hsent, hanswers, hin⟩ := hnew hcalls
      rw [← hwatcher] at hin
      exact ⟨q, hsent, hanswers, .inl hin⟩

theorem standing_settle {i : Nat} {t : EventTask} {m' : Message} {ok : Bool}
    {sent' : Option Sent} (ht : s.serviceWatcher.tasks[i]? = some t)
    (hp : t.phase = .handled m' ok sent')
    (hacked : u.history.acked = (if ok then [(m', sent')] else []) ++ s.history.acked)
    (hwatcher : u.serviceWatcher = s.serviceWatcher.setPhase i .idle) :
    u.Standing m sent → s.Standing m sent := by
  intro hstands
  rcases hstands with hin | hun
  · rw [hacked] at hin
    rcases List.mem_append.mp hin with hfresh | hin
    · have hok : ok = true := by
        by_contra hne
        simp [hne] at hfresh
      rw [if_pos hok] at hfresh
      obtain ⟨rfl, rfl⟩ := Prod.mk.inj (List.mem_singleton.mp hfresh)
      exact .inr ⟨i, t, ht, by rw [hp, hok]⟩
    · exact .inl hin
  · rw [hwatcher] at hun
    exact .inr ((ServiceWatcher.unsettled_setPhase hun).resolve_left (by simp))

theorem accounted_exec {order : List String} {fails : ApiCall → Bool} {q : Sent}
    {sw : ServiceWatcher} (hrecv : s.serviceWatcher.recv = some (q, sw)) (horder : order.Nodup)
    (hguard : s.Promised q → (runCommand api fails order q.cmd s.cluster).NoFailure)
    (hwatcher : u.serviceWatcher = sw)
    (hdone : u.history.done = (s.history.recordExec order q
      (runCommand api fails order q.cmd s.cluster).effects).done)
    (hstands : s.Standing m sent) (hacc : s.Accounted m sent) : u.Accounted m sent := by
  obtain ⟨q', rfl, hanswers, hwaits⟩ := hacc
  refine ⟨q', rfl, hanswers, ?_⟩
  rw [hdone]
  by_cases hold : q' ∈ s.history.done
  · exact .inr (recordExec_done_mono _ _ _ _ q' hold)
  have hin : q' ∈ s.serviceWatcher.channel.queue := hwaits.resolve_right hold
  rw [ServiceWatcher.recv_queue hrecv] at hin
  rcases List.mem_cons.mp hin with rfl | hin
  · have hnofail := hguard ⟨hold, m, hstands⟩
    exact .inr (recordExec_done (runCommand_carriedOut horder hnofail) hnofail)
  · left
    rwa [Operator.queue, hwatcher]

theorem standingAccounted_step (hs : s.StandingAccounted) (hstep : StepCase api s l u)
    (hguard : PromisesKept api s l u) : u.StandingAccounted := by
  have hgrows := hstep.queue_grows
  cases hstep with
  | quiet h hexec hrestart =>
    refine standingAccounted_of_kept hs ?_ (hgrows hexec hrestart) (fun q hq => by rwa [h.record])
    intro m sent hstands
    rw [Standing, h.record] at hstands
    exact hstands.imp id (h.unsettled m true sent)
  | @handle i t m' ht hp =>
    exact standingAccounted_handle hs rfl rfl rfl (hgrows (by simp) (by simp))
  | @settle i t m' ok sent' ht hp =>
    exact standingAccounted_of_kept hs (fun _ _ => standing_settle ht hp rfl rfl)
      (fun _ hq => hq) fun _ hq => hq
  | @nextApp j latticeId app apps manifest hpass hname =>
    refine standingAccounted_of_kept hs ?_ (hgrows (by simp) (by simp)) fun _ hq => hq
    intro m sent hstands
    exact hstands.imp id fun hun => hun.congr (s := s.serviceWatcher)
      (ServiceWatcher.reconcileApp_frame s.serviceWatcher latticeId app manifest).2.2
  | configureService _ => exact hs
  | @cleanup key config hconfig hok =>
    obtain ⟨hsame, hdone, -⟩ :=
      recordCleanup_frame s.history (s.cluster.removeConfig key) config
    refine standingAccounted_of_kept hs ?_ (hgrows (by simp) (by simp)) (fun q hq => by rwa [hdone])
    intro m sent hstands
    rw [Standing, hsame] at hstands
    exact hstands.imp id fun hun => hun.congr (s := s.serviceWatcher)
      (ServiceWatcher.stopWatch_tasks _ _ _)
  | @exec order fails q sw hrecv horder =>
    intro m sent hstands hcalls
    have hstood : s.Standing m sent :=
      hstands.imp id fun hun => hun.congr (ServiceWatcher.recv_frame hrecv).2.2.1
    exact accounted_exec hrecv horder.1 (hguard.1 q order fails ⟨rfl, sw, hrecv⟩) rfl rfl hstood
      (hs m sent hstood hcalls)
  | restart =>
    intro m sent hstands hcalls
    rcases hstands with hin | ⟨i, t, ht, -⟩
    · obtain ⟨q, rfl, hanswers, hwaits⟩ := hs m sent (.inl hin) hcalls
      by_cases hdone : q ∈ s.history.done
      · exact ⟨q, rfl, hanswers, .inr hdone⟩
      · exact absurd (hwaits.resolve_right hdone) (hguard.2 rfl m q hin hdone)
    · simp at ht

/-- In every run that keeps its promises, no acked update is lost. -/
theorem run_ackedAccounted (api : ApiServer) {c : Cluster} {ls : List Label}
    (h : Along (step api) (PromisesKept api) (initial c) ls) :
    Along (step api) (fun _ _ u => u.AckedAccounted) (initial c) ls := by
  refine Along.of_guard (I := StandingAccounted) ?_ ?_ h
  · intro s l u hs hstep hG
    have hu := standingAccounted_step hs (step_cases hstep) hG
    exact ⟨fun m sent hin => hu m sent (.inl hin), hu⟩
  · intro m sent hstands
    rcases hstands with hin | ⟨i, t, ht, -⟩
    · simp [initial] at hin
    · simp [initial] at ht

def publishedOnce : List Label :=
  publishApp ("default", "a") ++ deliver 0 1 (.manifestUnpublished "app") ++ [.settle 0]

def checkPromised (s : Operator) (q : Sent) : Bool :=
  decide (q ∉ s.history.done) &&
    (s.history.acked.any (fun a => a.2 = some q) ||
      s.serviceWatcher.tasks.any fun t =>
        match t.phase with
        | .handled _ true sent => sent = some q
        | _ => false)

theorem checkPromised_of_promised {q : Sent} (h : s.Promised q) : s.checkPromised q = true := by
  obtain ⟨hdone, m, hstands⟩ := h
  rw [checkPromised, Bool.and_eq_true, Bool.or_eq_true]
  refine ⟨decide_eq_true hdone, hstands.imp (fun hacked => ?_) fun hun => ?_⟩
  · exact List.any_eq_true.mpr ⟨_, hacked, decide_eq_true rfl⟩
  · obtain ⟨i, t, ht, hp⟩ := hun
    exact List.any_eq_true.mpr ⟨t, List.mem_of_getElem? ht, by simp [hp]⟩

def checkPromises (api : ApiServer) (s : Operator) : Label → Bool
  | .exec order fails => allAnswered api s (.exec order fails) ||
      s.serviceWatcher.recv.all fun r => !s.checkPromised r.1
  | .restart => s.history.acked.all fun a => a.2.all fun q =>
      decide (q ∈ s.history.done) || decide (q ∉ s.queue)
  | _ => true

theorem promisesKept_of_check (h : checkPromises api s l = true) : PromisesKept api s l u := by
  constructor
  · intro q order fails hexec hpromised
    have hcheck := checkPromised_of_promised hpromised
    obtain ⟨rfl, sw, hrecv⟩ := id hexec
    simp only [checkPromises, hrecv, Option.all_some, hcheck, Bool.not_true, Bool.or_false] at h
    exact hexec.noFailure h
  · intro hl m q hacked hdone
    subst hl
    have hkept := List.all_eq_true.mp h _ hacked
    simpa [hdone] using hkept

/-- The process ends before the unpublication is acked, and the upsert of a pass fails. -/
def restartedOnce : List Label :=
  publishApp ("default", "a") ++ deliver 0 1 (.manifestUnpublished "app") ++
    [.restart, .deploy "lattice-a" "app",
      .listApps ("default", "a") [⟨"app", "v1", some "v1"⟩], .watch 0 .sample true,
      .reconcileServices 0, .nextApp 0 (some (Manifest.httpApp "app" "0.0.0.0:8080")),
      .nextApp 0 none, .exec ["default"] fun call => call.verb = .patch] ++
    deliver 0 1 (.manifestUnpublished "app") ++ [.settle 0, .exec ["default"] fun _ => false]

theorem run_ackedAccounted_published :
    Along (step .basic) (fun _ _ u => u.AckedAccounted) (initial oneConfig) restartedOnce :=
  run_ackedAccounted .basic (along_of_check
    (fun s l u (h : checkPromises .basic s l = true) _ => promisesKept_of_check h)
    (by decide +kernel))

/-- The get call of the removal fails, and the Service stays with nothing left that would
remove it. -/
theorem acked_removal_lost :
    ¬∀ api c ls, Along (step api) (fun _ _ u => u.AckedAccounted) (initial c) ls := by
  intro h
  let last : Label := .exec ["default"] fun call => call.verb = .get
  have hfact : (lastStep (step .basic) (initial oneConfig) publishedOnce last).map (fun p =>
      p.2.queue.isEmpty &&
        (p.2.history.acked.any fun a => a.1.seq = 1 && a.1.payload.callsForChange &&
          p.2.history.done.all fun q => match q.origin with
            | .event _ m => m.seq ≠ 1
            | _ => true)) = some true := by decide +kernel
  obtain ⟨⟨u, v⟩, huv, hall⟩ := Option.map_eq_some_iff.mp hfact
  obtain ⟨hempty, hany⟩ := Bool.and_eq_true_iff.mp hall
  obtain ⟨⟨m, sent⟩, hacked, hfound⟩ := List.any_eq_true.mp hany
  simp only [Bool.and_eq_true, decide_eq_true_eq, List.all_eq_true] at hfound
  obtain ⟨⟨hseq, hcalls⟩, hdone⟩ := hfound
  obtain ⟨q, -, ⟨w, horigin, -⟩, hwaits⟩ :=
    (h .basic oneConfig (publishedOnce ++ [last])).last huv m sent hacked hcalls
  rcases hwaits with hqueue | hin
  · rw [List.isEmpty_iff.mp hempty] at hqueue
    cases hqueue
  · have hother := hdone q hin
    rw [horigin] at hother
    exact absurd hseq (of_decide_eq_true hother)

end Operator
end WadmOperator

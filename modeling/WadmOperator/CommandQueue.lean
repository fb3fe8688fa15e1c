import WadmOperator.OperatorSteps

/-!
# What enters and leaves the command channel

Event tasks, passes and cleanups send; only the command loop takes a command, and only
a restart loses what waits.
-/

namespace WadmOperator
namespace Operator

variable {api : ApiServer} {s u : Operator} {l : Label}

def Executes (s : Operator) (l : Label) (q : Sent) (order : List String)
    (fails : ApiCall → Bool) : Prop :=
  l = .exec order fails ∧ ∃ sw, s.serviceWatcher.recv = some (q, sw)

theorem Executes.step_eq {l : Label} {q : Sent} {order : List String} {fails : ApiCall → Bool}
    (hexec : s.Executes l q order fails) (hstep : step api s l = some u) :
    IterationOf order q.cmd.namespaces ∧
      u.cluster = (Commands.runCommand api fails order q.cmd s.cluster).cluster := by
  obtain ⟨rfl, sw, hrecv⟩ := hexec
  obtain ⟨q', sw', hrecv', horder, rfl⟩ := exec_cases hstep
  rw [hrecv] at hrecv'
  obtain ⟨rfl, rfl⟩ := Prod.mk.inj (Option.some.inj hrecv')
  exact ⟨horder, rfl⟩

def allAnswered (api : ApiServer) (s : Operator) : Label → Bool
  | .exec order fails => s.serviceWatcher.recv.all fun r =>
      (Commands.runCommand api fails order r.1.cmd s.cluster).effects.all fun e => !e.isFailure
  | _ => true

theorem Executes.noFailure {q : Sent} {order : List String} {fails : ApiCall → Bool}
    (hexec : s.Executes l q order fails) (h : allAnswered api s l = true) :
    (Commands.runCommand api fails order q.cmd s.cluster).NoFailure := by
  intro call hcall
  obtain ⟨rfl, sw, hrecv⟩ := hexec
  simp only [allAnswered, hrecv, Option.all_some, List.all_eq_true] at h
  cases h _ hcall

inductive Sends (s : Operator) : Label → Sent → Prop where
  | event {i t m cmd} (ht : s.serviceWatcher.tasks[i]? = some t) (hp : t.phase = .taken m)
      (hcmd : t.watcher.handleEvent m.payload = some (some cmd)) :
      Sends s (.handle i) ⟨cmd, .event t.watcher.latticeId m⟩
  | reconcile {j latticeId app apps w m cmd}
      (hpass : s.serviceWatcher.passes[j]? = some ⟨latticeId, app :: apps⟩)
      (hw : s.serviceWatcher.watchers.get? latticeId = some w)
      (hdeployed : app.deployedVersion.isSome = true) (hname : m.name = app.name)
      (hcmd : w.handleManifestPublished m = some cmd) :
      Sends s (.nextApp j (some m)) ⟨cmd, .reconcile latticeId⟩
  | stopWatch {key config} (hconfig : s.cluster.config key = some config) :
      Sends s (.cleanup key)
        ⟨.removeServices {config.ns}, .stopWatch config.spec.lattice⟩

theorem StepCase.channel (h : StepCase api s l u) :
    u.serviceWatcher.channel = s.serviceWatcher.channel ∨
      (∃ q, Sends s l q ∧ u.serviceWatcher.channel =
        { s.serviceWatcher.channel with queue := s.queue ++ [q] }) ∨
      (∃ q order fails, s.Executes l q order fails ∧
        s.serviceWatcher.channel.recv = some (q, u.serviceWatcher.channel)) ∨
      l = .restart ∧ u.serviceWatcher.channel = {} := by
  cases h with
  | quiet h _ _ => exact .inl h.channel
  | @handle i t m ht hp =>
    by_cases hcommand : ∃ cmd, t.watcher.handleEvent m.payload = some (some cmd)
    · obtain ⟨cmd, hcmd⟩ := hcommand
      have hchannel := ServiceWatcher.handleMessage_channel (s := s.serviceWatcher) (i := i) hcmd
      rcases ServiceWatcher.send_channel s.serviceWatcher
        ⟨cmd, .event t.watcher.latticeId m⟩ with hsame | hsent
      · exact .inl (hchannel.trans hsame)
      · exact .inr (.inl ⟨_, .event ht hp hcmd, hchannel.trans hsent⟩)
    · exact .inl (ServiceWatcher.handleMessage_quiet fun cmd hcmd => hcommand ⟨cmd, hcmd⟩)
  | settle _ _ => exact .inl rfl
  | @nextApp j latticeId app apps manifest hpass hname =>
    rcases ServiceWatcher.reconcileApp_cases s.serviceWatcher latticeId app manifest with
      heq | ⟨w, m, cmd, hw, hdeployed, rfl, hcmd, heq⟩
    · have hchannel := congrArg ServiceWatcher.channel heq
      exact .inl hchannel
    · have hchannel := congrArg ServiceWatcher.channel heq
      rcases ServiceWatcher.send_channel s.serviceWatcher ⟨cmd, .reconcile latticeId⟩ with
        hsame | hsent
      · exact .inl (hchannel.trans hsame)
      · exact .inr (.inl ⟨_, .reconcile hpass hw hdeployed (hname m rfl) hcmd,
          hchannel.trans hsent⟩)
  | configureService _ => exact .inl rfl
  | cleanup hconfig _ =>
    rcases ServiceWatcher.stopWatch_channel s.serviceWatcher _ _ with ⟨hsame, -⟩ | ⟨hsent, -⟩
    · exact .inl hsame
    · exact .inr (.inl ⟨_, .stopWatch hconfig, hsent⟩)
  | @exec order fails q sw hrecv _ =>
    exact .inr (.inr (.inl ⟨q, order, fails, ⟨rfl, sw, hrecv⟩, (ServiceWatcher.recv_eq hrecv).1⟩))
  | restart => exact .inr (.inr (.inr ⟨rfl, rfl⟩))

theorem StepCase.queue (h : StepCase api s l u) :
    u.queue = s.queue ∨ (∃ q, Sends s l q ∧ u.queue = s.queue ++ [q]) ∨
      (∃ q order fails, s.Executes l q order fails ∧ s.queue = q :: u.queue) ∨
        l = .restart ∧ u.queue = [] := by
  rcases h.channel with hsame | ⟨q, hsends, hsent⟩ | ⟨q, order, fails, hexec, hrecv⟩ | ⟨hl, hnew⟩
  · exact .inl (congrArg Channel.queue hsame)
  · exact .inr (.inl ⟨q, hsends, congrArg Channel.queue hsent⟩)
  · exact .inr (.inr (.inl ⟨q, order, fails, hexec, (Channel.recv_eq hrecv).1⟩))
  · exact .inr (.inr (.inr ⟨hl, congrArg Channel.queue hnew⟩))

theorem StepCase.channel_open (h : StepCase api s l u)
    (hopen : s.serviceWatcher.channel.closed = false) :
    u.serviceWatcher.channel.closed = false := by
  rcases h.channel with hsame | ⟨q, -, hsent⟩ | ⟨q, order, fails, -, hrecv⟩ | ⟨-, hnew⟩
  · rwa [hsame]
  · rwa [hsent]
  · exact (Channel.recv_eq hrecv).2.trans hopen
  · rw [hnew]

theorem run_channel_open {c : Cluster} {ls : List Label}
    (h : Transition.Run (step api) (initial c) ls s) :
    s.serviceWatcher.channel.closed = false :=
  h.invariant (I := fun s => s.serviceWatcher.channel.closed = false)
    (fun _ _ _ hopen hstep => (step_cases hstep).channel_open hopen) rfl

theorem StepCase.queue_grows (h : StepCase api s l u)
    (hexec : ∀ order fails, l ≠ .exec order fails) (hrestart : l ≠ .restart) :
    ∀ q ∈ s.queue, q ∈ u.queue := by
  intro q hq
  rcases h.queue with hsame | ⟨q', -, hsent⟩ | ⟨q', order, fails, ⟨hl, -⟩, -⟩ | ⟨hl, -⟩
  · rwa [hsame]
  · rw [hsent]
    exact List.mem_append_left _ hq
  · exact absurd hl (hexec order fails)
  · exact absurd hl hrestart

end Operator
end WadmOperator

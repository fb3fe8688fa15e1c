import WadmOperator.CommandQueue
import WadmOperator.Commands.Effects

/-!
# Services and the history of events

What the drained channel leaves of an application is decided by the last event that
called for a change. A publication without a usable HTTP server calls for none, so the
Service of an earlier publication outlives it.
-/

namespace WadmOperator

namespace Service

def HttpPort (svc : Service) (port : Nat) : Prop :=
  ∀ p, p ∈ svc.ports ∧ p.name = some "http" ↔ p = ⟨some "http", port, some "TCP"⟩

end Service

/-- What the event asks of the application's Service, if it asks for anything: the port
to serve at, or no Service. -/
def Payload.change (a : String) : Payload → Option (Option Nat)
  | .event (.manifestPublished manifest) =>
    if manifest.name = a then manifest.httpAddress.map fun http => some http.1.port else none
  | .event (.manifestUnpublished name) => if name = a then some none else none
  | _ => none

def Payload.concerns (a : String) : Payload → Bool
  | .event (.manifestPublished manifest) => manifest.name = a
  | .event (.manifestUnpublished name) => name = a
  | _ => false

def WatcherCommand.change (a : String) : WatcherCommand → Option (Option Nat)
  | .upsertService params => if params.name = a then some (some params.port) else none
  | .removeService name _ => if name = a then some none else none
  | .removeServices _ => none

def lastEvent (a : String) (ms : List Message) : Option Message :=
  (ms.filter fun m => m.payload.concerns a).getLast?

def changes (a : String) (ms : List Message) : List (Option Nat) :=
  ms.filterMap fun m => m.payload.change a

theorem Payload.concerns_of_change {a : String} {payload : Payload} {x : Option Nat}
    (h : payload.change a = some x) : payload.concerns a = true := by
  cases payload with
  | malformed => cases h
  | unknown eventType => cases h
  | event evt =>
    cases evt with
    | manifestPublished manifest =>
      simp only [Payload.change] at h
      split at h
      · next hname => exact decide_eq_true hname
      · cases h
    | manifestUnpublished name =>
      simp only [Payload.change] at h
      split at h
      · next hname => exact decide_eq_true hname
      · cases h
    | other => cases h

theorem changes_filter (a : String) (ms : List Message) :
    changes a (ms.filter fun m => m.payload.concerns a) = changes a ms := by
  induction ms with
  | nil => rfl
  | cons m ms ih =>
    have hcons : ∀ xs, changes a (m :: xs) = (m.payload.change a).toList ++ changes a xs := by
      intro xs
      cases hchange : m.payload.change a <;> simp [changes, hchange]
    by_cases hm : m.payload.concerns a = true
    · simp only [List.filter_cons, hm, if_true, hcons, ih]
    · have hnone : m.payload.change a = none := by
        cases hchange : m.payload.change a with
        | none => rfl
        | some x => exact absurd (Payload.concerns_of_change hchange) hm
      simp [hm, hcons, hnone, ih]

theorem changes_last {a : String} {ms : List Message} {m : Message} {x : Option Nat}
    (hlast : lastEvent a ms = some m) (hchange : m.payload.change a = some x) :
    (changes a ms).getLast? = some x := by
  obtain ⟨before, hbefore⟩ := List.getLast?_eq_some_iff.mp hlast
  rw [← changes_filter, hbefore]
  simp [changes, hchange]

theorem changes_nil {a : String} {ms : List Message} (hlast : lastEvent a ms = none) :
    changes a ms = [] := by
  have hempty : (ms.filter fun m => m.payload.concerns a) = [] := List.getLast?_eq_none_iff.mp hlast
  rw [← changes_filter, hempty]
  rfl

namespace Watcher

theorem handleEvent_change {w : Watcher} {payload : Payload} {cmd : WatcherCommand}
    (h : w.handleEvent payload = some (some cmd)) (a : String) :
    payload.change a = cmd.change a := by
  rcases ServiceWatcher.handleEvent_cases h with ⟨manifest, rfl, hcmd⟩ | ⟨name, rfl, rfl⟩
  · obtain ⟨addr, labels, haddr, rfl⟩ := ServiceWatcher.handleManifestPublished_cases hcmd
    simp [Payload.change, WatcherCommand.change, haddr]
  · rfl

theorem change_of_no_command {w : Watcher} {payload : Payload}
    (h : ∀ cmd, w.handleEvent payload ≠ some (some cmd)) (a : String) :
    payload.change a = none := by
  have hquiet : payload.callsForChange ≠ true := by
    intro hcalls
    obtain ⟨cmd, hcmd⟩ := ServiceWatcher.handleEvent_of_callsForChange w hcalls
    exact h cmd hcmd
  cases payload with
  | malformed => rfl
  | unknown eventType => rfl
  | event evt =>
    cases evt with
    | manifestPublished manifest =>
      have hnone : manifest.httpAddress = none := by simpa [Payload.callsForChange] using hquiet
      simp [Payload.change, hnone]
    | manifestUnpublished name => exact absurd rfl hquiet
    | other => rfl

end Watcher

namespace Operator

open Transition Commands

variable {api : ApiServer} {s u : Operator} {l : Label} {n a : String}

def Label.HandlesEvents : Label → Prop
  | .next _ _ | .handle _ | .settle _ | .observeCancel _ => True
  | .exec _ fails => ∀ call, fails call = false
  | _ => False

/-- No event is handled yet, all tasks serve the one namespace, and a Service of the
application's name in it is a stranger's. -/
structure AtStart (n a : String) (s : Operator) : Prop where
  handled : s.history.handled = []
  queue : s.queue = []
  opened : s.serviceWatcher.channel.closed = false
  namespaces : ∀ (i : Nat) (t : EventTask), s.serviceWatcher.tasks[i]? = some t →
    t.watcher.namespaces = {n}
  services : ∀ svc, s.cluster.service (n, a) = some svc →
    svc.managed = false ∧ svc.deletionTimestamp = false ∧ svc.finalizers = []

/-- The namespace has a Service of the operator for just those applications whose last
event is a publication with an HTTP server at an address that parses, at its port. -/
def ReflectsLast (n a : String) (s : Operator) : Prop :=
  ((∃ svc, s.cluster.service (n, a) = some svc ∧ svc.managed = true) ↔
    ∃ m port, lastEvent a s.history.handled = some m ∧ m.payload.change a = some (some port)) ∧
  ∀ m port svc, lastEvent a s.history.handled = some m →
    m.payload.change a = some (some port) → s.cluster.service (n, a) = some svc →
      svc.managed = true ∧ svc.HttpPort port

def Matches (svc : Option Service) (request : Option Nat) : Prop :=
  (∀ found, svc = some found → found.deletionTimestamp = false ∧
    ∀ f ∈ found.finalizers, f = SERVICE_FINALIZER) ∧
  match request with
  | some port => ∃ found, svc = some found ∧ found.managed = true ∧ found.HttpPort port
  | none => ∀ found, svc = some found → found.managed = false

structure Follows (n a : String) (s : Operator) : Prop where
  opened : s.serviceWatcher.channel.closed = false
  namespaces : ∀ (i : Nat) (t : EventTask), s.serviceWatcher.tasks[i]? = some t →
    t.watcher.namespaces = {n}
  targets : ∀ q ∈ s.queue, q.cmd.namespaces = {n} ∧ ∀ nss, q.cmd ≠ .removeServices nss
  services : ∃ carried,
    changes a s.history.handled = carried ++ s.queue.filterMap (fun q => q.cmd.change a) ∧
      Matches (s.cluster.service (n, a)) carried.getLast?.join

theorem follows_atStart (h : AtStart n a s) : Follows n a s where
  opened := h.opened
  namespaces := h.namespaces
  targets q hq := by
    rw [h.queue] at hq
    cases hq
  services := by
    refine ⟨[], by simp [h.handled, h.queue, changes], ?_, ?_⟩
    · intro found hfound
      obtain ⟨-, hlive, hfinalizers⟩ := h.services found hfound
      exact ⟨hlive, by simp [hfinalizers]⟩
    · intro found hfound
      exact (h.services found hfound).1

theorem upserted_httpPort (params : ServiceParams) (current : Option Service) :
    (upserted api params none current).HttpPort params.port := by
  have hnodup : ((serviceFor params none).ports.map ServicePort.name).Nodup :=
    List.nodup_singleton _
  have hport := api.port_applied SERVICE_FINALIZER false current (serviceFor params none) hnodup _
    List.mem_cons_self
  intro p
  constructor
  · intro h
    exact hport.2 p h.1 h.2
  · intro heq
    subst heq
    exact ⟨hport.1, rfl⟩

theorem matches_upserted {current : Option Service} {request : Option Nat}
    (h : Matches current request) (params : ServiceParams) :
    Matches (some (upserted api params none current)) (some params.port) := by
  constructor
  · intro found hfound
    obtain rfl := Option.some.inj hfound
    constructor
    · rw [upserted, api.deletionTimestamp_kept]
      cases current with
      | none => rfl
      | some old => exact (h.1 old rfl).1
    · intro f hf
      rcases api.finalizer_origin _ _ _ _ f hf with hown | ⟨old, hold, hf⟩
      · exact List.mem_singleton.mp hown
      · exact (h.1 old hold).2 f hf
  · exact ⟨_, rfl, upserted_managed api params none current, upserted_httpPort params current⟩

theorem matches_removed {current : Option Service} {request : Option Nat}
    (h : Matches current request) : Matches (current.bind (removed api)) none := by
  have hnone : current.bind (removed api) = none := by
    cases current with
    | none => rfl
    | some svc =>
      have hempty : (stripFinalizers api svc).finalizers = [] := by
        refine List.eq_nil_iff_forall_not_mem.mpr fun f hf => ?_
        have hdropped := api.finalizer_dropped true (some svc) { svc with finalizers := [] }
          List.not_mem_nil
        rcases api.finalizer_origin _ _ _ _ f hf with hown | ⟨old, hold, hin⟩
        · cases hown
        · obtain rfl := Option.some.inj hold
          obtain rfl := (h.1 svc rfl).2 f hin
          exact hdropped hf
      simp [removed, Cluster.afterWrite, hempty]
  rw [hnone]
  exact ⟨fun _ hfound => (by cases hfound), fun _ hfound => (by cases hfound)⟩

theorem matches_exec {order : List String} {fails : ApiCall → Bool} {cmd : WatcherCommand}
    {c : Cluster} {request : Option Nat} (horder : IterationOf order cmd.namespaces)
    (hanswered : ∀ call, fails call = false) (hns : cmd.namespaces = {n})
    (hcmd : ∀ nss, cmd ≠ .removeServices nss) (h : Matches (c.service (n, a)) request) :
    Matches ((runCommand api fails order cmd c).cluster.service (n, a))
      ((cmd.change a).getD request) := by
  have hin : n ∈ order := (horder.mem n).mpr (hns ▸ Finset.mem_singleton_self n)
  have hnofail : (runCommand api fails order cmd c).NoFailure := runCommand_answered hanswered
  cases cmd with
  | upsertService params =>
    by_cases hname : params.name = a
    · subst hname
      have hchange : (WatcherCommand.upsertService params).change params.name =
          some (some params.port) := if_pos rfl
      obtain ⟨-, -, -, hservice⟩ :=
        createOrUpdateService_applied horder.1 (createOrUpdateService_all hnofail hin) rfl
      rw [hchange, runCommand_upsert, hservice]
      exact matches_upserted h params
    · have hchange : (WatcherCommand.upsertService params).change a = none := if_neg hname
      have hsame : (runCommand api fails order (.upsertService params) c).cluster.service (n, a) =
          c.service (n, a) :=
        (createOrUpdateService_sameOff order c).service _ fun hk => hname hk.2.symm
      rw [hchange, hsame]
      exact h
  | removeService name namespaces =>
    by_cases hname : name = a
    · subst hname
      have hchange : (WatcherCommand.removeService name namespaces).change name = some none :=
        if_pos rfl
      rw [hchange, (removeService_service horder.1 hnofail hin).1]
      exact matches_removed h
    · have hchange : (WatcherCommand.removeService name namespaces).change a = none := if_neg hname
      have hsame : (runCommand api fails order (.removeService name namespaces)
          c).cluster.service (n, a) = c.service (n, a) :=
        (removeService_sameOff order c).service _ fun hk => hname hk.2.symm
      rw [hchange, hsame]
      exact h
  | removeServices namespaces => exact absurd rfl (hcmd namespaces)

theorem Follows.quiet (hs : Follows n a s)
    (hchannel : u.serviceWatcher.channel = s.serviceWatcher.channel)
    (hhandled : u.history.handled = s.history.handled)
    (hservice : u.cluster.service (n, a) = s.cluster.service (n, a))
    (htasks : ∀ (k : Nat) (t : EventTask), u.serviceWatcher.tasks[k]? = some t →
      ∃ old, s.serviceWatcher.tasks[k]? = some old ∧ t.watcher = old.watcher) : Follows n a u where
  opened := by rw [hchannel]; exact hs.opened
  namespaces k t ht := by
    obtain ⟨old, hold, hwatcher⟩ := htasks k t ht
    rw [hwatcher]
    exact hs.namespaces k old hold
  targets := by
    simp only [Operator.queue, hchannel]
    exact hs.targets
  services := by
    simp only [Operator.queue, hchannel, hhandled, hservice]
    exact hs.services

theorem changes_append (a : String) (ms : List Message) (m : Message) :
    changes a (ms ++ [m]) = changes a ms ++ (m.payload.change a).toList := by
  cases hchange : m.payload.change a <;> simp [changes, hchange]

theorem change_queue_append (a : String) (qs : List Sent) (q : Sent) :
    (qs ++ [q]).filterMap (fun q => q.cmd.change a) =
      qs.filterMap (fun q => q.cmd.change a) ++ (q.cmd.change a).toList := by
  cases hchange : q.cmd.change a <;> simp [hchange]

theorem not_removeServices {w : Watcher} {payload : Payload} {cmd : WatcherCommand}
    (h : w.handleEvent payload = some (some cmd)) (nss : Finset String) :
    cmd ≠ .removeServices nss := by
  intro heq
  subst heq
  rcases ServiceWatcher.handleEvent_cases h with ⟨manifest, -, hcmd⟩ | ⟨name, -, hcmd⟩
  · obtain ⟨addr, labels, -, heq⟩ := ServiceWatcher.handleManifestPublished_cases hcmd
    cases heq
  · cases hcmd

theorem Follows.handle (hs : Follows n a s) {i : Nat} {t : EventTask} {m : Message}
    (ht : s.serviceWatcher.tasks[i]? = some t) (hp : t.phase = .taken m) :
    Follows n a { s with
      serviceWatcher := s.serviceWatcher.handleMessage i t m
      history := { s.history with handled := s.history.handled ++ [m] } } := by
  have hnamespaces : ∀ (k : Nat) (t' : EventTask),
      (s.serviceWatcher.handleMessage i t m).tasks[k]? = some t' → t'.watcher.namespaces = {n} := by
    intro k t' ht'
    obtain ⟨old, hold, hwatcher⟩ := (ServiceWatcher.TaskStep.handle ht hp).task_watcher ht'
    rw [hwatcher]
    exact hs.namespaces k old hold
  by_cases hcommand : ∃ cmd, t.watcher.handleEvent m.payload = some (some cmd)
  · obtain ⟨cmd, hcmd⟩ := hcommand
    have hchannel := ServiceWatcher.handleMessage_sends (i := i) hcmd hs.opened
    refine ⟨?_, hnamespaces, ?_, ?_⟩
    · rw [hchannel]
      exact hs.opened
    · intro q hq
      simp only [Operator.queue, hchannel] at hq
      rcases List.mem_append.mp hq with hq | hq
      · exact hs.targets q hq
      · obtain rfl := List.mem_singleton.mp hq
        refine ⟨?_, not_removeServices hcmd⟩
        rw [(ServiceWatcher.handleEvent_command hcmd).2]
        exact hs.namespaces i t ht
    · obtain ⟨carried, hchanges, hmatches⟩ := hs.services
      refine ⟨carried, ?_, hmatches⟩
      simp only [Operator.queue, hchannel, changes_append, change_queue_append,
        Watcher.handleEvent_change hcmd a, hchanges, List.append_assoc]
  · have hno : ∀ cmd, t.watcher.handleEvent m.payload ≠ some (some cmd) :=
      fun cmd hcmd => hcommand ⟨cmd, hcmd⟩
    have hchannel : (s.serviceWatcher.handleMessage i t m).channel = s.serviceWatcher.channel :=
      ServiceWatcher.handleMessage_quiet hno
    refine ⟨?_, hnamespaces, ?_, ?_⟩
    · rw [hchannel]
      exact hs.opened
    · simp only [Operator.queue, hchannel]
      exact hs.targets
    · simp only [Operator.queue, hchannel, changes_append, Watcher.change_of_no_command hno a,
        Option.toList_none, List.append_nil]
      exact hs.services

theorem Follows.exec (hs : Follows n a s) {order : List String} {fails : ApiCall → Bool} {q : Sent}
    {sw : ServiceWatcher} (hrecv : s.serviceWatcher.recv = some (q, sw))
    (horder : IterationOf order q.cmd.namespaces) (hanswered : ∀ call, fails call = false) :
    Follows n a { s with
      serviceWatcher := sw
      cluster := (runCommand api fails order q.cmd s.cluster).cluster
      history := s.history.recordExec order q
        (runCommand api fails order q.cmd s.cluster).effects } := by
  have hqueue := ServiceWatcher.recv_queue hrecv
  obtain ⟨hns, hcmd⟩ := hs.targets q (by rw [Operator.queue, hqueue]; exact List.mem_cons_self)
  obtain ⟨-, -, htasks, -⟩ := ServiceWatcher.recv_frame hrecv
  refine ⟨?_, ?_, ?_, ?_⟩
  · exact (Channel.recv_eq (ServiceWatcher.recv_eq hrecv).1).2.trans hs.opened
  · rw [htasks]
    exact hs.namespaces
  · intro q' hq'
    refine hs.targets q' ?_
    rw [Operator.queue, hqueue]
    exact List.mem_cons_of_mem _ hq'
  · obtain ⟨carried, hchanges, hmatches⟩ := hs.services
    have hexec : Matches ((runCommand api fails order q.cmd s.cluster).cluster.service (n, a))
        ((q.cmd.change a).getD carried.getLast?.join) :=
      matches_exec horder hanswered hns hcmd hmatches
    rw [Operator.queue, hqueue] at hchanges
    refine ⟨carried ++ (q.cmd.change a).toList, ?_, ?_⟩
    · refine hchanges.trans ?_
      cases hchange : q.cmd.change a <;> simp [hchange]
    · cases hchange : q.cmd.change a with
      | none =>
        rw [hchange] at hexec
        simpa using hexec
      | some request =>
        rw [hchange] at hexec
        simpa using hexec

theorem follows_step (hs : Follows n a s) (hstep : step api s l = some u) (hl : l.HandlesEvents) :
    Follows n a u := by
  have hquiet : ∀ (sw : ServiceWatcher) (l' : ServiceWatcher.Label),
      ServiceWatcher.TaskStep s.serviceWatcher l' sw → sw.channel = s.serviceWatcher.channel →
        ∀ history : History, history.handled = s.history.handled →
          Follows n a { s with serviceWatcher := sw, history := history } := by
    intro sw l' htask hchannel history hhandled
    exact hs.quiet hchannel hhandled rfl fun k t ht => htask.task_watcher ht
  cases l with
  | next i item =>
    obtain ⟨sw, hsw, rfl⟩ := Option.map_eq_some_iff.mp hstep
    have htask := ServiceWatcher.next_cases hsw
    refine hquiet sw _ htask ?_ _ rfl
    cases htask <;> rfl
  | handle i =>
    obtain ⟨t, m, ht, hp, rfl⟩ := handle_cases hstep
    exact hs.handle ht hp
  | settle i =>
    obtain ⟨sw, hsw, rfl⟩ := Option.map_eq_some_iff.mp hstep
    have htask := ServiceWatcher.settle_cases hsw
    refine hquiet sw _ htask ?_ _ rfl
    cases htask
    rfl
  | observeCancel i =>
    obtain ⟨sw, hsw, rfl⟩ := Option.map_eq_some_iff.mp hstep
    have htask := ServiceWatcher.observeCancel_cases hsw
    refine hquiet sw _ htask ?_ _ rfl
    cases htask
    rfl
  | exec order fails =>
    obtain ⟨q, sw, hrecv, horder, rfl⟩ := exec_cases hstep
    exact hs.exec hrecv horder hl
  | _ => exact hl.elim

theorem follows_run {ls : List Label} (hs : Follows n a s) (hrun : Run (step api) s ls u)
    (hevents : ∀ l ∈ ls, l.HandlesEvents) : Follows n a u := by
  induction hrun with
  | nil => exact hs
  | cons hstep _ ih =>
    exact ih (follows_step hs hstep (hevents _ List.mem_cons_self))
      fun l hl => hevents l (List.mem_cons_of_mem _ hl)

theorem matches_drained (h : Follows n a u) (hdrained : u.queue = []) :
    Matches (u.cluster.service (n, a)) (changes a u.history.handled).getLast?.join := by
  obtain ⟨carried, hchanges, hmatches⟩ := h.services
  have hall : changes a u.history.handled = carried := by
    rw [hchanges, hdrained]
    simp
  rwa [hall]

theorem reflectsLast_iff
    (h : Matches (u.cluster.service (n, a)) (changes a u.history.handled).getLast?.join) :
    ReflectsLast n a u ↔ ∀ m, lastEvent a u.history.handled = some m →
      m.payload.change a = none → (changes a u.history.handled).getLast?.join = none := by
  have hserved : ∀ m port, lastEvent a u.history.handled = some m →
      m.payload.change a = some (some port) →
        ∃ svc, u.cluster.service (n, a) = some svc ∧ svc.managed = true ∧ svc.HttpPort port := by
    intro m port hlast hchange
    have hmatches := h.2
    rw [changes_last hlast hchange] at hmatches
    exact hmatches
  have hunserved : (changes a u.history.handled).getLast?.join = none →
      ∀ svc, u.cluster.service (n, a) = some svc → svc.managed = false := by
    intro hnone
    have hmatches := h.2
    rw [hnone] at hmatches
    exact hmatches
  constructor
  · intro hreflects m hlast hchange
    cases hrequest : (changes a u.history.handled).getLast?.join with
    | none => rfl
    | some port =>
      have hmatches := h.2
      rw [hrequest] at hmatches
      obtain ⟨svc, hsvc, hmanaged, -⟩ := hmatches
      obtain ⟨m', port', hlast', hchange'⟩ := hreflects.1.mp ⟨svc, hsvc, hmanaged⟩
      obtain rfl := Option.some.inj (hlast.symm.trans hlast')
      rw [hchange] at hchange'
      cases hchange'
  · intro hcondition
    refine ⟨⟨?_, ?_⟩, ?_⟩
    · intro hmanaged
      obtain ⟨svc, hsvc, hmanaged⟩ := hmanaged
      by_contra hnot
      have hnone : (changes a u.history.handled).getLast?.join = none := by
        cases hlast : lastEvent a u.history.handled with
        | none => rw [changes_nil hlast]; rfl
        | some m =>
          cases hchange : m.payload.change a with
          | none => exact hcondition m hlast hchange
          | some request =>
            rw [changes_last hlast hchange]
            cases request with
            | none => rfl
            | some port => exact absurd ⟨m, port, hlast, hchange⟩ hnot
      rw [hunserved hnone svc hsvc] at hmanaged
      cases hmanaged
    · intro hlast
      obtain ⟨m, port, hlast, hchange⟩ := hlast
      obtain ⟨svc, hsvc, hmanaged, -⟩ := hserved m port hlast hchange
      exact ⟨svc, hsvc, hmanaged⟩
    · intro m port svc hlast hchange hsvc
      obtain ⟨svc', hsvc', hown⟩ := hserved m port hlast hchange
      obtain rfl := Option.some.inj (hsvc.symm.trans hsvc')
      exact hown

/-- For every history of events: the drained operator has the Service that the last event
of an application asks for exactly unless that event is a publication that asks for
nothing while the last one that asked for something was a publication. -/
theorem run_reflectsLast_iff {ls : List Label} (hstart : AtStart n a s)
    (hrun : Run (step api) s ls u) (hevents : ∀ l ∈ ls, l.HandlesEvents)
    (hdrained : u.queue = []) :
    ReflectsLast n a u ↔ ∀ m, lastEvent a u.history.handled = some m →
      m.payload.change a = none → (changes a u.history.handled).getLast?.join = none :=
  reflectsLast_iff (matches_drained (follows_run (follows_atStart hstart) hrun hevents) hdrained)

def watching : Operator := reach (initial oneConfig) (idleReconcile ("default", "a"))

theorem watching_atStart : AtStart "default" "app" watching where
  handled := rfl
  queue := rfl
  opened := rfl
  namespaces i t ht := by
    cases i with
    | zero =>
      obtain rfl := Option.some.inj ht
      rfl
    | succ i => cases ht
  services svc hsvc := by cases hsvc

def publishedThen (evt : Event) : List Label :=
  deliver 0 0 (.manifestPublished (Manifest.httpApp "app" "0.0.0.0:8080")) ++
    [.settle 0, .exec ["default"] fun _ => false] ++ deliver 0 1 evt

theorem publishedThen_events (evt : Event) : ∀ l ∈ publishedThen evt, l.HandlesEvents := by
  intro l hl
  simp only [publishedThen, deliver, List.cons_append, List.nil_append, List.mem_cons,
    List.not_mem_nil, or_false] at hl
  rcases hl with rfl | rfl | rfl | rfl | rfl | rfl <;> simp [Label.HandlesEvents]

def movedPort : List Label :=
  publishedThen (.manifestPublished (Manifest.httpApp "app" "0.0.0.0:9090")) ++
    [.exec ["default"] fun _ => false]

theorem run_reflectsLast_movedPort : ReflectsLast "default" "app" (reach watching movedPort) := by
  refine (run_reflectsLast_iff watching_atStart (reach_run (by decide +kernel)) ?_ rfl).mpr ?_
  · intro l hl
    rcases List.mem_append.mp hl with hl | hl
    · exact publishedThen_events _ l hl
    · obtain rfl := List.mem_singleton.mp hl
      exact fun _ => rfl
  · intro m hlast hchange
    have hserves : (lastEvent "app" (reach watching movedPort).history.handled).all
        (fun m => (m.payload.change "app").isSome) = true := by decide +kernel
    rw [hlast, Option.all_some, hchange] at hserves
    cases hserves

/-- A publication without an HTTP server follows, and the Service stays. -/
theorem bare_publication_keeps_service :
    ¬∀ api n s u ls a, AtStart n a s → Run (step api) s ls u → (∀ l ∈ ls, l.HandlesEvents) →
      u.queue = [] → ReflectsLast n a u := by
  intro h
  let labels : List Label := publishedThen (.manifestPublished ⟨"app", [⟨.component, none⟩]⟩)
  have hreflects := h .basic "default" watching (reach watching labels) labels "app"
    watching_atStart (reach_run (by decide +kernel)) (publishedThen_events _) rfl
  have hmanaged : ((reach watching labels).cluster.service ("default", "app")).any
      (fun svc => svc.managed) = true := by decide +kernel
  have hnone : (lastEvent "app" (reach watching labels).history.handled).all
      (fun m => (m.payload.change "app").isNone) = true := by decide +kernel
  obtain ⟨m, port, hlast, hchange⟩ := hreflects.1.mp ((Option.any_eq_true _ _).mp hmanaged)
  rw [hlast, Option.all_some, hchange] at hnone
  cases hnone

end Operator
end WadmOperator

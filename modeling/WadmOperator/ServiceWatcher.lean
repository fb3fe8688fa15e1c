import WadmOperator.Commands
import WadmOperator.Manifest
import WadmOperator.Foundation.Channel

/-!
# The service watcher

The map of watchers, the event tasks and the reconcile passes, which all send to
one command channel. A task owns a clone of the watcher it was spawned with; the
clone shares only the cancellation token, here the number of the task. A pass
holds the read lock of the map until its last app, so `watch` and `stopWatch`, the
writers, wait for all passes. `startedFor` and `origin` are records for the
statements, the program has no such data.
-/

namespace WadmOperator

structure NatsClient where
  natsAddress : String
  natsClientPort : Nat
  natsCreds : Option String
  deriving DecidableEq

def NatsClient.sample : NatsClient := ⟨"nats://nats.default.svc", 4222, none⟩

structure Consumer where
  natsClient : NatsClient
  durableName : String
  filterSubject : String
  maxDeliver : Nat
  deriving DecidableEq

structure Watcher where
  namespaces : Finset String
  latticeId : String
  natsClient : NatsClient
  shutdown : Nat
  consumer : Consumer

inductive Event where
  | manifestPublished (manifest : Manifest)
  | manifestUnpublished (name : String)
  | other
  deriving DecidableEq

inductive Payload where
  | malformed
  | unknown (eventType : String)
  | event (evt : Event)
  deriving DecidableEq

structure Message where
  seq : Nat
  payload : Payload
  deriving DecidableEq

inductive Origin where
  | event (latticeId : String) (message : Message)
  | reconcile (latticeId : String)
  | stopWatch (latticeId : String)
  deriving DecidableEq

def Origin.latticeId : Origin → String
  | event latticeId _ => latticeId
  | reconcile latticeId => latticeId
  | stopWatch latticeId => latticeId

structure Sent where
  cmd : WatcherCommand
  origin : Origin
  deriving DecidableEq

inductive Phase where
  | idle
  | taken (message : Message)
  | handled (message : Message) (ok : Bool) (sent : Option Sent)
  | finished
  deriving DecidableEq

structure EventTask where
  watcher : Watcher
  startedFor : String
  phase : Phase

structure ModelSummary where
  name : String
  version : String
  deployedVersion : Option String
  deriving DecidableEq

structure Pass where
  latticeId : String
  apps : List ModelSummary

structure ServiceWatcher where
  watchers : Dict String Watcher := Dict.empty
  channel : Channel Sent := {}
  cancelled : Finset Nat := ∅
  tasks : List EventTask := []
  passes : List Pass := []

/-- What `messages.next()` yields. -/
inductive StreamItem where
  | message (m : Message)
  | failed
  | ended

namespace Watcher

def consumerFor (client : NatsClient) (latticeId : String) : Consumer where
  natsClient := client
  durableName := "wadm_operator_service-" ++ latticeId
  filterSubject := "wadm_operator_events." ++ latticeId ++ ".>"
  maxDeliver := 3

def handleManifestPublished (w : Watcher) (manifest : Manifest) : Option WatcherCommand :=
  manifest.httpAddress.map fun (addr, labels) =>
    .upsertService
      { name := manifest.name
        namespaces := w.namespaces
        latticeId := w.latticeId
        port := addr.port
        hostLabels := labels }

def handleManifestUnpublished (w : Watcher) (name : String) : WatcherCommand :=
  .removeService name w.namespaces

/-- The command that an event calls for; the outer `none` is a payload that does not
parse. -/
def handleEvent (w : Watcher) : Payload → Option (Option WatcherCommand)
  | .malformed => none
  | .unknown _ => some none
  | .event (.manifestPublished manifest) => some (w.handleManifestPublished manifest)
  | .event (.manifestUnpublished name) => some (some (w.handleManifestUnpublished name))
  | .event .other => some none

end Watcher

def Payload.callsForChange : Payload → Bool
  | event (.manifestPublished manifest) => manifest.httpAddress.isSome
  | event (.manifestUnpublished _) => true
  | _ => false

namespace ServiceWatcher

def send (s : ServiceWatcher) (q : Sent) : ServiceWatcher × Bool :=
  match s.channel.send q with
  | some ch => ({ s with channel := ch }, true)
  | none => (s, false)

/-- `Watcher::new`: the stored watcher and the task with its clone. -/
def spawn (client : NatsClient) (ns latticeId : String) (s : ServiceWatcher) : ServiceWatcher :=
  let w : Watcher :=
    { namespaces := {ns}
      latticeId := latticeId
      natsClient := client
      shutdown := s.tasks.length
      consumer := Watcher.consumerFor client latticeId }
  { s with
    watchers := s.watchers.put latticeId w
    tasks := s.tasks ++ [{ watcher := w, startedFor := ns, phase := .idle }] }

/-- `created` is whether the stream and the consumer could be made. -/
def watch (client : NatsClient) (ns latticeId : String) (created : Bool) (s : ServiceWatcher) :
    ServiceWatcher × Bool :=
  match s.watchers.get? latticeId with
  | some w =>
    let w' := { w with namespaces := insert ns w.namespaces }
    ({ s with watchers := s.watchers.put latticeId w' }, true)
  | none => if created then (s.spawn client ns latticeId, true) else (s, false)

/-- The entry without the namespace; an entry that loses its last one is dropped,
which cancels the token. -/
def leave (latticeId ns : String) (w : Watcher) (s : ServiceWatcher) : ServiceWatcher :=
  if w.namespaces.erase ns = ∅ then
    { s with
      watchers := s.watchers.remove latticeId
      cancelled := insert w.shutdown s.cancelled }
  else
    let w' := { w with namespaces := w.namespaces.erase ns }
    { s with watchers := s.watchers.put latticeId w' }

def stopWatch (latticeId ns : String) (s : ServiceWatcher) : ServiceWatcher × Bool :=
  match s.watchers.get? latticeId with
  | some w => (s.leave latticeId ns w).send ⟨.removeServices {ns}, .stopWatch latticeId⟩
  | none => (s, true)

def setPhase (i : Nat) (phase : Phase) (s : ServiceWatcher) : ServiceWatcher :=
  { s with tasks := s.tasks.modify i fun t => { t with phase := phase } }

/-- The end of a task drops its clone, which cancels the token. -/
def finish (i : Nat) (t : EventTask) (s : ServiceWatcher) : ServiceWatcher :=
  { s.setPhase i .finished with cancelled := insert t.watcher.shutdown s.cancelled }

/-- The stream yields its next item to a waiting task. A stream that cannot be opened
ends at once. -/
def next (i : Nat) (item : StreamItem) (s : ServiceWatcher) : Option ServiceWatcher :=
  match s.tasks[i]? with
  | some t =>
    match t.phase, item with
    | .idle, .message m => some (s.setPhase i (.taken m))
    | .idle, .failed => some s
    | .idle, .ended => some (s.finish i t)
    | _, _ => none
  | none => none

def handleMessage (i : Nat) (t : EventTask) (m : Message) (s : ServiceWatcher) : ServiceWatcher :=
  match t.watcher.handleEvent m.payload with
  | none => s.setPhase i (.handled m false none)
  | some none => s.setPhase i (.handled m true none)
  | some (some cmd) =>
    let q : Sent := ⟨cmd, .event t.watcher.latticeId m⟩
    let (s', ok) := s.send q
    s'.setPhase i (.handled m ok (if ok then some q else none))

def handle (i : Nat) (s : ServiceWatcher) : Option ServiceWatcher :=
  match s.tasks[i]? with
  | some t =>
    match t.phase with
    | .taken m => some (s.handleMessage i t m)
    | _ => none
  | none => none

def settle (i : Nat) (s : ServiceWatcher) : Option ServiceWatcher :=
  match s.tasks[i]? with
  | some t =>
    match t.phase with
    | .handled _ _ _ => some (s.setPhase i .idle)
    | _ => none
  | none => none

/-- Cancellation is seen where the task waits: for a message or for an ack. -/
def observeCancel (i : Nat) (s : ServiceWatcher) : Option ServiceWatcher :=
  match s.tasks[i]? with
  | some t =>
    if t.watcher.shutdown ∈ s.cancelled then
      match t.phase with
      | .idle | .handled _ _ _ => some (s.finish i t)
      | _ => none
    else none
  | none => none

def reconcileServices (apps : List ModelSummary) (latticeId : String) (s : ServiceWatcher) :
    ServiceWatcher :=
  match s.watchers.get? latticeId with
  | some _ => { s with passes := s.passes ++ [⟨latticeId, apps⟩] }
  | none => s

def reconcileApp (latticeId : String) (app : ModelSummary) (manifest : Option Manifest)
    (s : ServiceWatcher) : ServiceWatcher :=
  match s.watchers.get? latticeId, app.deployedVersion, manifest with
  | some w, some _, some manifest =>
    match w.handleManifestPublished manifest with
    | some cmd => (s.send ⟨cmd, .reconcile latticeId⟩).1
    | none => s
  | _, _, _ => s

/-- The pass goes to its next app, or ends and gives its lock back. -/
def nextApp (j : Nat) (manifest : Option Manifest) (s : ServiceWatcher) : Option ServiceWatcher :=
  match s.passes[j]? with
  | some ⟨latticeId, app :: apps⟩ =>
    some { s.reconcileApp latticeId app manifest with
      passes := s.passes.set j ⟨latticeId, apps⟩ }
  | some ⟨_, []⟩ => some { s with passes := s.passes.eraseIdx j }
  | none => none

def recv (s : ServiceWatcher) : Option (Sent × ServiceWatcher) :=
  s.channel.recv.map fun (q, ch) => (q, { s with channel := ch })

inductive Label where
  | watch (client : NatsClient) (ns latticeId : String) (created : Bool)
  | stopWatch (latticeId ns : String)
  | next (i : Nat) (item : StreamItem)
  | handle (i : Nat)
  | settle (i : Nat)
  | observeCancel (i : Nat)
  | reconcileServices (apps : List ModelSummary) (latticeId : String)
  | nextApp (j : Nat) (manifest : Option Manifest)
  | recv
  | dropReceiver

def step (s : ServiceWatcher) : Label → Option ServiceWatcher
  | .watch client ns latticeId created =>
    if s.passes.isEmpty then some (s.watch client ns latticeId created).1 else none
  | .stopWatch latticeId ns =>
    if s.passes.isEmpty then some (s.stopWatch latticeId ns).1 else none
  | .next i item => s.next i item
  | .handle i => s.handle i
  | .settle i => s.settle i
  | .observeCancel i => s.observeCancel i
  | .reconcileServices apps latticeId => some (s.reconcileServices apps latticeId)
  | .nextApp j manifest => s.nextApp j manifest
  | .recv => s.recv.map Prod.snd
  | .dropReceiver => some { s with channel := ⟨[], true⟩ }

def registered (s : ServiceWatcher) (latticeId : String) : Finset String :=
  match s.watchers.get? latticeId with
  | some w => w.namespaces
  | none => ∅

end ServiceWatcher
end WadmOperator

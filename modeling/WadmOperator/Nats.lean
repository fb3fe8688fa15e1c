import WadmOperator.ServiceWatcher

/-!
# NATS clients and wadm

Connections and the requests to wadm. The client library, the servers and what they
store are not the operator's code: `Nats` holds their answers. A request goes to the
lattice that the client's server has under the given id. Each call connects anew, so the
outcome of the attempt, `connected`, belongs to the call.
-/

namespace WadmOperator

structure NameNamespace where
  name : String
  ns : String
  deriving DecidableEq

inductive StatusType where
  | undeployed | reconciling | deployed | failed
  deriving DecidableEq

structure AppSummary extends ModelSummary where
  status : StatusType := .undeployed
  deriving DecidableEq

structure StoredManifest extends Manifest where
  annotations : Labels := Dict.empty
  labels : Labels := Dict.empty

structure Status where
  version : String
  statusType : StatusType

inductive ClientError where
  | notFound (msg : String)
  | other (msg : String)

structure Nats where
  withCredentials : String → Except String Unit := fun _ => .ok ()
  listManifests : NatsClient → String → Except String (List AppSummary) := fun _ _ => .ok []
  getManifest : NatsClient → String → String → Option String → Except ClientError StoredManifest :=
    fun _ _ name _ => .error (.notFound name)
  getManifestStatus : NatsClient → String → String → Except ClientError Status :=
    fun _ _ name => .error (.notFound name)
  /-- The answer is the name and the version of what was stored. -/
  putAndDeployManifest : NatsClient → String → StoredManifest →
      Except ClientError (String × String) :=
    fun _ _ manifest => .ok (manifest.name, "")
  deleteManifest : NatsClient → String → String → Option String → Except ClientError Unit :=
    fun _ _ _ _ => .ok ()

/-- A panic ends the request; it is no error that a caller handles. -/
inductive Attempt (α : Type) where
  | done (a : α)
  | failed (err : String)
  | panicked (msg : String)

namespace Nats

variable (nats : Nats)

def connectOptions : Option String → Except String Unit
  | some creds => nats.withCredentials creds
  | none => .ok ()

def listApps (connected : Except String Unit) (clusterUrl : String) (port : UInt16)
    (creds : Option String) (latticeId : String) : Except String (List AppSummary) := do
  nats.connectOptions creds
  connected
  nats.listManifests ⟨clusterUrl, port.toNat, creds⟩ latticeId

/-- Credentials that do not parse make it panic, where `listApps` returns an error. -/
def getNatsClient (connected : Except String Unit) (clusterUrl : String) (port : UInt16)
    (natsCreds : Dict NameNamespace String) (ns : NameNamespace) : Attempt NatsClient :=
  let client : NatsClient := ⟨clusterUrl, port.toNat, natsCreds.get? ns⟩
  match nats.connectOptions client.natsCreds with
  | .error e => .panicked ("unable to create nats client: " ++ e)
  | .ok _ =>
    match connected with
    | .error e => .failed e
    | .ok _ => .done client

variable {nats} {connected : Except String Unit} {clusterUrl latticeId : String} {port : UInt16}

theorem listApps_eq {creds : Option String} {apps : List AppSummary}
    (h : nats.listApps connected clusterUrl port creds latticeId = .ok apps) :
    nats.listManifests ⟨clusterUrl, port.toNat, creds⟩ latticeId = .ok apps := by
  unfold listApps at h
  cases hoptions : nats.connectOptions creds with
  | error e =>
    rw [hoptions] at h
    cases h
  | ok _ =>
    rw [hoptions] at h
    cases connected with
    | error e => cases h
    | ok _ => exact h

theorem getNatsClient_done {natsCreds : Dict NameNamespace String} {ns : NameNamespace}
    {client : NatsClient}
    (h : nats.getNatsClient connected clusterUrl port natsCreds ns = .done client) :
    client = ⟨clusterUrl, port.toNat, natsCreds.get? ns⟩ := by
  simp only [getNatsClient] at h
  split at h
  · cases h
  · split at h
    · cases h
    · exact (Attempt.done.inj h).symm

end Nats
end WadmOperator

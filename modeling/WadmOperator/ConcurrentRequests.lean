import WadmOperator.Foundation.Requests
import WadmOperator.LatticeConnection

/-!
# Application requests side by side

The handlers run at the same time, and wadm takes their requests one by one: a patch reads
the manifest and stores another one later, and nothing stops a second request in between.
A handler is a program of its requests to wadm, and against a server that is left alone the
program does what the handler does.
-/

namespace WadmOperator

open Procedure

def WadmCall.Answer : WadmCall → Type
  | .listManifests => Except String (List AppSummary)
  | .getManifest _ _ => Except ClientError StoredManifest
  | .getManifestStatus _ => Except ClientError Status
  | .putAndDeployManifest _ => Except ClientError (String × String)
  | .deleteManifest _ _ => Except ClientError Unit

def WadmCall.Reads : WadmCall → Prop
  | .listManifests | .getManifest _ _ | .getManifestStatus _ => True
  | .putAndDeployManifest _ | .deleteManifest _ _ => False

def WadmCall.app : WadmCall → Option String
  | .listManifests => none
  | .getManifest name _ | .getManifestStatus name | .deleteManifest name _ => some name
  | .putAndDeployManifest manifest => some manifest.name

def Request.place (q : Request) : Option (Lattice × String) :=
  q.call.app.map fun name => (q.lattice, name)

def Request.isAbout (q : Request) (name : String) (entry : Lattice × StoredManifest) : Bool :=
  (entry.1, entry.2.name) = (q.lattice, name)

namespace Applications

open Requests

def Answer (q : Request) : Type := q.call.Answer

abbrev WadmServer (σ : Type) := Server Request Answer (fun q => q.call.Reads) σ

abbrev Handler := Prog Request Answer (Except Abort Response)

def quietly {α : Type} (x : HandlerM α) (k : α → Handler) : Handler :=
  match (x []).1 with
  | .ok a => k a
  | .error e => .done (.error e)

def orRefuse {α : Type} (refused : ClientError → Response) (k : α → Handler) :
    Except ClientError α → Handler
  | .ok a => k a
  | .error e => .done (.error (.answered (refused e)))

def program (api : ApplicationApi) (ns : String) : ApplicationCall → Handler
  | .create body =>
    quietly (connection api "Unable to list cosmonic host configs: " ns) fun r =>
    quietly (orInternal "unable to decode the patch: " (api.documents.parseManifest body))
      fun manifest =>
    .ask ⟨r.1, r.2, .putAndDeployManifest manifest⟩ <|
      orRefuse (fun e => .internalError ("could not deploy app: " ++ e.text)) fun stored =>
    .done (.ok (.ok (.application (.new stored.1))))
  | .get accept name =>
    quietly (connection api "unable to list cosmonic host configs: " ns) fun r =>
    .ask ⟨r.1, r.2, .getManifest name none⟩ <|
      orRefuse (notFoundOr (applicationNotFound name) "unable to request app from wadm: ")
      fun manifest =>
    .ask ⟨r.1, r.2, .getManifestStatus name⟩ <|
      orRefuse (notFoundOr (applicationNotFound name) "unable to request app status from wadm: ")
      fun status =>
    .done (manifestResponse api accept ns name manifest status []).1
  | .patch name body =>
    quietly (connection api "unable to list cosmonic host configs: " ns) fun r =>
    .ask ⟨r.1, r.2, .getManifest name none⟩ <|
      orRefuse (notFoundOr (applicationNotFound name) "unable to request app from wadm: ")
      fun manifest =>
    quietly (orInternal "unable to decode the patch: " (api.documents.parseValue body)) fun patch =>
    quietly (orInternal "unable to patch the application: "
      (api.documents.fromValue (patchedValue api (api.documents.toValue manifest) patch)))
      fun updated =>
    .ask ⟨r.1, r.2, .putAndDeployManifest updated⟩ <|
      orRefuse (notFoundOr (applicationNotFound name) "could not update application: ") fun stored =>
    .done (.ok (.ok (.application (.new stored.1))))
  | .delete name =>
    quietly (connection api "unable to list cosmonic host configs: " ns) fun r =>
    .ask ⟨r.1, r.2, .deleteManifest name none⟩ <|
      orRefuse (notFoundOr ("apps \"" ++ name ++ "\" not found") "could not delete app: ") fun _ =>
    .done (.ok (.ok (.application (.new name))))

variable {σ : Type}

def facing (api : ApplicationApi) (srv : WadmServer σ) (s : σ) : ApplicationApi :=
  { api with nats := { api.nats with
      getManifest := fun client latticeId name version =>
        srv.answer s ⟨client, latticeId, .getManifest name version⟩
      getManifestStatus := fun client latticeId name =>
        srv.answer s ⟨client, latticeId, .getManifestStatus name⟩
      putAndDeployManifest := fun client latticeId manifest =>
        srv.answer s ⟨client, latticeId, .putAndDeployManifest manifest⟩
      deleteManifest := fun client latticeId name version =>
        srv.answer s ⟨client, latticeId, .deleteManifest name version⟩ } }

/-! ### The handlers and their programs -/

def Agrees (srv : WadmServer σ) (s : σ) (log : List Request) (p : Handler)
    (x : HandlerM Response) : Prop :=
  ∃ new, (x log).2 = log ++ new ∧ p.run srv s = (new.foldl srv.after s, (x log).1)

variable {srv : WadmServer σ} {s : σ} {log : List Request} {α : Type}

theorem Agrees.quietly {x : HandlerM α} {k : α → Handler} {f : α → HandlerM Response}
    (hx : ReadOnly x) (hsame : (x log).1 = (x []).1) (hk : ∀ a, Agrees srv s log (k a) (f a)) :
    Agrees srv s log (quietly x k) (x >>= f) := by
  have hlog : (x log).2 = log := hx log
  rw [Agrees, bind_eq]
  rcases hrun : x log with ⟨e | a, log'⟩ <;> rw [hrun] at hsame hlog
  · refine ⟨[], by rw [List.append_nil]; exact hlog, ?_⟩
    rw [Applications.quietly, ← hsame]
    rfl
  · obtain rfl : log' = log := hlog
    obtain ⟨new, hnew, hresult⟩ := hk a
    refine ⟨new, hnew, ?_⟩
    rw [Applications.quietly, ← hsame]
    exact hresult

variable {q : Request} {answer : Except ClientError α} {refused : ClientError → Response}
  {next : Answer q → Handler}

theorem Agrees.read {k : α → Handler} {f : α → HandlerM Response} (hread : q.call.Reads)
    (hnext : next (srv.answer s q) = orRefuse refused k answer)
    (hk : ∀ a, Agrees srv s (log ++ [q]) (k a) (f a)) :
    Agrees srv s log (.ask q next) (wadm q.client q.latticeId q.call answer refused >>= f) := by
  rw [Agrees, Prog.run, srv.after_read s q hread, hnext]
  cases answer with
  | error e => exact ⟨[q], rfl, by rw [List.foldl_cons, srv.after_read s q hread]; rfl⟩
  | ok a =>
    obtain ⟨new, hnew, hresult⟩ := hk a
    refine ⟨q :: new, ?_, ?_⟩
    · rw [List.append_cons]
      exact hnew
    · rw [List.foldl_cons, srv.after_read s q hread]
      exact hresult

theorem Agrees.last {g : α → Response}
    (hnext : next (srv.answer s q) = orRefuse refused (fun a => .done (.ok (g a))) answer) :
    Agrees srv s log (.ask q next)
      (wadm q.client q.latticeId q.call answer refused >>= fun a => pure (g a)) := by
  refine ⟨[q], ?_, ?_⟩
  · cases answer <;> rfl
  · rw [Prog.run, hnext]
    cases answer <;> rfl

theorem Agrees.quiet {r : Except Abort Response} {x : HandlerM Response} (hx : ReadOnly x)
    (hr : (x log).1 = r) : Agrees srv s log (.done r) x :=
  ⟨[], (hx log).trans (List.append_nil log).symm, by rw [hr]; rfl⟩

structure ApiRequest where
  api : ApplicationApi
  ns : String
  call : ApplicationCall

def ApiRequest.handler (a : ApiRequest) : Handler := program a.api a.ns a.call

abbrev InFlight (σ ι : Type) := Clients Request Answer (Except Abort Response) σ ι

variable {ι : Type} [DecidableEq ι]

/-- While a handler is at work, no other one writes to the application that it has read. -/
def Undisturbed (requests : ι → ApiRequest) (c : InFlight σ ι) (i : ι) (_ : InFlight σ ι) : Prop :=
  ∀ j ≠ i, c.prog j ≠ (requests j).handler → (c.prog j).result = none →
    ∀ q r, (c.prog i).asks = some q → ¬q.call.Reads → (requests j).handler.asks = some r →
      q.place ≠ r.place

structure Served (σ ι : Type) where
  server : σ
  outcome : ι → Option (Except Abort Response)

def serve (srv : WadmServer σ) (requests : ι → ApiRequest) (d : Served σ ι) (i : ι) :
    Served σ ι :=
  let (outcome, log) :=
    handle (facing (requests i).api srv d.server) (requests i).ns (requests i).call []
  ⟨log.foldl srv.after d.server, Function.update d.outcome i (some outcome)⟩

variable {requests : ι → ApiRequest} {c : InFlight σ ι} {schedule : List ι}

variable (srv requests)

variable {srv requests}

def lookup (stored : List (Lattice × StoredManifest)) (q : Request) (name : String) :
    Except ClientError StoredManifest :=
  match stored.find? (q.isAbout name) with
  | some entry => .ok entry.2
  | none => .error (.notFound name)

end Applications
end WadmOperator

import WadmOperator.ApplicationListing
import WadmOperator.LatticeConnection

/-!
# Looking up a listed application

With all servers up, the handlers for one application work in the lattice of the first
config. A listing shows the lattices of the later configs, too.
-/

namespace WadmOperator
namespace Applications

open Procedure

variable {api : ApplicationApi} {ns : String} {configs : List HostConfig} {first : HostConfig}
  {content : Lattice → List AppSummary} {α : Type}

structure Up (api : ApplicationApi) : Prop where
  kubeClient : api.kubeClient = .ok ()
  connect : ∀ config, api.connect config = .ok ()

/-- wadm answers from what is in the lattice of a request. -/
structure Wadm (nats : Nats) (content : Lattice → List AppSummary) : Prop where
  withCredentials : ∀ text, nats.withCredentials text = .ok ()
  contents : Contents nats content
  list : ∀ client latticeId, ∃ apps, nats.listManifests client latticeId = .ok apps
  manifest : ∀ client latticeId, ∀ app ∈
    content ⟨client.natsAddress, client.natsClientPort, latticeId⟩,
      ∃ manifest, nats.getManifest client latticeId app.name none = .ok manifest
  status : ∀ client latticeId, ∀ app ∈
    content ⟨client.natsAddress, client.natsClientPort, latticeId⟩,
      ∃ status, nats.getManifestStatus client latticeId app.name = .ok status
  delete : ∀ client latticeId, ∀ app ∈
    content ⟨client.natsAddress, client.natsClientPort, latticeId⟩,
      nats.deleteManifest client latticeId app.name none = .ok ()
  /-- A deployment finds the manifest that was put just before. -/
  put : ∀ client latticeId manifest msg,
    nats.putAndDeployManifest client latticeId manifest ≠ .error (.notFound msg)

def answered : Except Abort Response → Option Response
  | .ok response => some response
  | .error (.answered response) => some response
  | .error (.panicked _) => none

def WadmCall.AsksFor : WadmCall → String → Prop
  | .getManifest n _, name => n = name
  | .deleteManifest n _, name => n = name
  | _, _ => False

/-- The handler asks for the application, in this lattice and in no other, and it does
not answer that there is none. -/
structure OperatesOn (lattice : Lattice) (name : String) (x : HandlerM Response) : Prop where
  inLattice : ∀ q ∈ (x []).2, q.lattice = lattice
  asks : ∃ q ∈ (x []).2, WadmCall.AsksFor q.call name
  found : ∃ response, answered (x []).1 = some response ∧ response.code ≠ 404

def ApplicationCall.target : ApplicationCall → Option String
  | create _ => none
  | get _ name => some name
  | patch name _ => some name
  | delete name => some name

def Addressable (api : ApplicationApi) (ns : String) (content : Lattice → List AppSummary) : Prop :=
  ∀ accept, ∀ q ∈ (listApplications api accept ns []).2, ∀ app ∈ content q.lattice,
    ∀ call, ApplicationCall.target call = some app.name →
      OperatesOn q.lattice app.name (handle api ns call)

def FirstLatticeOnly (configs : List HostConfig) (content : Lattice → List AppSummary) : Prop :=
  ∀ config ∈ firsts latticeKey configs, content config.latticeOf ≠ [] →
    ∀ first, configs.head? = some first → config.latticeOf = first.latticeOf

theorem Wadm.connectOptions (h : Wadm api.nats content) (creds : Option String) :
    api.nats.connectOptions creds = .ok () := by
  cases creds with
  | none => rfl
  | some text => exact h.withCredentials text

theorem chosen_head (h : Wadm api.nats content) (hup : Up api) (ns : String)
    (configs : List HostConfig) : chosen api ns configs = configs.head? := by
  have hparse : credentialsParse api ns = fun _ => true := by
    funext config
    rw [credentialsParse, h.connectOptions]
    rfl
  have hconnects : connects api = fun _ => true := by
    funext config
    rw [connects, hup.connect]
    rfl
  rw [chosen, tried, hparse, hconnects]
  cases configs with
  | nil => rfl
  | cons config configs => simp

theorem collectApps_succeeds (h : Wadm api.nats content) (hup : Up api)
    (nsOf : HostConfig → String) (configs : List HostConfig)
    (acc : List AppSummary × Finset String) (log : List Request) :
    Succeeds (collectApps api nsOf configs acc) log := by
  induction configs generalizing acc log with
  | nil => exact .pure _ _
  | cons config configs ih =>
    refine .bind ?_ fun acc log' _ => ih acc log'
    by_cases hseen : latticeKey config ∈ acc.2
    · rw [addApps_seen hseen]
      exact .pure _ _
    · rw [show addApps api nsOf config acc = _ from if_neg hseen]
      obtain ⟨apps, happs⟩ := h.list (connectionOf api (nsOf config) config) config.spec.lattice
      refine .bind (.ofExcept (a := apps) ?_ _) fun _ _ _ => .bind ⟨_, _, rfl⟩ fun _ _ _ =>
        .pure _ _
      rw [Nats.listApps, h.connectOptions, hup.connect]
      exact congrArg (Except.mapError _) happs

theorem hostConfigs_found (hkube : api.kubeClient = .ok ()) {listed : Option String}
    (hconfigs : api.listConfigs listed = .ok configs) (unable : String) (log : List Request) :
    hostConfigs api unable listed log = (.ok configs, log) := by
  rw [hostConfigs, hkube, hconfigs]
  rfl

theorem listing_requests (h : Wadm api.nats content) (hup : Up api)
    (hconfigs : api.listConfigs (some ns) = .ok configs) (accept : As) :
    (listApplications api accept ns []).2 =
      (firsts latticeKey configs).map (listRequest api ns) := by
  have hrun : Succeeds (listing api accept (some ns)) [] := by
    refine .bind ⟨configs, [], hostConfigs_found hup.kubeClient hconfigs _ _⟩ fun found log _ => ?_
    exact .bind (collectApps_succeeds h hup _ _ _ _) fun _ _ _ => .pure _ _
  obtain ⟨response, log, hlisting⟩ := hrun
  obtain ⟨-, hlog⟩ := listing_ok h.contents hconfigs hlisting
  have hlisted : (listApplications api accept ns []).2 = log := congrArg Prod.snd hlisting
  rw [hlisted, hlog]
  rfl

theorem connection_head (h : Wadm api.nats content) (hup : Up api)
    (hconfigs : api.listConfigs (some ns) = .ok configs) (hfirst : configs.head? = some first)
    (unable : String) : connection api unable ns [] =
      (.ok (connectionOf api ns first, first.spec.lattice), []) := by
  have hlist := hostConfigs_found hup.kubeClient hconfigs unable []
  refine (bind_of_ok hlist).trans (Prod.ext ?_ (getLatticeConnection_readOnly ns configs []))
  apply (getLatticeConnection_ok api ns configs [] _).mpr
  exact ⟨first, (chosen_head h hup ns configs).trans hfirst, rfl⟩

theorem orInternal_found {what : String} {r : Except String α} {k : α → HandlerM Response}
    {log : List Request} (hk : ∀ a, r = .ok a →
      ∃ response, answered (k a log).1 = some response ∧ response.code ≠ 404) :
    ∃ response, answered ((orInternal what r >>= k) log).1 = some response ∧
      response.code ≠ 404 := by
  cases r with
  | error e => exact ⟨.internalError (what ++ e), rfl, by simp [Response.internalError]⟩
  | ok a => exact hk a rfl

theorem get_found (ns name : String) (accept : As) (manifest : StoredManifest) (status : Status)
    (log : List Request) : ∃ response,
      answered (manifestResponse api accept ns name manifest status log).1 = some response ∧
        response.code ≠ 404 := by
  obtain ⟨value, metadata, hvalue, -⟩ := manifestValue_object api ns name manifest status
  cases accept with
  | table => exact ⟨_, rfl, by simp [Response.ok]⟩
  | notSpecified =>
    refine ⟨.ok (.manifest value), ?_, by simp [Response.ok]⟩
    simp [manifestResponse, hvalue, answered]
  | apiGroupDiscoveryList => exact ⟨_, rfl, by simp [Response.internalError]⟩
  | partialObjectMetadataList => exact ⟨_, rfl, by simp [Response.internalError]⟩

theorem deployPatched_found (h : Wadm api.nats content) (client : NatsClient)
    (latticeId name : String) (manifest : StoredManifest) (body : ByteArray)
    (log : List Request) : ∃ response,
      answered (deployPatched api client latticeId name manifest body log).1 = some response ∧
        response.code ≠ 404 := by
  refine orInternal_found fun patch _ => orInternal_found fun updated _ => ?_
  cases hput : api.nats.putAndDeployManifest client latticeId updated with
  | ok stored => exact ⟨.ok (.application (.new stored.1)), rfl, by simp [Response.ok]⟩
  | error e =>
    cases e with
    | notFound msg => exact absurd hput (h.put _ _ _ _)
    | other msg =>
      exact ⟨.internalError ("could not update application: " ++ msg), rfl,
        by simp [Response.internalError]⟩

theorem handle_lattice (h : Wadm api.nats content) (hup : Up api)
    (hconfigs : api.listConfigs (some ns) = .ok configs) (hfirst : configs.head? = some first)
    (call : ApplicationCall) :
    ∀ q ∈ (handle api ns call []).2, q.lattice = first.latticeOf := by
  intro q hq
  obtain ⟨found, config, hlist, hchosen, hclient, hlattice⟩ := handle_requests call q hq
  obtain rfl := Except.ok.inj (hconfigs.symm.trans hlist)
  rw [chosen_head h hup, hfirst] at hchosen
  obtain rfl := Option.some.inj hchosen
  rw [Request.lattice, hclient, hlattice]
  rfl

theorem operatesOn_head (h : Wadm api.nats content) (hup : Up api)
    (hconfigs : api.listConfigs (some ns) = .ok configs) (hfirst : configs.head? = some first)
    {app : AppSummary} (happ : app ∈ content first.latticeOf) {call : ApplicationCall}
    (hcall : ApplicationCall.target call = some app.name) :
    OperatesOn first.latticeOf app.name (handle api ns call) := by
  have hconn := connection_head h hup hconfigs hfirst
  have hinLattice := handle_lattice h hup hconfigs hfirst call
  obtain ⟨manifest, hmanifest⟩ := h.manifest (connectionOf api ns first) first.spec.lattice app happ
  cases call with
  | create body => cases hcall
  | get accept name =>
    obtain rfl := Option.some.inj hcall
    obtain ⟨status, hstatus⟩ := h.status (connectionOf api ns first) first.spec.lattice app happ
    have hrun := getApplication_run accept (hconn _) hmanifest hstatus
    refine ⟨hinLattice, ?_, ?_⟩
    · rw [handle, hrun, manifestResponse_readOnly]
      exact ⟨_, List.mem_cons_self, rfl⟩
    · rw [handle, hrun]
      exact get_found ns app.name accept manifest status _
  | patch name body =>
    obtain rfl := Option.some.inj hcall
    have hrun := patchApplication_run body (hconn _) hmanifest
    obtain ⟨new, hnew, -⟩ := deployPatched_sends (connectionOf api ns first, first.spec.lattice)
      app.name manifest body
      [⟨connectionOf api ns first, first.spec.lattice, .getManifest app.name none⟩]
    refine ⟨hinLattice, ?_, ?_⟩
    · rw [handle, hrun, List.nil_append, hnew]
      exact ⟨_, List.mem_cons_self, rfl⟩
    · rw [handle, hrun]
      exact deployPatched_found h _ _ app.name manifest body _
  | delete name =>
    obtain rfl := Option.some.inj hcall
    have hdelete := h.delete (connectionOf api ns first) first.spec.lattice app happ
    have hrun : deleteApplication api ns app.name [] = (.ok (.ok (.application (.new app.name))),
        [⟨connectionOf api ns first, first.spec.lattice, .deleteManifest app.name none⟩]) :=
      (bind_of_ok (hconn _)).trans (bind_of_ok (wadm_ok _ hdelete))
    refine ⟨hinLattice, ?_, ?_⟩
    · rw [handle, hrun]
      exact ⟨_, List.mem_cons_self, rfl⟩
    · rw [handle, hrun]
      exact ⟨_, rfl, by simp [Response.ok]⟩

/-- With all servers up, every listed application can be addressed exactly when only the
lattice of the first config has applications. -/
theorem addressable_iff (h : Wadm api.nats content) (hup : Up api)
    (hconfigs : api.listConfigs (some ns) = .ok configs) :
    Addressable api ns content ↔ FirstLatticeOnly configs content := by
  have hlog := listing_requests h hup hconfigs
  constructor
  · intro hall config hconfig hne first hfirst
    obtain ⟨app, happ⟩ := List.exists_mem_of_ne_nil _ hne
    have hasked : listRequest api ns config ∈ (listApplications api .table ns []).2 := by
      rw [hlog]
      exact List.mem_map_of_mem hconfig
    have hdelete := hall .table _ hasked app happ (.delete app.name) rfl
    obtain ⟨q, hq, -⟩ := hdelete.asks
    rw [← handle_lattice h hup hconfigs hfirst _ q hq]
    exact (hdelete.inLattice q hq).symm
  · intro honly accept q hq app happ call hcall
    rw [hlog] at hq
    obtain ⟨config, hconfig, rfl⟩ := List.mem_map.mp hq
    have happ' : app ∈ content config.latticeOf := happ
    cases hhead : configs.head? with
    | none =>
      rw [List.head?_eq_none_iff.mp hhead] at hconfig
      cases hconfig
    | some first =>
      have hsame := honly config hconfig (List.ne_nil_of_mem happ') first hhead
      rw [listRequest_lattice, hsame]
      exact operatesOn_head h hup hconfigs hhead (hsame ▸ happ') hcall

def storedManifest (app : AppSummary) : StoredManifest :=
  { name := app.name, components := [], annotations := Dict.empty.put "version" app.version }

/-- wadm with one stored version of each application; a deletion is answered alike whether the
application is there or not. -/
def storing (content : Lattice → List AppSummary) : Nats :=
  { serving content with
    getManifest := fun client latticeId name _ =>
      match (content ⟨client.natsAddress, client.natsClientPort, latticeId⟩).find?
        (fun app => app.name = name) with
      | some app => .ok (storedManifest app)
      | none => .error (.notFound name)
    getManifestStatus := fun client latticeId name =>
      match (content ⟨client.natsAddress, client.natsClientPort, latticeId⟩).find?
        (fun app => app.name = name) with
      | some app => .ok ⟨app.version, app.status⟩
      | none => .error (.notFound name)
    deleteManifest := fun _ _ _ _ => .ok () }

theorem storing_wadm (content : Lattice → List AppSummary) : Wadm (storing content) content := by
  have hfound : ∀ (apps : List AppSummary), ∀ app ∈ apps,
      ∃ stored, apps.find? (fun other => other.name = app.name) = some stored := by
    intro apps app happ
    exact Option.isSome_iff_exists.mp (List.find?_isSome.mpr ⟨app, happ, by simp⟩)
  refine ⟨fun _ => rfl, serving_contents content, fun _ _ => ⟨_, rfl⟩, ?_, ?_,
    fun _ _ _ _ => rfl, ?_⟩
  · intro client latticeId app happ
    obtain ⟨stored, hstored⟩ := hfound _ app happ
    exact ⟨storedManifest stored, by simp only [storing, hstored]⟩
  · intro client latticeId app happ
    obtain ⟨stored, hstored⟩ := hfound _ app happ
    exact ⟨⟨stored.version, stored.status⟩, by simp only [storing, hstored]⟩
  · intro client latticeId manifest msg hput
    cases hput

def twoLattices : List HostConfig :=
  [configOn "first" "nats://first" "red", configOn "second" "nats://second" "blue"]

def twoLatticesApi (natsAddress : String) : ApplicationApi where
  listConfigs _ := .ok twoLattices
  nats := storing (echoAt natsAddress)
  documents := .sample

theorem addressable_first :
    Addressable (twoLatticesApi "nats://first") "default" (echoAt "nats://first") := by
  refine (addressable_iff (storing_wadm _) ⟨rfl, fun _ => rfl⟩ rfl).mpr ?_
  intro config hconfig hne first hfirst
  obtain rfl := Option.some.inj hfirst
  rcases List.mem_cons.mp hconfig with rfl | hconfig
  · rfl
  · rw [List.mem_singleton.mp hconfig] at hne
    exact absurd rfl hne

/-- The application in the second lattice is listed, and a deletion by its name goes to
the first. -/
theorem second_lattice_not_addressable :
    ¬∀ api ns content configs, Wadm api.nats content → Up api →
      api.listConfigs (some ns) = .ok configs → Addressable api ns content := by
  intro h
  have hall := h (twoLatticesApi "nats://second") "default" (echoAt "nats://second") _
    (storing_wadm _) ⟨rfl, fun _ => rfl⟩ rfl
  have hdelete := hall .table _ (List.mem_cons_of_mem _ List.mem_cons_self)
    { name := "echo", version := "v1", deployedVersion := some "v1", status := .deployed }
    List.mem_cons_self (.delete "echo") rfl
  have hlattice := hdelete.inLattice _ List.mem_cons_self
  revert hlattice
  decide

end Applications
end WadmOperator

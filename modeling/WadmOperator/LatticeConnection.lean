import WadmOperator.Applications

/-!
# The lattice of a request

A handler for one application sends all of its requests to the lattice of the first
config that connects, so an outage may move them to the lattice of a later config. Each
config is an attempt of its own, also where several name one server.
-/

namespace WadmOperator
namespace Applications

open Procedure

variable {api : ApplicationApi} {ns : String} {configs : List HostConfig} {log : List Request}
  {α β : Type}

def credentialsParse (api : ApplicationApi) (ns : String) (config : HostConfig) : Bool :=
  (api.nats.connectOptions (connectionOf api ns config).natsCreds).isOk

def connects (api : ApplicationApi) (config : HostConfig) : Bool :=
  (api.connect config).isOk

def tried (api : ApplicationApi) (ns : String) (configs : List HostConfig) : List HostConfig :=
  configs.takeWhile (credentialsParse api ns)

def chosen (api : ApplicationApi) (ns : String) (configs : List HostConfig) : Option HostConfig :=
  (tried api ns configs).find? (connects api)

theorem natsClientFor_eq (api : ApplicationApi) (ns : String) (config : HostConfig) :
    natsClientFor api ns config =
      match api.nats.connectOptions (connectionOf api ns config).natsCreds with
      | .error e => .panicked ("unable to create nats client: " ++ e)
      | .ok _ =>
        match api.connect config with
        | .error e => .failed e
        | .ok _ => .done (connectionOf api ns config) := rfl

theorem natsClientFor_unparsable {config : HostConfig}
    (h : credentialsParse api ns config = false) :
    ∃ msg, natsClientFor api ns config = .panicked msg := by
  rw [natsClientFor_eq]
  cases hoptions : api.nats.connectOptions (connectionOf api ns config).natsCreds with
  | error e => exact ⟨_, rfl⟩
  | ok _ => simp [credentialsParse, hoptions, Except.isOk, Except.toBool] at h

theorem natsClientFor_refused {config : HostConfig} (hparse : credentialsParse api ns config = true)
    (h : connects api config = false) : ∃ e, natsClientFor api ns config = .failed e := by
  rw [natsClientFor_eq]
  cases hoptions : api.nats.connectOptions (connectionOf api ns config).natsCreds with
  | error e => simp [credentialsParse, hoptions, Except.isOk, Except.toBool] at hparse
  | ok _ =>
    cases hconnect : api.connect config with
    | error e => exact ⟨e, rfl⟩
    | ok _ => simp [connects, hconnect, Except.isOk, Except.toBool] at h

theorem natsClientFor_connected {config : HostConfig}
    (hparse : credentialsParse api ns config = true) (h : connects api config = true) :
    natsClientFor api ns config = .done (connectionOf api ns config) := by
  rw [natsClientFor_eq]
  cases hoptions : api.nats.connectOptions (connectionOf api ns config).natsCreds with
  | error e => simp [credentialsParse, hoptions, Except.isOk, Except.toBool] at hparse
  | ok _ =>
    cases hconnect : api.connect config with
    | error e => simp [connects, hconnect, Except.isOk, Except.toBool] at h
    | ok _ => rfl

theorem getLatticeConnection_readOnly (ns : String) (configs : List HostConfig) :
    ReadOnly (getLatticeConnection api ns configs) := by
  induction configs with
  | nil => exact .throw _
  | cons config configs ih =>
    rw [getLatticeConnection]
    split
    · exact .pure _
    · exact ih
    · exact .throw _

theorem getLatticeConnection_ok (api : ApplicationApi) (ns : String) (configs : List HostConfig)
    (log : List Request) (r : NatsClient × String) :
    (getLatticeConnection api ns configs log).1 = .ok r ↔ ∃ config,
      chosen api ns configs = some config ∧ r = (connectionOf api ns config, config.spec.lattice) := by
  induction configs with
  | nil => simp [getLatticeConnection, chosen, tried]
  | cons config configs ih =>
    rw [getLatticeConnection, chosen, tried, List.takeWhile_cons]
    cases hparse : credentialsParse api ns config with
    | false =>
      obtain ⟨msg, hclient⟩ := natsClientFor_unparsable hparse
      simp [hclient]
    | true =>
      rw [if_pos rfl, List.find?_cons]
      cases hconnects : connects api config with
      | false =>
        obtain ⟨e, hclient⟩ := natsClientFor_refused hparse hconnects
        rw [hclient]
        exact ih
      | true =>
        rw [natsClientFor_connected hparse hconnects]
        simp only [pure_apply, Except.ok.injEq, Option.some.injEq, exists_eq_left', eq_comm]

def Sends (P : Request → Prop) (x : HandlerM α) : Prop :=
  ∀ log, ∃ new, (x log).2 = log ++ new ∧ ∀ q ∈ new, P q

variable {P : Request → Prop}

theorem Sends.quiet {x : HandlerM α} (h : ReadOnly x) : Sends P x := by
  intro log
  exact ⟨[], by rw [h, List.append_nil], fun _ hq => absurd hq List.not_mem_nil⟩

theorem Sends.bind {x : HandlerM α} {f : α → HandlerM β} (hx : Sends P x)
    (hf : ∀ a, Sends P (f a)) : Sends P (x >>= f) := by
  intro log
  obtain ⟨new, hnew, hall⟩ := hx log
  rw [bind_eq]
  rcases hlog : x log with ⟨e | a, log'⟩ <;> rw [hlog] at hnew
  · exact ⟨new, hnew, hall⟩
  · obtain rfl : log' = log ++ new := hnew
    obtain ⟨more, hmore, hrest⟩ := hf a (log ++ new)
    refine ⟨new ++ more, by rw [hmore, List.append_assoc], fun q hq => ?_⟩
    rcases List.mem_append.mp hq with hq | hq
    · exact hall q hq
    · exact hrest q hq

def AddressedTo (r : NatsClient × String) (q : Request) : Prop :=
  q.client = r.1 ∧ q.latticeId = r.2

theorem wadm_sends (r : NatsClient × String) (call : WadmCall) (answer : Except ClientError α)
    (refused : ClientError → Response) : Sends (AddressedTo r) (wadm r.1 r.2 call answer refused) := by
  intro log
  refine ⟨[⟨r.1, r.2, call⟩], rfl, fun q hq => ?_⟩
  rw [List.mem_singleton.mp hq]
  exact ⟨rfl, rfl⟩

theorem connection_readOnly (unable ns : String) : ReadOnly (connection api unable ns) :=
  .bind (hostConfigs_readOnly api _ _) (getLatticeConnection_readOnly ns)

theorem connection_ok {unable : String} {r : NatsClient × String} {log' : List Request}
    (h : connection api unable ns log = (.ok r, log')) : ∃ configs config,
      api.listConfigs (some ns) = .ok configs ∧ chosen api ns configs = some config ∧
        r = (connectionOf api ns config, config.spec.lattice) := by
  obtain ⟨configs, log₁, hlist, hconn⟩ := bind_eq_ok h
  obtain ⟨config, hchosen, hr⟩ := (getLatticeConnection_ok api ns configs log₁ r).mp (by rw [hconn])
  exact ⟨configs, config, (hostConfigs_ok api hlist).1, hchosen, hr⟩

theorem wadm_ok {client : NatsClient} {latticeId : String} {call : WadmCall} {a : α}
    {answer : Except ClientError α} (refused : ClientError → Response) (h : answer = .ok a) :
    wadm client latticeId call answer refused log = (.ok a, log ++ [⟨client, latticeId, call⟩]) := by
  rw [h]
  rfl

theorem getApplication_run (accept : As) {name : String} {client : NatsClient}
    {latticeId : String} {manifest : StoredManifest} {status : Status}
    (hconn : connection api "unable to list cosmonic host configs: " ns log =
      (.ok (client, latticeId), log))
    (hmanifest : api.nats.getManifest client latticeId name none = .ok manifest)
    (hstatus : api.nats.getManifestStatus client latticeId name = .ok status) :
    getApplication api accept ns name log = manifestResponse api accept ns name manifest status
      (log ++ [⟨client, latticeId, .getManifest name none⟩] ++
        [⟨client, latticeId, .getManifestStatus name⟩]) :=
  (bind_of_ok hconn).trans ((bind_of_ok (wadm_ok _ hmanifest)).trans
    (bind_of_ok (wadm_ok _ hstatus)))

theorem patchApplication_run {name : String} {client : NatsClient} {latticeId : String}
    {manifest : StoredManifest} (body : ByteArray)
    (hconn : connection api "unable to list cosmonic host configs: " ns log =
      (.ok (client, latticeId), log))
    (hmanifest : api.nats.getManifest client latticeId name none = .ok manifest) :
    patchApplication api ns name body log = deployPatched api client latticeId name manifest body
      (log ++ [⟨client, latticeId, .getManifest name none⟩]) :=
  (bind_of_ok hconn).trans (bind_of_ok (wadm_ok _ hmanifest))

theorem deployPatched_sends (r : NatsClient × String) (name : String) (manifest : StoredManifest)
    (body : ByteArray) : Sends (AddressedTo r) (deployPatched api r.1 r.2 name manifest body) := by
  refine .bind (.quiet (orInternal_readOnly _ _)) fun patch => ?_
  refine .bind (.quiet (orInternal_readOnly _ _)) fun updated => ?_
  exact .bind (wadm_sends r _ _ _) fun _ => .quiet (.pure _)

theorem requests_of_connection {unable : String} {k : NatsClient × String → HandlerM α}
    (hk : ∀ r, Sends (AddressedTo r) (k r)) : ∀ q ∈ ((connection api unable ns >>= k) []).2,
      ∃ configs config, api.listConfigs (some ns) = .ok configs ∧
        chosen api ns configs = some config ∧
          AddressedTo (connectionOf api ns config, config.spec.lattice) q := by
  intro q hq
  have hlog : (connection api unable ns []).2 = [] := connection_readOnly unable ns []
  rw [bind_eq] at hq
  rcases hconn : connection api unable ns [] with ⟨e | r, log'⟩ <;> rw [hconn] at hq hlog
  · rw [show log' = [] from hlog] at hq
    cases hq
  · obtain ⟨configs, config, hlist, hchosen, hr⟩ := connection_ok hconn
    refine ⟨configs, config, hlist, hchosen, ?_⟩
    obtain ⟨new, hnew, hall⟩ := hk r log'
    rw [← hr]
    apply hall
    rwa [hnew, show log' = [] from hlog, List.nil_append] at hq

inductive ApplicationCall where
  | create (body : ByteArray)
  | get (accept : As) (name : String)
  | patch (name : String) (body : ByteArray)
  | delete (name : String)

def handle (api : ApplicationApi) (ns : String) : ApplicationCall → HandlerM Response
  | .create body => createApplication api ns body
  | .get accept name => getApplication api accept ns name
  | .patch name body => patchApplication api ns name body
  | .delete name => deleteApplication api ns name

theorem manifestResponse_readOnly (accept : As) (ns name : String) (manifest : StoredManifest)
    (status : Status) : ReadOnly (manifestResponse api accept ns name manifest status) := by
  unfold manifestResponse
  split
  · exact .pure _
  · split
    · exact .pure _
    · exact .throw _
  · exact .pure _

theorem handle_requests (call : ApplicationCall) : ∀ q ∈ (handle api ns call []).2,
    ∃ configs config, api.listConfigs (some ns) = .ok configs ∧
      chosen api ns configs = some config ∧
        AddressedTo (connectionOf api ns config, config.spec.lattice) q := by
  cases call with
  | create body =>
    refine requests_of_connection fun r => ?_
    refine .bind (.quiet (orInternal_readOnly _ _)) fun manifest => ?_
    exact .bind (wadm_sends r _ _ _) fun _ => .quiet (.pure _)
  | get accept name =>
    refine requests_of_connection fun r => ?_
    refine .bind (wadm_sends r _ _ _) fun manifest => ?_
    exact .bind (wadm_sends r _ _ _) fun status => .quiet (manifestResponse_readOnly _ _ _ _ _)
  | patch name body =>
    refine requests_of_connection fun r => ?_
    exact .bind (wadm_sends r _ _ _) fun manifest => deployPatched_sends r name manifest body
  | delete name =>
    refine requests_of_connection fun r => ?_
    exact .bind (wadm_sends r _ _ _) fun _ => .quiet (.pure _)

/-- The same API while the attempts succeed that `pattern` lets succeed. -/
def during (api : ApplicationApi) (configs : List HostConfig)
    (pattern : HostConfig → Except String Unit) : ApplicationApi :=
  { api with listConfigs := fun _ => .ok configs, connect := pattern }

/-- Under any two patterns the connection, and so every request of a handler, is to the
same lattice. -/
structure NoRedirect (api : ApplicationApi) (ns : String) (configs : List HostConfig) : Prop where
  connection : ∀ p q r r',
    (getLatticeConnection (during api configs p) ns configs []).1 = .ok r →
      (getLatticeConnection (during api configs q) ns configs []).1 = .ok r' → r.2 = r'.2
  requests : ∀ p q call call', ∀ a ∈ (handle (during api configs p) ns call []).2,
    ∀ b ∈ (handle (during api configs q) ns call' []).2, a.latticeId = b.latticeId

def OneLattice (api : ApplicationApi) (ns : String) (configs : List HostConfig) : Prop :=
  ∀ a ∈ tried api ns configs, ∀ b ∈ tried api ns configs, a.spec.lattice = b.spec.lattice

theorem chosen_tried {pattern : HostConfig → Except String Unit} {config : HostConfig}
    (h : chosen (during api configs pattern) ns configs = some config) :
    config ∈ tried api ns configs :=
  List.mem_of_find?_eq_some h

def onlyUp (up : HostConfig → Bool) (config : HostConfig) : Except String Unit :=
  if up config then .ok () else .error "connection refused"

theorem onlyUp_isOk (up : HostConfig → Bool) (config : HostConfig) :
    (onlyUp up config).isOk = up config := by
  unfold onlyUp
  cases up config <;> rfl

theorem chosen_onlyUp (up : HostConfig → Bool) :
    chosen (during api configs (onlyUp up)) ns configs = (tried api ns configs).find? up := by
  have hup : connects (during api configs (onlyUp up)) = up := funext fun config =>
    onlyUp_isOk up config
  rw [chosen, hup]
  rfl

theorem exists_chosen {config : HostConfig} (h : config ∈ tried api ns configs) :
    ∃ up, chosen (during api configs (onlyUp up)) ns configs = some config := by
  classical
  let up : HostConfig → Bool := fun other => decide (other = config)
  have hsome : ((tried api ns configs).find? up).isSome = true :=
    List.find?_isSome.mpr ⟨config, h, decide_eq_true rfl⟩
  obtain ⟨found, hfound⟩ := Option.isSome_iff_exists.mp hsome
  have hsame : found = config := of_decide_eq_true (List.find?_some (p := up) hfound)
  exact ⟨up, (chosen_onlyUp up).trans (hsame ▸ hfound)⟩

theorem noRedirect_iff (api : ApplicationApi) (ns : String) (configs : List HostConfig) :
    NoRedirect api ns configs ↔ OneLattice api ns configs := by
  constructor
  · intro hall a ha b hb
    obtain ⟨up, hup⟩ := exists_chosen ha
    obtain ⟨up', hup'⟩ := exists_chosen hb
    exact hall.connection _ _ _ _
      ((getLatticeConnection_ok _ ns configs [] _).mpr ⟨a, hup, rfl⟩)
      ((getLatticeConnection_ok _ ns configs [] _).mpr ⟨b, hup', rfl⟩)
  · intro hone
    constructor
    · intro p q r r' hr hr'
      obtain ⟨a, ha, rfl⟩ := (getLatticeConnection_ok _ ns configs [] r).mp hr
      obtain ⟨b, hb, rfl⟩ := (getLatticeConnection_ok _ ns configs [] r').mp hr'
      exact hone a (chosen_tried ha) b (chosen_tried hb)
    · intro p q call call' a ha b hb
      obtain ⟨found, config, hlist, hchosen, -, hlattice⟩ := handle_requests call a ha
      obtain ⟨found', config', hlist', hchosen', -, hlattice'⟩ := handle_requests call' b hb
      obtain rfl : configs = found := Except.ok.inj hlist
      obtain rfl : configs = found' := Except.ok.inj hlist'
      rw [hlattice, hlattice']
      exact hone config (chosen_tried hchosen) config' (chosen_tried hchosen')

def configOn (name natsAddress lattice : String) : HostConfig :=
  { uid := "uid-" ++ name, ns := "default", name := name
    spec := { HostConfigSpec.sample with natsAddress := natsAddress, lattice := lattice } }

/-- Two configs of one namespace with lattices of their own: while the attempt for the first
one fails, a deletion goes to the second lattice. -/
theorem outage_redirects : ¬∀ api ns configs, NoRedirect api ns configs := by
  intro h
  let api : ApplicationApi := { listConfigs := fun _ => .ok [], documents := .sample }
  let first := configOn "first" "nats://first" "red"
  let second := configOn "second" "nats://second" "blue"
  have hsame := (h api "default" [first, second]).requests
    (onlyUp fun config => config.name = "first") (onlyUp fun config => config.name = "second")
    (.delete "echo") (.delete "echo") _ List.mem_cons_self _ List.mem_cons_self
  revert hsame
  decide

end Applications
end WadmOperator

import WadmOperator.LatticeConnection
import WadmOperator.ReconcileSteps

/-!
# Stored credentials that do not parse

A reconcile stores the text of a Secret before anything parses it, and the handlers take
it from there. They pass over a config that does not connect, but a text that does not
parse ends the request, unless an earlier config connects.
-/

namespace WadmOperator

/-- The context after a step, also after one that ends with an error. -/
def Reconcile.proceed (lib : Libraries) (s : Context) : Label → Context
  | .reconcile key answers => (reconcileCrd lib answers key s).2
  | .cleanup key =>
    match (s.objects .hostConfig).get? key with
    | some stored => (cleanup (configOf key stored) s).1
    | none => s
  | .edit kind key x => edited s kind key x

def Reconcile.Produced (natsCreds : Dict NameNamespace String) : Prop :=
  ∃ (lib : Libraries) (labels : List Label),
    natsCreds = (labels.foldl (proceed lib) {}).natsCreds

namespace Applications

open Procedure

variable {api : ApplicationApi} {ns : String} {config : HostConfig} {configs : List HostConfig}
  {log : List Request} {α : Type}

def usable (api : ApplicationApi) (ns : String) (config : HostConfig) : Bool :=
  credentialsParse api ns config && connects api config

/-- The first config that can be used decides, and without one the request is answered. -/
def firstUsable (api : ApplicationApi) (ns : String) (configs : List HostConfig) :
    Except Abort (NatsClient × String) :=
  match configs.find? (usable api ns) with
  | some config => .ok (connectionOf api ns config, config.spec.lattice)
  | none => .error (.answered (.internalError "unable to initialize nats client"))

def Panics (e : Abort) : Prop := ∃ msg, e = .panicked msg

abbrev NeverPanics (x : HandlerM α) : Prop := FailsWith (fun e => ¬Panics e) x

/-- No stored text ends a request, and one that does not parse is passed over. -/
structure SurvivesCredentials (api : ApplicationApi) (ns : String) (configs : List HostConfig) :
    Prop where
  connection : ∀ log, getLatticeConnection api ns configs log = (firstUsable api ns configs, log)
  requests : api.listConfigs (some ns) = .ok configs → ∀ call, NeverPanics (handle api ns call)

def ParseUntilUsable (api : ApplicationApi) (ns : String) (configs : List HostConfig) : Prop :=
  ∀ config ∈ configs.takeWhile fun c => !usable api ns c, credentialsParse api ns config = true

/-! ## One config -/

theorem getLatticeConnection_unparsable (h : credentialsParse api ns config = false) :
    ∃ msg, getLatticeConnection api ns (config :: configs) log = (.error (.panicked msg), log) := by
  obtain ⟨msg, hclient⟩ := natsClientFor_unparsable h
  rw [getLatticeConnection, hclient]
  exact ⟨msg, rfl⟩

theorem getLatticeConnection_usable (h : usable api ns config = true) :
    getLatticeConnection api ns (config :: configs) log =
      (.ok (connectionOf api ns config, config.spec.lattice), log) := by
  obtain ⟨hparse, hconnects⟩ := Bool.and_eq_true_iff.mp h
  rw [getLatticeConnection, natsClientFor_connected hparse hconnects]
  rfl

theorem getLatticeConnection_skipped (hparse : credentialsParse api ns config = true)
    (h : usable api ns config = false) :
    getLatticeConnection api ns (config :: configs) log =
      getLatticeConnection api ns configs log := by
  rw [usable, hparse, Bool.true_and] at h
  obtain ⟨e, hclient⟩ := natsClientFor_refused hparse h
  rw [getLatticeConnection, hclient]

/-! ## All configs -/

theorem parseUntilUsable_cons (h : usable api ns config = false) :
    ParseUntilUsable api ns (config :: configs) ↔
      credentialsParse api ns config = true ∧ ParseUntilUsable api ns configs := by
  rw [ParseUntilUsable, List.takeWhile_cons_of_pos (by rw [h]; rfl), List.forall_mem_cons]
  rfl

theorem firstUsable_not_panics {e : Abort} (h : firstUsable api ns configs = .error e) :
    ¬Panics e := by
  intro hpanics
  obtain ⟨msg, rfl⟩ := hpanics
  unfold firstUsable at h
  split at h <;> cases h

theorem getLatticeConnection_of_parse (h : ParseUntilUsable api ns configs) :
    getLatticeConnection api ns configs log = (firstUsable api ns configs, log) := by
  induction configs with
  | nil => rfl
  | cons config configs ih =>
    cases husable : usable api ns config with
    | true => rw [getLatticeConnection_usable husable, firstUsable, List.find?_cons_of_pos husable]
    | false =>
      obtain ⟨hparse, hrest⟩ := (parseUntilUsable_cons husable).mp h
      rw [getLatticeConnection_skipped hparse husable, ih hrest, firstUsable, firstUsable,
        List.find?_cons_of_neg (by rw [husable]; exact Bool.false_ne_true)]

theorem getLatticeConnection_panics (h : ¬ParseUntilUsable api ns configs) :
    ∃ msg, getLatticeConnection api ns configs log = (.error (.panicked msg), log) := by
  induction configs with
  | nil => exact absurd (List.forall_mem_nil _) h
  | cons config configs ih =>
    cases husable : usable api ns config with
    | true =>
      refine absurd ?_ h
      rw [ParseUntilUsable, List.takeWhile_cons_of_neg (by rw [husable]; exact Bool.false_ne_true)]
      exact List.forall_mem_nil _
    | false =>
      rw [parseUntilUsable_cons husable, not_and_or, Bool.not_eq_true] at h
      cases hparse : credentialsParse api ns config with
      | false => exact getLatticeConnection_unparsable hparse
      | true =>
        rw [getLatticeConnection_skipped hparse husable]
        rw [hparse] at h
        exact ih (h.resolve_left Bool.noConfusion)

/-! ## The handlers -/

theorem not_panics_answered (response : Response) : ¬Panics (.answered response) := by
  intro h
  obtain ⟨msg, hmsg⟩ := h
  cases hmsg

theorem orInternal_neverPanics (what : String) (r : Except String α) :
    NeverPanics (orInternal what r) := by
  intro log e log' h
  rw [orInternal, ofExcept_apply] at h
  cases r with
  | error msg =>
    rw [← Except.error.inj (Prod.mk.inj h).1]
    exact not_panics_answered _
  | ok a => cases (Prod.mk.inj h).1

theorem wadm_neverPanics (client : NatsClient) (latticeId : String) (call : WadmCall)
    (answer : Except ClientError α) (refused : ClientError → Response) :
    NeverPanics (wadm client latticeId call answer refused) := by
  intro log e log' h
  cases answer with
  | error err =>
    rw [← Except.error.inj (Prod.mk.inj h).1]
    exact not_panics_answered _
  | ok a => cases (Prod.mk.inj h).1

theorem manifestResponse_neverPanics (accept : As) (ns name : String) (manifest : StoredManifest)
    (status : Status) : NeverPanics (manifestResponse api accept ns name manifest status) := by
  unfold manifestResponse
  split
  · exact .pure _
  · obtain ⟨value, metadata, hvalue, -⟩ := manifestValue_object api ns name manifest status
    rw [hvalue]
    exact .pure _
  · exact .pure _

theorem deployPatched_neverPanics (client : NatsClient) (latticeId name : String)
    (manifest : StoredManifest) (body : ByteArray) :
    NeverPanics (deployPatched api client latticeId name manifest body) := by
  refine .bind (orInternal_neverPanics _ _) fun patch => ?_
  refine .bind (orInternal_neverPanics _ _) fun updated => ?_
  exact .bind (wadm_neverPanics _ _ _ _ _) fun _ => .pure _

theorem connection_neverPanics (hlist : api.listConfigs (some ns) = .ok configs)
    (h : ParseUntilUsable api ns configs) (unable : String) :
    NeverPanics (connection api unable ns) := by
  intro log e log' hrun
  rw [connection, bind_eq] at hrun
  rcases hhost : hostConfigs api unable (some ns) log with ⟨e' | found, log₁⟩ <;> rw [hhost] at hrun
  · obtain rfl := Except.error.inj (Prod.mk.inj hrun).1
    exact FailsWith.bind (orInternal_neverPanics _ _) (fun _ => orInternal_neverPanics _ _)
      _ _ _ hhost
  · obtain ⟨hfound, -⟩ := hostConfigs_ok api hhost
    obtain rfl := Except.ok.inj (hlist.symm.trans hfound)
    have hresult := (Prod.mk.inj ((getLatticeConnection_of_parse h).symm.trans hrun)).1
    exact firstUsable_not_panics hresult

theorem handle_neverPanics (hlist : api.listConfigs (some ns) = .ok configs)
    (h : ParseUntilUsable api ns configs) (call : ApplicationCall) :
    NeverPanics (handle api ns call) := by
  cases call with
  | create body =>
    refine .bind (connection_neverPanics hlist h _) fun r => ?_
    refine .bind (orInternal_neverPanics _ _) fun manifest => ?_
    exact .bind (wadm_neverPanics _ _ _ _ _) fun _ => .pure _
  | get accept name =>
    refine .bind (connection_neverPanics hlist h _) fun r => ?_
    refine .bind (wadm_neverPanics _ _ _ _ _) fun manifest => ?_
    exact .bind (wadm_neverPanics _ _ _ _ _) fun status => manifestResponse_neverPanics _ _ _ _ _
  | patch name body =>
    refine .bind (connection_neverPanics hlist h _) fun r => ?_
    exact .bind (wadm_neverPanics _ _ _ _ _) fun manifest => deployPatched_neverPanics _ _ _ _ _
  | delete name =>
    refine .bind (connection_neverPanics hlist h _) fun r => ?_
    exact .bind (wadm_neverPanics _ _ _ _ _) fun _ => .pure _

theorem not_survivesCredentials
    (h : ∃ msg, getLatticeConnection api ns configs [] = (.error (.panicked msg), [])) :
    ¬SurvivesCredentials api ns configs := by
  intro hsurvives
  obtain ⟨msg, hpanics⟩ := h
  have hresult := (Prod.mk.inj ((hsurvives.connection []).symm.trans hpanics)).1
  exact firstUsable_not_panics hresult ⟨msg, rfl⟩

/-- Requests survive the stored credentials exactly when every config before the first
usable one has credentials that parse. -/
theorem survivesCredentials_iff (api : ApplicationApi) (ns : String) (configs : List HostConfig) :
    SurvivesCredentials api ns configs ↔ ParseUntilUsable api ns configs := by
  constructor
  · intro hsurvives
    by_contra hnot
    exact not_survivesCredentials (getLatticeConnection_panics hnot) hsurvives
  · intro hparse
    exact ⟨fun _ => getLatticeConnection_of_parse hparse,
      fun hlist call => handle_neverPanics hlist hparse call⟩

/-! ## A text that is no credentials file -/

def keptSecretly : StoredConfig where
  uid := "1"
  spec := { HostConfigSpec.sample with secretName := some "creds" }

def refusing : Nats := { withCredentials := fun _ => .error "no JWT in the file" }

def secretReconciled : List Reconcile.Label :=
  [.edit .secret ("default", "creds")
      (some { data := some (Dict.empty.put "nats.creds" "password".toUTF8) }),
    .edit .hostConfig ("default", "host") (some keptSecretly),
    .reconcile ("default", "host") { nats := refusing }]

/-- The reconcile fails, but the text stays and ends the next request. -/
theorem stored_text_panics : ¬∀ api ns configs, Reconcile.Produced api.natsCreds →
    api.listConfigs (some ns) = .ok configs → SurvivesCredentials api ns configs := by
  intro h
  let natsCreds := (secretReconciled.foldl (Reconcile.proceed .sample) {}).natsCreds
  let config := Reconcile.configOf ("default", "host") keptSecretly
  let api : ApplicationApi :=
    { listConfigs := fun _ => .ok [config], natsCreds := natsCreds, nats := refusing
      documents := .sample }
  have hcreds : natsCreds.get? ⟨"host", "default"⟩ = some "password" := by decide +kernel
  have hsurvives := h api "default" [config] ⟨.sample, secretReconciled, rfl⟩ rfl
  have hunparsable : credentialsParse api "default" config = false := by
    rw [credentialsParse, connectionOf]
    change (refusing.connectOptions (natsCreds.get? ⟨"host", "default"⟩)).isOk = false
    rw [hcreds]
    rfl
  exact not_survivesCredentials (getLatticeConnection_unparsable hunparsable) hsurvives

end Applications
end WadmOperator

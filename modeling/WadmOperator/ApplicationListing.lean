import WadmOperator.Applications
import WadmOperator.Foundation.Firsts

/-!
# Listing the applications

Both loops over the configs ask each lattice id once, at the server of the first config
that has it. The same id on another server is another lattice, which is left out.
-/

namespace WadmOperator
namespace Applications

open Procedure

variable {api : ApplicationApi} {accept : As} {content : Lattice → List AppSummary}
  {configs : List HostConfig} {log log' : List Request} {response : Response}

def Contents (nats : Nats) (content : Lattice → List AppSummary) : Prop :=
  ∀ client latticeId apps, nats.listManifests client latticeId = .ok apps →
    apps = content ⟨client.natsAddress, client.natsClientPort, latticeId⟩

def latticeKey (config : HostConfig) : String := config.spec.lattice

theorem latticeKey_of_latticeOf (a b : HostConfig) (h : a.latticeOf = b.latticeOf) :
    latticeKey a = latticeKey b := congrArg Lattice.latticeId h

theorem addApps_seen {nsOf : HostConfig → String} {config : HostConfig}
    {acc : List AppSummary × Finset String} (hseen : latticeKey config ∈ acc.2) :
    addApps api nsOf config acc = pure acc := if_pos hseen

def listRequest (api : ApplicationApi) (ns : String) (config : HostConfig) : Request :=
  ⟨connectionOf api ns config, config.spec.lattice, .listManifests⟩

theorem listRequest_lattice (ns : String) (config : HostConfig) :
    (listRequest api ns config).lattice = config.latticeOf := rfl

theorem addApps_ok (hcontents : Contents api.nats content) {nsOf : HostConfig → String}
    {config : HostConfig} {acc next : List AppSummary × Finset String}
    (hnew : latticeKey config ∉ acc.2) (h : addApps api nsOf config acc log = (.ok next, log')) :
    next = (acc.1 ++ content config.latticeOf, insert (latticeKey config) acc.2) ∧
      log' = log ++ [listRequest api (nsOf config) config] := by
  rw [show addApps api nsOf config acc = _ from if_neg hnew] at h
  obtain ⟨result, log₁, hlist, hrest⟩ := bind_eq_ok h
  obtain ⟨hresult, rfl⟩ := orInternal_ok hlist
  obtain ⟨⟨⟩, log₂, hrecord, hpure⟩ := bind_eq_ok hrest
  obtain ⟨rfl, rfl⟩ := pure_eq_ok hpure
  rw [hcontents _ _ _ (Nats.listApps_eq hresult)]
  exact ⟨rfl, (Prod.mk.inj hrecord).2.symm⟩

theorem collectApps_ok (hcontents : Contents api.nats content) {nsOf : HostConfig → String}
    {acc : List AppSummary × Finset String} {apps : List AppSummary}
    (h : collectApps api nsOf configs acc log = (.ok apps, log')) :
    (apps = acc.1 ++ (firstsFrom latticeKey acc.2 configs).flatMap fun config =>
      content config.latticeOf) ∧
      log' = log ++ (firstsFrom latticeKey acc.2 configs).map fun config =>
        listRequest api (nsOf config) config := by
  induction configs generalizing acc log with
  | nil =>
    obtain ⟨rfl, rfl⟩ := pure_eq_ok h
    exact ⟨(List.append_nil _).symm, (List.append_nil _).symm⟩
  | cons config configs ih =>
    obtain ⟨next, log₁, hadd, hrest⟩ := bind_eq_ok h
    rw [firstsFrom]
    by_cases hseen : latticeKey config ∈ acc.2
    · rw [addApps_seen hseen] at hadd
      obtain ⟨rfl, rfl⟩ := pure_eq_ok hadd
      rw [if_pos hseen]
      exact ih hrest
    · obtain ⟨rfl, rfl⟩ := addApps_ok hcontents hseen hadd
      rw [if_neg hseen, List.flatMap_cons, ← List.append_assoc, List.map_cons,
        ← List.singleton_append, ← List.append_assoc]
      exact ih hrest

def listing (api : ApplicationApi) (accept : As) : Option String → HandlerM Response
  | none => listAllApplications api accept
  | some ns => listApplications api accept ns

theorem listing_ok (hcontents : Contents api.nats content) {ns : Option String}
    (hconfigs : api.listConfigs ns = .ok configs)
    (h : listing api accept ns log = (.ok response, log')) :
    (response = listResponse api accept
      ((firsts latticeKey configs).flatMap fun config => content config.latticeOf)) ∧
      log' = log ++ (firsts latticeKey configs).map fun config =>
        listRequest api (ns.getD config.ns) config := by
  have hloop : ∀ nsOf : HostConfig → String, (∀ config, nsOf config = ns.getD config.ns) → (do
      let configs ← hostConfigs api "Unable to list cosmonic host configs: " ns
      let apps ← collectApps api nsOf configs ([], ∅)
      pure (listResponse api accept apps) : HandlerM Response) log = (.ok response, log') →
        (response = listResponse api accept
          ((firsts latticeKey configs).flatMap fun config => content config.latticeOf)) ∧
          log' = log ++ (firsts latticeKey configs).map fun config =>
            listRequest api (ns.getD config.ns) config := by
    intro nsOf hns hrun
    obtain rfl : nsOf = fun config => ns.getD config.ns := funext hns
    obtain ⟨listed, log₁, hlisted, hrest⟩ := bind_eq_ok hrun
    obtain ⟨hanswer, rfl⟩ := hostConfigs_ok api hlisted
    obtain rfl := Except.ok.inj (hconfigs.symm.trans hanswer)
    obtain ⟨apps, log₃, hcollect, hpure⟩ := bind_eq_ok hrest
    obtain ⟨rfl, rfl⟩ := pure_eq_ok hpure
    obtain ⟨rfl, rfl⟩ := collectApps_ok hcontents hcollect
    exact ⟨rfl, rfl⟩
  cases ns with
  | none => exact hloop HostConfig.ns (fun _ => rfl) h
  | some ns => exact hloop (fun _ => ns) (fun _ => rfl) h

def Lists (api : ApplicationApi) (accept : As) (apps : List AppSummary) (response : Response) :
    Prop :=
  accept = .table ∧ response = .ok (.table (.ofSummaries apps)) ∨
    accept = .notSpecified ∧ response = .ok (.list (listOf api (apps.map (partialOf api))))

/-- The applications of each lattice that some config reaches, once, and nothing else. -/
def CompleteListing (api : ApplicationApi) (accept : As) (content : Lattice → List AppSummary)
    (configs : List HostConfig) (response : Response) : Prop :=
  ∃ apps, Lists api accept apps response ∧
    apps.Perm ((configs.map HostConfig.latticeOf).dedup.flatMap content)

theorem length_of_lists {apps apps' : List AppSummary}
    (h : Lists api accept apps (listResponse api accept apps')) : apps.length = apps'.length := by
  rcases h with ⟨rfl, hresponse⟩ | ⟨rfl, hresponse⟩
  · have htable := Body.table.inj (Response.ok_inj hresponse)
    have hrows := congrArg (fun table => table.rows.length) htable
    simpa [ApplicationTable.ofSummaries] using hrows.symm
  · have hlist := Body.list.inj (Response.ok_inj hresponse)
    have hitems := congrArg (fun list => list.items.length) hlist
    simpa [listOf] using hitems.symm

/-- When all queries succeed, the listing is complete exactly when a Table or no kind was
asked for and all applications are in the lattices of the first configs. -/
theorem listing_complete_iff (hcontents : Contents api.nats content) (ns : Option String)
    (hconfigs : api.listConfigs ns = .ok configs)
    (h : listing api accept ns log = (.ok response, log')) :
    CompleteListing api accept content configs response ↔
      (accept = .table ∨ accept = .notSpecified) ∧
        RestEmpty latticeKey HostConfig.latticeOf content configs := by
  obtain ⟨rfl, -⟩ := listing_ok hcontents hconfigs h
  constructor
  · intro hcomplete
    obtain ⟨apps, hlists, hperm⟩ := hcomplete
    refine ⟨hlists.imp And.left And.left, ?_⟩
    apply restEmpty_of_length latticeKey_of_latticeOf
    rw [← length_of_lists hlists, hperm.length_eq]
  · intro hcond
    obtain ⟨haccept, hrest⟩ := hcond
    refine ⟨_, ?_, firsts_contents latticeKey_of_latticeOf hrest⟩
    rcases haccept with rfl | rfl
    · exact .inl ⟨rfl, rfl⟩
    · exact .inr ⟨rfl, rfl⟩

def hostAt (name natsAddress : String) : HostConfig :=
  { uid := "uid-" ++ name, ns := "default", name := name
    spec := { HostConfigSpec.sample with natsAddress := natsAddress } }

def echoAt (natsAddress : String) (lattice : Lattice) : List AppSummary :=
  if lattice.natsAddress = natsAddress then
    [{ name := "echo", version := "v1", deployedVersion := some "v1", status := .deployed }]
  else []

def serving (content : Lattice → List AppSummary) : Nats where
  listManifests client latticeId :=
    .ok (content ⟨client.natsAddress, client.natsClientPort, latticeId⟩)

theorem serving_contents (content : Lattice → List AppSummary) :
    Contents (serving content) content :=
  fun _ _ _ h => (Except.ok.inj h).symm

def sampleApi (content : Lattice → List AppSummary) (configs : List HostConfig) :
    ApplicationApi where
  listConfigs _ := .ok configs
  nats := serving content
  documents := .sample

def twoServers : List HostConfig := [hostAt "host" "nats://first", hostAt "other" "nats://second"]

theorem listing_complete_first : CompleteListing (sampleApi (echoAt "nats://first") twoServers)
    .table (echoAt "nats://first") twoServers
      (listResponse (sampleApi (echoAt "nats://first") twoServers) .table
        (echoAt "nats://first" (hostAt "host" "nats://first").latticeOf)) := by
  have hrun : listing (sampleApi (echoAt "nats://first") twoServers) .table none [] =
      (.ok (listResponse (sampleApi (echoAt "nats://first") twoServers) .table
        (echoAt "nats://first" (hostAt "host" "nats://first").latticeOf)), _) := rfl
  refine (listing_complete_iff (serving_contents _) none rfl hrun).mpr ⟨.inl rfl, ?_⟩
  intro a ha b hb hne
  simp only [twoServers, List.mem_cons, List.not_mem_nil, or_false] at ha
  rcases ha with rfl | rfl
  · obtain rfl : hostAt "host" "nats://first" = b := Option.some.inj hb
    exact absurd rfl hne
  · rfl

/-- Two configs have one lattice id on two servers, and the application of the second
server is not listed. -/
theorem second_server_left_out :
    ¬∀ api accept content configs ns log log' response, Contents api.nats content →
      (accept = .table ∨ accept = .notSpecified) → api.listConfigs ns = .ok configs →
        listing api accept ns log = (.ok response, log') →
          CompleteListing api accept content configs response := by
  intro h
  obtain ⟨apps, hlists, hperm⟩ := h (sampleApi (echoAt "nats://second") twoServers) .table _
    twoServers none [] _ (listResponse (sampleApi (echoAt "nats://second") twoServers) .table [])
    (serving_contents _) (.inl rfl) rfl rfl
  have hlength := (length_of_lists hlists).symm.trans hperm.length_eq
  revert hlength
  decide

end Applications
end WadmOperator

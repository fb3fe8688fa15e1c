import WadmOperator.EndpointSlices
import WadmOperator.Commands.Removals
import WadmOperator.Foundation.LocalSteps

/-!
# How far a failure reaches

A command works on its targets one after the other. The upsert and the removal of all
Services of a namespace stop at the first target that fails, the removal of one Service
goes on. What one target's calls do is given in closed form, which shows that targets
do not see each other; the rules for local steps then tell the loops apart.
-/

namespace WadmOperator
namespace LocalFailures

open Commands Outcome EndpointSlices

variable {api : ApiServer} {fails : ApiCall → Bool} {params : ServiceParams}
  {ownerRef : Option OwnerReference} {c : Cluster}

def endpointsFail (fails : ApiCall → Bool) (params : ServiceParams) (c : Cluster) (ns : String) :
    Bool :=
  fails ⟨.list, .hostConfig, ns, ""⟩ ||
    ((c.configsIn ns).any fun cfg =>
      cfg.spec.lattice = params.latticeId && fails ⟨.list, .pod, cfg.ns, cfg.name⟩) ||
    (!(hostIps c ns params.latticeId).isEmpty && fails ⟨.patch, .endpointSlice, ns, params.name⟩)

def upsertFails (fails : ApiCall → Bool) (params : ServiceParams) (c : Cluster) (ns : String) :
    Bool :=
  fails (patchCall (ns, params.name)) ||
    (params.hostLabels.isNone && endpointsFail fails params c ns)

theorem collectIps_error {latticeId : String} {configs : List WasmCloudHostConfig} :
    (∃ call, collectIps fails c latticeId configs = .error call) ↔
      (configs.any fun cfg =>
        cfg.spec.lattice = latticeId && fails ⟨.list, .pod, cfg.ns, cfg.name⟩) = true := by
  induction configs with
  | nil =>
    constructor
    · intro hex
      obtain ⟨call, h⟩ := hex
      cases h
    · intro h
      cases h
  | cons cfg configs ih =>
    simp only [collectIps, List.any_cons]
    by_cases hlattice : cfg.spec.lattice = latticeId
    · by_cases hfails : fails ⟨.list, .pod, cfg.ns, cfg.name⟩ = true
      · simp [hlattice, hfails]
      · simp only [hlattice, hfails, if_true, if_false, Bool.false_eq_true, decide_true,
          Bool.true_and, Bool.false_or]
        rw [← ih]
        cases collectIps fails c latticeId configs with
        | error call => exact ⟨fun _ => ⟨call, rfl⟩, fun _ => ⟨call, rfl⟩⟩
        | ok ips =>
          constructor <;>
          · intro hex
            obtain ⟨call, h⟩ := hex
            cases h
    · simp [hlattice, ih]

theorem createEndpoints_ok (api : ApiServer) (fails : ApiCall → Bool) (params : ServiceParams)
    (svc : Service) (ns : String) (c : Cluster) :
    (createEndpoints api fails params svc ns c).ok = !endpointsFail fails params c ns ∧
      (endpointsFail fails params c ns = true →
        (createEndpoints api fails params svc ns c).cluster = c) := by
  unfold createEndpoints endpointsFail
  by_cases hlist : fails ⟨.list, .hostConfig, ns, ""⟩ = true
  · simp [hlist, fail]
  simp only [hlist, Bool.false_eq_true, if_false, Bool.false_or]
  cases hips : collectIps fails c params.latticeId (c.configsIn ns) with
  | error call =>
    have hany := collectIps_error.mp ⟨call, hips⟩
    simp [hany, fail]
  | ok ips =>
    have hany : ((c.configsIn ns).any fun cfg =>
        cfg.spec.lattice = params.latticeId && fails ⟨.list, .pod, cfg.ns, cfg.name⟩) = false := by
      rw [Bool.eq_false_iff]
      intro hany
      obtain ⟨call, h⟩ := collectIps_error.mpr hany
      rw [hips] at h
      cases h
    obtain rfl : ips = hostIps c ns params.latticeId := Routing.collectIps_eq hips
    by_cases hempty : (hostIps c ns params.latticeId).isEmpty = true
    · simp [hany, hempty, succeed]
    by_cases hpatch : fails ⟨.patch, .endpointSlice, ns, params.name⟩ = true
    · simp [hempty, hpatch, fail]
    · simp [hany, hempty, hpatch]

theorem endpointsFail_sameOff {touched : ObjectKey → Prop} {c' : Cluster}
    (h : SameOff touched c c') (ns : String) :
    endpointsFail fails params c' ns = endpointsFail fails params c ns := by
  simp only [endpointsFail, hostIps_sameOff h, Cluster.configsIn, h.configs]

theorem upsertIn_ok (api : ApiServer) (ownerRef : Option OwnerReference) (ns : String)
    (c : Cluster) :
    (upsertIn api fails params ownerRef ns c).ok = !upsertFails fails params c ns := by
  by_cases hpatch : fails (patchCall (ns, params.name)) = true
  · simp [upsertIn, upsertFails, hpatch, fail]
  have hpatch := Bool.eq_false_iff.mpr hpatch
  cases hlabels : params.hostLabels with
  | some labels => simp [upsertIn, upsertFails, hpatch, hlabels]
  | none =>
    have hend := (createEndpoints_ok api fails params
      (upserted api params ownerRef (c.service (ns, params.name))) ns
      (serviceWritten api params ownerRef ns c)).1
    rw [serviceWritten, endpointsFail_sameOff (.writeService c _ _)] at hend
    rw [(upsertIn_unlabelled api ownerRef c hlabels hpatch).2]
    simp only [upsertFails, hpatch, hlabels, Option.isNone_none, Bool.false_or, Bool.true_and]
    exact hend

theorem upsertIn_service (api : ApiServer) (ownerRef : Option OwnerReference) (ns : String)
    (c : Cluster) :
    (upsertIn api fails params ownerRef ns c).cluster.service (ns, params.name) =
      if fails (patchCall (ns, params.name)) then c.service (ns, params.name)
      else some (upserted api params ownerRef (c.service (ns, params.name))) := by
  rcases upsertIn_cases api fails params ownerRef ns c with ⟨hpatch, heq⟩ | ⟨hpatch, hservice, -⟩
  · rw [hpatch, if_pos rfl, heq]
    rfl
  · rw [hpatch, hservice]
    rfl

def sliceAfter (api : ApiServer) (params : ServiceParams) (ownerRef : Option OwnerReference)
    (c : Cluster) (ns : String) : Option EndpointSlice :=
  if params.hostLabels.isNone then
    refreshed api params (upserted api params ownerRef (c.service (ns, params.name)))
      (hostIps c ns params.latticeId) (c.endpointSlices.get? (ns, params.name))
  else c.endpointSlices.get? (ns, params.name)

theorem upsertIn_slice (api : ApiServer) (ownerRef : Option OwnerReference) (ns : String)
    (c : Cluster) (key : ObjectKey) :
    (upsertIn api fails params ownerRef ns c).cluster.endpointSlices.get? key =
      if key = (ns, params.name) ∧ upsertFails fails params c ns = false then
        sliceAfter api params ownerRef c ns
      else c.endpointSlices.get? key := by
  cases hlabels : params.hostLabels with
  | some labels =>
    rw [upsertIn_slices_labelled hlabels]
    split_ifs with hkey
    · simp only [sliceAfter, hlabels, Option.isNone_some, Bool.false_eq_true, if_false, hkey.1]
    · rfl
  | none =>
    by_cases hfails : upsertFails fails params c ns = true
    · rw [if_neg (by simp [hfails])]
      by_cases hpatch : fails (patchCall (ns, params.name)) = true
      · simp only [upsertIn, hpatch, if_true]
        rfl
      have hpatch := Bool.eq_false_iff.mpr hpatch
      simp only [upsertFails, hpatch, hlabels, Option.isNone_none, Bool.false_or,
        Bool.true_and] at hfails
      have hend := (createEndpoints_ok api fails params
        (upserted api params ownerRef (c.service (ns, params.name))) ns
        (serviceWritten api params ownerRef ns c)).2
      rw [serviceWritten, endpointsFail_sameOff (.writeService c _ _)] at hend
      rw [(upsertIn_unlabelled api ownerRef c hlabels hpatch).1, serviceWritten, hend hfails,
        writeService_slices]
    · have hfails := Bool.eq_false_iff.mpr hfails
      have hok : (upsertIn api fails params ownerRef ns c).ok = true := by
        rw [upsertIn_ok, hfails]
        rfl
      rw [upsertIn_slices hlabels hok]
      simp only [hfails, and_true, sliceAfter, hlabels, Option.isNone_none, if_true]
      split_ifs with hkey
      · rw [hkey]
      · rfl

theorem upsertFails_congr {c' : Cluster} (hconfigs : c.configs = c'.configs)
    (hpods : c.pods = c'.pods) (ns : String) :
    upsertFails fails params c ns = upsertFails fails params c' ns := by
  have hsame : SameOff (fun _ => True) c' c := ⟨fun _ h => absurd trivial h, hconfigs, hpods⟩
  simp only [upsertFails, endpointsFail_sameOff hsame]

def upsertSteps (api : ApiServer) (fails : ApiCall → Bool) (params : ServiceParams)
    (ownerRef : Option OwnerReference) :
    LocalSteps Cluster String (Option Service × Option EndpointSlice)
      (List WasmCloudHostConfig × List Pod × (ObjectKey → Option Service × Option EndpointSlice))
    where
  run ns c := ((upsertIn api fails params ownerRef ns c).cluster,
    (upsertIn api fails params ownerRef ns c).ok)
  look c ns := (c.service (ns, params.name), c.endpointSlices.get? (ns, params.name))
  surroundings c := (c.configs, c.pods, fun key =>
    if key.2 = params.name then (none, none) else (c.service key, c.endpointSlices.get? key))
  surroundings_run ns c := by
    have hsame : SameOff (· = (ns, params.name)) c
      (upsertIn api fails params ownerRef ns c).cluster := upsertIn_sameOff ns c
    rw [hsame.configs, hsame.pods]
    congr 2
    funext key
    split_ifs with hname
    · rfl
    · have hne : key ≠ (ns, params.name) := fun heq => hname (congrArg Prod.snd heq)
      rw [hsame.service key hne, upsertIn_slice, if_neg fun h => hne h.1]
  look_run ns c ns' hne := by
    have hkey : (ns', params.name) ≠ (ns, params.name) := fun heq => hne (Prod.mk.inj heq).1
    have hsame : SameOff (· = (ns, params.name)) c
      (upsertIn api fails params ownerRef ns c).cluster := upsertIn_sameOff ns c
    rw [hsame.service _ hkey, upsertIn_slice, if_neg fun h => hkey h.1]
  run_local ns c c' hsurr hlook := by
    obtain ⟨hconfigs, hrest⟩ := Prod.mk.inj hsurr
    obtain ⟨hpods, -⟩ := Prod.mk.inj hrest
    obtain ⟨hservice, hslice⟩ := Prod.mk.inj hlook
    have hsame : SameOff (fun _ => True) c' c := ⟨fun _ h => absurd trivial h, hconfigs, hpods⟩
    have hips := hostIps_sameOff hsame ns params.latticeId
    simp only [upsertIn_ok, upsertIn_service, upsertIn_slice, sliceAfter,
      upsertFails_congr hconfigs hpods, hservice, hslice, hips, and_self]

theorem upsertSteps_own (api : ApiServer) (ownerRef : Option OwnerReference) (c : Cluster)
    (ns : String) :
    (upsertSteps api fails params ownerRef).own c ns =
      (if fails (patchCall (ns, params.name)) then c.service (ns, params.name)
        else some (upserted api params ownerRef (c.service (ns, params.name))),
      if upsertFails fails params c ns = false then sliceAfter api params ownerRef c ns
        else c.endpointSlices.get? (ns, params.name)) := by
  simp only [LocalSteps.own, upsertSteps, upsertIn_service, upsertIn_slice, true_and]

theorem upsertSteps_fails (api : ApiServer) (ownerRef : Option OwnerReference) (c : Cluster)
    (ns : String) :
    (upsertSteps api fails params ownerRef).Fails c ns ↔ upsertFails fails params c ns = true := by
  simp [LocalSteps.Fails, upsertSteps, upsertIn_ok]

theorem createOrUpdateService_eq (order : List String) (c : Cluster) :
    (createOrUpdateService api fails params ownerRef order c).cluster =
      ((upsertSteps api fails params ownerRef).untilFailure order c).1 := by
  induction order generalizing c with
  | nil => rfl
  | cons ns rest ih =>
    rw [createOrUpdateService, cluster_andThen, ih]
    have hrun : (upsertSteps api fails params ownerRef).run ns c =
        ((upsertIn api fails params ownerRef ns c).cluster,
          (upsertIn api fails params ownerRef ns c).ok) := rfl
    simp only [LocalSteps.untilFailure, hrun]
    split <;> rfl

def UpsertKeeps (api : ApiServer) (fails : ApiCall → Bool) (params : ServiceParams)
    (c : Cluster) (ns : String) : Prop :=
  fails (patchCall (ns, params.name)) = true ∨
    c.service (ns, params.name) =
        some (upserted api params none (c.service (ns, params.name))) ∧
      (upsertFails fails params c ns = false →
        c.endpointSlices.get? (ns, params.name) = sliceAfter api params none c ns)

theorem upsertSteps_still {ns : String} :
    (upsertSteps api fails params none).Still c ns ↔ UpsertKeeps api fails params c ns := by
  rw [LocalSteps.Still, upsertSteps_own]
  unfold UpsertKeeps
  change (_, _) = (c.service (ns, params.name), c.endpointSlices.get? (ns, params.name)) ↔ _
  rw [Prod.mk.injEq]
  by_cases hpatch : fails (patchCall (ns, params.name)) = true
  · have hfails : upsertFails fails params c ns = true := by simp [upsertFails, hpatch]
    simp [hpatch, hfails]
  · by_cases hfails : upsertFails fails params c ns = true
    · simp only [hpatch, hfails, if_false, Bool.false_eq_true, Bool.true_eq_false, false_or,
        false_imp_iff, and_true]
      exact eq_comm
    · have hfails := Bool.eq_false_iff.mpr hfails
      simp only [hpatch, hfails, if_false, if_true, Bool.false_eq_true, false_or, true_imp_iff]
      exact and_congr eq_comm eq_comm

def deletionFails (api : ApiServer) (fails : ApiCall → Bool) (c : Cluster) (key : ObjectKey) :
    Bool :=
  match c.service key with
  | none => true
  | some svc =>
    fails (getCall key) || fails (patchCall key) || fails (deleteCall key) ||
      (Cluster.afterWrite (stripFinalizers api svc)).isNone

def deletionLeaves (api : ApiServer) (fails : ApiCall → Bool) (c : Cluster) (key : ObjectKey) :
    Option Service :=
  match c.service key with
  | none => none
  | some svc =>
    if fails (getCall key) || fails (patchCall key) then some svc
    else if fails (deleteCall key) then Cluster.afterWrite (stripFinalizers api svc)
    else removed api svc

theorem deleteService_deletes {key : ObjectKey} (h : (deleteService api fails key c).ok = true) :
    fails (deleteCall key) = false := by
  rw [Bool.eq_false_iff]
  intro hdelete
  unfold deleteService at h
  simp only [hdelete, if_true] at h
  split_ifs at h
  · cases h
  · split at h <;> cases h
  · split at h <;> cases h

theorem deleteService_spec (api : ApiServer) (fails : ApiCall → Bool) (c : Cluster)
    (key : ObjectKey) :
    (deleteService api fails key c).ok = !deletionFails api fails c key ∧
      (deleteService api fails key c).cluster.service key = deletionLeaves api fails c key ∧
      (deleteService api fails key c).cluster.endpointSlices = c.endpointSlices := by
  have hcases := deleteService_cases api fails key c
  have hdeletes : (deleteService api fails key c).ok = true → fails (deleteCall key) = false :=
    deleteService_deletes
  generalize deleteService api fails key c = o at hcases hdeletes
  unfold deletionFails deletionLeaves
  cases hcases with
  | getFailed hget =>
    cases hsvc : c.service key with
    | none => exact ⟨rfl, hsvc, rfl⟩
    | some svc => simp [hget, fail, hsvc]
  | absent hget hnone => simp [hnone]
  | patchFailed hsvc hpatch => simp [hsvc, hpatch, fail]
  | deleteFailed hget hsvc hpatch hdelete =>
    simp [hsvc, hget, hpatch, hdelete, Cluster.service_writeService, writeService_slices]
  | @gone svc hget hsvc hpatch hgone =>
    have hempty : (stripFinalizers api svc).finalizers.isEmpty = true := by
      unfold Cluster.afterWrite at hgone
      split_ifs at hgone with hboth
      exact (Bool.and_eq_true_iff.mp hboth).2
    have hremoved : removed api svc = none := by simp [removed, Cluster.afterWrite, hempty]
    simp [hsvc, hget, hpatch, hgone, hremoved, Cluster.service_writeService, writeService_slices]
  | done hget hsvc hpatch hleft =>
    have hdelete := hdeletes rfl
    simp [hsvc, hget, hpatch, hdelete, hleft, removed, Cluster.service_writeService,
      writeService_slices]

theorem deletionLeaves_of_not_fails {key : ObjectKey}
    (h : deletionFails api fails c key = false) :
    deletionLeaves api fails c key = (c.service key).bind (removed api) := by
  unfold deletionFails deletionLeaves at *
  cases hsvc : c.service key with
  | none => rfl
  | some svc =>
    simp only [hsvc, Bool.or_eq_false_iff] at h
    obtain ⟨⟨⟨hget, hpatch⟩, hdelete⟩, -⟩ := h
    simp [hget, hpatch, hdelete]

def deletionSteps (api : ApiServer) (fails : ApiCall → Bool) :
    LocalSteps Cluster ObjectKey (Option Service) Unit where
  run key c := ((deleteService api fails key c).cluster, (deleteService api fails key c).ok)
  look c key := c.service key
  surroundings _ := ()
  surroundings_run _ _ := rfl
  look_run key c key' hne := (deleteService_sameOff api fails key c).service key' hne
  run_local key c c' _ hlook := by
    obtain ⟨hok, hleaves, -⟩ := deleteService_spec api fails c key
    obtain ⟨hok', hleaves', -⟩ := deleteService_spec api fails c' key
    rw [hok, hok', hleaves, hleaves']
    simp only [deletionFails, deletionLeaves, hlook, and_self]

theorem deletionSteps_fails {key : ObjectKey} :
    (deletionSteps api fails).Fails c key ↔ deletionFails api fails c key = true := by
  simp [LocalSteps.Fails, deletionSteps, (deleteService_spec api fails c key).1]

theorem deletionSteps_own (key : ObjectKey) :
    (deletionSteps api fails).own c key = deletionLeaves api fails c key :=
  (deleteService_spec api fails c key).2.1

theorem deleteEach_eq (keys : List ObjectKey) (c : Cluster) :
    (deleteEach api fails keys c).cluster = ((deletionSteps api fails).untilFailure keys c).1 := by
  induction keys generalizing c with
  | nil => rfl
  | cons key keys ih =>
    rw [deleteEach, cluster_andThen, ih]
    have hrun : (deletionSteps api fails).run key c =
        ((deleteService api fails key c).cluster, (deleteService api fails key c).ok) := rfl
    simp only [LocalSteps.untilFailure, hrun]
    split <;> rfl

theorem deleteEach_slices (keys : List ObjectKey) (c : Cluster) :
    (deleteEach api fails keys c).cluster.endpointSlices = c.endpointSlices := by
  induction keys generalizing c with
  | nil => rfl
  | cons key keys ih =>
    have hfirst := (deleteService_spec api fails c key).2.2
    rw [deleteEach, cluster_andThen]
    split
    · rw [ih, hfirst]
    · exact hfirst

theorem forEach_deleteService_eq (name : String) (order : List String) (c : Cluster) :
    (forEach (fun ns => deleteService api fails (ns, name)) order c).cluster =
      (deletionSteps api fails).forEach (order.map fun ns => (ns, name)) c := by
  induction order generalizing c with
  | nil => rfl
  | cons ns order ih => exact ih _

theorem forEach_slices {f : String → Cluster → Outcome}
    (hf : ∀ ns c, (f ns c).cluster.endpointSlices = c.endpointSlices) (order : List String)
    (c : Cluster) : (forEach f order c).cluster.endpointSlices = c.endpointSlices := by
  induction order generalizing c with
  | nil => rfl
  | cons ns order ih => exact (ih _).trans (hf ns c)

/-- The order in which the API server lists the managed Services of a namespace. -/
abbrev Lister := String → Cluster → List ObjectKey

def Lists (lister : Lister) : Prop := ∀ ns c, (lister ns c).Perm (c.managedServices ns)

section

variable (api fails)

/-- `delete_services` with the Services in the order of the listing. -/
def deleteListed (lister : Lister) (ns : String) (c : Cluster) : Outcome :=
  if fails ⟨.list, .service, ns, ""⟩ then fail c ⟨.list, .service, ns, ""⟩
  else deleteEach api fails (lister ns c) c

def runListed (lister : Lister) (order : List String) (cmd : WatcherCommand) (c : Cluster) :
    Outcome :=
  match cmd with
  | .removeServices _ => forEach (deleteListed api fails lister) order c
  | _ => runCommand api fails order cmd c

theorem runListed_managedServices (order : List String) (cmd : WatcherCommand) (c : Cluster) :
    runListed api fails (fun ns c => c.managedServices ns) order cmd c =
      runCommand api fails order cmd c := by
  cases cmd <;> rfl

def Target (cmd : WatcherCommand) (c : Cluster) (key : ObjectKey) : Prop :=
  match cmd with
  | .upsertService params => key.2 = params.name ∧ key.1 ∈ params.namespaces
  | .removeService name namespaces => key.2 = name ∧ key.1 ∈ namespaces
  | .removeServices namespaces => key.1 ∈ namespaces ∧ key ∈ c.managedServices key.1

def ownCallFails (cmd : WatcherCommand) (c : Cluster) (key : ObjectKey) : Bool :=
  match cmd with
  | .upsertService params => upsertFails fails params c key.1
  | .removeService _ _ => deletionFails api fails c key
  | .removeServices _ =>
    fails ⟨.list, .service, key.1, ""⟩ || deletionFails api fails c key

def Completed (cmd : WatcherCommand) (c c' : Cluster) (key : ObjectKey) : Prop :=
  match cmd with
  | .upsertService params =>
    c'.service key = some (upserted api params none (c.service key)) ∧
      c'.endpointSlices.get? key = sliceAfter api params none c key.1
  | _ => c'.service key = (c.service key).bind (removed api)

structure SameCluster (c c' : Cluster) : Prop where
  service : ∀ key, c.service key = c'.service key
  slice : ∀ key, c.endpointSlices.get? key = c'.endpointSlices.get? key
  configs : c.configs = c'.configs
  pods : c.pods = c'.pods

structure FailuresStayLocal (cmd : WatcherCommand) (c : Cluster) : Prop where
  completed : ∀ lister order, Lists lister → IterationOf order cmd.namespaces →
    ∀ key, Target cmd c key → ownCallFails api fails cmd c key = false →
      Completed api cmd c (runListed api fails lister order cmd c).cluster key
  same : ∀ lister order lister' order', Lists lister → IterationOf order cmd.namespaces →
    Lists lister' → IterationOf order' cmd.namespaces →
      SameCluster (runListed api fails lister order cmd c).cluster
        (runListed api fails lister' order' cmd c).cluster

/-- Where a loop stops at a failure, the calls for all its other targets change nothing. -/
def Contained (cmd : WatcherCommand) (c : Cluster) : Prop :=
  match cmd with
  | .upsertService params =>
    ∀ failed ∈ params.namespaces, upsertFails fails params c failed = true →
      ∀ ns ∈ params.namespaces, ns ≠ failed → UpsertKeeps api fails params c ns
  | .removeService _ _ => True
  | .removeServices namespaces =>
    ∀ ns ∈ namespaces, fails ⟨.list, .service, ns, ""⟩ = false →
      ∀ failed ∈ c.managedServices ns, deletionFails api fails c failed = true →
        ∀ key ∈ c.managedServices ns, key ≠ failed →
          deletionLeaves api fails c key = c.service key

end

theorem iterationOf_toList (namespaces : Finset String) :
    IterationOf namespaces.toList namespaces :=
  ⟨namespaces.nodup_toList, namespaces.toList_toFinset⟩

theorem iterationOf_of_perm {order order' : List String} {namespaces : Finset String}
    (h : IterationOf order' namespaces) (hperm : order.Perm order') :
    IterationOf order namespaces :=
  ⟨hperm.nodup_iff.mpr h.1, (List.toFinset_eq_of_perm _ _ hperm).trans h.2⟩

theorem perm_toList {order : List String} {namespaces : Finset String}
    (h : IterationOf order namespaces) : order.Perm namespaces.toList :=
  List.perm_of_nodup_nodup_toFinset_eq h.1 namespaces.nodup_toList
    (h.2.trans namespaces.toList_toFinset.symm)

theorem lists_managedServices : Lists fun ns c => c.managedServices ns := fun _ _ => .refl _

theorem upsert_isolated_iff :
    (upsertSteps api fails params none).Isolated params.namespaces.toList c ↔
      Contained api fails (.upsertService params) c := by
  simp only [LocalSteps.Isolated, Contained, upsertSteps_fails, upsertSteps_still, Finset.mem_toList]

theorem sameCluster_of_looks {c' : Cluster}
    (hsurr : (upsertSteps api fails params ownerRef).surroundings c =
      (upsertSteps api fails params ownerRef).surroundings c')
    (hlook : ∀ ns, (upsertSteps api fails params ownerRef).look c ns =
      (upsertSteps api fails params ownerRef).look c' ns) : SameCluster c c' := by
  obtain ⟨hconfigs, hrest⟩ := Prod.mk.inj hsurr
  obtain ⟨hpods, helse⟩ := Prod.mk.inj hrest
  have hpair : ∀ key : ObjectKey, (c.service key, c.endpointSlices.get? key) =
      (c'.service key, c'.endpointSlices.get? key) := by
    intro key
    by_cases hname : key.2 = params.name
    · have hkey : key = (key.1, params.name) := Prod.ext rfl hname
      rw [hkey]
      exact hlook key.1
    · have hat := congrFun helse key
      simp only [hname, if_false] at hat
      exact hat
  exact ⟨fun key => (Prod.mk.inj (hpair key)).1, fun key => (Prod.mk.inj (hpair key)).2,
    hconfigs, hpods⟩

theorem completed_upsert_iff {c' : Cluster} {ns : String}
    (h : upsertFails fails params c ns = false) :
    Completed api (.upsertService params) c c' (ns, params.name) ↔
      (upsertSteps api fails params none).look c' ns =
        (upsertSteps api fails params none).own c ns := by
  have hpatch : fails (patchCall (ns, params.name)) = false := by
    simp only [upsertFails, Bool.or_eq_false_iff] at h
    exact h.1
  rw [upsertSteps_own, hpatch, h]
  exact (Prod.mk.injEq ..).symm ▸ Iff.rfl

theorem upsert_local_iff :
    FailuresStayLocal api fails (.upsertService params) c ↔
      Contained api fails (.upsertService params) c := by
  rw [← upsert_isolated_iff]
  have hrun : ∀ lister order, (runListed api fails lister order (.upsertService params) c).cluster =
      ((upsertSteps api fails params none).untilFailure order c).1 :=
    fun _ order => createOrUpdateService_eq order c
  constructor
  · intro hlocal
    apply LocalSteps.isolated_of_orders
    · intro ks hks ns hns hnot
      have hfails := Bool.eq_false_iff.mpr (mt (upsertSteps_fails api none c ns).mpr hnot)
      have hdone := hlocal.completed _ ks lists_managedServices
        (iterationOf_of_perm (iterationOf_toList _) hks) (ns, params.name)
        ⟨rfl, Finset.mem_toList.mp hns⟩ hfails
      rw [hrun] at hdone
      exact (completed_upsert_iff hfails).mp hdone
    · intro ks ks' hks hks' ns _
      have hsame := hlocal.same _ ks _ ks' lists_managedServices
        (iterationOf_of_perm (iterationOf_toList _) hks) lists_managedServices
        (iterationOf_of_perm (iterationOf_toList _) hks')
      rw [hrun, hrun] at hsame
      exact Prod.ext (hsame.service _) (hsame.slice _)
  · intro hisolated
    have hnodup := params.namespaces.nodup_toList
    constructor
    · intro lister order _ horder key htarget hfails
      obtain ⟨hname, hns⟩ := htarget
      have hkey : key = (key.1, params.name) := Prod.ext rfl hname
      rw [hrun, hkey]
      apply (completed_upsert_iff hfails).mpr
      exact hisolated.own hnodup (perm_toList horder) (Finset.mem_toList.mpr hns)
    · intro lister order lister' order' _ horder _ horder'
      rw [hrun, hrun]
      apply sameCluster_of_looks
      · rw [LocalSteps.untilFailure_surroundings, LocalSteps.untilFailure_surroundings]
      · intro ns
        exact hisolated.perm hnodup (perm_toList horder) (perm_toList horder') ns

theorem removal_frame {f : String → Cluster → Outcome} {touched : ObjectKey → Prop}
    (hsame : ∀ ns c, SameOff touched c (f ns c).cluster)
    (hslices : ∀ ns c, (f ns c).cluster.endpointSlices = c.endpointSlices) (order : List String)
    (c : Cluster) :
    (forEach f order c).cluster.endpointSlices = c.endpointSlices ∧
      (forEach f order c).cluster.configs = c.configs ∧
      (forEach f order c).cluster.pods = c.pods := by
  have hall : SameOff touched c (forEach f order c).cluster :=
    sameOff_forEach (fun ns _ c => hsame ns c) c
  exact ⟨forEach_slices hslices order c, hall.configs, hall.pods⟩

theorem sameCluster_of_frames {c₁ c₂ : Cluster}
    (h₁ : c₁.endpointSlices = c.endpointSlices ∧ c₁.configs = c.configs ∧ c₁.pods = c.pods)
    (h₂ : c₂.endpointSlices = c.endpointSlices ∧ c₂.configs = c.configs ∧ c₂.pods = c.pods)
    (hservice : ∀ key, c₁.service key = c₂.service key) : SameCluster c₁ c₂ where
  service := hservice
  slice key := by rw [h₁.1, h₂.1]
  configs := h₁.2.1.trans h₂.2.1.symm
  pods := h₁.2.2.trans h₂.2.2.symm

theorem removeService_service {name : String} {namespaces : Finset String} {order : List String}
    (horder : IterationOf order namespaces) (c : Cluster) (key : ObjectKey) :
    (forEach (fun ns => deleteService api fails (ns, name)) order c).cluster.service key =
      if key.2 = name ∧ key.1 ∈ namespaces then deletionLeaves api fails c key
      else c.service key := by
  have hmem : key ∈ (order.map fun ns => (ns, name)) ↔ key.2 = name ∧ key.1 ∈ namespaces := by
    rw [← horder.mem, List.mem_map]
    constructor
    · intro hex
      obtain ⟨ns, hns, rfl⟩ := hex
      exact ⟨rfl, hns⟩
    · intro hboth
      exact ⟨key.1, hboth.2, Prod.ext rfl hboth.1.symm⟩
  have hnodup : (order.map fun ns => (ns, name)).Nodup :=
    horder.1.map fun a b heq => (Prod.mk.inj heq).1
  rw [forEach_deleteService_eq]
  change (deletionSteps api fails).look _ key = _
  split_ifs with hkey
  · rw [← deletionSteps_own]
    exact LocalSteps.forEach_own hnodup (hmem.mpr hkey) c
  · exact LocalSteps.forEach_other (fun hin => hkey (hmem.mp hin)) c

theorem removeService_local (name : String) (namespaces : Finset String) :
    FailuresStayLocal api fails (.removeService name namespaces) c := by
  have hframe := fun order => removal_frame
    (fun ns c => (deleteService_sameOff api fails (ns, name) c).mono fun _ _ => trivial)
    (fun ns c => (deleteService_spec api fails c (ns, name)).2.2) order c
  constructor
  · intro lister order _ horder key htarget hfails
    change (forEach _ order c).cluster.service key = _
    rw [removeService_service horder, if_pos ⟨htarget.1, htarget.2⟩]
    exact deletionLeaves_of_not_fails hfails
  · intro lister order lister' order' _ horder _ horder'
    apply sameCluster_of_frames (hframe order) (hframe order')
    intro key
    rw [removeService_service horder, removeService_service horder']

theorem deleteListed_sameOff {lister : Lister} (hlister : Lists lister) (ns : String)
    (c : Cluster) :
    SameOff (fun key => key.1 = ns) c (deleteListed api fails lister ns c).cluster := by
  unfold deleteListed
  split
  · exact .refl _ c
  · refine (deleteEach_sameOff _ c).mono ?_
    intro key hin
    exact (Cluster.mem_managedServices.mp ((hlister ns c).mem_iff.mp hin)).1

theorem deleteListed_slices (lister : Lister) (ns : String) (c : Cluster) :
    (deleteListed api fails lister ns c).cluster.endpointSlices = c.endpointSlices := by
  unfold deleteListed
  split
  · rfl
  · exact deleteEach_slices _ c

theorem managedServices_perm {c c' : Cluster} {ns : String}
    (h : ∀ key : ObjectKey, key.1 = ns → c'.service key = c.service key) :
    (c'.managedServices ns).Perm (c.managedServices ns) := by
  rw [List.perm_ext_iff_of_nodup (c'.managedServices_nodup ns) (c.managedServices_nodup ns)]
  intro key
  rw [Cluster.mem_managedServices, Cluster.mem_managedServices]
  constructor
  · intro hall
    obtain ⟨hns, svc, hsvc, hmanaged⟩ := hall
    exact ⟨hns, svc, (h key hns) ▸ hsvc, hmanaged⟩
  · intro hall
    obtain ⟨hns, svc, hsvc, hmanaged⟩ := hall
    exact ⟨hns, svc, (h key hns).symm ▸ hsvc, hmanaged⟩

theorem deletion_isolated_iff {ts : List ObjectKey} :
    (deletionSteps api fails).Isolated ts c ↔
      ∀ failed ∈ ts, deletionFails api fails c failed = true →
        ∀ key ∈ ts, key ≠ failed → deletionLeaves api fails c key = c.service key := by
  simp only [LocalSteps.Isolated, deletionSteps_fails, LocalSteps.Still, deletionSteps_own]
  rfl

theorem removeServices_service {namespaces : Finset String} {lister : Lister}
    (hlister : Lists lister) {order : List String} (horder : IterationOf order namespaces)
    (h : Contained api fails (.removeServices namespaces) c) (key : ObjectKey) :
    (forEach (deleteListed api fails lister) order c).cluster.service key =
      if key.1 ∈ namespaces ∧ fails ⟨.list, .service, key.1, ""⟩ = false ∧
          key ∈ c.managedServices key.1 then deletionLeaves api fails c key
      else c.service key := by
  by_cases hns : key.1 ∈ namespaces
  · obtain ⟨start, hstart, -, hend⟩ :=
      forEach_pass (deleteListed_sameOff hlister) horder.1 ((horder.mem _).mpr hns) c
    rw [hend key rfl, deleteListed]
    by_cases hlist : fails ⟨.list, .service, key.1, ""⟩ = true
    · rw [if_pos hlist, if_neg (by simp [hlist])]
      exact hstart key rfl
    have hlist := Bool.eq_false_iff.mpr hlist
    rw [hlist, if_neg Bool.false_ne_true, deleteEach_eq]
    have hperm := (hlister key.1 start).trans (managedServices_perm hstart)
    have hlook : ∀ k ∈ c.managedServices key.1,
        (deletionSteps api fails).look c k = (deletionSteps api fails).look start k := by
      intro k hk
      exact (hstart k (Cluster.mem_managedServices.mp hk).1).symm
    have hisolated : (deletionSteps api fails).Isolated (c.managedServices key.1) start :=
      LocalSteps.Isolated.congr (deletion_isolated_iff.mpr (h key.1 hns hlist)) rfl hlook
    by_cases hin : key ∈ c.managedServices key.1
    · have hown : (deletionSteps api fails).own c key = (deletionSteps api fails).own start key :=
        LocalSteps.own_congr rfl (hlook key hin)
      rw [if_pos ⟨hns, rfl, hin⟩, ← deletionSteps_own, hown]
      exact hisolated.own (c.managedServices_nodup _) hperm hin
    · have hother : (deletionSteps api fails).look
          ((deletionSteps api fails).untilFailure (lister key.1 start) start).1 key =
            (deletionSteps api fails).look start key :=
        LocalSteps.untilFailure_other (fun hmem => hin (hperm.mem_iff.mp hmem)) start
      rw [if_neg fun hall => hin hall.2.2]
      exact hother.trans (hstart key rfl)
  · rw [if_neg fun hall => hns hall.1]
    have hsame : SameOff (fun key => key.1 ∈ order) c
        (forEach (deleteListed api fails lister) order c).cluster :=
      sameOff_forEach (fun ns hin c => (deleteListed_sameOff hlister ns c).mono
        fun key hk => hk ▸ hin) c
    exact hsame.service key fun hin => hns ((horder.mem _).mp hin)

theorem removeServices_frame {lister : Lister} (hlister : Lists lister) (order : List String)
    (c : Cluster) :
    (forEach (deleteListed api fails lister) order c).cluster.endpointSlices = c.endpointSlices ∧
      (forEach (deleteListed api fails lister) order c).cluster.configs = c.configs ∧
      (forEach (deleteListed api fails lister) order c).cluster.pods = c.pods :=
  removal_frame (fun ns c => (deleteListed_sameOff hlister ns c).mono fun _ _ => trivial)
    (deleteListed_slices lister) order c

def listing (keys : List ObjectKey) (ns : String) (c : Cluster) : List ObjectKey :=
  if keys.Perm (c.managedServices ns) then keys else c.managedServices ns

theorem lists_listing (keys : List ObjectKey) : Lists (listing keys) := by
  intro ns c
  unfold listing
  split
  · next h => exact h
  · exact .refl _

theorem removeServices_first (api : ApiServer) {namespaces : Finset String} {ns : String}
    (hns : ns ∈ namespaces) (hlist : fails ⟨.list, .service, ns, ""⟩ = false) {keys : List ObjectKey}
    (hkeys : keys.Perm (c.managedServices ns)) :
    IterationOf (ns :: (namespaces.erase ns).toList) namespaces ∧
      ∀ key ∈ c.managedServices ns,
        (forEach (deleteListed api fails (listing keys)) (ns :: (namespaces.erase ns).toList)
            c).cluster.service key =
          (deletionSteps api fails).look ((deletionSteps api fails).untilFailure keys c).1 key := by
  have hnew : ns ∉ (namespaces.erase ns).toList := by simp
  constructor
  · constructor
    · exact List.nodup_cons.mpr ⟨hnew, Finset.nodup_toList _⟩
    · rw [List.toFinset_cons, Finset.toList_toFinset, Finset.insert_erase hns]
  · intro key hkey
    have hkeyns := (Cluster.mem_managedServices.mp hkey).1
    change (forEach _ _ (deleteListed api fails (listing keys) ns c).cluster).cluster.service key
      = _
    rw [forEach_before (deleteListed_sameOff (lists_listing keys)) hnew _ key hkeyns,
      deleteListed, hlist, if_neg Bool.false_ne_true, listing, if_pos hkeys, deleteEach_eq]
    rfl

theorem removeServices_local_iff (namespaces : Finset String) :
    FailuresStayLocal api fails (.removeServices namespaces) c ↔
      Contained api fails (.removeServices namespaces) c := by
  constructor
  · intro hlocal ns hns hlist
    rw [← deletion_isolated_iff]
    apply LocalSteps.isolated_of_orders
    · intro keys hkeys key hkey hnot
      obtain ⟨horder, hfirst⟩ := removeServices_first api hns hlist hkeys
      have hkeyns := (Cluster.mem_managedServices.mp hkey).1
      have hfails := Bool.eq_false_iff.mpr (mt deletionSteps_fails.mpr hnot)
      have hdone := hlocal.completed (listing keys) _ (lists_listing keys) horder key
        ⟨hkeyns ▸ hns, hkeyns ▸ hkey⟩ (by simp [ownCallFails, hkeyns, hlist, hfails])
      rw [deletionSteps_own, deletionLeaves_of_not_fails hfails, ← hfirst key hkey]
      exact hdone
    · intro keys keys' hkeys hkeys' key hkey
      obtain ⟨horder, hfirst⟩ := removeServices_first api hns hlist hkeys
      obtain ⟨horder', hfirst'⟩ := removeServices_first api hns hlist hkeys'
      have hsame := hlocal.same _ _ _ _ (lists_listing keys) horder (lists_listing keys') horder'
      rw [← hfirst key hkey, ← hfirst' key hkey]
      exact hsame.service key
  · intro hcontained
    constructor
    · intro lister order hlister horder key htarget hfails
      obtain ⟨hns, hkey⟩ := htarget
      simp only [ownCallFails, Bool.or_eq_false_iff] at hfails
      change (forEach _ order c).cluster.service key = _
      rw [removeServices_service hlister horder hcontained, if_pos ⟨hns, hfails.1, hkey⟩]
      exact deletionLeaves_of_not_fails hfails.2
    · intro lister order lister' order' hlister horder hlister' horder'
      apply sameCluster_of_frames (removeServices_frame hlister order c)
        (removeServices_frame hlister' order' c)
      intro key
      rw [removeServices_service hlister horder hcontained,
        removeServices_service hlister' horder' hcontained]

/-- Failures stay with their target, in every order, exactly when no loop that stops at a
failure has another target for which something is left to do. -/
theorem failuresStayLocal_iff (api : ApiServer) (fails : ApiCall → Bool) (cmd : WatcherCommand)
    (c : Cluster) : FailuresStayLocal api fails cmd c ↔ Contained api fails cmd c := by
  cases cmd with
  | upsertService params => exact upsert_local_iff
  | removeService name namespaces =>
    exact ⟨fun _ => trivial, fun _ => removeService_local name namespaces⟩
  | removeServices namespaces => exact removeServices_local_iff namespaces

def twoTeams : ServiceParams :=
  ⟨"app", {"team-a", "team-b"}, "lattice-a", 8080, some Routing.edgeLabels⟩

def deniedIn (ns : String) : ApiCall → Bool := fun call => call.ns = ns

def deniedPatch (key : ObjectKey) : ApiCall → Bool := fun call => call = patchCall key

def managedService : Service := serviceFor (appParams none) none

def twoServices : Cluster where
  services := (Dict.empty.put ("default", "a") managedService).put ("default", "b") managedService

/-- A refused call in one namespace keeps the other from its Service, and a refused call for
one Service keeps the other one alive. -/
theorem refused_call_spreads :
    (ownCallFails .basic (deniedIn "team-a") (.upsertService twoTeams) {} ("team-b", "app") = false ∧
      (runListed .basic (deniedIn "team-a") (fun ns c => c.managedServices ns)
        ["team-a", "team-b"] (.upsertService twoTeams) {}).cluster.service ("team-b", "app") = none ∧
      ¬FailuresStayLocal .basic (deniedIn "team-a") (.upsertService twoTeams) {}) ∧
    ¬FailuresStayLocal .basic (deniedPatch ("default", "a")) (.removeServices {"default"})
      twoServices := by
  refine ⟨⟨by decide, rfl, ?_⟩, ?_⟩
  · rw [upsert_local_iff]
    intro hcontained
    have hkeeps := hcontained "team-a" (by decide) (by decide) "team-b" (by decide) (by decide)
    rcases hkeeps with hpatch | ⟨hservice, -⟩
    · exact absurd hpatch (by decide)
    · cases hservice
  · rw [removeServices_local_iff]
    intro hcontained
    have hleaves := hcontained "default" (by decide) (by decide) ("default", "a") (by decide)
      (by decide) ("default", "b") (by decide) (by decide)
    have hgone : deletionLeaves .basic (deniedPatch ("default", "a")) twoServices ("default", "b") =
        none := by decide
    rw [hgone] at hleaves
    cases hleaves

end LocalFailures
end WadmOperator

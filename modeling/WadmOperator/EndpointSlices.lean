import WadmOperator.Routing
import WadmOperator.SocketAddr

/-!
# What an upsert leaves of the EndpointSlices

A pass over a namespace writes the slice of the Service when the lattice has running
hosts there and the Service has no selector. No branch takes a slice away, so what an
earlier pass wrote stays when the hosts are gone or when labels are added.
-/

namespace WadmOperator

/-- `str::parse::<Ipv4Addr>`. -/
def SocketAddr.isIpv4Addr (text : String) : Bool :=
  match readIpv4Addr text.toList with
  | some (_, []) => true
  | _ => false

example : SocketAddr.isIpv4Addr "10.0.0.7" = true := by decide
example : SocketAddr.isIpv4Addr "fd00::7" = false := by decide

/-- Server-side apply of an EndpointSlice: the applied labels are stored, and the list of
endpoints is atomic. -/
structure ApiServer.StoresSlices (api : ApiServer) : Prop where
  labels : ∀ manager current slice k v, slice.labels.get? k = some v →
    (api.applyEndpointSlice manager current slice).labels.get? k = some v
  endpoints : ∀ manager current slice,
    (api.applyEndpointSlice manager current slice).endpoints = slice.endpoints

theorem ApiServer.basic_storesSlices : ApiServer.basic.StoresSlices where
  labels _ _ _ _ _ h := h
  endpoints _ _ _ := rfl

namespace EndpointSlice

def addresses (slice : EndpointSlice) : List String := slice.endpoints.flatMap Endpoint.addresses

def WrittenFor (slice : EndpointSlice) (name : String) : Prop :=
  slice.labels.get? "app.kubernetes.io/managed-by" = some "wadm-operator" ∧
    slice.labels.get? "kubernetes.io/service-name" = some name

end EndpointSlice

namespace EndpointSlices

open Commands Outcome

def hostIps (c : Cluster) (ns latticeId : String) : List (Option String) :=
  (endpointPods c ns latticeId).flatMap podIps

def Listed (c : Cluster) (ns name addr : String) : Prop :=
  ∃ slice, c.endpointSlices.get? (ns, name) = some slice ∧ slice.WrittenFor name ∧
    addr ∈ slice.addresses

def NoSliceFor (c : Cluster) (ns name : String) : Prop :=
  ∀ sliceName slice, c.endpointSlices.get? (ns, sliceName) = some slice → ¬slice.WrittenFor name

/-- The slice follows the hosts and the labels, whatever was there before. -/
def Converged (params : ServiceParams) (before after : Cluster) (ns : String) : Prop :=
  match params.hostLabels with
  | none => ∀ addr, Listed after ns params.name addr ↔
      some addr ∈ hostIps before ns params.latticeId ∧ SocketAddr.isIpv4Addr addr = true
  | some _ => NoSliceFor after ns params.name

/-- Without labels, the hosts have IPv4 addresses only, or there is no host and no address
of an earlier one. With labels, there is no earlier slice. -/
def Current (params : ServiceParams) (before : Cluster) (ns : String) : Prop :=
  match params.hostLabels with
  | none =>
    if (hostIps before ns params.latticeId).isEmpty then
      ∀ addr, ¬Listed before ns params.name addr
    else
      ∀ addr, some addr ∈ hostIps before ns params.latticeId → SocketAddr.isIpv4Addr addr = true
  | some _ => NoSliceFor before ns params.name

variable {api : ApiServer} {fails : ApiCall → Bool} {params : ServiceParams}
  {ownerRef : Option OwnerReference} {c c' : Cluster}

theorem hostIps_sameOff {touched : ObjectKey → Prop} (h : SameOff touched c c')
    (ns latticeId : String) : hostIps c' ns latticeId = hostIps c ns latticeId := by
  have hlist : ∀ ns name, listPods c' ns name = listPods c ns name := by
    intro ns name
    unfold listPods
    rw [h.pods]
  simp only [hostIps, endpointPods, Cluster.configsIn, h.configs, hlist]

theorem writeService_slices (c : Cluster) (key : ObjectKey) (svc : Service) :
    (c.writeService key svc).endpointSlices = c.endpointSlices := by
  unfold Cluster.writeService
  split <;> rfl

def refreshed (api : ApiServer) (params : ServiceParams) (svc : Service)
    (ips : List (Option String)) (current : Option EndpointSlice) : Option EndpointSlice :=
  if ips.isEmpty then current
  else some (api.applyEndpointSlice CLUSTER_CONFIG_FINALIZER current
    (endpointSliceFor params svc ips))

theorem createEndpoints_slices {svc : Service} {ns : String}
    (hok : (createEndpoints api fails params svc ns c).ok = true) (key : ObjectKey) :
    (createEndpoints api fails params svc ns c).cluster.endpointSlices.get? key =
      if key = (ns, params.name) then
        refreshed api params svc (hostIps c ns params.latticeId) (c.endpointSlices.get? key)
      else c.endpointSlices.get? key := by
  unfold createEndpoints at hok ⊢
  split at hok
  · cases hok
  next hlist =>
  rw [if_neg hlist]
  split at hok
  · cases hok
  next ips hips =>
  obtain rfl : ips = hostIps c ns params.latticeId := Routing.collectIps_eq hips
  unfold refreshed
  simp only
  by_cases hempty : (hostIps c ns params.latticeId).isEmpty = true
  · simp only [hempty, if_true, ite_self]
    rfl
  by_cases hpatch : fails ⟨.patch, .endpointSlice, ns, params.name⟩ = true
  · simp only [hempty, hpatch, Bool.false_eq_true, if_false, if_true] at hok
    cases hok
  simp only [hempty, hpatch, Bool.false_eq_true, if_false, Dict.get?_put]
  split_ifs with hkey
  · rw [hkey]
  · rfl

def serviceWritten (api : ApiServer) (params : ServiceParams) (ownerRef : Option OwnerReference)
    (ns : String) (c : Cluster) : Cluster :=
  c.writeService (ns, params.name) (upserted api params ownerRef (c.service (ns, params.name)))

theorem upsertIn_unlabelled (api : ApiServer) (ownerRef : Option OwnerReference) (c : Cluster)
    {ns : String} (hlabels : params.hostLabels = none)
    (hpatch : fails (patchCall (ns, params.name)) = false) :
    let o := createEndpoints api fails params
      (upserted api params ownerRef (c.service (ns, params.name))) ns
      (serviceWritten api params ownerRef ns c)
    (upsertIn api fails params ownerRef ns c).cluster = o.cluster ∧
      (upsertIn api fails params ownerRef ns c).ok = o.ok := by
  intro o
  unfold upsertIn
  simp only [hpatch, hlabels, Option.isNone_none, Bool.false_eq_true, if_false, if_true, andThen]
  exact ⟨rfl, rfl⟩

theorem upsertIn_slices {ns : String} (hlabels : params.hostLabels = none)
    (hok : (upsertIn api fails params ownerRef ns c).ok = true) (key : ObjectKey) :
    (upsertIn api fails params ownerRef ns c).cluster.endpointSlices.get? key =
      if key = (ns, params.name) then
        refreshed api params (upserted api params ownerRef (c.service (ns, params.name)))
          (hostIps c ns params.latticeId) (c.endpointSlices.get? key)
      else c.endpointSlices.get? key := by
  have hpatch : fails (patchCall (ns, params.name)) = false := by
    rw [Bool.eq_false_iff]
    intro hpatch
    simp only [upsertIn, hpatch, if_true] at hok
    cases hok
  obtain ⟨hcluster, hend⟩ := upsertIn_unlabelled api ownerRef c hlabels hpatch
  rw [hend] at hok
  have hslices := createEndpoints_slices hok key
  rw [serviceWritten, hostIps_sameOff (.writeService c _ _), writeService_slices] at hslices
  rw [hcluster]
  exact hslices

theorem upsertIn_slices_labelled {ns : String} {labels : Labels}
    (hlabels : params.hostLabels = some labels) :
    (upsertIn api fails params ownerRef ns c).cluster.endpointSlices = c.endpointSlices := by
  unfold upsertIn
  simp only [hlabels, Option.isNone_some, Bool.false_eq_true, if_false]
  split_ifs
  · rfl
  · exact writeService_slices _ _ _

theorem andThen_ok {o : Outcome} {f : Cluster → Outcome} (h : (o.andThen f).ok = true) :
    o.ok = true ∧ (f o.cluster).ok = true ∧ (o.andThen f).cluster = (f o.cluster).cluster := by
  unfold andThen at h ⊢
  split_ifs at h ⊢ with hok
  · exact ⟨hok, h, rfl⟩
  · exact absurd h hok

theorem createOrUpdateService_otherSlices {order : List String}
    (hlabels : params.hostLabels = none)
    (hok : (createOrUpdateService api fails params ownerRef order c).ok = true)
    {key : ObjectKey} (hkey : key.1 ∉ order) :
    (createOrUpdateService api fails params ownerRef order c).cluster.endpointSlices.get? key =
      c.endpointSlices.get? key := by
  induction order generalizing c with
  | nil => rfl
  | cons ns rest ih =>
    obtain ⟨hfirst, hrest, hcluster⟩ := andThen_ok hok
    have hne : key ≠ (ns, params.name) := by
      intro heq
      subst heq
      exact hkey List.mem_cons_self
    rw [createOrUpdateService, hcluster, ih hrest fun hin => hkey (List.mem_cons_of_mem _ hin),
      upsertIn_slices hlabels hfirst, if_neg hne]

theorem createOrUpdateService_slice {order : List String} (hlabels : params.hostLabels = none)
    (horder : order.Nodup)
    (hok : (createOrUpdateService api fails params ownerRef order c).ok = true)
    {ns : String} (hns : ns ∈ order) :
    ∃ svc, (createOrUpdateService api fails params ownerRef order c).cluster.endpointSlices.get?
        (ns, params.name) =
      refreshed api params svc (hostIps c ns params.latticeId)
        (c.endpointSlices.get? (ns, params.name)) := by
  induction order generalizing c with
  | nil => cases hns
  | cons first rest ih =>
    obtain ⟨hnew, hrestNodup⟩ := List.nodup_cons.mp horder
    obtain ⟨hfirst, hrest, hcluster⟩ := andThen_ok hok
    rw [createOrUpdateService, hcluster]
    by_cases heq : ns = first
    · subst heq
      refine ⟨upserted api params ownerRef (c.service (ns, params.name)), ?_⟩
      rw [createOrUpdateService_otherSlices hlabels hrest hnew, upsertIn_slices hlabels hfirst,
        if_pos rfl]
    · have hin : ns ∈ rest := (List.mem_cons.mp hns).resolve_left heq
      obtain ⟨svc', hslice⟩ := ih hrestNodup hrest hin
      refine ⟨svc', ?_⟩
      have hne : (ns, params.name) ≠ (first, params.name) := fun h => heq (Prod.mk.inj h).1
      rw [hslice, hostIps_sameOff (upsertIn_sameOff first c), upsertIn_slices hlabels hfirst,
        if_neg hne]

theorem createOrUpdateService_slices_labelled (order : List String) {labels : Labels}
    (hlabels : params.hostLabels = some labels) (c : Cluster) :
    (createOrUpdateService api fails params ownerRef order c).cluster.endpointSlices =
      c.endpointSlices := by
  induction order generalizing c with
  | nil => rfl
  | cons ns rest ih =>
    rw [createOrUpdateService, cluster_andThen]
    split
    · rw [ih, upsertIn_slices_labelled hlabels]
    · exact upsertIn_slices_labelled hlabels

theorem mem_addresses_sliceFor {svc : Service} {ips : List (Option String)} {addr : String} :
    addr ∈ (endpointSliceFor params svc ips).addresses ↔ some addr ∈ ips := by
  simp only [EndpointSlice.addresses, endpointSliceFor, List.mem_flatMap, List.mem_filterMap,
    Option.map_eq_some_iff]
  constructor
  · intro hex
    obtain ⟨e, ⟨ip, hip, i, rfl, rfl⟩, haddr⟩ := hex
    obtain rfl := List.mem_singleton.mp haddr
    exact hip
  · intro hip
    exact ⟨_, ⟨some addr, hip, addr, rfl, rfl⟩, List.mem_cons_self⟩

theorem sliceFor_writtenFor (params : ServiceParams) (svc : Service) (ips : List (Option String)) :
    (endpointSliceFor params svc ips).WrittenFor params.name := by
  constructor <;>
    simp [endpointSliceFor, serviceLabels, commonLabels, Dict.get?_put]

theorem refreshed_listed (hapi : api.StoresSlices) (svc : Service) {ips : List (Option String)}
    (hips : ips.isEmpty = false) (current : Option EndpointSlice) {addr : String} :
    (∃ slice, refreshed api params svc ips current = some slice ∧ slice.WrittenFor params.name ∧
      addr ∈ slice.addresses) ↔ some addr ∈ ips := by
  have hwritten := sliceFor_writtenFor params svc ips
  simp only [refreshed, hips, Bool.false_eq_true, if_false, Option.some.injEq,
    exists_eq_left', EndpointSlice.addresses, hapi.endpoints]
  constructor
  · intro hall
    exact mem_addresses_sliceFor.mp hall.2
  · intro hin
    refine ⟨⟨?_, ?_⟩, mem_addresses_sliceFor.mpr hin⟩
    · exact hapi.labels _ _ _ _ _ hwritten.1
    · exact hapi.labels _ _ _ _ _ hwritten.2

theorem converged_in_iff (hapi : api.StoresSlices) {order : List String} (horder : order.Nodup)
    (hok : (createOrUpdateService api fails params ownerRef order c).ok = true)
    {ns : String} (hns : ns ∈ order) :
    Converged params c (createOrUpdateService api fails params ownerRef order c).cluster ns ↔
      Current params c ns := by
  unfold Converged Current
  cases hlabels : params.hostLabels with
  | some labels =>
    simp only [NoSliceFor, createOrUpdateService_slices_labelled order hlabels c]
  | none =>
    obtain ⟨svc, hslice⟩ := createOrUpdateService_slice hlabels horder hok hns
    simp only [Listed, hslice]
    by_cases hempty : (hostIps c ns params.latticeId).isEmpty = true
    · have hnil := List.isEmpty_iff.mp hempty
      simp only [refreshed, hnil, List.isEmpty_nil, if_true, List.not_mem_nil, false_and, iff_false]
    · have hips := Bool.eq_false_of_not_eq_true hempty
      simp only [refreshed_listed hapi svc hips, hips, Bool.false_eq_true, if_false]
      constructor
      · intro hall addr hin
        exact ((hall addr).mp hin).2
      · intro hall addr
        exact ⟨fun hin => ⟨hin, hall addr hin⟩, fun hboth => hboth.1⟩

/-- An upsert that returns without an error converges in all namespaces exactly when the
slices that it cannot take away were not there. -/
theorem converged_iff (hapi : api.StoresSlices) {order : List String}
    (horder : IterationOf order params.namespaces)
    (hok : (createOrUpdateService api fails params ownerRef order c).ok = true) :
    (∀ ns ∈ params.namespaces,
      Converged params c (createOrUpdateService api fails params ownerRef order c).cluster ns) ↔
        ∀ ns ∈ params.namespaces, Current params c ns := by
  constructor
  · intro hall ns hns
    exact (converged_in_iff hapi horder.1 hok ((horder.mem ns).mpr hns)).mp (hall ns hns)
  · intro hall ns hns
    exact (converged_in_iff hapi horder.1 hok ((horder.mem ns).mpr hns)).mpr (hall ns hns)

/-- Where both converge, two clusters with the same hosts end with the same addresses. -/
theorem converged_listed {before before' after after' : Cluster} {ns : String}
    (hlabels : params.hostLabels = none)
    (hhosts : hostIps before ns params.latticeId = hostIps before' ns params.latticeId)
    (h : Converged params before after ns) (h' : Converged params before' after' ns)
    (addr : String) : Listed after ns params.name addr ↔ Listed after' ns params.name addr := by
  simp only [Converged, hlabels] at h h'
  rw [h addr, h' addr, hhosts]

def appParams (hostLabels : Option Labels) : ServiceParams :=
  ⟨"app", {"default"}, "lattice-a", 8080, hostLabels⟩

def runningHost : Routing.Host :=
  ⟨.sample "a" "lattice-a" none, some ⟨some "Running", some [some "10.0.0.7"]⟩⟩

def runningCluster : Cluster where
  configs := [runningHost.config]
  pods := [runningHost.pod]

def upsertApp (hostLabels : Option Labels) (c : Cluster) : Outcome :=
  createOrUpdateService .basic (fun _ => false) (appParams hostLabels) none ["default"] c

def stoppedCluster : Cluster := { (upsertApp none runningCluster).cluster with pods := [] }

theorem converged_runningCluster :
    (∀ ns ∈ (appParams none).namespaces,
      Converged (appParams none) runningCluster (upsertApp none runningCluster).cluster ns) ↔
        ∀ ns ∈ (appParams none).namespaces, Current (appParams none) runningCluster ns :=
  converged_iff ApiServer.basic_storesSlices (by decide) (by decide)

theorem runningCluster_ips : hostIps runningCluster "default" "lattice-a" = [some "10.0.0.7"] := by
  decide

theorem stoppedCluster_listed : Listed stoppedCluster "default" "app" "10.0.0.7" := by
  have hcurrent : Current (appParams none) runningCluster "default" := by
    intro addr hin
    rw [appParams, runningCluster_ips] at hin
    obtain rfl := Option.some.inj (List.mem_singleton.mp hin)
    decide
  have hconverged : Converged (appParams none) runningCluster
      (upsertApp none runningCluster).cluster "default" :=
    (converged_in_iff ApiServer.basic_storesSlices (List.nodup_singleton "default") (by decide)
      List.mem_cons_self).mpr hcurrent
  apply (hconverged "10.0.0.7").mpr
  rw [appParams, runningCluster_ips]
  exact ⟨List.mem_cons_self, by decide⟩

/-- The address of the stopped host stays, and so does the slice when labels are added. -/
theorem stopped_host_not_converged :
    ((upsertApp none stoppedCluster).ok = true ∧
      hostIps stoppedCluster "default" "lattice-a" = [] ∧
      ¬Converged (appParams none) stoppedCluster (upsertApp none stoppedCluster).cluster
        "default") ∧
    (upsertApp (some Routing.edgeLabels) stoppedCluster).ok = true ∧
      ¬Converged (appParams (some Routing.edgeLabels)) stoppedCluster
        (upsertApp (some Routing.edgeLabels) stoppedCluster).cluster "default" := by
  have hips : hostIps stoppedCluster "default" "lattice-a" = [] := by decide
  refine ⟨⟨by decide, hips, ?_⟩, by decide, ?_⟩
  · intro hconverged
    have hcurrent := (converged_in_iff ApiServer.basic_storesSlices
      (List.nodup_singleton "default") (by decide) List.mem_cons_self).mp hconverged
    simp only [Current, appParams, hips, List.isEmpty_nil, if_true] at hcurrent
    exact hcurrent _ stoppedCluster_listed
  · intro hconverged
    have hcurrent := (converged_in_iff ApiServer.basic_storesSlices
      (List.nodup_singleton "default") (by decide) List.mem_cons_self).mp hconverged
    obtain ⟨slice, hslice, hwritten, -⟩ := stoppedCluster_listed
    exact hcurrent "app" slice hslice hwritten

end EndpointSlices
end WadmOperator

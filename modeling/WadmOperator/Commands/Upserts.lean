import WadmOperator.Commands.Frames

/-!
# Upserts

Which Services `create_or_update_service` applies, and that every application it
reports stands in the cluster when it returns.
-/

namespace WadmOperator
namespace Commands

open Outcome

variable {api : ApiServer} {fails : ApiCall → Bool} {c : Cluster}

def upserted (api : ApiServer) (params : ServiceParams) (ownerRef : Option OwnerReference)
    (current : Option Service) : Service :=
  api.applyService SERVICE_FINALIZER false current (serviceFor params ownerRef)

theorem upserted_managed (api : ApiServer) (params : ServiceParams)
    (ownerRef : Option OwnerReference) (current : Option Service) :
    (upserted api params ownerRef current).managed = true := by
  have hlabel : (serviceFor params ownerRef).labels.get? "app.kubernetes.io/managed-by" =
      some "wadm-operator" := by
    simp [serviceFor, serviceLabels, commonLabels, Dict.get?_put]
  exact decide_eq_true (api.label_applied _ _ _ _ _ _ hlabel)

theorem upserted_stored (api : ApiServer) (params : ServiceParams)
    (ownerRef : Option OwnerReference) (current : Option Service) :
    Cluster.afterWrite (upserted api params ownerRef current) =
      some (upserted api params ownerRef current) := by
  have hmem : SERVICE_FINALIZER ∈ (upserted api params ownerRef current).finalizers :=
    api.finalizer_applied _ _ _ _ _ List.mem_cons_self
  have hne : (upserted api params ownerRef current).finalizers.isEmpty = false := by
    rw [List.isEmpty_eq_false_iff]
    exact List.ne_nil_of_mem hmem
  simp [Cluster.afterWrite, hne]

theorem createEndpoints_frame (api : ApiServer) (fails : ApiCall → Bool) (params : ServiceParams)
    (svc : Service) (ns : String) (c : Cluster) :
    (createEndpoints api fails params svc ns c).cluster.services = c.services ∧
      SameOff (fun _ => False) c (createEndpoints api fails params svc ns c).cluster ∧
      ∀ e ∈ (createEndpoints api fails params svc ns c).effects,
        Effect.Keeps e ∧ e.appliedFor = none := by
  unfold createEndpoints fail succeed
  split
  · exact ⟨rfl, .refl _ c, by simp [Effect.Keeps, Effect.victim, Effect.removedKey, Effect.appliedFor]⟩
  split
  · exact ⟨rfl, .refl _ c, by simp [Effect.Keeps, Effect.victim, Effect.removedKey, Effect.appliedFor]⟩
  split
  · exact ⟨rfl, .refl _ c, by simp⟩
  simp only
  split
  · exact ⟨rfl, .refl _ c, by simp [Effect.Keeps, Effect.victim, Effect.removedKey, Effect.appliedFor]⟩
  · exact ⟨rfl, ⟨fun _ _ => rfl, rfl, rfl⟩,
      by simp [Effect.Keeps, Effect.victim, Effect.removedKey, Effect.appliedFor]⟩

theorem collectIps_failed {latticeId : String} {configs : List WasmCloudHostConfig} {call : ApiCall}
    (h : collectIps fails c latticeId configs = .error call) : fails call = true := by
  induction configs with
  | nil => cases h
  | cons cfg configs ih =>
    unfold collectIps at h
    split at h
    · split at h
      · next hfails =>
        obtain rfl := Except.error.inj h
        exact hfails
      · cases hrest : collectIps fails c latticeId configs with
        | error call' =>
          rw [hrest] at h
          obtain rfl := Except.error.inj h
          exact ih hrest
        | ok ips =>
          rw [hrest] at h
          cases h
    · exact ih h

theorem createEndpoints_failed {params : ServiceParams} {svc : Service} {ns : String}
    {call : ApiCall} (h : .failed call ∈ (createEndpoints api fails params svc ns c).effects) :
    fails call = true := by
  unfold createEndpoints fail succeed at h
  split at h
  · next hlist =>
    obtain rfl := Effect.failed.inj (List.mem_singleton.mp h)
    exact hlist
  split at h
  · next call' hips =>
    obtain rfl := Effect.failed.inj (List.mem_singleton.mp h)
    exact collectIps_failed hips
  split at h
  · cases h
  simp only at h
  split at h
  · next hpatch =>
    obtain rfl := Effect.failed.inj (List.mem_singleton.mp h)
    exact hpatch
  · cases List.mem_singleton.mp h

theorem createEndpoints_ok {params : ServiceParams} {svc : Service} {ns : String}
    (h : (createEndpoints api fails params svc ns c).NoFailure) :
    (createEndpoints api fails params svc ns c).ok = true := by
  unfold createEndpoints at h ⊢
  split
  · next hlist =>
    rw [if_pos hlist] at h
    exact absurd List.mem_cons_self (h _)
  next hlist =>
  rw [if_neg hlist] at h
  split
  · next call hips =>
    simp only [hips] at h
    exact absurd List.mem_cons_self (h call)
  next ips hips =>
  simp only [hips] at h
  split
  · rfl
  next hempty =>
  rw [if_neg hempty] at h
  simp only at h ⊢
  split
  · next hpatch =>
    rw [if_pos hpatch] at h
    exact absurd List.mem_cons_self (h _)
  · rfl

section

variable {params : ServiceParams} {ownerRef : Option OwnerReference}

theorem upsertIn_cases (api : ApiServer) (fails : ApiCall → Bool) (params : ServiceParams)
    (ownerRef : Option OwnerReference) (ns : String) (c : Cluster) :
    (fails (patchCall (ns, params.name)) = true ∧
      upsertIn api fails params ownerRef ns c = fail c (patchCall (ns, params.name))) ∨
    (fails (patchCall (ns, params.name)) = false ∧
      (upsertIn api fails params ownerRef ns c).cluster.service (ns, params.name) =
        some (upserted api params ownerRef (c.service (ns, params.name))) ∧
      SameOff (· = (ns, params.name)) c (upsertIn api fails params ownerRef ns c).cluster ∧
      .applied (ns, params.name) params.latticeId ∈
        (upsertIn api fails params ownerRef ns c).effects ∧
      ∀ e ∈ (upsertIn api fails params ownerRef ns c).effects, Effect.Keeps e ∧
        (e = .applied (ns, params.name) params.latticeId ∨ e.appliedFor = none)) := by
  unfold upsertIn
  simp only
  split
  · next hpatch => exact .inl ⟨hpatch, rfl⟩
  next hpatch =>
  right
  refine ⟨Bool.eq_false_of_not_eq_true hpatch, ?_⟩
  have hwrite : (c.writeService (ns, params.name)
      (upserted api params ownerRef (c.service (ns, params.name)))).service (ns, params.name) =
        some (upserted api params ownerRef (c.service (ns, params.name))) := by
    rw [Cluster.service_writeService, if_pos rfl, upserted_stored]
  have happly : Effect.Keeps (.applied (ns, params.name) params.latticeId) := ⟨rfl, rfl⟩
  split
  · have hend := createEndpoints_frame api fails params
      (upserted api params ownerRef (c.service (ns, params.name))) ns
      (c.writeService (ns, params.name) (upserted api params ownerRef (c.service (ns, params.name))))
    refine ⟨?_, ?_, List.mem_cons_self, ?_⟩
    · exact (congrArg (fun d => Dict.get? d (ns, params.name)) hend.1).trans hwrite
    · exact (SameOff.writeService c _ _).trans (hend.2.1.mono fun _ h => h.elim)
    · intro e he
      rcases List.mem_cons.mp he with rfl | he
      · exact ⟨happly, .inl rfl⟩
      · exact ⟨(hend.2.2 e he).1, .inr (hend.2.2 e he).2⟩
  · refine ⟨hwrite, .writeService c _ _, List.mem_cons_self, ?_⟩
    intro e he
    obtain rfl := List.mem_singleton.mp he
    exact ⟨happly, .inl rfl⟩

theorem upsertIn_sameOff (ns : String) (c : Cluster) :
    SameOff (· = (ns, params.name)) c (upsertIn api fails params ownerRef ns c).cluster := by
  rcases upsertIn_cases api fails params ownerRef ns c with
    ⟨_, heq⟩ | ⟨_, _, hsame, _⟩
  · rw [heq]
    exact .refl _ c
  · exact hsame

theorem createOrUpdateService_sameOff (order : List String) (c : Cluster) :
    SameOff (fun key => key.1 ∈ order ∧ key.2 = params.name) c
      (createOrUpdateService api fails params ownerRef order c).cluster := by
  induction order generalizing c with
  | nil => exact .refl _ c
  | cons ns rest ih =>
    refine sameOff_andThen ?_ fun c => ?_
    · refine (upsertIn_sameOff ns c).mono fun key hk => ?_
      subst hk
      exact ⟨List.mem_cons_self, rfl⟩
    · exact (ih c).mono fun key hk => ⟨List.mem_cons_of_mem _ hk.1, hk.2⟩

theorem createOrUpdateService_keeps {order : List String} {e : Effect}
    (he : e ∈ (createOrUpdateService api fails params ownerRef order c).effects) :
    Effect.Keeps e := by
  induction order generalizing c with
  | nil => cases he
  | cons ns rest ih =>
    rcases mem_andThen he with hfirst | ⟨_, hrest⟩
    · rcases upsertIn_cases api fails params ownerRef ns c with
        ⟨_, heq⟩ | ⟨_, _, _, _, hall⟩
      · rw [heq] at hfirst
        obtain rfl := List.mem_singleton.mp hfirst
        exact ⟨rfl, rfl⟩
      · exact (hall e hfirst).1
    · exact ih hrest

theorem createOrUpdateService_applied {order : List String} (horder : order.Nodup)
    {key : ObjectKey} {latticeId : String} {e : Effect}
    (he : e ∈ (createOrUpdateService api fails params ownerRef order c).effects)
    (happlied : e.appliedFor = some (key, latticeId)) :
    key.1 ∈ order ∧ key.2 = params.name ∧ latticeId = params.latticeId ∧
      (createOrUpdateService api fails params ownerRef order c).cluster.service key =
        some (upserted api params ownerRef (c.service key)) := by
  induction order generalizing c with
  | nil => cases he
  | cons ns rest ih =>
    obtain ⟨hnew, hrestNodup⟩ := List.nodup_cons.mp horder
    rw [createOrUpdateService, cluster_andThen]
    rcases mem_andThen he with hfirst | ⟨hok, hrest⟩
    · rcases upsertIn_cases api fails params ownerRef ns c with
        ⟨_, heq⟩ | ⟨_, hself, _, _, hall⟩
      · rw [heq] at hfirst
        obtain rfl := List.mem_singleton.mp hfirst
        cases happlied
      · rcases (hall e hfirst).2 with rfl | hnone
        · cases happlied
          refine ⟨List.mem_cons_self, rfl, rfl, ?_⟩
          split
          · rw [(createOrUpdateService_sameOff rest _).service _ fun h => hnew h.1]
            exact hself
          · exact hself
        · rw [hnone] at happlied
          cases happlied
    · obtain ⟨hin, hname, hlattice, hservice⟩ := ih hrestNodup hrest
      have hne : key ≠ (ns, params.name) := by
        intro heq
        subst heq
        exact hnew hin
      rw [if_pos hok, hservice, (upsertIn_sameOff ns c).service key hne]
      exact ⟨List.mem_cons_of_mem _ hin, hname, hlattice, rfl⟩

theorem createOrUpdateService_untouched {order : List String} {key : ObjectKey}
    (h : ∀ e ∈ (createOrUpdateService api fails params ownerRef order c).effects,
      ∀ latticeId, e.appliedFor ≠ some (key, latticeId)) :
    (createOrUpdateService api fails params ownerRef order c).cluster.service key =
      c.service key := by
  induction order generalizing c with
  | nil => rfl
  | cons ns rest ih =>
    have hfirst : (upsertIn api fails params ownerRef ns c).cluster.service key =
        c.service key := by
      rcases upsertIn_cases api fails params ownerRef ns c with
        ⟨_, heq⟩ | ⟨_, _, hsame, hin, _⟩
      · rw [heq]
        rfl
      · apply hsame.service key
        intro heq
        subst heq
        exact h _ (mem_andThen_left _ hin) params.latticeId rfl
    rw [createOrUpdateService, cluster_andThen]
    split
    · next hok => exact (ih fun e he => h e (mem_andThen_right hok he)).trans hfirst
    · exact hfirst

theorem upsertIn_ok {ns : String} (h : (upsertIn api fails params ownerRef ns c).NoFailure) :
    (upsertIn api fails params ownerRef ns c).ok = true := by
  unfold upsertIn at h ⊢
  simp only at h ⊢
  split
  · next hpatch =>
    rw [if_pos hpatch] at h
    exact absurd List.mem_cons_self (h _)
  next hpatch =>
  rw [if_neg hpatch] at h
  split
  · next hnone =>
    rw [if_pos hnone] at h
    exact createEndpoints_ok ((noFailure_andThen h).2 rfl)
  · rfl

theorem createOrUpdateService_all {order : List String}
    (h : (createOrUpdateService api fails params ownerRef order c).NoFailure) {ns : String}
    (hns : ns ∈ order) : .applied (ns, params.name) params.latticeId ∈
      (createOrUpdateService api fails params ownerRef order c).effects := by
  induction order generalizing c with
  | nil => cases hns
  | cons first rest ih =>
    obtain ⟨hfirst, hrest⟩ := noFailure_andThen h
    have hok := upsertIn_ok hfirst
    rcases List.mem_cons.mp hns with rfl | hns
    · rcases upsertIn_cases api fails params ownerRef ns c with
        ⟨_, heq⟩ | ⟨_, _, _, hin, _⟩
      · rw [heq] at hfirst
        exact absurd List.mem_cons_self (hfirst _)
      · exact mem_andThen_left _ hin
    · exact mem_andThen_right hok (ih (hrest hok) hns)

theorem createOrUpdateService_failed {order : List String} {call : ApiCall}
    (h : .failed call ∈ (createOrUpdateService api fails params ownerRef order c).effects) :
    fails call = true := by
  induction order generalizing c with
  | nil => cases h
  | cons ns rest ih =>
    rcases mem_andThen h with hfirst | ⟨_, hrest⟩
    · unfold upsertIn at hfirst
      simp only at hfirst
      split at hfirst
      · next hpatch =>
        obtain rfl := Effect.failed.inj (List.mem_singleton.mp hfirst)
        exact hpatch
      split at hfirst
      · rcases mem_andThen hfirst with happlied | ⟨_, hend⟩
        · cases List.mem_singleton.mp happlied
        · exact createEndpoints_failed hend
      · cases List.mem_singleton.mp hfirst
    · exact ih hrest

end

end Commands
end WadmOperator

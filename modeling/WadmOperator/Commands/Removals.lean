import WadmOperator.Commands.Frames

/-!
# Removals

All that `delete_service` can do is listed once, in `Deletion`; the frame, the
effects and what is left at the key are read off that list and carried through the
loops of `delete_services`.
-/

namespace WadmOperator
namespace Commands

open Outcome

variable {api : ApiServer} {fails : ApiCall → Bool} {c : Cluster}

theorem afterWrite_eq {svc stored : Service} (h : Cluster.afterWrite svc = some stored) :
    stored = svc := by
  unfold Cluster.afterWrite at h
  split_ifs at h
  exact (Option.some.inj h).symm

def removed (api : ApiServer) (svc : Service) : Option Service :=
  Cluster.afterWrite { stripFinalizers api svc with deletionTimestamp := true }

def Reaches (fails : ApiCall → Bool) (key : ObjectKey) : Prop :=
  fails (getCall key) = false ∧ fails (patchCall key) = false

inductive Deletion (api : ApiServer) (fails : ApiCall → Bool) (key : ObjectKey) (c : Cluster) :
    Outcome → Prop where
  | getFailed (hget : fails (getCall key) = true) : Deletion api fails key c (fail c (getCall key))
  | absent (hget : fails (getCall key) = false) (hnone : c.service key = none) :
      Deletion api fails key c ⟨c, [.notFound key], false⟩
  | patchFailed {svc} (hsvc : c.service key = some svc) (hpatch : fails (patchCall key) = true) :
      Deletion api fails key c (fail c (patchCall key))
  | deleteFailed {svc} (hget : fails (getCall key) = false) (hsvc : c.service key = some svc)
      (hpatch : fails (patchCall key) = false) (hdelete : fails (deleteCall key) = true) :
      Deletion api fails key c ⟨c.writeService key (stripFinalizers api svc),
        [.stripped key svc, .failed (deleteCall key)], false⟩
  | gone {svc} (hget : fails (getCall key) = false) (hsvc : c.service key = some svc)
      (hpatch : fails (patchCall key) = false)
      (hgone : Cluster.afterWrite (stripFinalizers api svc) = none) :
      Deletion api fails key c ⟨c.writeService key (stripFinalizers api svc),
        [.stripped key svc, .notFound key], false⟩
  | done {svc} (hget : fails (getCall key) = false) (hsvc : c.service key = some svc)
      (hpatch : fails (patchCall key) = false)
      (hleft : Cluster.afterWrite (stripFinalizers api svc) = some (stripFinalizers api svc)) :
      Deletion api fails key c
        ⟨(c.writeService key (stripFinalizers api svc)).writeService key
            { stripFinalizers api svc with deletionTimestamp := true },
          [.stripped key svc, .deleted key svc], true⟩

theorem deleteService_cases (api : ApiServer) (fails : ApiCall → Bool) (key : ObjectKey)
    (c : Cluster) : Deletion api fails key c (deleteService api fails key c) := by
  unfold deleteService
  simp only
  split
  · next hget => exact .getFailed hget
  next hget =>
  have hget := Bool.eq_false_of_not_eq_true hget
  split
  · next hnone => exact .absent hget hnone
  next svc hsvc =>
  split
  · next hpatch => exact .patchFailed hsvc hpatch
  next hpatch =>
  have hpatch := Bool.eq_false_of_not_eq_true hpatch
  split
  · next hdelete => exact .deleteFailed hget hsvc hpatch hdelete
  have hself : (c.writeService key (stripFinalizers api svc)).service key =
      Cluster.afterWrite (stripFinalizers api svc) := by
    rw [Cluster.service_writeService, if_pos rfl]
  split
  · next hgone => exact .gone hget hsvc hpatch (hself.symm.trans hgone)
  · next left hleft =>
    have hleft := hself.symm.trans hleft
    obtain rfl := afterWrite_eq hleft
    exact .done hget hsvc hpatch hleft

theorem deleteService_sameOff (api : ApiServer) (fails : ApiCall → Bool) (key : ObjectKey)
    (c : Cluster) : SameOff (· = key) c (deleteService api fails key c).cluster := by
  have hcases := deleteService_cases api fails key c
  generalize deleteService api fails key c = o at hcases
  cases hcases with
  | getFailed _ => exact .refl _ c
  | absent _ _ => exact .refl _ c
  | patchFailed _ _ => exact .refl _ c
  | deleteFailed _ _ _ _ => exact .writeService c key _
  | gone _ _ _ _ => exact .writeService c key _
  | done _ _ _ _ => exact (SameOff.writeService c key _).trans (.writeService _ key _)

theorem deleteService_victim {key key' : ObjectKey} {svc : Service} {e : Effect}
    (he : e ∈ (deleteService api fails key c).effects) (hv : e.victim = some (key', svc)) :
    key' = key ∧ c.service key = some svc := by
  have hcases := deleteService_cases api fails key c
  generalize deleteService api fails key c = o at hcases he
  cases hcases with
  | getFailed _ | absent _ _ | patchFailed _ _ =>
    obtain rfl := List.mem_singleton.mp he
    cases hv
  | deleteFailed _ hsvc _ _ | gone _ hsvc _ _ | done _ hsvc _ _ =>
    rcases List.mem_pair.mp he with rfl | rfl <;> cases hv <;> exact ⟨rfl, hsvc⟩

theorem deleteService_victim_calls {key key' : ObjectKey} {svc : Service} {e : Effect}
    (he : e ∈ (deleteService api fails key c).effects) (hv : e.victim = some (key', svc)) :
    Reaches fails key := by
  have hcases := deleteService_cases api fails key c
  generalize deleteService api fails key c = o at hcases he
  cases hcases with
  | getFailed _ | absent _ _ | patchFailed _ _ =>
    obtain rfl := List.mem_singleton.mp he
    cases hv
  | deleteFailed hget _ hpatch _ | gone hget _ hpatch _ | done hget _ hpatch _ =>
    exact ⟨hget, hpatch⟩

theorem deleteService_strips {key : ObjectKey} {svc : Service} (hsvc : c.service key = some svc)
    (hreach : Reaches fails key) :
    .stripped key svc ∈ (deleteService api fails key c).effects := by
  have hcases := deleteService_cases api fails key c
  generalize deleteService api fails key c = o at hcases
  cases hcases with
  | getFailed hget => simp [hreach.1] at hget
  | absent _ hnone => simp [hsvc] at hnone
  | patchFailed _ hpatch => simp [hreach.2] at hpatch
  | deleteFailed _ hsvc' _ _ | gone _ hsvc' _ _ | done _ hsvc' _ _ =>
    obtain rfl := Option.some.inj (hsvc.symm.trans hsvc')
    exact List.mem_cons_self

theorem deleteService_not_applied {key : ObjectKey} {e : Effect}
    (he : e ∈ (deleteService api fails key c).effects) : e.appliedFor = none := by
  have hcases := deleteService_cases api fails key c
  generalize deleteService api fails key c = o at hcases he
  cases hcases with
  | getFailed _ | absent _ _ | patchFailed _ _ =>
    obtain rfl := List.mem_singleton.mp he
    rfl
  | deleteFailed _ _ _ _ | gone _ _ _ _ | done _ _ _ _ =>
    rcases List.mem_pair.mp he with rfl | rfl <;> rfl

theorem deleteService_failed {key : ObjectKey} {call : ApiCall}
    (h : .failed call ∈ (deleteService api fails key c).effects) : fails call = true := by
  have hcases := deleteService_cases api fails key c
  generalize deleteService api fails key c = o at hcases h
  cases hcases with
  | getFailed hfails | patchFailed _ hfails =>
    obtain rfl := Effect.failed.inj (List.mem_singleton.mp h)
    exact hfails
  | deleteFailed _ _ _ hfails =>
    rcases List.mem_pair.mp h with heq | heq
    · cases heq
    · obtain rfl := Effect.failed.inj heq
      exact hfails
  | absent _ _ | gone _ _ _ _ | done _ _ _ _ => simp at h

theorem deleteService_noFailure {key : ObjectKey}
    (h : (deleteService api fails key c).NoFailure) :
    (deleteService api fails key c).cluster.service key = (c.service key).bind (removed api) ∧
      ∃ e ∈ (deleteService api fails key c).effects, e.removedKey = some key := by
  have hcases := deleteService_cases api fails key c
  generalize deleteService api fails key c = o at hcases h
  cases hcases with
  | getFailed _ => exact absurd List.mem_cons_self (h _)
  | absent _ hnone =>
    rw [hnone]
    exact ⟨rfl, .notFound key, List.mem_cons_self, rfl⟩
  | patchFailed _ _ => exact absurd List.mem_cons_self (h _)
  | deleteFailed _ _ _ _ => exact absurd (List.mem_cons_of_mem _ List.mem_cons_self) (h _)
  | @gone svc _ hsvc _ hgone =>
    refine ⟨?_, .notFound key, List.mem_cons_of_mem _ List.mem_cons_self, rfl⟩
    have hempty : (stripFinalizers api svc).finalizers.isEmpty = true := by
      unfold Cluster.afterWrite at hgone
      split_ifs at hgone with hboth
      exact (Bool.and_eq_true_iff.mp hboth).2
    rw [Cluster.service_writeService, if_pos rfl, hgone, hsvc]
    simp [removed, Cluster.afterWrite, hempty]
  | done _ hsvc _ _ =>
    refine ⟨?_, .deleted key _, List.mem_cons_of_mem _ List.mem_cons_self, rfl⟩
    rw [Cluster.service_writeService, if_pos rfl, hsvc]
    rfl

theorem deleteService_ok {key : ObjectKey} (h : (deleteService api fails key c).NoFailure)
    (hfound : ∀ k, .notFound k ∉ (deleteService api fails key c).effects) :
    (deleteService api fails key c).ok = true := by
  have hcases := deleteService_cases api fails key c
  generalize deleteService api fails key c = o at hcases h hfound
  cases hcases with
  | getFailed _ | patchFailed _ _ => exact absurd List.mem_cons_self (h _)
  | deleteFailed _ _ _ _ => exact absurd (List.mem_cons_of_mem _ List.mem_cons_self) (h _)
  | absent _ _ => exact absurd List.mem_cons_self (hfound _)
  | gone _ _ _ _ => exact absurd (List.mem_cons_of_mem _ List.mem_cons_self) (hfound _)
  | done _ _ _ _ => rfl

theorem deleteService_blocked {key : ObjectKey} (h : ¬Reaches fails key) :
    (deleteService api fails key c).cluster = c := by
  have hcases := deleteService_cases api fails key c
  generalize deleteService api fails key c = o at hcases
  cases hcases with
  | getFailed _ | absent _ _ | patchFailed _ _ => rfl
  | deleteFailed hget _ hpatch _ | gone hget _ hpatch _ | done hget _ hpatch _ =>
    exact absurd ⟨hget, hpatch⟩ h

theorem deleteService_untouched {key target : ObjectKey} (h : ¬(key = target ∧ Reaches fails key)) :
    (deleteService api fails target c).cluster.service key = c.service key := by
  by_cases hkey : key = target
  · subst hkey
    rw [deleteService_blocked fun hreach => h ⟨rfl, hreach⟩]
  · exact (deleteService_sameOff api fails target c).service key hkey

def Held (svc : Service) : Prop :=
  svc.deletionTimestamp = true → ∃ f ∈ svc.finalizers, f ≠ SERVICE_FINALIZER

theorem deleteService_found {key : ObjectKey} {svc : Service} (hsvc : c.service key = some svc)
    (hheld : Held svc) (k : ObjectKey) :
    .notFound k ∉ (deleteService api fails key c).effects := by
  intro hin
  have hcases := deleteService_cases api fails key c
  generalize deleteService api fails key c = o at hcases hin
  cases hcases with
  | getFailed _ | patchFailed _ _ => cases List.mem_singleton.mp hin
  | deleteFailed _ _ _ _ | done _ _ _ _ => simp at hin
  | absent _ hnone => simp [hsvc] at hnone
  | @gone svc' _ hsvc' _ hgone =>
    obtain rfl := Option.some.inj (hsvc.symm.trans hsvc')
    unfold Cluster.afterWrite at hgone
    split_ifs at hgone with hboth
    obtain ⟨hdeleted, hempty⟩ := Bool.and_eq_true_iff.mp hboth
    rw [stripFinalizers, api.deletionTimestamp_kept] at hdeleted
    obtain ⟨f, hf, hother⟩ := hheld hdeleted
    have hkept := api.finalizer_kept SERVICE_FINALIZER true svc { svc with finalizers := [] } f hf
      fun h => hother h.2
    rw [stripFinalizers, List.isEmpty_iff] at hempty
    rw [hempty] at hkept
    cases hkept

theorem deleteEach_sameOff (keys : List ObjectKey) (c : Cluster) :
    SameOff (· ∈ keys) c (deleteEach api fails keys c).cluster := by
  induction keys generalizing c with
  | nil => exact .refl _ c
  | cons key keys ih =>
    refine sameOff_andThen ?_ fun c => ?_
    · exact (deleteService_sameOff api fails key c).mono fun k hk => hk ▸ List.mem_cons_self
    · exact (ih c).mono fun k hk => List.mem_cons_of_mem _ hk

theorem deleteEach_untouched {keys : List ObjectKey} {key : ObjectKey}
    (h : ¬(key ∈ keys ∧ Reaches fails key)) :
    (deleteEach api fails keys c).cluster.service key = c.service key := by
  induction keys generalizing c with
  | nil => rfl
  | cons first keys ih =>
    have hfirst : (deleteService api fails first c).cluster.service key = c.service key := by
      refine deleteService_untouched fun hin => h ?_
      exact ⟨hin.1 ▸ List.mem_cons_self, hin.2⟩
    rw [deleteEach, cluster_andThen]
    split
    · refine (ih fun hin => h ?_).trans hfirst
      exact ⟨List.mem_cons_of_mem _ hin.1, hin.2⟩
    · exact hfirst

theorem deleteEach_victim {keys : List ObjectKey} (hkeys : keys.Nodup) {key : ObjectKey}
    {svc : Service} {e : Effect} (he : e ∈ (deleteEach api fails keys c).effects)
    (hv : e.victim = some (key, svc)) : key ∈ keys ∧ c.service key = some svc := by
  induction keys generalizing c with
  | nil => cases he
  | cons first keys ih =>
    obtain ⟨hnew, hkeys⟩ := List.nodup_cons.mp hkeys
    rcases mem_andThen he with hfirst | ⟨_, hrest⟩
    · obtain ⟨rfl, hsvc⟩ := deleteService_victim hfirst hv
      exact ⟨List.mem_cons_self, hsvc⟩
    · obtain ⟨hin, hsvc⟩ := ih hkeys hrest
      have hne : key ≠ first := fun heq => hnew (heq ▸ hin)
      rw [(deleteService_sameOff api fails first c).service key hne] at hsvc
      exact ⟨List.mem_cons_of_mem _ hin, hsvc⟩

theorem deleteEach_not_applied {keys : List ObjectKey} {e : Effect}
    (he : e ∈ (deleteEach api fails keys c).effects) : e.appliedFor = none := by
  induction keys generalizing c with
  | nil => cases he
  | cons first keys ih =>
    rcases mem_andThen he with hfirst | ⟨_, hrest⟩
    · exact deleteService_not_applied hfirst
    · exact ih hrest

theorem deleteEach_failed {keys : List ObjectKey} {call : ApiCall}
    (h : .failed call ∈ (deleteEach api fails keys c).effects) : fails call = true := by
  induction keys generalizing c with
  | nil => cases h
  | cons first keys ih =>
    rcases mem_andThen h with hfirst | ⟨_, hrest⟩
    · exact deleteService_failed hfirst
    · exact ih hrest

theorem deleteEach_noFailure {keys : List ObjectKey}
    (h : (deleteEach api fails keys c).NoFailure) (key : ObjectKey) :
    (∃ e ∈ (deleteEach api fails keys c).effects, e.removedKey = some key) ∨
      (deleteEach api fails keys c).cluster.service key = c.service key := by
  induction keys generalizing c with
  | nil => exact .inr rfl
  | cons first keys ih =>
    obtain ⟨hfirst, hrest⟩ := noFailure_andThen h
    by_cases hkey : key = first
    · subst hkey
      obtain ⟨e, he, hremoved⟩ := (deleteService_noFailure hfirst).2
      exact .inl ⟨e, mem_andThen_left _ he, hremoved⟩
    · have hsame := (deleteService_sameOff api fails first c).service key hkey
      rw [deleteEach, cluster_andThen]
      split
      · next hok =>
        rcases ih (hrest hok) with ⟨e, he, hremoved⟩ | hkeep
        · exact .inl ⟨e, mem_andThen_right hok he, hremoved⟩
        · exact .inr (hkeep.trans hsame)
      · exact .inr hsame

theorem deleteEach_all {keys : List ObjectKey} (h : (deleteEach api fails keys c).NoFailure)
    (hfound : ∀ k, .notFound k ∉ (deleteEach api fails keys c).effects) {key : ObjectKey}
    (hkey : key ∈ keys) :
    ∃ e ∈ (deleteEach api fails keys c).effects, e.removedKey = some key := by
  induction keys generalizing c with
  | nil => cases hkey
  | cons first keys ih =>
    obtain ⟨hfirst, hrest⟩ := noFailure_andThen h
    have hok := deleteService_ok hfirst fun k hk => hfound k (mem_andThen_left _ hk)
    rcases List.mem_cons.mp hkey with rfl | hkey
    · obtain ⟨e, he, hremoved⟩ := (deleteService_noFailure hfirst).2
      exact ⟨e, mem_andThen_left _ he, hremoved⟩
    · obtain ⟨e, he, hremoved⟩ :=
        ih (hrest hok) (fun k hk => hfound k (mem_andThen_right hok hk)) hkey
      exact ⟨e, mem_andThen_right hok he, hremoved⟩

theorem deleteEach_found {keys : List ObjectKey} (hkeys : keys.Nodup)
    (hheld : ∀ key ∈ keys, ∃ svc, c.service key = some svc ∧ Held svc) (k : ObjectKey) :
    .notFound k ∉ (deleteEach api fails keys c).effects := by
  induction keys generalizing c with
  | nil => exact List.not_mem_nil
  | cons first keys ih =>
    obtain ⟨hnew, hkeys⟩ := List.nodup_cons.mp hkeys
    intro hin
    rcases mem_andThen hin with hfirst | ⟨_, hrest⟩
    · obtain ⟨svc, hsvc, hh⟩ := hheld first List.mem_cons_self
      exact deleteService_found hsvc hh k hfirst
    · refine ih hkeys (fun key hkey => ?_) hrest
      have hne : key ≠ first := fun heq => hnew (heq ▸ hkey)
      rw [(deleteService_sameOff api fails first c).service key hne]
      exact hheld key (List.mem_cons_of_mem _ hkey)

theorem deleteServices_sameOff (ns : String) (c : Cluster) :
    SameOff (fun key => key.1 = ns) c (deleteServices api fails ns c).cluster := by
  unfold deleteServices
  split
  · exact .refl _ c
  · exact (deleteEach_sameOff _ c).mono fun key hin => (Cluster.mem_managedServices.mp hin).1

theorem deleteServices_untouched {ns : String} {key : ObjectKey} {svc : Service}
    (hsvc : c.service key = some svc) (h : ¬(svc.managed = true ∧ Reaches fails key)) :
    (deleteServices api fails ns c).cluster.service key = some svc := by
  rw [← hsvc]
  unfold deleteServices
  split
  · rfl
  · refine deleteEach_untouched fun hin => h ?_
    obtain ⟨-, found, hfound, hmanaged⟩ := Cluster.mem_managedServices.mp hin.1
    obtain rfl := Option.some.inj (hsvc.symm.trans hfound)
    exact ⟨hmanaged, hin.2⟩

theorem deleteServices_victim {ns : String} {key : ObjectKey} {svc : Service} {e : Effect}
    (he : e ∈ (deleteServices api fails ns c).effects) (hv : e.victim = some (key, svc)) :
    key.1 = ns ∧ c.service key = some svc ∧ svc.managed = true := by
  unfold deleteServices at he
  split at he
  · obtain rfl := List.mem_singleton.mp he
    cases hv
  · obtain ⟨hin, hsvc⟩ := deleteEach_victim (c.managedServices_nodup ns) he hv
    obtain ⟨hns, found, hfound, hmanaged⟩ := Cluster.mem_managedServices.mp hin
    obtain rfl := Option.some.inj (hsvc.symm.trans hfound)
    exact ⟨hns, hsvc, hmanaged⟩

theorem deleteServices_not_applied {ns : String} {e : Effect}
    (he : e ∈ (deleteServices api fails ns c).effects) : e.appliedFor = none := by
  unfold deleteServices at he
  split at he
  · obtain rfl := List.mem_singleton.mp he
    rfl
  · exact deleteEach_not_applied he

theorem deleteServices_failed {ns : String} {call : ApiCall}
    (h : .failed call ∈ (deleteServices api fails ns c).effects) : fails call = true := by
  unfold deleteServices at h
  split at h
  · next hlist =>
    obtain rfl := Effect.failed.inj (List.mem_singleton.mp h)
    exact hlist
  · exact deleteEach_failed h

theorem deleteServices_noFailure {ns : String} (h : (deleteServices api fails ns c).NoFailure)
    (key : ObjectKey) :
    (∃ e ∈ (deleteServices api fails ns c).effects, e.removedKey = some key) ∨
      (deleteServices api fails ns c).cluster.service key = c.service key := by
  unfold deleteServices at h ⊢
  split
  · exact .inr rfl
  · next hlist =>
    rw [if_neg hlist] at h
    exact deleteEach_noFailure h key

theorem deleteServices_found {ns : String}
    (hheld : ∀ name svc, c.service (ns, name) = some svc → svc.managed = true → Held svc)
    (k : ObjectKey) : .notFound k ∉ (deleteServices api fails ns c).effects := by
  unfold deleteServices
  split
  · simp [fail]
  · refine deleteEach_found (c.managedServices_nodup ns) (fun key hkey => ?_) k
    obtain ⟨rfl, svc, hsvc, hmanaged⟩ := Cluster.mem_managedServices.mp hkey
    exact ⟨svc, hsvc, hheld key.2 svc hsvc hmanaged⟩

theorem deleteServices_all {ns : String} (h : (deleteServices api fails ns c).NoFailure)
    (hfound : ∀ k, .notFound k ∉ (deleteServices api fails ns c).effects) {key : ObjectKey}
    {svc : Service} (hns : key.1 = ns) (hsvc : c.service key = some svc)
    (hmanaged : svc.managed = true) :
    ∃ e ∈ (deleteServices api fails ns c).effects, e.removedKey = some key := by
  have hin : key ∈ c.managedServices ns := Cluster.mem_managedServices.mpr ⟨hns, svc, hsvc, hmanaged⟩
  unfold deleteServices at h hfound ⊢
  split
  · next hlist =>
    rw [if_pos hlist] at h
    exact absurd List.mem_cons_self (h _)
  · next hlist =>
    rw [if_neg hlist] at h hfound
    exact deleteEach_all h hfound hin

end Commands
end WadmOperator

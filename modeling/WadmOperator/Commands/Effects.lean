import WadmOperator.Commands.Removals
import WadmOperator.Commands.Upserts

/-!
# What the command loop does for a command

The facts about upserts and removals, put together for whole commands: whom a
command can remove, where it applies a Service, and what it leaves when no call
fails.
-/

namespace WadmOperator
namespace Commands

open Outcome

variable {api : ApiServer} {fails : ApiCall → Bool} {c : Cluster} {order : List String}
  {name : String} {namespaces : Finset String} {params : ServiceParams}

theorem deleteService_keeps_ns (api : ApiServer) (fails : ApiCall → Bool) (name ns : String)
    (c : Cluster) :
    SameOff (fun key => key.1 = ns) c (deleteService api fails (ns, name) c).cluster :=
  (deleteService_sameOff api fails (ns, name) c).mono fun _ hk => hk ▸ rfl

theorem runCommand_upsert : runCommand api fails order (.upsertService params) c =
    { createOrUpdateService api fails params none order c with ok := true } := rfl

theorem removeService_sameOff (order : List String) (c : Cluster) :
    SameOff (fun key => key.1 ∈ order ∧ key.2 = name) c
      (runCommand api fails order (.removeService name namespaces) c).cluster := by
  refine sameOff_forEach (fun ns hns c => ?_) c
  refine (deleteService_sameOff api fails (ns, name) c).mono fun key hk => ?_
  subst hk
  exact ⟨hns, rfl⟩

theorem removeServices_sameOff (order : List String) (c : Cluster) :
    SameOff (fun key => key.1 ∈ order) c
      (runCommand api fails order (.removeServices namespaces) c).cluster := by
  refine sameOff_forEach (fun ns hns c => ?_) c
  exact (deleteServices_sameOff ns c).mono fun key hk => hk ▸ hns

def Targets (key : ObjectKey) (svc : Service) : WatcherCommand → Prop
  | .upsertService _ => False
  | .removeService name namespaces => key.1 ∈ namespaces ∧ key.2 = name
  | .removeServices namespaces => key.1 ∈ namespaces ∧ svc.managed = true

theorem runCommand_untouched {cmd : WatcherCommand} (hremoval : cmd.isRemoval = true)
    (horder : IterationOf order cmd.namespaces) {key : ObjectKey} {svc : Service}
    (hsvc : c.service key = some svc) (h : ¬(Targets key svc cmd ∧ Reaches fails key)) :
    (runCommand api fails order cmd c).cluster.service key = some svc := by
  by_cases hin : key.1 ∈ order
  · have hns := (horder.mem key.1).mp hin
    cases cmd with
    | upsertService params => cases hremoval
    | removeService name namespaces =>
      obtain ⟨start, hstart, -, hend⟩ :=
        forEach_pass (deleteService_keeps_ns api fails name) horder.1 hin c
      refine (hend key rfl).trans ?_
      rw [← hsvc, ← hstart key rfl]
      refine deleteService_untouched fun htarget => h ⟨⟨hns, ?_⟩, htarget.2⟩
      exact congrArg Prod.snd htarget.1
    | removeServices namespaces =>
      obtain ⟨start, hstart, -, hend⟩ :=
        forEach_pass (fun ns c => deleteServices_sameOff ns c) horder.1 hin c
      refine (hend key rfl).trans ?_
      refine deleteServices_untouched ((hstart key rfl).trans hsvc) fun htarget => h ?_
      exact ⟨⟨hns, htarget.1⟩, htarget.2⟩
  · cases cmd with
    | upsertService params => cases hremoval
    | removeService name namespaces =>
      exact ((removeService_sameOff order c).service key fun hk => hin hk.1).trans hsvc
    | removeServices namespaces => exact ((removeServices_sameOff order c).service key hin).trans hsvc

theorem runCommand_victim {cmd : WatcherCommand} (horder : order.Nodup) {key : ObjectKey}
    {svc : Service} {e : Effect} (he : e ∈ (runCommand api fails order cmd c).effects)
    (hv : e.victim = some (key, svc)) :
    svc.managed = true ∨ ∃ name namespaces, cmd = .removeService name namespaces ∧
      key.1 ∈ order ∧ key.2 = name ∧ c.service key = some svc ∧ Reaches fails key := by
  cases cmd with
  | upsertService params =>
    rw [(createOrUpdateService_keeps he).1] at hv
    cases hv
  | removeService name namespaces =>
    obtain ⟨ns, hns, start, hstart, he⟩ :=
      mem_forEach_pass (deleteService_keeps_ns api fails name) horder he
    obtain ⟨rfl, hsvc⟩ := deleteService_victim he hv
    rw [hstart _ rfl] at hsvc
    exact .inr ⟨name, namespaces, rfl, hns, rfl, hsvc, deleteService_victim_calls he hv⟩
  | removeServices namespaces =>
    obtain ⟨ns, -, start, -, he⟩ :=
      mem_forEach_pass (fun ns c => deleteServices_sameOff ns c) horder he
    exact .inl (deleteServices_victim he hv).2.2

theorem removeService_strips (horder : order.Nodup) {ns : String} (hns : ns ∈ order)
    {svc : Service} (hsvc : c.service (ns, name) = some svc) (hreach : Reaches fails (ns, name)) :
    .stripped (ns, name) svc ∈
      (runCommand api fails order (.removeService name namespaces) c).effects := by
  obtain ⟨start, hstart, heffects, -⟩ :=
    forEach_pass (deleteService_keeps_ns api fails name) horder hns c
  exact heffects _ (deleteService_strips ((hstart _ rfl).trans hsvc) hreach)

theorem runCommand_applied {cmd : WatcherCommand} (horder : order.Nodup) {key : ObjectKey}
    {latticeId : String} {e : Effect} (he : e ∈ (runCommand api fails order cmd c).effects)
    (happlied : e.appliedFor = some (key, latticeId)) :
    ∃ params, cmd = .upsertService params ∧ key.1 ∈ order ∧ key.2 = params.name ∧
      latticeId = params.latticeId ∧
      (runCommand api fails order cmd c).cluster.service key =
        some (upserted api params none (c.service key)) := by
  cases cmd with
  | upsertService params => exact ⟨params, rfl, createOrUpdateService_applied horder he happlied⟩
  | removeService name namespaces =>
    obtain ⟨ns, -, start, -, he⟩ :=
      mem_forEach_pass (deleteService_keeps_ns api fails name) horder he
    rw [deleteService_not_applied he] at happlied
    cases happlied
  | removeServices namespaces =>
    obtain ⟨ns, -, start, -, he⟩ :=
      mem_forEach_pass (fun ns c => deleteServices_sameOff ns c) horder he
    rw [deleteServices_not_applied he] at happlied
    cases happlied

theorem runCommand_answered {cmd : WatcherCommand} (hfails : ∀ call, fails call = false) :
    (runCommand api fails order cmd c).NoFailure := by
  intro call hcall
  have hfailed : fails call = true := by
    cases cmd with
    | upsertService params => exact createOrUpdateService_failed hcall
    | removeService name namespaces =>
      obtain ⟨before, ns, after, -, hpass⟩ := mem_forEach.mp hcall
      exact deleteService_failed hpass
    | removeServices namespaces =>
      obtain ⟨before, ns, after, -, hpass⟩ := mem_forEach.mp hcall
      exact deleteServices_failed hpass
  rw [hfails call] at hfailed
  cases hfailed

theorem runCommand_noFailure {cmd : WatcherCommand} (horder : order.Nodup)
    (h : (runCommand api fails order cmd c).NoFailure) (key : ObjectKey) :
    (∃ e ∈ (runCommand api fails order cmd c).effects, ∃ latticeId,
      e.appliedFor = some (key, latticeId)) ∨
    (∃ e ∈ (runCommand api fails order cmd c).effects, e.removedKey = some key) ∨
      (runCommand api fails order cmd c).cluster.service key = c.service key := by
  cases cmd with
  | upsertService params =>
    by_cases happlied : ∃ e ∈ (createOrUpdateService api fails params none order c).effects,
        ∃ latticeId, e.appliedFor = some (key, latticeId)
    · exact .inl happlied
    · right
      right
      refine createOrUpdateService_untouched fun e he latticeId heq => ?_
      exact happlied ⟨e, he, latticeId, heq⟩
  | removeService name namespaces =>
    right
    by_cases hin : key.1 ∈ order ∧ key.2 = name
    · left
      obtain ⟨start, -, heffects, -⟩ :=
        forEach_pass (deleteService_keeps_ns api fails name) horder hin.1 c
      have hnofail : (deleteService api fails (key.1, name) start).NoFailure :=
        fun call hcall => h call (heffects _ hcall)
      obtain ⟨e, he, hremoved⟩ := (deleteService_noFailure hnofail).2
      exact ⟨e, heffects e he, by rw [hremoved, ← hin.2]⟩
    · exact .inr ((removeService_sameOff order c).service key hin)
  | removeServices namespaces =>
    right
    by_cases hin : key.1 ∈ order
    · obtain ⟨start, hstart, heffects, hend⟩ :=
        forEach_pass (fun ns c => deleteServices_sameOff ns c) horder hin c
      have hnofail : (deleteServices api fails key.1 start).NoFailure :=
        fun call hcall => h call (heffects _ hcall)
      rcases deleteServices_noFailure hnofail key with ⟨e, he, hremoved⟩ | hsame
      · exact .inl ⟨e, heffects e he, hremoved⟩
      · exact .inr ((hend key rfl).trans (hsame.trans (hstart key rfl)))
    · exact .inr ((removeServices_sameOff order c).service key hin)

theorem removeServices_found (horder : order.Nodup)
    (hheld : ∀ ns ∈ order, ∀ name svc, c.service (ns, name) = some svc →
      svc.managed = true → Held svc) (k : ObjectKey) :
    .notFound k ∉ (runCommand api fails order (.removeServices namespaces) c).effects := by
  intro hin
  obtain ⟨ns, hns, start, hstart, he⟩ :=
    mem_forEach_pass (fun ns c => deleteServices_sameOff ns c) horder hin
  refine deleteServices_found (fun name svc hsvc => ?_) k he
  rw [hstart _ rfl] at hsvc
  exact hheld ns hns name svc hsvc

theorem removeServices_all (horder : order.Nodup)
    (h : (runCommand api fails order (.removeServices namespaces) c).NoFailure)
    (hfound : ∀ k, .notFound k ∉
      (runCommand api fails order (.removeServices namespaces) c).effects)
    {key : ObjectKey} {svc : Service} (hns : key.1 ∈ order) (hsvc : c.service key = some svc)
    (hmanaged : svc.managed = true) :
    ∃ e ∈ (runCommand api fails order (.removeServices namespaces) c).effects,
      e.removedKey = some key := by
  obtain ⟨start, hstart, heffects, -⟩ :=
    forEach_pass (fun ns c => deleteServices_sameOff ns c) horder hns c
  have hnofail : (deleteServices api fails key.1 start).NoFailure :=
    fun call hcall => h call (heffects _ hcall)
  obtain ⟨e, he, hremoved⟩ := deleteServices_all hnofail (fun k hk => hfound k (heffects _ hk)) rfl
    ((hstart key rfl).trans hsvc) hmanaged
  exact ⟨e, heffects e he, hremoved⟩

theorem removeService_service (horder : order.Nodup)
    (h : (runCommand api fails order (.removeService name namespaces) c).NoFailure) {ns : String}
    (hns : ns ∈ order) :
    (runCommand api fails order (.removeService name namespaces) c).cluster.service (ns, name) =
        (c.service (ns, name)).bind (removed api) ∧
      ∃ e ∈ (runCommand api fails order (.removeService name namespaces) c).effects,
        e.removedKey = some (ns, name) := by
  obtain ⟨start, hstart, heffects, hend⟩ :=
    forEach_pass (deleteService_keeps_ns api fails name) horder hns c
  have hnofail : (deleteService api fails (ns, name) start).NoFailure :=
    fun call hcall => h call (heffects _ hcall)
  obtain ⟨hservice, e, he, hremoved⟩ := deleteService_noFailure hnofail
  refine ⟨?_, e, heffects e he, hremoved⟩
  exact (hend _ rfl).trans (hservice.trans (by rw [hstart _ rfl]))

end Commands
end WadmOperator

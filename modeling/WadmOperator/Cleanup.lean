import WadmOperator.Commands.Effects
import WadmOperator.CommandQueue

/-!
# What a cleanup leaves behind

`stop_watch` sends the removal of a namespace's Services only while the lattice has an
entry, and a restart empties the map of entries and the channel. What a cleaned up
lattice still owes its namespace is the outcome of the commands that wait.
-/

namespace WadmOperator
namespace Operator

open Transition Commands

variable {api : ApiServer} {s u : Operator} {l : Label} {ns latticeId : String}

abbrev makers (s : Operator) (key : ObjectKey) : Finset String :=
  (s.history.madeFor.get? key).getD ∅

def MadeIn (s : Operator) (ns latticeId : String) : Prop :=
  ∃ name, latticeId ∈ s.makers (ns, name)

def Upserts (ns latticeId : String) (q : Sent) : Prop :=
  ∃ params, q.cmd = .upsertService params ∧ params.latticeId = latticeId ∧
    ns ∈ params.namespaces

def Clears (ns : String) (q : Sent) : Prop :=
  ∃ namespaces, q.cmd = .removeServices namespaces ∧ ns ∈ namespaces

/-- The namespace has a Service made for the lattice, or will have one, once the commands
that wait are carried out. -/
def Owes (s : Operator) (ns latticeId : String) : Prop :=
  Channel.Pending (Upserts ns latticeId) (Clears ns) (s.MadeIn ns latticeId) s.queue

def NothingOwed (s : Operator) : Prop :=
  ∀ ns latticeId, (ns, latticeId) ∈ s.history.cleaned → ¬s.Owes ns latticeId

def MadeManaged (s : Operator) : Prop :=
  ∀ key latticeId, latticeId ∈ s.makers key → ∃ svc, s.cluster.service key = some svc ∧
    svc.managed = true ∧ SERVICE_FINALIZER ∈ svc.finalizers

/-- Once the channel is drained, no Service made for a cleaned up lattice carries the
operator's finalizer in that namespace. -/
def CleanedUp (s : Operator) : Prop :=
  ∀ ns latticeId, (ns, latticeId) ∈ s.history.cleaned → s.queue = [] →
    ∀ name svc, s.cluster.service (ns, name) = some svc →
      latticeId ∈ s.makers (ns, name) → SERVICE_FINALIZER ∉ svc.finalizers

/-- No call fails, no managed Service goes away under the patch that strips it, the last
config of a lattice is cleaned up while the lattice has an entry or nothing is owed, no
upsert is sent for a cleaned up lattice, and no restart comes before its removals. -/
structure LeavesNothing (api : ApiServer) (s : Operator) (l : Label) (_ : Operator) :
    Prop where
  answered : ∀ q order fails, s.Executes l q order fails →
    (runCommand api fails order q.cmd s.cluster).NoFailure
  held : ∀ q order fails, s.Executes l q order fails → ∀ ns, Clears ns q →
    ∀ name svc, s.cluster.service (ns, name) = some svc → svc.managed = true → Held svc
  watched : ∀ key config, l = .cleanup key → s.cluster.config key = some config →
    (s.cluster.removeConfig key).uses config.ns config.spec.lattice = false →
      s.serviceWatcher.watchers.get? config.spec.lattice ≠ none ∨
        ¬s.Owes config.ns config.spec.lattice
  fresh : ∀ q, Sends s l q → ∀ ns latticeId, (ns, latticeId) ∈ s.history.cleaned →
    ¬Upserts ns latticeId q
  drained : l = .restart → ∀ ns latticeId, (ns, latticeId) ∈ s.history.cleaned →
    ¬s.MadeIn ns latticeId

theorem mem_record {effects : List Effect} {madeFor : Dict ObjectKey (Finset String)}
    {key : ObjectKey} (h : latticeId ∈ ((effects.foldl Effect.record madeFor).get? key).getD ∅) :
    (∃ e ∈ effects, e.appliedFor = some (key, latticeId)) ∨
      latticeId ∈ (madeFor.get? key).getD ∅ ∧ ∀ e ∈ effects, e.removedKey ≠ some key := by
  induction effects generalizing madeFor with
  | nil => exact .inr ⟨h, by simp⟩
  | cons e effects ih =>
    rcases ih h with ⟨e', he', happlied⟩ | ⟨hmem, hrest⟩
    · exact .inl ⟨e', List.mem_cons_of_mem _ he', happlied⟩
    have hhead : e.appliedFor = some (key, latticeId) ∨
        latticeId ∈ (madeFor.get? key).getD ∅ ∧ e.removedKey ≠ some key := by
      cases e with
      | applied k lattice =>
        simp only [Effect.record, Dict.get?_put] at hmem
        split at hmem
        · next hk =>
          subst hk
          rcases Finset.mem_insert.mp hmem with rfl | hold
          · exact .inl rfl
          · exact .inr ⟨hold, by simp [Effect.removedKey]⟩
        · exact .inr ⟨hmem, by simp [Effect.removedKey]⟩
      | deleted k svc | notFound k =>
        simp only [Effect.record, Dict.get?_remove] at hmem
        split at hmem
        · simp at hmem
        · next hk =>
          refine .inr ⟨hmem, fun heq => hk ?_⟩
          exact (Option.some.inj heq).symm
      | sliced _ _ | stripped _ _ | failed _ => exact .inr ⟨hmem, by simp [Effect.removedKey]⟩
    rcases hhead with happlied | ⟨hold, hne⟩
    · exact .inl ⟨e, List.mem_cons_self, happlied⟩
    · right
      refine ⟨hold, fun e' he' => ?_⟩
      rcases List.mem_cons.mp he' with rfl | he'
      · exact hne
      · exact hrest e' he'

theorem madeManaged_congr (hs : s.MadeManaged) (hservices : u.cluster.services = s.cluster.services)
    (hmade : u.history.madeFor = s.history.madeFor) : u.MadeManaged := by
  intro key latticeId hmem
  rw [makers, hmade] at hmem
  obtain ⟨svc, hsvc, hown⟩ := hs key latticeId hmem
  refine ⟨svc, ?_, hown⟩
  rwa [Cluster.service, hservices]

theorem madeManaged_step (hs : s.MadeManaged) (hstep : StepCase api s l u)
    (hguard : LeavesNothing api s l u) : u.MadeManaged := by
  cases hstep with
  | quiet h _ _ => exact madeManaged_congr hs h.services (by rw [h.record])
  | handle _ _ | settle _ _ | nextApp _ _ | restart => exact madeManaged_congr hs rfl rfl
  | cleanup _ _ =>
    exact madeManaged_congr hs rfl (recordCleanup_frame _ _ _).2.2
  | configureService _ =>
    intro key latticeId hmem
    obtain ⟨svc, hsvc, hmanaged, hfinalizer⟩ := hs key latticeId hmem
    exact Cluster.configureService_keeps hsvc hmanaged hfinalizer
  | @exec order fails q sw hrecv horder =>
    have hnofail := hguard.answered q order fails ⟨rfl, sw, hrecv⟩
    have hupserted : ∀ key latticeId, (∃ e ∈ (runCommand api fails order q.cmd s.cluster).effects,
        e.appliedFor = some (key, latticeId)) → ∃ svc,
        (runCommand api fails order q.cmd s.cluster).cluster.service key = some svc ∧
          svc.managed = true ∧ SERVICE_FINALIZER ∈ svc.finalizers := by
      intro key latticeId happlied
      obtain ⟨e, he, heq⟩ := happlied
      obtain ⟨params, -, -, -, -, hsvc⟩ := runCommand_applied horder.1 he heq
      exact ⟨_, hsvc, upserted_managed api params none _,
        api.finalizer_applied _ _ _ _ _ List.mem_cons_self⟩
    intro key latticeId hmem
    rcases mem_record hmem with happlied | ⟨hold, hkept⟩
    · exact hupserted key latticeId happlied
    · rcases runCommand_noFailure horder.1 hnofail key with
        ⟨e, he, lattice', heq⟩ | ⟨e, he, hremoved⟩ | hsame
      · exact hupserted key lattice' ⟨e, he, heq⟩
      · exact absurd hremoved (hkept e he)
      · obtain ⟨svc, hsvc, hown⟩ := hs key latticeId hold
        exact ⟨svc, hsame.trans hsvc, hown⟩

theorem owes_congr (hqueue : u.queue = s.queue)
    (hmade : u.history.madeFor = s.history.madeFor) : u.Owes ns latticeId ↔ s.Owes ns latticeId := by
  simp only [Owes, MadeIn, makers, hqueue, hmade]

theorem owes_append {q : Sent} (hqueue : u.queue = s.queue ++ [q])
    (hmade : u.history.madeFor = s.history.madeFor) :
    u.Owes ns latticeId ↔ Upserts ns latticeId q ∨ s.Owes ns latticeId ∧ ¬Clears ns q := by
  simp only [Owes, MadeIn, makers, hqueue, hmade, Channel.pending_append]

theorem owes_of_sends (hstep : StepCase api s l u) (hexec : ∀ order fails, l ≠ .exec order fails)
    (hrestart : l ≠ .restart) (hmade : u.history.madeFor = s.history.madeFor)
    (hguard : LeavesNothing api s l u) (hcleaned : (ns, latticeId) ∈ s.history.cleaned)
    (howes : u.Owes ns latticeId) : s.Owes ns latticeId := by
  rcases hstep.queue with hsame | ⟨q, hsends, hsent⟩ | ⟨q, order, fails, ⟨hl, -⟩, -⟩ | ⟨hl, -⟩
  · exact (owes_congr hsame hmade).mp howes
  · rcases (owes_append hsent hmade).mp howes with hupserts | ⟨hold, -⟩
    · exact absurd hupserts (hguard.fresh q hsends ns latticeId hcleaned)
    · exact hold
  · exact absurd hl (hexec order fails)
  · exact absurd hl hrestart

theorem owes_of_exec {order : List String} {fails : ApiCall → Bool} {q : Sent}
    {sw : ServiceWatcher} (hmanaged : s.MadeManaged) (hrecv : s.serviceWatcher.recv = some (q, sw))
    (horder : IterationOf order q.cmd.namespaces)
    (hnofail : (runCommand api fails order q.cmd s.cluster).NoFailure)
    (hheld : ∀ ns, Clears ns q → ∀ name svc, s.cluster.service (ns, name) = some svc →
      svc.managed = true → Held svc)
    (howes : Channel.Pending (Upserts ns latticeId) (Clears ns)
      (∃ name, latticeId ∈ (((runCommand api fails order q.cmd s.cluster).effects.foldl
        Effect.record s.history.madeFor).get? (ns, name)).getD ∅) sw.channel.queue) :
    s.Owes ns latticeId := by
  rw [Owes, Operator.queue, ServiceWatcher.recv_queue hrecv]
  refine howes.mono fun hmade => ?_
  obtain ⟨name, hmem⟩ := hmade
  rcases mem_record hmem with ⟨e, he, happlied⟩ | ⟨hold, hkept⟩
  · left
    obtain ⟨params, hcmd, hns, -, hlattice, -⟩ := runCommand_applied horder.1 he happlied
    refine ⟨params, hcmd, hlattice.symm, ?_⟩
    have hin := (horder.mem ns).mp hns
    rwa [hcmd] at hin
  · right
    refine ⟨⟨name, hold⟩, fun hclears => ?_⟩
    obtain ⟨namespaces, hcmd, hns⟩ := hclears
    obtain ⟨svc, hsvc, hown, -⟩ := hmanaged (ns, name) latticeId hold
    rw [hcmd] at hnofail horder hkept
    have hheld' : ∀ ns' ∈ order, ∀ name svc, s.cluster.service (ns', name) = some svc →
        svc.managed = true → Held svc := fun ns' hin =>
      hheld ns' ⟨namespaces, hcmd, (horder.mem ns').mp hin⟩
    obtain ⟨e, he, hremoved⟩ := removeServices_all horder.1 hnofail
      (removeServices_found horder.1 hheld') ((horder.mem ns).mpr hns) hsvc hown
    exact hkept e he hremoved

theorem nothingOwed_step (hs : s.NothingOwed) (hmanaged : s.MadeManaged)
    (hstep : StepCase api s l u) (hguard : LeavesNothing api s l u) : u.NothingOwed := by
  intro ns latticeId hcleaned howes
  have hsends := fun hexec hrestart hmade hguard hold =>
    owes_of_sends hstep hexec hrestart hmade hguard hold howes
  cases hstep with
  | quiet h _ _ =>
    have hqueue : u.queue = s.queue := congrArg Channel.queue h.channel
    have hmade : u.history.madeFor = s.history.madeFor := by rw [h.record]
    exact hs ns latticeId (h.cleaned hcleaned) ((owes_congr hqueue hmade).mp howes)
  | handle _ _ | settle _ _ | nextApp _ _ | configureService _ =>
    exact hs ns latticeId hcleaned (hsends (by simp) (by simp) rfl hguard hcleaned)
  | @cleanup key config hconfig hok =>
    have hmade := (recordCleanup_frame s.history (s.cluster.removeConfig key) config).2.2
    by_cases hold : (ns, latticeId) ∈ s.history.cleaned
    · exact hs ns latticeId hold (hsends (by simp) (by simp) hmade hguard hold)
    · -- the last config of the lattice goes now
      have hlast : (s.cluster.removeConfig key).uses config.ns config.spec.lattice = false ∧
          (ns, latticeId) = (config.ns, config.spec.lattice) := by
        simp only [History.recordCleanup] at hcleaned
        split at hcleaned
        · exact absurd hcleaned hold
        · next huses =>
          refine ⟨by simpa using huses, ?_⟩
          exact (Finset.mem_insert.mp hcleaned).resolve_right hold
      obtain ⟨huses, hpair⟩ := hlast
      obtain ⟨rfl, rfl⟩ := Prod.mk.inj hpair
      rcases ServiceWatcher.stopWatch_channel s.serviceWatcher config.spec.lattice config.ns with
        ⟨hsame, hnone⟩ | ⟨hsent, -⟩
      · have hnotOwed :=
          (hguard.watched key config rfl hconfig huses).resolve_left (not_not_intro (hnone hok))
        exact hnotOwed ((owes_congr (congrArg Channel.queue hsame) hmade).mp howes)
      · rcases (owes_append (congrArg Channel.queue hsent) hmade).mp howes with hupserts | ⟨-, hclears⟩
        · obtain ⟨params, hcmd, -⟩ := hupserts
          cases hcmd
        · exact hclears ⟨{config.ns}, rfl, Finset.mem_singleton_self _⟩
  | @exec order fails q sw hrecv horder =>
    have hexec : s.Executes (.exec order fails) q order fails := ⟨rfl, sw, hrecv⟩
    exact hs ns latticeId hcleaned (owes_of_exec hmanaged hrecv horder
      (hguard.answered q order fails hexec) (hguard.held q order fails hexec) howes)
  | restart => exact hguard.drained rfl ns latticeId hcleaned howes

theorem cleanedUp_of_nothingOwed (h : s.NothingOwed) : s.CleanedUp := by
  intro ns latticeId hcleaned hempty name svc _ hmade
  refine absurd ?_ (h ns latticeId hcleaned)
  rw [Owes, hempty]
  exact ⟨name, hmade⟩

/-- In every run that meets the guard, restarts included, a cleaned up lattice leaves no
Service of its own in the namespace once the channel is drained. -/
theorem run_cleanedUp (api : ApiServer) {c : Cluster} {ls : List Label}
    (h : Along (step api) (LeavesNothing api) (initial c) ls) :
    Along (step api) (fun _ _ u => u.CleanedUp) (initial c) ls := by
  refine Along.of_guard (I := fun s => s.NothingOwed ∧ s.MadeManaged) ?_ ?_ h
  · intro s l u hs hstep hG
    have hcase := step_cases hstep
    have hnone := nothingOwed_step hs.1 hs.2 hcase hG
    exact ⟨cleanedUp_of_nothingOwed hnone, hnone, madeManaged_step hs.2 hcase hG⟩
  · constructor
    · intro ns latticeId hcleaned
      simp [initial] at hcleaned
    · intro key latticeId hmem
      exact absurd hmem (Finset.notMem_empty _)

def checkLeaves (api : ApiServer) (s : Operator) : Label → Bool
  | .exec order fails => allAnswered api s (.exec order fails) &&
      s.cluster.services.toPairs.all fun e => !e.2.deletionTimestamp
  | .cleanup key => (s.cluster.config key).all fun config =>
      (s.serviceWatcher.watchers.get? config.spec.lattice).isSome
  | .handle _ | .nextApp _ _ => decide (s.history.cleaned = ∅)
  | .restart => decide (s.history.cleaned = ∅) ||
      s.history.madeFor.toPairs.all fun e => decide (e.2 = ∅)
  | _ => true

theorem leavesNothing_of_check (h : checkLeaves api s l = true) : LeavesNothing api s l u where
  answered q order fails hexec := by
    refine hexec.noFailure ?_
    obtain ⟨rfl, -⟩ := hexec
    exact (Bool.and_eq_true_iff.mp h).1
  held q order fails hexec ns _ name svc hsvc _ hdeleted := by
    obtain ⟨rfl, sw, hrecv⟩ := hexec
    simp only [checkLeaves, Bool.and_eq_true, List.all_eq_true] at h
    have hlive := h.2 _ (Dict.mem_toPairs.mpr hsvc)
    simp [hdeleted] at hlive
  watched key config hl hconfig _ := by
    subst hl
    simp only [checkLeaves, hconfig, Option.all_some] at h
    exact .inl (Option.isSome_iff_ne_none.mp h)
  fresh q hsends ns latticeId hcleaned hupserts := by
    cases hsends with
    | event _ _ _ | reconcile _ _ _ _ _ =>
      rw [of_decide_eq_true h] at hcleaned
      cases hcleaned
    | stopWatch _ =>
      obtain ⟨params, hcmd, -⟩ := hupserts
      cases hcmd
  drained hl ns latticeId hcleaned hmade := by
    subst hl
    rcases Bool.or_eq_true_iff.mp h with hempty | hnone
    · rw [of_decide_eq_true hempty] at hcleaned
      cases hcleaned
    · obtain ⟨name, hmem⟩ := hmade
      cases hget : s.history.madeFor.get? (ns, name) with
      | none => simp [makers, hget] at hmem
      | some lattices =>
        obtain rfl : lattices = ∅ :=
          of_decide_eq_true (List.all_eq_true.mp hnone _ (Dict.mem_toPairs.mpr hget))
        simp [makers, hget] at hmem

/-- Restarts before the cleanup, where a reconcile brings the entry back, and after its
removals. -/
theorem run_cleanedUp_published : Along (step .basic) (fun _ _ u => u.CleanedUp)
    (initial oneConfig) (publishApp ("default", "a") ++ [.restart] ++
      idleReconcile ("default", "a") ++ [.cleanup ("default", "a"),
        .exec ["default"] fun _ => false, .restart]) :=
  run_cleanedUp .basic (along_of_check
    (fun s l u (h : checkLeaves .basic s l = true) _ => leavesNothing_of_check h)
    (by decide +kernel))

/-- The process restarts between the publication and the cleanup, which then finds no
entry and sends nothing. -/
theorem restart_leaves_service :
    ¬∀ api c ls, Along (step api) (fun _ _ u => u.CleanedUp) (initial c) ls := by
  intro h
  let labels : List Label := publishApp ("default", "a") ++ [.restart]
  let last : Label := .cleanup ("default", "a")
  have hfact : (lastStep (step .basic) (initial oneConfig) labels last).map (fun p =>
      decide (("default", "lattice-a") ∈ p.2.history.cleaned) && p.2.queue.isEmpty &&
        decide ("lattice-a" ∈ p.2.makers ("default", "app")) &&
        (p.2.cluster.service ("default", "app")).any fun svc =>
          decide (SERVICE_FINALIZER ∈ svc.finalizers)) = some true := by decide +kernel
  obtain ⟨⟨u, v⟩, huv, hall⟩ := Option.map_eq_some_iff.mp hfact
  simp only [Bool.and_eq_true, decide_eq_true_eq, List.isEmpty_iff] at hall
  obtain ⟨⟨⟨hcleaned, hempty⟩, hmade⟩, hany⟩ := hall
  obtain ⟨svc, hsvc, hfinalizer⟩ := (Option.any_eq_true _ _).mp hany
  exact (h .basic oneConfig (labels ++ [last])).last huv "default" "lattice-a" hcleaned hempty
    "app" svc hsvc hmade (of_decide_eq_true hfinalizer)

end Operator
end WadmOperator

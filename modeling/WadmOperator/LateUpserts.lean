import WadmOperator.RegisteredNamespaces

/-!
# Upserts after the last `stop_watch`

The call that takes a lattice's last namespace drops the entry, which cancels the
token, and then sends the removal. It waits for all passes, and a later pass finds no
entry. A message that an event task has taken is not waited for: it is handled after
the removal was sent, and cancellation is seen only afterwards.
-/

namespace WadmOperator

def Payload.callsForUpsert : Payload → Bool
  | event (.manifestPublished manifest) => manifest.httpAddress.isSome
  | _ => false

namespace ServiceWatcher

open Transition

variable {s u : ServiceWatcher} {latticeId : String}

def NoUpsertFor (latticeId : String) (s : ServiceWatcher) (_ : Label) (u : ServiceWatcher) : Prop :=
  ∀ params origin, params.latticeId = latticeId →
    u.channel.queue ≠ s.channel.queue ++ [⟨.upsertService params, origin⟩]

def NoLatePublication (latticeId : String) (s : ServiceWatcher) (l : Label)
    (_ : ServiceWatcher) : Prop :=
  ∀ i t m, l = .handle i → s.tasks[i]? = some t → t.phase = .taken m →
    t.watcher.latticeId = latticeId → m.payload.callsForUpsert = true → s.channel.closed = true

theorem handleManifestPublished_lattice {w : Watcher} {manifest : Manifest} {params : ServiceParams}
    (h : w.handleManifestPublished manifest = some (.upsertService params)) :
    params.latticeId = w.latticeId := by
  obtain ⟨addr, labels, -, heq⟩ := handleManifestPublished_cases h
  rw [WatcherCommand.upsertService.inj heq]

theorem handleEvent_upsert {w : Watcher} {payload : Payload} {params : ServiceParams}
    (h : w.handleEvent payload = some (some (.upsertService params))) :
    payload.callsForUpsert = true ∧ params.latticeId = w.latticeId := by
  rcases handleEvent_cases h with ⟨manifest, rfl, hcmd⟩ | ⟨name, rfl, hcmd⟩
  · refine ⟨?_, handleManifestPublished_lattice hcmd⟩
    obtain ⟨addr, labels, haddr, -⟩ := handleManifestPublished_cases hcmd
    simp [Payload.callsForUpsert, haddr]
  · cases hcmd

theorem handleEvent_of_callsForUpsert {payload : Payload} (w : Watcher)
    (h : payload.callsForUpsert = true) : ∃ params, params.latticeId = w.latticeId ∧
      w.handleEvent payload = some (some (.upsertService params)) := by
  cases payload with
  | malformed => cases h
  | unknown eventType => cases h
  | event evt =>
    cases evt with
    | manifestPublished manifest =>
      obtain ⟨⟨addr, labels⟩, haddr⟩ := Option.isSome_iff_exists.mp h
      refine ⟨⟨manifest.name, w.namespaces, w.latticeId, addr.port, labels⟩, rfl, ?_⟩
      simp [Watcher.handleEvent, Watcher.handleManifestPublished, haddr]
    | manifestUnpublished name => cases h
    | other => cases h

theorem noUpsertFor_iff (h : s.Sound) (hnone : s.watchers.get? latticeId = none) {l : Label}
    (hstep : step s l = some u) : NoUpsertFor latticeId s l u ↔ NoLatePublication latticeId s l u := by
  constructor
  · intro hno i t m hl ht hp hlattice hcalls
    subst hl
    by_contra hopen
    rw [Bool.not_eq_true] at hopen
    obtain ⟨params, hparams, hcmd⟩ := handleEvent_of_callsForUpsert t.watcher hcalls
    cases handle_cases hstep with
    | @handle _ t' m' ht' hp' =>
      obtain rfl := Option.some.inj (ht.symm.trans ht')
      obtain rfl := Phase.taken.inj (hp.symm.trans hp')
      exact hno params _ (hparams.trans hlattice)
        (congrArg Channel.queue (handleMessage_sends hcmd hopen))
  · intro hquiet params origin hparams hq
    obtain ⟨hsends, hopen⟩ := step_sent hstep hq
    cases hsends with
    | @event i t m cmd ht hp hcmd =>
      obtain ⟨hcalls, hlattice⟩ := handleEvent_upsert hcmd
      have hclosed := hquiet i t m rfl ht hp (hlattice.symm.trans hparams) hcalls
      rw [hopen] at hclosed
      cases hclosed
    -- a pass sends for the lattice of an entry
    | @reconcile j manifest k w m cmd hw hcmd =>
      have hk : k = latticeId :=
        (h.entry k w hw).1.symm.trans ((handleManifestPublished_lattice hcmd).symm.trans hparams)
      rw [hk, hnone] at hw
      cases hw

theorem step_noEntry {l : Label} (hstep : step s l = some u)
    (hnone : s.watchers.get? latticeId = none)
    (hl : ∀ client ns created, l ≠ .watch client ns latticeId created) :
    u.watchers.get? latticeId = none := by
  rw [Option.eq_none_iff_forall_ne_some]
  intro w hw
  rcases step_entry hstep hw with hkept | ⟨old, -, hold, -⟩ | ⟨client, ns, created, heq, -⟩
  · rw [hnone] at hkept
    cases hkept
  · rw [hnone] at hold
    cases hold
  · exact hl client ns created heq

theorem stopWatch_last {ns : String} {w : Watcher} (hw : s.watchers.get? latticeId = some w)
    (hlast : w.namespaces = {ns}) : (s.stopWatch latticeId ns).1.watchers.get? latticeId = none := by
  simp [stopWatch, hw, (send_frame _ _).1, leave, hlast]

/-- In every run: after the call that takes the lattice's last namespace, and until `watch`
is called for it again, no upsert for the lattice is sent exactly when no event task of the
lattice still handles a publication. -/
theorem run_noUpsertFor_iff {ls ms : List Label} {ns : String} {w : Watcher}
    (hrun : Run step {} ls s) (hw : s.watchers.get? latticeId = some w)
    (hlast : w.namespaces = {ns}) (hstop : step s (.stopWatch latticeId ns) = some u)
    (hms : ∀ l ∈ ms, ∀ client ns' created, l ≠ .watch client ns' latticeId created) :
    Along step (NoUpsertFor latticeId) u ms ↔ Along step (NoLatePublication latticeId) u ms := by
  have hs : s.Sound := hrun.invariant (fun s l u hs hstep => hs.step hstep) sound_initial
  have hnone : u.watchers.get? latticeId = none := by
    simp only [step] at hstop
    split_ifs at hstop
    obtain rfl := Option.some.inj hstop
    exact stopWatch_last hw hlast
  refine along_congr_labels (I := fun s => s.Sound ∧ s.watchers.get? latticeId = none)
    (A := fun l => ∀ client ns' created, l ≠ .watch client ns' latticeId created) ?_
    ⟨hs.step hstop, hnone⟩ hms
  intro s l u hs hl hstep
  exact ⟨noUpsertFor_iff hs.1 hs.2 hstep, hs.1.step hstep, step_noEntry hstep hs.2 hl⟩

def watchThenTake (evt : Event) : List Label :=
  [.watch .sample "default" "lattice" true, .next 0 (.message ⟨0, .event evt⟩)]

def stopped (evt : Event) : ServiceWatcher :=
  (((exec step {} (watchThenTake evt)).getD {}).stopWatch "lattice" "default").1

theorem run_noUpsertFor_unpublished : Along step (NoUpsertFor "lattice")
    (stopped (.manifestUnpublished "app")) [.handle 0, .observeCancel 0] := by
  have hrun : Run step {} (watchThenTake (.manifestUnpublished "app")) _ := run_of_exec rfl
  refine (run_noUpsertFor_iff hrun rfl rfl rfl (by simp)).mpr ?_
  intro v _
  refine ⟨?_, along_labels (by simp [NoLatePublication]) v⟩
  intro i t m hl ht hp _ hcalls
  cases hl
  obtain rfl := Option.some.inj ht
  obtain rfl := Phase.taken.inj hp
  cases hcalls

/-- The publication was taken before the call, and its upsert follows the removal. -/
theorem late_publication_upserts :
    ¬∀ ls ms s u latticeId ns w, Run step {} ls s → s.watchers.get? latticeId = some w →
      w.namespaces = {ns} → step s (.stopWatch latticeId ns) = some u →
      (∀ l ∈ ms, ∀ client ns' created, l ≠ .watch client ns' latticeId created) →
      Along step (NoUpsertFor latticeId) u ms := by
  intro h
  have hrun : Run step {} (watchThenTake
      (.manifestPublished (Manifest.httpApp "app" "0.0.0.0:8080"))) _ := run_of_exec rfl
  obtain ⟨hno, -⟩ := h _ [.handle 0] _ _ "lattice" "default" _ hrun rfl rfl rfl (by simp) _ rfl
  exact hno _ _ rfl rfl

end ServiceWatcher
end WadmOperator

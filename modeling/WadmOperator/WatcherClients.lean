import WadmOperator.Foundation.Transition
import WadmOperator.ReconcileSuccess

/-!
# The clients of the watchers

A watcher keeps the client it was made with. The map knows a watcher by its lattice
only, so a config whose lattice has an entry gets the client of an earlier config, or of
an earlier address.
-/

namespace WadmOperator
namespace Reconcile

open Transition

variable {lib : Libraries} {answers : Answers} {key : ObjectKey} {s u : Context} {r : Reconciled}

def ConnectedTo (client : NatsClient) (spec : HostConfigSpec) : Prop :=
  client.natsAddress = spec.natsAddress ∧ client.natsClientPort = spec.natsClientPort.toNat

/-- The watcher of the lattice gets its events and its manifests from the server that the
spec names. -/
def WatcherServes (s : Context) (spec : HostConfigSpec) : Prop :=
  ∃ w, s.serviceWatcher.watchers.get? spec.lattice = some w ∧
    ConnectedTo w.consumer.natsClient spec ∧ ConnectedTo w.natsClient spec

def ClientsPaired (s : ServiceWatcher) : Prop :=
  ∀ latticeId w, s.watchers.get? latticeId = some w → w.consumer.natsClient = w.natsClient

theorem clientsPaired_watch {s : ServiceWatcher} (h : ClientsPaired s) (client : NatsClient)
    (ns latticeId : String) : ClientsPaired (s.watch client ns latticeId true).1 := by
  intro k w hw
  rcases ServiceWatcher.watch_entry hw with hkept | ⟨old, hold, rfl⟩ | ⟨-, -, hnew⟩
  · exact h k w hkept
  · exact h k old hold
  · rw [ServiceWatcher.spawn, Dict.get?_put_self] at hnew
    rw [← Option.some.inj hnew]
    rfl

theorem clientsPaired_stopWatch {s : ServiceWatcher} (h : ClientsPaired s)
    (latticeId ns : String) : ClientsPaired (s.stopWatch latticeId ns).1 := by
  intro k w hw
  rcases ServiceWatcher.stopWatch_entry hw with hkept | ⟨old, hold, -, rfl⟩
  · exact h k w hkept
  · exact h k old hold

theorem step_cleanup (h : step lib s (.cleanup key) = some u) : ∃ stored : StoredConfig,
    u.serviceWatcher = (s.serviceWatcher.stopWatch stored.spec.lattice key.1).1 := by
  simp only [step] at h
  split at h
  · next stored hstored =>
    split at h
    · next v hv =>
      obtain rfl := Option.some.inj h
      refine ⟨stored, ?_⟩
      rw [← (Prod.mk.inj hv).1]
      rfl
    · cases h
  · cases h

theorem clientsPaired_step {l : Label} (h : ClientsPaired s.serviceWatcher)
    (hstep : step lib s l = some u) : ClientsPaired u.serviceWatcher := by
  cases l with
  | reconcile key answers =>
    obtain ⟨r, hr⟩ := step_reconcile hstep
    intro k w hw
    rw [Controller.reconcileCrd_watchers (reconcileCrd_ok hr).watcher] at hw
    exact clientsPaired_watch h _ _ _ k w hw
  | cleanup key =>
    obtain ⟨stored, hu⟩ := step_cleanup hstep
    rw [hu]
    exact clientsPaired_stopWatch h _ _
  | edit kind key x =>
    obtain rfl := step_edit hstep
    cases x <;> exact h

theorem watcherServes_iff (h : Reconciles lib answers key s r u)
    (hpaired : ClientsPaired s.serviceWatcher) :
    WatcherServes u r.config.spec ↔ ∀ w,
      s.serviceWatcher.watchers.get? r.config.spec.lattice = some w →
        ConnectedTo w.natsClient r.config.spec := by
  unfold WatcherServes
  rw [Controller.reconcileCrd_watchers h.watcher, ServiceWatcher.watch]
  cases hold : s.serviceWatcher.watchers.get? r.config.spec.lattice with
  | some old =>
    simp only [Dict.get?_put_self, Option.some.injEq, exists_eq_left', forall_eq',
      hpaired _ old hold, and_self]
  | none =>
    simp only [if_pos, ServiceWatcher.spawn, Dict.get?_put_self, Option.some.injEq,
      exists_eq_left', reduceCtorEq, false_implies, implies_true, iff_true]
    rw [h.client]
    exact ⟨⟨rfl, rfl⟩, rfl, rfl⟩

def ServesAfter (lib : Libraries) (s : Context) (l : Label) (u : Context) : Prop :=
  ∀ key answers r, l = .reconcile key answers → reconcileCrd lib answers key s = (.ok r, u) →
    WatcherServes u r.config.spec

/-- A config is reconciled only while the watcher of its lattice, if there is one, is
connected to the server that its spec names. -/
def OwnServerBefore (s : Context) (l : Label) (_ : Context) : Prop :=
  ∀ key answers stored w, l = .reconcile key answers →
    (s.objects .hostConfig).get? key = some stored →
      s.serviceWatcher.watchers.get? stored.spec.lattice = some w →
        ConnectedTo w.natsClient stored.spec

theorem run_watcherServes_iff (s : Context) (ls : List Label) :
    Along (step lib) (ServesAfter lib) { s with serviceWatcher := {} } ls ↔
      Along (step lib) OwnServerBefore { s with serviceWatcher := {} } ls := by
  refine along_congr (I := fun s => ClientsPaired s.serviceWatcher) ?_ ?_
  · intro s l u hpaired hstep
    refine ⟨?_, clientsPaired_step hpaired hstep⟩
    have hiff := step_reconcile_iff (P := fun _ r => WatcherServes u r.config.spec)
      (Q := fun config => ∀ w, s.serviceWatcher.watchers.get? config.spec.lattice = some w →
        ConnectedTo w.natsClient config.spec)
      (fun _ _ _ hdone => watcherServes_iff hdone hpaired) hstep
    refine hiff.trans ⟨?_, ?_⟩
    · intro hown key answers stored w hl hstored hw
      exact hown key answers stored hl hstored w hw
    · intro hown key answers stored hl hstored w hw
      exact hown key answers stored w hl hstored hw
  · intro latticeId w hw
    cases hw

def otherServer : HostConfigSpec :=
  { HostConfigSpec.sample with natsAddress := "nats://other.default.svc" }

def sharedLattice : List Label :=
  [.edit .hostConfig ("default", "host") (some ⟨"uid-host", .sample⟩),
    .edit .hostConfig ("default", "other") (some ⟨"uid-other", otherServer⟩),
    .reconcile ("default", "host") {}, .reconcile ("default", "other") {}]

/-- The second config is reconciled and its lattice stays with the first one's server. -/
theorem shared_lattice_keeps_client :
    ¬∀ lib (s : Context) ls,
      Along (step lib) (ServesAfter lib) { s with serviceWatcher := {} } ls := by
  intro h
  obtain ⟨-, h₁⟩ := h .sample {} sharedLattice _ rfl
  obtain ⟨-, h₂⟩ := h₁ _ rfl
  have hhost : ((edited (edited {} .hostConfig ("default", "host") (some ⟨"uid-host", .sample⟩))
      .hostConfig ("default", "other") (some ⟨"uid-other", otherServer⟩)).objects
        .hostConfig).get? ("default", "host") = some ⟨"uid-host", .sample⟩ := rfl
  have hother : ((edited (edited {} .hostConfig ("default", "host") (some ⟨"uid-host", .sample⟩))
      .hostConfig ("default", "other") (some ⟨"uid-other", otherServer⟩)).objects
        .hostConfig).get? ("default", "other") = some ⟨"uid-other", otherServer⟩ := rfl
  have hempty : ClientsPaired {} := fun _ _ hw => by cases hw
  obtain ⟨s₁, hs₁⟩ := step_succeeds allOk_default hhost (fun _ hname => by cases hname) rfl rfl
  obtain ⟨hserves, h₃⟩ := h₂ s₁ hs₁
  obtain ⟨r₁, hr₁⟩ := step_reconcile hs₁
  have hdone₁ := reconcileCrd_ok hr₁
  have hspec₁ : r₁.config.spec = .sample := by rw [hdone₁.config_eq hhost]; rfl
  obtain ⟨w, hw, -, hfirst⟩ := hserves _ _ r₁ rfl hr₁
  rw [hspec₁] at hw hfirst
  -- the second reconcile finds the entry of the first
  have hother₁ : (s₁.objects .hostConfig).get? ("default", "other") =
      some ⟨"uid-other", otherServer⟩ := by
    rw [hdone₁.inputs .hostConfig (.inl rfl)]
    exact hother
  obtain ⟨s₂, hs₂⟩ := step_succeeds allOk_default hother₁ (fun _ hname => by cases hname) rfl rfl
  obtain ⟨hserves₂, -⟩ := h₃ s₂ hs₂
  obtain ⟨r₂, hr₂⟩ := step_reconcile hs₂
  have hdone₂ := reconcileCrd_ok hr₂
  have hspec₂ : r₂.config.spec = otherServer := by rw [hdone₂.config_eq hother₁]; rfl
  have hpaired : ClientsPaired s₁.serviceWatcher := clientsPaired_step hempty hs₁
  have hsecond := (watcherServes_iff hdone₂ hpaired).mp (hserves₂ _ _ r₂ rfl hr₂) w
  rw [hspec₂] at hsecond
  have haddress := (hsecond hw).1
  rw [hfirst.1] at haddress
  revert haddress
  decide

end Reconcile
end WadmOperator

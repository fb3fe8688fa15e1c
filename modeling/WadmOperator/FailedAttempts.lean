import WadmOperator.Retries

/-!
# Failed attempts leave no trace

A history of attempts and restarts is compared with the same history without the attempts
that failed. While an attempt at a config has failed, the config's objects lie between
those of the other run and those of a complete reconcile there; the next attempt that
succeeds brings the two runs together.
-/

namespace WadmOperator
namespace Reconcile

open Procedure

variable {lib : Libraries} {answers : Answers} {config : HostConfig}
  {configs : Dict ObjectKey StoredConfig} {key : ObjectKey} {s t u : Context}
  {prepared : HostConfig × Secrets × PodTemplateSpec}

/-! ## The two parts of a reconcile -/

theorem prepare_keeps (lib : Libraries) (answers : Answers) (key : ObjectKey) :
    Keeps Context.serviceWatcher (prepare lib answers key) :=
  .bind (getObject_keeps _) fun _ => .bind (readSecrets_keeps _) fun _ =>
    .bind (applyObject_keeps _ _) fun _ => .bind (configureAuth_keeps _) fun _ =>
      .bind (configureHosts_keeps _) fun _ => .bind (applyService_keeps _) fun _ =>
        (ReadOnly.pure _).keeps

theorem prepare_key (h : prepare lib answers key s = (.ok prepared, u)) :
    prepared.1.key = key := by
  obtain ⟨stored, s₀, -, hconfig⟩ := bind_eq_ok h
  obtain ⟨secrets, s₁, -, hobjects⟩ := bind_eq_ok hconfig
  obtain ⟨⟨⟩, s₂, -, hauth⟩ := bind_eq_ok hobjects
  obtain ⟨⟨⟩, s₃, -, hhosts⟩ := bind_eq_ok hauth
  obtain ⟨template, s₄, -, hservice⟩ := bind_eq_ok hhosts
  obtain ⟨⟨⟩, s₅, -, hpure⟩ := bind_eq_ok hservice
  obtain ⟨rfl, -⟩ := pure_eq_ok hpure
  rfl

theorem watch_onError (answers : Answers) (config : HostConfig) (client : NatsClient) :
    KeepsOnError Context.serviceWatcher (watch answers config client) := by
  intro s e he
  rw [watch_eq] at he ⊢
  simp only at he ⊢
  split at he
  · cases he
  · next hfailed => exact ServiceWatcher.watch_failed (Bool.eq_false_iff.mpr hfailed)

theorem conclude_onError (answers : Answers) (prepared : HostConfig × Secrets × PodTemplateSpec) :
    KeepsOnError Context.serviceWatcher (conclude answers prepared) := by
  refine .bind (ReadOnly.ofExcept _).keeps fun apps => .bind (patchStatus_keeps _) fun _ =>
    .bind (getNatsClient_readOnly _).keeps fun client => ?_
  intro s e he
  rw [bind_eq] at he ⊢
  rcases hwatch : watch answers prepared.1 client s with ⟨e' | ⟨⟩, t⟩
  · have hkept := watch_onError answers prepared.1 client s e' (by rw [hwatch])
    rw [hwatch] at hkept
    exact hkept
  · rw [hwatch] at he
    cases he

theorem conclude_status {r : Reconciled} (h : conclude answers prepared s = (.ok r, u)) :
    u.statuses = s.statuses.put prepared.1.key (statusOf r.apps) := by
  obtain ⟨apps, s₁, hlist, hstatus⟩ := bind_eq_ok h
  obtain rfl := listApps_ok hlist
  obtain ⟨⟨⟩, s₂, hpatch, hclient⟩ := bind_eq_ok hstatus
  obtain rfl := ReconcileM.patchStatus_ok hpatch
  obtain ⟨client, s₃, hgot, hwatch⟩ := bind_eq_ok hclient
  obtain ⟨rfl, -⟩ := getNatsClient_ok hgot
  obtain ⟨⟨⟩, s₄, hwatched, hpass⟩ := bind_eq_ok hwatch
  obtain ⟨⟨⟩, s₅, hreconciled, hpure⟩ := bind_eq_ok hpass
  obtain ⟨rfl, rfl⟩ := pure_eq_ok hpure
  obtain rfl := (Prod.mk.inj hreconciled).2
  exact congrArg Context.statuses (Prod.mk.inj hwatched).2.symm

theorem conclude_frame (answers : Answers) (prepared : HostConfig × Secrets × PodTemplateSpec)
    {i : Loc} (hi : i ≠ .status prepared.1.key) : Keeps i.view (conclude answers prepared) := by
  have hviews : ∀ (s : Context) (w : ServiceWatcher),
      i.view { s with serviceWatcher := w } = i.view s := by
    intro s w
    cases i <;> rfl
  refine .bind (ReadOnly.ofExcept _).keeps fun apps => .bind ?_ fun _ =>
    .bind (getNatsClient_readOnly _).keeps fun client => .bind (fun s => hviews s _) fun _ =>
      .bind (fun s => hviews s _) fun _ => (ReadOnly.pure _).keeps
  intro s
  unfold ReconcileM.patchStatus
  split
  · rfl
  · cases i with
    | status key => exact (Dict.get?_put _ _ _ _).trans (if_neg fun heq => hi (by rw [heq]))
    | object _ _ | service _ | natsCreds _ => rfl

def SameMemory (ns : NameNamespace) (s t : Context) : Prop :=
  s.natsCreds.get? ns = t.natsCreds.get? ns ∧ s.serviceWatcher = t.serviceWatcher

theorem conclude_congr (answers : Answers) (prepared : HostConfig × Secrets × PodTemplateSpec) :
    Respects (SameMemory (nameNamespace prepared.1.key)) (conclude answers prepared) := by
  refine .bind (.still _ (ofExcept_apply _)) fun apps => .bind ?status fun _ =>
    .bind ?client fun client => .bind ?watch fun _ => .bind ?pass fun _ => .still _ fun _ => rfl
  case status =>
    intro s t hst
    unfold ReconcileM.patchStatus
    split <;> exact ⟨rfl, hst⟩
  case client =>
    intro s t hst
    refine ⟨?_, ?_⟩
    · simp only [getNatsClient, Nats.getNatsClient, hst.1]
      split <;> rfl
    · rw [getNatsClient_readOnly, getNatsClient_readOnly]
      exact hst
  case watch =>
    intro s t hst
    rw [watch_eq, watch_eq, hst.2]
    exact ⟨rfl, hst.1, rfl⟩
  case pass =>
    intro s t hst
    refine ⟨rfl, hst.1, ?_⟩
    simp only [reconcileServices, hst.2]

/-! ## What a reconcile leaves alone -/

def prepareReads (configs : Dict ObjectKey StoredConfig) (key : ObjectKey) : Set Loc :=
  {.natsCreds (nameNamespace key)} ∪ hostReads configs key

theorem prepareReads_reads (configs : Dict ObjectKey StoredConfig) (key : ObjectKey) :
    prepareReads configs key ⊆ reads configs key := by
  intro i hi
  rcases hi with hi | hi
  · obtain rfl : i = _ := hi
    simp [reads, writes]
  · exact Retries.hostReads_reads configs key hi

theorem mem_reads {i : Loc} :
    i ∈ reads configs key ↔ i ∈ prepareReads configs key ∨ i = .status key := by
  simp only [reads, writes, prepareReads, hostReads, hostLocs, Set.mem_union, Set.mem_insert_iff,
    Set.mem_singleton_iff]
  tauto

theorem status_notMem : Loc.status key ∉ prepareReads configs key := by
  simp [prepareReads, hostReads, hostLocs, authLocs, workloadLocs, secretLocs, authorityLocs]

theorem prepareWrites_writes (key : ObjectKey) :
    {Loc.natsCreds (nameNamespace key)} ∪ hostLocs key ⊆ writes key := by
  intro i hi
  rcases hi with hi | hi
  · obtain rfl : i = _ := hi
    simp [writes]
  · exact Retries.hostLocs_writes key hi

theorem frame_reconcileCrd (hs : SpecsFixed configs s) {i : Loc} (hi : i ∉ writes key) :
    i.view (reconcileCrd lib answers key s).2 = i.view s := by
  have hframe := (interrupted_prepare lib answers configs key).footprint.frame
    s hs i fun hmem => hi (prepareWrites_writes key hmem)
  rw [reconcileCrd_eq, bind_eq]
  rcases hp : prepare lib answers key s with ⟨e | prepared, t⟩ <;> rw [hp] at hframe
  · exact hframe
  · refine (conclude_frame answers prepared (fun heq => hi ?_) t).trans hframe
    rw [heq, prepare_key hp]
    simp [writes]

theorem prepared_reconcileCrd {i : Loc} (hi : i ∈ prepareReads configs key) (s : Context) :
    i.view (reconcileCrd lib answers key s).2 = i.view (prepare lib answers key s).2 := by
  rw [reconcileCrd_eq, bind_eq]
  rcases hp : prepare lib answers key s with ⟨e | prepared, t⟩
  · rfl
  · refine conclude_frame answers prepared (fun heq => ?_) t
    rw [prepare_key hp] at heq
    exact status_notMem (heq ▸ hi)

theorem watcher_onError {e : ReconcileError} (h : (reconcileCrd lib answers key s).1 = .error e) :
    (reconcileCrd lib answers key s).2.serviceWatcher = s.serviceWatcher := by
  have hkeeps : KeepsOnError Context.serviceWatcher (reconcileCrd lib answers key) := by
    rw [reconcileCrd_eq]
    exact .bind (prepare_keeps lib answers key) (conclude_onError answers)
  exact hkeeps s e h

end Reconcile

/-! ## The two runs -/

namespace Retries

open Procedure Reconcile

/-- `t` is where the whole history has come to, `t'` the one without the failed attempts. At
the configs of `pending` the last attempt failed. -/
structure Shadows (lib : Libraries) (ks : List ObjectKey) (configs : Dict ObjectKey StoredConfig)
    (pending : Set ObjectKey) (t t' : Context) : Prop where
  specs : SpecsFixed configs t
  specs' : SpecsFixed configs t'
  watcher : t.serviceWatcher = t'.serviceWatcher
  between : ∀ key ∈ ks, Between Loc.view (prepareReads configs key) t' (prepare lib {} key t').2 t
  same : ∀ key ∈ ks, key ∉ pending → Agree Loc.view (reads configs key) t t'

variable {lib : Libraries} {s t t' : Context} {ks : List ObjectKey} {events : List Event}
  {configs : Dict ObjectKey StoredConfig} {pending : Set ObjectKey} {key : ObjectKey}

namespace Shadows

theorem start (lib : Libraries) (ks : List ObjectKey) (s : Context) :
    Shadows lib ks (s.objects .hostConfig) ∅ s s :=
  ⟨rfl, rfl, rfl, fun _ _ => Between.start _ _ _, fun _ _ _ => Agree.refl _ _⟩

theorem answer (h : Shadows lib ks configs pending t t') (hkey : key ∈ ks) (answers : Answers) :
    (reconcileCrd lib answers key t).1 = (reconcileCrd lib answers key t').1 ∧
      ∀ r, (reconcileCrd lib answers key t).1 = .ok r →
        (reconcileCrd lib answers key t).2.serviceWatcher =
            (reconcileCrd lib answers key t').2.serviceWatcher ∧
          Agree Loc.view (reads configs key) (reconcileCrd lib answers key t).2
            (reconcileCrd lib answers key t').2 := by
  have hint := interrupted_prepare lib answers configs key
  have hbetween := h.between key hkey
  have hwt := prepare_keeps lib answers key t
  have hwt' := prepare_keeps lib answers key t'
  rcases hp : prepare lib answers key t with ⟨e | prepared, u⟩
  · have hstop : (prepare lib answers key t').1 = .error e := by
      rw [← (hint.resume t' t h.specs' h.specs hbetween).1, hp]
    have hstop' : prepare lib answers key t' = (.error e, (prepare lib answers key t').2) :=
      Prod.ext hstop rfl
    rw [reconcileCrd_eq, bind_eq, bind_eq, hp, hstop']
    exact ⟨rfl, fun r hr => by cases hr⟩
  · obtain ⟨hok, hagree⟩ := hint.together h.specs' h.specs hbetween (a := prepared) (by rw [hp])
    have hp' : prepare lib answers key t' = (.ok prepared, (prepare lib answers key t').2) :=
      Prod.ext hok rfl
    have hkey' := prepare_key hp
    have hmemory : SameMemory (nameNamespace prepared.1.key) (prepare lib answers key t).2
        (prepare lib answers key t').2 := by
      rw [hkey']
      exact ⟨hagree (.natsCreds (nameNamespace key)) (.inl rfl),
        hwt.trans (h.watcher.trans hwt'.symm)⟩
    obtain ⟨hanswer, hafter⟩ := conclude_congr answers prepared _ _ hmemory
    have heq : reconcileCrd lib answers key t =
        conclude answers prepared (prepare lib answers key t).2 := by
      rw [reconcileCrd_eq, bind_of_ok hp, hp]
    have heq' : reconcileCrd lib answers key t' =
        conclude answers prepared (prepare lib answers key t').2 := by
      rw [reconcileCrd_eq, bind_of_ok hp']
    refine ⟨by rw [heq, heq', hanswer], fun r hr => ⟨by rw [heq, heq', hafter.2], ?_⟩⟩
    intro i hi
    rcases mem_reads.mp hi with hprepared | rfl
    · rw [prepared_reconcileCrd hprepared, prepared_reconcileCrd hprepared]
      exact hagree i hprepared
    · rw [heq] at hr
      have hs := conclude_status (Prod.ext hr rfl)
      have hs' := conclude_status (Prod.ext (hanswer.symm.trans hr) rfl)
      rw [heq, heq']
      simp only [Loc.view, hs, hs', hkey', Dict.get?_put_self]

theorem others (lib : Libraries) (answers : Answers) (hforeign : ForeignAuthorities s ks)
    (hconfigs : s.objects .hostConfig = configs) (hkey : key ∈ ks) {other : ObjectKey}
    (hother : other ∈ ks) (hne : other ≠ key) (ht : SpecsFixed configs t) :
    Agree Loc.view (reads configs other) (reconcileCrd lib answers key t).2 t := by
  subst hconfigs
  have hsep := separate_locations lib hforeign hkey hother (Ne.symm hne)
  exact fun i hi => frame_reconcileCrd ht fun hmem => Set.disjoint_left.mp hsep hmem hi

theorem failed (h : Shadows lib ks configs pending t t') (hforeign : ForeignAuthorities s ks)
    (hconfigs : s.objects .hostConfig = configs) (hkey : key ∈ ks) {answers : Answers}
    {e : ReconcileError} (he : (reconcileCrd lib answers key t).1 = .error e) :
    Shadows lib ks configs (insert key pending) (reconcileCrd lib answers key t).2 t' where
  specs := specsFixed_reconcileCrd h.specs
  specs' := h.specs'
  watcher := (watcher_onError he).trans h.watcher
  between other hother i hi := by
    by_cases heq : other = key
    · subst heq
      have hint := interrupted_prepare lib answers configs other
      obtain ⟨-, hleft⟩ := hint.resume t' t h.specs' h.specs (h.between other hother)
      rw [prepared_reconcileCrd hi]
      by_cases hW : i ∈ {Loc.natsCreds (nameNamespace other)} ∪ hostLocs other
      · rcases hleft i hW with hold | hnew
        · rw [hold]
          exact h.between other hother i hi
        · exact .inr hnew
      · rw [hint.footprint.frame t h.specs i hW]
        exact h.between other hother i hi
    · rw [others lib answers hforeign hconfigs hkey hother heq h.specs i
        (prepareReads_reads configs other hi)]
      exact h.between other hother i hi
  same other hother hnot := by
    obtain ⟨hne, hnot⟩ := not_or.mp hnot
    exact (others lib answers hforeign hconfigs hkey hother hne h.specs).trans
      (h.same other hother hnot)

theorem succeeded (h : Shadows lib ks configs pending t t') (hforeign : ForeignAuthorities s ks)
    (hconfigs : s.objects .hostConfig = configs) (hkey : key ∈ ks) {answers : Answers}
    {r : Reconciled} (hr : (reconcileCrd lib answers key t).1 = .ok r) :
    Shadows lib ks configs (pending \ {key}) (reconcileCrd lib answers key t).2
      (reconcileCrd lib answers key t').2 := by
  obtain ⟨-, hafter⟩ := h.answer hkey answers
  obtain ⟨hwatcher, hagree⟩ := hafter r hr
  refine ⟨specsFixed_reconcileCrd h.specs, specsFixed_reconcileCrd h.specs', hwatcher, ?_, ?_⟩
  · intro other hother i hi
    by_cases heq : other = key
    · subst heq
      exact .inl (hagree i (prepareReads_reads configs other hi))
    · have hreads := prepareReads_reads configs other
      have hleft := others lib answers hforeign hconfigs hkey hother heq h.specs
      have hleft' := others lib answers hforeign hconfigs hkey hother heq h.specs'
      have hcomplete := (interrupted_prepare lib {} configs other).complete
      -- the complete reconcile of the other config does the same as before
      have hsame := hcomplete.agree_after (Set.Subset.refl _) (specsFixed_reconcileCrd h.specs')
        h.specs' (hleft'.mono hreads) i hi
      rw [hleft i (hreads hi), hleft' i (hreads hi), hsame]
      exact h.between other hother i hi
  · intro other hother hnot
    by_cases heq : other = key
    · subst heq
      exact hagree
    · have hpending : other ∉ pending := fun hin => hnot ⟨hin, heq⟩
      exact ((others lib answers hforeign hconfigs hkey hother heq h.specs).trans
        (h.same other hother hpending)).trans
          (others lib answers hforeign hconfigs hkey hother heq h.specs').symm

theorem restarted (h : Shadows lib ks configs pending t t') :
    Shadows lib ks configs pending (restarted t) (Retries.restarted t') where
  specs := h.specs
  specs' := h.specs'
  watcher := rfl
  between key hkey i hi := by
    have hrestart : ∀ u (j : applied), viewIn Loc.view applied j (Retries.restarted u) =
        viewIn Loc.view applied j u := fun u j =>
      view_of_cluster (s := u) (t := Retries.restarted u) rfl rfl j
    rcases hi with hcreds | hi
    · obtain rfl : i = _ := hcreds
      exact .inl rfl
    · let j : applied := ⟨i, hostReads_applied configs key hi⟩
      have hcomplete := (interrupted_prepare_applied lib {} configs
        key).complete
      -- memory has no part in what is applied
      have hsame := hcomplete.agree_after (Set.Subset.refl _)
        (show SpecsFixed configs (Retries.restarted t') from h.specs') h.specs'
        (fun j _ => hrestart t' j) j hi
      have hbetween := h.between key hkey i (.inr hi)
      have ht := hrestart t j
      have ht' := hrestart t' j
      simp only [viewIn, j] at hsame ht ht'
      rw [ht, ht', hsame]
      exact hbetween
  same key hkey hnot i hi := by
    have hold := h.same key hkey hnot i hi
    cases i with
    | natsCreds ns => rfl
    | object _ _ | service _ | status _ => exact hold

end Shadows

def successes (lib : Libraries) : Context → List Event → List Event
  | _, [] => []
  | s, .attempt key answers :: events =>
    let rest := successes lib (happen lib s (.attempt key answers)) events
    match (reconcileCrd lib answers key s).1 with
    | .ok _ => .attempt key answers :: rest
    | .error _ => rest
  | s, .restart :: events => .restart :: successes lib (happen lib s .restart) events

def reconciled (lib : Libraries) : Context → List Event → List Reconciled
  | _, [] => []
  | s, .attempt key answers :: events =>
    (reconcileCrd lib answers key s).1.toOption.toList ++
      reconciled lib (happen lib s (.attempt key answers)) events
  | s, .restart :: events => reconciled lib (happen lib s .restart) events

def unfinished (lib : Libraries) : Set ObjectKey → Context → List Event → Set ObjectKey
  | pending, _, [] => pending
  | pending, s, .attempt key answers :: events =>
    let pending := match (reconcileCrd lib answers key s).1 with
      | .ok _ => pending \ {key}
      | .error _ => insert key pending
    unfinished lib pending (happen lib s (.attempt key answers)) events
  | pending, s, .restart :: events => unfinished lib pending (happen lib s .restart) events

theorem shadows_replay (hforeign : ForeignAuthorities s ks) (hamong : Among ks events)
    (h : Shadows lib ks (s.objects .hostConfig) pending t t') :
    reconciled lib t events = reconciled lib t' (successes lib t events) ∧
      Shadows lib ks (s.objects .hostConfig) (unfinished lib pending t events)
        (replay lib t events) (replay lib t' (successes lib t events)) := by
  induction events generalizing t t' pending with
  | nil => exact ⟨rfl, h⟩
  | cons e events ih =>
    have hrest : Among ks events := fun key answers hin =>
      hamong key answers (List.mem_cons_of_mem _ hin)
    cases e with
    | restart => exact ih hrest h.restarted
    | attempt key answers =>
      have hkey := hamong key answers List.mem_cons_self
      cases hr : (reconcileCrd lib answers key t).1 with
      | ok r =>
        obtain ⟨hanswer, hshadows⟩ := ih hrest (h.succeeded hforeign rfl hkey hr)
        have hr' : (reconcileCrd lib answers key t').1 = .ok r :=
          (h.answer hkey answers).1.symm.trans hr
        simp only [successes, unfinished, reconciled, replay, hr, hr']
        exact ⟨congrArg (r :: ·) hanswer, hshadows⟩
      | error e =>
        obtain ⟨hanswer, hshadows⟩ := ih hrest (h.failed hforeign rfl hkey hr)
        simp only [successes, unfinished, reconciled, replay, hr]
        exact ⟨hanswer, hshadows⟩

/-- Without its failed attempts a history of attempts and restarts gets the same answers
and comes to the same watchers, tasks and commands, and for every config whose last attempt
did not fail to the same objects, status and credentials. -/
theorem replay_successes (hforeign : ForeignAuthorities s ks) (hamong : Among ks events) :
    reconciled lib s events = reconciled lib s (successes lib s events) ∧
      (replay lib s events).serviceWatcher =
        (replay lib s (successes lib s events)).serviceWatcher ∧
      ∀ key ∈ ks, key ∉ unfinished lib ∅ s events →
        Agree Loc.view (reads (s.objects .hostConfig) key) (replay lib s events)
          (replay lib s (successes lib s events)) := by
  obtain ⟨hanswer, hshadows⟩ := shadows_replay hforeign hamong (Shadows.start lib ks s)
  exact ⟨hanswer, hshadows.watcher, hshadows.same⟩

def refusedThenDone : List Event := refusedOnce ++ [.attempt ("default", "host") {}]

theorem refusedThenDone_among : Among sharingKeys refusedThenDone := by
  intro key answers hin
  rcases List.mem_append.mp hin with hin | hin
  · exact refusedOnce_among key answers hin
  · obtain ⟨rfl, -⟩ := Event.attempt.inj (List.mem_singleton.mp hin)
    decide

theorem replay_successes_refused :
    Agree Loc.view (reads (sharingConfigs.objects .hostConfig) ("default", "host"))
        (replay .sample sharingConfigs refusedThenDone)
        (replay .sample sharingConfigs
          [.restart, .attempt ("default", "other") {}, .attempt ("default", "host") {}]) ∧
      (replay .sample sharingConfigs refusedThenDone).serviceWatcher.registered "lattice" =
        {"default"} := by
  have hdone : ("default", "host") ∉ unfinished .sample ∅ sharingConfigs refusedThenDone :=
    fun h => h.2 rfl
  obtain ⟨-, hwatcher, hagree⟩ := @replay_successes .sample _ _ _ sharingConfigs_foreign
    refusedThenDone_among
  refine ⟨hagree ("default", "host") (by decide) hdone, ?_⟩
  rw [hwatcher]
  rfl

end Retries
end WadmOperator

import Mathlib.Data.Finset.Basic
import Mathlib.Data.List.Pairwise
import WadmOperator.Foundation.Transition

/-!
# Objects held by finalizers

A server keeps an object in deletion until its last finalizer is gone. A controller puts
its finalizer on an object before it acts for it, decides from a copy that lags behind, and
cleans up before it takes the finalizer off. What it has for objects in a memory that a
restart loses, it has for objects that are still held by its finalizer.
-/

namespace Finalizers

open Transition

variable {κ σ ρ υ α β : Type*}

structure Object (σ : Type*) where
  content : σ
  deleting : Bool
  finalizers : Finset String
  kept : deleting = true → finalizers.Nonempty

/-- An object in deletion goes with its last finalizer. -/
def keep (content : σ) (deleting : Bool) (finalizers : Finset String) : Option (Object σ) :=
  if h : deleting = true → finalizers.Nonempty then some ⟨content, deleting, finalizers, h⟩
  else none

inductive Request (σ : Type*) where
  | create (content : σ) (finalizers : Finset String)
  | delete
  | edit (content : σ)
  | setFinalizers (finalizers : Finset String)

/-- What a request leaves. No finalizer is added to an object in deletion. -/
def serve : Request σ → Option (Object σ) → Option (Object σ)
  | .create content finalizers, none => keep content false finalizers
  | .create _ _, some o => some o
  | _, none => none
  | .delete, some o => keep o.content true o.finalizers
  | .edit content, some o => some { o with content := content }
  | .setFinalizers finalizers, some o =>
    if o.deleting = true ∧ ¬finalizers ⊆ o.finalizers then some o
    else keep o.content o.deleting finalizers

def held (name : String) (x : Option (Object σ)) : Option (Object σ) :=
  x.filter fun o => name ∈ o.finalizers

inductive Event where
  | hold | apply | cleanup | wait

structure Helper (σ : Type*) (name : String) where
  event : Object σ → Event
  hold_free (o) : event o = .hold → name ∉ o.finalizers
  apply_held (o) : event o = .apply → name ∈ o.finalizers ∧ o.deleting = false
  cleanup_held (o) : event o = .cleanup → name ∈ o.finalizers ∧ o.deleting = true
  cleans (o) : name ∈ o.finalizers → o.deleting = true → event o = .cleanup

def Helper.basic (σ : Type*) (name : String) : Helper σ name where
  event o :=
    if name ∈ o.finalizers then if o.deleting then .cleanup else .apply
    else if o.deleting then .wait else .hold
  hold_free o h := by
    intro hin
    rw [if_pos hin] at h
    split at h <;> cases h
  apply_held o h := by
    split at h
    · next hin =>
      split at h
      · cases h
      · next hnot => exact ⟨hin, Bool.eq_false_iff.mpr hnot⟩
    · split at h <;> cases h
  cleanup_held o h := by
    split at h
    · next hin =>
      split at h
      · next hdeleting => exact ⟨hin, hdeleting⟩
      · cases h
    · split at h <;> cases h
  cleans o hin hdeleting := by rw [if_pos hin, if_pos hdeleting]

inductive Stage (σ : Type*) where
  | idle | holding | applying
  | read (content : σ)
  | cleaning (content : σ)
  | releasing

structure Controller (κ σ ρ α β : Type*) where
  name : String
  helper : Helper σ name
  apply : κ → σ → α → ρ → ρ
  cleanup : κ → σ → ρ → ρ × Bool
  work : β → ρ → Option ρ
  restart : ρ → ρ

structure State (κ σ ρ : Type*) where
  store : κ → Option (Object σ)
  cache : κ → Option (Object σ) := fun _ => none
  /-- What an object was since its copy was made, but for what it is now. -/
  unseen : κ → List (Option (Object σ)) := fun _ => []
  stage : κ → Stage σ := fun _ => .idle
  memory : ρ

inductive Label (κ σ α β : Type*) where
  | request (key : κ) (r : Request σ)
  | sync (key : κ) (skipped : ℕ)
  | start (key : κ)
  | hold (key : κ)
  | get (key : κ)
  | apply (key : κ) (a : α)
  | cleanup (key : κ)
  | release (key : κ)
  | leave (key : κ)
  | work (b : β)
  | restart

section Steps

variable [DecidableEq κ]

def State.put (s : State κ σ ρ) (key : κ) (x : Option (Object σ)) : State κ σ ρ :=
  { s with
    store := Function.update s.store key x
    unseen := Function.update s.unseen key (s.unseen key ++ [s.store key]) }

/-- Copies come in the order of the states; some may be left out. -/
def State.sync (s : State κ σ ρ) (key : κ) (skipped : ℕ) : State κ σ ρ :=
  let later := (s.unseen key).drop skipped
  { s with
    cache := Function.update s.cache key (later.headD (s.store key))
    unseen := Function.update s.unseen key later.tail }

def State.copies (s : State κ σ ρ) (key : κ) : List (Option (Object σ)) :=
  s.cache key :: s.unseen key

def State.enter (s : State κ σ ρ) (key : κ) (stage : Stage σ) : State κ σ ρ :=
  { s with stage := Function.update s.stage key stage }

@[simp] theorem State.put_store (s : State κ σ ρ) (key : κ) (x : Option (Object σ)) :
    (s.put key x).store key = x := Function.update_self _ _ _

theorem State.put_store_other (s : State κ σ ρ) {key k : κ} (hk : k ≠ key)
    (x : Option (Object σ)) : (s.put key x).store k = s.store k := Function.update_of_ne hk _ _

@[simp] theorem State.put_copies (s : State κ σ ρ) (key : κ) (x : Option (Object σ)) :
    (s.put key x).copies key = s.copies key ++ [s.store key] := by
  simp [State.copies, State.put]

theorem State.put_copies_other (s : State κ σ ρ) {key k : κ} (hk : k ≠ key)
    (x : Option (Object σ)) : (s.put key x).copies k = s.copies k := by
  simp [State.copies, State.put, Function.update_of_ne hk]

theorem State.sync_copies (s : State κ σ ρ) (key : κ) (skipped : ℕ) :
    (s.sync key skipped).copies key = ((s.unseen key).drop skipped).headD (s.store key) ::
      ((s.unseen key).drop skipped).tail := by
  simp [State.copies, State.sync]

theorem State.mem_sync_copies (s : State κ σ ρ) {key : κ} {skipped : ℕ}
    {a : Option (Object σ)} (ha : a ∈ (s.sync key skipped).copies key) :
    a ∈ s.copies key ∨ a = s.store key := by
  rw [sync_copies] at ha
  have hsub : ∀ b ∈ (s.unseen key).drop skipped, b ∈ s.copies key := fun b hb =>
    List.mem_cons_of_mem _ (List.mem_of_mem_drop hb)
  cases hlater : (s.unseen key).drop skipped with
  | nil =>
    rw [hlater] at ha
    exact .inr (List.mem_singleton.mp ha)
  | cons b later =>
    rw [hlater] at ha hsub
    exact .inl (hsub a ha)

theorem State.sync_copies_other (s : State κ σ ρ) {key k : κ} (hk : k ≠ key) (skipped : ℕ) :
    (s.sync key skipped).copies k = s.copies k := by
  simp [State.copies, State.sync, Function.update_of_ne hk]

@[simp] theorem State.enter_stage (s : State κ σ ρ) (key : κ) (stage : Stage σ) :
    (s.enter key stage).stage key = stage := Function.update_self _ _ _

@[simp] theorem State.enter_store (s : State κ σ ρ) (key : κ) (stage : Stage σ) :
    (s.enter key stage).store = s.store := rfl

@[simp] theorem State.enter_copies (s : State κ σ ρ) (key : κ) (stage : Stage σ) :
    (s.enter key stage).copies = s.copies := rfl

theorem State.enter_stage_other (s : State κ σ ρ) {key k : κ} (hk : k ≠ key) (stage : Stage σ) :
    (s.enter key stage).stage k = s.stage k := Function.update_of_ne hk _ _

def Event.stage (o : Object σ) : Event → Stage σ
  | hold => .holding
  | apply => .applying
  | cleanup => .cleaning o.content
  | wait => .idle

/-- An object is worked on by one call at a time; any call may be left with an error. -/
def step (c : Controller κ σ ρ α β) (s : State κ σ ρ) : Label κ σ α β → Option (State κ σ ρ)
  | .request key r => some (s.put key (serve r (s.store key)))
  | .sync key skipped => some (s.sync key skipped)
  | .start key =>
    match s.stage key, s.cache key with
    | .idle, some o => some (s.enter key ((c.helper.event o).stage o))
    | _, _ => none
  | .hold key =>
    match s.stage key, s.store key with
    | .holding, some o =>
      some ((s.put key
        (serve (.setFinalizers (insert c.name o.finalizers)) (some o))).enter key .idle)
    | _, _ => none
  | .get key =>
    match s.stage key, s.store key with
    | .applying, some o => some (s.enter key (.read o.content))
    | _, _ => none
  | .apply key a =>
    match s.stage key with
    | .read content => some { s.enter key .idle with memory := c.apply key content a s.memory }
    | _ => none
  | .cleanup key =>
    match s.stage key with
    | .cleaning content =>
      let (memory, ok) := c.cleanup key content s.memory
      some { s.enter key (if ok then .releasing else .idle) with memory := memory }
    | _ => none
  | .release key =>
    match s.stage key, s.store key with
    | .releasing, some o =>
      if c.name ∈ o.finalizers then
        some ((s.put key
          (serve (.setFinalizers (o.finalizers.erase c.name)) (some o))).enter key .idle)
      else none
    | _, _ => none
  | .leave key => some (s.enter key .idle)
  | .work b => (c.work b s.memory).map fun memory => { s with memory := memory }
  | .restart =>
    some { s with
      cache := fun _ => none
      unseen := fun _ => []
      stage := fun _ => .idle
      memory := c.restart s.memory }

inductive StepCase (c : Controller κ σ ρ α β) (s : State κ σ ρ) :
    Label κ σ α β → State κ σ ρ → Prop
  | request (key r) : StepCase c s (.request key r) (s.put key (serve r (s.store key)))
  | sync (key skipped) : StepCase c s (.sync key skipped) (s.sync key skipped)
  | start {key o} (hstage : s.stage key = .idle) (hcache : s.cache key = some o) :
      StepCase c s (.start key) (s.enter key ((c.helper.event o).stage o))
  | hold {key o} (hstage : s.stage key = .holding) (hstore : s.store key = some o) :
      StepCase c s (.hold key) ((s.put key
        (serve (.setFinalizers (insert c.name o.finalizers)) (some o))).enter key .idle)
  | get {key o} (hstage : s.stage key = .applying) (hstore : s.store key = some o) :
      StepCase c s (.get key) (s.enter key (.read o.content))
  | apply {key content} (a) (hstage : s.stage key = .read content) :
      StepCase c s (.apply key a)
        { s.enter key .idle with memory := c.apply key content a s.memory }
  | cleanup {key content} (hstage : s.stage key = .cleaning content) :
      StepCase c s (.cleanup key)
        { s.enter key (if (c.cleanup key content s.memory).2 then .releasing else .idle) with
          memory := (c.cleanup key content s.memory).1 }
  | release {key o} (hstage : s.stage key = .releasing) (hstore : s.store key = some o)
      (hin : c.name ∈ o.finalizers) :
      StepCase c s (.release key) ((s.put key
        (serve (.setFinalizers (o.finalizers.erase c.name)) (some o))).enter key .idle)
  | leave (key) : StepCase c s (.leave key) (s.enter key .idle)
  | work {b m} (hwork : c.work b s.memory = some m) : StepCase c s (.work b) { s with memory := m }
  | restart : StepCase c s .restart { s with
      cache := fun _ => none
      unseen := fun _ => []
      stage := fun _ => .idle
      memory := c.restart s.memory }

theorem step_cases {c : Controller κ σ ρ α β} {s u : State κ σ ρ} {l : Label κ σ α β}
    (h : step c s l = some u) : StepCase c s l u := by
  cases l with
  | request | sync | leave | restart =>
    obtain rfl := Option.some.inj h
    constructor
  | start | hold | get | apply | cleanup =>
    simp only [step] at h
    split at h
    · obtain rfl := Option.some.inj h
      constructor <;> assumption
    · cases h
  | release =>
    simp only [step] at h
    split at h
    · split_ifs at h
      obtain rfl := Option.some.inj h
      constructor <;> assumption
    · cases h
  | work =>
    obtain ⟨m, hm, rfl⟩ := Option.map_eq_some_iff.mp h
    exact .work hm

end Steps

/-! ## What a request does to a held object -/

variable {name : String} {same : σ → σ → Prop} {o o' : Object σ} {x y : Option (Object σ)}

theorem mem_held : o ∈ held name x ↔ o ∈ x ∧ name ∈ o.finalizers := by
  rw [held, Option.mem_def, Option.filter_eq_some_iff, decide_eq_true_eq, Option.mem_def]

theorem held_of_free (h : name ∉ o.finalizers) : held name (some o) = none := by
  rw [held, Option.filter_some, if_neg (by simpa using h)]

theorem mem_keep {content : σ} {deleting : Bool} {finalizers : Finset String} :
    o ∈ keep content deleting finalizers ↔
      o.content = content ∧ o.deleting = deleting ∧ o.finalizers = finalizers := by
  obtain ⟨c, d, fs, hkept⟩ := o
  unfold keep
  split_ifs with hfinal
  · simp [eq_comm]
  · refine iff_of_false (by simp) fun hall => hfinal ?_
    obtain ⟨-, rfl, rfl⟩ := hall
    exact hkept

theorem keep_self (o : Object σ) : keep o.content o.deleting o.finalizers = some o := dif_pos o.kept

def StaysHeld (same : σ → σ → Prop) (x y : Option (Object σ)) : Prop :=
  (∀ o ∈ x, ∃ o' ∈ y, same o.content o'.content ∧ (o.deleting = true → o'.deleting = true)) ∧
    (x = none → y = none)

/-- Others leave the finalizer alone, and the kind of an object that it holds. -/
def Request.Leaves (name : String) (same : σ → σ → Prop) (x : Option (Object σ)) :
    Request σ → Prop
  | .create _ finalizers => name ∉ finalizers
  | .delete => True
  | .edit content => ∀ o ∈ held name x, same o.content content
  | .setFinalizers finalizers => ∀ o ∈ x, name ∈ finalizers ↔ name ∈ o.finalizers

theorem staysHeld_of (hsame : ∀ o ∈ held name x, ∃ o' ∈ held name y, same o.content o'.content ∧
      (o.deleting = true → o'.deleting = true))
    (hnone : ∀ o' ∈ held name y, ∃ o, o ∈ held name x) :
    StaysHeld same (held name x) (held name y) := by
  refine ⟨hsame, fun hx => Option.eq_none_iff_forall_not_mem.mpr fun o' ho' => ?_⟩
  obtain ⟨o, ho⟩ := hnone o' ho'
  rw [hx] at ho
  cases ho

theorem serve_staysHeld (hrefl : ∀ c, same c c) {r : Request σ} (hr : r.Leaves name same x) :
    StaysHeld same (held name x) (held name (serve r x)) := by
  have hunchanged : StaysHeld same (held name x) (held name x) :=
    staysHeld_of (fun o ho => ⟨o, ho, hrefl _, id⟩) fun o ho => ⟨o, ho⟩
  cases r with
  | create content finalizers =>
    cases x with
    | some o => exact hunchanged
    | none =>
      refine staysHeld_of (fun o ho => by cases ho) fun o' ho' => ?_
      obtain ⟨hkeep, hin⟩ := mem_held.mp ho'
      obtain ⟨-, -, hfinalizers⟩ := mem_keep.mp hkeep
      rw [hfinalizers] at hin
      exact absurd hin hr
  | delete =>
    cases x with
    | none => exact hunchanged
    | some o =>
      refine staysHeld_of (fun o₁ ho₁ => ?_) fun o' ho' => ?_
      · obtain ⟨hmem, hin⟩ := mem_held.mp ho₁
        obtain rfl := Option.some.inj hmem
        let o' : Object σ := ⟨o.content, true, o.finalizers, fun _ => ⟨name, hin⟩⟩
        exact ⟨o', mem_held.mpr ⟨mem_keep.mpr ⟨rfl, rfl, rfl⟩, hin⟩, hrefl _, fun _ => rfl⟩
      · obtain ⟨hkeep, hin⟩ := mem_held.mp ho'
        obtain ⟨-, -, hfinalizers⟩ := mem_keep.mp hkeep
        rw [hfinalizers] at hin
        exact ⟨o, mem_held.mpr ⟨rfl, hin⟩⟩
  | edit content =>
    cases x with
    | none => exact hunchanged
    | some o =>
      refine staysHeld_of (fun o₁ ho₁ => ?_) fun o' ho' => ?_
      · obtain ⟨hmem, hin⟩ := mem_held.mp ho₁
        obtain rfl := Option.some.inj hmem
        exact ⟨_, mem_held.mpr ⟨rfl, hin⟩, hr o ho₁, id⟩
      · obtain ⟨hmem, hin⟩ := mem_held.mp ho'
        obtain rfl := Option.some.inj hmem
        exact ⟨o, mem_held.mpr ⟨rfl, hin⟩⟩
  | setFinalizers finalizers =>
    cases x with
    | none => exact hunchanged
    | some o =>
      have hiff := hr o rfl
      simp only [serve]
      split_ifs with hrefused
      · exact hunchanged
      · refine staysHeld_of (fun o₁ ho₁ => ?_) fun o' ho' => ?_
        · obtain ⟨hmem, hin⟩ := mem_held.mp ho₁
          obtain rfl := Option.some.inj hmem
          let o' : Object σ := ⟨o.content, o.deleting, finalizers, fun _ => ⟨name, hiff.mpr hin⟩⟩
          exact ⟨o', mem_held.mpr ⟨mem_keep.mpr ⟨rfl, rfl, rfl⟩, hiff.mpr hin⟩, hrefl _, id⟩
        · obtain ⟨hkeep, hin⟩ := mem_held.mp ho'
          obtain ⟨-, -, hfinalizers⟩ := mem_keep.mp hkeep
          rw [hfinalizers] at hin
          exact ⟨o, mem_held.mpr ⟨rfl, hiff.mp hin⟩⟩

/-! ## What the controller may rely on -/

variable {held₀ held₁ : Option (Object σ)} {copies rest : List (Option (Object σ))}
  {stage : Stage σ} {c : Object σ}

/-- The copy tells the kind of a held object; one in deletion stays so, and one that is not
is held. -/
structure Fresh (same : σ → σ → Prop) (held₀ : Option (Object σ)) (c : Object σ) : Prop where
  same : ∀ o ∈ held₀, same o.content c.content
  doomed : c.deleting = true → ∀ o ∈ held₀, o.deleting = true
  alive : c.deleting = false → held₀.isSome = true

/-- Of the states of an object, its copies and then the one that it is in, each held one
tells of the later ones, and the finalizer comes or goes once at most. -/
structure Timeline (name : String) (same : σ → σ → Prop) (copies : List (Option (Object σ)))
    (x : Option (Object σ)) : Prop where
  fresh : (copies ++ [x]).Pairwise fun a b => ∀ c ∈ held name a, Fresh same (held name b) c
  turns : copies.Pairwise fun a b => (held name b).isSome = (held name a).isSome ∨
    (held name b).isSome = (held name x).isSome

/-- No object is held but one in deletion, also for the copies. -/
structure Doomed (name : String) (copies : List (Option (Object σ))) (x : Option (Object σ)) :
    Prop where
  store : ∀ o ∈ held name x, o.deleting = true
  seen : ∀ a ∈ copies, ∀ c ∈ held name a, c.deleting = true
  kept : (held name x).isSome = true → ∀ a ∈ copies, (held name a).isSome = true

def Stage.Sound (name : String) (same : σ → σ → Prop) (copies : List (Option (Object σ)))
    (x : Option (Object σ)) : Stage σ → Prop
  | idle => True
  | holding => ∀ a ∈ copies, (held name a).isSome = true → (held name x).isSome = true
  | applying => (held name x).isSome = true
  | read content => ∃ o ∈ held name x, same o.content content
  | cleaning content => Doomed name copies x ∧ ∀ o ∈ held name x, same o.content content
  | releasing => Doomed name copies x

structure SoundAt (name : String) (same : σ → σ → Prop) (copies : List (Option (Object σ)))
    (x : Option (Object σ)) (stage : Stage σ) : Prop where
  timeline : Timeline name same copies x
  stage : stage.Sound name same copies x

theorem StaysHeld.isSome (h : StaysHeld same held₀ held₁) : held₁.isSome = held₀.isSome := by
  cases hx : held₀ with
  | none => rw [h.2 hx]
  | some o =>
    obtain ⟨o', ho', -⟩ := h.1 o hx
    exact Option.isSome_of_mem ho'

theorem StaysHeld.back (h : StaysHeld same held₀ held₁) (ho' : o' ∈ held₁) :
    ∃ o ∈ held₀, same o.content o'.content ∧ (o.deleting = true → o'.deleting = true) := by
  cases hx : held₀ with
  | none =>
    rw [h.2 hx] at ho'
    cases ho'
  | some o =>
    obtain ⟨o₁, ho₁, hrest⟩ := h.1 o hx
    obtain rfl := Option.mem_unique ho₁ ho'
    exact ⟨o, rfl, hrest⟩

theorem Fresh.mono (heq : Equivalence same) (h : Fresh same held₀ c)
    (hstays : StaysHeld same held₀ held₁) : Fresh same held₁ c where
  same o' ho' := by
    obtain ⟨o, ho, hsame, -⟩ := hstays.back ho'
    exact heq.trans (heq.symm hsame) (h.same o ho)
  doomed hc o' ho' := by
    obtain ⟨o, ho, -, hdeleting⟩ := hstays.back ho'
    exact hdeleting (h.doomed hc o ho)
  alive hc := hstays.isSome.trans (h.alive hc)

theorem fresh_self (hrefl : ∀ c, same c c) (hc : c ∈ held₀) : Fresh same held₀ c where
  same o ho := by
    obtain rfl := Option.mem_unique ho hc
    exact hrefl _
  doomed hdeleting o ho := by
    obtain rfl := Option.mem_unique ho hc
    exact hdeleting
  alive _ := Option.isSome_of_mem hc

theorem mem_states {a : Option (Object σ)} (ha : a ∈ copies ++ [x]) : a ∈ copies ∨ a = x :=
  (List.mem_append.mp ha).imp_right List.mem_singleton.mp

namespace Timeline

theorem start (name : String) (same : σ → σ → Prop) (x : Option (Object σ)) :
    Timeline name same [none] x where
  fresh := by
    refine List.pairwise_cons.mpr ⟨fun b _ c hc => ?_, List.pairwise_singleton _ _⟩
    cases hc
  turns := List.pairwise_singleton _ _

theorem now (h : Timeline name same copies x) {a : Option (Object σ)} (ha : a ∈ copies)
    (hc : c ∈ held name a) : Fresh same (held name x) c :=
  (List.pairwise_append.mp h.fresh).2.2 a ha x (List.mem_singleton_self x) c hc

theorem extend (h : Timeline name same copies x)
    (hfresh : ∀ a ∈ copies ++ [x], ∀ c ∈ held name a, Fresh same (held name y) c)
    (hturns : (held name y).isSome = (held name x).isSome ∨
      ∀ a ∈ copies, (held name a).isSome = (held name x).isSome) :
    Timeline name same (copies ++ [x]) y where
  fresh := by
    refine List.pairwise_append.mpr ⟨h.fresh, List.pairwise_singleton _ _, fun a ha b hb => ?_⟩
    obtain rfl := List.mem_singleton.mp hb
    exact hfresh a ha
  turns := by
    refine List.pairwise_append.mpr ⟨?_, List.pairwise_singleton _ _, fun a ha b hb => ?_⟩
    · rcases hturns with hsame | hall
      · rw [hsame]
        exact h.turns
      · exact h.turns.imp_of_mem fun ha hb _ => .inl ((hall _ hb).trans (hall _ ha).symm)
    · obtain rfl := List.mem_singleton.mp hb
      exact hturns.symm.imp (fun hall => (hall a ha).symm) Eq.symm

theorem stays (heq : Equivalence same) (h : Timeline name same copies x)
    (hstays : StaysHeld same (held name x) (held name y)) :
    Timeline name same (copies ++ [x]) y := by
  refine h.extend (fun a ha c hc => ?_) (.inl hstays.isSome)
  rcases mem_states ha with ha | rfl
  · exact (h.now ha hc).mono heq hstays
  · exact (fresh_self heq.refl hc).mono heq hstays

theorem sync (hrefl : ∀ c, same c c) (h : Timeline name same (y :: rest) x) (skipped : ℕ) :
    Timeline name same ((rest.drop skipped).headD x :: (rest.drop skipped).tail) x := by
  cases hlater : rest.drop skipped with
  | nil =>
    refine ⟨List.pairwise_pair.mpr fun c hc => fresh_self hrefl hc, List.pairwise_singleton _ _⟩
  | cons z zs =>
    have hsub : (z :: zs).Sublist (y :: rest) := by
      rw [← hlater]
      exact (List.drop_sublist skipped rest).trans (List.sublist_cons_self y rest)
    exact ⟨h.fresh.sublist (hsub.append_right [x]), h.turns.sublist hsub⟩

end Timeline

theorem Timeline.doomed (h : Timeline name same (some o :: rest) x) (hin : name ∈ o.finalizers)
    (hdeleting : o.deleting = true) : Doomed name (some o :: rest) x := by
  have ho : o ∈ held name (some o) := mem_held.mpr ⟨rfl, hin⟩
  refine ⟨(h.now List.mem_cons_self ho).doomed hdeleting, fun a ha c hc => ?_, fun hx a ha => ?_⟩
  · rcases List.mem_cons.mp ha with rfl | ha
    · obtain rfl := Option.mem_unique ho hc
      exact hdeleting
    · have hfresh := (List.pairwise_cons.mp h.fresh).1 a (List.mem_append_left _ ha) o ho
      exact hfresh.doomed hdeleting c hc
  · have hsome : (held name (some o)).isSome = true := Option.isSome_of_mem ho
    rcases List.mem_cons.mp ha with rfl | ha
    · exact hsome
    · exact ((List.pairwise_cons.mp h.turns).1 a ha).elim (·.trans hsome) (·.trans hx)

theorem Helper.sound (helper : Helper σ name) (h : Timeline name same (some o :: rest) x) :
    ((helper.event o).stage o).Sound name same (some o :: rest) x := by
  cases hevent : helper.event o with
  | wait => trivial
  | hold =>
    have hfree : (held name (some o)).isSome = false := by
      rw [held_of_free (helper.hold_free o hevent)]
      rfl
    intro a ha hsome
    rcases List.mem_cons.mp ha with rfl | ha
    · rw [hfree] at hsome
      cases hsome
    · rcases (List.pairwise_cons.mp h.turns).1 a ha with hsame | hsame
      · rw [hsame, hfree] at hsome
        cases hsome
      · exact hsame.symm.trans hsome
  | apply =>
    obtain ⟨hin, hdeleting⟩ := helper.apply_held o hevent
    exact (h.now List.mem_cons_self (mem_held.mpr ⟨rfl, hin⟩)).alive hdeleting
  | cleanup =>
    obtain ⟨hin, hdeleting⟩ := helper.cleanup_held o hevent
    exact ⟨h.doomed hin hdeleting, (h.now List.mem_cons_self (mem_held.mpr ⟨rfl, hin⟩)).same⟩

theorem Doomed.stays (h : Doomed name copies x)
    (hstays : StaysHeld same (held name x) (held name y)) : Doomed name (copies ++ [x]) y where
  store o' ho' := by
    obtain ⟨o, ho, -, hdeleting⟩ := hstays.back ho'
    exact hdeleting (h.store o ho)
  seen a ha := by
    rcases mem_states ha with ha | rfl
    · exact h.seen a ha
    · exact h.store
  kept hy a ha := by
    have hx := hstays.isSome.symm.trans hy
    rcases mem_states ha with ha | rfl
    · exact h.kept hx a ha
    · exact hx

theorem Stage.Sound.stays (heq : Equivalence same) (h : stage.Sound name same copies x)
    (hstays : StaysHeld same (held name x) (held name y)) :
    stage.Sound name same (copies ++ [x]) y := by
  cases stage with
  | idle => trivial
  | holding =>
    intro a ha hsome
    rcases mem_states ha with ha | rfl
    · exact hstays.isSome.trans (h a ha hsome)
    · exact hstays.isSome.trans hsome
  | applying => exact hstays.isSome.trans h
  | read content =>
    obtain ⟨o, ho, hsame⟩ := h
    obtain ⟨o', ho', hsame', -⟩ := hstays.1 o ho
    exact ⟨o', ho', heq.trans (heq.symm hsame') hsame⟩
  | cleaning content =>
    refine ⟨h.1.stays hstays, fun o' ho' => ?_⟩
    obtain ⟨o, ho, hsame, -⟩ := hstays.back ho'
    exact heq.trans (heq.symm hsame) (h.2 o ho)
  | releasing => exact Doomed.stays h hstays

variable {later : List (Option (Object σ))}

theorem Doomed.sync (h : Doomed name copies x) (hlater : ∀ a ∈ later, a ∈ copies ∨ a = x) :
    Doomed name later x where
  store := h.store
  seen a ha := by
    rcases hlater a ha with ha | rfl
    · exact h.seen a ha
    · exact h.store
  kept hx a ha := by
    rcases hlater a ha with ha | rfl
    · exact h.kept hx a ha
    · exact hx

theorem Stage.Sound.sync (h : stage.Sound name same copies x)
    (hlater : ∀ a ∈ later, a ∈ copies ∨ a = x) : stage.Sound name same later x := by
  cases stage with
  | idle => trivial
  | holding =>
    intro a ha hsome
    rcases hlater a ha with ha | rfl
    · exact h a ha hsome
    · exact hsome
  | applying | read content => exact h
  | cleaning content => exact ⟨h.1.sync hlater, h.2⟩
  | releasing => exact Doomed.sync h hlater

/-! ## The memory of the controller -/

variable {ctrl : Controller κ σ ρ α β} {has : ρ → υ → Prop} {owes : κ → σ → υ → Prop}
  {s u : State κ σ ρ} {key : κ}

/-- What the memory has comes from the objects that the controller acts for, and a cleanup
gives back what its object stands for. -/
structure Accounts (ctrl : Controller κ σ ρ α β) (has : ρ → υ → Prop) (owes : κ → σ → υ → Prop) :
    Prop where
  apply key content a m r : has (ctrl.apply key content a m) r → has m r ∨ owes key content r
  cleanup key content m r : has (ctrl.cleanup key content m).1 r → has m r
  cleaned key content m r : (ctrl.cleanup key content m).2 = true → owes key content r →
    ¬has (ctrl.cleanup key content m).1 r
  work b m m' r : ctrl.work b m = some m' → has m' r → has m r
  restart m r : ¬has (ctrl.restart m) r

def Alike (owes : κ → σ → υ → Prop) (key : κ) (a b : σ) : Prop := ∀ r, owes key a r ↔ owes key b r

theorem alike_equivalence (owes : κ → σ → υ → Prop) (key : κ) : Equivalence (Alike owes key) where
  refl _ _ := Iff.rfl
  symm h r := (h r).symm
  trans h h' r := (h r).trans (h' r)

structure Sound (ctrl : Controller κ σ ρ α β) (has : ρ → υ → Prop) (owes : κ → σ → υ → Prop)
    (s : State κ σ ρ) : Prop where
  objects : ∀ key, SoundAt ctrl.name (Alike owes key) (s.copies key) (s.store key) (s.stage key)
  memory : ∀ r, has s.memory r → ∃ key, ∃ o ∈ held ctrl.name (s.store key),
    owes key o.content r ∧ s.stage key ≠ .releasing

def LeavesHeld (ctrl : Controller κ σ ρ α β) (owes : κ → σ → υ → Prop) (s : State κ σ ρ)
    (l : Label κ σ α β) : Prop :=
  ∀ key r, l = .request key r → r.Leaves ctrl.name (Alike owes key) (s.store key)

theorem objects_of (h : Sound ctrl has owes s)
    (hothers : ∀ k, k ≠ key →
      u.store k = s.store k ∧ u.copies k = s.copies k ∧ u.stage k = s.stage k)
    (hkey : SoundAt ctrl.name (Alike owes key) (u.copies key) (u.store key) (u.stage key)) :
    ∀ k, SoundAt ctrl.name (Alike owes k) (u.copies k) (u.store k) (u.stage k) := by
  intro k
  by_cases hk : k = key
  · rw [hk]
    exact hkey
  · obtain ⟨hstore, hcopies, hstage⟩ := hothers k hk
    rw [hstore, hcopies, hstage]
    exact h.objects k

theorem memory_of (h : Sound ctrl has owes s) (hmemory : ∀ r, has u.memory r → has s.memory r)
    (hkeeps : ∀ k, s.stage k ≠ .releasing → ∀ o ∈ held ctrl.name (s.store k),
      ∃ o' ∈ held ctrl.name (u.store k), Alike owes k o.content o'.content ∧
        u.stage k ≠ .releasing) :
    ∀ r, has u.memory r → ∃ k, ∃ o ∈ held ctrl.name (u.store k),
      owes k o.content r ∧ u.stage k ≠ .releasing := by
  intro r hr
  obtain ⟨k, o, ho, howes, hstage⟩ := h.memory r (hmemory r hr)
  obtain ⟨o', ho', halike, hstage'⟩ := hkeeps k hstage o ho
  exact ⟨k, o', ho', (halike r).mp howes, hstage'⟩

theorem serve_insert (hin : name ∈ o.finalizers) :
    serve (.setFinalizers (insert name o.finalizers)) (some o) = some o := by
  rw [Finset.insert_eq_of_mem hin, serve, if_neg (fun hnot => hnot.2 (Finset.Subset.refl _)),
    keep_self]

theorem soundAt_hold (heq : Equivalence same) (h : SoundAt name same copies (some o) .holding) :
    SoundAt name same (copies ++ [some o])
      (serve (.setFinalizers (insert name o.finalizers)) (some o)) .idle := by
  refine ⟨?_, trivial⟩
  by_cases hin : name ∈ o.finalizers
  · rw [serve_insert hin]
    exact h.timeline.stays heq
      (staysHeld_of (fun o ho => ⟨o, ho, heq.refl _, id⟩) fun o ho => ⟨o, ho⟩)
  · have hfree : held name (some o) = none := held_of_free hin
    have hnone : ∀ a ∈ copies, (held name a).isSome = (held name (some o)).isSome := by
      intro a ha
      rw [hfree, Option.isSome_none, Bool.eq_false_iff]
      intro hsome
      have hheld := h.stage a ha hsome
      rw [hfree] at hheld
      cases hheld
    refine h.timeline.extend (fun a ha c hc => ?_) (.inr hnone)
    have hsome : (held name a).isSome = true := Option.isSome_of_mem hc
    rcases mem_states ha with ha | rfl
    · rw [hnone a ha, hfree] at hsome
      cases hsome
    · rw [hfree] at hsome
      cases hsome

theorem held_release (name : String) (o : Object σ) :
    held name (serve (.setFinalizers (o.finalizers.erase name)) (some o)) = none := by
  refine Option.eq_none_iff_forall_not_mem.mpr fun o' ho' => ?_
  obtain ⟨hmem, hin⟩ := mem_held.mp ho'
  rw [serve, if_neg (fun hnot => hnot.2 (Finset.erase_subset _ _))] at hmem
  rw [(mem_keep.mp hmem).2.2] at hin
  exact absurd hin (Finset.notMem_erase _ _)

theorem soundAt_release (h : SoundAt name same copies (some o) .releasing)
    (hin : name ∈ o.finalizers) : SoundAt name same (copies ++ [some o])
      (serve (.setFinalizers (o.finalizers.erase name)) (some o)) .idle := by
  have hdoomed : Doomed name copies (some o) := h.stage
  have hsome : (held name (some o)).isSome = true :=
    Option.isSome_of_mem (mem_held.mpr ⟨rfl, hin⟩)
  refine ⟨h.timeline.extend (fun a ha c hc => ?_) (.inr fun a ha => ?_), trivial⟩
  · rw [held_release]
    have hdeleting : c.deleting = true := by
      rcases mem_states ha with ha | rfl
      · exact hdoomed.seen a ha c hc
      · exact hdoomed.store c hc
    refine ⟨?_, ?_, fun halive => ?_⟩
    · rintro _ ⟨⟩
    · rintro _ _ ⟨⟩
    · rw [hdeleting] at halive
      cases halive
  · exact (hdoomed.kept hsome a ha).trans hsome.symm

variable [DecidableEq κ]

theorem objects_enter (h : Sound ctrl has owes s) {stage : Stage σ}
    (hstage : stage.Sound ctrl.name (Alike owes key) (s.copies key) (s.store key)) (k : κ) :
    SoundAt ctrl.name (Alike owes k) (s.copies k) (s.store k) ((s.enter key stage).stage k) := by
  refine objects_of (u := s.enter key stage) h
    (fun k hk => ⟨rfl, rfl, s.enter_stage_other hk stage⟩) ?_ k
  rw [State.enter_stage]
  exact ⟨(h.objects key).timeline, hstage⟩

theorem memory_enter (h : Sound ctrl has owes s) {stage : Stage σ} (hnot : stage ≠ .releasing)
    {r : υ} (hr : has s.memory r) : ∃ k, ∃ o ∈ held ctrl.name (s.store k),
      owes k o.content r ∧ (s.enter key stage).stage k ≠ .releasing := by
  obtain ⟨k, o, ho, howes, hk⟩ := h.memory r hr
  refine ⟨k, o, ho, howes, ?_⟩
  by_cases heq : k = key
  · rw [heq, State.enter_stage]
    exact hnot
  · rw [s.enter_stage_other heq]
    exact hk

theorem memory_put (h : Sound ctrl has owes s) {x : Option (Object σ)}
    (hx : s.stage key ≠ .releasing → ∀ o ∈ held ctrl.name (s.store key),
      ∃ o' ∈ held ctrl.name x, Alike owes key o.content o'.content) {r : υ}
    (hr : has s.memory r) : ∃ k, ∃ o ∈ held ctrl.name ((s.put key x).store k),
      owes k o.content r ∧ ((s.put key x).enter key .idle).stage k ≠ .releasing := by
  obtain ⟨k, o, ho, howes, hk⟩ := h.memory r hr
  by_cases heq : k = key
  · subst heq
    obtain ⟨o', ho', halike⟩ := hx hk o ho
    refine ⟨k, o', ?_, (halike r).mp howes, by simp⟩
    rw [State.put_store]
    exact ho'
  · refine ⟨k, o, ?_, howes, ?_⟩
    · rw [s.put_store_other heq]
      exact ho
    · rw [State.enter_stage_other _ heq]
      exact hk

theorem sound_request (h : Sound ctrl has owes s) {r : Request σ}
    (hleaves : r.Leaves ctrl.name (Alike owes key) (s.store key)) :
    Sound ctrl has owes (s.put key (serve r (s.store key))) := by
  have hequiv := alike_equivalence owes
  have hstays := serve_staysHeld (hequiv key).refl hleaves
  constructor
  · refine objects_of h (fun k hk => ⟨s.put_store_other hk _, s.put_copies_other hk _, rfl⟩) ?_
    have hkey := h.objects key
    rw [State.put_store, State.put_copies]
    exact ⟨hkey.timeline.stays (hequiv key) hstays, hkey.stage.stays (hequiv key) hstays⟩
  · refine memory_of h (fun _ => id) fun k hk o ho => ?_
    by_cases heq : k = key
    · subst heq
      obtain ⟨o', ho', halike, -⟩ := hstays.1 o ho
      rw [State.put_store]
      exact ⟨o', ho', halike, hk⟩
    · rw [s.put_store_other heq]
      exact ⟨o, ho, (hequiv k).refl _, hk⟩

theorem sound_sync (h : Sound ctrl has owes s) (skipped : ℕ) :
    Sound ctrl has owes (s.sync key skipped) := by
  have hequiv := alike_equivalence owes
  constructor
  · refine objects_of h (fun k hk => ⟨rfl, s.sync_copies_other hk skipped, rfl⟩) ?_
    have htimeline := (h.objects key).timeline.sync (hequiv key).refl skipped
    rw [← State.sync_copies] at htimeline
    exact ⟨htimeline, (h.objects key).stage.sync fun a ha => s.mem_sync_copies ha⟩
  · exact memory_of h (fun _ => id) fun k hk o ho => ⟨o, ho, (hequiv k).refl _, hk⟩

theorem sound_start (h : Sound ctrl has owes s) (hcache : s.cache key = some o) :
    Sound ctrl has owes (s.enter key ((ctrl.helper.event o).stage o)) := by
  have htimeline := (h.objects key).timeline
  rw [State.copies, hcache] at htimeline
  have hsound := ctrl.helper.sound htimeline
  rw [← hcache] at hsound
  refine ⟨objects_enter h hsound, fun r hr => memory_enter h (fun hnot => ?_) hr⟩
  cases hevent : ctrl.helper.event o <;> rw [hevent] at hnot <;> cases hnot

theorem sound_idle (h : Sound ctrl has owes s) : Sound ctrl has owes (s.enter key .idle) :=
  ⟨objects_enter h (show Stage.Sound _ _ _ _ .idle from trivial),
    fun _ hr => memory_enter h (by simp) hr⟩

theorem sound_put (h : Sound ctrl has owes s) (hstore : s.store key = some o)
    {finalizers : Finset String}
    (hkey : SoundAt ctrl.name (Alike owes key) (s.copies key ++ [some o])
      (serve (.setFinalizers finalizers) (some o)) .idle)
    (hkeeps : s.stage key ≠ .releasing → ∀ o₁ ∈ held ctrl.name (some o),
      ∃ o₂ ∈ held ctrl.name (serve (.setFinalizers finalizers) (some o)),
        Alike owes key o₁.content o₂.content) :
    Sound ctrl has owes
      ((s.put key (serve (.setFinalizers finalizers) (some o))).enter key .idle) := by
  rw [← hstore] at hkeeps
  constructor
  · refine objects_of h (fun k hk => ⟨s.put_store_other hk _,
      (congrFun (State.enter_copies _ _ _) k).trans (s.put_copies_other hk _),
      State.enter_stage_other _ hk _⟩) ?_
    rw [State.enter_stage, State.enter_copies, State.put_copies, State.enter_store,
      State.put_store, hstore]
    exact hkey
  · exact fun r hr => memory_put h (hstore ▸ hkeeps) hr

theorem sound_hold (h : Sound ctrl has owes s) (hstage : s.stage key = .holding)
    (hstore : s.store key = some o) : Sound ctrl has owes ((s.put key
      (serve (.setFinalizers (insert ctrl.name o.finalizers)) (some o))).enter key .idle) := by
  have hequiv := alike_equivalence owes key
  have hkey := h.objects key
  rw [hstage, hstore] at hkey
  refine sound_put h hstore (soundAt_hold hequiv hkey) fun _ o₁ ho₁ => ?_
  obtain ⟨hmem, hin⟩ := mem_held.mp ho₁
  obtain rfl := Option.some.inj hmem
  rw [serve_insert hin]
  exact ⟨o, ho₁, hequiv.refl _⟩

theorem sound_get (h : Sound ctrl has owes s) (hstage : s.stage key = .applying)
    (hstore : s.store key = some o) : Sound ctrl has owes (s.enter key (.read o.content)) := by
  have happlying := (h.objects key).stage
  rw [hstage] at happlying
  obtain ⟨o₁, ho₁⟩ := Option.isSome_iff_exists.mp happlying
  obtain rfl := Option.mem_unique (mem_held.mp ho₁).1 hstore
  exact ⟨objects_enter h ⟨o₁, ho₁, (alike_equivalence owes key).refl _⟩,
    fun r hr => memory_enter h (by simp) hr⟩

theorem sound_apply (hacc : Accounts ctrl has owes) (h : Sound ctrl has owes s) {content : σ}
    (hstage : s.stage key = .read content) (a : α) : Sound ctrl has owes
      { s.enter key .idle with memory := ctrl.apply key content a s.memory } := by
  refine ⟨(sound_idle h).objects, fun r hr => ?_⟩
  rcases hacc.apply _ _ _ _ _ hr with hr | howes
  · exact memory_enter h (by simp) hr
  · have hread := (h.objects key).stage
    rw [hstage] at hread
    obtain ⟨o, ho, halike⟩ := hread
    refine ⟨key, o, ho, (halike r).mpr howes, ?_⟩
    simp [State.enter]

theorem sound_cleanup (hacc : Accounts ctrl has owes) (h : Sound ctrl has owes s) {content : σ}
    (hstage : s.stage key = .cleaning content) : Sound ctrl has owes
      { s.enter key (if (ctrl.cleanup key content s.memory).2 then .releasing else .idle) with
        memory := (ctrl.cleanup key content s.memory).1 } := by
  have hcleaning := (h.objects key).stage
  rw [hstage] at hcleaning
  cases hok : (ctrl.cleanup key content s.memory).2 with
  | false => exact ⟨(sound_idle h).objects, fun r hr =>
      memory_enter h (by simp) (hacc.cleanup _ _ _ _ hr)⟩
  | true =>
    refine ⟨objects_enter h hcleaning.1, fun r hr => ?_⟩
    obtain ⟨k, o, ho, howes, hk⟩ := h.memory r (hacc.cleanup _ _ _ _ hr)
    have hne : k ≠ key := by
      rintro rfl
      exact hacc.cleaned _ _ _ _ hok ((hcleaning.2 o ho r).mp howes) hr
    refine ⟨k, o, ho, howes, ?_⟩
    simpa [State.enter, Function.update_of_ne hne] using hk

theorem sound_release (h : Sound ctrl has owes s) (hstage : s.stage key = .releasing)
    (hstore : s.store key = some o) (hin : ctrl.name ∈ o.finalizers) :
    Sound ctrl has owes ((s.put key
      (serve (.setFinalizers (o.finalizers.erase ctrl.name)) (some o))).enter key .idle) := by
  have hkey := h.objects key
  rw [hstage, hstore] at hkey
  exact sound_put h hstore (soundAt_release hkey hin) fun hnot => absurd hstage hnot

theorem sound_step (hacc : Accounts ctrl has owes) (h : Sound ctrl has owes s)
    {l : Label κ σ α β} (hstep : step ctrl s l = some u) (hguard : LeavesHeld ctrl owes s l) :
    Sound ctrl has owes u := by
  cases step_cases hstep with
  | request key r => exact sound_request h (hguard key r rfl)
  | sync key skipped => exact sound_sync h skipped
  | start _ hcache => exact sound_start h hcache
  | hold hstage hstore => exact sound_hold h hstage hstore
  | get hstage hstore => exact sound_get h hstage hstore
  | apply a hstage => exact sound_apply hacc h hstage a
  | cleanup hstage => exact sound_cleanup hacc h hstage
  | release hstage hstore hin => exact sound_release h hstage hstore hin
  | leave key => exact sound_idle h
  | work hwork => exact ⟨h.objects, fun r hr => h.memory r (hacc.work _ _ _ _ hwork hr)⟩
  | restart => exact ⟨fun k => ⟨.start _ _ _, trivial⟩, fun r hr => absurd hr (hacc.restart _ _)⟩

theorem sound_run (hacc : Accounts ctrl has owes) {ls : List (Label κ σ α β)}
    (hrun : Run (step ctrl) s ls u)
    (hguard : Along (step ctrl) (fun s l _ => LeavesHeld ctrl owes s l) s ls)
    (h : Sound ctrl has owes s) : Sound ctrl has owes u := by
  induction hrun with
  | nil => exact h
  | cons hl _ ih =>
    obtain ⟨hleaves, hrest⟩ := hguard _ hl
    exact ih hrest (sound_step hacc h hl hleaves)

omit [DecidableEq κ] in
theorem sound_initial (hcache : ∀ key, s.cache key = none) (hunseen : ∀ key, s.unseen key = [])
    (hstage : ∀ key, s.stage key = .idle) (hmemory : ∀ r, ¬has s.memory r) :
    Sound ctrl has owes s where
  objects key := by
    rw [State.copies, hcache, hunseen, hstage]
    exact ⟨.start _ _ _, trivial⟩
  memory r hr := absurd hr (hmemory r)

/-! ## The end of an object in deletion -/

/-- The object is in deletion, nobody else holds it, and the copy shows both but for others. -/
structure Going (name : String) (x cached : Option (Object σ)) : Prop where
  store : ∃ o ∈ x, o.deleting = true ∧ o.finalizers = {name}
  copy : ∃ c ∈ cached, c.deleting = true ∧ name ∈ c.finalizers

theorem Going.copy_of_mem {cached a : Option (Object σ)} (h : Going name x cached)
    (htimeline : Timeline name same (cached :: rest) x) (ha : a ∈ cached :: rest) :
    ∃ c ∈ a, c.deleting = true ∧ name ∈ c.finalizers := by
  obtain ⟨o, ho, -, hfinalizers⟩ := h.store
  obtain ⟨c, rfl, hdeleting, hin⟩ := h.copy
  have hdoomed := htimeline.doomed hin hdeleting
  have hmem : o ∈ held name x := mem_held.mpr ⟨ho, hfinalizers ▸ Finset.mem_singleton_self name⟩
  have hx : (held name x).isSome = true := Option.isSome_of_mem hmem
  obtain ⟨c', hc'⟩ := Option.isSome_iff_exists.mp (hdoomed.kept hx a ha)
  exact ⟨c', (mem_held.mp hc').1, hdoomed.seen a ha c' hc', (mem_held.mp hc').2⟩

/-- How many steps of the controller are left until it takes its finalizer off. -/
def Stage.rank : Stage σ → ℕ
  | applying => 5
  | holding | read _ => 4
  | idle => 3
  | cleaning _ => 2
  | releasing => 1

omit [DecidableEq κ] in
theorem rank_le (stage : Stage σ) : stage.rank ≤ 5 := by
  cases stage <;> simp [Stage.rank]

def Label.isFor (key : κ) : Label κ σ α β → Bool
  | start k | hold k | get k | apply k _ | cleanup k | release k => k = key
  | _ => false

structure Unfailing (key : κ) (l : Label κ σ α β) (u : State κ σ ρ) : Prop where
  leave : l ≠ .leave key
  restart : l ≠ .restart
  cleanup : l = .cleanup key → u.stage key = .releasing

theorem serve_going {r : Request σ} (hdeleting : o.deleting = true)
    (hfinalizers : o.finalizers = {name}) (hr : r.Leaves name same (some o)) :
    ∃ o' ∈ serve r (some o), o'.deleting = true ∧ o'.finalizers = {name} := by
  cases r with
  | create content finalizers => exact ⟨o, rfl, hdeleting, hfinalizers⟩
  | delete =>
    let o' : Object σ := ⟨o.content, true, o.finalizers, fun _ => o.kept hdeleting⟩
    exact ⟨o', mem_keep.mpr ⟨rfl, rfl, rfl⟩, rfl, hfinalizers⟩
  | edit content => exact ⟨_, rfl, hdeleting, hfinalizers⟩
  | setFinalizers finalizers =>
    have hin : name ∈ finalizers :=
      (hr o rfl).mpr (hfinalizers ▸ Finset.mem_singleton_self name)
    simp only [serve]
    split_ifs with hrefused
    · exact ⟨o, rfl, hdeleting, hfinalizers⟩
    · have hsub : finalizers ⊆ o.finalizers := by
        by_contra hnot
        exact hrefused ⟨hdeleting, hnot⟩
      rw [hfinalizers] at hsub
      have hsame : finalizers = {name} :=
        Finset.Subset.antisymm hsub (Finset.singleton_subset_iff.mpr hin)
      let o' : Object σ := ⟨o.content, o.deleting, finalizers, fun _ => ⟨name, hin⟩⟩
      exact ⟨o', mem_keep.mpr ⟨rfl, rfl, rfl⟩, hdeleting, hsame⟩

theorem serve_last (hdeleting : o.deleting = true) (hfinalizers : o.finalizers = {name}) :
    serve (.setFinalizers (o.finalizers.erase name)) (some o) = none := by
  rw [serve, if_neg (fun hnot => hnot.2 (Finset.erase_subset _ _)), hfinalizers, keep,
    dif_neg (by simp [hdeleting])]

/-- Each step for the object brings it nearer to its end, and the others leave it where it is. -/
structure Nearer (ctrl : Controller κ σ ρ α β) (key : κ) (l : Label κ σ α β)
    (s u : State κ σ ρ) : Prop where
  going : Going ctrl.name (u.store key) (u.cache key)
  rank : (u.stage key).rank + (if l.isFor key then 1 else 0) ≤ (s.stage key).rank

theorem nearer_enter {k : κ} {stage : Stage σ} {l : Label κ σ α β}
    (h : Going ctrl.name (s.store key) (s.cache key)) (hfor : l.isFor key = decide (k = key))
    (hrank : k = key → stage.rank < (s.stage key).rank) (hstore : u.store key = s.store key)
    (hcache : u.cache key = s.cache key) (hstage : u.stage = Function.update s.stage k stage) :
    Nearer ctrl key l s u := by
  constructor
  · rw [hstore, hcache]
    exact h
  · rw [hstage, hfor]
    by_cases hk : k = key
    · subst hk
      simp only [Function.update_self, decide_true, if_true]
      exact hrank rfl
    · simp [hk, Function.update_of_ne (Ne.symm hk)]

theorem nearer_other {l : Label κ σ α β} (h : Going ctrl.name (u.store key) (u.cache key))
    (hfor : l.isFor key = false) (hstage : u.stage key = s.stage key) :
    Nearer ctrl key l s u := by
  refine ⟨h, ?_⟩
  rw [hstage, hfor]
  exact Nat.le_refl _

theorem going_request {k : κ} {r : Request σ} (h : Going ctrl.name (s.store key) (s.cache key))
    (hleaves : r.Leaves ctrl.name (Alike owes k) (s.store k)) :
    Going ctrl.name ((s.put k (serve r (s.store k))).store key) (s.cache key) := by
  refine ⟨?_, h.copy⟩
  by_cases hk : k = key
  · subst hk
    obtain ⟨o, ho, hdeleting, hfinalizers⟩ := h.store
    rw [Option.mem_def.mp ho] at hleaves
    rw [State.put_store, Option.mem_def.mp ho]
    exact serve_going hdeleting hfinalizers hleaves
  · rw [s.put_store_other (Ne.symm hk)]
    exact h.store

theorem going_sync (hsound : Sound ctrl has owes s) {k : κ} (skipped : ℕ)
    (h : Going ctrl.name (s.store key) (s.cache key)) :
    Going ctrl.name (s.store key) ((s.sync k skipped).cache key) := by
  refine ⟨h.store, ?_⟩
  by_cases hk : k = key
  · subst hk
    have hcache : (s.sync k skipped).cache k ∈ (s.sync k skipped).copies k := List.mem_cons_self
    rcases s.mem_sync_copies hcache with hseen | hnow
    · exact h.copy_of_mem (hsound.objects k).timeline hseen
    · obtain ⟨o, ho, hdeleting, hfinalizers⟩ := h.store
      rw [hnow]
      refine ⟨o, ho, hdeleting, ?_⟩
      rw [hfinalizers]
      exact Finset.mem_singleton_self _
  · have hsame : (s.sync k skipped).cache key = s.cache key :=
      Function.update_of_ne (Ne.symm hk) _ _
    rw [hsame]
    exact h.copy

theorem nearer_step (hsound : Sound ctrl has owes s)
    (h : Going ctrl.name (s.store key) (s.cache key)) {l : Label κ σ α β}
    (hstep : step ctrl s l = some u) (hleaves : LeavesHeld ctrl owes s l)
    (hguard : Unfailing key l u) : u.store key = none ∨ Nearer ctrl key l s u := by
  obtain ⟨o, ho, hdeleting, hfinalizers⟩ := h.store
  obtain ⟨c, hc, hcopy, hin⟩ := h.copy
  cases step_cases hstep with
  | request k r => exact .inr (nearer_other (going_request h (hleaves k r rfl)) rfl rfl)
  | sync k skipped => exact .inr (nearer_other (going_sync hsound skipped h) rfl rfl)
  | start hstage hcache =>
    refine .inr (nearer_enter h rfl ?_ rfl rfl rfl)
    rintro rfl
    obtain rfl := Option.mem_unique hc hcache
    rw [ctrl.helper.cleans c hin hcopy, hstage]
    simp [Event.stage, Stage.rank]
  | @hold k o' hstage hstore =>
    refine .inr (nearer_enter h rfl ?_ ?_ rfl rfl)
    · rintro rfl
      simp [hstage, Stage.rank]
    · -- the finalizer is there already
      by_cases hk : k = key
      · subst hk
        obtain rfl := Option.mem_unique ho hstore
        refine (s.put_store k _).trans ((serve_insert ?_).trans hstore.symm)
        rw [hfinalizers]
        exact Finset.mem_singleton_self _
      · exact s.put_store_other (Ne.symm hk) _
  | get hstage _ | apply _ hstage =>
    refine .inr (nearer_enter h rfl ?_ rfl rfl rfl)
    rintro rfl
    simp [hstage, Stage.rank]
  | @cleanup k content hstage =>
    refine .inr (nearer_enter h rfl ?_ rfl rfl rfl)
    rintro rfl
    have hreleasing := hguard.cleanup rfl
    rw [show _ = _ from s.enter_stage k _] at hreleasing
    simp [hreleasing, hstage, Stage.rank]
  | @release k o' _ hstore _ =>
    by_cases hk : k = key
    · subst hk
      obtain rfl := Option.mem_unique ho hstore
      exact .inl ((s.put_store k _).trans (serve_last hdeleting hfinalizers))
    · exact .inr (nearer_enter h rfl (fun heq => absurd heq hk)
        (s.put_store_other (Ne.symm hk) _) rfl rfl)
  | leave k =>
    have hk : k ≠ key := fun heq => hguard.leave (congrArg Label.leave heq)
    exact .inr (nearer_other h rfl (s.enter_stage_other (Ne.symm hk) _))
  | work _ => exact .inr (nearer_other h rfl rfl)
  | restart => exact absurd rfl hguard.restart

/-- In any interleaving with other steps, five steps of the controller for an object whose
deletion its copy shows are enough to let the object go. -/
theorem run_released (hacc : Accounts ctrl has owes) {ls : List (Label κ σ α β)}
    (hrun : Run (step ctrl) s ls u)
    (hguard : Along (step ctrl) (fun s l u => LeavesHeld ctrl owes s l ∧ Unfailing key l u) s ls)
    (hsound : Sound ctrl has owes s) (h : Going ctrl.name (s.store key) (s.cache key))
    (hsteps : (s.stage key).rank ≤ ls.countP (Label.isFor key)) :
    ∃ before after t, ls = before ++ after ∧ Run (step ctrl) s before t ∧
      Sound ctrl has owes t ∧ t.store key = none := by
  induction hrun with
  | nil s =>
    have hpositive : 0 < (s.stage key).rank := by cases s.stage key <;> simp [Stage.rank]
    rw [List.countP_nil] at hsteps
    omega
  | @cons s t u l ls hl _ ih =>
    obtain ⟨⟨hleaves, hunfailing⟩, hrest⟩ := hguard t hl
    have ht := sound_step hacc hsound hl hleaves
    rcases nearer_step hsound h hl hleaves hunfailing with hgone | hnearer
    · exact ⟨[l], ls, t, rfl, .cons hl (.nil t), ht, hgone⟩
    · have hrank := hnearer.rank
      rw [List.countP_cons] at hsteps
      obtain ⟨before, after, v, rfl, hbefore, hv, hgone⟩ := ih hrest ht hnearer.going (by omega)
      exact ⟨l :: before, after, v, rfl, .cons hl hbefore, hv, hgone⟩

end Finalizers

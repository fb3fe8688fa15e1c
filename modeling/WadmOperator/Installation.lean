import Mathlib.Logic.Function.Basic
import WadmOperator.Foundation.Versioned

/-!
# The installation of the API

What the operator does before it starts: `install_crd` brings the CRD and the registration
of the aggregated API into the cluster. Operators may start at the same time, stop halfway
and have requests refused, and others may write to the two objects, so the calls of any
number of starts are interleaved. An error of a get is taken for the absence of the object.
-/

namespace WadmOperator
namespace Installation

open Transition Versioned

structure ObjectMeta where
  name : Option String
  resourceVersion : Option Nat := none
  deriving DecidableEq

/-- The spec is what the derive macro of the resource generates. -/
structure CustomResourceDefinition (γ : Type) where
  metadata : ObjectMeta
  spec : γ
  deriving DecidableEq

structure ServiceReference where
  name : Option String
  ns : Option String
  port : Option Nat
  deriving DecidableEq

structure APIServiceSpec where
  caBundle : Option String := none
  group : Option String
  groupPriorityMinimum : Nat
  insecureSkipTlsVerify : Option Bool
  service : Option ServiceReference
  version : Option String
  versionPriority : Nat
  deriving DecidableEq

structure APIServiceCondition where
  conditionType : String
  status : String
  deriving DecidableEq

structure APIServiceStatus where
  conditions : Option (List APIServiceCondition)
  deriving DecidableEq

structure APIService where
  metadata : ObjectMeta
  spec : Option APIServiceSpec
  status : Option APIServiceStatus := none
  deriving DecidableEq

structure Start (γ : Type) where
  crd : γ
  podNamespace : Option String

/-- What is stored after an accepted create, replace or server-side apply: the same request
again changes nothing. -/
structure ObjectApi (γ : Type) where
  applyCrd : Option γ → γ → γ
  applyCrd_again (current x) : applyCrd (some (applyCrd current x)) x = applyCrd current x
  storeRegistration : Option APIService → APIService → APIService
  storeRegistration_again (current x) :
    storeRegistration (some (storeRegistration current x)) x = storeRegistration current x

/-- A replace leaves the status alone, which is a subresource. -/
def ObjectApi.basic {γ : Type} : ObjectApi γ where
  applyCrd _ x := x
  applyCrd_again _ _ := rfl
  storeRegistration current x := { x with status := current.bind APIService.status }
  storeRegistration_again _ _ := rfl

inductive Stage where
  | createCrd | patchCrd | createRegistration | replaceRegistration
  deriving DecidableEq

inductive Phase (γ : Type) where
  | getCrd
  | putCrd (old : Option (CustomResourceDefinition γ))
  | getRegistration
  | putRegistration (old : Option APIService)
  | done
  | failed (stage : Stage)
  | panicked

structure State (ι γ : Type) where
  crd : Versioned γ := {}
  registration : Versioned APIService := {}
  phase : ι → Phase γ := fun _ => .getCrd

inductive Label (ι γ : Type) where
  | call (i : ι) (answer : Answer)
  | editCrd (x : Option γ)
  | editRegistration (x : Option APIService)

def CRD_NAME : String := "wasmcloudhostconfigs.k8s.wasmcloud.dev"

def REGISTRATION_NAME : String := "v1beta1.core.oam.dev"

section

variable {ι γ : Type}

def generated (spec : γ) : CustomResourceDefinition γ := ⟨⟨some CRD_NAME, none⟩, spec⟩

def registrationFor (start : Start γ) : APIService where
  metadata := ⟨some REGISTRATION_NAME, none⟩
  spec := some
    { group := some "core.oam.dev"
      groupPriorityMinimum := 2100
      insecureSkipTlsVerify := some true
      versionPriority := 100
      version := some "v1beta1"
      service := some ⟨some "wadm-operator", some (start.podNamespace.getD "default"), some 8443⟩ }

def APIService.withVersion (obj : APIService) (version : Option Nat) : APIService :=
  { obj with metadata := { obj.metadata with resourceVersion := version } }

def readCrd (c : Versioned γ) : Option (CustomResourceDefinition γ) :=
  c.value.map fun spec => ⟨⟨some CRD_NAME, some c.version⟩, spec⟩

def readRegistration (c : Versioned APIService) : Option APIService :=
  c.value.map fun obj => obj.withVersion (some c.version)

def received {α : Type} (found : Option α) : Answer → Option α
  | .ok => found
  | .refused | .lost => none

def written {α : Type} (accepted : Option (Versioned α)) (next : Phase γ) (stage : Stage)
    (answer : Answer) (c : Versioned α) : Versioned α × Phase γ :=
  let (c', ok) := answer.perform accepted c
  (c', if ok then next else .failed stage)

def putCrd [DecidableEq γ] (api : ObjectApi γ) (start : Start γ)
    (old : Option (CustomResourceDefinition γ)) (answer : Answer) (c : Versioned γ) :
    Versioned γ × Phase γ :=
  match old with
  | some old =>
    if old ≠ generated start.crd then
      let patched := c.upsert fun current => api.applyCrd current start.crd
      written patched .getRegistration .patchCrd answer c
    else (c, .getRegistration)
  | none =>
    written (c.create (api.applyCrd none start.crd)) .getRegistration .createCrd answer c

def putRegistration (api : ObjectApi γ) (start : Start γ) (old : Option APIService)
    (answer : Answer) (c : Versioned APIService) : Versioned APIService × Phase γ :=
  match old with
  | some old =>
    match old.metadata.resourceVersion with
    | some seen =>
      let stored := api.storeRegistration c.value (registrationFor start)
      written (c.replace seen stored) .done .replaceRegistration answer c
    | none => (c, .panicked)
  | none =>
    let stored := api.storeRegistration none (registrationFor start)
    written (c.create stored) .done .createRegistration answer c

variable [DecidableEq ι]

def State.setPhase (s : State ι γ) (i : ι) (p : Phase γ) : State ι γ :=
  { s with phase := Function.update s.phase i p }

variable [DecidableEq γ]

def call (api : ObjectApi γ) (starts : ι → Start γ) (i : ι) (answer : Answer) (s : State ι γ) :
    Option (State ι γ) :=
  match s.phase i with
  | .getCrd => some (s.setPhase i (.putCrd (received (readCrd s.crd) answer)))
  | .putCrd old =>
    let (crd, phase) := putCrd api (starts i) old answer s.crd
    some ({ s with crd := crd }.setPhase i phase)
  | .getRegistration =>
    some (s.setPhase i (.putRegistration (received (readRegistration s.registration) answer)))
  | .putRegistration old =>
    let (registration, phase) := putRegistration api (starts i) old answer s.registration
    some ({ s with registration := registration }.setPhase i phase)
  | .done | .failed _ | .panicked => none

def step (api : ObjectApi γ) (starts : ι → Start γ) (s : State ι γ) :
    Label ι γ → Option (State ι γ)
  | .call i answer => call api starts i answer s
  | .editCrd x => some { s with crd := s.crd.write x }
  | .editRegistration x =>
    some { s with registration := s.registration.write (x.map fun obj => obj.withVersion none) }

end

section

variable {ι γ : Type} [DecidableEq ι] (s : State ι γ) (i : ι) (p : Phase γ)

@[simp] theorem State.setPhase_crd : (s.setPhase i p).crd = s.crd := rfl

@[simp] theorem State.setPhase_registration :
    (s.setPhase i p).registration = s.registration := rfl

theorem State.setPhase_phase (j : ι) :
    (s.setPhase i p).phase j = if j = i then p else s.phase j := by
  simp only [setPhase, Function.update_apply]

end

theorem written_cases {α γ : Type} [DecidableEq α] {accepted : Option (Versioned α)}
    {c : Versioned α} {x : Option α} (haccepted : ∀ c', accepted = some c' → c' = c.write x)
    (next : Phase γ) (stage : Stage) (answer : Answer) :
    written accepted next stage answer c = (c, .failed stage) ∨
      written accepted next stage answer c = (c.write x, .failed stage) ∨
        written accepted next stage answer c = (c.write x, next) := by
  unfold written
  cases hok : (answer.perform accepted c).2 with
  | true =>
    obtain ⟨c', hsome, hcell⟩ := Answer.perform_accepted hok
    rw [haccepted c' hsome] at hcell
    exact .inr (.inr (by simp [hok, hcell]))
  | false =>
    rcases Answer.perform_cell answer accepted c with
      hcell | ⟨c', hsome, hcell⟩
    · exact .inl (by simp [hok, hcell])
    · rw [haccepted c' hsome] at hcell
      exact .inr (.inl (by simp [hok, hcell]))

theorem putRegistration_cases {γ : Type} (api : ObjectApi γ) (start : Start γ)
    (old : Option APIService) (answer : Answer) (c : Versioned APIService) :
    let applied := c.write (some (api.storeRegistration c.value (registrationFor start)))
    (∃ obj, old = some obj ∧ obj.metadata.resourceVersion = none ∧
      putRegistration api start old answer c = (c, .panicked)) ∨
    ∃ stage, putRegistration api start old answer c = (c, .failed stage) ∨
      putRegistration api start old answer c = (applied, .failed stage) ∨
        putRegistration api start old answer c = (applied, .done) := by
  intro applied
  unfold putRegistration
  split
  · next obj =>
    split
    · exact .inr ⟨_, written_cases (fun c' h => (replace_eq_some.mp h).2) _ _ _⟩
    · next hnone => exact .inl ⟨obj, rfl, hnone, rfl⟩
  · refine .inr ⟨_, written_cases (fun c' h => ?_) _ _ _⟩
    obtain ⟨hnone, rfl⟩ := create_eq_some.mp h
    simp only [hnone]

theorem putRegistration_fresh {γ : Type} (api : ObjectApi γ) (start : Start γ)
    (c : Versioned APIService) : putRegistration api start (readRegistration c) .ok c =
      (c.write (some (api.storeRegistration c.value (registrationFor start))), .done) := by
  cases hvalue : c.value with
  | none => simp [readRegistration, putRegistration, written, create, Answer.perform, hvalue]
  | some obj =>
    simp [readRegistration, putRegistration, APIService.withVersion, written, replace,
      Answer.perform, hvalue]

/-! ## What starts leave -/

section

variable {ι γ : Type} {api : ObjectApi γ} {start : Start γ} {i : ι}

def Phase.pastCrd : Phase γ → Bool
  | .getRegistration | .putRegistration _ | .done => true
  | _ => false

structure Converging (api : ObjectApi γ) (start : Start γ) (s₀ s : State ι γ) : Prop where
  crd : s.crd.value = s₀.crd.value ∨
    s.crd.value = some (api.applyCrd s₀.crd.value start.crd)
  registration : s.registration.value = s₀.registration.value ∨
    s.registration.value =
      some (api.storeRegistration s₀.registration.value (registrationFor start))
  pastCrd : ∀ i, (s.phase i).pastCrd = true →
    s.crd.value = some (api.applyCrd s₀.crd.value start.crd)
  done : ∀ i, s.phase i = .done → s.registration.value =
    some (api.storeRegistration s₀.registration.value (registrationFor start))
  crdVersion : ∀ i old, s.phase i = .putCrd (some old) → old.metadata.resourceVersion ≠ none
  registrationVersion : ∀ i old, s.phase i = .putRegistration (some old) →
    old.metadata.resourceVersion ≠ none
  unwrapped : ∀ i, s.phase i ≠ .panicked

namespace Converging

variable {s₀ s : State ι γ}

theorem start_of (h : ∀ i, s₀.phase i = .getCrd) : Converging api start s₀ s₀ := by
  refine ⟨.inl rfl, .inl rfl, ?_, ?_, ?_, ?_, ?_⟩ <;> intro i <;> rw [h i] <;>
    simp [Phase.pastCrd]

theorem appliedCrd (h : Converging api start s₀ s) :
    api.applyCrd s.crd.value start.crd = api.applyCrd s₀.crd.value start.crd := by
  rcases h.crd with heq | heq <;> rw [heq]
  exact api.applyCrd_again _ _

theorem storedRegistration (h : Converging api start s₀ s) :
    api.storeRegistration s.registration.value (registrationFor start) =
      api.storeRegistration s₀.registration.value (registrationFor start) := by
  rcases h.registration with heq | heq <;> rw [heq]
  exact api.storeRegistration_again _ _

theorem crdWritten [DecidableEq γ] (h : Converging api start s₀ s) : Converging api start s₀
    { s with crd := s.crd.write (some (api.applyCrd s.crd.value start.crd)) } where
  crd := .inr ((write_value _ _).trans (congrArg some h.appliedCrd))
  registration := h.registration
  pastCrd _ _ := (write_value _ _).trans (congrArg some h.appliedCrd)
  done := h.done
  crdVersion := h.crdVersion
  registrationVersion := h.registrationVersion
  unwrapped := h.unwrapped

theorem registrationWritten (h : Converging api start s₀ s) : Converging api start s₀
    { s with
      registration := s.registration.write
        (some (api.storeRegistration s.registration.value (registrationFor start))) } where
  crd := h.crd
  registration := .inr ((write_value _ _).trans (congrArg some h.storedRegistration))
  pastCrd := h.pastCrd
  done _ _ := (write_value _ _).trans (congrArg some h.storedRegistration)
  crdVersion := h.crdVersion
  registrationVersion := h.registrationVersion
  unwrapped := h.unwrapped

variable [DecidableEq ι]

theorem setPhase (h : Converging api start s₀ s) {p : Phase γ}
    (hpast : p.pastCrd = true → s.crd.value = some (api.applyCrd s₀.crd.value start.crd))
    (hdone : p = .done → s.registration.value =
      some (api.storeRegistration s₀.registration.value (registrationFor start)))
    (hcrd : ∀ old, p = .putCrd (some old) → old.metadata.resourceVersion ≠ none)
    (hregistration : ∀ old, p = .putRegistration (some old) →
      old.metadata.resourceVersion ≠ none)
    (hpanicked : p ≠ .panicked) : Converging api start s₀ (s.setPhase i p) where
  crd := h.crd
  registration := h.registration
  pastCrd j hj := by
    rw [State.setPhase_phase] at hj
    split at hj
    · exact hpast hj
    · exact h.pastCrd j hj
  done j hj := by
    rw [State.setPhase_phase] at hj
    split at hj
    · exact hdone hj
    · exact h.done j hj
  crdVersion j old hj := by
    rw [State.setPhase_phase] at hj
    split at hj
    · exact hcrd old hj
    · exact h.crdVersion j old hj
  registrationVersion j old hj := by
    rw [State.setPhase_phase] at hj
    split at hj
    · exact hregistration old hj
    · exact h.registrationVersion j old hj
  unwrapped j hj := by
    rw [State.setPhase_phase] at hj
    split at hj
    · exact hpanicked hj
    · exact h.unwrapped j hj

theorem failed (h : Converging api start s₀ s) (stage : Stage) :
    Converging api start s₀ (s.setPhase i (.failed stage)) := by
  apply h.setPhase <;> simp [Phase.pastCrd]

end Converging
end

variable {ι γ : Type} [DecidableEq γ] {api : ObjectApi γ} {start : Start γ} {starts : ι → Start γ}
  {ls : List (Label ι γ)} {i : ι} {answer : Answer}

theorem putCrd_cases (api : ObjectApi γ) (start : Start γ)
    (old : Option (CustomResourceDefinition γ)) (answer : Answer) (c : Versioned γ) :
    let applied := c.write (some (api.applyCrd c.value start.crd))
    (old = some (generated start.crd) ∧
      putCrd api start old answer c = (c, .getRegistration)) ∨
    ∃ stage, putCrd api start old answer c = (c, .failed stage) ∨
      putCrd api start old answer c = (applied, .failed stage) ∨
        putCrd api start old answer c = (applied, .getRegistration) := by
  intro applied
  unfold putCrd
  split
  · next old =>
    split
    · exact .inr ⟨_, written_cases (fun c' h => (Option.some.inj h).symm) _ _ _⟩
    · next hsame => exact .inl ⟨by rw [not_not.mp hsame], rfl⟩
  · refine .inr ⟨_, written_cases (fun c' h => ?_) _ _ _⟩
    obtain ⟨hnone, rfl⟩ := create_eq_some.mp h
    simp only [hnone]

variable [DecidableEq ι] {s₀ s t u : State ι γ}

inductive StepCase (api : ObjectApi γ) (starts : ι → Start γ) (s u : State ι γ) :
    Label ι γ → Prop
  | getCrd (i : ι) (answer : Answer) (hphase : s.phase i = .getCrd)
      (hu : u = s.setPhase i (.putCrd (received (readCrd s.crd) answer))) :
      StepCase api starts s u (.call i answer)
  | putCrd (i : ι) (answer : Answer) (old : Option (CustomResourceDefinition γ))
      (hphase : s.phase i = .putCrd old)
      (hu : u = { s with crd := (putCrd api (starts i) old answer s.crd).1 }.setPhase i
        (putCrd api (starts i) old answer s.crd).2) :
      StepCase api starts s u (.call i answer)
  | getRegistration (i : ι) (answer : Answer) (hphase : s.phase i = .getRegistration)
      (hu : u =
        s.setPhase i (.putRegistration (received (readRegistration s.registration) answer))) :
      StepCase api starts s u (.call i answer)
  | putRegistration (i : ι) (answer : Answer) (old : Option APIService)
      (hphase : s.phase i = .putRegistration old)
      (hu : u = { s with
          registration := (putRegistration api (starts i) old answer s.registration).1 }.setPhase i
        (putRegistration api (starts i) old answer s.registration).2) :
      StepCase api starts s u (.call i answer)
  | editCrd (x : Option γ) (hu : u = { s with crd := s.crd.write x }) :
      StepCase api starts s u (.editCrd x)
  | editRegistration (x : Option APIService)
      (hu : u = { s with
        registration := s.registration.write (x.map fun obj => obj.withVersion none) }) :
      StepCase api starts s u (.editRegistration x)

theorem step_cases {l : Label ι γ} (h : step api starts s l = some u) :
    StepCase api starts s u l := by
  cases l with
  | editCrd x => exact .editCrd x (Option.some.inj h).symm
  | editRegistration x => exact .editRegistration x (Option.some.inj h).symm
  | call i answer =>
    simp only [step, call] at h
    split at h
    · next hphase => exact .getCrd i answer hphase (Option.some.inj h).symm
    · next old hphase => exact .putCrd i answer old hphase (Option.some.inj h).symm
    · next hphase => exact .getRegistration i answer hphase (Option.some.inj h).symm
    · next old hphase => exact .putRegistration i answer old hphase (Option.some.inj h).symm
    · cases h
    · cases h
    · cases h

theorem Converging.call (h : Converging api start s₀ s)
    (hstep : step api (fun _ => start) s (.call i answer) = some u) :
    Converging api start s₀ u := by
  cases step_cases hstep with
  | getCrd _ _ hphase hu =>
    rw [hu]
    apply h.setPhase
    · simp [Phase.pastCrd]
    · simp
    · intro old hold
      cases answer <;> simp [received, readCrd] at hold
      obtain ⟨spec, -, rfl⟩ := hold
      simp
    · simp
    · simp
  | putCrd _ _ old hphase hu =>
    rw [hu]
    rcases putCrd_cases api start old answer s.crd with
      ⟨hsame, heq⟩ | ⟨stage, heq | heq | heq⟩ <;> rw [heq]
    · -- an object of the API server has a version, so it never equals the generated one
      exact absurd rfl (h.crdVersion i _ (by rw [hphase, hsame]))
    · exact h.failed stage
    · exact h.crdWritten.failed stage
    · apply h.crdWritten.setPhase
      · exact fun _ => (write_value _ _).trans (congrArg some h.appliedCrd)
      all_goals simp
  | getRegistration _ _ hphase hu =>
    rw [hu]
    apply h.setPhase
    · exact fun _ => h.pastCrd i (by rw [hphase]; rfl)
    · simp
    · simp
    · intro old hold
      cases answer <;> simp [received, readRegistration] at hold
      obtain ⟨obj, -, rfl⟩ := hold
      simp [APIService.withVersion]
    · simp
  | putRegistration _ _ old hphase hu =>
    have hpast := h.pastCrd i (by rw [hphase]; rfl)
    rw [hu]
    rcases putRegistration_cases api start old answer s.registration with
      ⟨obj, hold, hnone, heq⟩ | ⟨stage, heq | heq | heq⟩ <;> rw [heq]
    · exact absurd hnone (h.registrationVersion i obj (by rw [hphase, hold]))
    · exact h.failed stage
    · exact h.registrationWritten.failed stage
    · apply h.registrationWritten.setPhase
      · exact fun _ => hpast
      · exact fun _ => (write_value _ _).trans (congrArg some h.storedRegistration)
      all_goals simp

theorem Converging.run (h : Converging api start s₀ s)
    (hrun : Run (step api fun _ => start) s ls t)
    (hcalls : ∀ l ∈ ls, ∃ i answer, l = .call i answer) : Converging api start s₀ t := by
  induction hrun with
  | nil => exact h
  | cons hl _ ih =>
    obtain ⟨i, answer, rfl⟩ := hcalls _ List.mem_cons_self
    exact ih (h.call hl) fun l hin => hcalls l (List.mem_cons_of_mem _ hin)

/-! ## A start that sees what is there -/

theorem putCrd_fresh (api : ObjectApi γ) (start : Start γ) (c : Versioned γ) :
    putCrd api start (readCrd c) .ok c =
      (c.write (some (api.applyCrd c.value start.crd)), .getRegistration) := by
  cases hvalue : c.value with
  | none => simp [readCrd, putCrd, written, create, Answer.perform, hvalue]
  | some spec =>
    simp [readCrd, putCrd, written, upsert, Answer.perform, hvalue, generated]

def alone (api : ObjectApi γ) (start : Start γ) (i : ι) (s : State ι γ) : Option (State ι γ) :=
  exec (step api fun _ => start) s (List.replicate 4 (.call i .ok))

theorem alone_eq (api : ObjectApi γ) (start : Start γ) (h : s.phase i = .getCrd) :
    ∃ u, alone api start i s = some u ∧ u.phase i = .done ∧
      u.crd.value = some (api.applyCrd s.crd.value start.crd) ∧
      u.registration.value =
        some (api.storeRegistration s.registration.value (registrationFor start)) := by
  simp only [alone, List.replicate, exec, step, call, h, State.setPhase_phase, if_true,
    Option.bind_some, received, State.setPhase_crd, State.setPhase_registration, putCrd_fresh,
    putRegistration_fresh, Option.some.injEq, exists_eq_left', write_value, and_self]

/-- However the calls of the starts are interleaved, refused or lost: each object is as before
or as one undisturbed start leaves it, both are so once a start came to its end, and no start
panics. -/
theorem run_installed (hstarts : ∀ i, s.phase i = .getCrd) (i : ι)
    (hrun : Run (step api fun _ => start) s ls t)
    (hcalls : ∀ l ∈ ls, ∃ i answer, l = .call i answer) :
    ∃ u, alone api start i s = some u ∧
      (t.crd.value = s.crd.value ∨ t.crd.value = u.crd.value) ∧
      (t.registration.value = s.registration.value ∨
        t.registration.value = u.registration.value) ∧
      ∀ j, t.phase j ≠ .panicked ∧ (t.phase j = .done →
        t.crd.value = u.crd.value ∧ t.registration.value = u.registration.value) := by
  obtain ⟨u, halone, -, hcrd, hregistration⟩ := alone_eq api start (hstarts i)
  have hconverging := (Converging.start_of hstarts).run hrun hcalls
  refine ⟨u, halone, ?_, ?_, fun j => ⟨hconverging.unwrapped j, fun hdone => ⟨?_, ?_⟩⟩⟩
  · rw [hcrd]
    exact hconverging.crd
  · rw [hregistration]
    exact hconverging.registration
  · rw [hcrd]
    exact hconverging.pastCrd j (by rw [hdone]; rfl)
  · rw [hregistration]
    exact hconverging.done j hdone

def firstVersion : Start String := ⟨"v1", some "wasmcloud"⟩

/-- The answer to the create of the first start is lost, the second start finds its CRD. -/
def lostCreate : List (Label Bool String) :=
  [.call true .ok, .call true .lost, .call false .ok, .call false .ok, .call false .refused,
    .call false .ok]

def afterLostCreate : State Bool String :=
  (exec (step .basic fun _ => firstVersion) {} lostCreate).getD {}

theorem run_installed_lost : ∃ u, alone .basic firstVersion true ({} : State Bool String) = some u ∧
    afterLostCreate.crd.value = u.crd.value ∧
      afterLostCreate.registration.value = u.registration.value := by
  have hrun : Run (step .basic fun _ => firstVersion) {} lostCreate afterLostCreate :=
    run_of_exec rfl
  have hcalls : ∀ l ∈ lostCreate, ∃ i answer, l = .call i answer := by
    intro l hl
    simp only [lostCreate, List.mem_cons, List.not_mem_nil, or_false] at hl
    rcases hl with rfl | rfl | rfl | rfl | rfl | rfl <;> exact ⟨_, _, rfl⟩
  obtain ⟨u, halone, -, -, hdone⟩ := run_installed (fun _ => rfl) true hrun hcalls
  exact ⟨u, halone, (hdone false).2 rfl⟩

theorem step_phase {l : Label ι γ} (hstep : step api starts s l = some u)
    (hother : ∀ answer, l ≠ .call i answer) : u.phase i = s.phase i := by
  cases step_cases hstep with
  | getCrd j answer _ hu | getRegistration j answer _ hu =>
    rw [hu, State.setPhase_phase, if_neg fun heq => hother answer (by rw [heq])]
  | putCrd j answer _ _ hu | putRegistration j answer _ _ hu =>
    rw [hu, State.setPhase_phase, if_neg fun heq => hother answer (by rw [heq])]
  | editCrd _ hu | editRegistration _ hu => rw [hu]

/-! ## Some start succeeds -/

/-- A start that has not come to its end has seen what is there. -/
inductive Progress (s : State ι γ) : Prop
  | ended (i : ι) (hdone : s.phase i = .done)
  | registering (i : ι)
      (hphase : s.phase i = .getRegistration ∨ ∃ old, s.phase i = .putRegistration old)
      (hfresh : ∀ j old, s.phase j = .putRegistration old →
        old = readRegistration s.registration)
  | installing (hphase : ∀ j, s.phase j = .getCrd ∨ s.phase j = .putCrd (readCrd s.crd))

theorem progress_call (h : Progress s) (hstep : step api starts s (.call i .ok) = some u) :
    Progress u := by
  have hothers : ∀ j, j ≠ i → u.phase j = s.phase j := by
    intro j hne
    refine step_phase hstep fun answer heq => hne ?_
    exact ((Label.call.inj heq).1).symm
  cases h with
  | ended j hdone =>
    have hne : j ≠ i := by
      intro heq
      subst heq
      simp [step, call, hdone] at hstep
    exact .ended j ((hothers j hne).trans hdone)
  | registering j hphase hfresh =>
    have hkept : j ≠ i → u.registration = s.registration →
        (∀ old, u.phase i = .putRegistration old → old = readRegistration u.registration) →
          Progress u := by
      intro hne hsame hown
      refine .registering j (by rw [hothers j hne]; exact hphase) fun k old hk => ?_
      by_cases hki : k = i
      · exact hown old (hki ▸ hk)
      · rw [hsame]
        exact hfresh k old ((hothers k hki).symm.trans hk)
    cases step_cases hstep with
    | getCrd _ _ hi hu =>
      refine hkept (fun heq => ?_) (by rw [hu]; rfl) fun old hold => ?_
      · subst heq
        rw [hi] at hphase
        simp at hphase
      · rw [hu, State.setPhase_phase, if_pos rfl] at hold
        cases hold
    | putCrd _ _ old' hi hu =>
      refine hkept (fun heq => ?_) (by rw [hu]; rfl) fun old hold => ?_
      · subst heq
        rw [hi] at hphase
        simp at hphase
      · rw [hu, State.setPhase_phase, if_pos rfl] at hold
        rcases putCrd_cases api (starts i) old' .ok s.crd with
          ⟨-, heq⟩ | ⟨stage, heq | heq | heq⟩ <;> rw [heq] at hold <;> cases hold
    | getRegistration _ _ hi hu =>
      refine .registering i (.inr ⟨_, by rw [hu, State.setPhase_phase, if_pos rfl]⟩)
        fun k old hk => ?_
      have hsame : u.registration = s.registration := by rw [hu]; rfl
      rw [hsame]
      by_cases hki : k = i
      · rw [hki, hu, State.setPhase_phase, if_pos rfl] at hk
        exact (Phase.putRegistration.inj hk).symm
      · exact hfresh k old ((hothers k hki).symm.trans hk)
    | putRegistration _ _ old hi hu =>
      refine .ended i ?_
      rw [hu, State.setPhase_phase, if_pos rfl, hfresh i old hi, putRegistration_fresh]
  | installing hphase =>
    rcases hphase i with hi | hi
    · have hu : u = s.setPhase i (.putCrd (readCrd s.crd)) := by
        simp only [step, call, hi, received, Option.some.injEq] at hstep
        exact hstep.symm
      refine .installing fun k => ?_
      by_cases hki : k = i
      · rw [hki, hu, State.setPhase_phase, if_pos rfl]
        exact .inr rfl
      · rw [hothers k hki, hu]
        exact hphase k
    · have hu : u.phase i = .getRegistration := by
        simp only [step, call, hi, putCrd_fresh, Option.some.injEq] at hstep
        rw [← hstep, State.setPhase_phase, if_pos rfl]
      refine .registering i (.inl hu) fun k old hk => ?_
      by_cases hki : k = i
      · rw [hki, hu] at hk
        cases hk
      · rcases hphase k with hk' | hk' <;> rw [hothers k hki, hk'] at hk <;> cases hk

/-- Where no request is refused and nobody else writes, of the starts that have begun one comes
to its end without an error, whatever each of them installs. -/
theorem some_start_succeeds (hstarts : ∀ i, s.phase i = .getCrd)
    (hrun : Run (step api starts) s ls t) (hcalls : ∀ l ∈ ls, ∃ i, l = .call i .ok)
    (hbegun : ∃ i, t.phase i ≠ .getCrd)
    (hended : ∀ i, t.phase i = .getCrd ∨ t.phase i = .done ∨ ∃ stage, t.phase i = .failed stage) :
    ∃ i, t.phase i = .done := by
  have hprogress : Progress t := by
    have hstart : Progress s := .installing fun j => .inl (hstarts j)
    clear hstarts hbegun hended
    induction hrun with
    | nil => exact hstart
    | cons hl _ ih =>
      obtain ⟨i, rfl⟩ := hcalls _ List.mem_cons_self
      exact ih (fun l hin => hcalls l (List.mem_cons_of_mem _ hin)) (progress_call hstart hl)
  cases hprogress with
  | ended i hdone => exact ⟨i, hdone⟩
  | registering i hphase _ =>
    rcases hended i with hi | hi | ⟨stage, hi⟩ <;> rw [hi] at hphase <;> simp at hphase
  | installing hphase =>
    obtain ⟨i, hi⟩ := hbegun
    have hput := (hphase i).resolve_left hi
    rcases hended i with hi | hi | ⟨stage, hi⟩ <;> rw [hi] at hput <;> cases hput

def upgrades (i : Bool) : Start String := ⟨if i then "v2" else "v1", none⟩

def race : List (Label Bool String) :=
  [.call true .ok, .call false .ok, .call false .ok, .call true .ok, .call false .ok,
    .call false .ok]

def raced : State Bool String := (exec (step .basic upgrades) {} race).getD {}

theorem some_start_succeeds_raced : ∃ i, raced.phase i = .done := by
  have hrun : Run (step .basic upgrades) {} race raced := run_of_exec rfl
  refine some_start_succeeds (fun _ => rfl) hrun ?_ ⟨true, fun h => by cases h⟩ ?_
  · intro l hl
    simp only [race, List.mem_cons, List.not_mem_nil, or_false] at hl
    rcases hl with rfl | rfl | rfl | rfl | rfl | rfl <;> exact ⟨_, rfl⟩
  · intro i
    cases i
    · exact .inr (.inl rfl)
    · exact .inr (.inr ⟨.createCrd, rfl⟩)

/-! ## Conflicts -/

theorem step_registration {l : Label ι γ} (hstep : step api starts s l = some u) :
    Follows s.registration u.registration := by
  cases step_cases hstep with
  | getCrd _ _ _ hu | putCrd _ _ _ _ hu | getRegistration _ _ _ hu | editCrd _ hu =>
    rw [hu]
    exact .inl rfl
  | editRegistration x hu =>
    rw [hu]
    exact follows_write _ _
  | putRegistration j answer old _ hu =>
    rw [hu]
    rcases putRegistration_cases api (starts j) old answer s.registration with
      ⟨-, -, -, heq⟩ | ⟨stage, heq | heq | heq⟩ <;> simp only [State.setPhase_registration, heq]
    · exact .inl rfl
    · exact .inl rfl
    · exact follows_write _ _
    · exact follows_write _ _

theorem run_phase {s : State ι γ} (hrun : Run (step api starts) s ls t)
    (hothers : ∀ l ∈ ls, ∀ answer, l ≠ .call i answer) : t.phase i = s.phase i := by
  induction hrun with
  | nil => rfl
  | cons hl _ ih =>
    exact (ih fun l hin => hothers l (List.mem_cons_of_mem _ hin)).trans
      (step_phase hl (hothers _ List.mem_cons_self))

/-- A start that has read a registration gets its own in place of it just when nobody changed
the registration in between. -/
theorem replaced_iff {v : State ι γ} (hphase : s.phase i = .getRegistration)
    (hthere : s.registration.value ≠ none) (hget : step api starts s (.call i .ok) = some t)
    (hrun : Run (step api starts) t ls u) (hothers : ∀ l ∈ ls, ∀ answer, l ≠ .call i answer)
    (hput : step api starts u (.call i .ok) = some v) :
    v.phase i = .done ↔
      Along (step api starts) (fun s _ u => u.registration = s.registration) t ls := by
  obtain ⟨obj, hobj⟩ := Option.ne_none_iff_exists'.mp hthere
  have ht : t = s.setPhase i (.putRegistration (readRegistration s.registration)) := by
    simp only [step, call, hphase, received, Option.some.injEq] at hget
    exact hget.symm
  have hread : u.phase i = .putRegistration (readRegistration s.registration) := by
    rw [run_phase hrun hothers, ht, State.setPhase_phase, if_pos rfl]
  have hsame : t.registration = s.registration := by
    rw [ht]
    rfl
  have hversion := version_eq_iff State.registration
    (fun _ _ _ => step_registration) hrun
  have hv : v.phase i = .done ↔
      (u.registration.replace s.registration.version
        (api.storeRegistration u.registration.value (registrationFor (starts i)))).isSome = true := by
    simp only [step, call, hread, Option.some.injEq] at hput
    rw [← hput, State.setPhase_phase, if_pos rfl]
    simp only [readRegistration, hobj, Option.map_some, putRegistration, APIService.withVersion,
      written, Answer.perform_ok]
    split <;> simp [*]
  rw [hv, Option.isSome_iff_exists, ← hversion, hsame]
  constructor
  · intro haccepted
    obtain ⟨c, hc⟩ := haccepted
    exact (replace_eq_some.mp hc).1.2
  · intro heq
    have hkept := run_unchanged State.registration hrun (hversion.mp (hsame ▸ heq))
    refine ⟨_, replace_eq_some.mpr ⟨⟨?_, heq⟩, rfl⟩⟩
    rw [hkept, hsame, hobj]
    rfl

def registered : State Bool String where
  registration := ⟨some (registrationFor firstVersion), 7⟩
  phase _ := .getRegistration

def statusWrite : Label Bool String :=
  .editRegistration (some
    { registrationFor firstVersion with status := some ⟨some [⟨"Available", "True"⟩]⟩ })

def conflicted : State Bool String :=
  (exec (step .basic upgrades) registered [.call true .ok, statusWrite, .call true .ok]).getD {}

def otherStart : List (Label Bool String) := [.call false .ok, .call false .ok]

def agreed : State Bool String :=
  (exec (step .basic fun _ => firstVersion) registered
    (.call true .ok :: otherStart ++ [.call true .ok])).getD {}

/-- A status that is written in between is a conflict; the same manifest of another start is
none. -/
theorem replaced_iff_conflicted : conflicted.phase true ≠ .done ∧ agreed.phase true = .done := by
  let seen := registered.setPhase true (.putRegistration (readRegistration registered.registration))
  constructor
  · have hrun : Run (step .basic upgrades) seen [statusWrite] _ := run_of_exec rfl
    have hiff := replaced_iff (s := registered) (i := true) (v := conflicted) rfl
      (by simp [registered]) rfl hrun (by simp [statusWrite]) rfl
    intro hdone
    have hversion := congrArg Versioned.version (hiff.mp hdone _ rfl).1
    cases hversion
  · have hrun : Run (step .basic fun _ => firstVersion) seen otherStart _ := run_of_exec rfl
    have hiff := replaced_iff (s := registered) (i := true) (v := agreed) rfl
      (by simp [registered]) rfl hrun (by simp [otherStart]) rfl
    refine hiff.mpr fun u hu => ?_
    obtain rfl := Option.some.inj hu
    refine ⟨rfl, fun v hv => ?_⟩
    obtain rfl := Option.some.inj hv
    exact ⟨rfl, trivial⟩

end Installation
end WadmOperator

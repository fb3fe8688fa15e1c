import WadmOperator.Foundation.Transition

/-!
# Objects with versions

An object store gives an object a new version with every accepted write that changes it. A
create is accepted while there is no object, a replace while the object has the version that
the writer has seen, and an upsert always. `Answer` is what becomes of a request on its way:
a refused one has no effect, and the effect of a lost one is not learned.
-/

structure Versioned (α : Type) where
  value : Option α := none
  version : Nat := 0

namespace Versioned

variable {α σ ι : Type} {c c' : Versioned α} {a : α} {seen : Nat}

/-- The object as it is, or at a later version. -/
def Follows (c c' : Versioned α) : Prop := c' = c ∨ c.version < c'.version

section Writes

variable [DecidableEq α]

def write (x : Option α) (c : Versioned α) : Versioned α :=
  if x = c.value then c else ⟨x, c.version + 1⟩

@[simp] theorem write_value (x : Option α) (c : Versioned α) : (c.write x).value = x := by
  unfold write
  split
  · next h => exact h.symm
  · rfl

theorem follows_write (x : Option α) (c : Versioned α) : Follows c (c.write x) := by
  unfold write
  split
  · exact .inl rfl
  · exact .inr (Nat.lt_succ_self _)

def create (a : α) (c : Versioned α) : Option (Versioned α) :=
  if c.value.isNone then some (c.write (some a)) else none

def replace (seen : Nat) (a : α) (c : Versioned α) : Option (Versioned α) :=
  if c.value.isSome && c.version == seen then some (c.write (some a)) else none

def upsert (f : Option α → α) (c : Versioned α) : Option (Versioned α) :=
  some (c.write (some (f c.value)))

theorem create_eq_some : c.create a = some c' ↔ c.value = none ∧ c' = c.write (some a) := by
  rw [create, Option.ite_none_right_eq_some, Option.isNone_iff_eq_none, Option.some.injEq]
  exact and_congr_right fun _ => eq_comm

theorem replace_eq_some : c.replace seen a = some c' ↔
    (c.value.isSome = true ∧ c.version = seen) ∧ c' = c.write (some a) := by
  rw [replace, Option.ite_none_right_eq_some, Bool.and_eq_true, beq_iff_eq, Option.some.injEq]
  exact and_congr_right fun _ => eq_comm

end Writes

inductive Answer where
  | ok | refused | lost
  deriving DecidableEq

def Answer.perform (accepted : Option (Versioned α)) (c : Versioned α) : Answer → Versioned α × Bool
  | .ok =>
    match accepted with
    | some c' => (c', true)
    | none => (c, false)
  | .refused => (c, false)
  | .lost => (accepted.getD c, false)

variable {accepted : Option (Versioned α)} {answer : Answer}

theorem Answer.perform_cell (answer : Answer) (accepted : Option (Versioned α))
    (c : Versioned α) : (answer.perform accepted c).1 = c ∨
    ∃ c', accepted = some c' ∧ (answer.perform accepted c).1 = c' := by
  cases answer <;> cases accepted <;> simp [Answer.perform]

theorem Answer.perform_accepted (h : (answer.perform accepted c).2 = true) :
    ∃ c', accepted = some c' ∧ (answer.perform accepted c).1 = c' := by
  cases answer <;> cases accepted <;> simp [Answer.perform] at h ⊢

theorem Answer.perform_ok : (Answer.ok.perform accepted c).2 = accepted.isSome := by
  cases accepted <;> rfl

section Runs

open Transition

variable {step : σ → ι → Option σ} (cell : σ → Versioned α) {s t : σ} {ls : List ι}

theorem version_le (hstep : ∀ s l u, step s l = some u → Follows (cell s) (cell u))
    (hrun : Run step s ls t) : (cell s).version ≤ (cell t).version := by
  induction hrun with
  | nil => exact Nat.le_refl _
  | cons hl _ ih =>
    refine Nat.le_trans ?_ ih
    rcases hstep _ _ _ hl with heq | hlt
    · exact Nat.le_of_eq (congrArg version heq.symm)
    · exact Nat.le_of_lt hlt

/-- The version is the one that was seen just when nothing has changed in between. -/
theorem version_eq_iff (hstep : ∀ s l u, step s l = some u → Follows (cell s) (cell u))
    (hrun : Run step s ls t) : (cell t).version = (cell s).version ↔
      Along step (fun s _ u => cell u = cell s) s ls := by
  induction hrun with
  | nil => exact iff_of_true rfl trivial
  | cons hl hrest ih =>
    have hle := version_le cell hstep hrest
    constructor
    · intro hversion v hv
      obtain rfl := Option.some.inj (hl.symm.trans hv)
      rcases hstep _ _ _ hl with heq | hlt
      · exact ⟨heq, ih.mp (by rw [hversion, heq])⟩
      · omega
    · intro halong
      obtain ⟨heq, hrest⟩ := halong _ hl
      rw [ih.mpr hrest, heq]

theorem run_unchanged (hrun : Run step s ls t)
    (halong : Along step (fun s _ u => cell u = cell s) s ls) : cell t = cell s := by
  induction hrun with
  | nil => rfl
  | cons hl _ ih =>
    obtain ⟨heq, hrest⟩ := halong _ hl
    exact (ih hrest).trans heq

end Runs
end Versioned

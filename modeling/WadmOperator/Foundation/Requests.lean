import Mathlib.Data.List.Nodup
import Mathlib.Logic.Function.Basic
import WadmOperator.Foundation.Transition

/-!
# Clients of one server

Programs ask a server that keeps a state, and every client takes its requests one at a time
between those of the others. A program that only its last request may change the server
behaves as if it was run at once when that request is made, provided that the answers it got
before are those it would get now.
-/

namespace Requests

inductive Prog (Q : Type) (A : Q → Type) (R : Type) where
  | done (r : R)
  | ask (q : Q) (k : A q → Prog Q A R)

structure Server (Q : Type) (A : Q → Type) (reads : Q → Prop) (σ : Type) where
  answer : σ → (q : Q) → A q
  after : σ → Q → σ
  after_read (s) (q) : reads q → after s q = s

variable {Q R σ ι : Type} {A : Q → Type} {reads : Q → Prop} (srv : Server Q A reads σ)

namespace Prog

def run : Prog Q A R → σ → σ × R
  | done r, s => (s, r)
  | ask q k, s => run (k (srv.answer s q)) (srv.after s q)

def result : Prog Q A R → Option R
  | done r => some r
  | ask _ _ => none

def asks : Prog Q A R → Option Q
  | done _ => none
  | ask q _ => some q

/-- All requests but the last one only read. -/
inductive Commits (reads : Q → Prop) : Prog Q A R → Prop
  | done (r : R) : Commits reads (done r)
  | last {q : Q} {k : A q → Prog Q A R} (h : ∀ a, ∃ r, k a = .done r) : Commits reads (ask q k)
  | read {q : Q} {k : A q → Prog Q A R} (hq : reads q) (h : ∀ a, Commits reads (k a)) :
      Commits reads (ask q k)

inductive Upto (s : σ) : Prog Q A R → Prog Q A R → Prop
  | refl (p : Prog Q A R) : Upto s p p
  | read {q : Q} {k : A q → Prog Q A R} {p : Prog Q A R} (hq : reads q)
      (h : Upto s (k (srv.answer s q)) p) : Upto s (ask q k) p

def All (T : Q → Prop) : Prog Q A R → Prop
  | done _ => True
  | ask q k => T q ∧ ∀ a, All T (k a)

variable {srv} {s s' : σ} {p p' : Prog Q A R}

theorem Upto.run_eq (h : Upto srv s p p') : p.run srv s = p'.run srv s := by
  induction h with
  | refl => rfl
  | read hq _ ih =>
    rw [run, srv.after_read s _ hq]
    exact ih

theorem Upto.snoc {q : Q} {k : A q → Prog Q A R} (h : Upto srv s p (ask q k))
    (hq : reads q) : Upto srv s p (k (srv.answer s q)) := by
  generalize hp : ask q k = p' at h
  induction h with
  | refl =>
    subst hp
    exact .read hq (.refl _)
  | read hq' _ ih => exact .read hq' (ih hp)

theorem Upto.mono {T : Q → Prop} (h : Upto srv s p p') (hp : p.All T)
    (hsame : ∀ q, T q → reads q → srv.answer s' q = srv.answer s q) :
    Upto srv s' p p' := by
  induction h with
  | refl => exact .refl _
  | read hq _ ih =>
    refine .read hq ?_
    rw [hsame _ hp.1 hq]
    exact ih (hp.2 _)

theorem Commits.unfinished {q : Q} {k : A q → Prog Q A R} (h : Commits reads (ask q k)) {a : A q}
    (hresult : (k a).result = none) : reads q := by
  cases h with
  | last hlast =>
    obtain ⟨r, hr⟩ := hlast a
    rw [hr] at hresult
    cases hresult
  | read hq _ => exact hq

theorem Commits.next {q : Q} {k : A q → Prog Q A R} (h : Commits reads (ask q k)) (a : A q) :
    Commits reads (k a) := by
  cases h with
  | last hlast =>
    obtain ⟨r, hr⟩ := hlast a
    rw [hr]
    exact .done r
  | read _ hnext => exact hnext a

end Prog

open Prog

/-! ## One request at a time -/

structure Clients (Q : Type) (A : Q → Type) (R σ ι : Type) where
  server : σ
  prog : ι → Prog Q A R

variable [DecidableEq ι]

namespace Clients

def step (c : Clients Q A R σ ι) (i : ι) : Option (Clients Q A R σ ι) :=
  match c.prog i with
  | .done _ => none
  | .ask q k =>
    some ⟨srv.after c.server q, Function.update c.prog i (k (srv.answer c.server q))⟩

def whole (c : Clients Q A R σ ι) (i : ι) : Clients Q A R σ ι :=
  let (s, r) := (c.prog i).run srv c.server
  ⟨s, Function.update c.prog i (.done r)⟩

variable {srv} {c₀ c c' d : Clients Q A R σ ι} {i : ι} {schedule : List ι}

theorem step_eq_some (h : c.step srv i = some c') : ∃ q k, c.prog i = .ask q k ∧
    c' = ⟨srv.after c.server q, Function.update c.prog i (k (srv.answer c.server q))⟩ := by
  unfold step at h
  cases hp : c.prog i with
  | done r =>
    rw [hp] at h
    cases h
  | ask q k =>
    rw [hp] at h
    exact ⟨q, k, rfl, (Option.some.inj h).symm⟩

structure Matches (srv : Server Q A reads σ) (c₀ d c : Clients Q A R σ ι) : Prop where
  server : d.server = c.server
  ended : ∀ i, (c.prog i).result ≠ none → d.prog i = c.prog i
  waiting : ∀ i, (c.prog i).result = none → d.prog i = c₀.prog i
  commits : ∀ i, (c.prog i).Commits reads

theorem Matches.read (h : Matches srv c₀ d c) (hstep : c.step srv i = some c')
    (hresult : (c'.prog i).result = none) : Matches srv c₀ d c' := by
  obtain ⟨q, k, hp, rfl⟩ := step_eq_some hstep
  simp only [Function.update_self] at hresult
  have hcommits := h.commits i
  rw [hp] at hcommits
  have hq := hcommits.unfinished hresult
  refine ⟨h.server.trans (srv.after_read c.server q hq).symm, fun j hj => ?_, fun j hj => ?_,
    fun j => ?_⟩
  all_goals by_cases hji : j = i
  · subst hji
    simp only [Function.update_self] at hj
    exact absurd hresult hj
  · simp only [Function.update_of_ne hji] at hj ⊢
    exact h.ended j hj
  · subst hji
    exact h.waiting j (by rw [hp]; rfl)
  · simp only [Function.update_of_ne hji] at hj
    exact h.waiting j hj
  · subst hji
    simp only [Function.update_self]
    exact hcommits.next _
  · simp only [Function.update_of_ne hji]
    exact h.commits j

theorem Matches.finish (h : Matches srv c₀ d c) (hstep : c.step srv i = some c')
    (hresult : (c'.prog i).result ≠ none)
    (hupto : Upto srv c.server (c₀.prog i) (c.prog i)) :
    Matches srv c₀ (d.whole srv i) c' := by
  obtain ⟨q, k, hp, rfl⟩ := step_eq_some hstep
  simp only [Function.update_self] at hresult
  obtain ⟨r, hr⟩ : ∃ r, k (srv.answer c.server q) = .done r := by
    cases hk : k (srv.answer c.server q) with
    | done r => exact ⟨r, rfl⟩
    | ask _ _ =>
      rw [hk] at hresult
      exact absurd rfl hresult
  have hwait : d.prog i = c₀.prog i := h.waiting i (by rw [hp]; rfl)
  have hrun : (d.prog i).run srv d.server = (srv.after c.server q, r) := by
    rw [hwait, h.server, hupto.run_eq, hp, Prog.run, hr]
    rfl
  have hcommits := h.commits i
  rw [hp] at hcommits
  rw [whole, hrun]
  refine ⟨rfl, fun j hj => ?_, fun j hj => ?_, fun j => ?_⟩
  all_goals by_cases hji : j = i
  · subst hji
    simp only [Function.update_self, hr]
  · simp only [Function.update_of_ne hji] at hj ⊢
    exact h.ended j hj
  · subst hji
    simp only [Function.update_self, hr] at hj
    cases hj
  · simp only [Function.update_of_ne hji] at hj ⊢
    exact h.waiting j hj
  · subst hji
    simp only [Function.update_self]
    exact hcommits.next _
  · simp only [Function.update_of_ne hji]
    exact h.commits j

variable {T : ι → Q → Prop}

def Spares (srv : Server Q A reads σ) (T : ι → Q → Prop) (c₀ c : Clients Q A R σ ι) (i : ι)
    (c' : Clients Q A R σ ι) : Prop :=
  ∀ j ≠ i, c.prog j ≠ c₀.prog j → (c.prog j).result = none → ∀ q, T j q → reads q →
    srv.answer c'.server q = srv.answer c.server q

structure Current (srv : Server Q A reads σ) (c₀ c : Clients Q A R σ ι) : Prop where
  upto : ∀ i, (c.prog i).result = none → Upto srv c.server (c₀.prog i) (c.prog i)
  commits : ∀ i, (c.prog i).Commits reads

theorem Current.step (hall : ∀ i, (c₀.prog i).All (T i)) (h : Current srv c₀ c)
    (hstep : c.step srv i = some c') (hspares : Spares srv T c₀ c i c') :
    Current srv c₀ c' := by
  obtain ⟨q, k, hp, rfl⟩ := step_eq_some hstep
  have hcommits := h.commits i
  rw [hp] at hcommits
  refine ⟨fun j hj => ?_, fun j => ?_⟩
  all_goals by_cases hji : j = i
  · subst hji
    simp only [Function.update_self] at hj ⊢
    have hq := hcommits.unfinished hj
    have hupto := h.upto j (by rw [hp]; rfl)
    rw [hp] at hupto
    rw [srv.after_read c.server q hq]
    exact hupto.snoc hq
  · have hthere := hspares j hji
    simp only [Function.update_of_ne hji] at hj hthere ⊢
    by_cases hsame : c.prog j = c₀.prog j
    · rw [hsame]
      exact .refl _
    · exact (h.upto j hj).mono (hall j) (hthere hsame hj)
  · subst hji
    simp only [Function.update_self]
    exact hcommits.next _
  · simp only [Function.update_of_ne hji]
    exact h.commits j

end Clients
end Requests

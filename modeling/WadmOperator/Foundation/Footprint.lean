import Mathlib.Data.List.Induction
import Mathlib.Data.Set.Lattice
import Mathlib.Order.CompletePartialOrder

/-!
# Footprints of repeatable procedures

A procedure works on a state and may stop with an error; what it did before stays done.
A state is looked at through a family of views, one for each location. `Footprint` says
that a procedure reads only `R`, changes only `W`, and that doing it again changes nothing
and answers the same, as long as its locations were left alone. Sequencing keeps this
when the later part does not write what the earlier part reads. Procedures with disjoint
footprints reach the same state in every order and with any repetitions.
-/

abbrev Procedure (σ ε α : Type) := ExceptT ε (StateM σ) α

namespace Procedure

variable {σ ε α β : Type}

theorem bind_eq (x : Procedure σ ε α) (f : α → Procedure σ ε β) (s : σ) :
    (x >>= f) s = match x s with
      | (.ok a, t) => f a t
      | (.error e, t) => (.error e, t) := by
  change (ExceptT.bindCont f (x s).1) (x s).2 = _
  rcases x s with ⟨_ | _, _⟩ <;> rfl

@[simp] theorem pure_apply (a : α) (s : σ) : (pure a : Procedure σ ε α) s = (.ok a, s) := rfl

@[simp] theorem throw_apply (e : ε) (s : σ) : (throw e : Procedure σ ε α) s = (.error e, s) := rfl

theorem bind_eq_ok {x : Procedure σ ε α} {f : α → Procedure σ ε β} {s u : σ} {b : β}
    (h : (x >>= f) s = (.ok b, u)) : ∃ a t, x s = (.ok a, t) ∧ f a t = (.ok b, u) := by
  rw [bind_eq] at h
  split at h
  · next a t ht => exact ⟨a, t, ht, h⟩
  · cases (Prod.mk.inj h).1

theorem bind_of_ok {x : Procedure σ ε α} {f : α → Procedure σ ε β} {s t : σ} {a : α}
    (h : x s = (.ok a, t)) : (x >>= f) s = f a t := by
  rw [bind_eq, h]

theorem pure_eq_ok {a b : α} {s u : σ} (h : (pure a : Procedure σ ε α) s = (.ok b, u)) :
    b = a ∧ u = s := by
  obtain ⟨hok, hu⟩ := Prod.mk.inj h
  exact ⟨(Except.ok.inj hok).symm, hu.symm⟩

theorem ofExcept_apply (r : Except ε α) (s : σ) : (ofExcept r : Procedure σ ε α) s = (r, s) := by
  cases r <;> rfl

theorem ofExcept_eq_ok {r : Except ε α} {a : α} {s u : σ}
    (h : (ofExcept r : Procedure σ ε α) s = (.ok a, u)) : r = .ok a ∧ u = s := by
  rw [ofExcept_apply] at h
  obtain ⟨hok, hu⟩ := Prod.mk.inj h
  exact ⟨hok, hu.symm⟩

theorem mapError_eq_ok {ε' : Type} {r : Except ε' α} {f : ε' → ε} {a : α} {s u : σ}
    (h : (ofExcept (r.mapError f) : Procedure σ ε α) s = (.ok a, u)) : r = .ok a ∧ u = s := by
  obtain ⟨hok, hu⟩ := ofExcept_eq_ok h
  refine ⟨?_, hu⟩
  cases r with
  | error e => cases hok
  | ok b => exact congrArg Except.ok (Except.ok.inj hok)

theorem throw_ne_ok {e : ε} {a : α} {s u : σ} :
    (throw e : Procedure σ ε α) s ≠ (.ok a, u) := by
  intro h
  cases (Prod.mk.inj h).1

def Succeeds (x : Procedure σ ε α) (s : σ) : Prop := ∃ a t, x s = (.ok a, t)

theorem Succeeds.bind {x : Procedure σ ε α} {f : α → Procedure σ ε β} {s : σ} (hx : Succeeds x s)
    (hf : ∀ a t, x s = (.ok a, t) → Succeeds (f a) t) : Succeeds (x >>= f) s := by
  obtain ⟨a, t, hs⟩ := hx
  obtain ⟨b, u, ht⟩ := hf a t hs
  exact ⟨b, u, (bind_of_ok hs).trans ht⟩

theorem Succeeds.pure (a : α) (s : σ) : Succeeds (pure a : Procedure σ ε α) s := ⟨a, s, rfl⟩

theorem Succeeds.ofExcept {r : Except ε α} {a : α} (h : r = .ok a) (s : σ) :
    Succeeds (ofExcept r : Procedure σ ε α) s :=
  ⟨a, s, by rw [ofExcept_apply, h]⟩

def ReadOnly (x : Procedure σ ε α) : Prop := ∀ s, (x s).2 = s

theorem ReadOnly.pure (a : α) : ReadOnly (pure a : Procedure σ ε α) := fun _ => rfl

theorem ReadOnly.throw (e : ε) : ReadOnly (throw e : Procedure σ ε α) := fun _ => rfl

theorem ReadOnly.ofExcept (r : Except ε α) : ReadOnly (ofExcept r : Procedure σ ε α) := by
  intro s
  rw [ofExcept_apply]

theorem ReadOnly.bind {x : Procedure σ ε α} {f : α → Procedure σ ε β} (hx : ReadOnly x)
    (hf : ∀ a, ReadOnly (f a)) : ReadOnly (x >>= f) := by
  intro s
  have hs := hx s
  rw [bind_eq]
  rcases hxs : x s with ⟨e | a, t⟩
  · rw [hxs] at hs
    exact hs
  · rw [hxs] at hs
    rw [hf a t]
    exact hs

theorem ReadOnly.eq {x : Procedure σ ε α} (h : ReadOnly x) {s u : σ} {r : Except ε α}
    (hs : x s = (r, u)) : u = s := by
  rw [← h s, hs]

def FailsWith (P : ε → Prop) (x : Procedure σ ε α) : Prop := ∀ s e u, x s = (.error e, u) → P e

theorem FailsWith.pure {P : ε → Prop} (a : α) : FailsWith P (pure a : Procedure σ ε α) := by
  intro s e u h
  cases (Prod.mk.inj h).1

theorem FailsWith.throw {P : ε → Prop} {e : ε} (he : P e) :
    FailsWith P (throw e : Procedure σ ε α) := by
  intro s e' u h
  obtain rfl := Except.error.inj (Prod.mk.inj h).1
  exact he

theorem FailsWith.bind {P : ε → Prop} {x : Procedure σ ε α} {f : α → Procedure σ ε β}
    (hx : FailsWith P x) (hf : ∀ a, FailsWith P (f a)) : FailsWith P (x >>= f) := by
  intro s e u h
  rw [bind_eq] at h
  rcases hs : x s with ⟨e' | a, t⟩
  · rw [hs] at h
    obtain rfl := Except.error.inj (Prod.mk.inj h).1
    exact hx s e' t hs
  · rw [hs] at h
    exact hf a t e u h

section Keeps

variable {τ : Type} {g : σ → τ}

def Keeps (g : σ → τ) (x : Procedure σ ε α) : Prop := ∀ s, g (x s).2 = g s

def KeepsOnError (g : σ → τ) (x : Procedure σ ε α) : Prop :=
  ∀ s e, (x s).1 = .error e → g (x s).2 = g s

theorem ReadOnly.keeps {x : Procedure σ ε α} (h : ReadOnly x) : Keeps g x :=
  fun s => congrArg g (h s)

theorem Keeps.bind {x : Procedure σ ε α} {f : α → Procedure σ ε β} (hx : Keeps g x)
    (hf : ∀ a, Keeps g (f a)) : Keeps g (x >>= f) := by
  intro s
  have hs := hx s
  rw [bind_eq]
  rcases hxs : x s with ⟨e | a, t⟩ <;> rw [hxs] at hs
  · exact hs
  · exact (hf a t).trans hs

theorem KeepsOnError.bind {x : Procedure σ ε α} {f : α → Procedure σ ε β} (hx : Keeps g x)
    (hf : ∀ a, KeepsOnError g (f a)) : KeepsOnError g (x >>= f) := by
  intro s e he
  have hs := hx s
  rw [bind_eq] at he ⊢
  rcases hxs : x s with ⟨e' | a, t⟩ <;> rw [hxs] at hs he
  · exact hs
  · exact (hf a t e he).trans hs

end Keeps
end Procedure

section

variable {σ ε α β ι : Type} {ν : ι → Type} {view : (i : ι) → σ → ν i} {I : σ → Prop}
  {R R' W W' : Set ι}

def Agree (view : (i : ι) → σ → ν i) (R : Set ι) (s t : σ) : Prop :=
  ∀ i ∈ R, view i s = view i t

theorem Agree.refl (R : Set ι) (s : σ) : Agree view R s s := fun _ _ => rfl

theorem Agree.symm {s t : σ} (h : Agree view R s t) : Agree view R t s :=
  fun i hi => (h i hi).symm

theorem Agree.trans {s t u : σ} (h : Agree view R s t) (h' : Agree view R t u) :
    Agree view R s u :=
  fun i hi => (h i hi).trans (h' i hi)

theorem Agree.mono {s t : σ} (h : Agree view R' s t) (hR : R ⊆ R') : Agree view R s t :=
  fun i hi => h i (hR hi)

structure Footprint (view : (i : ι) → σ → ν i) (I : σ → Prop) (R W : Set ι)
    (x : Procedure σ ε α) : Prop where
  sub : W ⊆ R
  keeps : ∀ s, I s → I (x s).2
  frame : ∀ s, I s → ∀ i, i ∉ W → view i (x s).2 = view i s
  congr : ∀ s t, I s → I t → Agree view R s t →
    (x s).1 = (x t).1 ∧ Agree view W (x s).2 (x t).2
  again : ∀ s t, I s → I t → Agree view R (x s).2 t →
    (x t).1 = (x s).1 ∧ ∀ i, view i (x t).2 = view i t

def MayAnswer (I : σ → Prop) (x : Procedure σ ε α) (a : α) : Prop :=
  ∃ s, I s ∧ (x s).1 = .ok a

namespace Footprint

variable {x : Procedure σ ε α} {f : α → Procedure σ ε β}

theorem agree_after (h : Footprint view I R W x) {T : Set ι} (hT : R ⊆ T) {s t : σ} (hs : I s)
    (ht : I t) (hagree : Agree view T s t) : Agree view T (x s).2 (x t).2 := by
  intro i hi
  by_cases hW : i ∈ W
  · exact (h.congr s t hs ht (hagree.mono hT)).2 i hW
  · rw [h.frame s hs i hW, h.frame t ht i hW, hagree i hi]

theorem mono (h : Footprint view I R W x) (hR : R ⊆ R') (hW : W ⊆ W') (hsub : W' ⊆ R') :
    Footprint view I R' W' x where
  sub := hsub
  keeps := h.keeps
  frame s hs i hi := h.frame s hs i fun hmem => hi (hW hmem)
  congr s t hs ht hagree := ⟨(h.congr s t hs ht (hagree.mono hR)).1,
    (h.agree_after hR hs ht hagree).mono hsub⟩
  again s t hs ht hagree := h.again s t hs ht (hagree.mono hR)

theorem blind (r : Except ε α) (g : σ → σ) (hx : ∀ s, x s = (r, g s))
    (hkeeps : ∀ s, I s → I (g s)) (hview : ∀ s i, view i (g s) = view i s) :
    Footprint view I ∅ ∅ x where
  sub := Set.Subset.refl _
  keeps s hs := by rw [hx]; exact hkeeps s hs
  frame s _ i _ := by rw [hx]; exact hview s i
  congr s t _ _ _ := ⟨by rw [hx, hx], fun i hi => absurd hi (Set.notMem_empty i)⟩
  again s t _ _ _ := ⟨by rw [hx, hx], fun i => by rw [hx]; exact hview t i⟩

theorem read (g : σ → Except ε α) (hx : ∀ s, x s = (g s, s))
    (hg : ∀ s t, I s → I t → Agree view R s t → g s = g t) : Footprint view I R ∅ x where
  sub := Set.empty_subset _
  keeps s hs := by rw [hx]; exact hs
  frame s _ i _ := by rw [hx]
  congr s t hs ht hagree := by
    rw [hx, hx]
    exact ⟨hg s t hs ht hagree, fun i hi => absurd hi (Set.notMem_empty i)⟩
  again s t hs ht hagree := by
    rw [hx] at hagree ⊢
    rw [hx]
    exact ⟨(hg s t hs ht hagree).symm, fun _ => rfl⟩

theorem still (r : Except ε α) (hx : ∀ s, x s = (r, s)) : Footprint view I R ∅ x :=
  read (fun _ => r) hx fun _ _ _ _ _ => rfl

theorem write {i : ι} (r : Except ε α) (g : σ → σ) (val : ν i → ν i) (hx : ∀ s, x s = (r, g s))
    (hkeeps : ∀ s, I s → I (g s)) (hat : ∀ s, view i (g s) = val (view i s))
    (hoff : ∀ s j, j ≠ i → view j (g s) = view j s) (hval : ∀ v, val (val v) = val v) :
    Footprint view I {i} {i} x where
  sub := Set.Subset.refl _
  keeps s hs := by rw [hx]; exact hkeeps s hs
  frame s _ j hj := by rw [hx]; exact hoff s j hj
  congr s t _ _ hagree := by
    rw [hx, hx]
    refine ⟨rfl, fun j hj => ?_⟩
    obtain rfl : j = i := hj
    rw [hat, hat, hagree j rfl]
  again s t _ _ hagree := by
    rw [hx] at hagree ⊢
    rw [hx]
    refine ⟨rfl, fun j => ?_⟩
    by_cases hj : j = i
    · subst hj
      have hnow : val (view j s) = view j t := by rw [← hat]; exact hagree j rfl
      rw [hat, ← hnow, hval]
    · exact hoff t j hj

theorem guarded {y : Procedure σ ε α} (refused : Bool) (e : ε) (hy : Footprint view I R W y)
    (hx : ∀ s, x s = if refused then (.error e, s) else y s) : Footprint view I R W x := by
  cases refused with
  | false => exact (funext hx : x = y) ▸ hy
  | true => exact (still (.error e) hx).mono (Set.Subset.refl R) (Set.empty_subset W) hy.sub

theorem bind (hx : Footprint view I R W x)
    (hf : ∀ a, MayAnswer I x a → Footprint view I R' W' (f a)) (hdisj : Disjoint W' R)
    (hsub : W' ⊆ R') : Footprint view I (R ∪ R') (W ∪ W') (x >>= f) where
  sub := Set.union_subset_union hx.sub hsub
  keeps s hs := by
    have hk := hx.keeps s hs
    rw [Procedure.bind_eq]
    rcases hxs : x s with ⟨e | a, t⟩
    · rw [hxs] at hk
      exact hk
    · rw [hxs] at hk
      exact (hf a ⟨s, hs, by rw [hxs]⟩).keeps t hk
  frame s hs i hi := by
    rw [Set.mem_union, not_or] at hi
    have hk := hx.keeps s hs
    have hframe := hx.frame s hs i hi.1
    rw [Procedure.bind_eq]
    rcases hxs : x s with ⟨e | a, t⟩
    · rw [hxs] at hframe
      exact hframe
    · rw [hxs] at hframe hk
      exact ((hf a ⟨s, hs, by rw [hxs]⟩).frame t hk i hi.2).trans hframe
  congr s t hs ht hagree := by
    have hres := (hx.congr s t hs ht (hagree.mono Set.subset_union_left)).1
    have hafter := hx.agree_after Set.subset_union_left hs ht hagree
    have hks := hx.keeps s hs
    have hkt := hx.keeps t ht
    have hW : W ∪ W' ⊆ R ∪ R' := Set.union_subset_union hx.sub hsub
    rw [Procedure.bind_eq, Procedure.bind_eq]
    rcases hxs : x s with ⟨e | a, s₁⟩ <;> rcases hxt : x t with ⟨e' | a', t₁⟩ <;>
      rw [hxs, hxt] at hres hafter <;> rw [hxs] at hks <;> rw [hxt] at hkt
    · obtain rfl := Except.error.inj hres
      exact ⟨rfl, hafter.mono hW⟩
    · cases hres
    · cases hres
    · obtain rfl := Except.ok.inj hres
      have hfa := hf a ⟨s, hs, by rw [hxs]⟩
      exact ⟨(hfa.congr s₁ t₁ hks hkt (hafter.mono Set.subset_union_right)).1,
        (hfa.agree_after Set.subset_union_right hks hkt hafter).mono hW⟩
  again s t hs ht hagree := by
    have hks := hx.keeps s hs
    rw [Procedure.bind_eq] at hagree ⊢
    rw [Procedure.bind_eq]
    rcases hxs : x s with ⟨e | a, s₁⟩ <;> rw [hxs] at hagree hks
    · have hrep := hx.again s t hs ht (by rw [hxs]; exact hagree.mono Set.subset_union_left)
      rcases hxt : x t with ⟨e' | a', t₁⟩ <;> rw [hxt, hxs] at hrep
      · obtain rfl := Except.error.inj hrep.1
        exact ⟨rfl, hrep.2⟩
      · cases hrep.1
    · have hfa := hf a ⟨s, hs, by rw [hxs]⟩
      -- the later part has not touched what the earlier part reads
      have hfirst : Agree view R (x s).2 t := by
        intro i hi
        rw [hxs, ← hagree i (.inl hi)]
        exact (hfa.frame s₁ hks i fun hmem => Set.disjoint_left.mp hdisj hmem hi).symm
      have hrep := hx.again s t hs ht hfirst
      have hkt := hx.keeps t ht
      rcases hxt : x t with ⟨e' | a', t₁⟩ <;> rw [hxt] at hrep hkt <;> rw [hxs] at hrep
      · cases hrep.1
      · obtain rfl := Except.ok.inj hrep.1
        have hrest := hfa.again s₁ t₁ hks hkt fun i hi =>
          (hagree i (.inr hi)).trans (hrep.2 i).symm
        exact ⟨hrest.1, fun i => (hrest.2 i).trans (hrep.2 i)⟩

theorem bind_of_read (hx : Footprint view I R ∅ x)
    (hf : ∀ a, MayAnswer I x a → Footprint view I R' W' (f a)) (hdisj : Disjoint W' R)
    (hsub : W' ⊆ R') : Footprint view I (R ∪ R') W' (x >>= f) := by
  have hboth := hx.bind hf hdisj hsub
  rwa [Set.empty_union] at hboth

theorem bind_read (hx : Footprint view I R ∅ x)
    (hf : ∀ a, MayAnswer I x a → Footprint view I R ∅ (f a)) : Footprint view I R ∅ (x >>= f) := by
  have hboth := hx.bind_of_read hf (Set.empty_disjoint R) (Set.empty_subset R)
  rwa [Set.union_self] at hboth

theorem bind_still (hx : Footprint view I R W x) (hf : ∀ a, ∃ r, ∀ s, f a s = (r, s)) :
    Footprint view I R W (x >>= f) := by
  have hlast : ∀ a, Footprint view I ∅ ∅ (f a) := by
    intro a
    obtain ⟨r, hr⟩ := hf a
    exact still r hr
  have hboth := hx.bind (fun a _ => hlast a) (Set.empty_disjoint R) (Set.Subset.refl _)
  rwa [Set.union_empty, Set.union_empty] at hboth

theorem still_bind (r : Except ε α) (hx : ∀ s, x s = (r, s))
    (hf : ∀ a, Footprint view I R W (f a)) (hsub : W ⊆ R) : Footprint view I R W (x >>= f) := by
  have hx' : Footprint view I ∅ ∅ x := still r hx
  have hboth := hx'.bind_of_read (fun a _ => hf a) (Set.disjoint_empty W) hsub
  rwa [Set.empty_union] at hboth

end Footprint
end

section Schedule

variable {σ ε α ι κ : Type} {ν : ι → Type} {view : (i : ι) → σ → ν i} {I : σ → Prop}
  {S : Set κ} {R W : κ → Set ι} {x : κ → Procedure σ ε α}

def runAll (x : κ → Procedure σ ε α) : σ → List κ → σ
  | s, [] => s
  | s, k :: ks => runAll x (x k s).2 ks

theorem runAll_append (s : σ) (ks js : List κ) :
    runAll x s (ks ++ js) = runAll x (runAll x s ks) js := by
  induction ks generalizing s with
  | nil => rfl
  | cons k ks ih => exact ih _

/-- The procedures keep to their footprints, and none writes what another one reads. -/
structure Separate (view : (i : ι) → σ → ν i) (I : σ → Prop) (S : Set κ) (R W : κ → Set ι)
    (x : κ → Procedure σ ε α) : Prop where
  footprint : ∀ k ∈ S, Footprint view I (R k) (W k) (x k)
  disjoint : ∀ k ∈ S, ∀ j ∈ S, k ≠ j → Disjoint (W k) (R j)

namespace Separate

theorem keeps (h : Separate view I S R W x) {ks : List κ} (hks : ∀ k ∈ ks, k ∈ S) {s : σ}
    (hs : I s) : I (runAll x s ks) := by
  induction ks generalizing s with
  | nil => exact hs
  | cons k ks ih =>
    exact ih (fun j hj => hks j (List.mem_cons_of_mem _ hj))
      ((h.footprint k (hks k List.mem_cons_self)).keeps s hs)

theorem frame_run (h : Separate view I S R W x) {ks : List κ} (hks : ∀ k ∈ ks, k ∈ S) {s : σ}
    (hs : I s) {i : ι} (hi : ∀ k ∈ ks, i ∉ W k) : view i (runAll x s ks) = view i s := by
  induction ks generalizing s with
  | nil => rfl
  | cons k ks ih =>
    have hk := h.footprint k (hks k List.mem_cons_self)
    rw [runAll, ih (fun j hj => hks j (List.mem_cons_of_mem _ hj)) (hk.keeps s hs)
      fun j hj => hi j (List.mem_cons_of_mem _ hj)]
    exact hk.frame s hs i (hi k List.mem_cons_self)

/-- On its own locations a schedule leaves what one run of the procedure leaves. -/
theorem agree_run (h : Separate view I S R W x) {ks : List κ} (hks : ∀ k ∈ ks, k ∈ S) {s : σ}
    (hs : I s) {j : κ} (hj : j ∈ S) :
    (j ∈ ks → Agree view (R j) (runAll x s ks) (x j s).2) ∧
      (j ∉ ks → Agree view (R j) (runAll x s ks) s) := by
  have hxj := h.footprint j hj
  induction ks generalizing s with
  | nil => exact ⟨fun hmem => absurd hmem List.not_mem_nil, fun _ => Agree.refl _ _⟩
  | cons k ks ih =>
    have hk := hks k List.mem_cons_self
    have hxk := h.footprint k hk
    obtain ⟨hin, hout⟩ := ih (fun j hj => hks j (List.mem_cons_of_mem _ hj)) (hxk.keeps s hs)
    by_cases hjk : j = k
    · subst hjk
      refine ⟨fun _ => ?_, fun hnot => absurd List.mem_cons_self hnot⟩
      by_cases hmem : j ∈ ks
      · exact (hin hmem).trans fun i _ =>
          (hxj.again s _ hs (hxj.keeps s hs) (Agree.refl _ _)).2 i
      · exact hout hmem
    · have hother : Agree view (R j) (x k s).2 s := fun i hi =>
        hxk.frame s hs i fun hmem =>
          Set.disjoint_left.mp (h.disjoint k hk j hj (Ne.symm hjk)) hmem hi
      constructor
      · intro hmem
        rcases List.mem_cons.mp hmem with heq | hmem
        · exact absurd heq hjk
        · exact (hin hmem).trans
            (hxj.agree_after (Set.Subset.refl _) (hxk.keeps s hs) hs hother)
      · intro hnot
        exact (hout fun hmem => hnot (List.mem_cons_of_mem _ hmem)).trans hother

theorem answer_run (h : Separate view I S R W x) {ks : List κ} (hks : ∀ k ∈ ks, k ∈ S) {s : σ}
    (hs : I s) {j : κ} (hj : j ∈ S) : (x j (runAll x s ks)).1 = (x j s).1 := by
  have hxj := h.footprint j hj
  obtain ⟨hin, hout⟩ := h.agree_run hks hs hj
  by_cases hmem : j ∈ ks
  · exact (hxj.again s _ hs (h.keeps hks hs) (hin hmem).symm).1
  · exact (hxj.congr _ _ (h.keeps hks hs) hs (hout hmem)).1

/-- Two schedules of the same procedures end with the same views. -/
theorem view_run_eq (h : Separate view I S R W x) {ks js : List κ} (hks : ∀ k, k ∈ ks ↔ k ∈ S)
    (hjs : ∀ k, k ∈ js ↔ k ∈ S) {s : σ} (hs : I s) (i : ι) :
    view i (runAll x s ks) = view i (runAll x s js) := by
  have hks' : ∀ k ∈ ks, k ∈ S := fun k hk => (hks k).mp hk
  have hjs' : ∀ k ∈ js, k ∈ S := fun k hk => (hjs k).mp hk
  by_cases hW : ∃ k ∈ S, i ∈ W k
  · obtain ⟨k, hk, hi⟩ := hW
    have hR := (h.footprint k hk).sub hi
    rw [(h.agree_run hks' hs hk).1 ((hks k).mpr hk) i hR,
      (h.agree_run hjs' hs hk).1 ((hjs k).mpr hk) i hR]
  · rw [h.frame_run hks' hs fun k hk hi => hW ⟨k, hks' k hk, hi⟩,
      h.frame_run hjs' hs fun k hk hi => hW ⟨k, hjs' k hk, hi⟩]

theorem marks_run (h : Separate view I S R W x) {π : Type} {marks : σ → Set π}
    {new : κ → Except ε α → Set π}
    (hnew : ∀ k ∈ S, ∀ s, I s → marks (x k s).2 = marks s ∪ new k (x k s).1)
    {ks : List κ} (hks : ∀ k ∈ ks, k ∈ S) {s : σ} (hs : I s) (p : π) :
    p ∈ marks (runAll x s ks) ↔ p ∈ marks s ∨ ∃ k ∈ ks, p ∈ new k (x k s).1 := by
  induction ks using List.reverseRecOn with
  | nil => simp [runAll]
  | append_singleton ks k ih =>
    have hin : ∀ j ∈ ks, j ∈ S := fun j hj => hks j (List.mem_append_left _ hj)
    have hk : k ∈ S := hks k (List.mem_append_right _ List.mem_cons_self)
    rw [runAll_append, runAll, runAll, hnew k hk _ (h.keeps hin hs), Set.mem_union, ih hin,
      h.answer_run hin hs hk]
    simp only [List.mem_append, List.mem_singleton, or_and_right, exists_or, exists_eq_left,
      or_assoc]

end Separate
end Schedule

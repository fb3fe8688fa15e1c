import WadmOperator.Foundation.Footprint

/-!
# Procedures that stop on the way

An interrupted procedure does what the complete one does, until a call is refused.
`Between` says that each location of a state is as it was at the start or as the complete
procedure leaves it. From such a state an attempt answers what it answers at the start,
and it leaves each location alone or makes it final; when it comes to its end, all are
final. Sequencing keeps this. So of several procedures with separate locations, attempted
in any order and however often, each location is untouched or final, and then stays so.
-/

namespace Procedure

variable {σ ε α β : Type} {x y : Procedure σ ε α} {f g : α → Procedure σ ε β}

/-- What `y` comes to, `x` comes to as well. -/
def Covers (x y : Procedure σ ε α) : Prop := ∀ s a t, y s = (.ok a, t) → x s = (.ok a, t)

theorem Covers.refl (x : Procedure σ ε α) : Covers x x := fun _ _ _ h => h

theorem Covers.bind (hxy : Covers x y) (hfg : ∀ a, Covers (f a) (g a)) :
    Covers (x >>= f) (y >>= g) := by
  intro s b u h
  obtain ⟨a, t, hy, hg⟩ := bind_eq_ok h
  exact (bind_of_ok (hxy s a t hy)).trans (hfg a t b u hg)

def Respects (ρ : σ → σ → Prop) (x : Procedure σ ε α) : Prop :=
  ∀ s t, ρ s t → (x s).1 = (x t).1 ∧ ρ (x s).2 (x t).2

theorem Respects.still {ρ : σ → σ → Prop} (r : Except ε α) (hx : ∀ s, x s = (r, s)) :
    Respects ρ x := by
  intro s t hst
  rw [hx, hx]
  exact ⟨rfl, hst⟩

theorem Respects.bind {ρ : σ → σ → Prop} (hx : Respects ρ x) (hf : ∀ a, Respects ρ (f a)) :
    Respects ρ (x >>= f) := by
  intro s t hst
  obtain ⟨hanswer, hafter⟩ := hx s t hst
  rw [bind_eq, bind_eq]
  rcases hs : x s with ⟨e | a, s'⟩ <;> rcases ht : x t with ⟨e' | a', t'⟩ <;>
    rw [hs, ht] at hanswer hafter
  · exact ⟨congrArg Except.error (Except.error.inj hanswer), hafter⟩
  · cases hanswer
  · cases hanswer
  · obtain rfl := Except.ok.inj hanswer
    exact hf a s' t' hafter

def Moves (ρ : σ → σ → Prop) (x : Procedure σ ε α) : Prop := ∀ s, ρ s (x s).2

theorem Keeps.moves {τ : Type} {g : σ → τ} {ρ : σ → σ → Prop} (hx : Keeps g x)
    (hρ : ∀ s t, g t = g s → ρ s t) : Moves ρ x :=
  fun s => hρ s _ (hx s)

theorem Moves.bind {ρ : σ → σ → Prop} (htrans : ∀ s t u, ρ s t → ρ t u → ρ s u)
    (hx : Moves ρ x) (hf : ∀ s a t, x s = (.ok a, t) → ρ t (f a t).2) : Moves ρ (x >>= f) := by
  intro s
  have hs := hx s
  rw [bind_eq]
  rcases hxs : x s with ⟨e | a, t⟩ <;> rw [hxs] at hs
  · exact hs
  · exact htrans s t _ hs (hf s a t hxs)

end Procedure

section

variable {σ ε α β ι : Type} {ν : ι → Type} {view : (i : ι) → σ → ν i} {I : σ → Prop}
  {R R' W W' : Set ι}

def Between (view : (i : ι) → σ → ν i) (R : Set ι) (s u t : σ) : Prop :=
  ∀ i ∈ R, view i t = view i s ∨ view i t = view i u

theorem Between.start (R : Set ι) (s u : σ) : Between view R s u s := fun _ _ => .inl rfl

theorem Between.mono {s u t : σ} (h : Between view R' s u t) (hR : R ⊆ R') :
    Between view R s u t :=
  fun i hi => h i (hR hi)

theorem Agree.between {s u t : σ} (h : Agree view R t s) : Between view R s u t :=
  fun i hi => .inl (h i hi)

/-- `y` does what `x` does, until it is refused something. -/
structure Interrupted (view : (i : ι) → σ → ν i) (I : σ → Prop) (R W : Set ι)
    (x y : Procedure σ ε α) : Prop where
  complete : Footprint view I R W x
  footprint : Footprint view I R W y
  resume : ∀ s t, I s → I t → Between view R s (x s).2 t →
    (y t).1 = (y s).1 ∧ Between view W t (x s).2 (y t).2
  finish : ∀ s t a, I s → I t → Between view R s (x s).2 t → (y t).1 = .ok a →
    (x s).1 = .ok a ∧ Agree view W (y t).2 (x s).2

namespace Interrupted

variable {x y : Procedure σ ε α} {f g : α → Procedure σ ε β}

theorem mono (h : Interrupted view I R W x y) (hR : R ⊆ R') (hW : W ⊆ W') (hsub : W' ⊆ R') :
    Interrupted view I R' W' x y where
  complete := h.complete.mono hR hW hsub
  footprint := h.footprint.mono hR hW hsub
  resume s t hs ht hst := by
    obtain ⟨hanswer, hleft⟩ := h.resume s t hs ht (hst.mono hR)
    refine ⟨hanswer, fun i hi => ?_⟩
    by_cases hiW : i ∈ W
    · exact hleft i hiW
    · exact .inl (h.footprint.frame t ht i hiW)
  finish s t a hs ht hst hok := by
    obtain ⟨hx, hfinal⟩ := h.finish s t a hs ht (hst.mono hR) hok
    refine ⟨hx, fun i hi => ?_⟩
    by_cases hiW : i ∈ W
    · exact hfinal i hiW
    · have hframe := h.complete.frame s hs i hiW
      rw [h.footprint.frame t ht i hiW]
      rcases hst i (hsub hi) with hold | hnew
      · exact hold.trans hframe.symm
      · exact hnew

theorem read (hx : Footprint view I R ∅ x) (hy : Footprint view I R ∅ y)
    (hcovers : Procedure.Covers x y) : Interrupted view I R ∅ x y where
  complete := hx
  footprint := hy
  resume s t hs ht hst := by
    have hsame : Agree view R t s := by
      intro i hi
      rcases hst i hi with hold | hnew
      · exact hold
      · exact hnew.trans (hx.frame s hs i (Set.notMem_empty i))
    exact ⟨(hy.congr t s ht hs hsame).1, fun i hi => absurd hi (Set.notMem_empty i)⟩
  finish s t a hs ht hst hyt := by
    have hsame : Agree view R t s := by
      intro i hi
      rcases hst i hi with hold | hnew
      · exact hold
      · exact hnew.trans (hx.frame s hs i (Set.notMem_empty i))
    have hys : (y s).1 = .ok a := (hy.congr t s ht hs hsame).1.symm.trans hyt
    have hxs := hcovers s a _ (Prod.ext hys rfl)
    exact ⟨congrArg Prod.fst hxs, fun i hi => absurd hi (Set.notMem_empty i)⟩

theorem still (r : Except ε α) (hx : ∀ s, x s = (r, s)) : Interrupted view I R ∅ x x :=
  .read (.still r hx) (.still r hx) (.refl x)

theorem write {i : ι} (h : Footprint view I {i} {i} x) : Interrupted view I {i} {i} x x where
  complete := h
  footprint := h
  resume s t hs ht hst := by
    rcases hst i rfl with hold | hnew
    · have hsame : Agree view {i} t s := fun j hj => by rw [Set.mem_singleton_iff.mp hj, hold]
      obtain ⟨hanswer, hafter⟩ := h.congr t s ht hs hsame
      exact ⟨hanswer, fun j hj => .inr (hafter j hj)⟩
    · have hsame : Agree view {i} (x s).2 t := fun j hj => by
        rw [Set.mem_singleton_iff.mp hj, hnew]
      obtain ⟨hanswer, hafter⟩ := h.again s t hs ht hsame
      exact ⟨hanswer, fun j _ => .inl (hafter j)⟩
  finish s t a hs ht hst hok := by
    rcases hst i rfl with hold | hnew
    · have hsame : Agree view {i} t s := fun j hj => by rw [Set.mem_singleton_iff.mp hj, hold]
      obtain ⟨hanswer, hafter⟩ := h.congr t s ht hs hsame
      exact ⟨hanswer ▸ hok, hafter⟩
    · have hsame : Agree view {i} (x s).2 t := fun j hj => by
        rw [Set.mem_singleton_iff.mp hj, hnew]
      obtain ⟨hanswer, hafter⟩ := h.again s t hs ht hsame
      refine ⟨hanswer ▸ hok, fun j hj => ?_⟩
      rw [hafter j, Set.mem_singleton_iff.mp hj, hnew]

theorem guarded {z : Procedure σ ε α} (refused : Bool) (e : ε) (h : Interrupted view I R W x y)
    (hz : ∀ s, z s = if refused then (.error e, s) else y s) : Interrupted view I R W x z := by
  cases refused with
  | false => exact (funext hz : z = y) ▸ h
  | true =>
    have hrefused : ∀ s, z s = (.error e, s) := hz
    refine ⟨h.complete, .mono (.still (.error e) hrefused) (Set.Subset.refl R)
      (Set.empty_subset W) h.complete.sub, ?_, ?_⟩
    · intro s t _ _ _
      rw [hrefused, hrefused]
      exact ⟨rfl, Between.start _ _ _⟩
    · intro s t a _ _ _ hok
      rw [hrefused] at hok
      cases hok

/-- An attempt that comes to its end leaves what it leaves when it starts from `s`. -/
theorem together (h : Interrupted view I R W x y) {s t : σ} (hs : I s) (ht : I t)
    (hst : Between view R s (x s).2 t) {a : α} (hok : (y t).1 = .ok a) :
    (y s).1 = .ok a ∧ Agree view R (y t).2 (y s).2 := by
  have hys : (y s).1 = .ok a := (h.resume s t hs ht hst).1.symm.trans hok
  refine ⟨hys, fun i hi => ?_⟩
  by_cases hiW : i ∈ W
  · rw [(h.finish s t a hs ht hst hok).2 i hiW,
      (h.finish s s a hs hs (Between.start _ _ _) hys).2 i hiW]
  · rw [h.footprint.frame t ht i hiW, h.footprint.frame s hs i hiW]
    rcases hst i hi with hold | hnew
    · exact hold
    · exact hnew.trans (h.complete.frame s hs i hiW)

section Bind

variable {s t : σ}

theorem after_first (hx : Interrupted view I R W x y) (hs : I s) (ht : I t) {u : σ}
    (hst : Between view (R ∪ R') s u t) (hfirst : Agree view R u (x s).2) {a : α}
    (hok : (y t).1 = .ok a) :
    (x s).1 = .ok a ∧ Agree view W (y t).2 (x s).2 ∧ Between view R' (x s).2 u (y t).2 := by
  have hbetween : Between view R s (x s).2 t := by
    intro i hi
    rcases hst i (.inl hi) with hold | hnew
    · exact .inl hold
    · exact .inr (hnew.trans (hfirst i hi))
  obtain ⟨hxs, hfinal⟩ := hx.finish s t a hs ht hbetween hok
  refine ⟨hxs, hfinal, fun i hi => ?_⟩
  by_cases hiW : i ∈ W
  · exact .inl (hfinal i hiW)
  · rw [hx.footprint.frame t ht i hiW, hx.complete.frame s hs i hiW]
    exact hst i (.inr hi)

theorem agree_first (hx : Interrupted view I R W x y)
    (hf : ∀ a, (x s).1 = .ok a → Footprint view I R' W' (f a)) (hdisj : Disjoint W' R)
    (hs : I s) : Agree view R ((x >>= f) s).2 (x s).2 := by
  intro i hi
  have hk := hx.complete.keeps s hs
  rw [Procedure.bind_eq]
  rcases hxs : x s with ⟨e | a, s₁⟩
  · rfl
  · rw [hxs] at hk
    exact (hf a (by rw [hxs])).frame s₁ hk i fun hmem => Set.disjoint_left.mp hdisj hmem hi

theorem bind (hx : Interrupted view I R W x y)
    (hf : ∀ a, MayAnswer I x a ∨ MayAnswer I y a → Interrupted view I R' W' (f a) (g a))
    (hdisj : Disjoint W' R) (hsub : W' ⊆ R') :
    Interrupted view I (R ∪ R') (W ∪ W') (x >>= f) (y >>= g) where
  complete := hx.complete.bind (fun a ha => (hf a (.inl ha)).complete) hdisj hsub
  footprint := hx.footprint.bind (fun a ha => (hf a (.inr ha)).footprint) hdisj hsub
  resume s t hs ht hst := by
    have hfirst : Agree view R ((x >>= f) s).2 (x s).2 :=
      agree_first hx (fun a ha => (hf a (.inl ⟨s, hs, ha⟩)).complete) hdisj hs
    have hbetween : Between view R s (x s).2 t := by
      intro i hi
      rcases hst i (.inl hi) with hold | hnew
      · exact .inl hold
      · exact .inr (hnew.trans (hfirst i hi))
    obtain ⟨hanswer, hleft⟩ := hx.resume s t hs ht hbetween
    have hkt := hx.footprint.keeps t ht
    have hks := hx.footprint.keeps s hs
    have hkx := hx.complete.keeps s hs
    rcases hyt : y t with ⟨e | a, t₁⟩
    · -- the first part stops, at `s` too
      rw [hyt] at hanswer hleft
      refine ⟨?_, fun i hi => ?_⟩
      · rw [Procedure.bind_eq, Procedure.bind_eq, hyt]
        rcases hys : y s with ⟨e' | b, s₁⟩ <;> rw [hys] at hanswer
        · obtain rfl := Except.error.inj hanswer
          rfl
        · cases hanswer
      · have hstop : ((y >>= g) t).2 = t₁ := by rw [Procedure.bind_eq, hyt]
        rw [hstop]
        by_cases hiW : i ∈ W
        · rcases hleft i hiW with hold | hnew
          · exact .inl hold
          · exact .inr (hnew.trans (hfirst i (hx.complete.sub hiW)).symm)
        · have hframe := hx.footprint.frame t ht i hiW
          rw [hyt] at hframe
          exact .inl hframe
    · obtain ⟨hxs, hfinal, hrest⟩ := hx.after_first hs ht hst hfirst (by rw [hyt])
      have hga := hf a (.inl ⟨s, hs, hxs⟩)
      have hxeq : (x >>= f) s = f a (x s).2 := Procedure.bind_of_ok (Prod.ext hxs rfl)
      rw [hyt] at hanswer hkt hfinal hrest
      rw [hxeq] at hrest
      rw [Procedure.bind_of_ok hyt, hxeq]
      obtain ⟨hsecond, hdone⟩ := hga.resume (x s).2 t₁ hkx hkt hrest
      constructor
      · -- at `s` the second part starts where the complete first part ends
        have hstart : Between view (R ∪ ∅) s (x s).2 s := Between.start _ s (x s).2
        obtain ⟨-, hfinal', -⟩ := hx.after_first hs hs hstart (Agree.refl _ _) hanswer.symm
        have hsame : Agree view R' (y s).2 (x s).2 := by
          intro i _
          by_cases hiW : i ∈ W
          · exact hfinal' i hiW
          · rw [hx.footprint.frame s hs i hiW, hx.complete.frame s hs i hiW]
        have hys : y s = (.ok a, (y s).2) := Prod.ext hanswer.symm rfl
        rw [Procedure.bind_of_ok hys, hsecond]
        exact (hga.footprint.congr _ _ hks hkx hsame).1.symm
      · intro i hi
        by_cases hiW' : i ∈ W'
        · have hiW : i ∉ W := fun hmem =>
            Set.disjoint_left.mp hdisj hiW' (hx.complete.sub hmem)
          have hframe := hx.footprint.frame t ht i hiW
          rw [hyt] at hframe
          rcases hdone i hiW' with hold | hnew
          · exact .inl (hold.trans hframe)
          · exact .inr hnew
        · have hiW : i ∈ W := hi.resolve_right hiW'
          right
          rw [hga.footprint.frame t₁ hkt i hiW', hfinal i hiW, hga.complete.frame _ hkx i hiW']
  finish s t b hs ht hst hok := by
    have hfirst : Agree view R ((x >>= f) s).2 (x s).2 :=
      agree_first hx (fun a ha => (hf a (.inl ⟨s, hs, ha⟩)).complete) hdisj hs
    obtain ⟨a, t₁, hyt, hgt⟩ := Procedure.bind_eq_ok (Prod.ext hok rfl)
    obtain ⟨hxs, hfinal, hrest⟩ := hx.after_first hs ht hst hfirst (by rw [hyt])
    have hga := hf a (.inl ⟨s, hs, hxs⟩)
    have hkt := hx.footprint.keeps t ht
    have hkx := hx.complete.keeps s hs
    have hxeq : (x >>= f) s = f a (x s).2 := Procedure.bind_of_ok (Prod.ext hxs rfl)
    rw [hyt] at hkt hfinal hrest
    rw [hxeq] at hrest ⊢
    obtain ⟨hfok, hfdone⟩ := hga.finish (x s).2 t₁ b hkx hkt hrest (by rw [hgt])
    refine ⟨hfok, fun i hi => ?_⟩
    have hgt' : ((y >>= g) t).2 = (g a t₁).2 := by rw [Procedure.bind_of_ok hyt]
    rw [hgt']
    by_cases hiW' : i ∈ W'
    · exact hfdone i hiW'
    · have hiW : i ∈ W := hi.resolve_right hiW'
      rw [hga.footprint.frame t₁ hkt i hiW', hfinal i hiW, hga.complete.frame _ hkx i hiW']

end Bind

theorem bind_of_read (hx : Interrupted view I R ∅ x y)
    (hf : ∀ a, Interrupted view I R' W' (f a) (g a)) (hdisj : Disjoint W' R) (hsub : W' ⊆ R') :
    Interrupted view I (R ∪ R') W' (x >>= f) (y >>= g) := by
  have hboth := hx.bind (fun a _ => hf a) hdisj hsub
  rwa [Set.empty_union] at hboth

theorem bind_still (hx : Interrupted view I R W x y) (hf : ∀ a, ∃ r, ∀ s, f a s = (r, s)) :
    Interrupted view I R W (x >>= f) (y >>= f) := by
  have hlast : ∀ a, Interrupted view I ∅ ∅ (f a) (f a) := by
    intro a
    obtain ⟨r, hr⟩ := hf a
    exact still r hr
  have hboth := hx.bind (fun a _ => hlast a) (Set.empty_disjoint R) (Set.Subset.refl _)
  rwa [Set.union_empty, Set.union_empty] at hboth

theorem still_bind (r : Except ε α) (hx : ∀ s, x s = (r, s))
    (hf : ∀ a, Interrupted view I R W (f a) (g a)) (hsub : W ⊆ R) :
    Interrupted view I R W (x >>= f) (x >>= g) := by
  have hx' : Interrupted view I ∅ ∅ x x := still r hx
  have hboth := hx'.bind_of_read hf (Set.disjoint_empty W) hsub
  rwa [Set.empty_union] at hboth

end Interrupted

section Restrict

variable {A : Set ι} {x y : Procedure σ ε α}

abbrev viewIn (view : (i : ι) → σ → ν i) (A : Set ι) : (i : A) → σ → ν i := fun i => view i

def within (A R : Set ι) : Set A := { i | i.val ∈ R }

@[simp] theorem within_empty : within A (∅ : Set ι) = ∅ := rfl

theorem agree_within (hR : R ⊆ A) {s t : σ} :
    Agree (viewIn view A) (within A R) s t ↔ Agree view R s t :=
  ⟨fun h i hi => h ⟨i, hR hi⟩ hi, fun h i hi => h i hi⟩

theorem between_within (hR : R ⊆ A) {s u t : σ} :
    Between (viewIn view A) (within A R) s u t ↔ Between view R s u t :=
  ⟨fun h i hi => h ⟨i, hR hi⟩ hi, fun h i hi => h i hi⟩

theorem Footprint.restrict (h : Footprint view I R W x) (hR : R ⊆ A) :
    Footprint (viewIn view A) I (within A R) (within A W) x where
  sub _ hi := h.sub hi
  keeps := h.keeps
  frame s hs i hi := h.frame s hs i hi
  congr s t hs ht hagree := by
    obtain ⟨hanswer, hafter⟩ := h.congr s t hs ht ((agree_within hR).mp hagree)
    exact ⟨hanswer, fun i hi => hafter i hi⟩
  again s t hs ht hagree := by
    obtain ⟨hanswer, hafter⟩ := h.again s t hs ht ((agree_within hR).mp hagree)
    exact ⟨hanswer, fun i => hafter i⟩

theorem Interrupted.restrict (h : Interrupted view I R W x y) (hR : R ⊆ A) :
    Interrupted (viewIn view A) I (within A R) (within A W) x y where
  complete := h.complete.restrict hR
  footprint := h.footprint.restrict hR
  resume s t hs ht hst := by
    obtain ⟨hanswer, hleft⟩ := h.resume s t hs ht ((between_within hR).mp hst)
    exact ⟨hanswer, fun i hi => hleft i hi⟩
  finish s t a hs ht hst hok := by
    obtain ⟨hx, hfinal⟩ := h.finish s t a hs ht ((between_within hR).mp hst) hok
    exact ⟨hx, fun i hi => hfinal i hi⟩

end Restrict
end

section Family

variable {σ ε α ι κ β : Type} {ν : ι → Type} {view : (i : ι) → σ → ν i} {I : σ → Prop}
  {S : Set κ} {R W : κ → Set ι} {x : κ → Procedure σ ε α} {y : κ → β → Procedure σ ε α}

structure InterruptedEach (view : (i : ι) → σ → ν i) (I : σ → Prop) (S : Set κ) (R W : κ → Set ι)
    (x : κ → Procedure σ ε α) (y : κ → β → Procedure σ ε α) : Prop where
  attempt : ∀ k ∈ S, ∀ b, Interrupted view I (R k) (W k) (x k) (y k b)
  disjoint : ∀ k ∈ S, ∀ j ∈ S, k ≠ j → Disjoint (W k) (R j)

/-- What attempts from `s` may have left; those of `done` came to their end. -/
structure Settling (view : (i : ι) → σ → ν i) (I : σ → Prop) (S : Set κ) (R W : κ → Set ι)
    (x : κ → Procedure σ ε α) (s : σ) (done : Set κ) (t : σ) : Prop where
  keeps : I t
  between : ∀ k ∈ S, Between view (R k) s (x k s).2 t
  final : ∀ k ∈ S, k ∈ done → Agree view (W k) t (x k s).2
  frame : ∀ i, (∀ k ∈ S, i ∉ W k) → view i t = view i s

namespace Settling

variable {s t u : σ} {done : Set κ}

theorem start (hs : I s) : Settling view I S R W x s ∅ s :=
  ⟨hs, fun _ _ => Between.start _ _ _, fun _ _ hin => absurd hin (Set.notMem_empty _),
    fun _ _ => rfl⟩

theorem unseen (h : Settling view I S R W x s done t) (hu : I u)
    (hview : ∀ i, view i u = view i t) : Settling view I S R W x s done u where
  keeps := hu
  between k hk i hi := by
    rw [hview i]
    exact h.between k hk i hi
  final k hk hdone i hi := (hview i).trans (h.final k hk hdone i hi)
  frame i hi := (hview i).trans (h.frame i hi)

theorem attempt (h : Settling view I S R W x s done t) (hxy : InterruptedEach view I S R W x y)
    (hs : I s) {j : κ} (hj : j ∈ S) (b : β) :
    (y j b t).1 = (y j b s).1 ∧
      Settling view I S R W x s (done ∪ { k | k = j ∧ ∃ a, (y j b t).1 = .ok a })
        (y j b t).2 := by
  have hatt := hxy.attempt j hj b
  obtain ⟨hanswer, hleft⟩ := hatt.resume s t hs h.keeps (h.between j hj)
  have hother : ∀ k ∈ S, k ≠ j → Agree view (R k) (y j b t).2 t := by
    intro k hk hne i hi
    exact hatt.footprint.frame t h.keeps i fun hmem =>
      Set.disjoint_left.mp (hxy.disjoint j hj k hk (Ne.symm hne)) hmem hi
  refine ⟨hanswer, hatt.footprint.keeps t h.keeps, ?_, ?_, fun i hi =>
    (hatt.footprint.frame t h.keeps i (hi j hj)).trans (h.frame i hi)⟩
  · intro k hk i hi
    by_cases hkj : k = j
    · subst hkj
      by_cases hiW : i ∈ W k
      · rcases hleft i hiW with hold | hnew
        · rw [hold]
          exact h.between k hk i hi
        · exact .inr hnew
      · rw [hatt.footprint.frame t h.keeps i hiW]
        exact h.between k hk i hi
    · rw [hother k hk hkj i hi]
      exact h.between k hk i hi
  · intro k hk hdone i hi
    by_cases hkj : k = j
    · subst hkj
      rcases hdone with hdone | ⟨-, a, hok⟩
      · rcases hleft i hi with hold | hnew
        · exact hold.trans (h.final k hk hdone i hi)
        · exact hnew
      · exact (hatt.finish s t a hs h.keeps (h.between k hk) hok).2 i hi
    · rcases hdone with hdone | ⟨heq, -⟩
      · rw [hother k hk hkj i ((hxy.attempt k hk b).complete.sub hi)]
        exact h.final k hk hdone i hi
      · exact absurd heq hkj

end Settling
end Family

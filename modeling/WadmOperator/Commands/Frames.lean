import WadmOperator.Commands

/-!
# Frames of command bodies

What an effect says about a Service, what stays the same outside a set of keys, and
how `andThen` and `forEach` carry a property of a loop's body to the loop.
-/

namespace WadmOperator

namespace Effect

def victim : Effect → Option (ObjectKey × Service)
  | stripped key svc => some (key, svc)
  | deleted key svc => some (key, svc)
  | _ => none

def removedKey : Effect → Option ObjectKey
  | deleted key _ => some key
  | notFound key => some key
  | _ => none

def appliedFor : Effect → Option (ObjectKey × String)
  | applied key latticeId => some (key, latticeId)
  | _ => none

def Keeps (e : Effect) : Prop := e.victim = none ∧ e.removedKey = none

end Effect

structure SameOff (touched : ObjectKey → Prop) (c c' : Cluster) : Prop where
  service : ∀ key, ¬touched key → c'.service key = c.service key
  configs : c'.configs = c.configs
  pods : c'.pods = c.pods

namespace SameOff

variable {touched touched' : ObjectKey → Prop} {a b c : Cluster}

theorem refl (touched : ObjectKey → Prop) (c : Cluster) : SameOff touched c c :=
  ⟨fun _ _ => rfl, rfl, rfl⟩

theorem trans (h₁ : SameOff touched a b) (h₂ : SameOff touched b c) : SameOff touched a c :=
  ⟨fun key hk => (h₂.service key hk).trans (h₁.service key hk), h₂.configs.trans h₁.configs,
    h₂.pods.trans h₁.pods⟩

theorem mono (h : SameOff touched a b) (hsub : ∀ key, touched key → touched' key) :
    SameOff touched' a b :=
  ⟨fun key hk => h.service key fun hin => hk (hsub key hin), h.configs, h.pods⟩

theorem writeService (c : Cluster) (key : ObjectKey) (svc : Service) :
    SameOff (· = key) c (c.writeService key svc) := by
  refine ⟨fun key' hne => ?_, ?_, ?_⟩
  · rw [Cluster.service_writeService, if_neg hne]
  · unfold Cluster.writeService
    split <;> rfl
  · unfold Cluster.writeService
    split <;> rfl

end SameOff

namespace Outcome

theorem noFailure_andThen {o : Outcome} {f : Cluster → Outcome} (h : (o.andThen f).NoFailure) :
    o.NoFailure ∧ (o.ok = true → (f o.cluster).NoFailure) := by
  unfold andThen at h
  split at h
  · exact ⟨fun call hc => h call (List.mem_append_left _ hc),
      fun _ call hc => h call (List.mem_append_right _ hc)⟩
  · next hok => exact ⟨h, fun ht => absurd ht hok⟩

theorem mem_andThen {o : Outcome} {f : Cluster → Outcome} {e : Effect}
    (h : e ∈ (o.andThen f).effects) : e ∈ o.effects ∨ o.ok = true ∧ e ∈ (f o.cluster).effects := by
  unfold andThen at h
  split at h
  · next hok => exact (List.mem_append.mp h).imp_right fun hf => ⟨hok, hf⟩
  · exact .inl h

theorem mem_andThen_left {o : Outcome} (f : Cluster → Outcome) {e : Effect}
    (h : e ∈ o.effects) : e ∈ (o.andThen f).effects := by
  unfold andThen
  split
  · exact List.mem_append_left _ h
  · exact h

theorem mem_andThen_right {o : Outcome} {f : Cluster → Outcome} {e : Effect} (hok : o.ok = true)
    (h : e ∈ (f o.cluster).effects) : e ∈ (o.andThen f).effects := by
  rw [andThen, if_pos hok]
  exact List.mem_append_right _ h

theorem cluster_andThen (o : Outcome) (f : Cluster → Outcome) :
    (o.andThen f).cluster = if o.ok then (f o.cluster).cluster else o.cluster := by
  unfold andThen
  split <;> rfl

theorem sameOff_andThen {touched : ObjectKey → Prop} {c : Cluster} {o : Outcome}
    {f : Cluster → Outcome} (ho : SameOff touched c o.cluster)
    (hf : ∀ c, SameOff touched c (f c).cluster) : SameOff touched c (o.andThen f).cluster := by
  rw [cluster_andThen]
  split
  · exact ho.trans (hf _)
  · exact ho

theorem sameOff_forEach {touched : ObjectKey → Prop} {f : String → Cluster → Outcome}
    {order : List String} (hf : ∀ ns ∈ order, ∀ c, SameOff touched c (f ns c).cluster)
    (c : Cluster) : SameOff touched c (forEach f order c).cluster := by
  induction order generalizing c with
  | nil => exact .refl _ c
  | cons ns rest ih =>
    exact (hf ns List.mem_cons_self c).trans
      (ih (fun ns' hin => hf ns' (List.mem_cons_of_mem _ hin)) _)

theorem mem_forEach {f : String → Cluster → Outcome} {order : List String} {c : Cluster}
    {e : Effect} :
    e ∈ (forEach f order c).effects ↔ ∃ before ns after, order = before ++ ns :: after ∧
      e ∈ (f ns (forEach f before c).cluster).effects := by
  induction order generalizing c with
  | nil => simp [forEach, succeed]
  | cons ns rest ih =>
    simp only [forEach, List.mem_append, ih]
    constructor
    · intro hall
      rcases hall with h | ⟨before, ns', after, rfl, h⟩
      · exact ⟨[], ns, rest, rfl, h⟩
      · exact ⟨ns :: before, ns', after, rfl, h⟩
    · intro hall
      obtain ⟨before, ns', after, heq, h⟩ := hall
      cases before with
      | nil =>
        obtain ⟨rfl, rfl⟩ := List.cons.inj heq
        exact .inl h
      | cons b before =>
        obtain ⟨rfl, rfl⟩ := List.cons.inj heq
        exact .inr ⟨before, ns', after, rfl, h⟩

theorem forEach_append (f : String → Cluster → Outcome) (xs ys : List String) (c : Cluster) :
    (forEach f (xs ++ ys) c).cluster = (forEach f ys (forEach f xs c).cluster).cluster := by
  induction xs generalizing c with
  | nil => rfl
  | cons x xs ih => exact ih _

section

variable {f : String → Cluster → Outcome} {order : List String} {c : Cluster}
  (hf : ∀ ns c, SameOff (fun key => key.1 = ns) c (f ns c).cluster)

include hf

theorem forEach_before {before : List String} {ns : String} (hns : ns ∉ before) (c : Cluster)
    (key : ObjectKey) (hkey : key.1 = ns) :
    (forEach f before c).cluster.service key = c.service key := by
  have hsame : SameOff (fun key => key.1 ∈ before) c (forEach f before c).cluster :=
    sameOff_forEach (fun ns' hin c => (hf ns' c).mono fun key hk => hk ▸ hin) c
  exact hsame.service key fun hin => hns (hkey ▸ hin)

theorem forEach_pass (horder : order.Nodup) {ns : String} (hns : ns ∈ order) (c : Cluster) :
    ∃ start, (∀ key : ObjectKey, key.1 = ns → start.service key = c.service key) ∧
      (∀ e ∈ (f ns start).effects, e ∈ (forEach f order c).effects) ∧
      ∀ key : ObjectKey, key.1 = ns →
        (forEach f order c).cluster.service key = (f ns start).cluster.service key := by
  obtain ⟨before, after, rfl⟩ := List.append_of_mem hns
  obtain ⟨-, hafter, hdisjoint⟩ := List.nodup_append.mp horder
  have hbefore : ns ∉ before := fun hin => hdisjoint ns hin ns List.mem_cons_self rfl
  have hnotAfter : ns ∉ after := (List.nodup_cons.mp hafter).1
  refine ⟨(forEach f before c).cluster, forEach_before hf hbefore c, ?_, ?_⟩
  · intro e he
    exact mem_forEach.mpr ⟨before, ns, after, rfl, he⟩
  · intro key hkey
    rw [forEach_append]
    exact forEach_before hf hnotAfter _ key hkey

theorem mem_forEach_pass (horder : order.Nodup) {e : Effect}
    (he : e ∈ (forEach f order c).effects) :
    ∃ ns ∈ order, ∃ start, (∀ key : ObjectKey, key.1 = ns → start.service key = c.service key) ∧
      e ∈ (f ns start).effects := by
  obtain ⟨before, ns, after, rfl, hpass⟩ := mem_forEach.mp he
  obtain ⟨-, -, hdisjoint⟩ := List.nodup_append.mp horder
  have hbefore : ns ∉ before := fun hin => hdisjoint ns hin ns List.mem_cons_self rfl
  exact ⟨ns, List.mem_append_right _ List.mem_cons_self, _, forEach_before hf hbefore c, hpass⟩

end

end Outcome

end WadmOperator

import Mathlib.Data.List.AList

/-!
# Finite maps with unique keys

The maps of the program are Mathlib's association lists at a constant value type.
Lookups after an insertion or a removal are given as one conditional each, which
is the form the case splits of the model use. `extend` is the `extend` of a map
by another: the argument wins on equal keys.
-/

abbrev Dict (K V : Type) := AList fun _ : K => V

namespace Dict

variable {K V : Type} [DecidableEq K]

def get? (d : Dict K V) (k : K) : Option V := AList.lookup k d

def put (d : Dict K V) (k : K) (v : V) : Dict K V := AList.insert k v d

def remove (d : Dict K V) (k : K) : Dict K V := AList.erase k d

def empty : Dict K V := ∅

/-- Mathlib's own instance rewrites in its data part, where evaluation stops. -/
instance [DecidableEq V] : DecidableEq (Dict K V) := fun d e =>
  decidable_of_iff (d.entries = e.entries) AList.ext_iff.symm

@[simp] theorem get?_empty (k : K) : (empty : Dict K V).get? k = none := rfl

theorem get?_put (d : Dict K V) (k k' : K) (v : V) :
    (d.put k v).get? k' = if k' = k then some v else d.get? k' := by
  by_cases h : k' = k
  · subst h
    rw [if_pos rfl]
    exact AList.lookup_insert d
  · rw [if_neg h]
    exact AList.lookup_insert_ne h

theorem get?_remove (d : Dict K V) (k k' : K) :
    (d.remove k).get? k' = if k' = k then none else d.get? k' := by
  by_cases h : k' = k
  · subst h
    rw [if_pos rfl]
    exact AList.lookup_erase k' d
  · rw [if_neg h]
    exact AList.lookup_erase_ne h

@[simp] theorem get?_put_self (d : Dict K V) (k : K) (v : V) : (d.put k v).get? k = some v := by
  simp [get?_put]

theorem eq_of_get?_single {k k' : K} {v w : V} (h : (empty.put k v).get? k' = some w) :
    k' = k ∧ w = v := by
  rw [get?_put] at h
  split at h
  · next hk => exact ⟨hk, (Option.some.inj h).symm⟩
  · cases h

@[simp] theorem get?_remove_self (d : Dict K V) (k : K) : (d.remove k).get? k = none := by
  simp [get?_remove]

theorem mem_entries {d : Dict K V} {k : K} {v : V} : ⟨k, v⟩ ∈ d.entries ↔ d.get? k = some v :=
  AList.mem_lookup_iff.symm

def toPairs (d : Dict K V) : List (K × V) := d.entries.map fun e => (e.1, e.2)

theorem mem_toPairs {d : Dict K V} {k : K} {v : V} : (k, v) ∈ d.toPairs ↔ d.get? k = some v := by
  rw [← mem_entries]
  constructor
  · intro h
    obtain ⟨e, he, heq⟩ := List.mem_map.mp h
    cases e
    cases heq
    exact he
  · intro h
    exact List.mem_map.mpr ⟨⟨k, v⟩, h, rfl⟩

omit [DecidableEq K] in
theorem toPairs_keys_nodup (d : Dict K V) : (d.toPairs.map Prod.fst).Nodup := by
  have h : d.toPairs.map Prod.fst = d.keys := by
    simp [toPairs, AList.keys, List.keys, Function.comp_def]
  rw [h]
  exact d.keys_nodup

def extend (d : Dict K V) : List (K × V) → Dict K V
  | [] => d
  | (k, v) :: kvs => extend (d.put k v) kvs

theorem extend_append (d : Dict K V) (kvs kvs' : List (K × V)) :
    d.extend (kvs ++ kvs') = (d.extend kvs).extend kvs' := by
  induction kvs generalizing d with
  | nil => rfl
  | cons e kvs ih => exact ih _

def lastValue (k : K) (kvs : List (K × V)) : Option V :=
  ((kvs.filter fun kv => kv.1 = k).getLast?).map Prod.snd

theorem lastValue_append (k : K) (kvs kvs' : List (K × V)) :
    lastValue k (kvs ++ kvs') = (lastValue k kvs').or (lastValue k kvs) := by
  rw [lastValue, List.filter_append, List.getLast?_append, Option.map_or]
  rfl

theorem lastValue_of_not_mem {kvs : List (K × V)} {k : K} (h : k ∉ kvs.map Prod.fst) :
    lastValue k kvs = none := by
  have hnone : kvs.filter (fun kv => kv.1 = k) = [] := by
    rw [List.filter_eq_nil_iff]
    intro kv hkv hk
    exact h (List.mem_map.mpr ⟨kv, hkv, of_decide_eq_true hk⟩)
  rw [lastValue, hnone]
  rfl

theorem mem_of_lastValue {kvs : List (K × V)} {k : K} {v : V} (h : lastValue k kvs = some v) :
    (k, v) ∈ kvs := by
  obtain ⟨kv, hkv, rfl⟩ := Option.map_eq_some_iff.mp h
  obtain ⟨hmem, hk⟩ := List.mem_filter.mp (List.mem_of_getLast? hkv)
  rw [← of_decide_eq_true hk]
  exact hmem

theorem lastValue_map {K' V' : Type} [DecidableEq K'] {f : K → K'} (hf : Function.Injective f)
    (g : V → V') (k : K) (kvs : List (K × V)) :
    lastValue (f k) (kvs.map fun kv => (f kv.1, g kv.2)) = (lastValue k kvs).map g := by
  rw [lastValue, lastValue, List.filter_map, List.getLast?_map, Option.map_map, Option.map_map]
  simp only [Function.comp_def, hf.eq_iff]

theorem get?_extend_lastValue (d : Dict K V) (kvs : List (K × V)) (k : K) :
    (d.extend kvs).get? k = (lastValue k kvs).or (d.get? k) := by
  induction kvs generalizing d with
  | nil => rfl
  | cons e kvs ih =>
    obtain ⟨k', v⟩ := e
    rw [extend, ih, get?_put]
    by_cases hk : k' = k
    · subst hk
      cases h : kvs.filter fun kv => kv.1 = k' with
      | nil => simp [lastValue, h]
      | cons e' rest => simp [lastValue, h, List.getLast?_cons]
    · have hk' : k ≠ k' := Ne.symm hk
      simp [lastValue, hk, hk']

theorem get?_extend {kvs : List (K × V)} (hk : (kvs.map Prod.fst).Nodup) (d : Dict K V) (k : K) :
    (∀ v, (k, v) ∈ kvs → (d.extend kvs).get? k = some v) ∧
      (k ∉ kvs.map Prod.fst → (d.extend kvs).get? k = d.get? k) := by
  induction kvs generalizing d with
  | nil => simp [extend]
  | cons e kvs ih =>
    obtain ⟨k', v'⟩ := e
    simp only [List.map_cons, List.nodup_cons] at hk
    obtain ⟨hin, hout⟩ := ih hk.2 (d.put k' v')
    constructor
    · intro v hv
      rcases List.mem_cons.mp hv with heq | hv
      · obtain ⟨rfl, rfl⟩ := Prod.mk.inj heq
        rw [extend, hout hk.1, get?_put_self]
      · exact hin v hv
    · intro hne
      simp only [List.map_cons, List.mem_cons, not_or] at hne
      rw [extend, hout hne.2, get?_put, if_neg hne.1]

theorem lastValue_toPairs (d : Dict K V) (k : K) : lastValue k d.toPairs = d.get? k := by
  have hlast := get?_extend_lastValue empty d.toPairs k
  rw [get?_empty, Option.or_none] at hlast
  obtain ⟨hin, hout⟩ := get?_extend d.toPairs_keys_nodup empty k
  rw [← hlast]
  cases hk : d.get? k with
  | some v => exact hin v (mem_toPairs.mpr hk)
  | none =>
    apply hout
    intro hmem
    obtain ⟨⟨k', v⟩, hkv, rfl⟩ := List.mem_map.mp hmem
    rw [mem_toPairs.mp hkv] at hk
    cases hk

theorem kerase_eq_filter {l : List (Sigma fun _ : K => V)} (hl : l.NodupKeys) (k : K) :
    l.kerase k = l.filter fun e => e.1 ≠ k := by
  induction l with
  | nil => rfl
  | cons e l ih =>
    obtain ⟨hne, hl'⟩ := List.nodupKeys_cons.mp hl
    by_cases hk : k = e.1
    · subst hk
      have hall : ∀ e' ∈ l, e'.1 ≠ e.1 := by
        intro e' he' heq
        exact hne (heq ▸ List.mem_map_of_mem he')
      rw [List.kerase_cons_eq rfl, List.filter_cons_of_neg (by simp), List.filter_eq_self.mpr]
      intro e' he'
      exact decide_eq_true (hall e' he')
    · rw [List.kerase_cons_ne hk, List.filter_cons_of_pos (by simpa using Ne.symm hk), ih hl']

theorem entries_extend {kvs : List (K × V)} (hk : (kvs.map Prod.fst).Nodup) (d : Dict K V) :
    (d.extend kvs).entries = (kvs.map fun kv => (⟨kv.1, kv.2⟩ : Sigma fun _ : K => V)).reverse ++
      d.entries.filter fun e => e.1 ∉ kvs.map Prod.fst := by
  induction kvs generalizing d with
  | nil => simp [extend]
  | cons e kvs ih =>
    obtain ⟨k, v⟩ := e
    simp only [List.map_cons, List.nodup_cons] at hk
    rw [extend, ih hk.2, put, AList.entries_insert, kerase_eq_filter d.nodupKeys,
      List.filter_cons_of_pos (by simpa using hk.1), List.filter_filter]
    simp only [List.map_cons, List.reverse_cons, List.append_assoc, List.cons_append,
      List.nil_append, List.mem_cons, not_or, ne_eq, Bool.decide_and, Bool.and_comm]

theorem extend_again {kvs : List (K × V)} (hk : (kvs.map Prod.fst).Nodup) (d : Dict K V) :
    (d.extend kvs).extend kvs = d.extend kvs := by
  apply AList.ext
  rw [entries_extend hk, entries_extend hk, List.filter_append, List.filter_filter]
  have hown : ((kvs.map fun kv => (⟨kv.1, kv.2⟩ : Sigma fun _ : K => V)).reverse.filter
      fun e => e.1 ∉ kvs.map Prod.fst) = [] := by
    rw [List.filter_eq_nil_iff]
    intro e he
    obtain ⟨kv, hkv, rfl⟩ := List.mem_map.mp (List.mem_reverse.mp he)
    simp only [decide_eq_true_eq, not_not]
    exact List.mem_map_of_mem hkv
  rw [hown]
  simp

end Dict

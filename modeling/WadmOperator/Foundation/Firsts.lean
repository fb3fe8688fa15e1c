import Mathlib.Data.List.Dedup
import Mathlib.Data.List.Perm.Basic
import Mathlib.Data.Finset.Insert

/-!
# The first item of each key

A scan that skips an item whose key it has seen keeps the first item of each key. Where
the contents belong to a finer name than the key, the scan finds them all exactly when
every name other than that of the first item of its key is empty.
-/

section

variable {α β γ κ : Type} [DecidableEq κ] [DecidableEq γ] {key : α → κ}

def firstsFrom (key : α → κ) (seen : Finset κ) : List α → List α
  | [] => []
  | a :: as =>
    if key a ∈ seen then firstsFrom key seen as
    else a :: firstsFrom key (insert (key a) seen) as

def firsts (key : α → κ) (as : List α) : List α := firstsFrom key ∅ as

theorem mem_firstsFrom {seen : Finset κ} {as : List α} {b : α} :
    b ∈ firstsFrom key seen as ↔
      key b ∉ seen ∧ as.find? (fun a => key a = key b) = some b := by
  induction as generalizing seen with
  | nil => simp [firstsFrom]
  | cons a as ih =>
    rw [firstsFrom]
    by_cases ha : key a ∈ seen
    · rw [if_pos ha, ih]
      refine and_congr_right fun hb => ?_
      have hne : key a ≠ key b := fun heq => hb (heq ▸ ha)
      simp [hne]
    · rw [if_neg ha, List.mem_cons, ih, Finset.mem_insert, not_or]
      by_cases hkey : key a = key b
      · simp [hkey, hkey ▸ ha, eq_comm]
      · have hne : b ≠ a := fun heq => hkey (heq ▸ rfl)
        simp [hkey, Ne.symm hkey, hne]

theorem mem_firsts {as : List α} {b : α} :
    b ∈ firsts key as ↔ as.find? (fun a => key a = key b) = some b := by
  simp [firsts, mem_firstsFrom]

theorem firstsFrom_keys (key : α → κ) (seen : Finset κ) (as : List α) :
    ((firstsFrom key seen as).map key).Nodup := by
  induction as generalizing seen with
  | nil => exact List.nodup_nil
  | cons a as ih =>
    rw [firstsFrom]
    split
    · exact ih seen
    · rw [List.map_cons, List.nodup_cons]
      refine ⟨fun hin => ?_, ih _⟩
      obtain ⟨b, hb, hkey⟩ := List.mem_map.mp hin
      apply (mem_firstsFrom.mp hb).1
      rw [hkey]
      exact Finset.mem_insert_self _ _

theorem exists_first (key : α → κ) {as : List α} {a : α} (h : a ∈ as) :
    ∃ b ∈ firsts key as, key b = key a ∧ as.find? (fun c => key c = key a) = some b := by
  obtain ⟨b, hb⟩ := Option.isSome_iff_exists.mp
    (List.find?_isSome (p := fun c => decide (key c = key a)).mpr ⟨a, h, by simp⟩)
  have hkey : key b = key a := by simpa using List.find?_some hb
  exact ⟨b, mem_firsts.mpr (by rw [hkey]; exact hb), hkey, hb⟩

def RestEmpty (key : α → κ) (name : α → γ) (content : γ → List β) (as : List α) : Prop :=
  ∀ a ∈ as, ∀ b, as.find? (fun c => key c = key a) = some b → name b ≠ name a →
    content (name a) = []

variable {name : α → γ} {content : γ → List β} {as : List α}

def missed (key : α → κ) (name : α → γ) (as : List α) : List γ :=
  (as.map name).dedup.filter fun n => n ∉ (firsts key as).map name

theorem names_perm (as : List α) (hname : ∀ a b, name a = name b → key a = key b) :
    ((as.map name).dedup).Perm ((firsts key as).map name ++ missed key name as) := by
  have hfirsts : ((firsts key as).map name).Nodup := by
    have hkeys := firstsFrom_keys key ∅ as
    rw [List.Nodup, List.pairwise_map] at hkeys ⊢
    exact hkeys.imp fun hne heq => hne (hname _ _ heq)
  rw [List.perm_ext_iff_of_nodup (List.nodup_dedup _)]
  · intro n
    have hsub : n ∈ (firsts key as).map name → n ∈ as.map name := by
      intro hn
      obtain ⟨a, ha, rfl⟩ := List.mem_map.mp hn
      exact List.mem_map_of_mem (List.mem_of_find?_eq_some (mem_firsts.mp ha))
    by_cases hn : n ∈ (firsts key as).map name
    · simp only [List.mem_dedup, List.mem_append, hn, hsub hn, true_or]
    · simp only [missed, List.mem_dedup, List.mem_append, hn, List.mem_filter, false_or,
        not_false_eq_true, decide_true, and_true]
  · rw [List.nodup_append]
    refine ⟨hfirsts, (List.nodup_dedup _).filter _, ?_⟩
    intro n hn m hm heq
    have hnot := (List.mem_filter.mp hm).2
    rw [decide_eq_true_eq] at hnot
    exact hnot (heq ▸ hn)

theorem missed_empty_iff (hname : ∀ a b, name a = name b → key a = key b) :
    (missed key name as).flatMap content = [] ↔ RestEmpty key name content as := by
  rw [List.flatMap_eq_nil_iff]
  constructor
  · intro hall a ha b hb hne
    apply hall
    refine List.mem_filter.mpr ⟨List.mem_dedup.mpr (List.mem_map_of_mem ha), ?_⟩
    rw [decide_eq_true_eq, List.mem_map]
    intro hin
    obtain ⟨c, hc, hsame⟩ := hin
    have hfound := mem_firsts.mp hc
    rw [hname c a hsame, hb] at hfound
    rw [Option.some.inj hfound] at hne
    exact hne hsame
  · intro hrest n hn
    obtain ⟨hin, hnot⟩ := List.mem_filter.mp hn
    obtain ⟨a, ha, rfl⟩ := List.mem_map.mp (List.mem_dedup.mp hin)
    obtain ⟨b, hb, -, hfound⟩ := exists_first key ha
    refine hrest a ha b hfound fun hsame => ?_
    rw [decide_eq_true_eq] at hnot
    exact hnot (hsame ▸ List.mem_map_of_mem hb)

theorem contents_perm (content : γ → List β) (as : List α)
    (hname : ∀ a b, name a = name b → key a = key b) :
    ((as.map name).dedup.flatMap content).Perm
      ((firsts key as).flatMap (fun a => content (name a)) ++
        (missed key name as).flatMap content) := by
  have hperm := (names_perm as hname).flatMap_right content
  rwa [List.flatMap_append, List.flatMap_map] at hperm

theorem firsts_contents (hname : ∀ a b, name a = name b → key a = key b)
    (hrest : RestEmpty key name content as) :
    ((firsts key as).flatMap fun a => content (name a)).Perm
      ((as.map name).dedup.flatMap content) := by
  have hperm := contents_perm content as hname
  rw [(missed_empty_iff hname).mpr hrest, List.append_nil] at hperm
  exact hperm.symm

theorem restEmpty_of_length (hname : ∀ a b, name a = name b → key a = key b)
    (hlength : ((firsts key as).flatMap fun a => content (name a)).length =
      ((as.map name).dedup.flatMap content).length) : RestEmpty key name content as := by
  have hperm := (contents_perm content as hname).length_eq
  rw [List.length_append] at hperm
  apply (missed_empty_iff hname).mp
  apply List.eq_nil_of_length_eq_zero
  omega

end

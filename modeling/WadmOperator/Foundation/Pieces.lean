import Mathlib.Data.List.Basic

/-!
# Lists cut at a separator

The pieces of a list between its separators. A piece that starts with a word is an
occurrence of the separator followed by the word, except for the first piece, and the
first such piece ends where the next separator or the list does. A list with marks that
stand nowhere else is taken apart at them.
-/

namespace Pieces

variable {α : Type} [DecidableEq α] {sep : α} {word name l : List α}

theorem splitOn_cons {p : List α} {ps : List (List α)} (h : l.splitOn sep = p :: ps)
    (hmore : ps ≠ []) : ∃ rest, l = p ++ sep :: rest ∧ sep ∉ p ∧ rest.splitOn sep = ps := by
  by_cases hsep : sep ∈ l
  · obtain ⟨first, rest, rfl, hfirst⟩ := List.eq_append_cons_of_mem hsep
    rw [List.splitOn_append_cons_self_of_not_mem hfirst] at h
    obtain ⟨rfl, hrest⟩ := List.cons.inj h
    exact ⟨rest, rfl, hfirst, hrest⟩
  · rw [List.splitOn_eq_singleton hsep] at h
    exact absurd (List.cons.inj h).2.symm hmore

theorem splitOn_single {p : List α} (h : l.splitOn sep = [p]) : l = p := by
  have hwhole : [sep].intercalate (l.splitOn sep) = l := List.intercalate_splitOn sep
  rw [h, List.intercalate_singleton] at hwhole
  exact hwhole.symm

theorem splitOn_first {p : List α} {ps : List (List α)} (h : l.splitOn sep = p :: ps) :
    p <+: l := by
  by_cases hmore : ps = []
  · subst hmore
    obtain rfl := splitOn_single h
    exact List.prefix_refl _
  · obtain ⟨rest, rfl, -, -⟩ := splitOn_cons h hmore
    exact List.prefix_append _ _

theorem splitOn_append {xs ys : List (List α)} (h : l.splitOn sep = xs ++ ys) (hx : xs ≠ [])
    (hy : ys ≠ []) : ∃ before after, l = before ++ sep :: after ∧ before.splitOn sep = xs ∧
      after.splitOn sep = ys := by
  induction xs generalizing l with
  | nil => exact absurd rfl hx
  | cons p xs ih =>
    obtain ⟨rest, rfl, hp, hrest⟩ := splitOn_cons h (List.append_ne_nil_of_right_ne_nil _ hy)
    cases xs with
    | nil => exact ⟨p, rest, rfl, List.splitOn_eq_singleton hp, hrest⟩
    | cons q xs =>
      obtain ⟨before, after, rfl, hbefore, hafter⟩ := ih hrest (List.cons_ne_nil _ _)
      refine ⟨p ++ sep :: before, after, by rw [List.append_assoc, List.cons_append], ?_, hafter⟩
      rw [List.splitOn_append_cons_self_of_not_mem hp, hbefore]

theorem splitOn_word (hword : sep ∉ word) (l : List α) :
    (word ++ l).splitOn sep = (l.splitOn sep).modifyHead (word ++ ·) := by
  induction word with
  | nil =>
    rw [List.nil_append]
    cases l.splitOn sep <;> rfl
  | cons c word ih =>
    rw [List.mem_cons, not_or] at hword
    rw [List.cons_append, List.splitOn_cons_eq_if_modifyHead,
      if_neg (by simpa using Ne.symm hword.1), ih hword.2, List.modifyHead_modifyHead]
    rfl

/-- A later piece starts with the word exactly where the separator stands before the word. -/
theorem mark_infix_iff (hword : sep ∉ word) :
    sep :: word <:+: l ↔ ∃ p ∈ (l.splitOn sep).tail, word <+: p := by
  constructor
  · intro h
    obtain ⟨before, after, rfl⟩ := h
    rw [List.append_assoc, List.cons_append, List.splitOn_append_cons_self, splitOn_word hword]
    cases hfront : before.splitOn sep with
    | nil => exact absurd hfront (List.splitOn_ne_nil _ _)
    | cons p ps =>
      cases hback : after.splitOn sep with
      | nil => exact absurd hback (List.splitOn_ne_nil _ _)
      | cons q qs =>
        exact ⟨word ++ q, List.mem_append_right _ List.mem_cons_self, List.prefix_append _ _⟩
  · intro h
    obtain ⟨p, hp, rest, rfl⟩ := h
    cases hsplit : l.splitOn sep with
    | nil => exact absurd hsplit (List.splitOn_ne_nil _ _)
    | cons first ps =>
      rw [hsplit, List.tail_cons] at hp
      obtain ⟨xs, ys, rfl⟩ := List.append_of_mem hp
      rw [← List.cons_append] at hsplit
      obtain ⟨before, after, rfl, -, hafter⟩ :=
        splitOn_append hsplit (List.cons_ne_nil _ _) (List.cons_ne_nil _ _)
      obtain ⟨more, rfl⟩ := splitOn_first hafter
      refine ⟨before, rest ++ more, ?_⟩
      simp only [List.append_assoc, List.cons_append]

theorem no_word_piece (hword : sep ∉ word) (hstart : ¬word <+: l) (hnone : ¬sep :: word <:+: l) :
    ∀ p ∈ l.splitOn sep, ¬word <+: p := by
  intro p hp hwordp
  cases hsplit : l.splitOn sep with
  | nil => exact List.splitOn_ne_nil _ _ hsplit
  | cons first ps =>
    rw [hsplit] at hp
    rcases List.mem_cons.mp hp with rfl | hp
    · exact hstart (hwordp.trans (splitOn_first hsplit))
    · refine hnone ((mark_infix_iff hword).mpr ⟨p, ?_, hwordp⟩)
      rw [hsplit]
      exact hp

theorem splitOn_piece {p after : List α} (hp : sep ∉ p)
    (hend : after = [] ∨ after.head? = some sep) : ∃ ps, (p ++ after).splitOn sep = p :: ps := by
  rcases hend with rfl | hend
  · rw [List.append_nil]
    exact ⟨[], List.splitOn_eq_singleton hp⟩
  · obtain ⟨rest, rfl⟩ := List.head?_eq_some_iff.mp hend
    exact ⟨_, List.splitOn_append_cons_self_of_not_mem hp rest⟩

theorem piece_ends {p : List α} {ps : List (List α)} (h : l.splitOn sep = p :: ps) :
    ∃ after, l = p ++ after ∧ (after = [] ∨ after.head? = some sep) := by
  by_cases hmore : ps = []
  · subst hmore
    exact ⟨[], by rw [List.append_nil, splitOn_single h], .inl rfl⟩
  · obtain ⟨rest, rfl, -, -⟩ := splitOn_cons h hmore
    exact ⟨sep :: rest, rfl, .inr rfl⟩

theorem find_piece_iff (hword : sep ∉ word) (hname : sep ∉ name) (hstart : ¬word <+: l) :
    (l.splitOn sep).find? (word.isPrefixOf ·) = some (word ++ name) ↔ ∃ before after,
      l = before ++ sep :: (word ++ name ++ after) ∧ ¬sep :: word <:+: before ∧
        (after = [] ∨ after.head? = some sep) := by
  rw [List.find?_eq_some_iff_append]
  constructor
  · intro h
    obtain ⟨-, xs, ys, hsplit, hothers⟩ := h
    have hne : xs ≠ [] := by
      intro hnil
      subst hnil
      exact hstart ((List.prefix_append _ _).trans (splitOn_first hsplit))
    obtain ⟨before, rest, rfl, hbefore, hrest⟩ :=
      splitOn_append hsplit hne (List.cons_ne_nil _ _)
    obtain ⟨after, rfl, hend⟩ := piece_ends hrest
    refine ⟨before, after, rfl, fun hmark => ?_, hend⟩
    obtain ⟨p, hp, hwordp⟩ := (mark_infix_iff hword).mp hmark
    rw [hbefore] at hp
    have hnot := hothers p (List.mem_of_mem_tail hp)
    rw [List.isPrefixOf_iff_prefix.mpr hwordp] at hnot
    cases hnot
  · intro h
    obtain ⟨before, after, rfl, hnone, hend⟩ := h
    have hpiece : sep ∉ word ++ name := by
      rw [List.mem_append, not_or]
      exact ⟨hword, hname⟩
    obtain ⟨ys, hrest⟩ := splitOn_piece hpiece hend
    refine ⟨List.isPrefixOf_iff_prefix.mpr (List.prefix_append _ _), before.splitOn sep, ys, ?_, ?_⟩
    · rw [List.splitOn_append_cons_self, hrest]
    · intro p hp
      have hfirst : ¬word <+: before := fun h => hstart (h.trans (List.prefix_append _ _))
      have hnot := no_word_piece hword hfirst hnone p hp
      rw [← List.isPrefixOf_iff_prefix, Bool.not_eq_true] at hnot
      rw [hnot]
      rfl

/-! ## Quoted pieces -/

omit [DecidableEq α] in
theorem append_cons_inj {x y z w : List α} (hx : sep ∉ x) (hy : sep ∉ y)
    (h : x ++ sep :: z = y ++ sep :: w) : x = y ∧ z = w := by
  induction x generalizing y with
  | nil =>
    cases y with
    | nil => exact ⟨rfl, (List.cons.inj h).2⟩
    | cons c y => exact absurd ((List.cons.inj h).1 ▸ List.mem_cons_self) hy
  | cons b x ih =>
    cases y with
    | nil => exact absurd ((List.cons.inj h).1 ▸ List.mem_cons_self) hx
    | cons c y =>
      obtain ⟨rfl, hrest⟩ := List.cons.inj h
      rw [List.mem_cons, not_or] at hx hy
      obtain ⟨rfl, rfl⟩ := ih hx.2 hy.2 hrest
      exact ⟨rfl, rfl⟩

theorem suffix_of_quoted {before inside front url back : List α} (hbefore : sep ∉ before)
    (hfront : sep ∉ front) (hurl : sep ∉ url) (hback : sep ∉ back)
    (h : before ++ sep :: (inside ++ [sep]) <:+: front ++ sep :: (url ++ sep :: back)) :
    before <:+ front := by
  obtain ⟨a, b, heq⟩ := h
  have hsplit : (a ++ before) ++ sep :: (inside ++ sep :: b) =
      front ++ sep :: (url ++ sep :: back) := by
    rw [← heq]
    simp
  by_cases ha : sep ∈ a
  · -- the piece would lie behind the first mark, where only one is left
    obtain ⟨a₁, a₂, rfl, ha₁⟩ := List.eq_append_cons_of_mem ha
    have hfirst : a₁ ++ sep :: (a₂ ++ before ++ sep :: (inside ++ sep :: b)) =
        front ++ sep :: (url ++ sep :: back) := by
      rw [← hsplit]
      simp
    have hcount := congrArg (List.count sep) (append_cons_inj ha₁ hfront hfirst).2
    simp only [List.count_append, List.count_cons_self, List.count_eq_zero.mpr hurl,
      List.count_eq_zero.mpr hback] at hcount
    omega
  · have hnone : sep ∉ a ++ before := by
      rw [List.mem_append, not_or]
      exact ⟨ha, hbefore⟩
    exact ⟨a, (append_cons_inj hnone hfront hsplit).1⟩

theorem takeWhile_ne {front rest : List α} (h : sep ∉ front) :
    (front ++ sep :: rest).takeWhile (· ≠ sep) = front := by
  rw [List.takeWhile_append_of_pos]
  · simp
  · intro c hc
    exact decide_eq_true fun heq => h (heq ▸ hc)

theorem dropWhile_ne {front rest : List α} (h : sep ∉ front) :
    (front ++ sep :: rest).dropWhile (· ≠ sep) = sep :: rest := by
  rw [List.dropWhile_append_of_pos]
  · simp
  · intro c hc
    exact decide_eq_true fun heq => h (heq ▸ hc)

end Pieces

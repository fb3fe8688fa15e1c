import WadmOperator.Foundation.Json

/-!
# JSON values up to the order of members, and merge patches

Two places of documents are alike when no path below them tells the values apart. All
statements about a change or a merge are made member by member, at places that may be
absent, so that they compose along a path.
-/

namespace Value

def member (key : String) (v : Value) : Option Value := v.members?.bind (List.lookup key)

def child (key : String) (o : Option Value) : Option Value := o.bind (member key)

def IsObject (v : Value) : Prop := ∃ members, v = object members

/-- A value without the members, if it has some. -/
def outline : Value → Value
  | object _ => object []
  | v => v

def Alike (o o' : Option Value) : Prop :=
  ∀ path, (o.bind (getIn path)).map outline = (o'.bind (getIn path)).map outline

abbrev Same (a b : Value) : Prop := Alike (some a) (some b)

variable {key key' : String} {path : List String} {o o' o'' : Option Value} {v w : Value}
  {members : List (String × Value)}

@[simp] theorem member_object : member key (object members) = members.lookup key := rfl

theorem member_eq_none (h : ¬IsObject v) (key : String) : member key v = none := by
  cases v with
  | object members => exact absurd ⟨members, rfl⟩ h
  | _ => rfl

theorem isObject_of_member {x : Value} (h : member key v = some x) : IsObject v := by
  by_contra hnot
  rw [member_eq_none hnot] at h
  cases h

theorem IsObject.ne_null (h : IsObject v) : v ≠ null := by
  obtain ⟨members, rfl⟩ := h
  intro hnull
  cases hnull

theorem getIn_cons (key : String) (path : List String) (v : Value) :
    getIn (key :: path) v = (member key v).bind (getIn path) := by
  cases v <;> rfl

theorem bind_getIn_cons (o : Option Value) (key : String) (path : List String) :
    o.bind (getIn (key :: path)) = (child key o).bind (getIn path) := by
  cases o with
  | none => rfl
  | some v => exact getIn_cons key path v

theorem bind_getIn_nil (o : Option Value) : o.bind (getIn []) = o := by
  cases o with
  | none => rfl
  | some v => cases v <;> rfl

theorem outline_eq_object (h : outline v = object []) : IsObject v := by
  cases v with
  | object members => exact ⟨members, rfl⟩
  | _ => cases h

theorem IsObject.outline_eq (h : IsObject v) : outline v = object [] := by
  obtain ⟨members, rfl⟩ := h
  rfl

theorem outline_eq_of_not_object (h : ¬IsObject v) (heq : outline w = outline v) : w = v := by
  have hv : outline v = v := by
    cases v with
    | object members => exact absurd ⟨members, rfl⟩ h
    | _ => rfl
  cases w with
  | object own => exact absurd (outline_eq_object heq.symm) h
  | _ => exact heq.trans hv

namespace Alike

theorem refl (o : Option Value) : Alike o o := fun _ => rfl

theorem symm (h : Alike o o') : Alike o' o := fun path => (h path).symm

theorem trans (h : Alike o o') (h' : Alike o' o'') : Alike o o'' :=
  fun path => (h path).trans (h' path)

theorem child (h : Alike o o') (key : String) : Alike (child key o) (Value.child key o') := by
  intro path
  rw [← bind_getIn_cons, ← bind_getIn_cons]
  exact h (key :: path)

theorem outline (h : Alike o o') : o.map outline = o'.map Value.outline := by
  have hnil := h []
  rwa [bind_getIn_nil, bind_getIn_nil] at hnil

theorem of_children (houtline : o.map Value.outline = o'.map Value.outline)
    (hchildren : ∀ key, Alike (Value.child key o) (Value.child key o')) : Alike o o' := by
  intro path
  cases path with
  | nil =>
    rw [bind_getIn_nil, bind_getIn_nil]
    exact houtline
  | cons key path =>
    rw [bind_getIn_cons, bind_getIn_cons]
    exact hchildren key path

theorem eq_of_not_object (h : Alike o (some v)) (hv : ¬IsObject v) : o = some v := by
  have houtline := h.outline
  cases o with
  | none => cases houtline
  | some w => rw [outline_eq_of_not_object hv (Option.some.inj houtline)]

theorem eq_none (h : Alike o none) : o = none := by
  have houtline := h.outline
  cases o with
  | none => rfl
  | some w => cases houtline

theorem isObject (h : Same v w) (hw : IsObject w) : IsObject v := by
  obtain ⟨members, rfl⟩ := hw
  exact outline_eq_object (Option.some.inj h.outline)

end Alike

theorem lookup_remove (key key' : String) (members : List (String × Value)) :
    (remove key members).lookup key' = if key' = key then none else members.lookup key' := by
  induction members with
  | nil => simp [remove]
  | cons m rest ih =>
    obtain ⟨k, x⟩ := m
    unfold remove at ih ⊢
    by_cases hk : k = key
    · subst hk
      rw [List.filter_cons_of_neg (by simp), ih, lookup_cons]
      split_ifs <;> rfl
    · rw [List.filter_cons_of_pos (by simpa using hk), lookup_cons, lookup_cons, ih]
      by_cases h : key' = k
      · rw [if_pos h, if_neg (h ▸ hk), if_pos h]
      · rw [if_neg h, if_neg h]

/-! ## Changes in place -/

theorem outline_modifyIn (path : List String)
    (f : List (String × Value) → List (String × Value)) (v : Value) :
    outline (modifyIn path f v) = outline v := by
  cases path with
  | nil => cases v <;> rfl
  | cons key path =>
    cases v with
    | object members =>
      simp only [modifyIn]
      split <;> rfl
    | _ => rfl

theorem IsObject.modifyIn (h : IsObject v) (path : List String)
    (f : List (String × Value) → List (String × Value)) : IsObject (modifyIn path f v) := by
  obtain ⟨members, rfl⟩ := h
  exact outline_eq_object (outline_modifyIn path f (object members))

theorem member_modifyIn (path : List String)
    (f : List (String × Value) → List (String × Value)) (key key' : String) (v : Value) :
    member key' (modifyIn (key :: path) f v) =
      if key' = key then (member key v).map (modifyIn path f) else member key' v := by
  cases v with
  | object members =>
    simp only [modifyIn, member_object]
    cases hlookup : members.lookup key with
    | some x =>
      simp only [member_object, lookup_put, Option.map_some]
    | none =>
      simp only [member_object, Option.map_none]
      split_ifs with heq
      · rw [heq, hlookup]
      · rfl
  | _ => simp [modifyIn, member, members?]

theorem member_removeMember (key key' : String) (v : Value) :
    member key' (modifyIn [] (remove key) v) = if key' = key then none else member key' v := by
  cases v with
  | object members => exact lookup_remove key key' members
  | _ => simp [modifyIn, member, members?]

theorem member_putMember (h : IsObject v) (key key' : String) (x : Value) :
    member key' (modifyIn [] (put key x) v) = if key' = key then some x else member key' v := by
  obtain ⟨members, rfl⟩ := h
  exact lookup_put key key' x members

theorem setIn_cons {u x : Value} (h : v.setIn (key :: path) x = some u) :
    IsObject u ∧ ∃ w, ((member key v).getD null).setIn path x = some w ∧
      ∀ key', member key' u = if key' = key then some w else member key' v := by
  cases v with
  | null =>
    obtain ⟨w, hw, rfl⟩ := Option.map_eq_some_iff.mp h
    refine ⟨⟨_, rfl⟩, w, hw, ?_⟩
    intro key'
    exact lookup_cons key key' w []
  | object members =>
    obtain ⟨w, hw, rfl⟩ := Option.map_eq_some_iff.mp h
    refine ⟨⟨_, rfl⟩, w, hw, ?_⟩
    intro key'
    exact lookup_put key key' w members
  | _ => cases h

theorem setIn_kind {u x : Value} (h : v.setIn (key :: path) x = some u) : v = null ∨ IsObject v := by
  cases v with
  | null => exact .inl rfl
  | object members => exact .inr ⟨members, rfl⟩
  | _ => cases h

theorem Alike.modifyIn {f : List (String × Value) → List (String × Value)}
    (hf : ∀ {v w}, Same v w → Same (Value.modifyIn [] f v) (Value.modifyIn [] f w))
    (path : List String) (h : Same v w) : Same (Value.modifyIn path f v) (Value.modifyIn path f w) := by
  induction path generalizing v w with
  | nil => exact hf h
  | cons key path ih =>
    apply Alike.of_children
    · simp only [Option.map_some, outline_modifyIn]
      exact h.outline
    · intro key'
      have hat := h.child key'
      simp only [Value.child, Option.bind_some, member_modifyIn] at hat ⊢
      split_ifs with heq
      · subst heq
        cases hv : member key' v with
        | none =>
          rw [hv] at hat
          have hw := hat.symm.eq_none
          rw [hw]
          exact .refl _
        | some x =>
          cases hw : member key' w with
          | none =>
            rw [hw] at hat
            have hnone := hat.eq_none
            rw [hv] at hnone
            cases hnone
          | some y =>
            rw [hv, hw] at hat
            exact ih hat
      · exact hat

theorem Alike.remove (key : String) (h : Same v w) :
    Same (Value.modifyIn [] (Value.remove key) v) (Value.modifyIn [] (Value.remove key) w) := by
  apply Alike.of_children
  · simp only [Option.map_some, outline_modifyIn]
    exact h.outline
  · intro key'
    have hat := h.child key'
    simp only [Value.child, Option.bind_some, member_removeMember] at hat ⊢
    split_ifs
    · exact .refl _
    · exact hat

theorem Alike.modifyIn_self {f : List (String × Value) → List (String × Value)}
    {path : List String}
    (h : ∀ x, v.getIn path = some x → Same (Value.modifyIn [] f x) x) :
    Same (Value.modifyIn path f v) v := by
  induction path generalizing v with
  | nil =>
    apply h
    cases v <;> rfl
  | cons key path ih =>
    apply Alike.of_children
    · simp only [Option.map_some, outline_modifyIn]
    · intro key'
      simp only [Value.child, Option.bind_some, member_modifyIn]
      split_ifs with heq
      · subst heq
        cases hx : member key' v with
        | none => exact .refl _
        | some x =>
          apply ih
          intro y hy
          apply h
          rw [getIn_cons, hx]
          exact hy
      · exact .refl _

theorem Alike.put (key : String) (x : Value) (h : Same v w) :
    Same (Value.modifyIn [] (Value.put key x) v) (Value.modifyIn [] (Value.put key x) w) := by
  by_cases hw : IsObject w
  · have hv := h.isObject hw
    apply Alike.of_children
    · simp only [Option.map_some, outline_modifyIn]
      exact h.outline
    · intro key'
      have hat := h.child key'
      simp only [Value.child, Option.bind_some, member_putMember hv, member_putMember hw] at hat ⊢
      split_ifs
      · exact .refl _
      · exact hat
  · have heq := Option.some.inj (h.eq_of_not_object hw)
    subst heq
    exact .refl _

/-! ## Merge patches -/

def Distinct (v : Value) : Prop :=
  ∀ path members, v.getIn path = some (object members) → (members.map Prod.fst).Nodup

theorem Distinct.of_not_object (h : ¬IsObject v) : v.Distinct := by
  intro path members hget
  cases path with
  | nil =>
    obtain rfl : v = object members := by cases v <;> cases hget; rfl
    exact absurd ⟨members, rfl⟩ h
  | cons key path =>
    rw [getIn_cons, member_eq_none h] at hget
    cases hget

theorem mem_of_lookup (h : members.lookup key = some v) : (key, v) ∈ members := by
  induction members with
  | nil => cases h
  | cons m rest ih =>
    obtain ⟨k, x⟩ := m
    rw [lookup_cons] at h
    split_ifs at h with heq
    · obtain rfl := Option.some.inj h
      rw [heq]
      exact List.mem_cons_self
    · exact List.mem_cons_of_mem _ (ih h)

theorem Distinct.of_members (hkeys : (members.map Prod.fst).Nodup)
    (hvalues : ∀ m ∈ members, m.2.Distinct) : (object members).Distinct := by
  intro path own hget
  cases path with
  | nil =>
    obtain rfl := object.inj (Option.some.inj hget)
    exact hkeys
  | cons key path =>
    rw [getIn_cons, member_object] at hget
    obtain ⟨x, hx, hown⟩ := Option.bind_eq_some_iff.mp hget
    exact hvalues _ (mem_of_lookup hx) path own hown

theorem Distinct.singleton (key : String) {v : Value} (h : v.Distinct) :
    (object [(key, v)]).Distinct := by
  apply Distinct.of_members (by simp)
  intro m hm
  rw [List.mem_singleton.mp hm]
  exact h

/-- The merge at one place; where the patch says nothing, the place keeps what it has. -/
def mergedAt (t : Option Value) : Option Value → Option Value
  | none => t
  | some null => none
  | some v => some (mergePatch (t.getD null) v)

theorem mergePatch_of_not_object {p : Value} (h : ¬IsObject p) (t : Value) : mergePatch t p = p := by
  cases p with
  | object members => exact absurd ⟨members, rfl⟩ h
  | _ => simp [mergePatch]

theorem mergedAt_some {p : Value} (h : p ≠ null) (t : Value) :
    mergedAt (some t) (some p) = some (mergePatch t p) := by
  cases p with
  | null => exact absurd rfl h
  | _ => rfl

theorem lookup_mergeMember (own : List (String × Value)) (key key' : String) (v : Value) :
    (mergeMember own (key, v)).lookup key' =
      if key' = key then mergedAt (own.lookup key) (some v) else own.lookup key' := by
  cases v with
  | null => rw [mergeMember, lookup_remove, mergedAt]
  | _ => rw [mergeMember, lookup_put, mergedAt] <;> simp

theorem lookup_eq_none (h : key ∉ members.map Prod.fst) : members.lookup key = none := by
  induction members with
  | nil => rfl
  | cons m rest ih =>
    obtain ⟨k, v⟩ := m
    simp only [List.map_cons, List.mem_cons, not_or] at h
    rw [lookup_cons, if_neg h.1, ih h.2]

/-- The members of the merge, in the words of the specification of merge patches. -/
theorem lookup_mergeMembers {patch : List (String × Value)}
    (hpatch : (patch.map Prod.fst).Nodup) (own : List (String × Value)) (key : String) :
    (mergeMembers own patch).lookup key = mergedAt (own.lookup key) (patch.lookup key) := by
  induction patch generalizing own with
  | nil => rw [mergeMembers]; rfl
  | cons m rest ih =>
    obtain ⟨k, v⟩ := m
    obtain ⟨hnew, hrest⟩ := List.nodup_cons.mp hpatch
    rw [mergeMembers, ih hrest, lookup_mergeMember, lookup_cons]
    by_cases hk : key = k
    · subst hk
      rw [if_pos rfl, if_pos rfl, lookup_eq_none hnew]
      rfl
    · rw [if_neg hk, if_neg hk]

theorem member_mergePatch {patch : List (String × Value)} (hpatch : (object patch).Distinct)
    (t : Value) (key : String) :
    member key (mergePatch t (object patch)) = mergedAt (member key t) (patch.lookup key) := by
  have hnodup : (patch.map Prod.fst).Nodup := hpatch [] patch rfl
  rw [mergePatch, member_object, lookup_mergeMembers hnodup]
  cases t <;> rfl

theorem child_mergedAt {patch : List (String × Value)} (hpatch : (object patch).Distinct)
    (t : Option Value) (key : String) :
    child key (mergedAt t (some (object patch))) = mergedAt (child key t) (patch.lookup key) := by
  change member key (mergePatch (t.getD null) (object patch)) = _
  rw [member_mergePatch hpatch]
  cases t <;> rfl

/-- A patch that goes on into the members of the place, or says nothing about it. -/
def Open (p : Option Value) : Prop := ∀ v, p = some v → IsObject v

theorem child_mergedAt_of_open {p : Option Value} (hopen : Open p)
    (hp : ∀ v, p = some v → v.Distinct) (t : Option Value) (key : String) :
    child key (mergedAt t p) = mergedAt (child key t) (child key p) := by
  cases p with
  | none => rfl
  | some v =>
    obtain ⟨patch, rfl⟩ := hopen v rfl
    exact child_mergedAt (hp _ rfl) t key

theorem mergedAt_isObject {t p : Option Value} (hopen : Open p)
    (h : p = none → ∃ v, t = some v ∧ IsObject v) : ∃ v, mergedAt t p = some v ∧ IsObject v := by
  cases p with
  | none => exact h rfl
  | some v =>
    obtain ⟨patch, rfl⟩ := hopen v rfl
    exact ⟨_, rfl, by rw [mergePatch]; exact ⟨_, rfl⟩⟩

theorem child_of_not_open {p : Option Value} (h : ¬Open p) (key : String) : child key p = none := by
  cases p with
  | none => rfl
  | some v =>
    apply member_eq_none
    intro hv
    exact h fun w hw => Option.some.inj hw ▸ hv

theorem mergedAt_of_not_open {p : Option Value} (h : ¬Open p) (t : Option Value) :
    mergedAt t p = mergedAt none p ∧ ∀ v, mergedAt none p = some v → ¬IsObject v := by
  cases p with
  | none => exact absurd (fun v hv => by cases hv) h
  | some v =>
    have hv : ¬IsObject v := fun hv => h fun w hw => Option.some.inj hw ▸ hv
    cases v with
    | null => exact ⟨rfl, fun w hw => by cases hw⟩
    | object members => exact absurd ⟨members, rfl⟩ hv
    | _ =>
      simp only [mergedAt, mergePatch, true_and]
      intro w hw
      obtain rfl := Option.some.inj hw
      exact hv

theorem mergedAt_outline {t t' : Option Value} (h : t.map outline = t'.map outline)
    (p : Option Value) : (mergedAt t p).map outline = (mergedAt t' p).map outline := by
  cases p with
  | none => exact h
  | some v => cases v <;> simp [mergedAt, mergePatch, outline]

theorem Distinct.member {x : Value} (h : v.Distinct) (hx : Value.member key v = some x) :
    x.Distinct := by
  intro path members hget
  apply h (key :: path)
  rw [getIn_cons, hx]
  exact hget

theorem Alike.mergedAt {t t' p : Option Value} (hp : ∀ v, p = some v → v.Distinct)
    (h : Alike t t') : Alike (Value.mergedAt t p) (Value.mergedAt t' p) := by
  intro path
  induction path generalizing t t' p with
  | nil =>
    simp only [bind_getIn_nil]
    cases p with
    | none => exact h.outline
    | some v => cases v <;> simp [Value.mergedAt, mergePatch, Value.outline]
  | cons key path ih =>
    simp only [bind_getIn_cons]
    cases p with
    | none => exact (h.child key) path
    | some v =>
      cases v with
      | object patch =>
        have hdistinct := hp _ rfl
        rw [child_mergedAt hdistinct, child_mergedAt hdistinct]
        exact ih (fun x hx => hdistinct.member hx) (h.child key)
      | _ => simp [Value.mergedAt, mergePatch, Value.child]

theorem Alike.mergePatch {t t' p : Value} (hp : p.Distinct) (h : Same t t') :
    Same (Value.mergePatch t p) (Value.mergePatch t' p) := by
  by_cases hnull : p = null
  · subst hnull
    simp only [Value.mergePatch]
    exact .refl _
  · have hat := Alike.mergedAt (p := some p) (fun v hv => Option.some.inj hv ▸ hp) h
    rwa [mergedAt_some hnull, mergedAt_some hnull] at hat

theorem mergedAt_again {p : Option Value} (hp : ∀ v, p = some v → v.Distinct) (t : Option Value) :
    Alike (mergedAt (mergedAt t p) p) (mergedAt t p) := by
  intro path
  induction path generalizing t p with
  | nil =>
    simp only [bind_getIn_nil]
    cases p with
    | none => rfl
    | some v => cases v <;> simp [mergedAt, mergePatch, outline]
  | cons key path ih =>
    simp only [bind_getIn_cons]
    cases p with
    | none => rfl
    | some v =>
      cases v with
      | object patch =>
        have hdistinct := hp _ rfl
        rw [child_mergedAt hdistinct, child_mergedAt hdistinct]
        exact ih (fun x hx => hdistinct.member hx) (child key t)
      | _ => simp [mergedAt, mergePatch]

theorem bind_getIn_append (o : Option Value) (path path' : List String) :
    o.bind (getIn (path ++ path')) = (o.bind (getIn path)).bind (getIn path') := by
  induction path generalizing o with
  | nil => rw [bind_getIn_nil, List.nil_append]
  | cons key path ih => rw [List.cons_append, bind_getIn_cons, bind_getIn_cons, ih]

theorem Alike.getIn (h : Alike o o') (path : List String) :
    Alike (o.bind (Value.getIn path)) (o'.bind (Value.getIn path)) := by
  intro path'
  rw [← bind_getIn_append, ← bind_getIn_append]
  exact h (path ++ path')

theorem mergedAt_set {t p : Option Value} (hp : ∀ v, p = some v → v.Distinct)
    (hv : p.bind (getIn path) = some v) (hnull : v ≠ null) (hobject : ¬IsObject v) :
    (mergedAt t p).bind (getIn path) = some v := by
  induction path generalizing t p with
  | nil =>
    rw [bind_getIn_nil] at hv ⊢
    subst hv
    cases v with
    | null => exact absurd rfl hnull
    | object members => exact absurd ⟨members, rfl⟩ hobject
    | _ => simp [mergedAt, mergePatch]
  | cons key path ih =>
    rw [bind_getIn_cons] at hv ⊢
    cases p with
    | none => cases hv
    | some u =>
      cases u with
      | object patch =>
        have hdistinct := hp _ rfl
        rw [child_mergedAt hdistinct]
        exact ih (fun x hx => hdistinct.member hx) hv
      | _ => cases hv

theorem mergedAt_deleted {t p : Option Value} (hp : ∀ v, p = some v → v.Distinct)
    (hv : p.bind (getIn path) = some null) : (mergedAt t p).bind (getIn path) = none := by
  induction path generalizing t p with
  | nil =>
    rw [bind_getIn_nil] at hv
    subst hv
    rfl
  | cons key path ih =>
    rw [bind_getIn_cons] at hv ⊢
    cases p with
    | none => cases hv
    | some u =>
      cases u with
      | object patch =>
        have hdistinct := hp _ rfl
        rw [child_mergedAt hdistinct]
        exact ih (fun x hx => hdistinct.member hx) hv
      | _ => cases hv

theorem mergedAt_kept {t p : Option Value} (hp : ∀ v, p = some v → v.Distinct)
    (hv : p.bind (getIn path) = some (object members)) (hkey : members.lookup key = none)
    (rest : List String) : (mergedAt t p).bind (getIn (path ++ key :: rest)) =
      t.bind (getIn (path ++ key :: rest)) := by
  induction path generalizing t p with
  | nil =>
    rw [bind_getIn_nil] at hv
    subst hv
    rw [List.nil_append, bind_getIn_cons, bind_getIn_cons, child_mergedAt (hp _ rfl), hkey]
    rfl
  | cons key' path ih =>
    rw [bind_getIn_cons] at hv
    rw [List.cons_append, bind_getIn_cons, bind_getIn_cons]
    cases p with
    | none => cases hv
    | some u =>
      cases u with
      | object patch =>
        have hdistinct := hp _ rfl
        rw [child_mergedAt hdistinct]
        exact ih (fun x hx => hdistinct.member hx) hv
      | _ => cases hv

/-- An object of the patch on the way along the path lacks the next member. -/
def Silent (patch : Value) (path : List String) : Prop :=
  ∃ before key rest members, path = before ++ key :: rest ∧
    patch.getIn before = some (object members) ∧ members.lookup key = none

structure Applied (stored patch doc : Value) : Prop where
  set : ∀ path v, patch.getIn path = some v → v ≠ null → ¬IsObject v → doc.getIn path = some v
  deleted : ∀ path, path ≠ [] → patch.getIn path = some null → doc.getIn path = none
  kept : ∀ path, patch.Silent path → Alike (doc.getIn path) (stored.getIn path)

theorem Alike.applied {stored patch doc : Value} (hpatch : patch.Distinct)
    (h : Same doc (Value.mergePatch stored patch)) : Applied stored patch doc := by
  by_cases hnull : patch = null
  · subst hnull
    constructor
    · intro path v hv hne
      cases path with
      | nil => exact absurd (Option.some.inj hv).symm hne
      | cons key path => cases hv
    · intro path hpath hv
      cases path with
      | nil => exact absurd rfl hpath
      | cons key path => cases hv
    · intro path hsilent
      obtain ⟨before, key, rest, members, -, hbefore, -⟩ := hsilent
      cases before <;> cases hbefore
  have hp : ∀ v, some patch = some v → v.Distinct := fun v hv => Option.some.inj hv ▸ hpatch
  have hat : ∀ path, Alike (doc.getIn path)
      ((Value.mergedAt (some stored) (some patch)).bind (Value.getIn path)) := by
    intro path
    rw [mergedAt_some hnull]
    exact h.getIn path
  constructor
  · intro path v hv hne hobject
    have hset := hat path
    rw [mergedAt_set hp hv hne hobject] at hset
    exact hset.eq_of_not_object hobject
  · intro path _ hv
    have hdeleted := hat path
    rw [mergedAt_deleted hp hv] at hdeleted
    exact hdeleted.eq_none
  · intro path hsilent
    obtain ⟨before, key, rest, members, rfl, hbefore, hkey⟩ := hsilent
    have hkept := hat (before ++ key :: rest)
    rw [mergedAt_kept hp hbefore hkey] at hkept
    exact hkept

end Value

import Mathlib.Data.List.Basic

/-!
# JSON values

Values with their members in a list, lookups along a path of keys, and the two ways in
which a program changes a value in place: an assignment through indexes, which makes the
members it needs, and a change of an object that is already there.
-/

inductive Value where
  | null
  | bool (b : Bool)
  | number (text : String)
  | string (s : String)
  | array (items : List Value)
  | object (members : List (String × Value))

namespace Value

def put (key : String) (x : Value) : List (String × Value) → List (String × Value)
  | [] => [(key, x)]
  | (k, v) :: rest => if key = k then (k, x) :: rest else (k, v) :: put key x rest

def remove (key : String) (members : List (String × Value)) : List (String × Value) :=
  members.filter fun m => m.1 ≠ key

def getIn : List String → Value → Option Value
  | [], v => some v
  | key :: path, object members => (members.lookup key).bind (getIn path)
  | _ :: _, _ => none

/-- An index of null makes an object of it; a value of another kind has no members, and
the assignment panics. -/
def setIn : Value → List String → Value → Option Value
  | _, [], x => some x
  | null, key :: path, x => (setIn null path x).map fun v => object [(key, v)]
  | object members, key :: path, x =>
    (setIn ((members.lookup key).getD null) path x).map fun v => object (put key v members)
  | _, _ :: _, _ => none

def modifyIn : List String → (List (String × Value) → List (String × Value)) → Value → Value
  | [], f, object members => object (f members)
  | key :: path, f, object members =>
    match members.lookup key with
    | some v => object (put key (modifyIn path f v) members)
    | none => object members
  | _, _, v => v

def members? : Value → Option (List (String × Value))
  | object members => some members
  | _ => none

mutual

/-- The JSON merge patch: a null takes a member out, an object is merged member by member
and any other value replaces what was there. -/
def mergePatch (target : Value) : Value → Value
  | object members => object (mergeMembers (target.members?.getD []) members)
  | patch => patch

def mergeMembers (own : List (String × Value)) : List (String × Value) → List (String × Value)
  | [] => own
  | m :: rest => mergeMembers (mergeMember own m) rest

def mergeMember (own : List (String × Value)) : String × Value → List (String × Value)
  | (key, null) => remove key own
  | (key, v) => put key (mergePatch ((own.lookup key).getD null) v) own

end

theorem lookup_cons (key key' : String) (v : Value) (rest : List (String × Value)) :
    ((key, v) :: rest).lookup key' = if key' = key then some v else rest.lookup key' := by
  by_cases h : key' = key
  · simp [h]
  · simp [List.lookup_cons, beq_false_of_ne h, h]

theorem lookup_put (key key' : String) (x : Value) (members : List (String × Value)) :
    (put key x members).lookup key' = if key' = key then some x else members.lookup key' := by
  induction members with
  | nil => exact lookup_cons key key' x []
  | cons m rest ih =>
    obtain ⟨k, v⟩ := m
    rw [put]
    by_cases hk : key = k
    · subst hk
      rw [if_pos rfl, lookup_cons, lookup_cons]
      split_ifs <;> rfl
    · rw [if_neg hk, lookup_cons, lookup_cons, ih]
      by_cases h : key' = k
      · rw [if_pos h, if_neg (h ▸ Ne.symm hk), if_pos h]
      · rw [if_neg h, if_neg h]

def HasObject (key : String) (own : List (String × Value)) (v : Value) : Prop :=
  ∃ members, v = object members ∧ members.lookup key = some (object own)

variable {key : String} {own : List (String × Value)} {v : Value}

theorem HasObject.unique {own' : List (String × Value)} (h : HasObject key own v)
    (h' : HasObject key own' v) : own = own' := by
  obtain ⟨members, rfl, hlookup⟩ := h
  obtain ⟨members', heq, hlookup'⟩ := h'
  obtain rfl := object.inj heq
  exact object.inj (Option.some.inj (hlookup.symm.trans hlookup'))

theorem HasObject.setIn_inside (h : HasObject key own v) (key' : String) (x : Value) :
    ∃ u, v.setIn [key, key'] x = some u ∧ HasObject key (put key' x own) u := by
  obtain ⟨members, rfl, hlookup⟩ := h
  refine ⟨object (put key (object (put key' x own)) members), by simp [setIn, hlookup], _, rfl, ?_⟩
  rw [lookup_put, if_pos rfl]

theorem HasObject.setIn_beside (h : HasObject key own v) {key' : String} (hne : key ≠ key')
    (x : Value) : ∃ u, v.setIn [key'] x = some u ∧ HasObject key own u := by
  obtain ⟨members, rfl, hlookup⟩ := h
  refine ⟨object (put key' x members), rfl, _, rfl, ?_⟩
  rw [lookup_put, if_neg hne, hlookup]

end Value

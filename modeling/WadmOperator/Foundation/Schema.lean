import WadmOperator.Foundation.Codec

/-!
# Schemas of records

A schema says member by member what a document has to be, without a word about how it is
read. A record is described by a schema if it accepts the documents that conform to it; its
description is put together from those of its fields.
-/

namespace Format

structure Entry where
  key : String
  needed : Bool
  /-- The value may be missing at the end of a list. -/
  short : Bool
  test : Value → Prop

def OrNull (test : Value → Prop) (v : Value) : Prop := v = .null ∨ test v

namespace Entry

def required (key : String) (test : Value → Prop) : Entry := ⟨key, true, false, test⟩

def defaulted (key : String) (test : Value → Prop) : Entry := ⟨key, false, true, test⟩

def optional (key : String) (test : Value → Prop) : Entry := ⟨key, false, false, OrNull test⟩

def omissible (key : String) (test : Value → Prop) : Entry := ⟨key, false, true, OrNull test⟩

def Holds (e : Entry) (members : List (String × Value)) : Prop :=
  (names members).count e.key ≤ 1 ∧ (e.needed = true → e.key ∈ names members) ∧
    ∀ m ∈ members, m.1 = e.key → e.test m.2

end Entry

def Listed : List Entry → List Value → Prop
  | [], values => values = []
  | e :: schema, [] => e.short = true ∧ Listed schema []
  | e :: schema, v :: values => e.test v ∧ Listed schema values

/-- An object with these members among others, or the list of their values. -/
def Conforms (schema : List Entry) (v : Value) : Prop :=
  (∃ members, v = .object members ∧ ∀ e ∈ schema, e.Holds members) ∨
    ∃ values, v = .array values ∧ Listed schema values

variable {α β : Type}

structure Entry.Describes (e : Entry) (key : String) (field : Field α) : Prop where
  key_eq : e.key = key
  needed : field.read none = none ↔ e.needed = true
  short : field.short.isSome = true ↔ e.short = true
  test (v) : (field.read (some v)).isSome = true ↔ e.test v

namespace Entry.Describes

variable {key : String} {c : Codec α} {test : Value → Prop}

theorem required (h : ∀ v, c.Accepts v ↔ test v) :
    (Entry.required key test).Describes key (Field.required c) :=
  ⟨rfl, by simp [Field.required, Entry.required], by simp [Field.required, Entry.required], h⟩

theorem defaulted (h : ∀ v, c.Accepts v ↔ test v) (a : α) :
    (Entry.defaulted key test).Describes key (Field.defaulted c a) :=
  ⟨rfl, by simp [Field.defaulted, Entry.defaulted], by simp [Field.defaulted, Entry.defaulted], h⟩

theorem orNull (h : ∀ v, c.Accepts v ↔ test v) (v : Value) :
    (Field.readOptional c (some v)).isSome = true ↔ OrNull test v := by
  rw [Field.readOptional_isSome, h, OrNull]

theorem optional (h : ∀ v, c.Accepts v ↔ test v) :
    (Entry.optional key test).Describes key (Field.optional c) :=
  ⟨rfl, by simp [Field.optional, Field.readOptional, Entry.optional],
    by simp [Field.optional, Entry.optional], orNull h⟩

theorem omissible (h : ∀ v, c.Accepts v ↔ test v) :
    (Entry.omissible key test).Describes key (Field.omissible c) :=
  ⟨rfl, by simp [Field.omissible, Field.optional, Field.readOptional, Entry.omissible],
    by simp [Field.omissible, Entry.omissible], orNull h⟩

theorem skipped (h : ∀ v, c.Accepts v ↔ test v) :
    (Entry.omissible key test).Describes key (Field.skipped c) :=
  ⟨rfl, by simp [Field.skipped, Field.readOptional, Entry.omissible],
    by simp [Field.skipped, Entry.omissible], orNull h⟩

end Entry.Describes

structure Describes (schema : List Entry) (r : Record α) : Prop where
  members (members) : (r.read members).isSome = true ↔ ∀ e ∈ schema, e.Holds members
  list (values) : (r.readList values).isSome = true ↔ Listed schema values

namespace Describes

theorem nil : Describes [] Record.nil where
  members _ := by simp [Record.nil]
  list values := by cases values <;> simp [Record.nil, Listed]

theorem holds_iff {e : Entry} {key : String} {field : Field α} (h : e.Describes key field)
    (members : List (String × Value)) :
    (Member.of ⟨key, α, field.read⟩ members).isSome = true ↔ e.Holds members := by
  rw [Member.of_isSome, Entry.Holds, h.key_eq]
  simp only [h.needed, h.test]

theorem cons {e : Entry} {schema : List Entry} {key : String} {field : Field α} {rest : Record β}
    {hkey : key ∉ rest.keys} (h : e.Describes key field) (hrest : Describes schema rest) :
    Describes (e :: schema) (Record.cons key field rest hkey) where
  members members := by
    rw [List.forall_mem_cons, ← holds_iff h, ← hrest.members, Record.read_isSome, Record.cons,
      List.forall_mem_cons, ← Record.read_isSome]
  list values := by
    cases values with
    | nil =>
      rw [Listed, ← h.short, ← hrest.list]
      change (field.short.bind fun a => (rest.readList []).map fun b => (a, b)).isSome = true ↔ _
      cases field.short <;> simp
    | cons v values =>
      rw [Listed, ← h.test, ← hrest.list]
      change ((field.read (some v)).bind fun a => (rest.readList values).map fun b =>
        (a, b)).isSome = true ↔ _
      cases field.read (some v) <;> simp

theorem as {schema : List Entry} {r : Record α} {of : α → β} {back : β → α}
    {hof : ∀ b, of (back b) = b} (h : Describes schema r) :
    Describes schema (r.as of back hof) where
  members members := by
    change ((r.read members).map of).isSome = true ↔ _
    rw [Option.isSome_map, h.members]
  list values := by
    change ((r.readList values).map of).isSome = true ↔ _
    rw [Option.isSome_map, h.list]

theorem accepts {schema : List Entry} {r : Record α} (h : Describes schema r) (v : Value) :
    r.codec.Accepts v ↔ Conforms schema v := by
  cases v with
  | object members =>
    change (r.read members).isSome = true ↔ _
    simp [Conforms, h.members]
  | array values =>
    change (r.readList values).isSome = true ↔ _
    simp [Conforms, h.list]
  | _ => simp [Conforms, Codec.Accepts, Record.codec]

end Describes
end Format

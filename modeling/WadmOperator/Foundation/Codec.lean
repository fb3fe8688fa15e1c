import WadmOperator.Foundation.Dict
import WadmOperator.Foundation.JsonMerge

/-!
# JSON formats of records

A codec writes a type as JSON and reads it back. A record is read field by field from the
members of an object: a field may be required, have a default, or be optional, in any order
and among members that the record does not know, and a member that is there twice is an
error. The laws of the parts are those of the whole, so a format is a list of its fields.
-/

namespace Format

structure Codec (α : Type) where
  encode : α → Value
  decode : Value → Option α
  decode_encode (a) : decode (encode a) = some a
  decode_null : decode .null = none

namespace Codec

variable {α β : Type}

theorem encode_ne_null (c : Codec α) (a : α) : c.encode a ≠ .null := by
  intro h
  have hread := c.decode_encode a
  rw [h, c.decode_null] at hread
  cases hread

def string : Codec String where
  encode := .string
  decode
    | .string s => some s
    | _ => none
  decode_encode _ := rfl
  decode_null := rfl

def bool : Codec Bool where
  encode := .bool
  decode
    | .bool b => some b
    | _ => none
  decode_encode _ := rfl
  decode_null := rfl

def natural (text : String) : Option Nat :=
  let n := Nat.ofDigitChars 10 text.toList 0
  if toString n = text then some n else none

theorem natural_toString (n : Nat) : natural (toString n) = some n := by
  have hread : Nat.ofDigitChars 10 (toString n).toList 0 = n := by
    rw [Nat.toString_eq_repr, Nat.toList_repr, Nat.ofDigitChars_ten_toDigits]
  simp only [natural, hread, if_true]

def bounded (bound : Nat) (toNat : α → Nat) (ofNat : Nat → α) (hlt : ∀ a, toNat a < bound)
    (hof : ∀ a, ofNat (toNat a) = a) : Codec α where
  encode a := .number (toString (toNat a))
  decode
    | .number text => (natural text).bind fun n => if n < bound then some (ofNat n) else none
    | _ => none
  decode_encode a := by
    simp only [natural_toString, Option.bind_some, if_pos (hlt a), hof]
  decode_null := rfl

def nat : Codec Nat where
  encode n := .number (toString n)
  decode
    | .number text => natural text
    | _ => none
  decode_encode := natural_toString
  decode_null := rfl

def uint32 : Codec UInt32 :=
  bounded (2 ^ 32) UInt32.toNat UInt32.ofNat UInt32.toNat_lt fun _ => UInt32.ofNat_toNat

def uint16 : Codec UInt16 :=
  bounded (2 ^ 16) UInt16.toNat UInt16.ofNat UInt16.toNat_lt fun _ => UInt16.ofNat_toNat

theorem mapM_decode (c : Codec α) (l : List α) : (l.map c.encode).mapM c.decode = some l := by
  induction l with
  | nil => rfl
  | cons a l ih => simp [c.decode_encode, ih]

def list (c : Codec α) : Codec (List α) where
  encode l := .array (l.map c.encode)
  decode
    | .array items => items.mapM c.decode
    | _ => none
  decode_encode := c.mapM_decode
  decode_null := rfl

/-- Of equal keys the last one counts. -/
def dictOf : List (String × α) → Dict String α
  | [] => Dict.empty
  | (k, v) :: rest => if k ∈ rest.map Prod.fst then dictOf rest else (dictOf rest).put k v

theorem dictOf_entries {kvs : List (String × α)} (h : (kvs.map Prod.fst).Nodup) :
    (dictOf kvs).entries = kvs.map fun kv => ⟨kv.1, kv.2⟩ := by
  induction kvs with
  | nil => rfl
  | cons kv kvs ih =>
    obtain ⟨k, v⟩ := kv
    obtain ⟨hk, hrest⟩ := List.nodup_cons.mp h
    have hnot : k ∉ dictOf kvs := by
      rw [AList.mem_keys, AList.keys, ih hrest]
      simpa [List.keys] using hk
    rw [dictOf, if_neg hk, Dict.put, AList.entries_insert_of_notMem hnot, ih hrest]
    rfl

theorem dictOf_toPairs (d : Dict String α) : dictOf d.toPairs = d := by
  apply AList.ext
  rw [dictOf_entries d.toPairs_keys_nodup, Dict.toPairs, List.map_map]
  exact List.map_id _

def pairs (c : Codec α) (members : List (String × Value)) : Option (List (String × α)) :=
  members.mapM fun m => (c.decode m.2).map fun a => (m.1, a)

theorem pairs_encode (c : Codec α) (kvs : List (String × α)) :
    c.pairs (kvs.map fun kv => (kv.1, c.encode kv.2)) = some kvs := by
  unfold pairs
  induction kvs with
  | nil => rfl
  | cons kv kvs ih => simp [c.decode_encode, ih]

def dict (c : Codec α) : Codec (Dict String α) where
  encode d := .object (d.toPairs.map fun kv => (kv.1, c.encode kv.2))
  decode
    | .object members => (c.pairs members).map dictOf
    | _ => none
  decode_encode d := by simp only [pairs_encode, Option.map_some, dictOf_toPairs]
  decode_null := rfl

/-! ### What a codec reads -/

def Accepts (c : Codec α) (v : Value) : Prop := (c.decode v).isSome = true

theorem accepts_string {v : Value} : string.Accepts v ↔ ∃ s, v = .string s := by
  cases v <;> simp [Accepts, string]

theorem accepts_bool {v : Value} : bool.Accepts v ↔ ∃ b, v = .bool b := by
  cases v <;> simp [Accepts, bool]

theorem natural_eq_some {text : String} {n : Nat} : natural text = some n ↔ text = toString n := by
  constructor
  · intro h
    obtain ⟨htext, hn⟩ := Option.ite_none_right_eq_some.mp h
    rw [← Option.some.inj hn, htext]
  · rintro rfl
    exact natural_toString n

theorem accepts_bounded {bound : Nat} {toNat : α → Nat} {ofNat : Nat → α}
    {hlt : ∀ a, toNat a < bound} {hof : ∀ a, ofNat (toNat a) = a} {v : Value} :
    (bounded bound toNat ofNat hlt hof).Accepts v ↔ ∃ n < bound, v = .number (toString n) := by
  cases v with
  | number text =>
    have hdecode : (bounded bound toNat ofNat hlt hof).Accepts (.number text) ↔
        ∃ n < bound, natural text = some n := by
      simp only [Accepts, bounded]
      cases natural text with
      | none => simp
      | some n => by_cases hn : n < bound <;> simp [hn]
    simp only [hdecode, natural_eq_some, Value.number.injEq]
  | _ => simp [Accepts, bounded]

theorem mapM_isSome {f : α → Option β} {l : List α} :
    (l.mapM f).isSome = true ↔ ∀ a ∈ l, (f a).isSome = true := by
  induction l with
  | nil => simp
  | cons a l ih =>
    rw [List.forall_mem_cons, ← ih, List.mapM_cons]
    cases f a <;> cases l.mapM f <;> simp

theorem accepts_list {c : Codec α} {v : Value} :
    c.list.Accepts v ↔ ∃ items, v = .array items ∧ ∀ item ∈ items, c.Accepts item := by
  cases v with
  | array items => simp [Accepts, list, mapM_isSome]
  | _ => simp [Accepts, list]

theorem accepts_dict {c : Codec α} {v : Value} :
    c.dict.Accepts v ↔ ∃ members, v = .object members ∧ ∀ m ∈ members, c.Accepts m.2 := by
  cases v with
  | object members => simp [Accepts, dict, pairs, mapM_isSome]
  | _ => simp [Accepts, dict]

end Codec

/-! ## Records -/

/-- How a field is read from its member, if it is there, and whether it is written. A record
may also be read from the list of its values, where `short` stands for what is missing. -/
structure Field (α : Type) where
  read : Option Value → Option α
  short : Option α
  write : α → Option Value
  read_write (a) : read (write a) = some a

namespace Field

variable {α : Type}

def required (c : Codec α) : Field α where
  read member := member.bind c.decode
  short := none
  write a := some (c.encode a)
  read_write := c.decode_encode

def defaulted (c : Codec α) (a : α) : Field α where
  read
    | some v => c.decode v
    | none => some a
  short := some a
  write a := some (c.encode a)
  read_write := c.decode_encode

def readOptional (c : Codec α) : Option Value → Option (Option α)
  | none | some .null => some none
  | some v => (c.decode v).map some

theorem readOptional_some (c : Codec α) {v : Value} (hv : v ≠ .null) :
    readOptional c (some v) = (c.decode v).map some := by
  cases v <;> simp [readOptional] at hv ⊢

theorem readOptional_encode (c : Codec α) (a : α) :
    readOptional c (some (c.encode a)) = some (some a) := by
  rw [readOptional_some c (c.encode_ne_null a), c.decode_encode]
  rfl

theorem readOptional_isSome {c : Codec α} {v : Value} :
    (readOptional c (some v)).isSome = true ↔ v = .null ∨ c.Accepts v := by
  by_cases hv : v = .null
  · simp [hv, readOptional]
  · simp [readOptional_some c hv, hv, Codec.Accepts]

/-- A field of an option: without a value a null is written. -/
def optional (c : Codec α) : Field (Option α) where
  read := readOptional c
  short := none
  write
    | some a => some (c.encode a)
    | none => some .null
  read_write
    | some a => readOptional_encode c a
    | none => rfl

def orDefault (c : Codec α) (a : α) : Field α where
  read member := (readOptional c member).map fun found => found.getD a
  short := some a
  write a := some (c.encode a)
  read_write _ := by rw [readOptional_encode, Option.map_some, Option.getD_some]

/-- An optional field that also may be missing at the end of a list. -/
def omissible (c : Codec α) : Field (Option α) := { optional c with short := some none }

def skipped (c : Codec α) : Field (Option α) where
  read := readOptional c
  short := some none
  write a := a.map c.encode
  read_write
    | some a => readOptional_encode c a
    | none => rfl

@[simp] theorem optional_null (c : Codec α) :
    (optional c).read (some .null) = (optional c).read none := rfl

@[simp] theorem omissible_null (c : Codec α) :
    (omissible c).read (some .null) = (omissible c).read none := rfl

@[simp] theorem defaulted_eq {c : Codec α} {a : α} {v : Value} :
    (defaulted c a).read (some v) = (defaulted c a).read none ↔ c.decode v = some a := .rfl

end Field

def found (key : String) (members : List (String × Value)) : List (String × Value) :=
  members.filter fun m => m.1 = key

def only (key : String) (members : List (String × Value)) : Option (Option Value) :=
  match found key members with
  | [] => some none
  | [m] => some (some m.2)
  | _ => none

def names (members : List (String × Value)) : List String := members.map Prod.fst

theorem mem_found {key : String} {members : List (String × Value)} {m : String × Value} :
    m ∈ found key members ↔ m ∈ members ∧ m.1 = key := by
  simp [found]

theorem found_eq_nil {key : String} {members : List (String × Value)} :
    found key members = [] ↔ key ∉ names members := by
  simp only [found, names, List.filter_eq_nil_iff, List.mem_map, not_exists, not_and,
    decide_eq_true_eq]

theorem found_append (key : String) (own members : List (String × Value)) :
    found key (own ++ members) = found key own ++ found key members :=
  List.filter_append _ _

theorem count_names (key : String) (members : List (String × Value)) :
    (names members).count key = (found key members).length := by
  rw [names, found, List.count_eq_countP, List.countP_map, List.countP_eq_length_filter]
  rfl

theorem only_eq_none_member {key : String} {members : List (String × Value)}
    (h : key ∉ names members) : only key members = some none := by
  rw [only, found_eq_nil.mpr h]

theorem only_append (key : String) {own : List (String × Value)} (members : List (String × Value))
    (h : key ∉ names own) : only key (own ++ members) = only key members := by
  rw [only, only, found_append, found_eq_nil.mpr h, List.nil_append]

theorem only_append_left (key : String) (own : List (String × Value))
    {members : List (String × Value)} (h : key ∉ names members) :
    only key (own ++ members) = only key own := by
  rw [only, only, found_append, found_eq_nil.mpr h, List.append_nil]

theorem only_of_mem {members : List (String × Value)} (honce : (names members).Nodup)
    {m : String × Value} (hm : m ∈ members) : only m.1 members = some (some m.2) := by
  have hcount : (found m.1 members).length = 1 := by
    rw [← count_names]
    exact List.count_eq_one_of_mem honce (List.mem_map_of_mem hm)
  obtain ⟨m', hfound⟩ := List.length_eq_one_iff.mp hcount
  have hin : m ∈ found m.1 members := mem_found.mpr ⟨hm, rfl⟩
  rw [hfound, List.mem_singleton] at hin
  rw [only, hfound, hin]

theorem lookup_of_mem {members : List (String × Value)} (honce : (names members).Nodup)
    {m : String × Value} (hm : m ∈ members) : members.lookup m.1 = some m.2 := by
  induction members with
  | nil => cases hm
  | cons m' rest ih =>
    obtain ⟨hnew, hrest⟩ := List.nodup_cons.mp honce
    rw [Value.lookup_cons]
    rcases List.mem_cons.mp hm with rfl | hm
    · rw [if_pos rfl]
    · have hne : m.1 ≠ m'.1 := fun heq => hnew (heq ▸ List.mem_map_of_mem hm)
      rw [if_neg hne, ih hrest hm]

theorem only_eq_lookup (key : String) {members : List (String × Value)}
    (honce : (names members).Nodup) : only key members = some (members.lookup key) := by
  by_cases hin : key ∈ names members
  · obtain ⟨m, hm, rfl⟩ := List.mem_map.mp hin
    rw [only_of_mem honce hm, lookup_of_mem honce hm]
  · rw [only_eq_none_member hin, Value.lookup_eq_none hin]

theorem only_perm (key : String) {members members' : List (String × Value)}
    (h : members.Perm members') : only key members = only key members' := by
  have hfound : (found key members).Perm (found key members') := h.filter _
  unfold only
  generalize found key members = l at hfound
  generalize found key members' = l' at hfound
  have hlength := hfound.length_eq
  rcases l with _ | ⟨m, _ | ⟨m₂, l⟩⟩ <;> rcases l' with _ | ⟨m', _ | ⟨m₂', l'⟩⟩ <;>
    simp only [List.length_cons, List.length_nil] at hlength
  all_goals first
    | rfl
    | omega
    | rw [List.singleton_perm_singleton.mp hfound]

structure Member where
  key : String
  Content : Type
  read : Option Value → Option Content

def Member.of (f : Member) (members : List (String × Value)) : Option f.Content :=
  (only f.key members).bind f.read

theorem Member.of_eq (f : Member) {members members' : List (String × Value)}
    (h : only f.key members = only f.key members') : f.of members = f.of members' := by
  rw [Member.of, Member.of, h]

theorem Member.of_isSome (f : Member) (members : List (String × Value)) :
    (f.of members).isSome = true ↔ (names members).count f.key ≤ 1 ∧
      (f.read none = none → f.key ∈ names members) ∧
      ∀ m ∈ members, m.1 = f.key → (f.read (some m.2)).isSome = true := by
  have hthere : f.key ∈ names members ↔ found f.key members ≠ [] :=
    (not_iff_comm.mp found_eq_nil.symm).symm
  simp only [← and_imp, ← mem_found, hthere, count_names, Member.of, only]
  rcases found f.key members with _ | ⟨m, _ | ⟨m₂, l⟩⟩
  · simp [Option.isSome_iff_ne_none]
  · simp
  · simp

structure Record (α : Type) where
  fields : List Member
  read : List (String × Value) → Option α
  readList : List Value → Option α
  write : α → List (String × Value)
  read_congr (members members') :
    (∀ f ∈ fields, f.of members = f.of members') → read members = read members'
  read_isSome (members) :
    (read members).isSome = true ↔ ∀ f ∈ fields, (f.of members).isSome = true
  write_keys (a) : ∀ m ∈ write a, m.1 ∈ fields.map Member.key
  read_write (a) : read (write a) = some a

namespace Record

variable {α β : Type}

def keys (r : Record α) : List String := r.fields.map Member.key

def nil : Record Unit where
  fields := []
  read _ := some ()
  readList
    | [] => some ()
    | _ => none
  write _ := []
  read_congr _ _ _ := rfl
  read_isSome _ := by simp
  write_keys _ _ h := by cases h
  read_write _ := rfl

def readCons (member : Member) (rest : Record β) (members : List (String × Value)) :
    Option (member.Content × β) :=
  (member.of members).bind fun a => (rest.read members).map fun b => (a, b)

def readListCons (field : Field α) (rest : Record β) : List Value → Option (α × β)
  | [] => field.short.bind fun a => (rest.readList []).map fun b => (a, b)
  | v :: vs => (field.read (some v)).bind fun a => (rest.readList vs).map fun b => (a, b)

def writeCons (key : String) (field : Field α) (rest : Record β) (ab : α × β) :
    List (String × Value) :=
  ((field.write ab.1).map fun v => (key, v)).toList ++ rest.write ab.2

theorem readCons_writeCons {key : String} (field : Field α) {rest : Record β}
    (hkey : key ∉ rest.keys) (ab : α × β) :
    readCons ⟨key, α, field.read⟩ rest (writeCons key field rest ab) = some ab := by
  obtain ⟨a, b⟩ := ab
  have hnot : key ∉ names (rest.write b) := by
    intro hin
    obtain ⟨m, hm, heq⟩ := List.mem_map.mp hin
    exact hkey (heq ▸ rest.write_keys b m hm)
  have hfirst : only key (writeCons key field rest (a, b)) = some (field.write a) := by
    rw [writeCons, only_append_left key _ hnot]
    cases field.write a with
    | none => rfl
    | some v => simp [only, found]
  have hrest : rest.read (writeCons key field rest (a, b)) = some b := by
    rw [← rest.read_write b]
    refine rest.read_congr _ _ fun f hf => f.of_eq (only_append f.key _ ?_)
    intro hin
    obtain ⟨m, hm, heq⟩ := List.mem_map.mp hin
    obtain ⟨v, -, rfl⟩ := Option.map_eq_some_iff.mp (Option.mem_toList.mp hm)
    exact hkey (List.mem_map.mpr ⟨f, hf, heq.symm⟩)
  simp [readCons, Member.of, hfirst, field.read_write, hrest]

def cons (key : String) (field : Field α) (rest : Record β)
    (hkey : key ∉ rest.keys := by simp) : Record (α × β) where
  fields := ⟨key, α, field.read⟩ :: rest.fields
  read := readCons ⟨key, α, field.read⟩ rest
  readList := readListCons field rest
  write := writeCons key field rest
  read_congr members members' h := by
    have hrest := rest.read_congr members members' fun f hf => h f (List.mem_cons_of_mem _ hf)
    have hfirst := h ⟨key, α, field.read⟩ List.mem_cons_self
    simp only [readCons, hfirst, hrest]
  read_isSome members := by
    have hrest := rest.read_isSome members
    rw [List.forall_mem_cons, ← hrest]
    unfold readCons
    cases Member.of ⟨key, α, field.read⟩ members <;> simp
  write_keys ab m hm := by
    rcases List.mem_append.mp hm with hm | hm
    · obtain ⟨v, -, rfl⟩ := Option.map_eq_some_iff.mp (Option.mem_toList.mp hm)
      exact List.mem_cons_self
    · exact List.mem_cons_of_mem _ (rest.write_keys ab.2 m hm)
  read_write := readCons_writeCons field hkey

@[simp] theorem keys_nil : nil.keys = [] := rfl

@[simp] theorem keys_cons (key : String) (field : Field α) (rest : Record β)
    (hkey : key ∉ rest.keys) : (cons key field rest hkey).keys = key :: rest.keys := rfl

def as (r : Record α) (of : α → β) (back : β → α) (h : ∀ b, of (back b) = b) : Record β where
  fields := r.fields
  read members := (r.read members).map of
  readList values := (r.readList values).map of
  write b := r.write (back b)
  read_congr members members' hsame := by rw [r.read_congr members members' hsame]
  read_isSome members := by rw [Option.isSome_map]; exact r.read_isSome members
  write_keys b := r.write_keys (back b)
  read_write b := by rw [r.read_write, Option.map_some, h]

def codec (r : Record α) : Codec α where
  encode a := .object (r.write a)
  decode
    | .object members => r.read members
    | .array values => r.readList values
    | _ => none
  decode_encode := r.read_write
  decode_null := rfl

def single (key : String) (c : Codec α) : Codec α :=
  ((cons key (.required c) nil).as Prod.fst (fun a => (a, ())) fun _ => rfl).codec

/-- A record is read back from its members in any order, whatever else is there. -/
theorem read_among (r : Record α) (a : α) {members others : List (String × Value)}
    (hmembers : members.Perm (others ++ r.write a))
    (hothers : ∀ m ∈ others, m.1 ∉ r.keys) : r.read members = some a := by
  rw [← r.read_write a]
  refine r.read_congr _ _ fun f hf => f.of_eq ?_
  rw [only_perm f.key hmembers]
  refine only_append f.key _ fun hin => ?_
  obtain ⟨m, hm, heq⟩ := List.mem_map.mp hin
  exact hothers m hm (List.mem_map.mpr ⟨f, hf, heq.symm⟩)

theorem read_perm (r : Record α) {members members' : List (String × Value)}
    (h : members.Perm members') : r.read members = r.read members' :=
  r.read_congr _ _ fun f _ => f.of_eq (only_perm f.key h)

def Neutral (r : Record α) (m : String × Value) : Prop :=
  ∀ f ∈ r.fields, m.1 = f.key → f.read (some m.2) = f.read none

theorem neutral_of_not_mem {r : Record α} {m : String × Value} (h : m.1 ∉ r.keys) :
    r.Neutral m :=
  fun _ hf hkey => absurd (hkey ▸ List.mem_map_of_mem hf) h

@[simp] theorem neutral_nil (m : String × Value) : nil.Neutral m := by
  intro f hf
  cases hf

@[simp] theorem neutral_cons {key : String} {field : Field α} {rest : Record β}
    {hkey : key ∉ rest.keys} {m : String × Value} :
    (cons key field rest hkey).Neutral m ↔
      (m.1 = key → field.read (some m.2) = field.read none) ∧ rest.Neutral m :=
  List.forall_mem_cons

@[simp] theorem neutral_as {r : Record α} {of : α → β} {back : β → α}
    {h : ∀ b, of (back b) = b} {m : String × Value} :
    (r.as of back h).Neutral m ↔ r.Neutral m := .rfl

theorem read_filled (r : Record α) {members fill : List (String × Value)}
    (honce : (names fill).Nodup) (hnew : ∀ key ∈ names fill, key ∉ names members)
    (hfill : ∀ m ∈ fill, r.Neutral m) : r.read (fill ++ members) = r.read members := by
  refine r.read_congr _ _ fun f hf => ?_
  by_cases hin : f.key ∈ names fill
  · have hnot := hnew f.key hin
    obtain ⟨m, hm, hkey⟩ := List.mem_map.mp hin
    have hread := hfill m hm f hf hkey
    have hsome : only f.key (fill ++ members) = some (some m.2) := by
      rw [only_append_left f.key fill hnot, ← hkey, only_of_mem honce hm]
    rw [Member.of, Member.of, only_eq_none_member hnot, hsome]
    exact hread
  · exact f.of_eq (only_append f.key members hin)

theorem lookup_mergeMembers_plain (own : List (String × Value)) {patch : List (String × Value)}
    (honce : (names patch).Nodup) {m : String × Value} (hm : m ∈ patch) (hnull : m.2 ≠ .null)
    (hplain : ¬Value.IsObject m.2) :
    (Value.mergeMembers own patch).lookup m.1 = some m.2 := by
  rw [Value.lookup_mergeMembers honce, lookup_of_mem honce hm]
  obtain ⟨key, v⟩ := m
  cases v with
  | null => exact absurd rfl hnull
  | object members => exact absurd ⟨members, rfl⟩ hplain
  | _ => simp [Value.mergedAt, Value.mergePatch]

theorem names_put (key : String) (x : Value) (members : List (String × Value)) :
    names (Value.put key x members) =
      if key ∈ names members then names members else names members ++ [key] := by
  induction members with
  | nil => rfl
  | cons m rest ih =>
    obtain ⟨k, v⟩ := m
    rw [Value.put]
    by_cases hk : key = k
    · subst hk
      simp [names]
    · have hin : key ∈ names ((k, v) :: rest) ↔ key ∈ names rest := by simp [names, hk]
      rw [if_neg hk, names, List.map_cons, ← names, ih, if_congr hin rfl rfl]
      split_ifs <;> rfl

theorem nodup_names_mergeMembers {own : List (String × Value)} (honce : (names own).Nodup)
    (patch : List (String × Value)) : (names (Value.mergeMembers own patch)).Nodup := by
  induction patch generalizing own with
  | nil => rwa [Value.mergeMembers]
  | cons m rest ih =>
    obtain ⟨key, v⟩ := m
    have hput : ∀ x, (names (Value.put key x own)).Nodup := by
      intro x
      rw [names_put]
      split_ifs with hin
      · exact honce
      · exact List.nodup_append.mpr ⟨honce, List.nodup_singleton key, fun a ha b hb heq =>
          hin (List.mem_singleton.mp hb ▸ heq ▸ ha)⟩
    rw [Value.mergeMembers]
    apply ih
    cases v with
    | null =>
      rw [Value.mergeMember]
      exact honce.sublist (List.filter_sublist.map Prod.fst)
    | _ => rw [Value.mergeMember] <;> first | exact hput _ | simp

theorem read_merged (r : Record α) (a : α) {own : List (String × Value)}
    (hown : (names own).Nodup) (hall : names (r.write a) = r.keys) (honce : r.keys.Nodup)
    (hplain : ∀ m ∈ r.write a, m.2 ≠ .null ∧ ¬Value.IsObject m.2) :
    r.read (Value.mergeMembers own (r.write a)) = some a := by
  rw [← hall] at honce
  have hmerged := nodup_names_mergeMembers hown (r.write a)
  have hread : r.read (r.write a) = some a := r.read_write a
  refine (r.read_congr _ _ fun f hf => f.of_eq ?_).trans hread
  have hkey : f.key ∈ names (r.write a) := hall ▸ List.mem_map_of_mem hf
  obtain ⟨m, hm, heq⟩ := List.mem_map.mp hkey
  obtain ⟨hnull, hobject⟩ := hplain m hm
  rw [only_eq_lookup _ hmerged, ← heq, only_of_mem honce hm,
    lookup_mergeMembers_plain own honce hm hnull hobject]

end Record

end Format

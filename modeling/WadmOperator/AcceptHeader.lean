import WadmOperator.Applications
import WadmOperator.Foundation.Pieces

/-!
# The Accept header

`Accept::decode`, and the grammar of the values that it gets: media ranges between
commas, parameters between semicolons, white space around both. The decoder cuts at the
semicolons alone and looks at one part.
-/

namespace WadmOperator

structure HeaderValue where
  bytes : List UInt8

namespace HeaderValue

def isVisibleAscii (b : UInt8) : Bool := (32 ≤ b && b < 127) || b = 9

/-- A value with other bytes has no text. -/
def toStr (value : HeaderValue) : Option (List Char) :=
  if value.bytes.all isVisibleAscii then some (value.bytes.map fun b => Char.ofNat b.toNat)
  else none

end HeaderValue

structure Accept where
  kind : As
  deriving DecidableEq

namespace Accept

def stripPrefix (word text : List Char) : Option (List Char) :=
  if word.isPrefixOf text then some (text.drop word.length) else none

def asParts (value : List Char) : List (List Char) :=
  ((value.splitOn ';').filter ("as=".toList.isPrefixOf ·)).map fun p =>
    (stripPrefix "as=".toList p).getD []

def kindNamed (name : List Char) : As :=
  if name = "APIGroupDiscoveryList".toList then .apiGroupDiscoveryList
  else if name = "PartialObjectMetadataList".toList then .partialObjectMetadataList
  else if name = "Table".toList then .table
  else .notSpecified

def decodeText (value : List Char) : As :=
  match (asParts value).head? with
  | some name => kindNamed name
  | none => .notSpecified

/-- Only the first header value is read, and it is never an error. -/
def decode (values : List HeaderValue) : Except String Accept :=
  match values.head? with
  | none => .ok ⟨.notSpecified⟩
  | some value => .ok ⟨decodeText (value.toStr.getD "n/a".toList)⟩

end Accept

/-! ## Header values -/

namespace AcceptHeader

def between (low high c : Char) : Bool := low.toNat ≤ c.toNat && c.toNat ≤ high.toNat

def isTokenChar (c : Char) : Bool :=
  between '0' '9' c || between 'A' 'Z' c || between 'a' 'z' c || "!#$%&'*+-.^_`|~".toList.contains c

structure Token where
  chars : List Char
  nonempty : chars ≠ []
  valid : chars.all isTokenChar = true

structure Space where
  chars : List Char
  valid : chars.all (fun c => c = ' ' || c = Char.ofNat 9) = true

def isFieldChar (c : Char) : Bool :=
  c = Char.ofNat 9 || (32 ≤ c.toNat && c.toNat < 127) || (128 ≤ c.toNat && c.toNat < 256)

/-- A backslash escapes any character of a quoted string. -/
inductive QuotedChar where
  | plain (c : Char) (valid : isFieldChar c = true ∧ c ≠ '"' ∧ c ≠ Char.ofNat 92)
  | escaped (c : Char) (valid : isFieldChar c = true)

def QuotedChar.char : QuotedChar → Char
  | plain c _ => c
  | escaped c _ => c

def QuotedChar.text : QuotedChar → List Char
  | plain c _ => [c]
  | escaped c _ => [Char.ofNat 92, c]

inductive ParameterValue where
  | token (t : Token)
  | quoted (cs : List QuotedChar)

def ParameterValue.content : ParameterValue → List Char
  | token t => t.chars
  | quoted cs => cs.map QuotedChar.char

def ParameterValue.text : ParameterValue → List Char
  | token t => t.chars
  | quoted cs => '"' :: (cs.flatMap QuotedChar.text ++ ['"'])

structure Parameter where
  name : Token
  value : ParameterValue

def Parameter.text (p : Parameter) : List Char := p.name.chars ++ '=' :: p.value.text

def Parameter.kind (p : Parameter) : As :=
  if p.name.chars = "as".toList then Accept.kindNamed p.value.content else .notSpecified

/-- A semicolon with white space around it, and the parameter behind it. -/
structure ParameterPart where
  before : Space
  after : Space
  parameter : Option Parameter

def ParameterPart.text (p : ParameterPart) : List Char :=
  p.before.chars ++ ';' :: (p.after.chars ++ (p.parameter.map Parameter.text).getD [])

structure MediaRange where
  type : Token
  subtype : Token
  parts : List ParameterPart

def MediaRange.text (range : MediaRange) : List Char :=
  range.type.chars ++ '/' :: (range.subtype.chars ++ range.parts.flatMap ParameterPart.text)

def firstKnown (kinds : List As) : As := (kinds.find? (· ≠ .notSpecified)).getD .notSpecified

def MediaRange.kind (range : MediaRange) : As :=
  firstKnown ((range.parts.filterMap ParameterPart.parameter).map Parameter.kind)

structure ListedRange where
  before : Space
  after : Space
  range : MediaRange

def ListedRange.text (listed : ListedRange) : List Char :=
  listed.before.chars ++ ',' :: (listed.after.chars ++ listed.range.text)

end AcceptHeader

open AcceptHeader in
inductive AcceptHeader where
  | empty
  | list (first : MediaRange) (others : List ListedRange)

namespace AcceptHeader

def ranges : AcceptHeader → List MediaRange
  | empty => []
  | list first others => first :: others.map ListedRange.range

def text : AcceptHeader → List Char
  | empty => []
  | list first others => first.text ++ others.flatMap ListedRange.text

def value (h : AcceptHeader) : HeaderValue := ⟨h.text.map fun c => UInt8.ofNat c.toNat⟩

/-- The kind that the first media range names which names one. -/
def kind (h : AcceptHeader) : As := firstKnown (h.ranges.map MediaRange.kind)

end AcceptHeader

namespace Accept

variable {text name : List Char} {kind : As}

/-- The first `;as=` of the text is followed by the name of the kind, and the name by a
semicolon or the end. -/
def NamesFirst (text : List Char) (kind : As) : Prop :=
  ∃ before after, text = before ++ ';' :: ("as=".toList ++ kind.text.toList ++ after) ∧
    ¬";as=".toList <:+: before ∧ (after = [] ∨ after.head? = some ';')

/-! ## The decoder on a text -/

theorem kindNamed_iff (hkind : kind ≠ .notSpecified) :
    kindNamed name = kind ↔ name = kind.text.toList := by
  unfold kindNamed
  split_ifs with hgroups hpartial htable
  · subst hgroups
    cases kind <;> decide
  · subst hpartial
    cases kind <;> decide
  · subst htable
    cases kind <;> decide
  · refine iff_of_false hkind.symm fun hname => ?_
    cases kind with
    | apiGroupDiscoveryList => exact hgroups hname
    | partialObjectMetadataList => exact hpartial hname
    | table => exact htable hname
    | notSpecified => exact hkind rfl

theorem stripPrefix_append (word rest : List Char) :
    stripPrefix word (word ++ rest) = some rest := by
  rw [stripPrefix, if_pos (List.isPrefixOf_iff_prefix.mpr (List.prefix_append _ _)), List.drop_left]

theorem semicolon_not_mem_text (kind : As) : ';' ∉ kind.text.toList := by
  cases kind <;> decide

theorem decodeText_iff (hstart : ¬"as=".toList <+: text) (hkind : kind ≠ .notSpecified) :
    decodeText text = kind ↔ NamesFirst text kind := by
  have hpiece := Pieces.find_piece_iff (show ';' ∉ "as=".toList by decide)
    (semicolon_not_mem_text kind) hstart
  refine Iff.trans ?_ hpiece
  rw [decodeText, asParts, List.head?_map, List.head?_filter]
  cases hfind : (text.splitOn ';').find? ("as=".toList.isPrefixOf ·) with
  | none =>
    refine iff_of_false hkind.symm ?_
    rintro ⟨⟩
  | some p =>
    obtain ⟨rest, rfl⟩ := List.isPrefixOf_iff_prefix.mp (List.find?_some hfind)
    rw [Option.map_some, stripPrefix_append, Option.getD_some, Option.some.injEq,
      List.append_right_inj]
    exact kindNamed_iff hkind

theorem decode_cons (value : HeaderValue) (more : List HeaderValue) :
    decode (value :: more) = .ok ⟨decodeText (value.toStr.getD "n/a".toList)⟩ := rfl

theorem decodeText_none : decodeText "n/a".toList = .notSpecified := by decide

end Accept

namespace AcceptHeader

variable {h : AcceptHeader}

/-! ## The text of a header value -/

def Narrow (l : List Char) : Prop := ∀ c ∈ l, c.toNat < 256

theorem Narrow.append {l more : List Char} (hl : Narrow l) (hmore : Narrow more) :
    Narrow (l ++ more) := by
  intro c hc
  exact (List.mem_append.mp hc).elim (hl c) (hmore c)

theorem Narrow.cons {c : Char} {l : List Char} (hc : c.toNat < 256) (hl : Narrow l) :
    Narrow (c :: l) := List.forall_mem_cons.mpr ⟨hc, hl⟩

theorem Narrow.flatMap {α : Type} {f : α → List Char} (hf : ∀ a, Narrow (f a)) (l : List α) :
    Narrow (l.flatMap f) := by
  intro c hc
  obtain ⟨a, -, hin⟩ := List.mem_flatMap.mp hc
  exact hf a c hin

theorem between_narrow {low high c : Char} (hhigh : high.toNat < 256)
    (hc : between low high c = true) : c.toNat < 256 := by
  simp only [between, Bool.and_eq_true, decide_eq_true_eq] at hc
  omega

theorem isTokenChar_narrow {c : Char} (hc : isTokenChar c = true) : c.toNat < 256 := by
  simp only [isTokenChar, Bool.or_eq_true] at hc
  rcases hc with ((hdigit | hupper) | hlower) | hmark
  · exact between_narrow (by decide) hdigit
  · exact between_narrow (by decide) hupper
  · exact between_narrow (by decide) hlower
  · have hall : "!#$%&'*+-.^_`|~".toList.all (fun c => c.toNat < 256) = true := by decide
    exact of_decide_eq_true (List.all_eq_true.mp hall c (List.contains_iff_mem.mp hmark))

theorem Token.mem (t : Token) {c : Char} (hc : c ∈ t.chars) : isTokenChar c = true :=
  List.all_eq_true.mp t.valid c hc

theorem Token.narrow (t : Token) : Narrow t.chars := fun _ hc => isTokenChar_narrow (t.mem hc)

theorem Space.narrow (space : Space) : Narrow space.chars := by
  intro c hc
  have hblank := List.all_eq_true.mp space.valid c hc
  simp only [Bool.or_eq_true, decide_eq_true_eq] at hblank
  rcases hblank with rfl | rfl <;> decide

theorem isFieldChar_narrow {c : Char} (hc : isFieldChar c = true) : c.toNat < 256 := by
  simp only [isFieldChar, Bool.or_eq_true, Bool.and_eq_true, decide_eq_true_eq] at hc
  rcases hc with (rfl | hascii) | hother
  · decide
  · omega
  · omega

theorem QuotedChar.narrow (c : QuotedChar) : Narrow c.text := by
  cases c with
  | plain c valid => exact List.forall_mem_singleton.mpr (isFieldChar_narrow valid.1)
  | escaped c valid =>
    exact .cons (by decide) (List.forall_mem_singleton.mpr (isFieldChar_narrow valid))

theorem ParameterValue.narrow (value : ParameterValue) : Narrow value.text := by
  cases value with
  | token t => exact t.narrow
  | quoted cs =>
    apply Narrow.cons (by decide)
    exact (Narrow.flatMap QuotedChar.narrow cs).append (List.forall_mem_singleton.mpr (by decide))

theorem ParameterPart.narrow (p : ParameterPart) : Narrow p.text := by
  refine p.before.narrow.append (.cons (by decide) (p.after.narrow.append ?_))
  cases p.parameter with
  | none => exact List.forall_mem_nil _
  | some parameter =>
    exact parameter.name.narrow.append (.cons (by decide) parameter.value.narrow)

theorem MediaRange.narrow (range : MediaRange) : Narrow range.text := by
  refine range.type.narrow.append (.cons (by decide) (range.subtype.narrow.append ?_))
  exact Narrow.flatMap ParameterPart.narrow range.parts

theorem ListedRange.narrow (listed : ListedRange) : Narrow listed.text :=
  listed.before.narrow.append (.cons (by decide) (listed.after.narrow.append listed.range.narrow))

theorem text_narrow (h : AcceptHeader) : Narrow h.text := by
  cases h with
  | empty => exact List.forall_mem_nil _
  | list first others => exact first.narrow.append (Narrow.flatMap ListedRange.narrow others)

/-- A token has no sign of equality, so the text starts with no parameter. -/
theorem text_start (h : AcceptHeader) : ¬"as=".toList <+: h.text := by
  cases h with
  | empty => decide
  | list first others =>
    intro hstart
    obtain ⟨rest, heq⟩ := hstart
    rw [text, MediaRange.text, List.append_assoc, List.cons_append] at heq
    have hequals : '=' ∉ first.type.chars := by
      intro hin
      exact absurd (first.type.mem hin) (by decide)
    rcases List.append_eq_append_iff.mp heq with ⟨more, hmore, -⟩ | ⟨more, hmore, hrest⟩
    · apply hequals
      rw [hmore]
      exact List.mem_append_left _ (by decide)
    · cases more with
      | nil =>
        apply hequals
        rw [List.append_nil] at hmore
        rw [← hmore]
        decide
      | cons c more =>
        obtain rfl := (List.cons.inj hrest).1
        have hslash : '/' ∉ "as=".toList := by decide
        apply hslash
        rw [hmore]
        exact List.mem_append_right _ List.mem_cons_self

/-! ## The decoder on a header value -/

def isVisible (c : Char) : Bool := (32 ≤ c.toNat && c.toNat < 127) || c.toNat = 9

def Visible (h : AcceptHeader) : Prop := ∀ c ∈ h.text, isVisible c = true

theorem isVisibleAscii_ofNat {c : Char} (hc : c.toNat < 256) :
    HeaderValue.isVisibleAscii (UInt8.ofNat c.toNat) = isVisible c := by
  have hbyte : (UInt8.ofNat c.toNat).toNat = c.toNat := UInt8.toNat_ofNat_of_lt' hc
  apply Bool.eq_iff_iff.mpr
  simp only [HeaderValue.isVisibleAscii, isVisible, Bool.or_eq_true, Bool.and_eq_true,
    decide_eq_true_eq, UInt8.le_iff_toNat_le, UInt8.lt_iff_toNat_lt, ← UInt8.toNat_inj, hbyte]
  rfl

theorem toStr_of_visible (hvisible : h.Visible) : h.value.toStr = some h.text := by
  have hall : h.value.bytes.all HeaderValue.isVisibleAscii = true := by
    rw [value, List.all_map, List.all_eq_true]
    intro c hc
    exact (isVisibleAscii_ofNat (h.text_narrow c hc)).trans (hvisible c hc)
  rw [HeaderValue.toStr, if_pos hall, value, List.map_map, Option.some.injEq]
  refine (List.map_congr_left fun c hc => ?_).trans (List.map_id _)
  have hbyte : (UInt8.ofNat c.toNat).toNat = c.toNat :=
    UInt8.toNat_ofNat_of_lt' (h.text_narrow c hc)
  rw [Function.comp_apply, hbyte]
  exact Char.ofNat_toNat c

theorem toStr_of_hidden (hhidden : ¬h.Visible) : h.value.toStr = none := by
  refine if_neg fun hall => hhidden fun c hc => ?_
  rw [value, List.all_map, List.all_eq_true] at hall
  exact (isVisibleAscii_ofNat (h.text_narrow c hc)).symm.trans (hall c hc)

/-- What the value says is at the place where the decoder looks. -/
structure Legible (h : AcceptHeader) : Prop where
  named : h.kind ≠ .notSpecified → h.Visible ∧ Accept.NamesFirst h.text h.kind
  unnamed : h.kind = .notSpecified → h.Visible → ∀ kind, kind ≠ .notSpecified →
    ¬Accept.NamesFirst h.text kind

theorem decode_of_visible (hvisible : h.Visible) (more : List HeaderValue) :
    Accept.decode (h.value :: more) = .ok ⟨Accept.decodeText h.text⟩ := by
  rw [Accept.decode_cons, toStr_of_visible hvisible, Option.getD_some]

theorem decode_of_hidden (hhidden : ¬h.Visible) (more : List HeaderValue) :
    Accept.decode (h.value :: more) = .ok ⟨.notSpecified⟩ := by
  rw [Accept.decode_cons, toStr_of_hidden hhidden, Option.getD_none, Accept.decodeText_none]

/-- The decoder returns what the value says exactly when it is legible. -/
theorem decode_eq_kind_iff (h : AcceptHeader) (more : List HeaderValue) :
    Accept.decode (h.value :: more) = .ok ⟨h.kind⟩ ↔ h.Legible := by
  have hreads : ∀ kind, kind ≠ .notSpecified →
      (Accept.decodeText h.text = kind ↔ Accept.NamesFirst h.text kind) :=
    fun _ hknown => Accept.decodeText_iff h.text_start hknown
  by_cases hvisible : h.Visible
  · rw [decode_of_visible hvisible, Except.ok.injEq, Accept.mk.injEq]
    by_cases hkind : h.kind = .notSpecified
    · constructor
      · intro hnone
        refine ⟨fun hnamed => absurd hkind hnamed, fun _ _ kind hknown hnames => ?_⟩
        rw [(hreads kind hknown).mpr hnames, hkind] at hnone
        exact hknown hnone
      · intro hlegible
        by_contra hnot
        rw [hkind] at hnot
        exact hlegible.unnamed hkind hvisible _ hnot ((hreads _ hnot).mp rfl)
    · rw [hreads _ hkind]
      constructor
      · intro hnames
        exact ⟨fun _ => ⟨hvisible, hnames⟩, fun hnone => absurd hnone hkind⟩
      · intro hlegible
        exact (hlegible.named hkind).2
  · rw [decode_of_hidden hvisible, Except.ok.injEq, Accept.mk.injEq]
    constructor
    · intro hnone
      exact ⟨fun hnamed => absurd hnone.symm hnamed, fun _ hsome => absurd hsome hvisible⟩
    · intro hlegible
      by_contra hnot
      exact hvisible (hlegible.named (Ne.symm hnot)).1

def applicationJson (parts : List ParameterPart) : MediaRange where
  type := ⟨"application".toList, by decide, by decide⟩
  subtype := ⟨"json".toList, by decide, by decide⟩
  parts := parts

def unspaced : Space := ⟨[], by decide⟩

def asTable : Parameter where
  name := ⟨"as".toList, by decide, by decide⟩
  value := .token ⟨"Table".toList, by decide, by decide⟩

/-- A table with a fallback: `application/json;as=Table,application/json`. -/
def tableOrJson : AcceptHeader :=
  .list (applicationJson [⟨unspaced, unspaced, some asTable⟩])
    [⟨unspaced, unspaced, applicationJson []⟩]

/-- A parameter right before a comma is not recognized. -/
theorem tableOrJson_missed : ¬∀ (h : AcceptHeader) (more : List HeaderValue),
    Accept.decode (h.value :: more) = .ok ⟨h.kind⟩ := by
  intro hall
  have hdecoded : Accept.decode [tableOrJson.value] = .ok ⟨.notSpecified⟩ := by decide
  have hkind : tableOrJson.kind = .table := by decide
  have hsame := (hall tableOrJson []).symm.trans hdecoded
  rw [hkind] at hsame
  cases hsame

end AcceptHeader
end WadmOperator

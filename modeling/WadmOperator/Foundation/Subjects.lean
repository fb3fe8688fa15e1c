import Mathlib.Data.List.Basic

/-!
# Subjects of a message bus

A subject is a list of tokens, written with dots between them. In a pattern a star stands
for one token and an angle bracket at the end for one or more. A transform takes the tokens
that the wildcards of its source stand for and puts them into its destination.
-/

namespace Subjects

abbrev TokenList := List String

def tokens (s : String) : TokenList := (s.toList.splitOn '.').map String.ofList

def accepts : TokenList → TokenList → Bool
  | [], [] => true
  | p :: ps, t :: ts => p == ">" && ps.isEmpty || (p == "*" || p == t) && accepts ps ts
  | _, _ => false

/-- The tokens that the stars stand for, and those at the end. -/
def captures : TokenList → TokenList → Option (TokenList × TokenList)
  | [], [] => some ([], [])
  | p :: ps, t :: ts =>
    if p = ">" ∧ ps = [] then some ([], t :: ts)
    else if p = "*" then (captures ps ts).map fun (ws, rest) => (t :: ws, rest)
    else if p = t then captures ps ts
    else none
  | _, _ => none

/-- The token of a destination that stands for a star of the source, counted from one. -/
def wildcard (n : Nat) : String := "\x7b\x7bwildcard(" ++ toString n ++ ")\x7d\x7d"

def fill (ws rest : TokenList) (token : String) : TokenList :=
  if token = ">" then rest
  else
    match (List.range ws.length).find? fun n => token = wildcard (n + 1) with
    | some n => ws[n]?.toList
    | none => [token]

def transform (source destination subject : TokenList) : Option TokenList :=
  (captures source subject).map fun (ws, rest) => destination.flatMap (fill ws rest)

def Literal (token : String) : Prop := token ≠ "*" ∧ token ≠ ">"

instance (token : String) : Decidable (Literal token) := inferInstanceAs (Decidable (_ ∧ _))

variable {stem : TokenList} {s : String}

theorem tokens_plain (h : '.' ∉ s.toList) : tokens s = [s] := by
  rw [tokens, List.splitOn_eq_singleton h, List.map_singleton, String.ofList_toList]

theorem tokens_append (s t : String) : tokens (s ++ "." ++ t) = tokens s ++ tokens t := by
  have hdot : ".".toList = ['.'] := by decide
  simp only [tokens, String.toList_append, hdot, List.append_assoc, List.singleton_append,
    List.splitOn_append_cons_self, List.map_append]

theorem captures_literals (h : ∀ token ∈ stem, Literal token) (p s : TokenList) :
    captures (stem ++ p) (stem ++ s) = captures p s := by
  induction stem with
  | nil => rfl
  | cons token stem ih =>
    obtain ⟨hstar, hangle⟩ := h token List.mem_cons_self
    simp [captures, hstar, hangle, ih fun token hin => h token (List.mem_cons_of_mem _ hin)]

theorem accepts_stem_iff (h : ∀ token ∈ stem, Literal token) (subject : TokenList) :
    accepts (stem ++ [">"]) subject = true ↔ ∃ rest, rest ≠ [] ∧ subject = stem ++ rest := by
  induction stem generalizing subject with
  | nil => cases subject <;> simp [accepts]
  | cons token stem ih =>
    obtain ⟨hstar, hangle⟩ := h token List.mem_cons_self
    cases subject with
    | nil => simp [accepts]
    | cons first subject =>
      have hrest := ih (fun token hin => h token (List.mem_cons_of_mem _ hin)) subject
      simp only [List.cons_append, accepts, beq_eq_false_iff_ne.mpr hstar,
        beq_eq_false_iff_ne.mpr hangle, Bool.false_and, Bool.false_or, Bool.and_eq_true,
        beq_iff_eq, hrest, List.cons.injEq]
      constructor
      · intro hall
        obtain ⟨rfl, rest, hne, rfl⟩ := hall
        exact ⟨rest, hne, rfl, rfl⟩
      · intro hall
        obtain ⟨rest, hne, rfl, rfl⟩ := hall
        exact ⟨rfl, rest, hne, rfl⟩

end Subjects

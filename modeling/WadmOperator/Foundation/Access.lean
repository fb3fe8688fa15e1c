import Mathlib.Data.Set.Basic

/-!
# Roles, bindings and what they permit

Roles carry rules, and a binding gives one role to some subjects. `Extends own R B p q`
says that `q` came from `p` by writing roles of `R` and bindings of `B` as `own` has them,
no binding before the role that it gives. It is a preorder, so it holds along every run
whose steps are such writes. What `q` permits was permitted by `p` or is permitted by a
rule of `own`.
-/

namespace Access

structure Policy (role binding subject rule : Type) where
  rules : role → List rule
  bindings : binding → Option (role × List subject)

/-- Whom a subject of a binding names, and which rights a rule allows. -/
structure Semantics (binding subject rule user right : Type) where
  names : binding → subject → user → Prop
  allows : rule → right → Prop

variable {role binding subject rule user right : Type}
  (sem : Semantics binding subject rule user right)

def Bound (p : Policy role binding subject rule) (B : Set binding) (who : user) (r : role) :
    Prop :=
  ∃ b ∈ B, ∃ subjects, p.bindings b = some (r, subjects) ∧ ∃ x ∈ subjects, sem.names b x who

def Grants (p : Policy role binding subject rule) (r : role) (a : right) : Prop :=
  ∃ rule ∈ p.rules r, sem.allows rule a

def Permitted (p : Policy role binding subject rule) (B : Set binding) (who : user)
    (a : right) : Prop :=
  ∃ r, Bound sem p B who r ∧ Grants sem p r a

def Complete (own p : Policy role binding subject rule) (b : binding) : Prop :=
  p.bindings b = own.bindings b ∧
    ∀ r subjects, own.bindings b = some (r, subjects) → p.rules r = own.rules r

structure Extends (own : Policy role binding subject rule) (R : Set role) (B : Set binding)
    (p q : Policy role binding subject rule) : Prop where
  rules : ∀ r, q.rules r = p.rules r ∨ (r ∈ R ∧ q.rules r = own.rules r)
  bindings : ∀ b, q.bindings b = p.bindings b ∨ (b ∈ B ∧ Complete own q b)

section

variable {sem} {own p q p' : Policy role binding subject rule} {R : Set role} {B S : Set binding}
  {who : user} {a : right} {r : role} {b : binding}

theorem Extends.refl (own : Policy role binding subject rule) (R : Set role) (B : Set binding)
    (p : Policy role binding subject rule) : Extends own R B p p where
  rules _ := .inl rfl
  bindings _ := .inl rfl

theorem Extends.rules_kept (h : Extends own R B p q) (hown : p.rules r = own.rules r) :
    q.rules r = own.rules r := by
  rcases h.rules r with hr | ⟨-, hr⟩
  · exact hr.trans hown
  · exact hr

theorem Extends.complete (h : Extends own R B p q) (hb : Complete own p b) :
    Complete own q b := by
  refine ⟨?_, fun r subjects hown => h.rules_kept (hb.2 r subjects hown)⟩
  rcases h.bindings b with hkept | ⟨-, hnew⟩
  · exact hkept.trans hb.1
  · exact hnew.1

theorem Extends.trans (h : Extends own R B p q) (h' : Extends own R B q p') :
    Extends own R B p p' where
  rules r := by
    rcases h'.rules r with hr | hr
    · rw [hr]
      exact h.rules r
    · exact .inr hr
  bindings b := by
    rcases h'.bindings b with hb | hb
    · rcases h.bindings b with hold | ⟨hin, hcomplete⟩
      · exact .inl (hb.trans hold)
      · exact .inr ⟨hin, h'.complete hcomplete⟩
    · exact .inr hb

theorem Extends.grants (h : Extends own R B p q) (hq : Grants sem q r a) :
    Grants sem p r a ∨ (r ∈ R ∧ Grants sem own r a) := by
  obtain ⟨rule, hrule, hallows⟩ := hq
  rcases h.rules r with hr | ⟨hin, hr⟩
  · exact .inl ⟨rule, hr ▸ hrule, hallows⟩
  · exact .inr ⟨hin, rule, hr ▸ hrule, hallows⟩

/-- Nobody gains a right but by a rule of `own`: for a role that was the user's before, or
for one that `own` gives to the user. -/
theorem Extends.permitted (h : Extends own R B p q) (hq : Permitted sem q S who a) :
    Permitted sem p S who a ∨
      ∃ r, Grants sem own r a ∧ ((r ∈ R ∧ Bound sem p S who r) ∨ Bound sem own (B ∩ S) who r) := by
  obtain ⟨r, ⟨b, hS, subjects, hb, x, hx, hnames⟩, hgrants⟩ := hq
  rcases h.bindings b with hold | ⟨hB, hbinding, hrules⟩
  · have hbound : Bound sem p S who r := ⟨b, hS, subjects, hold ▸ hb, x, hx, hnames⟩
    rcases h.grants hgrants with hgrants | ⟨hR, hgrants⟩
    · exact .inl ⟨r, hbound, hgrants⟩
    · exact .inr ⟨r, hgrants, .inl ⟨hR, hbound⟩⟩
  · have hown : own.bindings b = some (r, subjects) := hbinding ▸ hb
    obtain ⟨rule, hrule, hallows⟩ := hgrants
    rw [hrules r subjects hown] at hrule
    exact .inr ⟨r, ⟨rule, hrule, hallows⟩,
      .inr ⟨b, ⟨hB, hS⟩, subjects, hown, x, hx, hnames⟩⟩

theorem Complete.permitted {subjects : List subject} {x : subject} (hb : Complete own p b)
    (hS : b ∈ S) (hown : own.bindings b = some (r, subjects)) (hx : x ∈ subjects)
    (hnames : sem.names b x who) (hgrants : Grants sem own r a) : Permitted sem p S who a := by
  obtain ⟨rule, hrule, hallows⟩ := hgrants
  refine ⟨r, ⟨b, hS, subjects, hb.1.trans hown, x, hx, hnames⟩, rule, ?_, hallows⟩
  rw [hb.2 r subjects hown]
  exact hrule

theorem Extends.of_eq (hrules : q.rules = p.rules) (hbindings : q.bindings = p.bindings) :
    Extends own R B p q where
  rules r := .inl (congrFun hrules r)
  bindings b := .inl (congrFun hbindings b)

end
end Access

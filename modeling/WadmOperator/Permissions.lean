import WadmOperator.Foundation.Access
import WadmOperator.ReconcileFrames

/-!
# The rights that reconciles hand out

`configure_auth` gives the hosts of a config a service account that manages the Services
of its namespace: a Role, and a RoleBinding to the account. Each may be refused, and a
Role or a RoleBinding of that name may be there already. Who may do what is read off the
cluster as the API server's authorizer reads it.
-/

namespace WadmOperator
namespace Permissions

open Access Procedure Reconcile Retries

inductive RoleId where
  | role (key : ObjectKey)
  | clusterRole (name : String)
  deriving DecidableEq

structure Right where
  apiGroup : String
  resource : String
  /-- Empty where a request names no object. -/
  resourceName : String
  verb : String
  deriving DecidableEq

structure User where
  name : String
  groups : List String := []

/-- The name under which the API server knows a service account. -/
def accountUser (key : ObjectKey) : String :=
  "system:serviceaccount:" ++ key.1 ++ ":" ++ key.2

def accountSubject (key : ObjectKey) : Subject := ⟨"ServiceAccount", key.2, some key.1⟩

/-- A rule without names of objects is about all of them. -/
def NamesObject (rule : PolicyRule) (name : String) : Prop :=
  rule.resourceNames.getD [] = [] ∨ name ∈ rule.resourceNames.getD []

structure Lists (rule : PolicyRule) (r : Right) : Prop where
  apiGroup : r.apiGroup ∈ rule.apiGroups.getD []
  resource : r.resource ∈ rule.resources.getD []
  object : NamesObject rule r.resourceName
  verb : r.verb ∈ rule.verbs

def NoWildcards (rule : PolicyRule) : Prop :=
  ∀ x ∈ rule.apiGroups.getD [] ++ rule.resources.getD [] ++ rule.verbs, '*' ∉ x.toList

/-- The authorizer of the API server, and the ClusterRoles, which the operator leaves alone.
A rule without wildcards allows what it lists, and a service account as subject of a
binding in its namespace is that account. -/
structure Authorizer extends Semantics ObjectKey Subject PolicyRule User Right where
  clusterRoles : String → List PolicyRule
  listed_allowed (rule r) : Lists rule r → allows rule r
  allowed_listed (rule r) : NoWildcards rule → allows rule r → Lists rule r
  account_only (key who) : names key (accountSubject key) who → who.name = accountUser key
  account_named (key : ObjectKey) (who) : key.1 ≠ "" → who.name = accountUser key →
    names key (accountSubject key) who

namespace Authorizer

def matchesOne (items : List String) (x : String) : Prop := "*" ∈ items ∨ x ∈ items

/-- `*/status` stands for the status of every resource. -/
def resourceMatches (items : List String) (x : String) : Prop :=
  matchesOne items x ∨ ∃ main sub, x = main ++ "/" ++ sub ∧ "*/" ++ sub ∈ items

structure RuleAllows (rule : PolicyRule) (r : Right) : Prop where
  apiGroup : matchesOne (rule.apiGroups.getD []) r.apiGroup
  resource : resourceMatches (rule.resources.getD []) r.resource
  object : NamesObject rule r.resourceName
  verb : matchesOne rule.verbs r.verb

/-- A subject without a namespace lives in that of the binding. -/
def accountNamespace (key : ObjectKey) (x : Subject) : String :=
  if x.ns.getD "" = "" then key.1 else x.ns.getD ""

def appliesToUser (key : ObjectKey) (x : Subject) (who : User) : Prop :=
  if x.kind = "User" then who.name = x.name
  else if x.kind = "Group" then x.name ∈ who.groups
  else x.kind = "ServiceAccount" ∧ accountNamespace key x ≠ "" ∧
    who.name = accountUser (accountNamespace key x, x.name)

theorem accountNamespace_own (key : ObjectKey) :
    accountNamespace key (accountSubject key) = key.1 := by
  unfold accountNamespace
  split <;> rfl

theorem matchesOne_listed {items : List String} {x : String}
    (hplain : ∀ y ∈ items, '*' ∉ y.toList) (h : matchesOne items x) : x ∈ items := by
  rcases h with hstar | hx
  · exact absurd (by simp) (hplain "*" hstar)
  · exact hx

theorem resourceMatches_listed {items : List String} {x : String}
    (hplain : ∀ y ∈ items, '*' ∉ y.toList) (h : resourceMatches items x) : x ∈ items := by
  rcases h with h | ⟨main, sub, -, hstar⟩
  · exact matchesOne_listed hplain h
  · exact absurd (by simp) (hplain ("*/" ++ sub) hstar)

def rbac (clusterRoles : String → List PolicyRule) : Authorizer where
  names := appliesToUser
  allows := RuleAllows
  clusterRoles := clusterRoles
  listed_allowed _ _ h := ⟨.inr h.apiGroup, .inl (.inr h.resource), h.object, .inr h.verb⟩
  allowed_listed rule r hplain h := by
    refine ⟨matchesOne_listed (fun y hy => hplain y ?_) h.apiGroup,
      resourceMatches_listed (fun y hy => hplain y ?_) h.resource, h.object,
      matchesOne_listed (fun y hy => hplain y ?_) h.verb⟩ <;> simp [hy]
  account_only key who h := by
    obtain ⟨-, -, hname⟩ := h
    rw [accountNamespace_own] at hname
    exact hname
  account_named key who hns hname := by
    refine ⟨rfl, ?_⟩
    rw [accountNamespace_own]
    exact ⟨hns, hname⟩

end Authorizer

/-- The lists of rules and of subjects are atomic, so an apply sets them as a whole. -/
structure AtomicRules (api : HostApi) : Prop where
  rules (current : Option Role) (x : Role) : (api.applyObject .role current x).rules = x.rules
  roleRef (current : Option RoleBinding) (x : RoleBinding) :
    (api.applyObject .roleBinding current x).roleRef = x.roleRef
  subjects (current : Option RoleBinding) (x : RoleBinding) :
    (api.applyObject .roleBinding current x).subjects = x.subjects

def roleId (ns : String) (ref : RoleRef) : RoleId :=
  if ref.kind = "Role" then .role (ns, ref.name) else .clusterRole ref.name

def rulesOf (role : Option Role) : List PolicyRule := (role.bind Role.rules).getD []

def bindingOf (ns : String) (binding : Option RoleBinding) : Option (RoleId × List Subject) :=
  binding.map fun b => (roleId ns b.roleRef, b.subjects.getD [])

section

variable (auth : Authorizer)

def policy (s : Context) : Policy RoleId ObjectKey Subject PolicyRule where
  rules
    | .role key => rulesOf ((s.objects .role).get? key)
    | .clusterRole name => auth.clusterRoles name
  bindings key := bindingOf key.1 ((s.objects .roleBinding).get? key)

def ownPolicy : Policy RoleId ObjectKey Subject PolicyRule where
  rules _ := [policyRule]
  bindings key := some (.role key, [accountSubject key])

def ownRoles (ks : Set ObjectKey) : Set RoleId := { r | ∃ key ∈ ks, r = .role key }

def Granted (ks : Set ObjectKey) (s t : Context) : Prop :=
  Extends ownPolicy (ownRoles ks) ks (policy auth s) (policy auth t)

def MayIn (s : Context) (ns : String) (who : User) (r : Right) : Prop :=
  Permitted auth.toSemantics (policy auth s) { b | b.1 = ns } who r

def HasRole (s : Context) (key : ObjectKey) (who : User) : Prop :=
  Bound auth.toSemantics (policy auth s) { b | b.1 = key.1 } who (.role key)

end

variable {auth : Authorizer} {lib : Libraries} {answers : Answers} {ks : Set ObjectKey}
  {s t u : Context} {key : ObjectKey}

theorem granted_trans (s t u : Context) (h : Granted auth ks s t) (h' : Granted auth ks t u) :
    Granted auth ks s u :=
  Extends.trans h h'

theorem policy_of_eq (hroles : t.objects .role = s.objects .role)
    (hbindings : t.objects .roleBinding = s.objects .roleBinding) :
    policy auth t = policy auth s := by
  unfold policy
  rw [hroles, hbindings]

theorem granted_of_eq (h : policy auth t = policy auth s) : Granted auth ks s t :=
  Extends.of_eq (congrArg Policy.rules h) (congrArg Policy.bindings h)

theorem rules_putRole (x : Role) (other : ObjectKey) :
    (policy auth (s.putObject .role key x)).rules (.role other) =
      if other = key then rulesOf (some x) else (policy auth s).rules (.role other) :=
  (congrArg rulesOf (@Context.putObject_get? s .role key x other)).trans (apply_ite rulesOf _ _ _)

theorem rules_putBinding (x : RoleBinding) :
    (policy auth (s.putObject .roleBinding key x)).rules = (policy auth s).rules := by
  have hroles : (s.putObject .roleBinding key x).objects .role = s.objects .role :=
    @Context.putObject_other s .roleBinding key x .role (by decide)
  simp only [policy, hroles]

theorem bindings_putRole (x : Role) :
    (policy auth (s.putObject .role key x)).bindings = (policy auth s).bindings := by
  have hbindings : (s.putObject .role key x).objects .roleBinding = s.objects .roleBinding :=
    @Context.putObject_other s .role key x .roleBinding (by decide)
  simp only [policy, hbindings]

theorem bindings_putBinding (x : RoleBinding) (b : ObjectKey) :
    (policy auth (s.putObject .roleBinding key x)).bindings b =
      if b = key then bindingOf b.1 (some x) else (policy auth s).bindings b :=
  (congrArg (bindingOf b.1) (@Context.putObject_get? s .roleBinding key x b)).trans
    (apply_ite (bindingOf b.1) _ _ _)

theorem granted_putRole (hkey : key ∈ ks) {x : Role} (hx : x.rules = some [policyRule]) :
    Granted auth ks s (s.putObject .role key x) where
  rules r := by
    cases r with
    | clusterRole name => exact .inl rfl
    | role other =>
      rw [rules_putRole]
      by_cases hother : other = key
      · rw [if_pos hother, hother, rulesOf, Option.bind_some, hx]
        exact .inr ⟨⟨key, hkey, rfl⟩, rfl⟩
      · exact .inl (if_neg hother)
  bindings b := .inl (congrFun (bindings_putRole x) b)

theorem complete_putBinding {x : RoleBinding} (href : roleId key.1 x.roleRef = .role key)
    (hsubjects : x.subjects = some [accountSubject key])
    (hrole : (policy auth s).rules (.role key) = [policyRule]) :
    Complete ownPolicy (policy auth (s.putObject .roleBinding key x)) key := by
  constructor
  · rw [bindings_putBinding, if_pos rfl, bindingOf, Option.map_some, href, hsubjects]
    rfl
  · intro r subjects hown
    obtain ⟨rfl, -⟩ := Prod.mk.inj (Option.some.inj hown)
    rw [rules_putBinding]
    exact hrole

theorem granted_putBinding (hkey : key ∈ ks) {x : RoleBinding}
    (hcomplete : Complete ownPolicy (policy auth (s.putObject .roleBinding key x)) key) :
    Granted auth ks s (s.putObject .roleBinding key x) where
  rules r := .inl (congrFun (rules_putBinding x) r)
  bindings b := by
    by_cases hb : b = key
    · rw [hb]
      exact .inr ⟨hkey, hcomplete⟩
    · rw [bindings_putBinding]
      exact .inl (if_neg hb)

theorem policy_putOther {kind : ObjectKind} (x : Obj kind) (hrole : kind ≠ .role)
    (hbinding : kind ≠ .roleBinding) : policy auth (s.putObject kind key x) = policy auth s :=
  policy_of_eq (Context.putObject_other x hrole.symm) (Context.putObject_other x hbinding.symm)

theorem keeps_applyOther (fails : KubeCall → Bool) (api : HostApi) {kind : ObjectKind}
    (x : Obj kind) (hrole : kind ≠ .role) (hbinding : kind ≠ .roleBinding) :
    Keeps (policy auth) (ReconcileM.applyObject fails api kind key x) :=
  keeps_applyObject fails api x fun _ y => policy_putOther y hrole hbinding

theorem moves_of_keeps {α : Type} {x : ReconcileM α} (hx : Keeps (policy auth) x) :
    Moves (Granted auth ks) x :=
  hx.moves fun _ _ => granted_of_eq

section ConfigureAuth

variable (hatomic : AtomicRules lib.api)
include hatomic

theorem moves_applyRole (config : HostConfig) (hkey : config.key ∈ ks) :
    Moves (Granted auth ks) (ReconcileM.applyObject answers.fails lib.api .role config.key
      ⟨[config.controllerOwnerRef], some [policyRule]⟩) := by
  intro s
  rcases applyObject_snd answers.fails lib.api .role
      ⟨[config.controllerOwnerRef], some [policyRule]⟩ with h | h <;> rw [h]
  · exact Extends.refl _ _ _ _
  · exact granted_putRole hkey (hatomic.rules _ _)

theorem rules_applyRole {config : HostConfig} (h : ReconcileM.applyObject answers.fails lib.api
    .role config.key ⟨[config.controllerOwnerRef], some [policyRule]⟩ s = (.ok (), t)) :
    (policy auth t).rules (.role config.key) = [policyRule] := by
  rw [ReconcileM.applyObject_ok h, rules_putRole, if_pos rfl, rulesOf, Option.bind_some,
    hatomic.rules]
  rfl

theorem complete_applyBinding (config : HostConfig) (current : Option RoleBinding)
    (hrole : (policy auth s).rules (.role config.key) = [policyRule]) :
    Complete ownPolicy (policy auth (s.putObject .roleBinding config.key
      (lib.api.applyObject .roleBinding current (roleBindingFor config)))) config.key := by
  refine complete_putBinding ?_ ?_ hrole
  · rw [hatomic.roleRef]
    rfl
  · rw [hatomic.subjects]
    rfl

/-- The binding is applied only where the Role has its rules already. -/
theorem moves_configureAuth (config : HostConfig) (hkey : config.key ∈ ks) :
    Moves (Granted auth ks) (configureAuth lib answers config) := by
  refine .bind granted_trans (moves_of_keeps (keeps_applyOther _ _ _ (by decide) (by decide)))
    fun _ _ t _ => ?_
  refine Moves.bind granted_trans (moves_applyRole hatomic config hkey) (fun s _ u hrole => ?_) t
  rcases applyObject_snd answers.fails lib.api .roleBinding (roleBindingFor config) with h | h <;>
    rw [h]
  · exact Extends.refl _ _ _ _
  · exact granted_putBinding hkey
      (complete_applyBinding hatomic config _ (rules_applyRole hatomic hrole))

theorem complete_configureAuth {config : HostConfig}
    (h : configureAuth lib answers config s = (.ok (), u)) :
    Complete ownPolicy (policy auth u) config.key := by
  obtain ⟨⟨⟩, t₁, -, hrest⟩ := bind_eq_ok h
  obtain ⟨⟨⟩, t₂, hrole, hbinding⟩ := bind_eq_ok hrest
  rw [ReconcileM.applyObject_ok hbinding]
  exact complete_applyBinding hatomic config _ (rules_applyRole hatomic hrole)

end ConfigureAuth

theorem keeps_of_objects {α : Type} {x : ReconcileM α} (hx : Keeps Context.objects x) :
    Keeps (policy auth) x :=
  fun s => policy_of_eq (congrFun (hx s) .role) (congrFun (hx s) .roleBinding)

theorem keeps_applyRest (config : HostConfig) (secrets : Secrets) :
    Keeps (policy auth) (do
      let template ← configureHosts lib answers config
      configureService lib answers config
      pure (config, secrets, template)) :=
  .bind (keeps_configureHosts (fun _ y => policy_putOther y (by decide) (by decide))
    fun _ y => policy_putOther y (by decide) (by decide)) fun _ =>
      .bind (keeps_configureService (fun _ _ => policy_of_eq rfl rfl) config) fun _ =>
        (ReadOnly.pure _).keeps

theorem keeps_conclude (prepared : HostConfig × Secrets × PodTemplateSpec) :
    Keeps (policy auth) (conclude answers prepared) :=
  keeps_of_objects fun s => (Prod.mk.inj (conclude_keeps answers prepared s)).1

section Attempts

variable (hatomic : AtomicRules lib.api)
include hatomic

theorem moves_prepare (hkey : key ∈ ks) : Moves (Granted auth ks) (prepare lib answers key) := by
  refine .bind granted_trans (moves_of_keeps (PodTemplate.getObject_readOnly _ _).keeps)
    fun _ stored t _ => ?_
  refine Moves.bind granted_trans (moves_of_keeps (keeps_readSecrets
    (fun _ _ => policy_of_eq rfl rfl) _)) (fun _ secrets t _ => ?_) t
  refine Moves.bind granted_trans (moves_of_keeps (keeps_applyOther _ _ _ (by decide) (by decide)))
    (fun _ _ t _ => ?_) t
  exact Moves.bind granted_trans (moves_configureAuth hatomic (configOf key stored) hkey)
    (fun _ _ u _ => moves_of_keeps (keeps_applyRest _ secrets) u) t

theorem moves_reconcileCrd (hkey : key ∈ ks) :
    Moves (Granted auth ks) (reconcileCrd lib answers key) := by
  rw [reconcileCrd_eq]
  exact .bind granted_trans (moves_prepare hatomic hkey) fun _ _ t _ =>
    moves_of_keeps (keeps_conclude _) t

theorem complete_prepare {prepared : HostConfig × Secrets × PodTemplateSpec}
    (h : prepare lib answers key s = (.ok prepared, u)) :
    Complete ownPolicy (policy auth u) key := by
  obtain ⟨stored, t₁, -, h⟩ := bind_eq_ok h
  obtain ⟨secrets, t₂, -, h⟩ := bind_eq_ok h
  obtain ⟨⟨⟩, t₃, -, h⟩ := bind_eq_ok h
  obtain ⟨⟨⟩, t₄, hauth, hrest⟩ := bind_eq_ok h
  have hkept : policy auth u = policy auth t₄ :=
    (congrArg (policy auth) (congrArg Prod.snd hrest).symm).trans
      (keeps_applyRest (configOf key stored) secrets t₄)
  rw [hkept]
  exact complete_configureAuth hatomic hauth

theorem complete_attempt {prepared : HostConfig × Secrets × PodTemplateSpec}
    (h : (prepare lib answers key s).1 = .ok prepared) :
    Complete ownPolicy (policy auth (reconcileCrd lib answers key s).2) key := by
  rcases hp : prepare lib answers key s with ⟨r, t⟩
  rw [hp] at h
  obtain rfl : r = .ok prepared := h
  rw [reconcileCrd_eq, bind_of_ok hp, keeps_conclude prepared t]
  exact complete_prepare hatomic hp

theorem granted_happen (e : Retries.Event)
    (hkey : ∀ key answers, e = .attempt key answers → key ∈ ks) :
    Granted auth ks s (happen lib s e) := by
  cases e with
  | attempt key answers => exact moves_reconcileCrd hatomic (hkey key answers rfl) s
  | restart => exact granted_of_eq (policy_of_eq rfl rfl)

theorem granted_replay {events : List Retries.Event}
    (hkeys : ∀ key answers, .attempt key answers ∈ events → key ∈ ks) :
    Granted auth ks s (replay lib s events) := by
  induction events generalizing s with
  | nil => exact Extends.refl _ _ _ _
  | cons e events ih =>
    have hhead : Granted auth ks s (happen lib s e) := granted_happen hatomic e
      fun key answers he => hkeys key answers (he ▸ List.mem_cons_self)
    exact granted_trans _ _ _ hhead
      (ih fun key answers hin => hkeys key answers (List.mem_cons_of_mem _ hin))

theorem complete_replay {events : List Retries.Event} (hdone : key ∈ configured lib s events) :
    Complete ownPolicy (policy auth (replay lib s events)) key := by
  induction events generalizing s with
  | nil => exact absurd hdone (Set.notMem_empty key)
  | cons e events ih =>
    cases e with
    | attempt other answers =>
      rcases hdone with ⟨rfl, prepared, hprepared⟩ | hdone
      · have hrest : Granted auth Set.univ (reconcileCrd lib answers key s).2
            (replay lib (reconcileCrd lib answers key s).2 events) :=
          granted_replay hatomic fun _ _ _ => Set.mem_univ _
        exact hrest.complete (complete_attempt hatomic hprepared)
      · exact ih hdone
    | restart => exact ih hdone

end Attempts

theorem policyRule_plain : NoWildcards policyRule := by
  simp [NoWildcards, policyRule]

theorem own_grants {r : RoleId} {a : Right} (h : Grants auth.toSemantics ownPolicy r a) :
    Lists policyRule a := by
  obtain ⟨rule, hrule, hallows⟩ := h
  obtain rfl := List.mem_singleton.mp hrule
  exact auth.allowed_listed _ a policyRule_plain hallows

theorem bindingOf_role {ns : String} {binding : Option RoleBinding} {subjects : List Subject}
    (h : bindingOf ns binding = some (.role key, subjects)) : key.1 = ns := by
  obtain ⟨b, -, heq⟩ := Option.map_eq_some_iff.mp h
  have hid := (Prod.mk.inj heq).1
  unfold roleId at hid
  split at hid
  · exact congrArg Prod.fst (RoleId.role.inj hid).symm
  · cases hid

theorem hasRole_of_bound {ns : String} {who : User}
    (h : Bound auth.toSemantics (policy auth s) { b | b.1 = ns } who (.role key)) :
    key.1 = ns ∧ HasRole auth s key who := by
  obtain ⟨b, hb, subjects, hbinding, hwho⟩ := h
  have hns : key.1 = ns := (bindingOf_role hbinding).trans hb
  exact ⟨hns, b, hb.trans hns.symm, subjects, hbinding, hwho⟩

theorem may_of_complete {who : User} {a : Right} (h : Complete ownPolicy (policy auth s) key)
    (hns : key.1 ≠ "") (hwho : who.name = accountUser key) (ha : Lists policyRule a) :
    MayIn auth s key.1 who a :=
  h.permitted rfl rfl List.mem_cons_self (auth.account_named key who hns hwho)
    ⟨policyRule, List.mem_cons_self, auth.listed_allowed _ a ha⟩

theorem atomicRules_basic : AtomicRules .basic := ⟨fun _ _ => rfl, fun _ _ => rfl, fun _ _ => rfl⟩

def createServices : Right := ⟨"", "services", "", "create"⟩

theorem createServices_listed : Lists policyRule createServices := by
  refine ⟨?_, ?_, .inl rfl, ?_⟩ <;> simp [policyRule, createServices]

/-- Whatever is refused and tried again, and whatever Roles and RoleBindings were there
before, nobody gains a right in a namespace but one to manage its Services, and only the
service account of a config there or whoever had the Role of that name already. -/
theorem replay_permitted {ks : List ObjectKey} {events : List Retries.Event}
    (hatomic : AtomicRules lib.api) (hamong : Among ks events) {ns : String} {who : User}
    {a : Right} (h : MayIn auth (replay lib s events) ns who a) :
    MayIn auth s ns who a ∨ (Lists policyRule a ∧ ∃ name, (ns, name) ∈ ks ∧
      (who.name = accountUser (ns, name) ∨ HasRole auth s (ns, name) who)) := by
  have hgranted : Granted auth { key | key ∈ ks } s (replay lib s events) :=
    granted_replay hatomic hamong
  rcases hgranted.permitted h with hold | ⟨r, hgrants, hgiven⟩
  · exact .inl hold
  · refine .inr ⟨own_grants hgrants, ?_⟩
    rcases hgiven with ⟨⟨key, hkey, rfl⟩, hbound⟩ | ⟨b, ⟨hb, rfl⟩, subjects, hown, x, hx, hnames⟩
    · obtain ⟨rfl, hrole⟩ := hasRole_of_bound hbound
      exact ⟨key.2, hkey, .inr hrole⟩
    · obtain ⟨-, rfl⟩ := Prod.mk.inj (Option.some.inj hown)
      obtain rfl := List.mem_singleton.mp hx
      exact ⟨b.2, hb, .inl (auth.account_only b who hnames)⟩

theorem replay_permitted_refused :
    MayIn (.rbac fun _ => []) sharingConfigs "default" ⟨accountUser ("default", "host"), []⟩
        createServices ∨
      (Lists policyRule createServices ∧ ∃ name, ("default", name) ∈ sharingKeys ∧
        (accountUser ("default", "host") = accountUser ("default", name) ∨
          HasRole (.rbac fun _ => []) sharingConfigs ("default", name)
            ⟨accountUser ("default", "host"), []⟩)) := by
  have hafter : MayIn (.rbac fun _ => []) (replay .sample sharingConfigs refusedOnce) "default"
      ⟨accountUser ("default", "host"), []⟩ createServices :=
    may_of_complete (complete_replay atomicRules_basic
      (configured_refusedOnce ("default", "host") (by decide))) (by decide) rfl createServices_listed
  exact replay_permitted atomicRules_basic refusedOnce_among hafter

/-- Once an attempt came as far as asking wadm, the service account of the config manages
the Services of its namespace, and no later attempt or restart takes that away. -/
theorem replay_account {events : List Retries.Event} (hatomic : AtomicRules lib.api)
    (hdone : key ∈ configured lib s events) (hns : key.1 ≠ "") {who : User}
    (hwho : who.name = accountUser key) {a : Right} (ha : Lists policyRule a) :
    MayIn auth (replay lib s events) key.1 who a :=
  may_of_complete (complete_replay hatomic hdone) hns hwho ha

theorem replay_account_refused :
    MayIn (.rbac fun _ => []) (replay .sample sharingConfigs refusedOnce) "default"
      ⟨accountUser ("default", "host"), []⟩ createServices :=
  replay_account atomicRules_basic (configured_refusedOnce ("default", "host") (by decide))
    (by decide) rfl createServices_listed

end Permissions
end WadmOperator

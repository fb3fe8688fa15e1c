import WadmOperator.Routing
import WadmOperator.ServiceWatcher

/-!
# What the search for the HTTP server takes from a manifest

The search folds over the first link trait of each HTTP server component. Its result
is given in closed form from two lists, the requirements and the addresses that these
traits carry, and is then compared with what the daemonscaler traits and the link
traits of each single component ask for.
-/

namespace WadmOperator
namespace Manifest

open Commands

def requirementsOf : TraitProperty → List (String × String)
  | .spreadScaler scaler => scaler.spread.flatMap fun spread => spread.requirements.toPairs
  | .link _ => []
  | .custom => []

def configAddress (cp : ConfigProperty) : Option String :=
  cp.properties.bind fun p => p.get? "address"

def addressesOf : TraitProperty → List String
  | .link props =>
    if props.ns = "wasi" ∧ props.package = "http" ∧ "incoming-handler" ∈ props.interfaces then
      match props.source with
      | some source => source.config.filterMap configAddress
      | none => []
    else []
  | .spreadScaler _ => []
  | .custom => []

def firstLinks (m : Manifest) : List Trait :=
  (m.components.filter isHttpServer).filterMap (firstTrait "link")

def linkRequirements (m : Manifest) : List (String × String) :=
  m.firstLinks.flatMap fun t => requirementsOf t.properties

def linkAddresses (m : Manifest) : List String :=
  m.firstLinks.flatMap fun t => addressesOf t.properties

def extendLabels (labels : Option Labels) (kvs : List (String × String)) : Option Labels :=
  if kvs.isEmpty then labels else some ((labels.getD Dict.empty).extend kvs)

theorem extendLabels_append (labels : Option Labels) (kvs kvs' : List (String × String)) :
    extendLabels (extendLabels labels kvs) kvs' = extendLabels labels (kvs ++ kvs') := by
  cases kvs with
  | nil => rfl
  | cons kv kvs =>
    cases kvs' with
    | nil => simp [extendLabels]
    | cons kv' kvs' =>
      have happend := Dict.extend_append (labels.getD Dict.empty) (kv :: kvs) (kv' :: kvs')
      simp only [extendLabels, List.isEmpty_cons, Bool.false_eq_true, if_false, List.cons_append,
        Option.getD_some] at happend ⊢
      rw [happend]

def collected (d : Details) (kvs : List (String × String)) (addrs : List String) : Details :=
  (⟨extendLabels d.1.labels kvs, addrs.getLast?.getD d.1.address⟩, d.2 || !addrs.isEmpty)

theorem collected_nil (d : Details) : collected d [] [] = d := by
  simp [collected, extendLabels]

theorem collected_collected (d : Details) (kvs kvs' : List (String × String))
    (addrs addrs' : List String) :
    collected (collected d kvs addrs) kvs' addrs' = collected d (kvs ++ kvs') (addrs ++ addrs') := by
  have hlast : (addrs'.getLast?.getD (addrs.getLast?.getD d.1.address)) =
      (addrs ++ addrs').getLast?.getD d.1.address := by
    rw [List.getLast?_append]
    cases addrs'.getLast? <;> rfl
  have hempty : (addrs ++ addrs').isEmpty = (addrs.isEmpty && addrs'.isEmpty) := by
    cases addrs <;> rfl
  simp only [collected, extendLabels_append, hlast, hempty, Bool.not_and, Bool.or_assoc]

theorem visitConfig_eq (d : Details) (cp : ConfigProperty) :
    visitConfig d cp = collected d [] (configAddress cp).toList := by
  unfold visitConfig configAddress
  split
  · next addr h => simp [h, collected, extendLabels]
  · next h => simp [h, collected_nil]

theorem foldl_visitConfig (config : List ConfigProperty) (d : Details) :
    config.foldl visitConfig d = collected d [] (config.filterMap configAddress) := by
  induction config generalizing d with
  | nil => exact (collected_nil d).symm
  | cons cp config ih =>
    rw [List.foldl_cons, ih, visitConfig_eq, collected_collected]
    cases h : configAddress cp <;> simp [h]

theorem foldl_insertLabel (kvs : List (String × String)) (d : Details) :
    kvs.foldl insertLabel d = collected d kvs [] := by
  induction kvs generalizing d with
  | nil => exact (collected_nil d).symm
  | cons kv kvs ih =>
    have hone : insertLabel d kv = collected d [kv] [] := by
      simp [insertLabel, collected, extendLabels, Dict.extend]
    rw [List.foldl_cons, ih, hone, collected_collected]
    rfl

theorem foldl_visitSpread (spreads : List Spread) (d : Details) :
    spreads.foldl visitSpread d =
      collected d (spreads.flatMap fun spread => spread.requirements.toPairs) [] := by
  induction spreads generalizing d with
  | nil => exact (collected_nil d).symm
  | cons spread spreads ih =>
    rw [List.foldl_cons, ih, visitSpread, foldl_insertLabel, collected_collected]
    rfl

theorem visitLink_eq (d : Details) (t : Trait) :
    visitLink d t = collected d (requirementsOf t.properties) (addressesOf t.properties) := by
  unfold visitLink
  cases t.properties with
  | link props =>
    simp only [requirementsOf, addressesOf]
    split_ifs with hhttp
    · cases props.source with
      | some source => exact foldl_visitConfig source.config d
      | none => exact (collected_nil d).symm
    · exact (collected_nil d).symm
  | spreadScaler scaler => exact foldl_visitSpread scaler.spread d
  | custom => exact (collected_nil d).symm

theorem foldl_visitLink (links : List Trait) (d : Details) :
    links.foldl visitLink d =
      collected d (links.flatMap fun t => requirementsOf t.properties)
        (links.flatMap fun t => addressesOf t.properties) := by
  induction links generalizing d with
  | nil => exact (collected_nil d).symm
  | cons t links ih =>
    rw [List.foldl_cons, ih, visitLink_eq, collected_collected]
    rfl

def hasTrait (traitType : String) (c : Component) : Prop :=
  ∃ t ∈ c.traits.getD [], t.traitType = traitType

theorem firstTrait_isSome {traitType : String} {c : Component} :
    (∃ t, firstTrait traitType c = some t) ↔ hasTrait traitType c := by
  unfold firstTrait hasTrait
  cases c.traits with
  | none => simp
  | some traits =>
    rw [← Option.isSome_iff_exists, List.find?_isSome]
    simp

def Scaled (m : Manifest) : Prop :=
  ∃ c ∈ m.components, isHttpServer c = true ∧ hasTrait "daemonscaler" c

theorem scalers_isEmpty {m : Manifest} :
    ((m.components.filter isHttpServer).filterMap (firstTrait "daemonscaler")).isEmpty = true ↔
      ¬m.Scaled := by
  rw [List.isEmpty_iff, List.filterMap_eq_nil_iff, Scaled]
  constructor
  · intro h hex
    obtain ⟨c, hc, hhttp, htrait⟩ := hex
    obtain ⟨t, ht⟩ := firstTrait_isSome.mpr htrait
    rw [h c (List.mem_filter.mpr ⟨hc, hhttp⟩)] at ht
    cases ht
  · intro h c hc
    obtain ⟨hmem, hhttp⟩ := List.mem_filter.mp hc
    cases ht : firstTrait "daemonscaler" c with
    | none => rfl
    | some t => exact absurd ⟨c, hmem, hhttp, firstTrait_isSome.mp ⟨t, ht⟩⟩ h

theorem httpServerComponent_scaled {m : Manifest} (h : m.Scaled) :
    m.httpServerComponent =
      m.linkAddresses.getLast?.map fun addr => ⟨extendLabels none m.linkRequirements, addr⟩ := by
  have hscalers : ((m.components.filter isHttpServer).filterMap
      (firstTrait "daemonscaler")).isEmpty = false := by
    rw [Bool.eq_false_iff]
    intro hempty
    exact scalers_isEmpty.mp hempty h
  unfold httpServerComponent
  simp only [hscalers, Bool.false_eq_true, if_false, foldl_visitLink, collected, Bool.false_or]
  change (if (!m.linkAddresses.isEmpty) = true then some _ else none) = _
  rcases List.eq_nil_or_concat m.linkAddresses with hnil | ⟨init, last, hlast⟩
  · rw [hnil]
    rfl
  · have hget : m.linkAddresses.getLast? = some last := by rw [hlast]; simp
    have hne : m.linkAddresses.isEmpty = false := by rw [hlast]; simp
    rw [hne, if_pos (by rfl), hget]
    change some (HttpServerComponent.mk _ (m.linkAddresses.getLast?.getD "")) = _
    rw [hget]
    rfl

theorem httpServerComponent_unscaled {m : Manifest} (h : ¬m.Scaled) :
    m.httpServerComponent = none := by
  unfold httpServerComponent
  simp only [scalers_isEmpty.mpr h, if_true]

theorem httpServerComponent_eq_some {m : Manifest} {http : HttpServerComponent} :
    m.httpServerComponent = some http ↔
      m.Scaled ∧ m.linkAddresses.getLast? = some http.address ∧
        http.labels = extendLabels none m.linkRequirements := by
  by_cases h : m.Scaled
  · rw [httpServerComponent_scaled h, Option.map_eq_some_iff]
    constructor
    · intro hex
      obtain ⟨addr, haddr, rfl⟩ := hex
      exact ⟨h, haddr, rfl⟩
    · intro hall
      obtain ⟨-, haddr, hlabels⟩ := hall
      exact ⟨http.address, haddr, by rw [← hlabels]⟩
  · rw [httpServerComponent_unscaled h]
    constructor
    · intro hsome
      cases hsome
    · intro hall
      exact absurd hall.1 h

def Requires (m : Manifest) (k v : String) : Prop :=
  ∃ c ∈ m.components, isHttpServer c = true ∧
    ∃ t ∈ c.traits.getD [], t.traitType = "daemonscaler" ∧
      ∃ scaler, t.properties = .spreadScaler scaler ∧
        ∃ spread ∈ scaler.spread, spread.requirements.get? k = some v

structure LabelsHonoured (m : Manifest) (labels : Option Labels) : Prop where
  keys : ∀ k, (∃ v, (labels.bind fun l => l.get? k) = some v) ↔ ∃ v, m.Requires k v
  values : ∀ k v, (labels.bind fun l => l.get? k) = some v → m.Requires k v
  unlabelled : labels = none ↔ ∀ k v, ¬m.Requires k v

/-- The pods that match the selector carry what is required. An empty selector matches
every pod, as the EndpointSlice that then stands for it lists every host of the lattice. -/
def SelectsRequired (m : Manifest) (params : ServiceParams) : Prop :=
  ∀ podLabels : Labels, matchesLabels (serviceSelector params) podLabels = true →
    ∀ k, (∃ v, m.Requires k v) →
      ∃ v, m.Requires k v ∧ podLabels.get? (formatServiceSelector k) = some v

def HonoursRequirements (m : Manifest) (http : HttpServerComponent) : Prop :=
  LabelsHonoured m http.labels ∧
    ∀ (w : Watcher) (params : ServiceParams),
      w.handleManifestPublished m = some (.upsertService params) → m.SelectsRequired params

/-- On each label, the first link traits require nothing and neither does a daemonscaler,
or the last value that they require is required by a daemonscaler. -/
def LinksRequireTheSame (m : Manifest) : Prop :=
  ∀ k, match Dict.lastValue k m.linkRequirements with
    | some v => m.Requires k v
    | none => ∀ v, ¬m.Requires k v

theorem extendLabels_get? (kvs : List (String × String)) (k : String) :
    ((extendLabels none kvs).bind fun l => l.get? k) = Dict.lastValue k kvs := by
  cases kvs with
  | nil => rfl
  | cons kv kvs =>
    have hget := Dict.get?_extend_lastValue Dict.empty (kv :: kvs) k
    rw [Dict.get?_empty, Option.or_none] at hget
    exact hget

theorem extendLabels_eq_none {kvs : List (String × String)} :
    extendLabels none kvs = none ↔ ∀ k, Dict.lastValue k kvs = none := by
  cases kvs with
  | nil => simp [extendLabels, Dict.lastValue]
  | cons kv kvs =>
    constructor
    · intro h
      cases h
    · intro h
      have hk := h kv.1
      simp [Dict.lastValue] at hk

theorem labelsHonoured_iff {m : Manifest} {labels : Option Labels}
    (h : labels = extendLabels none m.linkRequirements) :
    LabelsHonoured m labels ↔ m.LinksRequireTheSame := by
  subst h
  constructor
  · intro hall k
    have hkeys := hall.keys k
    have hvalues := hall.values k
    simp only [extendLabels_get?] at hkeys hvalues
    cases hlast : Dict.lastValue k m.linkRequirements with
    | some v => exact hvalues v hlast
    | none =>
      intro v hv
      obtain ⟨w, hw⟩ := hkeys.mpr ⟨v, hv⟩
      rw [hlast] at hw
      cases hw
  · intro hsame
    have hvalues : ∀ k v, Dict.lastValue k m.linkRequirements = some v → m.Requires k v := by
      intro k v hv
      have hk := hsame k
      rw [hv] at hk
      exact hk
    have hkeys : ∀ k, Dict.lastValue k m.linkRequirements = none → ∀ v, ¬m.Requires k v := by
      intro k hnone
      have hk := hsame k
      rw [hnone] at hk
      exact hk
    constructor
    · intro k
      rw [extendLabels_get?]
      constructor
      · intro hex
        obtain ⟨v, hv⟩ := hex
        exact ⟨v, hvalues k v hv⟩
      · intro hex
        obtain ⟨v, hv⟩ := hex
        cases hlast : Dict.lastValue k m.linkRequirements with
        | some w => exact ⟨w, rfl⟩
        | none => exact absurd hv (hkeys k hlast v)
    · intro k v hv
      rw [extendLabels_get?] at hv
      exact hvalues k v hv
    · rw [extendLabels_eq_none]
      constructor
      · intro hnone k
        exact hkeys k (hnone k)
      · intro hno k
        cases hlast : Dict.lastValue k m.linkRequirements with
        | none => rfl
        | some v => exact absurd (hvalues k v hlast) (hno k v)

theorem selected_label {params : ServiceParams} {labels podLabels : Labels}
    (hl : params.hostLabels = some labels)
    (hm : matchesLabels (serviceSelector params) podLabels = true) {k v : String}
    (hk : labels.get? k = some v) : podLabels.get? (formatServiceSelector k) = some v := by
  apply matchesLabels_iff.mp hm
  simp only [serviceSelector, hl]
  rw [Routing.get?_prefixed, hk]
  rfl

theorem selectsRequired_of_honoured {m : Manifest} {params : ServiceParams}
    (h : LabelsHonoured m params.hostLabels) : m.SelectsRequired params := by
  intro podLabels hm k hex
  obtain ⟨v, hv⟩ := (h.keys k).mpr hex
  refine ⟨v, h.values k v hv, ?_⟩
  obtain ⟨labels, hl, hk⟩ := Option.bind_eq_some_iff.mp hv
  exact selected_label hl hm hk

theorem published_hostLabels {m : Manifest} {http : HttpServerComponent} {w : Watcher}
    {params : ServiceParams} (hhttp : m.httpServerComponent = some http)
    (h : w.handleManifestPublished m = some (.upsertService params)) :
    params.hostLabels = http.labels := by
  simp only [Watcher.handleManifestPublished, httpAddress, hhttp, Option.map_map,
    Option.map_eq_some_iff] at h
  obtain ⟨addr, -, hparams⟩ := h
  cases hparams
  rfl

/-- The search honours the requirements exactly when the first link traits carry the
requirements of the daemonscalers, which the fold never reads. -/
theorem honoursRequirements_iff {m : Manifest} {http : HttpServerComponent}
    (h : m.httpServerComponent = some http) :
    m.HonoursRequirements http ↔ m.LinksRequireTheSame := by
  obtain ⟨-, -, hlabels⟩ := httpServerComponent_eq_some.mp h
  rw [← labelsHonoured_iff hlabels]
  constructor
  · intro hall
    exact hall.1
  · intro hhonoured
    refine ⟨hhonoured, ?_⟩
    intro w params hsent
    apply selectsRequired_of_honoured
    rw [published_hostLabels h hsent]
    exact hhonoured

def zoneSpread : TraitProperty :=
  .spreadScaler ⟨[⟨Dict.empty.put "zone" "us-east-1"⟩]⟩

/-- The zone is also required by the first link trait of a component. -/
def pinnedApp : Manifest where
  name := "rust-http-hello-world"
  components :=
    [httpServer "0.0.0.0:8080" [⟨"daemonscaler", zoneSpread⟩],
      ⟨.capability "ghcr.io/wasmcloud/http-server:0.20.0",
        some [⟨"link", zoneSpread⟩, ⟨"daemonscaler", zoneSpread⟩]⟩]

theorem pinnedApp_requires_iff {k v : String} :
    pinnedApp.Requires k v ↔ k = "zone" ∧ v = "us-east-1" := by
  constructor
  · intro hreq
    obtain ⟨c, hc, -, t, ht, htype, scaler, hscaler, spread, hspread, hv⟩ := hreq
    have hzone : t.properties = zoneSpread := by
      simp only [pinnedApp, httpServer, List.mem_cons, List.not_mem_nil, or_false] at hc
      rcases hc with rfl | rfl <;>
        simp only [Option.getD_some, List.mem_cons, List.not_mem_nil, or_false] at ht <;>
        rcases ht with rfl | rfl
      · exact absurd htype (by decide)
      all_goals rfl
    rw [hzone] at hscaler
    obtain rfl := TraitProperty.spreadScaler.inj hscaler
    obtain rfl := List.mem_singleton.mp hspread
    exact Dict.eq_of_get?_single hv
  · rintro ⟨rfl, rfl⟩
    exact ⟨_, List.mem_cons_self, by decide, _, List.mem_cons_of_mem _ List.mem_cons_self, rfl, _,
      rfl, _, List.mem_cons_self, by decide⟩

theorem honoursRequirements_pinnedApp :
    pinnedApp.HonoursRequirements
      ⟨some (Dict.empty.put "zone" "us-east-1"), "0.0.0.0:8080"⟩ := by
  refine (honoursRequirements_iff rfl).mpr fun k => ?_
  have hlinks : pinnedApp.linkRequirements = [("zone", "us-east-1")] := rfl
  rw [hlinks]
  by_cases hk : k = "zone"
  · subst hk
    exact pinnedApp_requires_iff.mpr ⟨rfl, rfl⟩
  · have hnone : Dict.lastValue k [("zone", "us-east-1")] = none :=
      Dict.lastValue_of_not_mem (by simpa using hk)
    rw [hnone]
    intro v hreq
    exact hk (pinnedApp_requires_iff.mp hreq).1

/-- Link traits usually carry a link, and then nothing may be required. -/
theorem linksRequireTheSame_of_links {m : Manifest}
    (h : ∀ t ∈ m.firstLinks, requirementsOf t.properties = []) :
    m.LinksRequireTheSame ↔ ∀ k v, ¬m.Requires k v := by
  have hnil : m.linkRequirements = [] := List.flatMap_eq_nil_iff.mpr h
  unfold LinksRequireTheSame
  rw [hnil]
  rfl

def zonedApp : Manifest where
  name := "rust-http-hello-world"
  components := [httpServer "0.0.0.0:8080" [⟨"daemonscaler", zoneSpread⟩]]

theorem zonedApp_requires : zonedApp.Requires "zone" "us-east-1" :=
  ⟨_, List.mem_cons_self, by decide, _, List.mem_cons_of_mem _ List.mem_cons_self, rfl, _, rfl,
    _, List.mem_cons_self, by decide⟩

theorem zonedApp_not_honoured :
    ∃ http, zonedApp.httpServerComponent = some http ∧ http.labels = none ∧
      ¬zonedApp.HonoursRequirements http := by
  have hsome : zonedApp.httpServerComponent = some ⟨none, "0.0.0.0:8080"⟩ := by
    rw [httpServerComponent_eq_some]
    refine ⟨⟨_, List.mem_cons_self, by decide, ?_⟩, by decide, rfl⟩
    exact ⟨_, List.mem_cons_of_mem _ List.mem_cons_self, rfl⟩
  refine ⟨_, hsome, rfl, ?_⟩
  intro hall
  exact hall.1.unlabelled.mp rfl _ _ zonedApp_requires

/-- The trait links the `incoming-handler` of `wasi:http` and its source config supplies
the address. -/
def Supplies (t : Trait) (addr : String) : Prop :=
  t.traitType = "link" ∧
    ∃ props, t.properties = .link props ∧ props.ns = "wasi" ∧ props.package = "http" ∧
      "incoming-handler" ∈ props.interfaces ∧
        ∃ source, props.source = some source ∧
          ∃ cp ∈ source.config, configAddress cp = some addr

def Serves (m : Manifest) (addr : String) : Prop :=
  ∃ c ∈ m.components, isHttpServer c = true ∧ hasTrait "daemonscaler" c ∧
    ∃ t ∈ c.traits.getD [], Supplies t addr

def FindsServer (m : Manifest) : Prop :=
  (m.httpServerComponent.isSome = true ↔ ∃ addr, m.Serves addr) ∧
    ∀ http, m.httpServerComponent = some http → m.Serves http.address

/-- There is no daemonscaler, or the last address of the first links is one that a single
component serves, or these supply none and no component serves one. -/
def FirstLinksServe (m : Manifest) : Prop :=
  ¬m.Scaled ∨
    match m.linkAddresses.getLast? with
    | some addr => m.Serves addr
    | none => ∀ addr, ¬m.Serves addr

theorem scaled_of_serves {m : Manifest} {addr : String} (h : m.Serves addr) : m.Scaled := by
  obtain ⟨c, hc, hhttp, hscaler, -⟩ := h
  exact ⟨c, hc, hhttp, hscaler⟩

theorem mem_addressesOf {p : TraitProperty} {addr : String} :
    addr ∈ addressesOf p ↔
      ∃ props, p = .link props ∧ props.ns = "wasi" ∧ props.package = "http" ∧
        "incoming-handler" ∈ props.interfaces ∧
          ∃ source, props.source = some source ∧
            ∃ cp ∈ source.config, configAddress cp = some addr := by
  cases p with
  | link props =>
    simp only [addressesOf]
    split_ifs with hhttp
    · cases hsource : props.source with
      | none => simp [hsource]
      | some source => simp [hsource, hhttp]
    · constructor
      · intro hmem
        cases hmem
      · intro hex
        obtain ⟨props', heq, hns, hpackage, hhandler, -⟩ := hex
        obtain rfl := TraitProperty.link.inj heq
        exact absurd ⟨hns, hpackage, hhandler⟩ hhttp
  | spreadScaler scaler => simp [addressesOf]
  | custom => simp [addressesOf]

theorem findsServer_of_some {m : Manifest} {http : HttpServerComponent}
    (h : m.httpServerComponent = some http) : m.FindsServer ↔ m.Serves http.address := by
  rw [FindsServer, h]
  constructor
  · intro hall
    exact hall.2 http rfl
  · intro hserves
    refine ⟨⟨fun _ => ⟨_, hserves⟩, fun _ => rfl⟩, fun http' hhttp => ?_⟩
    rw [← Option.some.inj hhttp]
    exact hserves

theorem findsServer_of_none {m : Manifest} (h : m.httpServerComponent = none) :
    m.FindsServer ↔ ∀ addr, ¬m.Serves addr := by
  rw [FindsServer, h]
  constructor
  · intro hall addr hserves
    cases hall.1.mpr ⟨addr, hserves⟩
  · intro hno
    refine ⟨⟨fun hsome => (by cases hsome), fun hex => ?_⟩, fun http hhttp => (by cases hhttp)⟩
    obtain ⟨addr, hserves⟩ := hex
    exact absurd hserves (hno addr)

/-- The search finds the server of a single component exactly when the first link traits,
of whichever components, supply the address that such a component serves. -/
theorem findsServer_iff (m : Manifest) : m.FindsServer ↔ m.FirstLinksServe := by
  by_cases hscaled : m.Scaled
  · have hresult := httpServerComponent_scaled hscaled
    rw [FirstLinksServe, or_iff_right (not_not.mpr hscaled)]
    cases hlast : m.linkAddresses.getLast? with
    | some addr =>
      rw [hlast] at hresult
      exact findsServer_of_some hresult
    | none =>
      rw [hlast] at hresult
      exact findsServer_of_none hresult
  · rw [findsServer_of_none (httpServerComponent_unscaled hscaled)]
    constructor
    · intro _
      exact .inl hscaled
    · intro _ addr hserves
      exact hscaled (scaled_of_serves hserves)

theorem findTrait_of_unique {traits : List Trait} {t : Trait} {traitType : String}
    (ht : t ∈ traits) (htype : t.traitType = traitType)
    (hone : ∀ t' ∈ traits, t'.traitType = traitType → t' = t) :
    traits.find? (fun t => t.traitType = traitType) = some t := by
  cases hfind : traits.find? fun t => t.traitType = traitType with
  | none =>
    have hno := List.find?_eq_none.mp hfind t ht
    exact absurd (decide_eq_true htype) hno
  | some t' =>
    have htype' : t'.traitType = traitType := by simpa using List.find?_some hfind
    rw [hone t' (List.mem_of_find?_eq_some hfind) htype']

/-- The usual manifest has one link on each HTTP server component and scales them all. -/
theorem firstLinksServe_of_single {m : Manifest}
    (hscaled : ∀ c ∈ m.components, isHttpServer c = true → hasTrait "daemonscaler" c)
    (hone : ∀ c ∈ m.components, isHttpServer c = true →
      ∀ t ∈ c.traits.getD [], ∀ t' ∈ c.traits.getD [],
        t.traitType = "link" → t'.traitType = "link" → t = t') : m.FirstLinksServe := by
  right
  have hmem : ∀ addr, addr ∈ m.linkAddresses ↔ m.Serves addr := by
    intro addr
    simp only [linkAddresses, firstLinks, List.mem_flatMap, List.mem_filterMap, List.mem_filter,
      mem_addressesOf]
    constructor
    · intro hex
      obtain ⟨t, ⟨c, ⟨hc, hhttp⟩, hfirst⟩, hprops⟩ := hex
      cases htraits : c.traits with
      | none => simp [firstTrait, htraits] at hfirst
      | some traits =>
        simp only [firstTrait, htraits] at hfirst
        have htype : t.traitType = "link" := by simpa using List.find?_some hfirst
        have ht := List.mem_of_find?_eq_some hfirst
        refine ⟨c, hc, hhttp, hscaled c hc hhttp, t, ?_, htype, hprops⟩
        rw [htraits]
        exact ht
    · intro hserves
      obtain ⟨c, hc, hhttp, -, t, ht, htype, hprops⟩ := hserves
      refine ⟨t, ⟨c, ⟨hc, hhttp⟩, ?_⟩, hprops⟩
      have hown := hone c hc hhttp
      cases htraits : c.traits with
      | none => simp [htraits] at ht
      | some traits =>
        rw [htraits] at ht hown
        simp only [firstTrait, htraits]
        apply findTrait_of_unique ht htype
        intro t' ht' htype'
        exact hown t' ht' t ht htype' htype
  cases hlast : m.linkAddresses.getLast? with
  | some addr => exact (hmem addr).mp (List.mem_of_getLast? hlast)
  | none =>
    intro addr hserves
    have hin := (hmem addr).mpr hserves
    rw [List.getLast?_eq_none_iff.mp hlast] at hin
    cases hin

/-- The first link of the server leads to a store, the second one to the handler. -/
def twoLinksApp : Manifest where
  name := "rust-http-hello-world"
  components := [⟨.capability "ghcr.io/wasmcloud/http-server:0.20.0", some
    [⟨"link", .link ⟨"wasi", "keyvalue", ["store"], none⟩⟩,
      ⟨"link", .link ⟨"wasi", "http", ["incoming-handler"],
        some ⟨[⟨"default-http", some (Dict.empty.put "address" "0.0.0.0:8080")⟩]⟩⟩⟩,
      ⟨"daemonscaler", .spreadScaler ⟨[]⟩⟩]⟩]

theorem twoLinksApp_not_found :
    twoLinksApp.httpServerComponent = none ∧ twoLinksApp.Serves "0.0.0.0:8080" ∧
      ¬twoLinksApp.FindsServer := by
  have hnone : twoLinksApp.httpServerComponent = none := by
    cases h : twoLinksApp.httpServerComponent with
    | none => rfl
    | some http =>
      have hlast := (httpServerComponent_eq_some.mp h).2.1
      cases hlast
  have hserves : twoLinksApp.Serves "0.0.0.0:8080" := by
    refine ⟨_, List.mem_cons_self, by decide, ⟨⟨"daemonscaler", .spreadScaler ⟨[]⟩⟩, ?_, rfl⟩,
      _, List.mem_cons_of_mem _ List.mem_cons_self, rfl, _, rfl, rfl, rfl, ?_, _, rfl,
      _, List.mem_cons_self, by decide⟩
    · simp
    · simp
  refine ⟨hnone, hserves, ?_⟩
  intro hall
  exact (findsServer_of_none hnone).mp hall _ hserves

end Manifest
end WadmOperator

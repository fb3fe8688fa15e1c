import WadmOperator.Patching

/-!
# Which application a patch changes

The application is looked up by the name of the request, but the manifest that is put
and deployed has the name that the patched document gives it. A patch may set this name.
-/

namespace WadmOperator

/-- A manifest has its name from the metadata of the document, which for an object is the
member of this name. -/
structure Documents.DecodesName (d : Documents) (metadataName : Value → Option String) : Prop where
  metadata : ∀ v m, v.IsObject → d.fromValue v = .ok m →
    ∃ md, v.member "metadata" = some md ∧ metadataName md = some m.name
  member : ∀ md name, md.IsObject → metadataName md = some name →
    md.member "name" = some (.string name)

namespace Patching

open Value Applications Procedure

variable {api : ApplicationApi} {ns name : String} {body : ByteArray}

def WadmCall.deployed : WadmCall → Option StoredManifest
  | .putAndDeployManifest manifest => some manifest
  | _ => none

def deployments (log : List Request) : List StoredManifest :=
  log.filterMap fun q => WadmCall.deployed q.call

structure Deploys (api : ApplicationApi) (ns name : String) (body : ByteArray)
    (stored : StoredManifest) (patch : Value) (updated : StoredManifest) : Prop where
  found : ∃ client latticeId,
    connection api "unable to list cosmonic host configs: " ns [] = (.ok (client, latticeId), []) ∧
      api.nats.getManifest client latticeId name none = .ok stored
  parsed : api.documents.parseValue body = .ok patch
  decoded :
    api.documents.fromValue (patchedValue api (api.documents.toValue stored) patch) = .ok updated

theorem Deploys.unique {stored stored' updated updated' : StoredManifest} {patch patch' : Value}
    (h : Deploys api ns name body stored patch updated)
    (h' : Deploys api ns name body stored' patch' updated') :
    stored = stored' ∧ patch = patch' ∧ updated = updated' := by
  obtain ⟨client, latticeId, hconn, hget⟩ := h.found
  obtain ⟨client', latticeId', hconn', hget'⟩ := h'.found
  obtain ⟨rfl, rfl⟩ := Prod.mk.inj
    (Except.ok.inj (congrArg Prod.fst (hconn.symm.trans hconn')))
  obtain rfl := Except.ok.inj (hget.symm.trans hget')
  obtain rfl := Except.ok.inj (h.parsed.symm.trans h'.parsed)
  exact ⟨rfl, rfl, Except.ok.inj (h.decoded.symm.trans h'.decoded)⟩

def DeploysNothing (run : Except Abort Response × List Request) : Prop :=
  deployments run.2 = [] ∧ ∀ response, run.1 ≠ .ok response

theorem orInternal_error {α : Type} {what e : String} {r : Except String α} (h : r = .error e)
    (log : List Request) :
    orInternal what r log = (.error (.answered (.internalError (what ++ e))), log) := by
  rw [h]
  exact ofExcept_apply _ _

theorem orInternal_of_ok {α : Type} (what : String) {r : Except String α} {a : α} (h : r = .ok a)
    (log : List Request) : orInternal what r log = (.ok a, log) := by
  rw [h]
  exact ofExcept_apply _ _

theorem deployPatched_cases (api : ApplicationApi) (client : NatsClient) (latticeId name : String)
    (stored : StoredManifest) (body : ByteArray) {log : List Request}
    (hlog : deployments log = []) :
    (∃ patch updated, api.documents.parseValue body = .ok patch ∧
      api.documents.fromValue (patchedValue api (api.documents.toValue stored) patch) =
        .ok updated ∧
      deployments (deployPatched api client latticeId name stored body log).2 = [updated]) ∨
    ((∀ patch updated, api.documents.parseValue body = .ok patch →
      api.documents.fromValue (patchedValue api (api.documents.toValue stored) patch) ≠
        .ok updated) ∧
      DeploysNothing (deployPatched api client latticeId name stored body log)) := by
  unfold deployPatched
  cases hparse : api.documents.parseValue body with
  | error e =>
    right
    rw [bind_eq, orInternal_error rfl]
    exact ⟨fun patch updated h => (by cases h), hlog, fun response h => (by cases h)⟩
  | ok patch =>
    rw [bind_of_ok (orInternal_of_ok _ rfl log)]
    cases hdecode : api.documents.fromValue
        (patchedValue api (api.documents.toValue stored) patch) with
    | error e =>
      right
      rw [bind_eq, orInternal_error rfl]
      refine ⟨?_, hlog, fun response h => (by cases h)⟩
      intro patch' updated hpatch hupdated
      obtain rfl := Except.ok.inj hpatch
      rw [hdecode] at hupdated
      cases hupdated
    | ok updated =>
      left
      refine ⟨patch, updated, rfl, hdecode, ?_⟩
      rw [bind_of_ok (orInternal_of_ok _ rfl log)]
      have hput : deployments (log ++ [⟨client, latticeId, .putAndDeployManifest updated⟩]) =
          [updated] := by
        rw [deployments, List.filterMap_append, ← deployments, hlog]
        rfl
      rw [bind_eq]
      cases api.nats.putAndDeployManifest client latticeId updated with
      | error e => exact hput
      | ok answer => exact hput

theorem patchApplication_cases (api : ApplicationApi) (ns name : String) (body : ByteArray) :
    (∃ stored patch updated, Deploys api ns name body stored patch updated ∧
      deployments (patchApplication api ns name body []).2 = [updated]) ∨
    ((∀ stored patch updated, ¬Deploys api ns name body stored patch updated) ∧
      DeploysNothing (patchApplication api ns name body [])) := by
  have hlog : (connection api "unable to list cosmonic host configs: " ns []).2 = [] :=
    connection_readOnly _ ns []
  rcases hconn : connection api "unable to list cosmonic host configs: " ns [] with ⟨e | r, log⟩
  · right
    rw [hconn] at hlog
    obtain rfl : log = [] := hlog
    constructor
    · intro stored patch updated h
      obtain ⟨client, latticeId, hok, -⟩ := h.found
      rw [hconn] at hok
      cases hok
    · unfold patchApplication
      rw [bind_eq, hconn]
      exact ⟨rfl, fun response h => (by cases h)⟩
  · obtain ⟨client, latticeId⟩ := r
    rw [hconn] at hlog
    obtain rfl : log = [] := hlog
    have hfound : ∀ {stored patch updated}, Deploys api ns name body stored patch updated →
        api.nats.getManifest client latticeId name none = .ok stored := by
      intro stored patch updated h
      obtain ⟨client', latticeId', hok, hget⟩ := h.found
      rw [hconn] at hok
      cases hok
      exact hget
    cases hget : api.nats.getManifest client latticeId name none with
    | error e =>
      right
      constructor
      · intro stored patch updated h
        rw [hget] at hfound
        cases hfound h
      · unfold patchApplication
        rw [bind_of_ok hconn]
        simp only [bind_eq, wadm, hget]
        exact ⟨rfl, fun response h => (by cases h)⟩
    | ok stored =>
      rw [patchApplication_run body hconn hget]
      have hnone : deployments ([] ++ [⟨client, latticeId, .getManifest name none⟩]) = [] := rfl
      rcases deployPatched_cases api client latticeId name stored body hnone with
        ⟨patch, updated, hparse, hdecode, hdeployed⟩ | ⟨hnot, hnothing⟩
      · left
        exact ⟨stored, patch, updated, ⟨⟨client, latticeId, hconn, hget⟩, hparse, hdecode⟩,
          hdeployed⟩
      · right
        refine ⟨?_, hnothing⟩
        intro stored' patch updated h
        obtain rfl := Except.ok.inj (hget.symm.trans (hfound h))
        exact hnot patch updated h.parsed h.decoded

/-- The patch sets no other name: not by its member `metadata.name`, not by a value that is
put in the place of the metadata, not by a document that is put in the place of all. -/
structure KeepsName (d : Documents) (metadataName : Value → Option String) (patch : Value)
    (name : String) : Prop where
  member : ∀ v, child "name" (metadataOf patch) = some v → v = .string name
  metadata : ∀ v, metadataOf patch = some v → ¬IsObject v → metadataName v = some name
  document : ¬IsObject patch → ∀ m, d.fromValue patch = .ok m → m.name = name

/-- Nothing is deployed and the answer is an error, or the application of the name is. -/
def PatchesOnly (name : String) (run : Except Abort Response × List Request) : Prop :=
  DeploysNothing run ∨ ∃ updated, deployments run.2 = [updated] ∧ updated.name = name

theorem string_not_object (s : String) : ¬IsObject (.string s) := fun ⟨_, h⟩ => by cases h

theorem merged_name {t name : String} {p : Option Value}
    (h : Alike (some (.string t)) (mergedAt (some (.string name)) p)) :
    t = name ↔ ∀ v, p = some v → v = .string name := by
  cases p with
  | none =>
    have heq := h.symm.eq_of_not_object (string_not_object t)
    obtain rfl := Value.string.inj (Option.some.inj heq)
    exact ⟨fun _ v hv => (by cases hv), fun _ => rfl⟩
  | some v =>
    have heq := h.symm.eq_of_not_object (string_not_object t)
    have hnull : v ≠ .null := by
      intro hnull
      subst hnull
      cases heq
    have hobject : ¬IsObject v := by
      intro hobject
      obtain ⟨members, rfl⟩ := hobject
      rw [mergedAt_some hnull, mergePatch] at heq
      cases heq
    rw [mergedAt_some hnull, mergePatch_of_not_object hobject] at heq
    obtain rfl := Option.some.inj heq
    constructor
    · intro ht w hw
      rw [← Option.some.inj hw, ht]
    · intro hall
      exact Value.string.inj (hall _ rfl)

section

variable {metadataName : Value → Option String} {patch : Value} {stored updated : StoredManifest}
  (hmerge : api.documents.MergesPatches) (hname : api.documents.DecodesName metadataName)
  (hdecoded :
    api.documents.fromValue (patchedValue api (api.documents.toValue stored) patch) = .ok updated)

include hmerge hdecoded

theorem name_of_document (hobject : ¬IsObject patch) :
    api.documents.fromValue patch = .ok updated := by
  have hdoc := patchedValue_same hmerge (api.documents.toValue stored) patch
  rw [merged, mergePatch_of_not_object hobject, putBack_of_not_object hobject] at hdoc
  rw [Option.some.inj (hdoc.eq_of_not_object hobject)] at hdecoded
  exact hdecoded

include hname

theorem name_of_metadata (hpatch : patch.Distinct) (hobject : IsObject patch) {v : Value}
    (hv : metadataOf patch = some v) (hvobject : ¬IsObject v) :
    metadataName v = some updated.name := by
  have hdoc := patchedValue_same hmerge (api.documents.toValue stored) patch
  obtain ⟨md, hmd, hmdname⟩ :=
    hname.metadata _ updated (hdoc.isObject (isObject_merged hobject _)) hdecoded
  have hopen : ¬Open (metadataOf patch) := fun h => hvobject (h v hv)
  have halike : Alike (some md) (mergedAt (some null) (metadataOf patch)) := by
    have hmerged := alike_putBack_of_not_open hopen
      (metadataOf (stripped (api.documents.toValue stored))) (some null) ["annotations"]
      (lastApplied (api.documents.toValue stored))
    rw [← metadataOf_merged hpatch hobject] at hmerged
    rw [← hmd]
    exact (hdoc.child "metadata").trans hmerged
  rw [hv] at halike
  by_cases hnull : v = null
  · subst hnull
    cases halike.eq_none
  · rw [mergedAt_some hnull, mergePatch_of_not_object hvobject] at halike
    rw [← Option.some.inj (halike.eq_of_not_object hvobject)]
    exact hmdname

theorem name_of_member (hpatch : patch.Distinct) (hobject : IsObject patch)
    (hopen : Open (metadataOf patch)) :
    updated.name = stored.name ↔
      ∀ v, child "name" (metadataOf patch) = some v → v = .string stored.name := by
  obtain ⟨own, ⟨members, hvalue, hlookup⟩, hownname⟩ := api.documents.toValue_metadata stored
  have hcurrent : metadataOf (api.documents.toValue stored) = some (.object own) := by
    rw [hvalue]
    exact hlookup
  have hdoc := patchedValue_same hmerge (api.documents.toValue stored) patch
  obtain ⟨docmd, hdocmd, hdocname⟩ :=
    hname.metadata _ updated (hdoc.isObject (isObject_merged hobject _)) hdecoded
  obtain ⟨md, hmd, hmdobject⟩ := metadata_object hpatch hobject hopen hcurrent ⟨own, rfl⟩
  have hmdalike : Alike (some docmd)
      (metadataOf (merged (api.documents.toValue stored) patch)) := by
    rw [← hdocmd]
    exact hdoc.child "metadata"
  have hnamealike := hmdalike.child "name"
  rw [hmd] at hmdalike
  rw [metadata_merged hpatch hobject hopen _ (by decide), hcurrent] at hnamealike
  change Alike (docmd.member "name") (mergedAt (own.lookup "name") _) at hnamealike
  rw [hname.member docmd _ (hmdalike.isObject hmdobject) hdocname, hownname] at hnamealike
  exact merged_name hnamealike

theorem keepsName_iff (hpatch : patch.Distinct) :
    updated.name = stored.name ↔
      KeepsName api.documents metadataName patch stored.name := by
  by_cases hobject : IsObject patch
  · by_cases hopen : Open (metadataOf patch)
    · rw [name_of_member hmerge hname hdecoded hpatch hobject hopen]
      exact ⟨fun h => ⟨h, fun v hv hnot => absurd (hopen v hv) hnot, fun hnot => absurd hobject hnot⟩,
        fun h => h.member⟩
    · constructor
      · intro hsame
        refine ⟨?_, ?_, fun hnot => absurd hobject hnot⟩
        · intro v hv
          rw [child_of_not_open hopen] at hv
          cases hv
        · intro v hv hvobject
          rw [name_of_metadata hmerge hname hdecoded hpatch hobject hv hvobject, hsame]
      · intro h
        obtain ⟨v, hv, hvobject⟩ : ∃ v, metadataOf patch = some v ∧ ¬IsObject v := by
          simpa [Open] using hopen
        have hkept := h.metadata v hv hvobject
        rw [name_of_metadata hmerge hname hdecoded hpatch hobject hv hvobject] at hkept
        exact Option.some.inj hkept
  · have hdocument := name_of_document hmerge hdecoded hobject
    have hnone : metadataOf patch = none := member_eq_none hobject _
    constructor
    · intro hsame
      refine ⟨?_, ?_, ?_⟩
      · intro v hv
        rw [hnone] at hv
        cases hv
      · intro v hv
        rw [hnone] at hv
        cases hv
      · intro _ m hm
        obtain rfl := Except.ok.inj (hdocument.symm.trans hm)
        exact hsame
    · intro h
      exact h.document hobject updated hdocument

end

/-- A patch request changes the application of its name only, exactly when the patch that
it applies keeps the name. -/
theorem patchesOnly_iff {metadataName : Value → Option String}
    (hmerge : api.documents.MergesPatches) (hname : api.documents.DecodesName metadataName)
    (hstored : ∀ client latticeId stored,
      api.nats.getManifest client latticeId name none = .ok stored → stored.name = name)
    (hpatch : ∀ patch, api.documents.parseValue body = .ok patch → patch.Distinct) :
    PatchesOnly name (patchApplication api ns name body []) ↔
      ∀ stored patch updated, Deploys api ns name body stored patch updated →
        KeepsName api.documents metadataName patch name := by
  have hkeeps : ∀ {stored patch updated}, Deploys api ns name body stored patch updated →
      (updated.name = name ↔ KeepsName api.documents metadataName patch name) := by
    intro stored patch updated h
    obtain ⟨client, latticeId, -, hget⟩ := h.found
    have hown := hstored client latticeId stored hget
    subst hown
    exact keepsName_iff hmerge hname h.decoded (hpatch patch h.parsed)
  rcases patchApplication_cases api ns name body with
    ⟨stored, patch, updated, hdeploys, hlog⟩ | ⟨hnot, hnothing⟩
  · constructor
    · intro honly stored' patch' updated' hdeploys'
      obtain ⟨rfl, rfl, rfl⟩ := hdeploys.unique hdeploys'
      apply (hkeeps hdeploys).mp
      rcases honly with ⟨hnone, -⟩ | ⟨u, hu, hown⟩
      · rw [hlog] at hnone
        cases hnone
      · rw [hlog] at hu
        obtain rfl := List.singleton_inj.mp hu
        exact hown
    · intro h
      exact .inr ⟨updated, hlog, (hkeeps hdeploys).mpr (h _ _ _ hdeploys)⟩
  · exact ⟨fun _ stored patch updated h => absurd h (hnot stored patch updated),
      fun _ => .inl hnothing⟩

def nameMember (md : Value) : Option String :=
  match md.member "name" with
  | some (.string name) => some name
  | _ => none

def rename (name : String) : Value := .object [("metadata", .object [("name", .string name)])]

def renamingApi (name : String) : ApplicationApi where
  listConfigs _ := .ok [{ uid := "1", ns := "default", name := "host", spec := .sample }]
  nats := { getManifest := fun _ _ name _ => .ok { name := name, components := [] } }
  documents := { Documents.sample with parseValue := fun _ => .ok (rename name) }

theorem renaming_decodesName (name : String) :
    (renamingApi name).documents.DecodesName nameMember := by
  constructor
  · intro v m _ hok
    obtain ⟨name, hget, rfl⟩ := sample_fromValue hok
    rw [getIn_cons] at hget
    obtain ⟨md, hmd, hmdname⟩ := Option.bind_eq_some_iff.mp hget
    refine ⟨md, hmd, ?_⟩
    rw [getIn_cons] at hmdname
    obtain ⟨x, hx, hxname⟩ := Option.bind_eq_some_iff.mp hmdname
    obtain rfl := Option.some.inj hxname
    rw [nameMember, hx]
  · intro md name _ hmdname
    unfold nameMember at hmdname
    split at hmdname
    · next found hfound =>
      obtain rfl := Option.some.inj hmdname
      exact hfound
    · cases hmdname

theorem rename_distinct (name : String) : (rename name).Distinct :=
  .singleton _ (.singleton _ (string_distinct name))

theorem patchesOnly_rename :
    PatchesOnly "app" (patchApplication (renamingApi "app") "default" "app" .empty []) ↔
      ∀ stored patch updated,
        Deploys (renamingApi "app") "default" "app" .empty stored patch updated →
          KeepsName (renamingApi "app").documents nameMember patch "app" :=
  patchesOnly_iff sample_mergesPatches (renaming_decodesName "app")
    (fun _ _ _ hstored => Except.ok.inj hstored ▸ rfl)
    (fun _ hpatch => Except.ok.inj hpatch ▸ rename_distinct "app")

/-- The request is for "app", and "other" is deployed. -/
theorem other_application_deployed :
    ¬PatchesOnly "app" (patchApplication (renamingApi "other") "default" "app" .empty []) := by
  have hlog : deployments (patchApplication (renamingApi "other") "default" "app" .empty []).2 =
      [{ name := "other", components := [] }] := rfl
  rintro (⟨hnone, -⟩ | ⟨updated, hupdated, hown⟩)
  · rw [hlog] at hnone
    cases hnone
  · rw [hlog] at hupdated
    obtain rfl := List.singleton_inj.mp hupdated
    exact absurd hown (by decide)

end Patching
end WadmOperator

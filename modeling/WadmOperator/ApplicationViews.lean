import WadmOperator.ApplicationLookup

/-!
# The two views of an application

A listing makes its rows and items from the summaries of wadm, a lookup from the latest
manifest and its status. The lookup takes the version of that manifest for the deployed
one, and the items of a listing are all said to be in the default namespace.
-/

namespace WadmOperator
namespace Applications

variable {api : ApplicationApi} {ns : String} {client : NatsClient} {latticeId : String}
  {app : AppSummary} {manifest : StoredManifest} {status : Status}

/-- The manifest is the latest one and carries its version, and the two reports about the
application agree. -/
structure Reports (app : AppSummary) (manifest : StoredManifest) (status : Status) : Prop where
  name : manifest.name = app.name
  annotation : manifest.annotations.get? "version" = some app.version
  version : status.version = app.version
  statusType : status.statusType = app.status

def HasMetadata (value : Value) (item : ObjectMeta) : Prop :=
  ∃ metadata, value.HasObject "metadata" metadata ∧
    metadata.lookup "name" = item.name.map Value.string ∧
    metadata.lookup "namespace" = item.ns.map Value.string ∧
    metadata.lookup "uid" = item.uid.map Value.string ∧
    metadata.lookup "resourceVersion" = item.resourceVersion.map Value.string

structure ViewsAgree (api : ApplicationApi) (ns : String) (app : AppSummary) : Prop where
  row : ∃ table, (getApplication api .table ns app.name []).1 = .ok (.ok (.table table)) ∧
    table.rows = [ApplicationTable.summaryRow app]
  metadata : ∃ value, (getApplication api .notSpecified ns app.name []).1 =
    .ok (.ok (.manifest value)) ∧ HasMetadata value (partialOf api app).metadata

theorem combinedRow_eq (h : Reports app manifest status) :
    ApplicationTable.combinedRow ⟨manifest, status⟩ =
      ⟨[app.name, app.version, app.version, app.status.text]⟩ := by
  simp only [ApplicationTable.combinedRow, CombinedManifest.name, CombinedManifest.deployedVersion,
    CombinedManifest.latestVersion, CombinedManifest.statusText, h.name, h.annotation, h.version,
    h.statusType]

theorem row_iff (h : Reports app manifest status) :
    [ApplicationTable.combinedRow ⟨manifest, status⟩] = [ApplicationTable.summaryRow app] ↔
      app.deployedVersion.getD "N/A" = app.version := by
  rw [combinedRow_eq h, ApplicationTable.summaryRow]
  simp [eq_comm]

theorem metadata_iff (h : Reports app manifest status) {value : Value}
    (hvalue : manifestValue api ns app.name manifest status = some value) :
    HasMetadata value (partialOf api app).metadata ↔ ns = "default" := by
  obtain ⟨value', metadata, hvalue', hobject, hname, hns, huid⟩ :=
    manifestValue_object api ns app.name manifest status
  obtain rfl := Option.some.inj (hvalue.symm.trans hvalue')
  rw [api.documents.version_annotation _ _ h.annotation] at huid
  constructor
  · intro hall
    obtain ⟨own, hown, -, hsame, -⟩ := hall
    rw [← hobject.unique hown, hns] at hsame
    exact Value.string.inj (Option.some.inj hsame)
  · intro hdefault
    refine ⟨metadata, hobject, ?_, ?_, huid _ (.inl rfl), huid _ (.inr rfl)⟩
    · rw [hname, h.name]
      rfl
    · rw [hns, hdefault]
      rfl

/-- For an application that wadm reports as it should, the views agree exactly in the
default namespace and while the latest version is the deployed one. -/
theorem viewsAgree_iff
    (hconn : connection api "unable to list cosmonic host configs: " ns [] =
      (.ok (client, latticeId), []))
    (hmanifest : api.nats.getManifest client latticeId app.name none = .ok manifest)
    (hstatus : api.nats.getManifestStatus client latticeId app.name = .ok status)
    (h : Reports app manifest status) :
    ViewsAgree api ns app ↔ ns = "default" ∧ app.deployedVersion.getD "N/A" = app.version := by
  have hrun := fun accept => getApplication_run accept hconn hmanifest hstatus
  obtain ⟨value, -, hvalue, -⟩ := manifestValue_object api ns app.name manifest status
  have htable : (getApplication api .table ns app.name []).1 =
      .ok (.ok (.table (.ofManifests [⟨manifest, status⟩]))) := by
    rw [hrun]
    rfl
  have hobject : (getApplication api .notSpecified ns app.name []).1 =
      .ok (.ok (.manifest value)) := by
    rw [hrun]
    simp [manifestResponse, hvalue]
  rw [← metadata_iff h hvalue, ← row_iff h, and_comm]
  constructor
  · intro hall
    obtain ⟨table, hsame, hrows⟩ := hall.row
    obtain ⟨value', hsame', hmetadata⟩ := hall.metadata
    obtain rfl := Body.table.inj (Response.ok_inj (Except.ok.inj (htable.symm.trans hsame)))
    obtain rfl := Body.manifest.inj (Response.ok_inj (Except.ok.inj (hobject.symm.trans hsame')))
    exact ⟨hrows, hmetadata⟩
  · intro hall
    exact ⟨⟨_, htable, hall.1⟩, ⟨_, hobject, hall.2⟩⟩

def echo : AppSummary :=
  { name := "echo", version := "v1", deployedVersion := some "v1", status := .deployed }

theorem viewsAgree_echo : ViewsAgree (twoLatticesApi "nats://first") "default" echo := by
  have hconn : connection (twoLatticesApi "nats://first")
      "unable to list cosmonic host configs: " "default" [] =
        (.ok (⟨"nats://first", 4222, none⟩, "red"), []) := rfl
  have hreports : Reports echo (storedManifest echo) ⟨"v1", .deployed⟩ := ⟨rfl, rfl, rfl, rfl⟩
  exact (viewsAgree_iff hconn rfl rfl hreports).mpr ⟨rfl, rfl⟩

def upgraded : AppSummary := { echo with version := "v2" }

def upgradedApi : ApplicationApi where
  listConfigs _ := .ok twoLattices
  nats := storing fun _ => [upgraded]
  documents := .sample

/-- The lookup says that the new version is deployed. -/
theorem latest_shown_as_deployed :
    ¬∀ api ns client latticeId app manifest status,
      connection api "unable to list cosmonic host configs: " ns [] =
        (.ok (client, latticeId), []) →
      api.nats.getManifest client latticeId app.name none = .ok manifest →
      api.nats.getManifestStatus client latticeId app.name = .ok status →
      Reports app manifest status → ViewsAgree api ns app := by
  intro h
  obtain ⟨⟨table, hsame, hrows⟩, -⟩ := h upgradedApi "default" ⟨"nats://first", 4222, none⟩ "red"
    upgraded (storedManifest upgraded) ⟨"v2", .deployed⟩ rfl rfl rfl ⟨rfl, rfl, rfl, rfl⟩
  have hrun : (getApplication upgradedApi .table "default" "echo" []).1 =
      .ok (.ok (.table (.ofManifests [⟨storedManifest upgraded, ⟨"v2", .deployed⟩⟩]))) := rfl
  obtain rfl := Body.table.inj (Response.ok_inj (Except.ok.inj (hrun.symm.trans hsame)))
  revert hrows
  decide

end Applications
end WadmOperator

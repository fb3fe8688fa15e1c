import WadmOperator.Patching

/-!
# A patch that is sent twice

After a patch the store keeps the result with a version among its annotations. The same
patch makes the same document of it: the merge is idempotent, the version is dropped
before the merge, and the last applied configuration comes back as it was.
-/

namespace WadmOperator
namespace Patching

open Value Applications

def withAnnotations (v : Value) : Value :=
  v.modifyIn ["metadata"] fun members =>
    if (members.lookup "annotations").isNone then
      Value.put "annotations" (.object []) members
    else members

def SameDocument (a b : Value) : Prop := Same (withAnnotations a) (withAnnotations b)

theorem member_withAnnotations {md : Value} (h : IsObject md) (key : String) :
    member key (md.modifyIn [] fun members =>
        if (members.lookup "annotations").isNone then
          Value.put "annotations" (.object []) members
        else members) =
      if key = "annotations" then some ((member key md).getD (.object [])) else member key md := by
  obtain ⟨members, rfl⟩ := h
  simp only [modifyIn, member_object]
  cases hlookup : members.lookup "annotations" with
  | none =>
    simp only [Option.isNone_none, if_true, lookup_put]
    split_ifs with heq
    · rw [heq, hlookup]
      rfl
    · rfl
  | some a =>
    simp only [Option.isNone_some, Bool.false_eq_true, if_false]
    split_ifs with heq
    · rw [heq, hlookup]
      rfl
    · rfl

theorem sameDocument_of {a b : Value} (houtline : outline a = outline b)
    (hmember : ∀ key, key ≠ "metadata" → Alike (member key a) (member key b))
    (hmetadata : (metadataOf a).map outline = (metadataOf b).map outline)
    (hother : ∀ key, key ≠ "annotations" →
      Alike (child key (metadataOf a)) (child key (metadataOf b)))
    (hannotations : Alike (some ((annotationsOf a).getD (.object [])))
      (some ((annotationsOf b).getD (.object [])))) : SameDocument a b := by
  apply Alike.of_children
  · simp only [Option.map_some, withAnnotations, outline_modifyIn, houtline]
  intro key
  change Alike (member key (withAnnotations a)) (member key (withAnnotations b))
  rw [withAnnotations, withAnnotations, member_modifyIn, member_modifyIn]
  split_ifs with hkey
  swap
  · exact hmember key hkey
  unfold annotationsOf at hannotations
  unfold metadataOf at hmetadata hother hannotations
  cases ha : member "metadata" a with
  | none =>
    cases hb : member "metadata" b with
    | none => exact .refl _
    | some mb =>
      rw [ha, hb] at hmetadata
      cases hmetadata
  | some ma =>
    cases hb : member "metadata" b with
    | none =>
      rw [ha, hb] at hmetadata
      cases hmetadata
    | some mb =>
      rw [ha, hb] at hmetadata hother hannotations
      have hsame : outline ma = outline mb := Option.some.inj hmetadata
      by_cases hobject : IsObject mb
      · have hma : IsObject ma := by
          obtain ⟨members, rfl⟩ := hobject
          exact outline_eq_object hsame
        apply Alike.of_children
        · simp only [Option.map_some, outline_modifyIn, hsame]
        intro key'
        change Alike (member key' _) (member key' _)
        rw [member_withAnnotations hma, member_withAnnotations hobject]
        split_ifs with heq
        · subst heq
          exact hannotations
        · exact hother key' heq
      · rw [outline_eq_of_not_object hobject hsame]
        exact .refl _

/-- What decodes as a manifest and is an object has metadata, and no null for annotations. -/
def RequiresMetadata (d : Documents) : Prop :=
  ∀ v m, IsObject v → d.fromValue v = .ok m →
    (∃ md, metadataOf v = some md ∧ md ≠ null) ∧ annotationsOf v ≠ some null

structure Stored (doc stored : Value) (version : Value) : Prop where
  metadata_kind : ∀ md, metadataOf doc = some md → md = .null ∨ IsObject md
  annotations_kind : ∀ a, annotationsOf doc = some a → a = .null ∨ IsObject a
  metadata : ∃ md, metadataOf stored = some md ∧ IsObject md
  annotations : ∃ a, annotationsOf stored = some a ∧ IsObject a
  member : ∀ key, key ≠ "metadata" → member key stored = member key doc
  inMetadata : ∀ key, key ≠ "annotations" →
    child key (metadataOf stored) = child key (metadataOf doc)
  annotation : ∀ key, child key (annotationsOf stored) =
    if key = "version" then some version else child key (annotationsOf doc)

theorem stored_of_setIn {doc stored version : Value}
    (h : doc.setIn ["metadata", "annotations", "version"] version = some stored) :
    Stored doc stored version := by
  have hnull : ∀ (o : Option Value) (key : String),
      Value.member key (o.getD null) = child key o := by
    intro o key
    cases o <;> rfl
  obtain ⟨-, md, hmd, hmember⟩ := setIn_cons h
  obtain ⟨hmdobject, a, ha, hmdmember⟩ := setIn_cons hmd
  obtain ⟨haobject, x, hx, hamember⟩ := setIn_cons ha
  obtain rfl : version = x := Option.some.inj hx
  have hmetadata : metadataOf stored = some md := (hmember "metadata").trans (if_pos rfl)
  have hannotations : annotationsOf stored = some a := by
    rw [annotationsOf, hmetadata]
    exact (hmdmember "annotations").trans (if_pos rfl)
  refine ⟨?_, ?_, ⟨md, hmetadata, hmdobject⟩, ⟨a, hannotations, haobject⟩, ?_, ?_, ?_⟩
  · intro old hold
    have hkind := setIn_kind hmd
    rw [← metadataOf, hold] at hkind
    exact hkind
  · intro old hold
    have hkind := setIn_kind ha
    rw [hnull, ← metadataOf, ← annotationsOf, hold] at hkind
    exact hkind
  · intro key hkey
    exact (hmember key).trans (if_neg hkey)
  · intro key hkey
    rw [hmetadata]
    refine (hmdmember key).trans ((if_neg hkey).trans ?_)
    rw [hnull]
    rfl
  · intro key
    rw [hannotations]
    refine (hamember key).trans ?_
    rw [hnull, hnull]
    rfl

theorem alike_getD {o o' : Option Value} (ho : ∀ a, o = some a → IsObject a)
    (ho' : ∀ a, o' = some a → IsObject a) (h : ∀ key, Alike (child key o) (child key o')) :
    Alike (some (o.getD (.object []))) (some (o'.getD (.object []))) := by
  have hobject : ∀ o : Option Value, (∀ a, o = some a → IsObject a) →
      outline (o.getD (.object [])) = .object [] := by
    intro o ho
    cases o with
    | none => rfl
    | some a => exact (ho a rfl).outline_eq
  have hchild : ∀ (o : Option Value) (key : String),
      child key (some (o.getD (.object []))) = child key o := by
    intro o key
    cases o <;> rfl
  apply Alike.of_children
  · rw [Option.map_some, Option.map_some, hobject o ho, hobject o' ho']
  · intro key
    rw [hchild, hchild]
    exact h key

theorem Stored.annotations_object {doc stored version : Value} (h : Stored doc stored version)
    (hnull : annotationsOf doc ≠ some .null) {a : Value} (ha : annotationsOf doc = some a) :
    IsObject a := by
  rcases h.annotations_kind a ha with rfl | hobject
  · exact absurd ha hnull
  · exact hobject

theorem annotations_deleted {current patch : Value} {o : Option Value} (hpatch : patch.Distinct)
    (hobject : IsObject patch) (hopenm : Open (metadataOf patch))
    (hnot : ¬Open (annotationsOf patch)) (ho : ∀ a, o = some a → IsObject a)
    (h : Alike o (annotationsOf (merged current patch))) :
    mergedAt none (annotationsOf patch) = none := by
  obtain ⟨hforget, hleaves⟩ := mergedAt_of_not_open hnot (annotationsOf (stripped current))
  rw [annotationsOf_merged hpatch hobject hopenm, hforget] at h
  cases hv : mergedAt none (annotationsOf patch) with
  | none => rfl
  | some v =>
    have hvobject := hleaves v hv
    rw [hv, Option.map_some, putBack_of_not_object hvobject] at h
    exact absurd (ho v (h.eq_of_not_object hvobject)) hvobject

theorem open_metadata {current patch md : Value} (hpatch : patch.Distinct)
    (hobject : IsObject patch) (hmd : Alike (some md) (metadataOf (merged current patch)))
    (hmdobject : IsObject md) : Open (metadataOf patch) := by
  by_contra hnot
  obtain ⟨hforget, hleaves⟩ := mergedAt_of_not_open hnot (metadataOf (stripped current))
  rw [metadataOf_merged hpatch hobject, hforget] at hmd
  cases hv : mergedAt none (metadataOf patch) with
  | none =>
    rw [hv] at hmd
    cases hmd.eq_none
  | some v =>
    have hvobject := hleaves v hv
    rw [hv, Option.map_some, putBack_of_not_object hvobject] at hmd
    exact hvobject (hmd.symm.isObject hmdobject)

section

variable {api : ApplicationApi} (hmerge : api.documents.MergesPatches)
  {current patch stored version : Value} (hpatch : patch.Distinct) (hobject : IsObject patch)

section

variable (hstored : Stored (patchedValue api current patch) stored version)

include hmerge hpatch hobject hstored

theorem member_again {key : String} (hkey : key ≠ "metadata") :
    Alike (member key (patchedValue api stored patch))
      (member key (patchedValue api current patch)) := by
  have hpk := distinct_child (open_patch hpatch hobject).2 key
  have hdoc : Alike (member key (patchedValue api current patch))
      (member key (merged current patch)) := (patchedValue_same hmerge current patch).child key
  have hagain : Alike (member key (patchedValue api stored patch))
      (member key (merged stored patch)) := (patchedValue_same hmerge stored patch).child key
  rw [member_merged hpatch hobject _ hkey] at hdoc hagain
  rw [hstored.member key hkey] at hagain
  exact hagain.trans ((hdoc.mergedAt hpk).trans ((mergedAt_again hpk _).trans hdoc.symm))

theorem inMetadata_again (hopenm : Open (metadataOf patch)) {key : String}
    (hkey : key ≠ "annotations") :
    Alike (child key (metadataOf (patchedValue api stored patch)))
      (child key (metadataOf (patchedValue api current patch))) := by
  have hpk := distinct_child (distinct_child (open_patch hpatch hobject).2 "metadata") key
  have hdoc : Alike (child key (metadataOf (patchedValue api current patch)))
      (child key (metadataOf (merged current patch))) :=
    ((patchedValue_same hmerge current patch).child "metadata").child key
  have hagain : Alike (child key (metadataOf (patchedValue api stored patch)))
      (child key (metadataOf (merged stored patch))) :=
    ((patchedValue_same hmerge stored patch).child "metadata").child key
  rw [metadata_merged hpatch hobject hopenm _ hkey] at hdoc hagain
  rw [hstored.inMetadata key hkey] at hagain
  exact hagain.trans ((hdoc.mergedAt hpk).trans ((mergedAt_again hpk _).trans hdoc.symm))

theorem annotation_again (hopenm : Open (metadataOf patch)) (hopena : Open (annotationsOf patch))
    (key : String) :
    Alike (child key (annotationsOf (merged stored patch)))
      (child key (annotationsOf (patchedValue api current patch))) := by
  have hdoc : Alike (child key (annotationsOf (patchedValue api current patch)))
      (child key (annotationsOf (merged current patch))) :=
    (((patchedValue_same hmerge current patch).child "metadata").child "annotations").child key
  have hpk := distinct_child (distinct_child (distinct_child
    (open_patch hpatch hobject).2 "metadata") "annotations") key
  have hlast : lastApplied stored =
      child lastAppliedAnnotation (annotationsOf (patchedValue api current patch)) := by
    rw [lastApplied, getIn_annotations, hstored.annotation, if_neg (by decide)]
  rw [annotation_merged hpatch hobject hopenm hopena] at hdoc
  rw [annotation_merged hpatch hobject hopenm hopena, hlast]
  by_cases hkey : key = lastAppliedAnnotation
  · subst hkey
    rw [if_pos rfl] at hdoc ⊢
    cases hown : child lastAppliedAnnotation (annotationsOf (patchedValue api current patch)) with
    | some y => exact .refl _
    | none =>
      -- nothing was put back, and the patch has nothing to say
      rw [hown] at hdoc
      obtain ⟨-, hnone⟩ := Option.or_eq_none_iff.mp hdoc.symm.eq_none
      rw [Option.none_or, hnone]
      exact .refl _
  · rw [if_neg hkey] at hdoc ⊢
    by_cases hversion : key = "version"
    · -- dropped before the merge, so that the patch decides both times
      rw [if_pos hversion] at hdoc ⊢
      exact hdoc.symm
    · rw [if_neg hversion] at hdoc ⊢
      rw [hstored.annotation, if_neg hversion]
      exact (hdoc.mergedAt hpk).trans ((mergedAt_again hpk _).trans hdoc.symm)

theorem annotations_again (hopenm : Open (metadataOf patch))
    (hown : ∀ a, annotationsOf (patchedValue api current patch) = some a → IsObject a) :
    Alike (some ((annotationsOf (patchedValue api stored patch)).getD (.object [])))
      (some ((annotationsOf (patchedValue api current patch)).getD (.object []))) := by
  have hdoc : Alike (annotationsOf (patchedValue api current patch))
      (annotationsOf (merged current patch)) :=
    ((patchedValue_same hmerge current patch).child "metadata").child "annotations"
  have hagain : Alike (annotationsOf (patchedValue api stored patch))
      (annotationsOf (merged stored patch)) :=
    ((patchedValue_same hmerge stored patch).child "metadata").child "annotations"
  by_cases hopena : Open (annotationsOf patch)
  · obtain ⟨own, hstoredown, hownobject⟩ := hstored.annotations
    obtain ⟨v, hv, hvobject⟩ :=
      annotations_object hpatch hobject hopenm hopena hstoredown hownobject
    apply alike_getD _ hown
    · intro key
      exact (hagain.child key).trans
        (annotation_again hmerge hpatch hobject hstored hopenm hopena key)
    · intro a ha
      rw [ha, hv] at hagain
      exact hagain.isObject hvobject
  · have hdeleted := annotations_deleted hpatch hobject hopenm hopena hown hdoc
    have hforget : ∀ t, mergedAt t (annotationsOf patch) = none := by
      intro t
      rw [(mergedAt_of_not_open hopena t).1, hdeleted]
    rw [annotationsOf_merged hpatch hobject hopenm, hforget] at hdoc hagain
    rw [hdoc.eq_none, hagain.eq_none]
    exact .refl _

end

include hmerge hpatch

/-- Patching the stored result with the same patch gives the result again. -/
theorem patched_again (hrequires : RequiresMetadata api.documents) {manifest : StoredManifest}
    (hdecodes : api.documents.fromValue (patchedValue api current patch) = .ok manifest)
    (hstore : (patchedValue api current patch).setIn ["metadata", "annotations", "version"] version =
      some stored) :
    SameDocument (patchedValue api stored patch) (patchedValue api current patch) := by
  have hdoc := patchedValue_same hmerge current patch
  have hagain := patchedValue_same hmerge stored patch
  by_cases hobject : IsObject patch
  · have hstored := stored_of_setIn hstore
    have hdobject := hdoc.isObject (isObject_merged hobject current)
    obtain ⟨⟨md, hmd, hmdnull⟩, hannotations⟩ := hrequires _ _ hdobject hdecodes
    have hmdobject := (hstored.metadata_kind md hmd).resolve_left hmdnull
    have hmdalike : Alike (some md) (metadataOf (merged current patch)) := by
      rw [← hmd]
      exact hdoc.child "metadata"
    have hopenm := open_metadata hpatch hobject hmdalike hmdobject
    obtain ⟨own, hstoredown, hownobject⟩ := hstored.metadata
    obtain ⟨md', hmd', hobject'⟩ := metadata_object hpatch hobject hopenm hstoredown hownobject
    have houtline : (metadataOf (patchedValue api stored patch)).map outline =
        (metadataOf (merged stored patch)).map outline := (hagain.child "metadata").outline
    apply sameDocument_of
    · rw [(hagain.isObject (isObject_merged hobject stored)).outline_eq, hdobject.outline_eq]
    · intro key hkey
      exact member_again hmerge hpatch hobject hstored hkey
    · rw [houtline, hmd', hmd, Option.map_some, Option.map_some, hobject'.outline_eq,
        hmdobject.outline_eq]
    · intro key hkey
      exact inMetadata_again hmerge hpatch hobject hstored hopenm hkey
    · apply annotations_again hmerge hpatch hobject hstored hopenm
      intro a ha
      exact hstored.annotations_object hannotations ha
  · -- a patch that is no object is the result both times
    have hmerged : ∀ c, merged c patch = patch := by
      intro c
      rw [merged, mergePatch_of_not_object hobject, putBack_of_not_object hobject]
    rw [hmerged] at hdoc hagain
    rw [Option.some.inj (hdoc.eq_of_not_object hobject),
      Option.some.inj (hagain.eq_of_not_object hobject)]
    exact .refl _

end

/-- Decoding as far as the annotations go. -/
def annotatedDocuments : Documents :=
  { Documents.sample with
    fromValue := fun v =>
      match annotationsOf v with
      | none | some (.object _) => Documents.sample.fromValue v
      | some _ => .error "invalid type, expected a map" }

def annotatedApi : ApplicationApi where
  listConfigs _ := .ok []
  documents := annotatedDocuments

theorem annotatedDocuments_requiresMetadata : RequiresMetadata annotatedDocuments := by
  intro v m _ hok
  have hname : annotationsOf v ≠ some .null ∧
      ∃ name, v.getIn ["metadata", "name"] = some (.string name) ∧ m.name = name := by
    simp only [annotatedDocuments] at hok
    split at hok
    · next hnone =>
      refine ⟨by rw [hnone]; simp, ?_⟩
      exact sample_fromValue hok
    · next members hsome =>
      refine ⟨by rw [hsome]; simp, ?_⟩
      exact sample_fromValue hok
    · cases hok
  obtain ⟨hnull, name, hget, -⟩ := hname
  rw [getIn_cons] at hget
  obtain ⟨md, hmd, hmdname⟩ := Option.bind_eq_some_iff.mp hget
  rw [getIn_cons] at hmdname
  obtain ⟨x, hx, -⟩ := Option.bind_eq_some_iff.mp hmdname
  exact ⟨⟨md, hmd, (isObject_of_member hx).ne_null⟩, hnull⟩

theorem patched_again_version :
    SameDocument
      (patchedValue annotatedApi
        (.object [("metadata", .object [("name", .string "app"), ("annotations", .object
          [("version", .string "v3"), ( lastAppliedAnnotation, .string "old")])])])
        (annotate "version" (.string "v2")))
      (patchedValue annotatedApi storedApp (annotate "version" (.string "v2"))) :=
  patched_again sample_mergesPatches (annotate_distinct _ (string_distinct _))
    annotatedDocuments_requiresMetadata rfl
    (show (patchedValue annotatedApi storedApp (annotate "version" (.string "v2"))).setIn
      ["metadata", "annotations", "version"] (.string "v3") = some _ from rfl)

end Patching
end WadmOperator

import WadmOperator.Foundation.JsonMerge
import WadmOperator.LatticeConnection

/-!
# What a patch makes of an application

The document that `patch_application` decodes is compared, member by member along
`metadata.annotations`, with the merge of the patch. The stored last applied
configuration is put back after the merge, over what the patch says about it.
-/

namespace WadmOperator

/-- The merge of the other package is the JSON merge patch, up to the order of members. -/
def Documents.MergesPatches (d : Documents) : Prop :=
  ∀ target patch : Value, Value.Same (d.merge target patch) (target.mergePatch patch)

namespace Patching

open Value Applications

def annotationsPath : List String := ["metadata", "annotations"]

def metadataOf (v : Value) : Option Value := member "metadata" v

def annotationsOf (v : Value) : Option Value := child "annotations" (metadataOf v)

def unversioned (current : Value) : Value := current.modifyIn annotationsPath (remove "version")

def stripped (current : Value) : Value :=
  unversioned (current.modifyIn annotationsPath (remove lastAppliedAnnotation))

def lastApplied (current : Value) : Option Value :=
  child lastAppliedAnnotation (current.getIn annotationsPath)

def putBack (path : List String) (config : Option Value) (v : Value) : Value :=
  match config with
  | some x => v.modifyIn path (Value.put lastAppliedAnnotation x)
  | none => v

/-- The patched document with the merge patch itself in the place of the package's merge. -/
def merged (current patch : Value) : Value :=
  putBack annotationsPath (lastApplied current) ((stripped current).mergePatch patch)

theorem same_putBack {v w : Value} (h : Same v w) (path : List String) (config : Option Value) :
    Same (putBack path config v) (putBack path config w) := by
  cases config with
  | none => exact h
  | some x => exact Alike.modifyIn (Alike.put lastAppliedAnnotation x) path h

theorem patchedValue_same {api : ApplicationApi} (hmerge : api.documents.MergesPatches)
    (current patch : Value) : Same (patchedValue api current patch) (merged current patch) := by
  have hconfig : ((current.getIn annotationsPath).bind members?).bind
      (List.lookup lastAppliedAnnotation) = lastApplied current := by
    unfold lastApplied child member
    cases current.getIn annotationsPath <;> rfl
  have hsame := same_putBack (hmerge (stripped current) patch) annotationsPath (lastApplied current)
  unfold patchedValue
  simp only
  change Same (match ((current.getIn annotationsPath).bind members?).bind
      (List.lookup lastAppliedAnnotation) with
    | some config => _
    | none => _) _
  rw [hconfig]
  exact hsame

theorem outline_putBack (path : List String) (config : Option Value) (v : Value) :
    outline (putBack path config v) = outline v := by
  cases config with
  | none => rfl
  | some x => exact outline_modifyIn path _ v

theorem member_putBack (key key' : String) (path : List String) (config : Option Value)
    (v : Value) :
    member key' (putBack (key :: path) config v) =
      if key' = key then (member key v).map (putBack path config) else member key' v := by
  cases config with
  | none =>
    simp only [putBack]
    split_ifs with heq
    · subst heq
      cases member key' v <;> rfl
    · rfl
  | some x => exact member_modifyIn path _ key key' v

theorem child_map_putBack (key key' : String) (path : List String) (config : Option Value)
    (o : Option Value) :
    child key' (o.map (putBack (key :: path) config)) =
      if key' = key then (child key o).map (putBack path config) else child key' o := by
  cases o with
  | none => simp [child]
  | some v => exact member_putBack key key' path config v

theorem putBack_of_not_object {v : Value} (h : ¬IsObject v) (path : List String)
    (config : Option Value) : putBack path config v = v := by
  cases config with
  | none => rfl
  | some x =>
    cases v with
    | object members => exact absurd ⟨members, rfl⟩ h
    | _ => cases path <;> rfl

theorem alike_putBack_of_not_open {p : Option Value} (h : ¬Open p) (t t' : Option Value)
    (path : List String) (config : Option Value) :
    Alike ((mergedAt t p).map (putBack path config)) (mergedAt t' p) := by
  obtain ⟨ht, hnot⟩ := mergedAt_of_not_open h t
  rw [ht, (mergedAt_of_not_open h t').1]
  cases hv : mergedAt none p with
  | none => exact .refl _
  | some v =>
    rw [Option.map_some, putBack_of_not_object (hnot v hv)]
    exact .refl _

theorem alike_below_iff {t₁ t₂ p : Option Value} (key : String)
    (hp : ∀ v, p = some v → v.Distinct) (houtline : t₁.map outline = t₂.map outline)
    (hother : ∀ k, k ≠ key → child k t₁ = child k t₂) (path : List String)
    (config : Option Value) :
    Alike ((mergedAt t₁ p).map (putBack (key :: path) config)) (mergedAt t₂ p) ↔
      (Open p → Alike ((mergedAt (child key t₁) (child key p)).map (putBack path config))
        (mergedAt (child key t₂) (child key p))) := by
  by_cases hopen : Open p
  · constructor
    · intro h _
      have hat := h.child key
      rw [child_map_putBack, if_pos rfl, child_mergedAt_of_open hopen hp,
        child_mergedAt_of_open hopen hp] at hat
      exact hat
    · intro h
      apply Alike.of_children
      · rw [Option.map_map, ← mergedAt_outline houtline]
        congr 1
        funext v
        exact outline_putBack _ config v
      · intro k
        rw [child_map_putBack]
        split_ifs with heq
        · subst heq
          rw [child_mergedAt_of_open hopen hp, child_mergedAt_of_open hopen hp]
          exact h hopen
        · rw [child_mergedAt_of_open hopen hp, child_mergedAt_of_open hopen hp, hother k heq]
          exact .refl _
  · exact ⟨fun _ h => absurd h hopen, fun _ => alike_putBack_of_not_open hopen _ _ _ _⟩

theorem child_putBack_end {o : Option Value} {v : Value} (ho : o = some v) (hv : IsObject v)
    (config : Option Value) (key : String) :
    child key (o.map (putBack [] config)) =
      if key = lastAppliedAnnotation then config.or (child key o) else child key o := by
  subst ho
  cases config with
  | none =>
    simp only [Option.none_or, ite_self]
    rfl
  | some x => exact member_putMember hv lastAppliedAnnotation key x

theorem alike_annotations_iff {a₁ a₂ x : Value} {p : Option Value}
    (hp : ∀ v, p = some v → v.Distinct) (h₁ : IsObject a₁) (h₂ : IsObject a₂)
    (hmember : ∀ k, member k a₂ = if k = lastAppliedAnnotation then some x else member k a₁) :
    Alike ((mergedAt (some a₁) p).map (putBack [] (some x))) (mergedAt (some a₂) p) ↔
      ∀ v, child lastAppliedAnnotation p = some v → v ≠ null ∧ Same x (x.mergePatch v) := by
  by_cases hopen : Open p
  · obtain ⟨v₁, hv₁, ho₁⟩ := mergedAt_isObject hopen fun _ => ⟨a₁, rfl, h₁⟩
    obtain ⟨v₂, hv₂, ho₂⟩ := mergedAt_isObject hopen fun _ => ⟨a₂, rfl, h₂⟩
    have hleft := child_putBack_end hv₁ ho₁ (some x)
    have hright : ∀ k, child k (mergedAt (some a₂) p) =
        mergedAt (if k = lastAppliedAnnotation then some x else member k a₁) (child k p) := by
      intro k
      rw [child_mergedAt_of_open hopen hp, ← hmember k]
      rfl
    constructor
    · intro h v hv
      have hat := h.child lastAppliedAnnotation
      rw [hleft, hright, if_pos rfl, if_pos rfl, hv] at hat
      have hnull : v ≠ null := by
        intro hnull
        subst hnull
        cases hat.eq_none
      rw [mergedAt_some hnull] at hat
      exact ⟨hnull, hat⟩
    · intro h
      apply Alike.of_children
      · rw [hv₁, hv₂]
        obtain ⟨own₁, rfl⟩ := ho₁
        obtain ⟨own₂, rfl⟩ := ho₂
        rfl
      · intro k
        rw [hleft, hright]
        split_ifs with heq
        · subst heq
          cases hv : child lastAppliedAnnotation p with
          | none => exact .refl _
          | some v =>
            obtain ⟨hnull, hsame⟩ := h v hv
            rw [mergedAt_some hnull]
            exact hsame
        · rw [child_mergedAt_of_open hopen hp]
          exact .refl _
  · simp only [child_of_not_open hopen]
    exact ⟨fun _ v hv => (by cases hv), fun _ => alike_putBack_of_not_open hopen _ _ _ _⟩

/-- The patch does not say anything about a stored last applied configuration, or says what
is stored. -/
def KeepsLastApplied (current patch : Value) : Prop :=
  ∀ x v, lastApplied current = some x →
    patch.getIn (annotationsPath ++ [ lastAppliedAnnotation]) = some v →
      v ≠ null ∧ Same x (x.mergePatch v)

theorem getIn_annotations (v : Value) : v.getIn annotationsPath = annotationsOf v := by
  change (some v).bind (getIn ["metadata", "annotations"]) = _
  rw [bind_getIn_cons, bind_getIn_cons, bind_getIn_nil]
  rfl

theorem getIn_lastApplied (v : Value) :
    v.getIn (annotationsPath ++ [ lastAppliedAnnotation]) =
      child lastAppliedAnnotation (annotationsOf v) := by
  change (some v).bind (getIn ["metadata", "annotations", lastAppliedAnnotation]) = _
  rw [bind_getIn_cons, bind_getIn_cons, bind_getIn_cons, bind_getIn_nil]
  rfl

/-! A change of the annotations, seen from the document, its metadata and the annotations. -/

section

variable (f : List (String × Value) → List (String × Value)) (v : Value)

theorem member_modifyAnnotations {key : String} (h : key ≠ "metadata") :
    member key (v.modifyIn annotationsPath f) = member key v := by
  rw [annotationsPath, member_modifyIn, if_neg h]

theorem metadataOf_modifyAnnotations :
    metadataOf (v.modifyIn annotationsPath f) =
      (metadataOf v).map (modifyIn ["annotations"] f) := by
  rw [metadataOf, annotationsPath, member_modifyIn, if_pos rfl, metadataOf]

theorem metadata_modifyAnnotations {key : String} (h : key ≠ "annotations") :
    child key (metadataOf (v.modifyIn annotationsPath f)) = child key (metadataOf v) := by
  rw [metadataOf_modifyAnnotations]
  cases metadataOf v with
  | none => rfl
  | some md => exact (member_modifyIn _ _ _ _ _).trans (if_neg h)

theorem outline_metadata_modifyAnnotations :
    (metadataOf (v.modifyIn annotationsPath f)).map outline = (metadataOf v).map outline := by
  rw [metadataOf_modifyAnnotations, Option.map_map]
  congr 1
  funext md
  exact outline_modifyIn _ f md

theorem annotationsOf_modifyAnnotations :
    annotationsOf (v.modifyIn annotationsPath f) = (annotationsOf v).map (modifyIn [] f) := by
  rw [annotationsOf, metadataOf_modifyAnnotations, annotationsOf]
  cases metadataOf v with
  | none => rfl
  | some md => exact (member_modifyIn _ _ _ _ _).trans (if_pos rfl)

end

theorem stripped_same {current : Value} (h : lastApplied current = none) :
    Same (stripped current) (unversioned current) := by
  apply Alike.modifyIn (Alike.remove "version")
  apply Alike.modifyIn_self
  intro a ha
  have hnone : member lastAppliedAnnotation a = none := by
    unfold lastApplied at h
    rw [ha] at h
    exact h
  apply Alike.of_children
  · simp only [Option.map_some, outline_modifyIn]
  · intro k
    change Alike (member k _) (member k a)
    rw [member_removeMember]
    split_ifs with heq
    · subst heq
      rw [hnone]
      exact .refl _
    · exact .refl _

theorem distinct_child {p : Option Value} (hp : ∀ v, p = some v → v.Distinct) (key : String) :
    ∀ v, child key p = some v → v.Distinct := by
  intro v hv
  obtain ⟨u, hu, huv⟩ := Option.bind_eq_some_iff.mp hv
  exact (hp u hu).member huv

theorem annotationsOf_unversioned (current : Value) :
    annotationsOf (unversioned current) =
      (annotationsOf current).map (modifyIn [] (remove "version")) :=
  annotationsOf_modifyAnnotations _ _

theorem annotationsOf_stripped (current : Value) :
    annotationsOf (stripped current) = ((annotationsOf current).map
      (modifyIn [] (remove lastAppliedAnnotation))).map (modifyIn [] (remove "version")) := by
  rw [stripped, annotationsOf_unversioned, annotationsOf_modifyAnnotations]

theorem member_stripped (current : Value) {key : String} (h : key ≠ "metadata") :
    member key (stripped current) = member key (unversioned current) := by
  rw [stripped, unversioned, unversioned, member_modifyAnnotations _ _ h,
    member_modifyAnnotations _ _ h, member_modifyAnnotations _ _ h]

theorem metadata_stripped (current : Value) {key : String} (h : key ≠ "annotations") :
    child key (metadataOf (stripped current)) = child key (metadataOf (unversioned current)) := by
  rw [stripped, unversioned, unversioned, metadata_modifyAnnotations _ _ h,
    metadata_modifyAnnotations _ _ h, metadata_modifyAnnotations _ _ h]

theorem outline_metadata_stripped (current : Value) :
    (metadataOf (stripped current)).map outline =
      (metadataOf (unversioned current)).map outline := by
  rw [stripped, unversioned, unversioned, outline_metadata_modifyAnnotations,
    outline_metadata_modifyAnnotations, outline_metadata_modifyAnnotations]

theorem outline_stripped (current : Value) :
    (some (stripped current)).map outline = (some (unversioned current)).map outline := by
  simp only [Option.map_some, stripped, unversioned, outline_modifyIn]

theorem lastApplied_eq_some {current x : Value} (h : lastApplied current = some x) :
    ∃ a, annotationsOf current = some a ∧ member lastAppliedAnnotation a = some x := by
  unfold lastApplied at h
  rw [getIn_annotations] at h
  exact Option.bind_eq_some_iff.mp h

theorem keepsLastApplied_iff {current x : Value} (hx : lastApplied current = some x)
    (patch : Value) : KeepsLastApplied current patch ↔
      ∀ v, child lastAppliedAnnotation (annotationsOf patch) = some v →
        v ≠ null ∧ Same x (x.mergePatch v) := by
  simp only [KeepsLastApplied, hx, getIn_lastApplied]
  constructor
  · intro h v hv
    exact h x v rfl hv
  · intro h y v hy hv
    obtain rfl := Option.some.inj hy
    exact h v hv

theorem annotations_same_iff {current x : Value} {p : Option Value}
    (hp : ∀ v, p = some v → v.Distinct) (hx : lastApplied current = some x) :
    Alike ((mergedAt (annotationsOf (stripped current)) p).map (putBack [] (some x)))
        (mergedAt (annotationsOf (unversioned current)) p) ↔
      ∀ v, child lastAppliedAnnotation p = some v → v ≠ null ∧ Same x (x.mergePatch v) := by
  obtain ⟨a, ha, hax⟩ := lastApplied_eq_some hx
  have hobject : IsObject a := isObject_of_member hax
  rw [annotationsOf_stripped, annotationsOf_unversioned, ha]
  apply alike_annotations_iff hp ((hobject.modifyIn _ _).modifyIn _ _) (hobject.modifyIn _ _)
  intro k
  simp only [member_removeMember]
  split_ifs with hversion hlast hlast
  · rw [hversion] at hlast
    exact absurd hlast (by decide)
  · rfl
  · rw [hlast, hax]
  · rfl

theorem open_of_child {patch v : Value} {key : String}
    (hv : child key (annotationsOf patch) = some v) : Open (metadataOf patch) := by
  by_contra hnot
  rw [annotationsOf, child_of_not_open hnot "annotations"] at hv
  cases hv

theorem merged_same_of_object_iff {current patch x : Value} (hpatch : patch.Distinct)
    (hobject : IsObject patch) (hx : lastApplied current = some x) :
    Same (merged current patch) ((unversioned current).mergePatch patch) ↔
      ∀ v, child lastAppliedAnnotation (annotationsOf patch) = some v →
        v ≠ null ∧ Same x (x.mergePatch v) := by
  have hp : ∀ v, some patch = some v → v.Distinct := fun v hv => Option.some.inj hv ▸ hpatch
  have hopen : Open (some patch) := fun v hv => Option.some.inj hv ▸ hobject
  have hpm := distinct_child hp "metadata"
  -- the comparison goes down from the document to its metadata and on to the annotations
  have hdocument := alike_below_iff "metadata" hp (outline_stripped current)
    (fun k hk => member_stripped current hk) ["annotations"] (some x)
  have hmetadata := alike_below_iff "annotations" hpm
    (outline_metadata_stripped current) (fun k hk => metadata_stripped current hk) [] (some x)
  have hannotations := annotations_same_iff (distinct_child hpm "annotations") hx
  have hleft : some (merged current patch) =
      (mergedAt (some (stripped current)) (some patch)).map
        (putBack annotationsPath (some x)) := by
    rw [merged, hx, mergedAt_some hobject.ne_null, Option.map_some]
  have hright : some ((unversioned current).mergePatch patch) =
      mergedAt (some (unversioned current)) (some patch) :=
    (mergedAt_some hobject.ne_null _).symm
  unfold Same
  rw [hleft, hright]
  refine hdocument.trans ?_
  refine (forall_congr' fun _ => hmetadata).trans ?_
  constructor
  · intro h v hv
    exact hannotations.mp (h hopen (open_of_child hv)) v hv
  · intro h _ _
    exact hannotations.mpr h

theorem merged_same_iff {patch : Value} (hpatch : patch.Distinct) (current : Value) :
    Same (merged current patch) ((unversioned current).mergePatch patch) ↔
      KeepsLastApplied current patch := by
  cases hx : lastApplied current with
  | none =>
    have hsame := Alike.mergePatch hpatch (stripped_same hx)
    simp only [KeepsLastApplied, merged, putBack, hx]
    exact ⟨fun _ x v h => (by cases h), fun _ => hsame⟩
  | some x =>
    rw [keepsLastApplied_iff hx]
    by_cases hobject : IsObject patch
    · exact merged_same_of_object_iff hpatch hobject hx
    · have hnone : annotationsOf patch = none := by
        rw [annotationsOf, metadataOf, member_eq_none hobject]
        rfl
      rw [hnone, merged, hx, mergePatch_of_not_object hobject, mergePatch_of_not_object hobject,
        putBack_of_not_object hobject]
      exact ⟨fun _ v hv => (by cases hv), fun _ => .refl _⟩

structure IsMergeOf (current patch doc : Value) : Prop where
  same : Same doc ((unversioned current).mergePatch patch)
  applied : Applied (unversioned current) patch doc

/-- The document that is decoded is the merge exactly when the patch does not change the
last applied configuration, which is otherwise put back. -/
theorem patchedValue_iff {api : ApplicationApi} (hmerge : api.documents.MergesPatches)
    {patch : Value} (hpatch : patch.Distinct) (current : Value) :
    IsMergeOf current patch (patchedValue api current patch) ↔ KeepsLastApplied current patch := by
  have hsame := patchedValue_same hmerge current patch
  rw [← merged_same_iff hpatch]
  constructor
  · intro h
    exact hsame.symm.trans h.same
  · intro h
    have hdoc := hsame.trans h
    exact ⟨hdoc, hdoc.applied hpatch⟩

theorem sample_mergesPatches : Documents.sample.MergesPatches := fun _ _ => .refl _

theorem sample_fromValue {v : Value} {m : StoredManifest}
    (h : Documents.sample.fromValue v = .ok m) :
    ∃ name, v.getIn ["metadata", "name"] = some (.string name) ∧ m.name = name := by
  simp only [Documents.sample] at h
  split at h
  · next name hname =>
    obtain rfl := Except.ok.inj h
    exact ⟨name, hname, rfl⟩
  · cases h

def sampleApi : ApplicationApi where
  listConfigs _ := .ok []
  documents := .sample

def storedApp : Value := .object [("metadata", .object [("name", .string "app"),
  ("annotations", .object [("version", .string "v1"), ( lastAppliedAnnotation, .string "old")])])]

def annotate (key : String) (v : Value) : Value :=
  .object [("metadata", .object [("annotations", .object [(key, v)])])]

theorem annotate_distinct (key : String) {v : Value} (h : v.Distinct) :
    (annotate key v).Distinct :=
  .singleton _ (.singleton _ (.singleton _ h))

theorem string_distinct (s : String) : (Value.string s).Distinct :=
  .of_not_object fun ⟨_, h⟩ => by cases h

theorem patchedValue_version :
    IsMergeOf storedApp (annotate "version" (.string "v2"))
        (patchedValue sampleApi storedApp (annotate "version" (.string "v2"))) ↔
      KeepsLastApplied storedApp (annotate "version" (.string "v2")) :=
  patchedValue_iff sample_mergesPatches (annotate_distinct _ (string_distinct _)) _

/-- The new configuration of the patch gives way to the stored one. -/
theorem lastApplied_not_patched :
    ¬IsMergeOf storedApp (annotate lastAppliedAnnotation (.string "new"))
      (patchedValue sampleApi storedApp (annotate lastAppliedAnnotation (.string "new"))) := by
  intro h
  have hsame := (patchedValue_same sample_mergesPatches _ _).symm.trans h.same
  have hkeeps := (merged_same_iff (annotate_distinct _ (string_distinct _)) _).mp hsame
  obtain ⟨-, hold⟩ := hkeeps (.string "old") (.string "new") rfl rfl
  have hobject : ¬IsObject (.string "new") := fun ⟨_, heq⟩ => by cases heq
  rw [mergePatch_of_not_object hobject] at hold
  have heq := Value.string.inj (Option.some.inj (hold.eq_of_not_object hobject))
  exact absurd heq (by decide)

/-! ## The patched document, member by member -/

section

variable {current patch : Value}

theorem some_merged (hobject : IsObject patch) (current : Value) :
    some (merged current patch) = (mergedAt (some (stripped current)) (some patch)).map
      (putBack annotationsPath (lastApplied current)) := by
  rw [merged, mergedAt_some hobject.ne_null, Option.map_some]

theorem member_stored (current : Value) {key : String} (h : key ≠ "metadata") :
    member key (stripped current) = member key current := by
  rw [member_stripped current h, unversioned, member_modifyAnnotations _ _ h]

theorem metadata_stored (current : Value) {key : String} (h : key ≠ "annotations") :
    child key (metadataOf (stripped current)) = child key (metadataOf current) := by
  rw [metadata_stripped current h, unversioned, metadata_modifyAnnotations _ _ h]

theorem annotation_stored (current : Value) (key : String) :
    child key (annotationsOf (stripped current)) =
      if key = lastAppliedAnnotation ∨ key = "version" then none
      else child key (annotationsOf current) := by
  rw [annotationsOf_stripped]
  cases annotationsOf current with
  | none => simp [child]
  | some a =>
    change member key (modifyIn [] _ (modifyIn [] _ a)) = _
    rw [member_removeMember, member_removeMember]
    by_cases hversion : key = "version"
    · rw [if_pos hversion, if_pos (.inr hversion)]
    · by_cases hlast : key = lastAppliedAnnotation
      · rw [if_neg hversion, if_pos hlast, if_pos (.inl hlast)]
      · rw [if_neg hversion, if_neg hlast, if_neg (not_or.mpr ⟨hlast, hversion⟩)]
        rfl

section

variable (hpatch : patch.Distinct) (hobject : IsObject patch)

include hpatch hobject

theorem open_patch : Open (some patch) ∧ ∀ v, some patch = some v → v.Distinct :=
  ⟨fun _ hv => Option.some.inj hv ▸ hobject, fun _ hv => Option.some.inj hv ▸ hpatch⟩

theorem member_merged (current : Value) {key : String} (h : key ≠ "metadata") :
    member key (merged current patch) = mergedAt (member key current) (member key patch) := by
  obtain ⟨hopen, hp⟩ := open_patch hpatch hobject
  change child key (some (merged current patch)) = _
  rw [some_merged hobject, annotationsPath, child_map_putBack, if_neg h,
    child_mergedAt_of_open hopen hp]
  change mergedAt (member key (stripped current)) _ = _
  rw [member_stored current h]
  rfl

theorem metadataOf_merged (current : Value) :
    metadataOf (merged current patch) =
      (mergedAt (metadataOf (stripped current)) (metadataOf patch)).map
        (putBack ["annotations"] (lastApplied current)) := by
  obtain ⟨hopen, hp⟩ := open_patch hpatch hobject
  change child "metadata" (some (merged current patch)) = _
  rw [some_merged hobject, annotationsPath, child_map_putBack, if_pos rfl,
    child_mergedAt_of_open hopen hp]
  rfl

theorem metadata_merged (hopenm : Open (metadataOf patch)) (current : Value) {key : String}
    (h : key ≠ "annotations") :
    child key (metadataOf (merged current patch)) =
      mergedAt (child key (metadataOf current)) (child key (metadataOf patch)) := by
  have hpm := distinct_child (open_patch hpatch hobject).2 "metadata"
  rw [metadataOf_merged hpatch hobject, child_map_putBack, if_neg h,
    child_mergedAt_of_open hopenm hpm, metadata_stored current h]

theorem annotationsOf_merged (hopenm : Open (metadataOf patch)) (current : Value) :
    annotationsOf (merged current patch) =
      (mergedAt (annotationsOf (stripped current)) (annotationsOf patch)).map
        (putBack [] (lastApplied current)) := by
  have hpm := distinct_child (open_patch hpatch hobject).2 "metadata"
  rw [annotationsOf, metadataOf_merged hpatch hobject, child_map_putBack, if_pos rfl,
    child_mergedAt_of_open hopenm hpm]
  rfl

theorem metadata_object (hopenm : Open (metadataOf patch)) {current md : Value}
    (hmd : metadataOf current = some md) (hmdobject : IsObject md) :
    ∃ v, metadataOf (merged current patch) = some v ∧ IsObject v := by
  have hstripped : ∃ v, metadataOf (stripped current) = some v ∧ IsObject v := by
    rw [stripped, unversioned, metadataOf_modifyAnnotations, metadataOf_modifyAnnotations, hmd]
    exact ⟨_, rfl, (hmdobject.modifyIn _ _).modifyIn _ _⟩
  obtain ⟨v, hv, hvobject⟩ := mergedAt_isObject hopenm fun _ => hstripped
  rw [metadataOf_merged hpatch hobject, hv]
  refine ⟨_, rfl, outline_eq_object ?_⟩
  rw [outline_putBack, hvobject.outline_eq]

theorem annotations_object (hopenm : Open (metadataOf patch)) (hopena : Open (annotationsOf patch))
    {current a : Value} (ha : annotationsOf current = some a) (haobject : IsObject a) :
    ∃ v, annotationsOf (merged current patch) = some v ∧ IsObject v := by
  have hstripped : ∃ v, annotationsOf (stripped current) = some v ∧ IsObject v := by
    rw [annotationsOf_stripped, ha]
    exact ⟨_, rfl, (haobject.modifyIn _ _).modifyIn _ _⟩
  obtain ⟨v, hv, hvobject⟩ := mergedAt_isObject hopena fun _ => hstripped
  rw [annotationsOf_merged hpatch hobject hopenm, hv]
  refine ⟨_, rfl, outline_eq_object ?_⟩
  rw [outline_putBack, hvobject.outline_eq]

theorem annotation_merged (hopenm : Open (metadataOf patch)) (hopena : Open (annotationsOf patch))
    (current : Value) (key : String) :
    child key (annotationsOf (merged current patch)) =
      if key = lastAppliedAnnotation then
        (lastApplied current).or (mergedAt none (child key (annotationsOf patch)))
      else if key = "version" then mergedAt none (child key (annotationsOf patch))
      else mergedAt (child key (annotationsOf current)) (child key (annotationsOf patch)) := by
  have hpa := distinct_child
    (distinct_child (open_patch hpatch hobject).2 "metadata") "annotations"
  have hmerge : child key (mergedAt (annotationsOf (stripped current)) (annotationsOf patch)) =
      mergedAt (if key = lastAppliedAnnotation ∨ key = "version" then none
        else child key (annotationsOf current)) (child key (annotationsOf patch)) := by
    rw [child_mergedAt_of_open hopena hpa, annotation_stored]
  rw [annotationsOf_merged hpatch hobject hopenm]
  cases hx : lastApplied current with
  | none =>
    have hid : ∀ o : Option Value, o.map (putBack [] none) = o := by
      intro o
      cases o <;> rfl
    rw [hid, hmerge]
    by_cases hlast : key = lastAppliedAnnotation
    · simp only [hlast, true_or, if_true, Option.none_or]
    · by_cases hversion : key = "version"
      · simp only [hversion, or_true, if_true, ite_self, Option.none_or]
      · simp only [hlast, hversion, or_self, if_false]
  | some x =>
    obtain ⟨a, ha, hax⟩ := lastApplied_eq_some hx
    have hstripped : ∃ v, annotationsOf (stripped current) = some v ∧ IsObject v := by
      rw [annotationsOf_stripped, ha]
      exact ⟨_, rfl, ((isObject_of_member hax).modifyIn _ _).modifyIn _ _⟩
    obtain ⟨v, hv, hvobject⟩ := mergedAt_isObject hopena fun _ => hstripped
    rw [child_putBack_end hv hvobject, hmerge]
    by_cases hlast : key = lastAppliedAnnotation
    · simp only [hlast, if_true, Option.some_or]
    · by_cases hversion : key = "version"
      · rw [if_neg hlast, if_neg hlast, if_pos (.inr hversion), if_pos hversion]
      · simp only [hlast, hversion, or_self, if_false]

end
end

theorem isObject_merged {patch : Value} (hobject : IsObject patch) (current : Value) :
    IsObject (merged current patch) := by
  obtain ⟨members, rfl⟩ := hobject
  apply outline_eq_object
  rw [merged, outline_putBack, mergePatch]
  rfl

end Patching
end WadmOperator

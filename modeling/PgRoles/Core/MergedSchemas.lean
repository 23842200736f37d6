import PgRoles.Core.CompositionSpec
import PgRoles.Core.ExpandOrder

/-!
# The merged bindings of a bundle

Each schema of a bundle has one merged binding, which the documents write to field by field. Every
field needs a facet of the schema and a facet has one owner, so no document overwrites another
(`writeApart_of_admissible`): the merged binding holds what the documents declare
(`merged_owner_iff`, `merged_binding`), whatever their order.
-/

set_option autoImplicit false

namespace PgRoles.Core

open Std PgRoles.Lib

variable {bundle : PolicyBundle} {documents documents' : List PolicyDocument}

/-! ## Facets -/

theorem mem_facetKeys {d : PolicyDocument} {schema : String} {facet : SchemaBindingFacet} :
    (⟨schema, facet⟩ : SchemaFacetKey) ∈ d.facetKeys ↔
      hasSchemaFacet (schemaScopeMap d.fragment.scope) schema facet = true := by
  unfold hasSchemaFacet schemaScopeMap PolicyDocument.facetKeys
  rw [decide_eq_true_iff, mem_entryAt_extendEntries, List.mem_flatMap]
  constructor
  · intro h
    obtain ⟨entry, hentry, hkey⟩ := h
    obtain ⟨f, hf, heq⟩ := List.mem_map.1 hkey
    obtain ⟨rfl, rfl⟩ := SchemaFacetKey.mk.inj heq
    exact Or.inr ⟨_, List.mem_map.2 ⟨entry, hentry, rfl⟩, List.mem_toFinset.2 hf⟩
  · intro h
    rcases h with h | ⟨s, hs, hfacet⟩
    · simp [entryAt] at h
    · obtain ⟨entry, hentry, heq⟩ := List.mem_map.1 hs
      obtain ⟨rfl, rfl⟩ := Prod.mk.inj heq
      exact ⟨entry, hentry, List.mem_map.2 ⟨facet, List.mem_toFinset.1 hfacet, rfl⟩⟩

/-- What an accepted document has passed. -/
theorem of_expandDocument_eq_ok {d : PolicyDocument} {x : DocumentExpansion}
    (h : expandDocument bundle d = .ok x) :
    validateDocumentScope bundle d = .ok () ∧
      expandManifest (documentManifest bundle d.fragment) = .ok x.expanded ∧
      RoleGraph.fromExpanded x.expanded bundle.shared.defaultOwner = .ok x.desired := by
  obtain ⟨hscope, h⟩ := check_bind_eq_ok.1 h
  obtain ⟨expanded, hexpanded, h⟩ := bind_eq_ok.1 h
  obtain ⟨desired, hdesired, h⟩ := bind_eq_ok.1 h
  rw [← Except.ok.inj h]
  exact ⟨hscope, mapError_eq_ok.1 hexpanded, mapError_eq_ok.1 hdesired⟩

/-- The facets a binding of an accepted document needs are in the document's scope. -/
theorem facets_of_binding {d : PolicyDocument} {x : DocumentExpansion}
    (h : expandDocument bundle d = .ok x) {schema : SchemaBinding}
    (hschema : schema ∈ d.fragment.schemas) :
    (schema.managesBindings = true → ⟨schema.name, .bindings⟩ ∈ d.facetKeys) ∧
      (schema.managesOwner bundle.shared.defaultOwner = true →
        ⟨schema.name, .owner⟩ ∈ d.facetKeys) := by
  obtain ⟨hscope, -, -⟩ := of_expandDocument_eq_ok h
  obtain ⟨-, hscope⟩ := check_bind_eq_ok.1 hscope
  obtain ⟨-, hscope⟩ := check_bind_eq_ok.1 hscope
  obtain ⟨hschemas, -⟩ := check_bind_eq_ok.1 hscope
  obtain ⟨hbindings, howner⟩ := check_bind_eq_ok.1 (forM_eq_ok.1 hschemas schema hschema)
  rw [rejectIf_eq_ok] at hbindings howner
  rw [mem_facetKeys, mem_facetKeys]
  constructor
  · intro hmanages
    rw [hmanages, Bool.true_and] at hbindings
    simpa using hbindings
  · intro hmanages
    rw [hmanages, Bool.true_and] at howner
    simpa using howner

/-- An accepted document binds each schema once. -/
theorem nodup_schemas_of_expandManifest {m : PolicyManifest} {e : ExpandedManifest}
    (h : expandManifest m = .ok e) : (m.schemas.map (·.name)).Nodup := by
  obtain ⟨-, -, -, -, hschemas, -⟩ := of_expandManifest_eq_ok h
  exact rejectDuplicates_nil_eq_ok.1 hschemas

/-- The bindings of the documents, each with the pattern of its document. -/
def labelledBindings (documents : List PolicyDocument) :
    List (Option String × SchemaBinding) :=
  documents.flatMap fun d => d.fragment.schemas.map fun schema => (d.fragment.rolePattern, schema)

theorem mergedSchemas_flat (documents : List PolicyDocument) :
    mergedSchemas documents =
      (labelledBindings documents).foldl (fun merged b => mergeSchema b.1 merged b.2) ∅ := by
  unfold mergedSchemas labelledBindings mergeDocumentSchemas
  rw [List.foldl_flatMap]
  simp only [List.foldl_map]

/-- Two bindings of one schema write different fields. -/
def WriteApart (a b : SchemaBinding) : Prop :=
  a.name = b.name → (a.owner = none ∨ b.owner = none) ∧
    (a.managesBindings = false ∨ b.managesBindings = false)

theorem profiles_eq_nil_of_not_managesBindings {a : SchemaBinding}
    (h : a.managesBindings = false) : a.profiles = [] := by
  simp only [SchemaBinding.managesBindings, Bool.or_eq_false_iff] at h
  simpa using h.1

theorem mergeBinding_comm {p q : Option String} {a b : SchemaBinding}
    (howner : a.owner = none ∨ b.owner = none)
    (hbindings : a.managesBindings = false ∨ b.managesBindings = false) (e : SchemaBinding) :
    mergeBinding q b (mergeBinding p a e) = mergeBinding p a (mergeBinding q b e) := by
  unfold mergeBinding
  simp only [SchemaBinding.mk.injEq, true_and]
  refine ⟨?_, ?_, ?_⟩
  · rcases hbindings with h | h
    · simp [profiles_eq_nil_of_not_managesBindings h]
    · simp [profiles_eq_nil_of_not_managesBindings h]
  · rcases hbindings with h | h
    · simp [h]
    · simp [h]
  · rcases howner with h | h
    · simp [h]
    · simp [h]

theorem mergeSchema_comm {p q : Option String} {a b : SchemaBinding} (h : WriteApart a b)
    (merged : BTreeMap String SchemaBinding) :
    mergeSchema q (mergeSchema p merged a) b = mergeSchema p (mergeSchema q merged b) a := by
  refine ExtTreeMap.ext_getElem? fun name => ?_
  unfold mergeSchema
  rw [getElem?_alter_eq, getElem?_alter_eq, getElem?_alter_eq, getElem?_alter_eq]
  by_cases ha : a.name = name
  · by_cases hb : b.name = name
    · obtain ⟨howner, hbindings⟩ := h (ha.trans hb.symm)
      simp only [ha, hb, if_true, Option.getD_some]
      rw [mergeBinding_comm howner hbindings]
    · simp [ha, hb]
  · simp [ha]

/-- Different bindings of one schema write different fields, because each field needs a facet and
a facet has one owner. -/
theorem writeApart_of_admissible (hexpand : DocumentsExpand bundle documents)
    (hkeys : KeysApart bundle documents) {a b : Option String × SchemaBinding}
    (ha : a ∈ labelledBindings documents) (hb : b ∈ labelledBindings documents) (hne : a ≠ b) :
    WriteApart a.2 b.2 := by
  obtain ⟨d, hd, had⟩ := List.mem_flatMap.1 ha
  obtain ⟨sa, hsa, rfl⟩ := List.mem_map.1 had
  obtain ⟨d', hd', hbd⟩ := List.mem_flatMap.1 hb
  obtain ⟨sb, hsb, rfl⟩ := List.mem_map.1 hbd
  intro hname
  have hdocs : d ≠ d' := by
    intro hsame
    subst hsame
    obtain ⟨-, hmanifest, -⟩ := of_expandDocument_eq_ok (hexpand d hd)
    have hnodup := nodup_schemas_of_expandManifest hmanifest
    exact hne (by rw [List.inj_on_of_nodup_map hnodup hsa hsb hname])
  have hdisjoint : ∀ {key}, key ∈ d.facetKeys → key ∉ d'.facetKeys := fun hkey hkey' =>
    hdocs (eq_of_nodup_flatMap hkeys.schemaFacets hd hd' hkey hkey')
  have hfa := facets_of_binding (hexpand d hd) hsa
  have hfb := facets_of_binding (hexpand d' hd') hsb
  simp only at hname
  constructor
  · by_contra hboth
    rw [not_or] at hboth
    have hmanages : ∀ s : SchemaBinding, s.owner ≠ none →
        s.managesOwner bundle.shared.defaultOwner = true := by
      intro s hs
      rw [SchemaBinding.managesOwner, Option.isSome_iff_ne_none.2 hs, Bool.true_or]
    exact hdisjoint (hfa.2 (hmanages sa hboth.1)) (hname ▸ hfb.2 (hmanages sb hboth.2))
  · by_contra hboth
    rw [not_or, Bool.not_eq_false, Bool.not_eq_false] at hboth
    exact hdisjoint (hfa.1 hboth.1) (hname ▸ hfb.1 hboth.2)

theorem mergedSchemas_perm (hexpand : DocumentsExpand bundle documents)
    (hkeys : KeysApart bundle documents) (hperm : documents.Perm documents') :
    mergedSchemas documents = mergedSchemas documents' := by
  rw [mergedSchemas_flat, mergedSchemas_flat]
  refine (hperm.flatMap_right _).foldl_eq' (fun a ha b hb merged => ?_) ∅
  by_cases hsame : a = b
  · rw [hsame]
  · exact mergeSchema_comm (writeApart_of_admissible hexpand hkeys ha hb hsame) merged

/-! ## What the merged binding holds -/

/-- A fold of merges that ends with one binding. -/
theorem mergedSchemas_last (hexpand : DocumentsExpand bundle documents)
    (hkeys : KeysApart bundle documents) {b : Option String × SchemaBinding}
    (hb : b ∈ labelledBindings documents) :
    ∃ before, mergedSchemas documents = mergeSchema b.1 before b.2 := by
  have hl : (labelledBindings documents).Perm ((labelledBindings documents).erase b ++ [b]) :=
    (List.perm_cons_erase hb).trans (List.perm_append_singleton b _).symm
  refine ⟨((labelledBindings documents).erase b).foldl
    (fun merged b => mergeSchema b.1 merged b.2) ∅, ?_⟩
  rw [mergedSchemas_flat, hl.foldl_eq' (fun a ha b hb merged => ?_) ∅, List.foldl_append]
  · rfl
  · by_cases hsame : a = b
    · rw [hsame]
    · exact mergeSchema_comm (writeApart_of_admissible hexpand hkeys ha hb hsame) merged

/-- The merged binding of a declared schema holds the fields of each of its bindings. -/
theorem merged_binding (hexpand : DocumentsExpand bundle documents)
    (hkeys : KeysApart bundle documents) {d : PolicyDocument} (hd : d ∈ documents)
    {b : SchemaBinding} (hb : b ∈ d.fragment.schemas) :
    ∃ merged, (mergedSchemas documents)[b.name]? = some merged ∧
      (b.owner ≠ none → merged.owner = b.owner) ∧
      (b.profiles ≠ [] → merged.profiles = b.profiles ∧
        merged.rolePattern = b.rolePattern.or d.fragment.rolePattern) := by
  have hmem : (d.fragment.rolePattern, b) ∈ labelledBindings documents :=
    List.mem_flatMap.2 ⟨d, hd, List.mem_map.2 ⟨b, hb, rfl⟩⟩
  obtain ⟨before, hbefore⟩ := mergedSchemas_last hexpand hkeys hmem
  rw [hbefore, mergeSchema, getElem?_alter_eq, if_pos rfl]
  refine ⟨_, rfl, ?_, ?_⟩
  · intro howner
    simp [mergeBinding, Option.isSome_iff_ne_none.2 howner]
  · intro hprofiles
    have hempty : b.profiles.isEmpty = false := by simpa using hprofiles
    simp [mergeBinding, hempty, SchemaBinding.managesBindings]

/-- What the merged binding holds, some binding of the schema has written. -/
structure MergedFrom (bindings : List (Option String × SchemaBinding)) (name : String)
    (merged : SchemaBinding) : Prop where
  name_eq : merged.name = name
  declared : ∃ b ∈ bindings, b.2.name = name
  owner : ∀ o, merged.owner = some o → ∃ b ∈ bindings, b.2.name = name ∧ b.2.owner = some o
  profiles : merged.profiles ≠ [] →
    ∃ b ∈ bindings, b.2.name = name ∧ b.2.profiles = merged.profiles

theorem MergedFrom.mono {l l' : List (Option String × SchemaBinding)} {name : String}
    {merged : SchemaBinding} (h : MergedFrom l name merged) (hsub : l ⊆ l') :
    MergedFrom l' name merged := by
  refine ⟨h.name_eq, ?_, fun o ho => ?_, fun hp => ?_⟩
  · obtain ⟨b, hb, hname⟩ := h.declared
    exact ⟨b, hsub hb, hname⟩
  · obtain ⟨b, hb, hname, howner⟩ := h.owner o ho
    exact ⟨b, hsub hb, hname, howner⟩
  · obtain ⟨b, hb, hname, hprofiles⟩ := h.profiles hp
    exact ⟨b, hsub hb, hname, hprofiles⟩

theorem foldl_mergeSchema_from (l : List (Option String × SchemaBinding)) (name : String)
    {merged : SchemaBinding}
    (h : (l.foldl (fun merged b => mergeSchema b.1 merged b.2) ∅)[name]? = some merged) :
    MergedFrom l name merged := by
  induction l using List.reverseRecOn generalizing merged with
  | nil => simp at h
  | append_singleton l b ih =>
      have hb : b ∈ l ++ [b] := List.mem_append_right _ (List.mem_singleton.2 rfl)
      rw [List.foldl_append, List.foldl_cons, List.foldl_nil, mergeSchema, getElem?_alter_eq] at h
      split at h
      · next hname =>
          rw [← Option.some.inj h]
          -- The entry that the last binding writes to is new, or what the others have merged.
          generalize hentry : (l.foldl (fun merged b => mergeSchema b.1 merged b.2) ∅)[name]? =
            entry
          cases entry with
          | none =>
              refine ⟨hname, ⟨b, hb, hname⟩, fun o ho => ⟨b, hb, hname, ?_⟩,
                fun hp => ⟨b, hb, hname, ?_⟩⟩
              · simp only [mergeBinding, Option.getD_none] at ho
                split at ho
                · exact ho
                · cases ho
              · simp only [mergeBinding, Option.getD_none] at hp ⊢
                split
                · next hempty => exact List.isEmpty_iff.1 hempty
                · rfl
          | some entry =>
              have hold := (ih hentry).mono (List.subset_append_left l [b])
              refine ⟨hold.name_eq, ⟨b, hb, hname⟩, fun o ho => ?_, fun hp => ?_⟩
              · simp only [mergeBinding, Option.getD_some] at ho
                split at ho
                · exact ⟨b, hb, hname, ho⟩
                · exact hold.owner o ho
              · simp only [mergeBinding, Option.getD_some] at hp ⊢
                split
                · next hempty =>
                    rw [if_pos hempty] at hp
                    exact hold.profiles hp
                · exact ⟨b, hb, hname, rfl⟩
      · exact (ih h).mono (List.subset_append_left l [b])

theorem mem_labelledBindings {b : Option String × SchemaBinding} :
    b ∈ labelledBindings documents ↔
      ∃ d ∈ documents, b.1 = d.fragment.rolePattern ∧ b.2 ∈ d.fragment.schemas := by
  unfold labelledBindings
  simp only [List.mem_flatMap, List.mem_map]
  constructor
  · intro h
    obtain ⟨d, hd, s, hs, rfl⟩ := h
    exact ⟨d, hd, rfl, hs⟩
  · intro h
    obtain ⟨d, hd, hpattern, hs⟩ := h
    exact ⟨d, hd, b.2, hs, by rw [← hpattern]⟩

/-- The owner of the merged binding is the one that some document declares. -/
theorem merged_owner_iff (hexpand : DocumentsExpand bundle documents)
    (hkeys : KeysApart bundle documents) {name o : String} {merged : SchemaBinding}
    (hmerged : (mergedSchemas documents)[name]? = some merged) :
    merged.owner = some o ↔
      ∃ d ∈ documents, ∃ b ∈ d.fragment.schemas, b.name = name ∧ b.owner = some o := by
  constructor
  · intro howner
    rw [mergedSchemas_flat] at hmerged
    obtain ⟨b, hb, hname, ho⟩ := (foldl_mergeSchema_from _ name hmerged).owner o howner
    obtain ⟨d, hd, -, hs⟩ := mem_labelledBindings.1 hb
    exact ⟨d, hd, b.2, hs, hname, ho⟩
  · intro h
    obtain ⟨d, hd, b, hb, rfl, ho⟩ := h
    obtain ⟨merged', hmerged', howner, -⟩ := merged_binding hexpand hkeys hd hb
    rw [hmerged] at hmerged'
    rw [Option.some.inj hmerged', howner (by simp [ho]), ho]

/-- A merged binding with profiles has them, and the pattern, from one document. -/
theorem exists_binding_of_profiles (hexpand : DocumentsExpand bundle documents)
    (hkeys : KeysApart bundle documents) {name : String} {merged : SchemaBinding}
    (hmerged : (mergedSchemas documents)[name]? = some merged) (hprofiles : merged.profiles ≠ []) :
    ∃ d ∈ documents, ∃ b ∈ d.fragment.schemas, b.name = name ∧ b.profiles = merged.profiles ∧
      merged.rolePattern = b.rolePattern.or d.fragment.rolePattern := by
  have hflat := hmerged
  rw [mergedSchemas_flat] at hflat
  obtain ⟨b, hb, hname, hsame⟩ := (foldl_mergeSchema_from _ name hflat).profiles hprofiles
  obtain ⟨d, hd, -, hs⟩ := mem_labelledBindings.1 hb
  obtain ⟨merged', hmerged', -, hpattern⟩ := merged_binding hexpand hkeys hd hs
  rw [hname, hmerged] at hmerged'
  obtain rfl := Option.some.inj hmerged'
  exact ⟨d, hd, b.2, hs, hname, hsame, (hpattern (by rw [hsame]; exact hprofiles)).2⟩

theorem mergedSchemas_name {name : String} {merged : SchemaBinding}
    (hmerged : (mergedSchemas documents)[name]? = some merged) : merged.name = name := by
  rw [mergedSchemas_flat] at hmerged
  exact (foldl_mergeSchema_from _ name hmerged).name_eq

end PgRoles.Core

import PgRoles.Core.Composition
import PgRoles.Core.ExpandSpec

/-!
# When a bundle composes, and to what

Composition is one loop over the documents that fills six registers and a manifest together. Here
it is taken apart: a bundle composes when every document expands alone, no key is claimed twice, the
membership stanzas pass and the merged manifest is accepted (`composeBundle_eq_ok_iff`). Only the
stanzas depend on the order of the documents.
-/

set_option autoImplicit false

namespace PgRoles.Core

open Std PgRoles.Lib

variable {bundle : PolicyBundle}

/-! ## Documents alone -/

/-- The expansion of a document, empty when it is rejected. -/
def expansionOf (bundle : PolicyBundle) (document : PolicyDocument) : DocumentExpansion :=
  match expandDocument bundle document with
  | .ok x => x
  | .error _ => ⟨{}, {}⟩

theorem expansionOf_eq {document : PolicyDocument} {x : DocumentExpansion}
    (h : expandDocument bundle document = .ok x) : expansionOf bundle document = x := by
  rw [expansionOf, h]

/-- Every document passes its scope check and expands alone. -/
def DocumentsExpand (bundle : PolicyBundle) (documents : List PolicyDocument) : Prop :=
  ∀ d ∈ documents, expandDocument bundle d = .ok (expansionOf bundle d)

/-! ## Registers -/

section Registers

variable {K : Type} [Ord K] [TransOrd K] [LawfulEqOrd K]

/-- Register the keys of each document under its label. -/
def registerDocuments (error : K → String → String → CompositionError)
    (keys : PolicyDocument → List K) (register : BTreeMap K String)
    (documents : List PolicyDocument) : Except CompositionError (BTreeMap K String) :=
  documents.foldlM (fun r d => registerOwner error d.label r (keys d)) register

/-- The claims of the documents, with the label each is made under. -/
def labelled (keys : PolicyDocument → List K) (documents : List PolicyDocument) :
    List (K × String) :=
  documents.flatMap fun d => (keys d).map fun key => (key, d.label)

omit [Ord K] [TransOrd K] [LawfulEqOrd K] in
theorem map_fst_labelled (keys : PolicyDocument → List K) (documents : List PolicyDocument) :
    (labelled keys documents).map Prod.fst = documents.flatMap keys := by
  unfold labelled
  rw [List.map_flatMap]
  refine List.flatMap_congr fun d _ => ?_
  rw [List.map_map]
  exact List.map_id _

omit [Ord K] [TransOrd K] [LawfulEqOrd K] in
theorem mem_labelled {keys : PolicyDocument → List K} {documents : List PolicyDocument} {k : K}
    {label : String} :
    (k, label) ∈ labelled keys documents ↔ ∃ d ∈ documents, k ∈ keys d ∧ d.label = label := by
  unfold labelled
  rw [List.mem_flatMap]
  refine exists_congr fun d => and_congr_right fun _ => ?_
  simp

theorem mem_ofList_labelled {keys : PolicyDocument → List K} {documents : List PolicyDocument}
    {k : K} :
    k ∈ ExtTreeMap.ofList (labelled keys documents) compare ↔ k ∈ documents.flatMap keys := by
  rw [mem_ofList_iff, map_fst_labelled]

/-- The keys of the documents are registered when none is claimed twice. -/
theorem registerDocuments_eq_ok {error : K → String → String → CompositionError}
    {keys : PolicyDocument → List K} {documents : List PolicyDocument}
    {register : BTreeMap K String} :
    registerDocuments error keys ∅ documents = .ok register ↔
      (documents.flatMap keys).Nodup ∧
        register = ExtTreeMap.ofList (labelled keys documents) compare := by
  have hflat : registerDocuments error keys ∅ documents =
      (labelled keys documents).foldlM (claim error) ∅ := (foldlM_flatMap _ _ _ _).symm
  rw [hflat, claimEach_empty_eq_ok, map_fst_labelled]

end Registers

/-! ## Membership stanzas -/

/-- The stanzas of the documents in order, each with the label of its document. -/
def labelledStanzas (documents : List PolicyDocument) : List (String × Membership) :=
  documents.flatMap fun d => d.fragment.memberships.map fun membership => (d.label, membership)

/-- Note the stanzas of the documents. -/
def noteStanzas (stanzas : BTreeMap String (String × Bool)) (documents : List PolicyDocument) :
    Except CompositionError (BTreeMap String (String × Bool)) :=
  documents.foldlM (fun s d => d.fragment.memberships.foldlM (noteStanza d.label) s) stanzas

/-- The stanzas of one role: the label and whether the stanza is exclusive. -/
def stanzasOf (role : String) (stanzas : List (String × Membership)) : List (String × Bool) :=
  (stanzas.filter (·.2.role == role)).map fun stanza => (stanza.1, stanza.2.exclusive)

/-- An exclusive stanza carries the first label, and no other label comes after it. -/
def StanzasPass (l : List (String × Bool)) : Prop :=
  ∀ h, l.head? = some h →
    (∀ a ∈ l, a.2 = true → a.1 = h.1) ∧ l.Pairwise fun a b => a.2 = true → b.1 = h.1

/-- What the index remembers of the stanzas of one role. -/
def stanzaSummary (l : List (String × Bool)) : Option (String × Bool) :=
  l.head?.map fun h => (h.1, l.any (·.2))

theorem stanzasPass_nil : StanzasPass [] := by
  intro h hhead
  cases hhead

/-- One more stanza passes when it carries the first label, or when no stanza is exclusive. -/
theorem stanzasPass_concat {l : List (String × Bool)} {h stanza : String × Bool}
    (hhead : l.head? = some h) :
    StanzasPass (l ++ [stanza]) ↔ StanzasPass l ∧
      (h.1 != stanza.1 && (l.any (·.2) || stanza.2)) = false := by
  have hhead' : (l ++ [stanza]).head? = some h := by
    rw [List.head?_append, hhead]
    rfl
  have hcheck : (h.1 != stanza.1 && (l.any (·.2) || stanza.2)) = false ↔
      (stanza.2 = true → stanza.1 = h.1) ∧ ∀ a ∈ l, a.2 = true → stanza.1 = h.1 := by
    rw [← Bool.not_eq_true, Bool.and_eq_true, Bool.or_eq_true, bne_iff_ne, List.any_eq_true]
    by_cases heq : stanza.1 = h.1
    · simp [heq]
    · have hne : h.1 ≠ stanza.1 := fun h => heq h.symm
      simp only [hne, heq, ne_eq, not_false_eq_true, true_and, imp_false, not_or, not_exists,
        not_and]
      exact and_comm
  unfold StanzasPass
  simp only [hhead', hhead, Option.some.injEq, forall_eq']
  rw [hcheck, List.pairwise_append]
  simp only [List.mem_append, List.mem_singleton, List.pairwise_singleton, true_and,
    forall_eq, or_imp, forall_and]
  tauto

theorem stanzasPass_singleton (stanza : String × Bool) : StanzasPass [stanza] := by
  intro h hhead
  rw [List.head?_cons, Option.some.injEq] at hhead
  rw [hhead]
  refine ⟨fun a ha _ => ?_, List.pairwise_singleton _ _⟩
  rw [List.mem_singleton.1 ha]

/-- The stanzas of a role with one more. -/
theorem stanzasOf_concat (role : String) (done : List (String × Membership))
    (stanza : String × Membership) :
    stanzasOf role (done ++ [stanza]) = stanzasOf role done ++
      if stanza.2.role = role then [(stanza.1, stanza.2.exclusive)] else [] := by
  unfold stanzasOf
  rw [List.filter_append, List.map_append]
  by_cases h : stanza.2.role = role
  · simp [h]
  · simp [h]

theorem StanzasPass.of_append {l l' : List (String × Bool)} (h : StanzasPass (l ++ l')) :
    StanzasPass l := by
  intro first hhead
  have hhead' : (l ++ l').head? = some first := by
    rw [List.head?_append, hhead]
    rfl
  obtain ⟨hlabels, hpairs⟩ := h first hhead'
  exact ⟨fun a ha => hlabels a (List.mem_append_left _ ha), (List.pairwise_append.1 hpairs).1⟩

theorem stanzasOf_append (role : String) (l l' : List (String × Membership)) :
    stanzasOf role (l ++ l') = stanzasOf role l ++ stanzasOf role l' := by
  unfold stanzasOf
  rw [List.filter_append, List.map_append]

/-- The stanzas done so far pass, and the index remembers their summary. -/
structure StanzasNoted (done : List (String × Membership))
    (stanzas : BTreeMap String (String × Bool)) : Prop where
  pass : ∀ role, StanzasPass (stanzasOf role done)
  summary : ∀ role : String, stanzas[role]? = stanzaSummary (stanzasOf role done)

theorem stanzasNoted_nil : StanzasNoted [] ∅ := by
  constructor
  · intro role
    exact stanzasPass_nil
  · intro role
    simp [stanzasOf, stanzaSummary]

/-- A stanza is noted exactly when the stanzas of its role then pass. -/
theorem StanzasNoted.noteStanza_eq_ok {done : List (String × Membership)}
    {before after : BTreeMap String (String × Bool)} {stanza : String × Membership}
    (h : StanzasNoted done before) :
    noteStanza stanza.1 before stanza.2 = .ok after ↔
      StanzasPass (stanzasOf stanza.2.role (done ++ [stanza])) ∧
        ∃ entry, stanzaSummary (stanzasOf stanza.2.role (done ++ [stanza])) = some entry ∧
          after = before.insert stanza.2.role entry := by
  rw [stanzasOf_concat, if_pos rfl]
  unfold noteStanza
  rw [h.summary]
  cases hhead : (stanzasOf stanza.2.role done).head? with
  | none =>
      have hnil : stanzasOf stanza.2.role done = [] := List.head?_eq_none_iff.1 hhead
      rw [hnil, List.nil_append]
      simp only [stanzaSummary, List.head?_nil, List.head?_cons, Option.map_none, Option.map_some,
        Except.ok.injEq, stanzasPass_singleton, true_and, Option.some.injEq, exists_eq_left',
        List.any_cons, List.any_nil, Bool.or_false]
      exact eq_comm
  | some first =>
      have hsummary : stanzaSummary
          (stanzasOf stanza.2.role done ++ [(stanza.1, stanza.2.exclusive)]) =
            some (first.1, (stanzasOf stanza.2.role done).any (·.2) || stanza.2.exclusive) := by
        rw [stanzaSummary, List.head?_append, hhead]
        simp
      rw [stanzasPass_concat hhead, hsummary]
      simp only [stanzaSummary, hhead, Option.map_some, h.pass, true_and, Option.some.injEq,
        exists_eq_left']
      rw [check_bind_eq_ok, rejectIf_eq_ok]
      refine and_congr_right fun _ => ?_
      simp only [pure, Except.pure, Except.ok.injEq]
      exact eq_comm

/-- Noting a stanza leaves the state that of the stanzas so far. -/
theorem StanzasNoted.note {done : List (String × Membership)}
    {before after : BTreeMap String (String × Bool)} {stanza : String × Membership}
    (h : StanzasNoted done before) (hnote : noteStanza stanza.1 before stanza.2 = .ok after) :
    StanzasNoted (done ++ [stanza]) after := by
  obtain ⟨hpass, entry, hentry, rfl⟩ := h.noteStanza_eq_ok.1 hnote
  constructor
  · intro role
    by_cases hrole : stanza.2.role = role
    · rw [← hrole]
      exact hpass
    · rw [stanzasOf_concat, if_neg hrole, List.append_nil]
      exact h.pass role
  · intro role
    rw [getElem?_insert_eq]
    split
    · next hrole => rw [← hrole, hentry]
    · next hrole => rw [stanzasOf_concat, if_neg hrole, List.append_nil, h.summary]

/-- Stanzas that pass can all be noted. -/
theorem StanzasNoted.exists_notes {l done : List (String × Membership)}
    {before : BTreeMap String (String × Bool)} (h : StanzasNoted done before)
    (hpass : ∀ role, StanzasPass (stanzasOf role (done ++ l))) :
    ∃ after, l.foldlM (fun s stanza => noteStanza stanza.1 s stanza.2) before = .ok after := by
  induction l generalizing done before with
  | nil => exact ⟨before, rfl⟩
  | cons stanza l ih =>
      have hall : done ++ stanza :: l = (done ++ [stanza]) ++ l := by simp
      rw [hall] at hpass
      have hnext : StanzasPass (stanzasOf stanza.2.role (done ++ [stanza])) := by
        have hrole := hpass stanza.2.role
        rw [stanzasOf_append] at hrole
        exact hrole.of_append
      have hentry : ∃ entry, stanzaSummary (stanzasOf stanza.2.role (done ++ [stanza])) =
          some entry := by
        rw [stanzasOf_concat, if_pos rfl, stanzaSummary]
        cases hhead : (stanzasOf stanza.2.role done).head? with
        | none => simp [List.head?_append, hhead]
        | some first => simp [List.head?_append, hhead]
      obtain ⟨entry, hentry⟩ := hentry
      have hnote := h.noteStanza_eq_ok.2 ⟨hnext, entry, hentry, rfl⟩
      obtain ⟨after, hafter⟩ := ih (h.note hnote) hpass
      refine ⟨after, ?_⟩
      rw [List.foldlM_cons, hnote]
      exact hafter

theorem noteStanzas_flat (documents : List PolicyDocument) :
    noteStanzas ∅ documents =
      (labelledStanzas documents).foldlM (fun s stanza => noteStanza stanza.1 s stanza.2) ∅ := by
  unfold noteStanzas labelledStanzas
  rw [foldlM_flatMap]
  simp only [List.foldlM_map]

/-- Noted stanzas pass and are summarised. -/
theorem stanzasNoted_of_noteStanzas {documents : List PolicyDocument}
    {stanzas : BTreeMap String (String × Bool)} (h : noteStanzas ∅ documents = .ok stanzas) :
    StanzasNoted (labelledStanzas documents) stanzas := by
  rw [noteStanzas_flat] at h
  exact foldlM_invariant StanzasNoted (fun _ _ _ _ hnoted hstep => hnoted.note hstep)
    stanzasNoted_nil h

/-- The stanzas of the documents are noted when those of each role pass. -/
theorem noteStanzas_isOk_iff {documents : List PolicyDocument} :
    (∃ stanzas, noteStanzas ∅ documents = .ok stanzas) ↔
      ∀ role, StanzasPass (stanzasOf role (labelledStanzas documents)) := by
  constructor
  · intro h
    obtain ⟨stanzas, hstanzas⟩ := h
    exact (stanzasNoted_of_noteStanzas hstanzas).pass
  · intro h
    rw [noteStanzas_flat]
    exact stanzasNoted_nil.exists_notes h

/-! ## The loop over the documents -/

/-- The roles that a document expands to. -/
def roleKeys (bundle : PolicyBundle) (d : PolicyDocument) : List String :=
  (expansionOf bundle d).roleKeys d

/-- The grants that a document expands to. -/
def grantKeys (bundle : PolicyBundle) (d : PolicyDocument) : List GrantKey :=
  (expansionOf bundle d).grantKeys

/-- The default privileges that a document expands to. -/
def defaultPrivilegeKeys (bundle : PolicyBundle) (d : PolicyDocument) : List DefaultPrivKey :=
  (expansionOf bundle d).defaultPrivilegeKeys

/-- The memberships that a document expands to. -/
def membershipKeys (bundle : PolicyBundle) (d : PolicyDocument) : List MembershipKey :=
  (expansionOf bundle d).membershipKeys

/-- The loop over the documents, register by register. -/
structure DocumentsComposed (bundle : PolicyBundle) (documents : List PolicyDocument)
    (s t : Composing) : Prop where
  expand : DocumentsExpand bundle documents
  roles : registerDocuments .duplicateManagedRole (roleKeys bundle) s.ownership.roles documents =
    .ok t.ownership.roles
  schemaFacets : registerDocuments
    (fun key => .duplicateManagedSchemaFacet key.schema key.facet.display)
    PolicyDocument.facetKeys s.ownership.schemaFacets documents = .ok t.ownership.schemaFacets
  grants : registerDocuments (fun key => .duplicateManagedGrant (formatGrantKey key))
    (grantKeys bundle) s.ownership.grants documents = .ok t.ownership.grants
  defaultPrivileges : registerDocuments
    (fun key => .duplicateManagedDefaultPrivilege (formatDefaultPrivilegeKey key))
    (defaultPrivilegeKeys bundle) s.ownership.defaultPrivileges documents =
      .ok t.ownership.defaultPrivileges
  memberships : registerDocuments (fun key => .duplicateManagedMembership key.role key.member)
    (membershipKeys bundle) s.ownership.memberships documents = .ok t.ownership.memberships
  stanzas : noteStanzas s.ownership.membershipStanzas documents =
    .ok t.ownership.membershipStanzas
  mergedSchemas : t.mergedSchemas =
    documents.foldl (fun merged d => mergeDocumentSchemas merged d.fragment) s.mergedSchemas
  manifest : t.manifest =
    documents.foldl (fun manifest d => mergeDocumentManifest manifest d.fragment) s.manifest

/-- What a document adds when it is composed. -/
theorem composeDocument_eq_ok {d : PolicyDocument} {s t : Composing} :
    composeDocument bundle s d = .ok t ↔ DocumentsComposed bundle [d] s t := by
  constructor
  · intro h
    obtain ⟨x, hx, h⟩ := bind_eq_ok.1 h
    obtain ⟨index, hindex, ht⟩ := bind_eq_ok.1 h
    obtain ⟨roles, hroles, hindex⟩ := bind_eq_ok.1 hindex
    obtain ⟨facets, hfacets, hindex⟩ := bind_eq_ok.1 hindex
    obtain ⟨grants, hgrants, hindex⟩ := bind_eq_ok.1 hindex
    obtain ⟨defaults, hdefaults, hindex⟩ := bind_eq_ok.1 hindex
    obtain ⟨memberships, hmemberships, hindex⟩ := bind_eq_ok.1 hindex
    obtain ⟨stanzas, hstanzas, hindex⟩ := bind_eq_ok.1 hindex
    rw [← Except.ok.inj ht, ← Except.ok.inj hindex]
    obtain rfl := expansionOf_eq hx
    have hone : ∀ {S : Type} {f : S → PolicyDocument → Except CompositionError S} {a b : S},
        f a d = .ok b → [d].foldlM f a = .ok b := by
      intro S f a b hf
      rw [List.foldlM_cons, hf]
      rfl
    exact ⟨fun d' hd' => List.mem_singleton.1 hd' ▸ hx, hone hroles, hone hfacets, hone hgrants,
      hone hdefaults, hone hmemberships, hone hstanzas, rfl, rfl⟩
  · intro h
    have hone : ∀ {S : Type} {f : S → PolicyDocument → Except CompositionError S} {a b : S},
        [d].foldlM f a = .ok b → f a d = .ok b := by
      intro S f a b hf
      rw [List.foldlM_cons] at hf
      obtain ⟨c, hc, hb⟩ := bind_eq_ok.1 hf
      rw [hc, Except.ok.inj hb]
    refine bind_eq_ok.2 ⟨_, h.expand d (List.mem_singleton.2 rfl), bind_eq_ok.2
      ⟨t.ownership, ?_, ?_⟩⟩
    · exact bind_eq_ok.2 ⟨_, hone h.roles, bind_eq_ok.2 ⟨_, hone h.schemaFacets, bind_eq_ok.2
        ⟨_, hone h.grants, bind_eq_ok.2 ⟨_, hone h.defaultPrivileges, bind_eq_ok.2
          ⟨_, hone h.memberships, bind_eq_ok.2 ⟨_, hone h.stanzas, rfl⟩⟩⟩⟩⟩⟩
    · have hschemas : t.mergedSchemas = mergeDocumentSchemas s.mergedSchemas d.fragment :=
        h.mergedSchemas
      have hmanifest : t.manifest = mergeDocumentManifest s.manifest d.fragment := h.manifest
      rw [← hschemas, ← hmanifest]
      rfl

/-- One more document in front. -/
theorem DocumentsComposed.cons {d : PolicyDocument} {documents : List PolicyDocument}
    {s m t : Composing} (hhead : DocumentsComposed bundle [d] s m)
    (htail : DocumentsComposed bundle documents m t) :
    DocumentsComposed bundle (d :: documents) s t := by
  have hjoin : ∀ {S : Type} {f : S → PolicyDocument → Except CompositionError S} {a b c : S},
      [d].foldlM f a = .ok b → documents.foldlM f b = .ok c →
        (d :: documents).foldlM f a = .ok c := by
    intro S f a b c hab hbc
    rw [← List.singleton_append, List.foldlM_append, hab]
    exact hbc
  refine ⟨List.forall_mem_cons.2 ⟨hhead.expand d (List.mem_singleton.2 rfl), htail.expand⟩,
    hjoin hhead.roles htail.roles, hjoin hhead.schemaFacets htail.schemaFacets,
    hjoin hhead.grants htail.grants, hjoin hhead.defaultPrivileges htail.defaultPrivileges,
    hjoin hhead.memberships htail.memberships, hjoin hhead.stanzas htail.stanzas,
    ?_, ?_⟩
  · rw [htail.mergedSchemas, hhead.mergedSchemas]
    rfl
  · rw [htail.manifest, hhead.manifest]
    rfl

/-- Without the first document. -/
theorem DocumentsComposed.uncons {d : PolicyDocument} {documents : List PolicyDocument}
    {s t : Composing} (h : DocumentsComposed bundle (d :: documents) s t) :
    ∃ m, DocumentsComposed bundle [d] s m ∧ DocumentsComposed bundle documents m t := by
  have hsplit : ∀ {S : Type} {f : S → PolicyDocument → Except CompositionError S} {a c : S},
      (d :: documents).foldlM f a = .ok c →
        ∃ b, [d].foldlM f a = .ok b ∧ documents.foldlM f b = .ok c := by
    intro S f a c hac
    rw [← List.singleton_append, List.foldlM_append] at hac
    exact bind_eq_ok.1 hac
  obtain ⟨roles, hroles, hroles'⟩ := hsplit h.roles
  obtain ⟨facets, hfacets, hfacets'⟩ := hsplit h.schemaFacets
  obtain ⟨grants, hgrants, hgrants'⟩ := hsplit h.grants
  obtain ⟨defaults, hdefaults, hdefaults'⟩ := hsplit h.defaultPrivileges
  obtain ⟨memberships, hmemberships, hmemberships'⟩ := hsplit h.memberships
  obtain ⟨stanzas, hstanzas, hstanzas'⟩ := hsplit h.stanzas
  obtain ⟨hd, hexpand⟩ := List.forall_mem_cons.1 h.expand
  refine ⟨⟨⟨roles, facets, grants, defaults, memberships, stanzas⟩,
    mergeDocumentSchemas s.mergedSchemas d.fragment,
    mergeDocumentManifest s.manifest d.fragment⟩, ?_, ?_⟩
  · exact ⟨fun d' hd' => List.mem_singleton.1 hd' ▸ hd, hroles, hfacets, hgrants, hdefaults,
      hmemberships, hstanzas, rfl, rfl⟩
  · exact ⟨hexpand, hroles', hfacets', hgrants', hdefaults', hmemberships', hstanzas',
      h.mergedSchemas, h.manifest⟩

theorem documentsComposed_nil {s t : Composing} : DocumentsComposed bundle [] s t ↔ s = t := by
  constructor
  · intro h
    obtain ⟨⟨roles, facets, grants, defaults, memberships, stanzas⟩, merged, manifest⟩ := s
    obtain ⟨⟨roles', facets', grants', defaults', memberships', stanzas'⟩, merged', manifest'⟩ := t
    obtain ⟨-, h₁, h₂, h₃, h₄, h₅, h₆, h₇, h₈⟩ := h
    obtain rfl : roles = roles' := Except.ok.inj h₁
    obtain rfl : facets = facets' := Except.ok.inj h₂
    obtain rfl : grants = grants' := Except.ok.inj h₃
    obtain rfl : defaults = defaults' := Except.ok.inj h₄
    obtain rfl : memberships = memberships' := Except.ok.inj h₅
    obtain rfl : stanzas = stanzas' := Except.ok.inj h₆
    obtain rfl : merged' = merged := h₇
    obtain rfl : manifest' = manifest := h₈
    rfl
  · intro h
    rw [h]
    exact ⟨fun d hd => absurd hd List.not_mem_nil, rfl, rfl, rfl, rfl, rfl, rfl, rfl, rfl⟩

/-- The loop succeeds when each of its registers does. -/
theorem composeDocuments_eq_ok {documents : List PolicyDocument} {s t : Composing} :
    documents.foldlM (composeDocument bundle) s = .ok t ↔
      DocumentsComposed bundle documents s t := by
  induction documents generalizing s with
  | nil =>
      rw [documentsComposed_nil]
      simp [pure, Except.pure]
  | cons d documents ih =>
      rw [List.foldlM_cons, bind_eq_ok]
      constructor
      · intro h
        obtain ⟨m, hm, hrest⟩ := h
        exact (composeDocument_eq_ok.1 hm).cons (ih.1 hrest)
      · intro h
        obtain ⟨m, hhead, htail⟩ := h.uncons
        exact ⟨m, composeDocument_eq_ok.2 hhead, ih.2 htail⟩

/-! ## The composed policy -/

/-- The merged bindings of the documents. -/
def mergedSchemas (documents : List PolicyDocument) : BTreeMap String SchemaBinding :=
  documents.foldl (fun merged d => mergeDocumentSchemas merged d.fragment) ∅

/-- The manifest the documents merge into. -/
def mergedManifest (bundle : PolicyBundle) (documents : List PolicyDocument) : PolicyManifest :=
  { rolePattern := bundle.shared.rolePattern
    defaultOwner := bundle.shared.defaultOwner
    profiles := bundle.shared.profiles
    schemas := (mergedSchemas documents).toList.map (·.2)
    roles := documents.flatMap (·.fragment.roles)
    grants := documents.flatMap (·.fragment.grants)
    defaultPrivileges := documents.flatMap (·.fragment.defaultPrivileges)
    memberships := documents.flatMap (·.fragment.memberships)
    retirements := documents.flatMap (·.fragment.retirements) }

/-- The manifest of several documents joins their lists. -/
theorem foldl_mergeDocumentManifest (documents : List PolicyDocument) (m : PolicyManifest) :
    documents.foldl (fun manifest d => mergeDocumentManifest manifest d.fragment) m =
      { m with
        roles := m.roles ++ documents.flatMap (·.fragment.roles)
        grants := m.grants ++ documents.flatMap (·.fragment.grants)
        defaultPrivileges :=
          m.defaultPrivileges ++ documents.flatMap (·.fragment.defaultPrivileges)
        memberships := m.memberships ++ documents.flatMap (·.fragment.memberships)
        retirements := m.retirements ++ documents.flatMap (·.fragment.retirements) } := by
  induction documents generalizing m with
  | nil => simp
  | cons d documents ih =>
      rw [List.foldl_cons, ih]
      simp [mergeDocumentManifest]

/-- No key is claimed twice. -/
structure KeysApart (bundle : PolicyBundle) (documents : List PolicyDocument) : Prop where
  roles : (documents.flatMap (roleKeys bundle)).Nodup
  schemaFacets : (documents.flatMap PolicyDocument.facetKeys).Nodup
  grants : (documents.flatMap (grantKeys bundle)).Nodup
  defaultPrivileges : (documents.flatMap (defaultPrivilegeKeys bundle)).Nodup
  memberships : (documents.flatMap (membershipKeys bundle)).Nodup

/-- The index the documents leave behind. -/
def ownershipOf (bundle : PolicyBundle) (documents : List PolicyDocument)
    (stanzas : BTreeMap String (String × Bool)) : OwnershipIndex :=
  { roles := ExtTreeMap.ofList (labelled (roleKeys bundle) documents) compare
    schemaFacets := ExtTreeMap.ofList (labelled PolicyDocument.facetKeys documents) compare
    grants := ExtTreeMap.ofList (labelled (grantKeys bundle) documents) compare
    defaultPrivileges :=
      ExtTreeMap.ofList (labelled (defaultPrivilegeKeys bundle) documents) compare
    memberships := ExtTreeMap.ofList (labelled (membershipKeys bundle) documents) compare
    membershipStanzas := stanzas }

/-- Composition from an empty state is up to the documents alone. -/
theorem documentsComposed_start {documents : List PolicyDocument} {t : Composing} :
    DocumentsComposed bundle documents { manifest := bundle.emptyManifest } t ↔
      DocumentsExpand bundle documents ∧ KeysApart bundle documents ∧
        ∃ stanzas, noteStanzas ∅ documents = .ok stanzas ∧
          t = ⟨ownershipOf bundle documents stanzas, mergedSchemas documents,
            { mergedManifest bundle documents with schemas := [] }⟩ := by
  constructor
  · intro h
    obtain ⟨hroles, hroles'⟩ := registerDocuments_eq_ok.1 h.roles
    obtain ⟨hfacets, hfacets'⟩ := registerDocuments_eq_ok.1 h.schemaFacets
    obtain ⟨hgrants, hgrants'⟩ := registerDocuments_eq_ok.1 h.grants
    obtain ⟨hdefaults, hdefaults'⟩ := registerDocuments_eq_ok.1 h.defaultPrivileges
    obtain ⟨hmemberships, hmemberships'⟩ := registerDocuments_eq_ok.1 h.memberships
    refine ⟨h.expand, ⟨hroles, hfacets, hgrants, hdefaults, hmemberships⟩, _, h.stanzas, ?_⟩
    have hmanifest := h.manifest
    rw [foldl_mergeDocumentManifest] at hmanifest
    have hschemas := h.mergedSchemas
    obtain ⟨⟨roles, facets, grants, defaults, memberships, stanzas⟩, merged, manifest⟩ := t
    simp only at hroles' hfacets' hgrants' hdefaults' hmemberships' hmanifest hschemas
    rw [hroles', hfacets', hgrants', hdefaults', hmemberships', hmanifest, hschemas]
    rfl
  · intro h
    obtain ⟨hexpand, hkeys, stanzas, hstanzas, rfl⟩ := h
    refine ⟨hexpand, registerDocuments_eq_ok.2 ⟨hkeys.roles, rfl⟩,
      registerDocuments_eq_ok.2 ⟨hkeys.schemaFacets, rfl⟩,
      registerDocuments_eq_ok.2 ⟨hkeys.grants, rfl⟩,
      registerDocuments_eq_ok.2 ⟨hkeys.defaultPrivileges, rfl⟩,
      registerDocuments_eq_ok.2 ⟨hkeys.memberships, rfl⟩, hstanzas, rfl, ?_⟩
    rw [foldl_mergeDocumentManifest]
    rfl

theorem mapError_eq_ok {ε ε' α : Type} {x : Except ε α} {f : ε → ε'} {a : α} :
    x.mapError f = .ok a ↔ x = .ok a := by
  cases x with
  | error e => simp [Except.mapError]
  | ok b => simp [Except.mapError]

/-- The policy composed of the documents, once the merged manifest is expanded. -/
def composedOf (bundle : PolicyBundle) (documents : List PolicyDocument)
    (stanzas : BTreeMap String (String × Bool)) (expanded : ExpandedManifest)
    (desired : RoleGraph) : ComposedPolicy :=
  { manifest := mergedManifest bundle documents
    expanded
    desired
    ownership := ownershipOf bundle documents stanzas
    managedScope := (ownershipOf bundle documents stanzas).managedScope
    managedChangeSurface := (ownershipOf bundle documents stanzas).managedChangeSurface }

/-- What composition checks apart from the stanzas; nothing here depends on the order of the
documents. -/
structure Admissible (bundle : PolicyBundle) (documents : List PolicyDocument)
    (expanded : ExpandedManifest) (desired : RoleGraph) : Prop where
  sources_ne : bundle.sources ≠ []
  documents_ne : documents ≠ []
  expand : DocumentsExpand bundle documents
  keys : KeysApart bundle documents
  expands : expandManifest (mergedManifest bundle documents) = .ok expanded
  graph : RoleGraph.fromExpanded expanded bundle.shared.defaultOwner = .ok desired

/-- When a bundle composes, and to what. -/
theorem composeBundle_eq_ok_iff {documents : List PolicyDocument} {c : ComposedPolicy} :
    composeBundle bundle documents = .ok c ↔
      ∃ expanded desired stanzas, Admissible bundle documents expanded desired ∧
        noteStanzas ∅ documents = .ok stanzas ∧
        c = composedOf bundle documents stanzas expanded desired := by
  have hnonempty : (bundle.sources.isEmpty || documents.isEmpty) = false ↔
      bundle.sources ≠ [] ∧ documents ≠ [] := by
    simp
  constructor
  · intro h
    obtain ⟨hsources, h⟩ := check_bind_eq_ok.1 h
    rw [rejectIf_eq_ok, hnonempty] at hsources
    obtain ⟨state, hstate, h⟩ := bind_eq_ok.1 h
    obtain ⟨hexpand, hkeys, stanzas, hstanzas, rfl⟩ :=
      documentsComposed_start.1 (composeDocuments_eq_ok.1 hstate)
    obtain ⟨expanded, hexpanded, h⟩ := bind_eq_ok.1 h
    obtain ⟨desired, hdesired, h⟩ := bind_eq_ok.1 h
    exact ⟨expanded, desired, stanzas, ⟨hsources.1, hsources.2, hexpand, hkeys,
      mapError_eq_ok.1 hexpanded, mapError_eq_ok.1 hdesired⟩, hstanzas, (Except.ok.inj h).symm⟩
  · intro h
    obtain ⟨expanded, desired, stanzas, hadm, hstanzas, rfl⟩ := h
    refine check_bind_eq_ok.2 ⟨rejectIf_eq_ok.2 (hnonempty.2 ⟨hadm.sources_ne, hadm.documents_ne⟩),
      bind_eq_ok.2 ⟨_, composeDocuments_eq_ok.2 (documentsComposed_start.2
        ⟨hadm.expand, hadm.keys, stanzas, hstanzas, rfl⟩), ?_⟩⟩
    exact bind_eq_ok.2 ⟨expanded, mapError_eq_ok.2 hadm.expands,
      bind_eq_ok.2 ⟨desired, mapError_eq_ok.2 hadm.graph, rfl⟩⟩

end PgRoles.Core

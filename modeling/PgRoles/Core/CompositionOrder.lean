import PgRoles.Core.MergedSchemas

/-!
# Bundles in another order

The conflict checks of a composition do not depend on the order of the documents, with one
exception. The check that an exclusive member list lives in one document remembers the label of the
first document with a stanza for the role, and labels need not be distinct: a bundle can then pass
in one order and fail in another, and a list split over two documents of one label passes. When no
two documents that share a role with an exclusive stanza share a label, order plays no part and the
list does live in one document (`orderIndependent_iff`).
-/

set_option autoImplicit false

namespace PgRoles.Core

open Std PgRoles.Lib

variable {bundle : PolicyBundle} {documents documents' : List PolicyDocument}

/-! ## What does not depend on the order -/

theorem KeysApart.perm (h : KeysApart bundle documents) (hperm : documents.Perm documents') :
    KeysApart bundle documents' :=
  ⟨(hperm.flatMap_right _).nodup_iff.1 h.roles, (hperm.flatMap_right _).nodup_iff.1 h.schemaFacets,
    (hperm.flatMap_right _).nodup_iff.1 h.grants,
    (hperm.flatMap_right _).nodup_iff.1 h.defaultPrivileges,
    (hperm.flatMap_right _).nodup_iff.1 h.memberships⟩

theorem Admissible.perm {e : ExpandedManifest} {g : RoleGraph}
    (h : Admissible bundle documents e g) (hperm : documents.Perm documents') :
    ∃ e', Admissible bundle documents' e' g := by
  have hreordered : (mergedManifest bundle documents).Reordered
      (mergedManifest bundle documents') := by
    unfold mergedManifest
    rw [mergedSchemas_perm h.expand h.keys hperm]
    exact ⟨rfl, rfl, rfl, rfl, hperm.flatMap_right _, hperm.flatMap_right _,
      hperm.flatMap_right _, hperm.flatMap_right _, hperm.flatMap_right _⟩
  obtain ⟨e', hexpands, he⟩ := expandManifest_reordered hreordered h.expands
  refine ⟨e', h.sources_ne, ?_, fun d hd => h.expand d (hperm.mem_iff.2 hd), h.keys.perm hperm,
    hexpands, fromExpanded_reordered he (nodup_roles_of_expandManifest h.expands) h.graph⟩
  intro hnil
  exact h.documents_ne (List.Perm.eq_nil (hnil ▸ hperm))

section Keys

variable {K : Type} [Ord K] [TransOrd K] [LawfulEqOrd K]

theorem mem_ofList_labelled_perm {keys : PolicyDocument → List K}
    (hperm : documents.Perm documents') (k : K) :
    k ∈ ExtTreeMap.ofList (labelled keys documents) compare ↔
      k ∈ ExtTreeMap.ofList (labelled keys documents') compare := by
  rw [mem_ofList_labelled, mem_ofList_labelled]
  exact (hperm.flatMap_right _).mem_iff

end Keys

/-- The index holds a role when some stanza is for it. -/
theorem StanzasNoted.mem_iff {done : List (String × Membership)}
    {stanzas : BTreeMap String (String × Bool)} (h : StanzasNoted done stanzas) (role : String) :
    role ∈ stanzas ↔ ∃ stanza ∈ done, stanza.2.role = role := by
  rw [ExtTreeMap.mem_iff_isSome_getElem?, h.summary, stanzaSummary, Option.isSome_map,
    List.isSome_head?, stanzasOf]
  simp

theorem ownershipOf_sameKeys {stanzas stanzas' : BTreeMap String (String × Bool)}
    (hperm : documents.Perm documents') (h : noteStanzas ∅ documents = .ok stanzas)
    (h' : noteStanzas ∅ documents' = .ok stanzas') :
    (ownershipOf bundle documents stanzas).SameKeys (ownershipOf bundle documents' stanzas') := by
  refine ⟨mem_ofList_labelled_perm hperm, mem_ofList_labelled_perm hperm,
    mem_ofList_labelled_perm hperm, mem_ofList_labelled_perm hperm,
    mem_ofList_labelled_perm hperm, fun role => ?_⟩
  have hstanzas : (labelledStanzas documents).Perm (labelledStanzas documents') :=
    hperm.flatMap_right _
  exact ((stanzasNoted_of_noteStanzas h).mem_iff role).trans
    ((exists_congr fun _ => and_congr_left fun _ => hstanzas.mem_iff).trans
      ((stanzasNoted_of_noteStanzas h').mem_iff role).symm)

/-! ## Exclusive stanzas -/

/-- The document has a stanza for the role. -/
def PolicyDocument.declaresStanza (role : String) (d : PolicyDocument) : Bool :=
  d.fragment.memberships.any (·.role == role)

/-- The documents with a stanza for the role, in order. -/
def declaring (role : String) (documents : List PolicyDocument) : List PolicyDocument :=
  documents.filter (·.declaresStanza role)

/-- Some stanza for the role is exclusive. -/
def HasExclusiveStanza (role : String) (documents : List PolicyDocument) : Prop :=
  ∃ d ∈ documents, ∃ membership ∈ d.fragment.memberships,
    membership.role = role ∧ membership.exclusive = true

/-- Documents that share a role with an exclusive stanza have labels of their own. -/
def LabelsApart (documents : List PolicyDocument) : Prop :=
  ∀ role, HasExclusiveStanza role documents → ((declaring role documents).map (·.label)).Nodup

/-- The stanzas of one document for the role. -/
def PolicyDocument.stanzas (role : String) (d : PolicyDocument) : List (String × Bool) :=
  (d.fragment.memberships.filter (·.role == role)).map fun membership =>
    (d.label, membership.exclusive)

theorem mem_stanzas {role : String} {d : PolicyDocument} {stanza : String × Bool} :
    stanza ∈ d.stanzas role ↔ ∃ membership ∈ d.fragment.memberships, membership.role = role ∧
      stanza = (d.label, membership.exclusive) := by
  unfold PolicyDocument.stanzas
  simp only [List.mem_map, List.mem_filter, beq_iff_eq, and_assoc]
  refine exists_congr fun membership => and_congr_right fun _ => and_congr_right fun _ => ?_
  exact eq_comm

theorem declaresStanza_iff {role : String} {d : PolicyDocument} :
    d.declaresStanza role = true ↔ d.stanzas role ≠ [] := by
  unfold PolicyDocument.declaresStanza PolicyDocument.stanzas
  rw [List.any_eq_true, ne_eq, List.map_eq_nil_iff, List.filter_eq_nil_iff]
  push Not
  rfl

theorem stanzasOf_labelledStanzas (role : String) (documents : List PolicyDocument) :
    stanzasOf role (labelledStanzas documents) =
      (declaring role documents).flatMap (·.stanzas role) := by
  induction documents with
  | nil => rfl
  | cons d documents ih =>
      have hcons : labelledStanzas (d :: documents) =
          (d.fragment.memberships.map fun membership => (d.label, membership)) ++
            labelledStanzas documents := List.flatMap_cons
      have hhead : stanzasOf role (d.fragment.memberships.map fun membership =>
          (d.label, membership)) = d.stanzas role := by
        unfold stanzasOf PolicyDocument.stanzas
        rw [List.filter_map, List.map_map]
        rfl
      rw [hcons, stanzasOf_append, hhead, ih]
      unfold declaring
      by_cases hd : d.declaresStanza role = true
      · rw [List.filter_cons_of_pos hd, List.flatMap_cons]
      · rw [List.filter_cons_of_neg hd]
        rw [declaresStanza_iff, not_not] at hd
        rw [hd, List.nil_append]

/-- The stanzas of one document carry one label, so they pass. -/
theorem stanzasPass_of_length_le {role : String}
    (h : (declaring role documents).length ≤ 1) :
    StanzasPass (stanzasOf role (labelledStanzas documents)) := by
  rw [stanzasOf_labelledStanzas]
  have hlabel : ∀ a ∈ (declaring role documents).flatMap (·.stanzas role),
      ∀ b ∈ (declaring role documents).flatMap (·.stanzas role), a.1 = b.1 := by
    intro a ha b hb
    obtain ⟨d, hd, had⟩ := List.mem_flatMap.1 ha
    obtain ⟨d', hd', hbd⟩ := List.mem_flatMap.1 hb
    obtain ⟨-, -, -, rfl⟩ := mem_stanzas.1 had
    obtain ⟨-, -, -, rfl⟩ := mem_stanzas.1 hbd
    have hsame : d = d' := by
      cases hdeclaring : declaring role documents with
      | nil =>
          rw [hdeclaring] at hd
          exact absurd hd List.not_mem_nil
      | cons first rest =>
          rw [hdeclaring, List.length_cons] at h
          have hrest : rest = [] := List.length_eq_zero_iff.1 (by omega)
          rw [hdeclaring, hrest] at hd hd'
          rw [List.mem_singleton.1 hd, List.mem_singleton.1 hd']
    rw [hsame]
  intro first hhead
  have hfirst := List.mem_of_mem_head? hhead
  exact ⟨fun a ha _ => hlabel a ha first hfirst,
    List.pairwise_of_forall_mem_list fun a _ b hb _ => hlabel b hb first hfirst⟩

theorem stanzasPass_of_not_exclusive {role : String}
    (h : ¬ HasExclusiveStanza role documents) :
    StanzasPass (stanzasOf role (labelledStanzas documents)) := by
  rw [stanzasOf_labelledStanzas]
  have hnone : ∀ a ∈ (declaring role documents).flatMap (·.stanzas role), ¬ a.2 = true := by
    intro a ha hexclusive
    obtain ⟨d, hd, had⟩ := List.mem_flatMap.1 ha
    obtain ⟨membership, hmembership, hrole, rfl⟩ := mem_stanzas.1 had
    exact h ⟨d, (List.mem_filter.1 hd).1, membership, hmembership, hrole, hexclusive⟩
  intro first _
  exact ⟨fun a ha hexclusive => absurd hexclusive (hnone a ha),
    List.pairwise_of_forall_mem_list fun a ha b _ hexclusive => absurd hexclusive (hnone a ha)⟩

/-- With labels of their own, two documents do not share a role with an exclusive stanza. -/
theorem length_le_of_stanzasPass {role : String}
    (hnodup : ((declaring role documents).map (·.label)).Nodup)
    (hexclusive : HasExclusiveStanza role documents)
    (hpass : StanzasPass (stanzasOf role (labelledStanzas documents))) :
    (declaring role documents).length ≤ 1 := by
  rw [stanzasOf_labelledStanzas] at hpass
  cases hdeclaring : declaring role documents with
  | nil => simp
  | cons d rest =>
      cases rest with
      | nil => simp
      | cons d' rest =>
          exfalso
          have hmem : ∀ e ∈ declaring role documents, e.stanzas role ≠ [] := fun e he =>
            declaresStanza_iff.1 (List.mem_filter.1 he).2
          rw [hdeclaring] at hmem hpass hnodup
          obtain ⟨first, hfirst⟩ := List.exists_mem_of_ne_nil _ (hmem d List.mem_cons_self)
          obtain ⟨second, hsecond⟩ := List.exists_mem_of_ne_nil _
            (hmem d' (List.mem_cons_of_mem _ List.mem_cons_self))
          rw [List.flatMap_cons] at hpass
          -- The first stanza carries the label of the first document.
          have hhead : ∃ h, (d.stanzas role ++ (d' :: rest).flatMap (·.stanzas role)).head? =
              some h ∧ h.1 = d.label := by
            cases hstanzas : d.stanzas role with
            | nil => exact absurd hstanzas (hmem d List.mem_cons_self)
            | cons stanza stanzas =>
                have hstanza : stanza ∈ d.stanzas role := by
                  rw [hstanzas]
                  exact List.mem_cons_self
                obtain ⟨-, -, -, rfl⟩ := mem_stanzas.1 hstanza
                exact ⟨_, rfl, rfl⟩
          obtain ⟨h, hh, hlabel⟩ := hhead
          obtain ⟨hlabels, hpairs⟩ := hpass h hh
          obtain ⟨e, he, membership, hmembership, hrole, hmexclusive⟩ := hexclusive
          have hstanza : (e.label, true) ∈ e.stanzas role :=
            mem_stanzas.2 ⟨membership, hmembership, hrole, by rw [hmexclusive]⟩
          have hein : e ∈ d :: d' :: rest := by
            rw [← hdeclaring]
            exact List.mem_filter.2 ⟨he, declaresStanza_iff.2 (List.ne_nil_of_mem hstanza)⟩
          have helabel : e.label = d.label := by
            rw [← hlabel]
            refine hlabels (e.label, true) ?_ rfl
            rw [← List.flatMap_cons]
            exact List.mem_flatMap.2 ⟨e, hein, hstanza⟩
          have hed : e = d :=
            List.inj_on_of_nodup_map hnodup hein List.mem_cons_self helabel
          rw [hed] at hstanza
          have hsecond' : second ∈ (d' :: rest).flatMap (·.stanzas role) :=
            List.mem_flatMap.2 ⟨d', List.mem_cons_self, hsecond⟩
          have hsame := (List.pairwise_append.1 hpairs).2.2 _ hstanza second hsecond' rfl
          obtain ⟨_, _, _, hlabel'⟩ := mem_stanzas.1 hsecond
          rw [hlabel, hlabel'] at hsame
          rw [List.map_cons, List.nodup_cons, List.map_cons] at hnodup
          exact hnodup.1 (hsame ▸ List.mem_cons_self)

/-- With labels apart the stanzas pass when each exclusive list lives in one document. -/
theorem stanzasPass_iff (h : LabelsApart documents) (role : String) :
    StanzasPass (stanzasOf role (labelledStanzas documents)) ↔
      (HasExclusiveStanza role documents → (declaring role documents).length ≤ 1) := by
  constructor
  · intro hpass hexclusive
    exact length_le_of_stanzasPass (h role hexclusive) hexclusive hpass
  · intro hone
    by_cases hexclusive : HasExclusiveStanza role documents
    · exact stanzasPass_of_length_le (hone hexclusive)
    · exact stanzasPass_of_not_exclusive hexclusive

theorem hasExclusiveStanza_perm {role : String} (hperm : documents.Perm documents') :
    HasExclusiveStanza role documents ↔ HasExclusiveStanza role documents' :=
  exists_congr fun _ => and_congr_left fun _ => hperm.mem_iff

theorem LabelsApart.perm (h : LabelsApart documents) (hperm : documents.Perm documents') :
    LabelsApart documents' := by
  intro role hexclusive
  have hlabels := h role ((hasExclusiveStanza_perm hperm).2 hexclusive)
  exact ((hperm.filter _).map _).nodup_iff.1 hlabels

/-- With labels apart the stanzas pass in every order or in none. -/
theorem LabelsApart.stanzasPass_perm (h : LabelsApart documents)
    (hperm : documents.Perm documents')
    (hpass : ∀ role, StanzasPass (stanzasOf role (labelledStanzas documents))) :
    ∀ role, StanzasPass (stanzasOf role (labelledStanzas documents')) := by
  intro role
  rw [stanzasPass_iff (h.perm hperm)]
  intro hexclusive
  have hlength := (stanzasPass_iff h role).1 (hpass role)
    ((hasExclusiveStanza_perm hperm).2 hexclusive)
  exact (hperm.filter _).length_eq ▸ hlength

/-! ## Order independence -/

/-- Both compositions fail, or both succeed with one graph and one managed surface. -/
def SameComposition : Except CompositionError ComposedPolicy →
    Except CompositionError ComposedPolicy → Prop
  | .ok c, .ok c' => c.desired = c'.desired ∧ c.ownership.SameKeys c'.ownership ∧
      c.managedScope = c'.managedScope ∧ c.managedChangeSurface = c'.managedChangeSurface
  | .error _, .error _ => True
  | _, _ => False

/-- The order of the documents does not matter, and in an accepted bundle every exclusive member
list lives in one document. -/
def OrderIndependent (bundle : PolicyBundle) (documents : List PolicyDocument) : Prop :=
  (∀ documents', documents.Perm documents' →
    SameComposition (composeBundle bundle documents) (composeBundle bundle documents')) ∧
  ∀ c, composeBundle bundle documents = .ok c →
    ∀ role, HasExclusiveStanza role documents → (declaring role documents).length ≤ 1

/-- The bundle is rejected whatever the order: a check other than that of the stanzas fails, or the
stanzas of some role fail in every order. -/
def RejectedInEveryOrder (bundle : PolicyBundle) (documents : List PolicyDocument) : Prop :=
  (¬ ∃ expanded desired, Admissible bundle documents expanded desired) ∨
    ∀ documents', documents.Perm documents' →
      ∃ role, ¬ StanzasPass (stanzasOf role (labelledStanzas documents'))

theorem isOk_composeBundle_iff :
    (∃ c, composeBundle bundle documents = .ok c) ↔
      (∃ expanded desired, Admissible bundle documents expanded desired) ∧
        ∀ role, StanzasPass (stanzasOf role (labelledStanzas documents)) := by
  rw [← noteStanzas_isOk_iff]
  constructor
  · intro h
    obtain ⟨c, hc⟩ := h
    obtain ⟨expanded, desired, stanzas, hadm, hstanzas, -⟩ := composeBundle_eq_ok_iff.1 hc
    exact ⟨⟨expanded, desired, hadm⟩, stanzas, hstanzas⟩
  · intro h
    obtain ⟨⟨expanded, desired, hadm⟩, stanzas, hstanzas⟩ := h
    exact ⟨_, composeBundle_eq_ok_iff.2 ⟨expanded, desired, stanzas, hadm, hstanzas, rfl⟩⟩

theorem admissible_perm_iff (hperm : documents.Perm documents') :
    (∃ expanded desired, Admissible bundle documents expanded desired) ↔
      ∃ expanded desired, Admissible bundle documents' expanded desired := by
  constructor
  · intro h
    obtain ⟨expanded, desired, hadm⟩ := h
    obtain ⟨expanded', hadm'⟩ := hadm.perm hperm
    exact ⟨expanded', desired, hadm'⟩
  · intro h
    obtain ⟨expanded, desired, hadm⟩ := h
    obtain ⟨expanded', hadm'⟩ := hadm.perm hperm.symm
    exact ⟨expanded', desired, hadm'⟩

/-- Two orders that both compose compose alike. -/
theorem sameComposition_of_isOk_iff (hperm : documents.Perm documents')
    (hiff : (∃ c, composeBundle bundle documents = .ok c) ↔
      ∃ c, composeBundle bundle documents' = .ok c) :
    SameComposition (composeBundle bundle documents) (composeBundle bundle documents') := by
  cases hc : composeBundle bundle documents with
  | error e =>
      cases hc' : composeBundle bundle documents' with
      | error e' => trivial
      | ok c' =>
          obtain ⟨c, hok⟩ := hiff.2 ⟨c', hc'⟩
          rw [hc] at hok
          cases hok
  | ok c =>
      obtain ⟨c', hc'⟩ := hiff.1 ⟨c, hc⟩
      rw [hc']
      obtain ⟨expanded, desired, stanzas, hadm, hstanzas, rfl⟩ := composeBundle_eq_ok_iff.1 hc
      obtain ⟨expanded', desired', stanzas', hadm', hstanzas', rfl⟩ :=
        composeBundle_eq_ok_iff.1 hc'
      obtain ⟨expanded'', hadm''⟩ := hadm.perm hperm
      have hexpanded : expanded'' = expanded' :=
        Except.ok.inj (hadm''.expands.symm.trans hadm'.expands)
      rw [hexpanded] at hadm''
      have hdesired : desired = desired' := Except.ok.inj (hadm''.graph.symm.trans hadm'.graph)
      have hkeys : (ownershipOf bundle documents stanzas).SameKeys
          (ownershipOf bundle documents' stanzas') := ownershipOf_sameKeys hperm hstanzas hstanzas'
      exact ⟨hdesired, hkeys, hkeys.managedScope_eq, hkeys.managedChangeSurface_eq⟩

/-- Composition does not depend on the order of the documents exactly when the documents that share
a role with an exclusive stanza have labels of their own, or the bundle is rejected anyway. -/
theorem orderIndependent_iff (bundle : PolicyBundle) (documents : List PolicyDocument) :
    OrderIndependent bundle documents ↔
      LabelsApart documents ∨ RejectedInEveryOrder bundle documents := by
  constructor
  · intro h
    obtain ⟨hsame, hone⟩ := h
    by_contra hneither
    rw [not_or, RejectedInEveryOrder, not_or, not_not] at hneither
    obtain ⟨hlabels, hadm, horder⟩ := hneither
    push Not at horder
    obtain ⟨documents', hperm, hpass⟩ := horder
    -- Some order composes, so this one does, and then each list lives in one document.
    obtain ⟨c', hc'⟩ := isOk_composeBundle_iff.2 ⟨(admissible_perm_iff hperm).1 hadm, hpass⟩
    have hsame := hsame documents' hperm
    rw [hc'] at hsame
    cases hc : composeBundle bundle documents with
    | error e =>
        rw [hc] at hsame
        exact hsame
    | ok c =>
        refine hlabels fun role hexclusive => ?_
        have hlength := hone c hc role hexclusive
        cases hdeclaring : declaring role documents with
        | nil => exact List.nodup_nil
        | cons d rest =>
            rw [hdeclaring, List.length_cons] at hlength
            have hrest : rest = [] := List.length_eq_zero_iff.1 (by omega)
            rw [hrest]
            exact List.nodup_singleton _
  · intro h
    rcases h with hlabels | hadm | horder
    · constructor
      · intro documents' hperm
        refine sameComposition_of_isOk_iff hperm ?_
        rw [isOk_composeBundle_iff, isOk_composeBundle_iff, admissible_perm_iff hperm]
        exact and_congr_right fun _ => ⟨hlabels.stanzasPass_perm hperm,
          (hlabels.perm hperm).stanzasPass_perm hperm.symm⟩
      · intro c hc role hexclusive
        have hpass := (isOk_composeBundle_iff.1 ⟨c, hc⟩).2 role
        exact (stanzasPass_iff hlabels role).1 hpass hexclusive
    · constructor
      · intro documents' hperm
        refine sameComposition_of_isOk_iff hperm ?_
        rw [isOk_composeBundle_iff, isOk_composeBundle_iff, ← admissible_perm_iff hperm]
        exact iff_of_false (fun h => hadm h.1) (fun h => hadm h.1)
      · intro c hc
        exact absurd (isOk_composeBundle_iff.1 ⟨c, hc⟩).1 hadm
    · have hrejected : ∀ documents', documents.Perm documents' →
          ¬ ∃ c, composeBundle bundle documents' = .ok c := by
        intro documents' hperm hok
        obtain ⟨role, hsplit⟩ := horder documents' hperm
        exact hsplit ((isOk_composeBundle_iff.1 hok).2 role)
      have hself := hrejected documents (List.Perm.refl _)
      exact ⟨fun documents' hperm => sameComposition_of_isOk_iff hperm
        (iff_of_false hself (hrejected documents' hperm)), fun c hc => absurd ⟨c, hc⟩ hself⟩

/-! ### A bundle whose order matters -/

/-- A document that declares one member of `pg_monitor`. -/
def monitorDocument (source name member : String) (exclusive : Bool) : PolicyDocument :=
  { source := source
    fragment :=
      { policy := { name := some name }
        memberships := [{ role := "pg_monitor", members := [{ name := member }], exclusive }] } }

/-- Two files of the team's policy and one of another. -/
def monitorDocuments : List PolicyDocument :=
  [monitorDocument "team.yaml" "team" "alice" false, monitorDocument "ops.yaml" "ops" "bob" false,
    monitorDocument "team-audit.yaml" "team" "carol" true]

/-- The other policy comes first. -/
def monitorDocuments' : List PolicyDocument :=
  [monitorDocument "ops.yaml" "ops" "bob" false, monitorDocument "team.yaml" "team" "alice" false,
    monitorDocument "team-audit.yaml" "team" "carol" true]

/-- The bundle with its documents in this order. -/
def monitorBundle : PolicyBundle :=
  { sources := [⟨"team.yaml"⟩, ⟨"ops.yaml"⟩, ⟨"team-audit.yaml"⟩] }

/-- In the first order the exclusive stanza meets its own label and the bundle composes; in the
second it meets another label and the bundle is rejected. -/
theorem monitorBundle_order_matters : ¬ OrderIndependent monitorBundle monitorDocuments := by
  intro h
  have hsame := h.1 monitorDocuments' (List.Perm.swap _ _ _)
  have hok : (composeBundle monitorBundle monitorDocuments).isOk = true := by decide +kernel
  have herror : (composeBundle monitorBundle monitorDocuments').isOk = false := by
    decide +kernel
  cases hc : composeBundle monitorBundle monitorDocuments with
  | error e =>
      rw [hc] at hok
      cases hok
  | ok c =>
      cases hc' : composeBundle monitorBundle monitorDocuments' with
      | error e =>
          rw [hc, hc'] at hsame
          exact hsame
      | ok c' =>
          rw [hc'] at herror
          cases herror

end PgRoles.Core

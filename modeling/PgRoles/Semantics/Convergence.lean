import PgRoles.Core.RevokeSpec
import PgRoles.Semantics.ApplyChanges

/-!
# Convergence of each map

What executing a plan leaves in each map of the graph. Roles become the desired roles whatever the
two graphs are; the other maps are described entry by entry, and the two results about whole plans
read them off these descriptions.
-/

set_option autoImplicit false

namespace PgRoles.Semantics

open Std PgRoles.Lib PgRoles.Core

variable {current desired : RoleGraph}

/-! ## Attributes of one role -/

theorem applyAttributes_append (s : RoleState) (l₁ l₂ : List RoleAttribute) :
    applyAttributes s (l₁ ++ l₂) = applyAttributes (applyAttributes s l₁) l₂ :=
  List.foldl_append

/-- A compared attribute ends up at its new value. -/
theorem applyAttributes_changedAttribute {α : Type} [DecidableEq α] (kind : α → RoleAttribute)
    (get : RoleState → α) (set : RoleState → α → RoleState)
    (hset : ∀ s v, applyAttribute s (kind v) = set s v) (hget : ∀ s, set s (get s) = s)
    (s : RoleState) (new : α) :
    applyAttributes s (changedAttribute kind (get s) new) = set s new := by
  unfold changedAttribute
  split
  · next h =>
      rw [← h, hget]
      rfl
  · exact hset s new

/-- The effect of an attribute change on the settings. -/
def configStep (config : BTreeMap String String) : RoleAttribute → BTreeMap String String
  | .setConfig parameter value => config.insert parameter value
  | .resetConfig parameter => config.erase parameter
  | _ => config

/-- A list of settings changes acts on the settings alone. -/
theorem applyAttributes_config {l : List RoleAttribute}
    (h : ∀ a ∈ l, (∃ k v, a = .setConfig k v) ∨ ∃ k, a = .resetConfig k) (s : RoleState) :
    applyAttributes s l = { s with config := l.foldl configStep s.config } := by
  induction l generalizing s with
  | nil => rfl
  | cons a l ih =>
      have hrest := ih (fun b hb => h b (List.mem_cons_of_mem _ hb)) (applyAttribute s a)
      rcases h a List.mem_cons_self with ⟨k, v, rfl⟩ | ⟨k, rfl⟩
      · exact hrest
      · exact hrest

/-- The effect of an attribute change on one setting. -/
def configAct (key : String) (value : Option String) : RoleAttribute → Option String
  | .setConfig parameter v => if parameter = key then some v else value
  | .resetConfig parameter => if parameter = key then none else value
  | _ => value

theorem getElem?_configStep (m : BTreeMap String String) (a : RoleAttribute) (key : String) :
    (configStep m a)[key]? = configAct key m[key]? a := by
  cases a with
  | setConfig parameter v => exact getElem?_insert_eq m parameter key v
  | resetConfig parameter => exact getElem?_erase_eq m parameter key
  | _ => rfl

theorem foldl_configAct_changedConfig (old new : BTreeMap String String) (key : String)
    (value : Option String) :
    (changedConfig old new).foldl (configAct key) value =
      match new[key]? with
      | none => value
      | some v => if old[key]? = some v then value else some v := by
  rw [changedConfig, foldl_flatMap_toList new key]
  · cases hn : new[key]? with
    | none => rfl
    | some v => by_cases h : old[key]? = some v <;> simp [h, configAct]
  · intro e _ hne a ha value
    split at ha
    · simp at ha
    · rw [List.mem_singleton.1 ha]
      exact if_neg hne

theorem foldl_configAct_removedConfig (old new : BTreeMap String String) (key : String)
    (value : Option String) :
    (removedConfig old new).foldl (configAct key) value =
      if key ∈ old ∧ key ∉ new then none else value := by
  rw [removedConfig, foldl_flatMap_toList old key]
  · cases ho : old[key]? with
    | none =>
        have hno := not_mem_iff_getElem?.2 ho
        simp [hno]
    | some v =>
        have hin := mem_iff_exists_getElem?.2 ⟨v, ho⟩
        by_cases h : key ∈ new <;> simp [h, hin, configAct]
  · intro e _ hne a ha value
    split at ha
    · simp at ha
    · rw [List.mem_singleton.1 ha]
      exact if_neg hne

/-- Writing the differing settings and removing the surplus ones gives the new settings. -/
theorem foldl_configStep_eq (old new : BTreeMap String String) :
    (changedConfig old new ++ removedConfig old new).foldl configStep old = new := by
  refine ExtTreeMap.ext_getElem? fun key => ?_
  rw [getElem?_foldl_of_pointwise (fun m a k => getElem?_configStep m a k), List.foldl_append,
    foldl_configAct_changedConfig, foldl_configAct_removedConfig]
  cases hn : new[key]? with
  | none =>
      have hno := not_mem_iff_getElem?.2 hn
      by_cases ho : key ∈ old
      · simp [hno, ho]
      · simp [hno, ho]
  | some v =>
      have hin := mem_iff_exists_getElem?.2 ⟨v, hn⟩
      by_cases h : old[key]? = some v <;> simp [h, hin]

theorem mem_configChanges {old new : BTreeMap String String} {a : RoleAttribute}
    (h : a ∈ changedConfig old new ++ removedConfig old new) :
    (∃ k v, a = .setConfig k v) ∨ ∃ k, a = .resetConfig k := by
  rcases List.mem_append.1 h with h | h
  · obtain ⟨k, v, -, ha⟩ := mem_flatMap_toList.1 h
    split at ha
    · simp at ha
    · exact Or.inl ⟨k, v, List.mem_singleton.1 ha⟩
  · obtain ⟨k, v, -, ha⟩ := mem_flatMap_toList.1 h
    split at ha
    · simp at ha
    · exact Or.inr ⟨k, List.mem_singleton.1 ha⟩

/-- The compared attributes turn a role state into the desired one, but for its comment. -/
theorem applyAttributes_changedAttributes (t s : RoleState) :
    applyAttributes t (t.changedAttributes s) = { s with comment := t.comment } := by
  simp only [RoleState.changedAttributes, List.flatten_cons, List.flatten_nil, List.append_nil,
    applyAttributes_append]
  rw [
    applyAttributes_changedAttribute .login RoleState.login
      (fun s v => { s with login := v }) (fun _ _ => rfl) (fun _ => rfl) _ s.login,
    applyAttributes_changedAttribute .superuser RoleState.superuser
      (fun s v => { s with superuser := v }) (fun _ _ => rfl) (fun _ => rfl) _ s.superuser,
    applyAttributes_changedAttribute .createdb RoleState.createdb
      (fun s v => { s with createdb := v }) (fun _ _ => rfl) (fun _ => rfl) _ s.createdb,
    applyAttributes_changedAttribute .createrole RoleState.createrole
      (fun s v => { s with createrole := v }) (fun _ _ => rfl) (fun _ => rfl) _ s.createrole,
    applyAttributes_changedAttribute .inherit RoleState.inherit
      (fun s v => { s with inherit := v }) (fun _ _ => rfl) (fun _ => rfl) _ s.inherit,
    applyAttributes_changedAttribute .replication RoleState.replication
      (fun s v => { s with replication := v }) (fun _ _ => rfl) (fun _ => rfl) _ s.replication,
    applyAttributes_changedAttribute .bypassrls RoleState.bypassrls
      (fun s v => { s with bypassrls := v }) (fun _ _ => rfl) (fun _ => rfl) _ s.bypassrls,
    applyAttributes_changedAttribute .connectionLimit RoleState.connectionLimit
      (fun s v => { s with connectionLimit := v })
      (fun _ _ => rfl) (fun _ => rfl) _ s.connectionLimit,
    applyAttributes_changedAttribute .validUntil RoleState.passwordValidUntil
      (fun s v => { s with passwordValidUntil := v })
      (fun _ _ => rfl) (fun _ => rfl) _ s.passwordValidUntil,
    ← applyAttributes_append, applyAttributes_config fun _ => mem_configChanges]
  show ({ s with
    config := (changedConfig t.config s.config ++ removedConfig t.config s.config).foldl configStep
      t.config
    comment := t.comment } : RoleState) = _
  rw [foldl_configStep_eq]

/-- Writing a role's own settings again changes nothing. -/
theorem applyAttributes_createdConfig (s : RoleState) :
    applyAttributes s (createdConfig s) = s := by
  have hconfig : ∀ a ∈ createdConfig s, (∃ k v, a = .setConfig k v) ∨ ∃ k, a = .resetConfig k := by
    intro a ha
    obtain ⟨e, -, rfl⟩ := List.mem_map.1 ha
    exact Or.inl ⟨e.1, e.2, rfl⟩
  have hkeep : (createdConfig s).foldl configStep s.config = s.config := by
    refine ExtTreeMap.ext_getElem? fun key => ?_
    rw [getElem?_foldl_of_pointwise (fun m a k => getElem?_configStep m a k), createdConfig,
      ← List.flatMap_pure_eq_map, foldl_flatMap_toList s.config key]
    · cases hk : s.config[key]? with
      | none => rfl
      | some v => simp [configAct]
    · intro e _ hne a ha value
      rw [List.mem_singleton.1 ha]
      exact if_neg hne
  rw [applyAttributes_config hconfig, hkeep]

/-! ## Roles -/

/-- The effect of a change on one role. -/
def roleAct (n : String) (o : Option RoleState) : Change → Option RoleState
  | .createRole m s => if m = n then some s else o
  | .alterRole m attributes => if m = n then o.map (applyAttributes · attributes) else o
  | .setComment m comment => if m = n then o.map fun s => { s with comment := comment } else o
  | .dropRole m => if m = n then none else o
  | _ => o

theorem getElem?_rolesStep (m : BTreeMap String RoleState) (c : Change) (n : String) :
    (rolesStep m c)[n]? = roleAct n m[n]? c := by
  cases c with
  | createRole a s => exact getElem?_insert_eq m a n s
  | alterRole a attributes => exact getElem?_alter_eq m a n _
  | setComment a comment => exact getElem?_alter_eq m a n _
  | dropRole a => exact getElem?_erase_eq m a n
  | _ => rfl

theorem foldl_rolesStep_diffResolved (m : BTreeMap String RoleState) :
    (diffResolved current desired).foldl rolesStep m =
      (roleCreates current desired ++ roleAlters current desired ++
        roleDrops current desired).foldl rolesStep m := by
  let q : Phase → Bool := fun p => p == .createRole || p == .alterRole || p == .dropRole
  rw [foldl_eq_foldl_filter (q := fun c => q c.phase), filter_phase_diffResolved q]
  · simp [q]
  · intro m c hc
    cases c <;> first | rfl | (simp [q, Change.phase] at hc)

theorem foldl_roleAct_roleCreates (n : String) (o : Option RoleState) :
    (roleCreates current desired).foldl (roleAct n) o =
      match desired.roles[n]? with
      | none => o
      | some s => if n ∈ current.roles then o else some s := by
  rw [roleCreates, foldl_flatMap_toList desired.roles n]
  · cases desired.roles[n]? with
    | none => rfl
    | some s => by_cases h : n ∈ current.roles <;> simp [h, roleAct]
  · intro e _ hne c hc o
    split at hc
    · simp at hc
    · rw [List.mem_singleton.1 hc]
      exact if_neg hne

theorem foldl_roleAct_roleDrops (n : String) (o : Option RoleState) :
    (roleDrops current desired).foldl (roleAct n) o =
      if n ∈ current.roles ∧ n ∉ desired.roles then none else o := by
  rw [roleDrops, foldl_flatMap_toList current.roles n]
  · cases hc : current.roles[n]? with
    | none => simp [not_mem_iff_getElem?.2 hc]
    | some s =>
        have hin := mem_iff_exists_getElem?.2 ⟨s, hc⟩
        by_cases h : n ∈ desired.roles <;> simp [h, hin, roleAct]
  · intro e _ hne c hc o
    split at hc
    · simp at hc
    · rw [List.mem_singleton.1 hc]
      exact if_neg hne

/-- A role after the alterations. -/
theorem foldl_roleAct_roleAlters (n : String) (o : Option RoleState) :
    (roleAlters current desired).foldl (roleAct n) o =
      match desired.roles[n]?, current.roles[n]? with
      | none, _ => o
      | some s, none =>
          if s.config.isEmpty then o else o.map (applyAttributes · (createdConfig s))
      | some s, some t =>
          (o.map (applyAttributes · (t.changedAttributes s))).map fun u =>
            if t.comment = s.comment then u else { u with comment := s.comment } := by
  rw [roleAlters, foldl_flatMap_toList desired.roles n]
  · cases desired.roles[n]? with
    | none => rfl
    | some s =>
        cases ht : current.roles[n]? with
        | none =>
            cases he : s.config.isEmpty <;> simp only [ht, he] <;> simp [roleAct, createdConfig]
        | some t =>
            by_cases ha : t.changedAttributes s = [] <;> by_cases hc : t.comment = s.comment <;>
              cases o <;> simp [ht, ha, hc, roleAct, applyAttributes]
  · rintro ⟨m, s⟩ - hne c hc o
    simp only at hc
    split at hc
    · split at hc
      · simp at hc
      · rw [List.mem_singleton.1 hc]
        exact if_neg hne
    · rcases List.mem_append.1 hc with hc | hc <;> split at hc <;> simp at hc <;> rw [hc] <;>
        exact if_neg hne

/-- Executing a plan gives the desired roles, with every attribute, comment and setting. -/
theorem foldl_rolesStep_eq :
    (diffResolved current desired).foldl rolesStep current.roles = desired.roles := by
  refine ExtTreeMap.ext_getElem? fun n => ?_
  rw [foldl_rolesStep_diffResolved,
    getElem?_foldl_of_pointwise (fun m c k => getElem?_rolesStep m c k), List.foldl_append,
    List.foldl_append, foldl_roleAct_roleCreates, foldl_roleAct_roleAlters,
    foldl_roleAct_roleDrops]
  cases hd : desired.roles[n]? with
  | none =>
      have hno := not_mem_iff_getElem?.2 hd
      by_cases hc : n ∈ current.roles <;> simp [hno, hc]
  | some s =>
      have hin := mem_iff_exists_getElem?.2 ⟨s, hd⟩
      cases hc : current.roles[n]? with
      | none =>
          have hno := not_mem_iff_getElem?.2 hc
          simp [hin, hno, applyAttributes_createdConfig]
      | some t =>
          have hcur := mem_iff_exists_getElem?.2 ⟨t, hc⟩
          by_cases hcomment : t.comment = s.comment
          · simp [hin, hcur, applyAttributes_changedAttributes, hcomment]
          · simp [hin, hcur, applyAttributes_changedAttributes, hcomment]

/-! ## Schemas -/

/-- The effect of a change on one schema. -/
def schemaAct (n : String) (o : Option SchemaState) : Change → Option SchemaState
  | .createSchema m owner =>
      if m = n then some ⟨owner, owner.elim ∅ defaultSchemaOwnerPrivileges⟩ else o
  | .alterSchemaOwner m owner => if m = n then some ⟨some owner, {.create, .usage}⟩ else o
  | .ensureSchemaOwnerPrivileges m _ privileges =>
      if m = n then o.map fun s => { s with ownerPrivileges := s.ownerPrivileges ∪ privileges }
      else o
  | _ => o

theorem getElem?_schemasStep (m : BTreeMap String SchemaState) (c : Change) (n : String) :
    (schemasStep m c)[n]? = schemaAct n m[n]? c := by
  cases c with
  | createSchema a owner => exact getElem?_insert_eq m a n _
  | alterSchemaOwner a owner => exact getElem?_insert_eq m a n _
  | ensureSchemaOwnerPrivileges a owner privileges => exact getElem?_alter_eq m a n _
  | _ => rfl

theorem foldl_schemasStep_diffResolved (m : BTreeMap String SchemaState) :
    (diffResolved current desired).foldl schemasStep m =
      (schemaChanges current desired ++ schemaGrants current desired).foldl schemasStep m := by
  let q : Phase → Bool := fun p => p == .schema || p == .ownerPrivileges
  rw [foldl_eq_foldl_filter (q := fun c => q c.phase), filter_phase_diffResolved q]
  · simp [q]
  · intro m c hc
    cases c <;> first | rfl | (simp [q, Change.phase] at hc)

/-- The state a plan brings a desired schema to. -/
def convergedSchema (t : Option SchemaState) (d : SchemaState) : SchemaState :=
  match t, d.owner with
  | none, owner => ⟨owner, owner.elim ∅ defaultSchemaOwnerPrivileges⟩
  | some t, none => t
  | some t, some o =>
      ⟨some o, (if t.owner = some o then t.ownerPrivileges else ∅) ∪
        defaultSchemaOwnerPrivileges o⟩

/-- A schema after the creations and the transfers. -/
theorem foldl_schemaAct_schemaChanges (n : String) (o : Option SchemaState) :
    (schemaChanges current desired).foldl (schemaAct n) o =
      match desired.schemas[n]?, current.schemas[n]? with
      | none, _ => o
      | some d, none => some (convergedSchema none d)
      | some d, some t =>
          match d.owner with
          | none => o
          | some owner =>
              if t.owner = some owner then o else some ⟨some owner, {.create, .usage}⟩ := by
  rw [schemaChanges, foldl_flatMap_toList desired.schemas n]
  · cases desired.schemas[n]? with
    | none => rfl
    | some d =>
        cases ht : current.schemas[n]? with
        | none => simp [ht, schemaAct, convergedSchema]
        | some t =>
            cases ho : d.owner with
            | none => by_cases h : t.owner = none <;> simp [ht, ho, h]
            | some owner => by_cases h : t.owner = some owner <;> simp [ht, ho, h, schemaAct]
  · rintro ⟨m, d⟩ - hne c hc o
    simp only at hc
    split at hc
    · rw [List.mem_singleton.1 hc]
      exact if_neg hne
    · split at hc
      · simp at hc
      · split at hc
        · simp at hc
        · rw [List.mem_singleton.1 hc]
          exact if_neg hne

/-- A schema after its owner's privileges are restored. -/
theorem foldl_schemaAct_schemaGrants (n : String) (o : Option SchemaState) :
    (schemaGrants current desired).foldl (schemaAct n) o =
      match desired.schemas[n]?, current.schemas[n]? with
      | some d, some t =>
          match d.owner with
          | none => o
          | some owner => o.map fun s =>
              { s with ownerPrivileges := s.ownerPrivileges ∪ missingOwnerPrivileges t owner }
      | _, _ => o := by
  rw [schemaGrants, foldl_flatMap_toList desired.schemas n]
  · cases desired.schemas[n]? with
    | none => rfl
    | some d =>
        cases ho : d.owner with
        | none => cases current.schemas[n]? <;> simp [ho]
        | some owner =>
            cases ht : current.schemas[n]? with
            | none => simp [ho, ht]
            | some t =>
                by_cases h : missingOwnerPrivileges t owner = ∅
                · have h' := h
                  unfold missingOwnerPrivileges at h'
                  cases o <;> simp [ho, ht, h, h']
                · have h' := h
                  unfold missingOwnerPrivileges at h'
                  simp [ho, ht, h', schemaAct, missingOwnerPrivileges]
  · rintro ⟨m, d⟩ - hne c hc o
    simp only at hc
    split at hc
    · split_ifs at hc
      · simp at hc
      · rw [List.mem_singleton.1 hc]
        exact if_neg hne
      · simp at hc
      · rw [List.mem_singleton.1 hc]
        exact if_neg hne
    · simp at hc

/-- Executing a plan brings every desired schema to its converged state and leaves the others. -/
theorem getElem?_foldl_schemasStep (n : String) :
    ((diffResolved current desired).foldl schemasStep current.schemas)[n]? =
      match desired.schemas[n]? with
      | none => current.schemas[n]?
      | some d => some (convergedSchema current.schemas[n]? d) := by
  rw [foldl_schemasStep_diffResolved,
    getElem?_foldl_of_pointwise (fun m c k => getElem?_schemasStep m c k), List.foldl_append,
    foldl_schemaAct_schemaChanges, foldl_schemaAct_schemaGrants]
  cases desired.schemas[n]? with
  | none => rfl
  | some d =>
      cases current.schemas[n]? with
      | none => rfl
      | some t =>
          cases ho : d.owner with
          | none => simp [ho, convergedSchema]
          | some owner =>
              by_cases h : t.owner = some owner
              · simp [ho, h, convergedSchema, missingOwnerPrivileges]
              · have hdefault : ({.create, .usage} : Finset Privilege) =
                    defaultSchemaOwnerPrivileges owner := rfl
                simp [ho, h, convergedSchema, missingOwnerPrivileges, hdefault]

/-! ## Default privileges -/

theorem foldl_defaultsStep_diffResolved (m : BTreeMap DefaultPrivKey (Finset Privilege)) :
    (diffResolved current desired).foldl defaultsStep m =
      (defaultRevokes current desired).foldl defaultsStep
        ((defaultSets current desired).foldl defaultsStep m) := by
  let q : Phase → Bool := fun p => p == .setDefault || p == .revokeDefault
  rw [foldl_eq_foldl_filter (q := fun c => q c.phase), filter_phase_diffResolved q]
  · simp [q]
  · intro m c hc
    cases c <;> first | rfl | (simp [q, Change.phase] at hc)

variable {p : Privilege}

/-- The default privileges after those that are set. -/
theorem mem_foldl_defaultSets {d : DefaultPrivKey} :
    p ∈ entryAt ((defaultSets current desired).foldl defaultsStep current.defaultPrivileges) d ↔
      p ∈ entryAt current.defaultPrivileges d ∨ p ∈ entryAt desired.defaultPrivileges d := by
  rw [holds_foldl_of_adds (fun m => p ∈ entryAt m d)
    (fun c => ∃ s, c = .setDefaultPrivilege d s ∧ p ∈ s)]
  · constructor
    · rintro (h | ⟨c, hc, s, rfl, hp⟩)
      · exact Or.inl h
      · obtain ⟨k, s', hk, -, heq⟩ := mem_defaultSets.1 hc
        obtain ⟨rfl, rfl⟩ := Change.setDefaultPrivilege.inj heq
        rw [entryAt_of_getElem? hk]
        exact Or.inr (Finset.mem_sdiff.1 hp).1
    · rintro (h | h)
      · exact Or.inl h
      · by_cases hcur : p ∈ entryAt current.defaultPrivileges d
        · exact Or.inl hcur
        · have hp := Finset.mem_sdiff.2 ⟨h, hcur⟩
          refine Or.inr ⟨_, mem_defaultSets.2 ⟨d, _, getElem?_of_mem_entryAt h, ?_, rfl⟩, _, rfl, hp⟩
          exact Or.inr (Finset.ne_empty_of_mem hp)
  · intro m c hc
    obtain ⟨k, s, -, -, rfl⟩ := mem_defaultSets.1 hc
    simp [defaultsStep, mem_entryAt_extendEntry]

/-- What a plan leaves under a default-privilege rule. -/
theorem mem_foldl_defaultsStep {d : DefaultPrivKey} :
    p ∈ entryAt ((diffResolved current desired).foldl defaultsStep current.defaultPrivileges) d ↔
      (p ∈ entryAt current.defaultPrivileges d ∨ p ∈ entryAt desired.defaultPrivileges d) ∧
        p ∉ entryAt (accumulatedDefaultRevokes current desired) d := by
  rw [foldl_defaultsStep_diffResolved, holds_foldl_of_removes (fun m => p ∈ entryAt m d)
    (fun c => ∃ s, c = .revokeDefaultPrivilege d s ∧ p ∈ s), mem_foldl_defaultSets]
  · refine and_congr_right fun _ => ?_
    constructor
    · intro h hp
      exact h _ (mem_defaultRevokes.2 ⟨d, _, getElem?_of_mem_entryAt hp, rfl⟩) ⟨_, rfl, hp⟩
    · rintro h c hc ⟨s, rfl, hp⟩
      obtain ⟨k, s', hk, heq⟩ := mem_defaultRevokes.1 hc
      obtain ⟨rfl, rfl⟩ := Change.revokeDefaultPrivilege.inj heq
      rw [entryAt_of_getElem? hk] at h
      exact h hp
  · intro m c hc
    obtain ⟨k, s, -, rfl⟩ := mem_defaultRevokes.1 hc
    simp [defaultsStep, mem_entryAt_shrinkEntry]

/-- A rule that neither graph has is not there afterwards. -/
theorem getElem?_foldl_defaultsStep_eq_none {d : DefaultPrivKey}
    (hc : current.defaultPrivileges[d]? = none) (hd : desired.defaultPrivileges[d]? = none) :
    ((diffResolved current desired).foldl defaultsStep current.defaultPrivileges)[d]? = none := by
  rw [foldl_defaultsStep_diffResolved]
  refine foldl_invariant (fun m => m[d]? = none) (fun m hm c hmem => ?_) ?_
  · obtain ⟨k, s, -, rfl⟩ := mem_defaultRevokes.1 hmem
    rw [defaultsStep, getElem?_shrinkEntry, hm]
    split <;> rfl
  · refine foldl_invariant (fun m => m[d]? = none) (fun m hm c hmem => ?_) hc
    obtain ⟨k, s, hk, -, rfl⟩ := mem_defaultSets.1 hmem
    have hne : k ≠ d := by
      rintro rfl
      rw [hd] at hk
      cases hk
    rw [defaultsStep, getElem?_extendEntry, if_neg hne, hm]

/-- An undeclared rule of an ordinary grantee is not there afterwards. -/
theorem getElem?_foldl_defaultsStep_of_undeclared {d : DefaultPrivKey}
    (hd : desired.defaultPrivileges[d]? = none) (hpub : d.grantee.isPublic = false) :
    ((diffResolved current desired).foldl defaultsStep current.defaultPrivileges)[d]? = none := by
  cases hc : current.defaultPrivileges[d]? with
  | none => exact getElem?_foldl_defaultsStep_eq_none hc hd
  | some held =>
      refine getElem?_eq_none_of_entryAt ?_ ?_
      · -- The rule is revoked, and an emptied rule is dropped.
        rw [foldl_defaultsStep_diffResolved]
        have hsome : (accumulatedDefaultRevokes current desired)[d]?.isSome :=
          isSome_accumulatedDefaultRevokes.2 (Or.inr ⟨hd, by simp [hc], hpub⟩)
        obtain ⟨s, hs⟩ := Option.isSome_iff_exists.1 hsome
        have hset : ∀ m, ∀ c ∈ defaultRevokes current desired,
            (∃ t, c = .revokeDefaultPrivilege d t) → ((defaultsStep m c)[d]? = some ∅ ↔ False) := by
          rintro m c - ⟨t, rfl⟩
          exact iff_of_false (shrinkEntry_ne_empty m d t) id
        have hkeep : ∀ m, ∀ c ∈ defaultRevokes current desired,
            ¬ (∃ t, c = .revokeDefaultPrivilege d t) →
              ((defaultsStep m c)[d]? = some ∅ ↔ m[d]? = some ∅) := by
          intro m c hmem hno
          obtain ⟨k, t, -, rfl⟩ := mem_defaultRevokes.1 hmem
          have hne : k ≠ d := by
            rintro rfl
            exact hno ⟨t, rfl⟩
          rw [defaultsStep, getElem?_shrinkEntry, if_neg hne]
        exact ((holds_foldl_of_sets (fun m => m[d]? = some ∅) _ False hset hkeep _).1
          ⟨_, mem_defaultRevokes.2 ⟨d, s, hs, rfl⟩, s, rfl⟩).1
      · refine Finset.eq_empty_of_forall_notMem fun p hp => ?_
        obtain ⟨hheld, hno⟩ := mem_foldl_defaultsStep.1 hp
        rw [entryAt_of_getElem?_none hd] at hheld
        have hcur := hheld.resolve_right (Finset.notMem_empty p)
        refine hno (mem_accumulatedDefaultRevokes.2 (Or.inl ⟨hpub, hcur, ?_⟩))
        rw [entryAt_of_getElem?_none hd]
        exact Finset.notMem_empty p

/-! ## Object privileges -/

theorem foldl_grantsStep_diffResolved (m : BTreeMap GrantKey (Finset Privilege)) :
    (diffResolved current desired).foldl grantsStep m =
      (plannedRevokes current desired).foldl grantsStep
        ((grantChanges current desired).foldl grantsStep
          ((schemaChanges current desired).foldl grantsStep m)) := by
  let q : Phase → Bool := fun p => p == .schema || p == .grant || p == .revoke
  rw [foldl_eq_foldl_filter (q := fun c => q c.phase), filter_phase_diffResolved q]
  · simp [q]
  · intro m c hc
    cases c <;> first | rfl | (simp [q, Change.phase] at hc)

/-- Object names are concrete: no grant or absence names a wildcard. -/
structure ConcreteNames (current desired : RoleGraph) : Prop where
  current_grants : ∀ (k : GrantKey) s, current.grants[k]? = some s → k.isWildcard = false
  desired_grants : ∀ (k : GrantKey) s, desired.grants[k]? = some s → k.isWildcard = false
  desired_absences : ∀ (k : GrantKey) s, desired.grantAbsences[k]? = some s → k.isWildcard = false

/-- An owner transfer of the plan absorbs the entry. -/
def AbsorbedEntry (current desired : RoleGraph) (k : GrantKey) : Prop :=
  ∃ n o, .alterSchemaOwner n o ∈ schemaChanges current desired ∧ k = ownerEntry n o

/-- The plan makes the key's grantee owner of the schema the key names. -/
def IncomingOwnerKey (current desired : RoleGraph) (k : GrantKey) : Prop :=
  k.objectType = .schema ∧ ∃ n, k.name = some n ∧
    .alterSchemaOwner n k.role.asStr ∈ schemaChanges current desired

theorem mem_plannedRevokes {k : GrantKey} {s : Finset Privilege} {g : Option String} :
    .revoke k s g ∈ plannedRevokes current desired ↔
      .revoke k s g ∈ revokeChanges current desired ∧ ¬ IncomingOwnerKey current desired k := by
  rw [plannedRevokes, List.mem_filter]
  refine and_congr_right fun _ => ?_
  obtain ⟨role, objectType, schema, name⟩ := k
  cases objectType <;> cases name <;> simp [revokesIncomingOwner, IncomingOwnerKey]

theorem revokes_plannedRevokes {k : GrantKey} :
    Revokes (plannedRevokes current desired) k p ↔
      Revokes (revokeChanges current desired) k p ∧ ¬ IncomingOwnerKey current desired k := by
  unfold Revokes
  simp only [mem_plannedRevokes]
  constructor
  · rintro ⟨s, g, ⟨hmem, hno⟩, hp⟩
    exact ⟨⟨s, g, hmem, hp⟩, hno⟩
  · rintro ⟨⟨s, g, hmem, hp⟩, hno⟩
    exact ⟨s, g, ⟨hmem, hno⟩, hp⟩

namespace ConcreteNames

variable (h : ConcreteNames current desired)

include h

theorem accumulatedRevokes_concrete {k : GrantKey}
    (hp : p ∈ entryAt (accumulatedRevokes current desired) k) : k.isWildcard = false := by
  rcases mem_accumulatedRevokes.1 hp with ⟨-, -, hp⟩ | ⟨hp, -⟩
  · have hheld := (Finset.mem_sdiff.1 (shadowFilter_subset hp)).1
    exact h.current_grants k _ (getElem?_of_mem_entryAt hheld)
  · exact h.desired_absences k _ (getElem?_of_mem_entryAt hp)

theorem revoke_concrete {k : GrantKey} {s : Finset Privilege} {g : Option String}
    (hmem : .revoke k s g ∈ revokeChanges current desired) : k.isWildcard = false := by
  obtain ⟨w, t, hw, hc⟩ := mem_flatMap_toList.1 hmem
  obtain ⟨q, hq⟩ := Finset.nonempty_iff_ne_empty.2 (accumulatedRevokes_nonempty hw)
  rw [← entryAt_of_getElem? hw] at hq
  obtain ⟨a, u, g', heq, -, hor⟩ := mem_pushRevokesSplitByGrantor hc
  obtain ⟨rfl, -, -⟩ := Change.revoke.inj heq
  rcases hor with ⟨-, rfl⟩ | ⟨-, -, hconcrete, -⟩
  · exact h.accumulatedRevokes_concrete hq
  · exact hconcrete

theorem not_mem_absenceWildcard {k : GrantKey} : p ∉ absenceWildcard desired k := by
  unfold absenceWildcard
  split
  · intro hp
    have hno := h.desired_absences _ _ (getElem?_of_mem_entryAt hp)
    rw [GrantKey.isWildcard_wildcard] at hno
    cases hno
  · exact Finset.notMem_empty p

theorem not_mem_desiredWildcard {k : GrantKey} : p ∉ desiredWildcard desired k := by
  unfold desiredWildcard
  split
  · intro hp
    have hno := h.desired_grants _ _ (getElem?_of_mem_entryAt hp)
    rw [GrantKey.isWildcard_wildcard] at hno
    cases hno
  · exact Finset.notMem_empty p

/-- What is revoked on a target: an ordinary grantee's excess, and what is asserted absent. -/
theorem revokes_revokeChanges_iff {k : GrantKey} (hk : k.isWildcard = false) :
    Revokes (revokeChanges current desired) k p ↔
      k ∉ current.inherentGrants ∧ p ∈ entryAt current.grants k ∧
        (p ∈ entryAt desired.grantAbsences k ∨
          (k.role.isPublic = false ∧ p ∉ entryAt desired.grants k)) := by
  have hwild : ¬ ReachedByWildcard current desired k p := by
    rintro ⟨-, hp, -⟩
    have hno := h.accumulatedRevokes_concrete hp
    rw [GrantKey.isWildcard_wildcard] at hno
    cases hno
  rw [revokes_revokeChanges hk, mem_accumulatedRevokes, mem_shadowFilter hk,
    mem_heldForAbsence_of_concrete hk, Finset.mem_sdiff]
  have habs : p ∉ absenceWildcard desired k := h.not_mem_absenceWildcard
  have hdes : p ∉ desiredWildcard desired k := h.not_mem_desiredWildcard
  tauto

/-- The grants after the revokes. -/
theorem mem_foldl_plannedRevokes {k : GrantKey} (m : BTreeMap GrantKey (Finset Privilege)) :
    p ∈ entryAt ((plannedRevokes current desired).foldl grantsStep m) k ↔
      p ∈ entryAt m k ∧ ¬ Revokes (plannedRevokes current desired) k p := by
  rw [holds_foldl_of_removes (fun m => p ∈ entryAt m k)
    (fun c => ∃ s g, c = .revoke k s g ∧ p ∈ s)]
  · refine and_congr_right fun _ => ?_
    constructor
    · rintro hno ⟨s, g, hmem, hp⟩
      exact hno _ hmem ⟨s, g, rfl, hp⟩
    · rintro hno c hc ⟨s, g, rfl, hp⟩
      exact hno ⟨s, g, hc, hp⟩
  · intro m c hc
    have hphase := phase_of_mem_plannedRevokes hc
    cases c with
    | revoke a s g =>
        have ha := h.revoke_concrete (mem_plannedRevokes.1 hc).1
        rw [grantsStep, affectedKeys, if_neg (by simp [ha])]
        simp [mem_entryAt_shrinkEntry]
    | _ => cases hphase

end ConcreteNames

/-- The grants after those that are added. -/
theorem mem_foldl_grantChanges {k : GrantKey} (m : BTreeMap GrantKey (Finset Privilege)) :
    p ∈ entryAt ((grantChanges current desired).foldl grantsStep m) k ↔
      p ∈ entryAt m k ∨ (p ∈ entryAt desired.grants k ∧ p ∉ entryAt current.grants k) := by
  rw [holds_foldl_of_adds (fun m => p ∈ entryAt m k) (fun c => ∃ s, c = .grant k s ∧ p ∈ s)]
  · refine or_congr_right ?_
    constructor
    · rintro ⟨c, hc, s, rfl, hp⟩
      obtain ⟨a, s', ha, -, heq⟩ := mem_grantChanges.1 hc
      obtain ⟨rfl, rfl⟩ := Change.grant.inj heq
      rw [entryAt_of_getElem? ha]
      exact Finset.mem_sdiff.1 hp
    · rintro ⟨hd, hc⟩
      have hp := Finset.mem_sdiff.2 ⟨hd, hc⟩
      refine ⟨_, mem_grantChanges.2 ⟨k, _, getElem?_of_mem_entryAt hd, ?_, rfl⟩, _, rfl, hp⟩
      exact Or.inr (Finset.ne_empty_of_mem hp)
  · intro m c hc
    obtain ⟨a, s, -, -, rfl⟩ := mem_grantChanges.1 hc
    simp [grantsStep, mem_entryAt_extendEntry]

/-- The grants after the transfers, which take the new owners' entries. -/
theorem mem_foldl_schemaChanges {k : GrantKey} (m : BTreeMap GrantKey (Finset Privilege)) :
    p ∈ entryAt ((schemaChanges current desired).foldl grantsStep m) k ↔
      p ∈ entryAt m k ∧ ¬ AbsorbedEntry current desired k := by
  rw [holds_foldl_of_removes (fun m => p ∈ entryAt m k)
    (fun c => ∃ n o, c = .alterSchemaOwner n o ∧ k = ownerEntry n o)]
  · refine and_congr_right fun _ => ?_
    constructor
    · rintro hno ⟨n, o, hmem, hk⟩
      exact hno _ hmem ⟨n, o, rfl, hk⟩
    · rintro hno c hc ⟨n, o, rfl, hk⟩
      exact hno ⟨n, o, hc, hk⟩
  · intro m c hc
    obtain ⟨n, d, -, ⟨-, rfl⟩ | ⟨t, o, -, -, -, rfl⟩⟩ := mem_schemaChanges.1 hc
    · simp [grantsStep]
    · rw [grantsStep, entryAt, getElem?_erase_eq]
      by_cases hk : ownerEntry n o = k
      · simp [hk]
      · have hk' : k ≠ ownerEntry n o := fun heq => hk heq.symm
        simp [hk, hk', entryAt]

/-- What a plan leaves under a grant key: what was held or granted, and not revoked. -/
theorem mem_foldl_grantsStep (h : ConcreteNames current desired) {k : GrantKey} :
    p ∈ entryAt ((diffResolved current desired).foldl grantsStep current.grants) k ↔
      ((p ∈ entryAt current.grants k ∧ ¬ AbsorbedEntry current desired k) ∨
        (p ∈ entryAt desired.grants k ∧ p ∉ entryAt current.grants k)) ∧
      ¬ Revokes (plannedRevokes current desired) k p := by
  rw [foldl_grantsStep_diffResolved, h.mem_foldl_plannedRevokes, mem_foldl_grantChanges,
    mem_foldl_schemaChanges]

/-- Non-empty privilege sets stay non-empty along a plan. -/
theorem noEmptyEntries_foldl_grantsStep (hc : NoEmptyEntries current.grants)
    (hd : NoEmptyEntries desired.grants) :
    NoEmptyEntries ((diffResolved current desired).foldl grantsStep current.grants) := by
  rw [foldl_grantsStep_diffResolved]
  refine foldl_invariant NoEmptyEntries (fun m hm c hmem => ?_)
    (foldl_invariant NoEmptyEntries (fun m hm c hmem => ?_)
      (foldl_invariant NoEmptyEntries (fun m hm c hmem => ?_) hc))
  · have hphase := phase_of_mem_plannedRevokes hmem
    cases c with
    | revoke k s g => exact foldl_invariant NoEmptyEntries (fun m hm k _ => hm.shrinkEntry) hm
    | _ => cases hphase
  · obtain ⟨k, s, hk, hor, rfl⟩ := mem_grantChanges.1 hmem
    refine hm.extendEntry ?_
    rcases hor with hnone | hne
    · rw [entryAt_of_getElem?_none hnone, Finset.sdiff_empty]
      rintro rfl
      exact hd k hk
    · exact hne
  · obtain ⟨n, d, -, ⟨-, rfl⟩ | ⟨t, o, -, -, -, rfl⟩⟩ := mem_schemaChanges.1 hmem
    · exact hm
    · intro k
      rw [grantsStep, getElem?_erase_eq]
      split
      · simp
      · exact hm k

/-- No entry of the default privileges is left empty. -/
theorem noEmptyEntries_foldl_defaultsStep (hc : NoEmptyEntries current.defaultPrivileges)
    (hd : NoEmptyEntries desired.defaultPrivileges) :
    NoEmptyEntries
      ((diffResolved current desired).foldl defaultsStep current.defaultPrivileges) := by
  rw [foldl_defaultsStep_diffResolved]
  refine foldl_invariant NoEmptyEntries (fun m hm c hmem => ?_)
    (foldl_invariant NoEmptyEntries (fun m hm c hmem => ?_) hc)
  · obtain ⟨k, s, -, rfl⟩ := mem_defaultRevokes.1 hmem
    exact hm.shrinkEntry
  · obtain ⟨k, s, hk, hor, rfl⟩ := mem_defaultSets.1 hmem
    refine hm.extendEntry ?_
    rcases hor with hnone | hne
    · rw [entryAt_of_getElem?_none hnone, Finset.sdiff_empty]
      rintro rfl
      exact hd k hk
    · exact hne

/-! ## Memberships -/

theorem foldl_membershipsStep_diffResolved (m : BTreeSet MembershipEdge) :
    (diffResolved current desired).foldl membershipsStep m =
      (memberAdds current desired).foldl membershipsStep
        ((memberRemoves current desired).foldl membershipsStep m) := by
  let q : Phase → Bool := fun p => p == .membership
  rw [foldl_eq_foldl_filter (q := fun c => q c.phase), filter_phase_diffResolved q]
  · simp [q]
  · intro m c hc
    cases c <;> first | rfl | (simp [q, Change.phase] at hc)

/-- Memberships without grantor records, at most one edge per pair. -/
structure PlainMemberships (current desired : RoleGraph) : Prop where
  no_grantors : ∀ pair : String × String, recordedGrantors current pair = none
  current_edges : OneEdgePerPair current.memberships
  desired_edges : OneEdgePerPair desired.memberships

theorem mem_retainOthers {edges : BTreeSet MembershipEdge} {role member : String}
    {e : MembershipEdge} :
    e ∈ retainOthers edges role member ↔ e ∈ edges ∧ e.pair ≠ (role, member) := by
  rw [retainOthers, mem_filter_iff, MembershipEdge.pair, ne_eq, Prod.mk.injEq]
  simp [imp_iff_not_or]

theorem eq_of_sameOptions {a b : MembershipEdge} (hpair : a.pair = b.pair)
    (hsame : sameOptions a b = true) : a = b := by
  obtain ⟨r, m, i, d⟩ := a
  obtain ⟨r', m', i', d'⟩ := b
  simp only [MembershipEdge.pair, Prod.mk.injEq] at hpair
  simp only [sameOptions, Bool.and_eq_true, beq_iff_eq] at hsame
  obtain ⟨rfl, rfl⟩ := hpair
  obtain ⟨rfl, rfl⟩ := hsame
  rfl

namespace PlainMemberships

variable (h : PlainMemberships current desired) {e : MembershipEdge} {c : Change}

include h

/-- Every removal is a plain one, of a pair whose current edge is not the desired one. -/
theorem mem_memberRemoves_iff :
    c ∈ memberRemoves current desired ↔
      ∃ a ∈ current.memberships, a ∉ desired.memberships ∧ c = .removeMember a.role a.member none := by
  rw [mem_memberRemoves]
  constructor
  · rintro (⟨pair, d, hd, hc⟩ | ⟨pair, a, ha, hd, hc⟩)
    · obtain ⟨a, ha, hsame, ⟨-, rfl⟩ | ⟨g, hg, -⟩⟩ := mem_pairRemoves.1 hc
      · obtain ⟨hamem, rfl⟩ := of_membershipMap_eq_some ha
        obtain ⟨hdmem, hpair⟩ := of_membershipMap_eq_some hd
        refine ⟨a, hamem, fun hin => ?_, rfl⟩
        obtain rfl := h.desired_edges d hdmem a hin hpair
        simp [sameOptions] at hsame
      · rw [h.no_grantors] at hg
        cases hg
    · obtain ⟨hamem, rfl⟩ := of_membershipMap_eq_some ha
      rcases mem_removeAllEdges.1 hc with ⟨-, rfl⟩ | ⟨g, _, hg, -⟩
      · refine ⟨a, hamem, fun hin => ?_, rfl⟩
        rw [h.desired_edges.membershipMap_eq_some_iff.2 ⟨hin, rfl⟩] at hd
        cases hd
      · rw [h.no_grantors] at hg
        cases hg
  · rintro ⟨a, ha, hno, rfl⟩
    have hcur := h.current_edges.membershipMap_eq_some_iff.2 ⟨ha, rfl⟩
    cases hd : (membershipMap desired.memberships)[a.pair]? with
    | none =>
        refine Or.inr ⟨a.pair, a, hcur, hd, mem_removeAllEdges.2 (Or.inl ⟨h.no_grantors _, rfl⟩)⟩
    | some d =>
        refine Or.inl ⟨a.pair, d, hd, mem_pairRemoves.2
          ⟨a, hcur, ?_, Or.inl ⟨h.no_grantors _, rfl⟩⟩⟩
        obtain ⟨hdmem, hpair⟩ := of_membershipMap_eq_some hd
        rw [← Bool.not_eq_true]
        intro hsame
        rw [eq_of_sameOptions hpair.symm hsame] at hno
        exact hno hdmem

/-- Every addition is of a desired edge that is not a current one. -/
theorem mem_memberAdds_iff :
    c ∈ memberAdds current desired ↔
      ∃ d ∈ desired.memberships, d ∉ current.memberships ∧ c = addMemberOf d := by
  rw [mem_memberAdds]
  constructor
  · rintro ⟨pair, d, hd, hc⟩
    obtain ⟨hdmem, rfl⟩ := of_membershipMap_eq_some hd
    rcases mem_pairAdds.1 hc with ⟨hnone, rfl⟩ | ⟨a, ha, hsame, ⟨-, rfl⟩ | ⟨g, hg, -⟩⟩
    · refine ⟨d, hdmem, fun hin => ?_, rfl⟩
      rw [h.current_edges.membershipMap_eq_some_iff.2 ⟨hin, rfl⟩] at hnone
      cases hnone
    · refine ⟨d, hdmem, fun hin => ?_, rfl⟩
      rw [h.current_edges.membershipMap_eq_some_iff.2 ⟨hin, rfl⟩] at ha
      obtain rfl := Option.some.inj ha
      simp [sameOptions] at hsame
    · rw [h.no_grantors] at hg
      cases hg
  · rintro ⟨d, hd, hno, rfl⟩
    refine ⟨d.pair, d, h.desired_edges.membershipMap_eq_some_iff.2 ⟨hd, rfl⟩, mem_pairAdds.2 ?_⟩
    cases ha : (membershipMap current.memberships)[d.pair]? with
    | none => exact Or.inl ⟨rfl, rfl⟩
    | some a =>
        refine Or.inr ⟨a, rfl, ?_, Or.inl ⟨h.no_grantors _, rfl⟩⟩
        obtain ⟨hamem, hpair⟩ := of_membershipMap_eq_some ha
        rw [← Bool.not_eq_true]
        intro hsame
        rw [← eq_of_sameOptions hpair hsame] at hno
        exact hno hamem

/-- After the removals the edges are those that are there and desired. -/
theorem mem_foldl_memberRemoves :
    e ∈ (memberRemoves current desired).foldl membershipsStep current.memberships ↔
      e ∈ current.memberships ∧ e ∈ desired.memberships := by
  rw [holds_foldl_of_removes (fun m => e ∈ m) (fun c => ∃ g, c = .removeMember e.role e.member g)]
  · refine and_congr_right fun he => ?_
    constructor
    · intro hno
      by_contra hnot
      exact hno _ (h.mem_memberRemoves_iff.2 ⟨e, he, hnot, rfl⟩) ⟨none, rfl⟩
    · rintro hin c hc ⟨g, rfl⟩
      obtain ⟨a, ha, hno, heq⟩ := h.mem_memberRemoves_iff.1 hc
      obtain ⟨hr, hm, -⟩ := Change.removeMember.inj heq
      have hae : e = a := h.current_edges e he a ha (by rw [MembershipEdge.pair, hr, hm]; rfl)
      exact hno (hae ▸ hin)
  · intro m c hc
    obtain ⟨a, -, -, rfl⟩ := h.mem_memberRemoves_iff.1 hc
    rw [membershipsStep, mem_retainOthers]
    simp [MembershipEdge.pair, eq_comm]

/-- Executing a plan gives the desired memberships. -/
theorem foldl_membershipsStep_eq :
    (diffResolved current desired).foldl membershipsStep current.memberships =
      desired.memberships := by
  refine ExtTreeSet.ext_mem fun e => ?_
  rw [foldl_membershipsStep_diffResolved]
  have hset : ∀ m, ∀ c ∈ memberAdds current desired,
      (∃ i a, c = .addMember e.role e.member i a) →
        (e ∈ membershipsStep m c ↔ e ∈ desired.memberships) := by
    rintro m c hc ⟨i, a, rfl⟩
    obtain ⟨d, hd, -, heq⟩ := h.mem_memberAdds_iff.1 hc
    obtain ⟨hr, hm, rfl, rfl⟩ := Change.addMember.inj heq
    have hpair : d.pair = e.pair := by rw [MembershipEdge.pair, ← hr, ← hm]; rfl
    rw [membershipsStep, mem_insert_iff, mem_retainOthers]
    constructor
    · rintro (hin | ⟨-, hne⟩)
      · rw [← hin, hr, hm]
        exact hd
      · exact absurd rfl hne
    · intro hin
      rw [h.desired_edges e hin d hd hpair.symm]
      exact Or.inl rfl
  have hkeep : ∀ m, ∀ c ∈ memberAdds current desired,
      ¬ (∃ i a, c = .addMember e.role e.member i a) → (e ∈ membershipsStep m c ↔ e ∈ m) := by
    intro m c hc hno
    obtain ⟨d, -, -, rfl⟩ := h.mem_memberAdds_iff.1 hc
    have hpair : e.pair ≠ (d.role, d.member) := by
      intro heq
      obtain ⟨hr, hm⟩ := Prod.mk.inj heq
      exact hno ⟨d.inherit, d.admin, by rw [addMemberOf, hr, hm]⟩
    have hne : (⟨d.role, d.member, d.inherit, d.admin⟩ : MembershipEdge) ≠ e := by
      rintro rfl
      exact hpair rfl
    rw [addMemberOf, membershipsStep, mem_insert_iff, mem_retainOthers]
    simp [hne, hpair]
  have hrun := holds_foldl_of_sets (fun m => e ∈ m) _ _ hset hkeep
    ((memberRemoves current desired).foldl membershipsStep current.memberships)
  by_cases hadd : ∃ c ∈ memberAdds current desired, ∃ i a, c = .addMember e.role e.member i a
  · exact hrun.1 hadd
  · rw [hrun.2 fun c hc hsets => hadd ⟨c, hc, hsets⟩, h.mem_foldl_memberRemoves]
    refine ⟨fun hin => hin.2, fun hin => ⟨?_, hin⟩⟩
    by_contra hno
    exact hadd ⟨_, h.mem_memberAdds_iff.2 ⟨e, hin, hno, rfl⟩, e.inherit, e.admin, rfl⟩

end PlainMemberships

end PgRoles.Semantics

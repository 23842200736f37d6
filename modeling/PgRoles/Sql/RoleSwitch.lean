import PgRoles.Sql.Render

/-!
# The role of each statement of a batch

A session executes a batch statement by statement; `SET ROLE` and `RESET ROLE` change the role it
runs as, everything else runs as the role of the moment. The renderer brackets the revokes of a
grantor with such switches and shares them between neighbours. Tracked through an arbitrary list of
changes, every revoke runs as its grantor, everything else as the role the session started with, and
the session ends as it started (`runSession_batchFrom`, by induction on the changes).

What a statement does to the session is read off its tokens, so that no rendered statement passes
for a switch: each starts with another word (`switchTarget_unscoped`).
-/

set_option autoImplicit false

namespace PgRoles.Sql

open Std PgRoles.Lib PgRoles.Core

/-! ## Sessions -/

/-- The role a session runs as. -/
inductive SessionRole where
  | login
  | role (name : String)
  deriving DecidableEq

/-- Where a session of the context starts. -/
def startingRole (ctx : SqlContext) : SessionRole :=
  match ctx.executionRole with
  | some role => .role role
  | none => .login

/-- The role that a role switch leads to; `none` for every other statement. -/
def switchTarget (sql : String) : Option SessionRole :=
  match sqlTokens sql.toList with
  | some [.word first, .word second, .ident name, .sym ';'] =>
      if first = "SET".toList ∧ second = "ROLE".toList then some (.role (String.ofList name))
      else none
  | some [.word first, .word second, .sym ';'] =>
      if first = "RESET".toList ∧ second = "ROLE".toList then some .login else none
  | _ => none

/-- Does the statement assume or reset a role? -/
def isSwitch (sql : String) : Bool := (switchTarget sql).isSome

/-- The statements a session executes besides its switches, each with the role it runs as, and the
role the session ends in. -/
def runSession : SessionRole → List String → List (SessionRole × String) × SessionRole
  | role, [] => ([], role)
  | role, sql :: rest =>
      match switchTarget sql with
      | some next => runSession next rest
      | none => ((role, sql) :: (runSession role rest).1, (runSession role rest).2)

theorem runSession_append_plain {role : SessionRole} {l rest : List String}
    (h : ∀ sql ∈ l, switchTarget sql = none) :
    runSession role (l ++ rest) =
      (l.map (fun sql => (role, sql)) ++ (runSession role rest).1, (runSession role rest).2) := by
  induction l with
  | nil => rfl
  | cons sql l ih =>
      rw [List.cons_append, runSession, h sql List.mem_cons_self]
      simp only [ih fun s hs => h s (List.mem_cons_of_mem sql hs)]
      rfl

theorem runSession_cons_switch {role next : SessionRole} {sql : String} {rest : List String}
    (h : switchTarget sql = some next) :
    runSession role (sql :: rest) = runSession next rest := by
  rw [runSession, h]

/-! ## Switches -/

theorem switchTarget_setRole (role : String) : switchTarget (setRoleSql role) = some (.role role) := by
  have hstart : lexRun .between "SET ROLE ".toList =
      some (.between, [.word "SET".toList, .word "ROLE".toList]) := by decide
  have hname := inQuotes_ident role.toList .between [] rfl
  have hend : lexRun (.identQuote role.toList.reverse) [';'] =
      some (.sym ';', [.ident role.toList.reverse.reverse]) := rfl
  have hrun := lexRun_append_eq hstart (lexRun_append_eq hname hend)
  have htext : (setRoleSql role).toList =
      "SET ROLE ".toList ++ (inQuotes '"' role.toList ++ [';']) := by
    simp only [setRoleSql, String.toList_append, List.append_assoc, toList_quoteIdent]
    rfl
  have htokens : sqlTokens (setRoleSql role).toList =
      some [.word "SET".toList, .word "ROLE".toList, .ident role.toList, .sym ';'] := by
    rw [sqlTokens, htext, hrun, List.reverse_reverse]
    rfl
  simp [switchTarget, htokens]

theorem switchTarget_resetRole : switchTarget resetRoleSql = some .login := by
  decide

theorem switchTarget_restore (ctx : SqlContext) :
    switchTarget (restoreSql ctx) = some (startingRole ctx) := by
  unfold restoreSql startingRole
  cases ctx.executionRole with
  | none => exact switchTarget_resetRole
  | some role => exact switchTarget_setRole role

/-- The words rendered statements start with. -/
def statementWords : List String :=
  ["CREATE", "ALTER", "COMMENT", "GRANT", "REVOKE", "DO", "REASSIGN", "DROP", "SELECT"]

/-- The statement starts with one of the words. -/
def StartsStatement (sql : String) : Prop :=
  ∃ word ∈ statementWords, (word ++ " ").toList <+: sql.toList

instance (sql : String) : Decidable (StartsStatement sql) :=
  inferInstanceAs (Decidable (∃ word ∈ statementWords, (word ++ " ").toList <+: sql.toList))

theorem StartsStatement.append {sql : String} (h : StartsStatement sql) (rest : String) :
    StartsStatement (sql ++ rest) := by
  obtain ⟨word, hword, hstart⟩ := h
  refine ⟨word, hword, hstart.trans ?_⟩
  rw [String.toList_append]
  exact List.prefix_append _ _

/-- The first token of a statement is the word it starts with. -/
theorem switchTarget_of_starts {sql : String} (h : StartsStatement sql) :
    switchTarget sql = none := by
  obtain ⟨word, hword, rest, htext⟩ := h
  have hwords : ∀ word ∈ statementWords,
      lexRun .between (word ++ " ").toList = some (.between, [.word word.toList]) ∧
        word.toList ≠ "SET".toList ∧ word.toList ≠ "RESET".toList := by decide
  obtain ⟨hrun, hset, hreset⟩ := hwords word hword
  have htokens : sqlTokens sql.toList =
      (sqlTokens rest).map fun tokens => .word word.toList :: tokens := by
    rw [sqlTokens, sqlTokens, ← htext, lexRun_append, hrun, Option.bind_some]
    cases lexRun .between rest with
    | none => rfl
    | some r => cases hflush : flush r.1 <;> simp [hflush]
  unfold switchTarget
  rw [htokens]
  cases sqlTokens rest with
  | none => rfl
  | some tokens =>
      rw [Option.map_some]
      split
      · next first second name heq =>
          obtain ⟨hw, -⟩ := List.cons.inj (Option.some.inj heq)
          rw [if_neg]
          rintro ⟨hfirst, -⟩
          exact hset (SqlToken.word.inj hw ▸ hfirst)
      · next first second heq =>
          obtain ⟨hw, -⟩ := List.cons.inj (Option.some.inj heq)
          rw [if_neg]
          rintro ⟨hfirst, -⟩
          exact hreset (SqlToken.word.inj hw ▸ hfirst)
      · rfl

/-! ## Rendered statements -/

theorem starts_privilegeStatement {action : String} (h : StartsStatement (action ++ " "))
    (privilegeList target subjectPreposition : String) (role : Grantee) :
    StartsStatement (privilegeStatement action privilegeList target subjectPreposition role) := by
  unfold privilegeStatement
  iterate 8 apply StartsStatement.append
  exact h

theorem starts_wildcardBlock (action subjectPreposition : String) (role : Grantee)
    (privilegeList : String) (objectType : ObjectType) (schemaName : String) (skipOwned : Bool) :
    StartsStatement (wildcardBlock action subjectPreposition role privilegeList objectType
      schemaName skipOwned) := by
  unfold wildcardBlock
  repeat' apply StartsStatement.append
  decide

theorem starts_renderPrivilegeStatements {action : String} (h : StartsStatement (action ++ " "))
    (role : Grantee) (privilegeList : String) (objectType : ObjectType)
    (schema name : Option String) (ctx : SqlContext) :
    ∀ sql ∈ renderPrivilegeStatements action role privilegeList objectType schema name ctx,
      StartsStatement sql := by
  intro sql hsql
  unfold renderPrivilegeStatements at hsql
  generalize (if action = "GRANT" then "TO" else "FROM") = subjectPreposition at hsql
  simp only at hsql
  split at hsql
  · -- a wildcard: the compact form, the objects of the inventory, or the block
    unfold renderWildcardExpanded at hsql
    simp only at hsql
    split at hsql
    · rw [List.mem_singleton.1 hsql]
      exact starts_privilegeStatement h _ _ _ _
    · split at hsql
      · obtain ⟨name, -, rfl⟩ := List.mem_map.1 hsql
        exact starts_privilegeStatement h _ _ _ _
      · split at hsql
        · rw [List.mem_singleton.1 hsql]
          exact starts_privilegeStatement h _ _ _ _
        · rw [List.mem_singleton.1 hsql]
          exact starts_wildcardBlock _ _ _ _ _ _ _
  · rw [List.mem_singleton.1 hsql]
    exact starts_privilegeStatement h _ _ _ _

theorem starts_renderAlterRole (name : String) (attributes : List RoleAttribute) :
    ∀ sql ∈ renderAlterRole name attributes, StartsStatement sql := by
  intro sql hsql
  rw [renderAlterRole, List.mem_append] at hsql
  rcases hsql with hsql | hsql
  · split at hsql
    · exact absurd hsql List.not_mem_nil
    · rw [List.mem_singleton.1 hsql]
      repeat' apply StartsStatement.append
      decide
  · obtain ⟨a, -, hstatement⟩ := List.mem_filterMap.1 hsql
    unfold attributeStatement at hstatement
    split at hstatement
    · rw [← Option.some.inj hstatement]
      unfold renderSetConfig
      repeat' apply StartsStatement.append
      decide
    · rw [← Option.some.inj hstatement]
      repeat' apply StartsStatement.append
      decide
    · exact absurd hstatement nofun

theorem starts_renderDefaultPrivilege {verb subjectPreposition : String} {key : DefaultPrivKey}
    {privileges : Finset Privilege} {statements : List String}
    (h : renderDefaultPrivilege verb subjectPreposition key privileges = some statements) :
    ∀ sql ∈ statements, StartsStatement sql := by
  intro sql hsql
  obtain ⟨typeKeyword, -, rfl⟩ := Option.map_eq_some_iff.1 h
  rw [List.mem_singleton.1 hsql]
  repeat' apply StartsStatement.append
  decide

theorem starts_updateMemberOptionsSql (role member grantor : String) (inherit admin : Option Bool)
    (binding : Option MembershipOptionBinding) :
    ∀ sql ∈ updateMemberOptionsSql role member grantor inherit admin binding,
      StartsStatement sql := by
  intro sql hsql
  simp only [updateMemberOptionsSql, List.mem_append] at hsql
  rcases hsql with (hsql | hsql) | hsql <;>
  · split at hsql
    · rw [List.mem_singleton.1 hsql]
      repeat' apply StartsStatement.append
      decide
    · exact absurd hsql List.not_mem_nil

/-- Every statement of a change starts with one of the words. -/
theorem startsStatement_unscoped {ctx : SqlContext} {c : Change} {statements : List String}
    (h : renderUnscopedStatements ctx c = some statements) :
    ∀ sql ∈ statements, StartsStatement sql := by
  intro sql hsql
  cases c <;> simp only [renderUnscopedStatements, Option.some.injEq] at h <;> try subst h
  case createRole name state =>
    rw [renderCreateRole, List.mem_cons] at hsql
    rcases hsql with rfl | hsql
    · repeat' apply StartsStatement.append
      decide
    · cases hcomment : state.comment with
      | none => simp [hcomment] at hsql
      | some text =>
          simp only [hcomment, renderSetComment, List.mem_singleton] at hsql
          subst hsql
          repeat' apply StartsStatement.append
          decide
  case createSchema name owner =>
    cases owner <;>
    · rw [renderCreateSchema, List.mem_singleton] at hsql
      subst hsql
      repeat' apply StartsStatement.append
      decide
  case alterSchemaOwner name owner =>
    rw [renderAlterSchemaOwner, List.mem_singleton] at hsql
    subst hsql
    repeat' apply StartsStatement.append
    decide
  case ensureSchemaOwnerPrivileges name owner privileges =>
    exact starts_renderPrivilegeStatements (by decide) _ _ _ _ _ _ _ hsql
  case alterRole name attributes => exact starts_renderAlterRole _ _ _ hsql
  case setComment name comment =>
    cases comment <;>
    · rw [renderSetComment, List.mem_singleton] at hsql
      subst hsql
      repeat' apply StartsStatement.append
      decide
  case grant key privileges =>
    exact starts_renderPrivilegeStatements (by decide) _ _ _ _ _ _ _ hsql
  case revoke key privileges grantor =>
    exact starts_renderPrivilegeStatements (by decide) _ _ _ _ _ _ _ hsql
  case setDefaultPrivilege key privileges => exact starts_renderDefaultPrivilege h _ hsql
  case revokeDefaultPrivilege key privileges => exact starts_renderDefaultPrivilege h _ hsql
  case updateMemberOptions => exact starts_updateMemberOptionsSql _ _ _ _ _ _ _ hsql
  case removeMember role member grantor =>
    unfold removeMemberSql at hsql
    simp only at hsql
    -- the clause of the grantor, where there is one, comes last
    split at hsql
    · split at hsql <;>
      · rw [List.mem_singleton.1 hsql]
        repeat' apply StartsStatement.append
        decide
    · rw [List.mem_singleton.1 hsql]
      repeat' apply StartsStatement.append
      decide
  all_goals
    rw [List.mem_singleton.1 hsql]
    repeat' apply StartsStatement.append
    decide

/-- No statement of a change is a role switch. -/
theorem switchTarget_unscoped {ctx : SqlContext} {c : Change} {statements : List String}
    (h : renderUnscopedStatements ctx c = some statements) :
    ∀ sql ∈ statements, switchTarget sql = none := by
  intro sql hsql
  exact switchTarget_of_starts (startsStatement_unscoped h sql hsql)

/-! ## A batch in a session -/

/-- The role a session has while the batch has an acting grantor. -/
def sessionOf (ctx : SqlContext) : Option String → SessionRole
  | some grantor => .role grantor
  | none => startingRole ctx

/-- The role the statements of a change are to run as. -/
def actingRole (ctx : SqlContext) (change : Change) : SessionRole :=
  sessionOf ctx (actingGrantor change)

/-- What a session executes is its statements without the switches. -/
theorem statements_runSession (role : SessionRole) (l : List String) :
    (runSession role l).1.map (·.2) = l.filter fun sql => !isSwitch sql := by
  induction l generalizing role with
  | nil => rfl
  | cons sql l ih =>
      rw [runSession, List.filter_cons]
      cases hsql : switchTarget sql with
      | none => simp [isSwitch, hsql, ih]
      | some next => simp [isSwitch, hsql, ih]

theorem runSession_switchStatements (ctx : SqlContext) (active grantor : Option String)
    (rest : List String) :
    runSession (sessionOf ctx active)
        ((switchStatements ctx active grantor).map (·.sql) ++ rest) =
      runSession (sessionOf ctx grantor) rest := by
  unfold switchStatements
  split
  · next heq => rw [heq, List.map_nil, List.nil_append]
  · -- the first switch leaves the active grantor, the second enters the next
    have hleave : ∀ l, runSession (sessionOf ctx active)
        ((if active.isSome then [RenderedStatement.plain (restoreSql ctx)] else []).map (·.sql) ++
          l) = runSession (startingRole ctx) l := by
      intro l
      cases active with
      | none => rfl
      | some role => exact runSession_cons_switch (switchTarget_restore ctx)
    rw [List.map_append, List.append_assoc, hleave]
    cases grantor with
    | none => rfl
    | some role => exact runSession_cons_switch (switchTarget_setRole role)

theorem unscoped_of_renderChange {ctx : SqlContext} {change : Change} {statements : List String}
    (h : renderChange ctx change = .ok statements) :
    renderUnscopedStatements ctx change = some statements := by
  obtain ⟨-, hstatements⟩ := check_bind_eq_ok.1 h
  cases hunscoped : renderUnscopedStatements ctx change with
  | none => rw [hunscoped] at hstatements; exact absurd hstatements nofun
  | some l =>
      rw [hunscoped] at hstatements
      exact congrArg some (Except.ok.inj hstatements)

/-- The display form goes along with the statement itself. -/
theorem sql_redactedStatement (change : Change) (statements : List String) :
    (statements.map (redactedStatement change)).map (·.sql) = statements := by
  rw [List.map_map]
  conv => rhs; rw [← List.map_id statements]
  apply List.map_congr_left
  intro sql _
  cases change <;> rfl

/-- The statements of a change as they stand in a batch. -/
theorem runSession_statements {ctx : SqlContext} {change : Change} {statements : List String}
    (h : renderChange ctx change = .ok statements) (role : SessionRole) (rest : List String) :
    runSession role ((statements.map (redactedStatement change)).map (·.sql) ++ rest) =
      (statements.map (fun sql => (role, sql)) ++ (runSession role rest).1,
        (runSession role rest).2) := by
  rw [sql_redactedStatement]
  exact runSession_append_plain (switchTarget_unscoped (unscoped_of_renderChange h))

/-- The statements of a change, none when it fails. -/
def statementsOf (ctx : SqlContext) (change : Change) : List String :=
  match renderChange ctx change with
  | .ok statements => statements
  | .error _ => []

/-- A batch from an acting grantor on runs every statement as its change's role and ends where a
session of the context starts. -/
theorem runSession_batchFrom {ctx : SqlContext} {changes : List Change} {active : Option String}
    {batch : List RenderedStatement} (h : renderBatchFrom ctx active changes = .ok batch) :
    runSession (sessionOf ctx active) (batch.map (·.sql)) =
      (changes.flatMap fun c => (statementsOf ctx c).map fun sql => (actingRole ctx c, sql),
        startingRole ctx) := by
  induction changes generalizing active batch with
  | nil =>
      rw [← Except.ok.inj h]
      have hend := runSession_switchStatements ctx active none []
      rw [List.append_nil] at hend
      exact hend
  | cons change rest ih =>
      obtain ⟨statements, hchange, hrest⟩ := bind_eq_ok.1 h
      have hof : statementsOf ctx change = statements := by rw [statementsOf, hchange]
      rw [List.flatMap_cons, hof]
      split at hrest
      · next hempty =>
        rw [List.isEmpty_iff.1 hempty]
        exact ih hrest
      · obtain ⟨tail, htail, hbatch⟩ := bind_eq_ok.1 hrest
        rw [← Except.ok.inj hbatch, List.map_append, List.map_append, List.append_assoc,
          runSession_switchStatements, runSession_statements hchange, ih htail]
        rfl

/-! ## Changes rendered by themselves -/

/-- A change that is in a rendered batch renders. -/
theorem renderChange_of_batchFrom {ctx : SqlContext} {changes : List Change}
    {active : Option String} {batch : List RenderedStatement}
    (h : renderBatchFrom ctx active changes = .ok batch) :
    ∀ c ∈ changes, renderChange ctx c = .ok (statementsOf ctx c) := by
  induction changes generalizing active batch with
  | nil => exact fun c hc => absurd hc List.not_mem_nil
  | cons change rest ih =>
      obtain ⟨statements, hchange, hrest⟩ := bind_eq_ok.1 h
      have hof : statementsOf ctx change = statements := by rw [statementsOf, hchange]
      rw [List.forall_mem_cons, hof]
      refine ⟨hchange, ?_⟩
      split at hrest
      · exact ih hrest
      · obtain ⟨tail, htail, -⟩ := bind_eq_ok.1 hrest
        exact ih htail

/-- Changes that all render make a batch. -/
theorem exists_batchFrom {ctx : SqlContext} {changes : List Change}
    (h : ∀ c ∈ changes, renderChange ctx c = .ok (statementsOf ctx c)) (active : Option String) :
    ∃ batch, renderBatchFrom ctx active changes = .ok batch := by
  induction changes generalizing active with
  | nil => exact ⟨_, rfl⟩
  | cons change rest ih =>
      rw [List.forall_mem_cons] at h
      rw [renderBatchFrom, h.1]
      simp only [bind, Except.bind]
      split
      · exact ih h.2 active
      · obtain ⟨batch, hbatch⟩ := ih h.2 (actingGrantor change)
        rw [hbatch]
        exact ⟨_, rfl⟩

/-- No change both removes and adds a membership. -/
theorem not_replacesUnattributed_singleton (c : Change) : replacesUnattributed [c] = false := by
  cases c with
  | removeMember role member grantor => cases grantor <;> rfl
  | _ => rfl

/-- A change that renders in a batch renders by itself, to the same statements. -/
theorem renderStatements_of_renderChange {ctx : SqlContext} {c : Change}
    (h : renderChange ctx c = .ok (statementsOf ctx c)) :
    ∃ alone, renderStatementsWithContext c ctx = .ok alone ∧
      (alone.filter fun sql => !isSwitch sql) = statementsOf ctx c := by
  obtain ⟨batch, hbatch⟩ := exists_batchFrom (List.forall_mem_singleton.2 h) none
  have hrun := runSession_batchFrom hbatch
  refine ⟨batch.map (·.sql), ?_, ?_⟩
  · rw [renderStatementsWithContext, renderBatchWithContext,
      not_replacesUnattributed_singleton, Bool.and_false]
    exact congrArg (Except.map _) hbatch
  · rw [← statements_runSession (sessionOf ctx none), hrun]
    simp

/-- A change that fails in a batch fails by itself. -/
theorem renderStatements_error_of_renderChange {ctx : SqlContext} {c : Change} {e : RenderFailure}
    (h : renderChange ctx c = .error e) : renderStatementsWithContext c ctx = .error e := by
  rw [renderStatementsWithContext, renderBatchWithContext, not_replacesUnattributed_singleton,
    Bool.and_false, renderBatchFrom, h]
  rfl

/-- The batch pairs a removal without a grantor with an addition of the pair. -/
theorem exists_of_replacesUnattributed {changes : List Change}
    (h : replacesUnattributed changes = true) :
    ∃ role member inherit admin, .removeMember role member none ∈ changes ∧
      .addMember role member inherit admin ∈ changes := by
  obtain ⟨c, hc, hremoves⟩ := List.any_eq_true.1 h
  split at hremoves
  · next role member =>
    obtain ⟨other, hother, hadds⟩ := List.any_eq_true.1 hremoves
    split at hadds
    · next r m inherit admin =>
      rw [Bool.and_eq_true, beq_iff_eq, beq_iff_eq] at hadds
      obtain ⟨rfl, rfl⟩ := hadds
      exact ⟨r, m, inherit, admin, hc, hother⟩
    · exact absurd hadds Bool.false_ne_true
  · exact absurd hremoves Bool.false_ne_true

/-- Every statement of a batch runs as its change's role, a revoke as its grantor and everything
else as the role the session starts with, and the session ends there; without its switches the
batch is what the changes render to by themselves. A batch fails only with one of its changes, or
on PostgreSQL 16 by replacing a membership without naming its grantor. -/
theorem renderBatch_runs (changes : List Change) (ctx : SqlContext) :
    (∀ batch, renderBatchWithContext changes ctx = .ok batch →
      ∃ alone : Change → List String,
        (∀ c ∈ changes, renderStatementsWithContext c ctx = .ok (alone c) ∧
          renderUnscopedStatements ctx c = some ((alone c).filter fun sql => !isSwitch sql)) ∧
        runSession (startingRole ctx) (batch.map (·.sql)) =
          (changes.flatMap fun c => ((alone c).filter fun sql => !isSwitch sql).map
            fun sql => (actingRole ctx c, sql), startingRole ctx) ∧
        ((batch.map (·.sql)).filter fun sql => !isSwitch sql) =
          changes.flatMap fun c => (alone c).filter fun sql => !isSwitch sql) ∧
    ∀ e, renderBatchWithContext changes ctx = .error e →
      (∃ c ∈ changes, ∃ e', renderStatementsWithContext c ctx = .error e') ∨
      16 ≤ ctx.pgMajorVersion ∧ ∃ role member inherit admin,
        .removeMember role member none ∈ changes ∧
        .addMember role member inherit admin ∈ changes := by
  constructor
  · intro batch h
    obtain ⟨-, hbatch⟩ := check_bind_eq_ok.1 h
    have hrenders := renderChange_of_batchFrom hbatch
    have halone := fun c hc => renderStatements_of_renderChange (hrenders c hc)
    choose! alone hrender hfilter using halone
    have hflat : ∀ f : Change → List String → List (SessionRole × String),
        (changes.flatMap fun c => f c ((alone c).filter fun sql => !isSwitch sql)) =
          changes.flatMap fun c => f c (statementsOf ctx c) := by
      intro f
      apply List.flatMap_congr
      intro c hc
      rw [hfilter c hc]
    have hrun := runSession_batchFrom hbatch
    rw [← hflat fun c l => l.map fun sql => (actingRole ctx c, sql)] at hrun
    refine ⟨alone, ?_, hrun, ?_⟩
    · intro c hc
      refine ⟨hrender c hc, ?_⟩
      rw [hfilter c hc]
      exact unscoped_of_renderChange (hrenders c hc)
    · rw [← statements_runSession (sessionOf ctx none), hrun, List.map_flatMap]
      simp
  · intro e h
    by_cases hfails : ∃ c ∈ changes, ∃ e', renderChange ctx c = .error e'
    · obtain ⟨c, hc, e', he⟩ := hfails
      exact .inl ⟨c, hc, e', renderStatements_error_of_renderChange he⟩
    · -- every change renders, so only the check before them can fail
      right
      have hrenders : ∀ c ∈ changes, renderChange ctx c = .ok (statementsOf ctx c) := by
        intro c hc
        cases hchange : renderChange ctx c with
        | error e' => exact absurd ⟨c, hc, e', hchange⟩ hfails
        | ok statements => rw [statementsOf, hchange]
      obtain ⟨batch, hbatch⟩ := exists_batchFrom hrenders none
      rw [renderBatchWithContext, hbatch] at h
      cases hcheck : ctx.supportsGrantWithOptions && replacesUnattributed changes with
      | false => rw [hcheck] at h; exact absurd h nofun
      | true =>
          obtain ⟨hversion, hreplaces⟩ := Bool.and_eq_true_iff.1 hcheck
          refine ⟨?_, exists_of_replacesUnattributed hreplaces⟩
          have hversion := of_decide_eq_true hversion
          omega

end PgRoles.Sql

import PgRoles.Core.Passwords
import PgRoles.Sql.RoleSwitch

/-!
# What a batch shows

Each statement of a batch goes with the form that is shown of it. Where the statement comes from
decides the form (`StatementOrigin`): a role switch and a statement of every change but a password
are shown as they are executed, the statement of a password with a placeholder. Two plans that
differ in their verifiers only are therefore refused alike or shown alike
(`shownBatch_redactPasswordChanges`), and no statement is shown as a blank line.
-/

set_option autoImplicit false

namespace PgRoles.Sql

open Std PgRoles.Lib PgRoles.Core

variable {ctx : SqlContext} {changes changes' : List Change} {active : Option String}
  {batch : List RenderedStatement} {s : RenderedStatement}

/-! ## Where statements come from -/

/-- How a statement of a batch comes about, with the form that is shown of it. -/
inductive StatementOrigin (ctx : SqlContext) (changes : List Change) : RenderedStatement → Prop
  | switch {sql : String} (h : sql = resetRoleSql ∨ ∃ role, sql = setRoleSql role) :
      StatementOrigin ctx changes ⟨sql, sql⟩
  | change {c : Change} {sql : String} (hc : c ∈ changes) (hsql : sql ∈ statementsOf ctx c)
      (hplain : ∀ name verifier, c ≠ .setPassword name verifier) :
      StatementOrigin ctx changes ⟨sql, sql⟩
  | password {name verifier sql : String} (hc : .setPassword name verifier ∈ changes)
      (hsql : sql ∈ statementsOf ctx (.setPassword name verifier)) :
      StatementOrigin ctx changes
        ⟨sql, "ALTER ROLE " ++ quoteIdent name ++ " PASSWORD '[REDACTED]';"⟩

theorem StatementOrigin.mono (h : StatementOrigin ctx changes s) (hsub : changes ⊆ changes') :
    StatementOrigin ctx changes' s := by
  cases h with
  | switch h => exact .switch h
  | change hc hsql hplain => exact .change (hsub hc) hsql hplain
  | password hc hsql => exact .password (hsub hc) hsql

theorem origin_redactedStatement {c : Change} {sql : String} (hc : c ∈ changes)
    (hsql : sql ∈ statementsOf ctx c) : StatementOrigin ctx changes (redactedStatement c sql) := by
  cases c with
  | setPassword name verifier => exact .password hc hsql
  | _ => exact .change hc hsql nofun

theorem origin_switchStatements (changes : List Change) (active grantor : Option String) :
    ∀ s ∈ switchStatements ctx active grantor, StatementOrigin ctx changes s := by
  intro s hs
  rw [switchStatements] at hs
  split at hs
  · exact absurd hs List.not_mem_nil
  · rcases List.mem_append.1 hs with hleave | henter
    · -- leaving a grantor restores the role of the connection
      split at hleave
      · rw [List.mem_singleton.1 hleave, restoreSql]
        apply StatementOrigin.switch
        cases ctx.executionRole with
        | none => exact .inl rfl
        | some role => exact .inr ⟨role, rfl⟩
      · exact absurd hleave List.not_mem_nil
    · obtain ⟨role, -, rfl⟩ := List.mem_map.1 henter
      exact .switch (.inr ⟨role, rfl⟩)

/-- Every statement of a batch is a role switch or comes from one of the changes. -/
theorem origin_of_batchFrom (h : renderBatchFrom ctx active changes = .ok batch) :
    ∀ s ∈ batch, StatementOrigin ctx changes s := by
  induction changes generalizing active batch with
  | nil =>
      rw [← Except.ok.inj h]
      exact origin_switchStatements [] active none
  | cons change rest ih =>
      intro s hs
      obtain ⟨statements, hchange, hrest⟩ := bind_eq_ok.1 h
      split at hrest
      · exact (ih hrest s hs).mono (List.subset_cons_self _ _)
      · obtain ⟨tail, htail, hbatch⟩ := bind_eq_ok.1 hrest
        rw [← Except.ok.inj hbatch, List.mem_append, List.mem_append] at hs
        rcases hs with (hswitch | hown) | htailmem
        · exact origin_switchStatements _ active (actingGrantor change) s hswitch
        · obtain ⟨sql, hsql, rfl⟩ := List.mem_map.1 hown
          apply origin_redactedStatement List.mem_cons_self
          rw [statementsOf, hchange]
          exact hsql
        · exact (ih htail s htailmem).mono (List.subset_cons_self _ _)

/-! ## The verifier is not shown -/

/-- The forms that are shown of a batch, in order. -/
def shown (batch : List RenderedStatement) : List String := batch.map (·.redactedSql)

/-- What is shown of the statements of one change. -/
def shownChange (ctx : SqlContext) (change : Change) : Except RenderFailure (List String) :=
  (renderChange ctx change).map fun statements => shown (statements.map (redactedStatement change))

theorem shownChange_redactPassword (c : Change) :
    shownChange ctx (redactPassword c) = shownChange ctx c := by
  cases c with
  | setPassword name verifier =>
      have hshown : ∀ password, shownChange ctx (.setPassword name password) =
          .ok ["ALTER ROLE " ++ quoteIdent name ++ " PASSWORD '[REDACTED]';"] := fun _ => rfl
      rw [redactPassword, hshown, hshown]
  | _ => simp only [redactPassword]

theorem actingGrantor_redactPassword (c : Change) :
    actingGrantor (redactPassword c) = actingGrantor c := by
  cases c with
  | setPassword name verifier => rfl
  | _ => rfl

/-- What is shown of a batch, by what is shown of its first change. -/
theorem shown_batchFrom_cons (change : Change) (rest : List Change) :
    (renderBatchFrom ctx active (change :: rest)).map shown =
      (shownChange ctx change).bind fun texts =>
        if texts.isEmpty then (renderBatchFrom ctx active rest).map shown
        else (renderBatchFrom ctx (actingGrantor change) rest).map fun tail =>
          shown (switchStatements ctx active (actingGrantor change)) ++ texts ++ shown tail := by
  rw [renderBatchFrom, shownChange]
  cases renderChange ctx change with
  | error e => rfl
  | ok statements =>
      have hempty : (shown (statements.map (redactedStatement change))).isEmpty =
          statements.isEmpty := by
        rw [shown, List.isEmpty_map, List.isEmpty_map]
      rw [Except.map, Except.bind, hempty]
      simp only [bind, Except.bind]
      by_cases hnone : statements.isEmpty = true
      · rw [if_pos hnone, if_pos hnone]
      · rw [if_neg hnone, if_neg hnone]
        cases renderBatchFrom ctx (actingGrantor change) rest with
        | error e => rfl
        | ok tail => simp [Except.map, shown, pure, Except.pure]

theorem shown_batchFrom_redactPasswordChanges (changes : List Change) (active : Option String) :
    (renderBatchFrom ctx active (redactPasswordChanges changes)).map shown =
      (renderBatchFrom ctx active changes).map shown := by
  induction changes generalizing active with
  | nil => rfl
  | cons change rest ih =>
      have hcons : redactPasswordChanges (change :: rest) =
          redactPassword change :: redactPasswordChanges rest := rfl
      rw [hcons, shown_batchFrom_cons, shown_batchFrom_cons, shownChange_redactPassword,
        actingGrantor_redactPassword, ih]
      -- the tail contributes what is shown of it
      have htail : ∀ texts : List String,
          ((renderBatchFrom ctx (actingGrantor change) (redactPasswordChanges rest)).map
            fun tail => texts ++ shown tail) =
          (renderBatchFrom ctx (actingGrantor change) rest).map
            fun tail => texts ++ shown tail := by
        intro texts
        have hmap := congrArg (Except.map (texts ++ ·)) (ih (actingGrantor change))
        rwa [except_map_map, except_map_map] at hmap
      simp only [htail]

theorem replacesUnattributed_redactPasswordChanges (changes : List Change) :
    replacesUnattributed (redactPasswordChanges changes) = replacesUnattributed changes := by
  have hadds : ∀ role member, addsMember (redactPasswordChanges changes) role member =
      addsMember changes role member := by
    intro role member
    rw [addsMember, addsMember, redactPasswordChanges, List.any_map]
    congr 1
    funext c
    cases c <;> rfl
  rw [replacesUnattributed, replacesUnattributed]
  simp only [hadds]
  rw [redactPasswordChanges, List.any_map]
  congr 1
  funext c
  cases c <;> rfl

/-- Plans that differ in their verifiers only show the same, or are refused alike. -/
theorem shownBatch_redactPasswordChanges (changes : List Change) (ctx : SqlContext) :
    (renderBatchWithContext (redactPasswordChanges changes) ctx).map shown =
      (renderBatchWithContext changes ctx).map shown := by
  rw [renderBatchWithContext, renderBatchWithContext, replacesUnattributed_redactPasswordChanges]
  cases rejectIf (ctx.supportsGrantWithOptions && replacesUnattributed changes)
      (RenderFailure.refused .unattributedMembershipReplacement) with
  | error e => rfl
  | ok u => exact shown_batchFrom_redactPasswordChanges changes none

/-! ## Nothing is shown as a blank -/

/-- The text has a character besides white space. -/
def Visible (text : String) : Prop := ∃ c ∈ text.toList, isWhitespace c = false

theorem visible_of_starts {sql : String} (h : StartsStatement sql) : Visible sql := by
  obtain ⟨word, hword, hstart⟩ := h
  have hwords : ∀ word ∈ statementWords,
      ((word ++ " ").toList.any fun c => !isWhitespace c) = true := by decide
  obtain ⟨c, hc, hvisible⟩ := List.any_eq_true.1 (hwords word hword)
  exact ⟨c, hstart.subset hc, by simpa using hvisible⟩

theorem visible_resetRoleSql : Visible resetRoleSql :=
  ⟨'R', by decide, by decide⟩

theorem visible_setRoleSql (role : String) : Visible (setRoleSql role) := by
  refine ⟨'S', ?_, by decide⟩
  simp [setRoleSql, String.toList_append]

/-- What is shown of a statement of a batch is no blank line. -/
theorem StatementOrigin.visible (h : StatementOrigin ctx changes s)
    (hrenders : ∀ c ∈ changes, renderChange ctx c = .ok (statementsOf ctx c)) :
    Visible s.redactedSql := by
  cases h with
  | switch h =>
      rcases h with rfl | ⟨role, rfl⟩
      · exact visible_resetRoleSql
      · exact visible_setRoleSql role
  | change hc hsql _ =>
      apply visible_of_starts
      exact startsStatement_unscoped (unscoped_of_renderChange (hrenders _ hc)) _ hsql
  | password hc hsql =>
      apply visible_of_starts
      repeat' apply StartsStatement.append
      decide

end PgRoles.Sql

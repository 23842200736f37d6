import PgRoles.Lib.Utf8
import PgRoles.Sql.Target

/-!
# Names and signatures of routines

The name of a routine may come with its argument list, and anything may be in the name itself. The
renderer looks for the start of the argument list from the end of the text, at the parenthesis that
the last one closes; parentheses in quotes do not count. Read from the left, the text between the two
is balanced (`balanced`): the scan takes the steps of that reading back, one by one
(`scanSignature_back`), so the part that is left without quotes is one group in parentheses, whatever
stands before it (`signature_iff`).
-/

set_option autoImplicit false

namespace PgRoles.Sql

open PgRoles.Lib PgRoles.Core

/-! ## Positions -/

/-- The characters of a text with the byte positions they start at, from a position on. -/
def charIndices : Nat → List Char → List (Nat × Char)
  | _, [] => []
  | position, c :: cs => (position, c) :: charIndices (position + c.utf8Size) cs

/-- Scan back for the position of the parenthesis that the first one closes. -/
def scanStart : Nat → Bool → List (Nat × Char) → Option Nat
  | _, _, [] => none
  | depth, quoted, (position, c) :: rest =>
      if c = '"' then scanStart depth (!quoted) rest
      else if c = ')' ∧ quoted = false then scanStart (depth + 1) quoted rest
      else if c = '(' ∧ quoted = false then
        match depth with
        | 0 => none
        | 1 => some position
        | depth + 2 => scanStart (depth + 1) quoted rest
      else scanStart depth quoted rest

/-- The byte position at which the argument list of a signature starts. -/
def functionSignatureStart (signature : String) : Option Nat :=
  if signature.toList.getLast? = some ')' then
    scanStart 0 false (charIndices 0 signature.toList).reverse
  else none

/-- The name of a routine without its argument list. -/
def routineBaseName (functionName : String) : String :=
  match functionSignatureStart functionName with
  | some position =>
      match splitAtByte functionName.toList position with
      | some (base, _) => String.ofList base
      | none => functionName  -- the slice would panic; the position is one of a character
  | none => functionName

theorem charIndices_append (position : Nat) (a b : List Char) :
    charIndices position (a ++ b) =
      charIndices position a ++ charIndices (position + (textBytes a).length) b := by
  induction a generalizing position with
  | nil => rfl
  | cons c a ih =>
      rw [List.cons_append, charIndices, charIndices, ih, textBytes_cons, List.length_append,
        String.length_utf8EncodeChar, Nat.add_assoc]
      rfl

theorem scanStart_cons (depth : Nat) (quoted : Bool) (position : Nat) (c : Char)
    (rest : List (Nat × Char)) :
    scanStart depth quoted ((position, c) :: rest) =
      if c = '"' then scanStart depth (!quoted) rest
      else if c = ')' ∧ quoted = false then scanStart (depth + 1) quoted rest
      else if c = '(' ∧ quoted = false then
        match depth with
        | 0 => none
        | 1 => some position
        | depth + 2 => scanStart (depth + 1) quoted rest
      else scanStart depth quoted rest := rfl

theorem scanSignature_cons (depth : Nat) (quoted : Bool) (c : Char) (cs args : List Char) :
    scanSignature depth quoted (c :: cs) args =
      if c = '"' then scanSignature depth (!quoted) cs (c :: args)
      else if c = ')' ∧ quoted = false then scanSignature (depth + 1) quoted cs (c :: args)
      else if c = '(' ∧ quoted = false then
        match depth with
        | 0 => none
        | 1 => some (cs.reverse, c :: args)
        | depth + 2 => scanSignature (depth + 1) quoted cs (c :: args)
      else scanSignature depth quoted cs (c :: args) := rfl

/-- The positions are where the parts of the text end that the scan splits off. -/
theorem scanStart_charIndices (front args : List Char) (depth : Nat) (quoted : Bool) :
    scanStart depth quoted (charIndices 0 front).reverse =
      (scanSignature depth quoted front.reverse args).map fun parts =>
        (textBytes parts.1).length := by
  induction front using List.reverseRecOn generalizing depth quoted args with
  | nil => rfl
  | append_singleton front c ih =>
      rw [charIndices_append, List.reverse_append, List.reverse_append, Nat.zero_add]
      change scanStart depth quoted (((textBytes front).length, c) :: (charIndices 0 front).reverse) =
        (scanSignature depth quoted (c :: front.reverse) args).map _
      rw [scanStart_cons, scanSignature_cons]
      split_ifs with hquote hclose hopen
      · exact ih (c :: args) depth (!quoted)
      · exact ih (c :: args) (depth + 1) quoted
      · match depth with
        | 0 => rfl
        | 1 => exact congrArg (fun text => some (textBytes text).length) front.reverse_reverse.symm
        | depth + 2 => exact ih (c :: args) (depth + 1) quoted
      · exact ih (c :: args) depth quoted

/-- The start of the signature is where the split of the text is. -/
theorem functionSignatureStart_eq (signature : String) :
    functionSignatureStart signature =
      (functionSignature signature).map fun parts => parts.1.utf8ByteSize := by
  rw [functionSignatureStart, functionSignature]
  split
  · rw [scanStart_charIndices signature.toList [], Option.map_map]
    congr 1
    funext parts
    rw [Function.comp_apply, ← length_textBytes_toList, String.toList_ofList]
  · rfl

/-! ## Balanced argument lists -/

/-- One character read from the left: how many parentheses are open, and whether a quote is. A
parenthesis that closes none stops the reading. -/
def readArgument (state : Nat × Bool) (c : Char) : Option (Nat × Bool) :=
  if c = '"' then some (state.1, !state.2)
  else if c = '(' ∧ state.2 = false then some (state.1 + 1, state.2)
  else if c = ')' ∧ state.2 = false then
    match state.1 with
    | 0 => none
    | depth + 1 => some (depth, state.2)
  else some state

/-- Read a text from a state on. -/
def readArguments (state : Nat × Bool) (text : List Char) : Option (Nat × Bool) :=
  text.foldlM readArgument state

/-- Outside double quotes every parenthesis has its partner, opened first, and quotes are paired. -/
def balanced (text : String) : Bool := readArguments (0, false) text.toList == some (0, false)

/-- The scan takes a step of the reading back. -/
theorem scanSignature_back {state state' : Nat × Bool} {c : Char}
    (h : readArgument state c = some state') (cs args : List Char) :
    scanSignature (state'.1 + 1) state'.2 (c :: cs) args =
      scanSignature (state.1 + 1) state.2 cs (c :: args) := by
  obtain ⟨depth, quoted⟩ := state
  rw [readArgument] at h
  rw [scanSignature_cons]
  split_ifs at h with hquote hopen hclose
  · cases h
    rw [if_pos hquote, Bool.not_not]
  · cases h
    have hne : ¬ (c = ')' ∧ quoted = false) := fun h => by
      rw [hopen.1] at h
      exact absurd h.1 (by decide)
    rw [if_neg hquote, if_neg hne, if_pos hopen]
  · cases depth with
    | zero => cases h
    | succ depth =>
        cases h
        rw [if_neg hquote, if_pos hclose]
  · cases h
    rw [if_neg hquote, if_neg hclose, if_neg hopen]

/-- The scan takes a whole reading back. -/
theorem scanSignature_back_run {state state' : Nat × Bool} {text : List Char}
    (h : readArguments state text = some state') (cs args : List Char) :
    scanSignature (state'.1 + 1) state'.2 (text.reverse ++ cs) args =
      scanSignature (state.1 + 1) state.2 cs (text ++ args) := by
  induction text generalizing state cs args with
  | nil =>
      cases h
      rfl
  | cons c text ih =>
      rw [readArguments, List.foldlM_cons] at h
      obtain ⟨next, hnext, hrest⟩ := Option.bind_eq_some_iff.1 h
      rw [List.reverse_cons, List.append_assoc, List.singleton_append, ih hrest,
        scanSignature_back hnext]
      rfl

/-- Where the scan stops, it has taken back a reading from the start of a group. -/
theorem readArguments_of_scanSignature {state' : Nat × Bool} {cs args pre out : List Char}
    (h : scanSignature (state'.1 + 1) state'.2 cs args = some (pre, out)) :
    ∃ text, readArguments (0, false) text = some state' ∧ cs = text.reverse ++ '(' :: pre.reverse ∧
      out = '(' :: (text ++ args) := by
  induction cs generalizing state' args with
  | nil => cases h
  | cons c cs ih =>
      -- unless it stops here, the step is the reverse of one of the reading
      have hback : ∀ state : Nat × Bool, readArgument state c = some state' →
          ∃ text, readArguments (0, false) text = some state' ∧
            c :: cs = text.reverse ++ '(' :: pre.reverse ∧ out = '(' :: (text ++ args) := by
        intro state hstate
        rw [scanSignature_back hstate] at h
        obtain ⟨text, hread, hcs, hout⟩ := ih h
        refine ⟨text ++ [c], ?_, ?_, ?_⟩
        · rw [readArguments] at hread ⊢
          rw [List.foldlM_append, hread]
          exact (bind_pure _).trans hstate
        · rw [hcs, List.reverse_append]
          rfl
        · rw [hout, List.append_assoc]
          rfl
      obtain ⟨depth, quoted⟩ := state'
      by_cases hquote : c = '"'
      · exact hback (depth, !quoted) (by rw [readArgument, if_pos hquote, Bool.not_not])
      · by_cases hclose : c = ')' ∧ quoted = false
        · refine hback (depth + 1, quoted) ?_
          have hne : ¬ (c = '(' ∧ quoted = false) := fun h => by
            rw [hclose.1] at h
            exact absurd h.1 (by decide)
          rw [readArgument, if_neg hquote, if_neg hne, if_pos hclose]
        · by_cases hopen : c = '(' ∧ quoted = false
          · cases depth with
            | zero =>
                rw [scanSignature_cons, if_neg hquote, if_neg hclose, if_pos hopen] at h
                obtain ⟨rfl, rfl⟩ := Prod.mk.inj (Option.some.inj h)
                refine ⟨[], ?_, ?_, ?_⟩
                · rw [hopen.2]
                  rfl
                · rw [List.reverse_reverse, hopen.1]
                  rfl
                · rw [hopen.1]
                  rfl
            | succ depth =>
                refine hback (depth, quoted) ?_
                rw [readArgument, if_neg hquote, if_pos hopen]
          · refine hback (depth, quoted) ?_
            rw [readArgument, if_neg hquote, if_neg hopen, if_neg hclose]

/-! ## Signatures -/

theorem balanced_iff {text : String} :
    balanced text = true ↔ readArguments (0, false) text.toList = some (0, false) := beq_iff_eq

/-- The scan of a signature starts at its last parenthesis. -/
theorem functionSignature_append_close (front : List Char) :
    functionSignature (String.ofList (front ++ [')'])) =
      (scanSignature 1 false front.reverse [')']).map fun parts =>
        (String.ofList parts.1, String.ofList parts.2) := by
  rw [functionSignature, String.toList_ofList, if_pos (by simp), List.reverse_append]
  rfl

/-- A signature is any name and a balanced group behind it. -/
theorem functionSignature_eq_some_iff {signature base args : String} :
    functionSignature signature = some (base, args) ↔
      ∃ text, balanced text = true ∧ signature = base ++ "(" ++ text ++ ")" ∧
        args = "(" ++ text ++ ")" := by
  constructor
  · intro h
    by_cases hlast : signature.toList.getLast? = some ')'
    · obtain ⟨front, hfront⟩ := List.getLast?_eq_some_iff.1 hlast
      have hsignature : signature = String.ofList (front ++ [')']) := by
        rw [← hfront, String.ofList_toList]
      rw [hsignature, functionSignature_append_close] at h
      obtain ⟨⟨pre, out⟩, hscan, heq⟩ := Option.map_eq_some_iff.1 h
      obtain ⟨rfl, rfl⟩ := Prod.mk.inj heq
      obtain ⟨text, hread, hcs, rfl⟩ := @readArguments_of_scanSignature (0, false) _ _ _ _ hscan
      have hfront' : front = pre ++ '(' :: text := by
        have hreverse := congrArg List.reverse hcs
        simpa using hreverse
      refine ⟨String.ofList text, ?_, ?_, ?_⟩
      · rw [balanced_iff, String.toList_ofList]
        exact hread
      · apply String.toList_injective
        simp [hsignature, hfront', String.toList_append]
      · apply String.toList_injective
        simp [String.toList_append]
    · rw [functionSignature, if_neg hlast] at h
      cases h
  · rintro ⟨text, hbalanced, rfl, rfl⟩
    have hsignature : base ++ "(" ++ text ++ ")" =
        String.ofList (base.toList ++ '(' :: text.toList ++ [')']) := by
      apply String.toList_injective
      simp [String.toList_append]
    have hscan := scanSignature_back_run (balanced_iff.1 hbalanced) ('(' :: base.toList.reverse)
      [')']
    rw [hsignature, functionSignature_append_close, List.reverse_append, List.reverse_cons,
      List.append_assoc, List.singleton_append, hscan]
    -- the parenthesis before the balanced text ends the scan
    have hstop : scanSignature 1 false ('(' :: base.toList.reverse) (text.toList ++ [')']) =
        some (base.toList.reverse.reverse, '(' :: (text.toList ++ [')'])) := rfl
    rw [hstop, Option.map_some, List.reverse_reverse, String.ofList_toList]
    congr 2
    apply String.toList_injective
    simp [String.toList_append]

theorem routineBaseName_of_signature {signature base args : String}
    (h : functionSignature signature = some (base, args)) : routineBaseName signature = base := by
  obtain ⟨text, -, rfl, -⟩ := functionSignature_eq_some_iff.1 h
  have hsplit : splitAtByte (base ++ "(" ++ text ++ ")").toList base.utf8ByteSize =
      some (base.toList, ("(" ++ text ++ ")").toList) := by
    have htext : (base ++ "(" ++ text ++ ")").toList =
        base.toList ++ ("(" ++ text ++ ")").toList := by
      simp [String.toList_append]
    rw [htext]
    exact splitAtByte_append (length_textBytes_toList base)
  simp only [routineBaseName, functionSignatureStart_eq, h, Option.map_some, hsplit,
    String.ofList_toList]

/-- A balanced argument list is split off any name, the name is quoted and the list stays as it is;
and whatever stays as it is, is such a list. -/
theorem signature_split (schemaName base args name : String) :
    (balanced args = true →
      functionSignatureStart (base ++ "(" ++ args ++ ")") = some base.utf8ByteSize ∧
      qualifiedFunctionName schemaName (base ++ "(" ++ args ++ ")") =
        quoteIdent schemaName ++ "." ++ quoteIdent base ++ ("(" ++ args ++ ")") ∧
      routineBaseName (base ++ "(" ++ args ++ ")") = base) ∧
    ((functionSignatureStart name = none ∧
        qualifiedFunctionName schemaName name =
          quoteIdent schemaName ++ "." ++ quoteIdent name) ∨
      ∃ front text, balanced text = true ∧ name = front ++ "(" ++ text ++ ")" ∧
        functionSignatureStart name = some front.utf8ByteSize ∧
        qualifiedFunctionName schemaName name =
          quoteIdent schemaName ++ "." ++ quoteIdent front ++ ("(" ++ text ++ ")")) := by
  constructor
  · intro hbalanced
    have hsignature : functionSignature (base ++ "(" ++ args ++ ")") =
        some (base, "(" ++ args ++ ")") :=
      functionSignature_eq_some_iff.2 ⟨args, hbalanced, rfl, rfl⟩
    refine ⟨?_, ?_, routineBaseName_of_signature hsignature⟩
    · rw [functionSignatureStart_eq, hsignature]
      rfl
    · rw [qualifiedFunctionName, hsignature]
  · cases hsignature : functionSignature name with
    | none =>
        refine .inl ⟨?_, ?_⟩
        · rw [functionSignatureStart_eq, hsignature]
          rfl
        · rw [qualifiedFunctionName, hsignature]
    | some parts =>
        obtain ⟨front, group⟩ := parts
        obtain ⟨text, hbalanced, hname, rfl⟩ := functionSignature_eq_some_iff.1 hsignature
        refine .inr ⟨front, text, hbalanced, hname, ?_, ?_⟩
        · rw [functionSignatureStart_eq, hsignature]
          rfl
        · rw [qualifiedFunctionName, hsignature]

example : routineBaseName "area(round)(\"odd)type\")" = "area(round)" := by decide

end PgRoles.Sql

import PgRoles.Lib.Text
import PgRoles.Operator.OwnershipClaims

/-!
# Conflicts between policies of one database

Two policies with overlapping claims must not both proceed on one database. The database is what a
connection resolves to: a host without regard to case, a port that defaults to 5432 and a name. The
report goes by the identity key, which is built from the text of the connection. So two policies of
one database see each other exactly when they spell the host alike and agree on spelling the port
(`conflicts_detected_iff`), and nothing else is ever reported.
-/

set_option autoImplicit false

namespace PgRoles.Operator

open Std PgRoles.Lib PgRoles.Core

/-! ## What a connection resolves to -/

/-- A host, a port and a database. -/
abbrev DatabaseTarget : Type := String × Nat × String

section Resolution

-- The values of the Secrets of the namespace, and the reading of a connection URL by the driver.
variable (secrets : String → String → Option String) (readUrl : String → Option DatabaseTarget)

/-- The value of a field, read from its Secret where it is a reference. -/
def resolveParam (literal : Option String) (secret : Option SecretKeySelector) :
    Option (Option String) :=
  match literal, secret with
  | some value, _ => some (some value)
  | none, some selector => (secrets selector.name selector.key).map some
  | none, none => some none

/-- A port number as the standard library parses it. -/
def parsePort (value : String) : Option Nat :=
  (parseUnsigned value.toList).filter (· < 2 ^ 16)

/-- The port, which is 5432 where none is given. -/
def resolvePort (params : ConnectionParams) : Option Nat := do
  match ← resolveParam secrets (params.port.map fun port => toString port.toNat)
    params.portSecret with
  | some value => parsePort value
  | none => some 5432

/-- The target of a connection that is given in parts. -/
def resolveParams (params : ConnectionParams) : Option DatabaseTarget := do
  let host ← ← resolveParam secrets params.host params.hostSecret
  let port ← resolvePort secrets params
  let database ← ← resolveParam secrets params.dbname params.dbnameSecret
  return (toAsciiLowercase host, port, database)

/-- What a connection says about its database. -/
def readTarget (connection : ConnectionSpec) : Option DatabaseTarget :=
  match connection.secretRef, connection.params with
  | some secretRef, _ => (secrets secretRef.name connection.effectiveSecretKey).bind readUrl
  | none, some params => resolveParams secrets params
  | none, none => none

/-- The database of a connection; a blank host or name is an error. -/
def resolveDatabaseTarget (connection : ConnectionSpec) : Option DatabaseTarget :=
  (readTarget secrets readUrl connection).filter fun target =>
    !isBlank target.1 && !isBlank target.2.2

end Resolution

/-! ## Ports as text -/

theorem parseUnsigned_toString (n : Nat) : parseUnsigned (toString n).toList = some n := by
  have htext : (toString n).toList = Nat.toDigits 10 n := Nat.toList_repr
  have hdigits : ∀ c ∈ Nat.toDigits 10 n, isAsciiDigit c = true := fun c hc =>
    isAsciiDigit_of_isDigit (Nat.isDigit_of_mem_toDigits (by decide) (by decide) hc)
  have hhead : (Nat.toDigits 10 n).head? ≠ some '+' := by
    intro h
    have hplus := hdigits '+' (List.mem_of_mem_head? h)
    exact absurd hplus (by decide)
  have hempty : (Nat.toDigits 10 n).isEmpty = false := by simp
  have hall : (Nat.toDigits 10 n).all isAsciiDigit = true := List.all_eq_true.2 hdigits
  have hvalue : (Nat.toDigits 10 n).foldl (fun n c => 10 * n + (c.toNat - '0'.toNat)) 0 = n := by
    rw [← Nat.ofDigitChars_eq_foldl]
    exact Nat.ofDigitChars_toDigits (by decide) (by decide)
  unfold parseUnsigned
  have hbeq : ((Nat.toDigits 10 n).head? == some '+') = false := by simpa using hhead
  rw [htext]
  simp only [hbeq, Bool.false_eq_true, if_false, hempty, hall, Bool.not_true, Bool.or_self, hvalue]

theorem parsePort_toString (port : UInt16) : parsePort (toString port.toNat) = some port.toNat := by
  unfold parsePort
  rw [parseUnsigned_toString]
  simp [port.toNat_lt]

/-! ## Two connections of one database -/

/-- Both connections name the same Secret, or both have parameters and each field is in both a
literal or left out, or in both the same reference. -/
inductive SameStyle : ConnectionSpec → ConnectionSpec → Prop
  | secret {a b : ConnectionSpec} (secretRef : SecretReference) (ha : a.secretRef = some secretRef)
      (hb : b.secretRef = some secretRef) (hkey : a.effectiveSecretKey = b.effectiveSecretKey) :
      SameStyle a b
  | params {a b : ConnectionSpec} (pa pb : ConnectionParams) (ha : a.secretRef = none)
      (hb : b.secretRef = none) (hpa : a.params = some pa) (hpb : b.params = some pb)
      (host : pa.hostSecret = pb.hostSecret) (port : pa.portSecret = pb.portSecret)
      (dbname : pa.dbnameSecret = pb.dbnameSecret) : SameStyle a b

/-- The two connections spell a literal host alike, and a literal port both or neither. -/
def SpelledAlike (a b : ConnectionSpec) : Prop :=
  (a.params.map fun params => (params.host, params.port.isSome)) =
    b.params.map fun params => (params.host, params.port.isSome)

theorem SpelledAlike.symm {a b : ConnectionSpec} (h : SpelledAlike a b) : SpelledAlike b a :=
  Eq.symm h

theorem SameStyle.symm {a b : ConnectionSpec} (h : SameStyle a b) : SameStyle b a := by
  cases h with
  | secret secretRef ha hb hkey => exact .secret secretRef hb ha hkey.symm
  | params pa pb ha hb hpa hpb host port dbname =>
      exact .params pb pa hb ha hpb hpa host.symm port.symm dbname.symm

section Fields

variable {secrets : String → String → Option String}

/-- A required field is a literal or a reference. -/
theorem literal_of_validateRequiredField {field : String} {literal : Option String}
    {secret : Option SecretKeySelector} (h : validateRequiredField field literal secret = .ok ()) :
    (∃ value, literal = some value ∧ secret = none) ∨
      ∃ selector, literal = none ∧ secret = some selector := by
  cases literal with
  | none =>
      cases secret with
      | none => cases h
      | some selector => exact Or.inr ⟨selector, rfl, rfl⟩
  | some value =>
      cases secret with
      | none => exact Or.inl ⟨value, rfl, rfl⟩
      | some selector => cases h

/-- What validated parameters are. -/
structure FieldsSet (params : ConnectionParams) : Prop where
  host : (∃ value, params.host = some value ∧ params.hostSecret = none) ∨
    ∃ selector, params.host = none ∧ params.hostSecret = some selector
  dbname : (∃ value, params.dbname = some value ∧ params.dbnameSecret = none) ∨
    ∃ selector, params.dbname = none ∧ params.dbnameSecret = some selector
  port : params.port = none ∨ params.portSecret = none

theorem fieldsSet_of_validate {params : ConnectionParams}
    (h : validateConnectionParams params = .ok ()) : FieldsSet params := by
  obtain ⟨hhost, h⟩ := check_bind_eq_ok.1 h
  obtain ⟨hdbname, h⟩ := check_bind_eq_ok.1 h
  obtain ⟨-, h⟩ := check_bind_eq_ok.1 h
  obtain ⟨-, h⟩ := check_bind_eq_ok.1 h
  obtain ⟨hport, -⟩ := check_bind_eq_ok.1 h
  refine ⟨literal_of_validateRequiredField hhost, literal_of_validateRequiredField hdbname, ?_⟩
  obtain ⟨hboth, -⟩ := check_bind_eq_ok.1 hport
  rw [rejectIf_eq_ok] at hboth
  cases hp : params.port with
  | none => exact Or.inl rfl
  | some port =>
      rw [hp] at hboth
      right
      simpa using hboth

theorem resolvePort_of_literal {params : ConnectionParams} (h : params.portSecret = none) :
    resolvePort secrets params = some ((params.port.map UInt16.toNat).getD 5432) := by
  unfold resolvePort
  cases hp : params.port with
  | none => simp [resolveParam, h]
  | some port =>
      simp only [resolveParam, Option.map_some, Option.bind_eq_bind, Option.bind_some,
        Option.getD_some]
      exact parsePort_toString port

theorem of_resolveParams_eq_some {params : ConnectionParams} {target : DatabaseTarget}
    (h : resolveParams secrets params = some target) :
    ∃ host database, resolveParam secrets params.host params.hostSecret = some (some host) ∧
      resolveParam secrets params.dbname params.dbnameSecret = some (some database) ∧
      resolvePort secrets params = some target.2.1 ∧
      target.1 = toAsciiLowercase host ∧ target.2.2 = database := by
  unfold resolveParams at h
  simp only [Option.bind_eq_bind, Option.bind_eq_some_iff, Option.pure_def,
    Option.some.injEq] at h
  obtain ⟨host?, hhost, host, rfl, port, hport, database?, hdatabase, database, rfl, rfl⟩ := h
  exact ⟨host, database, hhost, hdatabase, hport, rfl, rfl⟩

/-- Two fields of one style that resolve alike up to case have texts of one length. -/
theorem length_fieldIdentityRepr {literal literal' : Option String}
    {secret secret' : Option SecretKeySelector} (hsecret : secret = secret')
    (hset : (∃ value, literal = some value ∧ secret = none) ∨
      ∃ selector, literal = none ∧ secret = some selector)
    (hset' : (∃ value, literal' = some value ∧ secret' = none) ∨
      ∃ selector, literal' = none ∧ secret' = some selector)
    {text text' : String} (hresolve : resolveParam secrets literal secret = some (some text))
    (hresolve' : resolveParam secrets literal' secret' = some (some text'))
    (hlower : toAsciiLowercase text = toAsciiLowercase text') :
    (fieldIdentityRepr literal secret).toList.length =
      (fieldIdentityRepr literal' secret').toList.length ∧
      (fieldIdentityRepr literal secret = fieldIdentityRepr literal' secret' ↔
        literal = literal') := by
  subst hsecret
  rcases hset with ⟨value, rfl, rfl⟩ | ⟨selector, rfl, rfl⟩
  · rcases hset' with ⟨value', rfl, -⟩ | ⟨selector', -, hcontra⟩
    · simp only [resolveParam, Option.some.injEq] at hresolve hresolve'
      subst hresolve hresolve'
      have hlength : value.toList.length = value'.toList.length := by
        have h := congrArg (fun s => s.toList.length) hlower
        simpa [toAsciiLowercase] using h
      constructor
      · simp only [fieldIdentityRepr, String.toList_append, List.length_append, hlength]
      · simp only [fieldIdentityRepr, Option.some.injEq]
        constructor
        · intro h
          have htext := congrArg String.toList h
          simp only [String.toList_append, List.append_right_inj] at htext
          exact String.toList_injective htext
        · intro h
          rw [h]
    · cases hcontra
  · rcases hset' with ⟨value', -, hcontra⟩ | ⟨selector', rfl, -⟩
    · cases hcontra
    · exact ⟨rfl, by simp⟩

theorem toList_identityKey (params : ConnectionParams) :
    params.identityKey.toList = "params\x00".toList ++
      (fieldIdentityRepr params.host params.hostSecret).toList ++ "\x00".toList ++
      (fieldIdentityRepr params.dbname params.dbnameSecret).toList ++ "\x00".toList ++
      (portIdentityRepr params).toList := by
  unfold ConnectionParams.identityKey
  simp only [String.toList_append]

/-- Ports of one style that resolve alike have one text if both are spelled out or neither is. -/
theorem portIdentityRepr_eq_iff {pa pb : ConnectionParams} (hsecret : pa.portSecret = pb.portSecret)
    (hset : pa.port = none ∨ pa.portSecret = none) (hset' : pb.port = none ∨ pb.portSecret = none)
    (hresolve : resolvePort secrets pa = resolvePort secrets pb) :
    portIdentityRepr pa = portIdentityRepr pb ↔ pa.port.isSome = pb.port.isSome := by
  cases hs : pa.portSecret with
  | some selector =>
      rw [hs] at hset hsecret
      rw [← hsecret] at hset'
      have ha : pa.port = none := by simpa using hset
      have hb : pb.port = none := by simpa using hset'
      unfold portIdentityRepr
      simp [ha, hb, hs, ← hsecret]
  | none =>
      rw [hs] at hsecret
      rw [resolvePort_of_literal hs, resolvePort_of_literal hsecret.symm, Option.some.injEq]
        at hresolve
      unfold portIdentityRepr
      rw [hs, ← hsecret]
      cases hpa : pa.port with
      | none =>
          cases hpb : pb.port with
          | none => simp
          | some port =>
              refine iff_of_false (fun h => ?_) (by simp)
              have hhead := congrArg (fun s => s.toList.head?) h
              simp only [String.toList_append] at hhead
              exact absurd hhead (by simp)
      | some port =>
          cases hpb : pb.port with
          | none =>
              refine iff_of_false (fun h => ?_) (by simp)
              have hhead := congrArg (fun s => s.toList.head?) h
              simp only [String.toList_append] at hhead
              exact absurd hhead (by simp)
          | some port' =>
              rw [hpa, hpb] at hresolve
              have hport : port.toNat = port'.toNat := hresolve
              simp [hport]

end Fields

/-- Two connections of one database have one key exactly when they are spelled alike. -/
theorem identityKey_eq_iff {secrets : String → String → Option String}
    {readUrl : String → Option DatabaseTarget} {a b : ConnectionSpec}
    (ha : validateConnectionSpec a = .ok ()) (hb : validateConnectionSpec b = .ok ())
    (hstyle : SameStyle a b) {target : DatabaseTarget}
    (hta : resolveDatabaseTarget secrets readUrl a = some target)
    (htb : resolveDatabaseTarget secrets readUrl b = some target) :
    a.identityKey = b.identityKey ↔ SpelledAlike a b := by
  cases hstyle with
  | secret secretRef hsa hsb hkey =>
      have hpa : a.params = none := by
        unfold validateConnectionSpec at ha
        rw [hsa] at ha
        cases hp : a.params with
        | none => rfl
        | some params =>
            rw [hp] at ha
            cases ha
      have hpb : b.params = none := by
        unfold validateConnectionSpec at hb
        rw [hsb] at hb
        cases hp : b.params with
        | none => rfl
        | some params =>
            rw [hp] at hb
            cases hb
      refine iff_of_true ?_ ?_
      · unfold ConnectionSpec.identityKey
        rw [hsa, hsb, hkey]
      · unfold SpelledAlike
        rw [hpa, hpb]
  | params pa pb hsa hsb hpa hpb hhost hport hdbname =>
      have hfa : FieldsSet pa := by
        unfold validateConnectionSpec at ha
        rw [hsa, hpa] at ha
        exact fieldsSet_of_validate ha
      have hfb : FieldsSet pb := by
        unfold validateConnectionSpec at hb
        rw [hsb, hpb] at hb
        exact fieldsSet_of_validate hb
      have hra : resolveParams secrets pa = some target := by
        have hread := (Option.filter_eq_some_iff.1 hta).1
        unfold readTarget at hread
        rw [hsa, hpa] at hread
        exact hread
      have hrb : resolveParams secrets pb = some target := by
        have hread := (Option.filter_eq_some_iff.1 htb).1
        unfold readTarget at hread
        rw [hsb, hpb] at hread
        exact hread
      obtain ⟨host, database, hra₁, hra₂, hra₃, hra₄, hra₅⟩ := of_resolveParams_eq_some hra
      obtain ⟨host', database', hrb₁, hrb₂, hrb₃, hrb₄, hrb₅⟩ := of_resolveParams_eq_some hrb
      obtain ⟨hlength, htext⟩ := length_fieldIdentityRepr hhost hfa.host hfb.host hra₁ hrb₁
        (hra₄.symm.trans hrb₄)
      have hdatabase : fieldIdentityRepr pa.dbname pa.dbnameSecret =
          fieldIdentityRepr pb.dbname pb.dbnameSecret := by
        rw [hdbname]
        rcases hfa.dbname with ⟨value, hd, hs⟩ | ⟨selector, hd, hs⟩
        · rcases hfb.dbname with ⟨value', hd', hs'⟩ | ⟨selector', hd', hs'⟩
          · rw [hd, hs] at hra₂
            rw [hd', hs'] at hrb₂
            simp only [resolveParam, Option.some.injEq] at hra₂ hrb₂
            rw [hd, hd', hra₂, hrb₂, ← hra₅, ← hrb₅]
          · rw [hdbname, hs'] at hs
            cases hs
        · rcases hfb.dbname with ⟨value', hd', hs'⟩ | ⟨selector', hd', hs'⟩
          · rw [hdbname, hs'] at hs
            cases hs
          · rw [hd, hd']
      have hports := portIdentityRepr_eq_iff hport hfa.port hfb.port (hra₃.trans hrb₃.symm)
      unfold ConnectionSpec.identityKey SpelledAlike
      rw [hsa, hsb, hpa, hpb]
      simp only [Option.map_some, Option.some.injEq, Prod.mk.injEq]
      rw [← htext, ← hports, ← String.toList_inj, toList_identityKey, toList_identityKey,
        hdatabase]
      constructor
      · intro h
        -- The hosts have one length, so what follows them starts at one position.
        simp only [List.append_assoc, List.append_right_inj] at h
        obtain ⟨hhosts, hrest⟩ := List.append_inj h hlength
        simp only [List.append_right_inj] at hrest
        exact ⟨String.toList_inj.1 hhosts, String.toList_inj.1 hrest⟩
      · intro h
        rw [h.1, h.2]

/-! ## One key, one database -/

/-- The separator of the fields of a key. -/
def nul : Char := '\x00'

/-- Texts without the separator: the names of Secrets and their keys cannot hold it, nor can the
protocol carry it in a host or a database name. -/
def PlainText (text : String) : Prop := nul ∉ text.toList

/-- The selector's texts lack the separator. -/
structure PlainSelector (selector : SecretKeySelector) : Prop where
  name : PlainText selector.name
  key : PlainText selector.key

/-- Every text that the key of the parameters is made of lacks the separator. -/
structure PlainParams (params : ConnectionParams) : Prop where
  host : ∀ text ∈ params.host, PlainText text
  dbname : ∀ text ∈ params.dbname, PlainText text
  hostSecret : ∀ selector ∈ params.hostSecret, PlainSelector selector
  dbnameSecret : ∀ selector ∈ params.dbnameSecret, PlainSelector selector
  portSecret : ∀ selector ∈ params.portSecret, PlainSelector selector

/-- The policy is named, and names its Secrets, as the API server allows it. -/
structure PlainNames (policy : PostgresPolicy) : Prop where
  ns : ∀ ns ∈ policy.ns, '/' ∉ ns.toList
  secretRef : ∀ secretRef ∈ policy.spec.connection.secretRef,
    '/' ∉ secretRef.name.toList ∧ PlainText secretRef.name
  params : ∀ params ∈ policy.spec.connection.params, PlainParams params

section OneKey

variable (secrets : String → String → Option String) {readUrl : String → Option DatabaseTarget}

/-- A field is read back from the start of the rest of a key. -/
theorem resolveParam_eq_of_repr {literal literal' : Option String}
    {secret secret' : Option SecretKeySelector} (hliteral : ∀ text ∈ literal, PlainText text)
    (hliteral' : ∀ text ∈ literal', PlainText text)
    (hsecret : ∀ selector ∈ secret, PlainSelector selector)
    (hsecret' : ∀ selector ∈ secret', PlainSelector selector) {rest rest' : List Char}
    (h : (fieldIdentityRepr literal secret).toList ++ nul :: rest =
      (fieldIdentityRepr literal' secret').toList ++ nul :: rest') :
    resolveParam secrets literal secret = resolveParam secrets literal' secret' ∧
      rest = rest' := by
  have hselector : ∀ selector : SecretKeySelector, (fieldIdentityRepr none (some selector)).toList =
      "secret=".toList ++ (selector.name.toList ++ nul :: selector.key.toList) := by
    intro selector
    simp [fieldIdentityRepr, nul]
  have htext : ∀ (text : String) (s : Option SecretKeySelector),
      (fieldIdentityRepr (some text) s).toList = "literal=".toList ++ text.toList := by
    intro text s
    simp [fieldIdentityRepr]
  cases literal with
  | some text =>
      cases literal' with
      | some text' =>
          rw [htext, htext] at h
          simp only [List.append_assoc, List.append_right_inj] at h
          obtain ⟨heq, hrest⟩ := append_cons_inj (hliteral text rfl) (hliteral' text' rfl) h
          rw [String.toList_injective heq]
          exact ⟨rfl, hrest⟩
      | none =>
          rw [htext] at h
          cases secret' with
          | some selector =>
              rw [hselector] at h
              exact absurd (congrArg List.head? h) (by simp)
          | none =>
              exact absurd (congrArg List.head? h) (by simp [fieldIdentityRepr, nul])
  | none =>
      cases secret with
      | some selector =>
          rw [hselector] at h
          cases literal' with
          | some text' =>
              rw [htext] at h
              exact absurd (congrArg List.head? h) (by simp)
          | none =>
              cases secret' with
              | some selector' =>
                  rw [hselector] at h
                  simp only [List.append_assoc, List.append_right_inj, List.cons_append] at h
                  have hplain := hsecret selector rfl
                  have hplain' := hsecret' selector' rfl
                  obtain ⟨hname, h⟩ := append_cons_inj hplain.name hplain'.name h
                  obtain ⟨hkey, hrest⟩ := append_cons_inj hplain.key hplain'.key h
                  refine ⟨?_, hrest⟩
                  unfold resolveParam
                  simp only [String.toList_injective hname, String.toList_injective hkey]
              | none =>
                  exact absurd (congrArg List.head? h) (by simp [fieldIdentityRepr, nul])
      | none =>
          cases literal' with
          | some text' =>
              rw [htext] at h
              exact absurd (congrArg List.head? h) (by simp [fieldIdentityRepr, nul])
          | none =>
              cases secret' with
              | some selector' =>
                  rw [hselector] at h
                  exact absurd (congrArg List.head? h) (by simp [fieldIdentityRepr, nul])
              | none =>
                  refine ⟨rfl, ?_⟩
                  simpa [fieldIdentityRepr] using h

/-- A port is read back from the end of a key. -/
theorem resolvePort_eq_of_repr {pa pb : ConnectionParams}
    (ha : ∀ selector ∈ pa.portSecret, PlainSelector selector)
    (hb : ∀ selector ∈ pb.portSecret, PlainSelector selector)
    (h : portIdentityRepr pa = portIdentityRepr pb) :
    resolvePort secrets pa = resolvePort secrets pb := by
  -- A port without a field of its own has a text that no other port has.
  have hfield : ∀ params : ConnectionParams,
      portIdentityRepr params = "5432" ∧ params.port = none ∧ params.portSecret = none ∨
        portIdentityRepr params = fieldIdentityRepr
          (params.port.map fun port => toString port.toNat) params.portSecret ∧
        (params.port.isSome = true ∨ params.portSecret.isSome = true) := by
    intro params
    unfold portIdentityRepr fieldIdentityRepr
    cases hp : params.port with
    | some port => exact Or.inr ⟨by simp, Or.inl rfl⟩
    | none =>
        cases hs : params.portSecret with
        | some selector => exact Or.inr ⟨by simp, Or.inr rfl⟩
        | none => exact Or.inl ⟨rfl, rfl, rfl⟩
  have hdefault : ∀ params : ConnectionParams,
      (params.port.isSome = true ∨ params.portSecret.isSome = true) →
        fieldIdentityRepr (params.port.map fun port => toString port.toNat) params.portSecret ≠
          "5432" := by
    intro params hset htext
    have hhead := congrArg (fun s => s.toList.head?) htext
    unfold fieldIdentityRepr at hhead
    cases hp : params.port with
    | some port => simp [hp] at hhead
    | none =>
        cases hs : params.portSecret with
        | some selector => simp [hp, hs] at hhead
        | none => simp [hp, hs] at hset
  have hplain : ∀ params : ConnectionParams,
      ∀ text ∈ params.port.map fun port => toString port.toNat, PlainText text := by
    intro params text htext hnul
    cases hp : params.port with
    | none =>
        rw [hp] at htext
        cases htext
    | some port =>
        rw [hp] at htext
        cases htext
        have hdigit := Nat.isDigit_of_mem_toDigits (b := 10) (by decide) (by decide)
          (Nat.toList_repr ▸ hnul)
        exact absurd hdigit (by decide)
  unfold resolvePort
  rcases hfield pa with ⟨hta, hpa, hsa⟩ | ⟨hta, hseta⟩
  · rcases hfield pb with ⟨htb, hpb, hsb⟩ | ⟨htb, hsetb⟩
    · rw [hpa, hsa, hpb, hsb]
    · exact absurd (htb.symm.trans (h.symm.trans hta)) (hdefault pb hsetb)
  · rcases hfield pb with ⟨htb, hpb, hsb⟩ | ⟨htb, hsetb⟩
    · exact absurd (hta.symm.trans (h.trans htb)) (hdefault pa hseta)
    · have htext : (fieldIdentityRepr (pa.port.map fun port => toString port.toNat)
          pa.portSecret).toList ++ [nul] = (fieldIdentityRepr
            (pb.port.map fun port => toString port.toNat) pb.portSecret).toList ++ [nul] := by
        rw [← hta, ← htb, h]
      rw [(resolveParam_eq_of_repr secrets (hplain pa) (hplain pb) ha hb htext).1]

theorem resolveParams_eq_of_key {pa pb : ConnectionParams} (ha : PlainParams pa)
    (hb : PlainParams pb) (h : pa.identityKey = pb.identityKey) :
    resolveParams secrets pa = resolveParams secrets pb := by
  have hkey : ∀ params : ConnectionParams, params.identityKey.toList = "params\x00".toList ++
      ((fieldIdentityRepr params.host params.hostSecret).toList ++ nul ::
        ((fieldIdentityRepr params.dbname params.dbnameSecret).toList ++ nul ::
          (portIdentityRepr params).toList)) := by
    intro params
    rw [toList_identityKey]
    simp [nul]
  have htext := congrArg String.toList h
  rw [hkey, hkey, List.append_right_inj] at htext
  obtain ⟨hhost, htext⟩ := resolveParam_eq_of_repr secrets ha.host hb.host
    ha.hostSecret hb.hostSecret htext
  obtain ⟨hdbname, htext⟩ := resolveParam_eq_of_repr secrets ha.dbname hb.dbname
    ha.dbnameSecret hb.dbnameSecret htext
  have hport := resolvePort_eq_of_repr secrets ha.portSecret hb.portSecret
    (String.toList_injective htext)
  unfold resolveParams
  rw [hhost, hdbname, hport]

/-- The key of a Secret is not the key of parameters. -/
theorem secretKey_ne_paramsKey {secretRef : SecretReference} {key : String}
    {params : ConnectionParams} (hplain : PlainText secretRef.name) :
    secretRef.name ++ "/" ++ key ≠ params.identityKey := by
  intro h
  have htext := congrArg String.toList h
  rw [toList_identityKey] at htext
  simp only [String.toList_append, List.append_assoc] at htext
  have hslash' : '/' ∉ "params".toList := by decide
  exact append_cons_ne (c := '/') (d := nul) (by decide) hplain hslash' htext

/-- Policies with one key resolve to one database. -/
theorem resolveDatabaseTarget_eq_of_key {p q : PostgresPolicy} (hp : PlainNames p)
    (hq : PlainNames q)
    (h : p.spec.connection.identityKey = q.spec.connection.identityKey) :
    resolveDatabaseTarget secrets readUrl p.spec.connection =
      resolveDatabaseTarget secrets readUrl q.spec.connection := by
  have hinvalid : '/' ∉ "invalid-connection".toList := by decide
  have hread : readTarget secrets readUrl p.spec.connection =
      readTarget secrets readUrl q.spec.connection := by
    unfold readTarget
    unfold ConnectionSpec.identityKey at h
    cases hsp : p.spec.connection.secretRef with
    | some rp =>
        obtain ⟨hslash, hplain⟩ := hp.secretRef rp hsp
        rw [hsp] at h
        cases hsq : q.spec.connection.secretRef with
        | some rq =>
            obtain ⟨hslash', -⟩ := hq.secretRef rq hsq
            rw [hsq] at h
            have htext := congrArg String.toList h
            simp only [String.toList_append, List.append_assoc] at htext
            obtain ⟨hname, hkey⟩ := append_cons_inj hslash hslash' htext
            simp only [String.toList_injective hname, String.toList_injective hkey]
        | none =>
            rw [hsq] at h
            cases hq' : q.spec.connection.params with
            | some params =>
                rw [hq'] at h
                exact absurd h (secretKey_ne_paramsKey hplain)
            | none =>
                rw [hq'] at h
                have htext := congrArg String.toList h
                simp only [String.toList_append] at htext
                rw [← htext] at hinvalid
                exact absurd (by simp) hinvalid
    | none =>
        rw [hsp] at h
        cases hsq : q.spec.connection.secretRef with
        | some rq =>
            obtain ⟨-, hplain⟩ := hq.secretRef rq hsq
            rw [hsq] at h
            cases hp' : p.spec.connection.params with
            | some params =>
                rw [hp'] at h
                exact absurd h.symm (secretKey_ne_paramsKey hplain)
            | none =>
                rw [hp'] at h
                have htext := congrArg String.toList h
                simp only [String.toList_append] at htext
                rw [htext] at hinvalid
                exact absurd (by simp) hinvalid
        | none =>
            rw [hsq] at h
            cases hp' : p.spec.connection.params with
            | some pp =>
                rw [hp'] at h
                cases hq' : q.spec.connection.params with
                | some pq =>
                    rw [hq'] at h
                    exact resolveParams_eq_of_key secrets (hp.params pp hp') (hq.params pq hq') h
                | none =>
                    rw [hq'] at h
                    have htext := congrArg String.toList h
                    rw [toList_identityKey] at htext
                    exact absurd (congrArg List.head? htext) (by simp)
            | none =>
                rw [hp'] at h
                cases hq' : q.spec.connection.params with
                | some pq =>
                    rw [hq'] at h
                    have htext := congrArg String.toList h
                    rw [toList_identityKey] at htext
                    exact absurd (congrArg List.head? htext) (by simp)
                | none => rfl
  unfold resolveDatabaseTarget
  rw [hread]

end OneKey

/-! ## Reports -/

/-- The claims of a policy; none if its spec is rejected. -/
def claimsOf (policy : PostgresPolicy) : OwnershipClaims :=
  policy.spec.ownershipClaims.toOption.getD {}

/-- The report of a policy on a list of policies. -/
def detectPolicyConflict (policy : PostgresPolicy) (policies : List PostgresPolicy) :
    Option String :=
  match policy.ns with
  | none => none
  | some ns => detectPolicyConflictInList policy (databaseIdentity ns policy.spec.connection)
      (claimsOf policy) policies

/-- The policy passes what a reconcile validates before it compares claims. -/
structure ValidPolicy (policy : PostgresPolicy) : Prop where
  connection : validateConnectionSpec policy.spec.connection = .ok ()
  passwords : policy.spec.validatePasswordSpecs policy.name = .ok ()
  claims : policy.spec.ownershipClaims = .ok (claimsOf policy)

/-- Every list with the other policy in it leads to a report that names the other. -/
def Reports (policy other : PostgresPolicy) : Prop :=
  ∀ policies : List PostgresPolicy, other ∈ policies →
    ∃ message ns, detectPolicyConflict policy policies = some message ∧ other.ns = some ns ∧
      (reference ns other.name).toList <:+: message.toList

section Reported

variable {policy other : PostgresPolicy} {ns : String}

theorem mem_intercalate (sep : String) {l : List String} {text : String} (h : text ∈ l) :
    text.toList <:+: (sep.intercalate l).toList := by
  rw [String.toList_intercalate]
  exact infix_intercalate (List.mem_map_of_mem h)

/-- Equal names have equal parts. -/
theorem databaseIdentity_inj {ns' : String} {a b : ConnectionSpec} (hns : '/' ∉ ns.toList)
    (hns' : '/' ∉ ns'.toList) (h : databaseIdentity ns a = databaseIdentity ns' b) :
    ns = ns' ∧ a.identityKey = b.identityKey := by
  have htext := congrArg String.toList h
  unfold databaseIdentity at htext
  simp only [String.toList_append, List.append_assoc] at htext
  obtain ⟨hname, hkey⟩ := append_cons_inj hns hns' htext
  exact ⟨String.toList_injective hname, String.toList_injective hkey⟩

theorem conflictWith_isSome_iff (hvalid : ValidPolicy other) {name identity : String}
    {ownership : OwnershipClaims} (hother : other.ns = some ns) (hname : other.name ≠ name) :
    (conflictWith ns name identity ownership other).isSome = true ↔
      databaseIdentity ns other.spec.connection = identity ∧
        ownership.overlaps (claimsOf other) = true := by
  unfold conflictWith
  rw [hother]
  simp only [hname, and_false, if_false, hvalid.passwords, hvalid.claims]
  by_cases hidentity : databaseIdentity ns other.spec.connection = identity
  · cases hoverlap : ownership.overlaps (claimsOf other) <;> simp [hidentity]
  · simp [hidentity]

/-- A policy reports another of its namespace exactly when they have one key and their claims
overlap. -/
theorem reports_iff (hvalid : ValidPolicy other) (hpolicy : policy.ns = some ns)
    (hother : other.ns = some ns) (hname : other.name ≠ policy.name) :
    Reports policy other ↔
      policy.spec.connection.identityKey = other.spec.connection.identityKey ∧
        (claimsOf policy).overlaps (claimsOf other) = true := by
  have hkeys : databaseIdentity ns other.spec.connection =
      databaseIdentity ns policy.spec.connection ↔
        policy.spec.connection.identityKey = other.spec.connection.identityKey := by
    unfold databaseIdentity
    rw [← String.toList_inj, ← String.toList_inj]
    simp only [String.toList_append, List.append_right_inj]
    exact eq_comm
  rw [← hkeys, ← conflictWith_isSome_iff hvalid hother hname]
  constructor
  · intro h
    obtain ⟨message, -, hmessage, -, -⟩ := h [other] (List.mem_singleton.2 rfl)
    unfold detectPolicyConflict detectPolicyConflictInList at hmessage
    rw [hpolicy] at hmessage
    cases hc : conflictWith ns policy.name (databaseIdentity ns policy.spec.connection)
      (claimsOf policy) other with
    | none => simp [hc] at hmessage
    | some entry => rfl
  · intro h policies hmem
    obtain ⟨entry, hentry⟩ := Option.isSome_iff_exists.1 h
    have hmem' : entry ∈ policies.filterMap (conflictWith ns policy.name
        (databaseIdentity ns policy.spec.connection) (claimsOf policy)) :=
      List.mem_filterMap.2 ⟨other, hmem, hentry⟩
    have hne : (policies.filterMap (conflictWith ns policy.name
        (databaseIdentity ns policy.spec.connection) (claimsOf policy))).isEmpty = false := by
      simpa using List.ne_nil_of_mem hmem'
    have hreport : detectPolicyConflict policy policies = some ("policy ownership overlaps with " ++
        ", ".intercalate (policies.filterMap (conflictWith ns policy.name
          (databaseIdentity ns policy.spec.connection) (claimsOf policy))) ++
        " on database target " ++ databaseIdentity ns policy.spec.connection) := by
      unfold detectPolicyConflict detectPolicyConflictInList
      rw [hpolicy]
      simp only [hne, Bool.false_eq_true, if_false]
    refine ⟨_, ns, hreport, hother, ?_⟩
    · -- The entry starts with the reference, and the message holds the entry.
      have hstart : (reference ns other.name).toList <:+: entry.toList := by
        unfold conflictWith at hentry
        rw [hother] at hentry
        simp only [hname, and_false, if_false, hvalid.passwords, hvalid.claims] at hentry
        split at hentry
        · cases hentry
        · split at hentry
          · rw [← Option.some.inj hentry]
            refine ⟨[], " (".toList ++ ((claimsOf policy).overlapSummary
              (claimsOf other)).toList ++ ")".toList, ?_⟩
            simp only [String.toList_append, List.nil_append, List.append_assoc]
          · cases hentry
      refine hstart.trans ((mem_intercalate ", " hmem').trans ?_)
      refine ⟨"policy ownership overlaps with ".toList, " on database target ".toList ++
        (databaseIdentity ns policy.spec.connection).toList, ?_⟩
      simp only [String.toList_append, List.append_assoc]

end Reported

section Conflicts

-- The Secrets by namespace, and the reading of a connection URL by the driver.
variable (secrets : String → String → String → Option String)
  (readUrl : String → Option DatabaseTarget)

/-- The database of a policy. -/
def policyTarget (policy : PostgresPolicy) : Option DatabaseTarget :=
  policy.ns.bind fun ns => resolveDatabaseTarget (secrets ns) readUrl policy.spec.connection

/-- Two valid policies of one namespace and one database, given in one style, with overlapping
claims. -/
structure Rivals (p q : PostgresPolicy) : Prop where
  left : ValidPolicy p
  right : ValidPolicy q
  ns : p.ns = q.ns
  name : p.name ≠ q.name
  target : ∃ target, policyTarget secrets readUrl p = some target ∧
    policyTarget secrets readUrl q = some target
  style : SameStyle p.spec.connection q.spec.connection
  overlap : (claimsOf p).overlaps (claimsOf q) = true

/-- No other policy of the list is of the policy's database and overlaps its claims. -/
def Unrivalled (policy : PostgresPolicy) (policies : List PostgresPolicy) : Prop :=
  ∀ other ∈ policies, (other.ns ≠ policy.ns ∨ other.name ≠ policy.name) →
    policyTarget secrets readUrl other = policyTarget secrets readUrl policy →
      (claimsOf policy).overlaps (claimsOf other) = false

/-- Only policies of one database are reported. -/
theorem detectPolicyConflict_eq_none {policy : PostgresPolicy} {policies : List PostgresPolicy}
    (hpolicy : PlainNames policy) (hpolicies : ∀ other ∈ policies, PlainNames other)
    (h : Unrivalled secrets readUrl policy policies) :
    detectPolicyConflict policy policies = none := by
  unfold detectPolicyConflict
  cases hns : policy.ns with
  | none => rfl
  | some ns =>
      have hnone : policies.filterMap (conflictWith ns policy.name
          (databaseIdentity ns policy.spec.connection) (claimsOf policy)) = [] := by
        rw [List.filterMap_eq_nil_iff]
        intro other hother
        unfold conflictWith
        cases hns' : other.ns with
        | none => rfl
        | some otherNs =>
            dsimp only
            split
            · rfl
            · next hself =>
                split
                · rfl
                · next hidentity =>
                    push Not at hidentity
                    have hslash := hpolicy.ns ns hns
                    have hslash' := (hpolicies other hother).ns otherNs hns'
                    obtain ⟨rfl, hkey⟩ := databaseIdentity_inj hslash' hslash hidentity
                    have htarget : policyTarget secrets readUrl other =
                        policyTarget secrets readUrl policy := by
                      unfold policyTarget
                      rw [hns', hns]
                      exact resolveDatabaseTarget_eq_of_key (secrets otherNs)
                        (hpolicies other hother) hpolicy hkey
                    have hdiffers : other.ns ≠ policy.ns ∨ other.name ≠ policy.name := by
                      right
                      intro hname
                      exact hself ⟨rfl, hname⟩
                    have hoverlap := h other hother hdiffers htarget
                    split
                    · next claims _ hclaims =>
                        have hclaims' : claimsOf other = claims := by
                          unfold claimsOf
                          rw [hclaims]
                          rfl
                        rw [← hclaims', hoverlap]
                        rfl
                    · rfl
      unfold detectPolicyConflictInList
      rw [hns]
      simp only [hnone, List.isEmpty_nil, if_true]

/-- Rivals report each other exactly when their connections are spelled alike, and a policy without
rivals reports nothing. -/
theorem conflicts_detected_iff :
    (∀ p q : PostgresPolicy, Rivals secrets readUrl p q →
      (Reports p q ∧ Reports q p ↔ SpelledAlike p.spec.connection q.spec.connection)) ∧
    ∀ (p : PostgresPolicy) (policies : List PostgresPolicy), PlainNames p →
      (∀ other ∈ policies, PlainNames other) → Unrivalled secrets readUrl p policies →
        detectPolicyConflict p policies = none := by
  constructor
  · intro p q h
    obtain ⟨target, hp, hq⟩ := h.target
    obtain ⟨ns, hns, hp⟩ := Option.bind_eq_some_iff.1 hp
    have hns' : q.ns = some ns := h.ns ▸ hns
    obtain ⟨ns', hns'', hq⟩ := Option.bind_eq_some_iff.1 hq
    rw [hns'] at hns''
    cases hns''
    have hkeys := identityKey_eq_iff h.left.connection h.right.connection h.style hp hq
    rw [reports_iff h.right hns hns' h.name.symm, reports_iff h.left hns' hns h.name,
      OwnershipClaims.overlaps_comm (claimsOf q), ← hkeys]
    constructor
    · intro h
      exact h.1.1
    · intro hkey
      exact ⟨⟨hkey, h.overlap⟩, hkey.symm, h.overlap⟩
  · intro p policies hp hpolicies hunrivalled
    exact detectPolicyConflict_eq_none secrets readUrl hp hpolicies hunrivalled

end Conflicts

/-! ### A default port -/

/-- A policy for the readers of an application, on the given port. -/
def readersPolicy (name : String) (port : Option UInt16) : PostgresPolicy :=
  { ns := some "prod"
    name
    spec :=
      { connection :=
          { params := some
              { host := some "db"
                port
                dbname := some "app"
                username := some "pgroles"
                password := some "secret" } }
        content := { roles := [{ name := "readers" }] } } }

/-- No Secrets and no connection URLs. -/
def noSecrets (_ _ _ : String) : Option String := none

/-- No text is a URL. -/
def noUrls (_ : String) : Option DatabaseTarget := none

theorem readersPolicy_valid (name : String) (port : Option UInt16)
    (hclaims : (readersPolicy name port).spec.ownershipClaims.isOk = true)
    (hconnection : validateConnectionSpec (readersPolicy name port).spec.connection = .ok ()) :
    ValidPolicy (readersPolicy name port) := by
  refine ⟨hconnection, rfl, ?_⟩
  unfold claimsOf
  cases h : (readersPolicy name port).spec.ownershipClaims with
  | error e =>
      rw [h] at hclaims
      cases hclaims
  | ok claims => rfl

theorem readersPolicy_rivals {port port' : Option UInt16}
    (hp : validateConnectionSpec (readersPolicy "a" port).spec.connection = .ok ())
    (hq : validateConnectionSpec (readersPolicy "b" port').spec.connection = .ok ())
    (htarget : ∃ target, policyTarget noSecrets noUrls (readersPolicy "a" port) = some target ∧
      policyTarget noSecrets noUrls (readersPolicy "b" port') = some target) :
    Rivals noSecrets noUrls (readersPolicy "a" port) (readersPolicy "b" port') := by
  have hclaims : ∀ name p, (readersPolicy name p).spec.ownershipClaims =
      (readersPolicy "a" none).spec.ownershipClaims := fun _ _ => rfl
  have hok : (readersPolicy "a" none).spec.ownershipClaims.isOk = true := by decide +kernel
  refine ⟨readersPolicy_valid _ _ (hclaims _ _ ▸ hok) hp, readersPolicy_valid _ _
    (hclaims _ _ ▸ hok) hq, rfl, by simp [readersPolicy], htarget, ?_, ?_⟩
  · exact .params _ _ rfl rfl rfl rfl rfl rfl rfl
  · have hsame : ∀ name p, claimsOf (readersPolicy name p) = claimsOf (readersPolicy "a" none) :=
      fun _ _ => rfl
    rw [hsame "a" port, hsame "b" port']
    decide +kernel

/-- With the port spelled out in both, each policy reports the other. -/
theorem readersPolicy_reported :
    Reports (readersPolicy "a" (some 5432)) (readersPolicy "b" (some 5432)) ∧
      Reports (readersPolicy "b" (some 5432)) (readersPolicy "a" (some 5432)) := by
  refine ((conflicts_detected_iff noSecrets noUrls).1 _ _ (readersPolicy_rivals
    (by decide +kernel) (by decide +kernel)
    ⟨("db", 5432, "app"), by decide +kernel, by decide +kernel⟩)).2 ?_
  rfl

/-- With the default port left out in one, they are policies of one database with one role, and
neither reports the other. -/
theorem readersPolicy_unreported :
    Rivals noSecrets noUrls (readersPolicy "a" (some 5432)) (readersPolicy "b" none) ∧
      ¬ Reports (readersPolicy "a" (some 5432)) (readersPolicy "b" none) ∧
      detectPolicyConflict (readersPolicy "a" (some 5432))
        [readersPolicy "a" (some 5432), readersPolicy "b" none] = none ∧
      detectPolicyConflict (readersPolicy "b" none)
        [readersPolicy "a" (some 5432), readersPolicy "b" none] = none := by
  have hnone : detectPolicyConflict (readersPolicy "a" (some 5432))
      [readersPolicy "a" (some 5432), readersPolicy "b" none] = none := by decide +kernel
  refine ⟨readersPolicy_rivals (by decide +kernel) (by decide +kernel)
    ⟨("db", 5432, "app"), by decide +kernel, by decide +kernel⟩, ?_, hnone, by decide +kernel⟩
  intro h
  obtain ⟨message, -, hmessage, -, -⟩ :=
    h [readersPolicy "a" (some 5432), readersPolicy "b" none] (by simp)
  rw [hnone] at hmessage
  cases hmessage

end PgRoles.Operator

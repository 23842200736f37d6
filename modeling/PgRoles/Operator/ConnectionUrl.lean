import PgRoles.Lib.Url
import PgRoles.Inspect.RoleConfig
import PgRoles.Operator.PolicyConflict

/-!
# Connection URLs

The parameters of a connection are resolved twice: for the connection URL, in which the user and the
password are escaped and host, port and database stand as they are, and for the fingerprint of the
target that an approval is bound to. Both read the same fields (`resolvedFrom_of_ok`). What is left
of the text of the URL when its reader has cleaned it is the text of the URL of cleaned parameters
(`cleanAddress_addressOf`).
-/

set_option autoImplicit false

namespace PgRoles.Operator

open Std PgRoles.Lib PgRoles.Core PgRoles.Inspect

/-! ## The connection URL -/

/-- Why a connection is not resolved; a Secret that cannot be read counts as one without the key. -/
inductive ContextError where
  | secretMissing (name key : String)
  | emptyResolvedValue (field : String)
  | invalidResolvedSslMode (value : String)
  | tokenFetch (detail : String)
  deriving DecidableEq

/-- A token of a cloud provider, in place of a password. -/
structure AccessToken where
  value : String
  expiresAt : Nat
  deriving DecidableEq

/-- The text the pool is opened with, when its token expires, and the role to assume. -/
structure ResolvedConnectionUrl where
  databaseUrl : String
  tokenExpiresAt : Option Nat
  setRole : Option String
  deriving DecidableEq

/-- The parameters of a connection once they are read. -/
structure ResolvedParams where
  host : String
  port : String
  dbname : String
  username : String
  password : String
  tokenExpiresAt : Option Nat
  sslMode : Option String
  deriving DecidableEq

section Resolution

-- The values of the Secrets of the namespace, and the token provider.
variable (secrets : String → String → Option String)
  (fetchToken : ConnectionAuth → Except ContextError AccessToken)

/-- The value of a Secret's key. -/
def fetchSecretValue (name key : String) : Except ContextError String :=
  match secrets name key with
  | some value => .ok value
  | none => .error (.secretMissing name key)

/-- The value of a field, with the error of its Secret. -/
def resolveField (literal : Option String) (secret : Option SecretKeySelector) :
    Except ContextError (Option String) :=
  match literal, secret with
  | some value, _ => .ok (some value)
  | none, some selector => (fetchSecretValue secrets selector.name selector.key).map some
  | none, none => .ok none

/-- A field that must have more than white space. -/
def requireField (field : String) (value : Option String) : Except ContextError String :=
  match value with
  | none => .error (.emptyResolvedValue field)
  | some text => if isBlank text then .error (.emptyResolvedValue field) else .ok text

/-- The password, or the token of the provider and when it expires. -/
def resolvePassword (params : ConnectionParams) :
    Except ContextError (Option String × Option Nat) :=
  match params.auth with
  | some auth => (fetchToken auth).map fun token => (some token.value, some token.expiresAt)
  | none => (resolveField secrets params.password params.passwordSecret).map (·, none)

/-- The SSL mode of a provider, where the connection names none. -/
def defaultSslMode : ConnectionAuth → String
  | .gcpWorkloadIdentity _ _ => "require"
  | .azureWorkloadIdentity _ => "verify-full"

/-- Validation sees only a literal mode, so the resolved one is checked here. -/
def checkSslMode : Option String → Except ContextError (Option String)
  | none => .ok none
  | some mode =>
      if validSslModes.contains mode then .ok (some mode) else .error (.invalidResolvedSslMode mode)

/-- The parts of a connection, each from its text or its Secret. -/
def resolveConnectionParams (params : ConnectionParams) : Except ContextError ResolvedParams := do
  let host ← requireField "host" (← resolveField secrets params.host params.hostSecret)
  let port ← requireField "port" (some
    ((← resolveField secrets (params.port.map fun port => toString port.toNat)
      params.portSecret).getD "5432"))
  let dbname ← requireField "dbname" (← resolveField secrets params.dbname params.dbnameSecret)
  let username ←
    requireField "username" (← resolveField secrets params.username params.usernameSecret)
  let credential ← resolvePassword secrets fetchToken params
  let password ← requireField "password" credential.1
  let sslMode ← checkSslMode
    ((← resolveField secrets params.sslMode params.sslModeSecret).or
      (params.auth.map defaultSslMode))
  return {
    host := host
    port := port
    dbname := dbname
    username := username
    password := password
    tokenExpiresAt := credential.2
    sslMode := sslMode }

/-- The query that sets the SSL mode. -/
def sslModeQuery : Option String → String
  | none => ""
  | some mode => "?sslmode=" ++ mode

/-- Only the user and the password are escaped. -/
def connectionUrl (resolved : ResolvedParams) : String :=
  "postgresql://" ++ String.ofList (percentEncode resolved.username.toList) ++ ":" ++
    String.ofList (percentEncode resolved.password.toList) ++ "@" ++ resolved.host ++ ":" ++
    resolved.port ++ "/" ++ resolved.dbname ++ sslModeQuery resolved.sslMode

/-- The URL of a connection: the text of its Secret, or built from its parameters. -/
def resolveConnectionUrl (connection : ConnectionSpec) :
    Except ContextError ResolvedConnectionUrl :=
  match connection.secretRef, connection.params with
  | some secretRef, _ => do
      let databaseUrl ← fetchSecretValue secrets secretRef.name connection.effectiveSecretKey
      return { databaseUrl := databaseUrl, tokenExpiresAt := none, setRole := none }
  | none, some params => do
      let resolved ← resolveConnectionParams secrets fetchToken params
      return {
        databaseUrl := connectionUrl resolved
        tokenExpiresAt := resolved.tokenExpiresAt
        setRole := params.setRole }
  | none, none => .error (.secretMissing "connection" "neither secretRef nor params is set")

end Resolution

/-! ## The fingerprint -/

/-- The digest of a target; `sha256` is in hexadecimal. -/
def databaseTargetFingerprint (sha256 : ByteArray → String) (target : DatabaseTarget) : String :=
  "sha256:" ++ sha256 (toAsciiLowercase target.1 ++ "\x00" ++ toString target.2.1 ++ "\x00" ++
    target.2.2).toUTF8

/-- The fingerprint of the target, where it can be resolved. -/
def resolveDatabaseTargetFingerprint (sha256 : ByteArray → String)
    (secrets : String → String → Option String) (readUrl : String → Option DatabaseTarget)
    (connection : ConnectionSpec) : Option String :=
  (resolveDatabaseTarget secrets readUrl connection).map (databaseTargetFingerprint sha256)

/-! ## The resolved parameters -/

section Resolved

variable {secrets : String → String → Option String}
  {fetchToken : ConnectionAuth → Except ContextError AccessToken} {params : ConnectionParams}
  {resolved : ResolvedParams}

/-- A field that resolves has the value that the policy check reads. -/
theorem resolveParam_of_resolveField {literal value : Option String}
    {secret : Option SecretKeySelector} (h : resolveField secrets literal secret = .ok value) :
    resolveParam secrets literal secret = some value := by
  cases literal with
  | some text => exact congrArg some (Except.ok.inj h)
  | none =>
      cases secret with
      | none => exact congrArg some (Except.ok.inj h)
      | some selector =>
          simp only [resolveField, fetchSecretValue] at h
          simp only [resolveParam]
          cases hvalue : secrets selector.name selector.key with
          | none =>
              rw [hvalue] at h
              cases h
          | some text =>
              rw [hvalue] at h
              exact congrArg some (Except.ok.inj h)

/-- A required field is there, and is not blank. -/
theorem of_requireField {field text : String} {value : Option String}
    (h : requireField field value = .ok text) : value = some text ∧ isBlank text = false := by
  cases value with
  | none => cases h
  | some text' =>
      unfold requireField at h
      simp only at h
      split_ifs at h with hblank
      obtain rfl := Except.ok.inj h
      exact ⟨rfl, by simpa using hblank⟩

/-- An accepted SSL mode is one of the list. -/
theorem of_checkSslMode {mode mode' : Option String} (h : checkSslMode mode = .ok mode') :
    ∀ text ∈ mode', text ∈ validSslModes := by
  intro text htext
  cases mode with
  | none =>
      obtain rfl := Except.ok.inj h
      cases htext
  | some text' =>
      unfold checkSslMode at h
      simp only at h
      split_ifs at h with hvalid
      obtain rfl := Except.ok.inj h
      obtain rfl := Option.some.inj htext
      simpa using hvalid

theorem eq_of_checkSslMode {mode mode' : Option String} (h : checkSslMode mode = .ok mode') :
    mode' = mode := by
  cases mode with
  | none => exact (Except.ok.inj h).symm
  | some text =>
      unfold checkSslMode at h
      simp only at h
      split_ifs at h
      exact (Except.ok.inj h).symm

/-- Only a field that is left out has no value. -/
theorem eq_none_iff_of_resolveField {literal value : Option String}
    {secret : Option SecretKeySelector} (h : resolveField secrets literal secret = .ok value) :
    value = none ↔ literal = none ∧ secret = none := by
  cases literal with
  | some text =>
      obtain rfl := Except.ok.inj h
      simp
  | none =>
      cases secret with
      | none =>
          obtain rfl := Except.ok.inj h
          simp
      | some selector =>
          simp only [resolveField] at h
          cases hfetch : fetchSecretValue secrets selector.name selector.key with
          | error e =>
              rw [hfetch] at h
              cases h
          | ok text =>
              rw [hfetch] at h
              obtain rfl := Except.ok.inj h
              simp

/-- No mode of encryption follows the database in the URL. -/
def ConnectionParams.endsInDatabase (params : ConnectionParams) : Bool :=
  params.sslMode.isNone && params.sslModeSecret.isNone && params.auth.isNone

/-- The resolved parameters in the words of the fingerprint. -/
structure ResolvedFrom (secrets : String → String → Option String) (params : ConnectionParams)
    (resolved : ResolvedParams) : Prop where
  host : resolveParam secrets params.host params.hostSecret = some (some resolved.host)
  port : ∃ value, resolveParam secrets (params.port.map fun port => toString port.toNat)
    params.portSecret = some value ∧ resolved.port = value.getD "5432"
  dbname : resolveParam secrets params.dbname params.dbnameSecret = some (some resolved.dbname)
  host_ne : isBlank resolved.host = false
  dbname_ne : isBlank resolved.dbname = false
  username_ne : isBlank resolved.username = false
  password_ne : isBlank resolved.password = false
  sslMode : ∀ mode ∈ resolved.sslMode, mode ∈ validSslModes
  noSslMode : resolved.sslMode = none ↔ params.endsInDatabase = true

/-- The parts of a connection come from its texts and Secrets. -/
theorem resolvedFrom_of_ok (h : resolveConnectionParams secrets fetchToken params = .ok resolved) :
    ResolvedFrom secrets params resolved := by
  obtain ⟨host?, hhost, h⟩ := bind_eq_ok.1 h
  obtain ⟨host, hhost', h⟩ := bind_eq_ok.1 h
  obtain ⟨port?, hport, h⟩ := bind_eq_ok.1 h
  obtain ⟨port, hport', h⟩ := bind_eq_ok.1 h
  obtain ⟨dbname?, hdbname, h⟩ := bind_eq_ok.1 h
  obtain ⟨dbname, hdbname', h⟩ := bind_eq_ok.1 h
  obtain ⟨username?, -, h⟩ := bind_eq_ok.1 h
  obtain ⟨username, husername, h⟩ := bind_eq_ok.1 h
  obtain ⟨credential, -, h⟩ := bind_eq_ok.1 h
  obtain ⟨password, hpassword, h⟩ := bind_eq_ok.1 h
  obtain ⟨sslMode?, hsslMode?, h⟩ := bind_eq_ok.1 h
  obtain ⟨sslMode, hsslMode, h⟩ := bind_eq_ok.1 h
  obtain rfl := Except.ok.inj h
  obtain ⟨rfl, hhostBlank⟩ := of_requireField hhost'
  obtain ⟨rfl, hdbnameBlank⟩ := of_requireField hdbname'
  obtain ⟨hportText, -⟩ := of_requireField hport'
  exact
    { host := resolveParam_of_resolveField hhost
      port := ⟨port?, resolveParam_of_resolveField hport, (Option.some.inj hportText).symm⟩
      dbname := resolveParam_of_resolveField hdbname
      host_ne := hhostBlank
      dbname_ne := hdbnameBlank
      username_ne := (of_requireField husername).2
      password_ne := (of_requireField hpassword).2
      sslMode := of_checkSslMode hsslMode
      noSslMode := by
        have hfield := eq_none_iff_of_resolveField hsslMode?
        rw [eq_of_checkSslMode hsslMode, Option.or_eq_none_iff, hfield, Option.map_eq_none_iff]
        simp [ConnectionParams.endsInDatabase, Option.isNone_iff_eq_none] }

/-- Both resolutions read one port; the one that is left out is 5432. -/
theorem ResolvedFrom.resolvePort_eq (h : ResolvedFrom secrets params resolved) :
    resolvePort secrets params = parsePort resolved.port := by
  obtain ⟨value, hvalue, hport⟩ := h.port
  unfold resolvePort
  rw [hvalue, hport]
  cases value with
  | none => rfl
  | some text => rfl

/-- What holds of the capitals and of the characters without a small letter holds of all. -/
theorem forall_of_capitals {q : Char → Prop} (hcapitals : ∀ n ∈ Finset.Icc 65 90, q (Char.ofNat n))
    (hothers : ∀ c, lowerChar c = c → q c) (c : Char) : q c := by
  by_cases h : 'A' ≤ c ∧ c ≤ 'Z'
  · have hc := hcapitals c.toNat (Finset.mem_Icc.2 ⟨h.1, h.2⟩)
    rwa [Char.ofNat_toNat] at hc
  · exact hothers c (by rw [lowerChar, if_neg h])

theorem isWhitespace_lowerChar (c : Char) : isWhitespace (lowerChar c) = isWhitespace c :=
  @forall_of_capitals (fun c => isWhitespace (lowerChar c) = isWhitespace c) (by decide)
    (fun c hc => by rw [hc]) c

theorem isBlank_toAsciiLowercase (text : String) :
    isBlank (toAsciiLowercase text) = isBlank text := by
  rw [isBlank, isBlank, toList_toAsciiLowercase, List.all_map]
  congr 1
  funext c
  exact isWhitespace_lowerChar c

/-- The target that the fingerprint is taken of. -/
theorem ResolvedFrom.resolveDatabaseTarget_eq (h : ResolvedFrom secrets params resolved)
    (readUrl : String → Option DatabaseTarget) {connection : ConnectionSpec}
    (hsecretRef : connection.secretRef = none) (hparams : connection.params = some params) :
    resolveDatabaseTarget secrets readUrl connection =
      (parsePort resolved.port).map fun port =>
        (toAsciiLowercase resolved.host, port, resolved.dbname) := by
  unfold resolveDatabaseTarget readTarget
  rw [hsecretRef, hparams]
  simp only
  unfold resolveParams
  rw [h.host, h.dbname, h.resolvePort_eq]
  cases hport : parsePort resolved.port with
  | none => rfl
  | some port =>
      change Option.filter _ (some _) = some _
      rw [Option.filter_eq_some_iff]
      refine ⟨rfl, ?_⟩
      simp only [isBlank_toAsciiLowercase, h.host_ne, h.dbname_ne, Bool.not_false, Bool.and_self]

end Resolved

/-! ## The text of the URL -/

/-- A digit, or the sign that a port number may start with. -/
def isPortChar (c : Char) : Bool := isAsciiDigit c || c == '+'

/-- The text of a port has digits and at most a sign. -/
theorem isPortChar_of_parsePort {text : String} {port : Nat} (h : parsePort text = some port) :
    ∀ c ∈ text.toList, isPortChar c = true := by
  obtain ⟨hparse, -⟩ := Option.filter_eq_some_iff.1 h
  unfold parseUnsigned at hparse
  simp only at hparse
  split_ifs at hparse with hsign hdigits hdigits
  · intro c hc
    cases htext : text.toList with
    | nil =>
        rw [htext] at hc
        cases hc
    | cons d rest =>
        rw [htext] at hc hsign hdigits
        simp only [List.tail_cons, Bool.or_eq_true, not_or, Bool.not_eq_true, Bool.not_eq_false',
          List.head?_cons, beq_iff_eq, Option.some.injEq] at hdigits hsign
        rcases List.mem_cons.1 hc with rfl | hc
        · rw [hsign]
          rfl
        · rw [isPortChar, List.all_eq_true.1 hdigits.2 c hc, Bool.true_or]
  · intro c hc
    simp only [Bool.or_eq_true, not_or, Bool.not_eq_true, Bool.not_eq_false'] at hdigits
    rw [isPortChar, List.all_eq_true.1 hdigits.2 c hc, Bool.true_or]

/-- The text of a port stays in the authority of a URL. -/
theorem inAuthority_of_portChars {text : List Char} (h : ∀ c ∈ text, isPortChar c = true) :
    InAuthority text where
  authority := by
    intro c hc
    by_contra hends
    simp only [endsAuthority, Bool.not_eq_false, Bool.or_eq_true, beq_iff_eq] at hends
    rcases hends with (rfl | rfl) | rfl
    · exact absurd (h _ hc) (by decide)
    · exact absurd (h _ hc) (by decide)
    · exact absurd (h _ hc) (by decide)
  at_not_mem := fun hc => absurd (h _ hc) (by decide)
  bracket_not_mem := fun hc => absurd (h _ hc) (by decide)

/-- The user information of the URL. -/
def loginText (resolved : ResolvedParams) : List Char :=
  percentEncode resolved.username.toList ++ ':' :: percentEncode resolved.password.toList

theorem ne_of_mem_percentEncode {text : List Char} {c d : Char} (h : c ∈ percentEncode text)
    (hd : (d.isAlphanum || d == '%') = false) : c ≠ d := by
  rintro rfl
  rw [isAlphanum_of_mem_percentEncode h] at hd
  cases hd

/-- No character of the login ends the authority. -/
theorem endsAuthority_loginText (resolved : ResolvedParams) :
    ∀ c ∈ loginText resolved, endsAuthority c = false := by
  have hencoded : ∀ text : List Char, ∀ c ∈ percentEncode text, endsAuthority c = false := by
    intro text c hc
    simp only [endsAuthority, Bool.or_eq_false_iff, beq_eq_false_iff_ne]
    exact ⟨⟨ne_of_mem_percentEncode hc (by decide), ne_of_mem_percentEncode hc (by decide)⟩,
      ne_of_mem_percentEncode hc (by decide)⟩
  intro c hc
  rcases List.mem_append.1 hc with hc | hc
  · exact hencoded _ c hc
  · rcases List.mem_cons.1 hc with rfl | hc
    · rfl
    · exact hencoded _ c hc

/-- What follows the scheme in the URL. -/
def addressOf (resolved : ResolvedParams) : List Char :=
  addressText (loginText resolved) resolved.host.toList resolved.port.toList
    (resolved.dbname.toList ++ (sslModeQuery resolved.sslMode).toList)

theorem connectionUrl_eq (resolved : ResolvedParams) :
    connectionUrl resolved = "postgresql://" ++ String.ofList (addressOf resolved) := by
  refine String.toList_injective ?_
  unfold connectionUrl addressOf loginText addressText
  simp

theorem endsPath_sslModeQuery (mode : Option String) :
    ∀ c ∈ (sslModeQuery mode).toList.head?, endsPath c = true := by
  have hstart : "?sslmode=".toList = '?' :: "sslmode=".toList := by decide
  intro c hc
  cases mode with
  | none => cases hc
  | some mode =>
      rw [sslModeQuery, String.toList_append, hstart, List.cons_append, List.head?_cons] at hc
      obtain rfl := Option.some.inj hc
      rfl

/-! ### Cleaning -/

/-- The parameters without what the reader of the URL ignores. -/
def ResolvedParams.cleaned (resolved : ResolvedParams) : ResolvedParams :=
  { resolved with
    host := String.ofList (dropIgnored resolved.host.toList)
    dbname := String.ofList (dropIgnored (
      if resolved.sslMode.isNone then resolved.dbname.toList.rdropWhile isControlOrSpace
      else resolved.dbname.toList)) }

theorem cleaned_host_sublist (resolved : ResolvedParams) :
    resolved.cleaned.host.toList.Sublist resolved.host.toList := by
  rw [ResolvedParams.cleaned, String.toList_ofList]
  exact dropIgnored_sublist _

theorem cleaned_dbname_sublist (resolved : ResolvedParams) :
    resolved.cleaned.dbname.toList.Sublist resolved.dbname.toList := by
  rw [ResolvedParams.cleaned, String.toList_ofList]
  refine (dropIgnored_sublist _).trans ?_
  split
  · exact (List.rdropWhile_prefix _ _).sublist
  · exact List.Sublist.refl _

theorem isIgnored_of_mem_percentEncode {text : List Char} {c : Char}
    (h : c ∈ percentEncode text) : isIgnored c = false := by
  simp only [isIgnored, Bool.or_eq_false_iff, beq_eq_false_iff_ne]
  exact ⟨⟨ne_of_mem_percentEncode h (by decide), ne_of_mem_percentEncode h (by decide)⟩,
    ne_of_mem_percentEncode h (by decide)⟩

theorem isIgnored_loginText (resolved : ResolvedParams) :
    ∀ c ∈ loginText resolved, isIgnored c = false := by
  intro c hc
  rcases List.mem_append.1 hc with hc | hc
  · exact isIgnored_of_mem_percentEncode hc
  · rcases List.mem_cons.1 hc with rfl | hc
    · rfl
    · exact isIgnored_of_mem_percentEncode hc

theorem isIgnored_of_isPortChar {c : Char} (h : isPortChar c = true) : isIgnored c = false :=
  isIgnored_of_class (by decide) h

/-- A mode of encryption is left whole. -/
theorem sslModeQuery_clean {mode : Option String} (h : ∀ text ∈ mode, text ∈ validSslModes) :
    dropIgnored (sslModeQuery mode).toList = (sslModeQuery mode).toList := by
  have hall : ∀ text ∈ validSslModes,
      dropIgnored ("?sslmode=" ++ text).toList = ("?sslmode=" ++ text).toList := by decide
  cases mode with
  | none => rfl
  | some mode => exact hall mode (h mode rfl)

/-- A mode of encryption does not end in anything that is trimmed. -/
theorem sslModeQuery_getLast? {mode : String} (h : mode ∈ validSslModes) :
    ∃ c, (sslModeQuery (some mode)).toList.getLast? = some c ∧ isControlOrSpace c = false := by
  have hall : ∀ text ∈ validSslModes,
      (("?sslmode=" ++ text).toList.getLast?.any fun c => !isControlOrSpace c) = true := by decide
  obtain ⟨c, hc, htrimmed⟩ := (Option.any_eq_true _ _).1 (hall mode h)
  exact ⟨c, hc, by simpa using htrimmed⟩

/-- What the reader of the URL is left with is the text of the cleaned parameters. -/
theorem cleanAddress_addressOf {resolved : ResolvedParams}
    (hport : ∀ c ∈ resolved.port.toList, isPortChar c = true)
    (hmode : ∀ text ∈ resolved.sslMode, text ∈ validSslModes) :
    cleanAddress (addressOf resolved) = addressOf resolved.cleaned := by
  have hportText := dropIgnored_of_forall fun c hc => isIgnored_of_isPortChar (hport c hc)
  have hlogin := dropIgnored_of_forall (isIgnored_loginText resolved)
  have hcons : ∀ (c : Char) (text : List Char), isIgnored c = false →
      dropIgnored (c :: text) = c :: dropIgnored text := fun c text hc =>
    List.filter_cons_of_pos (by rw [hc]; rfl)
  have hdropped : ∀ dbname : List Char, dropIgnored (addressText (loginText resolved)
      resolved.host.toList resolved.port.toList
        (dbname ++ (sslModeQuery resolved.sslMode).toList)) =
      addressText (loginText resolved) (dropIgnored resolved.host.toList) resolved.port.toList
        (dropIgnored dbname ++ (sslModeQuery resolved.sslMode).toList) := by
    intro dbname
    simp only [addressText, dropIgnored_append, hlogin, hportText, sslModeQuery_clean hmode,
      hcons '@' _ (by decide), hcons ':' _ (by decide), hcons '/' _ (by decide)]
  rw [cleanAddress, addressOf, addressOf, ResolvedParams.cleaned]
  simp only [String.toList_ofList]
  cases hsslMode : resolved.sslMode with
  | none =>
      have htrim : (addressText (loginText resolved) resolved.host.toList resolved.port.toList
          (resolved.dbname.toList ++ (sslModeQuery none).toList)).rdropWhile isControlOrSpace =
          addressText (loginText resolved) resolved.host.toList resolved.port.toList
            (resolved.dbname.toList.rdropWhile isControlOrSpace ++ (sslModeQuery none).toList) := by
        have hcut := rdropWhile_append_stop (p := isControlOrSpace) (d := '/')
          (a := loginText resolved ++ '@' :: (resolved.host.toList ++ ':' :: resolved.port.toList))
          (b := resolved.dbname.toList) (by decide)
        simpa [addressText, sslModeQuery] using hcut
      rw [htrim, ← hsslMode, hdropped, hsslMode]
      rfl
  | some mode =>
      obtain ⟨c, hlast, hc⟩ := sslModeQuery_getLast? (hmode mode hsslMode)
      have htrim : (addressText (loginText resolved) resolved.host.toList resolved.port.toList
          (resolved.dbname.toList ++ (sslModeQuery (some mode)).toList)).rdropWhile isControlOrSpace =
          addressText (loginText resolved) resolved.host.toList resolved.port.toList
            (resolved.dbname.toList ++ (sslModeQuery (some mode)).toList) := by
        refine rdropWhile_of_getLast? ?_ hc
        have hsuffix : addressText (loginText resolved) resolved.host.toList resolved.port.toList
            (resolved.dbname.toList ++ (sslModeQuery (some mode)).toList) =
            (loginText resolved ++ '@' :: (resolved.host.toList ++ ':' ::
              (resolved.port.toList ++ '/' :: resolved.dbname.toList))) ++
              (sslModeQuery (some mode)).toList := by
          simp [addressText]
        rw [hsuffix, List.getLast?_append, hlast]
        rfl
      rw [htrim, ← hsslMode, hdropped, hsslMode]
      rfl

end PgRoles.Operator

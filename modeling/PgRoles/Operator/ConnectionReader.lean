import PgRoles.Lib.Url
import PgRoles.Operator.PolicyConflict

/-!
# The driver's reader of connection URLs

The driver reads a connection URL with a parser that is not part of the repository. Here it is a
parameter, and what it documents is assumed of the URLs that it reads (`UrlReader.Laws`). The text
is cleaned and cut by the generic syntax. A host keeps its spelling, but an address in brackets gets
its canonical one, and a host whose first character is an escaped slash leads to a socket instead.
User, password and path are read with their escapes, the path without slashes at its start and
segments of dots, and then parameters of the query take the place of what was read.

The laws bound what can be read by bytes: an escape and the name of a parameter use up bytes that
nothing else brings back (`targetBytes_of_foldlM`).
-/

set_option autoImplicit false

namespace PgRoles.Operator

open Std PgRoles.Lib PgRoles.Core

/-! ## Options -/

/-- What a connection URL says; where it says nothing the driver falls back on its environment. A
socket takes the place of host and port. -/
structure ConnectOptions where
  host : Option String := none
  socket : Option String := none
  port : Option Nat := none
  database : Option String := none
  user : Option String := none
  password : Option String := none
  deriving DecidableEq

/-- The number of a port, in digits. -/
def portNumber (text : List Char) : Option Nat :=
  if text.all isAsciiDigit then parsePort (String.ofList text) else none

/-- A parameter of the query; others than these leave target and login alone. -/
def ConnectOptions.set (options : ConnectOptions) (key value : String) : Option ConnectOptions :=
  if key = "host" then
    if value.toList.head? = some '/' then some { options with socket := some value }
    else some { options with host := some value }
  else if key = "hostaddr" then some { options with host := some value }
  else if key = "port" then (parsePort value).map fun port => { options with port := some port }
  else if key = "dbname" then some { options with database := some value }
  else if key = "user" then some { options with user := some value }
  else if key = "password" then some { options with password := some value }
  else some options

/-! ## The reader -/

/-- The driver's reader: what it reads of a URL, the canonical spelling of an address in brackets,
and the text of a key or a value of a query. -/
structure UrlReader where
  read : String → Option ConnectOptions
  address : List Char → List Char
  formText : List Char → List Char

/-- The options with one more parameter of the query. -/
def UrlReader.applyParam (reader : UrlReader) (options : ConnectOptions)
    (param : List Char × List Char) : Option ConnectOptions :=
  options.set (String.ofList (reader.formText param.1)) (String.ofList (reader.formText param.2))

/-- A character of ASCII that is seen. -/
def isGraphic (c : Char) : Bool := 33 ≤ c.toNat && c.toNat ≤ 126

/-- A character of an address in brackets. -/
def isAddressChar (c : Char) : Bool :=
  isAsciiDigit c || 'a' ≤ c && c ≤ 'f' || c == ':' || c == '[' || c == ']'

/-- The first byte of the host is an escaped slash. -/
def leadsToSocket (host : List Char) : Bool := (percentBytes host).head? == some 47

/-- The spelling of a host: canonical for an address in brackets, and otherwise in ASCII, as it
stands where that is ASCII already. -/
def UrlReader.Spells (reader : UrlReader) (text host : List Char) : Prop :=
  if text.head? = some '[' then host = reader.address text
  else (∀ c ∈ host, isGraphic c = true) ∧ ((∀ c ∈ text, isGraphic c = true) → host = text)

/-- The options that are read of the parts of a URL, before its query. -/
structure UrlReader.ReadsParts (reader : UrlReader) (parts : UrlParts) (options : ConnectOptions) :
    Prop where
  no_host : parts.host = [] → options.host = none
  socket : options.socket.isSome = leadsToSocket parts.host
  host : parts.host ≠ [] → options.socket = none →
    ∃ host, options.host = some (String.ofList host) ∧ reader.Spells parts.host host
  port : parts.port = [] ∨
    ∃ port, portNumber parts.port = some port ∧ options.port = some port
  database : ∃ path : List Char, path.Sublist (parts.path.drop 1) ∧
    (path = parts.path.drop 1 ↔ isPlainPath (parts.path.drop 1) = true) ∧
    percentDecode path = some (options.database.getD "").toList
  login : ∀ user password, parts.userinfo = some (user ++ ':' :: password) → ':' ∉ user →
    user ≠ [] → password ≠ [] → ∃ name secret, percentDecode user = some name ∧
      percentDecode password = some secret ∧ options.user = some (String.ofList name) ∧
      options.password = some (String.ofList secret)

/-- In a query a `+` is a blank. -/
def plusToSpace (c : Char) : Char := if c = '+' then ' ' else c

/-- What is assumed of the reader: what it reads of a URL that it accepts, the characters of an
address, and the text of a parameter, in which only bytes that are no text are replaced. -/
structure UrlReader.Laws (reader : UrlReader) : Prop where
  reads : ∀ rest options, reader.read ("postgresql://" ++ rest) = some options →
    ∃ parts start, splitParts (cleanAddress rest.toList) = some parts ∧
      reader.ReadsParts parts start ∧
      (queryParams parts.query).foldlM reader.applyParam start = some options
  address : ∀ text, ∀ c ∈ reader.address text, isAddressChar c = true
  formText : ∀ text decoded, percentDecode (text.map plusToSpace) = some decoded →
    reader.formText text = decoded
  replaced : ∀ (p : UInt8 → Bool) text, p 37 = true → byteCount p [' ', '\uFFFD'] = 0 →
    byteCount p (reader.formText text) ≤ byteCount p text

/-! ## Bytes of the target -/

/-- The bytes that an escape or the name of a parameter for the host or the database uses up. -/
def isTargetByte (b : UInt8) : Bool := [37, 72, 78, 104, 110].contains b

/-- The bytes of a host or a database that are counted. -/
def targetBytes (text : Option String) : Nat := byteCount isTargetByte (text.getD "").toList

section Parameters

variable {reader : UrlReader} {options options' : ConnectOptions}

/-- A socket stays. -/
theorem socket_of_set {key value : String} (h : options.set key value = some options')
    (hsocket : options'.socket = none) : options.socket = none := by
  unfold ConnectOptions.set at h
  split_ifs at h
  · obtain rfl := Option.some.inj h
    cases hsocket
  · obtain rfl := Option.some.inj h
    exact hsocket
  · obtain rfl := Option.some.inj h
    exact hsocket
  · obtain ⟨port, -, rfl⟩ := Option.map_eq_some_iff.1 h
    exact hsocket
  all_goals
    obtain rfl := Option.some.inj h
    exact hsocket

theorem socket_of_foldlM {query : List (List Char × List Char)}
    (h : query.foldlM reader.applyParam options = some options')
    (hsocket : options'.socket = none) : options.socket = none := by
  induction query generalizing options with
  | nil =>
      obtain rfl := Option.some.inj h
      exact hsocket
  | cons param query ih =>
      rw [List.foldlM_cons] at h
      obtain ⟨middle, hstep, h⟩ := Option.bind_eq_some_iff.1 h
      exact socket_of_set hstep (ih h)

/-- Host and database are as before or were written out of bytes that are charged to them, a byte
more than was written. -/
structure Charged (options options' : ConnectOptions) (hostCharge databaseCharge : Nat) : Prop where
  host : options'.host = options.host ∨ targetBytes options'.host + 1 ≤ hostCharge
  database : options'.database = options.database ∨
    targetBytes options'.database + 1 ≤ databaseCharge

/-- A parameter that writes the host or the database uses up a byte of its name. -/
theorem targetBytes_of_applyParam (laws : reader.Laws) {param : List Char × List Char}
    (h : reader.applyParam options param = some options') :
    ∃ hostCharge databaseCharge, Charged options options' hostCharge databaseCharge ∧
      hostCharge + databaseCharge ≤
        byteCount isTargetByte param.1 + byteCount isTargetByte param.2 := by
  have hkeyCount := laws.replaced isTargetByte param.1 rfl (by decide)
  have hvalueCount := laws.replaced isTargetByte param.2 rfl (by decide)
  have hname : ∀ name : String, String.ofList (reader.formText param.1) = name →
      byteCount isTargetByte (reader.formText param.1) = byteCount isTargetByte name.toList := by
    intro name hkey
    rw [← hkey, String.toList_ofList]
  have hwritten : targetBytes (some (String.ofList (reader.formText param.2))) =
      byteCount isTargetByte (reader.formText param.2) := by
    rw [targetBytes, Option.getD_some, String.toList_ofList]
  unfold UrlReader.applyParam ConnectOptions.set at h
  split_ifs at h with hhost hslash haddr hport hdbname huser hpassword
  · obtain rfl := Option.some.inj h
    exact ⟨0, 0, ⟨Or.inl rfl, Or.inl rfl⟩, Nat.zero_le _⟩
  · obtain rfl := Option.some.inj h
    have hbyte : byteCount isTargetByte "host".toList = 1 := by decide
    rw [hname _ hhost, hbyte] at hkeyCount
    exact ⟨_, 0, ⟨Or.inr (by rw [hwritten]), Or.inl rfl⟩, by omega⟩
  · obtain rfl := Option.some.inj h
    have hbyte : byteCount isTargetByte "hostaddr".toList = 1 := by decide
    rw [hname _ haddr, hbyte] at hkeyCount
    exact ⟨_, 0, ⟨Or.inr (by rw [hwritten]), Or.inl rfl⟩, by omega⟩
  · obtain ⟨port, -, rfl⟩ := Option.map_eq_some_iff.1 h
    exact ⟨0, 0, ⟨Or.inl rfl, Or.inl rfl⟩, Nat.zero_le _⟩
  · obtain rfl := Option.some.inj h
    have hbyte : byteCount isTargetByte "dbname".toList = 1 := by decide
    rw [hname _ hdbname, hbyte] at hkeyCount
    exact ⟨0, _, ⟨Or.inl rfl, Or.inr (by rw [hwritten])⟩, by omega⟩
  all_goals
    obtain rfl := Option.some.inj h
    exact ⟨0, 0, ⟨Or.inl rfl, Or.inl rfl⟩, Nat.zero_le _⟩

/-- So do the parameters of a query together. -/
theorem targetBytes_of_foldlM (laws : reader.Laws) {query : List (List Char × List Char)}
    (h : query.foldlM reader.applyParam options = some options') :
    ∃ hostCharge databaseCharge, Charged options options' hostCharge databaseCharge ∧
      hostCharge + databaseCharge ≤ (query.map fun param =>
        byteCount isTargetByte param.1 + byteCount isTargetByte param.2).sum := by
  induction query generalizing options with
  | nil =>
      obtain rfl := Option.some.inj h
      exact ⟨0, 0, ⟨Or.inl rfl, Or.inl rfl⟩, Nat.zero_le _⟩
  | cons param query ih =>
      rw [List.foldlM_cons] at h
      obtain ⟨middle, hstep, h⟩ := Option.bind_eq_some_iff.1 h
      obtain ⟨hostStep, databaseStep, hcharged, hstepSum⟩ := targetBytes_of_applyParam laws hstep
      obtain ⟨hostRest, databaseRest, hrest, hrestSum⟩ := ih h
      rw [List.map_cons, List.sum_cons]
      refine ⟨hostStep + hostRest, databaseStep + databaseRest, ⟨?_, ?_⟩, by omega⟩
      · rcases hrest.host with hsame | hpaid
        · rw [hsame]
          exact hcharged.host.imp_right fun hpaid => by omega
        · exact Or.inr (by omega)
      · rcases hrest.database with hsame | hpaid
        · rw [hsame]
          exact hcharged.database.imp_right fun hpaid => by omega
        · exact Or.inr (by omega)

end Parameters

end PgRoles.Operator

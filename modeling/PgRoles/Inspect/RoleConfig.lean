import PgRoles.Core.ExpandSpec
import PgRoles.Semantics.PlanConvergence
import PgRoles.Sql.Pieces

/-!
# Settings through the server

A setting of a role travels through four hands: its value is put into canonical form, rendered as
literals of `ALTER ROLE … SET`, stored by the server as one text, and that text is parsed and put
into canonical form again. For a list parameter each hand splits and quotes the elements; whatever
the server quotes, a list with at least one element comes back as it was (`splitGucList_join`). An
empty list does not: the server stores the empty element the renderer writes for it, and neither
does a value with an unterminated quote, which is rendered as if it were empty
(`roundTrips_iff`).
-/

set_option autoImplicit false

namespace PgRoles.Inspect

open Std PgRoles.Lib PgRoles.Core PgRoles.Sql PgRoles.Semantics

/-! ## Elements of a list -/

/-- Characters of simple identifiers after the first. -/
def isSimpleChar (c : Char) : Bool := isAsciiLower c || isAsciiDigit c || c == '_'

/-- A simple lowercase identifier. -/
def isSimpleElement : List Char → Bool
  | [] => false
  | c :: cs => (isAsciiLower c || c == '_') && cs.all isSimpleChar

/-- The text is the element, simple or in quotes. -/
def WritesElement (text element : String) : Prop :=
  (text = element ∧ isSimpleElement element.toList = true) ∨ text = quoteIdent element

theorem replaceChars_quote (cs : List Char) :
    replaceChars "\"".toList "\"\"".toList 0 cs = cs.flatMap quoteChar := by
  induction cs with
  | nil => rfl
  | cons c cs ih =>
      by_cases hc : c = '"'
      · subst hc
        rw [List.flatMap_cons, ← ih]
        rfl
      · have hquote : "\"".toList.isPrefixOf (c :: cs) = false := by
          have hne : '"' ≠ c := fun h => hc h.symm
          simp [List.isPrefixOf, hne]
        rw [List.flatMap_cons, ← ih, replaceChars, hquote, quoteChar, if_neg hc]
        rfl

/-- An element is quoted unless it is simple. -/
theorem quoteElementIfNeeded_eq (element : String) :
    quoteElementIfNeeded element =
      if isSimpleElement element.toList then element else quoteIdent element := by
  have hquoted : "\"" ++ replaceText element "\"" "\"\"" ++ "\"" = quoteIdent element := by
    apply String.toList_injective
    rw [replaceText, replaceChars_quote, quoteIdent]
    simp
  unfold quoteElementIfNeeded isSimpleElement isSimpleChar
  generalize "\"" ++ replaceText element "\"" "\"\"" ++ "\"" = quoted at hquoted ⊢
  subst hquoted
  cases element.toList with
  | nil => rfl
  | cons c cs => rfl

theorem writesElement_quoteElementIfNeeded (element : String) :
    WritesElement (quoteElementIfNeeded element) element := by
  rw [quoteElementIfNeeded_eq]
  split_ifs with hsimple
  · exact .inl ⟨rfl, hsimple⟩
  · exact .inr rfl

/-! ## Splitting what was joined -/

/-- A character of a simple identifier neither ends a bare element nor starts a quoted one. -/
theorem not_separator_of_isSimpleChar {c : Char} (h : isSimpleChar c = true) :
    (isWhitespace c || c == ',') = false ∧ c ≠ '"' := by
  have hrange : (97 ≤ c.toNat ∧ c.toNat ≤ 122) ∨ (48 ≤ c.toNat ∧ c.toNat ≤ 57) ∨ c.toNat = 95 := by
    simp only [isSimpleChar, isAsciiLower, isAsciiDigit, Bool.or_eq_true, Bool.and_eq_true,
      decide_eq_true_eq, beq_iff_eq, Char.le_def, UInt32.le_iff_toNat_le] at h
    rcases h with (⟨hlow, hhigh⟩ | ⟨hlow, hhigh⟩) | rfl
    · exact .inl ⟨hlow, hhigh⟩
    · exact .inr (.inl ⟨hlow, hhigh⟩)
    · exact .inr (.inr rfl)
  have hne : ∀ d : Char, d.toNat = 34 ∨ d.toNat = 44 → c ≠ d := by
    intro d hd heq
    rw [heq] at hrange
    omega
  refine ⟨?_, hne '"' (.inl rfl)⟩
  have hcomma : (c == ',') = false := beq_eq_false_iff_ne.2 (hne ',' (.inr rfl))
  rw [hcomma, Bool.or_false]
  simp only [isWhitespace, Bool.or_eq_false_iff, Bool.and_eq_false_iff, decide_eq_false_iff_not,
    beq_eq_false_iff_ne]
  omega

theorem splitGucChars_between_nil (elements : List String) :
    splitGucChars .between elements [] = some elements.reverse := rfl

theorem splitGucChars_bare_cons (acc : List Char) (elements : List String) (c : Char)
    (cs : List Char) :
    splitGucChars (.bare acc) elements (c :: cs) =
      if isWhitespace c || c == ',' then
        splitGucChars .between (String.ofList acc.reverse :: elements) cs
      else splitGucChars (.bare (c :: acc)) elements cs := rfl

theorem splitGucChars_quoted_cons (acc : List Char) (elements : List String) (c : Char)
    (cs : List Char) :
    splitGucChars (.quoted acc) elements (c :: cs) =
      if c == '"' then splitGucChars (.quoteSeen acc) elements cs
      else splitGucChars (.quoted (c :: acc)) elements cs := rfl

/-- A simple element is read up to its end. -/
theorem splitGucChars_bare {cs : List Char} (h : cs.all isSimpleChar = true) (acc : List Char)
    (elements : List String) (rest : List Char) :
    splitGucChars (.bare acc) elements (cs ++ rest) =
      splitGucChars (.bare (cs.reverse ++ acc)) elements rest := by
  induction cs generalizing acc with
  | nil => rfl
  | cons c cs ih =>
      rw [List.all_cons, Bool.and_eq_true] at h
      rw [List.cons_append, splitGucChars_bare_cons, (not_separator_of_isSimpleChar h.1).1,
        if_neg Bool.false_ne_true, ih h.2, List.reverse_cons, List.append_assoc]
      rfl

/-- A quoted element is read up to its closing quote. -/
theorem splitGucChars_quoted (cs acc : List Char) (elements : List String) (rest : List Char) :
    splitGucChars (.quoted acc) elements (cs.flatMap quoteChar ++ rest) =
      splitGucChars (.quoted (cs.reverse ++ acc)) elements rest := by
  induction cs generalizing acc with
  | nil => rfl
  | cons c cs ih =>
      rw [List.flatMap_cons, List.append_assoc]
      have hone : splitGucChars (.quoted acc) elements
            (quoteChar c ++ (cs.flatMap quoteChar ++ rest)) =
          splitGucChars (.quoted (c :: acc)) elements (cs.flatMap quoteChar ++ rest) := by
        unfold quoteChar
        split_ifs with hc
        · subst hc
          rfl
        · have hne : (c == '"') = false := beq_eq_false_iff_ne.2 hc
          rw [List.singleton_append, splitGucChars_quoted_cons, hne, if_neg Bool.false_ne_true]
      rw [hone, ih, List.reverse_cons, List.append_assoc]
      rfl

/-- What may follow an element. -/
def EndsElement (rest : List Char) : Prop := rest = [] ∨ ∃ r, rest = ',' :: r

theorem splitGucChars_bare_end {rest : List Char} (h : EndsElement rest) (acc : List Char)
    (elements : List String) :
    splitGucChars (.bare acc) elements rest =
      splitGucChars .between (String.ofList acc.reverse :: elements) rest := by
  rcases h with rfl | ⟨r, rfl⟩ <;> rfl

theorem splitGucChars_quoteSeen_end {rest : List Char} (h : EndsElement rest) (acc : List Char)
    (elements : List String) :
    splitGucChars (.quoteSeen acc) elements rest =
      splitGucChars .between (String.ofList acc.reverse :: elements) rest := by
  rcases h with rfl | ⟨r, rfl⟩ <;> rfl

/-- A written element is read back, however it is written. -/
theorem splitGucChars_element {text element : String} (h : WritesElement text element)
    {rest : List Char} (hrest : EndsElement rest) (elements : List String) :
    splitGucChars .between elements (text.toList ++ rest) =
      splitGucChars .between (element :: elements) rest := by
  rcases h with ⟨rfl, hsimple⟩ | rfl
  · cases hchars : text.toList with
    | nil => rw [hchars] at hsimple; exact absurd hsimple Bool.false_ne_true
    | cons c cs =>
        rw [hchars, isSimpleElement, Bool.and_eq_true] at hsimple
        have hc : isSimpleChar c = true := by
          rcases Bool.or_eq_true_iff.1 hsimple.1 with hlower | hunder
          · simp [isSimpleChar, hlower]
          · simp [isSimpleChar, hunder]
        obtain ⟨hseparator, hquote⟩ := not_separator_of_isSimpleChar hc
        have hstart : startElement c = .bare [c] := by
          rw [startElement, hseparator, if_neg Bool.false_ne_true, if_neg]
          exact fun h => hquote (beq_iff_eq.1 h)
        have htext : String.ofList (cs.reverse ++ [c]).reverse = text := by
          rw [← List.reverse_cons, List.reverse_reverse, ← hchars, String.ofList_toList]
        change splitGucChars (startElement c) elements (cs ++ rest) = _
        rw [hstart, splitGucChars_bare hsimple.2, splitGucChars_bare_end hrest, htext]
  · have hchars : (quoteIdent element).toList ++ rest =
        '"' :: (element.toList.flatMap quoteChar ++ '"' :: rest) := by
      simp [quoteIdent]
    have htext : String.ofList (element.toList.reverse ++ []).reverse = element := by
      rw [List.append_nil, List.reverse_reverse, String.ofList_toList]
    rw [hchars]
    change splitGucChars (.quoted []) elements (element.toList.flatMap quoteChar ++ '"' :: rest) = _
    rw [splitGucChars_quoted]
    change splitGucChars (.quoteSeen (element.toList.reverse ++ [])) elements rest = _
    rw [splitGucChars_quoteSeen_end hrest, htext]

/-- Joined elements are split again, however each of them is written. -/
theorem splitGucChars_join {write : String → String} (h : ∀ e, WritesElement (write e) e)
    (es elements : List String) :
    splitGucChars .between elements (", ".intercalate (es.map write)).toList =
      some (elements.reverse ++ es) := by
  induction es generalizing elements with
  | nil =>
      rw [List.map_nil, String.intercalate_nil, List.append_nil]
      exact splitGucChars_between_nil elements
  | cons e es ih =>
      cases es with
      | nil =>
          have hlast := splitGucChars_element (h e) (.inl rfl) elements
          rw [List.append_nil] at hlast
          rw [List.map_singleton, String.intercalate_singleton, hlast, splitGucChars_between_nil,
            List.reverse_cons]
      | cons e' es =>
          have htext : (", ".intercalate ((e :: e' :: es).map write)).toList =
              (write e).toList ++ ',' :: ' ' ::
                (", ".intercalate ((e' :: es).map write)).toList := by
            simp [String.intercalate_cons_cons]
          rw [htext, splitGucChars_element (h e) (.inr ⟨_, rfl⟩)]
          -- the comma and the space are skipped
          change splitGucChars .between (e :: elements)
            (", ".intercalate ((e' :: es).map write)).toList = _
          rw [ih, List.reverse_cons, List.append_assoc]
          rfl

theorem splitGucList_join {write : String → String} (h : ∀ e, WritesElement (write e) e)
    (es : List String) : splitGucList (", ".intercalate (es.map write)) = some es :=
  splitGucChars_join h es []

/-! ## Canonical form -/

theorem canonicalize_of_splits {v : String} {es : List String} (h : splitGucList v = some es) :
    canonicalizeListGucValue v = ", ".intercalate (es.map quoteElementIfNeeded) := by
  rw [canonicalizeListGucValue, h]

theorem canonicalize_of_unterminated {v : String} (h : splitGucList v = none) :
    canonicalizeListGucValue v = v := by
  rw [canonicalizeListGucValue, h]

/-- The canonical form has the elements of the value. -/
theorem splitGucList_canonicalize (v : String) :
    splitGucList (canonicalizeListGucValue v) = splitGucList v := by
  cases hsplit : splitGucList v with
  | none => rw [canonicalize_of_unterminated hsplit, hsplit]
  | some es =>
      rw [canonicalize_of_splits hsplit]
      exact splitGucList_join writesElement_quoteElementIfNeeded es

theorem canonicalize_idem (v : String) :
    canonicalizeListGucValue (canonicalizeListGucValue v) = canonicalizeListGucValue v := by
  cases hsplit : splitGucList v with
  | none => rw [canonicalize_of_unterminated hsplit, canonicalize_of_unterminated hsplit]
  | some es =>
      have hcanonical := splitGucList_canonicalize v
      rw [hsplit] at hcanonical
      rw [canonicalize_of_splits hcanonical, canonicalize_of_splits hsplit]

/-- Two list values have one canonical form exactly when they have the same elements. -/
theorem canonicalize_eq_iff {v w : String} (hv : (splitGucList v).isSome)
    (hw : (splitGucList w).isSome) :
    canonicalizeListGucValue v = canonicalizeListGucValue w ↔ splitGucList v = splitGucList w := by
  constructor
  · intro h
    rw [← splitGucList_canonicalize v, h, splitGucList_canonicalize]
  · intro h
    obtain ⟨es, hes⟩ := Option.isSome_iff_exists.1 hv
    obtain ⟨fs, hfs⟩ := Option.isSome_iff_exists.1 hw
    rw [hes, hfs, Option.some.injEq] at h
    rw [canonicalize_of_splits hes, canonicalize_of_splits hfs, h]

/-- The canonical form keeps the elements and is its own; it tells list values apart by their
elements, and from a value with an unterminated quote, which stays as it is. -/
theorem canonicalize_normalForm (v w : String) :
    splitGucList (canonicalizeListGucValue v) = splitGucList v ∧
    canonicalizeListGucValue (canonicalizeListGucValue v) = canonicalizeListGucValue v ∧
    ((splitGucList v).isSome → (splitGucList w).isSome →
      (canonicalizeListGucValue v = canonicalizeListGucValue w ↔
        splitGucList v = splitGucList w)) ∧
    (splitGucList v = none → canonicalizeListGucValue v = v ∧
      ((splitGucList w).isSome → v ≠ canonicalizeListGucValue w)) := by
  refine ⟨splitGucList_canonicalize v, canonicalize_idem v, canonicalize_eq_iff, fun hv =>
    ⟨canonicalize_of_unterminated hv, ?_⟩⟩
  -- the canonical form of a list value splits
  rintro hw rfl
  rw [splitGucList_canonicalize] at hv
  rw [hv] at hw
  cases hw

/-! ## The server -/

/-- What the server decides about settings: the words it quotes as keywords, and how its catalog
spells a parameter, whose name ignores case. -/
structure SettingServer where
  keyword : String → Bool
  spelling : String → String
  lower_spelling : ∀ parameter, toAsciiLowercase (spelling parameter) = toAsciiLowercase parameter

/-- `quote_identifier` of the server: a simple identifier that is no keyword stays as it is. -/
def SettingServer.quoteIdentifier (server : SettingServer) (element : String) : String :=
  if isSimpleElement element.toList && !server.keyword element then element
  else quoteIdent element

/-- The parameter and the literals of an `ALTER ROLE … SET`, as the server reads them. -/
def settingOf (sql : String) : Option (String × List String) :=
  match (sqlTokens sql.toList).bind decodeQuoted with
  | some (.ident _ :: .ident parameter :: values) =>
      some (String.ofList parameter, values.filterMap fun
        | .literal value => some (String.ofList value)
        | _ => none)
  | _ => none

/-- What is stored for the literals: a list parameter has its elements quoted and joined, any other
takes one literal and keeps it. -/
def SettingServer.storedValue (server : SettingServer) (parameter : String)
    (literals : List String) : Option String :=
  if isListQuoteParameter (toAsciiLowercase parameter) then
    some (", ".intercalate (literals.map server.quoteIdentifier))
  else
    match literals with
    | [value] => some value
    | _ => none

/-- The catalog's entry for a setting. -/
def SettingServer.storedEntry (server : SettingServer) (sql : String) : Option String := do
  let (parameter, literals) ← settingOf sql
  let value ← server.storedValue parameter literals
  return server.spelling parameter ++ "=" ++ value

/-- The catalog's entries after the settings of a role are rendered and executed; the parameters
are distinct, so no entry replaces another. -/
def SettingServer.rolconfig (server : SettingServer) (name : String)
    (config : BTreeMap String String) : List String :=
  config.toList.filterMap fun e => server.storedEntry (renderSetConfig name e.1 e.2)

/-! ## Inspection -/

/-- Parse one entry `parameter=value` of the catalog. -/
def parseRolconfigEntry (entry : String) : Option (String × String) :=
  let rawName := entry.toList.takeWhile (· ≠ '=')
  match entry.toList.dropWhile (· ≠ '=') with
  | [] => none
  | _ :: rawValue =>
      let parameter := toAsciiLowercase (String.ofList rawName)
      let value := String.ofList rawValue
      some (parameter,
        if isListQuoteParameter parameter then canonicalizeListGucValue value else value)

/-- The settings inspection reports for a role. -/
def inspectedConfig (rolconfig : List String) : BTreeMap String String :=
  ExtTreeMap.ofList (rolconfig.filterMap parseRolconfigEntry) compare

/-- The settings of a definition are inspected as they are desired, and the next diff changes no
attribute. -/
def RoundTrips (server : SettingServer) (d : RoleDefinition) : Prop :=
  let desired := RoleState.fromDefinition d
  let inspected := inspectedConfig (server.rolconfig d.name desired.config)
  inspected = desired.config ∧
    ({ desired with config := inspected } : RoleState).changedAttributes desired = []

/-! ## One setting -/

theorem writesElement_quoteIdentifier (server : SettingServer) (element : String) :
    WritesElement (server.quoteIdentifier element) element := by
  unfold SettingServer.quoteIdentifier
  split_ifs with hsimple
  · rw [Bool.and_eq_true] at hsimple
    exact .inl ⟨rfl, hsimple.1⟩
  · exact .inr rfl

/-- The statement sets the parameter to the values it was written for. -/
theorem settingOf_renderSetConfig (name parameter value : String) :
    settingOf (renderSetConfig name parameter value) =
      some (parameter, settingValues parameter value) := by
  obtain ⟨tokens, htokens, -, hdecode⟩ :=
    (written_renderSetConfig name parameter value).isStatement
  have hsemi : decodeQuoted (tokens ++ [.sym ';']) = decodeQuoted tokens := by
    unfold decodeQuoted
    rw [List.filter_append]
    simp [SqlToken.isQuoted]
  unfold settingOf
  rw [htokens, Option.bind_some, hsemi, hdecode, quoted_setConfigPieces]
  simp [nameToken, valueToken, List.filterMap_map, Function.comp_def]

/-- What inspection reads after a setting is rendered and stored. -/
def readBack (parameter value : String) : String :=
  if isListQuoteParameter parameter then
    ", ".intercalate ((settingValues parameter value).map quoteElementIfNeeded)
  else value

theorem canonicalize_stored (server : SettingServer) (es : List String) :
    canonicalizeListGucValue (", ".intercalate (es.map server.quoteIdentifier)) =
      ", ".intercalate (es.map quoteElementIfNeeded) := by
  rw [canonicalizeListGucValue, splitGucList_join (writesElement_quoteIdentifier server)]

/-- An entry is parsed at its first equals sign, which the name has none of. -/
theorem parseRolconfigEntry_append {name value : String} (h : '=' ∉ name.toList) :
    parseRolconfigEntry (name ++ "=" ++ value) =
      some (toAsciiLowercase name,
        if isListQuoteParameter (toAsciiLowercase name) then canonicalizeListGucValue value
        else value) := by
  have htext : (name ++ "=" ++ value).toList = name.toList ++ '=' :: value.toList := by simp
  have hname : ∀ c ∈ name.toList, decide (c ≠ '=') = true := by
    intro c hc
    rw [decide_eq_true_eq]
    rintro rfl
    exact h hc
  have htake : (name.toList ++ '=' :: value.toList).takeWhile (· ≠ '=') = name.toList := by
    rw [List.takeWhile_append_of_pos hname]
    simp
  have hdrop : (name.toList ++ '=' :: value.toList).dropWhile (· ≠ '=') = '=' :: value.toList := by
    rw [List.dropWhile_append_of_pos hname]
    simp
  unfold parseRolconfigEntry
  rw [htext, htake, hdrop]
  simp only [String.ofList_toList]

/-! ## Names of parameters -/

/-- A character with its case folded, if it is of ASCII. -/
def lowerChar (c : Char) : Char := if 'A' ≤ c ∧ c ≤ 'Z' then c.toLower else c

theorem toList_toAsciiLowercase (text : String) :
    (toAsciiLowercase text).toList = text.toList.map lowerChar :=
  String.toList_ofList

/-- An uppercase letter becomes a lowercase one. -/
theorem lowerChar_of_upper {c : Char} (h : 'A' ≤ c ∧ c ≤ 'Z') :
    lowerChar (lowerChar c) = lowerChar c ∧ lowerChar c ≠ '=' := by
  have hall : ∀ n ∈ Finset.Icc 65 90, lowerChar (lowerChar (Char.ofNat n)) =
      lowerChar (Char.ofNat n) ∧ lowerChar (Char.ofNat n) ≠ '=' := by decide
  have hc := hall c.toNat (Finset.mem_Icc.2 ⟨h.1, h.2⟩)
  rwa [Char.ofNat_toNat] at hc

theorem lowerChar_lowerChar (c : Char) : lowerChar (lowerChar c) = lowerChar c := by
  by_cases h : 'A' ≤ c ∧ c ≤ 'Z'
  · exact (lowerChar_of_upper h).1
  · have hsame : lowerChar c = c := if_neg h
    rw [hsame, hsame]

theorem lowerChar_eq_equals_iff {c : Char} : lowerChar c = '=' ↔ c = '=' := by
  by_cases h : 'A' ≤ c ∧ c ≤ 'Z'
  · refine iff_of_false (lowerChar_of_upper h).2 ?_
    rintro rfl
    exact absurd h (by decide)
  · rw [lowerChar, if_neg h]

theorem toAsciiLowercase_idem (text : String) :
    toAsciiLowercase (toAsciiLowercase text) = toAsciiLowercase text := by
  apply String.toList_injective
  rw [toList_toAsciiLowercase, toList_toAsciiLowercase, List.map_map]
  exact List.map_congr_left fun c _ => lowerChar_lowerChar c

theorem equals_mem_toAsciiLowercase {text : String} :
    '=' ∈ (toAsciiLowercase text).toList ↔ '=' ∈ text.toList := by
  rw [toList_toAsciiLowercase, List.mem_map]
  constructor
  · intro h
    obtain ⟨c, hc, heq⟩ := h
    rwa [← lowerChar_eq_equals_iff.1 heq]
  · intro h
    exact ⟨'=', h, rfl⟩

/-- A valid name has only letters, digits, underscores and dots. -/
theorem equals_not_mem_of_valid {name : String} (h : isValidConfigParameterName name = true) :
    '=' ∉ name.toList := by
  intro hmem
  rw [isValidConfigParameterName, Bool.and_eq_true, List.all_eq_true] at h
  have hjoin : ['.'].intercalate (name.toList.splitOn '.') = name.toList :=
    List.intercalate_splitOn '.'
  rw [← hjoin] at hmem
  obtain hdot | ⟨segment, hsegment, hequals⟩ := exists_of_mem_intercalate hmem
  · exact absurd hdot (by decide)
  have hvalid := h.2 segment hsegment
  cases segment with
  | nil => exact absurd hequals List.not_mem_nil
  | cons c cs =>
      rw [Bool.and_eq_true] at hvalid
      rcases List.mem_cons.1 hequals with rfl | hequals
      · exact absurd hvalid.1 (by decide)
      · exact absurd (List.all_eq_true.1 hvalid.2 '=' hequals) (by decide)

/-- A rendered, stored and inspected setting. -/
theorem parse_storedEntry (server : SettingServer) (name : String) {parameter : String}
    (hlower : toAsciiLowercase parameter = parameter) (hequals : '=' ∉ parameter.toList)
    (value : String) :
    (server.storedEntry (renderSetConfig name parameter value)).bind parseRolconfigEntry =
      some (parameter, readBack parameter value) := by
  have hspelling := server.lower_spelling parameter
  rw [hlower] at hspelling
  have hname : '=' ∉ (server.spelling parameter).toList := by
    rwa [← equals_mem_toAsciiLowercase, hspelling]
  have hstored : ∃ stored, server.storedValue parameter (settingValues parameter value) =
        some stored ∧
      (if isListQuoteParameter parameter then canonicalizeListGucValue stored else stored) =
        readBack parameter value := by
    unfold SettingServer.storedValue readBack
    rw [hlower]
    by_cases hlist : isListQuoteParameter parameter = true
    · refine ⟨_, if_pos hlist, ?_⟩
      rw [if_pos hlist, if_pos hlist, canonicalize_stored]
    · refine ⟨value, ?_, ?_⟩
      · rw [if_neg hlist, settingValues, if_neg hlist]
      · rw [if_neg hlist, if_neg hlist]
  obtain ⟨stored, hstored, hread⟩ := hstored
  unfold SettingServer.storedEntry
  rw [settingOf_renderSetConfig]
  simp only [Option.bind_eq_bind, Option.bind_some, hstored, Option.pure_def]
  rw [parseRolconfigEntry_append hname, hspelling, hread]

/-! ## All settings of a role -/

/-- The value a definition gives a parameter: the last one under a name that is the parameter's up
to case. -/
def effectiveValue (config : BTreeMap String String) (parameter : String) : Option String :=
  (config.toList.filter fun e => toAsciiLowercase e.1 = parameter).getLast?.map (·.2)

/-- The desired value of a parameter. -/
def desiredValue (parameter value : String) : String :=
  if isListQuoteParameter parameter then canonicalizeListGucValue value else value

/-- The setting that a role is given. -/
theorem getElem?_fromDefinition_config (d : RoleDefinition) (parameter : String) :
    (RoleState.fromDefinition d).config[parameter]? =
      (effectiveValue d.config parameter).map (desiredValue parameter) := by
  have hmap : ∀ l : List (String × String),
      ((l.map fun e => (toAsciiLowercase e.1,
        desiredValue (toAsciiLowercase e.1) e.2)).filter fun e => e.1 = parameter) =
      (l.filter fun e => toAsciiLowercase e.1 = parameter).map fun e =>
        (parameter, desiredValue parameter e.2) := by
    intro l
    rw [List.filter_map]
    apply List.map_congr_left
    intro e he
    have hname : toAsciiLowercase e.1 = parameter := by simpa using (List.mem_filter.1 he).2
    rw [hname]
  change (ExtTreeMap.ofList (d.config.toList.map fun e => (toAsciiLowercase e.1,
    desiredValue (toAsciiLowercase e.1) e.2)) compare)[parameter]? = _
  rw [getElem?_ofList_eq, hmap, List.getLast?_map, effectiveValue, Option.map_map, Option.map_map]
  rfl

/-- A list parameter is inspected as desired exactly where its value has an element; any other
parameter always is. -/
theorem readBack_desiredValue_iff (parameter value : String) :
    readBack parameter (desiredValue parameter value) = desiredValue parameter value ↔
      (isListQuoteParameter parameter = true →
        ∃ e es, splitGucList value = some (e :: es)) := by
  by_cases hlist : isListQuoteParameter parameter = true
  · unfold readBack desiredValue settingValues
    rw [if_pos hlist, if_pos hlist, if_pos hlist]
    -- the empty element is stored in quotes, which no desired value is
    have hempty : ", ".intercalate ([""].map quoteElementIfNeeded) = "\"\"" := by decide
    cases hsplit : splitGucList value with
    | none =>
        have hcanonical : canonicalizeListGucValue value = value := by
          rw [canonicalizeListGucValue, hsplit]
        refine iff_of_false ?_ ?_
        · rw [hcanonical, hsplit]
          change ", ".intercalate ([""].map quoteElementIfNeeded) ≠ value
          rw [hempty]
          rintro rfl
          exact absurd hsplit (by decide)
        · intro h
          obtain ⟨e, es, heq⟩ := h hlist
          cases heq
    | some elements =>
        have hcanonical : canonicalizeListGucValue value =
            ", ".intercalate (elements.map quoteElementIfNeeded) := by
          rw [canonicalizeListGucValue, hsplit]
        rw [hcanonical, splitGucList_join writesElement_quoteElementIfNeeded]
        cases elements with
        | nil =>
            refine iff_of_false ?_ ?_
            · change ", ".intercalate ([""].map quoteElementIfNeeded) ≠ ", ".intercalate []
              rw [hempty]
              decide
            · intro h
              obtain ⟨e, es, heq⟩ := h hlist
              cases heq
        | cons e es => exact iff_of_true rfl fun _ => ⟨e, es, rfl⟩
  · unfold readBack
    rw [if_neg hlist]
    exact iff_of_true rfl fun h => absurd h hlist

/-- The parameter names of a definition. -/
def ValidNames (config : BTreeMap String String) : Prop :=
  ∀ name value, config[name]? = some value → isValidConfigParameterName name = true

/-- Every desired parameter is in lowercase, and none has an equals sign. -/
theorem lower_of_mem_config {d : RoleDefinition} (h : ValidNames d.config)
    {parameter value : String}
    (hmem : (RoleState.fromDefinition d).config[parameter]? = some value) :
    toAsciiLowercase parameter = parameter ∧ '=' ∉ parameter.toList := by
  have hsource := mem_of_getElem?_ofList hmem
  obtain ⟨e, he, heq⟩ := List.mem_map.1 hsource
  obtain ⟨rfl, -⟩ := Prod.mk.inj heq
  refine ⟨toAsciiLowercase_idem e.1, ?_⟩
  rw [equals_mem_toAsciiLowercase]
  exact equals_not_mem_of_valid (h e.1 e.2 (mem_toList_iff.1 he))

/-- What inspection reports, setting by setting. -/
theorem getElem?_inspectedConfig (server : SettingServer) {d : RoleDefinition}
    (h : ValidNames d.config) (parameter : String) :
    (inspectedConfig (server.rolconfig d.name (RoleState.fromDefinition d).config))[parameter]? =
      ((RoleState.fromDefinition d).config[parameter]?).map (readBack parameter) := by
  have hentries : ((server.rolconfig d.name (RoleState.fromDefinition d).config).filterMap
        parseRolconfigEntry) =
      (RoleState.fromDefinition d).config.toList.map fun e => (e.1, readBack e.1 e.2) := by
    rw [SettingServer.rolconfig, List.filterMap_filterMap, ← List.filterMap_eq_map]
    apply List.filterMap_congr
    intro e he
    obtain ⟨hlower, hequals⟩ := lower_of_mem_config h (mem_toList_iff.1 he)
    exact parse_storedEntry server d.name hlower hequals e.2
  rw [inspectedConfig, hentries]
  cases hdesired : (RoleState.fromDefinition d).config[parameter]? with
  | none =>
      rw [Option.map_none, ← not_mem_iff_getElem?, mem_iff_exists_getElem?]
      rintro ⟨v, hv⟩
      obtain ⟨e, he, heq⟩ := List.mem_map.1 (mem_of_getElem?_ofList hv)
      obtain ⟨rfl, -⟩ := Prod.mk.inj heq
      rw [mem_toList_iff.1 he] at hdesired
      cases hdesired
  | some value =>
      obtain ⟨v, hv⟩ := exists_getElem?_ofList (List.mem_map.2 ⟨(parameter, value),
        mem_toList_iff.2 hdesired, rfl⟩ : (parameter, readBack parameter value) ∈
          (RoleState.fromDefinition d).config.toList.map fun e => (e.1, readBack e.1 e.2))
      obtain ⟨e, he, heq⟩ := List.mem_map.1 (mem_of_getElem?_ofList hv)
      obtain ⟨rfl, rfl⟩ := Prod.mk.inj heq
      rw [mem_toList_iff.1 he] at hdesired
      rw [hv, Option.map_some, Option.some.inj hdesired]

/-- The settings of a definition come back exactly where every list parameter has an element. -/
theorem roundTrips_iff (server : SettingServer) {d : RoleDefinition} (h : ValidNames d.config) :
    RoundTrips server d ↔
      ∀ parameter value, isListQuoteParameter parameter = true →
        effectiveValue d.config parameter = some value →
        ∃ e es, splitGucList value = some (e :: es) := by
  constructor
  · intro hround parameter value hlist hvalue
    apply (readBack_desiredValue_iff parameter value).1 ?_ hlist
    have hread := getElem?_inspectedConfig server h parameter
    rw [hround.1, getElem?_fromDefinition_config, hvalue, Option.map_some, Option.map_some] at hread
    exact (Option.some.inj hread).symm
  · intro hlists
    have hconfig : inspectedConfig (server.rolconfig d.name (RoleState.fromDefinition d).config) =
        (RoleState.fromDefinition d).config := by
      apply ExtTreeMap.ext_getElem?
      intro parameter
      rw [getElem?_inspectedConfig server h, getElem?_fromDefinition_config]
      cases hvalue : effectiveValue d.config parameter with
      | none => rfl
      | some value =>
          rw [Option.map_some, Option.map_some, (readBack_desiredValue_iff parameter value).2
            fun hlist => hlists parameter value hlist hvalue]
    refine ⟨hconfig, ?_⟩
    rw [hconfig]
    exact changedAttributes_self _

/-- An accepted role's parameters have valid names. -/
theorem validNames_of_accepted {m : PolicyManifest} {e : ExpandedManifest}
    (h : expandManifest m = .ok e) {d : RoleDefinition} (hd : d ∈ e.roles) :
    ValidNames d.config := by
  intro name value hmem
  have hroles := forM_eq_ok.1 (expandedChecks_of_expandManifest h).config d hd
  have hentries := forM_eq_ok.1 hroles (name, value) (mem_toList_iff.2 hmem)
  obtain ⟨hname, -⟩ := check_bind_eq_ok.1 hentries
  simpa using rejectIf_eq_ok.1 hname

/-- For every accepted manifest and every server, the settings of a role are inspected as they are
desired, and plan no further change, exactly where every list parameter it sets has an element. -/
theorem acceptedConfig_roundTrips_iff {m : PolicyManifest} {e : ExpandedManifest}
    (h : expandManifest m = .ok e) {d : RoleDefinition} (hd : d ∈ e.roles)
    (server : SettingServer) :
    RoundTrips server d ↔
      ∀ parameter value, isListQuoteParameter parameter = true →
        effectiveValue d.config parameter = some value →
        ∃ element elements, splitGucList value = some (element :: elements) :=
  roundTrips_iff server (validNames_of_accepted h hd)

/-! ### A quoted search path, and an empty one -/

/-- A server that quotes `user` and spells parameters as they come. -/
def plainServer : SettingServer := ⟨fun word => word == "user", id, fun _ => rfl⟩

/-- The role `app` with one search path, under a name in mixed case. -/
def searchPathRole (value : String) : RoleDefinition where
  name := "app"
  config := ExtTreeMap.ofList [("Search_Path", value), ("statement_timeout", "30s")] compare

theorem accepted_searchPathRole :
    ∀ value ∈ ["user, \"Data Mart\"", ""],
      expandManifest { roles := [searchPathRole value] } =
        .ok { roles := [searchPathRole value] } := by
  decide +kernel

/-- A search path with a quoted name is read back. -/
theorem quotedSearchPath_roundTrips :
    RoundTrips plainServer (searchPathRole "user, \"Data Mart\"") := by
  refine (acceptedConfig_roundTrips_iff (accepted_searchPathRole _ List.mem_cons_self)
    List.mem_cons_self plainServer).2 ?_
  have hlists : ∀ parameter ∈ listQuoteParameters,
      effectiveValue (searchPathRole "user, \"Data Mart\"").config parameter = none ∨
        effectiveValue (searchPathRole "user, \"Data Mart\"").config parameter =
          some "user, \"Data Mart\"" := by decide +kernel
  intro parameter value hlist hvalue
  rcases hlists parameter (List.contains_iff_mem.1 hlist) with hnone | hsome
  · rw [hnone] at hvalue
    cases hvalue
  · rw [hsome] at hvalue
    rw [← Option.some.inj hvalue]
    exact ⟨"user", ["Data Mart"], by decide +kernel⟩

/-- The empty search path is accepted, and inspected as the list of the empty element. -/
theorem emptySearchPath_not_roundTrips :
    ¬ ∀ (m : PolicyManifest) (e : ExpandedManifest), expandManifest m = .ok e →
      ∀ d ∈ e.roles, ∀ server : SettingServer, RoundTrips server d := by
  intro hall
  have hround := hall _ _ (accepted_searchPathRole "" (by decide)) _ List.mem_cons_self plainServer
  have hread : (inspectedConfig (plainServer.rolconfig "app"
      (RoleState.fromDefinition (searchPathRole "")).config))["search_path"]? = some "\"\"" := by
    decide +kernel
  have hdesired : (RoleState.fromDefinition (searchPathRole "")).config["search_path"]? =
      some "" := by decide +kernel
  have heq : inspectedConfig (plainServer.rolconfig "app"
      (RoleState.fromDefinition (searchPathRole "")).config) =
    (RoleState.fromDefinition (searchPathRole "")).config := hround.1
  rw [heq, hdesired] at hread
  exact absurd hread (by decide)

end PgRoles.Inspect

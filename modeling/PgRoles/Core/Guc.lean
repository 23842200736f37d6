import Mathlib

/-!
# Texts and list-valued parameters

Text operations as the standard library defines them, over the characters of a string, and the
splitting and canonical form of configuration parameters whose value is a quoted list.
-/

set_option autoImplicit false

namespace PgRoles.Core

/-! ## Text operations -/

/-- Replace every occurrence of a non-empty needle, left to right and without overlap. `skip`
characters of an occurrence are still to be dropped. -/
def replaceChars (needle new : List Char) : Nat → List Char → List Char
  | _, [] => []
  | skip + 1, _ :: cs => replaceChars needle new skip cs
  | 0, c :: cs =>
      if needle.isPrefixOf (c :: cs) then new ++ replaceChars needle new (needle.length - 1) cs
      else c :: replaceChars needle new 0 cs

/-- The text with every occurrence of the needle replaced. -/
def replaceText (text needle new : String) : String :=
  String.ofList (replaceChars needle.toList new.toList 0 text.toList)

/-- The needle occurs in the text. -/
def containsText (text needle : String) : Bool :=
  text.toList.tails.any fun rest => needle.toList.isPrefixOf rest

/-- Does the text begin with another? -/
def startsWithText (text start : String) : Bool := start.toList.isPrefixOf text.toList

/-- Lowercase the ASCII letters. -/
def toAsciiLowercase (text : String) : String :=
  String.ofList (text.toList.map fun c => if 'A' ≤ c ∧ c ≤ 'Z' then c.toLower else c)

/-- Unicode white space. -/
def isWhitespace (c : Char) : Bool :=
  (0x9 ≤ c.toNat && c.toNat ≤ 0xd) || c.toNat == 0x20 || c.toNat == 0x85 || c.toNat == 0xa0 ||
    c.toNat == 0x1680 || (0x2000 ≤ c.toNat && c.toNat ≤ 0x200a) || c.toNat == 0x2028 ||
    c.toNat == 0x2029 || c.toNat == 0x202f || c.toNat == 0x205f || c.toNat == 0x3000

/-- Is it a lowercase letter of ASCII? -/
def isAsciiLower (c : Char) : Bool := 'a' ≤ c && c ≤ 'z'

/-- Is it an uppercase letter of ASCII? -/
def isAsciiUpper (c : Char) : Bool := 'A' ≤ c && c ≤ 'Z'

/-- Is it a digit of ASCII? -/
def isAsciiDigit (c : Char) : Bool := '0' ≤ c && c ≤ '9'

theorem isAsciiDigit_of_isDigit {c : Char} (h : c.isDigit = true) : isAsciiDigit c = true := by
  simp only [Char.isDigit, Bool.and_eq_true, decide_eq_true_eq] at h
  simp only [isAsciiDigit, Bool.and_eq_true, decide_eq_true_eq, Char.le_def]
  exact h

/-! ## List-valued parameters -/

/-- Parameters whose value PostgreSQL stores as a quoted list. -/
def listQuoteParameters : List String :=
  ["local_preload_libraries", "search_path", "session_preload_libraries",
    "shared_preload_libraries", "temp_tablespaces"]

/-- The parameter, already in lowercase, has a list value. -/
def isListQuoteParameter (parameter : String) : Bool := listQuoteParameters.contains parameter

/-- Where the splitter stands: between elements, in a bare or a quoted one, or after a quote that
ends a quoted element unless another quote follows. -/
inductive GucState where
  | between
  | bare (element : List Char)
  | quoted (element : List Char)
  | quoteSeen (element : List Char)

/-- Start at a character between elements. -/
def startElement (c : Char) : GucState :=
  if isWhitespace c || c == ',' then .between
  else if c == '"' then .quoted []
  else .bare [c]

/-- Split from a state on; elements are collected in reverse, their characters too. -/
def splitGucChars : GucState → List String → List Char → Option (List String)
  | .between, elements, [] => some elements.reverse
  | .bare e, elements, [] => some (String.ofList e.reverse :: elements).reverse
  | .quoteSeen e, elements, [] => some (String.ofList e.reverse :: elements).reverse
  | .quoted _, _, [] => none
  | .between, elements, c :: cs => splitGucChars (startElement c) elements cs
  | .bare e, elements, c :: cs =>
      if isWhitespace c || c == ',' then
        splitGucChars .between (String.ofList e.reverse :: elements) cs
      else splitGucChars (.bare (c :: e)) elements cs
  | .quoted e, elements, c :: cs =>
      if c == '"' then splitGucChars (.quoteSeen e) elements cs
      else splitGucChars (.quoted (c :: e)) elements cs
  | .quoteSeen e, elements, c :: cs =>
      if c == '"' then splitGucChars (.quoted ('"' :: e)) elements cs
      else splitGucChars (startElement c) (String.ofList e.reverse :: elements) cs

/-- Split a list value into its elements; an unterminated quote has none. -/
def splitGucList (value : String) : Option (List String) :=
  splitGucChars .between [] value.toList

/-- Elements other than simple lowercase identifiers are quoted, with inner quotes doubled. -/
def quoteElementIfNeeded (element : String) : String :=
  let simple :=
    match element.toList with
    | [] => false
    | c :: cs =>
        (isAsciiLower c || c == '_') &&
          cs.all fun c => isAsciiLower c || isAsciiDigit c || c == '_'
  if simple then element else "\"" ++ replaceText element "\"" "\"\"" ++ "\""

/-- The canonical form of a list value; a value with an unterminated quote stays as it is. -/
def canonicalizeListGucValue (value : String) : String :=
  match splitGucList value with
  | some elements => ", ".intercalate (elements.map quoteElementIfNeeded)
  | none => value

example : splitGucList "\"$user\", public" = some ["$user", "public"] := by decide

end PgRoles.Core

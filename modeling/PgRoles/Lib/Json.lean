import PgRoles.Lib.BTree
import PgRoles.Lib.Utf8

/-!
# JSON values and their compact text

JSON values without fractions, and the compact text a serialiser writes for them: no blanks,
strings escaped as far as JSON demands it, object fields in the order the value lists them. A map
value lists its fields in key order (`Json.ofMap`).

The text determines the value (`Json.text_injective`). The proof never parses: a value's text is
a code that can be told apart from every other value's text, whatever follows it, as long as what
follows does not start with a digit (`Json.render_append_inj`). Only numbers need the proviso.
-/

set_option autoImplicit false

namespace PgRoles.Lib

open Std

/-- A JSON value. An object lists its fields in the order they are written. -/
inductive Json where
  | null
  | bool (b : Bool)
  | int (n : Int)
  | str (s : String)
  | arr (items : List Json)
  | obj (fields : List (String × Json))

/-! ## Text of strings and numbers -/

/-- One lower-case hexadecimal digit. -/
def hexDigit (n : Nat) : Char := Nat.digitChar n

/-- The escape of one character in a string. -/
def escapeChar (c : Char) : List Char :=
  if c = '"' then ['\\', '"']
  else if c = '\\' then ['\\', '\\']
  else if c = '\x08' then ['\\', 'b']
  else if c = '\x0c' then ['\\', 'f']
  else if c = '\n' then ['\\', 'n']
  else if c = '\r' then ['\\', 'r']
  else if c = '\t' then ['\\', 't']
  else if c.toNat < 32 then
    ['\\', 'u', '0', '0', hexDigit (c.toNat / 16), hexDigit (c.toNat % 16)]
  else [c]

/-- A quoted string. -/
def quoted (s : String) : List Char := '"' :: (s.toList.flatMap escapeChar ++ ['"'])

/-- The decimal text of an integer. -/
def intText : Int → List Char
  | .ofNat n => Nat.toDigits 10 n
  | .negSucc n => '-' :: Nat.toDigits 10 (n + 1)

/-! ## Text of values -/

mutual

/-- The compact text of a value. -/
def Json.render : Json → List Char
  | .null => ['n', 'u', 'l', 'l']
  | .bool true => ['t', 'r', 'u', 'e']
  | .bool false => ['f', 'a', 'l', 's', 'e']
  | .int n => intText n
  | .str s => quoted s
  | .arr [] => ['[', ']']
  | .arr (x :: xs) => '[' :: (x.render ++ renderItems xs)
  | .obj [] => ['\x7b', '\x7d']
  | .obj ((k, v) :: fields) => '\x7b' :: (quoted k ++ ':' :: (v.render ++ renderFields fields))

/-- The items after the first, each behind a comma, and the closing bracket. -/
def renderItems : List Json → List Char
  | [] => [']']
  | x :: xs => ',' :: (x.render ++ renderItems xs)

/-- The fields after the first, each behind a comma, and the closing brace. -/
def renderFields : List (String × Json) → List Char
  | [] => ['\x7d']
  | (k, v) :: fields => ',' :: (quoted k ++ ':' :: (v.render ++ renderFields fields))

end

/-- The compact text as a string. -/
def Json.text (v : Json) : String := String.ofList v.render

/-- The bytes of the compact text. -/
def Json.bytes (v : Json) : ByteArray := v.text.toByteArray

/-! ## Strings are told apart -/

/-- Reads one escaped character off the front. -/
def unescapeHead : List Char → Option (Char × List Char)
  | '\\' :: '"' :: rest => some ('"', rest)
  | '\\' :: '\\' :: rest => some ('\\', rest)
  | '\\' :: 'b' :: rest => some ('\x08', rest)
  | '\\' :: 'f' :: rest => some ('\x0c', rest)
  | '\\' :: 'n' :: rest => some ('\n', rest)
  | '\\' :: 'r' :: rest => some ('\r', rest)
  | '\\' :: 't' :: rest => some ('\t', rest)
  | '\\' :: 'u' :: _ :: _ :: high :: low :: rest =>
      some (Char.ofNat (16 * hexVal high + hexVal low), rest)
  | c :: rest => some (c, rest)
  | [] => none
where
  hexVal (c : Char) : Nat := if c.isDigit then c.toNat - 48 else c.toNat - 87

theorem hexVal_hexDigit : ∀ n, n < 16 → unescapeHead.hexVal (hexDigit n) = n := by decide

/-- An escaped character is read back. -/
theorem unescapeHead_escapeChar (c : Char) (rest : List Char) :
    unescapeHead (escapeChar c ++ rest) = some (c, rest) := by
  unfold escapeChar
  split_ifs with h₁ h₂ h₃ h₄ h₅ h₆ h₇ h₈
  · subst h₁; rfl
  · subst h₂; rfl
  · subst h₃; rfl
  · subst h₄; rfl
  · subst h₅; rfl
  · subst h₆; rfl
  · subst h₇; rfl
  · have hval : 16 * (c.toNat / 16) + c.toNat % 16 = c.toNat := by omega
    simp only [List.cons_append, List.nil_append, unescapeHead,
      hexVal_hexDigit _ (show c.toNat / 16 < 16 by omega),
      hexVal_hexDigit _ (show c.toNat % 16 < 16 by omega), hval, Char.ofNat_toNat]
  · -- A plain character is not a backslash, so none of the escape patterns can match.
    rw [List.singleton_append, unescapeHead.eq_def]
    split <;> simp_all

theorem escapeChar_append_inj {c d : Char} {s t : List Char}
    (h : escapeChar c ++ s = escapeChar d ++ t) : c = d ∧ s = t := by
  have hread := congrArg unescapeHead h
  rw [unescapeHead_escapeChar, unescapeHead_escapeChar] at hread
  simpa using hread

/-- An escaped character never starts with the closing quote. -/
theorem escapeChar_append_ne_quote (c : Char) (s t : List Char) :
    escapeChar c ++ s ≠ '"' :: t := by
  unfold escapeChar
  split_ifs <;> simp_all

theorem flatMap_escapeChar_inj {cs ds s t : List Char}
    (h : cs.flatMap escapeChar ++ '"' :: s = ds.flatMap escapeChar ++ '"' :: t) :
    cs = ds ∧ s = t := by
  induction cs generalizing ds with
  | nil =>
    cases ds with
    | nil => simpa using h
    | cons d ds =>
      rw [List.flatMap_nil, List.nil_append, List.flatMap_cons, List.append_assoc] at h
      exact absurd h.symm (escapeChar_append_ne_quote d _ _)
  | cons c cs ih =>
    cases ds with
    | nil =>
      rw [List.flatMap_nil, List.nil_append, List.flatMap_cons, List.append_assoc] at h
      exact absurd h (escapeChar_append_ne_quote c _ _)
    | cons d ds =>
      rw [List.flatMap_cons, List.flatMap_cons, List.append_assoc, List.append_assoc] at h
      obtain ⟨rfl, htail⟩ := escapeChar_append_inj h
      obtain ⟨rfl, rfl⟩ := ih htail
      exact ⟨rfl, rfl⟩

theorem quoted_append_inj {k l : String} {s t : List Char}
    (h : quoted k ++ s = quoted l ++ t) : k = l ∧ s = t := by
  simp only [quoted, List.cons_append, List.append_assoc, List.cons.injEq, true_and,
    List.nil_append] at h
  obtain ⟨hchars, rfl⟩ := flatMap_escapeChar_inj h
  exact ⟨String.toList_injective hchars, rfl⟩

/-! ## Numbers are told apart before a non-digit -/

/-- The text is empty or starts with a character that is no digit. -/
def NoDigitHead (s : List Char) : Prop := ∀ c, s.head? = some c → c.isDigit = false

theorem noDigitHead_nil : NoDigitHead [] := nofun

theorem noDigitHead_cons {c : Char} {s : List Char} (h : c.isDigit = false) :
    NoDigitHead (c :: s) := by
  intro d hd
  cases hd
  exact h

theorem takeWhile_isDigit_append {ds s : List Char} (hds : ∀ c ∈ ds, c.isDigit = true)
    (hs : NoDigitHead s) : (ds ++ s).takeWhile Char.isDigit = ds := by
  rw [List.takeWhile_append_of_pos hds]
  cases s with
  | nil => simp
  | cons c s => simp [hs c rfl]

/-- Where a number ends can be told, when no digit follows. -/
theorem toDigits_append_inj {m n : Nat} {s t : List Char} (hs : NoDigitHead s)
    (ht : NoDigitHead t) (h : Nat.toDigits 10 m ++ s = Nat.toDigits 10 n ++ t) :
    m = n ∧ s = t := by
  have hdigits : ∀ k, ∀ c ∈ Nat.toDigits 10 k, c.isDigit = true := fun k c hc =>
    Nat.isDigit_of_mem_toDigits (by decide) (by decide) hc
  have heq := congrArg (List.takeWhile Char.isDigit) h
  rw [takeWhile_isDigit_append (hdigits m) hs, takeWhile_isDigit_append (hdigits n) ht] at heq
  have hval := congrArg (fun ds => Nat.ofDigitChars 10 ds 0) heq
  simp only [Nat.ofDigitChars_ten_toDigits] at hval
  subst hval
  exact ⟨rfl, List.append_cancel_left h⟩

/-- A decimal text never starts with a minus sign. -/
theorem toDigits_append_ne_minus (n : Nat) (s t : List Char) :
    Nat.toDigits 10 n ++ s ≠ '-' :: t := by
  intro h
  cases hdigits : Nat.toDigits 10 n with
  | nil => exact Nat.toDigits_ne_nil hdigits
  | cons c cs =>
    have hc : c.isDigit = true :=
      Nat.isDigit_of_mem_toDigits (n := n) (by decide) (by decide) (hdigits ▸ List.mem_cons_self)
    rw [hdigits, List.cons_append, List.cons.injEq] at h
    rw [h.1] at hc
    exact absurd hc (by decide)

/-- Where an integer ends can be told, when no digit follows. -/
theorem intText_append_inj {m n : Int} {s t : List Char} (hs : NoDigitHead s)
    (ht : NoDigitHead t) (h : intText m ++ s = intText n ++ t) : m = n ∧ s = t := by
  cases m with
  | ofNat m =>
    cases n with
    | ofNat n =>
      obtain ⟨rfl, rfl⟩ := toDigits_append_inj hs ht h
      exact ⟨rfl, rfl⟩
    | negSucc n => exact absurd h (toDigits_append_ne_minus m _ _)
  | negSucc m =>
    cases n with
    | ofNat n => exact absurd h.symm (toDigits_append_ne_minus n _ _)
    | negSucc n =>
      simp only [intText, List.cons_append, List.cons.injEq, true_and] at h
      obtain ⟨hval, rfl⟩ := toDigits_append_inj hs ht h
      exact ⟨by rw [Nat.succ.inj hval], rfl⟩


/-! ## Values are told apart before a non-digit -/

/-- The shape of a value, as its first character shows it. -/
def Json.shape : Json → Nat
  | .null => 0
  | .bool true => 1
  | .bool false => 2
  | .int _ => 3
  | .str _ => 4
  | .arr _ => 5
  | .obj _ => 6

/-- The shape a first character stands for; digits and the minus sign start a number. -/
def shapeOfChar (c : Char) : Nat :=
  if c = 'n' then 0
  else if c = 't' then 1
  else if c = 'f' then 2
  else if c = '"' then 4
  else if c = '[' then 5
  else if c = '\x7b' then 6
  else 3

theorem shapeOfChar_of_isDigit {c : Char} (h : c.isDigit = true) : shapeOfChar c = 3 := by
  have hne : ∀ d : Char, d.isDigit = false → c ≠ d := fun d hd heq => by
    rw [heq, hd] at h
    cases h
  simp [shapeOfChar, hne 'n' (by decide), hne 't' (by decide), hne 'f' (by decide),
    hne '"' (by decide), hne '[' (by decide), hne '\x7b' (by decide)]

/-- An integer begins with a digit or a sign. -/
theorem exists_head_intText (n : Int) : ∃ c cs, intText n = c :: cs ∧ shapeOfChar c = 3 := by
  cases n with
  | ofNat n =>
    cases hdigits : Nat.toDigits 10 n with
    | nil => exact absurd hdigits Nat.toDigits_ne_nil
    | cons c cs =>
      refine ⟨c, cs, hdigits, shapeOfChar_of_isDigit ?_⟩
      exact Nat.isDigit_of_mem_toDigits (n := n) (by decide) (by decide)
        (hdigits ▸ List.mem_cons_self)
  | negSucc n => exact ⟨'-', _, rfl, by decide⟩

/-- The first character of a value's text shows the value's shape. -/
theorem Json.exists_head_render (v : Json) :
    ∃ c cs, v.render = c :: cs ∧ shapeOfChar c = v.shape := by
  cases v with
  | null => exact ⟨_, _, by rw [Json.render], by decide⟩
  | bool b => cases b <;> exact ⟨_, _, by rw [Json.render], by decide⟩
  | int n =>
    obtain ⟨c, cs, htext, hshape⟩ := exists_head_intText n
    exact ⟨c, cs, by rw [Json.render, htext], hshape⟩
  | str s => exact ⟨_, _, by rw [Json.render, quoted], rfl⟩
  | arr items => cases items <;> exact ⟨_, _, by rw [Json.render], rfl⟩
  | obj fields =>
    cases fields with
    | nil => exact ⟨_, _, by rw [Json.render], rfl⟩
    | cons field fields => exact ⟨_, _, by rw [Json.render], rfl⟩

theorem Json.shape_eq_of_render_append {a b : Json} {s t : List Char}
    (h : a.render ++ s = b.render ++ t) : a.shape = b.shape := by
  obtain ⟨c, cs, hc, hcshape⟩ := a.exists_head_render
  obtain ⟨d, ds, hd, hdshape⟩ := b.exists_head_render
  rw [hc, hd, List.cons_append, List.cons_append, List.cons.injEq] at h
  rw [← hcshape, ← hdshape, h.1]

/-- No value's text starts with a character that is neither a digit nor a minus sign and that no
other shape starts with. -/
theorem Json.render_append_ne_cons (v : Json) {d : Char} (hshape : shapeOfChar d = 3)
    (hdigit : d.isDigit = false) (hminus : d ≠ '-') (s t : List Char) : v.render ++ s ≠ d :: t := by
  intro h
  obtain ⟨c, cs, hc, hhead⟩ := v.exists_head_render
  rw [hc, List.cons_append, List.cons.injEq] at h
  rw [h.1, hshape] at hhead
  -- The character stands for a number, and a number starts with a digit or a minus sign.
  cases v with
  | int n =>
    rw [Json.render, h.1] at hc
    cases n with
    | ofNat n =>
      have hmem : d.isDigit = true :=
        Nat.isDigit_of_mem_toDigits (n := n) (by decide) (by decide)
          (show d ∈ intText (.ofNat n) from hc ▸ List.mem_cons_self)
      rw [hdigit] at hmem
      cases hmem
    | negSucc n => exact hminus (List.cons.inj hc).1.symm
  | bool b => cases b <;> exact absurd hhead (by decide)
  | null => exact absurd hhead (by decide)
  | str s => exact absurd hhead (by simp [Json.shape])
  | arr items => exact absurd hhead (by simp [Json.shape])
  | obj fields => exact absurd hhead (by simp [Json.shape])

/-- No value's text starts with a closing bracket. -/
theorem Json.render_append_ne_bracket (v : Json) (s t : List Char) : v.render ++ s ≠ ']' :: t :=
  v.render_append_ne_cons (by decide) (by decide) (by decide) s t

theorem noDigitHead_renderItems (xs : List Json) (s : List Char) :
    NoDigitHead (renderItems xs ++ s) := by
  cases xs <;> rw [renderItems] <;> exact noDigitHead_cons (by decide)

theorem noDigitHead_renderFields (fields : List (String × Json)) (s : List Char) :
    NoDigitHead (renderFields fields ++ s) := by
  cases fields with
  | nil => rw [renderFields]; exact noDigitHead_cons (by decide)
  | cons field fields => rw [renderFields]; exact noDigitHead_cons (by decide)

mutual

/-- Two values whose texts agree before texts that start with no digit are equal, and so are the
texts behind them. -/
theorem Json.render_append_inj : ∀ (a b : Json) {s t : List Char}, NoDigitHead s → NoDigitHead t →
    a.render ++ s = b.render ++ t → a = b ∧ s = t
  | .null, b, s, t, _, _, h => by
    have hshape := Json.shape_eq_of_render_append h
    cases b with
    | null => exact ⟨rfl, List.append_cancel_left h⟩
    | bool b => cases b <;> cases hshape
    | _ => cases hshape
  | .bool a, b, s, t, _, _, h => by
    have hshape := Json.shape_eq_of_render_append h
    cases b with
    | bool b =>
      cases a <;> cases b <;> first | exact ⟨rfl, List.append_cancel_left h⟩ | cases hshape
    | _ => cases a <;> cases hshape
  | .int m, b, s, t, hs, ht, h => by
    have hshape := Json.shape_eq_of_render_append h
    cases b with
    | int n =>
      rw [Json.render, Json.render] at h
      obtain ⟨rfl, rfl⟩ := intText_append_inj hs ht h
      exact ⟨rfl, rfl⟩
    | bool b => cases b <;> cases hshape
    | _ => cases hshape
  | .str k, b, s, t, _, _, h => by
    have hshape := Json.shape_eq_of_render_append h
    cases b with
    | str l =>
      rw [Json.render, Json.render] at h
      obtain ⟨rfl, rfl⟩ := quoted_append_inj h
      exact ⟨rfl, rfl⟩
    | bool b => cases b <;> cases hshape
    | _ => cases hshape
  | .arr [], b, s, t, _, _, h => by
    have hshape := Json.shape_eq_of_render_append h
    cases b with
    | arr items =>
      cases items with
      | nil => exact ⟨rfl, List.append_cancel_left h⟩
      | cons y ys =>
        simp only [Json.render, List.cons_append, List.cons.injEq, true_and, List.append_assoc,
          List.nil_append] at h
        exact absurd h.symm (Json.render_append_ne_bracket y _ _)
    | bool b => cases b <;> cases hshape
    | _ => cases hshape
  | .arr (x :: xs), b, s, t, _, _, h => by
    have hshape := Json.shape_eq_of_render_append h
    cases b with
    | arr items =>
      cases items with
      | nil =>
        simp only [Json.render, List.cons_append, List.cons.injEq, true_and, List.append_assoc,
          List.nil_append] at h
        exact absurd h (Json.render_append_ne_bracket x _ _)
      | cons y ys =>
        simp only [Json.render, List.cons_append, List.cons.injEq, true_and,
          List.append_assoc] at h
        obtain ⟨rfl, htail⟩ := Json.render_append_inj x y (noDigitHead_renderItems xs s)
          (noDigitHead_renderItems ys t) h
        obtain ⟨rfl, rfl⟩ := renderItems_append_inj xs ys htail
        exact ⟨rfl, rfl⟩
    | bool b => cases b <;> cases hshape
    | _ => cases hshape
  | .obj [], b, s, t, _, _, h => by
    have hshape := Json.shape_eq_of_render_append h
    cases b with
    | obj fields =>
      cases fields with
      | nil => exact ⟨rfl, List.append_cancel_left h⟩
      | cons field fields =>
        simp [Json.render, quoted] at h
    | bool b => cases b <;> cases hshape
    | _ => cases hshape
  | .obj ((k, v) :: fields), b, s, t, _, _, h => by
    have hshape := Json.shape_eq_of_render_append h
    cases b with
    | obj fields' =>
      cases fields' with
      | nil => simp [Json.render, quoted] at h
      | cons field fields' =>
        simp only [Json.render, List.cons_append, List.cons.injEq, true_and,
          List.append_assoc] at h
        obtain ⟨hk, htail⟩ := quoted_append_inj h
        rw [List.cons.injEq] at htail
        obtain ⟨hv, hrest⟩ := Json.render_append_inj v field.2 (noDigitHead_renderFields fields s)
          (noDigitHead_renderFields fields' t) htail.2
        obtain ⟨rfl, rfl⟩ := renderFields_append_inj fields fields' hrest
        exact ⟨by rw [hk, hv], rfl⟩
    | bool b => cases b <;> cases hshape
    | _ => cases hshape

/-- Where the items of a list end can be told. -/
theorem renderItems_append_inj : ∀ (xs ys : List Json) {s t : List Char},
    renderItems xs ++ s = renderItems ys ++ t → xs = ys ∧ s = t
  | [], [], s, t, h => ⟨rfl, List.append_cancel_left h⟩
  | [], _ :: _, s, t, h => by simp [renderItems] at h
  | _ :: _, [], s, t, h => by simp [renderItems] at h
  | x :: xs, y :: ys, s, t, h => by
    simp only [renderItems, List.cons_append, List.cons.injEq, true_and, List.append_assoc] at h
    obtain ⟨rfl, htail⟩ := Json.render_append_inj x y (noDigitHead_renderItems xs s)
      (noDigitHead_renderItems ys t) h
    obtain ⟨rfl, rfl⟩ := renderItems_append_inj xs ys htail
    exact ⟨rfl, rfl⟩

/-- Where the members of an object end can be told. -/
theorem renderFields_append_inj : ∀ (xs ys : List (String × Json)) {s t : List Char},
    renderFields xs ++ s = renderFields ys ++ t → xs = ys ∧ s = t
  | [], [], s, t, h => ⟨rfl, List.append_cancel_left h⟩
  | [], _ :: _, s, t, h => by simp [renderFields] at h
  | _ :: _, [], s, t, h => by simp [renderFields] at h
  | (k, v) :: xs, (l, w) :: ys, s, t, h => by
    simp only [renderFields, List.cons_append, List.cons.injEq, true_and, List.append_assoc] at h
    obtain ⟨rfl, htail⟩ := quoted_append_inj h
    rw [List.cons.injEq] at htail
    obtain ⟨rfl, hrest⟩ := Json.render_append_inj v w (noDigitHead_renderFields xs s)
      (noDigitHead_renderFields ys t) htail.2
    obtain ⟨rfl, rfl⟩ := renderFields_append_inj xs ys hrest
    exact ⟨rfl, rfl⟩

end

theorem Json.render_injective : Function.Injective Json.render := by
  intro a b h
  refine (Json.render_append_inj a b noDigitHead_nil noDigitHead_nil ?_).1
  rw [List.append_nil, List.append_nil, h]

/-- The compact text determines the value. -/
theorem Json.text_injective : Function.Injective Json.text := by
  intro a b h
  exact Json.render_injective (String.ofList_injective h)

/-- The bytes determine the value. -/
theorem Json.bytes_injective : Function.Injective Json.bytes := by
  intro a b h
  exact Json.text_injective (String.toByteArray_inj.1 h)

/-! ## Values of maps -/

/-- The value of a map: its fields in key order. -/
def Json.ofMap (m : BTreeMap String Json) : Json := .obj m.toList

theorem Json.ofMap_injective : Function.Injective Json.ofMap := fun m n h => by
  refine ExtTreeMap.ext_getElem? fun k => Option.ext fun v => ?_
  rw [← mem_toList_iff, ← mem_toList_iff, Json.obj.inj h]

/-- The map of a list of fields; the first field of a name counts. -/
def fieldMap (fields : List (String × Json)) : BTreeMap String Json :=
  fields.foldr (fun field m => m.insert field.1 field.2) ∅

theorem getElem?_fieldMap (fields : List (String × Json)) (k : String) :
    (fieldMap fields)[k]? = fields.lookup k := by
  induction fields with
  | nil => rfl
  | cons field fields ih =>
    rw [List.lookup_cons, fieldMap, List.foldr_cons, ← fieldMap, getElem?_insert_eq, ih]
    by_cases hk : field.1 = k
    · simp [hk]
    · simp [hk, beq_false_of_ne (Ne.symm hk)]

theorem lookup_eq_none_of_not_mem {V : Type} {fields : List (String × V)} {k : String}
    (h : k ∉ fields.map Prod.fst) : fields.lookup k = none := by
  refine List.lookup_eq_none_iff.2 fun field hfield => bne_iff_ne.2 ?_
  rintro rfl
  exact h (List.mem_map_of_mem hfield)

/-- With distinct names, a name has the value it is listed with. -/
theorem lookup_eq_some_iff_mem {V : Type} {fields : List (String × V)}
    (hnodup : (fields.map Prod.fst).Nodup) {k : String} {v : V} :
    fields.lookup k = some v ↔ (k, v) ∈ fields := by
  induction fields with
  | nil => simp
  | cons field fields ih =>
    obtain ⟨key, w⟩ := field
    rw [List.map_cons, List.nodup_cons] at hnodup
    rw [List.lookup_cons, List.mem_cons, Prod.mk.injEq, ← ih hnodup.2]
    by_cases hk : k = key
    · subst hk
      simp [lookup_eq_none_of_not_mem hnodup.1, eq_comm]
    · simp [hk, beq_false_of_ne hk]

theorem lookup_toList (m : BTreeMap String Json) (k : String) : m.toList.lookup k = m[k]? := by
  refine Option.ext fun v => ?_
  rw [lookup_eq_some_iff_mem (nodup_fst_toList m), mem_toList_iff]

/-- The order of fields with distinct names does not matter to a lookup. -/
theorem lookup_perm {fields fields' : List (String × Json)} (h : fields.Perm fields')
    (hnodup : (fields.map Prod.fst).Nodup) (k : String) :
    fields.lookup k = fields'.lookup k := by
  refine Option.ext fun v => ?_
  rw [lookup_eq_some_iff_mem hnodup, lookup_eq_some_iff_mem ((h.map Prod.fst).nodup hnodup),
    h.mem_iff]

/-- The value of an object built field by field and held as a map. -/
def Json.object (fields : List (String × Json)) : Json := .ofMap (fieldMap fields)

/-- Objects are equal exactly when every name has the same field. -/
theorem Json.object_eq_iff {fields fields' : List (String × Json)} :
    Json.object fields = Json.object fields' ↔ ∀ k, fields.lookup k = fields'.lookup k := by
  constructor
  · intro h k
    rw [← getElem?_fieldMap, ← getElem?_fieldMap, Json.ofMap_injective h]
  · intro h
    refine congrArg Json.ofMap (ExtTreeMap.ext_getElem? fun k => ?_)
    rw [getElem?_fieldMap, getElem?_fieldMap, h k]

/-- The value of one variant of an enumeration: its name over its content. -/
def Json.tagged (name : String) (content : Json) : Json := .object [(name, content)]

/-- A tagged value tells its tag and its content. -/
theorem Json.tagged_inj {name name' : String} {content content' : Json} :
    Json.tagged name content = Json.tagged name' content' ↔ name = name' ∧ content = content' := by
  constructor
  · intro h
    have hfield := Json.object_eq_iff.1 h name
    by_cases hname : name = name'
    · subst hname
      simpa [List.lookup_cons] using hfield
    · simp [List.lookup_cons, beq_false_of_ne hname] at hfield
  · rintro ⟨rfl, rfl⟩
    rfl

/-- A field that is left out when there is no value. -/
def optionalField (name : String) : Option Json → List (String × Json)
  | none => []
  | some v => [(name, v)]

@[simp] theorem lookup_optionalField_self (name : String) (v : Option Json) :
    (optionalField name v).lookup name = v := by
  cases v <;> simp [optionalField]

theorem lookup_optionalField_of_ne {name k : String} (h : k ≠ name) (v : Option Json) :
    (optionalField name v).lookup k = none := by
  cases v with
  | none => rfl
  | some v => simp [optionalField, List.lookup_cons, beq_false_of_ne h]

/-- The value of a record, held as a map; a field without a value is left out. -/
def Json.record (fields : List (String × Option Json)) : Json :=
  .object (fields.flatMap fun field => optionalField field.1 field.2)

/-- A member of a record is the value given for its name. -/
theorem lookup_flatMap_optionalField {fields : List (String × Option Json)}
    (hnodup : (fields.map Prod.fst).Nodup) (k : String) :
    (fields.flatMap fun field => optionalField field.1 field.2).lookup k =
      (fields.lookup k).join := by
  induction fields with
  | nil => rfl
  | cons field fields ih =>
    obtain ⟨name, v⟩ := field
    rw [List.map_cons, List.nodup_cons] at hnodup
    rw [List.flatMap_cons, List.lookup_append, ih hnodup.2, List.lookup_cons]
    by_cases hk : k = name
    · subst hk
      simp [lookup_eq_none_of_not_mem hnodup.1]
    · simp [lookup_optionalField_of_ne hk, beq_false_of_ne hk]

/-- A value that is written as null when it is absent. -/
def Json.nullable (v : Option Json) : Json := v.getD .null

/-- The value of an optional text. -/
def Json.ofOption : Option String → Json
  | none => .null
  | some s => .str s

theorem Json.ofOption_injective : Function.Injective Json.ofOption := by
  intro a b h
  cases a <;> cases b <;> cases h <;> rfl

/-- The value of a list of texts. -/
def Json.ofTexts (texts : List String) : Json := .arr (texts.map .str)

theorem Json.ofTexts_injective : Function.Injective Json.ofTexts := by
  intro a b h
  exact (List.map_injective_iff.2 fun _ _ => Json.str.inj) (Json.arr.inj h)

/-! ## Indented text -/

/-- The start of a line, two blanks for each level. -/
def lineStart (depth : Nat) : List Char := '\n' :: List.replicate (2 * depth) ' '

mutual

/-- The indented text of a value in pieces: items and fields have lines of their own. -/
def Json.pieces (depth : Nat) : Json → List (List Char)
  | .arr [] => [['[', ']']]
  | .arr (x :: xs) =>
      ['['] :: lineStart (depth + 1) :: (x.pieces (depth + 1) ++ itemPieces depth xs)
  | .obj [] => [['\x7b', '\x7d']]
  | .obj ((k, v) :: fields) =>
      ['\x7b'] :: lineStart (depth + 1) :: quoted k :: [':', ' '] ::
        (v.pieces (depth + 1) ++ fieldPieces depth fields)
  | .null => [Json.null.render]
  | .bool b => [(Json.bool b).render]
  | .int n => [(Json.int n).render]
  | .str s => [(Json.str s).render]

/-- The items after the first, and the closing bracket on a line of its own. -/
def itemPieces (depth : Nat) : List Json → List (List Char)
  | [] => [lineStart depth, [']']]
  | x :: xs =>
      [','] :: lineStart (depth + 1) :: (x.pieces (depth + 1) ++ itemPieces depth xs)

/-- The fields after the first, and the closing brace on a line of its own. -/
def fieldPieces (depth : Nat) : List (String × Json) → List (List Char)
  | [] => [lineStart depth, ['\x7d']]
  | (k, v) :: fields =>
      [','] :: lineStart (depth + 1) :: quoted k :: [':', ' '] ::
        (v.pieces (depth + 1) ++ fieldPieces depth fields)

end

/-- The bytes of the indented text. -/
def Json.prettyBytes (v : Json) : ByteArray := (String.ofList (v.pieces 0).flatten).toByteArray

/-- A bound on the length of a quoted text: a character has a byte at least, and is escaped by six
characters at most. -/
def quotedBound (s : String) : Nat := 6 * s.utf8ByteSize + 2

/-- A quoted text is at most as long as its bound. -/
theorem length_quoted_le (s : String) : (quoted s).length ≤ quotedBound s := by
  have hchar : ∀ c, (escapeChar c).length ≤ 6 := by
    intro c
    unfold escapeChar
    split_ifs <;> simp
  have htext : ∀ l : List Char,
      (l.flatMap escapeChar).length ≤ 6 * (l.flatMap String.utf8EncodeChar).length := by
    intro l
    induction l with
    | nil => exact Nat.le_refl 0
    | cons c l ih =>
        rw [List.flatMap_cons, List.flatMap_cons, List.length_append, List.length_append,
          String.length_utf8EncodeChar]
        have hc := hchar c
        have hpos := c.utf8Size_pos
        omega
  have hs := htext s.toList
  have hbytes : (s.toList.flatMap String.utf8EncodeChar).length = s.utf8ByteSize :=
    length_textBytes_toList s
  rw [hbytes] at hs
  rw [quoted, quotedBound, List.length_cons, List.length_append, List.length_singleton]
  omega

mutual

/-- A bound on the length of the indented text that looks into no text. -/
def Json.prettyBound (depth : Nat) : Json → Nat
  | .arr [] => 2
  | .arr (x :: xs) =>
      1 + ((lineStart (depth + 1)).length + (x.prettyBound (depth + 1) + itemsBound depth xs))
  | .obj [] => 2
  | .obj ((k, v) :: fields) =>
      1 + ((lineStart (depth + 1)).length + (quotedBound k +
        (2 + (v.prettyBound (depth + 1) + fieldsBound depth fields))))
  | .null => Json.null.render.length
  | .bool b => (Json.bool b).render.length
  | .int n => (Json.int n).render.length
  | .str s => quotedBound s

/-- The size of the items of a list, at a depth of indentation. -/
def itemsBound (depth : Nat) : List Json → Nat
  | [] => (lineStart depth).length + 1
  | x :: xs =>
      1 + ((lineStart (depth + 1)).length + (x.prettyBound (depth + 1) + itemsBound depth xs))

/-- The size of the members of an object, at a depth of indentation. -/
def fieldsBound (depth : Nat) : List (String × Json) → Nat
  | [] => (lineStart depth).length + 1
  | (k, v) :: fields =>
      1 + ((lineStart (depth + 1)).length + (quotedBound k +
        (2 + (v.prettyBound (depth + 1) + fieldsBound depth fields))))

end

mutual

/-- A printed value is at most as long as its bound. -/
theorem Json.length_pieces_le (depth : Nat) (v : Json) :
    ((v.pieces depth).map List.length).sum ≤ v.prettyBound depth := by
  cases v with
  | arr items =>
      cases items with
      | nil => exact Nat.le_refl 2
      | cons x xs =>
          have hx := Json.length_pieces_le (depth + 1) x
          have hxs := length_itemPieces_le depth xs
          simp only [Json.pieces, Json.prettyBound, List.map_cons, List.map_append, List.sum_cons,
            List.sum_append, List.length_singleton]
          omega
  | obj fields =>
      cases fields with
      | nil => exact Nat.le_refl 2
      | cons field fields =>
          obtain ⟨k, v⟩ := field
          have hk := length_quoted_le k
          have hv := Json.length_pieces_le (depth + 1) v
          have hfields := length_fieldPieces_le depth fields
          simp only [Json.pieces, Json.prettyBound, List.map_cons, List.map_append, List.sum_cons,
            List.sum_append, List.length_cons, List.length_nil]
          omega
  | null => exact Nat.le_refl _
  | bool b => exact Nat.le_refl _
  | int n => exact Nat.le_refl _
  | str s => exact length_quoted_le s

/-- So are the items of a list. -/
theorem length_itemPieces_le (depth : Nat) (items : List Json) :
    ((itemPieces depth items).map List.length).sum ≤ itemsBound depth items := by
  cases items with
  | nil => simp [itemPieces, itemsBound]
  | cons x xs =>
      have hx := Json.length_pieces_le (depth + 1) x
      have hxs := length_itemPieces_le depth xs
      simp only [itemPieces, itemsBound, List.map_cons, List.map_append, List.sum_cons,
        List.sum_append, List.length_singleton]
      omega

/-- So are the members of an object. -/
theorem length_fieldPieces_le (depth : Nat) (fields : List (String × Json)) :
    ((fieldPieces depth fields).map List.length).sum ≤ fieldsBound depth fields := by
  cases fields with
  | nil => simp [fieldPieces, fieldsBound]
  | cons field fields =>
      obtain ⟨k, v⟩ := field
      have hk := length_quoted_le k
      have hv := Json.length_pieces_le (depth + 1) v
      have hfields := length_fieldPieces_le depth fields
      simp only [fieldPieces, fieldsBound, List.map_cons, List.map_append, List.sum_cons,
        List.sum_append, List.length_cons, List.length_nil]
      omega

end

/-- A character takes four bytes at most. -/
theorem Json.size_prettyBytes_le (v : Json) : v.prettyBytes.size ≤ 4 * v.prettyBound 0 := by
  have hsize : ∀ l : List Char, (l.flatMap String.utf8EncodeChar).length ≤ 4 * l.length := by
    intro l
    induction l with
    | nil => exact Nat.le_refl 0
    | cons c l ih =>
        rw [List.flatMap_cons, List.length_append, String.length_utf8EncodeChar, List.length_cons]
        have hchar := c.utf8Size_le_four
        omega
  rw [Json.prettyBytes, String.toByteArray_ofList, List.utf8Encode, List.size_toByteArray]
  refine (hsize _).trans (Nat.mul_le_mul_left 4 ?_)
  rw [List.length_flatten]
  exact v.length_pieces_le 0

end PgRoles.Lib

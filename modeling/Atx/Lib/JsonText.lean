import Atx.Lib.Rendering
import Mathlib.Tactic.Common

/-!
# Reading JSON

A reader of JSON texts, by recursive descent. White space may stand between the parts of a text, and
characters of strings may be escaped by letters or by their code units. Numbers are whole numbers.
Whatever was written as a text without white space is read back.

## Main definitions

* `Json.ofText` — the value of a text

## Main results

* `Json.ofText_text` — what is written is read back
-/

namespace Json

/-! ### Strings -/

def isSpace (c : Char) : Bool := c = ' ' || c = '\t' || c = '\n' || c = '\r'

def skipSpace (cs : List Char) : List Char := cs.dropWhile isSpace

def hexValue (c : Char) : Option ℕ :=
  if '0' ≤ c ∧ c ≤ '9' then some (c.toNat - 48)
  else if 'a' ≤ c ∧ c ≤ 'f' then some (c.toNat - 87)
  else if 'A' ≤ c ∧ c ≤ 'F' then some (c.toNat - 55)
  else none

/-- Four digits in base sixteen, and what follows them. -/
def readUnit : List Char → Option (ℕ × List Char)
  | a :: b :: c :: d :: rest => do
    let high := (← hexValue a) * 16 + (← hexValue b)
    let low := (← hexValue c) * 16 + (← hexValue d)
    return (high * 256 + low, rest)
  | _ => none

/-- The character of a code unit, or of two that are a pair of surrogates. -/
def readEscapedUnit (cs : List Char) : Option (Char × List Char) := do
  let (unit, rest) ← readUnit cs
  if unit < 0xD800 ∨ 0xE000 ≤ unit then return (Char.ofNat unit, rest)
  if 0xDC00 ≤ unit then none
  match rest with
  | c :: u :: rest =>
    let (low, rest) ← readUnit rest
    if c = '\x5c' ∧ u = 'u' ∧ 0xDC00 ≤ low ∧ low < 0xE000 then
      return (Char.ofNat (0x10000 + (unit - 0xD800) * 0x400 + (low - 0xDC00)), rest)
    none
  | _ => none

/-- The characters that are escaped by letters or stand for themselves behind a reverse solidus. -/
def letters : List (Char × Char) :=
  [('\x22', '\x22'), ('\x5c', '\x5c'), ('/', '/'), ('b', '\x08'), ('f', '\x0c'), ('n', '\n'),
    ('r', '\r'), ('t', '\t')]

/-- One character of a string, as it stands or escaped. -/
def readChar : List Char → Option (Char × List Char)
  | [] => none
  | c :: rest =>
    if c = '\x5c' then
      match rest with
      | [] => none
      | e :: rest =>
        if e = 'u' then readEscapedUnit rest
        else (letters.find? (·.1 = e)).map fun letter => (letter.2, rest)
    else if c.toNat < 32 then none
    else some (c, rest)

/-- The rest of a string, up to its closing quote, and what follows it. -/
def readString : ℕ → List Char → Option (List Char × List Char)
  | 0, _ => none
  | fuel + 1, cs =>
    if cs.head? = some '\x22' then some ([], cs.tail)
    else do
      let (c, rest) ← readChar cs
      let (s, rest) ← readString fuel rest
      return (c :: s, rest)

/-! ### Values -/

/-- A whole number, and what follows it. There are no zeros in front. -/
def readNumber (cs : List Char) : Option (Json × List Char) :=
  let digits := if cs.head? = some '-' then cs.tail else cs
  let number := digits.takeWhile Char.isDigit
  if number = [] ∨ number.head? = some '0' ∧ number ≠ ['0'] then none
  else
    let value : ℤ := Nat.ofDigitChars 10 number 0
    some (.number (if cs.head? = some '-' then -value else value), digits.dropWhile Char.isDigit)

/-- What follows a given word. -/
def readWord (word cs : List Char) : Option (List Char) :=
  if word.isPrefixOf cs then some (cs.drop word.length) else none

mutual

def readValue : ℕ → List Char → Option (Json × List Char)
  | 0, _ => none
  | fuel + 1, cs =>
    match skipSpace cs with
    | [] => none
    | c :: rest =>
      if c = '\x22' then (readString fuel rest).map fun s => (.string (String.ofList s.1), s.2)
      else if c = '[' then
        if (skipSpace rest).head? = some ']' then some (.array [], (skipSpace rest).tail)
        else (readItems fuel rest).map fun items => (.array items.1, items.2)
      else if c = '{' then
        if (skipSpace rest).head? = some '}' then some (.object [], (skipSpace rest).tail)
        else (readMembers fuel rest).map fun members => (.object members.1, members.2)
      else if c = 'n' then (readWord ['u', 'l', 'l'] rest).map fun rest => (.null, rest)
      else if c = 't' then (readWord ['r', 'u', 'e'] rest).map fun rest => (.bool true, rest)
      else if c = 'f' then (readWord ['a', 'l', 's', 'e'] rest).map fun rest => (.bool false, rest)
      else readNumber (c :: rest)

/-- The items of an array that is not empty, and what follows its closing bracket. -/
def readItems : ℕ → List Char → Option (List Json × List Char)
  | 0, _ => none
  | fuel + 1, cs => do
    let (item, rest) ← readValue fuel cs
    match skipSpace rest with
    | [] => none
    | c :: rest =>
      if c = ']' then return ([item], rest)
      else if c = ',' then
        let (items, rest) ← readItems fuel rest
        return (item :: items, rest)
      else none

/-- The members of an object that is not empty, and what follows its closing bracket. -/
def readMembers : ℕ → List Char → Option (List (String × Json) × List Char)
  | 0, _ => none
  | fuel + 1, cs => do
    let rest ← readWord ['\x22'] (skipSpace cs)
    let (key, rest) ← readString fuel rest
    let rest ← readWord [':'] (skipSpace rest)
    let (value, rest) ← readValue fuel rest
    match skipSpace rest with
    | [] => none
    | c :: rest =>
      if c = '}' then return ([(String.ofList key, value)], rest)
      else if c = ',' then
        let (members, rest) ← readMembers fuel rest
        return ((String.ofList key, value) :: members, rest)
      else none

end

/-- The value of a text. -/
def ofText (s : String) : Option Json := do
  let (json, rest) ← readValue (s.toList.length + 1) s.toList
  if (skipSpace rest).isEmpty then return json
  none

/-! ### Strings are read back -/

theorem hexValue_hexDigit : ∀ d < 16, hexValue (hexDigit d) = some d := by decide

/-- A character is read back from what it is written as. -/
theorem readChar_escape (c : Char) (rest : List Char) :
    readChar (escape c ++ rest) = some (c, rest) := by
  unfold escape
  split_ifs with hquote hsolidus hb ht hn hf hr hcontrol
  · subst hquote; rfl
  · subst hsolidus; rfl
  · subst hb; rfl
  · subst ht; rfl
  · subst hn; rfl
  · subst hf; rfl
  · subst hr; rfl
  · have hhigh : hexValue (hexDigit (c.toNat / 16)) = some (c.toNat / 16) :=
      hexValue_hexDigit _ (by omega)
    have hlow : hexValue (hexDigit (c.toNat % 16)) = some (c.toNat % 16) :=
      hexValue_hexDigit _ (Nat.mod_lt _ (by decide))
    have hzero : hexValue '0' = some 0 := by decide
    have hunit : readUnit ('0' :: '0' :: hexDigit (c.toNat / 16) :: hexDigit (c.toNat % 16) :: rest)
        = some (c.toNat, rest) := by
      simp only [readUnit, hzero, hhigh, hlow, Option.bind_eq_bind, Option.bind_some,
        Option.pure_def, Option.some.injEq, Prod.mk.injEq, and_true]
      omega
    have hread : readEscapedUnit
        ('0' :: '0' :: hexDigit (c.toNat / 16) :: hexDigit (c.toNat % 16) :: rest)
        = some (c, rest) := by
      simp only [readEscapedUnit, hunit, Option.bind_eq_bind, Option.bind_some]
      rw [if_pos (Or.inl (by omega)), Char.ofNat_toNat]
      rfl
    simpa only [List.cons_append, List.nil_append, readChar, if_true] using hread
  · simp only [List.cons_append, List.nil_append, readChar, if_neg hsolidus, if_neg hcontrol]

/-- What a character is written as does not start with a quote. -/
theorem head?_escape (c : Char) (rest : List Char) :
    (escape c ++ rest).head? ≠ some '\x22' := by
  unfold escape
  split_ifs with hquote hsolidus hb ht hn hf hr hcontrol
  all_goals simp
  exact hquote

theorem length_flatMap_escape (s : List Char) : s.length ≤ (s.flatMap escape).length := by
  induction s with
  | nil => exact Nat.le_refl 0
  | cons c s ih =>
    have hone : 1 ≤ (escape c).length := by
      unfold escape
      split_ifs <;> simp
    rw [List.flatMap_cons, List.length_append, List.length_cons]
    omega

/-- A string is read back up to its closing quote. -/
theorem readString_escape {s : List Char} {fuel : ℕ} (hfuel : s.length < fuel) (rest : List Char) :
    readString fuel (s.flatMap escape ++ '\x22' :: rest) = some (s, rest) := by
  induction s generalizing fuel with
  | nil =>
    obtain ⟨fuel, rfl⟩ : ∃ n, fuel = n + 1 := ⟨fuel - 1, by simp at hfuel; omega⟩
    rfl
  | cons c s ih =>
    rw [List.length_cons] at hfuel
    obtain ⟨fuel, rfl⟩ : ∃ n, fuel = n + 1 := ⟨fuel - 1, by omega⟩
    rw [List.flatMap_cons, List.append_assoc, readString, if_neg (head?_escape c _),
      readChar_escape]
    simp only [Option.bind_eq_bind, Option.bind_some, ih (by omega : s.length < fuel)]
    rfl

/-! ### Numbers are read back -/

/-- There is no digit in front of a text. -/
def NoDigit (rest : List Char) : Prop := ∀ c ∈ rest.head?, c.isDigit = false

theorem head?_toDigits {n : ℕ} (hn : 0 < n) : (Nat.toDigits 10 n).head? ≠ some '0' := by
  induction n using Nat.strongRecOn with
  | ind n ih =>
    by_cases hlt : n < 10
    · rw [Nat.toDigits_of_lt_base hlt, List.head?_cons]
      have hdigit : ∀ d < 10, 0 < d → some (Nat.digitChar d) ≠ some '0' := by decide
      exact hdigit n hlt hn
    · have hle : 10 ≤ n := by omega
      have hfirst := ih (n / 10) (Nat.div_lt_self hn (by decide)) (Nat.div_pos hle (by decide))
      obtain ⟨d, ds, hds⟩ : ∃ d ds, Nat.toDigits 10 (n / 10) = d :: ds :=
        List.exists_cons_of_ne_nil Nat.toDigits_ne_nil
      rw [Nat.toDigits_of_base_le (by decide) hle, hds]
      rwa [hds] at hfirst

/-- A number in decimal has digits, and no zeros in front. -/
theorem toDigits_plain (n : ℕ) : ¬(Nat.toDigits 10 n = [] ∨
    (Nat.toDigits 10 n).head? = some '0' ∧ Nat.toDigits 10 n ≠ ['0']) := by
  rintro (hnil | ⟨hhead, hzero⟩)
  · exact Nat.toDigits_ne_nil hnil
  · rcases Nat.eq_zero_or_pos n with rfl | hn
    · exact hzero rfl
    · exact head?_toDigits hn hhead

theorem takeWhile_isDigit {ds rest : List Char} (hds : ds.all Char.isDigit = true)
    (hrest : NoDigit rest) : (ds ++ rest).takeWhile Char.isDigit = ds ∧
      (ds ++ rest).dropWhile Char.isDigit = rest := by
  have hall : ∀ c ∈ ds, c.isDigit = true := List.all_eq_true.mp hds
  rw [List.takeWhile_append_of_pos hall, List.dropWhile_append_of_pos hall]
  rcases rest with - | ⟨c, rest⟩
  · simp
  · have hc : c.isDigit = false := hrest c rfl
    simp [hc]

/-- The digits of a number are read up to what is no digit. -/
theorem readDigits_toDigits (n : ℕ) {rest : List Char} (hrest : NoDigit rest) :
    (Nat.toDigits 10 n ++ rest).takeWhile Char.isDigit = Nat.toDigits 10 n ∧
      (Nat.toDigits 10 n ++ rest).dropWhile Char.isDigit = rest :=
  takeWhile_isDigit (Decimal.all_isDigit_toDigits n) hrest

theorem readNumber_ofInt (n : ℤ) {rest : List Char} (hrest : NoDigit rest) :
    readNumber (Decimal.ofInt n ++ rest) = some (.number n, rest) := by
  rcases n with n | n
  · obtain ⟨htake, hdrop⟩ := readDigits_toDigits n hrest
    have hhead : (Nat.toDigits 10 n ++ rest).head? ≠ some '-' := by
      obtain ⟨d, ds, hds⟩ : ∃ d ds, Nat.toDigits 10 n = d :: ds :=
        List.exists_cons_of_ne_nil Nat.toDigits_ne_nil
      rw [hds, List.cons_append, List.head?_cons]
      intro h
      refine Decimal.not_mem_toDigits (by decide : Char.isDigit '-' = false) n ?_
      rw [hds, ← Option.some.inj h]
      exact List.mem_cons_self
    unfold readNumber Decimal.ofInt
    dsimp only
    rw [if_neg hhead, htake, hdrop, if_neg (toDigits_plain n), Nat.ofDigitChars_ten_toDigits,
      if_neg hhead]
    rfl
  · obtain ⟨htake, hdrop⟩ := readDigits_toDigits (n + 1) hrest
    simp only [readNumber, Decimal.ofInt, List.cons_append, List.head?_cons, List.tail_cons,
      if_true, htake, hdrop, if_neg (toDigits_plain (n + 1)), Nat.ofDigitChars_ten_toDigits]
    rfl

/-! ### Values are read back -/

theorem readWord_cons (c : Char) (cs : List Char) : readWord [c] (c :: cs) = some cs := by
  simp [readWord]

theorem skipSpace_cons {c : Char} (h : isSpace c = false) (cs : List Char) :
    skipSpace (c :: cs) = c :: cs := by
  rw [skipSpace, List.dropWhile_cons, if_neg (by simp [h])]

/-- What a value may start with. -/
def Starts (c : Char) : Prop := isSpace c = false ∧ c ≠ ']'

theorem starts_of_number {c : Char} (h : c = '-' ∨ c.isDigit = true) :
    isSpace c = false ∧ ∀ d ∈ ['\x22', '[', '{', 'n', 't', 'f', ']'], c ≠ d := by
  rcases h with rfl | h
  · exact ⟨rfl, by simp⟩
  · have hne : ∀ d : Char, d.isDigit = false → c ≠ d := by
      rintro d hd rfl
      exact Bool.false_ne_true (hd.symm.trans h)
    refine ⟨?_, ?_⟩
    · simp only [isSpace, Bool.or_eq_false_iff, decide_eq_false_iff_not]
      exact ⟨⟨⟨hne _ (by decide), hne _ (by decide)⟩, hne _ (by decide)⟩, hne _ (by decide)⟩
    · simp only [List.mem_cons, List.not_mem_nil, or_false, forall_eq_or_imp, forall_eq]
      exact ⟨hne _ (by decide), hne _ (by decide), hne _ (by decide), hne _ (by decide),
        hne _ (by decide), hne _ (by decide), hne _ (by decide)⟩

theorem exists_ofInt (n : ℤ) :
    ∃ c cs, Decimal.ofInt n = c :: cs ∧ (c = '-' ∨ c.isDigit = true) := by
  obtain ⟨c, cs, h⟩ := List.exists_cons_of_ne_nil (Decimal.ofInt_ne_nil n)
  exact ⟨c, cs, h, Decimal.mem_ofInt (h ▸ List.mem_cons_self)⟩

theorem exists_chars (json : Json) : ∃ c cs, json.chars = c :: cs ∧ Starts c := by
  cases json with
  | null => exact ⟨_, _, rfl, by decide, by decide⟩
  | bool b => cases b <;> exact ⟨_, _, rfl, by decide, by decide⟩
  | number n =>
    obtain ⟨c, cs, h, hc⟩ := exists_ofInt n
    obtain ⟨hspace, hne⟩ := starts_of_number hc
    exact ⟨c, cs, h, hspace, hne _ (by simp)⟩
  | string s => exact ⟨_, _, rfl, by decide, by decide⟩
  | array items => exact ⟨_, _, rfl, by decide, by decide⟩
  | object members => exact ⟨_, _, rfl, by decide, by decide⟩

theorem exists_charsOfItems (item : Json) (items : List Json) :
    ∃ more, charsOfItems (item :: items) = item.chars ++ more := by
  rcases items with - | ⟨next, items⟩
  · exact ⟨[], by simp [charsOfItems]⟩
  · exact ⟨',' :: charsOfItems (next :: items), by simp [charsOfItems]⟩

theorem exists_charsOfMembers (member : String × Json) (members : List (String × Json)) :
    ∃ more, charsOfMembers (member :: members) = '\x22' :: more := by
  rcases member with ⟨key, value⟩
  rw [← List.head?_eq_some_iff]
  rcases members with - | ⟨next, members⟩ <;> simp [charsOfMembers, quote]

theorem noDigit_cons {c : Char} (h : c.isDigit = false) (cs : List Char) : NoDigit (c :: cs) := by
  intro d hd
  cases hd
  exact h

/-- A string is read back with its quotes, and a member's key as well. -/
theorem readString_quote (s : String) {fuel : ℕ} (hfuel : (quote s).length ≤ fuel + 1)
    (rest : List Char) : readString fuel (s.toList.flatMap escape ++ '\x22' :: rest)
      = some (s.toList, rest) := by
  have hlength := length_flatMap_escape s.toList
  simp only [quote, List.cons_append, List.length_cons, List.length_append, List.length_nil]
    at hfuel
  exact readString_escape (by omega) rest

/-- With this much fuel, values and parts of values are read back. -/
structure Reads (fuel : ℕ) : Prop where
  value : ∀ (json : Json) (rest : List Char), json.chars.length < fuel → NoDigit rest →
    readValue fuel (json.chars ++ rest) = some (json, rest)
  items : ∀ (item : Json) (items : List Json) (rest : List Char),
    (charsOfItems (item :: items)).length + 1 < fuel →
    readItems fuel (charsOfItems (item :: items) ++ ']' :: rest) = some (item :: items, rest)
  members : ∀ (member : String × Json) (members : List (String × Json)) (rest : List Char),
    (charsOfMembers (member :: members)).length + 1 < fuel →
    readMembers fuel (charsOfMembers (member :: members) ++ '}' :: rest)
      = some (member :: members, rest)

namespace Reads

variable {fuel : ℕ} (h : Reads fuel)

include h

theorem value_array (item : Json) (items : List Json) (rest : List Char)
    (hfuel : (chars (.array (item :: items))).length < fuel + 1) :
    readValue (fuel + 1) (chars (.array (item :: items)) ++ rest)
      = some (.array (item :: items), rest) := by
  rw [chars, List.length_append, List.length_cons, List.length_singleton] at hfuel
  have hread := h.items item items rest (by omega)
  obtain ⟨c, cs, hc, hspace, hne⟩ := exists_chars item
  have hhead : (skipSpace (charsOfItems (item :: items) ++ ']' :: rest)).head? ≠ some ']' := by
    obtain ⟨more, hmore⟩ := exists_charsOfItems item items
    rw [hmore, hc, List.cons_append, List.cons_append, skipSpace_cons hspace, List.head?_cons]
    intro hclose
    exact hne (Option.some.inj hclose)
  have hchars : chars (.array (item :: items)) ++ rest
      = '[' :: (charsOfItems (item :: items) ++ ']' :: rest) := by
    simp [chars]
  rw [hchars, readValue, skipSpace_cons (by decide)]
  simp only [Char.reduceEq, if_true, if_false, if_neg hhead, hread, Option.map_some]

theorem value_object (member : String × Json) (members : List (String × Json)) (rest : List Char)
    (hfuel : (chars (.object (member :: members))).length < fuel + 1) :
    readValue (fuel + 1) (chars (.object (member :: members)) ++ rest)
      = some (.object (member :: members), rest) := by
  rw [chars, List.length_append, List.length_cons, List.length_singleton] at hfuel
  have hread := h.members member members rest (by omega)
  have hhead : (skipSpace (charsOfMembers (member :: members) ++ '}' :: rest)).head?
      ≠ some '}' := by
    obtain ⟨more, hmore⟩ := exists_charsOfMembers member members
    rw [hmore, List.cons_append, skipSpace_cons (by decide)]
    exact fun hclose => absurd (Option.some.inj hclose) (by decide)
  have hchars : chars (.object (member :: members)) ++ rest
      = '{' :: (charsOfMembers (member :: members) ++ '}' :: rest) := by
    simp [chars]
  rw [hchars, readValue, skipSpace_cons (by decide)]
  simp only [Char.reduceEq, if_true, if_false, if_neg hhead, hread, Option.map_some]

theorem value_succ (json : Json) (rest : List Char) (hfuel : json.chars.length < fuel + 1)
    (hrest : NoDigit rest) : readValue (fuel + 1) (json.chars ++ rest) = some (json, rest) := by
  cases json with
  | null => rfl
  | bool b => cases b <;> rfl
  | number n =>
    obtain ⟨c, cs, hcs, hc⟩ := exists_ofInt n
    obtain ⟨hspace, hne⟩ := starts_of_number hc
    simp only [List.mem_cons, List.not_mem_nil, or_false, forall_eq_or_imp, forall_eq] at hne
    obtain ⟨hquote, hitems, hmembers, hn, ht, hf, -⟩ := hne
    have hnumber := readNumber_ofInt n hrest
    rw [hcs, List.cons_append] at hnumber
    simp only [chars, hcs, List.cons_append, readValue, skipSpace_cons hspace, if_neg hquote,
      if_neg hitems, if_neg hmembers, if_neg hn, if_neg ht, if_neg hf, hnumber]
  | string s =>
    have hread := readString_quote s (Nat.le_of_lt hfuel) rest
    have hchars : chars (.string s) ++ rest
        = '\x22' :: (s.toList.flatMap escape ++ '\x22' :: rest) := by
      simp [chars, quote]
    rw [hchars, readValue, skipSpace_cons (by decide)]
    simp only [if_true, hread, Option.map_some, String.ofList_toList]
  | array items =>
    rcases items with - | ⟨item, items⟩
    · rfl
    · exact h.value_array item items rest hfuel
  | object members =>
    rcases members with - | ⟨member, members⟩
    · rfl
    · exact h.value_object member members rest hfuel

theorem items_succ (item : Json) (items : List Json) (rest : List Char)
    (hfuel : (charsOfItems (item :: items)).length + 1 < fuel + 1) :
    readItems (fuel + 1) (charsOfItems (item :: items) ++ ']' :: rest)
      = some (item :: items, rest) := by
  rcases items with - | ⟨next, items⟩
  · have hchars : charsOfItems [item] = item.chars := by simp [charsOfItems]
    rw [hchars] at hfuel ⊢
    have hlast := h.value item (']' :: rest) (by omega) (noDigit_cons (by decide) rest)
    rw [readItems, hlast]
    simp only [Option.bind_eq_bind, Option.bind_some,
      skipSpace_cons (by decide : isSpace ']' = false)]
    rfl
  · have hchars : charsOfItems (item :: next :: items)
        = item.chars ++ ',' :: charsOfItems (next :: items) := by
      simp [charsOfItems]
    rw [hchars, List.length_append, List.length_cons] at hfuel
    have hfirst := h.value item (',' :: (charsOfItems (next :: items) ++ ']' :: rest)) (by omega)
      (noDigit_cons (by decide) _)
    have hrest := h.items next items rest (by omega)
    rw [hchars, List.append_assoc, List.cons_append, readItems, hfirst]
    simp only [Option.bind_eq_bind, Option.bind_some, Char.reduceEq, if_true, if_false, hrest,
      skipSpace_cons (by decide : isSpace ',' = false)]
    rfl

/-- A key is read back, up to the value that follows it. -/
theorem readMember (key : String) (value : Json) (c : Char) (hc : c.isDigit = false)
    (hspace : isSpace c = false) (rest : List Char)
    (hkey : (quote key).length ≤ fuel + 1) (hvalue : value.chars.length < fuel) :
    readMembers (fuel + 1) (quote key ++ ':' :: (value.chars ++ c :: rest)) =
      if c = '}' then some ([(key, value)], rest)
      else if c = ',' then
        (readMembers fuel rest).map fun members => ((key, value) :: members.1, members.2)
      else none := by
  have hquote : quote key ++ ':' :: (value.chars ++ c :: rest) = '\x22' ::
      (key.toList.flatMap escape ++ '\x22' :: ':' :: (value.chars ++ c :: rest)) := by
    simp [quote]
  rw [hquote, readMembers, skipSpace_cons (by decide)]
  simp only [readWord_cons, Option.bind_eq_bind, Option.bind_some, readString_quote key hkey,
    skipSpace_cons (by decide : isSpace ':' = false), String.ofList_toList,
    h.value value (c :: rest) hvalue (noDigit_cons hc rest), skipSpace_cons hspace]
  split_ifs
  · rfl
  · cases readMembers fuel rest <;> rfl
  · rfl

theorem members_succ (member : String × Json) (members : List (String × Json)) (rest : List Char)
    (hfuel : (charsOfMembers (member :: members)).length + 1 < fuel + 1) :
    readMembers (fuel + 1) (charsOfMembers (member :: members) ++ '}' :: rest)
      = some (member :: members, rest) := by
  rcases member with ⟨key, value⟩
  rcases members with - | ⟨next, members⟩
  · have hchars : charsOfMembers [(key, value)] = quote key ++ ':' :: value.chars := by
      simp [charsOfMembers]
    rw [hchars, List.length_append, List.length_cons] at hfuel
    rw [hchars, List.append_assoc, List.cons_append,
      h.readMember key value '}' (by decide) (by decide) rest (by omega) (by omega), if_pos rfl]
  · have hchars : charsOfMembers ((key, value) :: next :: members)
        = quote key ++ ':' :: (value.chars ++ ',' :: charsOfMembers (next :: members)) := by
      simp [charsOfMembers]
    rw [hchars, List.length_append, List.length_cons, List.length_append, List.length_cons] at hfuel
    rw [hchars, List.append_assoc, List.cons_append, List.append_assoc, List.cons_append,
      h.readMember key value ',' (by decide) (by decide) _ (by omega) (by omega),
      if_neg (by decide), if_pos rfl, h.members next members rest (by omega)]
    rfl

end Reads

/-- The texts of values are as long as the fuel that reading them takes. -/
theorem reads (fuel : ℕ) : Reads fuel := by
  induction fuel with
  | zero =>
    refine ⟨fun _ _ hfuel => ?_, fun _ _ _ hfuel => ?_, fun _ _ _ hfuel => ?_⟩
    all_goals exact absurd hfuel (Nat.not_lt_zero _)
  | succ fuel ih => exact ⟨ih.value_succ, ih.items_succ, ih.members_succ⟩

/-- **What is written is read back.** -/
theorem ofText_text (json : Json) : ofText json.text = some json := by
  have hread := (reads (json.chars.length + 1)).value json [] (Nat.lt_succ_self _)
    (fun _ h => by cases h)
  rw [List.append_nil] at hread
  rw [ofText, text, String.toList_ofList, hread]
  rfl

/-- Different values have different texts. -/
theorem text_injective : Function.Injective text := fun a b h =>
  Option.some.inj ((ofText_text a).symm.trans ((congrArg ofText h).trans (ofText_text b)))

end Json

import Atx.Lib.Ascii
import Mathlib.Data.List.TakeWhile
import Mathlib.Data.Nat.Find

/-!
# Slicing texts by bytes

Programs that look at the bytes of a text cut it at byte offsets, and a cut inside of a character is
an error. A text is a list of characters here. Cutting it after some of its characters succeeds at
the offset their bytes end at, and a scan of its bytes for a class of bytes below 128 is a scan of
its characters.

## Main definitions

* `Utf8.bytes`, `Utf8.size` — the bytes of a text, and how many there are
* `Utf8.splitAt?`, `Utf8.slice` — cutting at byte offsets, which may fail
* `Utf8.boundaryFrom` — the first offset between two characters from an offset on
* `Utf8.lift` — a class of bytes below 128 as a class of characters
* `Utf8.trim` — a text without the white space around it

## Main results

* `Utf8.slice_append` — a slice from the end of one part to the end of the next
* `Utf8.cut_spec` — the longest end of a text that has few enough bytes
* `Utf8.takeWhile_bytes` — scanning bytes is scanning characters
* `Utf8.exists_of_getElem?` — a byte below 128 is a character
-/

namespace Utf8

/-- The bytes of a text. -/
def bytes (cs : List Char) : List UInt8 := cs.flatMap String.utf8EncodeChar

/-- The number of bytes of a text. -/
def size (cs : List Char) : ℕ := (bytes cs).length

@[simp] theorem bytes_nil : bytes [] = [] := rfl

theorem bytes_cons (c : Char) (cs : List Char) :
    bytes (c :: cs) = String.utf8EncodeChar c ++ bytes cs := rfl

@[simp] theorem bytes_append (xs ys : List Char) : bytes (xs ++ ys) = bytes xs ++ bytes ys :=
  List.flatMap_append

@[simp] theorem size_nil : size [] = 0 := rfl

theorem size_cons (c : Char) (cs : List Char) : size (c :: cs) = c.utf8Size + size cs := by
  rw [size, bytes_cons, List.length_append, String.length_utf8EncodeChar, size]

@[simp] theorem size_append (xs ys : List Char) : size (xs ++ ys) = size xs + size ys := by
  rw [size, bytes_append, List.length_append, size, size]

theorem drop_bytes_append (xs ys : List Char) : (bytes (xs ++ ys)).drop (size xs) = bytes ys := by
  rw [bytes_append, size, List.drop_left]

theorem getElem?_bytes_append (xs ys : List Char) :
    (bytes (xs ++ ys))[size xs]? = (bytes ys).head? := by
  rw [← drop_bytes_append xs ys, List.head?_drop]

theorem size_pos {cs : List Char} (h : cs ≠ []) : 0 < size cs := by
  obtain ⟨c, cs, rfl⟩ := List.exists_cons_of_ne_nil h
  have := c.utf8Size_pos
  rw [size_cons]
  omega

theorem length_le_size (cs : List Char) : cs.length ≤ size cs := by
  induction cs with
  | nil => exact le_refl _
  | cons c cs ih =>
    have := c.utf8Size_pos
    rw [size_cons, List.length_cons]
    omega

/-! ### Cutting -/

/-- The two parts of a text at a byte offset, if it is one between two characters. -/
def splitAt? : List Char → ℕ → Option (List Char × List Char)
  | cs, 0 => some ([], cs)
  | [], _ + 1 => none
  | c :: cs, n + 1 =>
    if c.utf8Size ≤ n + 1 then (splitAt? cs (n + 1 - c.utf8Size)).map fun p => (c :: p.1, p.2)
    else none

/-- The characters between two byte offsets. -/
def slice (cs : List Char) (i j : ℕ) : Option (List Char) :=
  if i ≤ j then do
    let (_, rest) ← splitAt? cs i
    let (mid, _) ← splitAt? rest (j - i)
    return mid
  else none

theorem splitAt?_append (xs ys : List Char) : splitAt? (xs ++ ys) (size xs) = some (xs, ys) := by
  induction xs with
  | nil => cases ys <;> rfl
  | cons c cs ih =>
    have hpos := c.utf8Size_pos
    obtain ⟨n, hn⟩ : ∃ n, size (c :: cs) = n + 1 := ⟨size (c :: cs) - 1, by
      rw [size_cons]
      omega⟩
    have hrest : n + 1 - c.utf8Size = size cs := by
      rw [← hn, size_cons]
      omega
    rw [hn, List.cons_append, splitAt?, if_pos (by rw [← hn, size_cons]; omega), hrest, ih]
    rfl

/-- **A slice from the end of one part to the end of the next.** -/
theorem slice_append (xs ys zs : List Char) :
    slice (xs ++ (ys ++ zs)) (size xs) (size xs + size ys) = some ys := by
  rw [slice, if_pos (Nat.le_add_right _ _), splitAt?_append, Nat.add_sub_cancel_left]
  simp only [Option.bind_eq_bind, Option.bind_some, splitAt?_append, Option.pure_def]

/-- A slice behind a separator of one byte. -/
theorem slice_behind {sep : Char} (hsep : sep.utf8Size = 1) (xs ys zs : List Char) :
    slice (xs ++ sep :: (ys ++ zs)) (size xs + 1) (size xs + 1 + size ys) = some ys := by
  have hsize : size (xs ++ [sep]) = size xs + 1 := by rw [size_append, size_cons, hsep, size_nil]
  have hslice := slice_append (xs ++ [sep]) ys zs
  rw [hsize, List.append_assoc] at hslice
  exact hslice

/-- The bytes behind a separator of one byte. -/
theorem getElem?_behind {sep : Char} (hsep : sep.utf8Size = 1) (xs ys : List Char) (i : ℕ) :
    (bytes (xs ++ sep :: ys))[size xs + 1 + i]? = (bytes ys)[i]? := by
  have hsize : size (xs ++ [sep]) = size xs + 1 := by rw [size_append, size_cons, hsep, size_nil]
  rw [List.append_cons, bytes_append, List.getElem?_append_right (by
    change size (xs ++ [sep]) ≤ _
    omega)]
  change (bytes ys)[size xs + 1 + i - size (xs ++ [sep])]? = _
  rw [hsize, Nat.add_sub_cancel_left]

/-- The byte of a separator. -/
theorem getElem?_separator {sep : Char} (hsep : sep.toNat < 128) (xs ys : List Char) :
    (bytes (xs ++ sep :: ys))[size xs]? = some (UInt8.ofNat sep.toNat) := by
  rw [getElem?_bytes_append, bytes_cons, Ascii.utf8EncodeChar_of_lt hsep]
  rfl

/-- The bytes of texts of characters below 128 are in the order of the characters. -/
theorem bytes_lt_iff {xs ys : List Char} (hx : ∀ c ∈ xs, c.toNat < 128)
    (hy : ∀ c ∈ ys, c.toNat < 128) : bytes xs < bytes ys ↔ xs < ys := by
  induction xs generalizing ys with
  | nil =>
    cases ys with
    | nil => simp
    | cons y ys =>
      rw [bytes_cons, Ascii.utf8EncodeChar_of_lt (hy y List.mem_cons_self)]
      exact iff_of_true (List.nil_lt_cons _ _) (List.nil_lt_cons _ _)
  | cons x xs ih =>
    have hx₁ := hx x List.mem_cons_self
    cases ys with
    | nil => simp
    | cons y ys =>
      have hy₁ := hy y List.mem_cons_self
      have hrest := @ih ys (fun c hc => hx c (List.mem_cons_of_mem _ hc))
        fun c hc => hy c (List.mem_cons_of_mem _ hc)
      have hlt : UInt8.ofNat x.toNat < UInt8.ofNat y.toNat ↔ x < y := by
        rw [UInt8.lt_iff_toNat_lt, UInt8.toNat_ofNat', UInt8.toNat_ofNat',
          Nat.mod_eq_of_lt (by omega), Nat.mod_eq_of_lt (by omega)]
        rfl
      have heq : UInt8.ofNat x.toNat = UInt8.ofNat y.toNat ↔ x = y := by
        rw [← UInt8.toNat_inj, UInt8.toNat_ofNat', UInt8.toNat_ofNat',
          Nat.mod_eq_of_lt (by omega), Nat.mod_eq_of_lt (by omega)]
        exact Char.toNat_inj
      rw [bytes_cons, bytes_cons, Ascii.utf8EncodeChar_of_lt hx₁, Ascii.utf8EncodeChar_of_lt hy₁,
        List.singleton_append, List.singleton_append, List.cons_lt_cons_iff, List.cons_lt_cons_iff,
        hlt, heq, hrest]

/-! ### Classes of bytes -/

/-- The characters that are bytes of a class. -/
def lift (p : UInt8 → Bool) (c : Char) : Bool := c.toNat < 128 && p (UInt8.ofNat c.toNat)

variable {p : UInt8 → Bool}

theorem bytes_of_lift {c : Char} (h : lift p c = true) (cs : List Char) :
    bytes (c :: cs) = UInt8.ofNat c.toNat :: bytes cs := by
  rw [lift, Bool.and_eq_true, decide_eq_true_eq] at h
  rw [bytes_cons, Ascii.utf8EncodeChar_of_lt h.1]
  rfl

/-- The bytes of a character from 128 on are not below 128. -/
theorem le_of_mem_utf8EncodeChar {c : Char} (h : ¬c.toNat < 128) {b : UInt8}
    (hb : b ∈ String.utf8EncodeChar c) : 128 ≤ b.toNat := by
  have hc : ¬c.val.toNat ≤ 127 := fun h' => h (Nat.lt_succ_of_le h')
  have hmod : ∀ n, 128 ≤ n → n < 256 → 128 ≤ (UInt8.ofNat n).toNat := by
    intro n hlow hhigh
    rw [UInt8.toNat_ofNat']
    omega
  rw [String.utf8EncodeChar, if_neg hc] at hb
  split_ifs at hb with h2 h3
  all_goals
    simp only [List.mem_cons, List.not_mem_nil, or_false] at hb
  · rcases hb with rfl | rfl <;> exact hmod _ (by omega) (by omega)
  · rcases hb with rfl | rfl | rfl <;> exact hmod _ (by omega) (by omega)
  · rcases hb with rfl | rfl | rfl | rfl <;> exact hmod _ (by omega) (by omega)

theorem exists_bytes_of_ge {c : Char} (h : ¬c.toNat < 128) (cs : List Char) :
    ∃ b bs, bytes (c :: cs) = b :: bs ∧ 128 ≤ b.toNat := by
  have hne : String.utf8EncodeChar c ≠ [] := by
    rw [← List.length_pos_iff, String.length_utf8EncodeChar]
    exact c.utf8Size_pos
  obtain ⟨b, bs, hb⟩ := List.exists_cons_of_ne_nil hne
  refine ⟨b, bs ++ bytes cs, by rw [bytes_cons, hb, List.cons_append], ?_⟩
  exact le_of_mem_utf8EncodeChar h (hb ▸ List.mem_cons_self)

/-- The first byte of a text is of a class of bytes below 128 exactly if its first character is. -/
theorem head_bytes (hp : ∀ b, p b = true → b.toNat < 128) (c : Char) (cs : List Char) :
    ∃ b bs, bytes (c :: cs) = b :: bs ∧ p b = lift p c ∧ (lift p c = true → bs = bytes cs) := by
  by_cases h : c.toNat < 128
  · refine ⟨UInt8.ofNat c.toNat, bytes cs, ?_, ?_, fun _ => rfl⟩
    · rw [bytes_cons, Ascii.utf8EncodeChar_of_lt h]
      rfl
    · simp [lift, h]
  · obtain ⟨b, bs, hb, hge⟩ := exists_bytes_of_ge h cs
    have hnot : p b = false := by
      by_contra hpb
      have := hp b (by simpa using hpb)
      omega
    have hlift : lift p c = false := by simp [lift, h]
    refine ⟨b, bs, hb, hnot.trans hlift.symm, fun hc => ?_⟩
    rw [hlift] at hc
    cases hc

/-- All bytes are of a class of bytes below 128 exactly if all characters are. -/
theorem all_bytes (hp : ∀ b, p b = true → b.toNat < 128) (cs : List Char) :
    (bytes cs).all p = cs.all (lift p) := by
  induction cs with
  | nil => rfl
  | cons c cs ih =>
    obtain ⟨b, bs, hb, hpb, hrest⟩ := head_bytes hp c cs
    rw [hb, List.all_cons, List.all_cons, hpb]
    by_cases hc : lift p c = true
    · rw [hrest hc, ih]
    · rw [(Bool.not_eq_true _).mp hc, Bool.false_and, Bool.false_and]

/-- A text whose first byte is below 128 starts with that character. -/
theorem eq_cons_of_head? {cs : List Char} {c : Char} (hc : c.toNat < 128)
    (h : (bytes cs).head? = some (UInt8.ofNat c.toNat)) : ∃ rest, cs = c :: rest := by
  rcases cs with _ | ⟨d, rest⟩
  · cases h
  · refine ⟨rest, ?_⟩
    have hp : ∀ b, (b == UInt8.ofNat c.toNat) = true → b.toNat < 128 := by
      intro b hb
      rw [beq_iff_eq.mp hb, UInt8.toNat_ofNat']
      omega
    obtain ⟨b, bs, hb, hpb, -⟩ := head_bytes hp d rest
    rw [hb, List.head?_cons, Option.some.injEq] at h
    rw [h, beq_self_eq_true, lift, eq_comm, Bool.and_eq_true, decide_eq_true_eq, beq_iff_eq] at hpb
    have hd : d.toNat = c.toNat := by
      have := congrArg UInt8.toNat hpb.2
      rw [UInt8.toNat_ofNat', UInt8.toNat_ofNat'] at this
      omega
    rw [Char.toNat_inj.mp hd]

/-- **A byte below 128 within a text is a character of it**, and ends the text before it. -/
theorem exists_of_getElem? {c : Char} (hc : c.toNat < 128) {cs : List Char} {i : ℕ}
    (h : (bytes cs)[i]? = some (UInt8.ofNat c.toNat)) :
    ∃ xs ys, cs = xs ++ c :: ys ∧ size xs = i := by
  induction cs generalizing i with
  | nil => cases h
  | cons d cs ih =>
    by_cases hi : i = 0
    · subst hi
      obtain ⟨rest, hrest⟩ := eq_cons_of_head? hc (List.head?_eq_getElem?.trans h)
      exact ⟨[], rest, hrest, rfl⟩
    · have hlen : (String.utf8EncodeChar d).length = d.utf8Size := String.length_utf8EncodeChar d
      rw [bytes_cons] at h
      by_cases hlt : i < d.utf8Size
      · -- a byte within a longer character
        rw [List.getElem?_append_left (hlen ▸ hlt)] at h
        have hge : 128 ≤ (UInt8.ofNat c.toNat).toNat := by
          refine le_of_mem_utf8EncodeChar (fun hd => hi ?_) (List.mem_of_getElem? h)
          rw [← hlen, Ascii.utf8EncodeChar_of_lt hd, List.length_singleton] at hlt
          omega
        rw [UInt8.toNat_ofNat'] at hge
        omega
      · rw [List.getElem?_append_right (by omega), hlen] at h
        obtain ⟨xs, ys, rfl, hsize⟩ := ih h
        refine ⟨d :: xs, ys, rfl, ?_⟩
        rw [size_cons, hsize]
        omega

/-- **Scanning bytes is scanning characters.** -/
theorem takeWhile_bytes (hp : ∀ b, p b = true → b.toNat < 128) (cs : List Char) :
    ((bytes cs).takeWhile p).length = (cs.takeWhile (lift p)).length ∧
      size (cs.takeWhile (lift p)) = (cs.takeWhile (lift p)).length := by
  induction cs with
  | nil => exact ⟨rfl, rfl⟩
  | cons c cs ih =>
    obtain ⟨b, bs, hb, hpb, hrest⟩ := head_bytes hp c cs
    rw [hb]
    by_cases hc : lift p c = true
    · have hsize : size (c :: cs.takeWhile (lift p)) = 1 + size (cs.takeWhile (lift p)) := by
        rw [size, bytes_of_lift hc, List.length_cons, Nat.add_comm]
        rfl
      rw [List.takeWhile_cons_of_pos (hpb.trans hc), List.takeWhile_cons_of_pos hc, hrest hc]
      refine ⟨?_, ?_⟩
      · rw [List.length_cons, List.length_cons, ih.1]
      · rw [hsize, ih.2, List.length_cons, Nat.add_comm]
    · rw [List.takeWhile_cons_of_neg (by rw [hpb]; exact hc), List.takeWhile_cons_of_neg hc]
      exact ⟨rfl, rfl⟩

/-! ### White space -/

/-- White space, as Unicode has it. -/
def isWhitespace (c : Char) : Bool :=
  (9 ≤ c.toNat && c.toNat ≤ 13) || c.toNat = 0x20 || c.toNat = 0x85 || c.toNat = 0xa0 ||
    c.toNat = 0x1680 || (0x2000 ≤ c.toNat && c.toNat ≤ 0x200a) || c.toNat = 0x2028 ||
    c.toNat = 0x2029 || c.toNat = 0x202f || c.toNat = 0x205f || c.toNat = 0x3000

/-- A text without the white space around it. -/
def trim (cs : List Char) : List Char :=
  ((cs.dropWhile isWhitespace).reverse.dropWhile isWhitespace).reverse

/-- There is white space around a trimmed text. -/
theorem exists_trim (cs : List Char) : ∃ before after, cs = before ++ (trim cs ++ after) ∧
    (∀ c ∈ before, isWhitespace c = true) ∧ ∀ c ∈ after, isWhitespace c = true := by
  refine ⟨cs.takeWhile isWhitespace,
    ((cs.dropWhile isWhitespace).reverse.takeWhile isWhitespace).reverse, ?_,
    fun c hc => List.mem_takeWhile_imp hc, fun c hc => ?_⟩
  · rw [trim, ← List.reverse_append, List.takeWhile_append_dropWhile, List.reverse_reverse,
      List.takeWhile_append_dropWhile]
  · exact List.mem_takeWhile_imp (List.mem_reverse.mp hc)

/-- A text without white space at its ends is what trimming leaves of it and white space around. -/
theorem trim_append {before cs after : List Char} (hbefore : ∀ c ∈ before, isWhitespace c = true)
    (hafter : ∀ c ∈ after, isWhitespace c = true) (hne : cs ≠ [])
    (hhead : ∀ c ∈ cs.head?, isWhitespace c = false)
    (hlast : ∀ c ∈ cs.getLast?, isWhitespace c = false) : trim (before ++ (cs ++ after)) = cs := by
  have drop : ∀ ws xs : List Char, (∀ c ∈ ws, isWhitespace c = true) → xs ≠ [] →
      (∀ c ∈ xs.head?, isWhitespace c = false) → (ws ++ xs).dropWhile isWhitespace = xs := by
    rintro ws (_ | ⟨c, xs⟩) hws hxs h
    · exact absurd rfl hxs
    · rw [List.dropWhile_append_of_pos hws, List.dropWhile_cons_of_neg (by simp [h c rfl])]
  have hfront : (before ++ (cs ++ after)).dropWhile isWhitespace = cs ++ after := by
    refine drop before _ hbefore (List.append_ne_nil_of_left_ne_nil hne _) ?_
    obtain ⟨c, cs, rfl⟩ := List.exists_cons_of_ne_nil hne
    exact hhead
  rw [trim, hfront, List.reverse_append, drop after.reverse cs.reverse, List.reverse_reverse]
  · exact fun c hc => hafter c (List.mem_reverse.mp hc)
  · exact fun h => hne (List.reverse_eq_nil_iff.mp h)
  · rwa [List.head?_reverse]

/-- The parts of a text between white space. -/
def splitWhitespace (cs : List Char) : List (List Char) :=
  (cs.splitOnP isWhitespace).filter (· ≠ [])

/-- Words behind a space each, and white space at the end. -/
theorem splitWhitespace_flatMap {words : List (List Char)}
    (h : ∀ word ∈ words, word ≠ [] ∧ ∀ c ∈ word, isWhitespace c = false) {last : Char}
    (hlast : isWhitespace last = true) :
    splitWhitespace (words.flatMap (' ' :: ·) ++ [last]) = words := by
  have hspace : isWhitespace ' ' = true := by decide
  -- the first word is behind a separator, so one empty part is before it
  have hparts : ∀ words : List (List Char),
      (∀ word ∈ words, word ≠ [] ∧ ∀ c ∈ word, isWhitespace c = false) →
      ∀ front : List Char, (∀ c ∈ front, isWhitespace c = false) →
        (front ++ (words.flatMap (' ' :: ·) ++ [last])).splitOnP isWhitespace =
          front :: words ++ [[]] := by
    intro words
    induction words with
    | nil =>
      intro _ front hfront
      rw [List.flatMap_nil, List.nil_append,
        List.splitOnP_append_cons_of_forall_mem hfront last hlast, List.splitOnP_nil]
      rfl
    | cons word words ih =>
      intro h front hfront
      rw [List.forall_mem_cons] at h
      rw [List.flatMap_cons, List.append_assoc, List.cons_append,
        List.splitOnP_append_cons_of_forall_mem hfront ' ' hspace, ih h.2 word h.1.2]
      rfl
  have hall := hparts words h [] (by simp)
  rw [List.nil_append] at hall
  have hwords : words.filter (· ≠ []) = words := List.filter_eq_self.mpr fun word hword => by
    simpa using (h word hword).1
  rw [splitWhitespace, hall, List.filter_append, List.filter_cons_of_neg (by simp), hwords]
  simp

/-- **A byte below 128 in the middle of a text** parts the text. -/
theorem exists_of_bytes_append {cs : List Char} {c : Char} (hc : c.toNat < 128)
    {before behind : List UInt8} (h : bytes cs = before ++ UInt8.ofNat c.toNat :: behind) :
    ∃ xs ys, cs = xs ++ c :: ys ∧ bytes xs = before ∧ bytes ys = behind := by
  have hget : (bytes cs)[before.length]? = some (UInt8.ofNat c.toNat) := by
    rw [h, List.getElem?_append_right (le_refl _), Nat.sub_self, List.getElem?_cons_zero]
  obtain ⟨xs, ys, rfl, hsize⟩ := exists_of_getElem? hc hget
  rw [bytes_append, bytes_cons, Ascii.utf8EncodeChar_of_lt hc, List.singleton_append] at h
  obtain ⟨hxs, hys⟩ := List.append_inj h hsize
  exact ⟨xs, ys, rfl, hxs, (List.cons.inj hys).2⟩

end Utf8

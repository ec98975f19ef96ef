import Atx.Lib.Utf8

/-!
# Lossy decoding

Decoding bytes that may not be UTF-8. Well-formed characters are decoded, and each longest start of
a character that is broken off becomes one replacement character, as does each byte that starts no
character. The byte that breaks a character off is looked at again.

The decoder goes from byte to byte. Between two bytes of a character it keeps the range the next byte
has to be in, which is narrower after some first bytes: it leaves out longer forms of shorter
characters, surrogates, and what is past the last character.

## Main definitions

* `Lossy.lead`, `Lossy.decode` — what a first byte asks for, and the decoder

## Main results

* `Lossy.decode_bytes` — the bytes of a text are decoded to the text
* `Lossy.bytes_of_decode` — what is decoded to characters below 128 is these characters
-/

namespace Lossy

def replacement : Char := '\ufffd'

/-- A character that is being read: the range of its next byte, how many bytes come after that, and
its number so far. -/
structure Pending where
  low : ℕ
  high : ℕ
  more : ℕ
  value : ℕ
  deriving DecidableEq

/-- What a first byte from 128 on asks for. -/
def lead (b : ℕ) : Option Pending :=
  if 0xc2 ≤ b ∧ b ≤ 0xdf then some ⟨0x80, 0xbf, 0, b - 0xc0⟩
  else if b = 0xe0 then some ⟨0xa0, 0xbf, 1, 0⟩
  else if b = 0xed then some ⟨0x80, 0x9f, 1, 0xd⟩
  else if 0xe1 ≤ b ∧ b ≤ 0xef then some ⟨0x80, 0xbf, 1, b - 0xe0⟩
  else if b = 0xf0 then some ⟨0x90, 0xbf, 2, 0⟩
  else if 0xf1 ≤ b ∧ b ≤ 0xf3 then some ⟨0x80, 0xbf, 2, b - 0xf0⟩
  else if b = 0xf4 then some ⟨0x80, 0x8f, 2, 4⟩
  else none

/-- The number with the next byte. -/
def Pending.join (p : Pending) (b : ℕ) : ℕ := p.value * 64 + (b - 0x80)

/-- A byte between two characters. -/
def first (b : UInt8) (next : Option Pending → List Char) : List Char :=
  if b.toNat < 128 then Char.ofNat b.toNat :: next none
  else match lead b.toNat with
    | none => replacement :: next none
    | some p => next (some p)

/-- The text of the rest of some bytes, within a character or between two. -/
def scan : Option Pending → List UInt8 → List Char
  | none, [] => []
  | some _, [] => [replacement]
  | none, b :: bs => first b fun pending => scan pending bs
  | some p, b :: bs =>
    if p.low ≤ b.toNat ∧ b.toNat ≤ p.high then
      match p.more with
      | 0 => Char.ofNat (p.join b.toNat) :: scan none bs
      | more + 1 => scan (some ⟨0x80, 0xbf, more, p.join b.toNat⟩) bs
    else replacement :: first b fun pending => scan pending bs

/-- The text of some bytes. -/
def decode (bs : List UInt8) : List Char := scan none bs

/-! ### Texts -/

theorem toNat_ofNat_of_lt {n : ℕ} (h : n < 256) : (UInt8.ofNat n).toNat = n := by
  rw [UInt8.toNat_ofNat']
  omega

theorem scan_lead {n : ℕ} {p : Pending} (hn : 128 ≤ n) (hlt : n < 256) (h : lead n = some p)
    (bs : List UInt8) : scan none (UInt8.ofNat n :: bs) = scan (some p) bs := by
  rw [scan, first, toNat_ofNat_of_lt hlt, if_neg (by omega), h]

theorem Pending.join_add (p : Pending) (x : ℕ) : p.join (x + 0x80) = p.value * 64 + x := by
  unfold join
  omega

theorem scan_more {low high more value x : ℕ} (hx : x < 64) (hlow : low ≤ x + 0x80)
    (hhigh : x + 0x80 ≤ high) (bs : List UInt8) :
    scan (some ⟨low, high, more + 1, value⟩) (UInt8.ofNat (x + 0x80) :: bs) =
      scan (some ⟨0x80, 0xbf, more, value * 64 + x⟩) bs := by
  have hb : (UInt8.ofNat (x + 0x80)).toNat = x + 0x80 := toNat_ofNat_of_lt (by omega)
  rw [scan, hb, if_pos ⟨hlow, hhigh⟩, Pending.join_add]

theorem scan_last {low high value x : ℕ} (hx : x < 64) (hlow : low ≤ x + 0x80)
    (hhigh : x + 0x80 ≤ high) (bs : List UInt8) :
    scan (some ⟨low, high, 0, value⟩) (UInt8.ofNat (x + 0x80) :: bs) =
      Char.ofNat (value * 64 + x) :: scan none bs := by
  have hb : (UInt8.ofNat (x + 0x80)).toNat = x + 0x80 := toNat_ofNat_of_lt (by omega)
  rw [scan, hb, if_pos ⟨hlow, hhigh⟩, Pending.join_add]

theorem lead_two {x : ℕ} (hx : x < 0x20) (hlow : 2 ≤ x) :
    lead (x + 0xc0) = some ⟨0x80, 0xbf, 0, x⟩ := by
  rw [lead, if_pos (by omega), Nat.add_sub_cancel]

/-- A first byte of three. The second one is not that of a shorter character or of a surrogate. -/
theorem lead_three {x y : ℕ} (hx : x < 0x10) (hy : y < 64) (hlow : x = 0 → 0x20 ≤ y)
    (hsurrogate : x = 0xd → y < 0x20) : ∃ low high,
      lead (x + 0xe0) = some ⟨low, high, 1, x⟩ ∧ low ≤ y + 0x80 ∧ y + 0x80 ≤ high := by
  rw [lead, if_neg (by omega)]
  split_ifs with h1 h2 h3
  · obtain rfl : x = 0 := by omega
    exact ⟨0xa0, 0xbf, rfl, by omega, by omega⟩
  · obtain rfl : x = 0xd := by omega
    exact ⟨0x80, 0x9f, rfl, by omega, by omega⟩
  · exact ⟨0x80, 0xbf, by rw [Nat.add_sub_cancel], by omega, by omega⟩
  all_goals omega

/-- A first byte of four. The second one is not that of a shorter character or past the last. -/
theorem lead_four {x y : ℕ} (hx : x ≤ 4) (hy : y < 64) (hlow : x = 0 → 0x10 ≤ y)
    (hlast : x = 4 → y < 0x10) : ∃ low high,
      lead (x + 0xf0) = some ⟨low, high, 2, x⟩ ∧ low ≤ y + 0x80 ∧ y + 0x80 ≤ high := by
  rw [lead, if_neg (by omega), if_neg (by omega), if_neg (by omega), if_neg (by omega)]
  split_ifs with h1 h2 h3
  · obtain rfl : x = 0 := by omega
    exact ⟨0x90, 0xbf, rfl, by omega, by omega⟩
  · exact ⟨0x80, 0xbf, by rw [Nat.add_sub_cancel], by omega, by omega⟩
  · obtain rfl : x = 4 := by omega
    exact ⟨0x80, 0x8f, rfl, by omega, by omega⟩
  · omega

/-- The bytes of a character are decoded to it. -/
theorem scan_utf8EncodeChar (c : Char) (rest : List UInt8) :
    scan none (String.utf8EncodeChar c ++ rest) = c :: scan none rest := by
  have hvalid : c.val.toNat < 0xd800 ∨ 0xdfff < c.val.toNat ∧ c.val.toNat < 0x110000 := c.valid
  have hc : Char.ofNat c.val.toNat = c := Char.ofNat_toNat c
  generalize hv : c.val.toNat = v at hvalid hc
  rw [String.utf8EncodeChar, hv]
  split_ifs with h1 h2 h3
  · rw [List.singleton_append, scan, first, toNat_ofNat_of_lt (by omega), if_pos (by omega), hc]
  · simp only [List.cons_append, List.nil_append]
    rw [scan_lead (by omega) (by omega) (lead_two (by omega) (by omega)),
      scan_last (by omega) (by omega) (by omega), ← hc]
    congr 2
    omega
  · simp only [List.cons_append, List.nil_append]
    obtain ⟨low, high, hlead, hlow, hhigh⟩ := lead_three (x := v / 4096 % 0x10)
      (y := v / 64 % 0x40) (by omega) (by omega) (by omega) (by omega)
    rw [scan_lead (by omega) (by omega) hlead, scan_more (by omega) hlow hhigh,
      scan_last (by omega) (by omega) (by omega), ← hc]
    congr 2
    omega
  · simp only [List.cons_append, List.nil_append]
    obtain ⟨low, high, hlead, hlow, hhigh⟩ := lead_four (x := v / 262144 % 0x08)
      (y := v / 4096 % 0x40) (by omega) (by omega) (by omega) (by omega)
    rw [scan_lead (by omega) (by omega) hlead, scan_more (by omega) hlow hhigh,
      scan_more (by omega) (by omega) (by omega), scan_last (by omega) (by omega) (by omega), ← hc]
    congr 2
    omega

/-- **The bytes of a text are decoded to the text.** -/
theorem decode_bytes (cs : List Char) : decode (Utf8.bytes cs) = cs := by
  induction cs with
  | nil => rfl
  | cons c cs ih =>
    rw [decode, Utf8.bytes_cons, scan_utf8EncodeChar]
    exact congrArg (c :: ·) ih

/-! ### Characters below 128 -/

theorem toNat_ofNat_of_isValidChar {n : ℕ} (h : n.isValidChar) : (Char.ofNat n).toNat = n := by
  rw [Char.ofNat, dif_pos h]
  rfl

/-- Whatever the next bytes are, the number will be 128 or more, and that of a character. -/
def Pending.Sound (p : Pending) : Prop :=
  0x80 ≤ p.low ∧ p.high ≤ 0xbf ∧ ∀ x, p.low ≤ x + 0x80 → x + 0x80 ≤ p.high →
    match p.more with
    | 0 => 0x80 ≤ p.value * 64 + x ∧ (p.value * 64 + x).isValidChar
    | 1 => 2 ≤ p.value * 64 + x ∧
        (p.value * 64 + x < 0x360 ∨ 0x380 ≤ p.value * 64 + x ∧ p.value * 64 + x < 0x4400)
    | 2 => 0x10 ≤ p.value * 64 + x ∧ p.value * 64 + x < 0x110
    | _ => False

theorem sound_of_lead {b : ℕ} {p : Pending} (h : lead b = some p) : p.Sound := by
  unfold lead at h
  split_ifs at h
  all_goals
    cases h
    refine ⟨?_, ?_, fun x hlow hhigh => ?_⟩
    · simp only [Nat.reduceLeDiff]
    · simp only [Nat.reduceLeDiff]
    · simp only [Nat.isValidChar] at hlow hhigh ⊢
      omega

theorem Pending.Sound.next {low high more value x : ℕ}
    (h : Pending.Sound ⟨low, high, more + 1, value⟩) (hlow : low ≤ x + 0x80)
    (hhigh : x + 0x80 ≤ high) : Pending.Sound ⟨0x80, 0xbf, more, value * 64 + x⟩ := by
  have hvalue := h.2.2 x hlow hhigh
  refine ⟨le_refl _, le_refl _, fun y hy hy' => ?_⟩
  simp only at hvalue hy hy' ⊢
  generalize value * 64 + x = v at hvalue
  match more with
  | 0 =>
    simp only [Nat.isValidChar] at hvalue ⊢
    omega
  | 1 =>
    simp only at hvalue ⊢
    omega
  | more + 2 => exact hvalue.elim

theorem exists_ge_of_first {b : UInt8} {bs : List UInt8} (hb : 128 ≤ b.toNat)
    (ih : ∀ p : Pending, p.Sound → ∃ c ∈ scan (some p) bs, 128 ≤ c.toNat) :
    ∃ c ∈ first b fun pending => scan pending bs, 128 ≤ c.toNat := by
  rw [first, if_neg (by omega)]
  cases hlead : lead b.toNat with
  | none => exact ⟨replacement, List.mem_cons_self, by decide⟩
  | some p => exact ih p (sound_of_lead hlead)

/-- What is read within a character is not all below 128. -/
theorem exists_ge_of_pending (bs : List UInt8) :
    ∀ p : Pending, p.Sound → ∃ c ∈ scan (some p) bs, 128 ≤ c.toNat := by
  induction bs with
  | nil => exact fun p _ => ⟨replacement, List.mem_singleton.mpr rfl, by decide⟩
  | cons b bs ih =>
    rintro ⟨low, high, more, value⟩ hsound
    rw [scan]
    split_ifs with hrange
    · obtain ⟨x, hx⟩ : ∃ x, b.toNat = x + 0x80 := by
        have hlow : 0x80 ≤ b.toNat := hsound.1.trans hrange.1
        exact ⟨b.toNat - 0x80, by omega⟩
      rw [hx] at hrange
      rw [hx, Pending.join_add]
      cases more with
      | zero =>
        obtain ⟨hge, hvalid⟩ := hsound.2.2 x hrange.1 hrange.2
        exact ⟨_, List.mem_cons_self, hge.trans (toNat_ofNat_of_isValidChar hvalid).ge⟩
      | succ more => exact ih _ (hsound.next hrange.1 hrange.2)
    · exact ⟨replacement, List.mem_cons_self, by decide⟩

/-- **What is decoded to characters below 128 is these characters.** -/
theorem bytes_of_decode {bs : List UInt8} (h : ∀ c ∈ decode bs, c.toNat < 128) :
    Utf8.bytes (decode bs) = bs := by
  rw [decode] at *
  induction bs with
  | nil => rfl
  | cons b bs ih =>
    rw [scan] at *
    by_cases hb : b.toNat < 128
    · rw [first, if_pos hb] at *
      have hrest := ih fun c hc => h c (List.mem_cons_of_mem _ hc)
      have hc : (Char.ofNat b.toNat).toNat = b.toNat := Ascii.toNat_ofNat_lt hb
      rw [Utf8.bytes_cons, Ascii.utf8EncodeChar_of_lt (hc.symm ▸ hb), hc, UInt8.ofNat_toNat, hrest]
      rfl
    · obtain ⟨c, hc, hge⟩ := exists_ge_of_first (Nat.le_of_not_lt hb) (exists_ge_of_pending bs)
      exact absurd (h c hc) (Nat.not_lt.mpr hge)

end Lossy

import Mathlib.Logic.Basic
import Mathlib.Data.Nat.Notation
import Mathlib.Tactic.SplitIfs
import Mathlib.Tactic.ByContra

/-!
# Texts by their bytes

A text is a sequence of UTF-8 bytes, and a program that scans one usually looks at bytes. A byte
below 128 is a whole character; a character above that range has no byte below 128. So a text
whose bytes are all below 128 is spelled out by them, and changing the case of its letters is
changing them byte by byte.

## Main definitions

* `Ascii.bytes`, `Ascii.fromUtf8` — the bytes of a text, and back where they form one
* `Ascii.lower` — a byte in lower case

## Main results

* `Ascii.fromUtf8_of_isAscii`, `Ascii.bytes_text` — ASCII bytes form a text with these bytes
* `Ascii.bytes_toLower` — lower case, byte by byte
-/

namespace Ascii

/-- The bytes of a text. -/
def bytes (s : String) : List UInt8 := s.toByteArray.data.toList

/-- The text with these bytes, if they are the bytes of one. -/
def fromUtf8 (bs : List UInt8) : Option String := String.fromUTF8? bs.toByteArray

/-- All bytes are whole characters. -/
def IsAscii (bs : List UInt8) : Prop := ∀ b ∈ bs, b.toNat < 128

/-- The text spelled by bytes that are whole characters. -/
def text (bs : List UInt8) : String := String.ofList (bs.map fun b => Char.ofNat b.toNat)

/-- A byte in lower case: letters change, everything else stays. -/
def lower (b : UInt8) : UInt8 :=
  if 'A'.toUInt8 ≤ b ∧ b ≤ 'Z'.toUInt8 then b + ('a'.toUInt8 - 'A'.toUInt8) else b

theorem bytes_injective {s t : String} (h : bytes s = bytes t) : s = t :=
  String.toByteArray_inj.mp (ByteArray.ext (Array.toList_inj.mp h))

theorem length_bytes (s : String) : (bytes s).length = s.utf8ByteSize := rfl

theorem bytes_eq (s : String) : bytes s = s.toList.flatMap String.utf8EncodeChar := by
  rw [bytes, ← String.utf8Encode_toList]
  exact List.toList_data_toByteArray

theorem bytes_ofList (cs : List Char) :
    bytes (String.ofList cs) = cs.flatMap String.utf8EncodeChar := by
  rw [bytes_eq, String.toList_ofList]

/-! ### One character -/

theorem utf8EncodeChar_of_lt {c : Char} (h : c.toNat < 128) :
    String.utf8EncodeChar c = [UInt8.ofNat c.toNat] := by
  have h : c.val.toNat ≤ 127 := Nat.le_of_lt_succ h
  rw [String.utf8EncodeChar, if_pos h]
  rfl

/-- A character outside of the range starts with a byte outside of it. -/
theorem lt_of_utf8EncodeChar {c : Char} (h : IsAscii (String.utf8EncodeChar c)) :
    c.toNat < 128 := by
  by_contra hc
  have hc : ¬c.val.toNat ≤ 127 := fun h' => hc (Nat.lt_succ_of_le h')
  have hhead : ∀ b bs, String.utf8EncodeChar c = b :: bs → b.toNat < 128 := fun b bs hb =>
    h b (hb ▸ List.mem_cons_self)
  rw [String.utf8EncodeChar, if_neg hc] at hhead
  split_ifs at hhead with h2 h3
  all_goals
    have := hhead _ _ rfl
    rw [UInt8.toNat_ofNat'] at this
    omega

theorem toNat_ofNat_lt {n : ℕ} (h : n < 128) : (Char.ofNat n).toNat = n := by
  revert n
  decide

/-! ### Whole texts -/

theorem bytes_text {bs : List UInt8} (h : IsAscii bs) : bytes (text bs) = bs := by
  rw [text, bytes_ofList]
  induction bs with
  | nil => rfl
  | cons b bs ih =>
    have hb : b.toNat < 128 := h b List.mem_cons_self
    have hc : (Char.ofNat b.toNat).toNat = b.toNat := toNat_ofNat_lt hb
    rw [List.map_cons, List.flatMap_cons, utf8EncodeChar_of_lt (hc.symm ▸ hb), hc,
      UInt8.ofNat_toNat, ih fun d hd => h d (List.mem_cons_of_mem _ hd)]
    rfl

theorem text_bytes {s : String} (h : IsAscii (bytes s)) : text (bytes s) = s :=
  bytes_injective (bytes_text h)

theorem fromUtf8_eq_some {bs : List UInt8} {s : String} : fromUtf8 bs = some s ↔ bytes s = bs := by
  rw [fromUtf8, String.fromUTF8?]
  constructor
  · intro h
    split at h
    · cases h
      exact List.toList_data_toByteArray
    · cases h
  · rintro rfl
    have hbytes : (bytes s).toByteArray = s.toByteArray :=
      ByteArray.ext (Array.toList_inj.mp List.toList_data_toByteArray)
    rw [dif_pos (hbytes ▸ s.isValidUTF8)]
    exact congrArg some (String.toByteArray_inj.mp hbytes)

theorem fromUtf8_of_isAscii {bs : List UInt8} (h : IsAscii bs) : fromUtf8 bs = some (text bs) :=
  fromUtf8_eq_some.mpr (bytes_text h)

theorem toNat_lt_of_mem_toList {s : String} (h : IsAscii (bytes s)) {c : Char}
    (hc : c ∈ s.toList) : c.toNat < 128 := by
  refine lt_of_utf8EncodeChar fun b hb => h b ?_
  rw [bytes_eq]
  exact List.mem_flatMap.mpr ⟨c, hc, hb⟩

theorem lower_toNat (b : UInt8) :
    (lower b).toNat = if 65 ≤ b.toNat ∧ b.toNat ≤ 90 then b.toNat + 32 else b.toNat := by
  have h : ∀ n < 256, (lower (UInt8.ofNat n)).toNat
      = if 65 ≤ n ∧ n ≤ 90 then n + 32 else n := by decide +kernel
  simpa using h b.toNat b.toNat_lt

theorem toLower_toNat {c : Char} (hc : c.toNat < 128) :
    c.toLower.toNat = (lower (UInt8.ofNat c.toNat)).toNat := by
  have h : ∀ n < 128, (Char.ofNat n).toLower.toNat = (lower (UInt8.ofNat n)).toNat := by
    decide
  simpa using h c.toNat hc

theorem lower_isAscii {bs : List UInt8} (h : IsAscii bs) : IsAscii (bs.map lower) := by
  intro b hb
  obtain ⟨d, hd, rfl⟩ := List.mem_map.mp hb
  have := h d hd
  rw [lower_toNat]
  split_ifs <;> omega

theorem toLower_bytes {cs : List Char} (h : ∀ c ∈ cs, c.toNat < 128) :
    (cs.map Char.toLower).flatMap String.utf8EncodeChar
      = (cs.flatMap String.utf8EncodeChar).map lower := by
  induction cs with
  | nil => rfl
  | cons c cs ih =>
    have hc : c.toNat < 128 := h c List.mem_cons_self
    have hl : c.toLower.toNat = (lower (UInt8.ofNat c.toNat)).toNat := toLower_toNat hc
    have hlt : c.toLower.toNat < 128 := by
      rw [hl]
      have hascii : IsAscii [UInt8.ofNat c.toNat] := fun b hb => by
        rw [List.mem_singleton.mp hb, UInt8.toNat_ofNat']
        omega
      exact lower_isAscii hascii _ (by simp)
    rw [List.map_cons, List.flatMap_cons, List.flatMap_cons, List.map_append,
      utf8EncodeChar_of_lt hc, utf8EncodeChar_of_lt hlt, hl, UInt8.ofNat_toNat,
      ih fun d hd => h d (List.mem_cons_of_mem _ hd)]
    rfl

/-- Lower case, byte by byte. -/
theorem bytes_toLower {s : String} (h : IsAscii (bytes s)) :
    bytes s.toLower = (bytes s).map lower := by
  have hmap : s.toLower = s.map Char.toLower := rfl
  rw [bytes_eq, bytes_eq, hmap, String.toList_map,
    toLower_bytes fun _ => toNat_lt_of_mem_toList h]

end Ascii

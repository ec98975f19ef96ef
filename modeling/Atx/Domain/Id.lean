import Atx.Domain.Primitives
import Atx.Lib.Ascii
import Atx.Lib.Radix

/-!
# The identifier codec

Identifiers are shown, stored and read as 26 Crockford Base32 characters. The writer peels 5-bit
groups from the low end of a 128-bit value; the reader folds bytes from the high end with checked
arithmetic, in either letter case. Twenty-six digits hold 130 bits, so two bits of the first digit
are always zero in what is written and an overflow in what is read.

Both directions meet in base-32 positional notation: `encode_eq` says that the writer's bytes are
the alphabet's characters at the value's digits, and `decode_eq_ok` says that the reader accepts
exactly the texts whose digits write a 128-bit value, and answers that value.

## Main definitions

* `Atx.Id.encode`, `Atx.Id.decode`, `Atx.Id.display`
* `Atx.JobId.fromStr`, `Atx.RunId.fromStr`

## Main results

* `Atx.Id.decode_eq_ok` — what the reader accepts and answers
* `Atx.Id.identifier_codec` — round trips, canonical form, exact acceptance and order
-/

namespace Atx

namespace Id

open Ascii Radix

/-- The number of bytes in an identifier's text. -/
def encodedLen : ℕ := 26

/-- The one failure of the codec. -/
inductive IdentifierError
  | notCanonical
  deriving DecidableEq

def IdentifierError.message : IdentifierError → String
  | .notCanonical => "identifier must be 26 canonical Crockford Base32 characters"

/-- The character of a digit. -/
def digitByte (digit : BitVec 128) : Option UInt8 :=
  match digit.toNat with
  | 0 => some '0'.toUInt8
  | 1 => some '1'.toUInt8
  | 2 => some '2'.toUInt8
  | 3 => some '3'.toUInt8
  | 4 => some '4'.toUInt8
  | 5 => some '5'.toUInt8
  | 6 => some '6'.toUInt8
  | 7 => some '7'.toUInt8
  | 8 => some '8'.toUInt8
  | 9 => some '9'.toUInt8
  | 10 => some 'a'.toUInt8
  | 11 => some 'b'.toUInt8
  | 12 => some 'c'.toUInt8
  | 13 => some 'd'.toUInt8
  | 14 => some 'e'.toUInt8
  | 15 => some 'f'.toUInt8
  | 16 => some 'g'.toUInt8
  | 17 => some 'h'.toUInt8
  | 18 => some 'j'.toUInt8
  | 19 => some 'k'.toUInt8
  | 20 => some 'm'.toUInt8
  | 21 => some 'n'.toUInt8
  | 22 => some 'p'.toUInt8
  | 23 => some 'q'.toUInt8
  | 24 => some 'r'.toUInt8
  | 25 => some 's'.toUInt8
  | 26 => some 't'.toUInt8
  | 27 => some 'v'.toUInt8
  | 28 => some 'w'.toUInt8
  | 29 => some 'x'.toUInt8
  | 30 => some 'y'.toUInt8
  | 31 => some 'z'.toUInt8
  | _ => none

/-- The writer's loop: positions are filled from the last one to the first. -/
def encodeLoop : ℕ → BitVec 128 → List UInt8 → Except IdentifierError (List UInt8)
  | 0, _, encoded => .ok encoded
  | n + 1, remaining, encoded =>
    match digitByte (remaining &&& 31#128) with
    | some byte => encodeLoop n (remaining >>> 5) (byte :: encoded)
    | none => .error .notCanonical

def encode (value : BitVec 128) : Except IdentifierError (List UInt8) :=
  encodeLoop encodedLen value []

/-- The digit of a character, in either case. -/
def decodeDigit (byte : UInt8) : Except IdentifierError UInt8 :=
  if '0'.toUInt8 ≤ lower byte ∧ lower byte ≤ '9'.toUInt8 then .ok (byte - '0'.toUInt8)
  else match Char.ofNat (lower byte).toNat with
    | 'a' => .ok 10
    | 'b' => .ok 11
    | 'c' => .ok 12
    | 'd' => .ok 13
    | 'e' => .ok 14
    | 'f' => .ok 15
    | 'g' => .ok 16
    | 'h' => .ok 17
    | 'j' => .ok 18
    | 'k' => .ok 19
    | 'm' => .ok 20
    | 'n' => .ok 21
    | 'p' => .ok 22
    | 'q' => .ok 23
    | 'r' => .ok 24
    | 's' => .ok 25
    | 't' => .ok 26
    | 'v' => .ok 27
    | 'w' => .ok 28
    | 'x' => .ok 29
    | 'y' => .ok 30
    | 'z' => .ok 31
    | _ => .error .notCanonical

def checkedMul (a b : BitVec 128) : Option (BitVec 128) :=
  if a.toNat * b.toNat < 2 ^ 128 then some (a * b) else none

def checkedAdd (a b : BitVec 128) : Option (BitVec 128) :=
  if a.toNat + b.toNat < 2 ^ 128 then some (a + b) else none

/-- One byte of the reader's fold. -/
def decodeByte (decoded : BitVec 128) (byte : UInt8) : Except IdentifierError (BitVec 128) :=
  match decodeDigit byte with
  | .error e => .error e
  | .ok digit =>
    match (checkedMul decoded 32#128).bind fun current =>
      checkedAdd current (BitVec.ofNat 128 digit.toNat) with
    | some current => .ok current
    | none => .error .notCanonical

def decode (value : String) : Except IdentifierError (BitVec 128) :=
  if value.utf8ByteSize ≠ encodedLen then .error .notCanonical
  else (bytes value).foldlM decodeByte 0#128

/-- The text an identifier is shown as. -/
def display (value : BitVec 128) : Option String :=
  match encode value with
  | .ok encoded => fromUtf8 encoded
  | .error _ => none

/-! ### The alphabet -/

/-- The characters in use, each at the place of its digit. -/
def alphabet : List UInt8 :=
  ['0', '1', '2', '3', '4', '5', '6', '7', '8', '9', 'a', 'b', 'c', 'd', 'e', 'f', 'g', 'h', 'j',
    'k', 'm', 'n', 'p', 'q', 'r', 's', 't', 'v', 'w', 'x', 'y', 'z'].map Char.toUInt8

/-- The character of a digit below 32. -/
def symbol (digit : ℕ) : UInt8 := alphabet.getD digit 0

/-- The digit of a character, whatever its case. -/
def digitValue (byte : UInt8) : ℕ := alphabet.idxOf (lower byte)

/-- Characters of the alphabet, in either case. -/
def InAlphabet (bs : List UInt8) : Prop := ∀ b ∈ bs, lower b ∈ alphabet

theorem digitByte_eq {digit : BitVec 128} (h : digit.toNat < 32) :
    digitByte digit = some (symbol digit.toNat) := by
  have hall : ∀ n < 32, digitByte (BitVec.ofNat 128 n) = some (symbol n) := by decide
  have := hall digit.toNat h
  rwa [BitVec.ofNat_toNat, BitVec.setWidth_eq] at this

theorem lower_symbol {d : ℕ} (h : d < 32) : lower (symbol d) = symbol d := by
  revert d
  decide

theorem lower_symbol_mem {d : ℕ} (h : d < 32) : lower (symbol d) ∈ alphabet := by
  revert d
  decide

theorem digitValue_symbol {d : ℕ} (h : d < 32) : digitValue (symbol d) = d := by
  revert d
  decide

theorem symbol_toNat_lt {d : ℕ} (h : d < 32) : (symbol d).toNat < 128 := by
  revert d
  decide

theorem symbol_lt_symbol {d e : ℕ} (hd : d < 32) (he : e < 32) : symbol d < symbol e ↔ d < e := by
  have hall : ∀ d < 32, ∀ e < 32, (symbol d < symbol e ↔ d < e) := by decide
  exact hall d hd e he

theorem digitValue_lt {b : UInt8} (h : lower b ∈ alphabet) : digitValue b < 32 :=
  List.idxOf_lt_length_of_mem h

theorem symbol_digitValue {b : UInt8} (h : lower b ∈ alphabet) :
    symbol (digitValue b) = lower b := by
  rw [symbol, List.getD_eq_getElem?_getD, List.getElem?_eq_getElem (digitValue_lt h)]
  exact List.getElem_idxOf _

theorem decodeDigit_eq (byte : UInt8) :
    decodeDigit byte = if lower byte ∈ alphabet then .ok (UInt8.ofNat (digitValue byte))
      else .error .notCanonical := by
  have hall : ∀ n < 256, decodeDigit (UInt8.ofNat n)
      = if lower (UInt8.ofNat n) ∈ alphabet then .ok (UInt8.ofNat (digitValue (UInt8.ofNat n)))
        else .error .notCanonical := by decide +kernel
  simpa using hall byte.toNat byte.toNat_lt

/-! ### The writer -/

theorem encodeLoop_eq (n : ℕ) (remaining : BitVec 128) (encoded : List UInt8) :
    encodeLoop n remaining encoded
      = .ok ((digits 32 n remaining.toNat).map symbol ++ encoded) := by
  induction n generalizing remaining encoded with
  | zero => rfl
  | succ n ih =>
    have hand : (remaining &&& 31#128).toNat = remaining.toNat % 32 := by
      rw [BitVec.toNat_and]
      exact Nat.and_two_pow_sub_one_eq_mod remaining.toNat 5
    have hshift : (remaining >>> 5).toNat = remaining.toNat / 32 := by
      rw [BitVec.toNat_ushiftRight]
      exact Nat.shiftRight_eq_div_pow remaining.toNat 5
    rw [encodeLoop, digitByte_eq (hand ▸ Nat.mod_lt _ (by decide))]
    show encodeLoop n (remaining >>> 5) _ = _
    rw [ih, hand, hshift, digits, List.map_append, List.append_assoc]
    rfl

/-- The writer never fails, and writes the value's digits in base 32. -/
theorem encode_eq (value : BitVec 128) :
    encode value = .ok ((digits 32 encodedLen value.toNat).map symbol) := by
  rw [encode, encodeLoop_eq, List.append_nil]

theorem digits_isAscii (n v : ℕ) : IsAscii ((digits 32 n v).map symbol) := fun b hb => by
  obtain ⟨d, hd, rfl⟩ := List.mem_map.mp hb
  exact symbol_toNat_lt (lt_of_mem_digits (by decide) hd)

theorem display_eq (value : BitVec 128) :
    display value = some (text ((digits 32 encodedLen value.toNat).map symbol)) := by
  rw [display, encode_eq]
  exact fromUtf8_of_isAscii (digits_isAscii _ _)

/-! ### The reader -/

theorem decodeByte_eq_ok {decoded v : BitVec 128} {byte : UInt8} :
    decodeByte decoded byte = .ok v
      ↔ lower byte ∈ alphabet ∧ decoded.toNat * 32 + digitValue byte = v.toNat := by
  rw [decodeByte, decodeDigit_eq]
  by_cases hb : lower byte ∈ alphabet
  · have hd : digitValue byte < 32 := digitValue_lt hb
    have hv : v.toNat < 2 ^ 128 := v.isLt
    have hdigit : (BitVec.ofNat 128 (UInt8.ofNat (digitValue byte)).toNat).toNat
        = digitValue byte := by
      rw [BitVec.toNat_ofNat, UInt8.toNat_ofNat']
      omega
    rw [if_pos hb, and_iff_right hb]
    dsimp only
    by_cases hmul : decoded.toNat * 32 < 2 ^ 128
    · have hcur : (decoded * 32#128).toNat = decoded.toNat * 32 := by
        rw [BitVec.toNat_mul]
        exact Nat.mod_eq_of_lt hmul
      rw [show checkedMul decoded 32#128 = some (decoded * 32#128) from if_pos hmul,
        Option.bind_some, checkedAdd, hcur, hdigit]
      by_cases hadd : decoded.toNat * 32 + digitValue byte < 2 ^ 128
      · rw [if_pos hadd, Except.ok.injEq, ← BitVec.toNat_inj, BitVec.toNat_add, hcur, hdigit,
          Nat.mod_eq_of_lt hadd]
      · rw [if_neg hadd]
        exact iff_of_false (fun h => nomatch h) (by omega)
    · rw [show checkedMul decoded 32#128 = none from if_neg hmul]
      exact iff_of_false (fun h => nomatch h) (by omega)
  · rw [if_neg hb]
    exact iff_of_false (fun h => nomatch h) fun h => hb h.1

/-- The fold succeeds on characters of the alphabet that write a 128-bit value. -/
theorem foldlM_decodeByte_eq_ok {bs : List UInt8} {v : BitVec 128} :
    bs.foldlM decodeByte 0#128 = .ok v
      ↔ InAlphabet bs ∧ checkedOfDigits 32 (2 ^ 128) (bs.map digitValue) = some v.toNat := by
  induction bs using List.reverseRecOn generalizing v with
  | nil =>
    have hnil : InAlphabet [] := fun b hb => nomatch hb
    rw [show List.foldlM decodeByte 0#128 [] = Except.ok 0#128 from rfl, Except.ok.injEq,
      ← BitVec.toNat_inj, and_iff_right hnil]
    exact (Option.some_inj (a := (0#128).toNat)).symm
  | append_singleton bs byte ih =>
    have hv : v.toNat < 2 ^ 128 := v.isLt
    have hall : InAlphabet (bs ++ [byte]) ↔ InAlphabet bs ∧ lower byte ∈ alphabet := by
      simp [InAlphabet, or_imp, forall_and]
    rw [List.foldlM_append, Outcome.bind_eq_ok, hall, List.map_append, List.map_singleton,
      checkedOfDigits_concat]
    constructor
    · rintro ⟨decoded, hfold, hbyte⟩
      obtain ⟨hbs, hread⟩ := ih.mp hfold
      obtain ⟨hmem, hval⟩ := decodeByte_eq_ok.mp (by simpa using hbyte)
      exact ⟨⟨hbs, hmem⟩, decoded.toNat, hread, hval, hv⟩
    · rintro ⟨⟨hbs, hmem⟩, decoded, hread, hval, -⟩
      have hdec : (BitVec.ofNat 128 decoded).toNat = decoded := by
        rw [BitVec.toNat_ofNat]
        omega
      refine ⟨BitVec.ofNat 128 decoded, ih.mpr ⟨hbs, hdec.symm ▸ hread⟩, ?_⟩
      simp [decodeByte_eq_ok.mpr ⟨hmem, hdec.symm ▸ hval⟩]

/-- **What the reader accepts**, and what it answers. -/
theorem decode_eq_ok {s : String} {v : BitVec 128} :
    decode s = .ok v ↔ s.utf8ByteSize = encodedLen ∧ InAlphabet (bytes s)
      ∧ ofDigits 32 ((bytes s).map digitValue) = v.toNat := by
  have hv : v.toNat < 2 ^ 128 := v.isLt
  rw [decode]
  by_cases hlen : s.utf8ByteSize = encodedLen
  · rw [if_neg (not_not.mpr hlen), foldlM_decodeByte_eq_ok, and_iff_right hlen,
      checkedOfDigits_eq (by decide) (by decide)]
    refine and_congr_right fun _ => ?_
    split_ifs with hlt
    · exact Option.some_inj
    · exact iff_of_false (fun h => nomatch h) fun h => hlt (h ▸ hv)
  · rw [if_pos hlen]
    exact iff_of_false (fun h => nomatch h) fun h => hlen h.1

/-! ### Both directions -/

/-- The number a text writes, whether or not it fits an identifier. -/
def value (s : String) : ℕ := ofDigits 32 ((bytes s).map digitValue)

theorem inAlphabet_symbol (n v : ℕ) : InAlphabet ((digits 32 n v).map symbol) := fun b hb => by
  obtain ⟨d, hd, rfl⟩ := List.mem_map.mp hb
  exact lower_symbol_mem (lt_of_mem_digits (by decide) hd)

theorem map_digitValue_symbol {ds : List ℕ} (h : ∀ d ∈ ds, d < 32) :
    (ds.map symbol).map digitValue = ds := by
  rw [List.map_map]
  exact (List.map_congr_left fun d hd => digitValue_symbol (h d hd)).trans ds.map_id

/-- What is written is read back. -/
theorem decode_text_digits (v : BitVec 128) :
    decode (text ((digits 32 encodedLen v.toNat).map symbol)) = .ok v := by
  have hv : v.toNat < 32 ^ encodedLen := lt_of_lt_of_le v.isLt (by decide)
  have hbytes := bytes_text (digits_isAscii encodedLen v.toNat)
  refine decode_eq_ok.mpr ⟨?_, ?_, ?_⟩
  · rw [← length_bytes, hbytes, List.length_map, length_digits]
  · rw [hbytes]
    exact inAlphabet_symbol _ _
  · rw [hbytes, map_digitValue_symbol fun d => lt_of_mem_digits (by decide), ofDigits_digits,
      Nat.mod_eq_of_lt hv]

theorem isAscii_of_inAlphabet {bs : List UInt8} (h : InAlphabet bs) : IsAscii bs := fun b hb => by
  have hall : ∀ n < 256, lower (UInt8.ofNat n) ∈ alphabet → n < 128 := by decide +kernel
  exact hall b.toNat b.toNat_lt (by simpa using h b hb)

/-- An accepted text is, in lower case, what its value is written as. -/
theorem display_of_decode {s : String} {v : BitVec 128} (h : decode s = .ok v) :
    display v = some s.toLower := by
  obtain ⟨hlen, hmem, hval⟩ := decode_eq_ok.mp h
  have hascii : IsAscii (bytes s) := isAscii_of_inAlphabet hmem
  have hlt : ∀ d ∈ (bytes s).map digitValue, d < 32 := fun d hd => by
    obtain ⟨b, hb, rfl⟩ := List.mem_map.mp hd
    exact digitValue_lt (hmem b hb)
  have hlen : ((bytes s).map digitValue).length = encodedLen := by
    rw [List.length_map, length_bytes, hlen]
  have hbytes : (digits 32 encodedLen v.toNat).map symbol = bytes s.toLower := by
    rw [bytes_toLower hascii, ← hval, ← hlen, digits_ofDigits hlt, List.map_map]
    exact List.map_congr_left fun b hb => symbol_digitValue (hmem b hb)
  rw [display_eq, hbytes, text_bytes (bytes_toLower hascii ▸ lower_isAscii hascii)]

theorem encode_lt_encode_iff (a b : BitVec 128) :
    (digits 32 encodedLen a.toNat).map symbol < (digits 32 encodedLen b.toNat).map symbol
      ↔ a < b := by
  have hlt : ∀ {v : BitVec 128}, ∀ d ∈ digits 32 encodedLen v.toNat, d < 32 := fun d =>
    lt_of_mem_digits (by decide)
  have hval : ∀ v : BitVec 128, ofDigits 32 (digits 32 encodedLen v.toNat) = v.toNat := fun v => by
    rw [ofDigits_digits, Nat.mod_eq_of_lt (lt_of_lt_of_le v.isLt (by decide))]
  have hinj : ∀ d < 32, ∀ e < 32, symbol d = symbol e → d = e := fun d hd e he h => by
    rw [← digitValue_symbol hd, h, digitValue_symbol he]
  rw [map_lt_map_iff (fun d hd e he => symbol_lt_symbol hd he) hinj hlt hlt,
    ← ofDigits_lt_iff hlt hlt (by rw [length_digits, length_digits]), hval, hval, BitVec.lt_def]

/-- **The identifier codec.** Every value is written and read back; an accepted text in lower
case is what its value is written as; exactly the 26-byte texts over the alphabet whose value
fits 128 bits are accepted; and texts compare byte by byte as their values do. -/
theorem identifier_codec :
    (∀ v, ∃ s, display v = some s ∧ decode s = .ok v)
      ∧ (∀ s v, decode s = .ok v → display v = some s.toLower)
      ∧ (∀ s, (∃ v, decode s = .ok v)
          ↔ s.utf8ByteSize = 26 ∧ (∀ b ∈ bytes s, lower b ∈ alphabet) ∧ value s < 2 ^ 128)
      ∧ ∀ a b, ∃ x y, encode a = .ok x ∧ encode b = .ok y ∧ (x < y ↔ a < b) := by
  refine ⟨fun v => ⟨_, display_eq v, decode_text_digits v⟩, fun _ _ => display_of_decode,
    fun s => ⟨?_, ?_⟩, fun a b => ⟨_, _, encode_eq a, encode_eq b, encode_lt_encode_iff a b⟩⟩
  · rintro ⟨v, hv⟩
    obtain ⟨hlen, hmem, hval⟩ := decode_eq_ok.mp hv
    exact ⟨hlen, hmem, lt_of_eq_of_lt hval v.isLt⟩
  · rintro ⟨hlen, hmem, hlt⟩
    refine ⟨BitVec.ofNat 128 (value s), decode_eq_ok.mpr ⟨hlen, hmem, ?_⟩⟩
    rw [BitVec.toNat_ofNat, Nat.mod_eq_of_lt hlt]
    rfl

example : display 0#128 = some "00000000000000000000000000" := by decide

example : decode "8zzzzzzzzzzzzzzzzzzzzzzzzz" = .error .notCanonical := by decide

end Id

/-! ### Identifiers as texts -/

theorem digitByte_eq_symbol (d : Fin 32) : digitByte d = Char.ofNat (Id.symbol d).toNat := by
  revert d
  decide

/-- The text kept in the store is the one the codec writes. -/
theorem Id.display_eq_encode (v : BitVec 128) : Id.display v = some (Atx.encode v) := by
  rw [Id.display_eq, Atx.encode, Ascii.text, Radix.digits_eq_map, List.map_map, List.map_map]
  refine congrArg (some ∘ String.ofList) (List.map_congr_left fun i _ => ?_)
  exact (digitByte_eq_symbol ⟨v.toNat / 32 ^ i % 32, Nat.mod_lt _ (by decide)⟩).symm

def JobId.fromStr (value : String) : Except Id.IdentifierError JobId :=
  (Id.decode value).map JobId.mk

def RunId.fromStr (value : String) : Except Id.IdentifierError RunId :=
  (Id.decode value).map RunId.mk

theorem Id.decode_encode (v : BitVec 128) : Id.decode (Atx.encode v) = .ok v := by
  have h := Option.some.inj ((Id.display_eq_encode v).symm.trans (Id.display_eq v))
  exact h.symm ▸ Id.decode_text_digits v

@[simp] theorem JobId.fromStr_text (id : JobId) : JobId.fromStr id.text = .ok id := by
  rw [JobId.fromStr, JobId.text, Id.decode_encode]
  rfl

@[simp] theorem RunId.fromStr_text (id : RunId) : RunId.fromStr id.text = .ok id := by
  rw [RunId.fromStr, RunId.text, Id.decode_encode]
  rfl

end Atx

import Atx.Lib.Radix

/-!
# Byte streams

Blocking readers and writers as state transformers: an operation answers and leaves the stream in a
new state, also when it fails. Reading an exact count from bytes in memory takes them off the front;
where there are too few it fails, and what there was is gone. Writing to a buffer appends.

Machine integers travel as a fixed count of bytes, most significant byte first.

## Main definitions

* `Stream.Reader`, `Stream.Writer` — what a codec needs of a stream
* `Stream.slice`, `Stream.vec` — bytes in memory as either
* `Stream.toBeBytes`, `Stream.fromBeBytes`

## Main results

* `Stream.fromBeBytes_toBeBytes`
* `Stream.slice_append`, `Stream.slice_short` — reading from bytes in memory
-/

namespace Stream

inductive IoError
  | unexpectedEof
  | other (message : String)
  deriving DecidableEq

def IoError.message : IoError → String
  | .unexpectedEof => "failed to fill whole buffer"
  | .other message => message

/-- A source of bytes in a state. -/
structure Reader (ρ : Type) where
  readExact : ℕ → ρ → Except IoError (List UInt8) × ρ

/-- A sink of bytes in a state. -/
structure Writer (ω : Type) where
  writeAll : List UInt8 → ω → Except IoError Unit × ω
  flush : ω → Except IoError Unit × ω

/-- Bytes in memory as a source. -/
def slice : Reader (List UInt8) where
  readExact n bytes :=
    if n ≤ bytes.length then (.ok (bytes.take n), bytes.drop n) else (.error .unexpectedEof, [])

/-- A growing buffer as a sink. -/
def vec : Writer (List UInt8) where
  writeAll bytes written := (.ok (), written ++ bytes)
  flush written := (.ok (), written)

theorem slice_of_le {n : ℕ} {bytes : List UInt8} (h : n ≤ bytes.length) :
    slice.readExact n bytes = (.ok (bytes.take n), bytes.drop n) :=
  if_pos h

theorem slice_short {n : ℕ} {bytes : List UInt8} (h : bytes.length < n) :
    slice.readExact n bytes = (.error .unexpectedEof, []) :=
  if_neg h.not_ge

theorem slice_append (bytes rest : List UInt8) :
    slice.readExact bytes.length (bytes ++ rest) = (.ok bytes, rest) := by
  rw [slice_of_le (by simp), List.take_left, List.drop_left]

/-! ### Integers as bytes -/

/-- The low `width` bytes of a number, most significant byte first. -/
def toBeBytes (width n : ℕ) : List UInt8 := (Radix.digits 256 width n).map UInt8.ofNat

/-- The number that bytes write, most significant byte first. -/
def fromBeBytes (bytes : List UInt8) : ℕ := Radix.ofDigits 256 (bytes.map UInt8.toNat)

@[simp] theorem length_toBeBytes (width n : ℕ) : (toBeBytes width n).length = width := by
  simp [toBeBytes]

theorem fromBeBytes_toBeBytes {width n : ℕ} (h : n < 256 ^ width) :
    fromBeBytes (toBeBytes width n) = n := by
  have hmap : ((Radix.digits 256 width n).map UInt8.ofNat).map UInt8.toNat
      = Radix.digits 256 width n := by
    rw [List.map_map]
    refine (List.map_congr_left fun d hd => ?_).trans (List.map_id _)
    have hd : d < 256 := Radix.lt_of_mem_digits (by decide) hd
    rw [Function.comp_apply, UInt8.toNat_ofNat', Nat.mod_eq_of_lt hd]
    rfl
  rw [fromBeBytes, toBeBytes, hmap, Radix.ofDigits_digits, Nat.mod_eq_of_lt h]

end Stream

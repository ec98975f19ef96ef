import Atx.Domain.StoredText
import Atx.Lib.Decimal

/-!
# Reading timestamps

A reader of the texts that timestamps are stored as. Readers of other origin accept more texts; this
one accepts dates and times in UTC with a fixed count of digits, and a fraction of up to nine.

## Main definitions

* `Atx.UtcTimestamp.ofText`

## Main results

* `Atx.UtcTimestamp.ofText_text` — what is written is read back
-/

namespace Atx

open Gregorian Lex

namespace UtcTimestamp

/-- A number of a fixed count of digits, and what follows it. -/
def readDigits (width : ℕ) (cs : List Char) : Option (ℕ × List Char) :=
  if (cs.take width).length = width ∧ (cs.take width).all Char.isDigit then
    some (Nat.ofDigitChars 10 (cs.take width) 0, cs.drop width)
  else none

/-- Two digits behind a separator. -/
def readPart (separator : Char) (cs : List Char) : Option (ℕ × List Char) :=
  if cs.head? = some separator then readDigits 2 cs.tail else none

/-- A year, with six digits behind a sign and with four otherwise. -/
def readYear (cs : List Char) : Option (ℤ × List Char) :=
  if cs.head? = some '-' then (readDigits 6 cs.tail).map fun year => (-(year.1 : ℤ), year.2)
  else (readDigits 4 cs).map fun year => ((year.1 : ℤ), year.2)

/-- The nanoseconds of a fraction, at the end of a text. -/
def readFraction (cs : List Char) : Option ℕ :=
  if cs = ['Z'] then some 0
  else
    let digits := cs.tail.takeWhile Char.isDigit
    if cs.head? = some '.' ∧ digits ≠ [] ∧ digits.length ≤ 9 ∧
        cs.tail.dropWhile Char.isDigit = ['Z'] then
      some (Nat.ofDigitChars 10 (digits ++ List.replicate (9 - digits.length) '0') 0)
    else none

/-- The instant of a text. -/
def ofText (s : String) : Option UtcTimestamp := do
  let (year, cs) ← readYear s.toList
  let (month, cs) ← readPart '-' cs
  let (day, cs) ← readPart '-' cs
  let (hour, cs) ← readPart 'T' cs
  let (minute, cs) ← readPart ':' cs
  let (second, cs) ← readPart ':' cs
  let fraction ← readFraction cs
  if IsDate year month day ∧ hour < 24 ∧ minute < 60 ∧ second < 60 then
    let seconds := daysFromCivil year month day * 86400 + (hour * 3600 + minute * 60 + second : ℕ)
    ofNanosecond (seconds * 1000000000 + fraction)
  else none

/-! ### Numbers are read back -/

theorem ofDigitChars_decimal (width n : ℕ) : Nat.ofDigitChars 10 (decimal width n) 0 = n := by
  rw [decimal, Nat.ofDigitChars_append, Nat.ofDigitChars_replicate_zero, Nat.mul_zero,
    Nat.ofDigitChars_ten_toDigits]

theorem all_isDigit_decimal (width n : ℕ) : (decimal width n).all Char.isDigit = true := by
  rw [decimal, List.all_append, Decimal.all_isDigit_toDigits, Bool.and_true, List.all_eq_true]
  intro c hc
  rw [List.eq_of_mem_replicate hc]
  rfl

variable {width n : ℕ}

theorem readDigits_decimal (hwidth : 0 < width) (hn : n < 10 ^ width) (rest : List Char) :
    readDigits width (decimal width n ++ rest) = some (n, rest) := by
  have hlength := length_decimal hwidth n hn
  have htake : (decimal width n ++ rest).take width = decimal width n := List.take_left' hlength
  have hdrop : (decimal width n ++ rest).drop width = rest := List.drop_left' hlength
  rw [readDigits, htake, hdrop, if_pos ⟨hlength, all_isDigit_decimal width n⟩, ofDigitChars_decimal]

theorem readPart_decimal (separator : Char) (hn : n < 10 ^ 2) (rest : List Char) :
    readPart separator (separator :: decimal 2 n ++ rest) = some (n, rest) := by
  rw [readPart, List.cons_append, List.head?_cons, List.tail_cons, if_pos rfl,
    readDigits_decimal (by decide) hn]

theorem readYear_years (t : UtcTimestamp) (rest : List Char) :
    readYear (t.years ++ rest) = some (t.year, rest) := by
  obtain ⟨hlow, hhigh⟩ := t.year_bounds
  by_cases hneg : t.year < 0
  · rw [years, if_pos hneg, readYear, List.cons_append, List.head?_cons, List.tail_cons, if_pos rfl,
      readDigits_decimal (by decide) (by omega), Option.map_some, Option.some.injEq, Prod.mk.injEq]
    exact ⟨by dsimp only; omega, rfl⟩
  · have hhead : (decimal 4 t.year.natAbs ++ rest).head? ≠ some '-' := by
      have hlength := length_decimal (by decide : 0 < 4) t.year.natAbs (by omega)
      have hall := List.all_eq_true.mp (all_isDigit_decimal 4 t.year.natAbs)
      rcases hdigits : decimal 4 t.year.natAbs with - | ⟨d, ds⟩
      · rw [hdigits] at hlength
        exact absurd hlength (by decide)
      · rw [List.cons_append, List.head?_cons]
        intro hminus
        have hd := hall d (hdigits ▸ List.mem_cons_self)
        rw [Option.some.inj hminus] at hd
        exact absurd hd (by decide)
    rw [years, if_neg hneg, readYear, if_neg hhead, readDigits_decimal (by decide) (by omega),
      Option.map_some, Option.some.injEq, Prod.mk.injEq]
    exact ⟨by dsimp only; omega, rfl⟩

/-- A fraction is read back, with the zeros it was written without. -/
theorem readFraction_tail (t : UtcTimestamp) : readFraction t.tail = some t.subsec := by
  rcases Nat.eq_zero_or_pos t.subsec with hzero | hpos
  · have htail : t.tail = ['Z'] := by
      rw [tail, if_pos (by unfold subsec at hzero; exact hzero)]
      rfl
    rw [readFraction, if_pos htail, hzero]
  · obtain ⟨k, hk⟩ := t.exists_fraction
    have hlength := length_decimal (by decide : 0 < 9) _ t.subsec_lt
    rw [hk, List.length_append, List.length_replicate] at hlength
    have hall : ∀ c ∈ t.fraction, c.isDigit = true := by
      intro c hc
      have hdigit := List.all_eq_true.mp (all_isDigit_decimal 9 t.subsec)
      exact hdigit c (hk ▸ List.mem_append_left _ hc)
    have htake : (t.fraction ++ ['Z']).takeWhile Char.isDigit = t.fraction := by
      rw [List.takeWhile_append_of_pos hall]
      simp
    have hdrop : (t.fraction ++ ['Z']).dropWhile Char.isDigit = ['Z'] := by
      rw [List.dropWhile_append_of_pos hall]
      rfl
    have hne : t.fraction ≠ [] := by
      intro hnil
      have hvalue := ofDigitChars_decimal 9 t.subsec
      rw [hk, hnil, List.nil_append, Nat.ofDigitChars_replicate_zero, Nat.mul_zero] at hvalue
      omega
    have hzeros : 9 - t.fraction.length = k := by omega
    rw [tail_of_pos hpos, readFraction, if_neg (by simp)]
    simp only [List.tail_cons, htake, hdrop, hzeros, ← hk, ofDigitChars_decimal, List.head?_cons]
    rw [if_pos ⟨trivial, hne, by omega, trivial⟩]

/-- The seconds and the fraction of an instant are the instant. -/
theorem nanos_eq (t : UtcTimestamp) (days : ℤ) (hdays : days = t.wholeSeconds / 86400)
    (clock : ℕ) (hclock : clock = (t.wholeSeconds % 86400).toNat) :
    (days * 86400 + (clock / 3600 * 3600 + clock / 60 % 60 * 60 + clock % 60 : ℕ)) * 1000000000
      + (t.subsec : ℤ) = t.nanos := by
  subst hdays hclock
  unfold subsec wholeSeconds
  omega

/-- **What is written is read back.** -/
theorem ofText_text (t : UtcTimestamp) : ofText t.text = some t := by
  have hclock := t.clock_lt
  simp only [clock, List.mem_cons, List.not_mem_nil, or_false, forall_eq_or_imp, forall_eq]
    at hclock
  obtain ⟨hmonth, hday, hhour, hminute, hsecond⟩ := hclock
  have hspell : spell (decimal 2) (['-', '-', 'T', ':', ':'].zip t.clock) ++ t.tail =
      '-' :: decimal 2 (civilFromDays (t.wholeSeconds / 86400)).2.1 ++
        ('-' :: decimal 2 (civilFromDays (t.wholeSeconds / 86400)).2.2 ++
          ('T' :: decimal 2 ((t.wholeSeconds % 86400).toNat / 3600) ++
            (':' :: decimal 2 ((t.wholeSeconds % 86400).toNat / 60 % 60) ++
              (':' :: decimal 2 ((t.wholeSeconds % 86400).toNat % 60) ++ t.tail)))) := by
    simp [spell, clock]
  have hvalid : IsDate t.year (civilFromDays (t.wholeSeconds / 86400)).2.1
      (civilFromDays (t.wholeSeconds / 86400)).2.2 ∧ (t.wholeSeconds % 86400).toNat / 3600 < 24 ∧
      (t.wholeSeconds % 86400).toNat / 60 % 60 < 60 ∧ (t.wholeSeconds % 86400).toNat % 60 < 60 :=
    ⟨isDate_civilFromDays _, by omega, by omega, by omega⟩
  have hdays : daysFromCivil t.year (civilFromDays (t.wholeSeconds / 86400)).2.1
      (civilFromDays (t.wholeSeconds / 86400)).2.2 = t.wholeSeconds / 86400 :=
    daysFromCivil_civilFromDays _
  rw [ofText, toList_text, hspell, readYear_years]
  simp only [Option.bind_eq_bind, Option.bind_some, readPart_decimal _ hmonth,
    readPart_decimal _ hday, readPart_decimal _ hhour, readPart_decimal _ hminute,
    readPart_decimal _ hsecond, readFraction_tail, if_pos hvalid, nanos_eq t _ hdays _ rfl]
  exact ofNanosecond_nanos t

end UtcTimestamp

end Atx

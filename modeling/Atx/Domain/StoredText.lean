import Atx.Domain.Primitives
import Atx.Lib.Lex
import Atx.Lib.Utf8
import Mathlib.Data.Char

/-!
# The order of stored timestamps

The database compares timestamps by their texts. A text has the date and the time with a fixed count
of digits, so that the texts of different seconds are in the order of the seconds, but for years
before zero, whose sign and digits put the later year first. Within a second the text has only the
fractional digits it needs and then a letter, which is after the digits and the point: where the
digits of one are the start of the digits of the other, the longer text is the smaller.

## Main definitions

* `Atx.UtcTimestamp.Ordered` — the pairs of instants that have their texts in their order

## Main results

* `Atx.UtcTimestamp.textBefore_iff` — the texts of exactly these are compared as the instants are
* `Atx.UtcTimestamp.bytes_lt_iff` — comparing texts is comparing their bytes
-/

namespace Atx

open Gregorian Lex

/-! ### Numbers of a fixed count of digits -/

theorem digitChar_lt_iff : ∀ d < 10, ∀ e < 10, Nat.digitChar d < Nat.digitChar e ↔ d < e := by
  decide

theorem digitChar_inj : ∀ d < 10, ∀ e < 10, Nat.digitChar d = Nat.digitChar e → d = e := by
  decide

theorem decimal_eq {width n : ℕ} (hwidth : 0 < width) (h : n < 10 ^ width) :
    decimal width n = (Radix.digits 10 width n).map Nat.digitChar := by
  obtain ⟨w, rfl⟩ : ∃ w, width = w + 1 := ⟨width - 1, by omega⟩
  induction w generalizing n with
  | zero =>
    have hn : n < 10 := by simpa using h
    simp [decimal, Nat.toDigits_of_lt_base hn, Radix.digits, Nat.mod_eq_of_lt hn]
  | succ w ih =>
    have hdiv : n / 10 < 10 ^ (w + 1) := by
      rw [Nat.div_lt_iff_lt_mul (by decide), ← Nat.pow_succ]
      exact h
    have hstep : decimal (w + 1 + 1) n = decimal (w + 1) (n / 10) ++ [Nat.digitChar (n % 10)] := by
      unfold decimal
      dsimp only
      by_cases hn : n < 10
      · rw [Nat.toDigits_of_lt_base hn, Nat.div_eq_of_lt hn, Nat.mod_eq_of_lt hn, Nat.toDigits_zero]
        simp [List.replicate_succ']
      · rw [Nat.toDigits_of_base_le (by decide) (not_lt.mp hn), List.length_append,
          List.length_singleton, List.append_assoc, Nat.add_sub_add_right]
    have hdigits : Radix.digits 10 (w + 1 + 1) n = Radix.digits 10 (w + 1) (n / 10) ++ [n % 10] :=
      rfl
    rw [hstep, ih (Nat.succ_pos w) hdiv, hdigits, List.map_append, List.map_singleton]

section

variable {width : ℕ} (hwidth : 0 < width)

include hwidth

theorem length_decimal : ∀ n < 10 ^ width, (decimal width n).length = width := by
  intro n hn
  rw [decimal_eq hwidth hn, List.length_map, Radix.length_digits]

theorem decimal_lt_iff : ∀ n < 10 ^ width, ∀ m < 10 ^ width,
    decimal width n < decimal width m ↔ n < m := by
  intro n hn m hm
  have hdigits : ∀ v, ∀ d ∈ Radix.digits 10 width v, d < 10 := fun v d hd =>
    Radix.lt_of_mem_digits (by decide) hd
  rw [decimal_eq hwidth hn, decimal_eq hwidth hm,
    Radix.map_lt_map_iff digitChar_lt_iff digitChar_inj (hdigits n) (hdigits m),
    ← Radix.ofDigits_lt_iff (hdigits n) (hdigits m) (by simp), Radix.ofDigits_digits,
    Radix.ofDigits_digits, Nat.mod_eq_of_lt hn, Nat.mod_eq_of_lt hm]

theorem decimal_inj : ∀ n < 10 ^ width, ∀ m < 10 ^ width,
    decimal width n = decimal width m → n = m := by
  intro n hn m hm h
  obtain hlt | heq | hgt := lt_trichotomy n m
  · exact absurd ((decimal_lt_iff hwidth n hn m hm).mpr hlt) (h ▸ lt_irrefl _)
  · exact heq
  · exact absurd ((decimal_lt_iff hwidth m hm n hn).mpr hgt) (h ▸ lt_irrefl _)

end

theorem mem_decimal {width n : ℕ} (hwidth : 0 < width) (h : n < 10 ^ width) {c : Char}
    (hc : c ∈ decimal width n) : '0' ≤ c ∧ c ≤ '9' := by
  rw [decimal_eq hwidth h] at hc
  obtain ⟨d, hd, rfl⟩ := List.mem_map.mp hc
  have hall : ∀ d < 10, '0' ≤ Nat.digitChar d ∧ Nat.digitChar d ≤ '9' := by decide
  exact hall d (Radix.lt_of_mem_digits (by decide) hd)

/-! ### The parts of a text -/

namespace UtcTimestamp

/-- The whole seconds of an instant. -/
def wholeSeconds (t : UtcTimestamp) : ℤ := t.nanos / 1000000000

/-- The year of an instant. -/
def year (t : UtcTimestamp) : ℤ := (civilFromDays (t.wholeSeconds / 86400)).1

/-- Month, day, hour, minute and second of an instant. -/
def clock (t : UtcTimestamp) : List ℕ :=
  [(civilFromDays (t.wholeSeconds / 86400)).2.1, (civilFromDays (t.wholeSeconds / 86400)).2.2,
    (t.wholeSeconds % 86400).toNat / 3600, (t.wholeSeconds % 86400).toNat / 60 % 60,
    (t.wholeSeconds % 86400).toNat % 60]

/-- The fractional digits that an instant is written with. -/
def fraction (t : UtcTimestamp) : List Char :=
  ((decimal 9 (t.nanos % 1000000000).toNat).reverse.dropWhile (· = '0')).reverse

/-- The digits of the year. -/
def years (t : UtcTimestamp) : List Char :=
  if t.year < 0 then '-' :: decimal 6 t.year.natAbs else decimal 4 t.year.natAbs

/-- What follows the seconds. -/
def tail (t : UtcTimestamp) : List Char :=
  (if (t.nanos % 1000000000).toNat = 0 then [] else '.' :: t.fraction) ++ ['Z']

theorem toList_text (t : UtcTimestamp) : t.text.toList =
    t.years ++ (spell (decimal 2) (['-', '-', 'T', ':', ':'].zip t.clock) ++ t.tail) := by
  unfold text
  dsimp only
  rw [String.toList_ofList]
  simp only [spell, clock, years, year, tail, fraction, wholeSeconds, List.zip_cons_cons,
    List.zip_nil_right, List.flatMap_cons, List.flatMap_nil, List.append_assoc, List.cons_append,
    List.append_nil]
  rfl

/-! ### Years and clocks -/

theorem year_bounds (t : UtcTimestamp) : -9999 ≤ t.year ∧ t.year ≤ 9999 := by
  have hlow := t.ge
  have hhigh := t.le
  exact year_range (by unfold wholeSeconds; omega) (by unfold wholeSeconds; omega)

/-- Two digits are enough for the parts of a clock. -/
theorem clock_lt (t : UtcTimestamp) : ∀ n ∈ t.clock, n < 10 ^ 2 := by
  obtain ⟨hfirst, hlast, hpos, hlen⟩ := isDate_civilFromDays (t.wholeSeconds / 86400)
  have hmonth : ∀ year month, daysInMonth year month ≤ 31 := by
    intro year month
    unfold daysInMonth
    split
    · split <;> decide
    all_goals decide
  have hday := hlen.trans (hmonth _ _)
  have htime : (t.wholeSeconds % 86400).toNat < 86400 := by omega
  simp only [clock, List.mem_cons, List.not_mem_nil, or_false, forall_eq_or_imp, forall_eq]
  omega

/-- Year and clock are in the order of the seconds. -/
theorem year_clock_lt {a b : UtcTimestamp} (h : a.wholeSeconds < b.wholeSeconds) :
    a.year < b.year ∨ a.year = b.year ∧ a.clock < b.clock := by
  have hdays : a.wholeSeconds / 86400 ≤ b.wholeSeconds / 86400 := by omega
  simp only [year, clock, List.cons_lt_cons_iff, List.not_lt_nil, and_false, or_false]
  obtain hsame | hlt := hdays.eq_or_lt
  · right
    rw [hsame]
    refine ⟨rfl, Or.inr ⟨rfl, Or.inr ⟨rfl, ?_⟩⟩⟩
    omega
  · obtain hyear | ⟨hyear, hrest⟩ := civilFromDays_before hlt
    · exact Or.inl hyear
    · refine Or.inr ⟨hyear, ?_⟩
      obtain hmonth | ⟨hmonth, hday⟩ := hrest
      · exact Or.inl hmonth
      · exact Or.inr ⟨hmonth, Or.inl hday⟩

/-- Texts of one year are compared by the clock and then by what follows it. -/
theorem text_lt_iff_of_year {a b : UtcTimestamp} (h : a.year = b.year) :
    a.text.toList < b.text.toList ↔ a.clock < b.clock ∨ a.clock = b.clock ∧ a.tail < b.tail := by
  have hyears : a.years = b.years := by rw [years, years, h]
  rw [toList_text, toList_text, hyears, append_lt_append_left_iff]
  exact spell_lt_iff (length_decimal (by decide)) (decimal_lt_iff (by decide))
    (decimal_inj (by decide)) rfl rfl a.clock_lt b.clock_lt _ _

/-- The texts of different years start with the years. -/
theorem text_lt_of_years {a b : UtcTimestamp} (hlt : a.years < b.years)
    (hlength : a.years.length = b.years.length) : a.text.toList < b.text.toList := by
  rw [toList_text, toList_text, append_lt_append_iff hlength]
  exact Or.inl hlt

theorem text_lt_of_year {a b : UtcTimestamp} (h : a.year < b.year) :
    if b.year < 0 then b.text.toList < a.text.toList else a.text.toList < b.text.toList := by
  have ha := a.year_bounds
  have hb := b.year_bounds
  split_ifs with hneg
  · have hnega : a.year < 0 := h.trans hneg
    have hyears : b.years < a.years := by
      rw [years, years, if_pos hneg, if_pos hnega, List.cons_lt_cons_self,
        decimal_lt_iff (by decide) _ (by omega) _ (by omega)]
      omega
    refine text_lt_of_years hyears ?_
    rw [years, years, if_pos hneg, if_pos hnega, List.length_cons, List.length_cons,
      length_decimal (by decide) _ (by omega), length_decimal (by decide) _ (by omega)]
  · by_cases hnega : a.year < 0
    · -- a sign is before the digits
      have hlength := length_decimal (by decide : 0 < 4) b.year.natAbs (by omega)
      obtain ⟨c, cs, hc⟩ := List.exists_cons_of_length_eq_add_one hlength
      have hdigit : '-' < c := lt_of_lt_of_le (by decide)
        (mem_decimal (by decide) (by omega : _ < 10 ^ 4) (hc ▸ List.mem_cons_self)).1
      rw [toList_text, toList_text, years, years, if_pos hnega, if_neg hneg, hc, List.cons_append,
        List.cons_append, List.cons_lt_cons_iff]
      exact Or.inl hdigit
    · have hyears : a.years < b.years := by
        rw [years, years, if_neg hneg, if_neg hnega,
          decimal_lt_iff (by decide) _ (by omega) _ (by omega)]
        omega
      refine text_lt_of_years hyears ?_
      rw [years, years, if_neg hneg, if_neg hnega, length_decimal (by decide) _ (by omega),
        length_decimal (by decide) _ (by omega)]

/-! ### Fractions -/

/-- The nanoseconds of an instant within its second. -/
def subsec (t : UtcTimestamp) : ℕ := (t.nanos % 1000000000).toNat

theorem subsec_lt (t : UtcTimestamp) : t.subsec < 10 ^ 9 := by
  unfold subsec
  omega

/-- The digits of a fraction are the nine digits of the nanoseconds without zeros at the end. -/
theorem exists_fraction (t : UtcTimestamp) :
    ∃ k, decimal 9 t.subsec = t.fraction ++ List.replicate k '0' := by
  obtain ⟨k, hk⟩ : ∃ k, (decimal 9 t.subsec).reverse.takeWhile (· = '0') = List.replicate k '0' :=
    ⟨_, List.eq_replicate_of_mem fun c hc => by simpa using List.mem_takeWhile_imp hc⟩
  refine ⟨k, ?_⟩
  have hsplit := @List.takeWhile_append_dropWhile _ (fun c : Char => decide (c = '0'))
    (decimal 9 t.subsec).reverse
  rw [hk] at hsplit
  have hreverse := congrArg List.reverse hsplit
  rw [List.reverse_reverse, List.reverse_append, List.reverse_replicate] at hreverse
  exact hreverse.symm

theorem subsec_of_fraction {a b : UtcTimestamp} (h : a.fraction = b.fraction) :
    a.subsec = b.subsec := by
  obtain ⟨k, hk⟩ := a.exists_fraction
  obtain ⟨l, hl⟩ := b.exists_fraction
  have hlength := length_decimal (by decide : 0 < 9) _ a.subsec_lt
  have hlength' := length_decimal (by decide : 0 < 9) _ b.subsec_lt
  refine decimal_inj (by decide : 0 < 9) _ a.subsec_lt _ b.subsec_lt ?_
  rw [hk, List.length_append, List.length_replicate] at hlength
  rw [hl, List.length_append, List.length_replicate, ← h] at hlength'
  rw [hk, hl, h, (by omega : k = l)]

/-- Zeros are before no digits. -/
theorem not_lt_replicate {xs : List Char} {k : ℕ} (hxs : ∀ c ∈ xs, '0' ≤ c)
    (hlength : xs.length = k) : ¬xs < List.replicate k '0' := by
  induction xs generalizing k with
  | nil =>
    subst hlength
    exact lt_irrefl _
  | cons x xs ih =>
    subst hlength
    rw [List.length_cons, List.replicate_succ, List.cons_lt_cons_iff]
    rintro (h | ⟨-, h⟩)
    · exact absurd (hxs x List.mem_cons_self) (not_le.mpr h)
    · exact ih (fun c hc => hxs c (List.mem_cons_of_mem _ hc)) rfl h

theorem mem_fraction {t : UtcTimestamp} {c : Char} (h : c ∈ t.fraction) : '0' ≤ c ∧ c ≤ '9' := by
  obtain ⟨k, hk⟩ := t.exists_fraction
  exact mem_decimal (by decide) t.subsec_lt (hk ▸ List.mem_append_left _ h)

/-- A smaller fraction does not have the digits of a larger one and more. -/
theorem not_prefix_of_subsec_lt {a b : UtcTimestamp} (h : a.subsec < b.subsec) :
    ¬b.fraction <+: a.fraction := by
  rintro ⟨rest, hrest⟩
  obtain ⟨k, hk⟩ := a.exists_fraction
  obtain ⟨l, hl⟩ := b.exists_fraction
  have hlt := (decimal_lt_iff (by decide : 0 < 9) _ a.subsec_lt _ b.subsec_lt).mpr h
  have hlength := length_decimal (by decide : 0 < 9) _ a.subsec_lt
  have hlength' := length_decimal (by decide : 0 < 9) _ b.subsec_lt
  rw [hk, ← hrest, hl, List.append_assoc, append_lt_append_left_iff] at hlt
  rw [hk, ← hrest, List.append_assoc, List.length_append] at hlength
  rw [hl, List.length_append, List.length_replicate] at hlength'
  refine not_lt_replicate (fun c hc => ?_) (by omega) hlt
  obtain hc | hc := List.mem_append.mp hc
  · exact (mem_fraction (hrest ▸ List.mem_append_right _ hc : c ∈ a.fraction)).1
  · exact (List.eq_of_mem_replicate hc).ge

theorem tail_of_pos {t : UtcTimestamp} (h : 0 < t.subsec) :
    t.tail = '.' :: (t.fraction ++ ['Z']) := by
  rw [tail, if_neg (by unfold subsec at h; omega)]
  rfl

/-- Within a second the larger fraction is written as the larger text, unless it has the digits of
the smaller one and more. -/
theorem tail_lt {a b : UtcTimestamp} (h : a.subsec < b.subsec) :
    if a.fraction <+: b.fraction then b.tail < a.tail else a.tail < b.tail := by
  have hb : b.tail = '.' :: (b.fraction ++ ['Z']) := tail_of_pos (by omega)
  have hlt := (decimal_lt_iff (by decide : 0 < 9) _ a.subsec_lt _ b.subsec_lt).mpr h
  split_ifs with hbegins
  · obtain ⟨rest, hrest⟩ := hbegins
    by_cases hzero : a.subsec = 0
    · have ha : a.tail = ['Z'] := by
        unfold subsec at hzero
        rw [tail, if_pos hzero]
        rfl
      rw [ha, hb, List.cons_lt_cons_iff]
      exact Or.inl (by decide)
    · rw [tail_of_pos (Nat.pos_of_ne_zero hzero), hb, List.cons_lt_cons_self, ← hrest,
        List.append_assoc, append_lt_append_left_iff]
      rcases rest with _ | ⟨d, rest⟩
      · rw [List.append_nil] at hrest
        exact absurd (subsec_of_fraction hrest) h.ne
      · rw [List.cons_append, List.cons_lt_cons_iff]
        have hd : d ∈ b.fraction := hrest ▸ List.mem_append_right _ List.mem_cons_self
        exact Or.inl ((mem_fraction hd).2.trans_lt (by decide))
  · obtain ⟨k, hk⟩ := a.exists_fraction
    obtain ⟨l, hl⟩ := b.exists_fraction
    have hpos : 0 < a.subsec := by
      refine Nat.pos_of_ne_zero fun hzero => hbegins ?_
      have hnil : a.fraction = [] := by
        change ((decimal 9 a.subsec).reverse.dropWhile (· = '0')).reverse = []
        rw [hzero]
        decide
      rw [hnil]
      exact List.nil_prefix
    have hnot := not_prefix_of_subsec_lt h
    rw [hk, hl, append_lt_append_iff_of_not_prefix hbegins hnot] at hlt
    rw [tail_of_pos hpos, hb, List.cons_lt_cons_self,
      append_lt_append_iff_of_not_prefix hbegins hnot]
    exact hlt

/-! ### The order of texts -/

/-- The texts of two instants are in their order: they are not of two years before zero, and within
a second the digits of neither are the start of other digits of the other. -/
def Ordered (a b : UtcTimestamp) : Prop :=
  ¬(a.year < 0 ∧ b.year < 0 ∧ a.year ≠ b.year) ∧
    (a.wholeSeconds = b.wholeSeconds → a.fraction <+: b.fraction ∨ b.fraction <+: a.fraction →
      a.fraction = b.fraction)

theorem Ordered.symm {a b : UtcTimestamp} (h : a.Ordered b) : b.Ordered a :=
  ⟨fun ⟨hb, ha, hne⟩ => h.1 ⟨ha, hb, hne.symm⟩,
    fun hs hp => (h.2 hs.symm hp.symm).symm⟩

/-- **The texts of an earlier and a later instant** are in that order or in the other. -/
theorem text_lt {a b : UtcTimestamp} (h : a < b) :
    (a.Ordered b → a.text.toList < b.text.toList) ∧
      (¬a.Ordered b → b.text.toList < a.text.toList) := by
  have hnanos : a.nanos < b.nanos := h
  have hseconds : a.wholeSeconds ≤ b.wholeSeconds := by
    unfold wholeSeconds
    omega
  obtain hsame | hlt := hseconds.eq_or_lt
  · have hyear : a.year = b.year := by rw [year, year, hsame]
    have hclock : a.clock = b.clock := by rw [clock, clock, hsame]
    have hsubsec : a.subsec < b.subsec := by
      unfold wholeSeconds at hsame
      unfold subsec
      omega
    have htail := tail_lt hsubsec
    have hne : a.fraction ≠ b.fraction := fun he => hsubsec.ne (subsec_of_fraction he)
    rw [text_lt_iff_of_year hyear, text_lt_iff_of_year hyear.symm]
    constructor
    · intro ho
      rw [if_neg fun hp => hne (ho.2 hsame (Or.inl hp))] at htail
      exact Or.inr ⟨hclock, htail⟩
    · intro ho
      have hbegins : a.fraction <+: b.fraction := by
        by_contra hp
        refine ho ⟨fun hy => hy.2.2 hyear, fun _ hor => absurd hor ?_⟩
        exact not_or.mpr ⟨hp, not_prefix_of_subsec_lt hsubsec⟩
      rw [if_pos hbegins] at htail
      exact Or.inr ⟨hclock.symm, htail⟩
  · have hdiffer : a.wholeSeconds = b.wholeSeconds → a.fraction <+: b.fraction ∨
        b.fraction <+: a.fraction → a.fraction = b.fraction := fun he => absurd he hlt.ne
    obtain hyear | ⟨hyear, hclock⟩ := year_clock_lt hlt
    · have htext := text_lt_of_year hyear
      constructor
      · intro ho
        rw [if_neg fun hb => ho.1 ⟨hyear.trans hb, hb, hyear.ne⟩] at htext
        exact htext
      · intro ho
        have hneg : b.year < 0 := by
          by_contra hb
          exact ho ⟨fun hy => hb hy.2.1, hdiffer⟩
        rw [if_pos hneg] at htext
        exact htext
    · refine ⟨fun _ => (text_lt_iff_of_year hyear).mpr (Or.inl hclock), fun ho => ?_⟩
      exact absurd ⟨fun hy => hy.2.2 hyear, hdiffer⟩ ho

/-- **Texts are compared as instants are if and only if the instants are ordered.** -/
theorem textBefore_iff (a b : UtcTimestamp) :
    (a.textBefore b = true ↔ a < b) ↔ a.Ordered b := by
  rw [textBefore, decide_eq_true_eq]
  obtain hlt | rfl | hgt := lt_trichotomy a b
  · obtain ⟨hordered, hnot⟩ := text_lt hlt
    refine ⟨fun h => ?_, fun ho => iff_of_true (hordered ho) hlt⟩
    by_contra ho
    exact lt_asymm (hnot ho) (h.mpr hlt)
  · exact iff_of_true (iff_of_false (lt_irrefl _) (lt_irrefl _))
      ⟨fun hy => hy.2.2 rfl, fun _ _ => rfl⟩
  · obtain ⟨hordered, hnot⟩ := text_lt hgt
    constructor
    · intro h
      by_contra ho
      exact lt_asymm hgt (h.mp (hnot fun ho' => ho ho'.symm))
    · exact fun ho => iff_of_false (lt_asymm (hordered ho.symm)) (lt_asymm hgt)

/-! ### The order of bytes -/

/-- A text has characters of one byte each. -/
theorem mem_text {t : UtcTimestamp} {c : Char} (h : c ∈ t.text.toList) : c.toNat < 128 := by
  have hdigit : ∀ {c : Char}, '0' ≤ c ∧ c ≤ '9' → c.toNat < 128 := fun hc =>
    lt_of_le_of_lt (show _ ≤ '9'.toNat from hc.2) (by decide)
  have hyear := t.year_bounds
  rw [toList_text, List.mem_append, List.mem_append] at h
  obtain h | h | h := h
  · rw [years] at h
    split_ifs at h
    · obtain rfl | h := List.mem_cons.mp h
      · decide
      · exact hdigit (mem_decimal (by decide) (by omega) h)
    · exact hdigit (mem_decimal (by decide) (by omega) h)
  · obtain ⟨⟨sep, n⟩, hpart, h⟩ := List.mem_flatMap.mp h
    have hseps : ∀ sep ∈ ['-', '-', 'T', ':', ':'], sep.toNat < 128 := by simp
    obtain rfl | h := List.mem_cons.mp h
    · exact hseps _ (List.of_mem_zip hpart).1
    · exact hdigit (mem_decimal (by decide) (t.clock_lt n (List.of_mem_zip hpart).2) h)
  · rw [tail, List.mem_append, List.mem_singleton] at h
    obtain h | rfl := h
    · split_ifs at h
      · cases h
      · obtain rfl | h := List.mem_cons.mp h
        · decide
        · exact hdigit (mem_fraction h)
    · decide

/-- Comparing the characters of texts is comparing their bytes. -/
theorem bytes_lt_iff (a b : UtcTimestamp) :
    Utf8.bytes a.text.toList < Utf8.bytes b.text.toList ↔ a.textBefore b = true := by
  rw [Utf8.bytes_lt_iff (fun _ => mem_text) fun _ => mem_text, textBefore, decide_eq_true_eq]

/-- Different instants have different texts. -/
theorem text_inj {a b : UtcTimestamp} : a.text = b.text ↔ a = b := by
  refine ⟨fun h => ?_, congrArg text⟩
  by_contra hne
  have hirrefl : ∀ {a b : UtcTimestamp}, a < b → a.text ≠ b.text := by
    intro a b hlt he
    obtain ⟨hordered, hnot⟩ := text_lt hlt
    rw [he] at hordered hnot
    by_cases ho : a.Ordered b
    · exact lt_irrefl _ (hordered ho)
    · exact lt_irrefl _ (hnot ho)
  obtain hlt | hgt := lt_or_gt_of_ne hne
  · exact hirrefl hlt h
  · exact hirrefl hgt h.symm

end UtcTimestamp

end Atx

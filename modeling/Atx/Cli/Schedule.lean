import Atx.Domain.Calendar

/-!
# Schedules from the command line

The words of WHEN on a command line are a relative duration or a calendar expression. Written one
after the other they may look like a duration, which starts with a digit and has none of the
separators of the calendar; then they are read as one. Otherwise they are joined by spaces and read
as a calendar expression.

Taking the words apart is harmless between the components of a duration. Within one it is not:
`1 0m` is no duration, and the words `1` and `0m` are.

## Main definitions

* `Atx.relativeDeadline` — the deadline of a relative schedule
* `Atx.buildSchedule` — the schedule that the words and options ask for

## Main results

* `Atx.fromStr_concat` — the words of a duration are one, with the same value
* `Atx.when_words` — what words mean
* `Atx.when_words_iff` — when they mean what the text does that is made of them
-/

namespace Atx

open DurationSeconds Outcome

/-! ### Relative deadlines -/

def ElapsedInstant.checkedAddSeconds (t : ElapsedInstant) (duration : DurationSeconds) :
    Except DeadlineError ElapsedInstant :=
  okOr (t.checkedAdd (duration.seconds * 1000000000)) .overflow

structure RelativeDeadline where
  elapsedDue : ElapsedInstant
  persistedDueUtc : UtcTimestamp

def relativeDeadline (wallNow : UtcTimestamp) (elapsedNow : ElapsedInstant)
    (duration : DurationSeconds) : Except DeadlineError RelativeDeadline := do
  let persistedDueUtc ← okOr
    (UtcTimestamp.ofNanosecond (wallNow.nanos + duration.seconds * 1000000000)) .overflow
  let elapsedDue ← elapsedNow.checkedAddSeconds duration
  return { elapsedDue, persistedDueUtc }

/-! ### Words and options -/

/-- The options that matter to a schedule. -/
structure ScheduleOptions where
  every : Option String
  utc : Bool
  tz : Option String
  dst : Option DstResolution
  noRollover : Bool

/-- Whether there are options that only mean something to a calendar expression. -/
def ScheduleOptions.calendar (options : ScheduleOptions) : Bool :=
  options.utc || options.tz.isSome || options.dst.isSome || options.noRollover

/-- Words one after the other. -/
def concat (words : List String) : String := String.ofList (words.map String.toList).flatten

/-- Words with single spaces between them. -/
def join (words : List String) : String :=
  String.ofList ([' '].intercalate (words.map String.toList))

def isDurationInput (input : String) : Bool :=
  input.toList.head?.any Char.isDigit && !input.toList.any fun c => ['-', ':', 'T'].contains c

def CalendarSyntax.isTime : CalendarSyntax → Bool
  | .time _ => true
  | .date _ | .dateTime _ => false

/-- The last part of `buildSchedule`, for calendar expressions. -/
def calendarSchedule (zones : TimeZones) (defaultTimezone : String) (options : ScheduleOptions)
    (input : String) (wallNow : UtcTimestamp) : ExceptT String Option Schedule := do
  let parsed ← ExceptT.adapt CalendarSyntaxError.message (parseCalendar input)
  if options.noRollover ∧ ¬parsed.isTime then
    throw "--no-rollover is only valid with a time of day"
  if options.utc ∧ options.dst.isSome then throw "--dst is not meaningful with --utc"
  let timezone : TimeZoneSelection :=
    if options.utc then .utc
    else match options.tz with
      | some timezone => .named timezone
      | none => if defaultTimezone = "local" then .localZone else .named defaultTimezone
  let resolution ← ExceptT.adapt CalendarError.message
    (resolveCalendar zones input timezone (options.dst.getD .reject) options.noRollover wallNow)
  return .oneShotAbsolute resolution.originalInput resolution.timezone
    resolution.timezoneDatabaseVersion resolution.resolvedUtc resolution.dstResolution

/-- The schedule that the words of WHEN and the options ask for. There is no value where reading
them panics. -/
def buildSchedule (zones : TimeZones) (defaultTimezone : String) (options : ScheduleOptions)
    (words : List String) (wallNow : UtcTimestamp) (elapsedNow : ElapsedInstant) :
    ExceptT String Option Schedule := do
  if let some every := options.every then
    if options.calendar then throw "calendar options cannot be used with --every"
    let interval ← ExceptT.adapt DurationError.message (ExceptT.mk (DurationSeconds.fromStr every))
    let deadline ← (relativeDeadline wallNow elapsedNow interval).mapError DeadlineError.message
    return .recurringInterval interval deadline.persistedDueUtc
  let joinedDuration := concat words
  if isDurationInput joinedDuration then
    let duration ← ExceptT.adapt DurationError.message
      (ExceptT.mk (DurationSeconds.fromStr joinedDuration))
    if options.calendar then throw "calendar options cannot be used with a relative duration"
    let deadline ← (relativeDeadline wallNow elapsedNow duration).mapError DeadlineError.message
    return .oneShotRelative duration deadline.persistedDueUtc
  calendarSchedule zones defaultTimezone options (join words) wallNow

/-! ### Taking spaces out -/

/-- Characters that are not white space between components. -/
def nonspace (c : Char) : Bool := !isAsciiSpace c

/-- A text with some of its white space taken out. -/
def Thinned (ys xs : List Char) : Prop := ys.Sublist xs ∧ ys.countP nonspace = xs.countP nonspace

theorem Thinned.append_right {ys xs xs' : List Char} (h : Thinned ys (xs ++ xs')) :
    ∃ zs zs', ys = zs ++ zs' ∧ Thinned zs xs ∧ Thinned zs' xs' := by
  obtain ⟨hsub, hcount⟩ := h
  obtain ⟨zs, zs', rfl, hzs, hzs'⟩ := List.sublist_append_iff.mp hsub
  rw [List.countP_append, List.countP_append] at hcount
  have hle : zs.countP nonspace ≤ xs.countP nonspace := hzs.countP_le
  have hle' : zs'.countP nonspace ≤ xs'.countP nonspace := hzs'.countP_le
  exact ⟨zs, zs', rfl, ⟨hzs, by omega⟩, hzs', by omega⟩

/-- Where there is no white space, none is taken out. -/
theorem Thinned.eq {ys xs : List Char} (h : Thinned ys xs) (hxs : ∀ c ∈ xs, nonspace c = true) :
    ys = xs := by
  refine h.1.eq_of_length_le ?_
  have hcount := h.2
  rw [List.countP_eq_length.mpr hxs] at hcount
  rw [← hcount]
  exact List.countP_le_length

theorem nonspace_text (c : Component) : ∀ ch ∈ c.text, nonspace ch = true := by
  intro ch hch
  obtain hch | hch := List.mem_append.mp hch
  · have hdigit := List.all_eq_true.mp c.decimal ch hch
    rw [nonspace, isAsciiSpace_of_isDigit hdigit]
    rfl
  · rw [List.mem_singleton.mp hch]
    cases c.unit <;> rfl

/-- **The white space of a text of the grammar can be taken out.** -/
theorem Thinned.spells {xs : List Char} {parts : List Component} (h : Spells xs parts)
    {ys : List Char} (hthin : Thinned ys xs) : Spells ys parts := by
  induction h generalizing ys with
  | last c =>
    rw [hthin.eq (nonspace_text c)]
    exact .last c
  | more c hsep h ih =>
    obtain ⟨text, rest, rfl, htext, hrest⟩ := hthin.append_right
    obtain ⟨sep, rest, rfl, hsep', hrest⟩ := hrest.append_right
    rw [htext.eq (nonspace_text c)]
    exact .more c (fun ch hch => hsep ch (hsep'.1.mem hch)) (ih hrest)

theorem thinned_flatten (words : List (List Char)) :
    Thinned words.flatten ([' '].intercalate words) := by
  induction words with
  | nil => exact ⟨List.Sublist.refl _, rfl⟩
  | cons word words ih =>
    cases words with
    | nil => simp [Thinned]
    | cons next words =>
      obtain ⟨hsub, hcount⟩ := ih
      have hsplit : [' '].intercalate (word :: next :: words) =
          word ++ (' ' :: [' '].intercalate (next :: words)) := by
        simp [List.intercalate]
      rw [hsplit, List.flatten_cons]
      refine ⟨(hsub.cons ' ').append_left word, ?_⟩
      rw [List.countP_append, List.countP_append, hcount]
      rfl

/-- What the joined words stand for, they stand for one after the other. -/
theorem standsFor_flatten {words : List (List Char)} {seconds : ℕ}
    (h : StandsFor (Utf8.trim ([' '].intercalate words)) seconds) :
    StandsFor (Utf8.trim words.flatten) seconds := by
  obtain ⟨parts, hspells, hrest⟩ := h
  obtain ⟨before, after, hjoined, hbefore, hafter⟩ := Utf8.exists_trim ([' '].intercalate words)
  have hthin := thinned_flatten words
  rw [hjoined] at hthin
  obtain ⟨before', rest, hflat, hbefore', hrest'⟩ := hthin.append_right
  obtain ⟨text, after', rfl, htext, hafter'⟩ := hrest'.append_right
  refine ⟨parts, ?_, hrest⟩
  have hspells' := htext.spells hspells
  rw [hflat, trim_spells hspells' (fun c hc => hbefore c (hbefore'.1.mem hc))
    fun c hc => hafter c (hafter'.1.mem hc)]
  exact hspells'

/-- **The words of a duration are one, with the same value.** -/
theorem fromStr_concat {words : List String} {d : DurationSeconds}
    (h : DurationSeconds.fromStr (join words) = some (.ok d)) :
    DurationSeconds.fromStr (concat words) = some (.ok d) := by
  obtain ⟨r, hr, hspec⟩ := DurationSeconds.fromStr_spec (join words)
  obtain ⟨r', hr', hspec'⟩ := DurationSeconds.fromStr_spec (concat words)
  rw [hr, Option.some.injEq] at h
  have hstands := (hspec d).mp h
  rw [join, String.toList_ofList] at hstands
  rw [hr', Option.some.injEq, hspec' d, concat, String.toList_ofList]
  exact standsFor_flatten hstands

/-! ### What words mean -/

section

variable (zones : TimeZones) (defaultTimezone : String) (words : List String)
  (wallNow : UtcTimestamp) (elapsedNow : ElapsedInstant)

/-- No options. -/
def ScheduleOptions.none : ScheduleOptions := ⟨Option.none, false, Option.none, Option.none, false⟩

/-- The schedule of a relative duration. -/
def relativeSchedule (duration : DurationSeconds) : Except String Schedule := do
  let deadline ← (relativeDeadline wallNow elapsedNow duration).mapError DeadlineError.message
  return .oneShotRelative duration deadline.persistedDueUtc

/-- The result for words without options. -/
def scheduleOf : Option (Except String Schedule) :=
  (buildSchedule zones defaultTimezone .none words wallNow elapsedNow).run

/-- The result of reading a text as a calendar expression. -/
def calendarOf (input : String) : Option (Except String Schedule) :=
  (calendarSchedule zones defaultTimezone .none input wallNow).run

theorem scheduleOf_eq : scheduleOf zones defaultTimezone words wallNow elapsedNow =
    if isDurationInput (concat words) then
      (ExceptT.adapt DurationError.message (ExceptT.mk (DurationSeconds.fromStr (concat words))) >>=
        fun duration => liftM (relativeSchedule wallNow elapsedNow duration)).run
    else calendarOf zones defaultTimezone wallNow (join words) := by
  have hduration : ∀ d, (do
      let deadline ← (relativeDeadline wallNow elapsedNow d).mapError DeadlineError.message
      return .oneShotRelative d deadline.persistedDueUtc : ExceptT String Option Schedule) =
        liftM (relativeSchedule wallNow elapsedNow d) := fun d =>
    (run_liftM_bind fun _ => rfl).trans (run_liftM _).symm
  unfold scheduleOf
  simp only [← hduration]
  by_cases h : isDurationInput (concat words) = true
  · rw [if_pos h]
    unfold buildSchedule
    dsimp only
    rw [if_pos h]
    rfl
  · rw [if_neg h]
    unfold buildSchedule
    dsimp only
    rw [if_neg h]
    rfl

theorem scheduleOf_of_not {words : List String} (h : isDurationInput (concat words) = false) :
    scheduleOf zones defaultTimezone words wallNow elapsedNow =
      calendarOf zones defaultTimezone wallNow (join words) := by
  rw [scheduleOf_eq, h, if_neg Bool.false_ne_true]

theorem scheduleOf_of_ok {words : List String} (h : isDurationInput (concat words) = true)
    {d : DurationSeconds} (hd : DurationSeconds.fromStr (concat words) = some (.ok d)) :
    scheduleOf zones defaultTimezone words wallNow elapsedNow =
      some (relativeSchedule wallNow elapsedNow d) := by
  rw [scheduleOf_eq, if_pos h, hd]
  exact run_liftM _

theorem scheduleOf_of_error {words : List String} (h : isDurationInput (concat words) = true)
    {e : DurationError} (he : DurationSeconds.fromStr (concat words) = some (.error e)) :
    scheduleOf zones defaultTimezone words wallNow elapsedNow = some (.error e.message) := by
  rw [scheduleOf_eq, if_pos h, he]
  rfl

/-- **What words mean.** Words that look like a duration are the duration of the text that joins
them, due when that has passed, or are refused as the duration they are not. Words that do not, and
whose text is none, mean what their text does as a calendar expression. -/
theorem when_words :
    (∀ d, isDurationInput (concat words) = true → DurationSeconds.fromStr (join words) = some (.ok d) →
      scheduleOf zones defaultTimezone words wallNow elapsedNow =
        some (relativeSchedule wallNow elapsedNow d)) ∧
    (∀ e, isDurationInput (concat words) = true →
      DurationSeconds.fromStr (concat words) = some (.error e) →
      scheduleOf zones defaultTimezone words wallNow elapsedNow = some (.error e.message)) ∧
    (isDurationInput (concat words) = false →
      (∀ d, DurationSeconds.fromStr (join words) ≠ some (.ok d)) →
      scheduleOf zones defaultTimezone words wallNow elapsedNow =
        calendarOf zones defaultTimezone wallNow (join words)) :=
  ⟨fun _ h hd => scheduleOf_of_ok _ _ _ _ h (fromStr_concat hd),
    fun _ h he => scheduleOf_of_error _ _ _ _ h he, fun h _ => scheduleOf_of_not _ _ _ _ h⟩

/-- Words mean the text that joins them: the duration it is, or else the calendar expression. -/
def MeansText : Prop :=
  (∀ d, (∃ due, scheduleOf zones defaultTimezone words wallNow elapsedNow =
      some (.ok (.oneShotRelative d due))) ↔ DurationSeconds.fromStr (join words) = some (.ok d)) ∧
    ((∀ d, DurationSeconds.fromStr (join words) ≠ some (.ok d)) →
      scheduleOf zones defaultTimezone words wallNow elapsedNow =
        calendarOf zones defaultTimezone wallNow (join words))

/-- A word that starts with a digit is refused as a duration, not as a calendar expression. -/
theorem when_word_refused : ¬∀ zones defaultTimezone words wallNow elapsedNow,
    MeansText zones defaultTimezone words wallNow elapsedNow := by
  intro h
  have hmeans := (h ⟨none, fun _ => none, fun _ _ => none, none⟩ "local" ["10x"]
    ⟨0, by decide, by decide⟩ ⟨0, by decide⟩).2
  have hnone : ∀ d, DurationSeconds.fromStr (join ["10x"]) ≠ some (.ok d) := by
    have herror : DurationSeconds.fromStr (join ["10x"]) = some (.error .expectedUnit) := by
      decide
    intro d hd
    rw [herror] at hd
    cases hd
  exact absurd (hmeans hnone) (by decide)

theorem calendarOf_ne_relative (input : String) (d : DurationSeconds) (due : UtcTimestamp) :
    calendarOf zones defaultTimezone wallNow input ≠ some (.ok (.oneShotRelative d due)) := by
  intro h
  obtain ⟨parsed, -, h⟩ := run_bind_eq_ok.mp h
  rw [if_neg fun h => Bool.false_ne_true h.1, if_neg fun h => Bool.false_ne_true h.1] at h
  obtain ⟨resolution, -, h⟩ := run_bind_eq_ok.mp h
  cases h

/-- Without a separator nothing is a calendar expression. -/
theorem parseCalendar_of_not_mem {input : String} (hdash : '-' ∉ Utf8.trim input.toList)
    (hcolon : ':' ∉ Utf8.trim input.toList) :
    ∃ e, (parseCalendar input).run = some (.error e) ∧
      (e = .empty ∨ e = .invalidDate ∨ e = .invalidDateTime) := by
  unfold parseCalendar
  dsimp only
  generalize Utf8.trim input.toList = cs at *
  by_cases hempty : cs = []
  · rw [if_pos hempty]
    exact ⟨_, rfl, Or.inl rfl⟩
  rw [if_neg hempty, if_neg fun h => hcolon h.1, if_neg fun h => hdash h.1]
  obtain h | ⟨ds, sep, ts, rfl, hd, hsep, ht⟩ := parseDatetime_cases cs
  · refine ⟨_, ?_, Or.inr (Or.inr rfl)⟩
    exact run_bind_error h
  · rw [parseDatetime_append hd hsep ht]
    obtain h | ⟨ys, ms, ns, rfl, -⟩ := parseDate_cases ds
    · exact ⟨_, run_bind_error (run_bind_error h), Or.inr (Or.inl rfl)⟩
    · exact absurd (by simp) hdash

theorem calendarOf_of_not_mem {input : String} (hdash : '-' ∉ Utf8.trim input.toList)
    (hcolon : ':' ∉ Utf8.trim input.toList) :
    ∃ e : CalendarSyntaxError, calendarOf zones defaultTimezone wallNow input =
      some (.error e.message) ∧ (e = .empty ∨ e = .invalidDate ∨ e = .invalidDateTime) := by
  obtain ⟨e, he, hcases⟩ := parseCalendar_of_not_mem hdash hcolon
  refine ⟨e, run_bind_error ?_, hcases⟩
  change (parseCalendar input).run.map (Except.mapError CalendarSyntaxError.message) = _
  rw [he]
  rfl

/-- The words have the characters of the text that joins them, but for spaces. -/
theorem mem_join {words : List String} {c : Char} (h : c ∈ Utf8.trim (join words).toList)
    (hspace : c ≠ ' ') : c ∈ (concat words).toList := by
  obtain ⟨before, after, hjoined, -⟩ := Utf8.exists_trim (join words).toList
  have hmem : c ∈ (join words).toList := by
    rw [hjoined]
    exact List.mem_append_right _ (List.mem_append_left _ h)
  rw [join, String.toList_ofList] at hmem
  rw [concat, String.toList_ofList]
  generalize words.map String.toList = ws at *
  clear hjoined h
  induction ws with
  | nil => exact hmem
  | cons w ws ih =>
    rw [List.flatten_cons, List.mem_append]
    cases ws with
    | nil => exact Or.inl (by simpa using hmem)
    | cons next ws =>
      rw [List.intercalate_cons_cons, List.mem_append, List.mem_append] at hmem
      obtain (hw | hsep) | hrest := hmem
      · exact Or.inl hw
      · exact absurd (List.mem_singleton.mp hsep) hspace
      · exact Or.inr (ih hrest)

theorem not_mem_join {words : List String} (h : isDurationInput (concat words) = true) :
    '-' ∉ Utf8.trim (join words).toList ∧ ':' ∉ Utf8.trim (join words).toList := by
  rw [isDurationInput, Bool.and_eq_true, Bool.not_eq_true', List.any_eq_false] at h
  constructor
  · exact fun hmem => h.2 '-' (mem_join hmem (by decide)) rfl
  · exact fun hmem => h.2 ':' (mem_join hmem (by decide)) rfl

/-- A duration is not refused as a calendar expression. -/
theorem scheduleOf_ne_calendarOf {words : List String}
    (h : isDurationInput (concat words) = true) :
    scheduleOf zones defaultTimezone words wallNow elapsedNow ≠
      calendarOf zones defaultTimezone wallNow (join words) := by
  obtain ⟨hdash, hcolon⟩ := not_mem_join h
  obtain ⟨e, he, hcases⟩ := calendarOf_of_not_mem zones defaultTimezone wallNow hdash hcolon
  obtain ⟨r, hr, -⟩ := DurationSeconds.fromStr_spec (concat words)
  rw [he]
  intro heq
  cases r with
  | error error =>
    rw [scheduleOf_of_error _ _ _ _ h hr, Option.some.injEq, Except.error.injEq] at heq
    obtain rfl | rfl | rfl := hcases <;> cases error <;> exact absurd heq (by decide)
  | ok d =>
    rw [scheduleOf_of_ok _ _ _ _ h hr, Option.some.injEq] at heq
    unfold relativeSchedule at heq
    cases hdeadline : relativeDeadline wallNow elapsedNow d with
    | ok deadline =>
      rw [hdeadline] at heq
      cases heq
    | error error =>
      rw [hdeadline] at heq
      cases error
      obtain rfl | rfl | rfl := hcases <;> exact absurd (Except.error.inj heq) (by decide)

theorem relativeSchedule_eq_ok {d : DurationSeconds} {schedule : Schedule} :
    relativeSchedule wallNow elapsedNow d = .ok schedule ↔
      ∃ deadline, relativeDeadline wallNow elapsedNow d = .ok deadline ∧
        schedule = .oneShotRelative d deadline.persistedDueUtc := by
  unfold relativeSchedule
  simp only [bind_eq_ok, mapError_eq_ok, pure_eq_ok]
  exact ⟨fun ⟨deadline, h, hs⟩ => ⟨deadline, h, hs.symm⟩, fun ⟨deadline, h, hs⟩ => ⟨deadline, h, hs.symm⟩⟩

/-- **Words mean the text that joins them if and only if** they look like a duration exactly if the
text is one, and the deadline of that duration can be represented. -/
theorem when_words_iff : MeansText zones defaultTimezone words wallNow elapsedNow ↔
    (isDurationInput (concat words) = true ↔
      ∃ d, DurationSeconds.fromStr (join words) = some (.ok d)) ∧
    ∀ d, DurationSeconds.fromStr (join words) = some (.ok d) →
      ∃ deadline, relativeDeadline wallNow elapsedNow d = .ok deadline := by
  constructor
  · rintro ⟨hduration, hcalendar⟩
    have hlooks : ∀ d, DurationSeconds.fromStr (join words) = some (.ok d) →
        isDurationInput (concat words) = true := by
      intro d hd
      by_contra h
      obtain ⟨due, hdue⟩ := (hduration d).mpr hd
      rw [scheduleOf_of_not _ _ _ _ (Bool.eq_false_of_not_eq_true h)] at hdue
      exact calendarOf_ne_relative _ _ _ _ _ _ hdue
    refine ⟨⟨fun h => ?_, fun ⟨d, hd⟩ => hlooks d hd⟩, fun d hd => ?_⟩
    · by_contra hnone
      exact scheduleOf_ne_calendarOf _ _ _ _ h (hcalendar fun d hd => hnone ⟨d, hd⟩)
    · obtain ⟨due, hdue⟩ := (hduration d).mpr hd
      rw [scheduleOf_of_ok _ _ _ _ (hlooks d hd) (fromStr_concat hd), Option.some.injEq,
        relativeSchedule_eq_ok] at hdue
      obtain ⟨deadline, hdeadline, -⟩ := hdue
      exact ⟨deadline, hdeadline⟩
  · rintro ⟨hlooks, hdeadline⟩
    by_cases h : isDurationInput (concat words) = true
    · obtain ⟨d, hd⟩ := hlooks.mp h
      obtain ⟨deadline, hok⟩ := hdeadline d hd
      have hschedule : scheduleOf zones defaultTimezone words wallNow elapsedNow =
          some (.ok (.oneShotRelative d deadline.persistedDueUtc)) := by
        rw [scheduleOf_of_ok _ _ _ _ h (fromStr_concat hd), Option.some.injEq]
        exact (relativeSchedule_eq_ok _ _).mpr ⟨deadline, hok, rfl⟩
      refine ⟨fun e => ⟨?_, fun he => ?_⟩, fun hnone => absurd hd (hnone d)⟩
      · rintro ⟨due, hdue⟩
        rw [hschedule] at hdue
        cases hdue
        exact hd
      · rw [hd] at he
        cases he
        exact ⟨_, hschedule⟩
    · have hnot := Bool.eq_false_of_not_eq_true h
      refine ⟨fun d => ⟨?_, fun hd => absurd (hlooks.mpr ⟨d, hd⟩) h⟩,
        fun _ => scheduleOf_of_not _ _ _ _ hnot⟩
      rintro ⟨due, hdue⟩
      rw [scheduleOf_of_not _ _ _ _ hnot] at hdue
      exact absurd hdue (calendarOf_ne_relative _ _ _ _ _ _)

/-- The words `1` and `0m` are ten minutes, and their text is no duration. -/
example : isDurationInput (concat ["1", "0m"]) = true ∧
    DurationSeconds.fromStr (join ["1", "0m"]) = some (.error .expectedUnit) := by decide

end

end Atx

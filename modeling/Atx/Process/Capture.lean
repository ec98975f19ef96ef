import Mathlib.Algebra.Group.Nat.Defs
import Mathlib.Data.List.Basic
import Mathlib.Data.Nat.Notation

/-!
# Bounded capture of command output

One stream of a command is read to its end, and its beginning is written to a file. The reader cuts
the stream into pieces, and the writer may take a part of what it is given. The number of bytes that
may be written is counted over all pieces. After a write that fails the rest of the stream is read
and dropped. The counters of the summary saturate.

The reader is the list of its answers. The writer is any state machine, together with the list of
the write calls it was given.

## Main definitions

* `Atx.Capture.Writer`, `Atx.Capture.Reads` — the two ends
* `Atx.Capture.writeLoop`, `readLoop`, `drainStream` — the capture of one stream
* `Atx.Capture.bytesOf`, `afterEnd` — the bytes of a stream, and what is left behind its end

## Main results

* `Atx.Capture.drain_exact_prefix` — what is written, what is read, and what is reported
-/

namespace Atx.Capture

def bufferSize : ℕ := 16 * 1024

/-! ### The budget -/

def usizeMax : ℕ := 2 ^ 64 - 1

def saturatingAdd (a b : ℕ) : ℕ := min (a + b) usizeMax

structure CaptureBudget where
  cap : ℕ
  written : ℕ
  discarded : ℕ
  deriving DecidableEq, Repr

inductive CaptureBudgetError
  | zeroCap
  deriving DecidableEq, Repr

namespace CaptureBudget

def new (cap : ℕ) : Except CaptureBudgetError CaptureBudget :=
  if cap = 0 then .error .zeroCap else .ok ⟨cap, 0, 0⟩

def remaining (budget : CaptureBudget) : ℕ := budget.cap - budget.written

def recordChunk (budget : CaptureBudget) (written consumed : ℕ) : CaptureBudget :=
  { budget with
    written := saturatingAdd budget.written written
    discarded := saturatingAdd budget.discarded (consumed - written) }

end CaptureBudget

/-! ### Writers and readers -/

inductive IoError
  | writeZero
  | other (message : String)
  deriving DecidableEq, Repr

/-- A call of `write`, and what it answered. -/
structure WriteCall where
  data : List UInt8
  answer : Except IoError ℕ

/-- An error, or no byte taken. -/
def WriteCall.failed (call : WriteCall) : Bool :=
  match call.answer with
  | .ok count => count = 0
  | .error _ => true

/-- The bytes the writer took. -/
def WriteCall.taken (call : WriteCall) : List UInt8 :=
  match call.answer with
  | .ok count => call.data.take count
  | .error _ => []

def takenBy (made : List WriteCall) : List UInt8 := made.flatMap WriteCall.taken

/-- A writer, with the calls it was given. It takes no more than it is given. -/
structure Writer (σ : Type) where
  write : List UInt8 → σ → Except IoError ℕ × σ
  flush : σ → Except IoError Unit × σ
  calls : σ → List WriteCall
  bounded : ∀ {data s s' count}, write data s = (.ok count, s') → count ≤ data.length
  logged : ∀ data s, calls (write data s).2 = calls s ++ [⟨data, (write data s).1⟩]
  flushed : ∀ s, calls (flush s).2 = calls s

/-- A piece that fits the buffer. -/
structure Chunk where
  bytes : List UInt8
  fits : bytes.length ≤ bufferSize

/-- The answers of a reader, call by call. Behind them the stream has ended. -/
abbrev Reads := List (Except IoError Chunk)

/-- The pieces up to the end of the stream or the first error. -/
def pieces : Reads → List Chunk
  | .ok chunk :: reads => if chunk.bytes = [] then [] else chunk :: pieces reads
  | _ => []

/-- The bytes of a stream. -/
def bytesOf (reads : Reads) : List UInt8 := (pieces reads).flatMap (·.bytes)

theorem bytesOf_cons {chunk : Chunk} {reads : Reads} (h : chunk.bytes ≠ []) :
    bytesOf (.ok chunk :: reads) = chunk.bytes ++ bytesOf reads := by
  rw [bytesOf, pieces, if_neg h, List.flatMap_cons]
  rfl

/-- What is left when the end of the stream or an error has been read. -/
def afterEnd : Reads → Reads
  | [] => []
  | .error _ :: reads => reads
  | .ok chunk :: reads => if chunk.bytes = [] then reads else afterEnd reads

/-- The error that ends a stream. -/
def readError : Reads → Option IoError
  | [] => none
  | .error e :: _ => some e
  | .ok chunk :: reads => if chunk.bytes = [] then none else readError reads

/-! ### Draining -/

structure StreamCaptureSummary where
  written : ℕ
  discarded : ℕ
  deriving DecidableEq, Repr

def StreamCaptureSummary.truncated (summary : StreamCaptureSummary) : Bool := 0 < summary.discarded

structure CapturedStream (σ : Type) where
  writer : σ
  summary : StreamCaptureSummary
  error : Option IoError

variable {σ : Type}

/-- Write the bytes of the buffer from `written` up to `allowed`. -/
def writeLoop (writer : Writer σ) (buffer : List UInt8) (allowed written : ℕ)
    (firstError : Option IoError) (s : σ) : (ℕ × Option IoError) × σ :=
  if written < allowed then
    match writer.write ((buffer.take allowed).drop written) s with
    | (.ok 0, s') => ((written, some .writeZero), s')
    | (.ok (count + 1), s') =>
      writeLoop writer buffer allowed (written + (count + 1)) firstError s'
    | (.error e, s') => ((written, some e), s')
  else ((written, firstError), s)
termination_by allowed - written

/-- Read to the end of the stream or the first error, and write what is allowed. The buffer keeps
the bytes behind what is read into it. -/
def readLoop (writer : Writer σ) : Reads → List UInt8 → CaptureBudget → Option IoError → σ →
    (CaptureBudget × Option IoError × Reads) × σ
  | [], _, budget, firstError, s => ((budget, firstError, []), s)
  | .error e :: reads, _, budget, _, s => ((budget, some e, reads), s)
  | .ok chunk :: reads, buffer, budget, firstError, s =>
    let read := chunk.bytes.length
    if read = 0 then ((budget, firstError, reads), s)
    else
      let buffer := chunk.bytes ++ buffer.drop read
      let allowed := if firstError.isNone then min budget.remaining read else 0
      let ((written, firstError), s) := writeLoop writer buffer allowed 0 firstError s
      readLoop writer reads buffer (budget.recordChunk written read) firstError s

/-- A flush that fails is reported if nothing else has failed. -/
def orFlush : Option IoError → Except IoError Unit → Option IoError
  | none, .error e => some e
  | firstError, _ => firstError

def drainStream (writer : Writer σ) (reads : Reads) (budget : CaptureBudget) (s : σ) :
    CapturedStream σ × Reads :=
  let ((budget, firstError, rest), s) :=
    readLoop writer reads (List.replicate bufferSize 0) budget none s
  let (flushed, s) := writer.flush s
  (⟨s, ⟨budget.written, budget.discarded⟩, orFlush firstError flushed⟩, rest)

/-! ### One piece -/

/-- No call failed. -/
def Clean (made : List WriteCall) : Prop := ∀ call ∈ made, call.failed = false

/-- The last call failed, and no other did. -/
def FailsLast (made : List WriteCall) : Prop :=
  ∃ before last, made = before ++ [last] ∧ Clean before ∧ last.failed = true

theorem takenBy_append (xs ys : List WriteCall) : takenBy (xs ++ ys) = takenBy xs ++ takenBy ys :=
  List.flatMap_append

theorem Clean.append {xs ys : List WriteCall} (hx : Clean xs) (hy : Clean ys) : Clean (xs ++ ys) :=
  fun call h => (List.mem_append.mp h).elim (hx call) (hy call)

theorem FailsLast.prepend {xs ys : List WriteCall} (hx : Clean xs) (hy : FailsLast ys) :
    FailsLast (xs ++ ys) := by
  obtain ⟨before, last, rfl, hbefore, hlast⟩ := hy
  exact ⟨xs ++ before, last, (List.append_assoc ..).symm, hx.append hbefore, hlast⟩

/-- A call adds to the calls what it was given and what it answered. -/
theorem calls_of_write (writer : Writer σ) {data : List UInt8} {s s' : σ}
    {answer : Except IoError ℕ} (h : writer.write data s = (answer, s')) :
    writer.calls s' = writer.calls s ++ [⟨data, answer⟩] := by
  have hlogged := writer.logged data s
  rwa [h] at hlogged

/-- A part that is cut at its start and at its end, in two steps. -/
theorem drop_take_append {buffer : List UInt8} {allowed written k count : ℕ}
    (hk : written + k ≤ count) (hcount : count ≤ allowed) :
    ((buffer.take allowed).drop written).take k ++ (buffer.take count).drop (written + k) =
      (buffer.take count).drop written := by
  have hfirst : ((buffer.take allowed).drop written).take k =
      ((buffer.take count).drop written).take k := by
    rw [List.drop_take, List.drop_take, List.take_take, List.take_take,
      Nat.min_eq_left (by omega), Nat.min_eq_left (by omega)]
  rw [hfirst, ← List.drop_drop, List.take_append_drop]

/-- **What one piece comes to.** The calls take the bytes from `written` on, as many as are counted.
Either all that are allowed are written, or the last call failed. -/
theorem writeLoop_spec (writer : Writer σ) {buffer : List UInt8} {allowed written : ℕ}
    (firstError : Option IoError) (s : σ) (hle : written ≤ allowed)
    (hbuffer : allowed ≤ buffer.length) :
    ∃ made count e t, writeLoop writer buffer allowed written firstError s = ((count, e), t) ∧
      writer.calls t = writer.calls s ++ made ∧ written ≤ count ∧ count ≤ allowed ∧
      takenBy made = (buffer.take count).drop written ∧
      (count = allowed ∧ e = firstError ∧ Clean made ∨ e ≠ none ∧ FailsLast made) := by
  have hnothing : ∀ n, (buffer.take n).drop n = [] := fun n =>
    List.drop_eq_nil_of_le (List.length_take_le n buffer)
  fun_induction writeLoop writer buffer allowed written firstError s with
  | case1 written s hlt s' hwrite =>
    refine ⟨_, written, _, s', rfl, calls_of_write writer hwrite, Nat.le_refl _, hle, ?_, Or.inr ⟨nofun,
      [], _, rfl, nofun, rfl⟩⟩
    rw [hnothing]
    rfl
  | case2 written s hlt count s' hwrite ih =>
    have hbounded : count + 1 ≤ allowed - written := by
      have hdata := writer.bounded hwrite
      rwa [List.length_drop, List.length_take, Nat.min_eq_left hbuffer] at hdata
    obtain ⟨made, counted, e, t, hloop, hcalls, hlow, hhigh, htaken, hend⟩ := ih (by omega)
    have hclean : Clean [⟨(buffer.take allowed).drop written, .ok (count + 1)⟩] := by
      intro call hcall
      rw [List.mem_singleton.mp hcall]
      rfl
    refine ⟨⟨(buffer.take allowed).drop written, .ok (count + 1)⟩ :: made, counted, e, t, hloop, ?_,
      by omega, hhigh, ?_, ?_⟩
    · rw [hcalls, calls_of_write writer hwrite, List.append_assoc]
      rfl
    · rw [← drop_take_append hlow hhigh, ← htaken]
      rfl
    · obtain ⟨hall, hsame, hmade⟩ | ⟨herror, hmade⟩ := hend
      · exact Or.inl ⟨hall, hsame, hclean.append hmade⟩
      · exact Or.inr ⟨herror, hmade.prepend hclean⟩
  | case3 written s hlt e s' hwrite =>
    refine ⟨_, written, _, s', rfl, calls_of_write writer hwrite, Nat.le_refl _, hle, ?_, Or.inr ⟨nofun,
      [], _, rfl, nofun, rfl⟩⟩
    rw [hnothing]
    rfl
  | case4 written s hlt =>
    obtain rfl : written = allowed := by omega
    refine ⟨[], written, firstError, s, rfl, (List.append_nil _).symm, Nat.le_refl _, Nat.le_refl _, ?_,
      Or.inl ⟨rfl, rfl, nofun⟩⟩
    rw [hnothing]
    rfl

/-- Nothing is written where nothing is allowed. -/
theorem writeLoop_zero (writer : Writer σ) (buffer : List UInt8) (firstError : Option IoError)
    (s : σ) : writeLoop writer buffer 0 0 firstError s = ((0, firstError), s) := by
  rw [writeLoop, if_neg (Nat.lt_irrefl 0)]

/-! ### The whole stream -/

/-- What holds between two pieces: some bytes have been read, and of these the first ones that fit
the cap are written, or a part of them if a write failed. -/
structure Kept (writer : Writer σ) (cap : ℕ) (s₀ : σ) (done : List UInt8) (budget : CaptureBudget)
    (writeError : Option IoError) (s : σ) (made : List WriteCall) : Prop where
  calls : writer.calls s = writer.calls s₀ ++ made
  sameCap : budget.cap = cap
  taken : takenBy made <+: done.take cap
  written : budget.written = (takenBy made).length
  discarded : budget.discarded = min (done.length - budget.written) usizeMax
  ending : writeError = none ∧ Clean made ∧ takenBy made = done.take cap ∨
    writeError ≠ none ∧ FailsLast made

section

variable {writer : Writer σ} {cap : ℕ} {s₀ s : σ} {done : List UInt8} {budget : CaptureBudget}
  {writeError : Option IoError} {made : List WriteCall}

theorem Kept.length_taken (h : Kept writer cap s₀ done budget writeError s made) :
    (takenBy made).length ≤ min cap done.length := by
  have hlength := h.taken.length_le
  rwa [List.length_take] at hlength

/-- The counters after a piece. -/
theorem recordChunk_eq (h : Kept writer cap s₀ done budget writeError s made)
    (hcap : cap ≤ usizeMax) {count read : ℕ} (hcount : count ≤ read)
    (hfits : budget.written + count ≤ cap) :
    (budget.recordChunk count read).written = budget.written + count ∧
      (budget.recordChunk count read).discarded =
        min (done.length + read - (budget.written + count)) usizeMax := by
  have hwritten := h.length_taken
  have hdiscarded := h.discarded
  rw [← h.written] at hwritten
  unfold CaptureBudget.recordChunk saturatingAdd
  exact ⟨Nat.min_eq_left (Nat.le_trans hfits hcap), by simp only [hdiscarded]; omega⟩

/-- **A piece keeps it so.** -/
theorem Kept.piece (h : Kept writer cap s₀ done budget writeError s made) (hcap : cap ≤ usizeMax)
    (chunk rest : List UInt8) :
    ∃ count writeError' s' made', writeLoop writer (chunk ++ rest)
        (if writeError.isNone then min budget.remaining chunk.length else 0) 0 writeError s =
          ((count, writeError'), s') ∧
      Kept writer cap s₀ (done ++ chunk) (budget.recordChunk count chunk.length) writeError' s'
        made' := by
  obtain ⟨rfl, hclean, htaken⟩ | ⟨herror, hfails⟩ := h.ending
  · -- no write has failed: the first bytes of the piece are written, up to the cap
    have hwritten : budget.written = min cap done.length := by
      rw [h.written, htaken, List.length_take]
    have hremaining : budget.remaining = cap - done.length := by
      unfold CaptureBudget.remaining
      rw [h.sameCap, hwritten]
      omega
    obtain ⟨new, count, e, t, hloop, hcalls, -, hcount, hnew, hend⟩ := writeLoop_spec writer none s
      (Nat.zero_le (min budget.remaining chunk.length)) (show _ ≤ (chunk ++ rest).length by
        rw [List.length_append]; omega)
    have hread : count ≤ chunk.length := by omega
    rw [List.drop_zero, List.take_append_of_le_length hread] at hnew
    have htake : (done ++ chunk).take cap = done.take cap ++ chunk.take (cap - done.length) :=
      List.take_append
    obtain ⟨hrecorded, hdropped⟩ := recordChunk_eq h hcap hread (by omega)
    refine ⟨count, e, t, made ++ new, hloop, ⟨?_, h.sameCap, ?_, ?_, ?_, ?_⟩⟩
    · rw [hcalls, h.calls, List.append_assoc]
    · rw [takenBy_append, htaken, hnew, htake, List.prefix_append_right_inj]
      exact List.take_prefix_take_left (by omega)
    · rw [hrecorded, takenBy_append, List.length_append, hnew, List.length_take,
        Nat.min_eq_left hread, h.written]
    · rw [hdropped, hrecorded, List.length_append]
    · obtain ⟨hall, hsame, hmade⟩ | ⟨herror, hmade⟩ := hend
      · refine Or.inl ⟨hsame, hclean.append hmade, ?_⟩
        rw [takenBy_append, htaken, hnew, htake, hall]
        congr 1
        rw [List.take_eq_take_iff, hremaining]
        omega
      · exact Or.inr ⟨herror, hmade.prepend hclean⟩
  · -- a write has failed: nothing more is written
    have hsome : writeError.isNone = false := by
      cases writeError with
      | none => exact absurd rfl herror
      | some e => rfl
    have hfits := h.length_taken
    rw [← h.written] at hfits
    obtain ⟨hrecorded, hdropped⟩ :=
      recordChunk_eq h hcap (Nat.zero_le chunk.length) (by omega : budget.written + 0 ≤ cap)
    rw [hsome]
    refine ⟨0, writeError, s, made, writeLoop_zero .., ⟨h.calls, h.sameCap, ?_, ?_, ?_,
      Or.inr ⟨herror, hfails⟩⟩⟩
    · refine h.taken.trans ?_
      rw [List.take_append]
      exact List.prefix_append _ _
    · rw [hrecorded, Nat.add_zero, h.written]
    · rw [hdropped, hrecorded, List.length_append]

/-- **To the end of the stream** or the first error. -/
theorem Kept.readLoop (h : Kept writer cap s₀ done budget writeError s made) (hcap : cap ≤ usizeMax)
    (reads : Reads) (buffer : List UInt8) :
    ∃ budget' writeError' t made', Capture.readLoop writer reads buffer budget writeError s =
        ((budget', (readError reads).or writeError', afterEnd reads), t) ∧
      Kept writer cap s₀ (done ++ bytesOf reads) budget' writeError' t made' := by
  induction reads generalizing done buffer budget writeError s made with
  | nil =>
    refine ⟨budget, writeError, s, made, rfl, ?_⟩
    rw [show bytesOf [] = [] from rfl, List.append_nil]
    exact h
  | cons answer reads ih =>
    cases answer with
    | error e =>
      refine ⟨budget, writeError, s, made, rfl, ?_⟩
      rw [show bytesOf (.error e :: reads) = [] from rfl, List.append_nil]
      exact h
    | ok chunk =>
      by_cases hend : chunk.bytes = []
      · refine ⟨budget, writeError, s, made, ?_, ?_⟩
        · rw [Capture.readLoop, readError, afterEnd, hend]
          rfl
        · rw [bytesOf, pieces, if_pos hend, List.flatMap_nil, List.append_nil]
          exact h
      · obtain ⟨count, writeError', s', made', hpiece, hkept⟩ :=
          h.piece hcap chunk.bytes (buffer.drop chunk.bytes.length)
        obtain ⟨budget', writeError'', t, made'', hloop, hkept'⟩ :=
          ih hkept (chunk.bytes ++ buffer.drop chunk.bytes.length)
        refine ⟨budget', writeError'', t, made'', ?_, ?_⟩
        · rw [Capture.readLoop, readError, afterEnd, if_neg hend, if_neg hend]
          simp only [List.length_eq_zero_iff, hend, if_false, hpiece]
          exact hloop
        · rw [bytesOf_cons hend, ← List.append_assoc]
          exact hkept'

/-- What draining a stream comes to. -/
theorem drain_kept (writer : Writer σ) (reads : Reads) {cap : ℕ} (hcap : cap ≤ usizeMax) (s : σ) :
    ∃ captured budget writeError t made,
      drainStream writer reads ⟨cap, 0, 0⟩ s = (captured, afterEnd reads) ∧
      Kept writer cap s (bytesOf reads) budget writeError t made ∧
      writer.calls captured.writer = writer.calls t ∧
      captured.summary = ⟨budget.written, budget.discarded⟩ ∧
      (captured.error = none → readError reads = none ∧ writeError = none) := by
  have hstart : Kept writer cap s [] ⟨cap, 0, 0⟩ none s [] :=
    ⟨(List.append_nil _).symm, rfl, List.nil_prefix, rfl, (Nat.zero_min _).symm,
      Or.inl ⟨rfl, nofun, List.take_nil.symm⟩⟩
  obtain ⟨budget, writeError, t, made, hloop, hkept⟩ :=
    hstart.readLoop hcap reads (List.replicate bufferSize 0)
  have hdrain : drainStream writer reads ⟨cap, 0, 0⟩ s =
      (⟨(writer.flush t).2, ⟨budget.written, budget.discarded⟩,
        orFlush ((readError reads).or writeError) (writer.flush t).1⟩, afterEnd reads) := by
    rw [drainStream, hloop]
  refine ⟨_, budget, writeError, t, made, hdrain, hkept, writer.flushed t, rfl, fun hsilent => ?_⟩
  cases hread : readError reads with
  | some e =>
    rw [hread] at hsilent
    cases hsilent
  | none =>
    cases writeError with
    | some e =>
      rw [hread] at hsilent
      cases hsilent
    | none => exact ⟨rfl, rfl⟩

end

/-! ### The exact prefix -/

/-- What was written of a stream is its beginning, and the summary says how much was written and how
much was not. The counter of what was not written stops at the largest number it can hold. -/
structure ExactPrefix (writer : Writer σ) (cap : ℕ) (reads : Reads) (s : σ)
    (captured : CapturedStream σ) (made : List WriteCall) : Prop where
  calls : writer.calls captured.writer = writer.calls s ++ made
  taken : takenBy made <+: bytesOf reads
  capped : (takenBy made).length ≤ cap
  stops : ∀ call ∈ made.dropLast, call.failed = false
  written : captured.summary.written = (takenBy made).length
  discarded : captured.summary.discarded =
    min ((bytesOf reads).length - captured.summary.written) usizeMax
  whole : (∀ call ∈ made, call.failed = false) → takenBy made = (bytesOf reads).take cap ∧
    (captured.summary.truncated = true ↔ cap < (bytesOf reads).length)
  silent : captured.error = none →
    readError reads = none ∧ ∀ call ∈ made, call.failed = false

/-- **Bounded capture keeps an exact prefix.** For every reader, every writer and every cap, the
stream is read to its end or to the first error. What is written is a prefix of the bytes read of at
most the length of the cap, and no call comes after one that failed. The summary reports the number
of bytes the writer took, and with them the number of bytes read, as far as the counter reaches.
Where no call failed, the prefix is the longest that the cap allows, and truncation is reported if
there were more bytes. -/
theorem drain_exact_prefix (writer : Writer σ) (reads : Reads) {cap : ℕ} {budget : CaptureBudget}
    (hnew : CaptureBudget.new cap = .ok budget) (hcap : cap ≤ usizeMax) (s : σ) :
    ∃ captured made, drainStream writer reads budget s = (captured, afterEnd reads) ∧
      ExactPrefix writer cap reads s captured made := by
  obtain rfl : (⟨cap, 0, 0⟩ : CaptureBudget) = budget := by
    unfold CaptureBudget.new at hnew
    split at hnew
    · cases hnew
    · exact Except.ok.inj hnew
  obtain ⟨captured, budget, writeError, t, made, hdrain, hkept, hcalls, hsummary, hsilent⟩ :=
    drain_kept writer reads hcap s
  have hclean : ∀ {made}, FailsLast made → ¬Clean made := by
    rintro _ ⟨before, last, rfl, -, hlast⟩ hclean
    rw [hclean last (List.mem_append_right _ (List.mem_singleton_self last))] at hlast
    cases hlast
  have hwritten : captured.summary.written = (takenBy made).length := by
    rw [hsummary]
    exact hkept.written
  have hdiscarded : captured.summary.discarded =
      min ((bytesOf reads).length - captured.summary.written) usizeMax := by
    rw [hsummary]
    exact hkept.discarded
  refine ⟨captured, made, hdrain, ⟨hcalls.trans hkept.calls, hkept.taken.trans (List.take_prefix _ _),
    Nat.le_trans hkept.length_taken (Nat.min_le_left _ _), ?_, hwritten, hdiscarded, ?_, ?_⟩⟩
  · obtain ⟨-, hmade, -⟩ | ⟨-, before, last, rfl, hbefore, -⟩ := hkept.ending
    · exact fun call hcall => hmade call (List.dropLast_subset _ hcall)
    · rw [List.dropLast_concat]
      exact hbefore
  · intro hmade
    obtain ⟨-, -, htaken⟩ | ⟨-, hfails⟩ := hkept.ending
    · refine ⟨htaken, ?_⟩
      rw [StreamCaptureSummary.truncated, decide_eq_true_eq, hdiscarded, hwritten, htaken,
        List.length_take, usizeMax]
      omega
    · exact absurd hmade (hclean hfails)
  · intro hnone
    obtain ⟨hread, rfl⟩ := hsilent hnone
    obtain ⟨-, hmade, -⟩ | ⟨herror, -⟩ := hkept.ending
    · exact ⟨hread, hmade⟩
    · exact absurd rfl herror

/-- A writer that takes up to a number of bytes at a time, and keeps its calls. -/
def stepWriter (limit : ℕ) : Writer (List WriteCall) where
  write data made :=
    (.ok (min limit data.length), made ++ [⟨data, .ok (min limit data.length)⟩])
  flush made := (.ok (), made)
  calls := id
  bounded h := by
    obtain rfl := Except.ok.inj (Prod.mk.inj h).1
    exact Nat.min_le_right _ _
  logged _ _ := rfl
  flushed _ := rfl

/-- Two pieces of three bytes. -/
def sixBytes : Reads := [.ok ⟨[1, 2, 3], by decide⟩, .ok ⟨[4, 5, 6], by decide⟩]

/-- Six bytes are captured two at a time, up to a cap of five. -/
theorem drain_exact_prefix_five : CaptureBudget.new 5 = .ok ⟨5, 0, 0⟩ ∧ 5 ≤ usizeMax ∧
    ∃ captured made, drainStream (stepWriter 2) sixBytes ⟨5, 0, 0⟩ [] = (captured, []) ∧
      ExactPrefix (stepWriter 2) 5 sixBytes [] captured made :=
  ⟨rfl, by decide, drain_exact_prefix (stepWriter 2) sixBytes rfl (by decide) []⟩

/-! ### A counter that is full -/

def fullChunk : Chunk := ⟨List.replicate bufferSize 0, Nat.le_of_eq List.length_replicate⟩

theorem length_fullChunk : fullChunk.bytes.length = bufferSize := List.length_replicate

/-- A stream of so many full buffers. -/
def fullReads (n : ℕ) : Reads := List.replicate n (.ok fullChunk)

theorem length_bytesOf_fullReads (n : ℕ) : (bytesOf (fullReads n)).length = n * bufferSize := by
  induction n with
  | zero => rfl
  | succ n ih =>
    have hcons : fullReads (n + 1) = .ok fullChunk :: fullReads n := List.replicate_succ
    have hne : fullChunk.bytes ≠ [] := by
      refine List.ne_nil_of_length_pos ?_
      rw [length_fullChunk]
      decide
    rw [hcons, bytesOf_cons hne, List.length_append, length_fullChunk, ih, Nat.succ_mul,
      Nat.add_comm]

/-- Of more bytes than the counter can hold, not all that are discarded are counted. -/
theorem counted_lt_of_full {n : ℕ} (h : 2 ^ 64 < n * bufferSize) :
    (drainStream (stepWriter 1) (fullReads n) ⟨1, 0, 0⟩ []).1.summary.written +
      (drainStream (stepWriter 1) (fullReads n) ⟨1, 0, 0⟩ []).1.summary.discarded <
        (bytesOf (fullReads n)).length := by
  obtain ⟨captured, budget, writeError, t, made, hdrain, hkept, -, hsummary, -⟩ :=
    drain_kept (stepWriter 1) (fullReads n) (by decide : 1 ≤ usizeMax) []
  have hwritten := hkept.length_taken
  have hdiscarded := hkept.discarded
  rw [← hkept.written] at hwritten
  rw [hdrain, hsummary, length_bytesOf_fullReads]
  unfold usizeMax at hdiscarded
  dsimp only
  omega

/-- What is written and what is discarded of `2 ^ 50 + 1` full buffers is reported to be less. -/
theorem discarded_not_counted : CaptureBudget.new 1 = .ok ⟨1, 0, 0⟩ ∧
    (drainStream (stepWriter 1) (fullReads (2 ^ 50 + 1)) ⟨1, 0, 0⟩ []).1.summary.written +
      (drainStream (stepWriter 1) (fullReads (2 ^ 50 + 1)) ⟨1, 0, 0⟩ []).1.summary.discarded ≠
        (bytesOf (fullReads (2 ^ 50 + 1))).length :=
  ⟨rfl, Nat.ne_of_lt (@counted_lt_of_full (2 ^ 50 + 1) (by decide))⟩

end Atx.Capture

import Atx.Domain.Primitives
import Atx.Lib.Ascii
import Atx.Lib.Stream
import Mathlib.Data.List.Forall2

/-!
# Frames on the supervisor's socket

A client and the supervisor exchange messages as length-prefixed JSON: four bytes that say how long
the body is, most significant byte first, and the body. The writer refuses a body over 64 KiB before
it touches the stream; the reader refuses an empty or oversized length before it reads a body, and
reads as many bytes as the length says.

The text of a message is the JSON library's affair. All that is asked of it is that it reads back
what it has written, and that what it writes is not empty.

## Main definitions

* `Atx.IpcMessage`, `Atx.writeFrame`, `Atx.readFrame`
* `Atx.Serde.Lawful` — what the codec relies on

## Main results

* `Atx.readFrame_slice` — what the reader does with any bytes
* `Atx.readFrames_append` — a sequence of frames, and whatever follows it
* `Atx.frame_codec` — round trip, refusal before the first byte, and no read past a frame
-/

namespace Atx

open Stream

inductive IpcMessage
  | wake (protocol : ℕ) (jobId : JobId) (revision : Revision)
  | ack (protocol : ℕ) (jobId : JobId) (revision : Revision)
  | nack (protocol : ℕ) (reason : String)
  | shutdown (protocol : ℕ)
  deriving DecidableEq

/-- The JSON library, as messages go through it. -/
structure Serde where
  toVec : IpcMessage → Except String (List UInt8)
  fromSlice : List UInt8 → Except String IpcMessage

/-- What is written is read back, and is not empty. -/
structure Serde.Lawful (serde : Serde) : Prop where
  roundTrip : ∀ {message body}, serde.toVec message = .ok body →
    serde.fromSlice body = .ok message
  nonempty : ∀ {message body}, serde.toVec message = .ok body → body ≠ []

inductive FrameError
  | frameTooLarge
  | io (error : IoError)
  | json (message : String)
  deriving DecidableEq

def FrameError.message : FrameError → String
  | .frameTooLarge => "IPC frame is empty or too large"
  | .io error => "IPC I/O failed: " ++ error.message
  | .json message => "IPC JSON failed: " ++ message

def maxFrameBytes : ℕ := 64 * 1024

variable {ω ρ : Type} (serde : Serde)

def writeFrame (writer : Writer ω) (message : IpcMessage) (w : ω) : Except FrameError Unit × ω :=
  match serde.toVec message with
  | .error e => (.error (.json e), w)
  | .ok body =>
    if maxFrameBytes < body.length then (.error .frameTooLarge, w)
    -- The length as a 32-bit number.
    else if 2 ^ 32 ≤ body.length then (.error .frameTooLarge, w)
    else match writer.writeAll (toBeBytes 4 body.length) w with
      | (.error e, w) => (.error (.io e), w)
      | (.ok (), w) =>
        match writer.writeAll body w with
        | (.error e, w) => (.error (.io e), w)
        | (.ok (), w) =>
          match writer.flush w with
          | (.error e, w) => (.error (.io e), w)
          | (.ok (), w) => (.ok (), w)

def readFrame (reader : Reader ρ) (r : ρ) : Except FrameError IpcMessage × ρ :=
  match reader.readExact 4 r with
  | (.error e, r) => (.error (.io e), r)
  | (.ok header, r) =>
    let length := fromBeBytes header
    if length = 0 ∨ maxFrameBytes < length then (.error .frameTooLarge, r)
    else match reader.readExact length r with
      | (.error e, r) => (.error (.io e), r)
      | (.ok body, r) => ((serde.fromSlice body).mapError .json, r)

/-- One frame after the other, up to the first that fails. -/
def readFrames (reader : Reader ρ) : ℕ → ρ → Except FrameError (List IpcMessage) × ρ
  | 0, r => (.ok [], r)
  | n + 1, r =>
    match readFrame serde reader r with
    | (.error e, r) => (.error e, r)
    | (.ok message, r) =>
      match readFrames reader n r with
      | (.error e, r) => (.error e, r)
      | (.ok messages, r) => (.ok (message :: messages), r)

/-- The length a frame declares for its body. -/
def declared (bytes : List UInt8) : ℕ := fromBeBytes (bytes.take 4)

/-- The message has a body that fits a frame. -/
def Serde.Fits (message : IpcMessage) : Prop :=
  ∃ body, serde.toVec message = .ok body ∧ body.length ≤ maxFrameBytes

variable {serde} {message : IpcMessage} {body : List UInt8}

/-! ### Writing -/

theorem writeFrame_of_fits (hbody : serde.toVec message = .ok body)
    (hfits : body.length ≤ maxFrameBytes) (written : List UInt8) :
    writeFrame serde vec message written = (.ok (), written ++ (toBeBytes 4 body.length ++ body)) := by
  have hu32 : ¬2 ^ 32 ≤ body.length := by
    have : maxFrameBytes < 2 ^ 32 := by decide
    omega
  rw [writeFrame, hbody]
  dsimp only
  rw [if_neg hfits.not_gt, if_neg hu32, ← List.append_assoc]
  rfl

/-- A body over the limit is refused before the stream is touched, whatever the stream. -/
theorem writeFrame_of_too_large (hbody : serde.toVec message = .ok body)
    (hlarge : maxFrameBytes < body.length) (writer : Writer ω) (w : ω) :
    writeFrame serde writer message w = (.error .frameTooLarge, w) := by
  rw [writeFrame, hbody]
  exact if_pos hlarge

/-! ### Reading -/

/-- **What the reader does with any bytes.** -/
theorem readFrame_slice (bytes : List UInt8) :
    readFrame serde slice bytes =
      if bytes.length < 4 then (.error (.io .unexpectedEof), [])
      else if declared bytes = 0 ∨ maxFrameBytes < declared bytes then
        (.error .frameTooLarge, bytes.drop 4)
      else if bytes.length < 4 + declared bytes then (.error (.io .unexpectedEof), [])
      else ((serde.fromSlice ((bytes.drop 4).take (declared bytes))).mapError .json,
        bytes.drop (4 + declared bytes)) := by
  rw [readFrame]
  by_cases hlen : bytes.length < 4
  · rw [if_pos hlen, slice_short hlen]
  · rw [if_neg hlen, slice_of_le (not_lt.mp hlen)]
    dsimp only
    rw [show fromBeBytes (bytes.take 4) = declared bytes from rfl]
    by_cases hdecl : declared bytes = 0 ∨ maxFrameBytes < declared bytes
    · rw [if_pos hdecl, if_pos hdecl]
    · rw [if_neg hdecl, if_neg hdecl]
      have hdrop : (bytes.drop 4).length = bytes.length - 4 := List.length_drop
      by_cases hshort : bytes.length < 4 + declared bytes
      · rw [if_pos hshort, slice_short (by omega)]
      · rw [if_neg hshort, slice_of_le (by omega)]
        dsimp only
        rw [List.drop_drop]

theorem declared_frame (hfits : body.length ≤ maxFrameBytes) (rest : List UInt8) :
    declared (toBeBytes 4 body.length ++ rest) = body.length := by
  have hlt : body.length < 256 ^ 4 := lt_of_le_of_lt hfits (by decide)
  rw [declared, List.take_left' (length_toBeBytes 4 _), fromBeBytes_toBeBytes hlt]

theorem readFrame_append (h : serde.Lawful) (hbody : serde.toVec message = .ok body)
    (hfits : body.length ≤ maxFrameBytes) (rest : List UInt8) :
    readFrame serde slice (toBeBytes 4 body.length ++ body ++ rest) = (.ok message, rest) := by
  have hpos : body.length ≠ 0 := fun h0 => h.nonempty hbody (List.length_eq_zero_iff.mp h0)
  have hdrop : (toBeBytes 4 body.length ++ (body ++ rest)).drop 4 = body ++ rest :=
    List.drop_left' (length_toBeBytes 4 _)
  rw [List.append_assoc, readFrame_slice, declared_frame hfits, hdrop,
    if_neg (by simp), if_neg (by omega), if_neg (by simp), List.take_left, ← List.drop_drop,
    hdrop, List.drop_left, h.roundTrip hbody]
  rfl

/-- **A sequence of frames** is read back, and what follows it is left. -/
theorem readFrames_append (h : serde.Lawful) {messages : List IpcMessage}
    {outputs : List (List UInt8)}
    (hout : List.Forall₂ (fun message output => serde.Fits message ∧
      writeFrame serde vec message [] = (.ok (), output)) messages outputs) (rest : List UInt8) :
    readFrames serde slice messages.length (outputs.flatten ++ rest) = (.ok messages, rest) := by
  induction hout with
  | nil => rfl
  | @cons message output messages outputs hhead _ ih =>
    obtain ⟨⟨body, hbody, hfits⟩, hwrite⟩ := hhead
    have hwritten : toBeBytes 4 body.length ++ body = output := by
      rw [writeFrame_of_fits hbody hfits, List.nil_append] at hwrite
      exact congrArg Prod.snd hwrite
    rw [List.length_cons, readFrames, List.flatten_cons, List.append_assoc, ← hwritten,
      readFrame_append h hbody hfits]
    dsimp only
    rw [ih]

/-! ### Truncated frames -/

theorem declared_prefix {p bytes : List UInt8} (h : p <+: bytes) (hp : 4 ≤ p.length) :
    declared p = declared bytes := by
  obtain ⟨rest, rfl⟩ := h
  rw [declared, declared, List.take_append_of_le_length hp]

/-- What is accepted to its last byte is a whole frame. -/
theorem length_of_readFrame {bytes : List UInt8}
    (h : readFrame serde slice bytes = (.ok message, [])) : bytes.length = 4 + declared bytes := by
  rw [readFrame_slice] at h
  split_ifs at h with h1 h2 h3
  · cases congrArg Prod.fst h
  · cases congrArg Prod.fst h
  · cases congrArg Prod.fst h
  · have hnil := List.drop_eq_nil_iff.mp (congrArg Prod.snd h)
    omega

theorem readFrame_prefix {p bytes : List UInt8}
    (h : readFrame serde slice bytes = (.ok message, [])) (hp : p <+: bytes) (hne : p ≠ bytes) :
    ∃ e, (readFrame serde slice p).1 = .error e := by
  have hlen : p.length < bytes.length :=
    lt_of_le_of_ne hp.length_le fun he => hne (hp.eq_of_length he)
  have hwhole := length_of_readFrame h
  rw [readFrame_slice]
  split_ifs with h1 h2 h3
  · exact ⟨_, rfl⟩
  · exact ⟨_, rfl⟩
  · exact ⟨_, rfl⟩
  · have := declared_prefix hp (not_lt.mp h1)
    omega

/-- The reader stops at the end of the declared frame or before it. -/
theorem readFrame_consumes (bytes : List UInt8) :
    ∃ n ≤ 4 + declared bytes, (readFrame serde slice bytes).2 = bytes.drop n := by
  rw [readFrame_slice]
  split_ifs with h1 h2 h3
  · exact ⟨4, Nat.le_add_right _ _, (List.drop_eq_nil_of_le (by omega)).symm⟩
  · exact ⟨4, Nat.le_add_right _ _, rfl⟩
  · exact ⟨4 + declared bytes, le_rfl, (List.drop_eq_nil_of_le (by omega)).symm⟩
  · exact ⟨4 + declared bytes, le_rfl, rfl⟩

/-- **The frame codec.** Frames written one after the other are read back, and what follows them is
left; a body over the limit fails before the first byte; and of any bytes the reader takes no more
than the declared frame, refuses a length of zero or over the limit before the body, and accepts no
proper prefix of a frame. -/
theorem frame_codec (serde : Serde) (h : serde.Lawful) :
    (∀ messages : List IpcMessage, (∀ message ∈ messages, serde.Fits message) →
      ∃ outputs : List (List UInt8),
        List.Forall₂ (fun message output => writeFrame serde vec message [] = (.ok (), output))
          messages outputs ∧
        ∀ rest, readFrames serde slice messages.length (outputs.flatten ++ rest)
          = (.ok messages, rest)) ∧
    (∀ (ω : Type) (writer : Writer ω) (w : ω) (message : IpcMessage) (body : List UInt8),
      serde.toVec message = .ok body → maxFrameBytes < body.length →
        writeFrame serde writer message w = (.error .frameTooLarge, w)) ∧
    ∀ bytes : List UInt8,
      (∃ n ≤ 4 + declared bytes, (readFrame serde slice bytes).2 = bytes.drop n) ∧
      (4 ≤ bytes.length → declared bytes = 0 ∨ maxFrameBytes < declared bytes →
        readFrame serde slice bytes = (.error .frameTooLarge, bytes.drop 4)) ∧
      ∀ message, readFrame serde slice bytes = (.ok message, []) →
        ∀ p, p <+: bytes → p ≠ bytes → ∃ e, (readFrame serde slice p).1 = .error e := by
  refine ⟨fun messages hfits => ?_,
    fun _ writer w _ _ hbody hlarge => writeFrame_of_too_large hbody hlarge writer w,
    fun bytes => ⟨readFrame_consumes bytes, fun hlen hdecl => ?_,
      fun _ hread _ hp hne => readFrame_prefix hread hp hne⟩⟩
  · have hout : ∃ outputs : List (List UInt8),
        List.Forall₂ (fun message output => serde.Fits message ∧
          writeFrame serde vec message [] = (.ok (), output)) messages outputs := by
      induction messages with
      | nil => exact ⟨[], .nil⟩
      | cons message messages ih =>
        obtain ⟨outputs, htail⟩ := ih fun m hm => hfits m (List.mem_cons_of_mem _ hm)
        obtain ⟨body, hbody, hle⟩ := hfits message List.mem_cons_self
        exact ⟨_ :: outputs, .cons ⟨⟨body, hbody, hle⟩, writeFrame_of_fits hbody hle []⟩ htail⟩
    obtain ⟨outputs, hout⟩ := hout
    exact ⟨outputs, hout.imp fun _ _ => And.right, readFrames_append h hout⟩
  · rw [readFrame_slice, if_neg (not_lt.mpr hlen), if_pos hdecl]

/-! ### A table of messages -/

/-- A JSON library that knows a few messages. -/
def Serde.ofTable (table : List (IpcMessage × String)) : Serde where
  toVec message := match table.find? fun e => e.1 = message with
    | some e => .ok (Ascii.bytes e.2)
    | none => .error "unknown message"
  fromSlice body := match table.find? fun e => Ascii.bytes e.2 = body with
    | some e => .ok e.1
    | none => .error "unknown text"

theorem Serde.ofTable_lawful {table : List (IpcMessage × String)}
    (h : ∀ e ∈ table, (ofTable table).fromSlice (Ascii.bytes e.2) = .ok e.1 ∧
      Ascii.bytes e.2 ≠ []) : (ofTable table).Lawful := by
  have hfound : ∀ {message body}, (ofTable table).toVec message = .ok body →
      ∃ e ∈ table, e.1 = message ∧ Ascii.bytes e.2 = body := fun {message body} hbody => by
    rw [ofTable] at hbody
    dsimp only at hbody
    split at hbody
    · next e he =>
      exact ⟨e, List.mem_of_find?_eq_some he, by simpa using List.find?_some he,
        Except.ok.inj hbody⟩
    · cases hbody
  refine ⟨fun hbody => ?_, fun hbody => ?_⟩
  · obtain ⟨e, he, rfl, rfl⟩ := hfound hbody
    exact (h e he).1
  · obtain ⟨e, he, rfl, rfl⟩ := hfound hbody
    exact (h e he).2

/-- Three messages of a session, as JSON objects. -/
def sessionTexts : List (IpcMessage × String) :=
  [(.wake 1 ⟨1#128⟩ .seven,
      "\x7b\"type\":\"wake\",\"protocol\":1,\"job_id\":\"00000000000000000000000001\"," ++
        "\"revision\":7\x7d"),
    (.ack 1 ⟨1#128⟩ .seven,
      "\x7b\"type\":\"ack\",\"protocol\":1,\"job_id\":\"00000000000000000000000001\"," ++
        "\"revision\":7\x7d"),
    (.shutdown 1, "\x7b\"type\":\"shutdown\",\"protocol\":1\x7d")]

theorem sessionTexts_lawful : (Serde.ofTable sessionTexts).Lawful :=
  Serde.ofTable_lawful (by decide)

theorem frame_codec_session :
    ∃ outputs : List (List UInt8),
      List.Forall₂ (fun message output =>
        writeFrame (.ofTable sessionTexts) vec message [] = (.ok (), output))
        (sessionTexts.map Prod.fst) outputs ∧
      ∀ rest, readFrames (.ofTable sessionTexts) slice 3 (outputs.flatten ++ rest)
        = (.ok (sessionTexts.map Prod.fst), rest) := by
  refine (frame_codec (.ofTable sessionTexts) sessionTexts_lawful).1 _ fun message hm => ?_
  obtain ⟨e, he, rfl⟩ := List.mem_map.mp hm
  have hbody : ∀ e ∈ sessionTexts, (Serde.ofTable sessionTexts).toVec e.1 = .ok (Ascii.bytes e.2) ∧
      (Ascii.bytes e.2).length ≤ maxFrameBytes := by decide
  exact ⟨_, hbody e he⟩

end Atx

import Mathlib.Algebra.GroupWithZero.Nat
import MiniCoder.Library.Utf8

/-!
# The output of the sandbox

Docker sends the two output streams of a command in one, as frames with a header of eight bytes.
`collectDemuxed` joins the chunks that arrive, walks through the frames and decodes the payload of
each as UTF-8.

* `demux_encodeFrames`: the loop takes the frames apart, wherever the chunks were cut.
* `demuxes_iff`: the two strings are the decodings of the two streams exactly when no character is
  cut by a frame.
-/

open Utf8

namespace MiniCoder

/-! ### The source -/

/-- `Buffer.readUInt32BE`. -/
def readUInt32BE (b₀ b₁ b₂ b₃ : UInt8) : ℕ :=
  ((b₀.toNat * 256 + b₁.toNat) * 256 + b₂.toNat) * 256 + b₃.toNat

/-- The loop of `collectDemuxed`, on the rest of the buffer: it ends where no header is left. -/
def demux (stdout stderr : String) : List UInt8 → String × String
  | streamType :: _ :: _ :: _ :: b₀ :: b₁ :: b₂ :: b₃ :: rest =>
    let length := readUInt32BE b₀ b₁ b₂ b₃
    let payload := String.ofList (decode (rest.take length))
    if streamType = 2 then demux stdout (stderr ++ payload) (rest.drop length)
    else demux (stdout ++ payload) stderr (rest.drop length)
  | _ => (stdout, stderr)
termination_by buf => buf.length
decreasing_by all_goals simp only [List.length_cons, List.length_drop]; omega

/-- `collectDemuxed`, on the chunks that arrived before the end of the stream. -/
def collectDemuxed (chunks : List (List UInt8)) : String × String := demux "" "" chunks.flatten

/-! ### The format -/

/-- The output streams of a command. -/
inductive OutputStream
  | stdout
  | stderr
  deriving DecidableEq, Repr

/-- A frame: its length has to fit into four bytes. -/
structure DockerFrame where
  stream : OutputStream
  payload : List UInt8
  length_lt : payload.length < 2 ^ 32

/-- The first byte of a header. -/
def OutputStream.type : OutputStream → UInt8
  | stdout => 1
  | stderr => 2

/-- Four bytes, the highest first. -/
def bigEndian (n : ℕ) : List UInt8 :=
  [.ofNat (n / 2 ^ 24 % 256), .ofNat (n / 2 ^ 16 % 256), .ofNat (n / 2 ^ 8 % 256), .ofNat (n % 256)]

def DockerFrame.header (frame : DockerFrame) : List UInt8 :=
  frame.stream.type :: 0 :: 0 :: 0 :: bigEndian frame.payload.length

/-- A frame in Docker's format. -/
def DockerFrame.bytes (frame : DockerFrame) : List UInt8 := frame.header ++ frame.payload

def encodeFrames (frames : List DockerFrame) : List UInt8 := frames.flatMap DockerFrame.bytes

/-- The payloads of a stream. -/
def payloads (stream : OutputStream) (frames : List DockerFrame) : List (List UInt8) :=
  (frames.filter (·.stream = stream)).map (·.payload)

/-- The bytes of a stream. -/
def streamBytes (stream : OutputStream) (frames : List DockerFrame) : List UInt8 :=
  (payloads stream frames).flatten

/-- What is present of a stream when the last frame was cut off after some bytes. -/
def presentBytes (stream : OutputStream) (before : List DockerFrame) (last : DockerFrame) (k : ℕ) :
    List UInt8 :=
  streamBytes stream before ++ if last.stream = stream then last.payload.take (k - 8) else []

/-- What the demultiplexing of some frames owes to its caller, for every way to cut them into
chunks. -/
structure Demuxes (frames : List DockerFrame) : Prop where
  whole : ∀ chunks, chunks.flatten = encodeFrames frames →
    collectDemuxed chunks = (String.ofList (decode (streamBytes .stdout frames)),
      String.ofList (decode (streamBytes .stderr frames)))
  /-- The last frame is cut off, in its header or in its payload. -/
  truncated : ∀ before last k chunks, frames = before ++ [last] → k < last.bytes.length →
    chunks.flatten = encodeFrames before ++ last.bytes.take k →
      collectDemuxed chunks = (String.ofList (decode (presentBytes .stdout before last k)),
        String.ofList (decode (presentBytes .stderr before last k)))

/-! ### The loop -/

theorem demux_short {out err : String} {buf : List UInt8} (h : buf.length < 8) :
    demux out err buf = (out, err) := by
  rcases buf with _ | ⟨a, _ | ⟨b, _ | ⟨c, _ | ⟨d, _ | ⟨e, _ | ⟨f, _ | ⟨g, _ | ⟨i, buf⟩⟩⟩⟩⟩⟩⟩⟩
  case cons.cons.cons.cons.cons.cons.cons.cons =>
    simp only [List.length_cons] at h
    omega
  all_goals
    unfold demux
    rfl

theorem readUInt32BE_bigEndian {n : ℕ} (h : n < 2 ^ 32) :
    readUInt32BE (.ofNat (n / 2 ^ 24 % 256)) (.ofNat (n / 2 ^ 16 % 256)) (.ofNat (n / 2 ^ 8 % 256))
      (.ofNat (n % 256)) = n := by
  unfold readUInt32BE
  rw [toNat_ofNat (by omega), toNat_ofNat (by omega), toNat_ofNat (by omega),
    toNat_ofNat (by omega)]
  omega

/-- The text that a frame adds to a stream. -/
def DockerFrame.text (frame : DockerFrame) (stream : OutputStream) (payload : List UInt8) : String :=
  if frame.stream = stream then String.ofList (decode payload) else ""

/-- One round of the loop. -/
theorem demux_header (out err : String) (frame : DockerFrame) (rest : List UInt8) :
    demux out err (frame.header ++ rest) =
      demux (out ++ frame.text .stdout (rest.take frame.payload.length))
        (err ++ frame.text .stderr (rest.take frame.payload.length))
        (rest.drop frame.payload.length) := by
  have hlength := readUInt32BE_bigEndian frame.length_lt
  show demux out err (frame.stream.type :: 0 :: 0 :: 0 :: _ :: _ :: _ :: _ :: rest) = _
  rw [demux, hlength]
  cases hstream : frame.stream with
  | stdout =>
    rw [if_neg (by decide)]
    simp [DockerFrame.text, hstream]
  | stderr =>
    rw [if_pos (by decide)]
    simp [DockerFrame.text, hstream]

/-- The text of a stream, frame by frame. -/
theorem text_append (frame : DockerFrame) (frames : List DockerFrame) (stream : OutputStream) :
    frame.text stream frame.payload ++ String.ofList ((payloads stream frames).flatMap decode) =
      String.ofList ((payloads stream (frame :: frames)).flatMap decode) := by
  unfold DockerFrame.text payloads
  by_cases hstream : frame.stream = stream
  · rw [if_pos hstream, List.filter_cons_of_pos (by simpa using hstream), List.map_cons,
      List.flatMap_cons, String.ofList_append]
  · rw [if_neg hstream, List.filter_cons_of_neg (by simpa using hstream), String.empty_append]

/-- **The loop takes the frames apart.** -/
theorem demux_encodeFrames (out err : String) (frames : List DockerFrame) (rest : List UInt8) :
    demux out err (encodeFrames frames ++ rest) =
      demux (out ++ String.ofList ((payloads .stdout frames).flatMap decode))
        (err ++ String.ofList ((payloads .stderr frames).flatMap decode)) rest := by
  induction frames generalizing out err with
  | nil => simp [encodeFrames, payloads]
  | cons frame frames ih =>
    have hbytes : encodeFrames (frame :: frames) ++ rest =
        frame.header ++ (frame.payload ++ (encodeFrames frames ++ rest)) := by
      simp only [encodeFrames, List.flatMap_cons, DockerFrame.bytes, List.append_assoc]
    rw [hbytes, demux_header, List.take_left, List.drop_left, ih, String.append_assoc,
      String.append_assoc, text_append, text_append]

/-- A frame that was cut off: what is left of its payload is decoded. -/
theorem demux_truncated (out err : String) (frame : DockerFrame) (k : ℕ) :
    demux out err (frame.bytes.take k) = (out ++ frame.text .stdout (frame.payload.take (k - 8)),
      err ++ frame.text .stderr (frame.payload.take (k - 8))) := by
  have hheader : frame.header.length = 8 := rfl
  unfold DockerFrame.bytes
  by_cases hshort : k < 8
  · have hnone : k - 8 = 0 := by omega
    have hempty : ∀ stream, frame.text stream [] = "" := by
      intro stream
      unfold DockerFrame.text
      split <;> rfl
    rw [demux_short (by rw [List.length_take]; omega), hnone, List.take_zero, hempty, hempty,
      String.append_empty, String.append_empty]
  · have hleft : (frame.payload.take (k - 8)).length ≤ frame.payload.length := by
      rw [List.length_take]
      omega
    rw [List.take_append, List.take_of_length_le (by omega), hheader, demux_header,
      List.take_of_length_le hleft, List.drop_eq_nil_of_le hleft, demux_short (by decide)]

/-! ### The streams -/

/-- A payload is of one of the streams. -/
theorem forall_payloads {p : List UInt8 → Prop} {frames : List DockerFrame} :
    (∀ stream, ∀ payload ∈ payloads stream frames, p payload) ↔
      ∀ frame ∈ frames, p frame.payload := by
  constructor
  · intro h frame hframe
    refine h frame.stream _ (List.mem_map.mpr ⟨frame, List.mem_filter.mpr ⟨hframe, ?_⟩, rfl⟩)
    exact decide_eq_true rfl
  · intro h stream payload hpayload
    obtain ⟨frame, hframe, rfl⟩ := List.mem_map.mp hpayload
    exact h frame (List.mem_of_mem_filter hframe)

/-- All of the frames: the two strings, frame by frame. -/
theorem collectDemuxed_encodeFrames {frames : List DockerFrame} {chunks : List (List UInt8)}
    (h : chunks.flatten = encodeFrames frames) :
    collectDemuxed chunks = (String.ofList ((payloads .stdout frames).flatMap decode),
      String.ofList ((payloads .stderr frames).flatMap decode)) := by
  have hloop := demux_encodeFrames "" "" frames []
  have hend : ∀ out err, demux out err [] = (out, err) := fun _ _ => demux_short (by decide)
  rw [List.append_nil, hend, String.empty_append, String.empty_append] at hloop
  rw [collectDemuxed, h, hloop]

/-- Valid frames before one that was cut off: what is present is decoded as a whole. -/
theorem text_present {before : List DockerFrame} (hvalid : ∀ frame ∈ before, Valid frame.payload)
    (last : DockerFrame) (k : ℕ) (stream : OutputStream) :
    String.ofList ((payloads stream before).flatMap decode) ++
        last.text stream (last.payload.take (k - 8)) =
      String.ofList (decode (presentBytes stream before last k)) := by
  have hpayloads := forall_payloads.mpr hvalid stream
  have hbytes : Valid (streamBytes stream before) := valid_flatten hpayloads
  unfold presentBytes DockerFrame.text
  rw [(flatMap_decode_iff hbytes).mpr hpayloads, decode_append hbytes, String.ofList_append]
  split <;> rfl

/-- **The demultiplexing of valid streams** is exact when each frame is valid of its own: no
character is cut by a frame. -/
theorem demuxes_iff {frames : List DockerFrame}
    (hvalid : ∀ stream, Valid (streamBytes stream frames)) :
    Demuxes frames ↔ ∀ frame ∈ frames, Valid frame.payload := by
  constructor
  · rintro ⟨hwhole, -⟩
    have hdecoded := hwhole [encodeFrames frames] (List.append_nil _)
    rw [collectDemuxed_encodeFrames (List.append_nil _)] at hdecoded
    obtain ⟨hout, herr⟩ := Prod.mk.inj hdecoded
    refine forall_payloads.mp fun stream => (flatMap_decode_iff (hvalid stream)).mp ?_
    cases stream with
    | stdout => exact String.ofList_injective hout
    | stderr => exact String.ofList_injective herr
  · intro hframes
    have hpayloads := forall_payloads.mpr hframes
    refine ⟨fun chunks hchunks => ?_, fun before last k chunks hsplit hk hchunks => ?_⟩
    · rw [collectDemuxed_encodeFrames hchunks, (flatMap_decode_iff (hvalid .stdout)).mpr
        (hpayloads .stdout), (flatMap_decode_iff (hvalid .stderr)).mpr (hpayloads .stderr)]
      rfl
    · have hbefore : ∀ frame ∈ before, Valid frame.payload := by
        intro frame hframe
        exact hframes frame (by rw [hsplit]; exact List.mem_append_left _ hframe)
      rw [collectDemuxed, hchunks, demux_encodeFrames, demux_truncated, String.empty_append,
        String.empty_append, text_present hbefore, text_present hbefore]

/-- A character of two bytes, one in each of two frames. -/
def splitFrames : List DockerFrame := [⟨.stdout, [0xC3], by decide⟩, ⟨.stdout, [0xA9], by decide⟩]

/-- Each half of the character is decoded to a replacement character. -/
theorem not_demuxes_splitFrames :
    (∀ stream, Valid (streamBytes stream splitFrames)) ∧ ¬Demuxes splitFrames := by
  have hvalid : ∀ stream, Valid (streamBytes stream splitFrames) := by
    intro stream
    cases stream with
    | stdout => exact ⟨['é'], by decide⟩
    | stderr => exact ⟨[], rfl⟩
  refine ⟨hvalid, fun h => ?_⟩
  have hdecoded := h.whole [encodeFrames splitFrames] (List.append_nil _)
  rw [collectDemuxed_encodeFrames (List.append_nil _)] at hdecoded
  have hout := String.ofList_injective (Prod.mk.inj hdecoded).1
  revert hout
  decide

theorem demuxes_whole :
    Demuxes [⟨.stdout, [0xC3, 0xA9], by decide⟩, ⟨.stderr, [0x21], by decide⟩] := by
  refine (demuxes_iff fun stream => ?_).mpr fun frame hframe => ?_
  · cases stream with
    | stdout => exact ⟨['é'], by decide⟩
    | stderr => exact ⟨['!'], by decide⟩
  · rcases List.mem_cons.mp hframe with rfl | hframe
    · exact ⟨['é'], by decide⟩
    · obtain rfl := List.mem_singleton.mp hframe
      exact ⟨['!'], by decide⟩

end MiniCoder

import Seameet.E2ee.Delivery

/-!
# Clear headers of short frames

The clear header's length is guessed from the codec and the first byte of a frame. It
always fits the trailer. It fits the frame too, unless the frame is cut off within the
header that its first byte announces: the guess looks at the frame's length only to
find out whether the first byte, or the first three, are there.
-/

namespace Seameet.E2ee

/-- A VP8 key frame that is cut off within its ten header bytes, but not before the
third. -/
def CutVP8 (data : List UInt8) : Prop :=
  3 ≤ data.length ∧ data.length < 10 ∧ ∃ byte0 ∈ data.head?, byte0 &&& 0x01 = 0

/-- A VP9 frame of one or two bytes, of an odd profile and without an existing frame to
show. -/
def CutVP9 (data : List UInt8) : Prop :=
  data.length < 3 ∧ ∃ byte0 ∈ data.head?, byte0 >>> 1 &&& 1 ≠ 0 ∧ byte0 >>> 3 &&& 1 = 0

/-- A video frame that is cut off within the clear header it announces. -/
def CutOff (payloadType : Option Nat) (data : List UInt8) (isAudio : Bool) : Prop :=
  isAudio = false ∧
    if 100 ≤ payloadType.getD 0 ∧ payloadType.getD 0 < 110 then CutVP9 data else CutVP8 data

/-- The clear header of a VP8 frame is longer than the frame when it is cut off. -/
theorem getVP8UnencryptedBytes_fits (data : List UInt8) :
    getVP8UnencryptedBytes data ≤ data.length ↔ ¬ CutVP8 data := by
  unfold CutVP8 getVP8UnencryptedBytes
  split
  · next byte0 _ _ _ =>
    by_cases even : byte0 &&& 0x01 = 0
    · simp [even]
    · simp [even]
  · next short =>
    have few : ¬ 3 ≤ data.length := by
      intro three
      rcases data with - | ⟨first, - | ⟨second, - | ⟨third, rest⟩⟩⟩
      · simp at three
      · simp at three
      · simp at three
      · exact short first second third rest rfl
    simp [few]

/-- The clear header of a VP9 frame is longer than the frame when it is cut off. -/
theorem getVP9UnencryptedBytes_fits (data : List UInt8) :
    getVP9UnencryptedBytes data ≤ data.length ↔ ¬ CutVP9 data := by
  cases data with
  | nil => simp [CutVP9, getVP9UnencryptedBytes]
  | cons byte0 rest =>
    unfold CutVP9 getVP9UnencryptedBytes
    by_cases odd : byte0 >>> 1 &&& 1 = 0
    · simp [odd]
    · by_cases plain : byte0 >>> 3 &&& 1 = 0
      · simp [odd, plain]
      · simp [odd, plain]

/-- The clear header fits the frame, and its length the trailer, exactly when the frame
is not cut off; and then, where a key is installed, the frame is encrypted.

There are at most ten clear bytes, and they fit the frame exactly if the codec's header is
not cut off. A frame that they fit is encrypted under the newest entry. -/
theorem clear_header_fits {Raw Chain Key : Type} (primitives : Primitives Raw Chain Key)
    (worker : Worker Chain Key) (participantId : String) (frame : Frame) (isAudio : Bool) :
    (getUnencryptedBytes frame.payloadType frame.data isAudio ≤ frame.data.length ∧
        getUnencryptedBytes frame.payloadType frame.data isAudio < 128 ↔
      ¬ CutOff frame.payloadType frame.data isAudio) ∧
    ((worker.encryptFrame primitives frame participantId isAudio).1.isSome = true ↔
      worker.entriesOf participantId ≠ [] ∧ ¬ CutOff frame.payloadType frame.data isAudio) := by
  have small : getUnencryptedBytes frame.payloadType frame.data isAudio < 128 :=
    Nat.lt_of_le_of_lt (getUnencryptedBytes_le _ _ _) (by decide)
  have fits : getUnencryptedBytes frame.payloadType frame.data isAudio ≤ frame.data.length ↔
      ¬ CutOff frame.payloadType frame.data isAudio := by
    unfold getUnencryptedBytes CutOff
    cases isAudio with
    | true => simp
    | false =>
      by_cases vp9 : 100 ≤ frame.payloadType.getD 0 ∧ frame.payloadType.getD 0 < 110
      · simp [vp9, getVP9UnencryptedBytes_fits]
      · simp [vp9, getVP8UnencryptedBytes_fits]
  refine ⟨by rw [← fits, and_iff_left small], ?_⟩
  rw [← fits]
  have outcome := Worker.encryptFrame_outcome primitives worker frame participantId isAudio
  generalize worker.encryptFrame primitives frame participantId isAudio = result at outcome
  cases outcome with
  | notReady missing => simp [missing]
  | short under => simp [Nat.not_le_of_lt under]
  | encrypted entry codecHeader payload aad newest room cut bound =>
    have installed : worker.entriesOf participantId ≠ [] := by
      intro missing
      rw [missing] at newest
      cases newest
    simp [installed, room]

/-- A VP8 key frame of three bytes: the header is said to be ten bytes long. -/
theorem clear_header_overruns :
    ¬ ∀ payloadType data isAudio, getUnencryptedBytes payloadType data isAudio ≤ data.length ∧
      getUnencryptedBytes payloadType data isAudio < 128 := by
  intro bounded
  exact absurd (bounded (some 96) [0x10, 0x02, 0x00] false).1 (by decide)

end Seameet.E2ee

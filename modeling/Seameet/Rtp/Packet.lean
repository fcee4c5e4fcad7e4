import Seameet.Library.BigEndian

/-!
# RTP packets on the wire

A packet is written as two bytes of bit fields, the sequence number, the
timestamp, the synchronization source, the contributing sources and the payload.
`toBytes` writes whatever the fields say; `fromBytes` checks the length and the
version, and takes the number of contributing sources from the first byte.

The two are inverse to each other between the well-formed packets and the byte
strings that `fromBytes` accepts, so no header bit is lost or invented in either
direction.
-/

namespace Seameet.Rtp

open Library

/-- The errors that packets and codecs construct, with their texts. -/
inductive SeaMeetError where
  | codec (message : String)
  | peerConnection (message : String)
  deriving DecidableEq, Repr

/-- RTP protocol version (always 2). -/
def rtpVersion : UInt8 := 2

/-- Minimum RTP header size in bytes (no CSRC, no extension). -/
def rtpHeaderSize : Nat := 12

/-- Default payload type for audio streams. -/
def ptAudio : UInt8 := 111

/-- Default payload type for video streams. -/
def ptVideo : UInt8 := 96

/-- An RTP packet, every field of which the sender may set. -/
@[ext] structure RtpPacket where
  version : UInt8
  padding : Bool
  extension : Bool
  cc : UInt8
  marker : Bool
  payloadType : UInt8
  sequenceNumber : UInt16
  timestamp : UInt32
  ssrc : UInt32
  csrc : List UInt32
  payload : List UInt8
  deriving DecidableEq, Repr

namespace RtpPacket

/-- Creates a new audio RTP packet. -/
def newAudio (payload : List UInt8) (timestamp ssrc : UInt32) (seq : UInt16) : RtpPacket :=
  { version := rtpVersion, padding := false, extension := false, cc := 0, marker := false,
    payloadType := ptAudio, sequenceNumber := seq, timestamp, ssrc, csrc := [], payload }

/-- Creates a new video RTP packet. -/
def newVideo (payload : List UInt8) (timestamp ssrc : UInt32) (seq : UInt16) (marker : Bool) :
    RtpPacket :=
  { version := rtpVersion, padding := false, extension := false, cc := 0, marker,
    payloadType := ptVideo, sequenceNumber := seq, timestamp, ssrc, csrc := [], payload }

/-- Version, padding, extension and CSRC count, packed as the writer packs them. -/
def firstByte (packet : RtpPacket) : UInt8 :=
  packet.version <<< 6 ||| packet.padding.toUInt8 <<< 5 ||| packet.extension.toUInt8 <<< 4 |||
    packet.cc &&& 0x0F

/-- Marker and payload type, packed as the writer packs them. -/
def secondByte (packet : RtpPacket) : UInt8 :=
  packet.marker.toUInt8 <<< 7 ||| packet.payloadType &&& 0x7F

/-- Serializes this packet into a byte buffer. -/
def toBytes (packet : RtpPacket) : List UInt8 :=
  [packet.firstByte, packet.secondByte]
    ++ BigEndian.encode 2 packet.sequenceNumber.toNat
    ++ BigEndian.encode 4 packet.timestamp.toNat
    ++ BigEndian.encode 4 packet.ssrc.toNat
    ++ packet.csrc.flatMap (fun source => BigEndian.encode 4 source.toNat)
    ++ packet.payload

end RtpPacket

/-- One byte of a buffer. The reader asks only for positions it has checked. -/
def byteAt (buf : List UInt8) (index : Nat) : UInt8 := buf.getD index 0

/-- Two bytes of a buffer, read with `from_be_bytes`. -/
def u16At (buf : List UInt8) (offset : Nat) : UInt16 :=
  UInt16.ofNat (BigEndian.decode [byteAt buf offset, byteAt buf (offset + 1)])

/-- Four bytes of a buffer, read with `from_be_bytes`. -/
def u32At (buf : List UInt8) (offset : Nat) : UInt32 :=
  UInt32.ofNat (BigEndian.decode [byteAt buf offset, byteAt buf (offset + 1),
    byteAt buf (offset + 2), byteAt buf (offset + 3)])

namespace RtpPacket

/-- Parses an RTP packet from a byte slice. -/
def fromBytes (buf : List UInt8) : Except SeaMeetError RtpPacket :=
  if buf.length < rtpHeaderSize then
    .error (.peerConnection "RTP packet too short")
  else
    let version := byteAt buf 0 >>> 6 &&& 0x03
    if version ≠ rtpVersion then
      .error (.peerConnection s!"unsupported RTP version: {version}")
    else
      let padding := byteAt buf 0 >>> 5 &&& 0x01 != 0
      let extension := byteAt buf 0 >>> 4 &&& 0x01 != 0
      let cc := byteAt buf 0 &&& 0x0F
      let marker := byteAt buf 1 >>> 7 &&& 0x01 != 0
      let payloadType := byteAt buf 1 &&& 0x7F
      let sequenceNumber := u16At buf 2
      let timestamp := u32At buf 4
      let ssrc := u32At buf 8
      let csrcEnd := rtpHeaderSize + cc.toNat * 4
      if buf.length < csrcEnd then
        .error (.peerConnection "RTP packet too short for CSRC list")
      else
        let csrc := (List.range cc.toNat).map (fun i => u32At buf (rtpHeaderSize + i * 4))
        let payload := buf.drop csrcEnd
        .ok { version, padding, extension, cc, marker, payloadType, sequenceNumber, timestamp,
              ssrc, csrc, payload }

end RtpPacket

section Reading

variable {buf : List UInt8} {offset : Nat}

/-- Consecutive bytes inside the buffer are a slice of it. -/
theorem byteAt_slice (count : Nat) (inside : offset + count ≤ buf.length) :
    (List.range count).map (fun index => byteAt buf (offset + index)) =
      (buf.drop offset).take count := by
  apply List.ext_getElem
  · simp only [List.length_map, List.length_range, List.length_take, List.length_drop]
    omega
  · intro index below _
    have stored : offset + index < buf.length := by
      simp only [List.length_map, List.length_range] at below
      omega
    simp [byteAt, List.getD_eq_getElem?_getD, stored]

/-- A two-byte read takes the next two bytes of the buffer. -/
theorem encode_u16At (inside : offset + 2 ≤ buf.length) :
    BigEndian.encode 2 (u16At buf offset).toNat = (buf.drop offset).take 2 := by
  have slice : [byteAt buf offset, byteAt buf (offset + 1)] = (buf.drop offset).take 2 :=
    byteAt_slice 2 inside
  have length : ((buf.drop offset).take 2).length = 2 := by
    rw [← slice]
    rfl
  rw [u16At, slice, UInt16.toNat_ofNat_of_lt' (BigEndian.decode_lt length),
    BigEndian.encode_decode_of_length length]

/-- A four-byte read takes the next four bytes of the buffer. -/
theorem encode_u32At (inside : offset + 4 ≤ buf.length) :
    BigEndian.encode 4 (u32At buf offset).toNat = (buf.drop offset).take 4 := by
  have slice : [byteAt buf offset, byteAt buf (offset + 1), byteAt buf (offset + 2),
      byteAt buf (offset + 3)] = (buf.drop offset).take 4 := byteAt_slice 4 inside
  have length : ((buf.drop offset).take 4).length = 4 := by
    rw [← slice]
    rfl
  rw [u32At, slice, UInt32.toNat_ofNat_of_lt' (BigEndian.decode_lt length),
    BigEndian.encode_decode_of_length length]

/-- Reading contributing sources one after the other takes one stretch of the
buffer. The induction is on how many have been read. -/
theorem encode_sources (count : Nat) (inside : offset + count * 4 ≤ buf.length) :
    ((List.range count).map (fun i => u32At buf (offset + i * 4))).flatMap
        (fun source => BigEndian.encode 4 source.toNat) =
      (buf.drop offset).take (count * 4) := by
  induction count with
  | zero => simp
  | succ count inductionHypothesis =>
    have next : BigEndian.encode 4 (u32At buf (offset + count * 4)).toNat =
        ((buf.drop offset).drop (count * 4)).take 4 := by
      rw [encode_u32At (by omega), List.drop_drop]
    rw [List.range_succ, List.map_append, List.flatMap_append, inductionHypothesis (by omega),
      List.map_singleton, List.flatMap_singleton, next, ← List.take_add, Nat.succ_mul]

end Reading

section Writing

/-- A read at the place where a two-byte number was written gives it back. -/
theorem u16At_written (before after : List UInt8) (number : UInt16) :
    u16At (before ++ (BigEndian.encode 2 number.toNat ++ after)) before.length = number := by
  apply UInt16.toNat.inj
  have inside : before.length + 2 ≤
      (before ++ (BigEndian.encode 2 number.toNat ++ after)).length := by
    simp only [List.length_append, BigEndian.encode_length]
    omega
  have read := encode_u16At inside
  rw [List.drop_left, List.take_left' (BigEndian.encode_length 2 _)] at read
  have same := congrArg BigEndian.decode read
  rwa [BigEndian.decode_encode (UInt16.toNat_lt _), BigEndian.decode_encode (UInt16.toNat_lt _)]
    at same

/-- A read at the place where a four-byte number was written gives it back. -/
theorem u32At_written (before after : List UInt8) (number : UInt32) :
    u32At (before ++ (BigEndian.encode 4 number.toNat ++ after)) before.length = number := by
  apply UInt32.toNat.inj
  have inside : before.length + 4 ≤
      (before ++ (BigEndian.encode 4 number.toNat ++ after)).length := by
    simp only [List.length_append, BigEndian.encode_length]
    omega
  have read := encode_u32At inside
  rw [List.drop_left, List.take_left' (BigEndian.encode_length 4 _)] at read
  have same := congrArg BigEndian.decode read
  rwa [BigEndian.decode_encode (UInt32.toNat_lt _), BigEndian.decode_encode (UInt32.toNat_lt _)]
    at same

/-- The contributing sources are read back in order. The induction is on the
sources still to be read, and moves each one over to what stands before them. -/
theorem sources_written (before after : List UInt8) (sources : List UInt32) :
    (List.range sources.length).map (fun i => u32At
      (before ++ (sources.flatMap (fun source => BigEndian.encode 4 source.toNat) ++ after))
      (before.length + i * 4)) = sources := by
  induction sources generalizing before with
  | nil => rfl
  | cons source rest inductionHypothesis =>
    have later := inductionHypothesis (before ++ BigEndian.encode 4 source.toNat)
    rw [List.length_append, BigEndian.encode_length] at later
    rw [List.length_cons, List.range_succ_eq_map, List.map_cons, List.map_map, List.flatMap_cons,
      List.append_assoc, Nat.zero_mul, Nat.add_zero, u32At_written]
    refine congrArg (source :: ·) (Eq.trans ?_ later)
    apply List.map_congr_left
    intro index _
    have place : before.length + Nat.succ index * 4 = before.length + 4 + index * 4 := by omega
    simp only [Function.comp_apply, List.append_assoc, place]

end Writing

section Header

/-- The first byte gives back its four fields. A well-formed packet has version
2 and a four-bit count, so there are 64 bytes to try. -/
theorem first_fields (padding extension : Bool) (cc : UInt8) (fits : cc.toNat ≤ 15) :
    let byte := rtpVersion <<< 6 ||| padding.toUInt8 <<< 5 ||| extension.toUInt8 <<< 4 |||
      cc &&& 0x0F
    byte >>> 6 &&& 0x03 = rtpVersion ∧ (byte >>> 5 &&& 0x01 != 0) = padding ∧
      (byte >>> 4 &&& 0x01 != 0) = extension ∧ byte &&& 0x0F = cc := by
  have finite : ∀ padding extension : Bool, ∀ count : Fin 16,
      let byte := rtpVersion <<< 6 ||| padding.toUInt8 <<< 5 ||| extension.toUInt8 <<< 4 |||
        UInt8.ofNat count.val &&& 0x0F
      byte >>> 6 &&& 0x03 = rtpVersion ∧ (byte >>> 5 &&& 0x01 != 0) = padding ∧
        (byte >>> 4 &&& 0x01 != 0) = extension ∧ byte &&& 0x0F = UInt8.ofNat count.val := by
    decide +kernel
  have found := finite padding extension ⟨cc.toNat, by omega⟩
  simpa only [UInt8.ofNat_toNat] using found

/-- The second byte gives back the marker and a seven-bit payload type. -/
theorem second_fields (marker : Bool) (payloadType : UInt8) (fits : payloadType.toNat < 128) :
    let byte := marker.toUInt8 <<< 7 ||| payloadType &&& 0x7F
    (byte >>> 7 &&& 0x01 != 0) = marker ∧ byte &&& 0x7F = payloadType := by
  have finite : ∀ marker : Bool, ∀ kind : Fin 128,
      let byte := marker.toUInt8 <<< 7 ||| UInt8.ofNat kind.val &&& 0x7F
      (byte >>> 7 &&& 0x01 != 0) = marker ∧ byte &&& 0x7F = UInt8.ofNat kind.val := by
    decide +kernel
  have found := finite marker ⟨payloadType.toNat, fits⟩
  simpa only [UInt8.ofNat_toNat] using found

/-- Packing the fields read from any two bytes gives the two bytes back: the
fields cover every bit. A byte has 256 values. -/
theorem header_whole (byte : UInt8) :
    (byte >>> 6 &&& 0x03) <<< 6 ||| (byte >>> 5 &&& 0x01 != 0).toUInt8 <<< 5 |||
        (byte >>> 4 &&& 0x01 != 0).toUInt8 <<< 4 ||| (byte &&& 0x0F) &&& 0x0F = byte ∧
      ((byte >>> 7 &&& 0x01 != 0).toUInt8 <<< 7 ||| (byte &&& 0x7F) &&& 0x7F) = byte := by
  have finite : ∀ value : Fin 256,
      let byte := UInt8.ofNat value.val
      (byte >>> 6 &&& 0x03) <<< 6 ||| (byte >>> 5 &&& 0x01 != 0).toUInt8 <<< 5 |||
          (byte >>> 4 &&& 0x01 != 0).toUInt8 <<< 4 ||| (byte &&& 0x0F) &&& 0x0F = byte ∧
        ((byte >>> 7 &&& 0x01 != 0).toUInt8 <<< 7 ||| (byte &&& 0x7F) &&& 0x7F) = byte := by
    decide +kernel
  have found := finite ⟨byte.toNat, byte.toNat_lt⟩
  simpa only [UInt8.ofNat_toNat] using found

/-- The fields masked out of a byte keep to the masks. -/
theorem header_bounds (byte : UInt8) :
    (byte &&& 0x0F).toNat ≤ 15 ∧ (byte &&& 0x7F).toNat < 128 := by
  have finite : ∀ value : Fin 256, (UInt8.ofNat value.val &&& 0x0F).toNat ≤ 15 ∧
      (UInt8.ofNat value.val &&& 0x7F).toNat < 128 := by
    decide +kernel
  have found := finite ⟨byte.toNat, byte.toNat_lt⟩
  simpa only [UInt8.ofNat_toNat] using found

end Header

namespace RtpPacket

/-- What the format can carry: version 2, a count that is the number of
contributing sources and fits four bits, and a payload type of seven bits. -/
structure WellFormed (packet : RtpPacket) : Prop where
  version : packet.version = rtpVersion
  counted : packet.cc.toNat = packet.csrc.length
  sources : packet.csrc.length ≤ 15
  kind : packet.payloadType.toNat < 128

/-- What the reader accepts: version 2 in the first byte, and room for the header
and for as many contributing sources as the first byte names. -/
def Accepted (buf : List UInt8) : Prop :=
  rtpHeaderSize ≤ buf.length ∧ byteAt buf 0 >>> 6 &&& 0x03 = rtpVersion ∧
    rtpHeaderSize + 4 * (byteAt buf 0 &&& 0x0F).toNat ≤ buf.length

/-- The packet that the reader builds when no check fails. -/
def parsed (buf : List UInt8) : RtpPacket :=
  { version := byteAt buf 0 >>> 6 &&& 0x03
    padding := byteAt buf 0 >>> 5 &&& 0x01 != 0
    extension := byteAt buf 0 >>> 4 &&& 0x01 != 0
    cc := byteAt buf 0 &&& 0x0F
    marker := byteAt buf 1 >>> 7 &&& 0x01 != 0
    payloadType := byteAt buf 1 &&& 0x7F
    sequenceNumber := u16At buf 2
    timestamp := u32At buf 4
    ssrc := u32At buf 8
    csrc := (List.range (byteAt buf 0 &&& 0x0F).toNat).map
      (fun i => u32At buf (rtpHeaderSize + i * 4))
    payload := buf.drop (rtpHeaderSize + (byteAt buf 0 &&& 0x0F).toNat * 4) }

/-- The four ways through the reader, with the error of each check. -/
inductive ReadOutcome (buf : List UInt8) : Except SeaMeetError RtpPacket → Prop where
  /-- There is no room for the fixed header. -/
  | short (under : buf.length < rtpHeaderSize) :
      ReadOutcome buf (.error (.peerConnection "RTP packet too short"))
  /-- The version bits say something else than 2. -/
  | version (room : rtpHeaderSize ≤ buf.length)
      (other : byteAt buf 0 >>> 6 &&& 0x03 ≠ rtpVersion) :
      ReadOutcome buf (.error (.peerConnection
        s!"unsupported RTP version: {byteAt buf 0 >>> 6 &&& 0x03}"))
  /-- The first byte names more contributing sources than there is room for. -/
  | sources (room : rtpHeaderSize ≤ buf.length)
      (same : byteAt buf 0 >>> 6 &&& 0x03 = rtpVersion)
      (under : buf.length < rtpHeaderSize + (byteAt buf 0 &&& 0x0F).toNat * 4) :
      ReadOutcome buf (.error (.peerConnection "RTP packet too short for CSRC list"))
  /-- Every check passes. -/
  | read (accepted : Accepted buf) : ReadOutcome buf (.ok (parsed buf))

/-- The reader goes one of its four ways. -/
theorem fromBytes_outcome (buf : List UInt8) : ReadOutcome buf (fromBytes buf) := by
  unfold fromBytes
  split
  · next under => exact .short under
  · next under =>
    have room : rtpHeaderSize ≤ buf.length := Nat.le_of_not_lt under
    dsimp only
    split
    · next other => exact .version room other
    · next same =>
      have same := not_not.mp same
      split
      · next short => exact .sources room same short
      · next enough => exact .read ⟨room, same, by omega⟩

/-- The reader accepts exactly the byte strings of the format. -/
theorem fromBytes_eq_ok (buf : List UInt8) (packet : RtpPacket) :
    fromBytes buf = .ok packet ↔ Accepted buf ∧ packet = parsed buf := by
  generalize result : fromBytes buf = outcome
  have out := fromBytes_outcome buf
  rw [result] at out
  cases out with
  | short under =>
    constructor
    · intro impossible
      cases impossible
    · rintro ⟨⟨room, _⟩, _⟩
      omega
  | version room other =>
    constructor
    · intro impossible
      cases impossible
    · rintro ⟨⟨_, same, _⟩, _⟩
      exact absurd same other
  | sources room same under =>
    constructor
    · intro impossible
      cases impossible
    · rintro ⟨⟨_, _, enough⟩, _⟩
      omega
  | read accepted =>
    constructor
    · intro same
      exact ⟨accepted, (Except.ok.inj same).symm⟩
    · rintro ⟨_, rfl⟩
      rfl

/-- What the reader builds is well formed: the masks bound the fields, and the
count is the number of sources read. -/
theorem parsed_wellFormed {buf : List UInt8} (accepted : Accepted buf) :
    (parsed buf).WellFormed := by
  have bounds := header_bounds (byteAt buf 0)
  constructor
  · exact accepted.2.1
  · simp [parsed]
  · simpa [parsed] using bounds.1
  · exact (header_bounds (byteAt buf 1)).2

/-- Writing an accepted packet again gives the bytes it was read from: the header
bytes are whole, and each later field is the next slice of the buffer. -/
theorem toBytes_parsed {buf : List UInt8} (accepted : Accepted buf) :
    (parsed buf).toBytes = buf := by
  obtain ⟨room, -, sources⟩ := accepted
  have length : 12 ≤ buf.length := room
  have advance : ∀ offset width,
      (buf.drop offset).take width ++ buf.drop (offset + width) = buf.drop offset := by
    intro offset width
    rw [← List.drop_drop, List.take_append_drop]
  have first : (parsed buf).firstByte = byteAt buf 0 := (header_whole (byteAt buf 0)).1
  have second : (parsed buf).secondByte = byteAt buf 1 := (header_whole (byteAt buf 1)).2
  have header : [byteAt buf 0, byteAt buf 1] = (buf.drop 0).take 2 := by
    have room : 0 + 2 ≤ buf.length := by omega
    rw [← byteAt_slice 2 room]
    rfl
  have sequence : BigEndian.encode 2 (parsed buf).sequenceNumber.toNat = (buf.drop 2).take 2 :=
    encode_u16At (by omega)
  have timestamp : BigEndian.encode 4 (parsed buf).timestamp.toNat = (buf.drop 4).take 4 :=
    encode_u32At (by omega)
  have ssrc : BigEndian.encode 4 (parsed buf).ssrc.toNat = (buf.drop 8).take 4 :=
    encode_u32At (by omega)
  have csrc : (parsed buf).csrc.flatMap (fun source => BigEndian.encode 4 source.toNat) =
      (buf.drop 12).take ((byteAt buf 0 &&& 0x0F).toNat * 4) :=
    encode_sources _ (by unfold rtpHeaderSize at *; omega)
  have payload : (parsed buf).payload = buf.drop (12 + (byteAt buf 0 &&& 0x0F).toNat * 4) := rfl
  rw [toBytes, first, second, header, sequence, timestamp, ssrc, csrc, payload]
  simp only [List.append_assoc, advance]
  rw [List.drop_zero]

/-- The twelve bytes that every packet starts with. -/
def header (packet : RtpPacket) : List UInt8 :=
  [packet.firstByte, packet.secondByte] ++ (BigEndian.encode 2 packet.sequenceNumber.toNat
    ++ (BigEndian.encode 4 packet.timestamp.toNat ++ BigEndian.encode 4 packet.ssrc.toNat))

/-- The header is as long as the constant. -/
@[simp] theorem header_length (packet : RtpPacket) : packet.header.length = rtpHeaderSize := rfl

/-- A packet is its header, its sources and its payload. -/
theorem toBytes_eq (packet : RtpPacket) :
    packet.toBytes = packet.header ++
      (packet.csrc.flatMap (fun source => BigEndian.encode 4 source.toNat) ++ packet.payload) := by
  simp only [toBytes, header, List.append_assoc]

/-- The length that the writer reserves, from the sources it really writes. -/
theorem toBytes_length (packet : RtpPacket) :
    packet.toBytes.length = rtpHeaderSize + packet.csrc.length * 4 + packet.payload.length := by
  simp only [toBytes_eq, List.length_append, header_length, List.length_flatMap,
    BigEndian.encode_length, List.map_const', List.sum_replicate_nat, Nat.add_assoc]

/-- The three numbers of the header are read where they were written. -/
theorem numbers_toBytes (packet : RtpPacket) :
    u16At packet.toBytes 2 = packet.sequenceNumber ∧ u32At packet.toBytes 4 = packet.timestamp ∧
      u32At packet.toBytes 8 = packet.ssrc := by
  refine ⟨?_, ?_, ?_⟩
  · simpa only [toBytes, List.append_assoc, List.length_cons, List.length_nil] using
      u16At_written [packet.firstByte, packet.secondByte] _ packet.sequenceNumber
  · simpa only [toBytes, List.append_assoc, List.length_append, List.length_cons, List.length_nil,
      BigEndian.encode_length] using
      u32At_written ([packet.firstByte, packet.secondByte]
        ++ BigEndian.encode 2 packet.sequenceNumber.toNat) _ packet.timestamp
  · simpa only [toBytes, List.append_assoc, List.length_append, List.length_cons, List.length_nil,
      BigEndian.encode_length] using
      u32At_written ([packet.firstByte, packet.secondByte]
        ++ (BigEndian.encode 2 packet.sequenceNumber.toNat
          ++ BigEndian.encode 4 packet.timestamp.toNat)) _ packet.ssrc

/-- What follows the header is read back with the count that was written. -/
theorem tail_toBytes (packet : RtpPacket) :
    (List.range packet.csrc.length).map
        (fun i => u32At packet.toBytes (rtpHeaderSize + i * 4)) = packet.csrc ∧
      packet.toBytes.drop (rtpHeaderSize + packet.csrc.length * 4) = packet.payload := by
  constructor
  · have read := sources_written packet.header packet.payload packet.csrc
    rwa [header_length, ← toBytes_eq] at read
  · rw [toBytes_eq, ← List.append_assoc]
    apply List.drop_left'
    simp only [List.length_append, header_length, List.length_flatMap, BigEndian.encode_length,
      List.map_const', List.sum_replicate_nat]

/-- A written packet is accepted, and read back field by field. -/
theorem parsed_toBytes {packet : RtpPacket} (wellFormed : packet.WellFormed) :
    Accepted packet.toBytes ∧ parsed packet.toBytes = packet := by
  obtain ⟨version, counted, few, kind⟩ := wellFormed
  have first : byteAt packet.toBytes 0 = rtpVersion <<< 6 ||| packet.padding.toUInt8 <<< 5 |||
      packet.extension.toUInt8 <<< 4 ||| packet.cc &&& 0x0F := version ▸ rfl
  have second : byteAt packet.toBytes 1 =
      packet.marker.toUInt8 <<< 7 ||| packet.payloadType &&& 0x7F := rfl
  obtain ⟨versionRead, paddingRead, extensionRead, ccRead⟩ :=
    first_fields packet.padding packet.extension packet.cc (by omega)
  obtain ⟨markerRead, kindRead⟩ := second_fields packet.marker packet.payloadType kind
  rw [← first] at versionRead paddingRead extensionRead ccRead
  rw [← second] at markerRead kindRead
  obtain ⟨sequence, timestamp, ssrc⟩ := numbers_toBytes packet
  obtain ⟨sources, payload⟩ := tail_toBytes packet
  constructor
  · refine ⟨?_, versionRead, ?_⟩
    · rw [toBytes_length]
      omega
    · rw [ccRead, counted, toBytes_length]
      omega
  · apply RtpPacket.ext
    · exact versionRead.trans version.symm
    · exact paddingRead
    · exact extensionRead
    · exact ccRead
    · exact markerRead
    · exact kindRead
    · exact sequence
    · exact timestamp
    · exact ssrc
    · simp only [parsed, ccRead, counted]
      exact sources
    · simp only [parsed, ccRead, counted]
      exact payload

/-- Both constructors build packets that survive the wire. -/
theorem new_wellFormed (payload : List UInt8) (timestamp ssrc : UInt32) (seq : UInt16)
    (marker : Bool) : (newAudio payload timestamp ssrc seq).WellFormed ∧
      (newVideo payload timestamp ssrc seq marker).WellFormed := by
  have audio : ptAudio.toNat < 128 := by decide
  have video : ptVideo.toNat < 128 := by decide
  exact ⟨⟨rfl, rfl, Nat.zero_le 15, audio⟩, ⟨rfl, rfl, Nat.zero_le 15, video⟩⟩

/-- A well-formed packet is read back as it was. -/
theorem fromBytes_toBytes {packet : RtpPacket} (wellFormed : packet.WellFormed) :
    fromBytes packet.toBytes = .ok packet := by
  obtain ⟨accepted, same⟩ := parsed_toBytes wellFormed
  exact (fromBytes_eq_ok packet.toBytes packet).mpr ⟨accepted, same.symm⟩

/-- Writing and reading are inverse to each other between the well-formed packets
and the byte strings of the format: a well-formed packet is read back as it was,
a byte string is accepted exactly when its first byte says version 2 and names no
more sources than there is room for, and an accepted byte string is written back
byte for byte.

Reading is written out as the list of checks it makes. Either direction then takes the
header field by field, with the big-endian bytes going both ways. -/
theorem codec_bijective :
    (∀ packet : RtpPacket, packet.WellFormed → fromBytes packet.toBytes = .ok packet) ∧
      (∀ buf, (∃ packet, fromBytes buf = .ok packet) ↔ Accepted buf) ∧
      (∀ buf packet, fromBytes buf = .ok packet → packet.WellFormed ∧ packet.toBytes = buf) := by
  refine ⟨?_, ?_, ?_⟩
  · exact fun packet wellFormed => fromBytes_toBytes wellFormed
  · intro buf
    constructor
    · rintro ⟨packet, result⟩
      exact ((fromBytes_eq_ok buf packet).mp result).1
    · intro accepted
      exact ⟨parsed buf, (fromBytes_eq_ok buf (parsed buf)).mpr ⟨accepted, rfl⟩⟩
  · intro buf packet result
    obtain ⟨accepted, rfl⟩ := (fromBytes_eq_ok buf packet).mp result
    exact ⟨parsed_wellFormed accepted, toBytes_parsed accepted⟩

/-- A packet with two contributing sources goes over the wire and back. -/
theorem codec_bijective_instance :
    let packet : RtpPacket := { newAudio [0xFF] 320 1 10 with cc := 2, csrc := [100, 200] }
    fromBytes packet.toBytes = .ok packet :=
  codec_bijective.1 _ ⟨rfl, rfl, by decide, by decide⟩

end RtpPacket

end Seameet.Rtp

import Mathlib.Algebra.Ring.Nat
import Mathlib.Data.List.Basic
import Seameet.Rtp.Packet

/-!
# RTCP packets

Four kinds of control packets are written and read. Unlike an RTP packet, an RTCP
packet carries its own length, counted in 32-bit words: the writer computes it in
sixteen bits, and the reader takes the extent of a NACK's loss list from it.

Indexing, slicing and checked addition may panic, so both functions return which
of the two ways they ended when they do not return a value.
-/

namespace Seameet.Rtp

open Library

/-- How a call ends without a value. -/
inductive Halt where
  /-- An index or a slice is out of range, or an addition overflows. -/
  | panicked
  /-- The caller receives the error. -/
  | returned (error : SeaMeetError)
  deriving DecidableEq, Repr

/-- One byte of a slice, with the bounds check of the language. -/
def index (buf : List UInt8) (position : Nat) : Except Halt UInt8 :=
  if within : position < buf.length then .ok buf[position] else .error .panicked

/-- A slice of a slice, with the bounds checks of the language. -/
def slice (buf : List UInt8) (start stop : Nat) : Except Halt (List UInt8) :=
  if start ≤ stop ∧ stop ≤ buf.length then .ok ((buf.take stop).drop start) else .error .panicked

/-- Addition of sixteen-bit numbers, with the overflow check of the language. -/
def addU16 (left right : UInt16) : Except Halt UInt16 :=
  if left.toNat + right.toNat < 65536 then .ok (left + right) else .error .panicked

/-- An error for the caller. -/
def refuse {α : Type} (message : String) : Except Halt α :=
  .error (.returned (.peerConnection message))

/-- Two bytes at a position, read with `from_be_bytes`. -/
def readU16 (buf : List UInt8) (position : Nat) : Except Halt UInt16 := do
  let high ← index buf position
  let low ← index buf (position + 1)
  return UInt16.ofNat (BigEndian.decode [high, low])

/-- Four bytes at a position, read with `from_be_bytes`. -/
def readU32 (buf : List UInt8) (position : Nat) : Except Halt UInt32 := do
  let first ← index buf position
  let second ← index buf (position + 1)
  let third ← index buf (position + 2)
  let fourth ← index buf (position + 3)
  return UInt32.ofNat (BigEndian.decode [first, second, third, fourth])

/-- RTCP packet type of a sender report. -/
def rtcpSr : UInt8 := 200

/-- RTCP packet type of a receiver report. -/
def rtcpRr : UInt8 := 201

/-- RTCP transport-layer feedback. -/
def rtcpRtpfb : UInt8 := 205

/-- RTCP payload-specific feedback. -/
def rtcpPsfb : UInt8 := 206

/-- FMT value for generic NACK. -/
def nackFmt : UInt8 := 1

/-- FMT value for PLI. -/
def pliFmt : UInt8 := 1

/-- Minimal RTCP packet representations. -/
inductive RtcpPacket where
  | senderReport (ssrc : UInt32)
  | receiverReport (ssrc : UInt32)
  /-- Generic NACK, with the sequence numbers of the lost packets. -/
  | nack (ssrc : UInt32) (lostPackets : List UInt16)
  /-- Picture Loss Indication. -/
  | pli (ssrc : UInt32)
  deriving DecidableEq, Repr

namespace RtcpPacket

/-- Serializes this RTCP packet into a byte buffer. A lost packet takes one entry
of its own, with an empty bit mask. -/
def toBytes : RtcpPacket → Except Halt (List UInt8)
  | senderReport ssrc =>
    .ok ([0x80, rtcpSr] ++ BigEndian.encode 2 1 ++ BigEndian.encode 4 ssrc.toNat)
  | receiverReport ssrc =>
    .ok ([0x80, rtcpRr] ++ BigEndian.encode 2 1 ++ BigEndian.encode 4 ssrc.toNat)
  | nack ssrc lostPackets => do
    let length ← addU16 2 (UInt16.ofNat lostPackets.length)
    return [0x80 ||| nackFmt, rtcpRtpfb] ++ BigEndian.encode 2 length.toNat ++ BigEndian.encode 4 0
      ++ BigEndian.encode 4 ssrc.toNat
      ++ lostPackets.flatMap (fun seq => BigEndian.encode 2 seq.toNat ++ BigEndian.encode 2 0)
  | pli ssrc =>
    .ok ([0x80 ||| pliFmt, rtcpPsfb] ++ BigEndian.encode 2 2 ++ BigEndian.encode 4 0
      ++ BigEndian.encode 4 ssrc.toNat)

end RtcpPacket

/-- Bit k of the mask set means that the packet k + 1 after this one is lost too. -/
def maskedLosses (pid blp : UInt16) : List UInt16 :=
  ((List.range 16).filter (fun bit => blp &&& (1 <<< UInt16.ofNat bit) != 0)).map
    (fun bit => pid + UInt16.ofNat (bit + 1))

/-- The loop over the entries of a NACK, from a byte position on. -/
def nackLoop (fciBytes : List UInt8) (position : Nat) (lostPackets : List UInt16) :
    Except Halt (List UInt16) :=
  if position + 3 < fciBytes.length + 1 ∧ position + 1 < fciBytes.length then do
    let pid ← readU16 fciBytes position
    let blp ← readU16 fciBytes (position + 2)
    nackLoop fciBytes (position + 4) (lostPackets ++ [pid] ++ maskedLosses pid blp)
  else
    .ok lostPackets
termination_by fciBytes.length - position

namespace RtcpPacket

/-- Parses an RTCP packet from a byte slice. -/
def fromBytes (buf : List UInt8) : Except Halt RtcpPacket :=
  if buf.length < 8 then
    refuse "RTCP packet too short"
  else do
    let version := (← index buf 0) >>> 6 &&& 0x03
    if version ≠ 2 then
      refuse s!"unsupported RTCP version: {version}"
    else do
      let fmt := (← index buf 0) &&& 0x1F
      let pt ← index buf 1
      let lengthWords ← readU16 buf 2
      let expectedLen := (lengthWords.toNat + 1) * 4
      if buf.length < expectedLen then
        refuse "RTCP packet truncated"
      else if pt = rtcpSr then do
        let ssrc ← readU32 buf 4
        return senderReport ssrc
      else if pt = rtcpRr then do
        let ssrc ← readU32 buf 4
        return receiverReport ssrc
      else if pt = rtcpRtpfb ∧ fmt = nackFmt then
        if buf.length < 12 then
          refuse "NACK packet too short"
        else do
          let ssrc ← readU32 buf 8
          let fciBytes ← slice buf 12 expectedLen
          let lostPackets ← nackLoop fciBytes 0 []
          return nack ssrc lostPackets
      else if pt = rtcpPsfb ∧ fmt = pliFmt then
        if buf.length < 12 then
          refuse "PLI packet too short"
        else do
          let ssrc ← readU32 buf 8
          return pli ssrc
      else
        refuse s!"unsupported RTCP packet type: {pt} fmt: {fmt}"

end RtcpPacket

section Reading

variable {buf : List UInt8} (position : Nat)

/-- A read inside the buffer finds the byte there. -/
theorem index_within (within : position < buf.length) :
    index buf position = .ok (byteAt buf position) := by
  have found : byteAt buf position = buf[position] := by
    simp [byteAt, List.getD_eq_getElem?_getD, within]
  rw [index, dif_pos within, found]

/-- A two-byte read inside the buffer. -/
theorem readU16_within (within : position + 2 ≤ buf.length) :
    readU16 buf position = .ok (u16At buf position) := by
  rw [readU16, index_within _ (by omega), index_within _ (by omega)]
  rfl

/-- A four-byte read inside the buffer. -/
theorem readU32_within (within : position + 4 ≤ buf.length) :
    readU32 buf position = .ok (u32At buf position) := by
  rw [readU32, index_within _ (by omega), index_within _ (by omega), index_within _ (by omega),
    index_within _ (by omega)]
  rfl

/-- A byte of a slice is a byte of the buffer. -/
theorem byteAt_slice_from {start stop : Nat} (within : start + position < stop) :
    byteAt ((buf.take stop).drop start) position = byteAt buf (start + position) := by
  simp only [byteAt, List.getD_eq_getElem?_getD, List.getElem?_drop,
    List.getElem?_take_of_lt within]

end Reading

/-- The losses that one entry reports: the packet it names, then its mask. -/
def entryLosses (buf : List UInt8) (offset : Nat) : List UInt16 :=
  u16At buf offset :: maskedLosses (u16At buf offset) (u16At buf (offset + 2))

/-- Over whole entries the loop reads inside its slice, and reports the entries
in order. The induction is on how many are left. -/
theorem nackLoop_entries (fciBytes : List UInt8) (left : Nat) : ∀ position lostPackets,
    fciBytes.length = position + left * 4 →
      nackLoop fciBytes position lostPackets = .ok (lostPackets ++
        (List.range left).flatMap (fun entry => entryLosses fciBytes (position + entry * 4))) := by
  induction left with
  | zero =>
    intro position lostPackets whole
    rw [nackLoop, if_neg (by omega)]
    simp
  | succ left inductionHypothesis =>
    intro position lostPackets whole
    have later := inductionHypothesis (position + 4)
      (lostPackets ++ [u16At fciBytes position] ++
        maskedLosses (u16At fciBytes position) (u16At fciBytes (position + 2))) (by omega)
    have shifted : (fun entry => entryLosses fciBytes (position + 4 + entry * 4)) =
        fun entry => entryLosses fciBytes (position + Nat.succ entry * 4) := by
      funext entry
      have place : position + 4 + entry * 4 = position + Nat.succ entry * 4 := by omega
      rw [place]
    rw [nackLoop, if_pos (by omega), readU16_within _ (by omega), readU16_within _ (by omega)]
    refine Eq.trans later ?_
    rw [shifted, List.range_succ_eq_map, List.flatMap_cons, List.flatMap_map, Nat.zero_mul,
      Nat.add_zero, List.append_assoc, List.append_assoc]
    rfl

namespace RtcpPacket

/-- The extent that the header declares, in bytes. -/
def declared (buf : List UInt8) : Nat := ((u16At buf 2).toNat + 1) * 4

/-- How many entries a NACK of the declared extent has. -/
def entries (buf : List UInt8) : Nat := (declared buf - 12) / 4

/-- The packet passes the checks up to the choice of a kind. -/
structure Framed (buf : List UInt8) : Prop where
  room : 8 ≤ buf.length
  version : byteAt buf 0 >>> 6 &&& 0x03 = 2
  extent : declared buf ≤ buf.length

/-- The two header fields that choose the NACK branch. -/
def NamesNack (buf : List UInt8) : Prop :=
  byteAt buf 1 = rtcpRtpfb ∧ byteAt buf 0 &&& 0x1F = nackFmt

/-- The two header fields that choose the PLI branch. -/
def NamesPli (buf : List UInt8) : Prop :=
  byteAt buf 1 = rtcpPsfb ∧ byteAt buf 0 &&& 0x1F = pliFmt

/-- The packet names one of the four kinds, and the feedback kinds have their room. -/
def Named (buf : List UInt8) : Prop :=
  byteAt buf 1 = rtcpSr ∨ byteAt buf 1 = rtcpRr ∨
    (12 ≤ buf.length ∧ (NamesNack buf ∨ NamesPli buf))

/-- A NACK whose declared extent ends before its loss list begins. -/
structure Inverted (buf : List UInt8) : Prop where
  room : 12 ≤ buf.length
  version : byteAt buf 0 >>> 6 &&& 0x03 = 2
  names : NamesNack buf
  short : (u16At buf 2).toNat < 2

/-- Such a packet passes every check. -/
theorem Inverted.framed {buf : List UInt8} (inverted : Inverted buf) : Framed buf := by
  have room := inverted.room
  have short := inverted.short
  refine ⟨by omega, inverted.version, ?_⟩
  unfold declared
  omega

/-- The ways through the reader. -/
inductive ReadOutcome (buf : List UInt8) : Except Halt RtcpPacket → Prop where
  /-- A check fails, and the caller is told which. -/
  | refused (error : SeaMeetError) (refuses : ¬ (Framed buf ∧ Named buf)) :
      ReadOutcome buf (.error (.returned error))
  | senderReport (framed : Framed buf) (kind : byteAt buf 1 = rtcpSr) :
      ReadOutcome buf (.ok (senderReport (u32At buf 4)))
  | receiverReport (framed : Framed buf) (kind : byteAt buf 1 = rtcpRr) :
      ReadOutcome buf (.ok (receiverReport (u32At buf 4)))
  /-- A NACK, whose entries are all read. -/
  | nack (framed : Framed buf) (names : NamesNack buf) (whole : 2 ≤ (u16At buf 2).toNat) :
      ReadOutcome buf (.ok (nack (u32At buf 8) ((List.range (entries buf)).flatMap
        (fun entry => entryLosses buf (12 + entry * 4)))))
  | pli (framed : Framed buf) (names : NamesPli buf) :
      ReadOutcome buf (.ok (pli (u32At buf 8)))
  /-- The loss list would end before it begins. -/
  | inverted (inverted : Inverted buf) : ReadOutcome buf (.error .panicked)

/-- An entry of the loss list is an entry of the buffer. -/
theorem entryLosses_slice {buf : List UInt8} {stop offset : Nat} (within : 12 + offset + 4 ≤ stop) :
    entryLosses ((buf.take stop).drop 12) offset = entryLosses buf (12 + offset) := by
  have same : ∀ position, position < 4 →
      byteAt ((buf.take stop).drop 12) (offset + position) = byteAt buf (12 + offset + position) := by
    intro position below
    rw [byteAt_slice_from _ (by omega), Nat.add_assoc]
  have bytes := And.intro (same 0 (by omega)) (And.intro (same 1 (by omega))
    (And.intro (same 2 (by omega)) (same 3 (by omega))))
  simp only [Nat.add_zero] at bytes
  obtain ⟨first, second, third, fourth⟩ := bytes
  simp only [entryLosses, u16At, first, second, third, fourth, Nat.add_assoc]

/-- The loss list of a NACK that declares room for it is read inside its slice. -/
theorem lossList_read {buf : List UInt8} (framed : Framed buf) (whole : 2 ≤ (u16At buf 2).toNat) :
    slice buf 12 (declared buf) = .ok ((buf.take (declared buf)).drop 12) ∧
      nackLoop ((buf.take (declared buf)).drop 12) 0 [] =
        .ok ((List.range (entries buf)).flatMap (fun entry => entryLosses buf (12 + entry * 4))) := by
  have inside : 12 ≤ declared buf ∧ declared buf ≤ buf.length := by
    refine ⟨?_, framed.extent⟩
    unfold declared
    omega
  have length : ((buf.take (declared buf)).drop 12).length = 0 + entries buf * 4 := by
    rw [List.length_drop, List.length_take, Nat.min_eq_left inside.2]
    unfold entries declared
    omega
  have losses : (List.range (entries buf)).flatMap (fun entry =>
      entryLosses ((buf.take (declared buf)).drop 12) (0 + entry * 4)) =
      (List.range (entries buf)).flatMap (fun entry => entryLosses buf (12 + entry * 4)) := by
    apply List.flatMap_congr
    intro entry member
    have below := List.mem_range.mp member
    rw [Nat.zero_add]
    apply entryLosses_slice
    unfold entries declared at below
    unfold declared
    omega
  refine ⟨if_pos inside, ?_⟩
  rw [nackLoop_entries _ _ 0 [] length, List.nil_append, losses]

/-- The slice of a NACK that declares no room for its loss list is out of range. -/
theorem lossList_inverted {buf : List UInt8} (short : (u16At buf 2).toNat < 2) :
    slice buf 12 (declared buf) = .error .panicked := by
  have outside : ¬ (12 ≤ declared buf ∧ declared buf ≤ buf.length) := by
    unfold declared
    omega
  exact if_neg outside

/-- The reader goes one of its ways. -/
theorem fromBytes_outcome (buf : List UInt8) : ReadOutcome buf (fromBytes buf) := by
  unfold fromBytes
  split
  · next under =>
    refine .refused _ fun accepted => ?_
    have room := accepted.1.room
    omega
  · next under =>
    have room : 8 ≤ buf.length := Nat.le_of_not_lt under
    rw [index_within 0 (by omega), index_within 1 (by omega),
      readU16_within 2 (by omega)]
    dsimp only [bind, Except.bind]
    split
    · next other => exact .refused _ fun accepted => other accepted.1.version
    · next same =>
      have version := not_not.mp same
      split
      · next beyond =>
        refine .refused _ fun accepted => ?_
        exact absurd accepted.1.extent (Nat.not_le_of_lt beyond)
      · next enough =>
        have framed : Framed buf := ⟨room, version, Nat.le_of_not_lt enough⟩
        split
        · next kind =>
          rw [readU32_within _ (by omega)]
          exact .senderReport framed kind
        · next notSr =>
          split
          · next kind =>
            rw [readU32_within _ (by omega)]
            exact .receiverReport framed kind
          · next notRr =>
            split
            · next names =>
              split
              · next short =>
                refine .refused _ fun accepted => ?_
                rcases accepted.2 with sr | rr | ⟨header, _⟩
                · exact notSr sr
                · exact notRr rr
                · omega
              · next enough =>
                have header : 12 ≤ buf.length := Nat.le_of_not_lt enough
                rw [readU32_within _ (by omega)]
                by_cases short : (u16At buf 2).toNat < 2
                · show ReadOutcome buf (slice buf 12 (declared buf) >>= _)
                  rw [lossList_inverted short]
                  exact .inverted ⟨header, version, names, short⟩
                · have whole : 2 ≤ (u16At buf 2).toNat := Nat.le_of_not_lt short
                  obtain ⟨sliced, read⟩ := lossList_read framed whole
                  show ReadOutcome buf (slice buf 12 (declared buf) >>= _)
                  rw [sliced]
                  show ReadOutcome buf (nackLoop ((buf.take (declared buf)).drop 12) 0 [] >>= _)
                  rw [read]
                  exact .nack framed names whole
            · next notNack =>
              split
              · next names =>
                split
                · next short =>
                  refine .refused _ fun accepted => ?_
                  rcases accepted.2 with sr | rr | ⟨header, _⟩
                  · exact notSr sr
                  · exact notRr rr
                  · omega
                · next enough =>
                  rw [readU32_within _ (by omega)]
                  exact .pli framed names
              · next notPli =>
                refine .refused _ fun accepted => ?_
                rcases accepted.2 with sr | rr | ⟨_, names | names⟩
                · exact notSr sr
                · exact notRr rr
                · exact notNack names
                · exact notPli names

/-- The reader panics on exactly one kind of buffer: a NACK of at least twelve bytes
whose header declares fewer. Every other buffer of any length is read inside its
bounds.

The outcomes of the reader are a relation with one case for each way it may end. The one
that reads out of bounds is told from the others by the header. -/
theorem fromBytes_safe_iff (buf : List UInt8) :
    fromBytes buf ≠ .error .panicked ↔ ¬ Inverted buf := by
  generalize result : fromBytes buf = outcome
  have out := fromBytes_outcome buf
  rw [result] at out
  cases out with
  | refused error refuses =>
    refine ⟨fun _ inverted => refuses ⟨inverted.framed, ?_⟩, fun _ => nofun⟩
    exact .inr (.inr ⟨inverted.room, .inl inverted.names⟩)
  | senderReport framed kind =>
    refine ⟨fun _ inverted => ?_, fun _ => nofun⟩
    exact absurd (kind.symm.trans inverted.names.1) (by decide)
  | receiverReport framed kind =>
    refine ⟨fun _ inverted => ?_, fun _ => nofun⟩
    exact absurd (kind.symm.trans inverted.names.1) (by decide)
  | nack framed names whole =>
    refine ⟨fun _ inverted => ?_, fun _ => nofun⟩
    exact absurd inverted.short (Nat.not_lt_of_le whole)
  | pli framed names =>
    refine ⟨fun _ inverted => ?_, fun _ => nofun⟩
    exact absurd (names.1.symm.trans inverted.names.1) (by decide)
  | inverted inverted => exact ⟨fun safe => absurd rfl safe, fun regular => absurd inverted regular⟩

/-- A NACK of twelve bytes whose length field says two words in all. -/
theorem fromBytes_panics :
    fromBytes [0x81, 205, 0, 1, 0, 0, 0, 0, 0, 0, 0, 0] = .error .panicked := by
  rfl

section Written

/-- The entry that the writer makes of a lost packet. -/
def entryBytes (seq : UInt16) : List UInt8 := BigEndian.encode 2 seq.toNat ++ BigEndian.encode 2 0

/-- The twelve bytes before the entries of a NACK. -/
def nackHeader (ssrc : UInt32) (length : UInt16) : List UInt8 :=
  [0x80 ||| nackFmt, rtcpRtpfb] ++ (BigEndian.encode 2 length.toNat ++ (BigEndian.encode 4 0 ++
    BigEndian.encode 4 ssrc.toNat))

/-- An entry takes four bytes. -/
@[simp] theorem entryBytes_length (seq : UInt16) : (entryBytes seq).length = 4 := rfl

/-- The head of a report takes twelve bytes. -/
@[simp] theorem nackHeader_length (ssrc : UInt32) (length : UInt16) :
    (nackHeader ssrc length).length = 12 := rfl

/-- An empty mask reports nothing. -/
theorem maskedLosses_zero (pid : UInt16) : maskedLosses pid 0 = [] := by
  simp [maskedLosses]

/-- An entry is read back as the one packet it was written for. -/
theorem entryLosses_written (before after : List UInt8) (seq : UInt16) :
    entryLosses (before ++ (entryBytes seq ++ after)) before.length = [seq] := by
  have pid : u16At (before ++ (entryBytes seq ++ after)) before.length = seq := by
    rw [entryBytes, List.append_assoc]
    exact u16At_written before _ seq
  have blp : u16At (before ++ (entryBytes seq ++ after)) (before.length + 2) = 0 := by
    have read := u16At_written (before ++ BigEndian.encode 2 seq.toNat) after 0
    rw [List.length_append, BigEndian.encode_length] at read
    rwa [entryBytes, List.append_assoc, ← List.append_assoc before]
  rw [entryLosses, pid, blp, maskedLosses_zero]

/-- The entries are read back in order, as many as are asked for. The induction is on
the lost packets, and moves each one over to what stands before them. -/
theorem entries_written (before after : List UInt8) (lost : List UInt16) (count : Nat)
    (within : count ≤ lost.length) :
    (List.range count).flatMap (fun entry => entryLosses
      (before ++ (lost.flatMap entryBytes ++ after)) (before.length + entry * 4)) =
      lost.take count := by
  induction lost generalizing before count with
  | nil =>
    obtain rfl : count = 0 := Nat.le_zero.mp within
    rfl
  | cons seq rest inductionHypothesis =>
    cases count with
    | zero => rfl
    | succ count =>
      have later := inductionHypothesis (before ++ entryBytes seq) count
        (Nat.le_of_succ_le_succ within)
      rw [List.length_append, entryBytes_length] at later
      rw [List.range_succ_eq_map, List.flatMap_cons, List.flatMap_map, List.flatMap_cons,
        List.append_assoc, Nat.zero_mul, Nat.add_zero, entryLosses_written, List.take_succ_cons]
      refine congrArg (seq :: ·) (Eq.trans ?_ later)
      apply List.flatMap_congr
      intro entry _
      have place : before.length + Nat.succ entry * 4 = before.length + 4 + entry * 4 := by omega
      simp only [List.append_assoc, place]

/-- What the writer makes of a NACK whose length field does not overflow. -/
theorem toBytes_nack {lost : List UInt16} (ssrc : UInt32) (fits : lost.length % 65536 < 65534) :
    toBytes (nack ssrc lost) =
      .ok (nackHeader ssrc (2 + UInt16.ofNat lost.length) ++ lost.flatMap entryBytes) := by
  have sum : (2 : UInt16).toNat + (UInt16.ofNat lost.length).toNat < 65536 := by
    rw [UInt16.toNat_ofNat']
    show 2 + lost.length % 65536 < 65536
    omega
  rw [toBytes, addU16, if_pos sum]
  simp only [nackHeader, List.append_assoc]
  rfl

/-- What the header of a written NACK says. -/
theorem nackHeader_read (ssrc : UInt32) (length : UInt16) (after : List UInt8) :
    u16At (nackHeader ssrc length ++ after) 2 = length ∧
      u32At (nackHeader ssrc length ++ after) 8 = ssrc := by
  constructor
  · have read := u16At_written [0x80 ||| nackFmt, rtcpRtpfb]
      (BigEndian.encode 4 0 ++ BigEndian.encode 4 ssrc.toNat ++ after) length
    simp only [nackHeader, List.append_assoc] at read ⊢
    exact read
  · have read := u32At_written ([0x80 ||| nackFmt, rtcpRtpfb] ++
      (BigEndian.encode 2 length.toNat ++ BigEndian.encode 4 0)) after ssrc
    simp only [nackHeader, List.append_assoc] at read ⊢
    exact read

/-- A NACK whose entries are declared inside the buffer is read as one. -/
theorem fromBytes_nack {buf : List UInt8} (framed : Framed buf) (room : 12 ≤ buf.length)
    (names : NamesNack buf) (whole : 2 ≤ (u16At buf 2).toNat) :
    fromBytes buf = .ok (nack (u32At buf 8) ((List.range (entries buf)).flatMap
      (fun entry => entryLosses buf (12 + entry * 4)))) := by
  generalize result : fromBytes buf = outcome
  have out := fromBytes_outcome buf
  rw [result] at out
  cases out with
  | refused error refuses => exact absurd ⟨framed, .inr (.inr ⟨room, .inl names⟩)⟩ refuses
  | senderReport _ kind => exact absurd (kind.symm.trans names.1) (by decide)
  | receiverReport _ kind => exact absurd (kind.symm.trans names.1) (by decide)
  | nack _ _ _ => rfl
  | pli _ other => exact absurd (other.1.symm.trans names.1) (by decide)
  | inverted inverted => exact absurd inverted.short (Nat.not_lt_of_le whole)

/-- A NACK is read back with as many of its lost packets as the length field counts. -/
theorem nack_read {lost : List UInt16} (ssrc : UInt32) (fits : lost.length % 65536 < 65534) :
    fromBytes (nackHeader ssrc (2 + UInt16.ofNat lost.length) ++ lost.flatMap entryBytes) =
      .ok (nack ssrc (lost.take (lost.length % 65536))) := by
  obtain ⟨words, source⟩ :=
    nackHeader_read ssrc (2 + UInt16.ofNat lost.length) (lost.flatMap entryBytes)
  have counted : (2 + UInt16.ofNat lost.length).toNat = 2 + lost.length % 65536 := by
    rw [UInt16.toNat_add, UInt16.toNat_ofNat']
    show (2 + lost.length % 65536) % 65536 = _
    omega
  have size : (nackHeader ssrc (2 + UInt16.ofNat lost.length) ++ lost.flatMap entryBytes).length =
      12 + lost.length * 4 := by
    simp only [List.length_append, nackHeader_length, List.length_flatMap, entryBytes_length,
      List.map_const', List.sum_replicate_nat]
  have extent : declared (nackHeader ssrc (2 + UInt16.ofNat lost.length) ++ lost.flatMap entryBytes) =
      12 + lost.length % 65536 * 4 := by
    rw [declared, words, counted]
    omega
  have few : lost.length % 65536 ≤ lost.length := Nat.mod_le lost.length 65536
  have first : byteAt (nackHeader ssrc (2 + UInt16.ofNat lost.length) ++ lost.flatMap entryBytes) 0 =
      0x80 ||| nackFmt := rfl
  have framed : Framed (nackHeader ssrc (2 + UInt16.ofNat lost.length) ++ lost.flatMap entryBytes) := by
    refine ⟨?_, ?_, ?_⟩
    · omega
    · rw [first]
      decide
    · omega
  have names : NamesNack (nackHeader ssrc (2 + UInt16.ofNat lost.length) ++ lost.flatMap entryBytes) := by
    refine ⟨rfl, ?_⟩
    rw [first]
    decide
  have number : entries (nackHeader ssrc (2 + UInt16.ofNat lost.length) ++ lost.flatMap entryBytes) =
      lost.length % 65536 := by
    rw [entries, extent]
    omega
  have read := fromBytes_nack framed (by omega) names (by rw [words, counted]; omega)
  have listed := entries_written (nackHeader ssrc (2 + UInt16.ofNat lost.length)) [] lost _ few
  rw [nackHeader_length, List.append_nil] at listed
  rw [read, source, number, listed]

end Written

/-- Writing the packet does not overflow, and what is written is read as the packet. -/
def RoundTrips (packet : RtcpPacket) : Prop :=
  ∃ bytes, packet.toBytes = .ok bytes ∧ fromBytes bytes = .ok packet

/-- A NACK survives the wire exactly when its length fits the length field beside the
two words that come before the losses. -/
theorem nack_roundTrips_iff (ssrc : UInt32) (lost : List UInt16) :
    (nack ssrc lost).RoundTrips ↔ lost.length ≤ 65533 := by
  constructor
  · rintro ⟨bytes, written, read⟩
    by_cases fits : lost.length % 65536 < 65534
    · rw [toBytes_nack ssrc fits] at written
      obtain rfl := Except.ok.inj written
      rw [nack_read ssrc fits] at read
      have same := congrArg List.length (RtcpPacket.nack.inj (Except.ok.inj read)).2
      rw [List.length_take] at same
      omega
    · have sum : ¬ (2 : UInt16).toNat + (UInt16.ofNat lost.length).toNat < 65536 := by
        rw [UInt16.toNat_ofNat']
        show ¬ 2 + lost.length % 65536 < 65536
        omega
      rw [toBytes, addU16, if_neg sum] at written
      cases written
  · intro few
    have small : lost.length % 65536 = lost.length := Nat.mod_eq_of_lt (by omega)
    have fits : lost.length % 65536 < 65534 := by omega
    refine ⟨_, toBytes_nack ssrc fits, ?_⟩
    rw [nack_read ssrc fits, small, List.take_length]

/-- Four bytes of header and as much as they declare. -/
theorem framed_of_header {first kind words : UInt8} {rest : List UInt8}
    (size : rest.length = words.toNat * 4) (version : first >>> 6 &&& 0x03 = 2)
    (room : 1 ≤ words.toNat) : Framed ([first, kind, 0, words] ++ rest) := by
  have declares : u16At ([first, kind, 0, words] ++ rest) 2 = UInt16.ofNat words.toNat := by
    show UInt16.ofNat (BigEndian.decode [0, words]) = _
    simp [BigEndian.decode]
  have small : words.toNat < 256 := words.toNat_lt
  have length : ([first, kind, 0, words] ++ rest).length = 4 + words.toNat * 4 := by
    rw [List.length_append, size]
    rfl
  refine ⟨?_, version, ?_⟩
  · omega
  · rw [declared, declares, length, UInt16.toNat_ofNat']
    omega

/-- A sender report is read back. -/
theorem senderReport_roundTrips (ssrc : UInt32) : (senderReport ssrc).RoundTrips := by
  refine ⟨[0x80, rtcpSr, 0, 1] ++ BigEndian.encode 4 ssrc.toNat, rfl, ?_⟩
  have source := u32At_written [0x80, rtcpSr, 0, 1] [] ssrc
  rw [List.append_nil] at source
  have framed : Framed ([0x80, rtcpSr, 0, 1] ++ BigEndian.encode 4 ssrc.toNat) :=
    framed_of_header rfl rfl (by decide)
  generalize result : fromBytes ([0x80, rtcpSr, 0, 1] ++ BigEndian.encode 4 ssrc.toNat) = outcome
  have out := fromBytes_outcome ([0x80, rtcpSr, 0, 1] ++ BigEndian.encode 4 ssrc.toNat)
  rw [result] at out
  cases out with
  | refused error refuses => exact absurd ⟨framed, .inl rfl⟩ refuses
  | senderReport _ _ => exact congrArg (Except.ok ∘ senderReport) source
  | receiverReport _ kind => cases kind
  | nack _ names _ => cases names.1
  | pli _ names => cases names.1
  | inverted inverted => cases inverted.names.1

/-- A receiver report is read back. -/
theorem receiverReport_roundTrips (ssrc : UInt32) : (receiverReport ssrc).RoundTrips := by
  refine ⟨[0x80, rtcpRr, 0, 1] ++ BigEndian.encode 4 ssrc.toNat, rfl, ?_⟩
  have source := u32At_written [0x80, rtcpRr, 0, 1] [] ssrc
  rw [List.append_nil] at source
  have framed : Framed ([0x80, rtcpRr, 0, 1] ++ BigEndian.encode 4 ssrc.toNat) :=
    framed_of_header rfl rfl (by decide)
  generalize result : fromBytes ([0x80, rtcpRr, 0, 1] ++ BigEndian.encode 4 ssrc.toNat) = outcome
  have out := fromBytes_outcome ([0x80, rtcpRr, 0, 1] ++ BigEndian.encode 4 ssrc.toNat)
  rw [result] at out
  cases out with
  | refused error refuses => exact absurd ⟨framed, .inr (.inl rfl)⟩ refuses
  | senderReport _ kind => cases kind
  | receiverReport _ _ => exact congrArg (Except.ok ∘ receiverReport) source
  | nack _ names _ => cases names.1
  | pli _ names => cases names.1
  | inverted inverted => cases inverted.names.1

/-- A picture loss indication is read back. -/
theorem pli_roundTrips (ssrc : UInt32) : (pli ssrc).RoundTrips := by
  refine ⟨[0x81, rtcpPsfb, 0, 2, 0, 0, 0, 0] ++ BigEndian.encode 4 ssrc.toNat, rfl, ?_⟩
  have source := u32At_written [0x81, rtcpPsfb, 0, 2, 0, 0, 0, 0] [] ssrc
  rw [List.append_nil] at source
  have framed : Framed ([0x81, rtcpPsfb, 0, 2, 0, 0, 0, 0] ++ BigEndian.encode 4 ssrc.toNat) :=
    framed_of_header (show ([0, 0, 0, 0] ++ BigEndian.encode 4 ssrc.toNat).length = _ from rfl) rfl
      (by decide)
  generalize result :
    fromBytes ([0x81, rtcpPsfb, 0, 2, 0, 0, 0, 0] ++ BigEndian.encode 4 ssrc.toNat) = outcome
  have out := fromBytes_outcome ([0x81, rtcpPsfb, 0, 2, 0, 0, 0, 0] ++ BigEndian.encode 4 ssrc.toNat)
  rw [result] at out
  cases out with
  | refused error refuses =>
    have flags : (0x81 : UInt8) &&& 0x1F = pliFmt := by decide
    exact absurd ⟨framed, .inr (.inr ⟨Nat.le_refl 12, .inr ⟨rfl, flags⟩⟩)⟩ refuses
  | senderReport _ kind => cases kind
  | receiverReport _ kind => cases kind
  | nack _ names _ => cases names.1
  | pli _ _ => exact congrArg (Except.ok ∘ pli) source
  | inverted inverted => cases inverted.names.1

/-- How many losses a mask reports. -/
def maskedCount (blp : UInt16) : Nat :=
  (List.range 16).countP (fun bit => blp &&& (1 <<< UInt16.ofNat bit) != 0)

/-- How many losses the declared entries of a buffer report: one each, and one for
each bit of their masks. -/
def reported (buf : List UInt8) : Nat :=
  ((List.range (entries buf)).map (fun entry => 1 + maskedCount (u16At buf (12 + entry * 4 + 2)))).sum

/-- The list that the reader builds has that many losses. -/
theorem entryLosses_count (buf : List UInt8) :
    ((List.range (entries buf)).flatMap (fun entry => entryLosses buf (12 + entry * 4))).length =
      reported buf := by
  rw [List.length_flatMap, reported]
  congr 1
  apply List.map_congr_left
  intro entry _
  rw [entryLosses, List.length_cons, maskedLosses, List.length_map, ← List.countP_eq_length_filter,
    maskedCount, Nat.add_comm]

/-- A packet survives the wire unless it is a NACK of more than 65533 losses, and a
NACK that was read survives it a second time unless its entries and their masks report
more losses than that.

Reading undoes writing as long as the length of the entries fits the header's 16 bits. The
entries of a list of losses are counted, and they read back as the same list. -/
theorem round_trip_iff (packet : RtcpPacket) (buf : List UInt8) :
    (packet.RoundTrips ↔ ∀ ssrc lost, packet = nack ssrc lost → lost.length ≤ 65533) ∧
    ∀ ssrc lost, fromBytes buf = .ok (nack ssrc lost) →
      ((nack ssrc lost).RoundTrips ↔ reported buf ≤ 65533) := by
  constructor
  · cases packet with
    | senderReport ssrc => exact ⟨fun _ _ _ => nofun, fun _ => senderReport_roundTrips ssrc⟩
    | receiverReport ssrc => exact ⟨fun _ _ _ => nofun, fun _ => receiverReport_roundTrips ssrc⟩
    | pli ssrc => exact ⟨fun _ _ _ => nofun, fun _ => pli_roundTrips ssrc⟩
    | nack ssrc lost =>
      rw [nack_roundTrips_iff]
      constructor
      · intro few source other same
        obtain ⟨rfl, rfl⟩ := RtcpPacket.nack.inj same
        exact few
      · intro few
        exact few ssrc lost rfl
  · intro ssrc lost result
    have out := fromBytes_outcome buf
    rw [result] at out
    cases out with
    | nack framed names whole => rw [nack_roundTrips_iff, entryLosses_count]

/-- One loss more than the length field can count: the addition overflows. -/
theorem long_nack_fails : ¬ (nack 1 (List.replicate 65534 0)).RoundTrips := by
  rw [nack_roundTrips_iff, List.length_replicate]
  decide

end RtcpPacket

end Seameet.Rtp

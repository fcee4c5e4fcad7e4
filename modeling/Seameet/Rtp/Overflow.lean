import Seameet.Library.Traced
import Seameet.Rtp.Extended

/-!
# Thirty-two bits of sequence numbers

Unwrapped numbers are computed from the wraps that were counted, and the next number to
emit by adding one. Here every result of these sums and products is listed as it would
be without a bound. None exceeds the last 32-bit number as long as no wrap is completed
after 65535 others and that number itself is never emitted; a sender who jumps ahead by
nearly half the range completes a wrap every three packets.
-/

namespace Seameet.Rtp

open Library

/-- The last 32-bit number. -/
def lastNumber : Nat := 4294967295

namespace JitterBuffer

/-- Whether a number completes a wrap. -/
def wraps (jitter : JitterBuffer) (seq : UInt16) : Bool :=
  match jitter.highSeq with
  | none => false
  | some high => seq - high < 0x8000 ∧ seq < high ∧ 0 < seq - high

/-- The sums and products of unwrapping a number. -/
def unwrapResults (jitter : JitterBuffer) (seq : UInt16) : List Nat :=
  match jitter.highSeq with
  | none => []
  | some high =>
    if seq - high < 0x8000 then
      if seq < high ∧ 0 < seq - high then
        [jitter.cycles + 1, (jitter.cycles + 1) * 0x10000, (jitter.cycles + 1) * 0x10000 + seq.toNat]
      else [jitter.cycles * 0x10000, jitter.cycles * 0x10000 + seq.toNat]
    else if high < seq then
      [(jitter.cycles - 1) * 0x10000, (jitter.cycles - 1) * 0x10000 + seq.toNat]
    else [jitter.cycles * 0x10000, jitter.cycles * 0x10000 + seq.toNat]

/-- The sums of a poll. -/
def pollResults (jitter : JitterBuffer) : List Nat :=
  match jitter.buffer.first? with
  | none => []
  | some (earliestBuffered, _) =>
    let next := jitter.nextEmit.getD earliestBuffered
    match jitter.buffer.lookup next with
    | some _ => [next + 1]
    | none =>
      if earliestBuffered ≤ next then []
      else
        (List.range (earliestBuffered - next)).map (fun seqOffset => next + seqOffset) ++
          [earliestBuffered + 1]

/-- The sums and products of a call. -/
def results (jitter : JitterBuffer) : Call → List Nat
  | .push packet => jitter.unwrapResults packet.sequenceNumber
  | .poll _ => jitter.pollResults
  | .drainEvents => []

/-- The buffer after a call. -/
def take (jitter : JitterBuffer) : Call → JitterBuffer
  | .push packet => jitter.push packet
  | .poll nowMs => (jitter.poll nowMs).2
  | .drainEvents => jitter.drainEvents.2

/-- The highest number, as the buffer unwraps it. -/
def head (jitter : JitterBuffer) : Nat :=
  match jitter.highSeq with
  | none => 0
  | some high => u32 (jitter.cycles * 0x10000 + high.toNat)

/-- No result of a call exceeds the last number, and the highest number does not fall
back. -/
def Exact (jitter : JitterBuffer) (call : Call) : Prop :=
  (∀ result ∈ jitter.results call, result ≤ lastNumber) ∧ jitter.head ≤ (jitter.take call).head

/-- There are numbers left: a push completes no wrap after 65535 others, and a poll does
not find the last number lowest. -/
def Left (jitter : JitterBuffer) : Call → Prop
  | .push packet => jitter.cycles < 65535 ∨ jitter.wraps packet.sequenceNumber = false
  | .poll _ => ∀ entry ∈ jitter.buffer.first?, entry.1 < lastNumber
  | .drainEvents => True

/-- What holds while there are numbers left. -/
structure Numbered32 (jitter : JitterBuffer) : Prop where
  cycles : jitter.cycles ≤ 65535
  keyed : ∀ entry ∈ jitter.buffer.entries, entry.1 ≤ lastNumber
  ahead : ∀ next, jitter.nextEmit = some next →
    next ≤ lastNumber ∧ ∀ entry ∈ jitter.buffer.entries, next ≤ entry.1

section Push

variable {jitter : JitterBuffer}

/-- A number in one of the cycles that there are is not too large. -/
theorem place_fits {cycles : Nat} (few : cycles ≤ 65535) (seq : UInt16) :
    ∀ result ∈ [cycles * 0x10000, cycles * 0x10000 + seq.toNat], result ≤ lastNumber := by
  have small := seq.toNat_lt
  intro result member
  simp only [List.mem_cons, List.not_mem_nil, or_false] at member
  unfold lastNumber
  omega

/-- With numbers left, unwrapping computes no number that is too large. -/
theorem unwrap_exact (cycles : jitter.cycles ≤ 65535) (seq : UInt16)
    (left : jitter.cycles < 65535 ∨ jitter.wraps seq = false) :
    (∀ result ∈ jitter.unwrapResults seq, result ≤ lastNumber) ∧
      (jitter.unwrapSeq seq).2.cycles ≤ 65535 ∧ jitter.head ≤ (jitter.unwrapSeq seq).2.head := by
  have small := seq.toNat_lt
  cases known : jitter.highSeq with
  | none =>
    refine ⟨?_, ?_, ?_⟩
    · rw [unwrapResults, known]
      exact nofun
    · simp [unwrapSeq, known]
    · rw [head, known]
      exact Nat.zero_le _
  | some high =>
    have highSmall := high.toNat_lt
    have whole : jitter.head = jitter.cycles * 0x10000 + high.toNat := by
      rw [head, known]
      exact Nat.mod_eq_of_lt (by show _ < 4294967296; omega)
    rw [whole]
    unfold unwrapResults unwrapSeq
    rw [known]
    dsimp only
    by_cases forward : seq - high < 0x8000
    · rw [if_pos forward, if_pos forward]
      by_cases wrapped : seq < high ∧ 0 < seq - high
      · have wraps : jitter.wraps seq = true := by
          simp only [wraps, known, decide_eq_true_eq]
          exact ⟨forward, wrapped⟩
        have fewer : jitter.cycles < 65535 := left.resolve_right (by simp [wraps])
        have next : u32 (jitter.cycles + 1) = jitter.cycles + 1 := Nat.mod_eq_of_lt (by omega)
        rw [if_pos wrapped, if_pos wrapped, next]
        refine ⟨?_, fewer, ?_⟩
        · refine List.forall_mem_cons.mpr ⟨?_, place_fits fewer seq⟩
          unfold lastNumber
          omega
        · show _ ≤ ((jitter.cycles + 1) * 0x10000 + seq.toNat) % 4294967296
          omega
      · have above : high.toNat ≤ seq.toNat := by
          by_contra below
          refine wrapped ⟨UInt16.lt_iff_toNat_lt.mpr (by omega), ?_⟩
          rw [UInt16.lt_iff_toNat_lt, UInt16.toNat_sub]
          show 0 < _ % 65536
          omega
        rw [if_neg wrapped, if_neg wrapped]
        refine ⟨place_fits cycles seq, cycles, ?_⟩
        show _ ≤ (jitter.cycles * 0x10000 + seq.toNat) % 4294967296
        omega
    · rw [if_neg forward, if_neg forward]
      by_cases behind : high < seq
      · rw [if_pos behind, if_pos behind]
        have earlier : jitter.cycles - 1 ≤ 65535 := Nat.le_trans (Nat.sub_le _ _) cycles
        exact ⟨place_fits earlier seq, cycles, Nat.le_of_eq whole.symm⟩
      · rw [if_neg behind, if_neg behind]
        exact ⟨place_fits cycles seq, cycles, Nat.le_of_eq whole.symm⟩

/-- With none left, unwrapping multiplies out of the 32 bits. -/
theorem unwrap_exceeds {seq : UInt16} (exhausted : 65535 ≤ jitter.cycles)
    (wraps : jitter.wraps seq = true) :
    ∃ result ∈ jitter.unwrapResults seq, lastNumber < result := by
  unfold JitterBuffer.wraps at wraps
  cases known : jitter.highSeq with
  | none =>
    rw [known] at wraps
    cases wraps
  | some high =>
    rw [known] at wraps
    have wrapped := of_decide_eq_true wraps
    refine ⟨(jitter.cycles + 1) * 0x10000, ?_, ?_⟩
    · simp [unwrapResults, known, wrapped.1, wrapped.2]
    · unfold lastNumber
      omega

end Push

section Poll

variable {jitter : JitterBuffer}

/-- The next number to emit is the lowest one that is buffered, or is missing before it. -/
theorem Numbered32.next_or_gap (sound : jitter.Numbered32) {earliest : Nat} {packet : RtpPacket}
    (first : jitter.buffer.first? = some (earliest, packet)) :
    (∃ held, jitter.buffer.lookup (jitter.nextEmit.getD earliest) = some held ∧
        jitter.nextEmit.getD earliest = earliest) ∨
      jitter.buffer.lookup (jitter.nextEmit.getD earliest) = none ∧
        jitter.nextEmit.getD earliest < earliest := by
  obtain ⟨stored, least⟩ := Ordered.first_lowest first
  have notAhead : jitter.nextEmit.getD earliest ≤ earliest := by
    cases known : jitter.nextEmit with
    | none => exact Nat.le_refl earliest
    | some next => exact (sound.ahead next known).2 _ stored
  cases found : jitter.buffer.lookup (jitter.nextEmit.getD earliest) with
  | some held =>
    have reached := least _ (Ordered.lookup_eq_some.mp found)
    exact .inl ⟨held, rfl, Nat.le_antisymm notAhead reached⟩
  | none =>
    refine .inr ⟨rfl, Nat.lt_of_le_of_ne notAhead fun same => ?_⟩
    rw [same, Ordered.lookup_eq_some.mpr stored] at found
    cases found

/-- The lowest number is taken out, and the next one to emit is the one after it. -/
theorem Numbered32.emit (sound : jitter.Numbered32) {after : JitterBuffer} {lowest : Nat × RtpPacket}
    (least : ∀ entry ∈ jitter.buffer.entries, lowest.1 ≤ entry.1) (left : lowest.1 < lastNumber)
    (cycles : after.cycles = jitter.cycles) (next : after.nextEmit = some (u32 (lowest.1 + 1)))
    (buffer : after.buffer = jitter.buffer.erase lowest.1) : after.Numbered32 := by
  have kept : ∀ entry ∈ after.buffer.entries, entry ∈ jitter.buffer.entries ∧ entry.1 ≠ lowest.1 := by
    intro entry member
    rw [buffer] at member
    exact Ordered.mem_erase.mp member
  have small : u32 (lowest.1 + 1) = lowest.1 + 1 := Nat.mod_eq_of_lt (by unfold lastNumber at left; omega)
  refine ⟨cycles ▸ sound.cycles, fun entry member => sound.keyed entry (kept entry member).1, ?_⟩
  intro number known
  rw [next, small] at known
  obtain rfl := Option.some.inj known
  refine ⟨left, fun entry member => ?_⟩
  have above := least entry (kept entry member).1
  have apart := (kept entry member).2
  omega

/-- A poll with numbers left. The lowest key is the number that is emitted. -/
theorem poll_exact (sound : jitter.Numbered32) (nowMs : Nat)
    (left : ∀ entry ∈ jitter.buffer.first?, entry.1 < lastNumber) :
    (∀ result ∈ jitter.pollResults, result ≤ lastNumber) ∧
      (jitter.poll nowMs).2.Numbered32 ∧ (jitter.poll nowMs).2.head = jitter.head := by
  unfold poll pollResults
  cases first : jitter.buffer.first? with
  | none => exact ⟨nofun, sound, rfl⟩
  | some lowest =>
    have least := (Ordered.first_lowest first).2
    have below := left lowest first
    obtain ⟨earliest, packet⟩ := lowest
    dsimp only
    rcases sound.next_or_gap first with ⟨held, found, same⟩ | ⟨found, gap⟩
    · rw [found]
      dsimp only
      rw [same]
      refine ⟨?_, sound.emit least below rfl rfl rfl, rfl⟩
      intro result member
      rw [List.mem_singleton.mp member]
      exact below
    · rw [found]
      dsimp only
      rw [first]
      dsimp only
      rw [if_neg (Nat.not_le_of_lt gap), if_neg (Nat.not_le_of_lt gap), if_pos (by omega)]
      refine ⟨?_, sound.emit least below rfl rfl rfl, rfl⟩
      intro result member
      rcases List.mem_append.mp member with lost | next
      · obtain ⟨seqOffset, inside, rfl⟩ := List.mem_map.mp lost
        have offset := List.mem_range.mp inside
        have bounded : earliest < lastNumber := below
        omega
      · rw [List.mem_singleton.mp next]
        exact below

/-- With the last number lowest, a poll adds one to it. -/
theorem poll_exceeds (sound : jitter.Numbered32) {entry : Nat × RtpPacket}
    (first : jitter.buffer.first? = some entry) (exhausted : lastNumber ≤ entry.1) :
    ∃ result ∈ jitter.pollResults, lastNumber < result := by
  obtain ⟨earliest, packet⟩ := entry
  refine ⟨earliest + 1, ?_, Nat.lt_succ_of_le exhausted⟩
  unfold pollResults
  rw [first]
  dsimp only
  rcases sound.next_or_gap first with ⟨held, found, same⟩ | ⟨found, gap⟩
  · rw [found]
    dsimp only
    rw [same]
    exact List.mem_singleton.mpr rfl
  · rw [found]
    dsimp only
    rw [if_neg (Nat.not_le_of_lt gap)]
    exact List.mem_append_right _ (List.mem_singleton.mpr rfl)

end Poll

section Runs

variable {jitter : JitterBuffer}

/-- A push counts wraps as its unwrapping does. -/
theorem push_counts (jitter : JitterBuffer) (packet : RtpPacket) :
    (jitter.push packet).highSeq = (jitter.unwrapSeq packet.sequenceNumber).2.highSeq ∧
      (jitter.push packet).cycles = (jitter.unwrapSeq packet.sequenceNumber).2.cycles := by
  unfold push
  dsimp only
  split
  · exact ⟨rfl, rfl⟩
  · exact ⟨rfl, rfl⟩

/-- An unwrapped number is a 32-bit one. -/
theorem unwrapSeq_small (jitter : JitterBuffer) (seq : UInt16) :
    (jitter.unwrapSeq seq).1 ≤ lastNumber := by
  have small := seq.toNat_lt
  unfold unwrapSeq u32 lastNumber
  cases jitter.highSeq with
  | none =>
    dsimp only
    omega
  | some high =>
    dsimp only
    split
    · dsimp only
      omega
    · split
      · dsimp only
        omega
      · dsimp only
        omega

/-- A push with numbers left. -/
theorem Numbered32.push (sound : jitter.Numbered32) (packet : RtpPacket)
    (left : jitter.cycles < 65535 ∨ jitter.wraps packet.sequenceNumber = false) :
    (jitter.push packet).Numbered32 ∧ jitter.head ≤ (jitter.push packet).head := by
  obtain ⟨_, cycles, higher⟩ := unwrap_exact sound.cycles packet.sequenceNumber left
  have counts := jitter.push_counts packet
  have sameHead : (jitter.push packet).head = (jitter.unwrapSeq packet.sequenceNumber).2.head := by
    unfold head
    rw [counts.1, counts.2]
  refine ⟨⟨counts.2 ▸ cycles, ?_, ?_⟩, sameHead ▸ higher⟩
  · intro entry member
    rcases push_stores member with rfl | old
    · exact unwrapSeq_small jitter packet.sequenceNumber
    · exact sound.keyed entry old
  · have outcome := push_outcome jitter packet
    generalize jitter.push packet = after at outcome
    cases outcome with
    | late => exact sound.ahead
    | stored highSeq cycles reordered ahead =>
      intro next known
      refine ⟨(sound.ahead next known).1, fun entry member => ?_⟩
      rcases Ordered.mem_of_mem_insert (Ordered.mem_of_mem_keepHighest member) with rfl | old
      · exact ahead next known
      · exact (sound.ahead next known).2 entry old

/-- With numbers left, a call is exact and leaves the buffer numbered in 32 bits. -/
theorem Numbered32.take (sound : jitter.Numbered32) (call : Call) (left : jitter.Left call) :
    jitter.Exact call ∧ (jitter.take call).Numbered32 := by
  cases call with
  | push packet =>
    obtain ⟨numbered, higher⟩ := sound.push packet left
    exact ⟨⟨(unwrap_exact sound.cycles packet.sequenceNumber left).1, higher⟩, numbered⟩
  | poll nowMs =>
    obtain ⟨small, numbered, same⟩ := poll_exact sound nowMs left
    exact ⟨⟨small, Nat.le_of_eq same.symm⟩, numbered⟩
  | drainEvents => exact ⟨⟨nofun, Nat.le_refl _⟩, sound.cycles, sound.keyed, sound.ahead⟩

/-- With none left, a call is not exact. -/
theorem Numbered32.left_of_exact (sound : jitter.Numbered32) (call : Call) (exact : jitter.Exact call) :
    jitter.Left call := by
  by_contra none
  have exceeds : ∃ result ∈ jitter.results call, lastNumber < result := by
    cases call with
    | push packet =>
      obtain ⟨exhausted, wraps⟩ := not_or.mp none
      exact unwrap_exceeds (Nat.le_of_not_lt exhausted) (by simpa using wraps)
    | poll nowMs =>
      obtain ⟨entry, rest⟩ := not_forall.mp none
      obtain ⟨first, exhausted⟩ := Classical.not_imp.mp rest
      exact poll_exceeds sound first (Nat.le_of_not_lt exhausted)
    | drainEvents => exact absurd trivial none
  obtain ⟨result, computed, large⟩ := exceeds
  exact absurd (exact.1 result computed) (Nat.not_le_of_lt large)

end Runs

/-- No sum or product exceeds 32 bits, and no number falls back, in exactly those runs
all of whose calls find numbers left.

A call computes within 32 bits exactly if it finds numbers left, from a buffer whose own
numbers are within them. This is carried from call to call. -/
theorem arithmetic_exact_iff (capacity : Nat) (calls : List Call) :
    Throughout take Exact (new capacity) calls ↔ Throughout take Left (new capacity) calls := by
  have initial : (new capacity).Numbered32 := ⟨Nat.zero_le _, nofun, nofun⟩
  refine throughout_iff Numbered32 ?_ ?_ calls initial
  · exact fun _ call numbered => ⟨numbered.left_of_exact call, fun left => (numbered.take call left).1⟩
  · exact fun _ call numbered left => (numbered.take call left).2

section Wrapping

/-- A push of an empty packet with a number. -/
def pushAt (seq : UInt16) : Call := .push (.newAudio [] 0 0 seq)

/-- Three packets, each ahead of the one before by nearly half the range, but for the
last one, which completes a wrap. -/
def hops : List Call := [pushAt 0x7FFF, pushAt 0xFFFE, pushAt 0]

/-- As many wraps, and the packets before one more. -/
def wrapping (count : Nat) : List Call :=
  pushAt 0 :: (List.replicate count hops).flatten ++ [pushAt 0x7FFF, pushAt 0xFFFE]

/-- The number that is pushed becomes the highest one when it is ahead. -/
theorem pushAt_ahead {jitter : JitterBuffer} {high : UInt16} (known : jitter.highSeq = some high)
    (seq : UInt16) (ahead : seq - high < 0x8000) :
    (jitter.take (pushAt seq)).highSeq = some seq ∧
      (jitter.take (pushAt seq)).cycles =
        if seq < high ∧ 0 < seq - high then u32 (jitter.cycles + 1) else jitter.cycles := by
  obtain ⟨highSeq, cycles⟩ := jitter.push_counts (.newAudio [] 0 0 seq)
  have unwrapped : (jitter.unwrapSeq seq).2.highSeq = some seq ∧ (jitter.unwrapSeq seq).2.cycles =
      if seq < high ∧ 0 < seq - high then u32 (jitter.cycles + 1) else jitter.cycles := by
    unfold unwrapSeq
    rw [known]
    dsimp only
    rw [if_pos ahead]
    exact ⟨rfl, rfl⟩
  exact ⟨highSeq.trans unwrapped.1, cycles.trans unwrapped.2⟩

/-- Three packets count one wrap. -/
theorem hops_counts {jitter : JitterBuffer} (known : jitter.highSeq = some 0)
    (few : jitter.cycles + 1 < 4294967296) :
    (hops.foldl take jitter).highSeq = some 0 ∧ (hops.foldl take jitter).cycles = jitter.cycles + 1 := by
  have first := pushAt_ahead known 0x7FFF (by decide)
  have second := pushAt_ahead first.1 0xFFFE (by decide)
  have third := pushAt_ahead second.1 0 (by decide)
  rw [if_neg (by decide)] at first second
  rw [if_pos (by decide), second.2, first.2] at third
  exact ⟨third.1, third.2.trans (Nat.mod_eq_of_lt few)⟩

/-- As many rounds count as many wraps. -/
theorem wrapping_counts (count : Nat) (few : count < 4294967296) (capacity : Nat) :
    let jitter := (pushAt 0 :: (List.replicate count hops).flatten).foldl take (new capacity)
    jitter.highSeq = some 0 ∧ jitter.cycles = count := by
  induction count with
  | zero => exact ⟨rfl, rfl⟩
  | succ count inductionHypothesis =>
    obtain ⟨known, cycles⟩ := inductionHypothesis (by omega)
    have round := hops_counts known (by omega)
    rw [List.replicate_succ', List.flatten_append, List.flatten_singleton, ← List.cons_append,
      List.foldl_append]
    exact ⟨round.1, round.2.trans (congrArg (· + 1) cycles)⟩

/-- The packets before one more wrap count none. -/
theorem wrapping_end (count : Nat) (few : count < 4294967296) (capacity : Nat) :
    ((wrapping count).foldl take (new capacity)).highSeq = some 0xFFFE ∧
      ((wrapping count).foldl take (new capacity)).cycles = count := by
  have rounds := wrapping_counts count few capacity
  have first := pushAt_ahead rounds.1 0x7FFF (by decide)
  have second := pushAt_ahead first.1 0xFFFE (by decide)
  rw [if_neg (by decide)] at first second
  rw [wrapping, List.foldl_append]
  exact ⟨second.1, second.2.trans (first.2.trans rounds.2)⟩

/-- One more wrap after 65535 of them multiplies out of the 32 bits, and the highest
number falls back to zero. -/
theorem last_wrap {jitter : JitterBuffer} (known : jitter.highSeq = some 0xFFFE)
    (cycles : jitter.cycles = 65535) :
    4294967296 ∈ jitter.results (pushAt 0) ∧ jitter.head = 4294967294 ∧
      (jitter.take (pushAt 0)).head = 0 := by
  have next := pushAt_ahead known 0 (by decide)
  rw [if_pos (by decide), cycles] at next
  refine ⟨?_, ?_, ?_⟩
  · show _ ∈ jitter.unwrapResults 0
    unfold unwrapResults
    rw [known, cycles]
    decide
  · rw [head, known, cycles]
    decide
  · rw [head, next.1, next.2]
    decide

/-- A sender reaches this with three packets for each wrap. -/
theorem wrap_overflows :
    4294967296 ∈ ((wrapping 65535).foldl take (new 128)).results (pushAt 0) ∧
      ((wrapping 65535).foldl take (new 128)).head = 4294967294 ∧
      (((wrapping 65535).foldl take (new 128)).take (pushAt 0)).head = 0 :=
  last_wrap (wrapping_end 65535 (by decide) 128).1 (wrapping_end 65535 (by decide) 128).2

end Wrapping

end JitterBuffer

end Seameet.Rtp

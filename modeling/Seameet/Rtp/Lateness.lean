import Seameet.Library.Traced
import Seameet.Rtp.Extended

/-!
# Packets out of order

A number that arrives is wanted in its place: polling the buffer dry, then or later,
emits it after all lower numbers and before all higher ones, and it is never declared
lost. The buffer waits for nothing, whatever the clock says. A poll that finds a number
missing gives it up at once, so it is in its place exactly when no higher number was
emitted before it arrives and, as long as it is buffered, fewer higher numbers are there
than the buffer has room for.
-/

namespace Seameet.Rtp

open Library

namespace JitterBuffer

/-- A number is buffered, or was emitted. -/
def Served (jitter : JitterBuffer) (number : Nat) : Prop :=
  number ∈ jitter.buffer.keys ∨ ∃ packet, .emitted number packet ∈ jitter.fates

/-- A number was emitted, after lower ones only and before higher ones only, and so was
never declared lost. -/
def InPlace (jitter : JitterBuffer) (number : Nat) : Prop :=
  ∃ earlier packet later, jitter.fates = earlier ++ .emitted number packet :: later ∧
    (∀ fate ∈ earlier, fate.number < number) ∧ ∀ fate ∈ later, number < fate.number

variable {jitter : JitterBuffer}

/-- All that is accounted for is below the next number to emit. -/
theorem Sound.fates_below (sound : jitter.Sound) {fate : Fate} (member : fate ∈ jitter.fates) :
    ∃ next, jitter.nextEmit = some next ∧ fate.number < next := by
  cases known : jitter.nextEmit with
  | none =>
    rw [sound.unopened known] at member
    cases member
  | some next =>
    obtain ⟨_, first, _, ledger⟩ := sound.ledger next known
    have among : fate.number ∈ jitter.fates.map Fate.number := List.mem_map_of_mem member
    rw [ledger.numbers] at among
    obtain ⟨_, below⟩ := List.mem_range'_1.mp among
    have ordered := ledger.ordered
    exact ⟨next, rfl, by omega⟩

/-- What is emitted is emitted in its place. -/
theorem Sound.inPlace (sound : jitter.Sound) {number : Nat} {packet : RtpPacket}
    (member : .emitted number packet ∈ jitter.fates) : jitter.InPlace number := by
  obtain ⟨next, known, _⟩ := sound.fates_below member
  obtain ⟨_, first, _, ledger⟩ := sound.ledger next known
  have increasing : (jitter.fates.map Fate.number).Pairwise (· < ·) := by
    rw [ledger.numbers]
    exact List.pairwise_lt_range'
  obtain ⟨earlier, later, split⟩ := List.append_of_mem member
  rw [split, List.map_append, List.map_cons, List.pairwise_append, List.pairwise_cons] at increasing
  obtain ⟨_, ⟨above, _⟩, across⟩ := increasing
  refine ⟨earlier, packet, later, split, ?_, ?_⟩
  · exact fun fate before => across _ (List.mem_map_of_mem before) _ List.mem_cons_self
  · exact fun fate behind => above _ (List.mem_map_of_mem behind)

/-- A number ahead of all that was accounted for was not emitted. -/
theorem Sound.not_emitted (sound : jitter.Sound) {number : Nat} {packet : RtpPacket}
    (ahead : ∀ next, jitter.nextEmit = some next → next ≤ number) :
    .emitted number packet ∉ jitter.fates := by
  intro member
  obtain ⟨next, known, below⟩ := sound.fates_below member
  exact absurd below (Nat.not_lt_of_le (ahead next known))

/-- Emitting a number serves it, and leaves the others as they are. -/
theorem served_emit {after : JitterBuffer} {key : Nat} {packet : RtpPacket} {lost : List Fate}
    (stored : (key, packet) ∈ jitter.buffer.entries)
    (silent : ∀ number packet, .emitted number packet ∉ lost)
    (buffer : after.buffer = jitter.buffer.erase key)
    (fates : after.fates = jitter.fates ++ lost ++ [.emitted key packet]) (number : Nat) :
    after.Served number ↔ jitter.Served number := by
  unfold Served
  rw [buffer, fates]
  constructor
  · rintro (buffered | ⟨emitted, member⟩)
    · obtain ⟨held, member⟩ := Ordered.mem_keys.mp buffered
      exact .inl (Ordered.mem_keys.mpr ⟨held, (Ordered.mem_erase.mp member).1⟩)
    · rcases List.mem_append.mp member with earlier | last
      · rcases List.mem_append.mp earlier with old | new
        · exact .inr ⟨emitted, old⟩
        · exact absurd new (silent number emitted)
      · obtain ⟨rfl, rfl⟩ := Fate.emitted.inj (List.mem_singleton.mp last)
        exact .inl (Ordered.mem_keys.mpr ⟨emitted, stored⟩)
  · rintro (buffered | ⟨emitted, member⟩)
    · obtain ⟨held, member⟩ := Ordered.mem_keys.mp buffered
      by_cases own : number = key
      · subst own
        exact .inr ⟨packet, List.mem_append_right _ (List.mem_singleton.mpr rfl)⟩
      · exact .inl (Ordered.mem_keys.mpr ⟨held, Ordered.mem_erase.mpr ⟨member, own⟩⟩)
    · exact .inr ⟨emitted, List.mem_append_left _ (List.mem_append_left _ member)⟩

/-- A late number is not buffered. -/
theorem Sound.late_absent (sound : jitter.Sound) {number : Nat} (late : jitter.isLate number = true) :
    number ∉ jitter.buffer.keys := by
  intro buffered
  obtain ⟨held, member⟩ := Ordered.mem_keys.mp buffered
  unfold isLate at late
  cases known : jitter.nextEmit with
  | none =>
    rw [known] at late
    cases late
  | some next =>
    rw [known] at late
    exact absurd (of_decide_eq_true late) (Nat.not_lt_of_le (sound.ahead next known _ member))

/-- A number that is not late is ahead of all that was accounted for. -/
theorem ahead_of_not_late {number : Nat} (late : jitter.isLate number = false) :
    ∀ next, jitter.nextEmit = some next → next ≤ number := by
  intro next known
  unfold isLate at late
  rw [known] at late
  exact Nat.le_of_not_lt (of_decide_eq_false late)

/-- A poll gives up no number that is served, and serves no other. -/
theorem poll_served (sound : jitter.Sound) (nowMs number : Nat) :
    (jitter.poll nowMs).2.Served number ↔ jitter.Served number := by
  have outcome := poll_outcome jitter nowMs sound
  generalize jitter.poll nowMs = result at outcome
  cases outcome with
  | empty => exact Iff.rfl
  | next key packet expected stored lowest =>
    have fates : jitter.fates ++ [.emitted key packet] = jitter.fates ++ [] ++ [.emitted key packet] := by
      rw [List.append_nil]
    exact served_emit stored (fun _ _ => List.not_mem_nil) rfl fates number
  | gap key gapSize packet expected stored lowest =>
    refine served_emit stored ?_ rfl rfl number
    intro other packet member
    obtain ⟨offset, _, same⟩ := List.mem_map.mp member
    cases same

/-- Polling on serves the same numbers. -/
theorem pollWith_served (nowMs fuel : Nat) (sound : jitter.Sound) (number : Nat) :
    (pollWith nowMs fuel jitter).2.Sound ∧
      ((pollWith nowMs fuel jitter).2.Served number ↔ jitter.Served number) := by
  induction fuel generalizing jitter with
  | zero => exact ⟨sound, Iff.rfl⟩
  | succ fuel inductionHypothesis =>
    have kept := poll_sound sound nowMs
    have served := poll_served sound nowMs number
    unfold pollWith
    rcases polled : jitter.poll nowMs with ⟨_ | packet, after⟩
    · rw [polled] at kept served
      exact ⟨kept, served⟩
    · rw [polled] at kept served
      obtain ⟨dry, same⟩ := inductionHypothesis kept
      exact ⟨dry, same.trans served⟩

/-- A number is served exactly when polling the buffer dry emits it in its place. -/
theorem Sound.inPlace_iff (sound : jitter.Sound) (nowMs number : Nat) :
    (jitter.pollAll nowMs).2.InPlace number ↔ jitter.Served number := by
  obtain ⟨dry, same⟩ := pollWith_served nowMs (jitter.buffer.size + 1) sound number
  have empty : (jitter.pollAll nowMs).2.buffer.size = 0 :=
    pollWith_size nowMs _ jitter (Nat.lt_succ_self jitter.buffer.size)
  rw [← same]
  constructor
  · rintro ⟨earlier, packet, later, split, _⟩
    refine .inr ⟨packet, ?_⟩
    show _ ∈ (jitter.pollAll nowMs).2.fates
    rw [split]
    exact List.mem_append_right _ List.mem_cons_self
  · rintro (buffered | ⟨packet, emitted⟩)
    · obtain ⟨held, member⟩ := Ordered.mem_keys.mp buffered
      have filled := List.length_pos_of_mem member
      exact absurd empty (Nat.ne_of_gt filled)
    · exact dry.inPlace emitted

/-- What a push stores, and that it accounts for nothing. -/
theorem push_stored (jitter : JitterBuffer) (packet : RtpPacket) :
    (jitter.push packet).fates = jitter.fates ∧
      (jitter.push packet).buffer =
        if jitter.isLate (jitter.unwrapSeq packet.sequenceNumber).1 then jitter.buffer
        else (jitter.buffer.insert (jitter.unwrapSeq packet.sequenceNumber).1 packet).keepHighest
          jitter.capacity := by
  obtain ⟨highSeq, cycles, frame⟩ := unwrapSeq_frame jitter packet.sequenceNumber
  have sameLate : ∀ number, isLate { jitter with highSeq, cycles } number = jitter.isLate number :=
    fun _ => rfl
  unfold push
  dsimp only
  rw [frame, sameLate]
  split
  · exact ⟨rfl, rfl⟩
  · exact ⟨rfl, rfl⟩

/-- A late packet serves no number. -/
theorem push_served_late {packet : RtpPacket}
    (late : jitter.isLate (jitter.unwrapSeq packet.sequenceNumber).1 = true) (number : Nat) :
    (jitter.push packet).Served number ↔ jitter.Served number := by
  obtain ⟨fates, buffer⟩ := jitter.push_stored packet
  rw [if_pos late] at buffer
  unfold Served
  rw [fates, buffer]

/-- A packet in time serves its own number, and those the trimming leaves in place. -/
theorem push_served_stored {packet : RtpPacket}
    (late : jitter.isLate (jitter.unwrapSeq packet.sequenceNumber).1 = false) (number : Nat) :
    (jitter.push packet).Served number ↔
      let stored := jitter.buffer.insert (jitter.unwrapSeq packet.sequenceNumber).1 packet
      (number ∈ stored.keys ∧
        (stored.entries.filter fun other => number < other.1).length < jitter.capacity) ∨
        ∃ packet, .emitted number packet ∈ jitter.fates := by
  obtain ⟨fates, buffer⟩ := jitter.push_stored packet
  rw [if_neg (Bool.not_eq_true _ ▸ late)] at buffer
  unfold Served
  rw [fates, buffer, Ordered.mem_keys_keepHighest]

end JitterBuffer

namespace Stream

/-- The stream after an event. -/
def after (stream : Stream) (event : StreamEvent) : Stream := (stream.step event).getD stream

/-- A number that has arrived is emitted in its place once the buffer is polled dry. -/
def Kept (number : Nat) (stream : Stream) : Prop :=
  (∃ arrival ∈ stream.arrivals, arrival.2 = number) →
    ∀ nowMs, (stream.session.jitter.pollAll nowMs).2.InPlace number

/-- A number does not arrive behind the next one to emit, unless it was emitted before.
Where it is buffered, fewer higher numbers are buffered than there is room for. -/
def Prompt (number : Nat) (stream : Stream) : StreamEvent → Prop
  | .arrives arrival =>
    let jitter := stream.session.jitter
    let key := (jitter.unwrapSeq arrival.packet.sequenceNumber).1
    let stored := jitter.buffer.insert key arrival.packet
    if jitter.isLate key then key = number → ∃ packet, .emitted number packet ∈ jitter.fates
    else number ∈ stored.keys →
      (stored.entries.filter fun other => number < other.1).length < jitter.capacity
  | .polls _ => True
  | .drains => True

variable {stream : Stream} {number : Nat}

/-- An arrived number is kept when it is served. -/
theorem Tracked.kept_iff (tracked : stream.Tracked) :
    stream.Kept number ↔ ((∃ arrival ∈ stream.arrivals, arrival.2 = number) →
      stream.session.jitter.Served number) := by
  have sound := tracked.sound.jitter
  constructor
  · exact fun kept arrived => (sound.inPlace_iff 0 number).mp (kept arrived 0)
  · exact fun served arrived nowMs => (sound.inPlace_iff nowMs number).mpr (served arrived)

/-- Every event is possible. -/
theorem step_after (stream : Stream) (event : StreamEvent) :
    stream.step event = some (stream.after event) := by
  cases event with
  | arrives arrival => rfl
  | polls nowMs => rfl
  | drains => rfl

/-- A poll or a draining of events keeps a number as it was. -/
theorem Tracked.kept_aside (tracked : stream.Tracked) {event : StreamEvent}
    (followed : (stream.after event).Tracked)
    (arrivals : (stream.after event).arrivals = stream.arrivals)
    (served : (stream.after event).session.jitter.Served number ↔ stream.session.jitter.Served number) :
    (stream.after event).Kept number ↔ stream.Kept number := by
  rw [followed.kept_iff, tracked.kept_iff, arrivals, served]

/-- An arrival keeps a number that was kept, and the one that arrives, exactly when it is
prompt. -/
theorem Tracked.kept_arrives (tracked : stream.Tracked) (kept : stream.Kept number)
    {arrival : Arrival} (followed : (stream.after (.arrives arrival)).Tracked) :
    (stream.after (.arrives arrival)).Kept number ↔ stream.Prompt number (.arrives arrival) := by
  have sound := tracked.sound.jitter
  have before := tracked.kept_iff.mp kept
  rw [followed.kept_iff]
  have arrived : (∃ other ∈ (stream.after (.arrives arrival)).arrivals, other.2 = number) ↔
      (∃ other ∈ stream.arrivals, other.2 = number) ∨
        (stream.session.jitter.unwrapSeq arrival.packet.sequenceNumber).1 = number := by
    show (∃ other ∈ stream.arrivals ++ [_], other.2 = number) ↔ _
    simp [or_and_right, exists_or]
  rw [arrived]
  show (_ → (stream.session.jitter.push arrival.packet).Served number) ↔ _
  unfold Prompt
  dsimp only
  cases late : stream.session.jitter.isLate
      (stream.session.jitter.unwrapSeq arrival.packet.sequenceNumber).1 with
  | true =>
    rw [JitterBuffer.push_served_late late, if_pos rfl]
    constructor
    · intro served own
      subst own
      exact (served (.inr rfl)).resolve_left (sound.late_absent late)
    · rintro emitted (old | own)
      · exact before old
      · exact .inr (emitted own)
  | false =>
    have ahead := JitterBuffer.ahead_of_not_late late
    rw [JitterBuffer.push_served_stored late, if_neg Bool.false_ne_true]
    dsimp only
    constructor
    · intro served stored
      rcases Ordered.mem_keys_insert.mp stored with own | old
      · subst own
        rcases served (.inr rfl) with ⟨_, few⟩ | ⟨packet, emitted⟩
        · exact few
        · exact absurd emitted (sound.not_emitted ahead)
      · obtain ⟨held, member⟩ := Ordered.mem_keys.mp old
        obtain ⟨other, inside, same⟩ := tracked.stored _ member
        rcases served (.inl ⟨other, inside, congrArg Prod.fst same⟩) with ⟨_, few⟩ | ⟨packet, emitted⟩
        · exact few
        · exact absurd emitted (sound.not_emitted fun next known => sound.ahead next known _ member)
    · rintro few (old | own)
      · rcases before old with buffered | emitted
        · refine .inl ⟨?kept, few ?kept⟩
          exact Ordered.mem_keys_insert.mpr (.inr buffered)
        · exact .inr emitted
      · refine .inl ⟨?own, few ?own⟩
        exact Ordered.mem_keys_insert.mpr (.inl own.symm)

/-- One regular event. -/
theorem Tracked.kept_after (tracked : stream.Tracked) (kept : stream.Kept number)
    {event : StreamEvent} (regular : stream.Regular event) :
    (stream.after event).Tracked ∧
      ((stream.after event).Kept number ↔ stream.Prompt number event) := by
  have followed := step_tracked stream event _ tracked regular (stream.step_after event)
  refine ⟨followed, ?_⟩
  cases event with
  | arrives arrival => exact tracked.kept_arrives kept followed
  | polls nowMs =>
    rw [tracked.kept_aside followed rfl (JitterBuffer.poll_served tracked.sound.jitter nowMs number)]
    exact iff_true_intro kept
  | drains =>
    rw [tracked.kept_aside followed rfl Iff.rfl]
    exact iff_true_intro kept

/-- In a run without wrap problems, a number that arrives is emitted in its place after
every event exactly when every event is prompt for it.

A number that has arrived is buffered, or emitted, or too late. An event leaves it in its
place exactly if it is prompt, so this holds throughout exactly if every event is. -/
theorem kept_iff_prompt (capacity number : Nat) (events : List StreamEvent) :
    Throughout after (fun stream event => stream.Regular event ∧ (stream.after event).Kept number)
        (opened capacity) events ↔
      Throughout after (fun stream event => stream.Regular event ∧ stream.Prompt number event)
        (opened capacity) events := by
  have tracked : (opened capacity).Tracked := reached_tracked .start
  have initial : (opened capacity).Kept number := by
    rintro ⟨arrival, member, _⟩
    cases member
  refine throughout_iff (fun stream => stream.Tracked ∧ stream.Kept number) ?_ ?_ events
    ⟨tracked, initial⟩
  · rintro stream event ⟨tracked, kept⟩
    exact and_congr_right fun regular => (tracked.kept_after kept regular).2
  · rintro stream event ⟨tracked, kept⟩ ⟨regular, prompt⟩
    obtain ⟨followed, same⟩ := tracked.kept_after kept regular
    exact ⟨followed, same.mpr prompt⟩

/-- Three packets, the last two of them swapped, with a poll after each. -/
def swappedRun : List StreamEvent :=
  [.arrives (arrivalAt 0), .polls 0, .arrives (arrivalAt 2), .polls 10, .arrives (arrivalAt 1), .polls 20]

/-- The second packet arrives ten milliseconds after the third, is declared lost before
and dropped as late then, and only the others are returned. -/
theorem swapped_lost :
    let stream := swappedRun.foldl after (opened 128)
    Throughout after Regular (opened 128) swappedRun ∧
      stream.session.returned.map RtpPacket.sequenceNumber = [0, 2] ∧
      .packetLost 1 ∈ stream.session.jitter.events ∧ stream.session.jitter.stats.late = 1 := by
  decide +kernel

end Stream

end Seameet.Rtp

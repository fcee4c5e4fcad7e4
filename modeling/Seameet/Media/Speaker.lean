import Mathlib.Data.Rat.Floor
import Seameet.Library.Runs
import Seameet.Media.Holding
import Seameet.Sfu.Server

/-!
# The active speaker of a room

Every media task smooths the audio levels it reads and, twice a second, tells all
members of the room who is the loudest, if that is somebody else than the task has
told last. The packets a media task reads are its own participant's, so the levels it
compares are one participant's only: it tells of nobody else, and of its own
participant once. What the room hears last is therefore who was last to be heard for
the first time, whoever is the loudest now.

Levels are exact rationals. The tasks of a room share one map of registered peers,
which the handlers of the engine change as they please.
-/

namespace Seameet

open Library

/-- A media task with the locals it finds the active speaker by. -/
structure Speaker where
  task : Task
  /-- The smoothed level of each participant heard. -/
  audioLevels : Table ParticipantId ℚ
  currentActiveSpeaker : Option ParticipantId

namespace Speaker

/-- The level a participant has to exceed to be the active speaker. -/
def noise : ℚ := 10

/-- A drained event, with the audio level the library hands down with its packet, if it
does. The source takes it for decibels below the loudest, from 0 to 127. The library may
hand down a negative one as well, which counts for more than the loudest. -/
def hear (task : Task) (levels : Table ParticipantId ℚ) (event : RtcEvent × Option Int) :
    Table ParticipantId ℚ :=
  match event with
  | (.rtpPacket packet, some level) =>
      if packet.payloadType = task.ownAudioPt ∧ task.muted = false then
        let linear : ℚ := (max (127 - level) 0 : Int)
        let smoothed := (levels.lookup task.pid).getD 0
        levels.insert task.pid (3 / 10 * linear + 7 / 10 * smoothed)
      else levels
  | _ => levels

/-- The part of the loop before the next command. -/
def drainOutputs (rtc : Rtc) (speaker : Speaker) (events : List (RtcEvent × Option Int)) : Speaker :=
  { speaker with
    task := (speaker.task.drainOutputs rtc (events.map Prod.fst)).1
    audioLevels := events.foldl (hear speaker.task) speaker.audioLevels }

/-- One command from the queue. -/
def handle (rtc : Rtc) (speaker : Speaker) (cmd : PeerCmd) : Speaker :=
  { speaker with
    task := (speaker.task.handle rtc cmd).1
    audioLevels :=
      match cmd with
      | .peerLeft pid => speaker.audioLevels.erase pid
      | _ => speaker.audioLevels }

/-- The last of the greatest entries. -/
def maxBy (entries : List (ParticipantId × ℚ)) : Option (ParticipantId × ℚ) :=
  entries.foldl (fun best entry =>
    match best with
    | some (speaker, level) => if entry.2 < level then some (speaker, level) else some entry
    | none => some entry) none

/-- The loudest participant above the noise. -/
def loudest (speaker : Speaker) : Option (ParticipantId × ℚ) :=
  maxBy ((speaker.audioLevels.entries.filter fun entry => noise < entry.2).map fun entry =>
    (entry.1, entry.2))

/-- Levels fade between two packets. -/
def decay (speaker : Speaker) : Speaker :=
  { speaker with audioLevels := speaker.audioLevels.mapValues (17 / 20 * ·) }

/-- The smoothed level of the task's own participant. -/
def level (speaker : Speaker) : ℚ := (speaker.audioLevels.lookup speaker.task.pid).getD 0

/-- Whom the task tells the room of when its timer fires, with the level. -/
def news (speaker : Speaker) : Option (ParticipantId × ℚ) :=
  speaker.loudest.filter fun found => speaker.currentActiveSpeaker ≠ some found.1

/-- The timer fires. -/
def tick (speaker : Speaker) : Speaker :=
  decay { speaker with
    currentActiveSpeaker :=
      match speaker.news with
      | some (pid, _) => some pid
      | none => speaker.currentActiveSpeaker }

/-- A task before its first turn. -/
def start (pid : ParticipantId) (ownAudioPt ownVideoPt : Nat) (roomId : RoomId) (now : Nat)
    (answer : SdpAnswer) : Speaker :=
  { task := Task.start pid ownAudioPt ownVideoPt roomId now answer, audioLevels := ∅,
    currentActiveSpeaker := none }

end Speaker

/-- A message for all members of a room. -/
structure Broadcast where
  message : SdpMessage
  sinks : List WsSink
deriving DecidableEq

/-- The media tasks of a room, each under a number of its own. -/
structure SpeakerRoom where
  peers : Peers
  speakers : Table Nat Speaker
  /-- The number of the next task. -/
  next : Nat
  /-- The messages for all members, oldest first. -/
  broadcasts : List Broadcast

/-- What happens next in a room. -/
inductive SpeakerEvent where
  | starts (pid : ParticipantId) (ownAudioPt ownVideoPt : Nat) (roomId : RoomId) (now : Nat)
      (answer : SdpAnswer)
  | ends (task : Nat)
  | drained (task : Nat) (rtc : Rtc) (events : List (RtcEvent × Option Int))
  | command (task : Nat) (rtc : Rtc) (cmd : PeerCmd)
  /-- A task's timer has run for half a second. -/
  | ticks (task : Nat)
  /-- The handlers of the engine change the map of registered peers. -/
  | registered (peers : Peers)

namespace SpeakerRoom

/-- A room nobody has been registered in. -/
def new : SpeakerRoom := { peers := ∅, speakers := ∅, next := 0, broadcasts := [] }

/-- What a task tells the room when its timer fires. -/
def announce (peers : Peers) (speaker : Speaker) : List Broadcast :=
  match speaker.news with
  | some (pid, level) =>
      [{ message := .activeSpeaker speaker.task.roomId pid (min ⌊level⌋₊ 127)
         sinks := peers.values.map SfuPeer.wsTx }]
  | none => []

/-- One step of the room; none when the event cannot happen. The timer of a task counts
only once media has started. -/
def step (room : SpeakerRoom) : SpeakerEvent → Option SpeakerRoom
  | .starts pid ownAudioPt ownVideoPt roomId now answer =>
      some { room with
        speakers := room.speakers.insert room.next
          (.start pid ownAudioPt ownVideoPt roomId now answer)
        next := room.next + 1 }
  | .ends task =>
      (room.speakers.lookup task).map fun _ =>
        { room with speakers := room.speakers.erase task }
  | .drained task rtc events =>
      (room.speakers.lookup task).map fun speaker =>
        { room with speakers := room.speakers.insert task (speaker.drainOutputs rtc events) }
  | .command task rtc cmd =>
      (room.speakers.lookup task).map fun speaker =>
        { room with speakers := room.speakers.insert task (speaker.handle rtc cmd) }
  | .ticks task =>
      (room.speakers.lookup task).bind fun speaker =>
        if speaker.task.mediaStarted then
          some { room with
            speakers := room.speakers.insert task speaker.tick
            broadcasts := room.broadcasts ++ announce room.peers speaker }
        else none
  | .registered peers => some { room with peers }

end SpeakerRoom

/-- Whom a broadcast tells of. -/
def Broadcast.speaker (broadcast : Broadcast) : Option ParticipantId :=
  match broadcast.message with
  | .activeSpeaker _ speaker _ => some speaker
  | _ => none

/-- Whom the room was last told of. -/
def SpeakerRoom.lastSpeaker (room : SpeakerRoom) : Option ParticipantId :=
  room.broadcasts.getLast?.bind Broadcast.speaker

/-- A room with what has been heard in it. -/
structure Hearing where
  room : SpeakerRoom
  /-- The tasks whose timer has fired at a level above the noise, each with its
  participant, in the order of the first time it did. -/
  heard : List (Nat × ParticipantId)
  /-- The tasks whose timer has fired since a packet or a departure changed a level. -/
  settled : List Nat

namespace Hearing

/-- Nothing has been heard in a new room. -/
def new : Hearing := { room := .new, heard := [], settled := [] }

/-- The levels of a task. -/
def levels (room : SpeakerRoom) (task : Nat) : Option (Table ParticipantId ℚ) :=
  (room.speakers.lookup task).map Speaker.audioLevels

/-- What is known to have been heard once a task's timer has fired. -/
def note (hearing : Hearing) (task : Nat) : List (Nat × ParticipantId) :=
  match hearing.room.speakers.lookup task with
  | some speaker =>
      if Speaker.noise < speaker.level ∧ task ∉ hearing.heard.map Prod.fst then
        hearing.heard ++ [(task, speaker.task.pid)]
      else hearing.heard
  | none => hearing.heard

/-- One step of the room, noting what is heard. The fading of levels between two packets
is no change of a level. -/
def step (hearing : Hearing) (event : SpeakerEvent) : Option Hearing :=
  (hearing.room.step event).map fun room =>
    match event with
    | .ticks task => { room, heard := hearing.note task, settled := task :: hearing.settled }
    | .drained task _ _ | .command task _ _ =>
        { room, heard := hearing.heard
          settled := if levels room task = levels hearing.room task then hearing.settled else [] }
    | _ => { hearing with room }

/-- The participant's level is above the noise and strictly the highest in the room. -/
structure Loudest (hearing : Hearing) (task : Nat) (speaker : Speaker) : Prop where
  present : hearing.room.speakers.lookup task = some speaker
  above : Speaker.noise < speaker.level
  highest : ∀ other found, hearing.room.speakers.lookup other = some found →
    found.task.pid ≠ speaker.task.pid → found.level < speaker.level

/-- Nobody else was heard for the first time after the participant. -/
def HeardLast (hearing : Hearing) (pid : ParticipantId) : Prop :=
  ∀ older entry newer, hearing.heard = older ++ entry :: newer → entry.2 ≠ pid →
    ∃ own ∈ newer, own.2 = pid

end Hearing

namespace Speaker

variable {speaker : Speaker}

/-- A task keeps a level of its own participant only. -/
def Own (speaker : Speaker) : Prop :=
  ∀ pid level, speaker.audioLevels.lookup pid = some level → pid = speaker.task.pid

/-- Reading packets adds a level of the task's own participant only. -/
theorem hear_own (task : Task) (events : List (RtcEvent × Option Int))
    (levels : Table ParticipantId ℚ)
    (own : ∀ pid level, levels.lookup pid = some level → pid = task.pid) :
    ∀ pid level, (events.foldl (hear task) levels).lookup pid = some level → pid = task.pid := by
  induction events generalizing levels with
  | nil => exact own
  | cons event events inductionHypothesis =>
    apply inductionHypothesis
    intro pid level present
    unfold hear at present
    split at present
    · split at present
      · rw [Table.lookup_insert_eq] at present
        split at present
        · assumption
        · exact own pid level present
      · exact own pid level present
    · exact own pid level present

/-- A drain keeps the task's participant, and its levels its own. -/
theorem drainOutputs_own (rtc : Rtc) (events : List (RtcEvent × Option Int)) (own : speaker.Own) :
    (speaker.drainOutputs rtc events).task.pid = speaker.task.pid ∧
      (speaker.drainOutputs rtc events).Own := by
  have same : (speaker.drainOutputs rtc events).task.pid = speaker.task.pid :=
    (speaker.task.drainOutputs_frame rtc (events.map Prod.fst)).1
  refine ⟨same, ?_⟩
  intro pid level present
  rw [same]
  exact hear_own speaker.task events speaker.audioLevels own pid level present

/-- A command keeps the task's participant, and its levels its own. -/
theorem handle_own (rtc : Rtc) (cmd : PeerCmd) (own : speaker.Own) :
    (speaker.handle rtc cmd).task.pid = speaker.task.pid ∧ (speaker.handle rtc cmd).Own := by
  have same : (speaker.handle rtc cmd).task.pid = speaker.task.pid :=
    (speaker.task.handle_frame rtc cmd).1
  refine ⟨same, ?_⟩
  intro pid level present
  rw [same]
  unfold handle at present
  cases cmd with
  | peerLeft left =>
    simp only [Table.lookup_erase_eq, Option.ite_none_left_eq_some] at present
    exact own pid level present.2
  | _ => exact own pid level present

/-- A timer keeps the levels of a task its own, and lets them fade. -/
theorem tick_own (own : speaker.Own) :
    speaker.tick.task = speaker.task ∧ speaker.tick.Own ∧
      speaker.tick.level = 17 / 20 * speaker.level := by
  refine ⟨rfl, ?_, ?_⟩
  · intro pid level present
    simp only [tick, decay, Table.lookup_mapValues, Option.map_eq_some_iff] at present
    obtain ⟨before, stored, _⟩ := present
    exact own pid before stored
  · simp only [level, tick, decay, Table.lookup_mapValues]
    cases speaker.audioLevels.lookup speaker.task.pid <;> simp

/-- The levels of a task are none, or its participant's. -/
theorem entries_of_own (own : speaker.Own) : speaker.audioLevels.entries = [] ∨
    speaker.audioLevels.entries = [⟨speaker.task.pid, speaker.level⟩] := by
  have only : ∀ entry ∈ speaker.audioLevels.entries,
      entry = ⟨speaker.task.pid, speaker.level⟩ := by
    rintro ⟨pid, found⟩ listed
    have present := (Table.mem_entries pid found speaker.audioLevels).mp listed
    have same := own pid found present
    subst same
    simp [level, present]
  have repeated := List.eq_replicate_iff.mpr ⟨rfl, only⟩
  have once : speaker.audioLevels.entries.length ≤ 1 := by
    apply List.nodup_replicate.mp
    rw [← repeated]
    exact speaker.audioLevels.nodupKeys.nodup
  rcases Nat.le_one_iff_eq_zero_or_eq_one.mp once with none | one
  · exact .inl (List.length_eq_zero_iff.mp none)
  · right
    rw [one] at repeated
    exact repeated

/-- A task finds its own participant the loudest, once it is above the noise. -/
theorem loudest_of_own (own : speaker.Own) : speaker.loudest =
    if noise < speaker.level then some (speaker.task.pid, speaker.level) else none := by
  rcases entries_of_own own with none | one
  · have silent : speaker.level = 0 := by
      cases stored : speaker.audioLevels.lookup speaker.task.pid with
      | none => rw [level, stored, Option.getD_none]
      | some found =>
        have listed := (Table.mem_entries _ _ _).mpr stored
        simp [none] at listed
    simp [loudest, maxBy, none, silent, noise]
  · by_cases above : noise < speaker.level <;> simp [loudest, maxBy, one, above]

/-- What a task tells the room: of its own participant, above the noise, unless it has
told of it last. -/
theorem news_of_own (own : speaker.Own) : speaker.news =
    if noise < speaker.level ∧ speaker.currentActiveSpeaker ≠ some speaker.task.pid then
      some (speaker.task.pid, speaker.level) else none := by
  rw [news, loudest_of_own own]
  by_cases above : noise < speaker.level
  · by_cases told : speaker.currentActiveSpeaker = some speaker.task.pid <;>
      simp [above, told, Option.filter]
  · simp [above]

end Speaker

namespace Hearing

variable {hearing after : Hearing}

/-- Each task has told the room of its participant once it was heard, and of nothing
else; and a settled task above the noise was heard. -/
structure Faithful (hearing : Hearing) : Prop where
  own : ∀ task speaker, hearing.room.speakers.lookup task = some speaker → speaker.Own
  memory : ∀ task speaker, hearing.room.speakers.lookup task = some speaker →
    speaker.currentActiveSpeaker =
      if task ∈ hearing.heard.map Prod.fst then some speaker.task.pid else none
  numbered : (∀ task speaker, hearing.room.speakers.lookup task = some speaker →
    task < hearing.room.next) ∧ ∀ entry ∈ hearing.heard, entry.1 < hearing.room.next
  named : ∀ entry ∈ hearing.heard, ∀ speaker,
    hearing.room.speakers.lookup entry.1 = some speaker → entry.2 = speaker.task.pid
  told : hearing.room.broadcasts.map Broadcast.speaker =
    hearing.heard.map fun entry => some entry.2
  settled : ∀ task speaker, hearing.room.speakers.lookup task = some speaker →
    task ∈ hearing.settled → Speaker.noise < speaker.level →
      (task, speaker.task.pid) ∈ hearing.heard

namespace Faithful

/-- A new room. -/
theorem new : Hearing.new.Faithful where
  own task speaker present := by simp [Hearing.new, SpeakerRoom.new] at present
  memory task speaker present := by simp [Hearing.new, SpeakerRoom.new] at present
  numbered := by simp [Hearing.new, SpeakerRoom.new]
  named := by simp [Hearing.new]
  told := rfl
  settled task speaker present := by simp [Hearing.new, SpeakerRoom.new] at present

/-- A task takes a turn that leaves its memory and, if it counts as settled, its level. -/
theorem turn (faithful : hearing.Faithful) {task : Nat} {speaker later : Speaker}
    (present : hearing.room.speakers.lookup task = some speaker) (own : later.Own)
    (pid : later.task.pid = speaker.task.pid)
    (memory : later.currentActiveSpeaker = speaker.currentActiveSpeaker) :
    ({ room := { hearing.room with speakers := hearing.room.speakers.insert task later }
       heard := hearing.heard
       settled := if some later.audioLevels = some speaker.audioLevels then hearing.settled
         else [] } : Hearing).Faithful where
  own := by
    intro other found known
    simp only [Table.lookup_insert_eq] at known
    split at known
    · cases known
      exact own
    · exact faithful.own other found known
  memory := by
    intro other found known
    simp only [Table.lookup_insert_eq] at known
    split at known
    · rename_i same
      cases known
      rw [memory, pid, same]
      exact faithful.memory task speaker present
    · exact faithful.memory other found known
  numbered := by
    refine ⟨?_, faithful.numbered.2⟩
    intro other found known
    simp only [Table.lookup_insert_eq] at known
    split at known
    · rename_i same
      exact same ▸ faithful.numbered.1 task speaker present
    · exact faithful.numbered.1 other found known
  named := by
    intro entry listed found known
    simp only [Table.lookup_insert_eq] at known
    split at known
    · rename_i same
      cases known
      rw [pid]
      exact faithful.named entry listed speaker (same ▸ present)
    · exact faithful.named entry listed found known
  told := faithful.told
  settled := by
    intro other found known settled above
    split at settled
    · rename_i kept
      simp only [Table.lookup_insert_eq] at known
      split at known
      · rename_i same
        cases known
        rw [pid, same]
        refine faithful.settled task speaker present (same ▸ settled) ?_
        rwa [Speaker.level, Option.some.inj kept, pid] at above
      · exact faithful.settled other found known settled above
    · simp at settled

/-- What a task's timer adds to what was heard: its participant if it is heard for the
first time, and then the room is told so; otherwise nothing, and the room is told
nothing. -/
theorem note_fresh (faithful : hearing.Faithful) {task : Nat} {speaker : Speaker}
    (present : hearing.room.speakers.lookup task = some speaker) :
    ∃ fresh, hearing.note task = hearing.heard ++ fresh ∧
      (∀ entry ∈ fresh, entry = (task, speaker.task.pid)) ∧
      (SpeakerRoom.announce hearing.room.peers speaker).map Broadcast.speaker =
        fresh.map (fun entry => some entry.2) ∧
      speaker.tick.currentActiveSpeaker =
        (if task ∈ (hearing.heard ++ fresh).map Prod.fst then some speaker.task.pid else none) ∧
      (Speaker.noise < speaker.level → (task, speaker.task.pid) ∈ hearing.heard ++ fresh) := by
  have memory := faithful.memory task speaker present
  have news := Speaker.news_of_own (faithful.own task speaker present)
  simp only [note, present]
  by_cases before : task ∈ hearing.heard.map Prod.fst
  · rw [if_pos before] at memory
    rw [memory] at news
    simp only [ne_eq, not_true_eq_false, and_false, if_false] at news
    refine ⟨[], by simp [before], by simp, by simp [SpeakerRoom.announce, news], ?_, ?_⟩
    · simp only [List.append_nil, if_pos before]
      simp only [Speaker.tick, Speaker.decay, news]
      exact memory
    · intro _
      obtain ⟨entry, listed, rfl⟩ := List.mem_map.mp before
      rw [List.append_nil, ← faithful.named entry listed speaker present]
      exact listed
  · rw [if_neg before] at memory
    rw [memory] at news
    by_cases above : Speaker.noise < speaker.level
    · simp only [above, ne_eq, reduceCtorEq, not_false_eq_true, and_self, if_true] at news
      refine ⟨[(task, speaker.task.pid)], by simp [before, above], by simp,
        by simp [SpeakerRoom.announce, news, Broadcast.speaker], ?_, by simp⟩
      simp [Speaker.tick, Speaker.decay, news]
    · simp only [above, false_and, if_false] at news
      refine ⟨[], by simp [above], by simp, by simp [SpeakerRoom.announce, news], ?_,
        fun loud => absurd loud above⟩
      simp only [List.append_nil, if_neg before]
      simp only [Speaker.tick, Speaker.decay, news]
      exact memory

/-- A task's timer fires. -/
theorem ticked (faithful : hearing.Faithful) {task : Nat} {speaker : Speaker}
    (present : hearing.room.speakers.lookup task = some speaker) :
    ({ room := { hearing.room with
          speakers := hearing.room.speakers.insert task speaker.tick
          broadcasts := hearing.room.broadcasts ++
            SpeakerRoom.announce hearing.room.peers speaker }
       heard := hearing.note task
       settled := task :: hearing.settled } : Hearing).Faithful := by
  obtain ⟨same, own, fades⟩ := Speaker.tick_own (faithful.own task speaker present)
  obtain ⟨fresh, noted, mine, said, remembers, loud⟩ := faithful.note_fresh present
  have known : ∀ {other found}, (hearing.room.speakers.insert task speaker.tick).lookup other =
      some found → (other = task ∧ found = speaker.tick) ∨
        (other ≠ task ∧ hearing.room.speakers.lookup other = some found) := by
    intro other found present
    rw [Table.lookup_insert_eq] at present
    split at present
    · exact .inl ⟨‹_›, (Option.some.inj present).symm⟩
    · exact .inr ⟨‹_›, present⟩
  rw [noted]
  constructor
  · intro other found stored
    rcases known stored with ⟨rfl, rfl⟩ | ⟨_, before⟩
    · exact own
    · exact faithful.own other found before
  · intro other found stored
    rcases known stored with ⟨rfl, rfl⟩ | ⟨apart, before⟩
    · rw [remembers, same]
    · have still : other ∈ (hearing.heard ++ fresh).map Prod.fst ↔
          other ∈ hearing.heard.map Prod.fst := by
        rw [List.map_append, List.mem_append, or_iff_left]
        intro now
        obtain ⟨entry, listed, rfl⟩ := List.mem_map.mp now
        exact apart (congrArg Prod.fst (mine entry listed))
      simp only [still]
      exact faithful.memory other found before
  · refine ⟨?_, ?_⟩
    · intro other found stored
      rcases known stored with ⟨rfl, rfl⟩ | ⟨_, before⟩
      · exact faithful.numbered.1 other speaker present
      · exact faithful.numbered.1 other found before
    · intro entry listed
      rcases List.mem_append.mp listed with before | now
      · exact faithful.numbered.2 entry before
      · rw [mine entry now]
        exact faithful.numbered.1 task speaker present
  · intro entry listed found stored
    rcases List.mem_append.mp listed with before | now
    · rcases known stored with ⟨here, rfl⟩ | ⟨_, stored⟩
      · exact faithful.named entry before speaker (here ▸ present)
      · exact faithful.named entry before found stored
    · rw [mine entry now] at stored ⊢
      rcases known stored with ⟨_, rfl⟩ | ⟨apart, _⟩
      · rfl
      · exact absurd rfl apart
  · simp only [List.map_append, faithful.told, said]
  · intro other found stored settled above
    rcases known stored with ⟨rfl, rfl⟩ | ⟨apart, before⟩
    · refine loud ?_
      rw [fades] at above
      unfold Speaker.noise at above ⊢
      linarith
    · exact List.mem_append_left _ (faithful.settled other found before
        ((List.mem_cons.mp settled).resolve_left apart) above)

/-- A task with no levels and no memory starts under the next number. -/
theorem started (faithful : hearing.Faithful) (speaker : Speaker)
    (fresh : speaker.Own ∧ speaker.currentActiveSpeaker = none ∧ speaker.level = 0) :
    ({ hearing with room := { hearing.room with
        speakers := hearing.room.speakers.insert hearing.room.next speaker
        next := hearing.room.next + 1 } } : Hearing).Faithful := by
  have unheard : hearing.room.next ∉ hearing.heard.map Prod.fst := by
    intro listed
    obtain ⟨entry, listed, same⟩ := List.mem_map.mp listed
    exact absurd (faithful.numbered.2 entry listed) (by omega)
  have known : ∀ {other found}, (hearing.room.speakers.insert hearing.room.next speaker).lookup
      other = some found → (other = hearing.room.next ∧ found = speaker) ∨
        hearing.room.speakers.lookup other = some found := by
    intro other found present
    rw [Table.lookup_insert_eq] at present
    split at present
    · exact .inl ⟨‹_›, (Option.some.inj present).symm⟩
    · exact .inr present
  constructor
  · intro other found present
    rcases known present with ⟨_, rfl⟩ | before
    · exact fresh.1
    · exact faithful.own other found before
  · intro other found present
    rcases known present with ⟨rfl, rfl⟩ | before
    · rw [if_neg unheard]
      exact fresh.2.1
    · exact faithful.memory other found before
  · refine ⟨?_, fun entry listed => Nat.lt_succ_of_lt (faithful.numbered.2 entry listed)⟩
    intro other found present
    rcases known present with ⟨rfl, _⟩ | before
    · exact Nat.lt_succ_self _
    · exact Nat.lt_succ_of_lt (faithful.numbered.1 other found before)
  · intro entry listed found present
    rcases known present with ⟨here, _⟩ | before
    · exact absurd (List.mem_map.mpr ⟨entry, listed, here⟩) unheard
    · exact faithful.named entry listed found before
  · exact faithful.told
  · intro other found present settled above
    rcases known present with ⟨_, rfl⟩ | before
    · rw [fresh.2.2] at above
      exact absurd above (by decide)
    · exact faithful.settled other found before settled above

/-- Every step of the room keeps the tasks faithful to what was heard. -/
theorem step (faithful : hearing.Faithful) (event : SpeakerEvent)
    (stepped : hearing.step event = some after) : after.Faithful := by
  obtain ⟨room, moved, rfl⟩ := Option.map_eq_some_iff.mp stepped
  cases event with
  | starts pid ownAudioPt ownVideoPt roomId now answer =>
    cases moved
    exact faithful.started _ ⟨by simp [Speaker.Own, Speaker.start], rfl, by
      simp [Speaker.level, Speaker.start]⟩
  | ends task =>
    obtain ⟨speaker, present, rfl⟩ := Option.map_eq_some_iff.mp moved
    have before : ∀ {other found}, (hearing.room.speakers.erase task).lookup other = some found →
        hearing.room.speakers.lookup other = some found := by
      intro other found known
      simp only [Table.lookup_erase_eq, Option.ite_none_left_eq_some] at known
      exact known.2
    exact ⟨fun other found known => faithful.own other found (before known),
      fun other found known => faithful.memory other found (before known),
      ⟨fun other found known => faithful.numbered.1 other found (before known),
        faithful.numbered.2⟩,
      fun entry listed found known => faithful.named entry listed found (before known),
      faithful.told, fun other found known => faithful.settled other found (before known)⟩
  | drained task rtc events =>
    obtain ⟨speaker, present, rfl⟩ := Option.map_eq_some_iff.mp moved
    obtain ⟨pid, own⟩ := Speaker.drainOutputs_own rtc events (faithful.own task speaker present)
    simpa only [levels, Table.lookup_insert_eq, if_pos, present, Option.map_some]
      using faithful.turn present own pid rfl
  | command task rtc cmd =>
    obtain ⟨speaker, present, rfl⟩ := Option.map_eq_some_iff.mp moved
    obtain ⟨pid, own⟩ := Speaker.handle_own rtc cmd (faithful.own task speaker present)
    simpa only [levels, Table.lookup_insert_eq, if_pos, present, Option.map_some]
      using faithful.turn present own pid rfl
  | ticks task =>
    obtain ⟨speaker, present, moved⟩ := Option.bind_eq_some_iff.mp moved
    split at moved
    · cases moved
      exact faithful.ticked present
    · simp at moved
  | registered peers =>
    cases moved
    exact ⟨faithful.own, faithful.memory, faithful.numbered, faithful.named, faithful.told,
      faithful.settled⟩

/-- The room was last told of the participant that was last heard for the first time. -/
theorem lastSpeaker (faithful : hearing.Faithful) :
    hearing.room.lastSpeaker = hearing.heard.getLast?.map Prod.snd := by
  have told := congrArg List.getLast? faithful.told
  rw [List.getLast?_map, List.getLast?_map] at told
  rw [SpeakerRoom.lastSpeaker]
  cases last : hearing.room.broadcasts.getLast? with
  | none =>
    rw [last] at told
    cases heard : hearing.heard.getLast? with
    | none => rfl
    | some entry => simp [heard] at told
  | some broadcast =>
    rw [last] at told
    cases heard : hearing.heard.getLast? with
    | none => simp [heard] at told
    | some entry => simpa [heard] using told

end Faithful

/-- Nobody else was heard for the first time after a participant that was heard, exactly
when the last to be heard is the participant. -/
theorem heardLast_iff {pid : ParticipantId} (heard : ∃ entry ∈ hearing.heard, entry.2 = pid) :
    hearing.HeardLast pid ↔ hearing.heard.getLast?.map Prod.snd = some pid := by
  rw [HeardLast]
  generalize hearing.heard = list at heard
  rcases List.eq_nil_or_concat list with rfl | ⟨front, last, rfl⟩
  · simp at heard
  rw [List.concat_eq_append, List.getLast?_concat, Option.map_some, Option.some_inj]
  constructor
  · intro newest
    by_contra other
    obtain ⟨_, none, _⟩ := newest front last [] rfl other
    simp at none
  · intro own older entry newer parts other
    rcases List.eq_nil_or_concat newer with rfl | ⟨rest, final, rfl⟩
    · have same := (List.append_inj' parts rfl).2
      cases same
      exact absurd own other
    · rw [List.concat_eq_append, ← List.cons_append, ← List.append_assoc] at parts
      have same := (List.append_inj' parts rfl).2
      cases same
      exact ⟨last, by simp, own⟩

/-- In every state of a room reached, once every task's timer has fired since a level last
changed: the participant whose level is above the noise and strictly the highest is the
one the room was last told of exactly when nobody else was heard for the first time after
it.

A task whose timer has fired has told the room once it was heard. The room keeps whoever
told it last, so the question is only who came after the loudest one. -/
theorem told_of_loudest_iff {hearing : Hearing}
    (reached : Reaches step always new hearing)
    (settled : ∀ task speaker, hearing.room.speakers.lookup task = some speaker →
      task ∈ hearing.settled)
    {task : Nat} {speaker : Speaker} (loudest : hearing.Loudest task speaker) :
    hearing.room.lastSpeaker = some speaker.task.pid ↔ hearing.HeardLast speaker.task.pid := by
  have faithful : hearing.Faithful :=
    reached.invariant Faithful .new fun _ event _ faithful _ stepped => faithful.step event stepped
  have heard := faithful.settled task speaker loudest.present
    (settled task speaker loudest.present) loudest.above
  rw [faithful.lastSpeaker, heardLast_iff ⟨_, heard, rfl⟩]

/-- Whether a task is its participant's and the loudest. -/
def speaks (hearing : Hearing) (task : Nat) (pid : ParticipantId) : Bool :=
  (hearing.room.speakers.lookup task).any fun speaker =>
    decide (speaker.task.pid = pid ∧ Speaker.noise < speaker.level ∧
      hearing.room.speakers.Every fun _ found =>
        found.task.pid ≠ speaker.task.pid → found.level < speaker.level)

/-- A task that passes the test is the loudest. -/
theorem loudest_of_speaks {task : Nat} {pid : ParticipantId}
    (speaks : hearing.speaks task pid = true) :
    ∃ speaker, hearing.Loudest task speaker ∧ speaker.task.pid = pid := by
  obtain ⟨speaker, present, passes⟩ := (Option.any_eq_true _ _).mp speaks
  obtain ⟨same, above, highest⟩ := of_decide_eq_true passes
  exact ⟨speaker, ⟨present, above, highest⟩, same⟩

/-- Two participants are registered and their media tasks start. -/
def meeting : List SpeakerEvent :=
  [.starts ⟨1⟩ 111 96 "a" 0 twoLines, .starts ⟨2⟩ 111 96 "a" 0 twoLines, .drained 0 still [],
    .drained 1 still [], .registered (((∅ : Peers).insert ⟨1⟩ { wsTx := 1, gen := 1 }).insert ⟨2⟩
      { wsTx := 2, gen := 2 })]
where
  twoLines : SdpAnswer :=
    { sdp := "", mids := [(⟨"0"⟩, .audio), (⟨"1"⟩, .video)], distinct := by decide }
  still : Rtc := Rtc.plain (fun _ => none) 0

/-- A participant speaks, and all timers fire. -/
def floor (task : Nat) : List SpeakerEvent :=
  [.drained task meeting.still
      [(.rtpPacket { payloadType := 111, ssrc := 7, seqNo := 0, timestamp := 0, marker := false
                     payload := [] }, some 0)],
    .ticks 0, .ticks 1]

/-- The first participant speaks and then the second: the room was last told of the
second. -/
theorem told_of_loudest_first_time :
    let hearing := (walk step always new (meeting ++ floor 0 ++ floor 1)).getD new
    hearing.speaks 1 ⟨2⟩ = true ∧ hearing.room.lastSpeaker = some ⟨2⟩ := by
  intro hearing
  have reached : Reaches step always new hearing := walk_reaches_end _ _ _ _ (by decide +kernel)
  have speaks : hearing.speaks 1 ⟨2⟩ = true := by decide +kernel
  obtain ⟨speaker, loudest, same⟩ := loudest_of_speaks speaks
  have settled : hearing.room.speakers.Every fun task _ => task ∈ hearing.settled := by
    decide +kernel
  have order : hearing.heard = [(0, ⟨1⟩), (1, ⟨2⟩)] := by decide +kernel
  have last : hearing.HeardLast speaker.task.pid := by
    rw [same, heardLast_iff ⟨(1, ⟨2⟩), by simp [order], rfl⟩, order]
    rfl
  refine ⟨speaks, ?_⟩
  rw [← same]
  exact (told_of_loudest_iff reached settled loudest).mpr last

/-- The floor passes to the second participant and back: the first is the loudest again,
and the room was last told of the second. -/
theorem floor_passes_back :
    ∃ hearing, Reaches step always new hearing ∧
      (hearing.room.speakers.Every fun task _ => task ∈ hearing.settled) ∧
      (∃ speaker, hearing.Loudest 0 speaker ∧ speaker.task.pid = ⟨1⟩) ∧
      hearing.room.lastSpeaker = some ⟨2⟩ ∧
      hearing.room.broadcasts.map Broadcast.speaker = [some ⟨1⟩, some ⟨2⟩] := by
  refine ⟨(walk step always new (meeting ++ floor 0 ++ floor 1 ++ floor 0 ++ floor 0)).getD new,
    walk_reaches_end _ _ _ _ (by decide +kernel), by decide +kernel,
    loudest_of_speaks (by decide +kernel), by decide +kernel, by decide +kernel⟩

end Hearing

end Seameet

import Mathlib.Logic.Function.Basic
import Seameet.Engine.Service

/-!
# The in-flight counters of one receiver

Two atomic counters say how many audio and how many video packets wait in a
receiver's queue. A sender task loads the counter of its packet's kind and drops
the packet at the cap; otherwise it adds one and sends. The receiver subtracts
one for each packet it takes. Any number of sender tasks do this at the same
time, and the load is one atomic operation, the addition another.

The counters are exact in every state, which is why the model of the whole
service reads the queue in their place. The caps hold as long as a sender that
found room still finds it when it adds: what one sender admits between the load
and the addition of another is not seen. Audio has its own counter, so what
becomes of the audio packets is what would become of them without any video.
-/

namespace Seameet

open Library

/-- The most packets of a kind that may be in flight. -/
def inflightCap (isAudio : Bool) : Nat := if isAudio then audioInflightCap else videoInflightCap

/-- A receiver's counters and queue, what its senders are about to send, and what
they dropped. -/
structure Inbox where
  audioInflight : Int
  videoInflight : Int
  queue : List PeerCmd
  /-- The packet a sender task has found room for and not sent yet. -/
  admitted : Nat → Option ForwardedMedia
  dropped : List ForwardedMedia

/-- One atomic operation of a sender task or of the receiver. -/
inductive InboxStep where
  /-- A sender loads the counter for a packet. -/
  | loads (sender : Nat) (packet : ForwardedMedia)
  /-- A sender adds to the counter and sends the packet. -/
  | sends (sender : Nat)
  /-- A command that is no packet is sent. -/
  | posts (cmd : PeerCmd)
  /-- The receiver takes a command, and subtracts from the counter for a packet. -/
  | dequeues

namespace Inbox

/-- A receiver nothing was sent to. -/
def new : Inbox :=
  { audioInflight := 0, videoInflight := 0, queue := [], admitted := fun _ => none, dropped := [] }

/-- The counter of a kind. -/
def counter (inbox : Inbox) (isAudio : Bool) : Int :=
  if isAudio then inbox.audioInflight else inbox.videoInflight

/-- Add to the counter of a kind. -/
def fetchAdd (inbox : Inbox) (isAudio : Bool) (change : Int) : Inbox :=
  if isAudio then { inbox with audioInflight := inbox.audioInflight + change }
  else { inbox with videoInflight := inbox.videoInflight + change }

/-- The receiver's part of taking a command: a packet releases its place at once. -/
def release (inbox : Inbox) : PeerCmd → Inbox
  | .media packet => inbox.fetchAdd packet.isAudio (-1)
  | _ => inbox

/-- Take one step, if it can be taken. -/
def step (inbox : Inbox) : InboxStep → Option Inbox
  | .loads sender packet =>
      if inbox.admitted sender = none then
        if inflightCap packet.isAudio ≤ inbox.counter packet.isAudio then
          some { inbox with dropped := inbox.dropped ++ [packet] }
        else some { inbox with admitted := Function.update inbox.admitted sender (some packet) }
      else none
  | .sends sender =>
      (inbox.admitted sender).map fun packet =>
        { inbox.fetchAdd packet.isAudio 1 with
          queue := inbox.queue ++ [.media packet]
          admitted := Function.update inbox.admitted sender none }
  | .posts cmd =>
      if cmd.carries true || cmd.carries false then none
      else some { inbox with queue := inbox.queue ++ [cmd] }
  | .dequeues =>
      match inbox.queue with
      | cmd :: rest => some { inbox.release cmd with queue := rest }
      | [] => none

/-- Each counter is the number of packets of its kind in the queue. -/
def Exact (inbox : Inbox) : Prop :=
  ∀ isAudio, 0 ≤ inbox.counter isAudio ∧ inbox.counter isAudio = inflight isAudio inbox.queue

/-- Neither kind is over its cap. -/
def Capped (inbox : Inbox) : Prop := ∀ isAudio, inflight isAudio inbox.queue ≤ inflightCap isAudio

/-- A sender that adds to a counter finds it below the cap still. -/
def StillBelow (inbox : Inbox) : InboxStep → Prop
  | .sends sender =>
      ∀ packet, inbox.admitted sender = some packet →
        inbox.counter packet.isAudio < inflightCap packet.isAudio
  | _ => True

/-- Adding to one counter leaves the other. -/
theorem counter_fetchAdd (inbox : Inbox) (isAudio other : Bool) (change : Int) :
    (inbox.fetchAdd isAudio change).counter other =
      inbox.counter other + if other = isAudio then change else 0 := by
  cases isAudio <;> cases other <;> simp [fetchAdd, counter]

/-- The packets of a kind after one more command. -/
theorem inflight_append_one (isAudio : Bool) (queue : List PeerCmd) (cmd : PeerCmd) :
    inflight isAudio (queue ++ [cmd]) = inflight isAudio queue + (cmd.carries isAudio).toNat := by
  cases carried : cmd.carries isAudio <;> simp [inflight, carried]

/-- The packets of a kind before a command is taken. -/
theorem inflight_cons (isAudio : Bool) (cmd : PeerCmd) (rest : List PeerCmd) :
    inflight isAudio (cmd :: rest) = inflight isAudio rest + (cmd.carries isAudio).toNat := by
  cases carried : cmd.carries isAudio <;> simp [inflight, carried]

/-- Releasing a command subtracts it from the counter of its kind. -/
theorem counter_release (inbox : Inbox) (cmd : PeerCmd) (isAudio : Bool) :
    (inbox.release cmd).counter isAudio = inbox.counter isAudio - (cmd.carries isAudio).toNat := by
  cases cmd with
  | media packet =>
    rw [release, counter_fetchAdd]
    cases kind : packet.isAudio <;> cases isAudio <;> simp [PeerCmd.carries, kind]
    all_goals omega
  | _ => simp [release, PeerCmd.carries]

/-- Every step keeps the counters exact. -/
theorem exact_step {before after : Inbox} {event : InboxStep} (exactly : before.Exact)
    (stepped : before.step event = some after) : after.Exact := by
  suffices counted : ∀ isAudio, after.counter isAudio = inflight isAudio after.queue by
    intro isAudio
    rw [counted isAudio]
    exact ⟨Int.natCast_nonneg _, rfl⟩
  intro isAudio
  obtain ⟨_, same⟩ := exactly isAudio
  cases event with
  | loads sender packet =>
    simp only [step] at stepped
    split at stepped
    · split at stepped <;> cases Option.some.inj stepped <;> exact same
    · cases stepped
  | sends sender =>
    obtain ⟨packet, found, rfl⟩ := Option.map_eq_some_iff.mp stepped
    have added := counter_fetchAdd before packet.isAudio isAudio 1
    have queued := inflight_append_one isAudio before.queue (.media packet)
    change (before.fetchAdd packet.isAudio 1).counter isAudio = _
    rw [added, queued, same]
    cases kind : packet.isAudio <;> cases isAudio <;> simp [PeerCmd.carries, kind]
  | posts cmd =>
    simp only [step] at stepped
    split at stepped
    · cases stepped
    · rename_i plain
      cases Option.some.inj stepped
      simp only [Bool.or_eq_true, not_or, Bool.not_eq_true] at plain
      have queued := inflight_append_one isAudio before.queue cmd
      have silent : cmd.carries isAudio = false := by
        cases isAudio with
        | true => exact plain.1
        | false => exact plain.2
      change before.counter isAudio = _
      rw [queued, silent, same]
      simp
  | dequeues =>
    simp only [step] at stepped
    split at stepped
    · rename_i cmd rest queued
      cases Option.some.inj stepped
      have released := counter_release before cmd isAudio
      rw [queued, inflight_cons] at same
      change (before.release cmd).counter isAudio = inflight isAudio rest
      rw [released, same]
      omega
    · cases stepped

/-- The counters are exact in every state of every run. -/
theorem exact_of_reaches {inbox : Inbox} (reached : Reaches step always new inbox) : inbox.Exact :=
  reached.invariant Exact (fun isAudio => by cases isAudio <;> simp [new, counter, inflight])
    fun _ _ _ exactly _ stepped => exact_step exactly stepped

/-- From a state within the caps, the steps that stay within them are those at which a
sender still finds room. -/
theorem stillBelow_iff_capped {before after : Inbox} {event : InboxStep} (exactly : before.Exact)
    (capped : before.Capped) (stepped : before.step event = some after) :
    before.StillBelow event ↔ after.Capped := by
  cases event with
  | loads sender packet =>
    refine iff_of_true trivial ?_
    simp only [step] at stepped
    split at stepped
    · split at stepped <;> cases Option.some.inj stepped <;> exact capped
    · cases stepped
  | sends sender =>
    obtain ⟨packet, found, rfl⟩ := Option.map_eq_some_iff.mp stepped
    have queued := fun isAudio => inflight_append_one isAudio before.queue (.media packet)
    obtain ⟨_, same⟩ := exactly packet.isAudio
    have carried : (PeerCmd.media packet).carries packet.isAudio = true := by simp [PeerCmd.carries]
    constructor
    · intro below isAudio
      have room := below packet found
      rw [same] at room
      change inflight isAudio (before.queue ++ [.media packet]) ≤ _
      rw [queued]
      by_cases kind : isAudio = packet.isAudio
      · subst kind
        rw [carried, Bool.toNat_true]
        omega
      · have silent : (PeerCmd.media packet).carries isAudio = false := by
          simpa [PeerCmd.carries] using fun equal => kind equal.symm
        rw [silent]
        exact capped isAudio
    · intro bounded other stands
      obtain rfl : packet = other := Option.some.inj (found.symm.trans stands)
      have fits := bounded packet.isAudio
      change inflight packet.isAudio (before.queue ++ [.media packet]) ≤ _ at fits
      rw [queued, carried, Bool.toNat_true] at fits
      rw [same]
      omega
  | posts cmd =>
    refine iff_of_true trivial fun isAudio => ?_
    simp only [step] at stepped
    split at stepped
    · cases stepped
    · rename_i plain
      cases Option.some.inj stepped
      simp only [Bool.or_eq_true, not_or, Bool.not_eq_true] at plain
      have silent : cmd.carries isAudio = false := by
        cases isAudio with
        | true => exact plain.1
        | false => exact plain.2
      change inflight isAudio (before.queue ++ [cmd]) ≤ _
      rw [inflight_append_one, silent]
      exact capped isAudio
  | dequeues =>
    refine iff_of_true trivial fun isAudio => ?_
    simp only [step] at stepped
    split at stepped
    · rename_i cmd rest queued
      cases Option.some.inj stepped
      have bounded := capped isAudio
      rw [queued, inflight_cons] at bounded
      exact Nat.le_trans (Nat.le_add_right _ _) bounded
    · cases stepped

/-! ### Audio without video -/

/-- What is left of a receiver when everything about video packets is taken away. -/
def withoutVideo (inbox : Inbox) : Inbox :=
  { audioInflight := inbox.audioInflight
    videoInflight := 0
    queue := inbox.queue.filter fun cmd => !cmd.carries false
    admitted := fun sender => (inbox.admitted sender).filter ForwardedMedia.isAudio
    dropped := inbox.dropped.filter ForwardedMedia.isAudio }

/-- No sender has a video packet. -/
def AudioOnly (_ : Inbox) : InboxStep → Prop
  | .loads _ packet => packet.isAudio = true
  | _ => True

/-- The audio packets the senders hold, after one of them takes or sends a packet. -/
theorem admitted_update (admitted : Nat → Option ForwardedMedia) (sender : Nat)
    (packet : Option ForwardedMedia) :
    (fun other => (Function.update admitted sender packet other).filter ForwardedMedia.isAudio) =
      Function.update (fun other => (admitted other).filter ForwardedMedia.isAudio) sender
        (packet.filter ForwardedMedia.isAudio) := by
  funext other
  by_cases same : other = sender
  · subst same
    simp
  · simp [same]

/-- Sending a packet of the two kinds, seen without video. -/
theorem withoutVideo_loads {before after : Inbox} {sender : Nat} {packet : ForwardedMedia}
    (stepped : before.step (.loads sender packet) = some after) :
    if packet.isAudio then before.withoutVideo.step (.loads sender packet) = some after.withoutVideo
    else after.withoutVideo = before.withoutVideo := by
  have idleToo : before.admitted sender = none → before.withoutVideo.admitted sender = none := by
    intro idle
    simp [withoutVideo, idle]
  simp only [step] at stepped
  split at stepped
  · rename_i idle
    cases kind : packet.isAudio with
    | true =>
      have sameCounter : before.withoutVideo.counter true = before.counter true := rfl
      rw [kind] at stepped
      simp only [if_true, step, idleToo idle, kind, sameCounter]
      split at stepped
      · rename_i full
        cases Option.some.inj stepped
        simp [full, withoutVideo, kind]
      · rename_i room
        cases Option.some.inj stepped
        simp [room, withoutVideo, admitted_update, Option.filter_some, kind]
    | false =>
      rw [if_neg (by simp)]
      split at stepped
      · cases Option.some.inj stepped
        simp [withoutVideo, kind]
      · cases Option.some.inj stepped
        simp [withoutVideo, admitted_update, Option.filter_some, kind, idle]
  · cases stepped

/-- A sender's step is that step of the audio alone, or no step of it. -/
theorem withoutVideo_sends {before after : Inbox} {sender : Nat}
    (stepped : before.step (.sends sender) = some after) :
    before.withoutVideo.step (.sends sender) = some after.withoutVideo ∨
      after.withoutVideo = before.withoutVideo := by
  obtain ⟨packet, found, rfl⟩ := Option.map_eq_some_iff.mp stepped
  cases kind : packet.isAudio with
  | true =>
    left
    have foundToo : before.withoutVideo.admitted sender = some packet := by
      simp [withoutVideo, Option.filter_some, found, kind]
    simp only [step, foundToo, Option.map_some, Option.some.injEq, kind]
    simp [withoutVideo, fetchAdd, admitted_update, PeerCmd.carries, kind]
  | false =>
    right
    simp [withoutVideo, fetchAdd, admitted_update, PeerCmd.carries, Option.filter_some, kind, found]

/-- The receiver's step is that step of the audio alone, or no step of it. -/
theorem withoutVideo_dequeues {before after : Inbox} (stepped : before.step .dequeues = some after) :
    before.withoutVideo.step .dequeues = some after.withoutVideo ∨
      after.withoutVideo = before.withoutVideo := by
  simp only [step] at stepped
  split at stepped
  · rename_i cmd rest queued
    cases Option.some.inj stepped
    cases video : cmd.carries false with
    | true =>
      right
      cases cmd with
      | media packet =>
        have kind : packet.isAudio = false := by simpa [PeerCmd.carries] using video
        simp [withoutVideo, release, fetchAdd, kind, queued, PeerCmd.carries]
      | _ => cases video
    | false =>
      left
      have queuedToo : before.withoutVideo.queue = cmd :: rest.filter fun cmd => !cmd.carries false := by
        simp [withoutVideo, queued, video]
      simp only [step, queuedToo]
      cases cmd with
      | media packet =>
        have kind : packet.isAudio = true := by simpa [PeerCmd.carries] using video
        simp [withoutVideo, release, fetchAdd, kind]
      | _ => simp [withoutVideo, release]
  · cases stepped

/-- Whatever happens, the audio part of a receiver's state is one that is reached without
any video: the same audio packets are queued and the same are dropped. -/
theorem withoutVideo_of_reaches {inbox : Inbox} (reached : Reaches step always new inbox) :
    Reaches step AudioOnly new inbox.withoutVideo := by
  refine reached.invariant (fun inbox => Reaches step AudioOnly new inbox.withoutVideo) ?_ ?_
  · exact .start
  · intro before event after audio _ stepped
    cases event with
    | loads sender packet =>
      have seen := withoutVideo_loads stepped
      split at seen
      · rename_i kind
        have admitted : AudioOnly before.withoutVideo (.loads sender packet) := kind
        exact .next audio admitted seen
      · exact seen ▸ audio
    | sends sender =>
      obtain seen | same := withoutVideo_sends stepped
      · have admitted : AudioOnly before.withoutVideo (.sends sender) := trivial
        exact .next audio admitted seen
      · exact same ▸ audio
    | posts cmd =>
      have admitted : AudioOnly before.withoutVideo (.posts cmd) := trivial
      refine .next audio admitted ?_
      simp only [step] at stepped ⊢
      split at stepped
      · cases stepped
      · rename_i plain
        cases Option.some.inj stepped
        rw [if_neg plain]
        simp only [Bool.or_eq_true, not_or, Bool.not_eq_true] at plain
        simp [withoutVideo, plain.2]
    | dequeues =>
      obtain seen | same := withoutVideo_dequeues stepped
      · have admitted : AudioOnly before.withoutVideo .dequeues := trivial
        exact .next audio admitted seen
      · exact same ▸ audio

/-- In every run the counters are exact and audio fares as it would without video; and
along a run no kind is ever over its cap exactly when every sender that adds to a
counter finds it below the cap still.

A counter is the number of packets of its kind in the queue, after every step. The run
without the video is the same run with some of its steps left out. -/
theorem inflight_accounted (inbox : Inbox) :
    (Reaches step always new inbox →
      inbox.Exact ∧ Reaches step AudioOnly new inbox.withoutVideo) ∧
    ((Reaches step (fun before _ => before.Capped) new inbox ∧ inbox.Capped) ↔
      Reaches step StillBelow new inbox) := by
  constructor
  · intro reached
    exact ⟨exact_of_reaches reached, withoutVideo_of_reaches reached⟩
  · refine Reaches.within_iff Capped (fun isAudio => ?_) fun before event after reached capped stepped =>
      stillBelow_iff_capped (exact_of_reaches reached) capped stepped
    simp [new, inflight]

/-- The steps of senders that come one after the other with a packet each. -/
def oneByOne (packet : ForwardedMedia) (senders : Nat) : List InboxStep :=
  (List.replicate senders [.loads 0 packet, .sends 0]).flatten

/-- Two senders load the audio counter one below the cap before either adds to it: one
packet more than the cap is queued. -/
theorem overlapping_senders_exceed :
    ∃ inbox, Reaches step always new inbox ∧ inflight true inbox.queue = audioInflightCap + 1 ∧
      ¬ inbox.Capped := by
  let packet : ForwardedMedia :=
    { pt := 111, seqNo := 0, time := 0, marker := false, payload := [], isAudio := true,
      isScreen := false, sourcePid := ⟨1⟩, wallclock := 0 }
  let events := oneByOne packet 127 ++ [.loads 0 packet, .loads 1 packet, .sends 0, .sends 1]
  let inbox := (walk step always new events).getD new
  have queued : inflight true inbox.queue = audioInflightCap + 1 := by decide +kernel
  refine ⟨inbox, walk_reaches_end _ _ _ _ (by decide +kernel), queued, fun capped => ?_⟩
  have bounded := capped true
  rw [queued] at bounded
  exact absurd bounded (by decide)

end Inbox

end Seameet

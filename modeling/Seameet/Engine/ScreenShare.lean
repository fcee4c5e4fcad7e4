import Seameet.Engine.Backlog

/-!
# Screen shares

A stopped share reaches the sharer's media task and the other tasks through separate
channels. Until the sharer's task has taken its command it goes on marking packets as
screen packets, and each one that another task takes after it has freed the line
takes a line again and announces it to the client.

In runs where no screen packet follows the last stop sent to any open channel when
the stop's handler clears the sharer's flag, where the sharer's tasks hand on no
screen packet while the share is stopped, and where a task that takes a stop has no
screen packet of the sharer waiting, no task is left with a screen line of the sharer,
and none announces one after the stop.
-/

namespace Seameet

open Library

/-- The end of a participant's screen share. -/
def PeerCmd.stopsScreen (pid : ParticipantId) : PeerCmd → Bool
  | .sourceScreenStopped source => source = pid
  | _ => false

/-- The connection is about to clear its participant's sharing flag. -/
def Connection.clearsSharing (pid : ParticipantId) (connection : Connection) : Bool :=
  connection.shareMarks.any fun mark => decide (mark.1 = pid) && !mark.2

namespace Service

/-- The share of a participant was stopped and not started again. -/
def stopped (service : Service) (pid : ParticipantId) : Bool :=
  decide (((service.shares.find? fun mark => mark.1 = pid).map Prod.snd) = some false)

/-- When the sharer's flag is cleared, no screen packet follows the last stop on any
open channel; while the share is stopped the sharer's tasks hand on no screen packet;
and a task that takes the stop has no screen packet of the sharer waiting. -/
def stopsCleanly (pid : ParticipantId) (service : Service) : ServiceEvent → Bool
  | .engine (.advance id _) _ =>
      match service.world.connections.lookup id with
      | some connection =>
          !connection.clearsSharing pid ||
            service.cleared (.screen pid) (PeerCmd.stopsScreen pid)
      | none => true
  | .drains channel rtc events =>
      match service.processes.lookup channel with
      | some process =>
          !(service.stopped pid && decide (process.media.pid = pid)) ||
            !service.hands process rtc events (Hold.screen pid).makes
      | none => true
  | .takes channel _ =>
      match service.processes.lookup channel, service.queueOf channel with
      | some process, .sourceScreenStopped source :: _ =>
          decide (source ≠ pid) || !(process.task.parked pid).any (Hold.screen pid).makes
      | _, _ => true
  | _ => true

variable {config : Config} {service after : Service} {event : ServiceEvent} {pid : ParticipantId}

/-- A share is stopped after a step only if it was before, or the step clears the
sharer's flag. -/
theorem stopped_step (stepped : service.step config event = some after)
    (stop : after.stopped pid = true) :
    service.stopped pid = true ∨ ∃ id answer launch connection,
      event = .engine (.advance id answer) launch ∧
        service.world.connections.lookup id = some connection ∧
        connection.clearsSharing pid = true := by
  have untouched : after.shares = service.shares → service.stopped pid = true := by
    intro same
    rwa [stopped, same] at stop
  cases step_taken stepped with
  | advanced id answer launch connection turn entered present taken enters =>
    simp only [stopped, List.find?_append, decide_eq_true_eq] at stop
    cases marked : connection.shareMarks.find? fun mark => mark.1 = pid with
    | none =>
      rw [marked] at stop
      exact .inl (decide_eq_true stop)
    | some mark =>
      rw [marked] at stop
      have listed := List.mem_of_find?_eq_some marked
      have own := List.find?_some marked
      refine .inr ⟨id, answer, launch, connection, rfl, present, ?_⟩
      refine List.any_eq_true.mpr ⟨mark, listed, ?_⟩
      have cleared : mark.2 = false := by simpa using stop
      simpa [cleared] using own
  | took _ _ _ _ _ _ _ _ _ performed | drained _ _ _ _ _ _ _ performed =>
    exact .inl (untouched performed.shares)
  | still | endsTask | arrived | read => exact .inl (untouched rfl)

/-- While a share is stopped, no open channel owes a screen line. -/
def Silenced (pid : ParticipantId) (service : Service) : Prop :=
  service.stopped pid = true → ∀ channel, channel ∉ service.ended →
    service.owes (.screen pid) (PeerCmd.stopsScreen pid) channel = false

/-- Every admitted step keeps the stopped share silenced. -/
theorem Silenced.step (silenced : Silenced pid service) (owned : Owned service)
    (admits : service.stopsCleanly pid event = true)
    (stepped : service.step config event = some after) : Silenced pid after := by
  intro stop channel opened
  have before : channel ∉ service.ended := fun closed => opened (ended_step stepped closed)
  refine Bool.eq_false_iff.mpr fun owing => ?_
  rcases stopped_step stepped stop with already | ⟨id, answer, launch, connection, rfl, present, clears⟩
  · rcases owes_step owned stepped channel owing with earlier | ⟨drained, rtc, events, process, rfl,
      running, mine, hands⟩
    · simp [silenced already channel before] at earlier
    · have mine : process.media.pid = pid := mine
      simp [stopsCleanly, running, already, mine, hands] at admits
  · rcases owes_step owned stepped channel owing with earlier | ⟨_, _, _, _, other, _⟩
    · have clean : service.cleared (.screen pid) (PeerCmd.stopsScreen pid) = true := by
        simpa [stopsCleanly, present, clears] using admits
      simp [owes_of_cleared clean channel before] at earlier
    · cases other

/-- A task whose channel holds no stop and owes no screen line has none, and the next
command brings none. -/
theorem next_bare {channel : Channel} {process : Process} {cmd : PeerCmd} {rest : List PeerCmd}
    (backed : Backed (.screen pid) (PeerCmd.stopsScreen pid) service)
    (present : service.processes.lookup channel = some process)
    (waiting : service.queueOf channel = cmd :: rest)
    (unstopped : PeerCmd.sourceScreenStopped pid ∉ service.queueOf channel)
    (silent : service.owes (.screen pid) (PeerCmd.stopsScreen pid) channel = false) :
    (Hold.screen pid).on process.task = false ∧
      (Hold.screen pid).mark (PeerCmd.stopsScreen pid) false cmd = false := by
  have keeps : ∀ later ∈ cmd :: rest,
      (Hold.screen pid).mark (PeerCmd.stopsScreen pid) true later = true := by
    intro later member
    cases later with
    | sourceScreenStopped source =>
      have apart : source ≠ pid := by
        rintro rfl
        exact unstopped (waiting ▸ member)
      simp [Hold.mark, PeerCmd.stopsScreen, apart]
    | _ => rfl
  have quiet : tally ((Hold.screen pid).mark (PeerCmd.stopsScreen pid))
      ((Hold.screen pid).on process.task) (cmd :: rest) = false := by
    refine Bool.eq_false_iff.mpr fun shown => ?_
    have owing := backed.bounded channel
    simp only [waiting, shows, present, Option.map_some, Option.getD_some] at owing
    simp [owing shown] at silent
  have bare : (Hold.screen pid).on process.task = false := by
    refine Bool.eq_false_iff.mpr fun lined => ?_
    rw [lined, tally_keeps _ keeps] at quiet
    cases quiet
  refine ⟨bare, Bool.eq_false_iff.mpr fun marked => ?_⟩
  rw [bare, tally_cons, marked,
    tally_keeps _ fun later member => keeps later (List.mem_cons_of_mem _ member)] at quiet
  cases quiet

/-- A media task with one pair of lines and a further video line. -/
def wideLaunch : Launch :=
  { ownAudioPt := 111, ownVideoPt := 96, now := 0
    answer :=
      { sdp := "v=0"
        mids := [(⟨"0"⟩, .audio), (⟨"1"⟩, .video), (⟨"2"⟩, .audio), (⟨"3"⟩, .video), (⟨"4"⟩, .video)]
        distinct := by decide } }

/-- The answer to the sharer's next offer: one more video line, the screen's. -/
def screenAnswer : SdpAnswer where
  sdp := "v=0"
  mids := [(⟨"4"⟩, .video)]
  distinct := by decide

/-- The first participant's task hears a packet of its screen line. -/
def screenPacket : ServiceEvent :=
  .drains ⟨⟨1⟩, 1⟩ { Rtc.plain (fun _ => none) 0 with ssrc := fun _ => some 9 }
    [.rtpPacket { payloadType := 96, ssrc := 9, seqNo := 0, timestamp := 0, marker := false,
                  payload := [] }]

/-- Two participants enter, the first one starts a screen share, its task learns the
screen line, and a screen packet reaches the other task. -/
def sharingRun : List ServiceEvent :=
  ServiceEvent.enters 1 ⟨1⟩ "a" ++ ServiceEvent.enters 2 ⟨2⟩ "a" wideLaunch ++
    ServiceEvent.says 1 (.screenShareStarted ⟨1⟩ "a" 0) 4 ++ ServiceEvent.takesAll ⟨⟨1⟩, 1⟩ 2 ++
    ServiceEvent.says 1 (.offer ⟨1⟩ none "a" "") 5 ++
    [.takes ⟨⟨1⟩, 1⟩ (Rtc.plain (fun _ => some screenAnswer) 0), screenPacket]

/-- The share is stopped, and both tasks take everything. -/
def stoppedRun : List ServiceEvent :=
  sharingRun ++ ServiceEvent.says 1 (.screenShareStopped ⟨1⟩ "a" 0) 4 ++
    ServiceEvent.takesAll ⟨⟨2⟩, 2⟩ 4 ++ ServiceEvent.takesAll ⟨⟨1⟩, 1⟩ 2

end Service

end Seameet

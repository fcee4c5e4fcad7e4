import Seameet.Engine.Backlog

/-!
# Departures

When a participant's connection ends, the cleanup tells the other media tasks of its
rooms, and each drops what it holds of the participant. The participant's own media
task is told nothing: it goes on until it notices that its connection is gone, and
every packet it forwards meanwhile opens a slot again, which nobody clears.

In runs where the last word sent about a participant to every open channel is its
departure when its last connection ends, and its tasks forward nothing while it is
gone, no task holds anything of it once the channels are empty.
-/

namespace Seameet

open Library

/-- A participant's departure. -/
def PeerCmd.parts (pid : ParticipantId) : PeerCmd → Bool
  | .peerLeft left => left = pid
  | _ => false

/-- The connection's task is over. -/
def Point.isOver : Point → Bool
  | .ended => true
  | _ => false

namespace Connection

/-- The connection is not, or no longer, a participant's. -/
def without (pid : ParticipantId) (connection : Connection) : Bool :=
  decide (connection.participantId ≠ some pid) || connection.point.isOver

/-- The connection's next section is the last of its participant's cleanup, or finds
that another connection has taken over. -/
def closes (world : World) (id : WsSink) (pid : ParticipantId) (connection : Connection) : Bool :=
  decide (connection.participantId = some pid) &&
    match connection.point with
    | .leaving .dropSession => true
    | .leaving .checkStale => decide (world.signaling.connectionGen pid ≠ some id)
    | _ => false

end Connection

namespace Service

/-- Every connection of the participant has ended. -/
def gone (service : Service) (pid : ParticipantId) : Bool :=
  service.world.connections.values.all (Connection.without pid)

/-- Every other connection of the participant has ended. -/
def goneBut (service : Service) (id : WsSink) (pid : ParticipantId) : Bool :=
  decide (service.world.connections.Every fun other connection =>
    other = id ∨ connection.without pid = true)

/-- When the last connection of the participant ends, the last word about it on every
open channel is its departure, and while it is gone its tasks hand on nothing. -/
def partsCleanly (pid : ParticipantId) (service : Service) : ServiceEvent → Bool
  | .engine (.advance id _) _ =>
      match service.world.connections.lookup id with
      | some connection =>
          !(connection.closes service.world id pid && service.goneBut id pid) ||
            service.cleared (.anything pid) (PeerCmd.parts pid)
      | none => true
  | .drains channel rtc events =>
      match service.processes.lookup channel with
      | some process =>
          !(service.gone pid && decide (process.media.pid = pid)) ||
            !service.hands process rtc events fun media => media.sourcePid = pid
      | none => true
  | _ => true

variable {config : Config} {service after : Service} {event : ServiceEvent} {pid : ParticipantId}

/-- What gone means, connection by connection. -/
theorem gone_iff : service.gone pid = true ↔
    ∀ id connection, service.world.connections.lookup id = some connection →
      connection.without pid = true := by
  unfold gone
  rw [List.all_eq_true]
  constructor
  · exact fun each id connection present =>
      each connection ((Table.mem_values _ _).mpr ⟨id, present⟩)
  · intro each connection member
    obtain ⟨id, present⟩ := (Table.mem_values _ _).mp member
    exact each id connection present

/-- A connection that goes on is the participant's if it was. -/
theorem without_running {before now : Connection} (without : now.without pid = true)
    (running : now.point.isOver = false) (same : now.participantId = before.participantId) :
    before.without pid = true := by
  simp only [Connection.without, running, same, Bool.or_false] at without
  exact Bool.or_eq_true_iff.mpr (.inl without)

/-- A calm point is not the end. -/
theorem isOver_of_calm {point : Point} (calm : point.calm = true) : point.isOver = false := by
  cases point <;> first | rfl | cases calm

/-- What arrives at the top of a loop ends no connection of a participant. -/
theorem without_arrival {world : World} {id : WsSink} {connection : Connection} {turn : Turn}
    (arrival : Arrival config world id connection turn)
    (without : turn.connection.without pid = true) : connection.without pid = true := by
  cases arrival with
  | works _ idle calm first same signaling sfu deed =>
    exact without_running without (isOver_of_calm calm) same
  | accepts request _ idle unbound moved signaling sfu deed => simp [Connection.without, unbound]
  | ends _ idle unbound moved signaling sfu deed => simp [Connection.without, unbound]
  | joins request own idle bound => exact without_running without rfl rfl
  | hangsUp _ own idle bound moved signaling sfu deed =>
    rw [moved] at without
    exact without_running without rfl rfl

/-- A section ends a connection of the participant only where the connection closes. -/
theorem without_advance (hooks : config.hooks = .sfu) {world : World} {id : WsSink}
    {connection : Connection} {turn : Turn} {answer : Option String}
    (taken : connection.advance config world id answer = some turn)
    (without : turn.connection.without pid = true) :
    connection.without pid = true ∨ connection.closes world id pid = true := by
  cases connection.advance_section config world id answer turn taken with
  | works _ calm calmAfter first same signaling sfu deed =>
    exact .inl (without_running without (isOver_of_calm calmAfter) same)
  | registers request point unbound => exact .inl (by simp [Connection.without, unbound])
  | joins own first request stage point bound =>
    cases stage <;> exact .inl (without_running without rfl rfl)
  | parts handled participant roomId _ point message moved signaling sfu deed =>
    rw [moved] at without
    exact .inl (without_running without rfl rfl)
  | offers own handled peers peer _ point bound moved signaling sfu deed =>
    rw [moved] at without
    exact .inl (without_running without rfl rfl)
  | leaves own stage point bound =>
    by_cases mine : own = pid
    · subst mine
      cases stage with
      | dropSession => exact .inr (by simp [Connection.closes, bound, point])
      | checkStale =>
        by_cases fresh : world.signaling.connectionGen own = some id
        · simp only [Connection.leaveSection, if_pos fresh] at without
          exact .inl (without_running without rfl rfl)
        · exact .inr (by simp [Connection.closes, bound, point, fresh])
      | announce pending affected =>
        cases pending with
        | cons head pending => exact .inl (without_running without rfl rfl)
        | nil =>
          simp only [Connection.leaveSection, hooks] at without
          exact .inl (without_running without rfl rfl)
      | lookup roomId gone rest =>
        simp only [Connection.leaveSection] at without
        split at without <;> exact .inl (without_running without rfl rfl)
      | disconnect | routes | allPeers | stopScreen | dropPeer | dropRoom =>
        exact .inl (without_running without rfl rfl)
    · exact .inl (by simp [Connection.without, bound, mine])

/-- A participant is gone after a step only if it was before, or the step ends its
last connection. -/
theorem gone_step (hooks : config.hooks = .sfu) (fresh : service.world.Fresh)
    (stepped : service.step config event = some after) (gone : after.gone pid = true) :
    service.gone pid = true ∨ ∃ id answer launch connection,
      event = .engine (.advance id answer) launch ∧
        service.world.connections.lookup id = some connection ∧
        connection.closes service.world id pid = true ∧ service.goneBut id pid = true := by
  have earlier : (∀ id connection, service.world.connections.lookup id = some connection →
      ∃ now, after.world.connections.lookup id = some now ∧
        (now.without pid = true → connection.without pid = true)) → service.gone pid = true := by
    intro each
    refine gone_iff.mpr fun id connection present => ?_
    obtain ⟨now, standing, back⟩ := each id connection present
    exact back (gone_iff.mp gone id now standing)
  have untouched : after.world.connections = service.world.connections →
      service.gone pid = true := by
    intro same
    exact earlier fun id connection present => ⟨connection, same ▸ present, fun gone => gone⟩
  cases step_taken stepped with
  | still engineEvent launch world moved own still commands sfu signaling =>
    refine .inl (earlier fun id connection present => ?_)
    rcases World.still_connection fresh moved own still present with
      same | ⟨turn, arrival, standing⟩
    · exact ⟨connection, same, fun gone => gone⟩
    · exact ⟨turn.connection, standing, without_arrival arrival⟩
  | advanced id answer launch connection turn entered present taken enters =>
    have standing : ∀ tested, (service.world.commit id turn).connections.lookup tested =
        if tested = id then some turn.connection else service.world.connections.lookup tested :=
      fun tested => World.lookup_commit service.world id tested turn
    have ended := gone_iff.mp gone id turn.connection (by simp [standing])
    have others : ∀ tested connection, tested ≠ id →
        service.world.connections.lookup tested = some connection →
          connection.without pid = true := by
      intro tested connection apart there
      exact gone_iff.mp gone tested connection (by rw [standing, if_neg apart]; exact there)
    rcases without_advance hooks taken ended with without | closes
    · refine .inl (gone_iff.mpr fun tested other there => ?_)
      by_cases here : tested = id
      · subst here
        rw [present] at there
        cases there
        exact without
      · exact others tested other here there
    · refine .inr ⟨id, answer, launch, connection, rfl, present, closes, decide_eq_true ?_⟩
      intro tested other there
      by_cases here : tested = id
      · exact .inl here
      · exact .inr (others tested other here there)
  | took _ _ _ _ _ _ _ _ _ performed | drained _ _ _ _ _ _ _ performed =>
    exact .inl (untouched performed.connections)
  | endsTask | arrived | read => exact .inl (untouched rfl)

/-- While a participant is gone, no open channel owes anything of it. -/
def Left (pid : ParticipantId) (service : Service) : Prop :=
  service.gone pid = true → ∀ channel, channel ∉ service.ended →
    service.owes (.anything pid) (PeerCmd.parts pid) channel = false

/-- Every admitted step keeps the departed cleared. -/
theorem Left.step (left : Left pid service) (owned : Owned service) (fresh : service.world.Fresh)
    (hooks : config.hooks = .sfu)
    (admits : service.partsCleanly pid event = true)
    (stepped : service.step config event = some after) : Left pid after := by
  intro gone channel opened
  have before : channel ∉ service.ended := fun closed => opened (ended_step stepped closed)
  refine Bool.eq_false_iff.mpr fun owing => ?_
  rcases gone_step hooks fresh stepped gone with already | ⟨id, answer, launch, connection, rfl, present,
    closes, last⟩
  · rcases owes_step owned stepped channel owing with earlier | ⟨drained, rtc, events, process, rfl,
      running, mine, hands⟩
    · simp [left already channel before] at earlier
    · have mine : process.media.pid = pid := mine
      have hands : service.hands process rtc events (fun media => media.sourcePid = pid) = true :=
        hands
      simp [partsCleanly, running, already, mine, hands] at admits
  · rcases owes_step owned stepped channel owing with earlier | ⟨_, _, _, _, other, _⟩
    · have clean : service.cleared (.anything pid) (PeerCmd.parts pid) = true := by
        simpa [partsCleanly, present, closes, last] using admits
      simp [owes_of_cleared clean channel before] at earlier
    · cases other

/-- In every run in which the last word sent about a participant to every open
channel is its departure when its last connection ends, and its tasks hand nothing on
while it is gone: once the channels are empty, no task has a slot or waiting packets
of a participant that is gone.

What a task may hold is bounded by what was sent to its channel. The departure is the last
thing that clears, so that a channel that is open and empty has a task that holds nothing.
-/
theorem no_ghost_slot (config : Config) (e2eeRequired : Bool) (hooks : config.hooks = .sfu)
    (pid : ParticipantId) {service : Service}
    (reached : Reaches (Service.step config)
      (fun service event => service.partsCleanly pid event = true) (new e2eeRequired) service)
    (gone : service.gone pid = true) (empty : ∀ channel, service.queueOf channel = []) :
    ∀ channel process, service.processes.lookup channel = some process →
      process.task.sourceSlots.lookup pid = none ∧ process.task.pendingMedia.lookup pid = none := by
  have standing : Backed (.anything pid) (PeerCmd.parts pid) service ∧ Left pid service := by
    refine reached.invariant_with (fun service => Owned service ∧ service.world.Fresh)
      (fun service => Backed (.anything pid) (PeerCmd.parts pid) service ∧ Left pid service)
      (fun _ earlier => ⟨Owned.of_reaches earlier, fresh_of_reaches earlier⟩) ?_ ?_
    · exact ⟨.new e2eeRequired, fun _ channel _ => rfl⟩
    · intro before event after ⟨owned, fresh⟩ ⟨backed, left⟩ admits stepped
      refine ⟨backed.step owned stepped ?_, left.step owned fresh hooks admits stepped⟩
      intro channel rtc process cmd rest _ _ _ clears
      cases cmd with
      | peerLeft other =>
        have same : other = pid := of_decide_eq_true clears
        subst same
        exact Hold.peerLeft
      | _ => cases clears
  intro channel process present
  have held : (Hold.anything pid).on process.task = false :=
    standing.1.nothing channel process present (empty channel) (standing.2 gone channel)
  obtain ⟨slotless, waitless⟩ := Hold.on_eq_false.mp held
  exact ⟨Option.not_isSome_iff_eq_none.mp (Bool.eq_false_iff.mp slotless),
    Option.not_isSome_iff_eq_none.mp (Bool.eq_false_iff.mp waitless)⟩

/-- Two participants enter, the first one talks, departs, and its task ends; the
other task takes all its commands. -/
def partingRun : List ServiceEvent :=
  ServiceEvent.enters 1 ⟨1⟩ "a" ++ ServiceEvent.enters 2 ⟨2⟩ "a" ++ [.hears ⟨⟨1⟩, 1⟩] ++
    ServiceEvent.departs 1 10 ++ [.ends ⟨⟨1⟩, 1⟩] ++ ServiceEvent.takesAll ⟨⟨2⟩, 2⟩ 3

/-- After that run the other task runs and holds nothing of the first participant. -/
theorem no_ghost_slot_parting :
    let service := (walk (Service.step .sfuDefault)
      (fun service event => service.partsCleanly ⟨1⟩ event = true) (new false) partingRun).getD
        (new false)
    ∃ process, service.processes.lookup ⟨⟨2⟩, 2⟩ = some process ∧
      process.task.sourceSlots.lookup ⟨1⟩ = none ∧
      process.task.pendingMedia.lookup ⟨1⟩ = none := by
  intro service
  have reached : Reaches (Service.step .sfuDefault)
      (fun service event => service.partsCleanly ⟨1⟩ event = true) (new false) service :=
    walk_reaches_end _ _ _ _ (by decide +kernel)
  have quiet : service.Quiet := by decide +kernel
  obtain ⟨process, running⟩ : ∃ process, service.processes.lookup ⟨⟨2⟩, 2⟩ = some process :=
    Option.isSome_iff_exists.mp (by decide +kernel)
  exact ⟨process, running, no_ghost_slot .sfuDefault false rfl ⟨1⟩ reached (by decide +kernel) quiet.1
    ⟨⟨2⟩, 2⟩ process running⟩

/-- The first participant's task hears a packet after the cleanup: the other task
takes it after the departure and keeps a slot for somebody who is gone, although the
task has ended and nothing waits any more. -/
theorem late_packet_keeps_slot :
    ∃ service, Reaches (Service.step .sfuDefault) always (new false) service ∧ service.Quiet ∧
      service.gone ⟨1⟩ = true ∧ (service.processes.lookup ⟨⟨1⟩, 1⟩).isNone = true ∧
      ((service.processes.lookup ⟨⟨2⟩, 2⟩).bind fun process =>
        process.task.sourceSlots.lookup ⟨1⟩).isSome = true := by
  let events := ServiceEvent.enters 1 ⟨1⟩ "a" ++ ServiceEvent.enters 2 ⟨2⟩ "a" ++
    ServiceEvent.departs 1 10 ++ [.hears ⟨⟨1⟩, 1⟩, .ends ⟨⟨1⟩, 1⟩] ++
    ServiceEvent.takesAll ⟨⟨2⟩, 2⟩ 3
  refine ⟨(walk (Service.step .sfuDefault) always (new false) events).getD (new false),
    walk_reaches_end _ _ _ _ (by decide +kernel), ?_, ?_, ?_, ?_⟩ <;> decide +kernel

end Service

end Seameet

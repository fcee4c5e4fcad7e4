import Seameet.Engine.MuteFlag
import Seameet.Engine.Readers
import Seameet.Engine.Backlog

/-!
# Muted participants

Whether a participant is muted is kept twice: as a flag of the member, which the
room is told, and in the participant's media task, which then forwards no audio.
A mute handler tells the task that is entered in the room's map and sets the flag
afterwards; a media task starts unmuted, and so does one that the handler could
not tell.

In runs in which the flag is set only when every media task of the participant was
told so last, and in which no media task is started for the participant while it
is muted, the flag keeps the promise: from a state at rest with the flag on, no
audio of the participant is sent on.
-/

namespace Seameet

open Library

/-- Whether a task is muted after a command. -/
def PeerCmd.mutes (muted : Bool) : PeerCmd → Bool
  | .setMuted now => now
  | _ => muted

/-- Whether a media task is muted. -/
def muteReader : Reader Bool where
  start := false
  read := PeerCmd.mutes
  value := Task.muted
  starts pid _ _ roomId _ _ := (Task.start_frame pid _ _ roomId _ _).2.1
  handles task rtc cmd := by
    rw [(task.handle_frame rtc cmd).2.1]
    cases cmd <;> rfl
  drains task rtc events := (task.drainOutputs_frame rtc events).2.1

namespace Service

variable {config : Config} {service after : Service} {event : ServiceEvent}
variable {roomId : RoomId} {pid : ParticipantId}

/-- The last word sent to a channel about it is that its task is muted. -/
def toldMuted (service : Service) (channel : Channel) : Bool :=
  (service.sentTo channel).foldl PeerCmd.mutes false

/-- When the participant's flag is set, each of its media tasks was told so last; a
media task is started for it while the flag is on only if that one was told; and
`UnmuteAudio` is sent for oneself and for this room. -/
def mutesInOrder (roomId : RoomId) (pid : ParticipantId) (service : Service) : ServiceEvent → Bool
  | .engine (.advance id _) _ =>
      match service.world.connections.lookup id with
      | some connection =>
          (!connection.aboutTo pid (SdpMessage.mutesIn roomId) ||
              service.processes.keys.all fun channel =>
                decide (channel.pid ≠ pid) || service.toldMuted channel) &&
            match connection.point, connection.participantId with
            | .handling _ (.spawn _ peer), some own =>
                decide (own ≠ pid) || !service.world.signaling.audioMuted roomId pid ||
                  service.toldMuted ⟨pid, peer.gen⟩
            | _, _ => true
      | none => true
  | .engine (.receive id _ (some (.unmuteAudio sender room)) _ _) _ =>
      match (service.world.connections.lookup id).bind Connection.participantId with
      | some own =>
          (decide (sender ≠ pid) && decide (own ≠ pid)) ||
            (decide (sender = own) && decide (room = roomId))
      | none => true
  | _ => true

/-- The participant sends no `UnmuteAudio`, and no media task is started for it. -/
def staysMuted (pid : ParticipantId) (service : Service) : ServiceEvent → Bool
  | .engine (.advance id _) _ =>
      match service.world.task id with
      | some (.handling _ (.spawn _ _), some own) => decide (own ≠ pid)
      | _ => true
  | .engine (.receive _ _ (some (.unmuteAudio sender _)) _ _) _ => decide (sender ≠ pid)
  | _ => true

/-- While the flag is on, every media task of the participant was told so last, or a
handler is about to clear the flag. -/
structure Muting (roomId : RoomId) (pid : ParticipantId) (service : Service) : Prop where
  own : ∀ id connection handled stage sender room own,
    service.world.connections.lookup id = some connection →
    connection.point = .handling handled stage → handled.message = .unmuteAudio sender room →
    connection.participantId = some own → sender = pid ∨ own = pid → sender = own ∧ room = roomId
  told : service.world.signaling.audioMuted roomId pid = true →
    (∀ channel process, service.processes.lookup channel = some process → channel.pid = pid →
      service.toldMuted channel = true) ∨
    ∃ id connection, service.world.connections.lookup id = some connection ∧
      connection.aboutTo pid (SdpMessage.unmutesIn roomId) = true

/-- Commands none of which unmutes leave a muted task muted. -/
theorem mutes_keeps (cmds : List PeerCmd) (keeps : .setMuted false ∉ cmds) :
    cmds.foldl PeerCmd.mutes true = true := by
  induction cmds with
  | nil => rfl
  | cons cmd rest inductionHypothesis =>
    have now : PeerCmd.mutes true cmd = true := by
      cases cmd with
      | setMuted muted =>
        cases muted with
        | true => rfl
        | false => exact absurd List.mem_cons_self keeps
      | _ => rfl
    rw [List.foldl_cons, now]
    exact inductionHypothesis fun later => keeps (List.mem_cons_of_mem _ later)

/-- A channel that nothing unmuting is sent to keeps its last word. -/
theorem toldMuted_append {channel : Channel} (commands : List Command)
    (recorded : after.world.commands = service.world.commands ++ commands)
    (keeps : ∀ command ∈ commands, command.channel = channel → command.cmd ≠ .setMuted false)
    (told : service.toldMuted channel = true) : after.toldMuted channel = true := by
  rw [toldMuted, sentTo_append channel recorded, List.foldl_append]
  change List.foldl _ (service.toldMuted channel) _ = true
  rw [told]
  refine mutes_keeps _ fun unmuting => ?_
  obtain ⟨command, listed, here, cmd⟩ := (mem_addressed_letters commands channel _).mp unmuting
  exact keeps command listed here cmd

/-- A media task unmutes nobody. -/
theorem Performed.unmutesNone {media : MediaTask} {outputs : List Output} {posted : List Command}
    {between : Service} (performed : Performed media outputs posted between after) :
    ∀ command ∈ posted, command.cmd ≠ .setMuted false := by
  intro command sent cmd
  rcases performed.each command sent with keyframe | ⟨packet, carried, _⟩
  · rw [cmd] at keyframe
    cases keyframe
  · rw [cmd] at carried
    cases carried

namespace Muting

/-- A step that unmutes nobody and starts nothing. -/
theorem aside (muting : Muting roomId pid service) (commands : List Command)
    (recorded : after.world.commands = service.world.commands ++ commands)
    (keeps : ∀ command ∈ commands, command.cmd ≠ .setMuted false)
    (signaling : after.world.signaling = service.world.signaling)
    (connections : after.world.connections = service.world.connections)
    (processes : ∀ channel process, after.processes.lookup channel = some process →
      ∃ earlier, service.processes.lookup channel = some earlier) : Muting roomId pid after := by
  refine ⟨?_, ?_⟩
  · rw [connections]
    exact muting.own
  · intro muted
    rw [signaling] at muted
    rcases muting.told muted with told | ⟨id, connection, known, clears⟩
    · left
      intro channel process running own
      obtain ⟨earlier, before⟩ := processes channel process running
      exact toldMuted_append commands recorded (fun command sent _ => keeps command sent)
        (told channel earlier before own)
    · exact .inr ⟨id, connection, connections ▸ known, clears⟩

/-- A step of the engine that is no section of a handler. -/
theorem still (muting : Muting roomId pid service) (fresh : service.world.Fresh)
    {engineEvent : Event} {launch : Launch} {world : World}
    (moved : service.world.step config engineEvent = some world)
    (stays : ∀ id answer, engineEvent ≠ .advance id answer)
    (commands : world.commands = service.world.commands)
    (signaling : world.signaling = service.world.signaling)
    (admits : service.mutesInOrder roomId pid (.engine engineEvent launch) = true) :
    Muting roomId pid { service with world } := by
  refine ⟨?_, ?_⟩
  · intro id connection handled stage sender room own known point message bound mine
    rcases World.handling_still moved stays known point with
      before | ⟨earlier, raw, auth, rateOk, rfl, before, same⟩
    · exact muting.own id connection handled stage sender room own before point message bound mine
    · simp only [mutesInOrder, message, before, Option.bind_some, same, bound, Bool.or_eq_true,
        Bool.and_eq_true, decide_eq_true_eq] at admits
      rcases admits with ⟨other, others⟩ | both
      · exact absurd mine (by simp [other, others])
      · exact both
  · intro muted
    change world.signaling.audioMuted roomId pid = true at muted
    rw [signaling] at muted
    rcases muting.told muted with told | ⟨id, connection, known, clears⟩
    · left
      intro channel process running own
      exact toldMuted_append [] (by simp [commands]) (by simp) (told channel process running own)
    · right
      refine ⟨id, connection, ?_, clears⟩
      have clears' := clears
      unfold Connection.aboutTo at clears'
      split at clears'
      · rename_i point _
        exact World.handling_stands fresh moved stays known point
      · cases clears'

/-- A section of a handler. -/
theorem advanced (muting : Muting roomId pid service) (hooks : config.hooks = .sfu)
    (fitting : service.world.Fitting config) {id : WsSink} {answer : Option String}
    {launch : Launch} {connection : Connection} {turn : Turn} {entered : List MediaTask}
    (present : service.world.connections.lookup id = some connection)
    (taken : connection.advance config service.world id answer = some turn)
    (enters : turn.sfu.mediaTasks = service.world.sfu.mediaTasks ++ entered)
    (admits : service.mutesInOrder roomId pid (.engine (.advance id answer) launch) = true)
    (commits : after.world = service.world.commit id turn)
    (processes : after.processes = launched service.processes launch entered) :
    Muting roomId pid after := by
  have recorded : after.world.commands = service.world.commands ++ turn.commands := by
    rw [commits]
    rfl
  simp only [mutesInOrder, present, Bool.and_eq_true] at admits
  obtain ⟨sets, starts⟩ := admits
  have started := Connection.advance_entered taken enters
  -- A command that unmutes the participant is followed by the clearing of its flag.
  have unmuting : ∀ command ∈ turn.commands, command.peer = pid → command.cmd = .setMuted false →
      turn.connection.aboutTo pid (SdpMessage.unmutesIn roomId) = true := by
    intro command sent here cmd
    obtain ⟨own, handled, peers, room, bound, point, ⟨impossible, _⟩ | ⟨_, message⟩⟩ :=
      Connection.advance_setMuted taken command sent false cmd
    · cases impossible
    · obtain ⟨same, rfl⟩ :=
        muting.own id connection handled _ _ room own present point message bound (.inl here)
      rw [here] at same
      subst same
      exact Connection.act_unmutes bound point message taken
  refine ⟨?_, ?_⟩
  · intro other found handled stage sender room own known point message bound mine
    rw [commits, World.lookup_commit] at known
    split at known
    · cases known
      obtain ⟨same, earlier, before⟩ := Connection.advance_handling taken point
      exact muting.own id connection handled earlier sender room own present before message
        (same ▸ bound) mine
    · exact muting.own other found handled stage sender room own known point message bound mine
  · intro muted
    rw [commits] at muted
    by_cases clears : turn.connection.aboutTo pid (SdpMessage.unmutesIn roomId) = true
    · exact .inr ⟨id, turn.connection, by rw [commits, World.lookup_commit, if_pos rfl], clears⟩
    have keeps : ∀ channel : Channel, channel.pid = pid → ∀ command ∈ turn.commands,
        command.channel = channel → command.cmd ≠ .setMuted false := by
      intro channel own command sent here cmd
      exact clears (unmuting command sent ((congrArg Channel.pid here).trans own) cmd)
    rcases Connection.advance_flag hooks (fitting id connection present) taken muted with
      mutes | ⟨set, going⟩
    · left
      intro channel process running own
      rw [processes] at running
      rcases lookup_launched running with earlier | ⟨media, member, _⟩
      · rw [mutes, Bool.not_true, Bool.false_or, List.all_eq_true] at sets
        have told := sets channel ((Table.mem_keys channel _).mpr ⟨process, earlier⟩)
        rw [own] at told
        exact toldMuted_append turn.commands recorded (keeps channel own) (by simpa using told)
      · obtain ⟨handled, _, _, _, point, _⟩ := started media member
        simp [Connection.aboutTo, point] at mutes
    · rcases muting.told set with told | ⟨other, found, known, clearing⟩
      · left
        intro channel process running own
        rw [processes] at running
        rcases lookup_launched running with earlier | ⟨media, member, named, rfl⟩
        · exact toldMuted_append turn.commands recorded (keeps channel own)
            (told channel process earlier own)
        · obtain ⟨handled, peers, peer, bound, point, gen⟩ := started media member
          have mine : media.pid = pid := (congrArg Channel.pid named).trans own
          simp only [point, bound, mine, set] at starts
          have here : channel = ⟨pid, peer.gen⟩ := by rw [← named, MediaTask.channel, mine, gen]
          rw [here]
          exact toldMuted_append turn.commands recorded (keeps _ rfl) (by simpa using starts)
      · right
        refine ⟨other, found, ?_, clearing⟩
        rw [commits, World.lookup_commit, if_neg]
        · exact known
        · rintro rfl
          cases present.symm.trans known
          rw [going] at clearing
          cases clearing

/-- Every guarded step keeps to it. -/
theorem step (muting : Muting roomId pid service) (hooks : config.hooks = .sfu)
    (fresh : service.world.Fresh) (fitting : service.world.Fitting config)
    (stepped : service.step config event = some after)
    (admits : service.mutesInOrder roomId pid event = true) : Muting roomId pid after := by
  have runs : ∀ {channel : Channel} {process other : Process},
      service.processes.lookup channel = some process →
      ∀ tested found, (service.processes.insert channel other).lookup tested = some found →
        ∃ earlier, service.processes.lookup tested = some earlier := by
    intro channel process other present tested found running
    rw [Table.lookup_insert_eq] at running
    split at running
    · rename_i here
      exact ⟨process, here ▸ present⟩
    · exact ⟨found, running⟩
  cases step_taken stepped with
  | still engineEvent launch world moved own stays commands sfu signaling =>
    exact muting.still fresh moved stays commands signaling admits
  | advanced id answer launch connection turn entered present taken enters =>
    exact muting.advanced hooks fitting present taken enters admits rfl rfl
  | took channel rtc process cmd rest posted _ present waiting performed =>
    refine muting.aside posted performed.commands performed.unmutesNone performed.signaling
      performed.connections ?_
    rw [performed.processes]
    exact runs present
  | drained channel rtc events process posted _ present performed =>
    refine muting.aside posted performed.commands performed.unmutesNone performed.signaling
      performed.connections ?_
    rw [performed.processes]
    exact runs present
  | endsTask channel process present =>
    refine muting.aside [] (List.append_nil _).symm (by simp) rfl rfl ?_
    intro tested found running
    rw [Table.lookup_erase_eq] at running
    split at running
    · cases running
    · exact ⟨found, running⟩
  | arrived =>
    exact muting.aside [] (List.append_nil _).symm (by simp) rfl rfl fun _ found running =>
      ⟨found, running⟩
  | read datagram commands held each =>
    refine muting.aside commands rfl ?_ rfl rfl fun _ found running => ⟨found, running⟩
    intro command sent cmd
    rw [each command sent] at cmd
    cases cmd

/-- In every state reached in order the flag keeps to it. -/
theorem of_reaches (hooks : config.hooks = .sfu) {e2eeRequired : Bool}
    (reached : Reaches (Service.step config)
      (fun service event => service.mutesInOrder roomId pid event = true) (new e2eeRequired)
      service) : Muting roomId pid service := by
  apply reached.invariant_with
    (fun service => service.world.Fresh ∧ service.world.Fitting config) (Muting roomId pid)
  · exact fun _ reached => ⟨fresh_of_reaches reached, fitting_of_reaches reached⟩
  · refine ⟨fun _ _ _ _ _ _ _ known => by simp [new, World.new] at known, fun muted => ?_⟩
    simp [new, World.new, SignalingState.audioMuted, SignalingState.member,
      SignalingState.new] at muted
  · exact fun _ _ _ known muting admits stepped => muting.step hooks known.1 known.2 stepped admits

end Muting

/-- The participant's media tasks are muted, and nothing is on its way that unmutes
one. -/
structure StillMuted (pid : ParticipantId) (service : Service) : Prop where
  muted : ∀ channel process, service.processes.lookup channel = some process → channel.pid = pid →
    process.task.muted = true ∧ .setMuted false ∉ service.queueOf channel
  silent : ∀ id connection handled stage sender room,
    service.world.connections.lookup id = some connection →
    connection.point = .handling handled stage → handled.message = .unmuteAudio sender room →
    sender ≠ pid

/-- At rest, the flag mutes. -/
theorem Muting.stillMuted (muting : Muting roomId pid service) (quiet : service.Quiet)
    (muted : service.world.signaling.audioMuted roomId pid = true)
    (follows : ∀ channel process, service.processes.lookup channel = some process →
      process.task.muted = service.toldMuted channel) : StillMuted pid service := by
  have idle : ∀ {id connection}, service.world.connections.lookup id = some connection →
      ∀ handled stage, connection.point ≠ .handling handled stage := by
    intro id connection known handled stage point
    have rests := quiet.2 id connection known
    rw [point] at rests
    cases rests
  refine ⟨?_, fun id connection handled stage _ _ known point =>
    absurd point (idle known handled stage)⟩
  intro channel process running own
  refine ⟨?_, by simp [quiet.1 channel]⟩
  rw [follows channel process running]
  rcases muting.told muted with told | ⟨id, connection, known, clears⟩
  · exact told channel process running own
  · unfold Connection.aboutTo at clears
    split at clears
    · rename_i point _
      exact absurd point (idle known _ _)
    · cases clears

namespace StillMuted

/-- A step that unmutes nobody and starts nothing, with what waits for the
participant's tasks. -/
theorem aside (still : StillMuted pid service) (rest : Channel → List PeerCmd)
    (commands : List Command)
    (tasks : ∀ channel process, after.processes.lookup channel = some process → channel.pid = pid →
      ∃ earlier, service.processes.lookup channel = some earlier ∧
        (earlier.task.muted = true → process.task.muted = true))
    (queued : ∀ channel, after.queueOf channel =
      rest channel ++
        if channel ∈ service.ended then [] else addressed channel (commands.map Command.letter))
    (less : ∀ channel, rest channel ⊆ service.queueOf channel)
    (keeps : ∀ command ∈ commands, command.peer = pid → command.cmd ≠ .setMuted false)
    (connections : ∀ id connection handled stage sender room,
      after.world.connections.lookup id = some connection →
      connection.point = .handling handled stage → handled.message = .unmuteAudio sender room →
      sender ≠ pid) : StillMuted pid after := by
  refine ⟨?_, connections⟩
  intro channel process running own
  obtain ⟨earlier, before, kept⟩ := tasks channel process running own
  obtain ⟨muted, quiet⟩ := still.muted channel earlier before own
  refine ⟨kept muted, ?_⟩
  rw [queued]
  intro waiting
  rcases List.mem_append.mp waiting with old | sent
  · exact quiet (less channel old)
  · split at sent
    · cases sent
    · obtain ⟨command, listed, here, cmd⟩ := (mem_addressed_letters commands channel _).mp sent
      exact keeps command listed ((congrArg Channel.pid here).trans own) cmd

/-- Every guarded step keeps the participant muted. -/
theorem step (muted : StillMuted pid service) (stepped : service.step config event = some after)
    (admits : service.staysMuted pid event = true) : StillMuted pid after := by
  cases step_taken stepped with
  | still engineEvent launch world moved own stays commands sfu signaling =>
    refine muted.aside service.queueOf []
      (fun _ process running _ => ⟨process, running, fun same => same⟩) ?_
      (fun _ => List.Subset.refl _) (by simp) ?_
    · intro channel
      simp [queueOf]
    · intro id connection handled stage sender room known point message
      rcases World.handling_still moved stays known point with
        before | ⟨earlier, raw, auth, rateOk, rfl, _⟩
      · exact muted.silent id connection handled stage sender room before point message
      · simpa [staysMuted, message] using admits
  | advanced id answer launch connection turn entered present taken enters =>
    have started := Connection.advance_entered taken enters
    refine muted.aside service.queueOf turn.commands ?_ ?_ (fun _ => List.Subset.refl _) ?_ ?_
    · intro channel process running own
      rcases lookup_launched running with before | ⟨media, member, named, _⟩
      · exact ⟨process, before, fun same => same⟩
      · obtain ⟨handled, peers, peer, bound, point, _⟩ := started media member
        have mine : media.pid = pid := (congrArg Channel.pid named).trans own
        simp [staysMuted, World.task, present, point, bound, mine] at admits
    · intro channel
      exact service.queues.waiting_postAll service.ended channel _
    · intro command sent here cmd
      obtain ⟨own, handled, peers, room, bound, point, ⟨impossible, _⟩ | ⟨_, message⟩⟩ :=
        Connection.advance_setMuted taken command sent false cmd
      · cases impossible
      · exact muted.silent id connection handled _ _ room present point message here
    · intro other found handled stage sender room known point message
      rw [World.lookup_commit] at known
      split at known
      · cases known
        obtain ⟨_, earlier, before⟩ := Connection.advance_handling taken point
        exact muted.silent id connection handled earlier sender room present before message
      · exact muted.silent other found handled stage sender room known point message
  | took channel rtc process cmd rest posted _ present waiting performed =>
    refine muted.aside (fun tested => if tested = channel then rest else service.queueOf tested)
      posted ?_ ?_ ?_ (fun command sent _ => performed.unmutesNone command sent) ?_
    · intro tested found running own
      rw [performed.processes, Table.lookup_insert_eq] at running
      split at running
      · rename_i here
        cases running
        subst here
        refine ⟨process, present, fun kept => ?_⟩
        change (process.task.handle _ cmd).1.muted = true
        rw [(process.task.handle_frame (service.told process rtc) cmd).2.1]
        cases cmd with
        | setMuted now =>
          cases now with
          | true => rfl
          | false =>
            have none := (muted.muted tested process present own).2
            exact absurd (waiting ▸ List.mem_cons_self) none
        | _ => exact kept
      · exact ⟨found, running, fun same => same⟩
    · intro tested
      rw [performed.queueOf]
      exact congrArg (· ++ _) (service.queues.waiting_insert channel tested rest)
    · intro tested
      split
      · rename_i here
        rw [here, waiting]
        exact List.subset_cons_self cmd rest
      · exact List.Subset.refl _
    · rw [performed.connections]
      exact muted.silent
  | drained channel rtc events process posted _ present performed =>
    refine muted.aside service.queueOf posted ?_ performed.queueOf (fun _ => List.Subset.refl _)
      (fun command sent _ => performed.unmutesNone command sent) ?_
    · intro tested found running own
      rw [performed.processes, Table.lookup_insert_eq] at running
      split at running
      · rename_i here
        cases running
        subst here
        refine ⟨process, present, fun kept => ?_⟩
        exact ((process.task.drainOutputs_frame (service.told process rtc) events).2.1).trans kept
      · exact ⟨found, running, fun same => same⟩
    · rw [performed.connections]
      exact muted.silent
  | endsTask channel process present =>
    refine muted.aside (Mailboxes.waiting (service.queues.erase channel)) [] ?_ ?_ ?_ (by simp)
      muted.silent
    · intro tested found running own
      rw [Table.lookup_erase_eq] at running
      split at running
      · cases running
      · exact ⟨found, running, fun same => same⟩
    · intro tested
      simp [queueOf]
    · intro tested
      rw [service.queues.waiting_erase]
      split
      · exact List.nil_subset _
      · exact List.Subset.refl _
  | arrived =>
    refine muted.aside service.queueOf []
      (fun _ process running _ => ⟨process, running, fun same => same⟩) ?_ (fun _ => List.Subset.refl _) (by simp) muted.silent
    intro tested
    simp [queueOf]
  | read datagram commands held each =>
    refine muted.aside service.queueOf commands
      (fun _ process running _ => ⟨process, running, fun same => same⟩) ?_
      (fun _ => List.Subset.refl _) ?_ muted.silent
    · intro tested
      exact service.queues.waiting_postAll service.ended tested _
    · intro command sent _ cmd
      rw [each command sent] at cmd
      cases cmd

end StillMuted

end Service

/-- In order, a participant whose flag is on at rest is not heard: until it sends
`UnmuteAudio`, and as long as no media task is started for it, every packet of its
that is handed on to another is no audio.

First every task of the participant is known to be muted when the flag is on at rest. From
there on each step keeps it so, and a muted task hands no audio on, whatever it takes from
its queue. -/
theorem muted_unheard (config : Config) (hooks : config.hooks = .sfu) (e2eeRequired : Bool)
    (roomId : RoomId) (pid : ParticipantId) (service : Service)
    (reached : Reaches (Service.step config)
      (fun service event => service.mutesInOrder roomId pid event = true) (.new e2eeRequired)
      service)
    (quiet : service.Quiet) (muted : service.world.signaling.audioMuted roomId pid = true)
    (later : Service)
    (goes : Reaches (Service.step config)
      (fun service event => service.staysMuted pid event = true) service later)
    (event : ServiceEvent) (after : Service) (stepped : later.step config event = some after) :
    ∃ posted, after.world.commands = later.world.commands ++ posted ∧
      ∀ command ∈ posted, ∀ packet, command.cmd = .media packet → packet.sourcePid = pid →
        packet.isAudio = false := by
  have owned := Service.Owned.of_reaches reached
  have still : Service.StillMuted pid service := by
    refine (Service.Muting.of_reaches hooks reached).stillMuted quiet muted ?_
    intro channel process running
    exact Service.value_eq muteReader reached (quiet.1 channel) running
  obtain ⟨still, owned⟩ := goes.invariant
    (fun service => Service.StillMuted pid service ∧ Service.Owned service) ⟨still, owned⟩
    fun _ _ _ known admits stepped => ⟨known.1.step stepped admits, known.2.step stepped⟩
  cases Service.step_taken stepped with
  | still engineEvent launch world moved own stays commands =>
    exact ⟨[], by simp [commands], by simp⟩
  | advanced id answer launch connection turn entered present taken enters =>
    refine ⟨turn.commands, rfl, ?_⟩
    intro command sent packet carried
    exact absurd carried (Connection.advance_media taken command sent packet)
  | took channel rtc process cmd rest posted _ present waiting performed =>
    refine ⟨posted, performed.commands, ?_⟩
    intro command sent packet carried
    exact absurd carried (Service.not_posted performed sent packet)
  | drained channel rtc events process posted _ present performed =>
    refine ⟨posted, performed.commands, ?_⟩
    intro command sent packet carried own
    obtain ⟨named, taskPid, _⟩ := owned.each channel process present
    rcases performed.each command sent with keyframe | ⟨media, cmd, fanned, _⟩
    · rw [carried] at keyframe
      cases keyframe
    · rw [carried] at cmd
      cases cmd
      rcases process.task.drainOutputs_outputs _ events _ fanned with
        plain | ⟨_, text⟩ | ⟨received, arrived, heard⟩
      · cases plain
      · cases text
      · obtain ⟨source, unmuted⟩ := process.task.receivePacket_fanOut _ received packet heard
        have mine : channel.pid = pid := by rw [← taskPid, ← source, own]
        obtain ⟨silenced, _⟩ := still.muted channel process present mine
        cases audio : packet.isAudio with
        | false => rfl
        | true =>
          rw [unmuted audio] at silenced
          cases silenced
  | endsTask | arrived => exact ⟨[], (List.append_nil _).symm, by simp⟩
  | read datagram commands held each =>
    refine ⟨commands, rfl, ?_⟩
    intro command sent packet carried
    rw [each command sent] at carried
    cases carried

/-- Two participants with media tasks, and the first mutes itself. -/
def mutedRun : List ServiceEvent :=
  ServiceEvent.enters 1 ⟨1⟩ "a" ++ ServiceEvent.enters 2 ⟨2⟩ "a" ++
    ServiceEvent.says 1 (.muteAudio ⟨1⟩ "a") 4 ++ ServiceEvent.takesAll ⟨⟨1⟩, 1⟩ 2 ++
    ServiceEvent.takesAll ⟨⟨2⟩, 2⟩ 1

/-- The server after that run. -/
def mutedPair : Service :=
  (walk (Service.step .sfuDefault)
    (fun service event => service.mutesInOrder "a" ⟨1⟩ event = true) (.new false) mutedRun).getD
    (.new false)

/-- After that run a packet the first participant's task hears is handed to nobody. -/
theorem muted_unheard_pair :
    mutedPair.world.signaling.audioMuted "a" ⟨1⟩ = true ∧
      ∃ posted, ((mutedPair.step .sfuDefault (.hears ⟨⟨1⟩, 1⟩)).getD mutedPair).world.commands =
          mutedPair.world.commands ++ posted ∧
        ∀ command ∈ posted, ∀ packet, command.cmd = .media packet → packet.sourcePid = ⟨1⟩ →
          packet.isAudio = false := by
  have reached := walk_reaches_end (Service.step .sfuDefault)
    (fun service event => service.mutesInOrder "a" ⟨1⟩ event = true) (.new false) mutedRun
    (by decide +kernel)
  have hears : (mutedPair.step .sfuDefault (.hears ⟨⟨1⟩, 1⟩)).isSome = true := by decide +kernel
  obtain ⟨after, stepped⟩ := Option.isSome_iff_exists.mp hears
  refine ⟨by decide +kernel, ?_⟩
  rw [stepped]
  exact muted_unheard .sfuDefault rfl false "a" ⟨1⟩ mutedPair reached (by decide +kernel)
    (by decide +kernel) mutedPair .start (.hears ⟨⟨1⟩, 1⟩) after stepped

/-- The output writes a participant's audio. -/
def Output.writesAudioOf (pid : ParticipantId) : Output → Bool
  | .rtp write => write.packet.isAudio && decide (write.packet.sourcePid = pid)
  | _ => false

/-- A participant mutes itself before its offer, and another joins afterwards. -/
def mutedFirstRun : List ServiceEvent :=
  ServiceEvent.engines (.connect :: Event.firstJoin 1 ⟨1⟩ "a") ++
    ServiceEvent.says 1 (.muteAudio ⟨1⟩ "a") 4 ++ ServiceEvent.engines (Event.offer 1 ⟨1⟩ "a") ++
    ServiceEvent.enters 2 ⟨2⟩ "a" ++ ServiceEvent.takesAll ⟨⟨1⟩, 1⟩ 1

/-- The server after that run. -/
def mutedFirst : Service :=
  (walk (Service.step .sfuDefault) always (.new false) mutedFirstRun).getD (.new false)

/-- The server once the first participant's task has heard audio. -/
def mutedHeard : Service :=
  (mutedFirst.step .sfuDefault (.hears ⟨⟨1⟩, 1⟩)).getD (.new false)

/-- What the second participant's task then does with the first command it takes. -/
def mutedWrites : List Output :=
  ((mutedHeard.processes.lookup ⟨⟨2⟩, 2⟩).bind fun process =>
    (mutedHeard.queueOf ⟨⟨2⟩, 2⟩).head?.map fun cmd =>
      (process.task.handle (mutedHeard.told process (Rtc.plain (fun _ => none) 0)) cmd).2).getD []

/-- The room is told that the first participant is muted, nothing is under way, and
the second participant is sent its audio. -/
theorem muted_before_offer_heard :
    Reaches (Service.step .sfuDefault) always (.new false) mutedFirst ∧ mutedFirst.Quiet ∧
      mutedFirst.world.signaling.audioMuted "a" ⟨1⟩ = true ∧
      mutedFirst.step .sfuDefault (.hears ⟨⟨1⟩, 1⟩) = some mutedHeard ∧
      mutedWrites.any (Output.writesAudioOf ⟨1⟩) = true := by
  refine ⟨walk_reaches_end _ _ _ _ (by decide +kernel), by decide +kernel, by decide +kernel, ?_,
    by decide +kernel⟩
  have hears : (mutedFirst.step .sfuDefault (.hears ⟨⟨1⟩, 1⟩)).isSome = true := by decide +kernel
  obtain ⟨after, stepped⟩ := Option.isSome_iff_exists.mp hears
  rw [mutedHeard, stepped, Option.getD_some]

end Seameet

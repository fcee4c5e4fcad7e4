import Seameet.Engine.Service

/-!
# What is still to come of a source

A hold on a source is followed through the channels: a packet that brings it about
marks it, and a command that ends it clears the mark. What a media task can still
come to hold once it has taken all that waits is bounded by the mark of everything
ever sent to it. So when nothing waits, a task whose last word about the source was
the clearing one holds nothing of it, whatever the interleaving.
-/

namespace Seameet

open Library

namespace Hold

/-- What a command makes of a hold. -/
def mark (hold : Hold) (clears : PeerCmd → Bool) (shown : Bool) : PeerCmd → Bool
  | .media packet => shown || hold.makes packet
  | cmd => shown && !clears cmd

variable (hold : Hold) (clears : PeerCmd → Bool)

/-- A packet that brings a hold about does so in any case. -/
theorem mark_cumulative : Cumulative (hold.mark clears) := by
  intro cmd marked
  cases cmd <;> simp_all [mark]

/-- A task shows no more after a command than the command's mark, if the commands
that clear the mark end the hold. -/
theorem handle_marked {hold : Hold} {clears : PeerCmd → Bool} {task : Task} (rtc : Rtc)
    (waiting : task.ParkedOwn) (cmd : PeerCmd)
    (cleared : clears cmd = true → hold.on (task.handle rtc cmd).1 = false)
    (shown : hold.on (task.handle rtc cmd).1 = true) : hold.mark clears (hold.on task) cmd = true := by
  by_contra unmarked
  have unmarked := Bool.eq_false_iff.mpr unmarked
  have quiet : (∀ media, cmd = .media media → hold.makes media = false) →
      hold.on task = false → False := by
    intro other none
    simp [hold.handle rtc waiting cmd other none] at shown
  cases cmd with
  | media packet =>
    obtain ⟨none, other⟩ := Bool.or_eq_false_iff.mp unmarked
    exact quiet (fun media same => PeerCmd.media.inj same ▸ other) none
  | _ =>
    rcases Bool.and_eq_false_iff.mp unmarked with none | clearing
    · exact quiet (by simp) none
    · simp [cleared (by simpa using clearing)] at shown

end Hold

namespace Service

/-- Whether the task on a channel has a hold. -/
def shows (service : Service) (hold : Hold) (channel : Channel) : Bool :=
  ((service.processes.lookup channel).map fun process => hold.on process.task).getD false

/-- Whether everything sent to a channel leaves the mark of a hold. -/
def owes (service : Service) (hold : Hold) (clears : PeerCmd → Bool) (channel : Channel) : Bool :=
  tally (hold.mark clears) false (service.sentTo channel)

/-- What a task can come to hold is bounded by what was sent to it, and a closed
channel has neither task nor commands. -/
structure Backed (hold : Hold) (clears : PeerCmd → Bool) (service : Service) : Prop where
  bounded : ∀ channel, tally (hold.mark clears) (service.shows hold channel)
    (service.queueOf channel) = true → service.owes hold clears channel = true
  shut : ∀ channel ∈ service.ended, service.queueOf channel = [] ∧
    service.shows hold channel = false

/-- Whether nothing that is still open to commands owes a hold: the last word sent
there about the source was the clearing one, if any packet was sent at all. -/
def cleared (service : Service) (hold : Hold) (clears : PeerCmd → Bool) : Bool :=
  service.world.commands.all fun command =>
    decide (command.channel ∈ service.ended) || !service.owes hold clears command.channel

/-- Whether a drain hands another task a packet of a kind. -/
def hands (service : Service) (process : Process) (rtc : Rtc) (events : List RtcEvent)
    (makes : ForwardedMedia → Bool) : Bool :=
  (service.peersOf process.media).keys.any (· ≠ process.media.pid) &&
    events.any fun event =>
      match event with
      | .rtpPacket packet =>
          (process.task.receivePacket rtc packet).any fun output =>
            match output with
            | .fanOut media => makes media
            | _ => false
      | _ => false

section Owing

variable {hold : Hold} {clears : PeerCmd → Bool} {config : Config} {service after : Service}
  {event : ServiceEvent}

/-- A channel nothing was sent to owes nothing. -/
theorem owes_of_cleared (clean : service.cleared hold clears = true) (channel : Channel)
    (opened : channel ∉ service.ended) : service.owes hold clears channel = false := by
  by_cases addressee : ∃ command ∈ service.world.commands, command.channel = channel
  · obtain ⟨command, sent, rfl⟩ := addressee
    simpa [opened] using List.all_eq_true.mp clean command sent
  · have nothing : service.sentTo channel = [] := by
      refine List.eq_nil_iff_forall_not_mem.mpr fun cmd member => addressee ?_
      obtain ⟨command, sent, here, _⟩ := (mem_addressed_letters _ _ _).mp member
      exact ⟨command, sent, here⟩
    simp [owes, nothing]

/-- Commands that carry no packet of the hold bring nothing about. -/
theorem owes_quiet (commands : List Command)
    (recorded : after.world.commands = service.world.commands ++ commands)
    (others : ∀ command ∈ commands, ∀ packet, command.cmd = .media packet →
      hold.makes packet = false)
    (channel : Channel) (owing : after.owes hold clears channel = true) :
    service.owes hold clears channel = true := by
  by_contra settled
  have settled := Bool.eq_false_iff.mpr settled
  unfold owes at owing settled
  rw [sentTo_append channel recorded, tally_append] at owing
  rw [settled, tally_unset] at owing
  · cases owing
  · intro cmd member
    obtain ⟨command, sent, _, rfl⟩ := (mem_addressed_letters _ _ _).mp member
    cases carried : command.cmd with
    | media packet => simp [Hold.mark, others command sent packet carried]
    | _ => rfl

/-- A packet handed on while a task drains was heard by the task and is its own
participant's, and there is somebody else to hand it to. -/
theorem hands_of_posted {process : Process} {rtc : Rtc} {events : List RtcEvent}
    {posted : List Command} {between : Service} {makes : ForwardedMedia → Bool}
    (performed : Performed process.media
      (process.task.drainOutputs (service.told process rtc) events).2 posted between after)
    (sfu : between.world.sfu = service.world.sfu) {command : Command} (sent : command ∈ posted)
    {packet : ForwardedMedia} (carried : command.cmd = .media packet)
    (made : makes packet = true) :
    packet.sourcePid = process.task.pid ∧ service.hands process rtc events makes = true := by
  rcases performed.each command sent with keyframe | ⟨media, cmd, fanned, other, listed, apart⟩
  · simp [carried] at keyframe
  · rw [carried] at cmd
    cases cmd
    rcases process.task.drainOutputs_outputs _ events _ fanned with
      plain | ⟨_, text⟩ | ⟨received, arrived, heard⟩
    · cases plain
    · cases text
    · refine ⟨(process.task.receivePacket_fanOut _ received packet heard).1, ?_⟩
      refine Bool.and_eq_true_iff.mpr ⟨?_, ?_⟩
      · rw [peersOf, sfu] at listed
        exact List.any_eq_true.mpr ⟨other, listed, decide_eq_true apart⟩
      · refine List.any_eq_true.mpr ⟨.rtpPacket received, arrived, ?_⟩
        exact List.any_eq_true.mpr ⟨.fanOut packet, heard, made⟩

/-- Taking a command hands nobody a packet. -/
theorem not_posted {process : Process} {rtc : Rtc} {cmd : PeerCmd} {posted : List Command}
    {between : Service}
    (performed : Performed process.media
      (process.task.handle (service.told process rtc) cmd).2 posted between after)
    {command : Command} (sent : command ∈ posted) (packet : ForwardedMedia) :
    command.cmd ≠ .media packet := by
  intro carried
  rcases performed.each command sent with keyframe | ⟨media, _, fanned, _⟩
  · simp [carried] at keyframe
  · rcases process.task.handle_outputs _ cmd _ fanned with
      plain | ⟨_, _, _, route, _⟩ | ⟨_, _, _, _, text⟩ | ⟨_, text⟩
    · cases plain
    · cases route
    · cases text
    · cases text

/-- A channel comes to owe a hold only when the source's own task hands a packet on. -/
theorem owes_step (owned : Owned service) (stepped : service.step config event = some after)
    (channel : Channel) (owing : after.owes hold clears channel = true) :
    service.owes hold clears channel = true ∨
      ∃ drained rtc events process, event = .drains drained rtc events ∧
        service.processes.lookup drained = some process ∧ process.media.pid = hold.source ∧
        service.hands process rtc events hold.makes = true := by
  cases step_taken stepped with
  | still engineEvent launch world moved own still commands sfu signaling =>
    exact .inl (owes_quiet [] (by simp [commands]) (by simp) channel owing)
  | advanced id answer launch connection turn entered present taken enters =>
    refine .inl (owes_quiet turn.commands rfl ?_ channel owing)
    exact fun command sent packet carried =>
      absurd carried (Connection.advance_media taken command sent packet)
  | took tested rtc process cmd rest posted _ present waiting performed =>
    refine .inl (owes_quiet posted performed.commands ?_ channel owing)
    exact fun command sent packet carried => absurd carried (not_posted performed sent packet)
  | drained tested rtc events process posted _ present performed =>
    by_cases handed : ∃ command ∈ posted, ∃ packet, command.cmd = .media packet ∧
        hold.makes packet = true
    · obtain ⟨command, sent, packet, carried, made⟩ := handed
      obtain ⟨own, hands⟩ := hands_of_posted performed rfl sent carried made
      obtain ⟨named, pid, _⟩ := owned.each tested process present
      refine .inr ⟨tested, rtc, events, process, rfl, present, ?_, hands⟩
      have mine : process.media.pid = tested.pid := congrArg Channel.pid named
      rw [mine, ← pid, ← own, hold.own packet made]
    · refine .inl (owes_quiet posted performed.commands ?_ channel owing)
      exact fun command sent packet carried =>
        Bool.eq_false_iff.mpr fun made => handed ⟨command, sent, packet, carried, made⟩
  | endsTask | arrived => exact .inl (owes_quiet [] (by simp) (by simp) channel owing)
  | read datagram commands held each =>
    refine .inl (owes_quiet commands rfl ?_ channel owing)
    intro command sent packet carried
    simp [each command sent] at carried

/-- Channels are never opened again. -/
theorem ended_step (stepped : service.step config event = some after) :
    service.ended ⊆ after.ended := by
  cases step_taken stepped with
  | still | advanced | arrived | read => exact List.Subset.refl _
  | took _ _ _ _ _ _ _ _ _ performed | drained _ _ _ _ _ _ _ performed =>
    rw [performed.ended]
    exact List.Subset.refl _
  | endsTask => exact List.subset_cons_self _ _

end Owing

namespace Backed

variable {hold : Hold} {clears : PeerCmd → Bool} {config : Config} {service after : Service}
  {event : ServiceEvent}

/-- A step that appends to the channels what it sends, leaves of each channel a rest,
and lets nobody show more with that rest than it could show before. -/
theorem move (backed : Backed hold clears service) (sent rest : Channel → List PeerCmd)
    (recorded : ∀ channel, after.sentTo channel = service.sentTo channel ++ sent channel)
    (queued : ∀ channel, after.queueOf channel =
      rest channel ++ if channel ∈ service.ended then [] else sent channel)
    (ended : after.ended = service.ended)
    (less : ∀ channel, tally (hold.mark clears) (after.shows hold channel) (rest channel) = true →
      tally (hold.mark clears) (service.shows hold channel) (service.queueOf channel) = true)
    (shut : ∀ channel ∈ service.ended, rest channel = [] ∧ after.shows hold channel = false) :
    Backed hold clears after where
  bounded := by
    intro channel shown
    rw [queued] at shown
    by_cases closed : channel ∈ service.ended
    · obtain ⟨empty, none⟩ := shut channel closed
      simp [closed, empty, none] at shown
    · rw [if_neg closed, tally_append] at shown
      rw [owes, recorded, tally_append]
      exact (hold.mark_cumulative clears).tally_mono
        (fun more => backed.bounded channel (less channel more)) _ shown
  shut := by
    intro channel closed
    rw [ended] at closed
    rw [queued, if_pos closed, List.append_nil]
    exact shut channel closed

/-- A step that only sends. -/
theorem sends (backed : Backed hold clears service) (commands : List Command)
    (recorded : after.world.commands = service.world.commands ++ commands)
    (queues : after.queues = service.queues.postAll service.ended (commands.map Command.letter))
    (ended : after.ended = service.ended)
    (fewer : ∀ channel, after.shows hold channel = true → service.shows hold channel = true) :
    Backed hold clears after := by
  refine backed.move (fun channel => addressed channel (commands.map Command.letter))
    service.queueOf ?_ ?_ ended ?_ ?_
  · exact fun channel => sentTo_append channel recorded
  · intro channel
    rw [queueOf, queues]
    exact service.queues.waiting_postAll service.ended channel _
  · exact fun channel shown => (hold.mark_cumulative clears).tally_mono (fewer channel) _ shown
  · intro channel closed
    obtain ⟨empty, none⟩ := backed.shut channel closed
    refine ⟨empty, Bool.eq_false_iff.mpr fun shown => ?_⟩
    simp [fewer channel shown] at none

/-- A task's turn: its channel keeps a rest, and the task shows no more with that
rest than before. -/
theorem turned (backed : Backed hold clears service) {channel : Channel} {process : Process}
    {task : Task} {outputs : List Output} {posted : List Command} {between : Service}
    (rest : List PeerCmd) (performed : Performed process.media outputs posted between after)
    (processes : between.processes = service.processes.insert channel { process with task })
    (queued : ∀ tested, between.queueOf tested =
      if tested = channel then rest else service.queueOf tested)
    (recorded : between.world.commands = service.world.commands)
    (ended : between.ended = service.ended)
    (less : tally (hold.mark clears) (hold.on task) rest = true →
      tally (hold.mark clears) (service.shows hold channel) (service.queueOf channel) = true)
    (shut : channel ∈ service.ended → rest = [] ∧ hold.on task = false) :
    Backed hold clears after := by
  have showing : ∀ tested, after.shows hold tested =
      if tested = channel then hold.on task else service.shows hold tested := by
    intro tested
    rw [shows, performed.processes, processes, Table.lookup_insert_eq]
    split <;> rfl
  refine backed.move (fun tested => addressed tested (posted.map Command.letter))
    between.queueOf ?_ ?_ (performed.ended.trans ended) ?_ ?_
  · intro tested
    exact sentTo_append tested (performed.commands.trans (by rw [recorded]))
  · intro tested
    rw [performed.queueOf, ended]
  · intro tested shown
    rw [showing, queued] at shown
    split at shown
    · rename_i here
      exact here ▸ less shown
    · exact shown
  · intro tested closed
    rw [showing, queued]
    split
    · rename_i here
      exact shut (here ▸ closed)
    · exact backed.shut tested closed

/-- Every step keeps the bound, as long as the commands that clear the mark end the
hold when they are taken. -/
theorem step (backed : Backed hold clears service) (owned : Owned service)
    (stepped : service.step config event = some after)
    (cleared : ∀ channel rtc process cmd rest, event = .takes channel rtc →
      service.processes.lookup channel = some process → service.queueOf channel = cmd :: rest →
        clears cmd = true → hold.on (process.task.handle (service.told process rtc) cmd).1 = false) :
    Backed hold clears after := by
  have showing : ∀ {channel process}, service.processes.lookup channel = some process →
      service.shows hold channel = hold.on process.task := by
    intro channel process present
    simp [shows, present]
  cases step_taken stepped with
  | still engineEvent launch world moved own still commands sfu signaling =>
    exact backed.sends [] (by simp [commands]) rfl rfl fun _ shown => shown
  | advanced id answer launch connection turn entered present taken enters =>
    refine backed.sends turn.commands rfl rfl rfl ?_
    intro channel shown
    simp only [shows] at shown ⊢
    cases running : (launched service.processes launch entered).lookup channel with
    | none => simp [running] at shown
    | some process =>
      rcases lookup_launched running with earlier | ⟨media, _, _, rfl⟩
      · rw [earlier]
        rwa [running] at shown
      · simp [running, Launch.process, hold.start] at shown
  | took channel rtc process cmd rest posted _ present waiting performed =>
    have own := (owned.each channel process present).2.2
    refine backed.turned rest performed rfl ?_ rfl rfl ?_ ?_
    · exact fun tested => service.queues.waiting_insert channel tested rest
    · intro shown
      rw [waiting, showing present, tally_cons]
      exact (hold.mark_cumulative clears).tally_mono
        (Hold.handle_marked _ own cmd (cleared channel rtc process cmd rest rfl present waiting))
        _ shown
    · intro closed
      simp [(backed.shut channel closed).1] at waiting
  | drained channel rtc events process posted _ present performed =>
    refine backed.turned (service.queueOf channel) performed rfl ?_ rfl rfl ?_ ?_
    · intro tested
      split
      · rename_i here
        rw [here]
        rfl
      · rfl
    · intro shown
      rwa [showing present, ← hold.drainOutputs (service.told process rtc) events]
    · intro closed
      obtain ⟨empty, none⟩ := backed.shut channel closed
      rw [showing present] at none
      exact ⟨empty, (hold.drainOutputs _ events).trans none⟩
  | endsTask channel process present =>
    have queued : ∀ tested, Mailboxes.waiting (service.queues.erase channel) tested =
        if tested = channel then [] else service.queueOf tested :=
      fun tested => service.queues.waiting_erase channel tested
    refine ⟨?_, ?_⟩
    · intro tested shown
      simp only [queueOf, queued, shows, Table.lookup_erase_eq] at shown
      split at shown
      · simp at shown
      · exact backed.bounded tested shown
    · intro tested closed
      simp only [queueOf, queued, shows, Table.lookup_erase_eq]
      split
      · exact ⟨rfl, rfl⟩
      · rename_i apart
        exact backed.shut tested ((List.mem_cons.mp closed).resolve_left apart)
  | arrived => exact backed.sends [] (by simp) rfl rfl fun _ shown => shown
  | read datagram commands held each =>
    exact backed.sends commands rfl rfl rfl fun _ shown => shown

/-- A task whose channel is empty holds nothing, if its channel owes nothing while it
is open. -/
theorem nothing (backed : Backed hold clears service) (channel : Channel) (process : Process)
    (present : service.processes.lookup channel = some process)
    (empty : service.queueOf channel = [])
    (settled : channel ∉ service.ended → service.owes hold clears channel = false) :
    hold.on process.task = false := by
  have showing : service.shows hold channel = hold.on process.task := by simp [shows, present]
  by_cases closed : channel ∈ service.ended
  · rw [← showing]
    exact (backed.shut channel closed).2
  · refine Bool.eq_false_iff.mpr fun shown => ?_
    have owing := backed.bounded channel
    rw [empty, showing, tally_nil] at owing
    simp [settled closed] at owing
    simp [owing] at shown

/-- Before anybody connects nothing is held. -/
theorem new (e2eeRequired : Bool) : Backed hold clears (Service.new e2eeRequired) :=
  ⟨fun _ shown => by simp [Service.new, queueOf, shows, Mailboxes.waiting] at shown,
    fun _ closed => by simp [Service.new] at closed⟩

end Backed

end Service

end Seameet

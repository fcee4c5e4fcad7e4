import Seameet.Engine.Staff

/-!
# What a media task makes of its commands

A fact a media task keeps that only its commands change is a function of the
commands it has taken. Whatever the interleaving, once the task has taken what
waits, the fact is what everything ever sent to its channel makes of it.
-/

namespace Seameet

open Library

/-- A fact a media task keeps, and what a command makes of it. -/
structure Reader (β : Type) where
  start : β
  read : β → PeerCmd → β
  value : Task → β
  starts : ∀ pid ownAudioPt ownVideoPt roomId now answer,
    value (Task.start pid ownAudioPt ownVideoPt roomId now answer) = start
  handles : ∀ task rtc cmd, value (task.handle rtc cmd).1 = read (value task) cmd
  drains : ∀ task rtc events, value (task.drainOutputs rtc events).1 = value task

namespace Service

variable {β : Type} {reader : Reader β}
variable {config : Config} {service after : Service} {event : ServiceEvent}
variable {owner : Nat → ParticipantId × PeersRef}

/-- What the task on a channel keeps of the fact; the start where none runs. -/
def kept (service : Service) (reader : Reader β) (channel : Channel) : β :=
  ((service.processes.lookup channel).map fun process => reader.value process.task).getD reader.start

/-- Once a task has taken what waits, what it keeps is what everything ever sent to
it makes of the start. -/
def Follows (reader : Reader β) (service : Service) : Prop :=
  ∀ channel, channel ∉ service.ended →
    (service.queueOf channel).foldl reader.read (service.kept reader channel) =
      (service.sentTo channel).foldl reader.read reader.start

namespace Follows

/-- A step that appends to the channels what it sends, and leaves of each channel a
rest with which its task comes to the same. -/
theorem move (follows : Follows reader service) (sent rest : Channel → List PeerCmd)
    (recorded : ∀ channel, after.sentTo channel = service.sentTo channel ++ sent channel)
    (queued : ∀ channel, after.queueOf channel =
      rest channel ++ if channel ∈ service.ended then [] else sent channel)
    (ended : service.ended ⊆ after.ended)
    (same : ∀ channel, channel ∉ after.ended →
      (rest channel).foldl reader.read (after.kept reader channel) =
        (service.queueOf channel).foldl reader.read (service.kept reader channel)) : Follows reader after := by
  intro channel opened
  have before := follows channel fun shut => opened (ended shut)
  rw [queued, recorded, if_neg fun shut => opened (ended shut), List.foldl_append,
    List.foldl_append, same channel opened, before]

/-- A step that only sends. -/
theorem sends (follows : Follows reader service) (commands : List Command)
    (recorded : after.world.commands = service.world.commands ++ commands)
    (queues : after.queues = service.queues.postAll service.ended (commands.map Command.letter))
    (ended : after.ended = service.ended)
    (same : ∀ channel, after.kept reader channel = service.kept reader channel) : Follows reader after := by
  refine follows.move (fun channel => addressed channel (commands.map Command.letter))
    service.queueOf ?_ ?_ (by rw [ended]; exact List.Subset.refl _) ?_
  · exact fun channel => sentTo_append channel recorded
  · intro channel
    rw [queueOf, queues]
    exact service.queues.waiting_postAll service.ended channel _
  · intro channel _
    rw [same]

/-- A task's turn, after which it comes to the same with the rest of its channel. -/
theorem turned (follows : Follows reader service) {channel : Channel} {process : Process}
    {task : Task} {outputs : List Output} {posted : List Command} {between : Service}
    (rest : List PeerCmd) (performed : Performed process.media outputs posted between after)
    (processes : between.processes = service.processes.insert channel { process with task })
    (queued : ∀ tested, between.queueOf tested =
      if tested = channel then rest else service.queueOf tested)
    (recorded : between.world.commands = service.world.commands)
    (ended : between.ended = service.ended)
    (same : rest.foldl reader.read (reader.value task) =
      (service.queueOf channel).foldl reader.read (service.kept reader channel)) : Follows reader after := by
  refine follows.move (fun tested => addressed tested (posted.map Command.letter))
    between.queueOf ?_ ?_ (by rw [performed.ended, ended]; exact List.Subset.refl _) ?_
  · intro tested
    exact sentTo_append tested (performed.commands.trans (by rw [recorded]))
  · intro tested
    rw [performed.queueOf, ended]
  · intro tested _
    rw [kept, performed.processes, processes, Table.lookup_insert_eq, queued]
    split
    · rename_i here
      rw [here]
      exact same
    · rfl

/-- Every step keeps to it. -/
theorem step (follows : Follows reader service) (owned : Owned service) (staffed : service.Staffed)
    (lineage : service.world.Lineage owner) (stepped : service.step config event = some after) :
    Follows reader after := by
  have keeps : ∀ {channel process}, service.processes.lookup channel = some process →
      service.kept reader channel = reader.value process.task := by
    intro channel process present
    simp [kept, present]
  cases step_taken stepped with
  | still engineEvent launch world moved own still commands sfu signaling =>
    exact follows.sends [] (by simp [commands]) rfl rfl fun _ => rfl
  | advanced id answer launch connection turn entered present taken enters =>
    refine follows.sends turn.commands rfl rfl rfl ?_
    intro channel
    obtain ⟨later, followed, _⟩ := lineage.turned present (Connection.advance_peering taken)
    have distinct := followed.distinct
    change (turn.sfu.mediaTasks.map MediaTask.gen).Nodup at distinct
    rw [enters] at distinct
    simp only [kept]
    by_cases fresh : ∃ media ∈ entered, media.channel = channel
    · obtain ⟨media, member, rfl⟩ := fresh
      rw [staffed.vacant owned distinct member, lookup_launched_self
        (by rw [List.map_append] at distinct; exact (List.nodup_append.mp distinct).2.1) member]
      exact reader.starts media.pid _ _ media.roomId _ _
    · rw [lookup_launched_ne fun media member same => fresh ⟨media, member, same⟩]
  | took channel rtc process cmd rest posted _ present waiting performed =>
    refine follows.turned rest performed rfl ?_ rfl rfl ?_
    · exact fun tested => service.queues.waiting_insert channel tested rest
    · rw [waiting, keeps present, List.foldl_cons, reader.handles]
  | drained channel rtc events process posted _ present performed =>
    refine follows.turned (service.queueOf channel) performed rfl ?_ rfl rfl ?_
    · intro tested
      split
      · rename_i here
        rw [here]
        rfl
      · rfl
    · rw [keeps present, reader.drains]
  | endsTask channel process present =>
    refine follows.move (fun _ => []) (Mailboxes.waiting (service.queues.erase channel)) ?_ ?_
      (List.subset_cons_self _ _) ?_
    · intro tested
      exact (List.append_nil _).symm
    · intro tested
      split <;> exact (List.append_nil _).symm
    · intro tested opened
      have apart : tested ≠ channel := fun same => opened (List.mem_cons.mpr (.inl same))
      rw [service.queues.waiting_erase, if_neg apart, kept, kept, Table.lookup_erase_eq,
        if_neg apart]
      rfl
  | arrived => exact follows.sends [] (by simp) rfl rfl fun _ => rfl
  | read datagram commands held each =>
    exact follows.sends commands rfl rfl rfl fun _ => rfl

/-- In every state reached each task's fact follows from what was sent to it. -/
theorem of_reaches (reader : Reader β) {admitted : Service → ServiceEvent → Prop}
    {e2eeRequired : Bool}
    (reached : Reaches (Service.step config) admitted (new e2eeRequired) service) :
    Follows reader service := by
  apply reached.invariant_with (fun service => Owned service ∧
      (∃ owner, service.world.Lineage owner) ∧ service.Staffed) (Follows reader)
  · exact fun _ reached => ⟨Owned.of_reaches reached, staffed_of_reaches reached⟩
  · exact fun _ _ => rfl
  · rintro before event after ⟨owned, ⟨owner, lineage⟩, staffed⟩ follows _ stepped
    exact follows.step owned staffed lineage stepped

end Follows

/-- A task whose channel is empty keeps what everything sent to it makes of the
start. -/
theorem value_eq (reader : Reader β) {admitted : Service → ServiceEvent → Prop}
    {e2eeRequired : Bool}
    (reached : Reaches (Service.step config) admitted (new e2eeRequired) service)
    {channel : Channel} {process : Process} (empty : service.queueOf channel = [])
    (running : service.processes.lookup channel = some process) :
    reader.value process.task = (service.sentTo channel).foldl reader.read reader.start := by
  obtain ⟨_, staffed⟩ := staffed_of_reaches reached
  have opened : channel ∉ service.ended := by
    intro shut
    rw [(staffed.closed channel shut).1] at running
    cases running
  have follows := Follows.of_reaches reader reached channel opened
  rw [empty, kept, running] at follows
  exact follows

end Service

end Seameet

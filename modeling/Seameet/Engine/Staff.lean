import Seameet.Engine.Service
import Seameet.Engine.Generations

/-!
# The media tasks that run

The media server lists the media tasks it has started; here the listed tasks are
those that run, each on the channel of its generation. A closed channel is never
opened again, because its generation is spent: nobody serves it and nobody will.
-/

namespace Seameet

open Library

/-- A step that is no section of a handler leaves no new handler with a peer. -/
theorem World.serving_still {config : Config} {world after : World} {event : Event}
    (stepped : world.step config event = some after)
    (still : ∀ id answer, event ≠ .advance id answer) {id : WsSink} {connection : Connection}
    {held : PeersRef × SfuPeer} (known : after.connections.lookup id = some connection)
    (holds : connection.point.serving = some held) :
    world.connections.lookup id = some connection := by
  have committed : ∀ {here : WsSink} {turn : Turn}, turn.connection.point.serving = none →
      (world.commit here turn).connections.lookup id = some connection →
        world.connections.lookup id = some connection := by
    intro here turn free known
    rw [lookup_commit] at known
    split at known
    · cases known
      rw [free] at holds
      cases holds
    · exact known
  cases stepped_of_step event stepped with
  | connected =>
    rw [Table.lookup_insert_eq] at known
    split at known
    · cases known
      cases holds
    · exact known
  | heard here raw parsed auth rateOk earlier present idle =>
    refine committed ?_ known
    rcases earlier.receive_point idle raw parsed auth rateOk with
      same | ⟨_, closed | ⟨request, on⟩⟩ | ⟨message, pid, _, _, started⟩
    · rw [same]
      rfl
    · rw [closed]
      rfl
    · rw [on]
      rfl
    · rw [started]
      exact Connection.start_serving message raw
  | finished _ here earlier sent present idle =>
    refine committed ?_ known
    change earlier.finish.point.serving = none
    unfold Connection.finish
    split <;> rfl
  | advanced here answer => exact absurd rfl (still here answer)
  | shut | mediaEnded | routed => exact known

namespace Service

variable {config : Config} {service after : Service} {event : ServiceEvent}
variable {owner : Nat → ParticipantId × PeersRef}

/-- The listed media tasks are those that run, and the generation of a closed
channel is spent. -/
structure Staffed (service : Service) : Prop where
  listed : ∀ channel process, service.processes.lookup channel = some process →
    process.media ∈ service.world.sfu.mediaTasks
  running : ∀ media ∈ service.world.sfu.mediaTasks, ∃ process,
    service.processes.lookup media.channel = some process ∧ process.media = media
  closed : ∀ channel ∈ service.ended, service.processes.lookup channel = none ∧
    channel.gen < service.world.sfu.nextPeerGen ∧
    ∀ id connection peers peer, service.world.connections.lookup id = some connection →
      connection.point.serving = some (peers, peer) → peer.gen ≠ channel.gen

section Launched

variable {processes : Table Channel Process} {launch : Launch} {entered : List MediaTask}

/-- Launching leaves the other channels alone. -/
theorem lookup_launched_ne {channel : Channel}
    (apart : ∀ media ∈ entered, media.channel ≠ channel) :
    (launched processes launch entered).lookup channel = processes.lookup channel := by
  induction entered generalizing processes with
  | nil => rfl
  | cons media rest inductionHypothesis =>
    rw [launched, List.foldl_cons]
    refine (inductionHypothesis fun other listed => apart other (List.mem_cons_of_mem _ listed)).trans ?_
    rw [Table.lookup_insert_eq, if_neg (apart media List.mem_cons_self).symm]

/-- An entered media task runs on its channel. -/
theorem lookup_launched_self (distinct : (entered.map MediaTask.gen).Nodup) {media : MediaTask}
    (member : media ∈ entered) :
    (launched processes launch entered).lookup media.channel = some (launch.process media) := by
  induction entered generalizing processes with
  | nil => cases member
  | cons first rest inductionHypothesis =>
    rw [List.map_cons, List.nodup_cons] at distinct
    rw [launched, List.foldl_cons]
    rcases List.mem_cons.mp member with rfl | later
    · refine (lookup_launched_ne ?_).trans (by rw [Table.lookup_insert_eq, if_pos rfl])
      intro other listed same
      have gen : other.gen = media.gen := congrArg Channel.gen same
      exact distinct.1 (gen ▸ List.mem_map_of_mem listed)
    · exact inductionHypothesis distinct.2 later

end Launched

namespace Staffed

/-- Nothing runs yet on the channel of a media task that is entered. -/
theorem vacant (staffed : service.Staffed) (owned : Owned service) {entered : List MediaTask}
    (distinct : ((service.world.sfu.mediaTasks ++ entered).map MediaTask.gen).Nodup)
    {media : MediaTask} (member : media ∈ entered) :
    service.processes.lookup media.channel = none := by
  rw [List.map_append] at distinct
  cases running : service.processes.lookup media.channel with
  | none => rfl
  | some process =>
    have named := (owned.each _ process running).1
    have gen : process.media.gen = media.gen := congrArg Channel.gen named
    exact absurd gen ((List.nodup_append.mp distinct).2.2 _
      (List.mem_map_of_mem (staffed.listed _ process running)) _ (List.mem_map_of_mem member))

/-- A step that keeps the processes, the listed media tasks and whom handlers serve. -/
theorem aside (staffed : service.Staffed) (processes : ∀ channel,
      (after.processes.lookup channel).map Process.media =
        (service.processes.lookup channel).map Process.media)
    (mediaTasks : after.world.sfu.mediaTasks = service.world.sfu.mediaTasks)
    (nextPeerGen : after.world.sfu.nextPeerGen = service.world.sfu.nextPeerGen)
    (ended : after.ended = service.ended)
    (serving : ∀ id connection held, after.world.connections.lookup id = some connection →
      connection.point.serving = some held →
        service.world.connections.lookup id = some connection) : after.Staffed := by
  refine ⟨?_, ?_, ?_⟩
  · intro channel process present
    have before := processes channel
    rw [present, Option.map_some] at before
    obtain ⟨earlier, running, same⟩ := Option.map_eq_some_iff.mp before.symm
    rw [mediaTasks, ← same]
    exact staffed.listed channel earlier running
  · intro media listed
    rw [mediaTasks] at listed
    obtain ⟨earlier, running, same⟩ := staffed.running media listed
    have now := processes media.channel
    rw [running, Option.map_some] at now
    obtain ⟨process, present, kept⟩ := Option.map_eq_some_iff.mp now
    exact ⟨process, present, kept.trans same⟩
  · intro channel shut
    rw [ended] at shut
    obtain ⟨none, spent, unserved⟩ := staffed.closed channel shut
    refine ⟨?_, nextPeerGen ▸ spent, ?_⟩
    · have now := processes channel
      rwa [none, Option.map_none, Option.map_eq_none_iff] at now
    · intro id connection peers peer known holds
      exact unserved id connection peers peer (serving id connection _ known holds) holds

/-- A section of a handler, which may start a media task. -/
theorem advanced (staffed : service.Staffed) {id : WsSink} {connection : Connection} {turn : Turn}
    (answer : Option String) (launch : Launch) (entered : List MediaTask)
    (distinct : (turn.sfu.mediaTasks.map MediaTask.gen).Nodup)
    (present : service.world.connections.lookup id = some connection)
    (taken : connection.advance config service.world id answer = some turn)
    (enters : turn.sfu.mediaTasks = service.world.sfu.mediaTasks ++ entered)
    (commits : after.world = service.world.commit id turn)
    (processes : after.processes = launched service.processes launch entered)
    (ended : after.ended = service.ended) : after.Staffed := by
  rw [enters, List.map_append] at distinct
  obtain ⟨_, fresh, apart⟩ := List.nodup_append.mp distinct
  have tasks : after.world.sfu.mediaTasks = service.world.sfu.mediaTasks ++ entered := by
    rw [commits]
    exact enters
  refine ⟨?_, ?_, ?_⟩
  · intro channel process running
    rw [processes] at running
    rw [tasks]
    rcases lookup_launched running with earlier | ⟨media, member, _, rfl⟩
    · exact List.mem_append_left _ (staffed.listed channel process earlier)
    · exact List.mem_append_right _ member
  · intro media listed
    rw [tasks] at listed
    rw [processes]
    rcases List.mem_append.mp listed with earlier | member
    · rw [lookup_launched_ne]
      · exact staffed.running media earlier
      · intro other member same
        exact apart media.gen (List.mem_map_of_mem earlier) other.gen (List.mem_map_of_mem member)
          (congrArg Channel.gen same).symm
    · exact ⟨_, lookup_launched_self fresh member, rfl⟩
  · intro channel shut
    rw [ended] at shut
    obtain ⟨none, spent, unserved⟩ := staffed.closed channel shut
    have grows : service.world.sfu.nextPeerGen ≤ turn.sfu.nextPeerGen := by
      cases Connection.advance_peering taken with
      | fewer _ _ _ _ same | keeps _ _ _ _ _ _ _ _ _ same => exact Nat.le_of_eq same.symm
      | accepts _ _ _ _ _ _ _ _ _ _ same => omega
      | enters _ _ _ _ _ _ _ _ _ sfu | starts _ _ _ _ _ _ _ sfu => rw [sfu]; exact Nat.le_refl _
    have served : ∀ peers peer, turn.connection.point.serving = some (peers, peer) →
        peer.gen ≠ channel.gen := by
      intro peers peer holds
      cases Connection.advance_peering taken with
      | fewer _ free | starts _ _ _ _ _ _ free =>
        rw [free] at holds
        cases holds
      | accepts _ _ _ _ _ serving _ gen =>
        cases serving.symm.trans holds
        omega
      | enters _ _ _ _ _ held _ serving | keeps _ _ _ held _ serving =>
        cases serving.symm.trans holds
        exact unserved id connection peers peer present held
    refine ⟨?_, ?_, ?_⟩
    · rw [processes, lookup_launched_ne, none]
      intro media member same
      obtain ⟨handled, peers, peer, _, point, gen⟩ :=
        Connection.advance_entered taken enters media member
      refine unserved id connection peers peer present (by rw [point]; rfl) ?_
      rw [← gen, ← same]
      rfl
    · rw [commits]
      exact Nat.lt_of_lt_of_le spent grows
    · intro other found peers peer known holds
      rw [commits, World.lookup_commit] at known
      split at known
      · cases known
        exact served peers peer holds
      · exact unserved other found peers peer known holds

/-- The end of a media task. -/
theorem ends (staffed : service.Staffed) (owned : Owned service)
    (lineage : service.world.Lineage owner) {channel : Channel} {process : Process}
    (present : service.processes.lookup channel = some process)
    (sfu : after.world.sfu = service.world.sfu.endMediaTask process.media)
    (connections : after.world.connections = service.world.connections)
    (processes : after.processes = service.processes.erase channel)
    (ended : after.ended = channel :: service.ended) : after.Staffed := by
  have named := (owned.each channel process present).1
  have mine := staffed.listed channel process present
  obtain ⟨mediaTasks, nextPeerGen⟩ := service.world.sfu.mediaTasks_endMediaTask process.media
  rw [← sfu] at mediaTasks nextPeerGen
  have nodup := List.Nodup.of_map MediaTask.gen lineage.distinct
  refine ⟨?_, ?_, ?_⟩
  · intro tested other running
    rw [processes, Table.lookup_erase_eq] at running
    split at running
    · cases running
    · rename_i apart
      rw [mediaTasks, nodup.mem_erase_iff]
      refine ⟨?_, staffed.listed tested other running⟩
      intro same
      have named' := (owned.each tested other running).1
      exact apart (named'.symm.trans (same ▸ named))
  · intro media listed
    rw [mediaTasks, nodup.mem_erase_iff] at listed
    obtain ⟨other, running, same⟩ := staffed.running media listed.2
    refine ⟨other, ?_, same⟩
    rw [processes, Table.lookup_erase_eq, if_neg]
    · exact running
    · intro here
      rw [here, present] at running
      cases running
      exact listed.1 same.symm
  · intro tested shut
    rw [ended] at shut
    rw [processes, nextPeerGen, connections, Table.lookup_erase_eq]
    by_cases here : tested = channel
    · subst here
      have gen : process.media.gen = tested.gen := congrArg Channel.gen named
      refine ⟨if_pos rfl, gen ▸ (lineage.running _ mine).2, ?_⟩
      intro id connection peers peer known holds same
      exact (lineage.serving id connection peers peer known holds).2.2 _ mine (gen.trans same.symm)
    · rw [if_neg here]
      exact staffed.closed tested ((List.mem_cons.mp shut).resolve_left here)

end Staffed

/-- Every step keeps the holders of generations in agreement and the listed media
tasks running. -/
theorem staffed_step (fresh : service.world.Fresh) (owned : Owned service)
    (lineage : service.world.Lineage owner) (staffed : service.Staffed)
    (stepped : service.step config event = some after) :
    (∃ later, after.world.Lineage later) ∧ after.Staffed := by
  -- A media task's turn: it goes on under its name, and routes and commands may be new.
  have turned : ∀ {channel : Channel} {process : Process} {task : Task} {outputs : List Output}
      {posted : List Command} {between : Service},
      service.processes.lookup channel = some process →
      Performed process.media outputs posted between after →
      between.processes = service.processes.insert channel { process with task } →
      between.world = service.world → between.ended = service.ended →
        (∃ later, after.world.Lineage later) ∧ after.Staffed := by
    intro channel process task outputs posted between present performed processes world ended
    have sfu := performed.sfu
    have connections := performed.connections
    rw [world] at sfu connections
    constructor
    · refine ⟨owner, lineage.aside (by rw [sfu]) (by rw [sfu]) (by rw [sfu]) ?_⟩
      intro id connection held _
      rw [connections]
    · refine staffed.aside ?_ (by rw [sfu]) (by rw [sfu]) (performed.ended.trans ended) ?_
      · intro tested
        rw [performed.processes, processes, Table.lookup_insert_eq]
        split
        · rename_i here
          rw [here, present]
          rfl
        · rfl
      · intro id connection held known _
        rwa [connections] at known
  cases step_taken stepped with
  | still engineEvent launch world moved own still commands sfu signaling =>
    obtain ⟨later, lineage, _⟩ := World.lineage_step fresh lineage engineEvent moved
    refine ⟨⟨later, lineage⟩, ?_⟩
    refine staffed.aside (fun _ => rfl) (congrArg SfuServer.mediaTasks sfu)
      (congrArg SfuServer.nextPeerGen sfu) rfl ?_
    intro id connection held known holds
    exact World.serving_still moved still known holds
  | advanced id answer launch connection turn entered present taken enters =>
    obtain ⟨later, followed, _⟩ := lineage.turned present (Connection.advance_peering taken)
    exact ⟨⟨later, followed⟩, staffed.advanced answer launch entered followed.distinct
      present taken enters rfl rfl rfl⟩
  | took channel rtc process cmd rest posted _ present waiting performed =>
    exact turned present performed rfl rfl rfl
  | drained channel rtc events process posted _ present performed =>
    exact turned present performed rfl rfl rfl
  | endsTask channel process present =>
    refine ⟨⟨owner, lineage.ended (staffed.listed channel process present)⟩, ?_⟩
    exact staffed.ends owned lineage present rfl rfl rfl rfl
  | arrived | read =>
    refine ⟨⟨owner, lineage.aside rfl rfl rfl fun _ _ _ _ => Iff.rfl⟩, ?_⟩
    exact staffed.aside (fun _ => rfl) rfl rfl rfl fun _ _ _ known _ => known

/-- In every state reached the holders of generations agree and the listed media
tasks run. -/
theorem staffed_of_reaches {admitted : Service → ServiceEvent → Prop} {e2eeRequired : Bool}
    (reached : Reaches (Service.step config) admitted (new e2eeRequired) service) :
    (∃ owner, service.world.Lineage owner) ∧ service.Staffed := by
  apply reached.invariant_with (fun service => service.world.Fresh ∧ Owned service)
    (fun service => (∃ owner, service.world.Lineage owner) ∧ service.Staffed)
  · exact fun _ reached => ⟨fresh_of_reaches reached, Owned.of_reaches reached⟩
  · have begun : Reaches (World.step config) always (World.new e2eeRequired)
        (World.new e2eeRequired) := .start
    exact ⟨World.lineage_of_reaches begun,
      ⟨by simp [new], by simp [new, World.new, SfuServer.new], by simp [new]⟩⟩
  · rintro before event after ⟨fresh, owned⟩ ⟨⟨owner, lineage⟩, staffed⟩ _ stepped
    exact staffed_step fresh owned lineage staffed stepped

end Service

end Seameet

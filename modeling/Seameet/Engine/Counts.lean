import Seameet.Engine.Readers

/-!
# The number of remote peers

A media task is told how many peers its room has whenever somebody joins, and
keeps the last number it was told. What it is told is the size of the map at that
moment, the task's own entry included, and neither an entry made later nor a
departure is announced. So once nothing waits a task of one among several
registered participants is wrong: of those that share a map, one was entered
last, and whatever it was told since is no less than their number.
-/

namespace Seameet

open Library

/-- The last number of remote peers a task was told. -/
def PeerCmd.counted (last : Nat) : PeerCmd → Nat
  | .peerCountChanged remotePeerCount => remotePeerCount
  | _ => last

/-- The last number among commands, after those before. -/
def lastCount (last : Nat) (cmds : List PeerCmd) : Nat := cmds.foldl PeerCmd.counted last

/-- Commands that announce no number leave the last one. -/
theorem lastCount_quiet (last : Nat) (cmds : List PeerCmd)
    (quiet : ∀ count, .peerCountChanged count ∉ cmds) : lastCount last cmds = last := by
  induction cmds generalizing last with
  | nil => rfl
  | cons cmd rest inductionHypothesis =>
    have same : PeerCmd.counted last cmd = last := by
      cases cmd with
      | peerCountChanged count => exact absurd List.mem_cons_self (quiet count)
      | _ => rfl
    rw [lastCount, List.foldl_cons, same]
    exact inductionHypothesis last fun count later => quiet count (List.mem_cons_of_mem _ later)

/-- The last number is one that was announced, if any was. -/
theorem lastCount_announced (cmds : List PeerCmd) (bound : Nat)
    (each : ∀ count, .peerCountChanged count ∈ cmds → bound ≤ count) :
    (∀ count, .peerCountChanged count ∉ cmds) ∨ bound ≤ lastCount 0 cmds := by
  suffices last : ∀ start, (∀ count, .peerCountChanged count ∉ cmds) ∨ bound ≤ lastCount start cmds from
    last 0
  induction cmds with
  | nil => exact fun _ => .inl fun _ => List.not_mem_nil
  | cons cmd rest inductionHypothesis =>
    intro start
    have later := inductionHypothesis (fun count listed => each count (List.mem_cons_of_mem _ listed))
      (PeerCmd.counted start cmd)
    rcases later with quiet | announced
    · cases cmd with
      | peerCountChanged count =>
        right
        have now : lastCount start (.peerCountChanged count :: rest) = count :=
          lastCount_quiet count rest quiet
        rw [now]
        exact each count List.mem_cons_self
      | _ => exact .inl (by simpa using quiet)
    · exact .inr announced

/-- The number of remote peers a media task keeps. -/
def countReader : Reader Nat where
  start := 0
  read := PeerCmd.counted
  value := Task.lastRemotePeerCount
  starts pid _ _ roomId _ _ := (Task.start_frame pid _ _ roomId _ _).2.2
  handles task rtc cmd := by
    rw [(task.handle_frame rtc cmd).2.2]
    cases cmd <;> rfl
  drains task rtc events := (task.drainOutputs_frame rtc events).2.2

namespace Service

variable {config : Config} {service after : Service} {event : ServiceEvent}
variable {owner : Nat → ParticipantId × PeersRef}

/-- The last number the task on a channel was told. -/
def countAt (service : Service) (channel : Channel) : Nat :=
  ((service.processes.lookup channel).map fun process => process.task.lastRemotePeerCount).getD 0

/-- A count that a section announces goes to a peer of a room's map and is the
map's size, and the section leaves the media server alone. -/
theorem advance_counts {world : World} {id : WsSink} {connection : Connection} {turn : Turn}
    {answer : Option String} (taken : connection.advance config world id answer = some turn)
    {command : Command} (sent : command ∈ turn.commands) {count : Nat}
    (announces : command.cmd = .peerCountChanged count) :
    turn.sfu = world.sfu ∧ connection.point.serving = none ∧ ∃ peers peer,
      (world.sfu.peersOf peers).lookup command.peer = some peer ∧ peer.gen = command.gen ∧
        count = (world.sfu.peersOf peers).keys.length := by
  rcases Connection.advance_cases taken with ⟨none, _⟩ | ⟨pid, first, request, stage, _, point, rfl⟩ |
    ⟨pid, handled, stage, _, _, rfl⟩ | ⟨pid, stage, _, _, rfl⟩
  · simp [none] at sent
  · rcases Connection.joinSection_commands pid first request stage command sent with
      ⟨left, cmd⟩ | ⟨rfl, _⟩
    · rw [announces] at cmd
      cases cmd
    · simp only [Connection.joinSection, SfuServer.announceCount] at sent
      split at sent
      · rename_i found
        obtain ⟨peers, named, rfl⟩ := Option.map_eq_some_iff.mp found
        have told := (Peers.mem_tell sent).2
        rw [announces] at told
        cases told
        simp only [Peers.tell, List.mem_map, List.mem_filter] at sent
        obtain ⟨entry, ⟨listed, _⟩, rfl⟩ := sent
        refine ⟨rfl, by rw [point]; rfl, peers, entry.2, ?_, rfl, ?_⟩
        · exact (Table.mem_entries entry.1 entry.2 _).mp listed
        · simp [AList.keys, List.keys]
      · cases sent
  · rcases Connection.hookSection_commands pid handled answer stage command sent with
      ⟨peers, _, acted⟩ | ⟨sdp, cmd⟩ | ⟨candidate, cmd⟩
    · have kind := SfuServer.act_ofAct acted
      rw [announces] at kind
      cases kind
    · simp [announces] at cmd
    · simp [announces] at cmd
  · simp [Connection.leaveSection_commands pid stage command sent] at announces

/-- Numbers are announced to entered peers only, and of registered participants
that share a map there is always one that was told no number less than theirs. -/
structure Announced (service : Service) : Prop where
  spent : ∀ command ∈ service.world.commands, ∀ count, command.cmd = .peerCountChanged count →
    command.gen < service.world.sfu.nextPeerGen
  entering : ∀ id connection peers peer,
    service.world.connections.lookup id = some connection →
    connection.point.serving = some (peers, peer) → connection.point.entering = true →
      (∀ command ∈ service.world.commands, ∀ count, command.cmd = .peerCountChanged count →
        command.gen ≠ peer.gen) ∧
      ∀ ref pid other, (service.world.sfu.peersOf ref).lookup pid = some other →
        other.gen ≠ peer.gen
  last : ∀ peers (members : List ParticipantId), members ≠ [] → members.Nodup →
    (∀ pid ∈ members, ∃ peer, (service.world.sfu.peersOf peers).lookup pid = some peer) →
      ∃ pid ∈ members, ∀ peer, (service.world.sfu.peersOf peers).lookup pid = some peer →
        ∀ count, .peerCountChanged count ∈ service.sentTo ⟨pid, peer.gen⟩ → members.length ≤ count

namespace Announced

/-- A command among those sent to a channel. -/
theorem mem_sentTo {channel : Channel} {cmd : PeerCmd} :
    cmd ∈ service.sentTo channel ↔
      ∃ command ∈ service.world.commands, command.channel = channel ∧ command.cmd = cmd :=
  mem_addressed_letters service.world.commands channel cmd

/-- A step that enters nobody and announces only sizes of maps to their peers. -/
theorem move (announced : service.Announced) (lineage : service.world.Lineage owner)
    (commands : List Command)
    (recorded : after.world.commands = service.world.commands ++ commands)
    (counts : ∀ command ∈ commands, ∀ count, command.cmd = .peerCountChanged count →
      ∃ peers peer, (service.world.sfu.peersOf peers).lookup command.peer = some peer ∧
        peer.gen = command.gen ∧ count = (service.world.sfu.peersOf peers).keys.length)
    (entries : ∀ peers pid, (after.world.sfu.peersOf peers).lookup pid =
        (service.world.sfu.peersOf peers).lookup pid ∨
      (after.world.sfu.peersOf peers).lookup pid = none)
    (grows : service.world.sfu.nextPeerGen ≤ after.world.sfu.nextPeerGen)
    (entering : ∀ id connection peers peer, after.world.connections.lookup id = some connection →
      connection.point.serving = some (peers, peer) → connection.point.entering = true →
        service.world.connections.lookup id = some connection ∨
          service.world.sfu.nextPeerGen ≤ peer.gen) : after.Announced := by
  have earlier : ∀ {peers pid peer}, (after.world.sfu.peersOf peers).lookup pid = some peer →
      (service.world.sfu.peersOf peers).lookup pid = some peer := by
    intro peers pid peer stored
    rcases entries peers pid with same | gone
    · exact same ▸ stored
    · rw [gone] at stored
      cases stored
  have addressed : ∀ command ∈ commands, ∀ count, command.cmd = .peerCountChanged count →
      ∃ peers pid peer, (service.world.sfu.peersOf peers).lookup pid = some peer ∧
        peer.gen = command.gen := by
    intro command sent count announces
    obtain ⟨peers, peer, stored, gen, _⟩ := counts command sent count announces
    exact ⟨peers, command.peer, peer, stored, gen⟩
  refine ⟨?_, ?_, ?_⟩
  · intro command listed count announces
    rw [recorded] at listed
    rcases List.mem_append.mp listed with before | sent
    · exact Nat.lt_of_lt_of_le (announced.spent command before count announces) grows
    · obtain ⟨peers, pid, peer, stored, gen⟩ := addressed command sent count announces
      exact gen ▸ Nat.lt_of_lt_of_le (lineage.entered peers pid peer stored).2.1 grows
  · intro id connection peers peer known holds first
    rcases entering id connection peers peer known holds first with before | beyond
    · obtain ⟨uncounted, unentered⟩ :=
        announced.entering id connection peers peer before holds first
      refine ⟨?_, fun ref pid other stored => unentered ref pid other (earlier stored)⟩
      intro command listed count announces
      rw [recorded] at listed
      rcases List.mem_append.mp listed with old | sent
      · exact uncounted command old count announces
      · obtain ⟨ref, pid, other, stored, gen⟩ := addressed command sent count announces
        exact gen ▸ unentered ref pid other stored
    · refine ⟨?_, ?_⟩
      · intro command listed count announces same
        rw [recorded] at listed
        rcases List.mem_append.mp listed with old | sent
        · have := announced.spent command old count announces
          omega
        · obtain ⟨ref, pid, other, stored, gen⟩ := addressed command sent count announces
          have := (lineage.entered ref pid other stored).2.1
          omega
      · intro ref pid other stored same
        have := (lineage.entered ref pid other (earlier stored)).2.1
        omega
  · intro peers members some_ distinct registered
    have before : ∀ pid ∈ members, ∃ peer, (service.world.sfu.peersOf peers).lookup pid = some peer := by
      intro pid member
      obtain ⟨peer, stored⟩ := registered pid member
      exact ⟨peer, earlier stored⟩
    obtain ⟨pid, member, told⟩ := announced.last peers members some_ distinct before
    refine ⟨pid, member, ?_⟩
    intro peer stored count listed
    obtain ⟨command, sent, here, announces⟩ := mem_sentTo.mp listed
    rw [recorded] at sent
    rcases List.mem_append.mp sent with old | now
    · exact told peer (earlier stored) count (mem_sentTo.mpr ⟨command, old, here, announces⟩)
    · obtain ⟨ref, other, entered, gen, size⟩ := counts command now count announces
      obtain ⟨mine, _⟩ := lineage.entered peers pid peer (earlier stored)
      obtain ⟨its, _⟩ := lineage.entered ref command.peer other entered
      have same : command.gen = peer.gen := congrArg Channel.gen here
      rw [gen, same, mine, Prod.mk.injEq] at its
      have within : members ⊆ (service.world.sfu.peersOf ref).keys := by
        intro tested found
        exact (Table.mem_keys tested _).mpr (its.2 ▸ before tested found)
      rw [size]
      exact (distinct.subperm within).length_le

/-- The section that enters a peer, who was told nothing. -/
theorem enters (announced : service.Announced) (lineage : service.world.Lineage owner)
    {id : WsSink} {connection : Connection} {turn : Turn} {pid : ParticipantId} {peers : PeersRef}
    {peer : SfuPeer} (present : service.world.connections.lookup id = some connection)
    (held : connection.point.serving = some (peers, peer))
    (first : connection.point.entering = true) (past : turn.connection.point.entering = false)
    (sfu : turn.sfu = service.world.sfu.register peers pid peer)
    (counts : ∀ command ∈ turn.commands, ∀ count, command.cmd ≠ .peerCountChanged count)
    (commits : after.world = service.world.commit id turn) : after.Announced := by
  obtain ⟨uncounted, unentered⟩ := announced.entering id connection peers peer present held first
  have below := (lineage.serving id connection peers peer present held).2.1
  have old : ∀ command ∈ after.world.commands, ∀ count, command.cmd = .peerCountChanged count →
      command ∈ service.world.commands := by
    intro command listed count announces
    rw [commits] at listed
    rcases List.mem_append.mp listed with before | sent
    · exact before
    · exact absurd announces (counts command sent count)
  have entries : ∀ ref pid', (after.world.sfu.peersOf ref).lookup pid' =
      if ref = peers ∧ pid' = pid then some peer
      else (service.world.sfu.peersOf ref).lookup pid' := by
    intro ref other
    rw [commits]
    change (turn.sfu.peersOf ref).lookup other = _
    rw [sfu, SfuServer.lookup_register]
  have nextPeerGen : after.world.sfu.nextPeerGen = service.world.sfu.nextPeerGen := by
    rw [commits]
    change turn.sfu.nextPeerGen = _
    rw [sfu]
    rfl
  refine ⟨?_, ?_, ?_⟩
  · intro command listed count announces
    rw [nextPeerGen]
    exact announced.spent command (old command listed count announces) count announces
  · intro other found tested member known holds entering
    rw [commits, World.lookup_commit] at known
    split at known
    · cases known
      rw [past] at entering
      cases entering
    · rename_i apart
      obtain ⟨untold, unlisted⟩ :=
        announced.entering other found tested member known holds entering
      refine ⟨fun command listed count announces =>
        untold command (old command listed count announces) count announces, ?_⟩
      intro ref pid' entry stored
      rw [entries] at stored
      split at stored
      · cases stored
        intro same
        exact apart (lineage.alone other id found connection _ _ known present holds held same.symm)
      · exact unlisted ref pid' entry stored
  · intro ref members some_ distinct registered
    by_cases mine : ref = peers ∧ pid ∈ members
    · refine ⟨pid, mine.2, ?_⟩
      intro entry stored count listed
      rw [entries, if_pos ⟨mine.1, rfl⟩] at stored
      cases stored
      obtain ⟨command, sent, here, announces⟩ := mem_sentTo.mp listed
      exact absurd (congrArg Channel.gen here)
        (uncounted command (old command sent count announces) count announces)
    · have same : ∀ tested ∈ members, (after.world.sfu.peersOf ref).lookup tested =
          (service.world.sfu.peersOf ref).lookup tested := by
        intro tested member
        rw [entries, if_neg]
        rintro ⟨here, rfl⟩
        exact mine ⟨here, member⟩
      obtain ⟨chosen, member, told⟩ := announced.last ref members some_ distinct
        fun tested member => same tested member ▸ registered tested member
      refine ⟨chosen, member, ?_⟩
      intro entry stored count listed
      rw [same chosen member] at stored
      obtain ⟨command, sent, here, announces⟩ := mem_sentTo.mp listed
      exact told entry stored count
        (mem_sentTo.mpr ⟨command, old command sent count announces, here, announces⟩)

/-- Every step keeps to it. -/
theorem step (announced : service.Announced) (lineage : service.world.Lineage owner)
    (stepped : service.step config event = some after) : after.Announced := by
  have turned : ∀ {media : MediaTask} {outputs : List Output} {posted : List Command}
      {between : Service}, Performed media outputs posted between after →
      between.world = service.world → after.Announced := by
    intro media outputs posted between performed world
    have sfu := performed.sfu
    have connections := performed.connections
    have commands := performed.commands
    rw [world] at sfu connections commands
    refine announced.move lineage posted commands ?_ (fun _ _ => .inl (by rw [sfu]; rfl))
      (by rw [sfu]) ?_
    · intro command sent count announces
      rcases performed.each command sent with keyframe | ⟨packet, carried, _⟩
      · rw [announces] at keyframe
        cases keyframe
      · rw [announces] at carried
        cases carried
    · intro id connection peers peer known _ _
      rw [connections] at known
      exact .inl known
  cases step_taken stepped with
  | still engineEvent launch world moved own still commands sfu signaling =>
    refine announced.move lineage [] (by simp [commands]) (by simp) (fun _ _ => .inl (by rw [sfu]))
      (by rw [sfu]) ?_
    intro id connection peers peer known holds _
    exact .inl (World.serving_still moved still known holds)
  | advanced id answer launch connection turn entered present taken enters =>
    have counted : ∀ command ∈ turn.commands, ∀ count, command.cmd = .peerCountChanged count →
        ∃ peers peer, (service.world.sfu.peersOf peers).lookup command.peer = some peer ∧
          peer.gen = command.gen ∧ count = (service.world.sfu.peersOf peers).keys.length :=
      fun command sent count announces => (advance_counts taken sent announces).2.2
    have others : ∀ {point : Point}, turn.connection.point = point →
        (∀ peers peer, point.serving = some (peers, peer) → point.entering = true →
          service.world.sfu.nextPeerGen ≤ peer.gen) →
        ∀ other found peers peer,
          (service.world.commit id turn).connections.lookup other = some found →
          found.point.serving = some (peers, peer) → found.point.entering = true →
            service.world.connections.lookup other = some found ∨
              service.world.sfu.nextPeerGen ≤ peer.gen := by
      rintro point rfl own other found peers peer known holds first
      rw [World.lookup_commit] at known
      split at known
      · cases known
        exact .inr (own peers peer holds first)
      · exact .inl known
    cases Connection.advance_peering taken with
    | fewer _ free entries _ same =>
      refine announced.move lineage turn.commands rfl counted entries (Nat.le_of_eq same.symm)
        (others rfl ?_)
      intro peers peer holds
      rw [free] at holds
      cases holds
    | accepts pid ref peer _ _ serving _ gen entries _ same =>
      refine announced.move lineage turn.commands rfl counted
        (fun peers pid => .inl (by rw [← entries]; rfl)) ?_ (others rfl ?_)
      · change _ ≤ turn.sfu.nextPeerGen
        omega
      · intro peers other holds _
        cases serving.symm.trans holds
        omega
    | enters pid peers peer _ _ held first serving past sfu =>
      refine announced.enters lineage present held first past sfu ?_ rfl
      intro command sent count announces
      have free := (advance_counts taken sent announces).2.1
      rw [held] at free
      cases free
    | keeps _ _ _ _ _ _ past entries _ same =>
      refine announced.move lineage turn.commands rfl counted
        (fun peers pid => .inl (by rw [← entries]; rfl)) (Nat.le_of_eq same.symm) (others rfl ?_)
      intro peers peer _ first
      rw [past] at first
      cases first
    | starts _ _ _ _ _ _ free sfu =>
      refine announced.move lineage turn.commands rfl counted ?_ ?_ (others rfl ?_)
      · intro peers pid
        left
        change (turn.sfu.peersOf peers).lookup pid = _
        rw [sfu]
        rfl
      · change _ ≤ turn.sfu.nextPeerGen
        rw [sfu]
        exact Nat.le_refl _
      · intro peers peer holds
        rw [free] at holds
        cases holds
  | took channel rtc process cmd rest posted _ present waiting performed => exact turned performed rfl
  | drained channel rtc events process posted _ present performed => exact turned performed rfl
  | endsTask channel process present =>
    obtain ⟨_, nextPeerGen⟩ := service.world.sfu.mediaTasks_endMediaTask process.media
    refine announced.move lineage [] (by simp) (by simp) ?_ (Nat.le_of_eq nextPeerGen.symm)
      fun _ _ _ _ known _ _ => .inl known
    intro peers pid
    cases stored : ((service.world.sfu.endMediaTask process.media).peersOf peers).lookup pid with
    | none => exact .inr rfl
    | some peer =>
      exact .inl ((service.world.sfu.lookup_endMediaTask peers pid _ peer).mp stored).1.symm
  | arrived =>
    exact announced.move lineage [] (by simp) (by simp) (fun _ _ => .inl rfl) (Nat.le_refl _)
      fun _ _ _ _ known _ _ => .inl known
  | read datagram commands held each =>
    refine announced.move lineage commands rfl ?_ (fun _ _ => .inl rfl) (Nat.le_refl _)
      fun _ _ _ _ known _ _ => .inl known
    intro command sent count announces
    rw [each command sent] at announces
    cases announces

end Announced

/-- In every state reached what tasks are told are sizes of maps. -/
theorem announced_of_reaches {admitted : Service → ServiceEvent → Prop} {e2eeRequired : Bool}
    (reached : Reaches (Service.step config) admitted (new e2eeRequired) service) :
    service.Announced := by
  apply reached.invariant_with (fun service => ∃ owner, service.world.Lineage owner) Announced
  · exact fun _ reached => (staffed_of_reaches reached).1
  · refine ⟨?_, ?_, ?_⟩
    · intro command listed
      cases listed
    · intro id connection peers peer known
      cases known
    · intro peers members some_ _ registered
      cases members with
      | nil => exact absurd rfl some_
      | cons pid rest =>
        obtain ⟨peer, stored⟩ := registered pid List.mem_cons_self
        cases stored
  · rintro before event after ⟨owner, lineage⟩ announced _ stepped
    exact announced.step lineage stepped

/-- At rest every registered peer has its media task. -/
theorem staffed_entry {admitted : Service → ServiceEvent → Prop} {e2eeRequired : Bool}
    (reached : Reaches (Service.step config) admitted (new e2eeRequired) service)
    (quiet : service.Quiet) {peers : PeersRef} {pid : ParticipantId} {peer : SfuPeer}
    (stored : (service.world.sfu.peersOf peers).lookup pid = some peer) :
    ∃ process, service.processes.lookup ⟨pid, peer.gen⟩ = some process := by
  obtain ⟨⟨owner, lineage⟩, staffed⟩ := staffed_of_reaches reached
  obtain ⟨mine, _, served⟩ := lineage.entered peers pid peer stored
  rcases served with ⟨task, listed, gen⟩ | ⟨id, connection, known, holds, _⟩
  · obtain ⟨process, running, _⟩ := staffed.running task listed
    have its := (lineage.running task listed).1
    rw [gen, mine, Prod.mk.injEq] at its
    refine ⟨process, ?_⟩
    rw [← running, MediaTask.channel, its.1, gen]
  · have rest := quiet.2 id connection known
    cases point : connection.point <;> simp [point, Point.atRest, Point.serving] at rest holds

/-- At rest a registered peer's media task keeps the last number it was sent. -/
theorem count_eq {admitted : Service → ServiceEvent → Prop} {e2eeRequired : Bool}
    (reached : Reaches (Service.step config) admitted (new e2eeRequired) service)
    (quiet : service.Quiet) {channel : Channel} {process : Process}
    (running : service.processes.lookup channel = some process) :
    process.task.lastRemotePeerCount = lastCount 0 (service.sentTo channel) :=
  value_eq countReader reached (quiet.1 channel) running

/-- Every media task of a map's registered participants has the number of the
others. -/
def Informed (service : Service) (peers : PeersRef) : Prop :=
  ∀ pid peer process, (service.world.sfu.peersOf peers).lookup pid = some peer →
    service.processes.lookup ⟨pid, peer.gen⟩ = some process →
      process.task.lastRemotePeerCount =
        ((service.world.sfu.peersOf peers).keys.filter (· ≠ pid)).length

/-- At most one participant is registered in a map, and nobody has joined the room
since its entry was made. -/
def Lone (service : Service) (peers : PeersRef) : Prop :=
  (service.world.sfu.peersOf peers).keys.length ≤ 1 ∧
    ∀ pid peer, (service.world.sfu.peersOf peers).lookup pid = some peer →
      ∀ count, .peerCountChanged count ∉ service.sentTo ⟨pid, peer.gen⟩

end Service

/-- All keys of a map but one. -/
theorem Peers.length_others {peers : Peers} {pid : ParticipantId} (listed : pid ∈ peers.keys) :
    (peers.keys.filter (· ≠ pid)).length + 1 = peers.keys.length := by
  have same : peers.keys.filter (· ≠ pid) = peers.keys.erase pid := by
    rw [peers.keys_nodup.erase_eq_filter]
    refine List.filter_congr fun other _ => ?_
    by_cases own : other = pid <;> simp [own]
  rw [same, List.length_erase_of_mem listed]
  exact Nat.sub_add_cancel (List.length_pos_of_mem listed)

/-- Between handlers, with nothing waiting, the media tasks of a map's registered
participants have the number of the others exactly if there is at most one and it
was told no number.

Of the registered participants that share a map there is always one that was told no number
less than theirs, which is more than the others are. So it is informed only if it was told
no number and is alone. -/
theorem informed_iff_lone (config : Config) (e2eeRequired : Bool) (service : Service)
    (reached : Reaches (Service.step config) always (.new e2eeRequired) service)
    (quiet : service.Quiet) (peers : PeersRef) :
    service.Informed peers ↔ service.Lone peers := by
  constructor
  · intro informed
    by_cases empty : (service.world.sfu.peersOf peers).keys = []
    · refine ⟨by simp [empty], ?_⟩
      intro pid peer stored
      have listed := (Table.mem_keys pid _).mpr ⟨peer, stored⟩
      rw [empty] at listed
      cases listed
    · obtain ⟨pid, listed, told⟩ := (Service.announced_of_reaches reached).last peers _ empty
        (service.world.sfu.peersOf peers).keys_nodup fun pid listed => (Table.mem_keys pid _).mp listed
      obtain ⟨peer, stored⟩ := (Table.mem_keys pid _).mp listed
      obtain ⟨process, running⟩ := Service.staffed_entry reached quiet stored
      have number := informed pid peer process stored running
      rw [Service.count_eq reached quiet running] at number
      have others := Peers.length_others listed
      rcases lastCount_announced _ _ (told peer stored) with none | more
      · rw [lastCount_quiet 0 _ none] at number
        have alone : (service.world.sfu.peersOf peers).keys.length = 1 := by omega
        refine ⟨Nat.le_of_eq alone, ?_⟩
        intro other entry stored'
        obtain ⟨only, keys⟩ := List.length_eq_one_iff.mp alone
        have here := (Table.mem_keys other _).mpr ⟨entry, stored'⟩
        rw [keys] at here listed
        cases (List.mem_singleton.mp here).trans (List.mem_singleton.mp listed).symm
        cases stored.symm.trans stored'
        exact none
      · omega
  · rintro ⟨alone, untold⟩ pid peer process stored running
    rw [Service.count_eq reached quiet running, lastCount_quiet 0 _ (untold pid peer stored)]
    have others := Peers.length_others ((Table.mem_keys pid _).mpr ⟨peer, stored⟩)
    omega

/-- Two participants enter a room, and the first takes the number it is told when
the second joins. -/
def countedRun : List ServiceEvent :=
  ServiceEvent.enters 1 ⟨1⟩ "a" ++ ServiceEvent.enters 2 ⟨2⟩ "a" ++
    ServiceEvent.takesAll ⟨⟨1⟩, 1⟩ 1

/-- The server after that run. -/
def countedPair : Service :=
  (walk (Service.step .sfuDefault) always (.new false) countedRun).getD (.new false)

/-- After that run the first participant's task knows of the other, and the map is
not lone, so not every task has the number of the others. -/
theorem informed_iff_lone_pair :
    countedPair.countAt ⟨⟨1⟩, 1⟩ = 1 ∧ (countedPair.Informed 0 ↔ countedPair.Lone 0) := by
  have reached := walk_reaches_end (Service.step .sfuDefault) always (.new false) countedRun
    (by decide +kernel)
  refine ⟨by decide +kernel, ?_⟩
  exact informed_iff_lone .sfuDefault false countedPair reached (by decide +kernel) 0

/-- The task of the participant who joined last was never told of the first. -/
theorem last_joiner_uncounted :
    Reaches (Service.step .sfuDefault) always (.new false) countedPair ∧ countedPair.Quiet ∧
      countedPair.world.sfu.roomPeers "a" = some 0 ∧
      (countedPair.world.sfu.peersOf 0).keys = [⟨2⟩, ⟨1⟩] ∧
      (countedPair.processes.lookup ⟨⟨2⟩, 2⟩).map (fun process => process.task.lastRemotePeerCount) =
        some 0 ∧
      ¬countedPair.Informed 0 := by
  have keys : (countedPair.world.sfu.peersOf 0).keys = [⟨2⟩, ⟨1⟩] := by decide +kernel
  have stored : (countedPair.world.sfu.peersOf 0).lookup ⟨2⟩ = some { wsTx := 2, gen := 2 } := by
    decide +kernel
  have untold : (countedPair.processes.lookup ⟨⟨2⟩, 2⟩).map
      (fun process => process.task.lastRemotePeerCount) = some 0 := by decide +kernel
  refine ⟨walk_reaches_end _ _ _ _ (by decide +kernel), by decide +kernel, by decide +kernel, keys,
    untold, ?_⟩
  intro informed
  obtain ⟨process, running, none⟩ := Option.map_eq_some_iff.mp untold
  have number := informed ⟨2⟩ _ process stored running
  rw [keys, none] at number
  simp at number

end Seameet

import Seameet.Engine.Commands
import Seameet.Engine.Stepping

/-!
# The generations of registered peers

An accepted offer takes the next generation, enters its peer into a map under
that generation and starts a media task with it. So a generation belongs to one
participant and one map for good: nobody else ever enters it, no two media tasks
carry it, and an entry that carries it is served, by a media task or by the
handler that is about to start one. A media task that ends takes its own entry
along, so no entry outlives its media task.

Which generation belongs to whom is not stored anywhere; it is a function that
every holder of a generation agrees with.
-/

namespace Seameet

open Library

/-- The peer whose offer a handler has accepted, with the map it is for, until its
media task is started. -/
def Point.serving : Point → Option (PeersRef × SfuPeer)
  | .handling _ (.register peers peer) | .handling _ (.registerAll peers peer)
  | .handling _ (.markMediaTask peers peer) | .handling _ (.spawn peers peer) => some (peers, peer)
  | _ => none

/-- The peer is yet to be entered. -/
def Point.entering : Point → Bool
  | .handling _ (.register _ _) => true
  | _ => false

namespace World

/-- An entry is served: by a media task, or by a handler about to start one. -/
def Attended (world : World) (peers : PeersRef) (peer : SfuPeer) : Prop :=
  (∃ task ∈ world.sfu.mediaTasks, task.gen = peer.gen) ∨
    ∃ id connection, world.connections.lookup id = some connection ∧
      connection.point.serving = some (peers, peer) ∧ connection.point.entering = false

/-- Every holder of a generation agrees on whose it is. -/
structure Lineage (owner : Nat → ParticipantId × PeersRef) (world : World) : Prop where
  serving : ∀ id connection peers peer, world.connections.lookup id = some connection →
    connection.point.serving = some (peers, peer) →
      (∃ pid, connection.participantId = some pid ∧ owner peer.gen = (pid, peers)) ∧
        peer.gen < world.sfu.nextPeerGen ∧ ∀ task ∈ world.sfu.mediaTasks, task.gen ≠ peer.gen
  alone : ∀ first second one two held other, world.connections.lookup first = some one →
    world.connections.lookup second = some two → one.point.serving = some held →
    two.point.serving = some other → held.2.gen = other.2.gen → first = second
  running : ∀ task ∈ world.sfu.mediaTasks, owner task.gen = (task.pid, task.peers) ∧
    task.gen < world.sfu.nextPeerGen
  distinct : (world.sfu.mediaTasks.map MediaTask.gen).Nodup
  entered : ∀ peers pid peer, (world.sfu.peersOf peers).lookup pid = some peer →
    owner peer.gen = (pid, peers) ∧ peer.gen < world.sfu.nextPeerGen ∧ world.Attended peers peer

end World

/-- What a section of a task does to the maps and to whom it serves. -/
inductive Peering (world : World) (connection : Connection) (turn : Turn) : Prop
  /-- Nobody is entered, though an entry may go. -/
  | fewer (free : connection.point.serving = none)
      (freeAfter : turn.connection.point.serving = none)
      (entries : ∀ peers pid, (turn.sfu.peersOf peers).lookup pid =
          (world.sfu.peersOf peers).lookup pid ∨ (turn.sfu.peersOf peers).lookup pid = none)
      (mediaTasks : turn.sfu.mediaTasks = world.sfu.mediaTasks)
      (nextPeerGen : turn.sfu.nextPeerGen = world.sfu.nextPeerGen)
  /-- An offer is accepted and takes the next generation. -/
  | accepts (pid : ParticipantId) (peers : PeersRef) (peer : SfuPeer)
      (free : connection.point.serving = none)
      (bound : turn.connection.participantId = some pid)
      (serving : turn.connection.point.serving = some (peers, peer))
      (entering : turn.connection.point.entering = true)
      (gen : peer.gen = world.sfu.nextPeerGen)
      (entries : ∀ peers, turn.sfu.peersOf peers = world.sfu.peersOf peers)
      (mediaTasks : turn.sfu.mediaTasks = world.sfu.mediaTasks)
      (nextPeerGen : turn.sfu.nextPeerGen = world.sfu.nextPeerGen + 1)
  /-- The peer is entered into its map. -/
  | enters (pid : ParticipantId) (peers : PeersRef) (peer : SfuPeer)
      (bound : connection.participantId = some pid)
      (same : turn.connection.participantId = connection.participantId)
      (held : connection.point.serving = some (peers, peer))
      (entering : connection.point.entering = true)
      (serving : turn.connection.point.serving = some (peers, peer))
      (entered : turn.connection.point.entering = false)
      (sfu : turn.sfu = world.sfu.register peers pid peer)
  /-- The handler goes on with the entered peer. -/
  | keeps (peers : PeersRef) (peer : SfuPeer)
      (same : turn.connection.participantId = connection.participantId)
      (held : connection.point.serving = some (peers, peer))
      (entered : connection.point.entering = false)
      (serving : turn.connection.point.serving = some (peers, peer))
      (enteredAfter : turn.connection.point.entering = false)
      (entries : ∀ peers, turn.sfu.peersOf peers = world.sfu.peersOf peers)
      (mediaTasks : turn.sfu.mediaTasks = world.sfu.mediaTasks)
      (nextPeerGen : turn.sfu.nextPeerGen = world.sfu.nextPeerGen)
  /-- Its media task is started. -/
  | starts (pid : ParticipantId) (peers : PeersRef) (peer : SfuPeer)
      (bound : connection.participantId = some pid)
      (held : connection.point.serving = some (peers, peer))
      (entered : connection.point.entering = false)
      (freeAfter : turn.connection.point.serving = none)
      (sfu : turn.sfu = world.sfu.spawn pid peers peer)

namespace Connection

variable {config : Config} {world : World} {id : WsSink} {connection : Connection}

/-- A message's handler starts serving nobody. -/
theorem start_serving (message : SdpMessage) (raw : String) :
    (config.start message raw).serving = none := by
  cases join : message.joinRequest with
  | some request => rw [config.start_join message raw join]; rfl
  | none =>
    rw [config.start_handling message raw join]
    unfold Config.hookStart
    cases config.hooks with
    | noop => rfl
    | sfu => cases message <;> rfl

/-- A section of another message's handler serves its sender. -/
theorem hookSection_peering (pid : ParticipantId) (bound : connection.participantId = some pid)
    (handled : Handled) (answer : Option String) (stage : HookStage)
    (point : connection.point = .handling handled stage) :
    Peering world connection (connection.hookSection config world id pid handled answer stage) := by
  have past : (afterRoom pid handled).serving = none := by
    unfold afterRoom
    split <;> rfl
  cases stage with
  | register peers peer =>
    exact .enters pid peers peer bound rfl (by rw [point]; rfl) (by rw [point]; rfl) rfl rfl rfl
  | registerAll peers peer =>
    exact .keeps peers peer rfl (by rw [point]; rfl) (by rw [point]; rfl) rfl rfl (fun _ => rfl) rfl
      rfl
  | markMediaTask peers peer =>
    exact .keeps peers peer rfl (by rw [point]; rfl) (by rw [point]; rfl) rfl rfl (fun _ => rfl) rfl
      rfl
  | spawn peers peer =>
    exact .starts pid peers peer bound (by rw [point]; rfl) (by rw [point]; rfl) rfl rfl
  | negotiate peers =>
    simp only [hookSection]
    split
    · exact .accepts pid peers _ (by rw [point]; rfl) bound rfl rfl rfl (fun _ => rfl) rfl rfl
    · exact .fewer (by rw [point]; rfl) rfl (fun _ _ => .inl rfl) rfl rfl
  | session hasMedia =>
    simp only [hookSection]
    split
    · exact .fewer (by rw [point]; rfl) rfl (fun _ _ => .inl rfl) rfl rfl
    · exact .fewer (by rw [point]; rfl) past (fun _ _ => .inl rfl) rfl rfl
  | room hasMedia roomId =>
    simp only [hookSection]
    split
    · exact .fewer (by rw [point]; rfl) past (fun _ _ => .inl rfl) rfl rfl
    · refine .fewer (by rw [point]; rfl) ?_ (fun _ _ => .inl rfl) rfl rfl
      cases hasMedia <;> rfl
    · exact .fewer (by rw [point]; rfl) rfl (fun _ _ => .inl rfl) rfl rfl
  | act peers => exact .fewer (by rw [point]; rfl) past (fun _ _ => .inl rfl) rfl rfl
  | mediaTask | dispatch => exact .fewer (by rw [point]; rfl) rfl (fun _ _ => .inl rfl) rfl rfl
  | mediaState | renegotiate | awaitReply | candidate =>
    simp only [hookSection]
    split <;> exact .fewer (by rw [point]; rfl) rfl (fun _ _ => .inl rfl) rfl rfl

/-- A section of the cleanup serves nobody, and may drop its participant from a map. -/
theorem leaveSection_peering (pid : ParticipantId) (stage : LeaveStage)
    (point : connection.point = .leaving stage) :
    Peering world connection (connection.leaveSection config world id pid stage) := by
  have free : connection.point.serving = none := by rw [point]; rfl
  have freeAfter : (connection.leaveSection config world id pid
      stage).connection.point.serving = none := by
    rcases connection.leaveSection_point config world id pid stage with ended | ⟨next, on⟩
    · rw [ended]
      rfl
    · rw [on]
      rfl
  cases stage with
  | dropPeer peers roomId gone rest =>
    refine .fewer free freeAfter ?_ rfl rfl
    intro tested other
    simp only [leaveSection, SfuServer.dropPeer, SfuServer.peersOf, Table.lookup_insert_eq]
    by_cases same : tested = peers
    · rw [if_pos same, Option.getD_some, Table.lookup_erase_eq, same]
      split
      · exact .inr rfl
      · exact .inl rfl
    · exact .inl (by rw [if_neg same])
  | checkStale | lookup =>
    simp only [leaveSection]
    split <;> exact .fewer free rfl (fun _ _ => .inl rfl) rfl rfl
  | announce pending affected =>
    cases pending with
    | cons head pending => exact .fewer free freeAfter (fun _ _ => .inl rfl) rfl rfl
    | nil =>
      simp only [leaveSection]
      split <;> exact .fewer free rfl (fun _ _ => .inl rfl) rfl rfl
  | _ => exact .fewer free freeAfter (fun _ _ => .inl rfl) rfl rfl

/-- Every section of a task serves by one of the listed ways. -/
theorem advance_peering {answer : Option String} {turn : Turn}
    (taken : connection.advance config world id answer = some turn) :
    Peering world connection turn := by
  unfold advance at taken
  split at taken <;> cases taken
  · rename_i request point bound
    unfold precheckSection
    split <;> exact .fewer (by rw [point]; rfl) rfl (fun _ _ => .inl rfl) rfl rfl
  · rename_i request point bound
    exact .fewer (by rw [point]; rfl) rfl (fun _ _ => .inl rfl) rfl rfl
  · rename_i first request stage pid point bound
    cases stage with
    | ensureRoom =>
      simp only [joinSection, SfuServer.ensureRoom]
      split
      · exact .fewer (by rw [point]; rfl) rfl (fun _ _ => .inl rfl) rfl rfl
      · refine .fewer (by rw [point]; rfl) rfl ?_ rfl rfl
        intro peers pid
        simp only [SfuServer.peersOf, Table.lookup_insert_eq]
        split
        · exact .inr rfl
        · exact .inl rfl
    | _ => exact .fewer (by rw [point]; rfl) rfl (fun _ _ => .inl rfl) rfl rfl
  · rename_i handled stage pid point bound
    exact hookSection_peering pid bound handled answer stage point
  · rename_i stage pid point bound
    exact leaveSection_peering pid stage point

end Connection

namespace World

variable {owner : Nat → ParticipantId × PeersRef} {config : Config} {world after : World}

section Commit

variable {id : WsSink} {connection : Connection} {turn : Turn}

/-- What a section has to leave for every holder to agree. -/
theorem Lineage.commit (lineage : world.Lineage owner)
    (later : Nat → ParticipantId × PeersRef)
    (agrees : ∀ gen < world.sfu.nextPeerGen, later gen = owner gen)
    (grows : world.sfu.nextPeerGen ≤ turn.sfu.nextPeerGen)
    (mine : ∀ peers peer, turn.connection.point.serving = some (peers, peer) →
      (∃ pid, turn.connection.participantId = some pid ∧ later peer.gen = (pid, peers)) ∧
        peer.gen < turn.sfu.nextPeerGen ∧ (∀ task ∈ turn.sfu.mediaTasks, task.gen ≠ peer.gen) ∧
        ∀ other found held, other ≠ id → world.connections.lookup other = some found →
          found.point.serving = some held → held.2.gen ≠ peer.gen)
    (running : ∀ task ∈ turn.sfu.mediaTasks, task ∈ world.sfu.mediaTasks ∨
      (later task.gen = (task.pid, task.peers) ∧ task.gen < turn.sfu.nextPeerGen ∧
        ∀ other found held, other ≠ id → world.connections.lookup other = some found →
          found.point.serving = some held → held.2.gen ≠ task.gen))
    (distinct : (turn.sfu.mediaTasks.map MediaTask.gen).Nodup)
    (entered : ∀ peers pid peer, (turn.sfu.peersOf peers).lookup pid = some peer →
      later peer.gen = (pid, peers) ∧ peer.gen < turn.sfu.nextPeerGen ∧
        (world.commit id turn).Attended peers peer) :
    (world.commit id turn).Lineage later where
  serving := by
    intro other found peers peer known held
    rw [lookup_commit] at known
    split at known
    · cases known
      obtain ⟨bound, below, fresh, _⟩ := mine peers peer held
      exact ⟨bound, below, fresh⟩
    · rename_i apart
      obtain ⟨⟨pid, bound, own⟩, below, fresh⟩ := lineage.serving other found peers peer known held
      refine ⟨⟨pid, bound, by rw [agrees _ below, own]⟩, Nat.lt_of_lt_of_le below grows, ?_⟩
      intro task listed
      rcases running task listed with before | ⟨_, _, unheld⟩
      · exact fresh task before
      · exact (unheld other found (peers, peer) apart known held).symm
  alone := by
    intro first second one two held other known known' holds holds' same
    rw [lookup_commit] at known known'
    split at known
    · rename_i here
      cases known
      split at known'
      · rename_i there
        rw [here, there]
      · rename_i apart
        exact absurd same.symm ((mine held.1 held.2 holds).2.2.2 second two other apart known' holds')
    · rename_i apart
      split at known'
      · cases known'
        exact absurd same ((mine other.1 other.2 holds').2.2.2 first one held apart known holds)
      · exact lineage.alone first second one two held other known known' holds holds' same
  running := by
    intro task listed
    rcases running task listed with before | ⟨own, below, _⟩
    · obtain ⟨own, below⟩ := lineage.running task before
      exact ⟨by rw [agrees _ below, own], Nat.lt_of_lt_of_le below grows⟩
    · exact ⟨own, below⟩
  distinct := distinct
  entered := entered

/-- Nobody else holds the generation that a connection holds. -/
theorem Lineage.unshared (lineage : world.Lineage owner)
    (present : world.connections.lookup id = some connection) {held : PeersRef × SfuPeer}
    (holds : connection.point.serving = some held) :
    ∀ other found more, other ≠ id → world.connections.lookup other = some found →
      found.point.serving = some more → more.2.gen ≠ held.2.gen := by
  intro other found more different known serves same
  exact different (lineage.alone other id found connection more held known present serves holds same)

/-- An entry is served after a section as before, if the media tasks go on and whom the
section's own connection was serving is served still. The handlers of other connections
go on anyway. -/
theorem Attended.commit (present : world.connections.lookup id = some connection)
    {peers : PeersRef} {peer : SfuPeer} (attended : world.Attended peers peer)
    (remain : ∀ task ∈ world.sfu.mediaTasks, task ∈ turn.sfu.mediaTasks)
    (own : connection.point.serving = some (peers, peer) → connection.point.entering = false →
      (∃ task ∈ turn.sfu.mediaTasks, task.gen = peer.gen) ∨
        turn.connection.point.serving = some (peers, peer) ∧
          turn.connection.point.entering = false) :
    (world.commit id turn).Attended peers peer := by
  rcases attended with ⟨task, listed, same⟩ | ⟨other, found, known, holds, past⟩
  · exact .inl ⟨task, remain task listed, same⟩
  · by_cases here : other = id
    · subst here
      cases present.symm.trans known
      rcases own holds past with started | ⟨holds, past⟩
      · exact .inl started
      · exact .inr ⟨other, turn.connection, by rw [lookup_commit, if_pos rfl], holds, past⟩
    · exact .inr ⟨other, found, by rw [lookup_commit, if_neg here, known], holds, past⟩

/-- A section that serves nobody and enters nobody keeps every holder in agreement. -/
theorem Lineage.fewer (lineage : world.Lineage owner)
    (present : world.connections.lookup id = some connection)
    (free : connection.point.serving = none) (freeAfter : turn.connection.point.serving = none)
    (entries : ∀ peers pid, (turn.sfu.peersOf peers).lookup pid =
      (world.sfu.peersOf peers).lookup pid ∨ (turn.sfu.peersOf peers).lookup pid = none)
    (mediaTasks : turn.sfu.mediaTasks = world.sfu.mediaTasks)
    (nextPeerGen : turn.sfu.nextPeerGen = world.sfu.nextPeerGen) :
    (world.commit id turn).Lineage owner := by
  refine lineage.commit owner (fun _ _ => rfl) (Nat.le_of_eq nextPeerGen.symm) ?_ ?_ ?_ ?_
  · intro peers peer holds
    rw [freeAfter] at holds
    exact absurd holds (by simp)
  · intro task listed
    exact .inl (mediaTasks ▸ listed)
  · rw [mediaTasks]
    exact lineage.distinct
  · intro peers pid peer stored
    have before : (world.sfu.peersOf peers).lookup pid = some peer := by
      rcases entries peers pid with same | gone
      · rwa [same] at stored
      · rw [gone] at stored
        exact absurd stored (by simp)
    obtain ⟨own, below, serves⟩ := lineage.entered peers pid peer before
    refine ⟨own, nextPeerGen ▸ below, serves.commit present ?_ ?_⟩
    · exact fun task listed => mediaTasks ▸ listed
    · intro holds
      rw [free] at holds
      exact absurd holds (by simp)

/-- An accepted offer takes the next generation for its sender and its map, and every
holder of an earlier one still agrees. -/
theorem Lineage.accepts (lineage : world.Lineage owner)
    (present : world.connections.lookup id = some connection) {pid : ParticipantId}
    {peers : PeersRef} {peer : SfuPeer} (free : connection.point.serving = none)
    (bound : turn.connection.participantId = some pid)
    (serving : turn.connection.point.serving = some (peers, peer))
    (gen : peer.gen = world.sfu.nextPeerGen)
    (entries : ∀ peers, turn.sfu.peersOf peers = world.sfu.peersOf peers)
    (mediaTasks : turn.sfu.mediaTasks = world.sfu.mediaTasks)
    (nextPeerGen : turn.sfu.nextPeerGen = world.sfu.nextPeerGen + 1)
    (agrees : ∀ earlier < world.sfu.nextPeerGen,
      Function.update owner peer.gen (pid, peers) earlier = owner earlier) :
    (world.commit id turn).Lineage (Function.update owner peer.gen (pid, peers)) := by
  refine lineage.commit _ agrees (by omega) ?_ ?_ ?_ ?_
  · intro held other holds
    cases serving.symm.trans holds
    refine ⟨⟨pid, bound, Function.update_self ..⟩, by omega, ?_, ?_⟩
    · intro task listed
      have below := (lineage.running task (mediaTasks ▸ listed)).2
      omega
    · intro other found more _ known holds
      have below := (lineage.serving other found more.1 more.2 known holds).2.1
      omega
  · intro task listed
    exact .inl (mediaTasks ▸ listed)
  · rw [mediaTasks]
    exact lineage.distinct
  · intro tested member stored entered
    rw [entries] at entered
    obtain ⟨own, below, serves⟩ := lineage.entered tested member stored entered
    refine ⟨by rw [agrees _ below, own], by omega, serves.commit present ?_ ?_⟩
    · exact fun task listed => mediaTasks ▸ listed
    · intro holds
      rw [free] at holds
      exact absurd holds (by simp)

/-- Entering the peer under its own generation keeps every holder in agreement: the
handler that enters it attends to the entry. -/
theorem Lineage.enters (lineage : world.Lineage owner)
    (present : world.connections.lookup id = some connection) {pid : ParticipantId}
    {peers : PeersRef} {peer : SfuPeer} (bound : connection.participantId = some pid)
    (same : turn.connection.participantId = connection.participantId)
    (held : connection.point.serving = some (peers, peer))
    (entering : connection.point.entering = true)
    (serving : turn.connection.point.serving = some (peers, peer))
    (entered : turn.connection.point.entering = false)
    (sfu : turn.sfu = world.sfu.register peers pid peer) :
    (world.commit id turn).Lineage owner := by
  obtain ⟨⟨owned, bound', own⟩, below, fresh⟩ :=
    lineage.serving id connection peers peer present held
  cases bound.symm.trans bound'
  refine lineage.commit owner (fun _ _ => rfl) (by rw [sfu]; exact Nat.le_refl _) ?_ ?_ ?_ ?_
  · intro tested other holds
    cases serving.symm.trans holds
    rw [sfu]
    exact ⟨⟨pid, by rw [same, bound], own⟩, below, fresh, lineage.unshared present held⟩
  · intro task listed
    rw [sfu] at listed
    exact .inl listed
  · rw [sfu]
    exact lineage.distinct
  · intro tested member stored there
    rw [sfu] at there ⊢
    rw [SfuServer.lookup_register] at there
    split at there
    · rename_i here
      obtain ⟨rfl, rfl⟩ := here
      cases there
      exact ⟨own, below, .inr ⟨id, turn.connection, by rw [lookup_commit, if_pos rfl], serving,
        entered⟩⟩
    · obtain ⟨mine, less, serves⟩ := lineage.entered tested member stored there
      refine ⟨mine, less, serves.commit present ?_ ?_⟩
      · intro task listed
        rw [sfu]
        exact listed
      · intro _ past
        rw [entering] at past
        exact absurd past (by simp)

/-- A handler that goes on with its entered peer keeps every holder in agreement. -/
theorem Lineage.keeps (lineage : world.Lineage owner)
    (present : world.connections.lookup id = some connection) {peers : PeersRef} {peer : SfuPeer}
    (same : turn.connection.participantId = connection.participantId)
    (held : connection.point.serving = some (peers, peer))
    (serving : turn.connection.point.serving = some (peers, peer))
    (enteredAfter : turn.connection.point.entering = false)
    (entries : ∀ peers, turn.sfu.peersOf peers = world.sfu.peersOf peers)
    (mediaTasks : turn.sfu.mediaTasks = world.sfu.mediaTasks)
    (nextPeerGen : turn.sfu.nextPeerGen = world.sfu.nextPeerGen) :
    (world.commit id turn).Lineage owner := by
  obtain ⟨⟨pid, bound, own⟩, below, fresh⟩ :=
    lineage.serving id connection peers peer present held
  refine lineage.commit owner (fun _ _ => rfl) (Nat.le_of_eq nextPeerGen.symm) ?_ ?_ ?_ ?_
  · intro tested other holds
    cases serving.symm.trans holds
    refine ⟨⟨pid, by rw [same, bound], own⟩, nextPeerGen ▸ below, ?_, lineage.unshared present held⟩
    exact fun task listed => fresh task (mediaTasks ▸ listed)
  · intro task listed
    exact .inl (mediaTasks ▸ listed)
  · rw [mediaTasks]
    exact lineage.distinct
  · intro tested member stored there
    rw [entries] at there
    obtain ⟨mine, less, serves⟩ := lineage.entered tested member stored there
    refine ⟨mine, nextPeerGen ▸ less, serves.commit present ?_ ?_⟩
    · exact fun task listed => mediaTasks ▸ listed
    · intro holds _
      cases held.symm.trans holds
      exact .inr ⟨serving, enteredAfter⟩

/-- Starting the media task of the entered peer keeps every holder in agreement: from now
on the task attends to the entry. -/
theorem Lineage.starts (lineage : world.Lineage owner)
    (present : world.connections.lookup id = some connection) {pid : ParticipantId}
    {peers : PeersRef} {peer : SfuPeer} (bound : connection.participantId = some pid)
    (held : connection.point.serving = some (peers, peer))
    (freeAfter : turn.connection.point.serving = none)
    (sfu : turn.sfu = world.sfu.spawn pid peers peer) :
    (world.commit id turn).Lineage owner := by
  obtain ⟨⟨owned, bound', own⟩, below, fresh⟩ :=
    lineage.serving id connection peers peer present held
  cases bound.symm.trans bound'
  have tasks : turn.sfu.mediaTasks = world.sfu.mediaTasks ++
      [{ pid, peers, wsTx := peer.wsTx, roomId := (world.sfu.currentRoom pid).getD "",
         gen := peer.gen }] := by rw [sfu]; rfl
  refine lineage.commit owner (fun _ _ => rfl) (by rw [sfu]; exact Nat.le_refl _) ?_ ?_ ?_ ?_
  · intro tested other holds
    rw [freeAfter] at holds
    exact absurd holds (by simp)
  · intro task listed
    rw [tasks] at listed
    rcases List.mem_append.mp listed with before | started
    · exact .inl before
    · cases List.mem_singleton.mp started
      exact .inr ⟨own, by rw [sfu]; exact below, lineage.unshared present held⟩
  · rw [tasks, List.map_append]
    refine List.nodup_append.mpr ⟨lineage.distinct, List.nodup_singleton _, ?_⟩
    intro gen listed other started same
    obtain ⟨task, running, rfl⟩ := List.mem_map.mp listed
    cases List.mem_singleton.mp started
    exact fresh task running same
  · intro tested member stored there
    rw [sfu] at there
    obtain ⟨mine, less, serves⟩ := lineage.entered tested member stored there
    refine ⟨mine, by rw [sfu]; exact less, serves.commit present ?_ ?_⟩
    · intro task listed
      rw [tasks]
      exact List.mem_append_left _ listed
    · intro holds _
      cases held.symm.trans holds
      left
      rw [tasks]
      exact ⟨_, List.mem_append_right _ (List.mem_singleton_self _), rfl⟩

/-- A section of a task keeps every holder in agreement. -/
theorem Lineage.turned (lineage : world.Lineage owner)
    (present : world.connections.lookup id = some connection)
    (peering : Peering world connection turn) :
    ∃ later, (world.commit id turn).Lineage later ∧
      ∀ gen < world.sfu.nextPeerGen, later gen = owner gen := by
  cases peering with
  | fewer free freeAfter entries mediaTasks nextPeerGen =>
    exact ⟨owner, lineage.fewer present free freeAfter entries mediaTasks nextPeerGen, fun _ _ => rfl⟩
  | accepts pid peers peer free bound serving entering gen entries mediaTasks nextPeerGen =>
    have agrees : ∀ earlier < world.sfu.nextPeerGen,
        Function.update owner peer.gen (pid, peers) earlier = owner earlier := by
      intro earlier below
      rw [Function.update_of_ne]
      omega
    exact ⟨_, lineage.accepts present free bound serving gen entries mediaTasks nextPeerGen agrees,
      agrees⟩
  | enters pid peers peer bound same held entering serving entered sfu =>
    exact ⟨owner, lineage.enters present bound same held entering serving entered sfu, fun _ _ => rfl⟩
  | keeps peers peer same held entered serving enteredAfter entries mediaTasks nextPeerGen =>
    exact ⟨owner, lineage.keeps present same held serving enteredAfter entries mediaTasks nextPeerGen,
      fun _ _ => rfl⟩
  | starts pid peers peer bound held entered freeAfter sfu =>
    exact ⟨owner, lineage.starts present bound held freeAfter sfu, fun _ _ => rfl⟩

end Commit

/-- Steps that touch no handler with a peer and neither maps nor media tasks keep every
holder in agreement. -/
theorem Lineage.aside (lineage : world.Lineage owner)
    (maps : after.sfu.maps = world.sfu.maps)
    (mediaTasks : after.sfu.mediaTasks = world.sfu.mediaTasks)
    (nextPeerGen : after.sfu.nextPeerGen = world.sfu.nextPeerGen)
    (connections : ∀ id connection held, connection.point.serving = some held →
      (after.connections.lookup id = some connection ↔
        world.connections.lookup id = some connection)) :
    after.Lineage owner where
  serving := by
    intro id connection peers peer known holds
    rw [nextPeerGen, mediaTasks]
    exact lineage.serving id connection peers peer ((connections id connection _ holds).mp known) holds
  alone := by
    intro first second one two held other known known' holds holds' same
    exact lineage.alone first second one two held other ((connections first one held holds).mp known)
      ((connections second two other holds').mp known') holds holds' same
  running := by
    rw [nextPeerGen, mediaTasks]
    exact lineage.running
  distinct := by
    rw [mediaTasks]
    exact lineage.distinct
  entered := by
    intro peers pid peer stored
    rw [SfuServer.peersOf, maps] at stored
    obtain ⟨own, below, serves⟩ := lineage.entered peers pid peer stored
    refine ⟨own, nextPeerGen ▸ below, ?_⟩
    rcases serves with ⟨task, listed, same⟩ | ⟨id, connection, known, holds, past⟩
    · exact .inl ⟨task, mediaTasks ▸ listed, same⟩
    · exact .inr ⟨id, connection, (connections id connection _ holds).mpr known, holds, past⟩

/-- A media task that ends takes its entry along. -/
theorem Lineage.ended (lineage : world.Lineage owner) {task : MediaTask}
    (running : task ∈ world.sfu.mediaTasks) :
    ({ world with sfu := world.sfu.endMediaTask task } : World).Lineage owner := by
  obtain ⟨mediaTasks, nextPeerGen⟩ := world.sfu.mediaTasks_endMediaTask task
  have remain : ∀ other, other ∈ world.sfu.mediaTasks.erase task →
      other ∈ world.sfu.mediaTasks := fun other => List.mem_of_mem_erase
  constructor
  · intro id connection peers peer known holds
    obtain ⟨bound, below, fresh⟩ := lineage.serving id connection peers peer known holds
    refine ⟨bound, nextPeerGen ▸ below, ?_⟩
    intro other listed
    exact fresh other (remain other (mediaTasks ▸ listed))
  · exact lineage.alone
  · intro other listed
    obtain ⟨own, below⟩ := lineage.running other (remain other (mediaTasks ▸ listed))
    exact ⟨own, nextPeerGen ▸ below⟩
  · rw [mediaTasks]
    exact lineage.distinct.sublist (List.erase_sublist.map _)
  · intro peers pid peer stored
    obtain ⟨before, apart⟩ := (world.sfu.lookup_endMediaTask peers pid task peer).mp stored
    obtain ⟨own, below, serves⟩ := lineage.entered peers pid peer before
    refine ⟨own, nextPeerGen ▸ below, ?_⟩
    rcases serves with ⟨other, listed, same⟩ | handler
    · left
      refine ⟨other, ?_, same⟩
      refine mediaTasks ▸ (List.mem_erase_of_ne ?_).mpr listed
      rintro rfl
      have mine := (lineage.running other listed).1
      rw [same, own, Prod.mk.injEq] at mine
      exact apart ⟨mine.2, mine.1, same.symm⟩
    · exact .inr handler

/-- Every step keeps every holder of a generation in agreement. -/
theorem lineage_step (fresh : world.Fresh) (lineage : world.Lineage owner) (event : Event)
    (stepped : world.step config event = some after) :
    ∃ later, after.Lineage later ∧ ∀ gen < world.sfu.nextPeerGen, later gen = owner gen := by
  have quiet : ∀ {id : WsSink} {connection : Connection} {turn : Turn},
      world.connections.lookup id = some connection → connection.point = .idle →
      turn.sfu = world.sfu → turn.connection.point.serving = none →
        ∃ later, (world.commit id turn).Lineage later ∧
          ∀ gen < world.sfu.nextPeerGen, later gen = owner gen := by
    intro id connection turn present idle sfu freeAfter
    apply lineage.turned present
    exact .fewer (by rw [idle]; rfl) freeAfter (fun _ _ => .inl (by rw [sfu])) (by rw [sfu])
      (by rw [sfu])
  cases stepped_of_step event stepped with
  | connected =>
    refine ⟨owner, lineage.aside rfl rfl rfl ?_, fun _ _ => rfl⟩
    intro id connection held holds
    rw [Table.lookup_insert_eq]
    by_cases here : id = world.nextConnection
    · rw [if_pos here, here, fresh _ (Nat.le_refl _)]
      constructor
      · rintro ⟨⟩
        exact absurd holds (by simp [Point.serving])
      · exact fun impossible => absurd impossible (by simp)
    · rw [if_neg here]
  | heard id raw parsed auth rateOk connection present idle =>
    apply quiet present idle (connection.receive_still raw parsed auth rateOk).2.1
    rcases connection.receive_point idle raw parsed auth rateOk with
      same | ⟨_, ended | ⟨request, on⟩⟩ | ⟨message, pid, _, _, started⟩
    · rw [same]
      rfl
    · rw [ended]
      rfl
    · rw [on]
      rfl
    · rw [started]
      exact Connection.start_serving message raw
  | finished _ id connection sent present idle =>
    refine quiet present idle rfl ?_
    change connection.finish.point.serving = none
    unfold Connection.finish
    split <;> rfl
  | advanced id answer connection turn present taken =>
    exact lineage.turned present (Connection.advance_peering taken)
  | shut => exact ⟨owner, lineage.aside rfl rfl rfl fun _ _ _ _ => Iff.rfl, fun _ _ => rfl⟩
  | mediaEnded task running => exact ⟨owner, lineage.ended running, fun _ _ => rfl⟩
  | routed => exact ⟨owner, lineage.aside rfl rfl rfl fun _ _ _ _ => Iff.rfl, fun _ _ => rfl⟩

/-- In every state reached the holders of each generation agree on whose it is. -/
theorem lineage_of_reaches {admitted : World → Event → Prop} {e2eeRequired : Bool}
    (reached : Reaches (step config) admitted (new e2eeRequired) world) :
    ∃ owner, world.Lineage owner := by
  apply reached.invariant_with Fresh (fun world => ∃ owner, world.Lineage owner)
  · exact fun _ reached => fresh_of_reaches reached
  · refine ⟨fun _ => (⟨0⟩, 0), ?_, ?_, ?_, ?_, ?_⟩
    · intro id connection _ _ known
      simp [new] at known
    · intro first second one two held other known
      simp [new] at known
    · simp [new, SfuServer.new]
    · simp [new, SfuServer.new]
    · intro peers pid peer stored
      simp [new, SfuServer.new, SfuServer.peersOf] at stored
  · rintro before event after fresh ⟨owner, lineage⟩ _ stepped
    obtain ⟨later, lineage, _⟩ := lineage_step fresh lineage event stepped
    exact ⟨later, lineage⟩

end World

end Seameet

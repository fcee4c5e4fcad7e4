import Seameet.Engine.Generations
import Seameet.Engine.Negotiation
import Seameet.Engine.Registration

/-!
# The flag of a session and the media task behind it

A session says whether its participant has a media task, and an offer goes by
the session: with the flag set it is handed to the media task found in the room's
map, and dropped when the map has none. The flag is set once the peer is entered
and goes only with the session, stored afresh by a `Join` or dropped by the
cleanup. What the flag promises goes in other ways too: a media task that ends
takes its entry out of the map, an offer that was under way while its participant
joined another room sets the flag of the new session, and a room is dropped with
all its entries.

In the runs that take no promise away, every flag is backed by an entry in the
map of the session's room, and every entry by a media task.
-/

namespace Seameet

open Library

/-- The task is yet to store its participant's session afresh, or to drop it. -/
def Point.resetsSession : Point → Bool
  | .joining _ _ .announceCount | .joining _ _ .dispatch | .leaving .checkStale => false
  | .joining _ _ _ | .leaving _ => true
  | _ => false

/-- The task is the participant's, and yet to store its session afresh or to drop it. -/
def Connection.resetsFor (connection : Connection) (pid : ParticipantId) : Bool :=
  decide (connection.participantId = some pid) && connection.point.resetsSession

/-- Some task is yet to store the participant's session afresh, or to drop it. -/
def World.resets (world : World) (pid : ParticipantId) : Bool :=
  decide (world.connections.Any fun _ connection => connection.resetsFor pid = true)

namespace SfuServer

/-- The participant is in the map of its session's room. -/
def inCurrentRoom (server : SfuServer) (pid : ParticipantId) : Bool :=
  (server.roomPeersFor pid).any fun peers => server.inMap peers pid

/-- The participant's entry in the map of its session's room is the media task's. -/
def backedBy (server : SfuServer) (task : MediaTask) : Bool :=
  decide (server.roomPeersFor task.pid = some task.peers ∧
    ((server.peersOf task.peers).lookup task.pid).map SfuPeer.gen = some task.gen)

variable {server later : SfuServer} {pid : ParticipantId}

/-- Being in the map of the session's room. -/
theorem inCurrentRoom_iff : server.inCurrentRoom pid = true ↔
    ∃ roomId peers, server.currentRoom pid = some roomId ∧ server.roomPeers roomId = some peers ∧
      server.inMap peers pid = true := by
  rw [inCurrentRoom, Option.any_eq_true]
  simp only [roomPeersFor, Option.bind_eq_some_iff]
  constructor
  · rintro ⟨peers, ⟨roomId, current, named⟩, inside⟩
    exact ⟨roomId, peers, current, named, inside⟩
  · rintro ⟨roomId, peers, current, named, inside⟩
    exact ⟨peers, ⟨roomId, current, named⟩, inside⟩

/-- A participant stays in the map of its session's room while the session names the
room, the room its map and the map the participant. -/
theorem inCurrentRoom_mono (inside : server.inCurrentRoom pid = true)
    (current : later.currentRoom pid = server.currentRoom pid)
    (rooms : ∀ roomId peers, server.currentRoom pid = some roomId →
      server.roomPeers roomId = some peers → later.roomPeers roomId = some peers)
    (maps : ∀ roomId peers, server.roomPeers roomId = some peers →
      server.inMap peers pid = true → later.inMap peers pid = true) :
    later.inCurrentRoom pid = true := by
  obtain ⟨roomId, peers, named, stored, entered⟩ := inCurrentRoom_iff.mp inside
  exact inCurrentRoom_iff.mpr ⟨roomId, peers, by rw [current, named], rooms roomId peers named stored,
    maps roomId peers stored entered⟩

end SfuServer

/-- The step takes no promise away, unless the session is about to go as well.

A media task does not end while the session of its participant has the flag and
finds the task's own entry. An offer sets the flag of a session only if the
participant is in the map of the session's room. No room is dropped that the
session of a participant with the flag names. -/
def keepsFlags (world : World) : Event → Bool
  | .mediaEnds task =>
      !world.sfu.hasMedia task.pid || !world.sfu.backedBy task || world.resets task.pid
  | .advance id _ =>
      match world.task id with
      | some (.handling _ (.markMediaTask _ _), some pid) =>
          (world.sfu.sessions.lookup pid).isNone || world.sfu.inCurrentRoom pid ||
            world.resets pid
      | some (.leaving (.dropRoom roomId _), _) =>
          decide (world.sfu.sessions.Every fun pid session =>
            session.currentRoomId = some roomId → session.hasMediaTask = true →
              world.resets pid = true)
      | _ => true
  | _ => true

namespace World

/-- Every session with the flag finds an entry, or is about to go; and the maps of
rooms have been made. -/
structure Backed (world : World) : Prop where
  flags : ∀ pid, world.sfu.hasMedia pid = true →
    world.sfu.inCurrentRoom pid = true ∨ world.resets pid = true
  refs : ∀ roomId peers, world.sfu.roomPeers roomId = some peers → peers < world.sfu.nextRef

variable {config : Config} {world after : World} {id : WsSink} {connection : Connection}

/-- A participant whose session is about to go. -/
theorem resets_iff {pid : ParticipantId} : world.resets pid = true ↔
    ∃ id connection, world.connections.lookup id = some connection ∧
      connection.resetsFor pid = true := by
  rw [resets, decide_eq_true_eq]
  rfl

/-- A connection's section leaves the sessions about to go that others take, and its
own if it still takes it. -/
theorem resets_commit {pid : ParticipantId}
    (present : world.connections.lookup id = some connection) (turn : Turn)
    (resets : world.resets pid = true)
    (own : connection.resetsFor pid = true → turn.connection.resetsFor pid = true) :
    (world.commit id turn).resets pid = true := by
  obtain ⟨other, found, known, takes⟩ := resets_iff.mp resets
  refine resets_iff.mpr ?_
  by_cases here : other = id
  · subst here
    cases present.symm.trans known
    exact ⟨other, turn.connection, by rw [lookup_commit, if_pos rfl], own takes⟩
  · exact ⟨other, found, by rw [lookup_commit, if_neg here, known], takes⟩

namespace Backed

/-- A section after which each flag finds an entry, or goes with the section's own task,
or was about to go, or was there before with an entry to find that is still there. -/
theorem commit (backed : world.Backed)
    (present : world.connections.lookup id = some connection) (turn : Turn)
    (refs : ∀ roomId peers, turn.sfu.roomPeers roomId = some peers → peers < turn.sfu.nextRef)
    (flags : ∀ pid, turn.sfu.hasMedia pid = true → turn.sfu.inCurrentRoom pid = true ∨
      turn.connection.resetsFor pid = true ∨
        (connection.resetsFor pid = true → turn.connection.resetsFor pid = true) ∧
          (world.resets pid = true ∨ world.sfu.hasMedia pid = true ∧
            (world.sfu.inCurrentRoom pid = true → turn.sfu.inCurrentRoom pid = true))) :
    (world.commit id turn).Backed := by
  refine ⟨?_, refs⟩
  intro pid flag
  rcases flags pid flag with inside | goes | ⟨own, resets | ⟨before, kept⟩⟩
  · exact .inl inside
  · exact .inr (resets_iff.mpr ⟨id, turn.connection, by rw [lookup_commit, if_pos rfl], goes⟩)
  · exact .inr (resets_commit present turn resets own)
  · rcases backed.flags pid before with inside | resets
    · exact .inl (kept inside)
    · exact .inr (resets_commit present turn resets own)

/-- A section that leaves sessions and rooms, takes nobody out of a map and goes on
resetting what it was to reset. -/
theorem quiet (backed : world.Backed)
    (present : world.connections.lookup id = some connection) (turn : Turn)
    (sessions : turn.sfu.sessions = world.sfu.sessions)
    (rooms : turn.sfu.rooms = world.sfu.rooms) (nextRef : turn.sfu.nextRef = world.sfu.nextRef)
    (maps : ∀ peers pid, world.sfu.inMap peers pid = true → turn.sfu.inMap peers pid = true)
    (own : ∀ pid, connection.resetsFor pid = true → turn.connection.resetsFor pid = true) :
    (world.commit id turn).Backed := by
  have named : ∀ roomId, turn.sfu.roomPeers roomId = world.sfu.roomPeers roomId :=
    fun roomId => congrArg (AList.lookup roomId) rooms
  refine backed.commit present turn ?_ ?_
  · intro roomId peers stored
    rw [nextRef]
    exact backed.refs roomId peers (named roomId ▸ stored)
  · intro pid flag
    refine .inr (.inr ⟨own pid, .inr ⟨?_, ?_⟩⟩)
    · rwa [SfuServer.hasMedia, sessions] at flag
    · intro inside
      refine SfuServer.inCurrentRoom_mono inside ?_ ?_ fun _ peers _ => maps peers pid
      · rw [SfuServer.currentRoom, sessions]
        rfl
      · exact fun roomId peers _ stored => (named roomId).trans stored

/-- A connection that is to reset nothing. -/
theorem resets_none {pid : ParticipantId} (none : connection.point.resetsSession = false) :
    connection.resetsFor pid = false := by
  rw [Connection.resetsFor, none, Bool.and_false]

/-- A connection that stays bound and is to reset a session. -/
theorem resets_goes {point : Point} (goes : point.resetsSession = true) (pid : ParticipantId)
    (resets : connection.resetsFor pid = true) : (connection.goto point).resetsFor pid = true := by
  simp only [Connection.resetsFor, Bool.and_eq_true] at resets ⊢
  exact ⟨resets.1, goes⟩

/-- A section of a `Join` handler. -/
theorem join (backed : world.Backed) (present : world.connections.lookup id = some connection)
    (pid : ParticipantId) (first : Bool) (request : JoinRequest) (stage : JoinStage)
    (bound : connection.participantId = some pid)
    (point : connection.point = .joining first request stage) :
    (world.commit id (connection.joinSection config world id pid first request stage)).Backed := by
  cases stage with
  | prune | notifyPruned | notifyRejoin =>
    exact backed.quiet present _ rfl rfl rfl (fun _ _ inside => inside) (resets_goes rfl)
  | announceCount | dispatch =>
    refine backed.quiet present _ rfl rfl rfl (fun _ _ inside => inside) ?_
    intro other resets
    rw [resets_none (by rw [point]; rfl)] at resets
    exact absurd resets (by simp)
  | ensureRoom =>
    have made : ∀ roomId peers, (world.sfu.ensureRoom request.roomId).roomPeers roomId = some peers →
        peers < (world.sfu.ensureRoom request.roomId).nextRef := by
      intro roomId peers stored
      unfold SfuServer.ensureRoom at stored ⊢
      split at stored
      · exact backed.refs roomId peers stored
      · simp only [SfuServer.roomPeers, Table.lookup_insert_eq] at stored ⊢
        split at stored
        · cases stored
          exact Nat.lt_succ_self _
        · exact Nat.lt_succ_of_lt (backed.refs roomId peers stored)
    refine backed.commit present _ made ?_
    intro other flag
    refine .inr (.inr ⟨resets_goes rfl other, .inr ⟨?_, ?_⟩⟩)
    · simp only [Connection.joinSection, SfuServer.ensureRoom] at flag
      split at flag <;> exact flag
    · intro inside
      refine SfuServer.inCurrentRoom_mono inside (world.sfu.currentRoom_ensureRoom other _) ?_ ?_
      · intro roomId peers _ stored
        simp only [Connection.joinSection, SfuServer.ensureRoom]
        split
        · exact stored
        · rename_i missing
          have apart : roomId ≠ request.roomId := by
            rintro rfl
            exact absurd (stored.symm.trans missing) (by simp)
          simp only [SfuServer.roomPeers, Table.lookup_insert_eq, if_neg apart]
          exact stored
      · intro roomId peers stored entered
        simp only [Connection.joinSection, SfuServer.ensureRoom]
        split
        · exact entered
        · have apart : peers ≠ world.sfu.nextRef := Nat.ne_of_lt (backed.refs roomId peers stored)
          simp only [SfuServer.inMap, SfuServer.peersOf, Table.lookup_insert_eq, if_neg apart]
          exact entered
  | storeSession =>
    refine backed.commit present _ backed.refs ?_
    intro other flag
    by_cases own : other = pid
    · subst own
      simp [Connection.joinSection, SfuServer.hasMedia, SfuServer.storeSession] at flag
    · refine .inr (.inr ⟨?_, .inr ⟨?_, ?_⟩⟩)
      · intro resets
        simp only [Connection.resetsFor, bound, Bool.and_eq_true, decide_eq_true_eq,
          Option.some.injEq] at resets
        exact absurd resets.1.symm own
      · simpa only [Connection.joinSection, SfuServer.hasMedia, SfuServer.storeSession,
          Table.lookup_insert_eq, if_neg own] using flag
      · intro inside
        refine SfuServer.inCurrentRoom_mono inside ?_ (fun _ _ _ stored => stored)
          fun _ _ _ entered => entered
        exact world.sfu.currentRoom_storeSession_ne pid other _ own

/-- A section of another message's handler. -/
theorem hook (backed : world.Backed) (present : world.connections.lookup id = some connection)
    (pid : ParticipantId) (handled : Handled) (answer : Option String) (stage : HookStage)
    (bound : connection.participantId = some pid)
    (point : connection.point = .handling handled stage)
    (kept : keepsFlags world (.advance id answer) = true) :
    (world.commit id
      (connection.hookSection config world id pid handled answer stage)).Backed := by
  have own : ∀ other next, connection.resetsFor other = true →
      (Connection.resetsFor next other) = true := by
    intro other next resets
    rw [resets_none (by rw [point]; rfl)] at resets
    exact absurd resets (by simp)
  cases stage with
  | register peers peer =>
    refine backed.quiet present _ rfl rfl rfl ?_ fun other => own other _
    intro tested other inside
    simp only [Connection.hookSection, SfuServer.inMap_register, inside, Bool.or_true]
  | markMediaTask peers peer =>
    simp only [keepsFlags, World.task, present, Option.map_some, point, bound, Bool.or_eq_true]
      at kept
    refine backed.commit present _ backed.refs ?_
    intro other flag
    by_cases mine : other = pid
    · subst mine
      rcases kept with (nobody | inside) | resets
      · simp only [Connection.hookSection, SfuServer.hasMedia, SfuServer.markMediaTask,
          Table.lookup_modify, Option.isNone_iff_eq_none.mp nobody] at flag
        simp at flag
      · left
        refine SfuServer.inCurrentRoom_mono inside ?_ (fun _ _ _ stored => stored)
          fun _ _ _ entered => entered
        simp only [Connection.hookSection, SfuServer.currentRoom, SfuServer.markMediaTask,
          Table.lookup_modify, if_pos]
        cases world.sfu.sessions.lookup other <;> rfl
      · exact .inr (.inr ⟨own other _, .inl resets⟩)
    · refine .inr (.inr ⟨own other _, .inr ⟨?_, ?_⟩⟩)
      · simpa only [Connection.hookSection, SfuServer.hasMedia, SfuServer.markMediaTask,
          Table.lookup_modify, if_neg mine] using flag
      · intro inside
        refine SfuServer.inCurrentRoom_mono inside ?_ (fun _ _ _ stored => stored)
          fun _ _ _ entered => entered
        simp only [Connection.hookSection, SfuServer.currentRoom, SfuServer.markMediaTask,
          Table.lookup_modify, if_neg mine]
  | session | room | mediaState | renegotiate | awaitReply | negotiate | candidate =>
    simp only [Connection.hookSection]
    split <;>
      exact backed.quiet present _ rfl rfl rfl (fun _ _ inside => inside) fun other => own other _
  | mediaTask | act | registerAll | spawn | dispatch =>
    exact backed.quiet present _ rfl rfl rfl (fun _ _ inside => inside) fun other => own other _

/-- A section of the cleanup, past its first two points, is to drop the session until it
does. -/
theorem leave_goes (hooks : config.hooks = .sfu) (pid : ParticipantId) (stage : LeaveStage)
    (point : connection.point = .leaving stage) (other : ParticipantId)
    (resets : connection.resetsFor other = true) :
    (connection.leaveSection config world id pid stage).connection.resetsFor other = true ∨
      stage = .dropSession := by
  have on : ∀ next, (Point.leaving next).resetsSession = true →
      (connection.goto (.leaving next)).resetsFor other = true :=
    fun next goes => resets_goes goes other resets
  have left : ∀ rest, (Point.leaving (Connection.roomsLeft rest)).resetsSession = true := by
    intro rest
    cases rest <;> rfl
  have past : ∀ roomId gone rest,
      (Point.leaving (Connection.afterPeers roomId gone rest)).resetsSession = true := by
    intro roomId gone rest
    cases gone with
    | true => rfl
    | false => exact left rest
  cases stage with
  | checkStale =>
    rw [resets_none (by rw [point]; rfl)] at resets
    exact absurd resets (by simp)
  | announce pending affected =>
    cases pending with
    | cons head pending => exact .inl (on _ rfl)
    | nil =>
      simp only [Connection.leaveSection, hooks]
      exact .inl (on _ rfl)
  | lookup roomId gone rest =>
    simp only [Connection.leaveSection]
    split
    · exact .inl (on _ rfl)
    · exact .inl (on _ (past roomId gone rest))
  | allPeers affected => exact .inl (on _ (left affected))
  | dropPeer peers roomId gone rest => exact .inl (on _ (past roomId gone rest))
  | dropRoom roomId rest => exact .inl (on _ (left rest))
  | dropSession => exact .inr rfl
  | disconnect | routes | stopScreen => exact .inl (on _ rfl)

/-- A section of the cleanup. -/
theorem leave (backed : world.Backed) (hooks : config.hooks = .sfu)
    (present : world.connections.lookup id = some connection)
    (pid : ParticipantId) (answer : Option String) (stage : LeaveStage)
    (bound : connection.participantId = some pid) (point : connection.point = .leaving stage)
    (kept : keepsFlags world (.advance id answer) = true) :
    (world.commit id (connection.leaveSection config world id pid stage)).Backed := by
  have goes : stage ≠ .dropSession → ∀ other, connection.resetsFor other = true →
      (connection.leaveSection config world id pid stage).connection.resetsFor other = true :=
    fun apart other resets => (leave_goes hooks pid stage point other resets).resolve_right apart
  cases stage with
  | dropPeer peers roomId gone rest =>
    refine backed.commit present _ backed.refs ?_
    intro other flag
    by_cases own : other = pid
    · subst own
      refine .inr (.inl (goes (by simp) other ?_))
      rw [Connection.resetsFor, bound, point]
      simp [Point.resetsSession]
    · refine .inr (.inr ⟨goes (by simp) other, .inr ⟨flag, ?_⟩⟩)
      intro inside
      refine SfuServer.inCurrentRoom_mono inside rfl (fun _ _ _ stored => stored) ?_
      intro _ tested _ entered
      simp only [Connection.leaveSection, SfuServer.inMap_dropPeer, entered, own, and_false,
        decide_false, Bool.not_false, Bool.and_self]
  | dropRoom roomId rest =>
    simp only [keepsFlags, World.task, present, Option.map_some, point, decide_eq_true_eq] at kept
    refine backed.commit present _ ?_ ?_
    · intro other peers stored
      simp only [Connection.leaveSection, SfuServer.roomPeers, SfuServer.dropRoom,
        Table.lookup_erase_eq, Option.ite_none_left_eq_some] at stored
      exact backed.refs other peers stored.2
    · intro other flag
      refine .inr (.inr ⟨goes (by simp) other, ?_⟩)
      by_cases current : world.sfu.currentRoom other = some roomId
      · left
        obtain ⟨session, stored, named⟩ := Option.bind_eq_some_iff.mp current
        refine kept other session stored named ?_
        simpa [Connection.leaveSection, SfuServer.dropRoom, SfuServer.hasMedia, stored] using flag
      · refine .inr ⟨flag, fun inside => ?_⟩
        refine SfuServer.inCurrentRoom_mono inside rfl ?_ fun _ _ _ entered => entered
        intro named peers session stored
        refine (AList.lookup_erase_ne ?_).trans stored
        rintro rfl
        exact current session
  | dropSession =>
    refine backed.commit present _ backed.refs ?_
    intro other flag
    by_cases own : other = pid
    · subst own
      simp [Connection.leaveSection, SfuServer.hasMedia, SfuServer.dropSession] at flag
    · refine .inr (.inr ⟨?_, .inr ⟨?_, ?_⟩⟩)
      · intro resets
        simp only [Connection.resetsFor, bound, Bool.and_eq_true, decide_eq_true_eq,
          Option.some.injEq] at resets
        exact absurd resets.1.symm own
      · simpa only [Connection.leaveSection, SfuServer.hasMedia, SfuServer.dropSession,
          AList.lookup_erase_ne own] using flag
      · intro inside
        refine SfuServer.inCurrentRoom_mono inside ?_ (fun _ _ _ stored => stored)
          fun _ _ _ entered => entered
        exact Connection.leaveSection_currentRoom config world id connection pid .dropSession other
          fun _ => own
  | announce pending affected =>
    cases pending with
    | cons head pending =>
      exact backed.quiet present _ rfl rfl rfl (fun _ _ inside => inside) (goes (by simp))
    | nil =>
      refine backed.quiet present _ ?_ ?_ ?_ ?_ (goes (by simp)) <;>
        simp only [Connection.leaveSection, hooks]
      exacts [rfl, rfl, rfl, fun _ _ inside => inside]
  | checkStale | lookup =>
    refine backed.quiet present _ ?_ ?_ ?_ ?_ (goes (by simp)) <;>
      simp only [Connection.leaveSection] <;> split
    all_goals first | rfl | exact fun _ _ inside => inside
  | disconnect | routes | allPeers | stopScreen =>
    exact backed.quiet present _ rfl rfl rfl (fun _ _ inside => inside) (goes (by simp))

/-- A new server has no sessions. -/
theorem new (e2eeRequired : Bool) : (World.new e2eeRequired).Backed where
  flags := by
    intro pid flag
    simp [World.new, SfuServer.new, SfuServer.hasMedia] at flag
  refs := by
    intro roomId peers stored
    simp [World.new, SfuServer.new, SfuServer.roomPeers] at stored

/-- A media task that ends leaves every flag an entry, unless the entry was its own. -/
theorem mediaEnded (backed : world.Backed) (task : MediaTask)
    (kept : keepsFlags world (.mediaEnds task) = true) :
    ({ world with sfu := world.sfu.endMediaTask task } : World).Backed := by
  obtain ⟨rooms, sessions, _⟩ := world.sfu.endMediaTask_frame 0 ⟨0⟩ task
  have nextRef : (world.sfu.endMediaTask task).nextRef = world.sfu.nextRef := by
    unfold SfuServer.endMediaTask
    extract_lets ended
    split
    · split <;> rfl
    · rfl
  have named : ∀ roomId, (world.sfu.endMediaTask task).roomPeers roomId =
      world.sfu.roomPeers roomId := fun roomId => congrArg (AList.lookup roomId) rooms
  have current : ∀ pid, (world.sfu.endMediaTask task).currentRoom pid =
      world.sfu.currentRoom pid := by
    intro pid
    rw [SfuServer.currentRoom, sessions]
    rfl
  constructor
  · intro pid flag
    replace flag : world.sfu.hasMedia pid = true := by
      rwa [SfuServer.hasMedia, sessions] at flag
    rcases backed.flags pid flag with inside | resets
    · obtain ⟨roomId, peers, session, stored, entered⟩ := SfuServer.inCurrentRoom_iff.mp inside
      obtain ⟨peer, found⟩ := Option.isSome_iff_exists.mp entered
      by_cases own : peers = task.peers ∧ pid = task.pid ∧ peer.gen = task.gen
      · obtain ⟨rfl, rfl, gen⟩ := own
        have mine : world.sfu.backedBy task = true := by
          simp [SfuServer.backedBy, SfuServer.roomPeersFor, session, stored, found, gen]
        simp only [keepsFlags, flag, mine, Bool.not_true, Bool.false_or] at kept
        exact .inr kept
      · left
        refine SfuServer.inCurrentRoom_iff.mpr ⟨roomId, peers, by rw [current, session],
          by rw [named, stored], ?_⟩
        exact Option.isSome_iff_exists.mpr
          ⟨peer, (world.sfu.lookup_endMediaTask peers pid task peer).mpr ⟨found, own⟩⟩
    · exact .inr resets
  · intro roomId peers stored
    simp only [nextRef]
    exact backed.refs roomId peers (named roomId ▸ stored)

/-- Every step that takes no promise away leaves every flag an entry to find. -/
theorem step (backed : world.Backed) (fresh : world.Fresh) (hooks : config.hooks = .sfu)
    {event : Event} (kept : keepsFlags world event = true)
    (stepped : world.step config event = some after) : after.Backed := by
  have still : ∀ {id : WsSink} {connection : Connection} {turn : Turn},
      world.connections.lookup id = some connection → connection.point = .idle →
        turn.sfu = world.sfu → (world.commit id turn).Backed := by
    intro id connection turn present idle sfu
    refine backed.quiet present turn (by rw [sfu]) (by rw [sfu]) (by rw [sfu])
      (fun _ _ inside => by rwa [sfu]) ?_
    intro other resets
    rw [resets_none (by rw [idle]; rfl)] at resets
    exact absurd resets (by simp)
  cases stepped_of_step event stepped with
  | connected =>
    refine ⟨fun pid flag => ?_, backed.refs⟩
    rcases backed.flags pid flag with inside | resets
    · exact .inl inside
    · obtain ⟨other, found, known, takes⟩ := resets_iff.mp resets
      refine .inr (resets_iff.mpr ⟨other, found, ?_, takes⟩)
      rw [Table.lookup_insert_eq, if_neg ?_, known]
      rintro rfl
      exact absurd (known.symm.trans (fresh _ (Nat.le_refl _))) (by simp)
  | heard id raw parsed auth rateOk connection present idle =>
    exact still present idle (connection.receive_still raw parsed auth rateOk).2.1
  | finished _ id connection sent present idle => exact still present idle rfl
  | advanced id answer connection turn present taken =>
    rcases Connection.advance_cases taken with ⟨_, sfu, starts⟩ |
      ⟨pid, first, request, stage, bound, point, rfl⟩ |
      ⟨pid, handled, stage, bound, point, rfl⟩ | ⟨pid, stage, bound, point, rfl⟩
    · refine backed.quiet present turn (by rw [sfu]) (by rw [sfu]) (by rw [sfu])
        (fun _ _ inside => by rwa [sfu]) ?_
      intro other resets
      rcases starts with ⟨_, point⟩ | ⟨_, point⟩ <;>
        (rw [resets_none (by rw [point]; rfl)] at resets
         exact absurd resets (by simp))
    · exact backed.join present pid first request stage bound point
    · exact backed.hook present pid handled answer stage bound point kept
    · exact backed.leave hooks present pid answer stage bound point kept
  | shut => exact ⟨backed.flags, backed.refs⟩
  | mediaEnded task running => exact backed.mediaEnded task kept
  | routed => exact ⟨backed.flags, backed.refs⟩

/-- Between handlers every flag finds an entry. -/
theorem atRest (backed : world.Backed)
    (rest : world.connections.Every fun _ connection => connection.point.atRest = true)
    {pid : ParticipantId} (flag : world.sfu.hasMedia pid = true) :
    world.sfu.inCurrentRoom pid = true := by
  apply (backed.flags pid flag).resolve_right
  intro resets
  obtain ⟨id, connection, known, takes⟩ := resets_iff.mp resets
  have still := rest id connection known
  cases point : connection.point <;>
    simp [Connection.resetsFor, point, Point.resetsSession, Point.atRest] at takes still

end Backed

section Offers

/-- The offer has reached a running media task of the participant, which finds it among
its commands, or has started a media task of the participant. -/
def Served (world after : World) (pid : ParticipantId) (sdp : String) : Prop :=
  (∃ task ∈ after.sfu.mediaTasks, task.pid = pid ∧ after.commands = world.commands ++
      [{ peer := pid, gen := task.gen, cmd := .renegotiationOffer sdp }]) ∨
    ∃ task ∈ after.sfu.mediaTasks, task.pid = pid ∧ task ∉ world.sfu.mediaTasks

/-- The next section of a handler of another message, with what it leaves. -/
theorem step_hook (config : Config) {pid : ParticipantId} {handled : Handled} {stage : HookStage}
    (present : world.connections.lookup id = some connection)
    (bound : connection.participantId = some pid)
    (point : connection.point = .handling handled stage) (answer : Option String) :
    let turn := connection.hookSection config world id pid handled answer stage
    ∃ next, world.step config (.advance id answer) = some next ∧
      next.connections.lookup id = some turn.connection ∧ next.sfu = turn.sfu ∧
      next.commands = world.commands ++ turn.commands := by
  intro turn
  refine ⟨world.commit id turn, ?_, by rw [lookup_commit, if_pos rfl], rfl, rfl⟩
  rw [step, turned, present, Option.bind_some, Connection.advance, point, bound]
  rfl

/-- A section that only moves its handler on. -/
theorem step_moves (config : Config) {pid : ParticipantId} {handled : Handled} {stage : HookStage}
    (present : world.connections.lookup id = some connection)
    (bound : connection.participantId = some pid)
    (point : connection.point = .handling handled stage) (answer : Option String) (goal : Point)
    (moves : connection.hookSection config world id pid handled answer stage =
      world.turn (connection.goto goal)) :
    ∃ next, world.step config (.advance id answer) = some next ∧
      next.connections.lookup id = some (connection.goto goal) ∧ next.sfu = world.sfu ∧
      next.commands = world.commands := by
  obtain ⟨next, stepped, known, sfu, commands⟩ :=
    step_hook config present bound point answer
  rw [moves] at known sfu commands
  exact ⟨next, stepped, known, sfu, commands.trans (List.append_nil _)⟩

/-- An offer that is read goes through three sections to the map of its sender's room. -/
theorem offer_finds_room (hooks : config.hooks = .sfu) {pid : ParticipantId} {roomId : RoomId}
    {peers : PeersRef} (present : world.connections.lookup id = some connection)
    (bound : connection.participantId = some pid) (idle : connection.point = .idle)
    (current : world.sfu.currentRoom pid = some roomId)
    (stored : world.sfu.roomPeers roomId = some peers)
    (raw : String) (sender : ParticipantId) (recipient : Option ParticipantId) (room : RoomId)
    (sdp : String) (accepted : acceptedRoomId config room = true) (auth : Except String Unit)
    (answer : Option String) :
    ∃ middle handled found,
      (∀ rest, walk (step config) always world
          (.receive id raw (some (.offer sender recipient room sdp)) auth true ::
            .advance id answer :: .advance id answer :: .advance id answer :: rest) =
        walk (step config) always middle rest) ∧
      middle.connections.lookup id = some found ∧ found.participantId = some pid ∧
      handled.message = .offer sender recipient room sdp ∧
      found.point = .handling handled
        (if world.sfu.hasMedia pid then .renegotiate peers else .negotiate peers) ∧
      middle.sfu = world.sfu ∧ middle.commands = world.commands := by
  let handled : Handled := { message := .offer sender recipient room sdp, raw, notJoin := rfl }
  let goes (stage : HookStage) : Connection := connection.goto (.handling handled stage)
  let heard : World := world.commit id (world.turn (goes .mediaTask))
  have read : world.step config (.receive id raw (some (.offer sender recipient room sdp)) auth
      true) = some heard := by
    have start : config.start (.offer sender recipient room sdp) raw =
        .handling handled .mediaTask := by
      rw [config.start_handling _ raw rfl, Config.hookStart, hooks]
    simp only [step, turned, present, Option.bind_some, whenIdle, idle, Connection.receive, bound,
      Connection.receiveNext, Bool.true_and, SdpMessage.roomId, Option.map_some, Option.getD_some,
      accepted, ↓reduceIte, start]
    rfl
  have known : heard.connections.lookup id = some (goes .mediaTask) := by
    rw [lookup_commit, if_pos rfl]
    rfl
  obtain ⟨one, first, known, sfu, commands⟩ := step_moves config known bound rfl answer
    (.handling handled (.session (world.sfu.hasMedia pid))) rfl
  obtain ⟨two, second, known, sfu', commands'⟩ := step_moves config known bound rfl
    answer (.handling handled (.room (world.sfu.hasMedia pid) roomId)) (by
      have found : one.sfu.currentRoom pid = some roomId := by
        rw [sfu]
        exact current
      rw [Connection.hookSection, found])
  obtain ⟨three, third, known, sfu'', commands''⟩ := step_moves config known bound rfl
    answer (.handling handled
      (if world.sfu.hasMedia pid then .renegotiate peers else .negotiate peers)) (by
      have named : two.sfu.roomPeers roomId = some peers := by
        rw [sfu', sfu]
        exact stored
      rw [Connection.hookSection, named])
  refine ⟨three, handled, _, ?_, known, bound, rfl, rfl, ?_, ?_⟩
  · intro rest
    rw [walk_cons _ _ _ trivial read, walk_cons _ _ _ trivial first, walk_cons _ _ _ trivial second,
      walk_cons _ _ _ trivial third]
  · rw [sfu'', sfu', sfu]
    rfl
  · rw [commands'', commands', commands]
    exact List.append_nil _

/-- An offer whose sender has the flag is handed to the media task of its entry. -/
theorem offer_renegotiates {pid : ParticipantId} {handled : Handled} {peers : PeersRef}
    {peer : SfuPeer} (present : world.connections.lookup id = some connection)
    (bound : connection.participantId = some pid)
    (point : connection.point = .handling handled (.renegotiate peers))
    {sender : ParticipantId} {recipient : Option ParticipantId} {room : RoomId} {sdp : String}
    (message : handled.message = .offer sender recipient room sdp)
    (entered : (world.sfu.peersOf peers).lookup pid = some peer) (reply : String) :
    ∃ after, walk (step config) always world (List.replicate 2 (.advance id (some reply))) =
        some after ∧
      after.task id = some (.idle, some pid) ∧ after.sfu = world.sfu ∧
      after.commands = world.commands ++
        [{ peer := pid, gen := peer.gen, cmd := .renegotiationOffer sdp }] := by
  obtain ⟨one, first, known, sfu, commands⟩ :=
    step_hook config present bound point (some reply)
  simp only [Connection.hookSection, message, entered, Peers.tellOne, Option.map_some,
    Option.toList_some] at known sfu commands
  obtain ⟨two, second, known', sfu', commands'⟩ :=
    step_hook config known bound rfl (some reply)
  refine ⟨two, ?_, ?_, sfu'.trans sfu, ?_⟩
  · rw [List.replicate_succ, walk_cons _ _ _ trivial first, List.replicate_succ,
      walk_cons _ _ _ trivial second]
    rfl
  · rw [task, known']
    exact congrArg (fun bound => some (Point.idle, bound)) bound
  · rw [commands', commands]
    exact List.append_nil _

/-- An offer whose sender has no flag, and which is accepted, starts a media task. -/
theorem offer_negotiates {pid : ParticipantId} {handled : Handled} {peers : PeersRef}
    (present : world.connections.lookup id = some connection)
    (bound : connection.participantId = some pid)
    (point : connection.point = .handling handled (.negotiate peers)) (reply : String) :
    ∃ after, walk (step config) always world (List.replicate 5 (.advance id (some reply))) =
        some after ∧
      after.task id = some (.idle, some pid) ∧
      ∃ task ∈ after.sfu.mediaTasks, task.pid = pid ∧ task.gen = world.sfu.nextPeerGen := by
  obtain ⟨one, first, known, sfu, _⟩ :=
    step_hook config present bound point (some reply)
  obtain ⟨two, second, known', sfu', _⟩ :=
    step_hook config known bound rfl (some reply)
  obtain ⟨three, third, known₃, sfu₃, _⟩ :=
    step_hook config known' bound rfl (some reply)
  obtain ⟨four, fourth, known₄, sfu₄, _⟩ :=
    step_hook config known₃ bound rfl (some reply)
  obtain ⟨five, fifth, known₅, sfu₅, _⟩ :=
    step_hook config known₄ bound rfl (some reply)
  refine ⟨five, ?_, ?_, ?_⟩
  · rw [List.replicate_succ, walk_cons _ _ _ trivial first, List.replicate_succ,
      walk_cons _ _ _ trivial second, List.replicate_succ, walk_cons _ _ _ trivial third,
      List.replicate_succ, walk_cons _ _ _ trivial fourth, List.replicate_succ,
      walk_cons _ _ _ trivial fifth]
    rfl
  · rw [task, known₅]
    exact congrArg (fun bound => some (Point.idle, bound)) bound
  · rw [sfu₅]
    exact ⟨_, List.mem_append_right _ (List.mem_singleton_self _), rfl, rfl⟩

end Offers

end World

/-- With the media server's hooks, in every run that leaves the open `Join`s their
sessions and rooms and takes no flag its entry, whenever no handler is under way: a
participant whose session has the flag is in the map of the session's room, with an
entry whose media task is running; and every offer the engine reads from a
participant whose last admitted `Join` stands either reaches a running media task of
the participant or, accepted, starts a new one.

Two invariants are put together: the session of every flag has an entry, and every entry has
a media task of its generation. An offer then either finds the running task or is accepted
and starts one. -/
theorem flag_finds_media_task (config : Config) (e2eeRequired : Bool) (hooks : config.hooks = .sfu)
    {world : World}
    (reached : Reaches (World.step config)
      (fun state event => keepsSessions config state event = true ∧ keepsFlags state event = true)
      (World.new e2eeRequired) world)
    (rest : world.connections.Every fun _ connection => connection.point.atRest = true) :
    (∀ pid, world.sfu.hasMedia pid = true → ∃ peers peer,
      world.sfu.roomPeersFor pid = some peers ∧
        (world.sfu.peersOf peers).lookup pid = some peer ∧
        ∃ task ∈ world.sfu.mediaTasks, task.pid = pid ∧ task.gen = peer.gen) ∧
      ∀ pid last roomId, lastJoin pid world.deeds = some (last, roomId) →
        world.isOpen last = true →
        ∀ id connection, world.connections.lookup id = some connection →
          connection.participantId = some pid → connection.point = .idle →
          ∀ raw sender recipient room sdp auth reply, acceptedRoomId config room = true →
            ∃ count after, walk (World.step config) always world
                (.receive id raw (some (.offer sender recipient room sdp)) auth true ::
                  List.replicate count (.advance id (some reply))) = some after ∧
              after.task id = some (.idle, some pid) ∧ World.Served world after pid sdp := by
  obtain ⟨negotiable, backed⟩ : Negotiable world ∧ world.Backed := by
    apply reached.invariant_with (fun state => state.Fresh ∧ state.Recorded)
      (fun state => Negotiable state ∧ state.Backed)
    · exact fun _ reached => ⟨World.fresh_of_reaches reached, World.recorded_of_reaches reached⟩
    · exact ⟨.new e2eeRequired, .new e2eeRequired⟩
    · rintro before event after ⟨fresh, recorded⟩ ⟨negotiable, backed⟩ ⟨sessions, flags⟩ stepped
      exact ⟨negotiable.step fresh recorded hooks sessions stepped,
        backed.step fresh hooks flags stepped⟩
  obtain ⟨owner, lineage⟩ := World.lineage_of_reaches reached
  have entry : ∀ pid, world.sfu.hasMedia pid = true → ∃ peers peer,
      world.sfu.roomPeersFor pid = some peers ∧
        (world.sfu.peersOf peers).lookup pid = some peer ∧
        ∃ task ∈ world.sfu.mediaTasks, task.pid = pid ∧ task.gen = peer.gen := by
    intro pid flag
    obtain ⟨roomId, peers, current, stored, inside⟩ :=
      SfuServer.inCurrentRoom_iff.mp (backed.atRest rest flag)
    obtain ⟨peer, entered⟩ := Option.isSome_iff_exists.mp inside
    refine ⟨peers, peer, by rw [SfuServer.roomPeersFor, current]; exact stored, entered, ?_⟩
    obtain ⟨own, _, ⟨task, running, same⟩ | ⟨id, connection, known, serving, _⟩⟩ :=
      lineage.entered peers pid peer entered
    · have mine := (lineage.running task running).1
      rw [same, own, Prod.mk.injEq] at mine
      exact ⟨task, running, mine.1.symm, same⟩
    · have still := rest id connection known
      cases point : connection.point <;> simp [point, Point.serving, Point.atRest] at serving still
  refine ⟨entry, ?_⟩
  intro pid last roomId latest opens id connection present bound idle raw sender recipient room sdp
    auth reply accepted
  obtain ⟨nobody, none⟩ := Negotiable.joining_atRest rest
  have openJoin : world.openJoin pid = some (last, roomId) :=
    Option.filter_eq_some_iff.mpr ⟨latest, opens⟩
  have current : world.sfu.currentRoom pid = some roomId := by
    apply (negotiable.session pid _ openJoin).resolve_right
    simp [nobody]
  have there : (world.sfu.roomPeers roomId).isSome = true := by
    apply (negotiable.room roomId (Negotiable.inUse_iff.mpr (.inl ⟨pid, last, openJoin⟩))).resolve_right
    simp [none]
  obtain ⟨peers, stored⟩ := Option.isSome_iff_exists.mp there
  obtain ⟨middle, handled, found, reads, known, bound', message, point, sfu, commands⟩ :=
    World.offer_finds_room hooks present bound idle current stored raw sender recipient room sdp
      accepted auth (some reply)
  cases flag : world.sfu.hasMedia pid with
  | true =>
    obtain ⟨peers', peer, named, entered, task, running, mine, gen⟩ := entry pid flag
    rw [SfuServer.roomPeersFor, current, Option.bind_some, stored] at named
    cases named
    rw [if_pos flag] at point
    obtain ⟨after, walked, handledAll, sfu', commands'⟩ :=
      World.offer_renegotiates known bound' point message (by rw [sfu]; exact entered) reply
    refine ⟨5, after, (reads _).trans walked, handledAll, .inl ⟨task, ?_, mine, ?_⟩⟩
    · rw [sfu', sfu]
      exact running
    · rw [commands', commands, gen]
  | false =>
    rw [flag, if_neg (by simp)] at point
    obtain ⟨after, walked, handledAll, task, running, mine, gen⟩ :=
      World.offer_negotiates known bound' point reply
    refine ⟨8, after, (reads _).trans walked, handledAll, .inr ⟨task, running, mine, ?_⟩⟩
    intro before
    have below := (lineage.running task before).2
    rw [gen, sfu] at below
    exact Nat.lt_irrefl _ below

/-- Two participants join and send offers; the first one's media task ends once its
connection is gone. -/
def servedRun : List Event :=
  .connect :: Event.firstJoin 1 ⟨1⟩ "a" ++ Event.offer 1 ⟨1⟩ "a" ++
    .connect :: Event.firstJoin 2 ⟨2⟩ "a" ++ Event.offer 2 ⟨2⟩ "a" ++
    .hangUp 1 :: Event.sections 1 10 ++
    [.mediaEnds { pid := ⟨1⟩, peers := 0, wsTx := 1, roomId := "a", gen := 1 }]

/-- After that run the second participant's flag finds its media task, and its next offer
is served. -/
theorem flag_finds_media_task_pair :
    let world := (walk (World.step .sfuDefault)
      (fun state event => keepsSessions .sfuDefault state event = true ∧
        keepsFlags state event = true) (World.new false) servedRun).getD (World.new false)
    world.sfu.hasMedia ⟨2⟩ = true ∧
      (∃ task ∈ world.sfu.mediaTasks, task.pid = ⟨2⟩) ∧
      ∃ count after, walk (World.step .sfuDefault) always world
          (.receive 2 "" (some (.offer ⟨2⟩ none "a" "sdp")) (.ok ()) true ::
            List.replicate count (.advance 2 (some "answer"))) = some after ∧
        after.task 2 = some (.idle, some ⟨2⟩) ∧ World.Served world after ⟨2⟩ "sdp" := by
  intro world
  have reached : Reaches (World.step .sfuDefault)
      (fun state event => keepsSessions .sfuDefault state event = true ∧
        keepsFlags state event = true) (World.new false) world :=
    walk_reaches_end _ _ _ _ (by decide +kernel)
  obtain ⟨flags, offers⟩ := flag_finds_media_task .sfuDefault false rfl reached (by decide +kernel)
  have flag : world.sfu.hasMedia ⟨2⟩ = true := by decide +kernel
  obtain ⟨_, _, _, _, task, running, mine, _⟩ := flags ⟨2⟩ flag
  have stands : (world.connections.lookup 2).map (fun connection =>
      (connection.participantId, connection.point.atRest && connection.point.isOpen)) =
        some (some ⟨2⟩, true) := by decide +kernel
  obtain ⟨connection, present, both⟩ := Option.map_eq_some_iff.mp stands
  simp only [Prod.mk.injEq, Bool.and_eq_true] at both
  have idle : connection.point = .idle := by
    cases point : connection.point <;> simp [point, Point.atRest, Point.isOpen] at both ⊢
  exact ⟨flag, ⟨task, running, mine⟩, offers ⟨2⟩ 2 "a" (by decide +kernel) (by decide +kernel) 2
    connection present both.1 idle "" ⟨2⟩ none "a" "sdp" (.ok ()) "answer" (by decide +kernel)⟩

/-- A participant joins and sends an offer, and its media task ends by itself: the flag
stays without an entry, and the next offer reaches no media task and starts none. -/
theorem flag_outlives_media_task :
    ∃ world, Reaches (World.step .sfuDefault) always (World.new false) world ∧
      (world.connections.Every fun _ connection => connection.point.atRest = true) ∧
      lastJoin ⟨1⟩ world.deeds = some (1, "a") ∧ world.isOpen 1 = true ∧
      world.sfu.hasMedia ⟨1⟩ = true ∧
      world.sfu.roomPeersFor ⟨1⟩ = some 0 ∧
      (world.sfu.peersOf 0).lookup ⟨1⟩ = none ∧
      world.sfu.mediaTasks = [] ∧
      ∃ after, walk (World.step .sfuDefault) always world
          (.receive 1 "" (some (.offer ⟨1⟩ none "a" "sdp")) (.ok ()) true ::
            List.replicate 4 (.advance 1 (some "answer"))) = some after ∧
        (after.connections.Every fun _ connection => connection.point.atRest = true) ∧
        after.commands = world.commands ∧ after.sfu.mediaTasks = [] := by
  let events := .connect :: Event.firstJoin 1 ⟨1⟩ "a" ++ Event.offer 1 ⟨1⟩ "a" ++
    [.mediaEnds { pid := ⟨1⟩, peers := 0, wsTx := 1, roomId := "a", gen := 1 }]
  let world := (walk (World.step .sfuDefault) always (World.new false) events).getD (World.new false)
  let offer : List Event := .receive 1 "" (some (.offer ⟨1⟩ none "a" "sdp")) (.ok ()) true ::
    List.replicate 4 (.advance 1 (some "answer"))
  obtain ⟨after, walked⟩ := Option.isSome_iff_exists.mp
    (show (walk (World.step .sfuDefault) always world offer).isSome = true by decide +kernel)
  have same : after = (walk (World.step .sfuDefault) always world offer).getD world := by
    rw [walked]
    rfl
  refine ⟨world, walk_reaches_end _ _ _ _ (by decide +kernel), ?_, ?_, ?_, ?_, ?_, ?_, ?_, after,
    walked, ?_, ?_, ?_⟩
  all_goals first | decide +kernel | (rw [same]; decide +kernel)

end Seameet

import Seameet.Library.Runs
import Seameet.Engine.Outcome

/-!
# Registered peers and members

Who is a member is held by the signaling state, whose media is forwarded in a
room by the media server's map of the room, and the two are changed by different
sections. Between them somebody registered may be no member, but then a handler
is under way that will seat it again or drop it: the participant is accounted
for. In the same way a room the media server has may be missing from the
signaling state only while a handler is under way that makes or drops it.

Some sections take the last account away: a dispatched `Leave` and a stale end
drop nobody from the map, a pruning removes members whose own cleanup is not
under way yet, and an offer enters whoever sends it. In runs where they find
nobody unaccounted for, whoever is registered in a room is a member of it
whenever no handler is under way.
-/

namespace Seameet

open Library

namespace LeaveStage

/-- The cleanup has yet to take the participant out of a room's present map. -/
def reaches (roomId : RoomId) (present : Option PeersRef) : LeaveStage → Bool
  | .announce _ affected | .routes affected | .allPeers affected =>
      decide (roomId ∈ affected.map Prod.fst)
  | .lookup next _ rest => decide (roomId = next ∨ roomId ∈ rest.map Prod.fst)
  | .stopScreen peers next _ rest | .dropPeer peers next _ rest =>
      decide ((roomId = next ∧ present = some peers) ∨ roomId ∈ rest.map Prod.fst)
  | .dropRoom _ rest => decide (roomId ∈ rest.map Prod.fst)
  | _ => false

/-- The cleanup has yet to drop a room. -/
def dropsRoom (roomId : RoomId) : LeaveStage → Bool
  | .announce _ affected | .routes affected | .allPeers affected =>
      decide ((roomId, true) ∈ affected)
  | .lookup next gone rest | .stopScreen _ next gone rest | .dropPeer _ next gone rest =>
      decide ((roomId, true) ∈ (next, gone) :: rest)
  | .dropRoom next rest => decide (roomId = next ∨ (roomId, true) ∈ rest)
  | _ => false

end LeaveStage

/-- The stale check or the disconnect of a cleanup is still to come. -/
def Point.beforeDisconnect : Point → Bool
  | .leaving .checkStale | .leaving .disconnect => true
  | _ => false

namespace Connection

/-- The connection's handler will yet seat the participant in the room or drop it
from the room's present map: it joins the room for the participant, or cleans up
for it and the room is, or will be, among the affected ones. -/
def accounts (participant : ParticipantId) (roomId : RoomId) (listed : Bool)
    (present : Option PeersRef) (connection : Connection) : Bool :=
  match connection.point with
  | .joining _ request _ =>
      decide (request.participant = participant ∧ request.roomId = roomId)
  | .leaving stage =>
      decide (connection.participantId = some participant) &&
        ((connection.point.beforeDisconnect && listed) || stage.reaches roomId present)
  | _ => false

/-- The connection's handler will yet make sure of the room in the signaling
state, or drop it from the media server. -/
def holdsRoom (roomId : RoomId) (connection : Connection) : Bool :=
  match connection.point with
  | .joining _ request stage => decide (request.roomId = roomId) && stage.ensured
  | .leaving stage => stage.dropsRoom roomId
  | _ => false

end Connection

namespace World

/-- Every connection counts that does not rely on the index any more. -/
def settled : WsSink → Connection → Bool := fun _ connection => !connection.point.beforeDisconnect

/-- One of the connections that count accounts for a participant in a room. -/
def awaited (world : World) (counts : WsSink → Connection → Bool) (participant : ParticipantId)
    (roomId : RoomId) : Bool :=
  decide (world.connections.Any fun id connection =>
    counts id connection = true ∧
      connection.accounts participant roomId
        (decide (world.signaling.listed participant roomId)) (world.sfu.roomPeers roomId) = true)

/-- The participant is a member of the room with an open channel. -/
def liveSeat (world : World) (participant : ParticipantId) (roomId : RoomId) : Bool :=
  match world.signaling.seat roomId participant with
  | some sink => !world.isClosed sink
  | none => false

/-- The participant is a member of the room or accounted for. -/
def covered (world : World) (counts : WsSink → Connection → Bool) (participant : ParticipantId)
    (roomId : RoomId) : Bool :=
  (world.signaling.seat roomId participant).isSome || world.awaited counts participant roomId

/-- Some handler will yet make or drop the room. -/
def held (world : World) (roomId : RoomId) : Bool :=
  decide (world.connections.Any fun _ connection => connection.holdsRoom roomId = true)

end World

/-- The step leaves nobody registered unaccounted for.

A pruning removes a registered member only if a handler accounts for it. After
the dispatch of a `Join`, whoever is registered in its room is the participant it
seats, a member with an open channel, or accounted for by another handler. A
`Leave` finds its participant not registered in the room or accounted for by a
`Join` or a disconnect that is already carried out; and if it empties a room the
media server has, a handler is about to make or drop the room. A peer is entered
into the map of a room only if it is a member or accounted for. A stale end finds
its participant so in every room it is registered in, without this connection. -/
def keepsAccounts (config : Config) (world : World) : Event → Bool
  | .advance id _ =>
      match world.task id with
      | some (.joining _ request .prune, _) =>
          world.sfu.everyRegistered request.roomId fun pid =>
            world.liveSeat pid request.roomId || world.awaited World.everyone pid request.roomId
      | some (.joining _ request .dispatch, _) =>
          world.sfu.everyRegistered request.roomId fun pid =>
            (decide (pid = request.participant) &&
              Connection.admits config world request.roomId) ||
              world.liveSeat pid request.roomId ||
              world.awaited (World.others id) pid request.roomId
      | some (.handling handled .dispatch, _) =>
          match handled.message with
          | .leave participant roomId =>
              (!world.sfu.registered roomId participant ||
                world.awaited World.settled participant roomId) &&
              (!world.signaling.soleMember participant roomId ||
                (world.sfu.roomPeers roomId).isNone || world.held roomId)
          | _ => true
      | some (.handling _ (.register peers _), some pid) =>
          world.sfu.rooms.keys.all fun roomId =>
            !decide (world.sfu.roomPeers roomId = some peers) ||
              world.covered World.everyone pid roomId
      | some (.leaving .checkStale, some pid) =>
          decide (world.signaling.connectionGen pid = some id) ||
            world.sfu.everyRoomOf pid fun roomId => world.covered (World.others id) pid roomId
      | _ => true
  | _ => true

/-- Whoever is registered is a member or accounted for, and every room of the media
server exists or is held by a handler. -/
structure Accounted (world : World) : Prop where
  peers : ∀ roomId participant, world.sfu.registered roomId participant = true →
    world.covered World.everyone participant roomId = true
  rooms : ∀ roomId, (world.sfu.roomPeers roomId).isSome = true →
    world.signaling.hasRoom roomId = true ∨ world.held roomId = true

namespace Accounted

variable {config : Config} {world : World} {id : WsSink} {connection : Connection}
variable {participant : ParticipantId} {roomId : RoomId}

/-- A calm connection accounts for nobody. -/
theorem calm_accounts (calm : connection.point.calm = true) (listed : Bool)
    (present : Option PeersRef) :
    connection.accounts participant roomId listed present = false := by
  cases point : connection.point with
  | joining | leaving | ended => simp [point, Point.calm] at calm
  | _ => simp [Connection.accounts, point]

/-- A calm connection holds no room. -/
theorem calm_holds (calm : connection.point.calm = true) :
    connection.holdsRoom roomId = false := by
  cases point : connection.point with
  | joining | leaving | ended => simp [point, Point.calm] at calm
  | _ => simp [Connection.holdsRoom, point]

/-- An account given by a connection that counts. -/
theorem awaited_iff (counts : WsSink → Connection → Bool) :
    world.awaited counts participant roomId = true ↔
      ∃ id connection, world.connections.lookup id = some connection ∧
        counts id connection = true ∧
        connection.accounts participant roomId
          (decide (world.signaling.listed participant roomId)) (world.sfu.roomPeers roomId) =
            true := by
  rw [World.awaited, decide_eq_true_eq]
  rfl

/-- Accounts after a section: those of the other connections, as far as they stay
good, and what becomes of the connection's own. -/
theorem awaited_commit {turn : Turn} {counts : WsSink → Connection → Bool}
    (awaited : world.awaited counts participant roomId = true)
    (present : world.connections.lookup id = some connection)
    (own : counts id connection = true →
      connection.accounts participant roomId
        (decide (world.signaling.listed participant roomId)) (world.sfu.roomPeers roomId) = true →
      (world.commit id turn).covered World.everyone participant roomId = true)
    (kept : ∀ other earlier, counts other earlier = true →
      earlier.accounts participant roomId
        (decide (world.signaling.listed participant roomId)) (world.sfu.roomPeers roomId) = true →
      earlier.accounts participant roomId
        (decide (turn.signaling.listed participant roomId)) (turn.sfu.roomPeers roomId) = true) :
    (world.commit id turn).covered World.everyone participant roomId = true := by
  obtain ⟨other, earlier, found, counted, accounts⟩ := (awaited_iff counts).mp awaited
  by_cases same : other = id
  · subst same
    rw [present] at found
    cases found
    exact own counted accounts
  · rw [World.covered, Bool.or_eq_true]
    right
    refine (awaited_iff World.everyone).mpr ⟨other, earlier, ?_, rfl, kept other earlier counted
      accounts⟩
    rw [World.lookup_commit, if_neg same]
    exact found

/-- The connection's own account after a section. -/
theorem awaited_own {turn : Turn}
    (accounts : turn.connection.accounts participant roomId
      (decide (turn.signaling.listed participant roomId)) (turn.sfu.roomPeers roomId) = true) :
    (world.commit id turn).covered World.everyone participant roomId = true := by
  rw [World.covered, Bool.or_eq_true]
  right
  refine (awaited_iff World.everyone).mpr ⟨id, turn.connection, ?_, rfl, accounts⟩
  rw [World.lookup_commit, if_pos rfl]

/-- A seat after a section. -/
theorem covered_seat {turn : Turn}
    (seated : (turn.signaling.seat roomId participant).isSome = true) :
    (world.commit id turn).covered World.everyone participant roomId = true := by
  rw [World.covered, Bool.or_eq_true]
  exact .inl seated

/-- Coverage after a section that keeps the seat, the index and the room's map. -/
theorem covered_commit {turn : Turn} {counts : WsSink → Connection → Bool}
    (covered : world.covered counts participant roomId = true)
    (present : world.connections.lookup id = some connection)
    (seat : turn.signaling.seat roomId participant = world.signaling.seat roomId participant)
    (listed : turn.signaling.listed participant roomId ↔
      world.signaling.listed participant roomId)
    (map : turn.sfu.roomPeers roomId = world.sfu.roomPeers roomId)
    (own : counts id connection = true →
      connection.accounts participant roomId
        (decide (world.signaling.listed participant roomId)) (world.sfu.roomPeers roomId) = true →
      turn.connection.accounts participant roomId
        (decide (world.signaling.listed participant roomId)) (world.sfu.roomPeers roomId) = true) :
    (world.commit id turn).covered World.everyone participant roomId = true := by
  rw [World.covered, Bool.or_eq_true] at covered
  rcases covered with seated | awaited
  · exact covered_seat (by rwa [seat])
  · apply awaited_commit awaited present
    · intro counted accounts
      apply awaited_own
      simpa only [listed, map] using own counted accounts
    · intro other earlier _ accounts
      simpa only [listed, map] using accounts

/-- A room held after a section: by another connection, or by this one. -/
theorem held_commit {turn : Turn} (held : world.held roomId = true)
    (present : world.connections.lookup id = some connection)
    (own : connection.holdsRoom roomId = true → turn.connection.holdsRoom roomId = true) :
    (world.commit id turn).held roomId = true := by
  rw [World.held, decide_eq_true_eq] at held ⊢
  obtain ⟨other, earlier, found, holds⟩ := held
  by_cases same : other = id
  · subst same
    rw [present] at found
    cases found
    exact ⟨_, turn.connection, by rw [World.lookup_commit, if_pos rfl], own holds⟩
  · exact ⟨other, earlier, by rwa [World.lookup_commit, if_neg same], holds⟩

/-- The connection itself holds a room after a section. -/
theorem held_own {turn : Turn} (holds : turn.connection.holdsRoom roomId = true) :
    (world.commit id turn).held roomId = true := by
  rw [World.held, decide_eq_true_eq]
  exact ⟨id, turn.connection, by rw [World.lookup_commit, if_pos rfl], holds⟩

/-- A section that seats and lists as before, registers nobody and makes no room,
and in which the connection goes on accounting for whom it accounted for. -/
theorem quiet (accounted : Accounted world)
    (present : world.connections.lookup id = some connection) (turn : Turn)
    (seats : world.signaling.SameSeats turn.signaling)
    (registered : ∀ roomId participant, turn.sfu.registered roomId participant = true →
      world.sfu.registered roomId participant = true ∧
        turn.sfu.roomPeers roomId = world.sfu.roomPeers roomId)
    (rooms : ∀ roomId, (turn.sfu.roomPeers roomId).isSome = true →
      (world.sfu.roomPeers roomId).isSome = true)
    (accounts : ∀ roomId participant, turn.sfu.registered roomId participant = true →
      connection.accounts participant roomId
        (decide (world.signaling.listed participant roomId)) (world.sfu.roomPeers roomId) = true →
      turn.connection.accounts participant roomId
        (decide (world.signaling.listed participant roomId)) (world.sfu.roomPeers roomId) = true)
    (holds : ∀ roomId, (turn.sfu.roomPeers roomId).isSome = true →
      connection.holdsRoom roomId = true → turn.connection.holdsRoom roomId = true) :
    Accounted (world.commit id turn) := by
  constructor
  · intro roomId participant present'
    obtain ⟨before, map⟩ := registered roomId participant present'
    exact covered_commit (accounted.peers roomId participant before) present
      (seats.seat roomId participant) (seats.listed participant roomId) map
      fun _ => accounts roomId participant present'
  · intro roomId present'
    rcases accounted.rooms roomId (rooms roomId present') with there | held
    · left
      exact (seats.hasRoom roomId).trans there
    · right
      exact held_commit held present (holds roomId present')

/-- The same for a section that leaves the media server's rooms and maps alone. -/
theorem still (accounted : Accounted world)
    (present : world.connections.lookup id = some connection) (turn : Turn)
    (seats : world.signaling.SameSeats turn.signaling)
    (registry : world.sfu.SameRegistry turn.sfu)
    (accounts : ∀ roomId participant listed present,
      connection.accounts participant roomId listed present = true →
      turn.connection.accounts participant roomId listed present = true)
    (holds : ∀ roomId, connection.holdsRoom roomId = true →
      turn.connection.holdsRoom roomId = true) :
    Accounted (world.commit id turn) := by
  have map : ∀ roomId, turn.sfu.roomPeers roomId = world.sfu.roomPeers roomId := by
    intro roomId
    simp only [SfuServer.roomPeers, registry.rooms]
  have registered : ∀ roomId participant, turn.sfu.registered roomId participant =
      world.sfu.registered roomId participant := by
    intro roomId participant
    simp only [SfuServer.registered, map, registry.inMap]
  apply accounted.quiet present turn seats
  · intro roomId participant there
    exact ⟨by rwa [registered] at there, map roomId⟩
  · intro roomId there
    rwa [map] at there
  · intro roomId participant _
    exact accounts roomId participant _ _
  · intro roomId _
    exact holds roomId

/-- A section of a calm connection that seats and registers as before. -/
theorem calm (accounted : Accounted world)
    (present : world.connections.lookup id = some connection) (turn : Turn)
    (calm : connection.point.calm = true) (seats : world.signaling.SameSeats turn.signaling)
    (registry : world.sfu.SameRegistry turn.sfu) : Accounted (world.commit id turn) := by
  apply accounted.still present turn seats registry
  · intro roomId participant listed map accounts
    simp [calm_accounts calm listed map] at accounts
  · intro roomId holds
    simp [calm_holds calm] at holds

/-- What happens at the top of a loop accounts for nobody less. -/
theorem arrive (accounted : Accounted world)
    (present : world.connections.lookup id = some connection) {turn : Turn}
    (arrival : Arrival config world id connection turn) : Accounted (world.commit id turn) := by
  cases arrival with
  | works _ idle calm first same signaling sfu deed
  | accepts _ _ idle unbound moved signaling sfu deed
  | ends _ idle unbound moved signaling sfu deed
  | hangsUp _ _ idle bound moved signaling sfu deed =>
    exact accounted.calm present turn (by rw [idle]; rfl) (signaling ▸ .refl _) (sfu ▸ .refl _)
  | joins request pid idle bound =>
    exact accounted.calm present _ (by rw [idle]; rfl) (.refl _) (.refl _)

section Join

variable (pid : ParticipantId) (first : Bool) (request : JoinRequest)

/-- A `Join` on its way goes on accounting for whom it accounted for. -/
theorem accounts_joining {listed : Bool} {present : Option PeersRef} {stage next : JoinStage}
    {moved : Connection} (point : connection.point = .joining first request stage)
    (on : moved.point = .joining first request next)
    (accounts : connection.accounts participant roomId listed present = true) :
    moved.accounts participant roomId listed present = true := by
  unfold Connection.accounts at accounts ⊢
  rw [point] at accounts
  rw [on]
  exact accounts

/-- A section of a `Join` handler that only reads, or stores the session. -/
theorem join_on (accounted : Accounted world)
    (present : world.connections.lookup id = some connection) (turn : Turn)
    {stage next : JoinStage} (point : connection.point = .joining first request stage)
    (on : turn.connection.point = .joining first request next)
    (ensured : stage.ensured = true → next.ensured = true)
    (signaling : turn.signaling = world.signaling)
    (rooms : turn.sfu.rooms = world.sfu.rooms) (maps : turn.sfu.maps = world.sfu.maps) :
    Accounted (world.commit id turn) := by
  apply accounted.quiet present turn (signaling ▸ .refl _)
  · intro roomId participant there
    simp only [SfuServer.registered, SfuServer.roomPeers, SfuServer.inMap, SfuServer.peersOf, rooms,
      maps] at there ⊢
    exact ⟨there, trivial⟩
  · intro roomId there
    rwa [SfuServer.roomPeers, rooms] at there
  · intro roomId participant _ accounts
    exact accounts_joining first request point on accounts
  · intro roomId _ holds
    unfold Connection.holdsRoom at holds ⊢
    rw [point] at holds
    rw [on]
    simp only [Bool.and_eq_true] at holds ⊢
    exact ⟨holds.1, ensured holds.2⟩

/-- A member with an open channel keeps its seat when closed members are removed. -/
theorem seat_pruned_of_live (live : world.liveSeat participant roomId = true) (pruning : RoomId) :
    ((world.pruned pruning).seat roomId participant).isSome = true := by
  unfold World.liveSeat at live
  rw [World.pruned, SignalingState.seat_pruneStale]
  cases seated : world.signaling.seat roomId participant with
  | none => simp [seated] at live
  | some sink =>
    by_cases same : roomId = pruning
    · subst same
      rw [if_pos rfl, seated, Option.filter_some, if_pos]
      · rfl
      · simpa [seated] using live
    · rw [if_neg same]
      rfl

/-- A `Join` handler removes the closed members of its room, each of which is
accounted for if it is registered. -/
theorem join_prune (accounted : Accounted world)
    (present : world.connections.lookup id = some connection)
    (point : connection.point = .joining first request .prune)
    (safe : ∀ participant, world.sfu.registered request.roomId participant = true →
      world.liveSeat participant request.roomId = true ∨
        world.awaited World.everyone participant request.roomId = true) :
    Accounted (world.commit id (connection.joinSection config world id pid first request .prune)) := by
  constructor
  · intro roomId participant there
    have onward : world.awaited World.everyone participant roomId = true →
        (world.commit id (connection.joinSection config world id pid first request
          .prune)).covered World.everyone participant roomId = true := by
      intro awaited
      apply awaited_commit awaited present
      · intro _ accounts
        exact awaited_own (accounts_joining first request point rfl accounts)
      · intro other earlier _ accounts
        exact accounts
    have covered := accounted.peers roomId participant there
    rw [World.covered, Bool.or_eq_true] at covered
    rcases covered with seated | awaited
    · by_cases same : roomId = request.roomId
      · subst same
        rcases safe participant there with live | awaited
        · exact covered_seat (seat_pruned_of_live live _)
        · exact onward awaited
      · apply covered_seat
        have kept : (world.pruned request.roomId).seat roomId participant =
            world.signaling.seat roomId participant := by
          rw [World.pruned, SignalingState.seat_pruneStale, if_neg same]
        rw [← kept] at seated
        exact seated
    · exact onward awaited
  · intro roomId there
    rcases accounted.rooms roomId there with exists_ | held
    · left
      exact (world.signaling.hasRoom_updateRoom request.roomId roomId _).trans exists_
    · right
      apply held_commit held present
      intro holds
      unfold Connection.holdsRoom at holds
      simp [point, JoinStage.ensured] at holds

/-- An account survives when the index lists more. -/
theorem accounts_mono {listed later : Bool} {present : Option PeersRef}
    (more : listed = true → later = true)
    (accounts : connection.accounts participant roomId listed present = true) :
    connection.accounts participant roomId later present = true := by
  unfold Connection.accounts at accounts ⊢
  split at accounts
  · exact accounts
  · simp only [Bool.and_eq_true, Bool.or_eq_true] at accounts ⊢
    exact ⟨accounts.1, accounts.2.imp (fun both => ⟨both.1, more both.2⟩) (fun reaches => reaches)⟩
  · exact accounts

/-- The dispatch of a `Join`, after which every registered participant of its room
is seated by it, a member with an open channel, or accounted for by another
connection. -/
theorem join_dispatch (accounted : Accounted world)
    (present : world.connections.lookup id = some connection)
    (point : connection.point = .joining first request .dispatch)
    (safe : ∀ participant, world.sfu.registered request.roomId participant = true →
      (participant = request.participant ∧ Connection.admits config world request.roomId = true) ∨
        world.liveSeat participant request.roomId = true ∨
        world.awaited (World.others id) participant request.roomId = true) :
    Accounted (world.commit id
      (connection.joinSection config world id pid first request .dispatch)) := by
  -- Either the participant is seated in the pruned state, or the state is just pruned.
  obtain ⟨seats, listed, rooms⟩ :
      (∀ roomId participant, ((connection.joinSection config world id pid first request
          .dispatch).signaling.seat roomId participant).isSome = true ↔
        ((world.pruned request.roomId).seat roomId participant).isSome = true ∨
          (Connection.admits config world request.roomId = true ∧ roomId = request.roomId ∧
            participant = request.participant)) ∧
      (∀ participant roomId, world.signaling.listed participant roomId →
        (connection.joinSection config world id pid first request
          .dispatch).signaling.listed participant roomId) ∧
      ∀ roomId, (world.signaling.hasRoom roomId = true ∨ roomId = request.roomId) →
        (connection.joinSection config world id pid first request
          .dispatch).signaling.hasRoom roomId = true := by
    have kept : ∀ roomId, (world.pruned request.roomId).hasRoom roomId =
        world.signaling.hasRoom roomId :=
      fun roomId => world.signaling.hasRoom_updateRoom request.roomId roomId _
    cases admitted : Connection.admits config world request.roomId with
    | true =>
      have signaling :=
        (connection.joinSection_admitted config world id pid first request admitted).1
      rw [signaling]
      refine ⟨?_, ?_, ?_⟩
      · intro roomId participant
        rw [SignalingState.seat_join]
        split
        · rename_i own
          simp [own.1, own.2]
        · simp_all
      · intro participant roomId known
        exact (SignalingState.listed_join _ _ _ _ _ _ _).mpr (.inl known)
      · intro roomId there
        rw [SignalingState.hasRoom_join, kept]
        rcases there with exists_ | own
        · simp [exists_]
        · simp [own]
    | false =>
      obtain ⟨signaling, _, there⟩ :=
        connection.joinSection_refused config world id pid first request admitted
      rw [signaling]
      refine ⟨by simp, fun _ _ known => known, ?_⟩
      intro roomId exists_
      rw [kept]
      rcases exists_ with exists_ | rfl
      · exact exists_
      · exact there
  constructor
  · intro roomId participant there
    have onward : ∀ counts, world.awaited counts participant roomId = true →
        (counts id connection = true → roomId ≠ request.roomId) →
        (world.commit id (connection.joinSection config world id pid first request
          .dispatch)).covered World.everyone participant roomId = true := by
      intro counts awaited elsewhere
      apply awaited_commit awaited present
      · intro counted accounts
        unfold Connection.accounts at accounts
        simp only [point, decide_eq_true_eq] at accounts
        exact absurd accounts.2.symm (elsewhere counted)
      · intro other earlier _ accounts
        exact accounts_mono (by simpa using listed participant roomId) accounts
    by_cases same : roomId = request.roomId
    · subst same
      rcases safe participant there with ⟨own, admitted⟩ | live | awaited
      · exact covered_seat ((seats _ _).mpr (.inr ⟨admitted, rfl, own⟩))
      · exact covered_seat ((seats _ _).mpr (.inl (seat_pruned_of_live live _)))
      · exact onward _ awaited (by simp [World.others])
    · have covered := accounted.peers roomId participant there
      rw [World.covered, Bool.or_eq_true] at covered
      rcases covered with seated | awaited
      · apply covered_seat
        refine (seats _ _).mpr (.inl ?_)
        rw [World.pruned, SignalingState.seat_pruneStale, if_neg same]
        exact seated
      · exact onward _ awaited fun _ => same
  · intro roomId there
    rcases accounted.rooms roomId there with exists_ | held
    · exact .inl (rooms roomId (.inl exists_))
    · by_cases same : roomId = request.roomId
      · exact .inl (rooms roomId (.inr same))
      · right
        apply held_commit held present
        intro holds
        unfold Connection.holdsRoom at holds
        simp [point, Ne.symm same] at holds

/-- A `Join` handler makes sure of its room, and holds it from then on. -/
theorem join_ensure (accounted : Accounted world)
    (present : world.connections.lookup id = some connection)
    (point : connection.point = .joining first request .ensureRoom) :
    Accounted (world.commit id
      (connection.joinSection config world id pid first request .ensureRoom)) := by
  constructor
  · intro roomId participant there
    obtain ⟨before, map⟩ := world.sfu.registered_of_ensureRoom participant request.roomId there
    exact covered_commit (accounted.peers roomId participant before) present rfl .rfl map
      fun _ accounts => accounts_joining first request point rfl accounts
  · intro roomId there
    by_cases same : roomId = request.roomId
    · right
      apply held_own
      simp [Connection.joinSection, World.turn, Connection.goto, Connection.holdsRoom,
        JoinStage.ensured, same]
    · have before : (world.sfu.roomPeers roomId).isSome = true := by
        have there : ((world.sfu.ensureRoom request.roomId).roomPeers roomId).isSome = true := there
        rw [SfuServer.roomPeers] at there ⊢
        unfold SfuServer.ensureRoom at there
        split at there
        · exact there
        · simpa only [Table.lookup_insert_eq, if_neg same] using there
      rcases accounted.rooms roomId before with exists_ | held
      · exact .inl exists_
      · right
        apply held_commit held present
        intro holds
        unfold Connection.holdsRoom at holds
        simp [point, JoinStage.ensured] at holds

/-- Every section of a `Join` handler. -/
theorem join (accounted : Accounted world)
    (present : world.connections.lookup id = some connection) (stage : JoinStage)
    (point : connection.point = .joining first request stage)
    (kept : keepsAccounts config world (.advance id none) = true) :
    Accounted (world.commit id (connection.joinSection config world id pid first request stage)) := by
  cases stage with
  | prune =>
    apply accounted.join_prune pid first request present point
    intro participant there
    simp only [keepsAccounts, World.task, present, Option.map_some, point,
      SfuServer.everyRegistered_iff, Bool.or_eq_true] at kept
    exact kept participant there
  | ensureRoom => exact accounted.join_ensure pid first request present point
  | dispatch =>
    apply accounted.join_dispatch pid first request present point
    intro participant there
    simp only [keepsAccounts, World.task, present, Option.map_some, point,
      SfuServer.everyRegistered_iff, Bool.or_eq_true, Bool.and_eq_true, decide_eq_true_eq] at kept
    have safe := kept participant there
    tauto
  | notifyPruned pruned =>
    exact accounted.join_on first request present _ point rfl (by simp [JoinStage.ensured]) rfl rfl
      rfl
  | notifyRejoin pruned =>
    exact accounted.join_on first request present _ point rfl (by simp [JoinStage.ensured]) rfl rfl
      rfl
  | storeSession => exact accounted.join_on first request present _ point rfl (fun _ => rfl) rfl rfl rfl
  | announceCount => exact accounted.join_on first request present _ point rfl (fun _ => rfl) rfl rfl rfl

end Join

/-- A dispatched `Leave`, whose participant is not registered in the room or
accounted for without the index, and which empties no room the media server has
unless a handler holds it. -/
theorem part (accounted : Accounted world)
    (present : world.connections.lookup id = some connection) (named : ParticipantId)
    (left : RoomId) (turn : Turn) (calm : connection.point.calm = true)
    (signaling : turn.signaling = (world.signaling.leave named left).2)
    (sfu : turn.sfu = world.sfu)
    (peer : world.sfu.registered left named = true →
      world.awaited World.settled named left = true)
    (room : world.signaling.soleMember named left = true →
      (world.sfu.roomPeers left).isSome = true → world.held left = true) :
    Accounted (world.commit id turn) := by
  constructor
  · intro roomId participant there
    have there : world.sfu.registered roomId participant = true := by rwa [← sfu]
    by_cases own : roomId = left ∧ participant = named
    · obtain ⟨rfl, rfl⟩ := own
      apply awaited_commit (peer there) present
      · intro _ accounts
        simp [calm_accounts calm] at accounts
      · intro other earlier settled accounts
        simp only [World.settled, Bool.not_eq_true'] at settled
        unfold Connection.accounts at accounts ⊢
        rw [sfu]
        split at accounts
        · exact accounts
        · simpa [settled] using accounts
        · exact accounts
    · apply covered_commit (accounted.peers roomId participant there) present
      · rw [signaling, SignalingState.seat_leave, if_neg own]
      · rw [signaling, SignalingState.listed_leave]
        tauto
      · rw [sfu]
      · intro _ accounts
        simp [calm_accounts calm] at accounts
  · intro roomId there
    have there : (world.sfu.roomPeers roomId).isSome = true := by rwa [← sfu]
    have onward : world.held roomId = true → (world.commit id turn).held roomId = true := by
      intro held
      apply held_commit held present
      intro holds
      simp [calm_holds calm] at holds
    rcases accounted.rooms roomId there with exists_ | held
    · cases gone : (world.signaling.leave named left).2.hasRoom roomId with
      | true =>
        left
        rw [← gone, ← signaling]
        rfl
      | false =>
        by_cases same : roomId = left
        · subst same
          exact .inr (onward (room (world.signaling.sole_of_leave named roomId exists_ gone) there))
        · rw [SignalingState.hasRoom_leave, if_neg same, exists_] at gone
          simp at gone
    · exact .inr (onward held)

/-- A peer is entered into a map; in every room that names the map it is covered. -/
theorem offer (accounted : Accounted world)
    (present : world.connections.lookup id = some connection) (pid : ParticipantId)
    (peers : PeersRef) (peer : SfuPeer) (turn : Turn) (calm : connection.point.calm = true)
    (signaling : turn.signaling = world.signaling)
    (sfu : turn.sfu = world.sfu.register peers pid peer)
    (entitled : ∀ roomId, world.sfu.roomPeers roomId = some peers →
      world.covered World.everyone pid roomId = true) :
    Accounted (world.commit id turn) := by
  have map : ∀ roomId, turn.sfu.roomPeers roomId = world.sfu.roomPeers roomId := by
    intro roomId
    rw [sfu]
    rfl
  constructor
  · intro roomId participant there
    have covered : world.covered World.everyone participant roomId = true := by
      obtain ⟨named, names, entered⟩ := (SfuServer.registered_iff _ _ _).mp there
      have names : world.sfu.roomPeers roomId = some named := by
        rw [← map]
        exact names
      have entered : turn.sfu.inMap named participant = true := entered
      rw [sfu, SfuServer.inMap_register, Bool.or_eq_true, decide_eq_true_eq] at entered
      rcases entered with ⟨rfl, rfl⟩ | before
      · exact entitled roomId names
      · exact accounted.peers roomId participant
          ((SfuServer.registered_iff _ _ _).mpr ⟨named, names, before⟩)
    apply covered_commit covered present (by rw [signaling]) (by rw [signaling]) (map roomId)
    intro _ accounts
    simp [calm_accounts calm] at accounts
  · intro roomId there
    have there : (world.sfu.roomPeers roomId).isSome = true := by
      rw [← map]
      exact there
    rcases accounted.rooms roomId there with exists_ | held
    · left
      rw [← exists_, ← signaling]
      rfl
    · right
      apply held_commit held present
      intro holds
      simp [calm_holds calm] at holds

end Accounted

end Seameet

import Seameet.Facade.Room

/-!
# How long a participant stays, and how many there are

A call that has returned its handle has put its entry into the map. `Tenured`
keeps, beside the room, the call each identifier is owed to: the call that
inserted last, until the participant is removed, the room is closed, or the
call's own connection ends. The entry stays that long exactly when no forwarding
task, come to its cleanup, finds its identifier owed to somebody: the cleanup
names the identifier only, and takes whatever entry stands there.

The capacity is checked before the socket is bound and not again at the
insertion, so it holds exactly as long as every insertion of a new identifier
still finds room.
-/

namespace Seameet.Facade

open Library

/-- A room with the call each identifier is owed to. -/
structure Tenured where
  room : Room
  tenants : Table ParticipantId Nat

namespace Tenured

/-- An empty room owes nothing. -/
def new (config : RoomConfig) : Tenured := { room := .new config, tenants := ∅ }

/-- The identifiers owed after a step. A call whose connection ended before its
insertion is owed nothing. -/
def tenantsAfter (tenured : Tenured) : RoomStep → Table ParticipantId Nat
  | .inserts call =>
      match tenured.room.connections[call]? with
      | some connection =>
          if connection.phase.task = some .forwarding then tenured.tenants.insert connection.id call
          else tenured.tenants.erase connection.id
      | none => tenured.tenants
  | .ends call _ => tenured.tenants.retain fun _ tenant => tenant ≠ call
  | .removes id => tenured.tenants.erase id
  | .closes => ∅
  | _ => tenured.tenants

/-- A step of the room. -/
def step (tenured : Tenured) (event : RoomStep) : Option Tenured :=
  (tenured.room.step event).map fun room => { room, tenants := tenured.tenantsAfter event }

/-- Every identifier that is owed to a call is in the room, with that call's handle. -/
def Durable (tenured : Tenured) : Prop :=
  ∀ id call, tenured.tenants.lookup id = some call →
    tenured.room.hasParticipant id = true ∧ tenured.room.getParticipant id = some ⟨id, call⟩

/-- A forwarding task that comes to its cleanup finds its identifier owed to no call. -/
def Careful (tenured : Tenured) : RoomStep → Prop
  | .cleans call =>
      ∀ connection, tenured.room.connections[call]? = some connection →
        tenured.tenants.lookup connection.id = none
  | _ => True

/-- Only an insertion makes an identifier owed. -/
theorem tenants_of_other (tenured : Tenured) (event : RoomStep) (other : ∀ call, event ≠ .inserts call)
    (id : ParticipantId) (call : Nat)
    (owed : (tenured.tenantsAfter event).lookup id = some call) :
    tenured.tenants.lookup id = some call := by
  cases event with
  | inserts call => exact absurd rfl (other call)
  | ends ended stopped =>
    simp only [tenantsAfter, Table.lookup_retain, Option.filter_eq_some_iff] at owed
    exact owed.1
  | removes removed =>
    simp only [tenantsAfter, Table.lookup_erase_eq] at owed
    split at owed
    · cases owed
    · exact owed
  | closes => simp [tenantsAfter] at owed
  | _ => exact owed

/-- An identifier of the map is in the room with its entry's handle. -/
theorem present_of_lookup {room : Room} {id : ParticipantId} {handle : RoomHandle}
    (stored : room.participants.lookup id = some ⟨handle⟩) :
    room.hasParticipant id = true ∧ room.getParticipant id = some handle := by
  simp [Room.hasParticipant, Room.getParticipant, stored]

/-- From a durable state, a step keeps the tenants exactly when it is careful. -/
theorem careful_iff_durable {before after : Tenured} {event : RoomStep} (durable : before.Durable)
    (stepped : before.step event = some after) : before.Careful event ↔ after.Durable := by
  obtain ⟨room, moved, rfl⟩ := Option.map_eq_some_iff.mp stepped
  cases Room.step_remapped moved with
  | inserted call connection found spawned entered =>
    refine iff_of_true trivial fun id tenant owed => ?_
    have reads : room.participants.lookup id =
        if id = connection.id then some ⟨⟨connection.id, call⟩⟩ else before.room.participants.lookup id := by
      rw [entered, Table.lookup_insert_eq]
    simp only [tenantsAfter, found] at owed
    by_cases mine : id = connection.id
    · subst mine
      rw [if_pos rfl] at reads
      split at owed
      · simp only [Table.lookup_insert_eq, if_true, Option.some.injEq] at owed
        exact owed ▸ present_of_lookup reads
      · simp at owed
    · have earlier : before.tenants.lookup id = some tenant := by
        split at owed
        · simpa [Table.lookup_insert_eq, mine] using owed
        · simpa [Table.lookup_erase_eq, mine] using owed
      rw [if_neg mine] at reads
      simpa only [Room.hasParticipant, Room.getParticipant, reads] using durable id tenant earlier
  | cleaned call connection found told gone =>
    constructor
    · intro careful id tenant owed
      have other : id ≠ connection.id := by
        rintro rfl
        have free := careful connection found
        rw [show before.tenants.lookup connection.id = some tenant from owed] at free
        cases free
      have reads : room.participants.lookup id = before.room.participants.lookup id := by
        rw [gone, Table.lookup_erase_eq, if_neg other]
      simpa only [Room.hasParticipant, Room.getParticipant, reads] using durable id tenant owed
    · intro kept stored stands
      obtain rfl : connection = stored := Option.some.inj (found.symm.trans stands)
      cases owed : before.tenants.lookup connection.id with
      | none => rfl
      | some tenant =>
        have present := (kept connection.id tenant owed).1
        simp [Room.hasParticipant, gone] at present
  | removed id entry present gone =>
    refine iff_of_true trivial fun other tenant owed => ?_
    have different : other ≠ id := by
      rintro rfl
      simp [tenantsAfter] at owed
    have earlier := tenants_of_other before (.removes id) (by simp) other tenant owed
    have reads : room.participants.lookup other = before.room.participants.lookup other := by
      rw [gone, Table.lookup_erase_eq, if_neg different]
    simpa only [Room.hasParticipant, Room.getParticipant, reads] using durable other tenant earlier
  | absent id missing same =>
    refine iff_of_true trivial fun other tenant owed => ?_
    have earlier := tenants_of_other before (.removes id) (by simp) other tenant owed
    simpa only [Room.hasParticipant, Room.getParticipant, same] using durable other tenant earlier
  | kept _ same other =>
    have careful : before.Careful event := by
      cases event with
      | cleans call => exact absurd rfl (other.2.1 call)
      | _ => trivial
    refine iff_of_true careful fun id tenant owed => ?_
    have earlier := tenants_of_other before event other.1 id tenant owed
    simpa only [Room.hasParticipant, Room.getParticipant, same] using durable id tenant earlier

/-- Along a run every returned call keeps its participant in the room exactly when every
cleanup along it is careful.

A cleanup is careful if it finds its identifier owed to no call. From a state in which all
that is owed is there, a step keeps it so exactly if it is careful. -/
theorem add_participant_durable (config : RoomConfig) (tenured : Tenured) :
    (Reaches step (fun before _ => before.Durable) (new config) tenured ∧ tenured.Durable) ↔
      Reaches step Careful (new config) tenured := by
  refine Reaches.within_iff Durable ?_ fun before event after _ durable stepped =>
    careful_iff_durable durable stepped
  intro id call owed
  simp [new] at owed

/-- A participant is removed and added again, and only then the first connection's
task comes to its cleanup: the second call's entry is gone while its own connection
is still forwarding. -/
theorem stale_cleanup_evicts :
    ∃ tenured, Reaches step always (new { maxParticipants := 2 }) tenured ∧
      tenured.tenants.lookup ⟨1⟩ = some 1 ∧ tenured.room.hasParticipant ⟨1⟩ = false ∧
      tenured.room.getParticipant ⟨1⟩ = none ∧
      tenured.room.connections[1]?.map Connection.phase = some (.spawned true .forwarding) := by
  let events : List RoomStep :=
    [.adds ⟨1⟩, .announces 0, .spawns 0, .inserts 0, .removes ⟨1⟩, .removalStops 0,
      .adds ⟨1⟩, .announces 1, .spawns 1, .inserts 1, .ends 0 true, .leaves 0, .cleans 0]
  exact ⟨(walk step always (new { maxParticipants := 2 }) events).getD (new { maxParticipants := 2 }),
    walk_reaches_end _ _ _ _ (by decide +kernel), by decide +kernel, by decide +kernel,
    by decide +kernel, by decide +kernel⟩

end Tenured

namespace Room

/-- There are never more participants than the configuration allows. -/
def Within (room : Room) : Prop := room.participantCount ≤ room.config.maxParticipants

/-- An insertion of a new identifier finds fewer participants than the limit. -/
def Fits (room : Room) : RoomStep → Prop
  | .inserts call =>
      ∀ connection, room.connections[call]? = some connection →
        room.hasParticipant connection.id = true ∨
          room.participantCount < room.config.maxParticipants
  | _ => True

/-- A call that is refused leaves the participants and the events as they were, and
takes no step afterwards. -/
structure RefusalChangesNothing (room : Room) : Prop where
  refusing : ∀ id after, room.step (.adds id) = some after →
    after.connections.getLast?.map Connection.phase = some .refused →
    after.participants = room.participants ∧ after.events = room.events
  refused : ∀ call connection event, room.connections[call]? = some connection →
    connection.phase = .refused → event.call? = some call → room.step event = none

/-- Refusals change nothing, in any state. -/
theorem refusal_changes_nothing (room : Room) : room.RefusalChangesNothing := by
  constructor
  · intro id after stepped _
    cases Option.some.inj stepped
    exact ⟨rfl, rfl⟩
  · intro call connection event found refused own
    have idle : ∀ test : Connection → Bool, test connection = false → room.waiting call test = none := by
      intro test fails
      simp [waiting, found, fails]
    cases event with
    | bindFails other | announces other | spawns other | inserts other | leaves other | cleans other =>
      cases Option.some.inj own
      simp only [step, Option.map_eq_none_iff]
      exact idle _ (by simp [refused, AddPhase.inserting, AddPhase.task])
    | ends other stopped =>
      cases Option.some.inj own
      simp only [step, Option.map_eq_none_iff]
      exact idle _ (by simp [refused, AddPhase.task])
    | _ => cases own

/-- The identifiers after an insertion: one more, unless it was there. -/
theorem count_insert (room : Room) (id : ParticipantId) (entry : ParticipantEntry) :
    (room.participants.insert id entry).keys.length =
      room.participantCount + if room.hasParticipant id then 0 else 1 := by
  simp only [AList.keys_insert, List.length_cons, participantCount, hasParticipant,
    AList.lookup_isSome, AList.mem_keys, List.length_erase]
  by_cases present : id ∈ room.participants.keys
  · have positive := List.length_pos_of_mem present
    simp only [present, if_true]
    omega
  · simp [present]

/-- A removal leaves no more identifiers than there were. -/
theorem count_erase (room : Room) (id : ParticipantId) :
    (room.participants.erase id).keys.length ≤ room.participantCount := by
  rw [AList.keys_erase]
  exact List.length_erase_le

/-- From a state within the limit, a step stays within it exactly when it fits. -/
theorem fits_iff_within {before after : Room} {event : RoomStep} (within : before.Within)
    (stepped : before.step event = some after) : before.Fits event ↔ after.Within := by
  have limit := step_config stepped
  unfold Within at within ⊢
  rw [limit]
  cases step_remapped stepped with
  | inserted call connection found spawned entered =>
    have counted : after.participantCount =
        before.participantCount + if before.hasParticipant connection.id then 0 else 1 := by
      rw [participantCount, entered, count_insert]
    rw [counted]
    constructor
    · intro fits
      obtain present | room := fits connection found
      · simpa [present] using within
      · split <;> omega
    · intro bounded stored stands
      obtain rfl : connection = stored := Option.some.inj (found.symm.trans stands)
      cases present : before.hasParticipant connection.id with
      | true => exact .inl rfl
      | false =>
        simp only [present, Bool.false_eq_true, if_false] at bounded
        exact .inr (by omega)
  | cleaned call connection found told gone =>
    have fewer : after.participantCount ≤ before.participantCount := by
      rw [participantCount, gone]
      exact count_erase before connection.id
    exact iff_of_true trivial (Nat.le_trans fewer within)
  | removed id entry present gone =>
    have fewer : after.participantCount ≤ before.participantCount := by
      rw [participantCount, gone]
      exact count_erase before id
    exact iff_of_true trivial (Nat.le_trans fewer within)
  | absent id missing same =>
    exact iff_of_true trivial (by simpa only [participantCount, same] using within)
  | kept _ same other =>
    have fits : before.Fits event := by
      cases event with
      | inserts call => exact absurd rfl (other.1 call)
      | _ => trivial
    exact iff_of_true fits (by simpa only [participantCount, same] using within)

/-- Along a run the number of participants stays within the limit exactly when every
insertion along it fits, and in every run refused calls change nothing.

Only an insertion makes the number greater, and it keeps it within the limit exactly if it
fits. A refused call has changed nothing by then. -/
theorem capacity_within_iff (config : RoomConfig) :
    (∀ room, (Reaches step (fun before _ => before.Within) (new config) room ∧ room.Within) ↔
      Reaches step Fits (new config) room) ∧
    ∀ room, Reaches step always (new config) room → room.RefusalChangesNothing := by
  constructor
  · intro room
    refine Reaches.within_iff Within ?_ fun before event after _ within stepped =>
      fits_iff_within within stepped
    exact Nat.zero_le _
  · intro room _
    exact refusal_changes_nothing room

/-- Two calls pass the check of a room for one before either inserts. -/
theorem concurrent_adds_exceed :
    ∃ room, Reaches step always (new { maxParticipants := 1 }) room ∧ ¬ room.Within := by
  let events : List RoomStep :=
    [.adds ⟨1⟩, .adds ⟨2⟩, .announces 0, .spawns 0, .inserts 0, .announces 1, .spawns 1, .inserts 1]
  refine ⟨(walk step always (new { maxParticipants := 1 }) events).getD (new { maxParticipants := 1 }),
    walk_reaches_end _ _ _ _ (by decide +kernel), ?_⟩
  unfold Within
  decide +kernel

end Room

end Seameet.Facade

import Seameet.Client.Renegotiation
import Seameet.Library.Allotment

/-!
# The browser's pairs of lines

The browser shows every peer on a pair of lines of its own. It makes some pairs with a
connection, and more when the server asks for them, and keeps the free ones in a pool. A pair
has lines once an offer was made that has it. A peer that is added records the lines of its
pair, and gives the pair back by them when it is removed; a pair without lines is not given
back. `Client` has the lines of a first offer themselves, all of them named; here the pairs
of a connection grow, and only whether they have lines is kept.

However messages, answers and offers come, no pair serves two peers, and none is lost but
with a peer that was added before the pair had lines. As long as the server's requests for
more pairs find no other offer under way, and their own offers are made, that does not happen,
and everybody who is to be shown is shown while pairs are left.
-/

namespace Seameet

open Library

/-- A peer that is shown. -/
structure ShownPeer where
  /-- The pair that its stream has the receivers of. -/
  pair : Nat
  /-- Whether `audioMid` and `videoMid` are set. -/
  recorded : Bool

/-- `MAX_PEER_SLOTS`: how many pairs a connection begins with at least. -/
def maxPeerSlots : Nat := 7

/-- The refs of `useWebRTC` for the peers and their pairs, beside those for its offers. A pair
is named by its place among those of the connection. -/
structure UseWebRTC where
  participantId : ParticipantId
  negotiation : Renegotiation
  /-- How many pairs were put into the pool of this connection. -/
  made : Nat
  /-- How many of them have lines. -/
  named : Nat
  transceiverPool : List Nat
  remotePeers : Table ParticipantId ShownPeer
  lastParticipants : List ParticipantStatus
  /-- For each offer that the page waits for, how many pairs there were when it was begun. -/
  begun : List Nat
  /-- The pairs that were not given back. A record for the statements. -/
  lost : List Nat
  /-- Who is to be shown. A record for the statements. -/
  wanted : List ParticipantId

/-- The message that is begun next. -/
def Renegotiation.next (state : Renegotiation) : Option SdpMessage :=
  match state.processing, state.messageQueue with
  | none, message :: _ => some message
  | _, _ => none

/-- A message waits in line. -/
def Renegotiation.queued (state : Renegotiation) (message : SdpMessage) : Renegotiation :=
  { state with
    messageQueue := state.messageQueue ++ [message]
    received := state.received ++ [message] }

/-- The message in hand is done. -/
def Renegotiation.finished (state : Renegotiation) (resolves : Bool) (message : SdpMessage)
    (stage : Stage) : Renegotiation :=
  let state := state.complete resolves stage
  { state with processing := none, handled := state.handled ++ [message] }

namespace UseWebRTC

/-- A hook that has not connected: no pair, and nobody to show. -/
def new (participantId : ParticipantId) : UseWebRTC :=
  { participantId, negotiation := .new, made := 0, named := 0, transceiverPool := [],
    remotePeers := ∅, lastParticipants := [], begun := [], lost := [], wanted := [] }

variable (hook : UseWebRTC)

/-- A peer has an entry of its own. -/
def shows (peerId : ParticipantId) : Prop := (hook.remotePeers.lookup peerId).isSome = true

instance (peerId : ParticipantId) : Decidable (hook.shows peerId) :=
  inferInstanceAs (Decidable (_ = _))

/-- Forget a peer. Its pair is found by the lines that were recorded. -/
def removeRemotePeer (peerId : ParticipantId) : UseWebRTC :=
  match hook.remotePeers.lookup peerId with
  | none => hook
  | some info =>
      if info.recorded then
        { hook with
          transceiverPool := info.pair :: hook.transceiverPool
          remotePeers := hook.remotePeers.erase peerId }
      else
        { hook with
          remotePeers := hook.remotePeers.erase peerId
          lost := info.pair :: hook.lost }

/-- Show a peer on the first free pair. One that is shown already is recycled. -/
def addRemotePeer (peerId : ParticipantId) : UseWebRTC :=
  let recycled := hook.removeRemotePeer peerId
  match recycled.transceiverPool with
  | [] => recycled
  | pair :: rest =>
      { recycled with
        transceiverPool := rest
        remotePeers := recycled.remotePeers.insert peerId
          { pair, recorded := decide (pair < recycled.named) } }

/-- Show a peer that is not shown yet. -/
def track (peerId : ParticipantId) : UseWebRTC :=
  if hook.shows peerId then hook else hook.addRemotePeer peerId

/-- Show those who are listed, as far as there are pairs, and nobody else. -/
def reconcile (participants : List ParticipantStatus) : UseWebRTC :=
  let hook := { hook with lastParticipants := participants }
  let desired := (participants.map ParticipantStatus.id).filter (· ≠ hook.participantId)
  let unlisted := hook.remotePeers.keys.reverse.filter (· ∉ desired)
  { desired.foldl track (unlisted.foldl removeRemotePeer hook) with wanted := desired }

/-- A connection is made anew, and its pairs are not in the pool yet. Offers of the connection
before it give them no lines. -/
def connect : UseWebRTC :=
  { hook with
    made := 0, named := 0, transceiverPool := [], remotePeers := ∅, lost := [], wanted := []
    begun := hook.begun.map fun _ => 0 }

/-- The offer of a new connection is made. -/
def opened (existingPeers : List ParticipantId) : UseWebRTC :=
  let totalSlots := max maxPeerSlots existingPeers.length
  let hook := { hook with
    made := totalSlots, named := totalSlots, transceiverPool := List.range totalSlots }
  { existingPeers.foldl addRemotePeer hook with wanted := existingPeers }

/-- More pairs are made, without lines. -/
def grow (slots : Nat) : UseWebRTC :=
  { hook with
    transceiverPool := hook.transceiverPool ++ List.range' hook.made slots
    made := hook.made + slots }

/-- What `processMessage` does to the pairs before it first waits. -/
def begin (pc : Bool) : SdpMessage → UseWebRTC
  | .ready _ _ _ _ => hook.connect
  | .roomStatus _ participants _ => hook.reconcile participants
  | .requestRenegotiation _ neededSlots => if pc then hook.grow neededSlots else hook
  | _ => hook

/-- What it does to them once the browser has answered. -/
def complete (pc resolves : Bool) : SdpMessage → Stage → UseWebRTC
  | .ready _ _ peers _, .opening => if resolves then hook.opened peers else hook
  | .requestRenegotiation _ _, .building =>
      if resolves then { hook with named := hook.made }.reconcile hook.lastParticipants else hook
  | .requestRenegotiation _ _, .passing =>
      if pc then hook.reconcile hook.lastParticipants else hook
  | _, _ => hook

/-- The next message is begun, if there is one. -/
def beginNext (state : Renegotiation) : UseWebRTC :=
  match state.next with
  | some message => hook.begin state.pc message
  | none => hook

/-- What an event does to the pairs. -/
def pairs : RenegotiationEvent → UseWebRTC
  | .receives message => hook.beginNext (hook.negotiation.queued message)
  | .proceeds resolves =>
      match hook.negotiation.processing with
      | some (message, stage) =>
          (hook.complete hook.negotiation.pc resolves message stage).beginNext
            (hook.negotiation.finished resolves message stage)
      | none => hook
  | .requests | .runsMicrotask =>
      if hook.negotiation.renegotiate.1 then { hook with begun := hook.begun ++ [hook.made] } else hook
  | .makes resolves =>
      match hook.begun with
      | first :: rest =>
          { hook with begun := rest, named := if resolves then max hook.named first else hook.named }
      | [] => hook
  | .fires _ => hook

/-- One event. -/
def step (hook : UseWebRTC) (event : RenegotiationEvent) : Option UseWebRTC :=
  (hook.negotiation.step event).map fun negotiation => { hook.pairs event with negotiation }

end UseWebRTC

section Beginning

namespace Renegotiation

variable {state : Renegotiation}

/-- The next message is taken from the line, if none is in hand. -/
theorem drainQueue_cases (state : Renegotiation) :
    (state.next = none ∧ state.drainQueue = state) ∨
      ∃ message rest, state.next = some message ∧ state.processing = none ∧
        state.drainQueue = { state with messageQueue := rest }.processMessage message := by
  cases inHand : state.processing with
  | some present => exact .inl (by simp [next, drainQueue, inHand])
  | none =>
    cases queue : state.messageQueue with
    | nil => exact .inl (by simp [next, drainQueue, inHand, queue])
    | cons message rest => exact .inr ⟨message, rest, by simp [next, drainQueue, inHand, queue]⟩

/-- The first offer of a connection is waited for after a `ready`. -/
theorem processMessage_opening {message inHand : SdpMessage}
    (begun : (state.processMessage message).processing = some (inHand, .opening)) :
    ∃ roomId initiator peers displayNames, message = .ready roomId initiator peers displayNames := by
  cases message with
  | ready roomId initiator peers displayNames => exact ⟨roomId, initiator, peers, displayNames, rfl⟩
  | answer =>
    simp only [processMessage] at begun
    split at begun <;> cases begun
  | requestRenegotiation =>
    simp only [processMessage] at begun
    split at begun <;> cases begun
  | _ => cases begun

end Renegotiation

end Beginning

namespace UseWebRTC

variable {hook after : UseWebRTC}

section Stepping

/-- An event brings a message, or finishes the one in hand and begins the next one, or leaves
the peers and the message in hand alone. -/
theorem step_cases {event : RenegotiationEvent} (stepped : hook.step event = some after) :
    (∃ message, event = .receives message ∧
        after = { hook.beginNext (hook.negotiation.queued message) with
          negotiation := (hook.negotiation.queued message).drainQueue }) ∨
      (∃ resolves message stage, event = .proceeds resolves ∧
        hook.negotiation.processing = some (message, stage) ∧
        after = { (hook.complete hook.negotiation.pc resolves message stage).beginNext
            (hook.negotiation.finished resolves message stage) with
          negotiation := (hook.negotiation.finished resolves message stage).drainQueue }) ∨
      ∃ negotiation begun named, after = { hook with negotiation, begun, named } ∧
        negotiation.processing = hook.negotiation.processing ∧
        (∀ count ∈ begun, count ∈ hook.begun ∨ count = hook.made) ∧
        (named = hook.named ∨ ∃ count ∈ hook.begun, named = max hook.named count) := by
  obtain ⟨negotiation, moved, rfl⟩ := Option.map_eq_some_iff.mp stepped
  -- An offer for the page notes how many pairs there are.
  have renegotiates : negotiation.processing = hook.negotiation.processing →
      ∀ offers : Bool, ∃ now begun named,
        { (if offers then { hook with begun := hook.begun ++ [hook.made] } else hook) with
            negotiation } = { hook with negotiation := now, begun, named } ∧
          now.processing = hook.negotiation.processing ∧
          (∀ count ∈ begun, count ∈ hook.begun ∨ count = hook.made) ∧
          (named = hook.named ∨ ∃ count ∈ hook.begun, named = max hook.named count) := by
    intro same offers
    cases offers with
    | true =>
      refine ⟨negotiation, hook.begun ++ [hook.made], hook.named, rfl, same, ?_, .inl rfl⟩
      intro count noted
      exact (List.mem_append.mp noted).imp_right List.mem_singleton.mp
    | false => exact ⟨negotiation, hook.begun, hook.named, rfl, same, fun _ => .inl, .inl rfl⟩
  cases event with
  | receives message =>
    obtain rfl := Option.some.inj moved
    exact .inl ⟨message, rfl, rfl⟩
  | proceeds resolves =>
    simp only [Renegotiation.step] at moved
    split at moved
    · next message stage inHand =>
      obtain rfl := Option.some.inj moved
      refine .inr (.inl ⟨resolves, message, stage, rfl, inHand, ?_⟩)
      rw [pairs, inHand]
      rfl
    · cases moved
  | requests =>
    obtain rfl := Option.some.inj moved
    refine .inr (.inr (renegotiates ?_ hook.negotiation.renegotiate.1))
    exact (hook.negotiation.demand_mail.trans hook.negotiation.demand.renegotiateAside_mail).inHand
  | runsMicrotask =>
    simp only [Renegotiation.step, Option.ite_none_right_eq_some, Option.some.injEq] at moved
    obtain ⟨_, rfl⟩ := moved
    refine .inr (.inr (renegotiates ?_ hook.negotiation.renegotiate.1))
    exact ({ hook.negotiation with
      microtasks := hook.negotiation.microtasks - 1 }.renegotiateAside_mail).inHand
  | makes resolves =>
    have same : negotiation.processing = hook.negotiation.processing := by
      simp only [Renegotiation.step, Option.ite_none_right_eq_some, Option.some.injEq] at moved
      obtain ⟨_, rfl⟩ := moved
      cases resolves <;> rfl
    refine .inr (.inr ?_)
    rw [pairs]
    split
    · next first rest noted =>
      refine ⟨negotiation, rest, _, rfl, same, ?_, ?_⟩
      · intro count listed
        exact .inl (by rw [noted]; exact List.mem_cons_of_mem first listed)
      · cases resolves with
        | true => exact .inr ⟨first, by rw [noted]; exact List.mem_cons_self, rfl⟩
        | false => exact .inl rfl
    · exact ⟨negotiation, hook.begun, hook.named, rfl, same, fun _ => .inl, .inl rfl⟩
  | fires timer =>
    have same : negotiation.processing = hook.negotiation.processing := by
      simp only [Renegotiation.step, Option.ite_none_right_eq_some, Option.some.injEq] at moved
      obtain ⟨_, rfl⟩ := moved
      split
      · exact (Renegotiation.finishRenegotiation_mail _).inHand
      · rfl
    exact .inr (.inr ⟨negotiation, hook.begun, hook.named, rfl, same, fun _ => .inl, .inl rfl⟩)

end Stepping

section Accounts

/-- Every pair is free, or serves one peer, or is lost. -/
def Accounted (hook : UseWebRTC) : Prop :=
  Allotted ShownPeer.pair hook.transceiverPool hook.remotePeers hook.lost (List.range hook.made)

namespace Accounted

/-- A pair that is given back is free, and one that is not is lost. -/
theorem removeRemotePeer (accounted : hook.Accounted) (peerId : ParticipantId) :
    (hook.removeRemotePeer peerId).Accounted := by
  unfold UseWebRTC.removeRemotePeer
  split
  · exact accounted
  · next info shown =>
    split
    · exact Allotted.giveBack accounted shown
    · exact Allotted.lose accounted shown

/-- A recycled peer gives its pair up before the first free one is taken. -/
theorem addRemotePeer (accounted : hook.Accounted) (peerId : ParticipantId) :
    (hook.addRemotePeer peerId).Accounted := by
  have recycled := accounted.removeRemotePeer peerId
  have absent : (hook.removeRemotePeer peerId).remotePeers.lookup peerId = none := by
    unfold UseWebRTC.removeRemotePeer
    split
    · assumption
    · split <;> exact AList.lookup_erase _ _
  unfold UseWebRTC.addRemotePeer
  dsimp only
  split
  · exact recycled
  · next pair rest pool =>
    rw [Accounted, pool] at recycled
    exact Allotted.take recycled absent rfl

/-- Only a peer that is not shown yet takes a pair. -/
theorem track (accounted : hook.Accounted) (peerId : ParticipantId) :
    (hook.track peerId).Accounted := by
  unfold UseWebRTC.track
  split
  · exact accounted
  · exact accounted.addRemotePeer peerId

/-- The unlisted are removed one by one, then the listed are added one by one. -/
theorem reconcile (accounted : hook.Accounted) (participants : List ParticipantStatus) :
    (hook.reconcile participants).Accounted := by
  have dropped : (List.foldl UseWebRTC.removeRemotePeer
      { hook with lastParticipants := participants } (hook.remotePeers.keys.reverse.filter (· ∉
        (participants.map ParticipantStatus.id).filter (· ≠ hook.participantId)))).Accounted :=
    List.foldlRecOn _ _ accounted fun _ held peerId _ => held.removeRemotePeer peerId
  exact List.foldlRecOn _ UseWebRTC.track dropped fun _ held peerId _ => held.track peerId

/-- What is done before the first wait: a new connection has no pairs yet, and pairs that are
added are free. -/
theorem begin (accounted : hook.Accounted) (pc : Bool) (message : SdpMessage) :
    (hook.begin pc message).Accounted := by
  cases message with
  | ready => exact Allotted.fresh ShownPeer.pair []
  | roomStatus _ participants _ => exact accounted.reconcile participants
  | requestRenegotiation _ slots =>
    cases pc with
    | true =>
      have whole : List.range (hook.made + slots) =
          List.range hook.made ++ List.range' hook.made slots := by
        rw [List.range_eq_range', List.range_eq_range', ← List.range'_append_1, Nat.zero_add]
      show Allotted _ _ _ _ (List.range (hook.made + slots))
      rw [whole]
      exact Allotted.extend accounted _
    | false => exact accounted
  | _ => exact accounted

/-- The pairs of a new connection are put into the pool while nobody is shown. -/
theorem placed (nobody : hook.remotePeers = ∅) (kept : hook.lost = []) (count : Nat) :
    { hook with
      made := count, named := count, transceiverPool := List.range count }.Accounted := by
  show Allotted ShownPeer.pair _ hook.remotePeers hook.lost _
  rw [nobody, kept]
  exact Allotted.fresh _ _

/-- The peers of a new connection take their pairs one by one. -/
theorem opened (nobody : hook.remotePeers = ∅) (kept : hook.lost = [])
    (existingPeers : List ParticipantId) : (hook.opened existingPeers).Accounted :=
  List.foldlRecOn existingPeers UseWebRTC.addRemotePeer (placed nobody kept _)
    fun _ held peerId _ => held.addRemotePeer peerId

end Accounted

/-- Nobody is shown, and there is no pair to show anybody on. -/
structure Blank (hook : UseWebRTC) : Prop where
  nobody : hook.remotePeers = ∅
  kept : hook.lost = []
  none : hook.made = 0

/-- The accounts, and that a connection is blank while its first offer is made. -/
structure Sound (hook : UseWebRTC) : Prop where
  accounted : hook.Accounted
  opening : ∀ message, hook.negotiation.processing = some (message, .opening) → hook.Blank

/-- What is done behind the wait keeps the accounts; the pairs of a new connection are put in
while it is blank. -/
theorem Sound.complete (sound : hook.Sound) {message : SdpMessage} {stage : Stage}
    (inHand : hook.negotiation.processing = some (message, stage)) (pc resolves : Bool) :
    (hook.complete pc resolves message stage).Accounted := by
  unfold UseWebRTC.complete
  split
  · split
    · have blank := sound.opening _ inHand
      exact Accounted.opened blank.nobody blank.kept _
    · exact sound.accounted
  · split
    · have named : { hook with named := hook.made }.Accounted := sound.accounted
      exact named.reconcile _
    · exact sound.accounted
  · split
    · exact sound.accounted.reconcile _
    · exact sound.accounted
  · exact sound.accounted

/-- The next message is begun, and if it is a `ready` nobody is shown. -/
theorem Sound.drain (accounted : hook.Accounted) (waiting : Renegotiation)
    (opening : ∀ message, waiting.processing = some (message, .opening) → hook.Blank) :
    { hook.beginNext waiting with negotiation := waiting.drainQueue }.Sound := by
  unfold beginNext
  rcases waiting.drainQueue_cases with ⟨next, same⟩ | ⟨message, rest, next, _, taken⟩
  · rw [next, same]
    refine ⟨accounted, fun message inHand => ?_⟩
    have blank := opening message inHand
    exact ⟨blank.nobody, blank.kept, blank.none⟩
  · rw [next, taken]
    refine ⟨accounted.begin waiting.pc message, ?_⟩
    intro inHand begun
    obtain ⟨_, _, _, _, rfl⟩ := Renegotiation.processMessage_opening begun
    exact ⟨rfl, rfl, rfl⟩

/-- Every event keeps the accounts. -/
theorem Sound.step (sound : hook.Sound) {event : RenegotiationEvent}
    (stepped : hook.step event = some after) : after.Sound := by
  rcases step_cases stepped with ⟨message, rfl, rfl⟩ | ⟨resolves, message, stage, rfl, inHand, rfl⟩ |
    ⟨negotiation, begun, named, rfl, same, _, _⟩
  · exact Sound.drain sound.accounted (hook.negotiation.queued message) sound.opening
  · have completed := sound.complete inHand hook.negotiation.pc resolves
    refine Sound.drain completed (hook.negotiation.finished resolves message stage) ?_
    intro message waits
    cases waits
  · refine ⟨sound.accounted, fun message inHand => ?_⟩
    have blank := sound.opening message (same.symm.trans inHand)
    exact ⟨blank.nobody, blank.kept, blank.none⟩

/-- Before the first connection there is nothing to account for. -/
theorem sound_new (participantId : ParticipantId) : (new participantId).Sound where
  accounted := Allotted.fresh ShownPeer.pair []
  opening := by
    intro message waits
    cases waits

/-- In every state each pair of the connection is free, serves one peer that is shown, or was
lost; so no pair serves two, and none that serves is free.

A pair is taken from the pool for a peer that is shown and comes back with the peer, unless
it had no lines when it was taken: then it is lost. -/
theorem pairs_accounted {participantId : ParticipantId}
    (reached : Reaches step always (new participantId) hook) :
    (hook.transceiverPool ++ hook.remotePeers.values.map ShownPeer.pair ++ hook.lost).Perm
        (List.range hook.made) ∧
      ∀ peerId info, hook.remotePeers.lookup peerId = some info →
        info.pair ∉ hook.transceiverPool ∧ ∀ other also, hook.remotePeers.lookup other = some also →
          also.pair = info.pair → other = peerId := by
  have sound := reached.invariant Sound (sound_new participantId)
    fun _ _ _ sound _ stepped => sound.step stepped
  refine ⟨sound.accounted, ?_⟩
  intro peerId info shown
  exact sound.accounted.apart List.nodup_range shown

end Accounts

section Serving

/-- What is needed for a pair to be given back: lines, and that they are recorded. -/
structure Tidy (hook : UseWebRTC) : Prop where
  accounted : hook.Accounted
  recorded : ∀ peerId info, hook.remotePeers.lookup peerId = some info → info.recorded = true
  lost : hook.lost = []
  named : hook.named = hook.made

/-- What does not change when peers come and go. -/
structure SameLines (before after : UseWebRTC) : Prop where
  made : after.made = before.made
  named : after.named = before.named
  begun : after.begun = before.begun

/-- Removing a peer makes no pair and no lines. -/
theorem removeRemotePeer_lines (hook : UseWebRTC) (peerId : ParticipantId) :
    hook.SameLines (hook.removeRemotePeer peerId) := by
  unfold removeRemotePeer
  split
  · exact ⟨rfl, rfl, rfl⟩
  · split <;> exact ⟨rfl, rfl, rfl⟩

/-- Adding a peer makes no pair and no lines. -/
theorem addRemotePeer_lines (hook : UseWebRTC) (peerId : ParticipantId) :
    hook.SameLines (hook.addRemotePeer peerId) := by
  have same := hook.removeRemotePeer_lines peerId
  unfold addRemotePeer
  dsimp only
  split <;> exact ⟨same.made, same.named, same.begun⟩

/-- Nor does it when only peers that are not shown are added. -/
theorem track_lines (hook : UseWebRTC) (peerId : ParticipantId) :
    hook.SameLines (hook.track peerId) := by
  unfold track
  split
  · exact ⟨rfl, rfl, rfl⟩
  · exact hook.addRemotePeer_lines peerId

/-- What neither of two steps changes is the same after both. -/
theorem SameLines.trans {before between after : UseWebRTC} (first : before.SameLines between)
    (second : between.SameLines after) : before.SameLines after :=
  ⟨second.made.trans first.made, second.named.trans first.named, second.begun.trans first.begun⟩

/-- A peer that is not shown cannot be removed. -/
theorem removeRemotePeer_absent {peerId : ParticipantId}
    (absent : hook.remotePeers.lookup peerId = none) : hook.removeRemotePeer peerId = hook := by
  simp [removeRemotePeer, absent]

/-- Where all lines are recorded, a peer that is removed gives its pair to the front of the
pool. -/
theorem Tidy.givesBack (tidy : hook.Tidy) {peerId : ParticipantId} {info : ShownPeer}
    (shown : hook.remotePeers.lookup peerId = some info) :
    hook.removeRemotePeer peerId = { hook with
      transceiverPool := info.pair :: hook.transceiverPool
      remotePeers := hook.remotePeers.erase peerId } := by
  simp [removeRemotePeer, shown, tidy.recorded peerId info shown]

/-- A peer that is removed gives its pair back. -/
theorem Tidy.removeRemotePeer (tidy : hook.Tidy) (peerId : ParticipantId) :
    (hook.removeRemotePeer peerId).Tidy ∧
      ∀ other, (hook.removeRemotePeer peerId).shows other ↔ hook.shows other ∧ other ≠ peerId := by
  cases shown : hook.remotePeers.lookup peerId with
  | none =>
    rw [removeRemotePeer_absent shown]
    refine ⟨tidy, fun other => ⟨fun here => ⟨here, ?_⟩, And.left⟩⟩
    rintro rfl
    rw [shows, shown] at here
    cases here
  | some info =>
    have accounted := tidy.accounted.removeRemotePeer peerId
    rw [tidy.givesBack shown] at accounted ⊢
    refine ⟨⟨accounted, ?_, tidy.lost, tidy.named⟩, ?_⟩
    · intro other also found
      rw [Table.lookup_erase_eq] at found
      split at found
      · cases found
      · exact tidy.recorded other also found
    · intro other
      simp only [shows, Table.lookup_erase_eq]
      by_cases own : other = peerId <;> simp [own]

/-- A peer is added, if there is a pair for it. -/
structure Adds (peerId : ParticipantId) (before after : UseWebRTC) : Prop where
  tidy : after.Tidy
  shown : ∀ other, after.shows other ↔
    before.shows other ∨ other = peerId ∧ before.transceiverPool ≠ []
  empty : before.transceiverPool = [] → after.transceiverPool = []

/-- The first free pair goes to a peer that is not shown. -/
theorem Tidy.takes (tidy : hook.Tidy) {peerId : ParticipantId}
    (absent : hook.remotePeers.lookup peerId = none) {pair : Nat} {rest : List Nat}
    (pool : hook.transceiverPool = pair :: rest) {info : ShownPeer} (taken : info.pair = pair)
    (recorded : info.recorded = decide (pair < hook.named)) :
    { hook with transceiverPool := rest, remotePeers := hook.remotePeers.insert peerId info }.Tidy := by
  have accounted := tidy.accounted
  rw [Accounted, pool] at accounted
  refine ⟨Allotted.take accounted absent taken, ?_, tidy.lost, tidy.named⟩
  intro other also found
  rw [Table.lookup_insert_eq] at found
  split at found
  · obtain rfl := Option.some.inj found
    have made : pair < hook.made :=
      List.mem_range.mp (accounted.subset (by simp))
    rw [recorded, decide_eq_true_eq, tidy.named]
    exact made
  · exact tidy.recorded other also found

/-- A peer that is added is shown if there was a pair for it, its own old one included. -/
theorem Tidy.addRemotePeer (tidy : hook.Tidy) (peerId : ParticipantId) :
    hook.Adds peerId (hook.addRemotePeer peerId) := by
  cases shown : hook.remotePeers.lookup peerId with
  | none =>
    cases pool : hook.transceiverPool with
    | nil =>
      have same : hook.addRemotePeer peerId = hook := by
        simp [UseWebRTC.addRemotePeer, removeRemotePeer_absent shown, pool]
      rw [same]
      exact ⟨tidy, fun other => by simp [pool], id⟩
    | cons pair rest =>
      have added : hook.addRemotePeer peerId = { hook with
          transceiverPool := rest
          remotePeers := hook.remotePeers.insert peerId
            { pair, recorded := decide (pair < hook.named) } } := by
        simp [UseWebRTC.addRemotePeer, removeRemotePeer_absent shown, pool]
      rw [added]
      refine ⟨tidy.takes shown pool rfl rfl, fun other => ?_, fun empty => ?_⟩
      · simp only [shows, Table.lookup_insert_eq]
        by_cases own : other = peerId <;> simp [own, pool]
      · rw [pool] at empty
        cases empty
  | some info =>
    have recycled := (tidy.removeRemotePeer peerId).1
    rw [tidy.givesBack shown] at recycled
    have added : hook.addRemotePeer peerId = { hook with
        remotePeers := (hook.remotePeers.erase peerId).insert peerId
          { pair := info.pair, recorded := decide (info.pair < hook.named) } } := by
      simp [UseWebRTC.addRemotePeer, tidy.givesBack shown]
    rw [added]
    refine ⟨?_, fun other => ?_, id⟩
    · exact recycled.takes (AList.lookup_erase _ _) rfl rfl rfl
    · simp only [shows, Table.lookup_insert_eq, Table.lookup_erase_eq]
      by_cases own : other = peerId
      · subst own
        simp [shown]
      · simp [own]

/-- A peer that is shown already stays on its pair, and any other one is added. -/
theorem Tidy.track (tidy : hook.Tidy) (peerId : ParticipantId) :
    hook.Adds peerId (hook.track peerId) := by
  unfold UseWebRTC.track
  split
  · next here =>
    refine ⟨tidy, fun other => ⟨.inl, ?_⟩, id⟩
    rintro (shown | ⟨rfl, _⟩)
    · exact shown
    · exact here
  · exact tidy.addRemotePeer peerId

/-- Peers are added as far as there are pairs, and nobody else. -/
structure AddsAll (peerIds : List ParticipantId) (before after : UseWebRTC) : Prop where
  tidy : after.Tidy
  kept : ∀ other, before.shows other → after.shows other
  whom : ∀ other, after.shows other → before.shows other ∨ other ∈ peerIds
  served : ∀ other ∈ peerIds, after.shows other ∨ after.transceiverPool = []
  empty : before.transceiverPool = [] → after.transceiverPool = []

/-- One is added after the other. The induction is on them. -/
theorem Tidy.addAll {add : UseWebRTC → ParticipantId → UseWebRTC}
    (adds : ∀ hook : UseWebRTC, hook.Tidy → ∀ peerId, hook.Adds peerId (add hook peerId))
    (tidy : hook.Tidy) (peerIds : List ParticipantId) :
    hook.AddsAll peerIds (peerIds.foldl add hook) := by
  induction peerIds generalizing hook with
  | nil => exact ⟨tidy, fun _ => id, fun _ => .inl, nofun, id⟩
  | cons first rest inductionHypothesis =>
    have added := adds hook tidy first
    have later := inductionHypothesis added.tidy
    refine ⟨later.tidy, ?_, ?_, ?_, fun none => later.empty (added.empty none)⟩
    · intro other before
      exact later.kept other ((added.shown other).mpr (.inl before))
    · intro other shown
      rcases later.whom other shown with earlier | after
      · rcases (added.shown other).mp earlier with before | ⟨rfl, _⟩
        · exact .inl before
        · exact .inr List.mem_cons_self
      · exact .inr (List.mem_cons_of_mem first after)
    · intro other listed
      rcases List.mem_cons.mp listed with rfl | after
      · by_cases none : hook.transceiverPool = []
        · exact .inr (later.empty (added.empty none))
        · exact .inl (later.kept other ((added.shown other).mpr (.inr ⟨rfl, none⟩)))
      · exact later.served other after

/-- Those who are to be shown are shown as far as there are pairs, and nobody else. -/
structure Served (hook : UseWebRTC) : Prop where
  whom : ∀ peerId, hook.shows peerId → peerId ∈ hook.wanted
  all : ∀ peerId ∈ hook.wanted, hook.shows peerId ∨ hook.transceiverPool = []

/-- All of these are removed, and nobody else. The induction is on them. -/
theorem Tidy.dropAll (tidy : hook.Tidy) (peerIds : List ParticipantId) :
    (peerIds.foldl UseWebRTC.removeRemotePeer hook).Tidy ∧
      ∀ other, (peerIds.foldl UseWebRTC.removeRemotePeer hook).shows other ↔
        hook.shows other ∧ other ∉ peerIds := by
  induction peerIds generalizing hook with
  | nil => exact ⟨tidy, fun other => by simp⟩
  | cons first rest inductionHypothesis =>
    obtain ⟨removed, shown⟩ := tidy.removeRemotePeer first
    obtain ⟨later, last⟩ := inductionHypothesis removed
    refine ⟨later, fun other => ?_⟩
    rw [List.foldl_cons, last, shown, List.mem_cons, not_or, and_assoc]

/-- A listing is served. -/
theorem Tidy.reconcile (tidy : hook.Tidy) (participants : List ParticipantStatus) :
    (hook.reconcile participants).Tidy ∧ (hook.reconcile participants).Served := by
  let desired := (participants.map ParticipantStatus.id).filter (· ≠ hook.participantId)
  let unlisted := hook.remotePeers.keys.reverse.filter (· ∉ desired)
  have listed : { hook with lastParticipants := participants }.Tidy :=
    ⟨tidy.accounted, tidy.recorded, tidy.lost, tidy.named⟩
  obtain ⟨dropped, left⟩ := listed.dropAll unlisted
  have tracked := dropped.addAll (fun _ tidy peerId => tidy.track peerId) desired
  refine ⟨⟨tracked.tidy.accounted, tracked.tidy.recorded, tracked.tidy.lost, tracked.tidy.named⟩, ?_, ?_⟩
  · intro peerId shown
    rcases tracked.whom peerId shown with before | wanted
    · obtain ⟨there, kept⟩ := (left peerId).mp before
      change peerId ∈ desired
      by_contra unwanted
      apply kept
      refine List.mem_filter.mpr ⟨List.mem_reverse.mpr ?_, by simpa using unwanted⟩
      exact AList.mem_keys.mp (AList.lookup_isSome.mp there)
    · exact wanted
  · exact tracked.served

/-- Nor does a listing that is gone through. -/
theorem reconcile_lines (hook : UseWebRTC) (participants : List ParticipantStatus) :
    hook.SameLines (hook.reconcile participants) := by
  let listed := { hook with lastParticipants := participants }
  let desired := (participants.map ParticipantStatus.id).filter (· ≠ hook.participantId)
  let unlisted := hook.remotePeers.keys.reverse.filter (· ∉ desired)
  have dropped : listed.SameLines (unlisted.foldl removeRemotePeer listed) :=
    List.foldlRecOn unlisted removeRemotePeer ⟨rfl, rfl, rfl⟩
      fun _ same peerId _ => same.trans (removeRemotePeer_lines _ peerId)
  have tracked : listed.SameLines (desired.foldl track (unlisted.foldl removeRemotePeer listed)) :=
    List.foldlRecOn desired track dropped fun _ same peerId _ => same.trans (track_lines _ peerId)
  exact ⟨tracked.made, tracked.named, tracked.begun⟩

/-- Putting the pairs of a new connection in touches no offer that is under way. -/
theorem opened_begun (hook : UseWebRTC) (existingPeers : List ParticipantId) :
    (hook.opened existingPeers).begun = hook.begun := by
  let totalSlots := max maxPeerSlots existingPeers.length
  let placed := { hook with
    made := totalSlots, named := totalSlots, transceiverPool := List.range totalSlots }
  have added : placed.SameLines (existingPeers.foldl addRemotePeer placed) :=
    List.foldlRecOn existingPeers addRemotePeer ⟨rfl, rfl, rfl⟩
      fun _ same peerId _ => same.trans (addRemotePeer_lines _ peerId)
  exact added.begun

/-- The peers of a new connection are served. -/
theorem opened_tidy (nobody : hook.remotePeers = ∅) (kept : hook.lost = [])
    (existingPeers : List ParticipantId) :
    (hook.opened existingPeers).Tidy ∧ (hook.opened existingPeers).Served := by
  let totalSlots := max maxPeerSlots existingPeers.length
  have placed : { hook with
      made := totalSlots, named := totalSlots
      transceiverPool := List.range totalSlots }.Tidy := by
    refine ⟨.placed nobody kept totalSlots, ?_, kept, rfl⟩
    intro peerId info shown
    rw [show _ = (∅ : Table _ _) from nobody] at shown
    cases shown
  have added := placed.addAll (fun _ tidy peerId => tidy.addRemotePeer peerId) existingPeers
  refine ⟨⟨added.tidy.accounted, added.tidy.recorded, added.tidy.lost, added.tidy.named⟩, ?_, added.served⟩
  intro peerId shown
  rcases added.whom peerId shown with before | wanted
  · rw [shows, show _ = (∅ : Table _ _) from nobody] at before
    cases before
  · exact wanted

end Serving

section Keeping

/-- The state in which an event begins a message, if it may begin one. -/
def upcoming (hook : UseWebRTC) : RenegotiationEvent → Option Renegotiation
  | .receives message => some (hook.negotiation.queued message)
  | .proceeds resolves =>
      hook.negotiation.processing.map fun inHand =>
        hook.negotiation.finished resolves inHand.1 inHand.2
  | _ => none

/-- The message that is begun next asks for more pairs. -/
def asksMore (state : Renegotiation) : Bool :=
  match state.next with
  | some (.requestRenegotiation _ _) => state.pc
  | _ => false

/-- Pairs were made, and the offer that gives them lines is waited for. -/
def growing (hook : UseWebRTC) : Bool :=
  match hook.negotiation.processing with
  | some (.requestRenegotiation _ _, .building) => true
  | _ => false

/-- What the message in hand waits for is refused. -/
def refuses : RenegotiationEvent → Bool
  | .proceeds resolves => !resolves
  | _ => false

/-- A request for more pairs finds no offer under way, and its own offer is not refused. -/
def Unhindered (hook : UseWebRTC) (event : RenegotiationEvent) : Prop :=
  (∀ state ∈ hook.upcoming event, asksMore state = true → state.renegotiating = false) ∧
    (hook.growing = true → refuses event = false)

instance : DecidableRel Unhindered := fun _ _ => inferInstanceAs (Decidable (_ ∧ _))

/-- No pair is lost, and unless some are without lines, the listing is served. -/
structure Kept (hook : UseWebRTC) : Prop where
  recorded : ∀ peerId info, hook.remotePeers.lookup peerId = some info → info.recorded = true
  lost : hook.lost = []
  below : ∀ count ∈ hook.begun, count ≤ hook.made
  level : hook.growing = false → hook.named = hook.made
  served : hook.growing = false → hook.Served

/-- All pairs have lines, and the listing is served. -/
structure Settled (hook : UseWebRTC) : Prop where
  tidy : hook.Tidy
  served : hook.Served
  below : ∀ count ∈ hook.begun, count ≤ hook.made

/-- A hook that keeps its pairs and makes none at the moment is settled. -/
theorem Kept.settled (kept : hook.Kept) (sound : hook.Sound) (level : hook.growing = false) :
    hook.Settled :=
  ⟨⟨sound.accounted, kept.recorded, kept.lost, kept.level level⟩, kept.served level, kept.below⟩

/-- A listing that is gone through where all pairs have lines leaves the hook settled. -/
theorem Tidy.settles (tidy : hook.Tidy) (below : ∀ count ∈ hook.begun, count ≤ hook.made)
    (participants : List ParticipantStatus) : (hook.reconcile participants).Settled := by
  obtain ⟨later, served⟩ := tidy.reconcile participants
  have same := hook.reconcile_lines participants
  refine ⟨later, served, ?_⟩
  rw [same.begun, same.made]
  exact below

/-- The message in hand is done, and leaves no pair without lines. -/
theorem Kept.complete (kept : hook.Kept) (sound : hook.Sound) {message : SdpMessage} {stage : Stage}
    (inHand : hook.negotiation.processing = some (message, stage)) (pc resolves : Bool)
    (offered : hook.growing = true → resolves = true) :
    (hook.complete pc resolves message stage).Settled := by
  unfold UseWebRTC.complete
  split
  · have level : hook.growing = false := by rw [growing, inHand]
    split
    · have blank := sound.opening _ inHand
      obtain ⟨tidy, served⟩ := opened_tidy blank.nobody blank.kept _
      refine ⟨tidy, served, fun count begun => ?_⟩
      rw [opened_begun] at begun
      have none := kept.below count begun
      rw [blank.none] at none
      exact Nat.le_trans none (Nat.zero_le _)
    · exact kept.settled sound level
  · have grows : hook.growing = true := by rw [growing, inHand]
    have named : { hook with named := hook.made }.Tidy :=
      ⟨sound.accounted, kept.recorded, kept.lost, rfl⟩
    rw [if_pos (offered grows)]
    exact named.settles kept.below _
  · have settled := kept.settled sound (by rw [growing, inHand])
    split
    · exact settled.tidy.settles settled.below _
    · exact settled
  · next _ _ _ building _ =>
    refine kept.settled sound ?_
    rw [growing, inHand]
    split
    · next roomId neededSlots same =>
      obtain ⟨rfl, rfl⟩ := Prod.mk.inj (Option.some.inj same)
      exact absurd rfl (building roomId neededSlots rfl)
    · rfl

/-- A request for more pairs that finds the lock free is waited for. -/
theorem processMessage_growing {state : Renegotiation} (pc : state.pc = true)
    (free : state.renegotiating = false) (roomId : RoomId) (neededSlots : Nat) :
    (state.processMessage (.requestRenegotiation roomId neededSlots)).processing =
      some (.requestRenegotiation roomId neededSlots, .building) := by
  simp [Renegotiation.processMessage, Renegotiation.demand, Renegotiation.renegotiate, pc, free]

/-- The next message is begun. -/
theorem Kept.drain (settled : hook.Settled) (waiting : Renegotiation)
    (free : asksMore waiting = true → waiting.renegotiating = false) :
    { hook.beginNext waiting with negotiation := waiting.drainQueue }.Kept := by
  have still : ∀ {now : Renegotiation} {before : UseWebRTC}, before.Settled →
      { before with negotiation := now }.Kept := by
    intro now before settled
    exact ⟨settled.tidy.recorded, settled.tidy.lost, settled.below, fun _ => settled.tidy.named,
      fun _ => ⟨settled.served.whom, settled.served.all⟩⟩
  unfold beginNext
  rcases waiting.drainQueue_cases with ⟨next, same⟩ | ⟨message, rest, next, _, taken⟩
  · rw [next, same]
    exact still settled
  · rw [next, taken]
    cases message with
    | ready =>
      refine ⟨?_, rfl, ?_, fun _ => rfl, fun _ => ⟨?_, nofun⟩⟩
      · intro peerId info shown
        cases shown
      · intro count begun
        obtain ⟨_, _, rfl⟩ := List.mem_map.mp begun
        exact Nat.le_refl 0
      · intro peerId shown
        cases shown
    | roomStatus _ participants _ => exact still (settled.tidy.settles settled.below participants)
    | requestRenegotiation roomId neededSlots =>
      dsimp only
      by_cases connected : waiting.pc = true
      · have unlocked := free (by rw [asksMore, next]; exact connected)
        have waits := @processMessage_growing { waiting with messageQueue := rest } connected unlocked
          roomId neededSlots
        have begun : hook.begin waiting.pc (.requestRenegotiation roomId neededSlots) =
            hook.grow neededSlots := if_pos connected
        have grows : { hook.grow neededSlots with
            negotiation := { waiting with messageQueue := rest }.processMessage
              (.requestRenegotiation roomId neededSlots) }.growing = true := by
          rw [growing, waits]
        rw [begun]
        refine ⟨settled.tidy.recorded, settled.tidy.lost, ?_, fun level => ?_, fun level => ?_⟩
        · intro count begun
          exact Nat.le_trans (settled.below count begun) (Nat.le_add_right _ _)
        · exact absurd (grows.symm.trans level) nofun
        · exact absurd (grows.symm.trans level) nofun
      · have begun : hook.begin waiting.pc (.requestRenegotiation roomId neededSlots) = hook :=
          if_neg connected
        rw [begun]
        exact still settled
    | _ => exact still settled

/-- Where the message in hand stays, no pair loses its lines. -/
theorem Kept.aside (kept : hook.Kept) {negotiation : Renegotiation} {begun : List Nat} {named : Nat}
    (same : negotiation.processing = hook.negotiation.processing)
    (noted : ∀ count ∈ begun, count ∈ hook.begun ∨ count = hook.made)
    (lines : named = hook.named ∨ ∃ count ∈ hook.begun, named = max hook.named count) :
    { hook with negotiation, begun, named }.Kept := by
  have grows : { hook with negotiation, begun, named }.growing = hook.growing := by
    simp only [growing, same]
  refine ⟨kept.recorded, kept.lost, ?_, fun still => ?_, fun still => ?_⟩
  · intro count listed
    rcases noted count listed with before | last
    · exact kept.below count before
    · exact Nat.le_of_eq last
  · have level := kept.level (grows.symm.trans still)
    rcases lines with rfl | ⟨count, begun_before, rfl⟩
    · exact level
    · show max hook.named count = hook.made
      rw [level]
      exact Nat.max_eq_left (kept.below count begun_before)
  · have served := kept.served (grows.symm.trans still)
    exact ⟨served.whom, served.all⟩

/-- Every event that does not hinder a request keeps it. -/
theorem Kept.step (kept : hook.Kept) (sound : hook.Sound) {event : RenegotiationEvent}
    (unhindered : hook.Unhindered event) (stepped : hook.step event = some after) : after.Kept := by
  rcases step_cases stepped with ⟨message, rfl, rfl⟩ | ⟨resolves, message, stage, rfl, inHand, rfl⟩ |
    ⟨negotiation, begun, named, rfl, same, noted, lines⟩
  · cases busy : hook.negotiation.processing with
    | none =>
      have settled := kept.settled sound (by rw [growing, busy])
      exact Kept.drain settled (hook.negotiation.queued message) (unhindered.1 _ rfl)
    | some present =>
      have none : (hook.negotiation.queued message).next = none := by
        simp [Renegotiation.next, Renegotiation.queued, busy]
      have waits : (hook.negotiation.queued message).drainQueue = hook.negotiation.queued message := by
        simp [Renegotiation.drainQueue, Renegotiation.queued, busy]
      rw [beginNext, none, waits]
      exact kept.aside rfl (fun _ => .inl) (.inl rfl)
  · have settled := kept.complete sound inHand hook.negotiation.pc resolves
      fun grows => by simpa [refuses] using unhindered.2 grows
    refine Kept.drain settled (hook.negotiation.finished resolves message stage) (unhindered.1 _ ?_)
    rw [upcoming, inHand]
    rfl
  · exact kept.aside same noted lines

/-- Before the first connection nothing is lost and nobody is to be shown. -/
theorem kept_new (participantId : ParticipantId) : (new participantId).Kept where
  recorded := by
    intro peerId info shown
    cases shown
  lost := rfl
  below := nofun
  level := fun _ => rfl
  served := by
    refine fun _ => ⟨?_, nofun⟩
    intro peerId shown
    cases shown

/-- In every state of a run in which no request for more pairs finds an offer under way or has
its own offer refused, every pair is free or serves one peer. Unless more pairs are being made,
those who are to be shown are shown as far as there are pairs, and nobody else.

A request for pairs ends with the pairs that were asked for, unless it is hindered. The
peers that wait are then served from them in their order. -/
theorem pairs_kept {participantId : ParticipantId}
    (reached : Reaches step Unhindered (new participantId) hook) :
    (hook.transceiverPool ++ hook.remotePeers.values.map ShownPeer.pair).Perm
        (List.range hook.made) ∧
      (hook.growing = false → hook.Served) := by
  have known : ∀ state, Reaches step Unhindered (new participantId) state → state.Sound := by
    intro state reached
    exact reached.invariant Sound (sound_new participantId)
      fun _ _ _ sound _ stepped => sound.step stepped
  have kept : hook.Kept := reached.invariant_with Sound Kept known (kept_new participantId)
    fun _ _ _ sound kept unhindered stepped => kept.step sound unhindered stepped
  refine ⟨?_, kept.served⟩
  have accounted := (known hook reached).accounted
  rw [Accounted, Allotted, kept.lost, List.append_nil] at accounted
  exact accounted

end Keeping

section Sample

/-- A participant, as a listing has it. -/
def listed (uuid : Nat) : ParticipantStatus :=
  { id := ⟨uuid⟩, displayName := none, audioMuted := false, videoMuted := false
    screenSharing := false, e2ee := false }

/-- Seven peers are there when the page joins, and another one comes. A pair is asked for it,
and it goes. The request finds the first offer under way, unless an answer is in between. -/
def crowd (between : List RenegotiationEvent) : List RenegotiationEvent :=
  [.receives (.ready "r" true ((List.range' 2 7).map ParticipantId.mk) []), .proceeds true] ++
    between ++
    [.receives (.roomStatus "r" ((List.range' 1 9).map listed) false), .proceeds true,
      .receives (.requestRenegotiation "r" 1), .proceeds true,
      .receives (.roomStatus "r" ((List.range' 1 8).map listed) false), .proceeds true]

/-- The hook after these events. -/
def crowded (between : List RenegotiationEvent) : UseWebRTC :=
  (walk step always (new ⟨1⟩) (crowd between)).getD (new ⟨1⟩)

/-- The request finds the first offer under way: the new pair is taken without lines, and lost
when its peer goes. -/
theorem pairs_accounted_crowded :
    ((crowded []).transceiverPool ++ (crowded []).remotePeers.values.map ShownPeer.pair ++
        (crowded []).lost).Perm (List.range (crowded []).made) ∧ (crowded []).lost = [7] :=
  ⟨(pairs_accounted (walk_reaches_end step always (new ⟨1⟩) (crowd []) (by decide +kernel))).1,
    by decide +kernel⟩

/-- The hook after these events, where the first offer is answered before the request. -/
def unhindered : UseWebRTC :=
  (walk step Unhindered (new ⟨1⟩)
    (crowd [.receives (.answer ⟨1⟩ ⟨1⟩ "r" "sdp"), .proceeds true])).getD (new ⟨1⟩)

/-- The request finds no offer under way: the new pair is taken, and free again when its peer
goes. -/
theorem pairs_kept_unhindered :
    unhindered.Served ∧ unhindered.made = 8 ∧ unhindered.transceiverPool = [7] := by
  have kept := pairs_kept (walk_reaches_end step Unhindered (new ⟨1⟩)
    (crowd [.receives (.answer ⟨1⟩ ⟨1⟩ "r" "sdp"), .proceeds true]) (by decide +kernel))
  exact ⟨kept.2 (by decide +kernel), by decide +kernel, by decide +kernel⟩

end Sample

end UseWebRTC

end Seameet

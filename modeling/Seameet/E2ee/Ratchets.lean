import Seameet.Library.Runs
import Seameet.E2ee.Rekeying

/-!
# Rooms of ratcheting participants

The laws between two participants, taken over all pairs of a room, are kept by every
event that meets the condition. Where no handler is put aside and no message is on its
way, they leave one case: everyone holds everyone's current sender key.
-/

namespace Seameet.E2ee

open Library

namespace Room

variable {Chain Key : Type} (primitives : Primitives Nat Chain Key) (members : List String)

/-- The condition on an event. -/
def Careful (room : Room Chain Key) : ExchangeEvent → Prop
  | .resumes participantId position =>
    ∀ continuation ∈ (room.member participantId).awaiting[position]?,
      continuation.Admits participantId (room.member participantId) room.member
  | .delivers participantId =>
    ∀ message ∈ (room.member participantId).received.head?,
      message.Admits participantId (room.member participantId) room.member
  | .installs participantId position =>
    ∀ message ∈ (room.member participantId).mail[position]?,
      MessageAdmits primitives participantId (room.member participantId) room.member message
  | _ => True

/-- No handler is put aside and no message is on its way. -/
def Quiescent (room : Room Chain Key) : Prop :=
  ∀ participantId ∈ members,
    (room.member participantId).awaiting = [] ∧ (room.member participantId).mail = [] ∧
      (room.member participantId).sent = [] ∧ (room.member participantId).received = []

/-- Everyone holds everyone else's current sender key. -/
def Rekeyed (room : Room Chain Key) : Prop :=
  ∀ participantId ∈ members, ∀ peerId ∈ members, participantId ≠ peerId →
    Holds primitives peerId (room.member participantId) (room.member peerId)

/-- A room at rest in which everyone holds everyone's key. The key pairs and the shared
secrets are of generated keys, and no sender key waits for a secret that is there. -/
structure Settled (room : Room Chain Key) : Prop where
  quiescent : room.Quiescent members
  rekeyed : room.Rekeyed primitives members
  pairs : ∀ participantId ∈ members, (room.member participantId).ecdhKeyPair < room.generated
  secrets : ∀ participantId ∈ members, ∀ peerId secret,
    (room.member participantId).sharedSecrets.lookup peerId = some secret → secret.2 < room.generated
  drained : ∀ participantId ∈ members, ∀ peerId,
    (room.member participantId).sharedSecrets.lookup peerId ≠ none →
      (room.member participantId).pendingSenderKeys.lookup peerId = none

/-- What every careful run keeps. -/
structure Coherent (room : Room Chain Key) : Prop where
  sane : ∀ participantId ∈ members, Sane participantId room.generated (room.member participantId)
  between : ∀ participantId ∈ members, ∀ peerId ∈ members, participantId ≠ peerId →
    Between primitives participantId peerId (room.member participantId) (room.member peerId)

variable {primitives members} {room after : Room Chain Key}

/-- A settled room is coherent. -/
theorem Settled.coherent (settled : room.Settled primitives members) :
    room.Coherent primitives members := by
  constructor
  · intro participantId inside
    obtain ⟨awaiting, mail, sent, received⟩ := settled.quiescent participantId inside
    refine {
      pair := settled.pairs participantId inside
      secrets := settled.secrets participantId inside
      awaiting := ?_, sent := ?_, received := ?_, purges := ?_, stays := ?_
      drained := fun peerId held => .inl (settled.drained participantId inside peerId held) }
    · rw [awaiting]
      nofun
    · rw [sent]
      nofun
    · rw [received]
      nofun
    · rw [mail]
      nofun
    · rw [mail]
      nofun
  · intro participantId inside peerId present other
    have left := settled.rekeyed participantId inside peerId present other
    have right := settled.rekeyed peerId present participantId inside other.symm
    have obtains : ∀ {name : String} {member peer : Member Chain Key},
        Holds primitives name member peer → Obtains primitives name member peer :=
      fun holds => ⟨holds.1, .inl holds.2⟩
    exact ⟨.inl ⟨obtains left, obtains right⟩, fun _ => .inl (obtains right),
      fun _ => .inl (obtains left)⟩

/-- At rest, the laws leave everyone with everyone's current key. -/
theorem Coherent.rekeyed (coherent : room.Coherent primitives members)
    (quiescent : room.Quiescent members) : room.Rekeyed primitives members := by
  intro participantId inside peerId present other
  obtain ⟨awaiting, mail, sent, received⟩ := quiescent participantId inside
  obtain ⟨peerAwaiting, peerMail, peerSent, peerReceived⟩ := quiescent peerId present
  have between := coherent.between participantId inside peerId present other
  have silent : ¬ Announces participantId (room.member participantId) := by
    simp [Announces, awaiting, sent]
  have peerSilent : ¬ Announces peerId (room.member peerId) := by
    simp [Announces, peerAwaiting, peerSent]
  have none_upcoming : ¬ Upcoming peerId (room.member participantId) (room.member peerId) := by
    simp [Upcoming, peerSilent, received, awaiting]
  have none_upcoming_peer : ¬ Upcoming participantId (room.member peerId) (room.member participantId) := by
    simp [Upcoming, silent, peerReceived, peerAwaiting]
  have holds : Obtains primitives peerId (room.member participantId) (room.member peerId) →
      Holds primitives peerId (room.member participantId) (room.member peerId) := by
    rintro ⟨held, installed | posted⟩
    · exact ⟨held, installed⟩
    · rw [mail] at posted
      cases posted
  rcases between.linked with ⟨obtains, _⟩ | upcoming | upcoming | ⟨meets, peerMeets⟩
  · exact holds obtains
  · exact absurd upcoming none_upcoming
  · exact absurd upcoming none_upcoming_peer
  · have secret : (room.member peerId).sharedSecrets.lookup participantId =
        some (agreed (room.member peerId) (room.member participantId)) := by
      simpa [Meets, none_upcoming_peer, peerAwaiting] using peerMeets
    have own : (room.member participantId).sharedSecrets.lookup peerId =
        some (agreed (room.member participantId) (room.member peerId)) := by
      simpa [Meets, none_upcoming, awaiting] using meets
    have empty : (room.member participantId).pendingSenderKeys.lookup peerId = none := by
      have drained := (coherent.sane participantId inside).drained peerId (by rw [own]; nofun)
      simpa [awaiting] using drained
    rcases between.back secret with obtains | carried
    · exact holds obtains
    · simp [Carried, peerAwaiting, peerSent, received, awaiting, empty] at carried

/-- One participant changes; the others are as they were. -/
theorem Coherent.set (coherent : room.Coherent primitives members) {participantId : String}
    {member : Member Chain Key} {generated : Nat} (ahead : room.generated ≤ generated)
    (sane : Sane participantId generated member)
    (between : ∀ peerId ∈ members, peerId ≠ participantId →
      Between primitives participantId peerId member (room.member peerId)) :
    ({ room with generated }.set participantId member).Coherent primitives members := by
  constructor
  · intro tested inside
    by_cases same : tested = participantId
    · subst same
      simpa [Room.set] using sane
    · simpa [Room.set, same] using (coherent.sane tested inside).mono ahead
  · intro left leftIn right rightIn other
    by_cases leftSame : left = participantId
    · subst leftSame
      simpa [Room.set, other.symm] using between right rightIn other.symm
    · by_cases rightSame : right = participantId
      · subst rightSame
        simpa [Room.set, leftSame] using (between left leftIn leftSame).symm
      · simpa [Room.set, leftSame, rightSame] using coherent.between left leftIn right rightIn other

/-- A handler that goes on, within the condition, keeps what is between its participant
and a peer. -/
theorem resume_between {participantId peerId : String} {position generated : Nat} {done : Continuation}
    {member : Member Chain Key} {peers : String → Member Chain Key}
    (named : member.awaiting[position]? = some done) (admits : done.Admits participantId member peers)
    (fresh : ∀ secret, member.sharedSecrets.lookup peerId = some secret → secret.2 < generated)
    (peerFresh : ∀ secret, (peers peerId).sharedSecrets.lookup participantId = some secret →
      secret.2 < generated)
    (between : Between primitives participantId peerId member (peers peerId)) :
    Between primitives participantId peerId
      ({ member with awaiting := member.awaiting.eraseIdx position }.resume participantId generated done)
      (peers peerId) := by
  cases done with
  | generatingPair => exact generatingPair_between fresh peerFresh
  | generatingKey newKeyId => exact generatingKey_between named between
  | exporting publicKey => exact (exporting_proceeds named).between between
  | importing senderId publicKey => exact (importing_proceeds named admits).between between
  | agreeing senderId keyPair publicKey => exact (agreeing_proceeds named admits).between between
  | numbering senderId => exact (numbering_proceeds named).between between
  | draining senderId queue =>
    cases queue with
    | nil => exact (drained_proceeds named).between between
    | cons item rest => exact (draining_proceeds named admits).between between
  | decrypting senderId sharedSecret item rest => exact (decrypting_proceeds named admits).between between
  | encrypting recipient sharedSecret senderKeyRaw => exact (encrypting_proceeds named).between between

/-- A message that arrives within the condition does as well. -/
theorem deliver_between {participantId peerId : String} {message : ExchangeMessage}
    {rest : List ExchangeMessage} {member : Member Chain Key} {peers : String → Member Chain Key}
    (other : peerId ≠ participantId) (arrived : member.received = message :: rest)
    (admits : message.Admits participantId member peers)
    (between : Between primitives participantId peerId member (peers peerId)) :
    Between primitives participantId peerId
      ({ member with received := rest }.handleMessage participantId message) (peers peerId) := by
  cases message with
  | e2eePublicKey senderId publicKey =>
    have noKey : ∀ encryptedKey keyId, ExchangeMessage.e2eePublicKey senderId publicKey ≠
        .e2eeSenderKey peerId participantId encryptedKey keyId := by
      intro encryptedKey keyId same
      cases same
    simp only [Member.handleMessage]
    split
    · next own =>
      refine (ignored_proceeds arrived member.peerStates ?_ noKey).between between
      intro key same
      exact other ((ExchangeMessage.e2eePublicKey.inj same).1.symm.trans own)
    · exact (publicKey_proceeds arrived).between between
  | e2eeSenderKey senderId recipient encryptedKey keyId =>
    have noPair : ∀ key, ExchangeMessage.e2eeSenderKey senderId recipient encryptedKey keyId ≠
        .e2eePublicKey peerId key := by
      intro key same
      cases same
    by_cases own : recipient = participantId
    · subst own
      exact (senderKey_proceeds arrived admits).between between
    · simp only [Member.handleMessage, ne_eq, own, not_false_eq_true, if_true]
      refine (ignored_proceeds arrived member.peerStates noPair ?_).between between
      intro key identifier same
      exact own (ExchangeMessage.e2eeSenderKey.inj same).2.1
  | e2eeKeyRotation senderId keyId =>
    have noPair : ∀ key, ExchangeMessage.e2eeKeyRotation senderId keyId ≠ .e2eePublicKey peerId key := by
      intro key same
      cases same
    have noKey : ∀ encryptedKey identifier, ExchangeMessage.e2eeKeyRotation senderId keyId ≠
        .e2eeSenderKey peerId participantId encryptedKey identifier := by
      intro encryptedKey identifier same
      cases same
    simp only [Member.handleMessage]
    split
    · exact (ignored_proceeds arrived member.peerStates noPair noKey).between between
    · exact (ignored_proceeds arrived _ noPair noKey).between between
  | requestKeyframe senderId target =>
    have noPair : ∀ key, ExchangeMessage.requestKeyframe senderId target ≠ .e2eePublicKey peerId key := by
      intro key same
      cases same
    have noKey : ∀ encryptedKey identifier, ExchangeMessage.requestKeyframe senderId target ≠
        .e2eeSenderKey peerId participantId encryptedKey identifier := by
      intro encryptedKey identifier same
      cases same
    exact (ignored_proceeds arrived member.peerStates noPair noKey).between between

/-- What a participant has received after the server has passed a message on. -/
def passed (room : Room Chain Key) (members : List String) (participantId : String)
    (message : ExchangeMessage) (receiver : String) : List ExchangeMessage :=
  (room.member receiver).received ++
    if receiver ∈ members ∧ forwards participantId message receiver = true then [message] else []

/-- A relayed message reaches the inbox of a member and changes nothing else of it. -/
theorem relay_member (participantId receiver : String) (message : ExchangeMessage) :
    (room.relay members participantId message).member receiver =
      { room.member receiver with
        received := room.passed members participantId message receiver } := by
  unfold Room.relay passed
  dsimp only
  split
  · rfl
  · rw [List.append_nil]

/-- The server passes public keys and sender keys on to the peers they are for. -/
theorem passed_forwarded {participantId peerId : String} {message : ExchangeMessage}
    (inside : peerId ∈ members) (forwarded : forwards participantId message peerId = true) :
    message ∈ room.passed members participantId message peerId := by
  unfold passed
  rw [if_pos ⟨inside, forwarded⟩]
  exact List.mem_append_right _ List.mem_cons_self

/-- What is between two participants outlives a message that both may have received. -/
theorem passed_between {left right participantId : String} {message : ExchangeMessage}
    (between : Between primitives left right (room.member left) (room.member right)) :
    Between primitives left right
      { room.member left with
        received := room.passed members participantId message left }
      { room.member right with
        received := room.passed members participantId message right } := by
  have grows : ∀ receiver, ∀ held ∈ (room.member receiver).received,
      held ∈ room.passed members participantId message receiver :=
    fun _ _ held => List.mem_append_left _ held
  have leftGrown := (received_proceeds _ (grows left)).between between
  exact ((received_proceeds _ (grows right)).between leftGrown.symm).symm

/-- The server takes a message from its sender once it has passed it on. -/
theorem taken_between {participantId peerId : String} {message : ExchangeMessage}
    {rest : List ExchangeMessage} (present : peerId ∈ members) (other : peerId ≠ participantId)
    (posted : (room.member participantId).sent = message :: rest)
    (between : Between primitives participantId peerId (room.member participantId) (room.member peerId)) :
    Between primitives participantId peerId
      { room.member participantId with
        sent := rest
        received := room.passed members participantId message participantId }
      { room.member peerId with
        received := room.passed members participantId message peerId } := by
  have forwarded : Proceeds primitives participantId peerId .generatingPair
      { room.member participantId with
        received := room.passed members participantId message participantId }
      { room.member participantId with
        sent := rest
        received := room.passed members participantId message participantId }
      { room.member peerId with
        received := room.passed members participantId message peerId } := by
    refine sent_proceeds posted ?_
    intro kind
    apply passed_forwarded present
    rcases kind with same | ⟨encryptedKey, keyId, same⟩
    · rw [same]
      simpa [forwards] using other
    · rw [same]
      simp [forwards]
  exact forwarded.between (passed_between between)

/-- The server's step keeps a room coherent. -/
theorem Coherent.relays (coherent : room.Coherent primitives members) {participantId : String}
    {message : ExchangeMessage} {rest : List ExchangeMessage} (inside : participantId ∈ members)
    (posted : (room.member participantId).sent = message :: rest) :
    ((room.set participantId { room.member participantId with sent := rest }).relay members participantId
      message).Coherent primitives members := by
  have member : ∀ receiver, ((room.set participantId
      { room.member participantId with sent := rest }).relay members participantId message).member
        receiver = { room.member receiver with
          sent := if receiver = participantId then rest else (room.member receiver).sent
          received := room.passed members participantId message receiver } := by
    intro receiver
    rw [relay_member]
    unfold passed Room.set
    by_cases same : receiver = participantId
    · subst same
      simp
    · simp [same]
  constructor
  · intro receiver present
    rw [member]
    have sane := coherent.sane receiver present
    have below : message.Below room.generated :=
      (coherent.sane participantId inside).sent message (posted ▸ List.mem_cons_self)
    refine { sane with sent := ?_, received := ?_ }
    · intro other held
      dsimp only at held
      split at held
      · exact (coherent.sane participantId inside).sent other (posted ▸ List.mem_cons_of_mem message held)
      · exact sane.sent other held
    · intro other held
      rcases List.mem_append.mp held with old | new
      · exact sane.received other old
      · split at new
        · rw [List.mem_singleton.mp new]
          exact below
        · cases new
  · intro left leftIn right rightIn other
    rw [member, member]
    have between := coherent.between left leftIn right rightIn other
    by_cases leftSame : left = participantId
    · subst leftSame
      rw [if_pos rfl, if_neg other.symm]
      exact taken_between rightIn other.symm posted between
    · by_cases rightSame : right = participantId
      · subst rightSame
        rw [if_neg leftSame, if_pos rfl]
        exact (taken_between leftIn leftSame posted between.symm).symm
      · rw [if_neg leftSame, if_neg rightSame]
        exact passed_between between

/-- One careful event keeps a room coherent. -/
theorem step_coherent (coherent : room.Coherent primitives members) {event : ExchangeEvent}
    (careful : room.Careful primitives event) (stepped : room.step primitives members event = some after) :
    after.Coherent primitives members := by
  cases event with
  | ratchets participantId =>
    simp only [step] at stepped
    split at stepped
    · next inside =>
      obtain rfl := Option.some.inj stepped
      refine coherent.set (Nat.le_refl _) ((coherent.sane participantId inside).await trivial) ?_
      intro peerId present other
      exact ratchet_proceeds.between (coherent.between participantId inside peerId present other.symm)
    · cases stepped
  | resumes participantId position =>
    simp only [step] at stepped
    split at stepped
    · next inside =>
      obtain ⟨done, named, rfl⟩ := Option.map_eq_some_iff.mp stepped
      have sane := coherent.sane participantId inside
      refine coherent.set (Nat.le_succ _) (sane.resume named) ?_
      intro peerId present other
      exact resume_between named (careful done named) (sane.secrets peerId)
        ((coherent.sane peerId present).secrets participantId)
        (coherent.between participantId inside peerId present other.symm)
    · cases stepped
  | relays participantId =>
    simp only [step] at stepped
    split at stepped
    · next inside =>
      obtain ⟨message, head, rfl⟩ := Option.map_eq_some_iff.mp stepped
      obtain ⟨rest, posted⟩ := List.head?_eq_some_iff.mp head
      rw [posted, List.tail_cons]
      exact coherent.relays inside posted
    · cases stepped
  | delivers participantId =>
    simp only [step] at stepped
    split at stepped
    · next inside =>
      obtain ⟨message, head, rfl⟩ := Option.map_eq_some_iff.mp stepped
      obtain ⟨rest, arrived⟩ := List.head?_eq_some_iff.mp head
      rw [arrived, List.tail_cons]
      refine coherent.set (Nat.le_refl _) ((coherent.sane participantId inside).handleMessage arrived) ?_
      intro peerId present other
      exact deliver_between other arrived (careful message head)
        (coherent.between participantId inside peerId present other.symm)
    · cases stepped
  | installs participantId position =>
    simp only [step] at stepped
    split at stepped
    · next inside =>
      obtain ⟨message, named, rfl⟩ := Option.map_eq_some_iff.mp stepped
      have sane := coherent.sane participantId inside
      have posted := List.mem_of_getElem? named
      refine coherent.set (Nat.le_refl _) ?_ ?_
      · exact { sane with
          purges := fun pid keep held => sane.purges pid keep (List.mem_of_mem_eraseIdx held)
          stays := fun pid held => sane.stays pid (List.mem_of_mem_eraseIdx held) }
      · intro peerId present other
        refine (installs_proceeds other named ?_ ?_ (careful message named)).between
          (coherent.between participantId inside peerId present other.symm)
        · exact fun pid keep same => sane.purges pid keep (same ▸ posted)
        · exact fun pid same => sane.stays pid (same ▸ posted)
    · cases stepped
  | purges participantId position =>
    simp only [step] at stepped
    split at stepped
    · next inside =>
      obtain ⟨keepKeyId, named, rfl⟩ := Option.map_eq_some_iff.mp stepped
      have sane := coherent.sane participantId inside
      refine coherent.set (Nat.le_refl _) ?_ ?_
      · refine { sane with purges := ?_, stays := ?_ }
        · intro pid keep held
          rcases List.mem_append.mp held with old | new
          · exact sane.purges pid keep old
          · exact (WorkerMessage.purgeOldKeys.inj (List.mem_singleton.mp new)).1
        · intro pid held
          rcases List.mem_append.mp held with old | new
          · exact sane.stays pid old
          · cases List.mem_singleton.mp new
      · intro peerId present other
        exact (purges_proceeds _ _).between
          (coherent.between participantId inside peerId present other.symm)
    · cases stepped

/-- When ratchets re-key the room. Every run of ratchets and deliveries from a settled
room, in any interleaving, in which each event meets the condition, has everyone hold
everyone's current sender key and key identifier in every quiescent state.

Each pair of members is linked, or a ratchet between the two is under way and the messages
that will link them again are in flight. In a quiescent state nothing is in flight. -/
theorem ratchets_rekey {start : Room Chain Key} (settled : start.Settled primitives members)
    (reached : Reaches (step primitives members) (Careful primitives) start room)
    (quiescent : room.Quiescent members) : room.Rekeyed primitives members := by
  have coherent : room.Coherent primitives members :=
    reached.invariant (fun state => state.Coherent primitives members) settled.coherent
      (fun _ _ _ held careful stepped => step_coherent held careful stepped)
  exact coherent.rekeyed quiescent

section Decidable

instance (name : String) (member : Member Chain Key) : Decidable (Announces name member) :=
  inferInstanceAs (Decidable (_ ∨ _ ∨ _))

instance (peerId : String) (member peer : Member Chain Key) : Decidable (Upcoming peerId member peer) :=
  inferInstanceAs (Decidable (_ ∨ _ ∨ _))

instance (peerId : String) (member peer : Member Chain Key) : Decidable (Meets peerId member peer) :=
  inferInstanceAs (Decidable (_ ∨ _ ∨ _))

instance (ownId : String) (member : Member Chain Key) (peers : String → Member Chain Key)
    (continuation : Continuation) : Decidable (continuation.Admits ownId member peers) := by
  cases continuation with
  | importing => exact inferInstanceAs (Decidable (_ → _))
  | agreeing => exact inferInstanceAs (Decidable (_ → _))
  | draining => exact inferInstanceAs (Decidable (_ → _))
  | decrypting => exact inferInstanceAs (Decidable (_ → ∀ _ ∈ _, _))
  | _ => exact inferInstanceAs (Decidable True)

instance (ownId : String) (member : Member Chain Key) (peers : String → Member Chain Key)
    (message : ExchangeMessage) : Decidable (message.Admits ownId member peers) := by
  cases message with
  | e2eeSenderKey => exact inferInstanceAs (Decidable (_ → (_ → ∀ _ ∈ _, _) ∧ (_ → ∀ _ ∈ _, _)))
  | _ => exact inferInstanceAs (Decidable True)

variable [DecidableEq Chain] [DecidableEq Key]

instance (rawKey : Nat) (entry : ChainEntry Chain Key) : Decidable (entry.Belongs primitives rawKey) :=
  decidable_of_iff (entry.baseSalt = primitives.deriveSalt rawKey entry.keyId ∧ 1 ≤ entry.nextCtr ∧
      entry.chainKeyRaw = chainAt primitives rawKey entry.keyId (entry.nextCtr - 1) ∧
      ∀ kept ∈ entry.skippedKeys.entries,
        kept.1 < entry.nextCtr ∧ kept.2 = messageKeyAt primitives rawKey entry.keyId kept.1)
    ⟨fun ⟨salt, started, chain, skipped⟩ => ⟨salt, started, chain, skipped⟩,
      fun belongs => ⟨belongs.salt, belongs.started, belongs.chain, belongs.skipped⟩⟩

instance (peerId : String) (member : Member Chain Key) (senderKeyRaw keyId : Nat) :
    Decidable (Installed primitives peerId member senderKeyRaw keyId) :=
  inferInstanceAs (Decidable (∃ entry ∈ member.worker.entriesOf peerId, _ ∧ _))

instance (ownId : String) (member : Member Chain Key) (peers : String → Member Chain Key)
    (message : WorkerMessage Nat) : Decidable (MessageAdmits primitives ownId member peers message) := by
  cases message with
  | setKey => exact inferInstanceAs (Decidable (_ → _ → _ → _))
  | _ => exact inferInstanceAs (Decidable True)

instance (room : Room Chain Key) (event : ExchangeEvent) : Decidable (room.Careful primitives event) := by
  cases event with
  | resumes => exact inferInstanceAs (Decidable (∀ _ ∈ _, _))
  | delivers => exact inferInstanceAs (Decidable (∀ _ ∈ _, _))
  | installs => exact inferInstanceAs (Decidable (∀ _ ∈ _, _))
  | _ => exact inferInstanceAs (Decidable True)

end Decidable

section Sample

/-- A sample participant at rest: its key pair and sender key, and those of its peer. -/
def sampleMember (ownId peerId : String) (pair key peerPair peerKey : Nat) : Member SampleKey SampleKey :=
  { ecdhKeyPair := pair
    senderKeyRaw := key
    localKeyId := 0
    peerPublicKeys := (∅ : Table String Nat).insert peerId peerPair
    sharedSecrets := (∅ : Table String SharedSecret).insert peerId (deriveSharedSecret pair peerPair)
    pendingSenderKeys := ∅
    peerSenderKeys := (∅ : Table String (Nat × Nat)).insert peerId (peerKey, 0)
    peerStates := (∅ : Table String PeerState).insert peerId { ready := true, keyId := 0 }
    worker := (Worker.fresh.receive samplePrimitives (.setKey ownId 0 key)).receive samplePrimitives
      (.setKey peerId 0 peerKey)
    mail := []
    purges := []
    awaiting := []
    sent := []
    received := [] }

/-- Alice and bob at rest, with each other's keys. -/
def sampleRoom : Room SampleKey SampleKey :=
  { generated := 4
    member := fun participantId =>
      if participantId = "alice" then sampleMember "alice" "bob" 0 1 2 3
      else sampleMember "bob" "alice" 2 3 0 1 }

/-- The sample room is settled: every link of it stands and nobody is busy. -/
theorem sampleRoom_settled : sampleRoom.Settled samplePrimitives ["alice", "bob"] := by
  have secrets : ∀ (ownId peerId tested : String) (pair key peerPair peerKey : Nat) (secret : SharedSecret),
      (sampleMember ownId peerId pair key peerPair peerKey).sharedSecrets.lookup tested = some secret →
        secret = deriveSharedSecret pair peerPair := by
    intro ownId peerId tested pair key peerPair peerKey secret held
    have read := (Table.lookup_insert_eq ..).symm.trans held
    split at read
    · exact (Option.some.inj read).symm
    · cases read
  constructor
  · intro participantId inside
    by_cases same : participantId = "alice"
    · simp [sampleRoom, same, sampleMember]
    · simp [sampleRoom, same, sampleMember]
  · unfold Rekeyed Holds
    decide +kernel
  · decide +kernel
  · intro participantId inside peerId secret held
    by_cases same : participantId = "alice"
    · simp only [sampleRoom, same, if_true] at held
      rw [secrets _ _ _ _ _ _ _ _ held]
      decide
    · simp only [sampleRoom, same, if_false] at held
      rw [secrets _ _ _ _ _ _ _ _ held]
      decide
  · intro participantId inside peerId held
    by_cases same : participantId = "alice"
    · simp only [sampleRoom, same, if_true]
      rfl
    · simp only [sampleRoom, same, if_false]
      rfl

/-- A ratchet, up to the announcement of the new public key. -/
def ratcheting (participantId : String) : List ExchangeEvent :=
  [.ratchets participantId, .resumes participantId 0, .resumes participantId 0, .resumes participantId 0,
    .installs participantId 0]

/-- The announcement is passed on. -/
def announced (participantId peerId : String) : List ExchangeEvent :=
  [.relays participantId, .relays participantId, .delivers peerId, .delivers peerId]

/-- A public key is answered with the sender key. -/
def answered (participantId peerId : String) : List ExchangeEvent :=
  [.resumes participantId 0, .resumes participantId 0, .resumes participantId 0, .resumes participantId 0,
    .resumes participantId 0, .relays participantId, .delivers peerId]

/-- A sender key is decrypted and installed. -/
def opened (participantId : String) : List ExchangeEvent :=
  [.resumes participantId 0, .installs participantId 0, .relays participantId]

/-- A public key is answered after the sender key that waits for it was decrypted. -/
def answeredLate (participantId peerId : String) : List ExchangeEvent :=
  [.resumes participantId 0, .resumes participantId 0, .resumes participantId 0, .resumes participantId 0]
    ++ opened participantId
    ++ [.resumes participantId 0, .resumes participantId 0, .relays participantId, .delivers peerId]

/-- A single ratchet, with everything delivered, leaves the peer with the old key. -/
theorem ratchet_unheard : ∃ room : Room SampleKey SampleKey,
    sampleRoom.Settled samplePrimitives ["alice", "bob"] ∧
      Reaches (step samplePrimitives ["alice", "bob"]) always sampleRoom room ∧
      room.Quiescent ["alice", "bob"] ∧ ¬ room.Rekeyed samplePrimitives ["alice", "bob"] := by
  refine ⟨(walk (step samplePrimitives ["alice", "bob"]) always sampleRoom
    (ratcheting "alice" ++ announced "alice" "bob" ++ answered "bob" "alice")).getD sampleRoom,
    sampleRoom_settled, walk_reaches_end _ _ _ _ (by decide +kernel), ?_, ?_⟩
  · unfold Quiescent
    decide +kernel
  · unfold Rekeyed Holds
    decide +kernel

/-- Two ratchets whose announcements cross re-key both. -/
theorem ratchets_rekey_crossing :
    ((walk (step samplePrimitives ["alice", "bob"]) (Careful samplePrimitives) sampleRoom
      (ratcheting "alice" ++ ratcheting "bob" ++ announced "alice" "bob" ++ announced "bob" "alice"
        ++ answered "bob" "alice" ++ answeredLate "alice" "bob" ++ opened "bob")).getD sampleRoom).Rekeyed samplePrimitives ["alice", "bob"] := by
  apply ratchets_rekey sampleRoom_settled (walk_reaches_end _ _ _ _ (by decide +kernel))
  unfold Quiescent
  decide +kernel

end Sample

end Room

end Seameet.E2ee

import Seameet.Library.Runs
import Seameet.E2ee.Lobby

/-!
# What two participants that enter a room hold

Every key and every secret on the way is one that the two participants have generated:
a public key is the sender's, a shared secret is that of the two key pairs, and a sender
key is the first one of its sender, encrypted under the shared secret. So whatever
arrives can be opened.
-/

namespace Seameet.E2ee

open Library

/-- A shared secret of the two key pairs. -/
def Agreed (own peer : Keys) (secret : SharedSecret) : Prop :=
  ∃ keyPair publicKey, own.ecdhKeyPair = some keyPair ∧ peer.ecdhKeyPair = some publicKey ∧
    secret = deriveSharedSecret keyPair publicKey

/-- The first sender key of the sender under the shared secret. -/
def SendersItem (sender receiver : Keys) (item : EncryptedKey × Nat) : Prop :=
  ∃ secret senderKeyRaw, Agreed sender receiver secret ∧ sender.senderKeyRaw = some senderKeyRaw ∧
    item = (encryptSenderKey secret senderKeyRaw, Entrant.localKeyId)

/-- Keys that are generated stay. -/
structure Keys.Extends (before after : Keys) : Prop where
  pair : ∀ ecdhKeyPair, before.ecdhKeyPair = some ecdhKeyPair → after.ecdhKeyPair = some ecdhKeyPair
  raw : ∀ senderKeyRaw, before.senderKeyRaw = some senderKeyRaw →
    after.senderKeyRaw = some senderKeyRaw

/-- What a handler holds is what the two participants have generated. -/
def Suspended.Genuine (own peer : Keys) (secret : Prop) : Suspended → Prop
  | .noticing => True
  | .exporting publicKey => own.ecdhKeyPair = some publicKey
  | .importing publicKey => peer.ecdhKeyPair = some publicKey
  | .agreeing _ keyPair publicKey =>
    own.ecdhKeyPair = some keyPair ∧ peer.ecdhKeyPair = some publicKey
  | .numbering _ => secret ∧ own.ecdhKeyPair ≠ none
  | .announcing pending publicKey => own.ecdhKeyPair = some publicKey ∧ (pending = true → secret)
  | .draining queue => secret ∧ ∀ item ∈ queue, SendersItem peer own item
  | .decrypting sharedSecret item rest => secret ∧ Agreed own peer sharedSecret ∧
    SendersItem peer own item ∧ ∀ item ∈ rest.getD [], SendersItem peer own item
  | .encrypting sharedSecret senderKeyRaw =>
    Agreed own peer sharedSecret ∧ own.senderKeyRaw = some senderKeyRaw

/-- A message carries what its sender has generated. -/
def LobbyMessage.Genuine (sender receiver : Keys) : LobbyMessage → Prop
  | .publicKey key => sender.ecdhKeyPair = some key
  | .senderKey encryptedKey keyId => SendersItem sender receiver (encryptedKey, keyId)
  | _ => True

variable {own peer before after : Keys} {secret : SharedSecret}

/-- Who agrees on a secret agrees in both directions. -/
theorem Agreed.symm (agreed : Agreed own peer secret) : Agreed peer own secret := by
  obtain ⟨keyPair, publicKey, mine, theirs, rfl⟩ := agreed
  refine ⟨publicKey, keyPair, theirs, mine, ?_⟩
  rw [deriveSharedSecret, deriveSharedSecret, min_comm, max_comm]

/-- Two parties agree on one secret at most. -/
theorem Agreed.unique {other : SharedSecret} (agreed : Agreed own peer secret)
    (also : Agreed own peer other) : secret = other := by
  obtain ⟨keyPair, publicKey, mine, theirs, rfl⟩ := agreed
  obtain ⟨_, _, mine', theirs', rfl⟩ := also
  cases mine.symm.trans mine'
  cases theirs.symm.trans theirs'
  rfl

namespace Keys

/-- Keys extend themselves. -/
theorem Extends.refl (keys : Keys) : keys.Extends keys := ⟨fun _ has => has, fun _ has => has⟩

/-- With a sender key there is a key pair. -/
theorem pair_of_raw {keys : Keys} (raw : keys.senderKeyRaw.isSome = true) :
    keys.ecdhKeyPair ≠ Option.none := by
  cases keys with
  | ready keyPair senderKeyRaw => simp [ecdhKeyPair]
  | none | pair => simp [senderKeyRaw] at raw

/-- Generating keys loses none. -/
theorem grows_generate (generated : Nat) (keys : Keys) :
    keys.Extends (keys.generate generated) := by
  cases keys with
  | none => exact ⟨by simp [ecdhKeyPair], by simp [senderKeyRaw]⟩
  | pair keyPair => exact ⟨fun _ has => has, by simp [senderKeyRaw]⟩
  | ready keyPair raw => exact Extends.refl _

end Keys

/-- An agreement outlives the growth of either side's keys. -/
theorem Agreed.extend {ownAfter peerAfter : Keys} (agreed : Agreed own peer secret)
    (mine : own.Extends ownAfter) (theirs : peer.Extends peerAfter) :
    Agreed ownAfter peerAfter secret := by
  obtain ⟨keyPair, publicKey, has, hasToo, rfl⟩ := agreed
  exact ⟨keyPair, publicKey, mine.pair _ has, theirs.pair _ hasToo, rfl⟩

/-- A sender's item stays genuine while the keys grow. -/
theorem SendersItem.extend {ownAfter peerAfter : Keys} {item : EncryptedKey × Nat}
    (genuine : SendersItem own peer item) (mine : own.Extends ownAfter)
    (theirs : peer.Extends peerAfter) : SendersItem ownAfter peerAfter item := by
  obtain ⟨secret, senderKeyRaw, agreed, has, rfl⟩ := genuine
  exact ⟨secret, senderKeyRaw, agreed.extend mine theirs, mine.raw _ has, rfl⟩

/-- What a continuation carries stays genuine while the keys grow. -/
theorem Suspended.Genuine.extend {ownAfter peerAfter : Keys} {held later : Prop}
    {suspended : Suspended} (genuine : suspended.Genuine own peer held)
    (mine : own.Extends ownAfter) (theirs : peer.Extends peerAfter) (stays : held → later) :
    suspended.Genuine ownAfter peerAfter later := by
  cases suspended with
  | noticing => trivial
  | exporting publicKey => exact mine.pair _ genuine
  | importing publicKey => exact theirs.pair _ genuine
  | agreeing broadcast keyPair publicKey =>
    exact ⟨mine.pair _ genuine.1, theirs.pair _ genuine.2⟩
  | numbering broadcast =>
    obtain ⟨keyPair, has⟩ := Option.ne_none_iff_exists'.mp genuine.2
    exact ⟨stays genuine.1, by rw [mine.pair _ has]; simp⟩
  | announcing pending publicKey =>
    exact ⟨mine.pair _ genuine.1, fun isPending => stays (genuine.2 isPending)⟩
  | draining queue =>
    exact ⟨stays genuine.1, fun item listed => (genuine.2 item listed).extend theirs mine⟩
  | decrypting sharedSecret item rest =>
    obtain ⟨has, agreed, first, others⟩ := genuine
    exact ⟨stays has, agreed.extend mine theirs, first.extend theirs mine,
      fun item listed => (others item listed).extend theirs mine⟩
  | encrypting sharedSecret senderKeyRaw =>
    exact ⟨genuine.1.extend mine theirs, mine.raw _ genuine.2⟩

/-- What a message carries stays genuine while the keys grow. -/
theorem LobbyMessage.Genuine.extend {ownAfter peerAfter : Keys} {message : LobbyMessage}
    (genuine : message.Genuine own peer) (mine : own.Extends ownAfter)
    (theirs : peer.Extends peerAfter) : message.Genuine ownAfter peerAfter := by
  cases message with
  | publicKey key => exact mine.pair _ genuine
  | senderKey encryptedKey keyId => exact SendersItem.extend genuine mine theirs
  | _ => trivial

/-- Everything a participant holds, and has on the way, is what the two have generated. -/
structure Entrant.Genuine {Chain Key : Type} (ownId peerId : String) (entrant : Entrant Chain Key)
    (peer : Keys) : Prop where
  awaiting : ∀ suspended ∈ entrant.awaiting,
    suspended.Genuine entrant.keys peer (entrant.sharedSecret.isSome = true)
  sent : ∀ message ∈ entrant.sent, message.Genuine entrant.keys peer
  received : ∀ message ∈ entrant.received, message.Genuine peer entrant.keys
  peerPublicKey : ∀ publicKey, entrant.peerPublicKey = some publicKey →
    peer.ecdhKeyPair = some publicKey
  sharedSecret : ∀ secret, entrant.sharedSecret = some secret → Agreed entrant.keys peer secret
  pending : ∀ item ∈ entrant.pendingSenderKeys, SendersItem peer entrant.keys item
  obtained : ∀ key, entrant.peerSenderKey = some key →
    ∃ senderKeyRaw, peer.senderKeyRaw = some senderKeyRaw ∧ key = (senderKeyRaw, Entrant.localKeyId)
  mail : ∀ message ∈ entrant.mail, ∃ keys id senderKeyRaw, keys.senderKeyRaw = some senderKeyRaw ∧
    message = .setKey id Entrant.localKeyId senderKeyRaw ∧
      (id = ownId ∧ keys = entrant.keys ∨ id = peerId ∧ keys = peer)

namespace Entrant.Genuine

variable {Chain Key : Type} {ownId peerId : String} {entrant : Entrant Chain Key}

/-- The other participant generates a key. -/
theorem peer_extends (genuine : entrant.Genuine ownId peerId before)
    (grows : before.Extends after) : entrant.Genuine ownId peerId after where
  awaiting suspended held :=
    (genuine.awaiting suspended held).extend (.refl _) grows fun has => has
  sent message placed := (genuine.sent message placed).extend (.refl _) grows
  received message placed := (genuine.received message placed).extend grows (.refl _)
  peerPublicKey publicKey held := grows.pair _ (genuine.peerPublicKey publicKey held)
  sharedSecret secret held := (genuine.sharedSecret secret held).extend (.refl _) grows
  pending item queued := (genuine.pending item queued).extend grows (.refl _)
  obtained key held := by
    obtain ⟨senderKeyRaw, has, same⟩ := genuine.obtained key held
    exact ⟨senderKeyRaw, grows.raw _ has, same⟩
  mail message posted := by
    obtain ⟨keys, id, senderKeyRaw, has, same, whose⟩ := genuine.mail message posted
    rcases whose with own | ⟨named, rfl⟩
    · exact ⟨keys, id, senderKeyRaw, has, same, .inl own⟩
    · exact ⟨after, id, senderKeyRaw, grows.raw _ has, same, .inr ⟨named, rfl⟩⟩

/-- A message is sent. -/
theorem send (genuine : entrant.Genuine ownId peerId peer) (message : LobbyMessage)
    (carries : message.Genuine entrant.keys peer) :
    (entrant.send message).Genuine ownId peerId peer :=
  { genuine with
    sent := fun tested placed => by
      rcases List.mem_append.mp placed with earlier | now
      · exact genuine.sent tested earlier
      · cases List.mem_singleton.mp now
        exact carries }

/-- A handler is put aside. -/
theorem await (genuine : entrant.Genuine ownId peerId peer) {suspended : Suspended}
    (holds : suspended.Genuine entrant.keys peer (entrant.sharedSecret.isSome = true)) :
    (entrant.await suspended).Genuine ownId peerId peer :=
  { genuine with
    awaiting := fun tested held => by
      rcases List.mem_append.mp held with earlier | now
      · exact genuine.awaiting tested earlier
      · cases List.mem_singleton.mp now
        exact holds }

/-- The queued sender keys are taken out. -/
theorem drain (genuine : entrant.Genuine ownId peerId peer)
    (secret : entrant.sharedSecret.isSome = true) :
    entrant.drainPendingSenderKeys.Genuine ownId peerId peer := by
  have emptied : ({ entrant with pendingSenderKeys := [] } : Entrant Chain Key).Genuine ownId peerId
      peer := { genuine with pending := by simp }
  exact emptied.await ⟨secret, genuine.pending⟩

/-- A queue is gone on with. -/
theorem proceed (genuine : entrant.Genuine ownId peerId peer)
    (secret : entrant.sharedSecret.isSome = true) {rest : Option (List (EncryptedKey × Nat))}
    (queue : ∀ item ∈ rest.getD [], SendersItem peer entrant.keys item) :
    (entrant.proceed rest).Genuine ownId peerId peer := by
  cases rest with
  | none => exact genuine
  | some rest => exact genuine.await ⟨secret, queue⟩

/-- A sender key is to be decrypted. -/
theorem processSenderKey (genuine : entrant.Genuine ownId peerId peer)
    (secret : entrant.sharedSecret.isSome = true) {item : EncryptedKey × Nat}
    {rest : Option (List (EncryptedKey × Nat))} (first : SendersItem peer entrant.keys item)
    (queue : ∀ item ∈ rest.getD [], SendersItem peer entrant.keys item) :
    (entrant.processSenderKey item rest).Genuine ownId peerId peer := by
  obtain ⟨sharedSecret, held⟩ := Option.isSome_iff_exists.mp secret
  simp only [Entrant.processSenderKey, held]
  exact genuine.await ⟨secret, genuine.sharedSecret sharedSecret held, first, queue⟩

/-- A handler goes on. -/
theorem resume (genuine : entrant.Genuine ownId peerId peer) {suspended : Suspended}
    (holds : suspended.Genuine entrant.keys peer (entrant.sharedSecret.isSome = true)) :
    (entrant.resume peerId suspended).Genuine ownId peerId peer := by
  cases suspended with
  | noticing =>
    simp only [Entrant.resume]
    split
    · exact genuine.await ‹_›
    · exact genuine
  | exporting publicKey => exact genuine.send _ holds
  | importing publicKey =>
    have stored : ({ entrant with peerPublicKey := some publicKey } : Entrant Chain Key).Genuine
        ownId peerId peer :=
      { genuine with peerPublicKey := fun key same => Option.some.inj same ▸ holds }
    simp only [Entrant.resume]
    split
    · exact stored.await ⟨‹_›, holds⟩
    · exact stored
  | agreeing broadcast keyPair publicKey =>
    have agreed : Agreed entrant.keys peer (deriveSharedSecret keyPair publicKey) :=
      ⟨keyPair, publicKey, holds.1, holds.2, rfl⟩
    have derived : ({ entrant with
        sharedSecret := some (deriveSharedSecret keyPair publicKey) } : Entrant Chain Key).Genuine
          ownId peerId peer :=
      { genuine with
        awaiting := fun tested held =>
          (genuine.awaiting tested held).extend (.refl _) (.refl _) fun _ => rfl
        sharedSecret := fun secret same => Option.some.inj same ▸ agreed }
    exact derived.await ⟨rfl, by simp [holds.1]⟩
  | numbering broadcast =>
    cases broadcast with
    | false => exact genuine.drain holds.1
    | true =>
      simp only [Entrant.resume]
      split
      · exact genuine.await ⟨‹_›, fun _ => holds.1⟩
      · exact genuine
  | announcing pending publicKey =>
    have sends := genuine.send (.publicKey publicKey) holds.1
    cases pending with
    | false => exact sends
    | true => exact sends.drain (holds.2 rfl)
  | draining queue =>
    cases queue with
    | nil =>
      simp only [Entrant.resume, Entrant.sendSenderKeyTo]
      split
      · exact genuine.await ⟨genuine.sharedSecret _ ‹_›, ‹_›⟩
      · exact genuine
    | cons item queue =>
      exact genuine.processSenderKey holds.1 (holds.2 item List.mem_cons_self)
        fun later queued => holds.2 later (List.mem_cons_of_mem item queued)
  | decrypting sharedSecret item rest =>
    obtain ⟨secret, agreed, ⟨sealed, senderKeyRaw, same, has, rfl⟩, queue⟩ := holds
    cases agreed.symm.unique same
    simp only [Entrant.resume, decryptSenderKey, encryptSenderKey, if_pos]
    have installs : ({ entrant with
        peerSenderKey := some (senderKeyRaw, localKeyId)
        mail := entrant.mail ++ [WorkerMessage.setKey peerId localKeyId senderKeyRaw] } :
          Entrant Chain Key).Genuine ownId peerId peer :=
      { genuine with
        obtained := fun key held => ⟨senderKeyRaw, has, (Option.some.inj held).symm⟩
        mail := fun message posted => by
          rcases List.mem_append.mp posted with earlier | now
          · exact genuine.mail message earlier
          · exact ⟨peer, peerId, senderKeyRaw, has, List.mem_singleton.mp now,
              .inr ⟨rfl, rfl⟩⟩ }
    exact (installs.send .requestKeyframe trivial).proceed secret queue
  | encrypting sharedSecret senderKeyRaw =>
    exact genuine.send _ ⟨sharedSecret, senderKeyRaw, holds.1, holds.2, rfl⟩

/-- A message of the server is handled. -/
theorem handleMessage (genuine : entrant.Genuine ownId peerId peer) {message : LobbyMessage}
    (carries : message.Genuine peer entrant.keys) :
    (entrant.handleMessage message).Genuine ownId peerId peer := by
  cases message with
  | present => exact genuine.await trivial
  | publicKey key => exact genuine.await carries
  | senderKey encryptedKey keyId =>
    simp only [Entrant.handleMessage]
    split
    · refine { genuine with pending := fun item queued => ?_ }
      simp only [queueSenderKey] at queued
      have listed : item ∈ entrant.pendingSenderKeys ++ [(encryptedKey, keyId)] := by
        split at queued
        · exact List.mem_of_mem_drop queued
        · exact queued
      rcases List.mem_append.mp listed with earlier | now
      · exact genuine.pending item earlier
      · cases List.mem_singleton.mp now
        exact carries
    · rename_i missing
      refine genuine.processSenderKey ?_ carries (by simp)
      exact Option.isSome_iff_ne_none.mpr (by simpa using missing)
  | join | requestKeyframe => exact genuine

/-- A key is generated. -/
theorem generate (genuine : entrant.Genuine ownId peerId peer) (generated : Nat) :
    (entrant.generate ownId generated).Genuine ownId peerId peer := by
  have grows := entrant.keys.grows_generate generated
  have grown : ({ entrant with
      keys := entrant.keys.generate generated } : Entrant Chain Key).Genuine ownId peerId peer :=
    { awaiting := fun suspended held =>
        (genuine.awaiting suspended held).extend grows (.refl _) fun has => has
      sent := fun message placed => (genuine.sent message placed).extend grows (.refl _)
      received := fun message placed => (genuine.received message placed).extend (.refl _) grows
      peerPublicKey := genuine.peerPublicKey
      sharedSecret := fun secret held => (genuine.sharedSecret secret held).extend grows (.refl _)
      pending := fun item queued => (genuine.pending item queued).extend (.refl _) grows
      obtained := genuine.obtained
      mail := fun message posted => by
        obtain ⟨keys, id, senderKeyRaw, has, same, ⟨named, rfl⟩ | other⟩ :=
          genuine.mail message posted
        · exact ⟨_, id, senderKeyRaw, grows.raw _ has, same, .inl ⟨named, rfl⟩⟩
        · exact ⟨keys, id, senderKeyRaw, has, same, .inr other⟩ }
  simp only [Entrant.generate]
  split
  · rename_i keyPair senderKeyRaw before has
    refine { grown with mail := fun message posted => ?_ }
    rcases List.mem_append.mp posted with earlier | now
    · exact grown.mail message earlier
    · exact ⟨_, ownId, senderKeyRaw, has, List.mem_singleton.mp now, .inl ⟨rfl, rfl⟩⟩
  · exact grown

/-- The broadcast starts. -/
theorem broadcast (genuine : entrant.Genuine ownId peerId peer) :
    entrant.broadcast.Genuine ownId peerId peer := by
  have marked : ({ entrant with broadcasted := true } : Entrant Chain Key).Genuine ownId peerId
      peer := { genuine with }
  simp only [Entrant.broadcast]
  split
  · exact marked.await ⟨‹_›, genuine.peerPublicKey _ ‹_›⟩
  · exact marked.await ⟨‹_›, by simp⟩
  · exact marked

end Entrant.Genuine

end Seameet.E2ee

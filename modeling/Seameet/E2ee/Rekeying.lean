import Mathlib.Data.List.Basic
import Mathlib.Data.List.Perm.Basic
import Seameet.E2ee.Exchange

/-!
# Ratchets that meet

A participant sends its new sender key to a peer only when a public key of that peer
arrives, and nobody answers a public key with their own. So a ratchet reaches a peer
only if the peer ratchets as well, and the two public keys cross: each is handled
after the other side has its new key pair.

The condition for that is put on the handlers one by one. Under it, two participants
hold each other's current sender keys, or a public key of one is still to be handled
by the other, or each has the secret of their two key pairs or is about to derive it;
and whoever has that secret has sent its sender key under it, or is about to.
-/

namespace Seameet.E2ee

open Library

/-- The handler generates a sender key, and will export the public key after it. -/
def Continuation.generates : Continuation → Bool
  | .generatingKey _ => true
  | _ => false

/-- The handler of a public key has the shared secret, and will send the sender key. -/
def Continuation.answers (peerId : String) : Continuation → Bool
  | .numbering senderId => senderId == peerId
  | .draining senderId _ => senderId == peerId
  | .decrypting senderId _ _ (some _) => senderId == peerId
  | _ => false

/-- The handler will try this sender key of the peer. -/
def Continuation.carries (peerId : String) (item : EncryptedKey × Nat) : Continuation → Bool
  | .draining senderId queue => senderId == peerId && decide (item ∈ queue)
  | .decrypting senderId sharedSecret held rest => senderId == peerId &&
      (decide (held = item ∧ sharedSecret = item.1.secret) || decide (item ∈ rest.getD []))
  | _ => false

section Pairs

variable {Chain Key : Type}

/-- The secret of the current key pairs of two participants. -/
def agreed (left right : Member Chain Key) : SharedSecret :=
  deriveSharedSecret left.ecdhKeyPair right.ecdhKeyPair

/-- The current sender key of a participant under that secret. -/
def currentItem (sender receiver : Member Chain Key) : EncryptedKey × Nat :=
  (encryptSenderKey (agreed sender receiver) sender.senderKeyRaw, sender.localKeyId)

/-- The participant will announce its current key pair. -/
def Announces (name : String) (member : Member Chain Key) : Prop :=
  (∃ continuation ∈ member.awaiting, continuation.generates = true) ∨
    .exporting member.ecdhKeyPair ∈ member.awaiting ∨
    .e2eePublicKey name member.ecdhKeyPair ∈ member.sent

/-- The peer's current public key is on its way to the participant, whose handler has
not read its own key pair for it yet. -/
def Upcoming (peerId : String) (member peer : Member Chain Key) : Prop :=
  Announces peerId peer ∨ .e2eePublicKey peerId peer.ecdhKeyPair ∈ member.received ∨
    .importing peerId peer.ecdhKeyPair ∈ member.awaiting

/-- The participant has the secret of the two current key pairs, or is about to. -/
def Meets (peerId : String) (member peer : Member Chain Key) : Prop :=
  Upcoming peerId member peer ∨
    .agreeing peerId member.ecdhKeyPair peer.ecdhKeyPair ∈ member.awaiting ∨
    member.sharedSecrets.lookup peerId = some (agreed member peer)

/-- The worker has a chain of the sender key. -/
def Installed (primitives : Primitives Nat Chain Key) (peerId : String) (member : Member Chain Key)
    (senderKeyRaw keyId : Nat) : Prop :=
  ∃ entry ∈ member.worker.entriesOf peerId,
    entry.keyId = keyId ∧ entry.Belongs primitives senderKeyRaw

/-- The participant's worker and its peer table hold the peer's current sender key. -/
def Holds (primitives : Primitives Nat Chain Key) (peerId : String) (member peer : Member Chain Key) :
    Prop :=
  member.peerSenderKeys.lookup peerId = some (peer.senderKeyRaw, peer.localKeyId) ∧
    Installed primitives peerId member peer.senderKeyRaw peer.localKeyId

/-- The same, with the worker's message perhaps still on its way. -/
def Obtains (primitives : Primitives Nat Chain Key) (peerId : String) (member peer : Member Chain Key) :
    Prop :=
  member.peerSenderKeys.lookup peerId = some (peer.senderKeyRaw, peer.localKeyId) ∧
    (Installed primitives peerId member peer.senderKeyRaw peer.localKeyId ∨
      .setKey peerId peer.localKeyId peer.senderKeyRaw ∈ member.mail)

/-- The sender's current key is on its way to the receiver under the current secret. -/
def Carried (senderId receiverId : String) (sender receiver : Member Chain Key) : Prop :=
  (∃ continuation ∈ sender.awaiting, continuation.answers receiverId = true) ∨
    .encrypting receiverId (agreed sender receiver) sender.senderKeyRaw ∈ sender.awaiting ∨
    .e2eeSenderKey senderId receiverId (currentItem sender receiver).1 sender.localKeyId ∈ sender.sent ∨
    .e2eeSenderKey senderId receiverId (currentItem sender receiver).1 sender.localKeyId ∈
      receiver.received ∨
    (∃ queue, receiver.pendingSenderKeys.lookup senderId = some queue ∧
      currentItem sender receiver ∈ queue) ∨
    ∃ continuation ∈ receiver.awaiting,
      continuation.carries senderId (currentItem sender receiver) = true

/-- What holds between two participants. -/
def Linked (primitives : Primitives Nat Chain Key) (leftId rightId : String)
    (left right : Member Chain Key) : Prop :=
  Obtains primitives rightId left right ∧ Obtains primitives leftId right left ∨
    Upcoming rightId left right ∨ Upcoming leftId right left ∨
    Meets rightId left right ∧ Meets leftId right left

/-- Whoever has the secret of the current key pairs has its sender key delivered. -/
def Delivers (primitives : Primitives Nat Chain Key) (senderId receiverId : String)
    (sender receiver : Member Chain Key) : Prop :=
  sender.sharedSecrets.lookup receiverId = some (agreed sender receiver) →
    Obtains primitives senderId receiver sender ∨ Carried senderId receiverId sender receiver

/-- No sender key waits for a secret that is there, unless a handler is about to try
the waiting ones. -/
def Drained (peerId : String) (member : Member Chain Key) : Prop :=
  member.sharedSecrets.lookup peerId ≠ none →
    member.pendingSenderKeys.lookup peerId = none ∨ .numbering peerId ∈ member.awaiting

/-- The secret two members agree on is the same from either side. -/
theorem agreed_comm (left right : Member Chain Key) : agreed left right = agreed right left := by
  unfold agreed deriveSharedSecret
  rw [min_comm, max_comm]

/-- A link reads the same from either end. -/
theorem Linked.symm {primitives : Primitives Nat Chain Key} {leftId rightId : String}
    {left right : Member Chain Key} (linked : Linked primitives leftId rightId left right) :
    Linked primitives rightId leftId right left := by
  rcases linked with obtained | rightUpcoming | leftUpcoming | meet
  · exact .inl obtained.symm
  · exact .inr (.inr (.inl rightUpcoming))
  · exact .inr (.inl leftUpcoming)
  · exact .inr (.inr (.inr meet.symm))

variable {primitives : Primitives Nat Chain Key} {ownId peerId : String}
  {before after peer : Member Chain Key}

/-- The peer's current key waits in a queue or in a handler. -/
def Waits (peerId : String) (item : EncryptedKey × Nat) (member : Member Chain Key) : Prop :=
  (∃ queue, member.pendingSenderKeys.lookup peerId = some queue ∧ item ∈ queue) ∨
    ∃ continuation ∈ member.awaiting, continuation.carries peerId item = true

/-- What is between two participants. -/
structure Between (primitives : Primitives Nat Chain Key) (leftId rightId : String)
    (left right : Member Chain Key) : Prop where
  linked : Linked primitives leftId rightId left right
  forth : Delivers primitives leftId rightId left right
  back : Delivers primitives rightId leftId right left

/-- What stands between two members reads the same from either end. -/
theorem Between.symm {primitives : Primitives Nat Chain Key} {leftId rightId : String}
    {left right : Member Chain Key} (between : Between primitives leftId rightId left right) :
    Between primitives rightId leftId right left :=
  ⟨between.linked.symm, between.back, between.forth⟩

/-- One participant goes on and keeps its current keys, and at most one continuation is
done. Whatever mattered to the peer is kept, or has led to what comes next. A field
that is not given says that nothing of its kind has happened. -/
structure Proceeds (primitives : Primitives Nat Chain Key) (ownId peerId : String)
    (done : Continuation) (before after peer : Member Chain Key) : Prop where
  pair : after.ecdhKeyPair = before.ecdhKeyPair := by rfl
  key : after.senderKeyRaw = before.senderKeyRaw := by rfl
  keyId : after.localKeyId = before.localKeyId := by rfl
  awaiting : ∀ continuation ∈ before.awaiting,
    continuation = done ∨ continuation ∈ after.awaiting
  generates : done.generates = true → Announces ownId after := by nofun
  exported : done = .exporting before.ecdhKeyPair →
    .e2eePublicKey ownId before.ecdhKeyPair ∈ after.sent := by nofun
  announced : .e2eePublicKey ownId before.ecdhKeyPair ∈ before.sent →
    .e2eePublicKey ownId before.ecdhKeyPair ∈ after.sent ∨
      .e2eePublicKey ownId before.ecdhKeyPair ∈ peer.received := by exact Or.inl
  arrived : .e2eePublicKey peerId peer.ecdhKeyPair ∈ before.received →
    .e2eePublicKey peerId peer.ecdhKeyPair ∈ after.received ∨
      .importing peerId peer.ecdhKeyPair ∈ after.awaiting := by exact Or.inl
  imported : done = .importing peerId peer.ecdhKeyPair →
    Meets ownId peer after ∧ Meets peerId after peer := by nofun
  derived : done = .agreeing peerId before.ecdhKeyPair peer.ecdhKeyPair →
    after.sharedSecrets.lookup peerId = some (agreed before peer) := by nofun
  secret : before.sharedSecrets.lookup peerId = some (agreed before peer) →
    after.sharedSecrets.lookup peerId = some (agreed before peer) := by exact id
  obtained : Obtains primitives peerId before peer → Obtains primitives peerId after peer := by exact id
  shared : after.sharedSecrets.lookup peerId = some (agreed before peer) →
    before.sharedSecrets.lookup peerId = some (agreed before peer) ∨
      ∃ continuation ∈ after.awaiting, continuation.answers peerId = true := by exact Or.inl
  answered : done.answers peerId = true →
    after.sharedSecrets.lookup peerId = some (agreed before peer) →
    (∃ continuation ∈ after.awaiting, continuation.answers peerId = true) ∨
      .encrypting peerId (agreed before peer) before.senderKeyRaw ∈ after.awaiting := by nofun
  encrypted : done = .encrypting peerId (agreed before peer) before.senderKeyRaw →
    .e2eeSenderKey ownId peerId (currentItem before peer).1 before.localKeyId ∈ after.sent := by nofun
  posted : .e2eeSenderKey ownId peerId (currentItem before peer).1 before.localKeyId ∈ before.sent →
    .e2eeSenderKey ownId peerId (currentItem before peer).1 before.localKeyId ∈ after.sent ∨
      .e2eeSenderKey ownId peerId (currentItem before peer).1 before.localKeyId ∈ peer.received := by
    exact Or.inl
  delivered : .e2eeSenderKey peerId ownId (currentItem peer before).1 peer.localKeyId ∈ before.received →
    .e2eeSenderKey peerId ownId (currentItem peer before).1 peer.localKeyId ∈ after.received ∨
      Waits peerId (currentItem peer before) after := by exact Or.inl
  queued : ∀ queue, before.pendingSenderKeys.lookup peerId = some queue →
    currentItem peer before ∈ queue → Waits peerId (currentItem peer before) after := by
    exact fun queue present member => .inl ⟨queue, present, member⟩
  carried : done.carries peerId (currentItem peer before) = true →
    Waits peerId (currentItem peer before) after ∨ Obtains primitives peerId after peer := by nofun

variable {primitives : Primitives Nat Chain Key} {ownId peerId : String} {done : Continuation}
  {before after peer : Member Chain Key}

namespace Proceeds

/-- An announcement that was ahead is ahead still, or the peer has it in its inbox. -/
theorem announces (proceeds : Proceeds primitives ownId peerId done before after peer)
    (announced : Announces ownId before) :
    Announces ownId after ∨ .e2eePublicKey ownId before.ecdhKeyPair ∈ peer.received := by
  unfold Announces
  rw [proceeds.pair]
  rcases announced with ⟨continuation, member, generates⟩ | exporting | sent
  · rcases proceeds.awaiting continuation member with rfl | still
    · have announcing := proceeds.generates generates
      unfold Announces at announcing
      rw [proceeds.pair] at announcing
      exact .inl announcing
    · exact .inl (.inl ⟨continuation, still, generates⟩)
  · rcases proceeds.awaiting _ exporting with rfl | still
    · exact .inl (.inr (.inr (proceeds.exported rfl)))
    · exact .inl (.inr (.inl still))
  · rcases proceeds.announced sent with still | there
    · exact .inl (.inr (.inr still))
    · exact .inr there

/-- The peer's work leaves an introduction ahead where it was. -/
theorem upcoming_peer (proceeds : Proceeds primitives ownId peerId done before after peer)
    (upcoming : Upcoming ownId peer before) : Upcoming ownId peer after := by
  unfold Upcoming
  rw [proceeds.pair]
  rcases upcoming with announced | waiting
  · rcases proceeds.announces announced with still | there
    · exact .inl still
    · exact .inr (.inl there)
  · exact .inr waiting

/-- The peer's work leaves a meeting ahead where it was. -/
theorem meets_peer (proceeds : Proceeds primitives ownId peerId done before after peer)
    (meets : Meets ownId peer before) : Meets ownId peer after := by
  unfold Meets agreed at meets ⊢
  rw [proceeds.pair]
  exact Or.imp_left proceeds.upcoming_peer meets

/-- An introduction ahead stays ahead, or both have the other's key before them. -/
theorem upcoming (proceeds : Proceeds primitives ownId peerId done before after peer)
    (upcoming : Upcoming peerId before peer) :
    Upcoming peerId after peer ∨ Meets ownId peer after ∧ Meets peerId after peer := by
  rcases upcoming with announced | received | importing
  · exact .inl (.inl announced)
  · exact .inl (.inr (proceeds.arrived received))
  · rcases proceeds.awaiting _ importing with rfl | still
    · exact .inr (proceeds.imported rfl)
    · exact .inl (.inr (.inr still))

/-- A meeting ahead stays ahead, whatever the member does. -/
theorem meets (proceeds : Proceeds primitives ownId peerId done before after peer)
    (meets : Meets peerId before peer) : Meets peerId after peer := by
  have same : agreed after peer = agreed before peer := by
    unfold agreed
    rw [proceeds.pair]
  rcases meets with upcoming | agreeing | secret
  · rcases proceeds.upcoming upcoming with still | ⟨_, met⟩
    · exact .inl still
    · exact met
  · rcases proceeds.awaiting _ agreeing with rfl | still
    · exact .inr (.inr (by rw [same]; exact proceeds.derived rfl))
    · exact .inr (.inl (by rw [proceeds.pair]; exact still))
  · exact .inr (.inr (by rw [same]; exact proceeds.secret secret))

/-- The two stay linked. -/
theorem linked (proceeds : Proceeds primitives ownId peerId done before after peer)
    (linked : Linked primitives ownId peerId before peer) : Linked primitives ownId peerId after peer := by
  rcases linked with ⟨left, right⟩ | waiting | waiting | ⟨left, right⟩
  · unfold Obtains at right
    rw [← proceeds.key, ← proceeds.keyId] at right
    exact .inl ⟨proceeds.obtained left, right⟩
  · rcases proceeds.upcoming waiting with still | met
    · exact .inr (.inl still)
    · exact .inr (.inr (.inr met.symm))
  · exact .inr (.inr (.inl (proceeds.upcoming_peer waiting)))
  · exact .inr (.inr (.inr ⟨proceeds.meets left, proceeds.meets_peer right⟩))

/-- What the participant sends its peer is kept. -/
theorem forth (proceeds : Proceeds primitives ownId peerId done before after peer)
    (delivers : Delivers primitives ownId peerId before peer) : Delivers primitives ownId peerId after peer := by
  intro secret
  have same : agreed after peer = agreed before peer := by
    unfold agreed
    rw [proceeds.pair]
  have item : currentItem after peer = currentItem before peer := by
    unfold currentItem
    rw [same, proceeds.key, proceeds.keyId]
  unfold Obtains Carried
  rw [item, same, proceeds.key, proceeds.keyId]
  rw [same] at secret
  rcases proceeds.shared secret with old | answering
  · rcases delivers old with obtained | ⟨continuation, member, answers⟩ | encrypting | sent | elsewhere
    · exact .inl obtained
    · rcases proceeds.awaiting _ member with rfl | still
      · rcases proceeds.answered answers secret with answering | encrypting
        · exact .inr (.inl answering)
        · exact .inr (.inr (.inl encrypting))
      · exact .inr (.inl ⟨continuation, still, answers⟩)
    · rcases proceeds.awaiting _ encrypting with rfl | still
      · exact .inr (.inr (.inr (.inl (proceeds.encrypted rfl))))
      · exact .inr (.inr (.inl still))
    · rcases proceeds.posted sent with still | there
      · exact .inr (.inr (.inr (.inl still)))
      · exact .inr (.inr (.inr (.inr (.inl there))))
    · exact .inr (.inr (.inr (.inr elsewhere)))
  · exact .inr (.inl answering)

/-- What the peer sends the participant is kept. -/
theorem back (proceeds : Proceeds primitives ownId peerId done before after peer)
    (delivers : Delivers primitives peerId ownId peer before) : Delivers primitives peerId ownId peer after := by
  intro secret
  have same : agreed peer after = agreed peer before := by
    unfold agreed
    rw [proceeds.pair]
  have item : currentItem peer after = currentItem peer before := by
    unfold currentItem
    rw [same]
  unfold Carried
  rw [item, same]
  rw [same] at secret
  rcases delivers secret with obtained | answers | encrypting | sent | received | ⟨queue, present, member⟩ |
    ⟨continuation, member, carries⟩
  · exact .inl (proceeds.obtained obtained)
  · exact .inr (.inl answers)
  · exact .inr (.inr (.inl encrypting))
  · exact .inr (.inr (.inr (.inl sent)))
  · rcases proceeds.delivered received with still | waits
    · exact .inr (.inr (.inr (.inr (.inl still))))
    · exact .inr (.inr (.inr (.inr (.inr waits))))
  · exact .inr (.inr (.inr (.inr (.inr (proceeds.queued queue present member)))))
  · rcases proceeds.awaiting _ member with rfl | still
    · rcases proceeds.carried carries with waits | obtained
      · exact .inr (.inr (.inr (.inr (.inr waits))))
      · exact .inl obtained
    · exact .inr (.inr (.inr (.inr (.inr (.inr ⟨continuation, still, carries⟩)))))

/-- What stands between the two stands after the work, whatever case it was in. -/
theorem between (proceeds : Proceeds primitives ownId peerId done before after peer)
    (between : Between primitives ownId peerId before peer) : Between primitives ownId peerId after peer :=
  ⟨proceeds.linked between.linked, proceeds.forth between.forth, proceeds.back between.back⟩

end Proceeds

/-- What the condition asks of a handler that goes on at a participant. A current public
key is read only when the other side has, or will have, the secret that comes of it.
The secret of the current key pairs is not replaced by an older one. A current sender
key is tried under that secret only, and an older one does not replace it. -/
def Continuation.Admits (ownId : String) (member : Member Chain Key)
    (peers : String → Member Chain Key) : Continuation → Prop
  | .importing senderId publicKey =>
    publicKey = (peers senderId).ecdhKeyPair → Meets ownId (peers senderId) member
  | .agreeing senderId keyPair publicKey =>
    member.sharedSecrets.lookup senderId = some (agreed member (peers senderId)) →
      deriveSharedSecret keyPair publicKey = agreed member (peers senderId)
  | .draining senderId queue =>
    queue.head? = some (currentItem (peers senderId) member) →
      member.sharedSecrets.lookup senderId = some (agreed member (peers senderId))
  | .decrypting senderId sharedSecret item _ =>
    member.peerSenderKeys.lookup senderId =
        some ((peers senderId).senderKeyRaw, (peers senderId).localKeyId) →
      ∀ senderKeyRaw ∈ decryptSenderKey sharedSecret item.1,
        (senderKeyRaw, item.2) = ((peers senderId).senderKeyRaw, (peers senderId).localKeyId)
  | _ => True

/-- The continuations left when one of them goes on. -/
theorem awaiting_cases {position : Nat} (named : before.awaiting[position]? = some done)
    (continuation : Continuation) (member : continuation ∈ before.awaiting) :
    continuation = done ∨ continuation ∈ before.awaiting.eraseIdx position := by
  obtain ⟨inside, rfl⟩ := List.getElem?_eq_some_iff.mp named
  exact List.mem_cons.mp ((List.getElem_cons_eraseIdx_perm inside).mem_iff.mpr member)

section Resume

variable {position : Nat} {generated : Nat} {peers : String → Member Chain Key}

/-- Publishing a key proceeds as the relation says. -/
theorem exporting_proceeds {publicKey : Nat}
    (named : before.awaiting[position]? = some (.exporting publicKey)) :
    Proceeds primitives ownId peerId (.exporting publicKey) before
      ({ before with awaiting := before.awaiting.eraseIdx position }.resume ownId generated
        (.exporting publicKey)) peer where
  awaiting := awaiting_cases named
  exported same := by
    cases same
    exact List.mem_append_right _ List.mem_cons_self
  announced sent := .inl (List.mem_append_left _ sent)
  posted sent := .inl (List.mem_append_left _ sent)

/-- Importing a public key leaves the participant's own announcement alone. -/
theorem importing_meets {senderId : String} {publicKey : Nat}
    (named : before.awaiting[position]? = some (.importing senderId publicKey))
    (meets : Meets ownId peer before) :
    Meets ownId peer ({ before with awaiting := before.awaiting.eraseIdx position }.resume ownId generated
      (.importing senderId publicKey)) := by
  have kept : Announces ownId before → Announces ownId ({ before with
      awaiting := before.awaiting.eraseIdx position }.resume ownId generated
        (.importing senderId publicKey)) := by
    rintro (⟨continuation, member, generates⟩ | exporting | sent)
    · rcases awaiting_cases named continuation member with rfl | still
      · cases generates
      · exact .inl ⟨continuation, List.mem_append_left _ still, generates⟩
    · rcases awaiting_cases named _ exporting with same | still
      · cases same
      · exact .inr (.inl (List.mem_append_left _ still))
    · exact .inr (.inr sent)
  exact Or.imp_left (Or.imp_left kept) meets

/-- Taking up an imported public key proceeds as the relation says. -/
theorem importing_proceeds {senderId : String} {publicKey : Nat}
    (named : before.awaiting[position]? = some (.importing senderId publicKey))
    (admits : (Continuation.importing senderId publicKey).Admits ownId before peers) :
    Proceeds primitives ownId peerId (.importing senderId publicKey) before
      ({ before with awaiting := before.awaiting.eraseIdx position }.resume ownId generated
        (.importing senderId publicKey)) (peers peerId) where
  awaiting continuation member :=
    (awaiting_cases named continuation member).imp_right (List.mem_append_left _)
  imported same := by
    obtain ⟨rfl, rfl⟩ := Continuation.importing.inj same
    exact ⟨importing_meets named (admits rfl),
      .inr (.inl (List.mem_append_right _ List.mem_cons_self))⟩

/-- Noting an agreed secret proceeds as the relation says. -/
theorem agreeing_proceeds {senderId : String} {keyPair publicKey : Nat}
    (named : before.awaiting[position]? = some (.agreeing senderId keyPair publicKey))
    (admits : (Continuation.agreeing senderId keyPair publicKey).Admits ownId before peers) :
    Proceeds primitives ownId peerId (.agreeing senderId keyPair publicKey) before
      ({ before with awaiting := before.awaiting.eraseIdx position }.resume ownId generated
        (.agreeing senderId keyPair publicKey)) (peers peerId) where
  awaiting continuation member :=
    (awaiting_cases named continuation member).imp_right (List.mem_append_left _)
  derived same := by
    obtain ⟨rfl, rfl, rfl⟩ := Continuation.agreeing.inj same
    exact (Table.lookup_insert_eq ..).trans (if_pos rfl)
  secret held := by
    refine (Table.lookup_insert_eq ..).trans ?_
    split
    · next same =>
      subst same
      exact congrArg some (admits held)
    · exact held
  shared held := by
    by_cases same : peerId = senderId
    · exact .inr ⟨.numbering senderId, List.mem_append_right _ List.mem_cons_self, by
        simp [Continuation.answers, same]⟩
    · exact .inl (((Table.lookup_insert_eq ..).trans (if_neg same)).symm.trans held)

/-- Numbering the next sender key proceeds as the relation says. -/
theorem numbering_proceeds {senderId : String}
    (named : before.awaiting[position]? = some (.numbering senderId)) :
    Proceeds primitives ownId peerId (.numbering senderId) before
      ({ before with awaiting := before.awaiting.eraseIdx position }.resume ownId generated
        (.numbering senderId)) peer where
  awaiting continuation member :=
    (awaiting_cases named continuation member).imp_right (List.mem_append_left _)
  answered answers _ := .inl ⟨_, List.mem_append_right _ List.mem_cons_self, answers⟩
  queued queue present member := by
    by_cases same : peerId = senderId
    · subst same
      refine .inr ⟨_, List.mem_append_right _ List.mem_cons_self, ?_⟩
      simp [Continuation.carries, present, member]
    · exact .inl ⟨queue, ((Table.lookup_erase_eq ..).trans (if_neg same)).trans present, member⟩

/-- Draining an empty queue proceeds as the relation says. -/
theorem drained_proceeds {senderId : String}
    (named : before.awaiting[position]? = some (.draining senderId [])) :
    Proceeds primitives ownId peerId (.draining senderId []) before
      ({ before with awaiting := before.awaiting.eraseIdx position }.resume ownId generated
        (.draining senderId [])) peer := by
  simp only [Member.resume, Member.sendSenderKeyTo]
  cases held : before.sharedSecrets.lookup senderId with
  | none =>
    refine { awaiting := awaiting_cases named, answered := ?_, carried := ?_ }
    · intro answers secret
      obtain rfl : senderId = peerId := by simpa [Continuation.answers] using answers
      rw [held] at secret
      cases secret
    · intro carries
      simp [Continuation.carries] at carries
  | some sharedSecret =>
    refine { awaiting := ?_, answered := ?_, carried := ?_ }
    · exact fun continuation member =>
        (awaiting_cases named continuation member).imp_right (List.mem_append_left _)
    · intro answers secret
      obtain rfl : senderId = peerId := by simpa [Continuation.answers] using answers
      obtain rfl := Option.some.inj (held.symm.trans secret)
      exact .inr (List.mem_append_right _ List.mem_cons_self)
    · intro carries
      simp [Continuation.carries] at carries

/-- Draining a queue with an item in front proceeds as the relation says. -/
theorem draining_proceeds {senderId : String} {item : EncryptedKey × Nat}
    {queue : List (EncryptedKey × Nat)}
    (named : before.awaiting[position]? = some (.draining senderId (item :: queue)))
    (admits : (Continuation.draining senderId (item :: queue)).Admits ownId before peers) :
    Proceeds primitives ownId peerId (.draining senderId (item :: queue)) before
      ({ before with awaiting := before.awaiting.eraseIdx position }.resume ownId generated
        (.draining senderId (item :: queue))) (peers peerId) := by
  simp only [Member.resume, Member.processSenderKey]
  cases held : before.sharedSecrets.lookup senderId with
  | none =>
    refine { awaiting := ?_, answered := ?_, carried := ?_ }
    · exact fun continuation member =>
        (awaiting_cases named continuation member).imp_right (List.mem_append_left _)
    · exact fun answers _ => .inl ⟨_, List.mem_append_right _ List.mem_cons_self, answers⟩
    · intro carries
      refine .inl (.inr ⟨_, List.mem_append_right _ List.mem_cons_self, ?_⟩)
      simp only [Continuation.carries, List.mem_cons, Bool.and_eq_true, beq_iff_eq,
        decide_eq_true_eq] at carries ⊢
      obtain ⟨rfl, rfl | later⟩ := carries
      · have secret := admits rfl
        rw [held] at secret
        cases secret
      · exact ⟨rfl, later⟩
  | some sharedSecret =>
    refine { awaiting := ?_, answered := ?_, carried := ?_ }
    · exact fun continuation member =>
        (awaiting_cases named continuation member).imp_right (List.mem_append_left _)
    · exact fun answers _ => .inl ⟨_, List.mem_append_right _ List.mem_cons_self, answers⟩
    · intro carries
      refine .inl (.inr ⟨_, List.mem_append_right _ List.mem_cons_self, ?_⟩)
      simp only [Continuation.carries, List.mem_cons, Bool.and_eq_true, beq_iff_eq,
        decide_eq_true_eq, Bool.or_eq_true, Option.getD_some] at carries ⊢
      obtain ⟨rfl, rfl | later⟩ := carries
      · have secret := admits rfl
        obtain rfl := Option.some.inj (held.symm.trans secret)
        refine ⟨rfl, .inl ⟨rfl, ?_⟩⟩
        unfold currentItem encryptSenderKey
        exact agreed_comm before _
      · exact ⟨rfl, .inr later⟩

/-- Going on with the rest of a queue only adds a continuation, if there is a rest. -/
theorem proceed_eq (member : Member Chain Key) (senderId : String)
    (rest : Option (List (EncryptedKey × Nat))) : member.proceed senderId rest =
      { member with awaiting := member.awaiting ++ rest.toList.map (.draining senderId) } := by
  cases rest with
  | none => simp [Member.proceed]
  | some queue => rfl

/-- A handler that comes back to its queue answers as before. -/
theorem proceed_answers {senderId : String} {sharedSecret : SharedSecret} {item : EncryptedKey × Nat}
    {rest : Option (List (EncryptedKey × Nat))} (others : List Continuation)
    (answers : (Continuation.decrypting senderId sharedSecret item rest).answers peerId = true) :
    ∃ continuation ∈ others ++ rest.toList.map (.draining senderId),
      continuation.answers peerId = true := by
  cases rest with
  | none => cases answers
  | some queue => exact ⟨.draining senderId queue, List.mem_append_right _ List.mem_cons_self, answers⟩

/-- It carries what is left of the queue. -/
theorem proceed_carries {senderId : String} {item : EncryptedKey × Nat}
    {rest : Option (List (EncryptedKey × Nat))} (others : List Continuation)
    (later : item ∈ rest.getD []) :
    ∃ continuation ∈ others ++ rest.toList.map (.draining senderId),
      continuation.carries senderId item = true := by
  cases rest with
  | none => cases later
  | some queue =>
    refine ⟨.draining senderId queue, List.mem_append_right _ List.mem_cons_self, ?_⟩
    simpa [Continuation.carries] using later

/-- Taking up a decrypted sender key proceeds as the relation says. -/
theorem decrypting_proceeds {senderId : String} {sharedSecret : SharedSecret}
    {item : EncryptedKey × Nat} {rest : Option (List (EncryptedKey × Nat))}
    (named : before.awaiting[position]? = some (.decrypting senderId sharedSecret item rest))
    (admits : (Continuation.decrypting senderId sharedSecret item rest).Admits ownId before peers) :
    Proceeds primitives ownId peerId (.decrypting senderId sharedSecret item rest) before
      ({ before with awaiting := before.awaiting.eraseIdx position }.resume ownId generated
        (.decrypting senderId sharedSecret item rest)) (peers peerId) := by
  simp only [Member.resume]
  cases opened : decryptSenderKey sharedSecret item.1 with
  | none =>
    dsimp only
    rw [proceed_eq]
    refine { awaiting := ?_, answered := ?_, carried := ?_ }
    · exact fun continuation member =>
        (awaiting_cases named continuation member).imp_right (List.mem_append_left _)
    · exact fun answers _ => .inl (proceed_answers _ answers)
    · intro carries
      simp only [Continuation.carries, Bool.and_eq_true, beq_iff_eq, Bool.or_eq_true,
        decide_eq_true_eq] at carries
      obtain ⟨rfl, ⟨rfl, rfl⟩ | later⟩ := carries
      · simp [decryptSenderKey] at opened
      · exact .inl (.inr (proceed_carries _ later))
  | some senderKeyRaw =>
    dsimp only
    rw [proceed_eq]
    refine {
      awaiting := ?_, announced := ?_, obtained := ?_, answered := ?_, posted := ?_, carried := ?_ }
    · exact fun continuation member =>
        (awaiting_cases named continuation member).imp_right (List.mem_append_left _)
    · exact fun sent => .inl (List.mem_append_left _ sent)
    · rintro ⟨held, installed⟩
      refine ⟨?_, installed.imp_right (List.mem_append_left _)⟩
      refine (Table.lookup_insert_eq ..).trans ?_
      split
      · next same =>
        subst same
        exact congrArg some (admits held senderKeyRaw opened)
      · exact held
    · exact fun answers _ => .inl (proceed_answers _ answers)
    · exact fun sent => .inl (List.mem_append_left _ sent)
    · intro carries
      simp only [Continuation.carries, Bool.and_eq_true, beq_iff_eq, Bool.or_eq_true,
        decide_eq_true_eq] at carries
      obtain ⟨rfl, ⟨rfl, rfl⟩ | later⟩ := carries
      · have raw : (peers senderId).senderKeyRaw = senderKeyRaw := by
          simpa [decryptSenderKey, currentItem, encryptSenderKey] using opened
        refine .inr ⟨?_, .inr (List.mem_append_right _ (raw ▸ List.mem_cons_self))⟩
        exact (Table.lookup_insert_eq ..).trans ((if_pos rfl).trans (raw ▸ rfl))
      · exact .inl (.inr (proceed_carries _ later))

/-- Sending an encrypted sender key proceeds as the relation says. -/
theorem encrypting_proceeds {recipient : String} {sharedSecret : SharedSecret} {senderKeyRaw : Nat}
    (named : before.awaiting[position]? = some (.encrypting recipient sharedSecret senderKeyRaw)) :
    Proceeds primitives ownId peerId (.encrypting recipient sharedSecret senderKeyRaw) before
      ({ before with awaiting := before.awaiting.eraseIdx position }.resume ownId generated
        (.encrypting recipient sharedSecret senderKeyRaw)) peer where
  awaiting := awaiting_cases named
  announced sent := .inl (List.mem_append_left _ sent)
  encrypted same := by
    obtain ⟨rfl, rfl, rfl⟩ := Continuation.encrypting.inj same
    exact List.mem_append_right _ List.mem_cons_self
  posted sent := .inl (List.mem_append_left _ sent)

end Resume

/-- The key numbers of a continuation are below a bound. -/
def Continuation.Below (limit : Nat) : Continuation → Prop
  | .exporting publicKey => publicKey < limit
  | .importing _ publicKey => publicKey < limit
  | .agreeing _ keyPair publicKey => keyPair < limit ∧ publicKey < limit
  | _ => True

/-- The key number of a public key is below a bound. -/
def ExchangeMessage.Below (limit : Nat) : ExchangeMessage → Prop
  | .e2eePublicKey _ publicKey => publicKey < limit
  | _ => True

/-- A continuation below one limit is below every later one. -/
theorem Continuation.Below.mono {limit later : Nat} (ahead : limit ≤ later)
    {continuation : Continuation} (below : continuation.Below limit) : continuation.Below later := by
  cases continuation with
  | exporting publicKey => exact Nat.lt_of_lt_of_le below ahead
  | importing senderId publicKey => exact Nat.lt_of_lt_of_le below ahead
  | agreeing senderId keyPair publicKey =>
    exact ⟨Nat.lt_of_lt_of_le below.1 ahead, Nat.lt_of_lt_of_le below.2 ahead⟩
  | _ => trivial

/-- A message below one limit is below every later one. -/
theorem ExchangeMessage.Below.mono {limit later : Nat} (ahead : limit ≤ later)
    {message : ExchangeMessage} (below : message.Below limit) : message.Below later := by
  cases message with
  | e2eePublicKey senderId publicKey => exact Nat.lt_of_lt_of_le below ahead
  | _ => trivial

/-- What holds of one participant by itself: every key it knows of was generated, its
worker is only asked to purge its own keys, and no queue is forgotten. -/
structure Sane (ownId : String) (generated : Nat) (member : Member Chain Key) : Prop where
  pair : member.ecdhKeyPair < generated
  secrets : ∀ peerId secret, member.sharedSecrets.lookup peerId = some secret → secret.2 < generated
  awaiting : ∀ continuation ∈ member.awaiting, continuation.Below generated
  sent : ∀ message ∈ member.sent, message.Below generated
  received : ∀ message ∈ member.received, message.Below generated
  purges : ∀ participantId keepKeyId, .purgeOldKeys participantId keepKeyId ∈ member.mail →
    participantId = ownId
  stays : ∀ participantId, .removeKeys participantId ∉ member.mail
  drained : ∀ peerId, Drained peerId member

/-- A ratchet that begins takes nothing away. -/
theorem ratchet_proceeds : Proceeds primitives ownId peerId .generatingPair before before.ratchet peer where
  awaiting _ member := .inr (List.mem_append_left _ member)

/-- A purge is posted for the participant itself. -/
theorem purges_proceeds (purges : List Nat) (message : WorkerMessage Nat) :
    Proceeds primitives ownId peerId .generatingPair before
      { before with purges, mail := before.mail ++ [message] } peer where
  awaiting _ member := .inr member
  obtained held := ⟨held.1, held.2.imp_right (List.mem_append_left _)⟩

/-- What the condition asks of a message that arrives. A current sender key is not tried
under another secret than that of the current key pairs, and is not dropped from a full
queue. -/
def ExchangeMessage.Admits (ownId : String) (member : Member Chain Key)
    (peers : String → Member Chain Key) : ExchangeMessage → Prop
  | .e2eeSenderKey senderId recipient encryptedKey keyId =>
    recipient = ownId →
      ((encryptedKey, keyId) = currentItem (peers senderId) member →
        ∀ sharedSecret ∈ member.sharedSecrets.lookup senderId,
          sharedSecret = agreed member (peers senderId)) ∧
      (member.sharedSecrets.lookup senderId = none →
        ∀ queue ∈ member.pendingSenderKeys.lookup senderId,
          pendingSenderKeyCap ≤ queue.length →
            queue.head? ≠ some (currentItem (peers senderId) member))
  | _ => True

/-- A queued sender key stays queued, unless it is the oldest of a full queue. -/
theorem queueSenderKey_queued {senderId : String} {item waiting : EncryptedKey × Nat}
    {queue : List (EncryptedKey × Nat)} (present : before.pendingSenderKeys.lookup senderId = some queue)
    (member : waiting ∈ queue)
    (kept : pendingSenderKeyCap ≤ queue.length → queue.head? ≠ some waiting) :
    ∃ after, (before.queueSenderKey senderId item).pendingSenderKeys.lookup senderId = some after ∧
      waiting ∈ after := by
  refine ⟨_, (Table.lookup_insert_eq ..).trans (if_pos rfl), ?_⟩
  rw [present, Option.getD_some]
  split
  · next beyond =>
    cases queue with
    | nil => cases member
    | cons oldest rest =>
      rw [List.length_append, List.length_singleton] at beyond
      have different := kept (Nat.le_of_lt_succ beyond)
      rcases List.mem_cons.mp member with rfl | later
      · exact absurd rfl different
      · exact List.mem_append_left _ later
  · exact List.mem_append_left _ member

/-- A sender key that arrives is queued last. -/
theorem queueSenderKey_last (member : Member Chain Key) (senderId : String) (item : EncryptedKey × Nat) :
    ∃ after, (member.queueSenderKey senderId item).pendingSenderKeys.lookup senderId = some after ∧
      item ∈ after := by
  refine ⟨_, (Table.lookup_insert_eq ..).trans (if_pos rfl), ?_⟩
  cases (member.pendingSenderKeys.lookup senderId).getD [] with
  | nil => simp [pendingSenderKeyCap]
  | cons oldest rest =>
    split
    · exact List.mem_append_right _ List.mem_cons_self
    · exact List.mem_append_right _ List.mem_cons_self

section Deliver

variable {message : ExchangeMessage} {rest : List ExchangeMessage}
  {peers : String → Member Chain Key}

/-- A message that arrives and tells the participant nothing new. -/
theorem ignored_proceeds (arrived : before.received = message :: rest) (peerStates : Table String PeerState)
    (publicKey : ∀ key, message ≠ .e2eePublicKey peerId key)
    (senderKey : ∀ encryptedKey keyId, message ≠ .e2eeSenderKey peerId ownId encryptedKey keyId) :
    Proceeds primitives ownId peerId .generatingPair before
      { before with received := rest, peerStates } peer where
  awaiting _ member := .inr member
  arrived received := by
    rw [arrived] at received
    rcases List.mem_cons.mp received with same | later
    · exact absurd same.symm (publicKey _)
    · exact .inl later
  delivered received := by
    rw [arrived] at received
    rcases List.mem_cons.mp received with same | later
    · exact absurd same.symm (senderKey _ _)
    · exact .inl later

/-- Handling a public key from the inbox proceeds as the relation says. -/
theorem publicKey_proceeds {senderId : String} {key : Nat}
    (arrived : before.received = .e2eePublicKey senderId key :: rest) :
    Proceeds primitives ownId peerId .generatingPair before
      ({ before with received := rest }.await (.importing senderId key)) peer where
  awaiting _ member := .inr (List.mem_append_left _ member)
  arrived received := by
    rw [arrived] at received
    rcases List.mem_cons.mp received with same | later
    · obtain ⟨rfl, rfl⟩ := ExchangeMessage.e2eePublicKey.inj same
      exact .inr (List.mem_append_right _ List.mem_cons_self)
    · exact .inl later
  delivered received := by
    rw [arrived] at received
    rcases List.mem_cons.mp received with same | later
    · cases same
    · exact .inl later

/-- Handling a sender key from the inbox proceeds as the relation says. -/
theorem senderKey_proceeds {senderId : String} {encryptedKey : EncryptedKey} {keyId : Nat}
    (arrived : before.received = .e2eeSenderKey senderId ownId encryptedKey keyId :: rest)
    (admits : (ExchangeMessage.e2eeSenderKey senderId ownId encryptedKey keyId).Admits ownId before peers) :
    Proceeds primitives ownId peerId .generatingPair before
      ({ before with received := rest }.handleMessage ownId
        (.e2eeSenderKey senderId ownId encryptedKey keyId)) (peers peerId) := by
  obtain ⟨tried, kept⟩ := admits rfl
  have publicKeys : ∀ key, .e2eePublicKey peerId key ∈ before.received →
      .e2eePublicKey peerId key ∈ rest := by
    intro key received
    rw [arrived] at received
    rcases List.mem_cons.mp received with same | later
    · cases same
    · exact later
  have senderKeys : ∀ item : EncryptedKey × Nat,
      .e2eeSenderKey peerId ownId item.1 item.2 ∈ before.received →
        (peerId = senderId ∧ item = (encryptedKey, keyId)) ∨
          .e2eeSenderKey peerId ownId item.1 item.2 ∈ rest := by
    intro item received
    rw [arrived] at received
    rcases List.mem_cons.mp received with same | later
    · obtain ⟨sender, _, key, identifier⟩ := ExchangeMessage.e2eeSenderKey.inj same
      exact .inl ⟨sender, Prod.ext key identifier⟩
    · exact .inr later
  simp only [Member.handleMessage, ne_eq, not_true_eq_false, if_false]
  cases held : before.sharedSecrets.lookup senderId with
  | none =>
    rw [Option.isNone_none, if_pos rfl]
    refine { awaiting := fun _ member => .inr member, arrived := ?_, delivered := ?_, queued := ?_ }
    · exact fun received => .inl (publicKeys _ received)
    · intro received
      rcases senderKeys (currentItem (peers peerId) before) received with ⟨rfl, same⟩ | later
      · rw [same]
        exact .inr (.inl (queueSenderKey_last _ _ _))
      · exact .inl later
    · intro queue present member
      by_cases same : peerId = senderId
      · subst same
        exact .inl (queueSenderKey_queued present member (kept held queue present))
      · exact .inl ⟨queue, ((Table.lookup_insert_eq ..).trans (if_neg same)).trans present, member⟩
  | some sharedSecret =>
    simp only [Option.isNone_some, Bool.false_eq_true, if_false, Member.processSenderKey, held]
    refine { awaiting := ?_, arrived := ?_, delivered := ?_ }
    · exact fun _ member => .inr (List.mem_append_left _ member)
    · exact fun received => .inl (publicKeys _ received)
    · intro received
      rcases senderKeys (currentItem (peers peerId) before) received with ⟨rfl, same⟩ | later
      · refine .inr (.inr ⟨_, List.mem_append_right _ List.mem_cons_self, ?_⟩)
        have secret := tried same.symm sharedSecret held
        rw [agreed_comm] at secret
        simp only [Continuation.carries, beq_self_eq_true, Bool.true_and, Bool.or_eq_true,
          decide_eq_true_eq]
        exact .inl ⟨same.symm, secret⟩
      · exact .inl later

end Deliver

/-- What the condition asks of a key that the worker installs: an older sender key
with the current identifier does not replace an installed current one. -/
def MessageAdmits (primitives : Primitives Nat Chain Key) (ownId : String) (member : Member Chain Key)
    (peers : String → Member Chain Key) : WorkerMessage Nat → Prop
  | .setKey senderId keyId rawKey =>
    senderId ≠ ownId → keyId = (peers senderId).localKeyId →
      Installed primitives senderId member (peers senderId).senderKeyRaw (peers senderId).localKeyId →
        rawKey = (peers senderId).senderKeyRaw
  | _ => True

/-- The worker messages left when one of them is handled. -/
theorem mail_cases {position : Nat} {message : WorkerMessage Nat}
    (named : before.mail[position]? = some message) (posted : WorkerMessage Nat)
    (member : posted ∈ before.mail) : posted = message ∨ posted ∈ before.mail.eraseIdx position := by
  obtain ⟨inside, rfl⟩ := List.getElem?_eq_some_iff.mp named
  exact List.mem_cons.mp ((List.getElem_cons_eraseIdx_perm inside).mem_iff.mpr member)

/-- An installed key that is not replaced or purged stays, and one that was posted is
installed when its message is handled. -/
theorem installs_proceeds {position : Nat} {message : WorkerMessage Nat}
    {peers : String → Member Chain Key} (other : peerId ≠ ownId)
    (named : before.mail[position]? = some message)
    (own : ∀ participantId keepKeyId, message = .purgeOldKeys participantId keepKeyId →
      participantId = ownId)
    (stays : ∀ participantId, message ≠ .removeKeys participantId)
    (admits : MessageAdmits primitives ownId before peers message) :
    Proceeds primitives ownId peerId .generatingPair before
      { before with
        mail := before.mail.eraseIdx position
        worker := before.worker.receive primitives message } (peers peerId) where
  awaiting _ member := .inr member
  obtained held := by
    refine ⟨held.1, ?_⟩
    unfold Installed
    dsimp only
    rw [Worker.entriesOf_receive]
    cases message with
    | setKey senderId keyId rawKey =>
      dsimp only
      by_cases same : peerId = senderId
      · subst same
        rw [if_pos rfl]
        rcases held.2 with installed | posted
        · by_cases current : keyId = (peers peerId).localKeyId
          · obtain rfl := admits other current installed
            exact .inl ⟨_, List.mem_append_right _ List.mem_cons_self, current,
              initChainEntry_belongs primitives _ keyId⟩
          · obtain ⟨entry, member, identifier, belongs⟩ := installed
            refine .inl ⟨entry, List.mem_append_left _ (List.mem_filter.mpr ⟨member, ?_⟩), identifier,
              belongs⟩
            simpa [identifier] using Ne.symm current
        · rcases mail_cases named _ posted with handled | later
          · obtain ⟨_, rfl, rfl⟩ := WorkerMessage.setKey.inj handled
            exact .inl ⟨_, List.mem_append_right _ List.mem_cons_self, rfl,
              initChainEntry_belongs primitives _ _⟩
          · exact .inr later
      · rw [if_neg same]
        refine held.2.imp_right (fun posted => ?_)
        rcases mail_cases named _ posted with handled | later
        · exact absurd (WorkerMessage.setKey.inj handled).1 same
        · exact later
    | removeKeys participantId => exact absurd rfl (stays participantId)
    | purgeOldKeys participantId keepKeyId =>
      obtain rfl := own participantId keepKeyId rfl
      dsimp only
      rw [if_neg other]
      refine held.2.imp_right (fun posted => ?_)
      rcases mail_cases named _ posted with handled | later
      · cases handled
      · exact later

/-- A new key pair is still to be announced, and no secret was made from it yet. -/
theorem generatingPair_between {position generated : Nat}
    (fresh : ∀ secret, before.sharedSecrets.lookup peerId = some secret → secret.2 < generated)
    (peerFresh : ∀ secret, peer.sharedSecrets.lookup ownId = some secret → secret.2 < generated) :
    Between primitives ownId peerId
      ({ before with awaiting := before.awaiting.eraseIdx position }.resume ownId generated
        .generatingPair) peer := by
  have announces : Announces ownId ({ before with
      awaiting := before.awaiting.eraseIdx position }.resume ownId generated .generatingPair) :=
    .inl ⟨_, List.mem_append_right _ List.mem_cons_self, rfl⟩
  refine ⟨.inr (.inr (.inl (.inl announces))), ?_, ?_⟩
  · intro secret
    have below := fresh _ secret
    have above : generated ≤ (deriveSharedSecret generated peer.ecdhKeyPair).2 := le_max_left _ _
    exact absurd below (Nat.not_lt.mpr above)
  · intro secret
    have below := peerFresh _ secret
    have above : generated ≤ (deriveSharedSecret peer.ecdhKeyPair generated).2 := le_max_right _ _
    exact absurd below (Nat.not_lt.mpr above)

/-- With a new sender key the shared secrets are gone, and the public key is still to
be announced. What the peer sends is not affected. -/
theorem generatingKey_between {position generated newKeyId : Nat}
    (named : before.awaiting[position]? = some (.generatingKey newKeyId))
    (between : Between primitives ownId peerId before peer) :
    Between primitives ownId peerId
      ({ before with awaiting := before.awaiting.eraseIdx position }.resume ownId generated
        (.generatingKey newKeyId)) peer := by
  have announces : Announces ownId ({ before with
      awaiting := before.awaiting.eraseIdx position }.resume ownId generated
        (.generatingKey newKeyId)) :=
    .inr (.inl (List.mem_append_right _ List.mem_cons_self))
  refine ⟨.inr (.inr (.inl (.inl announces))), ?_, ?_⟩
  · intro secret
    cases secret
  · have receiving : Proceeds primitives ownId peerId (.generatingKey newKeyId) before
        { before with
          awaiting := before.awaiting.eraseIdx position ++ [.exporting before.ecdhKeyPair]
          mail := before.mail ++ [.setKey ownId newKeyId generated] } peer := by
      refine { awaiting := ?_, generates := ?_, obtained := ?_ }
      · exact fun continuation member =>
          (awaiting_cases named continuation member).imp_right (List.mem_append_left _)
      · exact fun _ => .inr (.inl (List.mem_append_right _ List.mem_cons_self))
      · exact fun held => ⟨held.1, held.2.imp_right (List.mem_append_left _)⟩
    exact receiving.back between.back

/-- A message in front of the sender's queue that the receiver has as well may be taken
off the queue. -/
theorem sent_proceeds {message : ExchangeMessage} {rest : List ExchangeMessage}
    (posted : before.sent = message :: rest)
    (received : message = .e2eePublicKey ownId before.ecdhKeyPair ∨
      (∃ encryptedKey keyId, message = .e2eeSenderKey ownId peerId encryptedKey keyId) →
        message ∈ peer.received) :
    Proceeds primitives ownId peerId .generatingPair before { before with sent := rest } peer where
  awaiting _ member := .inr member
  announced sent := by
    rw [posted] at sent
    rcases List.mem_cons.mp sent with rfl | later
    · exact .inr (received (.inl rfl))
    · exact .inl later
  posted sent := by
    rw [posted] at sent
    rcases List.mem_cons.mp sent with rfl | later
    · exact .inr (received (.inr ⟨_, _, rfl⟩))
    · exact .inl later

/-- A further message on its way to a participant changes nothing. -/
theorem received_proceeds (received : List ExchangeMessage)
    (grows : ∀ message ∈ before.received, message ∈ received) :
    Proceeds primitives ownId peerId .generatingPair before { before with received } peer where
  awaiting _ member := .inr member
  arrived member := .inl (grows _ member)
  delivered member := .inl (grows _ member)

end Pairs

section Members

variable {Chain Key : Type}

variable {ownId : String} {generated : Nat} {member : Member Chain Key}

/-- A sane member stays sane while the counter of keys goes up. -/
theorem Sane.mono {later : Nat} (sane : Sane ownId generated member) (ahead : generated ≤ later) :
    Sane ownId later member where
  pair := Nat.lt_of_lt_of_le sane.pair ahead
  secrets peerId secret held := Nat.lt_of_lt_of_le (sane.secrets peerId secret held) ahead
  awaiting continuation inside := (sane.awaiting continuation inside).mono ahead
  sent message inside := (sane.sent message inside).mono ahead
  received message inside := (sane.received message inside).mono ahead
  purges := sane.purges
  stays := sane.stays
  drained := sane.drained

/-- Putting a continuation aside. -/
theorem Sane.await (sane : Sane ownId generated member) {continuation : Continuation}
    (below : continuation.Below generated) : Sane ownId generated (member.await continuation) where
  pair := sane.pair
  secrets := sane.secrets
  awaiting other inside := by
    rcases List.mem_append.mp inside with old | new
    · exact sane.awaiting other old
    · rw [List.mem_singleton.mp new]
      exact below
  sent := sane.sent
  received := sane.received
  purges := sane.purges
  stays := sane.stays
  drained peerId held := (sane.drained peerId held).imp_right (List.mem_append_left _)

/-- Sending a message. -/
theorem Sane.send (sane : Sane ownId generated member) {message : ExchangeMessage}
    (below : message.Below generated) : Sane ownId generated (member.send message) where
  pair := sane.pair
  secrets := sane.secrets
  awaiting := sane.awaiting
  sent other inside := by
    rcases List.mem_append.mp inside with old | new
    · exact sane.sent other old
    · rw [List.mem_singleton.mp new]
      exact below
  received := sane.received
  purges := sane.purges
  stays := sane.stays
  drained := sane.drained

/-- Going on with the rest of a queue keeps a member sane. -/
theorem Sane.proceed (sane : Sane ownId generated member) (senderId : String)
    (rest : Option (List (EncryptedKey × Nat))) : Sane ownId generated (member.proceed senderId rest) := by
  cases rest with
  | none => exact sane
  | some queue => exact sane.await trivial

/-- Taking up a sender key keeps a member sane. -/
theorem Sane.processSenderKey (sane : Sane ownId generated member) (senderId : String)
    (item : EncryptedKey × Nat) (rest : Option (List (EncryptedKey × Nat))) :
    Sane ownId generated (member.processSenderKey senderId item rest) := by
  unfold Member.processSenderKey
  cases member.sharedSecrets.lookup senderId with
  | none => exact sane.proceed senderId rest
  | some sharedSecret => exact sane.await trivial

/-- A continuation that goes on is no longer put aside; only that of a queue to be
drained is missed. -/
theorem Sane.taken (sane : Sane ownId generated member) {position : Nat} {done : Continuation}
    (named : member.awaiting[position]? = some done) (other : ∀ peerId, done ≠ .numbering peerId) :
    Sane ownId generated { member with awaiting := member.awaiting.eraseIdx position } where
  pair := sane.pair
  secrets := sane.secrets
  awaiting continuation inside :=
    sane.awaiting continuation (List.mem_of_mem_eraseIdx inside)
  sent := sane.sent
  received := sane.received
  purges := sane.purges
  stays := sane.stays
  drained peerId held := by
    rcases sane.drained peerId held with empty | numbering
    · exact .inl empty
    · rcases awaiting_cases named _ numbering with same | still
      · exact absurd same.symm (other peerId)
      · exact .inr still

/-- Posting a key to the worker. -/
theorem Sane.post (sane : Sane ownId generated member) (participantId : String) (keyId rawKey : Nat) :
    Sane ownId generated { member with
      mail := member.mail ++ [WorkerMessage.setKey participantId keyId rawKey] } := by
  refine { sane with purges := ?_, stays := ?_ }
  · intro other keepKeyId inside
    rcases List.mem_append.mp inside with old | new
    · exact sane.purges other keepKeyId old
    · cases List.mem_singleton.mp new
  · intro other inside
    rcases List.mem_append.mp inside with old | new
    · exact sane.stays other old
    · cases List.mem_singleton.mp new

/-- A new sender key is installed and announced, and all secrets are given up for it. -/
theorem Sane.renewed (sane : Sane ownId generated member) (newKeyId : Nat) :
    Sane ownId (generated + 1) (member.resume ownId generated (.generatingKey newKeyId)) := by
  have posted := (sane.post ownId newKeyId generated).mono (Nat.le_succ generated)
  have installed : Sane ownId (generated + 1) { member with
      senderKeyRaw := generated
      localKeyId := newKeyId
      mail := member.mail ++ [WorkerMessage.setKey ownId newKeyId generated]
      purges := member.purges ++ [newKeyId]
      sharedSecrets := ∅ } :=
    { posted with secrets := nofun, drained := fun peerId held => absurd rfl held }
  have rotation : (ExchangeMessage.e2eeKeyRotation ownId newKeyId).Below (generated + 1) := trivial
  have exported : (Continuation.exporting member.ecdhKeyPair).Below (generated + 1) :=
    Nat.lt_succ_of_lt sane.pair
  exact (installed.send rotation).await exported

/-- A secret of two known keys is noted, and its sender's queue comes next. -/
theorem Sane.agreed (sane : Sane ownId generated member) {senderId : String} {keyPair publicKey : Nat}
    (known : (Continuation.agreeing senderId keyPair publicKey).Below generated) (fresh : Nat) :
    Sane ownId generated (member.resume ownId fresh (.agreeing senderId keyPair publicKey)) := by
  refine { sane with secrets := ?_, awaiting := ?_, drained := ?_ }
  · intro peerId secret held
    have read := (Table.lookup_insert_eq ..).symm.trans held
    split at read
    · obtain rfl := Option.some.inj read
      exact max_lt known.1 known.2
    · exact sane.secrets peerId secret read
  · intro continuation inside
    rcases List.mem_append.mp inside with old | new
    · exact sane.awaiting continuation old
    · rw [List.mem_singleton.mp new]
      trivial
  · intro peerId held
    by_cases same : peerId = senderId
    · exact .inr (same ▸ List.mem_append_right _ List.mem_cons_self)
    · have read : member.sharedSecrets.lookup peerId ≠ none := by
        intro missing
        exact held (((Table.lookup_insert_eq ..).trans (if_neg same)).trans missing)
      exact (sane.drained peerId read).imp_right (List.mem_append_left _)

/-- The queue of a sender is taken to be drained: it is empty from now on. -/
theorem Sane.numbered (sane : Sane ownId generated member) {position : Nat} {senderId : String}
    (named : member.awaiting[position]? = some (.numbering senderId)) (fresh : Nat) :
    Sane ownId generated ({ member with awaiting := member.awaiting.eraseIdx position }.resume
      ownId fresh (.numbering senderId)) := by
  refine { sane with awaiting := ?_, drained := ?_ }
  · intro continuation inside
    rcases List.mem_append.mp inside with old | new
    · exact sane.awaiting continuation (List.mem_of_mem_eraseIdx old)
    · rw [List.mem_singleton.mp new]
      trivial
  · intro peerId held
    by_cases same : peerId = senderId
    · exact .inl ((Table.lookup_erase_eq ..).trans (if_pos same))
    · rcases sane.drained peerId held with empty | waiting
      · exact .inl (((Table.lookup_erase_eq ..).trans (if_neg same)).trans empty)
      · rcases awaiting_cases named _ waiting with this | still
        · exact absurd (Continuation.numbering.inj this) same
        · exact .inr (List.mem_append_left _ still)

/-- A decrypted sender key is stored and posted, and one that does not decrypt is dropped. -/
theorem Sane.decrypted (sane : Sane ownId generated member) (senderId : String)
    (sharedSecret : SharedSecret) (item : EncryptedKey × Nat)
    (rest : Option (List (EncryptedKey × Nat))) (fresh : Nat) :
    Sane ownId generated (member.resume ownId fresh (.decrypting senderId sharedSecret item rest)) := by
  simp only [Member.resume]
  split
  · exact sane.proceed senderId rest
  · next senderKeyRaw opened =>
    have stored : Sane ownId generated { member with
        peerSenderKeys := member.peerSenderKeys.insert senderId (senderKeyRaw, item.2)
        mail := member.mail ++ [WorkerMessage.setKey senderId item.2 senderKeyRaw]
        peerStates := member.peerStates.insert senderId { ready := true, keyId := item.2 } } :=
      { sane.post senderId item.2 senderKeyRaw with }
    have request : (ExchangeMessage.requestKeyframe ownId senderId).Below generated := trivial
    exact (stored.send request).proceed senderId rest

/-- A handler that goes on leaves its participant sane. The number it may use is the
next one. -/
theorem Sane.resume (sane : Sane ownId generated member) {position : Nat} {done : Continuation}
    (named : member.awaiting[position]? = some done) :
    Sane ownId (generated + 1)
      ({ member with awaiting := member.awaiting.eraseIdx position }.resume ownId generated done) := by
  have known : done.Below generated := sane.awaiting done (List.mem_of_getElem? named)
  have ahead : generated ≤ generated + 1 := Nat.le_succ generated
  cases done with
  | generatingPair =>
    have taken := (sane.taken named nofun).mono ahead
    have renewed : Sane ownId (generated + 1) { member with
        awaiting := member.awaiting.eraseIdx position, ecdhKeyPair := generated } :=
      { taken with pair := Nat.lt_succ_self generated }
    exact renewed.await trivial
  | generatingKey newKeyId => exact (sane.taken named nofun).renewed newKeyId
  | exporting publicKey =>
    have announcement : (ExchangeMessage.e2eePublicKey ownId publicKey).Below generated := known
    exact ((sane.taken named nofun).send announcement).mono ahead
  | importing senderId publicKey =>
    have taken := sane.taken named nofun
    have imported : Sane ownId generated { member with
        awaiting := member.awaiting.eraseIdx position
        peerPublicKeys := member.peerPublicKeys.insert senderId publicKey } := { taken with }
    have read : (Continuation.agreeing senderId member.ecdhKeyPair publicKey).Below generated :=
      ⟨sane.pair, known⟩
    exact (imported.await read).mono ahead
  | agreeing senderId keyPair publicKey =>
    exact ((sane.taken named nofun).agreed known generated).mono ahead
  | numbering senderId => exact (sane.numbered named generated).mono ahead
  | draining senderId queue =>
    have taken := (sane.taken named nofun).mono ahead
    cases queue with
    | nil =>
      simp only [Member.resume, Member.sendSenderKeyTo]
      split
      · exact taken
      · exact taken.await trivial
    | cons item rest => exact taken.processSenderKey senderId item (some rest)
  | decrypting senderId sharedSecret item rest =>
    exact ((sane.taken named nofun).decrypted senderId sharedSecret item rest generated).mono ahead
  | encrypting recipient sharedSecret senderKeyRaw =>
    have answer : (ExchangeMessage.e2eeSenderKey ownId recipient
        (encryptSenderKey sharedSecret senderKeyRaw) member.localKeyId).Below generated := trivial
    exact ((sane.taken named nofun).send answer).mono ahead

/-- A delivered message leaves its participant sane. -/
theorem Sane.handleMessage (sane : Sane ownId generated member) {message : ExchangeMessage}
    {rest : List ExchangeMessage} (arrived : member.received = message :: rest) :
    Sane ownId generated ({ member with received := rest }.handleMessage ownId message) := by
  have below : message.Below generated :=
    sane.received message (arrived ▸ List.mem_cons_self)
  have taken : Sane ownId generated { member with received := rest } := by
    refine { sane with received := ?_ }
    exact fun other inside => sane.received other (arrived ▸ List.mem_cons_of_mem message inside)
  cases message with
  | e2eePublicKey senderId publicKey =>
    simp only [Member.handleMessage]
    split
    · exact taken
    · exact taken.await below
  | e2eeSenderKey senderId recipient encryptedKey keyId =>
    simp only [Member.handleMessage]
    split
    · exact taken
    · split
      · next missing =>
        refine { taken with drained := ?_ }
        intro peerId held
        have other : peerId ≠ senderId := by
          rintro rfl
          exact held (Option.isNone_iff_eq_none.mp missing)
        exact (taken.drained peerId held).imp_left
          (fun empty => ((Table.lookup_insert_eq ..).trans (if_neg other)).trans empty)
      · exact taken.processSenderKey senderId _ none
  | e2eeKeyRotation senderId keyId =>
    simp only [Member.handleMessage]
    split
    · exact taken
    · exact { taken with }
  | requestKeyframe senderId target => exact taken

end Members

end Seameet.E2ee

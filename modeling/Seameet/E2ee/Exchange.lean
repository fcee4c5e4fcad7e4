import Mathlib.Logic.Function.Basic
import Seameet.E2ee.Worker

/-!
# Key exchange in a room

Participants broadcast the public keys of their key pairs, agree on shared secrets
two by two, and send their sender keys encrypted under these. A ratchet replaces a
participant's key pair and sender key and broadcasts the new public key.

Every handler is asynchronous. Between two awaits it runs alone; at an await it is
put aside, and the handlers that are put aside go on in any order. What the browser's
cryptography answers is symbolic: key pairs and sender keys are numbers, given out in
the order of their generation, a shared secret is the two key pairs it is agreed
between, and an encrypted key opens under its own secret only.
-/

namespace Seameet.E2ee

open Library

/-- A shared secret, told by the two key pairs it is agreed between. -/
abbrev SharedSecret := Nat × Nat

/-- The secret of one's own private key and a peer's public key. -/
def deriveSharedSecret (privateKey peerPublicKey : Nat) : SharedSecret :=
  (min privateKey peerPublicKey, max privateKey peerPublicKey)

/-- A sender key under a shared secret. -/
structure EncryptedKey where
  secret : SharedSecret
  senderKeyRaw : Nat
  deriving DecidableEq, Repr

/-- A sender key is sealed under a shared secret. -/
def encryptSenderKey (sharedSecret : SharedSecret) (senderKeyRaw : Nat) : EncryptedKey :=
  { secret := sharedSecret, senderKeyRaw }

/-- It is opened with the same secret only. -/
def decryptSenderKey (sharedSecret : SharedSecret) (encryptedKey : EncryptedKey) : Option Nat :=
  if encryptedKey.secret = sharedSecret then some encryptedKey.senderKeyRaw else none

/-- How many sender keys of one peer wait for a shared secret. -/
def pendingSenderKeyCap : Nat := 20

/-- A message between the participants of a room. -/
inductive ExchangeMessage where
  | e2eePublicKey (sender : String) (publicKey : Nat)
  | e2eeSenderKey (sender recipient : String) (encryptedKey : EncryptedKey) (keyId : Nat)
  | e2eeKeyRotation (sender : String) (keyId : Nat)
  | requestKeyframe (sender target : String)
  deriving DecidableEq, Repr

/-- A handler at an await, with what it has read before and still needs. -/
inductive Continuation where
  /-- A ratchet waits for its key pair. -/
  | generatingPair
  /-- A ratchet waits for its sender key. -/
  | generatingKey (newKeyId : Nat)
  /-- A ratchet waits for the bytes of its public key. -/
  | exporting (publicKey : Nat)
  /-- A public key is being imported. -/
  | importing (senderId : String) (publicKey : Nat)
  /-- A shared secret is being derived from one's own key pair. -/
  | agreeing (senderId : String) (keyPair publicKey : Nat)
  /-- The safety number of a peer is being computed. -/
  | numbering (senderId : String)
  /-- Queued sender keys of a peer are still to be tried. -/
  | draining (senderId : String) (queue : List (EncryptedKey × Nat))
  /-- A sender key is being decrypted, the others of a queue behind it. -/
  | decrypting (senderId : String) (sharedSecret : SharedSecret) (item : EncryptedKey × Nat)
    (rest : Option (List (EncryptedKey × Nat)))
  /-- One's own sender key is being encrypted for a peer. -/
  | encrypting (peerId : String) (sharedSecret : SharedSecret) (senderKeyRaw : Nat)
  deriving DecidableEq, Repr

/-- What the page shows of a peer. -/
structure PeerState where
  ready : Bool
  keyId : Nat
  deriving DecidableEq, Repr

/-- One participant: the references of the hook, its worker and the messages on
their way there, the ratchets' delayed purges, the handlers put aside, and the
messages on their way to and from the server. -/
structure Member (Chain Key : Type) where
  ecdhKeyPair : Nat
  senderKeyRaw : Nat
  localKeyId : Nat
  peerPublicKeys : Table String Nat
  sharedSecrets : Table String SharedSecret
  pendingSenderKeys : Table String (List (EncryptedKey × Nat))
  peerSenderKeys : Table String (Nat × Nat)
  peerStates : Table String PeerState
  worker : Worker Chain Key
  mail : List (WorkerMessage Nat)
  purges : List Nat
  awaiting : List Continuation
  sent : List ExchangeMessage
  received : List ExchangeMessage

namespace Member

variable {Chain Key : Type}

/-- A member puts a message on its way. -/
def send (member : Member Chain Key) (message : ExchangeMessage) : Member Chain Key :=
  { member with sent := member.sent ++ [message] }

/-- Put a handler aside. -/
def await (member : Member Chain Key) (continuation : Continuation) : Member Chain Key :=
  { member with awaiting := member.awaiting ++ [continuation] }

/-- A ratchet of this participant is due. -/
def ratchet (member : Member Chain Key) : Member Chain Key := member.await .generatingPair

/-- Back to the queue a sender key was taken from, if it was. -/
def proceed (member : Member Chain Key) (senderId : String) :
    Option (List (EncryptedKey × Nat)) → Member Chain Key
  | none => member
  | some queue => member.await (.draining senderId queue)

/-- A sender key is decrypted under the present shared secret with its sender. -/
def processSenderKey (member : Member Chain Key) (senderId : String) (item : EncryptedKey × Nat)
    (rest : Option (List (EncryptedKey × Nat))) : Member Chain Key :=
  match member.sharedSecrets.lookup senderId with
  | none => member.proceed senderId rest
  | some sharedSecret => member.await (.decrypting senderId sharedSecret item rest)

/-- The own sender key goes to one peer, sealed for it, if there is a secret with it. -/
def sendSenderKeyTo (member : Member Chain Key) (peerId : String) : Member Chain Key :=
  match member.sharedSecrets.lookup peerId with
  | none => member
  | some sharedSecret => member.await (.encrypting peerId sharedSecret member.senderKeyRaw)

/-- A sender key waits for the shared secret; beyond the cap the oldest is dropped. -/
def queueSenderKey (member : Member Chain Key) (senderId : String) (item : EncryptedKey × Nat) :
    Member Chain Key :=
  let queue := (member.pendingSenderKeys.lookup senderId).getD [] ++ [item]
  let queue := if pendingSenderKeyCap < queue.length then queue.drop 1 else queue
  { member with pendingSenderKeys := member.pendingSenderKeys.insert senderId queue }

/-- A message of the server is handled up to the first await. -/
def handleMessage (participantId : String) (member : Member Chain Key) :
    ExchangeMessage → Member Chain Key
  | .e2eePublicKey senderId publicKey =>
    if senderId = participantId then member else member.await (.importing senderId publicKey)
  | .e2eeSenderKey senderId recipient encryptedKey keyId =>
    if recipient ≠ participantId then member
    else if (member.sharedSecrets.lookup senderId).isNone then
      member.queueSenderKey senderId (encryptedKey, keyId)
    else member.processSenderKey senderId (encryptedKey, keyId) none
  | .e2eeKeyRotation senderId keyId =>
    if senderId = participantId then member
    else { member with
      peerStates := member.peerStates.modify senderId (fun current => { current with keyId }) }
  | .requestKeyframe _ _ => member

/-- A handler goes on after its await, up to the next one. The number is the one a
key generated there is given. -/
def resume (participantId : String) (generated : Nat) (member : Member Chain Key) :
    Continuation → Member Chain Key
  | .generatingPair =>
    { member with ecdhKeyPair := generated }.await (.generatingKey (member.localKeyId + 1))
  | .generatingKey newKeyId =>
    { member with
      senderKeyRaw := generated
      localKeyId := newKeyId
      mail := member.mail ++ [WorkerMessage.setKey participantId newKeyId generated]
      purges := member.purges ++ [newKeyId]
      sharedSecrets := ∅ }
      |>.send (.e2eeKeyRotation participantId newKeyId)
      |>.await (.exporting member.ecdhKeyPair)
  | .exporting publicKey => member.send (.e2eePublicKey participantId publicKey)
  | .importing senderId publicKey =>
    { member with peerPublicKeys := member.peerPublicKeys.insert senderId publicKey }.await
      (.agreeing senderId member.ecdhKeyPair publicKey)
  | .agreeing senderId keyPair publicKey =>
    { member with
      sharedSecrets := member.sharedSecrets.insert senderId (deriveSharedSecret keyPair publicKey) }.await
        (.numbering senderId)
  | .numbering senderId =>
    let queue := (member.pendingSenderKeys.lookup senderId).getD []
    { member with pendingSenderKeys := member.pendingSenderKeys.erase senderId }.await
      (.draining senderId queue)
  | .draining senderId [] => member.sendSenderKeyTo senderId
  | .draining senderId (item :: queue) => member.processSenderKey senderId item (some queue)
  | .decrypting senderId sharedSecret item rest =>
    match decryptSenderKey sharedSecret item.1 with
    -- A key that does not decrypt is logged and dropped.
    | none => member.proceed senderId rest
    | some senderKeyRaw =>
      { member with
        peerSenderKeys := member.peerSenderKeys.insert senderId (senderKeyRaw, item.2)
        mail := member.mail ++ [WorkerMessage.setKey senderId item.2 senderKeyRaw]
        peerStates := member.peerStates.insert senderId { ready := true, keyId := item.2 } }
        |>.send (.requestKeyframe participantId senderId)
        |>.proceed senderId rest
  | .encrypting peerId sharedSecret senderKeyRaw =>
    member.send (.e2eeSenderKey participantId peerId (encryptSenderKey sharedSecret senderKeyRaw)
      member.localKeyId)

end Member

/-- The server broadcasts public keys and rotations to everyone but their sender and
passes sender keys on to their recipient. Requests for a key frame stay there. -/
def forwards (participantId : String) (message : ExchangeMessage) (receiver : String) : Bool :=
  match message with
  | .e2eePublicKey _ _ => receiver != participantId
  | .e2eeKeyRotation _ _ => receiver != participantId
  | .e2eeSenderKey _ recipient _ _ => receiver == recipient
  | .requestKeyframe _ _ => false

/-- A room: how many keys were generated so far, and its participants. -/
structure Room (Chain Key : Type) where
  generated : Nat
  member : String → Member Chain Key

/-- Something that happens in the room. A position names one of a participant's
continuations, worker messages or purges, which may come in any order. -/
inductive ExchangeEvent where
  /-- A ratchet begins. -/
  | ratchets (participantId : String)
  /-- A handler goes on. -/
  | resumes (participantId : String) (position : Nat)
  /-- The server takes the next message of a participant. -/
  | relays (participantId : String)
  /-- A participant takes the next message of the server. -/
  | delivers (participantId : String)
  /-- The worker finishes handling a message. -/
  | installs (participantId : String) (position : Nat)
  /-- The delay of a purge is over. -/
  | purges (participantId : String) (position : Nat)
  deriving DecidableEq, Repr

namespace Room

variable {Chain Key : Type} (primitives : Primitives Nat Chain Key) (members : List String)

/-- Change one participant. -/
def set (room : Room Chain Key) (participantId : String) (member : Member Chain Key) : Room Chain Key :=
  { room with member := Function.update room.member participantId member }

/-- The server passes a message of a participant on. -/
def relay (room : Room Chain Key) (participantId : String) (message : ExchangeMessage) : Room Chain Key :=
  { room with
    member := fun receiver =>
      if receiver ∈ members ∧ forwards participantId message receiver = true then
        { room.member receiver with received := (room.member receiver).received ++ [message] }
      else room.member receiver }

/-- One event; a participant that is not there, or a position or a queue with
nothing in it, refuses it. -/
def step (room : Room Chain Key) (event : ExchangeEvent) : Option (Room Chain Key) :=
  match event with
  | .ratchets participantId =>
    if participantId ∈ members then
      some (room.set participantId (room.member participantId).ratchet)
    else none
  | .resumes participantId position =>
    let member := room.member participantId
    if participantId ∈ members then
      member.awaiting[position]?.map (fun continuation =>
        { room with generated := room.generated + 1 }.set participantId
          ({ member with awaiting := member.awaiting.eraseIdx position }.resume participantId
            room.generated continuation))
    else none
  | .relays participantId =>
    let member := room.member participantId
    if participantId ∈ members then
      member.sent.head?.map (fun message =>
        (room.set participantId { member with sent := member.sent.tail }).relay members participantId
          message)
    else none
  | .delivers participantId =>
    let member := room.member participantId
    if participantId ∈ members then
      member.received.head?.map (fun message =>
        room.set participantId
          ({ member with received := member.received.tail }.handleMessage participantId message))
    else none
  | .installs participantId position =>
    let member := room.member participantId
    if participantId ∈ members then
      member.mail[position]?.map (fun message => room.set participantId { member with
        mail := member.mail.eraseIdx position
        worker := member.worker.receive primitives message })
    else none
  | .purges participantId position =>
    let member := room.member participantId
    if participantId ∈ members then
      member.purges[position]?.map (fun keepKeyId => room.set participantId { member with
        purges := member.purges.eraseIdx position
        mail := member.mail ++ [.purgeOldKeys participantId keepKeyId] })
    else none

end Room

end Seameet.E2ee

import Seameet.E2ee.Exchange

/-!
# Two participants join a room

Each participant generates a key pair and then a sender key, joins the room, and
broadcasts its public key once it has its keys and has joined. Whoever sees the other
appear in the room broadcasts its public key again, and whoever handles the other's
public key sends its sender key. Key generation, the broadcast and every handler are
asynchronous and are put aside at each await, as in a room that has been set up.

There are two participants, so each of a participant's tables has one possible key, the
other's, and is an option here. The server takes the messages of each participant in
order and passes them on to the other once that one has joined.
-/

namespace Seameet.E2ee

open Library

/-- One of the two participants. -/
inductive Side where
  | left
  | right
  deriving DecidableEq, Repr

/-- The side across. -/
def Side.other : Side → Side
  | .left => .right
  | .right => .left

/-- Across from across is the side itself. -/
theorem Side.other_other (side : Side) : side.other.other = side := by
  cases side <;> rfl

/-- No side is across from itself. -/
theorem Side.other_ne (side : Side) : side.other ≠ side := by
  cases side <;> decide

/-- There is no third side. -/
theorem Side.eq_or_other (side tested : Side) : tested = side ∨ tested = side.other := by
  cases side <;> cases tested <;> decide

/-- The keys of a participant. The sender key is generated after the key pair. -/
inductive Keys where
  | none
  | pair (ecdhKeyPair : Nat)
  | ready (ecdhKeyPair senderKeyRaw : Nat)
  deriving DecidableEq, Repr

namespace Keys

/-- The key pair, once it was made. -/
def ecdhKeyPair : Keys → Option Nat
  | none => Option.none
  | pair ecdhKeyPair | ready ecdhKeyPair _ => some ecdhKeyPair

/-- The own sender key, once it was made. -/
def senderKeyRaw : Keys → Option Nat
  | ready _ senderKeyRaw => some senderKeyRaw
  | _ => Option.none

/-- The next key is generated. -/
def generate (generated : Nat) : Keys → Keys
  | none => pair generated
  | pair ecdhKeyPair => ready ecdhKeyPair generated
  | ready ecdhKeyPair senderKeyRaw => ready ecdhKeyPair senderKeyRaw

end Keys

/-- A message between a participant and the server. -/
inductive LobbyMessage where
  | join
  /-- The other participant is in the room. -/
  | present
  | publicKey (publicKey : Nat)
  | senderKey (encryptedKey : EncryptedKey) (keyId : Nat)
  | requestKeyframe
  deriving DecidableEq, Repr

/-- A handler at an await, or the broadcast. -/
inductive Suspended where
  /-- The page has yet to tell the hook that the other participant appeared. -/
  | noticing
  /-- The public key is being exported, on the other's appearance. -/
  | exporting (publicKey : Nat)
  | importing (publicKey : Nat)
  /-- The shared secret is being derived, by the broadcast or by a handler. -/
  | agreeing (broadcast : Bool) (keyPair publicKey : Nat)
  | numbering (broadcast : Bool)
  /-- The broadcast exports the public key, with the other participant pending or not. -/
  | announcing (pending : Bool) (publicKey : Nat)
  | draining (queue : List (EncryptedKey × Nat))
  | decrypting (sharedSecret : SharedSecret) (item : EncryptedKey × Nat)
    (rest : Option (List (EncryptedKey × Nat)))
  | encrypting (sharedSecret : SharedSecret) (senderKeyRaw : Nat)
  deriving DecidableEq, Repr

/-- One participant: the references of the hook, its worker and the messages on their
way there, what is put aside, and the messages on their way to and from the server. -/
structure Entrant (Chain Key : Type) where
  keys : Keys
  joined : Bool
  broadcasted : Bool
  peerPublicKey : Option Nat
  sharedSecret : Option SharedSecret
  pendingSenderKeys : List (EncryptedKey × Nat)
  peerSenderKey : Option (Nat × Nat)
  worker : Worker Chain Key
  mail : List (WorkerMessage Nat)
  awaiting : List Suspended
  sent : List LobbyMessage
  received : List LobbyMessage

namespace Entrant

variable {Chain Key : Type}

/-- The page has just been opened. -/
def new : Entrant Chain Key :=
  { keys := .none, joined := false, broadcasted := false, peerPublicKey := none,
    sharedSecret := none, pendingSenderKeys := [], peerSenderKey := none, worker := .fresh,
    mail := [], awaiting := [], sent := [], received := [] }

/-- The identifier of the first sender key. -/
def localKeyId : Nat := 0

/-- A message to the other side is put on its way. -/
def send (entrant : Entrant Chain Key) (message : LobbyMessage) : Entrant Chain Key :=
  { entrant with sent := entrant.sent ++ [message] }

/-- Put a handler aside. -/
def await (entrant : Entrant Chain Key) (suspended : Suspended) : Entrant Chain Key :=
  { entrant with awaiting := entrant.awaiting ++ [suspended] }

/-- `genKeys` goes on: the key pair first, then the sender key, which the worker is told
of. -/
def generate (participantId : String) (generated : Nat) (entrant : Entrant Chain Key) :
    Entrant Chain Key :=
  let keys := entrant.keys.generate generated
  match entrant.keys, keys.senderKeyRaw with
  | .pair _, some senderKeyRaw =>
    { entrant with
      keys
      mail := entrant.mail ++ [WorkerMessage.setKey participantId localKeyId senderKeyRaw] }
  | _, _ => { entrant with keys }

/-- The entrant joins: it makes its key pair and tells the other side. -/
def join (entrant : Entrant Chain Key) : Entrant Chain Key :=
  { entrant with joined := true }.send .join

/-- Whether the broadcast is due. -/
def broadcastDue (entrant : Entrant Chain Key) : Bool :=
  entrant.keys.senderKeyRaw.isSome && entrant.joined && !entrant.broadcasted

/-- The broadcast starts. If the other's public key came before the keys were ready, its
shared secret is derived first. -/
def broadcast (entrant : Entrant Chain Key) : Entrant Chain Key :=
  let entrant := { entrant with broadcasted := true }
  match entrant.keys.ecdhKeyPair, entrant.peerPublicKey, entrant.sharedSecret with
  | some keyPair, some publicKey, none => entrant.await (.agreeing true keyPair publicKey)
  | some keyPair, _, _ => entrant.await (.announcing false keyPair)
  | none, _, _ => entrant

/-- Back to the queue a sender key was taken from, if it was. -/
def proceed (entrant : Entrant Chain Key) :
    Option (List (EncryptedKey × Nat)) → Entrant Chain Key
  | none => entrant
  | some queue => entrant.await (.draining queue)

/-- A sender key that arrived is opened and set, and the next one is looked at. -/
def processSenderKey (entrant : Entrant Chain Key) (item : EncryptedKey × Nat)
    (rest : Option (List (EncryptedKey × Nat))) : Entrant Chain Key :=
  match entrant.sharedSecret with
  | none => entrant.proceed rest
  | some sharedSecret => entrant.await (.decrypting sharedSecret item rest)

/-- Without a sender key of one's own nothing is sent. -/
def sendSenderKeyTo (entrant : Entrant Chain Key) : Entrant Chain Key :=
  match entrant.sharedSecret, entrant.keys.senderKeyRaw with
  | some sharedSecret, some senderKeyRaw => entrant.await (.encrypting sharedSecret senderKeyRaw)
  | _, _ => entrant

/-- A sender key that arrived before the secret is kept for later. -/
def queueSenderKey (entrant : Entrant Chain Key) (item : EncryptedKey × Nat) :
    Entrant Chain Key :=
  let queue := entrant.pendingSenderKeys ++ [item]
  { entrant with
    pendingSenderKeys := if pendingSenderKeyCap < queue.length then queue.drop 1 else queue }

/-- The queued sender keys are taken out to be tried. -/
def drainPendingSenderKeys (entrant : Entrant Chain Key) : Entrant Chain Key :=
  { entrant with pendingSenderKeys := [] }.await (.draining entrant.pendingSenderKeys)

/-- A message of the server is handled up to the first await. -/
def handleMessage (entrant : Entrant Chain Key) : LobbyMessage → Entrant Chain Key
  | .present => entrant.await .noticing
  | .publicKey publicKey => entrant.await (.importing publicKey)
  | .senderKey encryptedKey keyId =>
    if entrant.sharedSecret.isNone then entrant.queueSenderKey (encryptedKey, keyId)
    else entrant.processSenderKey (encryptedKey, keyId) none
  | .join | .requestKeyframe => entrant

/-- A handler goes on after its await, up to the next one. -/
def resume (peerId : String) (entrant : Entrant Chain Key) : Suspended → Entrant Chain Key
  | .noticing =>
    match entrant.keys.ecdhKeyPair with
    | some keyPair => entrant.await (.exporting keyPair)
    | none => entrant
  | .exporting publicKey => entrant.send (.publicKey publicKey)
  | .importing publicKey =>
    let entrant := { entrant with peerPublicKey := some publicKey }
    match entrant.keys.ecdhKeyPair with
    | some keyPair => entrant.await (.agreeing false keyPair publicKey)
    | none => entrant
  | .agreeing broadcast keyPair publicKey =>
    { entrant with sharedSecret := some (deriveSharedSecret keyPair publicKey) }.await
      (.numbering broadcast)
  | .numbering false => entrant.drainPendingSenderKeys
  | .numbering true =>
    match entrant.keys.ecdhKeyPair with
    | some keyPair => entrant.await (.announcing true keyPair)
    | none => entrant
  | .announcing pending publicKey =>
    let entrant := entrant.send (.publicKey publicKey)
    if pending then entrant.drainPendingSenderKeys else entrant
  | .draining [] => entrant.sendSenderKeyTo
  | .draining (item :: queue) => entrant.processSenderKey item (some queue)
  | .decrypting sharedSecret item rest =>
    match decryptSenderKey sharedSecret item.1 with
    | none => entrant.proceed rest
    | some senderKeyRaw =>
      { entrant with
        peerSenderKey := some (senderKeyRaw, item.2)
        mail := entrant.mail ++ [WorkerMessage.setKey peerId item.2 senderKeyRaw] }
        |>.send .requestKeyframe
        |>.proceed rest
  | .encrypting sharedSecret senderKeyRaw =>
    entrant.send (.senderKey (encryptSenderKey sharedSecret senderKeyRaw) localKeyId)

end Entrant

/-- The two participants and the server: who has joined, and how many keys were
generated so far. -/
structure Lobby (Chain Key : Type) where
  generated : Nat
  admitted : Side → Bool
  entrant : Side → Entrant Chain Key

/-- Something that happens. A position names one of a participant's handlers or worker
messages, which may come in any order. -/
inductive LobbyEvent where
  /-- The next key of a participant is there. -/
  | generates (side : Side)
  | joins (side : Side)
  | broadcasts (side : Side)
  /-- A handler goes on. -/
  | resumes (side : Side) (position : Nat)
  /-- The server takes the next message of a participant. -/
  | relays (side : Side)
  /-- A participant takes the next message of the server. -/
  | delivers (side : Side)
  /-- The worker finishes handling a message. -/
  | installs (side : Side) (position : Nat)
  deriving DecidableEq, Repr

namespace Lobby

variable {Chain Key : Type} (primitives : Primitives Nat Chain Key) (names : Side → String)

/-- A lobby that nobody has entered. -/
def new : Lobby Chain Key :=
  { generated := 0, admitted := fun _ => false, entrant := fun _ => .new }

/-- Change one participant. -/
def set (lobby : Lobby Chain Key) (side : Side) (entrant : Entrant Chain Key) :
    Lobby Chain Key :=
  { lobby with entrant := Function.update lobby.entrant side entrant }

/-- Place a message for a participant. -/
def deliver (lobby : Lobby Chain Key) (side : Side) (message : LobbyMessage) :
    Lobby Chain Key :=
  lobby.set side { lobby.entrant side with
    received := (lobby.entrant side).received ++ [message] }

/-- The server handles a message of a participant. Once both have joined, each is shown
the other. -/
def relay (lobby : Lobby Chain Key) (side : Side) (message : LobbyMessage) : Lobby Chain Key :=
  match message with
  | .join =>
    let lobby := { lobby with admitted := Function.update lobby.admitted side true }
    if lobby.admitted side.other then
      (lobby.deliver side .present).deliver side.other .present
    else lobby
  | .publicKey _ | .senderKey _ _ =>
    if lobby.admitted side.other then lobby.deliver side.other message else lobby
  | .present | .requestKeyframe => lobby

/-- One event; an event that is not due refuses. -/
def step (lobby : Lobby Chain Key) (event : LobbyEvent) : Option (Lobby Chain Key) :=
  match event with
  | .generates side =>
    let entrant := lobby.entrant side
    if entrant.keys.senderKeyRaw.isNone then
      some ({ lobby with generated := lobby.generated + 1 }.set side
        (entrant.generate (names side) lobby.generated))
    else none
  | .joins side =>
    let entrant := lobby.entrant side
    if entrant.joined then none else some (lobby.set side entrant.join)
  | .broadcasts side =>
    let entrant := lobby.entrant side
    if entrant.broadcastDue then some (lobby.set side entrant.broadcast) else none
  | .resumes side position =>
    let entrant := lobby.entrant side
    entrant.awaiting[position]?.map (fun suspended =>
      lobby.set side ({ entrant with awaiting := entrant.awaiting.eraseIdx position }.resume
        (names side.other) suspended))
  | .relays side =>
    let entrant := lobby.entrant side
    entrant.sent.head?.map (fun message =>
      (lobby.set side { entrant with sent := entrant.sent.tail }).relay side message)
  | .delivers side =>
    let entrant := lobby.entrant side
    entrant.received.head?.map (fun message =>
      lobby.set side ({ entrant with received := entrant.received.tail }.handleMessage message))
  | .installs side position =>
    let entrant := lobby.entrant side
    entrant.mail[position]?.map (fun message =>
      lobby.set side { entrant with
        mail := entrant.mail.eraseIdx position
        worker := entrant.worker.receive primitives message })

end Lobby

end Seameet.E2ee

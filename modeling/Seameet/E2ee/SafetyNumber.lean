import Seameet.Library.Runs
import Seameet.E2ee.Lobby

/-!
# Safety numbers

Two participants show each other a number that is computed from their public keys.
Each side computes it when it handles the other's public key, and keeps it; the key
pairs themselves are generated at the start and replaced by every ratchet. A public
key is broadcast when a participant is ready, when somebody appears in the room, when
the watchdog asks for a sender key, and after a ratchet.

The model follows what the numbers depend on: key pairs, public keys, shared secrets
and the handlers that use them. Sender keys travel beside them and decide nothing
here. Other participants of the room show up as appearances that make a participant
broadcast its public key, and as time the broadcast spends on them.
-/

namespace Seameet.E2ee

open Library

/-- The sign of the first difference, or of the lengths' difference. -/
def compareBytes : List UInt8 → List UInt8 → Int
  | a :: as, b :: bs => if a ≠ b then (a.toNat : Int) - b.toNat else compareBytes as bs
  | as, bs => (as.length : Int) - bs.length

/-- A byte as three decimal digits. -/
def threeDigits (byte : UInt8) : List Char :=
  let digits := (toString byte.toNat).toList
  List.replicate (3 - digits.length) '0' ++ digits

/-- The fingerprint of two public keys: sixty digits of the hash of both, the smaller
one first, in groups of five. -/
def computeSafetyNumber (digest : List UInt8 → List UInt8) (localRaw remoteRaw : List UInt8) :
    List Char :=
  let sorted := if compareBytes localRaw remoteRaw ≤ 0 then (localRaw, remoteRaw)
    else (remoteRaw, localRaw)
  let hash := digest (sorted.1 ++ sorted.2)
  let digits := hash.flatMap threeDigits
  let groups := (List.range 12).map (fun index => (digits.drop (5 * index)).take 5)
  [' '].intercalate groups

/-- A message between a participant and the server. -/
inductive KeyMessage where
  | join
  /-- The other participant is in the room. -/
  | present
  | publicKey (publicKey : Nat)
  deriving DecidableEq, Repr

/-- A handler at an await, a broadcast or a ratchet. -/
inductive Pending where
  /-- The page has yet to tell the hook that somebody appeared. -/
  | noticing
  /-- A public key is being exported to be broadcast. -/
  | exporting (publicKey : Nat)
  /-- A ratchet waits for its key pair. -/
  | generatingPair
  /-- A ratchet waits for its sender key. -/
  | generatingKey
  /-- The broadcast has yet to look at the other participant. -/
  | visiting
  | importing (publicKey : Nat)
  /-- The shared secret is being derived, by the broadcast or by a handler. -/
  | agreeing (broadcast : Bool) (keyPair publicKey : Nat)
  /-- The safety number of two public keys is being computed. -/
  | numbering (broadcast : Bool) (own publicKey : Nat)
  deriving DecidableEq, Repr

/-- One participant: the references of the hook that the numbers depend on, what is
put aside, and the messages on their way to and from the server. -/
structure Verifier where
  ecdhKeyPair : Option Nat
  senderKeyRaw : Option Nat
  joined : Bool
  broadcasted : Bool
  peerPublicKey : Option Nat
  sharedSecret : Option SharedSecret
  safetyNumber : Option (List Char)
  awaiting : List Pending
  sent : List KeyMessage
  received : List KeyMessage
  deriving DecidableEq, Repr

namespace Verifier

/-- The page has just been opened. -/
def new : Verifier :=
  { ecdhKeyPair := none, senderKeyRaw := none, joined := false, broadcasted := false,
    peerPublicKey := none, sharedSecret := none, safetyNumber := none, awaiting := [], sent := [],
    received := [] }

/-- A message of the verifier goes out to the server. -/
def send (verifier : Verifier) (message : KeyMessage) : Verifier :=
  { verifier with sent := verifier.sent ++ [message] }

/-- Put a handler aside. -/
def await (verifier : Verifier) (pending : Pending) : Verifier :=
  { verifier with awaiting := verifier.awaiting ++ [pending] }

/-- `genKeys` goes on: the key pair first, then the sender key. -/
def generate (generated : Nat) (verifier : Verifier) : Verifier :=
  if verifier.ecdhKeyPair.isNone then { verifier with ecdhKeyPair := some generated }
  else { verifier with senderKeyRaw := some generated }

/-- The verifier joins the room, which tells the server so. -/
def join (verifier : Verifier) : Verifier := { verifier with joined := true }.send .join

/-- Whether the broadcast is due. -/
def broadcastDue (verifier : Verifier) : Bool :=
  verifier.senderKeyRaw.isSome && verifier.joined && !verifier.broadcasted

/-- The broadcast starts. It looks at the participants it has public keys of in turn. -/
def broadcast (verifier : Verifier) : Verifier := { verifier with broadcasted := true }.await .visiting

/-- The present public key is broadcast, when there is one. -/
def broadcastPublicKey (verifier : Verifier) : Verifier :=
  match verifier.ecdhKeyPair with
  | some keyPair => verifier.await (.exporting keyPair)
  | none => verifier

/-- A ratchet is due. -/
def ratchet (verifier : Verifier) : Verifier := verifier.await .generatingPair

/-- A message of the server is handled up to the first await. -/
def handleMessage (verifier : Verifier) : KeyMessage → Verifier
  | .present => verifier.await .noticing
  | .publicKey publicKey => verifier.await (.importing publicKey)
  | .join => verifier

/-- A handler goes on after its await, up to the next one. The number is the one a key
generated there is given; `raw` exports a public key. -/
def resume (digest : List UInt8 → List UInt8) (raw : Nat → List UInt8) (generated : Nat)
    (verifier : Verifier) : Pending → Verifier
  | .noticing => verifier.broadcastPublicKey
  | .exporting publicKey => verifier.send (.publicKey publicKey)
  | .generatingPair => { verifier with ecdhKeyPair := some generated }.await .generatingKey
  | .generatingKey =>
    { verifier with senderKeyRaw := some generated, sharedSecret := none }.broadcastPublicKey
  | .visiting =>
    match verifier.ecdhKeyPair, verifier.peerPublicKey, verifier.sharedSecret with
    | some keyPair, some publicKey, none => verifier.await (.agreeing true keyPair publicKey)
    | _, _, _ => verifier.broadcastPublicKey
  | .importing publicKey =>
    let verifier := { verifier with peerPublicKey := some publicKey }
    match verifier.ecdhKeyPair with
    | some keyPair => verifier.await (.agreeing false keyPair publicKey)
    | none => verifier
  | .agreeing broadcast keyPair publicKey =>
    let verifier :=
      { verifier with sharedSecret := some (deriveSharedSecret keyPair publicKey) }
    match verifier.ecdhKeyPair with
    | some own => verifier.await (.numbering broadcast own publicKey)
    | none => verifier
  | .numbering broadcast own publicKey =>
    let verifier :=
      { verifier with safetyNumber := some (computeSafetyNumber digest (raw own) (raw publicKey)) }
    if broadcast then verifier.broadcastPublicKey else verifier

end Verifier

/-- The two participants and the server: who has joined, and how many keys were
generated so far. -/
structure Pairing where
  generated : Nat
  admitted : Side → Bool
  verifier : Side → Verifier

/-- Something that happens. A position names one of a participant's handlers, which go
on in any order. -/
inductive PairingEvent where
  /-- The next key of a participant is there. -/
  | generates (side : Side)
  | joins (side : Side)
  | broadcasts (side : Side)
  /-- Another participant appears, or the watchdog is due. -/
  | announces (side : Side)
  /-- A ratchet begins. -/
  | ratchets (side : Side)
  /-- A handler goes on. -/
  | resumes (side : Side) (position : Nat)
  /-- The server takes the next message of a participant. -/
  | relays (side : Side)
  /-- A participant takes the next message of the server. -/
  | delivers (side : Side)
  deriving DecidableEq, Repr

namespace Pairing

variable (digest : List UInt8 → List UInt8) (raw : Nat → List UInt8)

/-- Nobody has joined, and no key has been made. -/
def new : Pairing := { generated := 0, admitted := fun _ => false, verifier := fun _ => .new }

/-- Change one participant. -/
def set (pairing : Pairing) (side : Side) (verifier : Verifier) : Pairing :=
  { pairing with verifier := Function.update pairing.verifier side verifier }

/-- Place a message for a participant. -/
def deliver (pairing : Pairing) (side : Side) (message : KeyMessage) : Pairing :=
  pairing.set side { pairing.verifier side with
    received := (pairing.verifier side).received ++ [message] }

/-- The server handles a message of a participant. Once both have joined, each is shown
the other. -/
def relay (pairing : Pairing) (side : Side) (message : KeyMessage) : Pairing :=
  match message with
  | .join =>
    let pairing := { pairing with admitted := Function.update pairing.admitted side true }
    if pairing.admitted side.other then
      (pairing.deliver side .present).deliver side.other .present
    else pairing
  | .publicKey _ => if pairing.admitted side.other then pairing.deliver side.other message else pairing
  | .present => pairing

/-- One event; an event that is not due refuses. -/
def step (pairing : Pairing) (event : PairingEvent) : Option Pairing :=
  match event with
  | .generates side =>
    let verifier := pairing.verifier side
    if verifier.senderKeyRaw.isNone then
      some ({ pairing with generated := pairing.generated + 1 }.set side
        (verifier.generate pairing.generated))
    else none
  | .joins side =>
    let verifier := pairing.verifier side
    if verifier.joined then none else some (pairing.set side verifier.join)
  | .broadcasts side =>
    let verifier := pairing.verifier side
    if verifier.broadcastDue then some (pairing.set side verifier.broadcast) else none
  | .announces side => some (pairing.set side (pairing.verifier side).broadcastPublicKey)
  | .ratchets side =>
    let verifier := pairing.verifier side
    if verifier.senderKeyRaw.isSome then some (pairing.set side verifier.ratchet) else none
  | .resumes side position =>
    let verifier := pairing.verifier side
    verifier.awaiting[position]?.map (fun pending =>
      { pairing with generated := pairing.generated + 1 }.set side
        ({ verifier with awaiting := verifier.awaiting.eraseIdx position }.resume digest raw
          pairing.generated pending))
  | .relays side =>
    let verifier := pairing.verifier side
    verifier.sent.head?.map (fun message =>
      (pairing.set side { verifier with sent := verifier.sent.tail }).relay side message)
  | .delivers side =>
    let verifier := pairing.verifier side
    verifier.received.head?.map (fun message =>
      pairing.set side
        ({ verifier with received := verifier.received.tail }.handleMessage message))

/-- Nothing is in flight and no handler is under way. -/
def Quiescent (pairing : Pairing) : Prop :=
  ∀ side, (pairing.verifier side).awaiting = [] ∧ (pairing.verifier side).sent = [] ∧
    (pairing.verifier side).received = []

end Pairing

end Seameet.E2ee

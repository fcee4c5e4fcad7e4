import Seameet.E2ee.Crypto
import Seameet.Library.Runs

/-!
# The frame worker

The worker holds the chains of every participant's sender keys, the counters of
the frames it has encrypted and the replay windows of the frames it has accepted.
A frame is encrypted under the newest entry of its participant; a received frame
is decrypted under the entry its key identifier names, and failing that under a
skipped key of another entry.

The frames of one participant run one after the other under that participant's
lock, and nothing but its frames changes a chain entry, so a frame is taken to
run at the moment it is submitted.
-/

namespace Seameet.E2ee

open Library

/-- What a dropped frame was dropped from. -/
inductive Operation where
  | encrypt
  | decrypt
  deriving DecidableEq, Repr

/-- An encoded media frame with the metadata the worker reads. -/
structure Frame where
  data : List UInt8
  payloadType : Option Nat
  deriving DecidableEq, Repr

/-- The state of the worker. Counters and windows are kept under a participant and
a key identifier. -/
structure Worker (Chain Key : Type) where
  senderChains : Table String (List (ChainEntry Chain Key))
  frameCounters : Table (String × Nat) Nat
  replayWindows : Table (String × Nat) ReplayWindow
  notReadyNotified : List (Operation × String)
  /-- The `e2ee_not_ready` messages posted to the main thread. -/
  posted : List (Operation × String)

/-- A frame that was encrypted, with the key and the nonce it was encrypted under. -/
structure Encrypted (Key : Type) where
  messageKey : Key
  iv : List UInt8
  output : List UInt8

/-- The parts of a received frame. -/
structure WireFrame where
  codecHeader : List UInt8
  kid : Nat
  ctr : Nat
  e2eeHeader : List UInt8
  ciphertext : List UInt8
  deriving DecidableEq, Repr

/-- A message from the main thread. -/
inductive WorkerMessage (Raw : Type) where
  | setKey (participantId : String) (keyId : Nat) (rawKey : Raw)
  | removeKeys (participantId : String)
  | purgeOldKeys (participantId : String) (keepKeyId : Nat)

namespace Worker

variable {Raw Chain Key : Type}

/-- A worker that has just been created. -/
def fresh : Worker Chain Key :=
  { senderChains := ∅, frameCounters := ∅, replayWindows := ∅, notReadyNotified := [], posted := [] }

/-- The chain entries installed for a participant. -/
def entriesOf (worker : Worker Chain Key) (participantId : String) : List (ChainEntry Chain Key) :=
  (worker.senderChains.lookup participantId).getD []

/-- Report a dropped frame, once until the participant's next key. -/
def notifyNotReady (worker : Worker Chain Key) (operation : Operation) (participantId : String) :
    Worker Chain Key :=
  if (operation, participantId) ∈ worker.notReadyNotified then worker
  else { worker with
    notReadyNotified := (operation, participantId) :: worker.notReadyNotified
    posted := worker.posted ++ [(operation, participantId)] }

/-- Both notices about a participant may be sent again. -/
def clearNotReady (worker : Worker Chain Key) (participantId : String) : Worker Chain Key :=
  { worker with
    notReadyNotified := worker.notReadyNotified.filter
      (fun tag => tag != (.encrypt, participantId) && tag != (.decrypt, participantId)) }

/-- Change an entry in place. A participant has one entry for a key identifier. -/
def replaceEntry (worker : Worker Chain Key) (participantId : String) (entry : ChainEntry Chain Key) :
    Worker Chain Key :=
  { worker with
    senderChains := worker.senderChains.modify participantId
      (fun entries => entries.map (fun held => if held.keyId = entry.keyId then entry else held)) }

section Frames

variable (primitives : Primitives Raw Chain Key)

/-- Encrypts a frame under the newest entry of its participant. -/
def encryptFrame (worker : Worker Chain Key) (frame : Frame) (participantId : String)
    (isAudio : Bool) : Option (Encrypted Key) × Worker Chain Key :=
  match (worker.entriesOf participantId).getLast? with
  | none => (none, worker.notifyNotReady .encrypt participantId)
  | some entry =>
    let unencryptedBytes := getUnencryptedBytes frame.payloadType frame.data isAudio
    -- The view of the clear header throws on a shorter frame, before anything is changed.
    if frame.data.length < unencryptedBytes then (none, worker)
    else
      let codecHeader := frame.data.take unencryptedBytes
      let payload := frame.data.drop unencryptedBytes
      let ctr := (worker.frameCounters.lookup (participantId, entry.keyId)).getD 0 + 1
      let frameCounters := worker.frameCounters.insert (participantId, entry.keyId) ctr
      let (messageKey, advanced) := getEncryptionKey primitives entry
      let iv := computeNonce entry.baseSalt ctr
      let e2eeHeader := UInt8.ofNat entry.keyId :: BigEndian.encode headerCtrLength ctr
      let aad := buildAAD participantId codecHeader e2eeHeader
      let ciphertext := primitives.encrypt messageKey iv aad payload
      let output := codecHeader ++ e2eeHeader ++ ciphertext ++ [UInt8.ofNat unencryptedBytes &&& 0x7f]
      (some { messageKey, iv, output },
        { worker with frameCounters }.replaceEntry participantId advanced)

/-- Takes a received frame apart. A frame that is too small, or whose trailer names
a longer header than it has room for, is dropped. -/
def readFrame (data : List UInt8) : Option WireFrame :=
  if data.length < trailerLength + e2eeHeaderLength + 16 then none
  else
    let trailer := data.getLast?.getD 0
    let unencryptedBytes := (trailer &&& 0x7f).toNat
    if data.length < unencryptedBytes + e2eeHeaderLength + trailerLength then none
    else
      let e2eeHeader := (data.drop unencryptedBytes).take e2eeHeaderLength
      some {
        codecHeader := data.take unencryptedBytes
        kid := (e2eeHeader.head?.getD 0).toNat
        ctr := BigEndian.decode (e2eeHeader.drop headerKidLength)
        e2eeHeader
        ciphertext := (data.drop (unencryptedBytes + e2eeHeaderLength)).dropLast }

/-- Opens a frame with a message key of an entry. -/
def openFrame (senderId : String) (wire : WireFrame) (baseSalt : List UInt8) (messageKey : Key) :
    Option (List UInt8) :=
  primitives.decrypt messageKey (computeNonce baseSalt wire.ctr)
    (buildAAD senderId wire.codecHeader wire.e2eeHeader) wire.ciphertext

/-- Tries the skipped keys of other entries, in the order given. -/
def decryptFallback (worker : Worker Chain Key) (senderId : String) (wire : WireFrame) :
    List (ChainEntry Chain Key) → Option (List UInt8) × Worker Chain Key
  | [] => (none, worker.notifyNotReady .decrypt senderId)
  | entry :: rest =>
    if wire.ctr < entry.nextCtr then
      match entry.skippedKeys.lookup wire.ctr with
      | some cached =>
        match openFrame primitives senderId wire entry.baseSalt cached with
        | some plaintext =>
          let used := worker.replaceEntry senderId
            { entry with skippedKeys := entry.skippedKeys.erase wire.ctr }
          let checked := checkReplay used.replayWindows senderId (entry.keyId % 256) wire.ctr
          (some (wire.codecHeader ++ plaintext), { used with replayWindows := checked.2 })
        | none => decryptFallback worker senderId wire rest
      | none => decryptFallback worker senderId wire rest
    else decryptFallback worker senderId wire rest

/-- Decrypts a frame that could be taken apart. -/
def decryptWire (worker : Worker Chain Key) (senderId : String) (wire : WireFrame) :
    Option (List UInt8) × Worker Chain Key :=
  let entries := worker.entriesOf senderId
  match entries.find? (fun entry => entry.keyId % 256 == wire.kid) with
  | some matchingEntry =>
    match checkReplay worker.replayWindows senderId wire.kid wire.ctr with
    | (false, _) => (none, worker)
    | (true, replayWindows) =>
      let others := (entries.filter (fun entry => entry.keyId != matchingEntry.keyId)).reverse
      let derived := getDecryptionKey primitives matchingEntry wire.ctr
      let worker := { worker with replayWindows }.replaceEntry senderId derived.2
      match derived.1 with
      | none => (none, worker)
      | some messageKey =>
        match openFrame primitives senderId wire matchingEntry.baseSalt messageKey with
        | some plaintext => (some (wire.codecHeader ++ plaintext), worker)
        | none => decryptFallback primitives worker senderId wire others
  | none => decryptFallback primitives worker senderId wire entries.reverse

/-- Decrypts a received frame. A frame of a sender without a key is dropped and
reported; one that cannot be taken apart is dropped. -/
def decryptFrame (worker : Worker Chain Key) (senderId : String) (data : List UInt8) :
    Option (List UInt8) × Worker Chain Key :=
  if (worker.entriesOf senderId).isEmpty then (none, worker.notifyNotReady .decrypt senderId)
  else
    match readFrame data with
    | none => (none, worker)
    | some wire => decryptWire primitives worker senderId wire

/-- Handles a message from the main thread. A key replaces the entry with the same
key identifier, and leaves counters and windows as they are. The source keeps these
under one string, participant and identifier with a colon between, and removes them
by the string's start; participants have no colon in their names. -/
def receive (worker : Worker Chain Key) : WorkerMessage Raw → Worker Chain Key
  | .setKey participantId keyId rawKey =>
    let entry := initChainEntry primitives rawKey keyId
    let entries := (worker.entriesOf participantId).filter (fun held => held.keyId != keyId)
    { worker with senderChains := worker.senderChains.insert participantId (entries ++ [entry]) }
      |>.clearNotReady participantId
  | .removeKeys participantId =>
    { worker with
      senderChains := worker.senderChains.erase participantId
      frameCounters := worker.frameCounters.retain (fun key _ => key.1 != participantId)
      replayWindows := worker.replayWindows.retain (fun key _ => key.1 != participantId) }
  | .purgeOldKeys participantId keepKeyId =>
    { worker with
      senderChains := worker.senderChains.modify participantId
        (fun entries => entries.filter (fun entry => keepKeyId ≤ entry.keyId)) }

end Frames

/-- Replacing an entry is seen by its participant alone. -/
theorem entriesOf_replaceEntry (worker : Worker Chain Key) (participantId tested : String)
    (entry : ChainEntry Chain Key) :
    (worker.replaceEntry participantId entry).entriesOf tested =
      if tested = participantId then (worker.entriesOf participantId).map
        (fun held => if held.keyId = entry.keyId then entry else held)
      else worker.entriesOf tested := by
  simp only [entriesOf, replaceEntry, Table.lookup_modify]
  split
  · cases worker.senderChains.lookup participantId with
    | none => rfl
    | some entries => rfl
  · rfl

/-- A notice of missing keys changes no entry. -/
@[simp] theorem entriesOf_notifyNotReady (worker : Worker Chain Key) (operation : Operation)
    (participantId tested : String) :
    (worker.notifyNotReady operation participantId).entriesOf tested = worker.entriesOf tested := by
  unfold notifyNotReady
  split <;> rfl

/-- A notice of missing keys changes no replay window. -/
@[simp] theorem replayWindows_notifyNotReady (worker : Worker Chain Key) (operation : Operation)
    (participantId : String) :
    (worker.notifyNotReady operation participantId).replayWindows = worker.replayWindows := by
  unfold notifyNotReady
  split <;> rfl

/-- What each message leaves installed for a participant. -/
theorem entriesOf_receive (primitives : Primitives Raw Chain Key) (worker : Worker Chain Key)
    (message : WorkerMessage Raw) (tested : String) :
    (worker.receive primitives message).entriesOf tested =
      match message with
      | .setKey participantId keyId rawKey =>
        if tested = participantId then
          (worker.entriesOf participantId).filter (fun held => held.keyId != keyId)
            ++ [initChainEntry primitives rawKey keyId]
        else worker.entriesOf tested
      | .removeKeys participantId =>
        if tested = participantId then [] else worker.entriesOf tested
      | .purgeOldKeys participantId keepKeyId =>
        if tested = participantId then
          (worker.entriesOf participantId).filter (fun entry => keepKeyId ≤ entry.keyId)
        else worker.entriesOf tested := by
  cases message with
  | setKey participantId keyId rawKey =>
    simp only [entriesOf, receive, clearNotReady, Table.lookup_insert_eq]
    split <;> rfl
  | removeKeys participantId =>
    simp only [entriesOf, receive, Table.lookup_erase_eq]
    split <;> rfl
  | purgeOldKeys participantId keepKeyId =>
    simp only [entriesOf, receive, Table.lookup_modify]
    split
    · cases worker.senderChains.lookup participantId with
      | none => rfl
      | some entries => rfl
    · rfl

/-- A test of a counter settles the window it reads and no other. -/
theorem checkReplay_lookup (replayWindows : Table (String × Nat) ReplayWindow) (senderId : String)
    (keyId ctr : Nat) (tested : String × Nat) :
    (checkReplay replayWindows senderId keyId ctr).2.lookup tested =
      if tested = (senderId, keyId) then
        Window.settle replayWindowSize (replayWindows.lookup (senderId, keyId)) ctr
      else replayWindows.lookup tested := by
  unfold checkReplay Window.settle
  cases Window.check replayWindowSize (replayWindows.lookup (senderId, keyId)) ctr with
  | some window => exact Table.lookup_insert_eq _ tested window replayWindows
  | none =>
    by_cases same : tested = (senderId, keyId)
    · rw [if_pos same, same]
      rfl
    · rw [if_neg same]

section Encryption

variable (primitives : Primitives Raw Chain Key)

/-- The counter that the next frame under an entry takes. -/
def nextCounter (worker : Worker Chain Key) (participantId : String) (entry : ChainEntry Chain Key) :
    Nat :=
  (worker.frameCounters.lookup (participantId, entry.keyId)).getD 0 + 1

/-- The worker after a frame was encrypted under an entry. -/
def advanced (worker : Worker Chain Key) (participantId : String) (entry : ChainEntry Chain Key) :
    Worker Chain Key :=
  { worker with
    frameCounters := worker.frameCounters.insert (participantId, entry.keyId)
      (worker.nextCounter participantId entry) }.replaceEntry participantId
        (getEncryptionKey primitives entry).2

/-- What becomes of a frame that is to be encrypted. -/
inductive EncryptOutcome (worker : Worker Chain Key) (frame : Frame) (participantId : String)
    (isAudio : Bool) : Option (Encrypted Key) × Worker Chain Key → Prop where
  /-- The participant has no key. -/
  | notReady (missing : worker.entriesOf participantId = []) :
      EncryptOutcome worker frame participantId isAudio
        (none, worker.notifyNotReady .encrypt participantId)
  /-- The frame is shorter than its clear header. -/
  | short (under : frame.data.length < getUnencryptedBytes frame.payloadType frame.data isAudio) :
      EncryptOutcome worker frame participantId isAudio (none, worker)
  /-- The frame is encrypted under the newest entry. -/
  | encrypted (entry : ChainEntry Chain Key) (codecHeader payload aad : List UInt8)
      (newest : (worker.entriesOf participantId).getLast? = some entry)
      (room : getUnencryptedBytes frame.payloadType frame.data isAudio ≤ frame.data.length)
      (cut : codecHeader =
        frame.data.take (getUnencryptedBytes frame.payloadType frame.data isAudio) ∧
          payload = frame.data.drop (getUnencryptedBytes frame.payloadType frame.data isAudio))
      (bound : aad = buildAAD participantId codecHeader (UInt8.ofNat entry.keyId ::
        BigEndian.encode headerCtrLength (worker.nextCounter participantId entry))) :
      EncryptOutcome worker frame participantId isAudio
        (some {
          messageKey := primitives.deriveMessage entry.chainKeyRaw
          iv := computeNonce entry.baseSalt (worker.nextCounter participantId entry)
          output := codecHeader ++ (UInt8.ofNat entry.keyId :: BigEndian.encode headerCtrLength
              (worker.nextCounter participantId entry))
            ++ primitives.encrypt (primitives.deriveMessage entry.chainKeyRaw)
              (computeNonce entry.baseSalt (worker.nextCounter participantId entry)) aad payload
            ++ [UInt8.ofNat (getUnencryptedBytes frame.payloadType frame.data isAudio) &&& 0x7f] },
          worker.advanced primitives participantId entry)

/-- A frame has one of these outcomes. -/
theorem encryptFrame_outcome (worker : Worker Chain Key) (frame : Frame) (participantId : String)
    (isAudio : Bool) : EncryptOutcome primitives worker frame participantId isAudio
      (worker.encryptFrame primitives frame participantId isAudio) := by
  unfold encryptFrame
  cases newest : (worker.entriesOf participantId).getLast? with
  | none => exact .notReady (List.getLast?_eq_none_iff.mp newest)
  | some entry =>
    dsimp only
    split
    · next under => exact .short under
    · next room =>
      exact .encrypted entry _ _ _ newest (Nat.le_of_not_lt room) ⟨rfl, rfl⟩ rfl

/-- An encrypted frame counts one up, under its own participant and key identifier. -/
theorem frameCounters_advanced (worker : Worker Chain Key) (participantId : String)
    (entry : ChainEntry Chain Key) (tested : String × Nat) :
    (worker.advanced primitives participantId entry).frameCounters.lookup tested =
      if tested = (participantId, entry.keyId) then
        some (worker.nextCounter participantId entry)
      else worker.frameCounters.lookup tested :=
  Table.lookup_insert_eq _ tested _ worker.frameCounters

/-- An encrypted frame moves its own entry on by one step. -/
theorem entriesOf_advanced (worker : Worker Chain Key) (participantId tested : String)
    (entry : ChainEntry Chain Key) :
    (worker.advanced primitives participantId entry).entriesOf tested =
      if tested = participantId then (worker.entriesOf participantId).map (fun held =>
        if held.keyId = entry.keyId then (getEncryptionKey primitives entry).2 else held)
      else worker.entriesOf tested :=
  entriesOf_replaceEntry _ participantId tested _

end Encryption

section Decryption

variable {primitives : Primitives Raw Chain Key} {worker : Worker Chain Key} {senderId : String}
  {wire : WireFrame} {matchingEntry : ChainEntry Chain Key} {window : ReplayWindow}

/-- The worker after an accepted counter was recorded and its key was asked for. -/
def derived (primitives : Primitives Raw Chain Key) (worker : Worker Chain Key) (senderId : String)
    (wire : WireFrame) (matchingEntry : ChainEntry Chain Key) (window : ReplayWindow) :
    Worker Chain Key :=
  { worker with
    replayWindows := worker.replayWindows.insert (senderId, wire.kid) window }.replaceEntry senderId
      (getDecryptionKey primitives matchingEntry wire.ctr).2

/-- A counter that the window refuses changes nothing. -/
theorem decryptWire_refused
    (found : (worker.entriesOf senderId).find? (fun entry => entry.keyId % 256 == wire.kid) =
      some matchingEntry)
    (refused : Window.check replayWindowSize
      (worker.replayWindows.lookup (senderId, wire.kid)) wire.ctr = none) :
    worker.decryptWire primitives senderId wire = (none, worker) := by
  unfold decryptWire checkReplay
  simp only [found, refused]

/-- An accepted counter is recorded before its key is asked for, and both happen
before the frame is opened. -/
theorem decryptWire_accepted
    (found : (worker.entriesOf senderId).find? (fun entry => entry.keyId % 256 == wire.kid) =
      some matchingEntry)
    (accepted : Window.check replayWindowSize
      (worker.replayWindows.lookup (senderId, wire.kid)) wire.ctr = some window) :
    worker.decryptWire primitives senderId wire =
      match (getDecryptionKey primitives matchingEntry wire.ctr).1 with
      | none => (none, worker.derived primitives senderId wire matchingEntry window)
      | some messageKey =>
        match openFrame primitives senderId wire matchingEntry.baseSalt messageKey with
        | some plaintext => (some (wire.codecHeader ++ plaintext),
            worker.derived primitives senderId wire matchingEntry window)
        | none => decryptFallback primitives
            (worker.derived primitives senderId wire matchingEntry window) senderId wire
            ((worker.entriesOf senderId).filter
              (fun entry => entry.keyId != matchingEntry.keyId)).reverse := by
  unfold decryptWire checkReplay
  simp only [found, accepted]
  rfl

/-- A derived message key moves the matching entry of its sender on and no other entry. -/
theorem entriesOf_derived (worker : Worker Chain Key) (senderId tested : String) (wire : WireFrame)
    (matchingEntry : ChainEntry Chain Key) (window : ReplayWindow) :
    (worker.derived primitives senderId wire matchingEntry window).entriesOf tested =
      if tested = senderId then (worker.entriesOf senderId).map (fun held =>
        if held.keyId = (getDecryptionKey primitives matchingEntry wire.ctr).2.keyId then
          (getDecryptionKey primitives matchingEntry wire.ctr).2 else held)
      else worker.entriesOf tested :=
  entriesOf_replaceEntry _ senderId tested _

/-- A derived message key moves the replay window of its sender and generation and no other. -/
theorem replayWindows_derived (worker : Worker Chain Key) (senderId : String) (wire : WireFrame)
    (matchingEntry : ChainEntry Chain Key) (window : ReplayWindow) (tested : String × Nat) :
    (worker.derived primitives senderId wire matchingEntry window).replayWindows.lookup tested =
      if tested = (senderId, wire.kid) then some window else worker.replayWindows.lookup tested :=
  Table.lookup_insert_eq _ tested _ worker.replayWindows

/-- The worker after a skipped key of an entry opened a frame. -/
def usedSkipped (worker : Worker Chain Key) (senderId : String) (wire : WireFrame)
    (entry : ChainEntry Chain Key) : Worker Chain Key :=
  { worker.replaceEntry senderId
      { entry with skippedKeys := entry.skippedKeys.erase wire.ctr } with
    replayWindows :=
      (checkReplay worker.replayWindows senderId (entry.keyId % 256) wire.ctr).2 }

/-- A used skipped key is taken out of its entry, and no other entry changes. -/
theorem entriesOf_usedSkipped (worker : Worker Chain Key) (senderId tested : String)
    (wire : WireFrame) (entry : ChainEntry Chain Key) :
    (worker.usedSkipped senderId wire entry).entriesOf tested =
      if tested = senderId then (worker.entriesOf senderId).map (fun held =>
        if held.keyId = entry.keyId then
          { entry with skippedKeys := entry.skippedKeys.erase wire.ctr } else held)
      else worker.entriesOf tested :=
  entriesOf_replaceEntry worker senderId tested _

/-- The fallback drops the frame, or opens it with a skipped key of an entry. -/
inductive FallbackOutcome (primitives : Primitives Raw Chain Key) (worker : Worker Chain Key)
    (senderId : String) (wire : WireFrame) (tried : List (ChainEntry Chain Key)) :
    Option (List UInt8) × Worker Chain Key → Prop where
  | dropped : FallbackOutcome primitives worker senderId wire tried
      (none, worker.notifyNotReady .decrypt senderId)
  | opened (entry : ChainEntry Chain Key) (cached : Key) (plaintext : List UInt8)
      (member : entry ∈ tried) (below : wire.ctr < entry.nextCtr)
      (kept : entry.skippedKeys.lookup wire.ctr = some cached)
      (opens : openFrame primitives senderId wire entry.baseSalt cached = some plaintext) :
      FallbackOutcome primitives worker senderId wire tried
        (some (wire.codecHeader ++ plaintext), worker.usedSkipped senderId wire entry)

/-- The fallback has one of its two outcomes. The induction is on the entries
still to be tried. -/
theorem decryptFallback_outcome (primitives : Primitives Raw Chain Key) (worker : Worker Chain Key)
    (senderId : String) (wire : WireFrame) (tried : List (ChainEntry Chain Key)) :
    FallbackOutcome primitives worker senderId wire tried
      (decryptFallback primitives worker senderId wire tried) := by
  induction tried with
  | nil => exact .dropped
  | cons entry rest inductionHypothesis =>
    have later : FallbackOutcome primitives worker senderId wire (entry :: rest)
        (decryptFallback primitives worker senderId wire rest) := by
      generalize decryptFallback primitives worker senderId wire rest = result at inductionHypothesis
      cases inductionHypothesis with
      | dropped => exact .dropped
      | opened found cached plaintext member below kept opens =>
        exact .opened found cached plaintext (List.mem_cons_of_mem entry member) below kept opens
    simp only [decryptFallback]
    split
    · next below =>
      cases kept : entry.skippedKeys.lookup wire.ctr with
      | none => exact later
      | some cached =>
        cases opens : openFrame primitives senderId wire entry.baseSalt cached with
        | none => simpa only [opens] using later
        | some plaintext =>
          simp only [opens]
          exact .opened entry cached plaintext List.mem_cons_self below kept opens
    · exact later

/-- What becomes of a received frame. -/
inductive DecryptOutcome (primitives : Primitives Raw Chain Key) (worker : Worker Chain Key)
    (senderId : String) (data : List UInt8) : Option (List UInt8) × Worker Chain Key → Prop where
  /-- The sender has no key. -/
  | keyless (missing : worker.entriesOf senderId = []) :
      DecryptOutcome primitives worker senderId data
        (none, worker.notifyNotReady .decrypt senderId)
  /-- The frame cannot be taken apart. -/
  | malformed (unread : readFrame data = none) :
      DecryptOutcome primitives worker senderId data (none, worker)
  /-- The window refuses the counter. -/
  | refused (wire : WireFrame) (entry : ChainEntry Chain Key) (read : readFrame data = some wire)
      (found : (worker.entriesOf senderId).find? (fun held => held.keyId % 256 == wire.kid) =
        some entry)
      (refuses : Window.check replayWindowSize
        (worker.replayWindows.lookup (senderId, wire.kid)) wire.ctr = none) :
      DecryptOutcome primitives worker senderId data (none, worker)
  /-- The entry gives no key for the counter. -/
  | withheld (wire : WireFrame) (entry : ChainEntry Chain Key) (window : ReplayWindow)
      (read : readFrame data = some wire)
      (found : (worker.entriesOf senderId).find? (fun held => held.keyId % 256 == wire.kid) =
        some entry)
      (accepts : Window.check replayWindowSize
        (worker.replayWindows.lookup (senderId, wire.kid)) wire.ctr = some window)
      (none_given : (getDecryptionKey primitives entry wire.ctr).1 = none) :
      DecryptOutcome primitives worker senderId data
        (none, worker.derived primitives senderId wire entry window)
  /-- The counter's key opens the frame. -/
  | opened (wire : WireFrame) (entry : ChainEntry Chain Key) (window : ReplayWindow)
      (messageKey : Key) (plaintext : List UInt8) (read : readFrame data = some wire)
      (found : (worker.entriesOf senderId).find? (fun held => held.keyId % 256 == wire.kid) =
        some entry)
      (accepts : Window.check replayWindowSize
        (worker.replayWindows.lookup (senderId, wire.kid)) wire.ctr = some window)
      (given : (getDecryptionKey primitives entry wire.ctr).1 = some messageKey)
      (opens : openFrame primitives senderId wire entry.baseSalt messageKey = some plaintext) :
      DecryptOutcome primitives worker senderId data
        (some (wire.codecHeader ++ plaintext), worker.derived primitives senderId wire entry window)
  /-- The counter's key does not open the frame, and the other entries are tried. -/
  | fellBack (wire : WireFrame) (entry : ChainEntry Chain Key) (window : ReplayWindow)
      (messageKey : Key) (result : Option (List UInt8) × Worker Chain Key)
      (read : readFrame data = some wire)
      (found : (worker.entriesOf senderId).find? (fun held => held.keyId % 256 == wire.kid) =
        some entry)
      (accepts : Window.check replayWindowSize
        (worker.replayWindows.lookup (senderId, wire.kid)) wire.ctr = some window)
      (given : (getDecryptionKey primitives entry wire.ctr).1 = some messageKey)
      (sealed : openFrame primitives senderId wire entry.baseSalt messageKey = none)
      (fallback : FallbackOutcome primitives
        (worker.derived primitives senderId wire entry window) senderId wire
        ((worker.entriesOf senderId).filter (fun held => held.keyId != entry.keyId)).reverse result) :
      DecryptOutcome primitives worker senderId data result
  /-- No entry has the key identifier, and all of them are tried. -/
  | unmatched (wire : WireFrame) (result : Option (List UInt8) × Worker Chain Key)
      (read : readFrame data = some wire)
      (missing : (worker.entriesOf senderId).find? (fun held => held.keyId % 256 == wire.kid) = none)
      (fallback : FallbackOutcome primitives worker senderId wire
        (worker.entriesOf senderId).reverse result) :
      DecryptOutcome primitives worker senderId data result

/-- A received frame has one of these outcomes. -/
theorem decryptFrame_outcome (primitives : Primitives Raw Chain Key) (worker : Worker Chain Key)
    (senderId : String) (data : List UInt8) :
    DecryptOutcome primitives worker senderId data
      (worker.decryptFrame primitives senderId data) := by
  unfold decryptFrame
  split
  · next missing => exact .keyless (List.isEmpty_iff.mp missing)
  · cases read : readFrame data with
    | none => exact .malformed read
    | some wire =>
      dsimp only
      cases found : (worker.entriesOf senderId).find? (fun held => held.keyId % 256 == wire.kid) with
      | none =>
        unfold decryptWire
        simp only [found]
        exact .unmatched wire _ read found (decryptFallback_outcome ..)
      | some entry =>
        cases accepts : Window.check replayWindowSize
            (worker.replayWindows.lookup (senderId, wire.kid)) wire.ctr with
        | none =>
          rw [decryptWire_refused found accepts]
          exact .refused wire entry read found accepts
        | some window =>
          rw [decryptWire_accepted found accepts]
          cases given : (getDecryptionKey primitives entry wire.ctr).1 with
          | none => exact .withheld wire entry window read found accepts given
          | some messageKey =>
            dsimp only
            cases opens : openFrame primitives senderId wire entry.baseSalt messageKey with
            | none =>
              exact .fellBack wire entry window messageKey _ read found accepts given opens
                (decryptFallback_outcome ..)
            | some plaintext =>
              exact .opened wire entry window messageKey plaintext read found accepts given opens

/-- A frame of another sender leaves this sender's entries and windows alone. -/
theorem decryptFrame_frame {other : String} (apart : senderId ≠ other) (data : List UInt8) :
    (worker.decryptFrame primitives other data).2.entriesOf senderId = worker.entriesOf senderId ∧
      ∀ kid, (worker.decryptFrame primitives other data).2.replayWindows.lookup (senderId, kid) =
        worker.replayWindows.lookup (senderId, kid) := by
  have elsewhere : ∀ kid identifier : Nat, (senderId, kid) ≠ (other, identifier) := by
    intro kid identifier same
    exact apart (congrArg Prod.fst same)
  have derive : ∀ (wire : WireFrame) (entry : ChainEntry Chain Key) (window : ReplayWindow),
      (worker.derived primitives other wire entry window).entriesOf senderId =
          worker.entriesOf senderId ∧
        ∀ kid, (worker.derived primitives other wire entry window).replayWindows.lookup (senderId, kid) =
          worker.replayWindows.lookup (senderId, kid) := by
    intro wire entry window
    refine ⟨by rw [entriesOf_derived, if_neg apart], ?_⟩
    intro kid
    rw [replayWindows_derived, if_neg (elsewhere kid wire.kid)]
  have fall : ∀ (start : Worker Chain Key) (wire : WireFrame) (tried : List (ChainEntry Chain Key))
      (result : Option (List UInt8) × Worker Chain Key),
      FallbackOutcome primitives start other wire tried result →
      result.2.entriesOf senderId = start.entriesOf senderId ∧
        ∀ kid, result.2.replayWindows.lookup (senderId, kid) =
          start.replayWindows.lookup (senderId, kid) := by
    intro start wire tried result outcome
    cases outcome with
    | dropped => exact ⟨by simp, by simp⟩
    | opened entry cached plaintext member below kept opens =>
      refine ⟨by rw [entriesOf_usedSkipped, if_neg apart], ?_⟩
      intro kid
      show (checkReplay start.replayWindows other (entry.keyId % 256) wire.ctr).2.lookup
        (senderId, kid) = _
      rw [checkReplay_lookup, if_neg (elsewhere kid (entry.keyId % 256))]
  have outcome := worker.decryptFrame_outcome primitives other data
  generalize worker.decryptFrame primitives other data = result at outcome
  cases outcome with
  | keyless missing => exact ⟨by simp, by simp⟩
  | malformed unread => exact ⟨rfl, fun _ => rfl⟩
  | refused wire entry read found refuses => exact ⟨rfl, fun _ => rfl⟩
  | withheld wire entry window read found accepts none_given => exact derive wire entry window
  | opened wire entry window messageKey plaintext read found accepts given opens =>
    exact derive wire entry window
  | fellBack wire entry window messageKey result read found accepts given sealed fallback =>
    obtain ⟨entries, windows⟩ := fall _ wire _ result fallback
    obtain ⟨derivedEntries, derivedWindows⟩ := derive wire entry window
    exact ⟨entries.trans derivedEntries, fun kid => (windows kid).trans (derivedWindows kid)⟩
  | unmatched wire result read missing fallback => exact fall worker wire _ result fallback

end Decryption

end Worker

end Seameet.E2ee

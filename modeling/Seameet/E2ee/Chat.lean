import Seameet.Library.Runs
import Seameet.E2ee.Session

/-!
# Encrypted chat

A chat message is encrypted under the sender key of the moment and carries the key's
identifier. The server passes it to everyone in the room, its sender included, and
keeps it for those who come later.

A frame is decrypted under the installed key that its identifier names. A chat message
is decrypted under the one key the receiver has of the sender at that moment, whatever
its identifier, so a key that has taken the place of another locks the messages of the
other.
-/

namespace Seameet.E2ee

open Library

/-- What the browser's AES-GCM computes on chat messages: key, nonce and data. -/
structure ChatCipher (Raw : Type) where
  encrypt : Raw → List UInt8 → List UInt8 → List UInt8
  decrypt : Raw → List UInt8 → List UInt8 → Option (List UInt8)

/-- Ideal authenticated encryption: a ciphertext opens to a plaintext exactly when it
is that plaintext's encryption, and the encryptions of two keys differ. -/
structure ChatCipher.Ideal {Raw : Type} (cipher : ChatCipher Raw) : Prop where
  opens : ∀ key iv ciphertext plaintext,
    cipher.decrypt key iv ciphertext = some plaintext ↔
      ciphertext = cipher.encrypt key iv plaintext
  binds : ∀ key other iv plaintext otherText,
    cipher.encrypt key iv plaintext = cipher.encrypt other iv otherText → key = other

/-- The byte order mark, which a text decoder removes from the front of a text. -/
def byteOrderMark : Char := '\uFEFF'

/-- What the chat panel sends: trimmed text, which no byte order mark begins. -/
structure ChatContent where
  text : String
  trimmed : text.toList.head? ≠ some byteOrderMark

/-- The nonce of a chat message. -/
abbrev ChatNonce := { iv : List UInt8 // iv.length = 12 }

/-- The bytes of a text, as a `TextEncoder` has them. -/
def textEncode (text : String) : List UInt8 := text.toUTF8.data.toList

/-- The text of some bytes; none where they are not well-formed. -/
def textDecode (bytes : List UInt8) : Option String :=
  (String.fromUTF8? ⟨bytes.toArray⟩).map (fun text =>
    if text.toList.head? = some byteOrderMark then String.ofList text.toList.tail else text)

/-- A chat message; its content is given as the bytes that its base64 text stands for. -/
structure ChatMessage where
  sender : String
  content : List UInt8
  keyId : Nat

/-- A chat message that the server has, with what it was made from. -/
structure Posted (Raw : Type) where
  message : ChatMessage
  rawKey : Raw
  content : ChatContent

/-- A chat message that has arrived: the keys of its sender that the receiver was given
before, none standing for a removal, and what the receiver read. -/
structure Decryption (Raw : Type) where
  receiver : String
  posted : Posted Raw
  given : List (Option Raw)
  result : Option String

namespace Session

variable {Raw Chain Key : Type}

/-- The key that a chat message of this sender is decrypted under. -/
def chatKey (session : Session Raw Chain Key) (participantId sender : String) : Option Raw :=
  -- One's own messages come back as an echo.
  if sender = participantId then session.senderKeyRaw
  else (session.peerSenderKeys.lookup sender).map Prod.fst

/-- The message that an encryption under this key ends with. The key identifier is
read only now. -/
def encryptChat (cipher : ChatCipher Raw) (session : Session Raw Chain Key) (participantId : String)
    (content : ChatContent) (rawKey : Raw) (iv : ChatNonce) : ChatMessage :=
  let ciphertext := cipher.encrypt rawKey iv (textEncode content.text)
  let packed := iv.1 ++ ciphertext
  { sender := participantId, content := packed, keyId := session.localKeyId }

/-- The content of a chat message, when the key opens it. The key identifier appears in
the log only. -/
def decryptChat (cipher : ChatCipher Raw) (session : Session Raw Chain Key)
    (participantId sender : String) (ciphertext : List UInt8) (_keyId : Nat) : Option String :=
  match session.chatKey participantId sender with
  | none => none
  | some rawKey =>
    let iv := ciphertext.take 12
    let data := ciphertext.drop 12
    (cipher.decrypt rawKey iv data).bind textDecode

end Session

/-- The key of a peer that an event gives, or takes away. -/
def SessionEvent.gives {Raw : Type} (own : String) :
    SessionEvent Raw → Option (String × Option Raw)
  | .genKeys rawKey => some (own, some rawKey)
  | .ratchetEnds _ rawKey => some (own, some rawKey)
  | .processSenderKey peerId rawKey _ => some (peerId, some rawKey)
  | .peerLeft peerId => some (peerId, none)
  | _ => none

/-- The sessions of a room, the chat messages being encrypted with the key each has
read, and those the server has. The last two fields are records for the statements:
what each participant was given of each, and what was decrypted. -/
structure Chatroom (Raw Chain Key : Type) where
  session : String → Session Raw Chain Key
  encrypting : String → List (ChatContent × Raw)
  history : List (Posted Raw)
  given : String → String → List (Option Raw)
  decryptions : List (Decryption Raw)

/-- Something that happens in the room. A position names one of the messages being
encrypted, or one of those the server has. -/
inductive ChatEvent (Raw : Type) where
  /-- Keys are generated, ratcheted, delivered or removed. -/
  | session (participantId : String) (event : SessionEvent Raw)
  /-- A participant sends a chat message; its key is read. -/
  | sends (participantId : String) (content : ChatContent)
  /-- The encryption of a message is done, and the server has it. -/
  | posts (participantId : String) (position : Nat) (iv : ChatNonce)
  /-- A message arrives, as it was relayed or from the history. -/
  | delivers (receiver : String) (position : Nat)

namespace Chatroom

variable {Raw Chain Key : Type}

/-- A room before the first key. -/
def mounted : Chatroom Raw Chain Key :=
  { session := fun _ => .mounted, encrypting := fun _ => [], history := [], given := fun _ _ => [],
    decryptions := [] }

/-- Record what an event gives. -/
def record (room : Chatroom Raw Chain Key) (own : String) :
    Option (String × Option Raw) → String → String → List (Option Raw)
  | none => room.given
  | some (peerId, rawKey) => fun holder sender =>
    if holder = own ∧ sender = peerId then room.given holder sender ++ [rawKey]
    else room.given holder sender

/-- One event. Without a key nothing is sent. -/
def step (primitives : Primitives Raw Chain Key) (cipher : ChatCipher Raw)
    (room : Chatroom Raw Chain Key) : ChatEvent Raw → Option (Chatroom Raw Chain Key)
  | .session participantId event =>
    ((room.session participantId).step primitives participantId event).map (fun session =>
      { room with
        session := Function.update room.session participantId session
        given := room.record participantId (event.gives participantId) })
  | .sends participantId content =>
    (room.session participantId).senderKeyRaw.map (fun rawKey =>
      { room with
        encrypting := Function.update room.encrypting participantId
          (room.encrypting participantId ++ [(content, rawKey)]) })
  | .posts participantId position iv =>
    (room.encrypting participantId)[position]?.map (fun draft =>
      { room with
        encrypting := Function.update room.encrypting participantId
          ((room.encrypting participantId).eraseIdx position)
        history := room.history ++ [{
          message :=
            (room.session participantId).encryptChat cipher participantId draft.1 draft.2 iv
          rawKey := draft.2
          content := draft.1 }] })
  | .delivers receiver position =>
    room.history[position]?.map (fun posted =>
      { room with
        decryptions := room.decryptions ++ [{
          receiver
          posted
          given := room.given receiver posted.message.sender
          result := (room.session receiver).decryptChat cipher receiver posted.message.sender
            posted.message.content posted.message.keyId }] })

end Chatroom

/-- A receiver that was given a message's key reads the message. -/
def Decryption.Reads {Raw : Type} (decryption : Decryption Raw) : Prop :=
  some decryption.posted.rawKey ∈ decryption.given →
    decryption.result = some decryption.posted.content.text

/-- A message that was made as recorded: its nonce, and its content under its key. -/
def Posted.Sealed {Raw : Type} (cipher : ChatCipher Raw) (posted : Posted Raw) : Prop :=
  ∃ iv : ChatNonce, posted.message.content =
    iv.1 ++ cipher.encrypt posted.rawKey iv.1 (textEncode posted.content.text)

/-- What the chat panel sends is decoded to what it was. -/
theorem textDecode_textEncode (content : ChatContent) :
    textDecode (textEncode content.text) = some content.text := by
  have bytes : (⟨(textEncode content.text).toArray⟩ : ByteArray) = content.text.toUTF8 := by
    rw [textEncode, Array.toArray_toList]
  have read : String.fromUTF8? content.text.toUTF8 = some content.text := by
    have valid : content.text.toUTF8.IsValidUTF8 := content.text.isValidUTF8
    rw [String.fromUTF8?, dif_pos valid]
    rfl
  rw [textDecode, bytes, read, Option.map_some, if_neg content.trimmed]

namespace Session

variable {Raw Chain Key : Type} {cipher : ChatCipher Raw} {primitives : Primitives Raw Chain Key}
  {own sender : String} {session after : Session Raw Chain Key}

/-- A message is read exactly under the key it was encrypted under. -/
theorem decryptChat_iff (ideal : cipher.Ideal) {posted : Posted Raw} (made : posted.Sealed cipher)
    (keyId : Nat) :
    session.decryptChat cipher own sender posted.message.content keyId =
        some posted.content.text ↔
      session.chatKey own sender = some posted.rawKey := by
  obtain ⟨iv, packed⟩ := made
  have nonce : posted.message.content.take 12 = iv.1 := by
    rw [packed, List.take_left' iv.2]
  have data : posted.message.content.drop 12 =
      cipher.encrypt posted.rawKey iv.1 (textEncode posted.content.text) := by
    rw [packed, List.drop_left' iv.2]
  unfold decryptChat
  cases held : session.chatKey own sender with
  | none => simp
  | some rawKey =>
    dsimp only
    rw [nonce, data, Option.some.injEq]
    constructor
    · intro read
      obtain ⟨plaintext, opened, _⟩ := Option.bind_eq_some_iff.mp read
      exact (ideal.binds _ _ _ _ _ ((ideal.opens _ _ _ _).mp opened)).symm
    · rintro rfl
      rw [(ideal.opens _ _ _ _).mpr rfl, Option.bind_some, textDecode_textEncode]

/-- An event changes the key of the peer it gives a key of, and of no other. -/
theorem chatKey_step {event : SessionEvent Raw}
    (stepped : session.step primitives own event = some after) :
    after.chatKey own sender = (event.gives own).elim (session.chatKey own sender)
      (fun given => if sender = given.1 then given.2 else session.chatKey own sender) := by
  cases event with
  | genKeys rawKey =>
    cases stepped
    by_cases mine : sender = own <;> simp [chatKey, install, SessionEvent.gives, mine]
  | ratchetBegins =>
    obtain ⟨_, _, rfl⟩ := Option.map_eq_some_iff.mp stepped
    rfl
  | ratchetEnds position rawKey =>
    obtain ⟨_, _, rfl⟩ := Option.map_eq_some_iff.mp stepped
    by_cases mine : sender = own <;> simp [chatKey, install, SessionEvent.gives, mine]
  | purgeFires position =>
    obtain ⟨_, _, rfl⟩ := Option.map_eq_some_iff.mp stepped
    rfl
  | handles position =>
    obtain ⟨_, _, rfl⟩ := Option.map_eq_some_iff.mp stepped
    rfl
  | encrypts frame isAudio =>
    cases stepped
    rfl
  | decrypts peerId data =>
    obtain ⟨_, moved⟩ := Option.ite_none_left_eq_some.mp stepped
    cases moved
    rfl
  | processSenderKey peerId rawKey keyId =>
    obtain ⟨other, moved⟩ := Option.ite_none_left_eq_some.mp stepped
    cases moved
    simp only [chatKey, SessionEvent.gives, Option.elim_some, Table.lookup_insert_eq]
    by_cases named : sender = peerId
    · subst named
      simp [other]
    · simp [named]
  | peerLeft peerId =>
    obtain ⟨other, moved⟩ := Option.ite_none_left_eq_some.mp stepped
    cases moved
    simp only [chatKey, SessionEvent.gives, Option.elim_some, Table.lookup_erase_eq]
    by_cases named : sender = peerId
    · subst named
      simp [other]
    · simp [named]
  | recreates =>
    cases stepped
    rfl

end Session

namespace Chatroom

variable {Raw Chain Key : Type}

instance [DecidableEq Raw] (decryption : Decryption Raw) : Decidable decryption.Reads :=
  inferInstanceAs (Decidable (_ → _))

/-- Every message that has arrived was read by those who were given its key. -/
def Survives (room : Chatroom Raw Chain Key) : Prop :=
  ∀ decryption ∈ room.decryptions, decryption.Reads

/-- A message arrives while its key, if the receiver was given it, is the last one the
receiver was given of the sender. -/
def Unreplaced (room : Chatroom Raw Chain Key) : ChatEvent Raw → Prop
  | .delivers receiver position => ∀ posted ∈ room.history[position]?,
      some posted.rawKey ∈ room.given receiver posted.message.sender →
        (room.given receiver posted.message.sender).getLast? = some (some posted.rawKey)
  | _ => True

instance [DecidableEq Raw] (room : Chatroom Raw Chain Key) : Decidable room.Survives :=
  inferInstanceAs (Decidable (∀ decryption ∈ room.decryptions, decryption.Reads))

instance [DecidableEq Raw] :
    DecidableRel (Unreplaced : Chatroom Raw Chain Key → ChatEvent Raw → Prop) := by
  intro room event
  cases event <;> unfold Unreplaced <;> infer_instance

/-- Everyone holds the last key it was given of each, and what the server has was
made as recorded. -/
structure Recorded (cipher : ChatCipher Raw) (room : Chatroom Raw Chain Key) : Prop where
  held : ∀ holder sender, (room.session holder).chatKey holder sender =
    (room.given holder sender).getLast?.join
  made : ∀ posted ∈ room.history, posted.Sealed cipher

variable {primitives : Primitives Raw Chain Key} {cipher : ChatCipher Raw}
  {room after : Chatroom Raw Chain Key}

/-- Every event keeps the records right. -/
theorem Recorded.step (recorded : room.Recorded cipher) {event : ChatEvent Raw}
    (stepped : room.step primitives cipher event = some after) : after.Recorded cipher := by
  cases event with
  | session participantId event =>
    obtain ⟨session, moved, rfl⟩ := Option.map_eq_some_iff.mp stepped
    refine ⟨fun holder sender => ?_, recorded.made⟩
    have before := recorded.held holder sender
    dsimp only
    by_cases own : holder = participantId
    · subst own
      rw [Function.update_self, Session.chatKey_step moved]
      cases gives : event.gives holder with
      | none => exact before
      | some given =>
        by_cases named : sender = given.1
        · simp [record, named]
        · simpa [record, named] using before
    · rw [Function.update_of_ne own]
      cases gives : event.gives participantId with
      | none => exact before
      | some given => simpa [record, own] using before
  | sends participantId content =>
    obtain ⟨_, _, rfl⟩ := Option.map_eq_some_iff.mp stepped
    exact ⟨recorded.held, recorded.made⟩
  | posts participantId position iv =>
    obtain ⟨draft, _, rfl⟩ := Option.map_eq_some_iff.mp stepped
    refine ⟨recorded.held, fun posted member => ?_⟩
    rcases List.mem_append.mp member with old | new
    · exact recorded.made posted old
    · obtain rfl := List.mem_singleton.mp new
      exact ⟨iv, rfl⟩
  | delivers receiver position =>
    obtain ⟨_, _, rfl⟩ := Option.map_eq_some_iff.mp stepped
    exact ⟨recorded.held, recorded.made⟩

/-- In every state reached the records are right. -/
theorem Recorded.of_reaches {admitted : Chatroom Raw Chain Key → ChatEvent Raw → Prop}
    (reached : Reaches (Chatroom.step primitives cipher) admitted mounted room) :
    room.Recorded cipher := by
  refine reached.invariant (Recorded cipher)
    ⟨fun holder sender => ?_, fun _ listed => by cases listed⟩
    (fun _ _ _ recorded _ stepped => recorded.step stepped)
  simp [mounted, Session.mounted, Session.chatKey]

/-- An arrival reads its message, if its receiver was given the key, exactly while that
key is the last one given. -/
theorem reads_iff (ideal : cipher.Ideal) (recorded : room.Recorded cipher) (receiver : String)
    {posted : Posted Raw} (member : posted ∈ room.history) :
    Decryption.Reads {
      receiver, posted
      given := room.given receiver posted.message.sender
      result := (room.session receiver).decryptChat cipher receiver posted.message.sender
        posted.message.content posted.message.keyId } ↔
    (some posted.rawKey ∈ room.given receiver posted.message.sender →
      (room.given receiver posted.message.sender).getLast? = some (some posted.rawKey)) := by
  refine imp_congr Iff.rfl ?_
  rw [Session.decryptChat_iff ideal (recorded.made posted member), recorded.held,
    Option.join_eq_some_iff]

/-- In every run, the messages that arrive are read by those who were given their keys
exactly as long as no message arrives whose key another one has taken the place of.

A message can be read exactly if the key its sender used is the one its reader holds. Only a
delivery has to be looked at, and the others leave the decryptions alone. -/
theorem chat_survives_iff (ideal : cipher.Ideal) :
    (Reaches (Chatroom.step primitives cipher) (fun before _ => before.Survives) mounted room ∧
      room.Survives) ↔ Reaches (Chatroom.step primitives cipher) Unreplaced mounted room := by
  apply Reaches.within_iff Survives (fun _ listed => by cases listed)
  intro before event later reached survives stepped
  have recorded := Recorded.of_reaches reached
  cases event with
  | session participantId event =>
    obtain ⟨_, _, rfl⟩ := Option.map_eq_some_iff.mp stepped
    exact iff_of_true trivial survives
  | sends participantId content =>
    obtain ⟨_, _, rfl⟩ := Option.map_eq_some_iff.mp stepped
    exact iff_of_true trivial survives
  | posts participantId position iv =>
    obtain ⟨_, _, rfl⟩ := Option.map_eq_some_iff.mp stepped
    exact iff_of_true trivial survives
  | delivers receiver position =>
    obtain ⟨posted, named, rfl⟩ := Option.map_eq_some_iff.mp stepped
    have exact_now := reads_iff ideal recorded receiver (List.mem_of_getElem? named)
    simp only [Unreplaced, named, Option.mem_def, Option.some.injEq, forall_eq']
    rw [← exact_now]
    constructor
    · intro now decryption listed
      rcases List.mem_append.mp listed with old | new
      · exact survives decryption old
      · exact List.mem_singleton.mp new ▸ now
    · intro all
      exact all _ (List.mem_append_right _ List.mem_cons_self)

/-- A cipher whose ciphertexts show their key. -/
def sampleCipher : ChatCipher Nat where
  encrypt key _ plaintext := List.replicate key 1 ++ 0 :: plaintext
  decrypt key _ ciphertext :=
    let plaintext := ciphertext.drop (key + 1)
    if ciphertext = List.replicate key 1 ++ 0 :: plaintext then some plaintext else none

/-- The number of ones in front tells the key. The induction is on the left one. -/
theorem shown_key {key other : Nat} {plaintext otherText : List UInt8}
    (same : List.replicate key 1 ++ 0 :: plaintext = List.replicate other 1 ++ 0 :: otherText) :
    key = other := by
  induction key generalizing other with
  | zero =>
    cases other with
    | zero => rfl
    | succ other => exact absurd (List.cons.inj same).1 (by decide)
  | succ key inductionHypothesis =>
    cases other with
    | zero => exact absurd (List.cons.inj same).1 (by decide)
    | succ other => exact congrArg (· + 1) (inductionHypothesis (List.cons.inj same).2)

/-- The sample cipher is ideal. -/
theorem sampleCipher_ideal : sampleCipher.Ideal := by
  have cut : ∀ (key : Nat) (plaintext : List UInt8),
      (List.replicate key 1 ++ 0 :: plaintext).drop (key + 1) = plaintext := by
    intro key plaintext
    rw [List.append_cons]
    exact List.drop_left' (by simp)
  constructor
  · intro key iv ciphertext plaintext
    dsimp only [sampleCipher]
    rw [Option.ite_none_right_eq_some, Option.some.injEq]
    constructor
    · rintro ⟨whole, rfl⟩
      exact whole
    · rintro rfl
      rw [cut]
      exact ⟨rfl, rfl⟩
  · intro key other iv plaintext otherText same
    exact shown_key same

/-- A nonce. -/
def sampleNonce : ChatNonce := ⟨List.replicate 12 7, rfl⟩

/-- Alice has a key, which Bob is given, and sends a message. -/
def greeting : List (ChatEvent Nat) :=
  [.session "alice" (.genKeys 9), .session "bob" (.processSenderKey "alice" 9 0),
    .sends "alice" ⟨"hello", by decide⟩, .posts "alice" 0 sampleNonce]

/-- Alice ratchets. -/
def rotation : List (ChatEvent Nat) :=
  [.session "alice" .ratchetBegins, .session "alice" (.ratchetEnds 0 11)]

/-- A message that arrives before the next ratchet is read by Bob and by its sender. -/
theorem chat_survives_greeting :
    let room := (walk (Chatroom.step samplePrimitives sampleCipher) Unreplaced mounted
      (greeting ++ [.delivers "alice" 0, .delivers "bob" 0] ++ rotation)).getD mounted
    (Reaches (Chatroom.step samplePrimitives sampleCipher) (fun before _ => before.Survives)
      mounted room ∧ room.Survives) ∧
    room.decryptions.map Decryption.given = [[some 9], [some 9]] := by
  intro room
  refine ⟨(chat_survives_iff sampleCipher_ideal).mpr ?_, by decide +kernel⟩
  exact walk_reaches_end _ _ _ _ (by decide +kernel)

/-- A ratchet locks a message that has not come back yet for its own sender, and for
Bob, who was given its key, as soon as he is given the next. -/
theorem ratcheted_chat_locked :
    let room := (walk (Chatroom.step samplePrimitives sampleCipher) always mounted
      (greeting ++ rotation ++ [.delivers "alice" 0,
        .session "bob" (.processSenderKey "alice" 11 1), .delivers "bob" 0])).getD mounted
    Reaches (Chatroom.step samplePrimitives sampleCipher) always mounted room ∧
      room.decryptions.map Decryption.given = [[some 9, some 11], [some 9, some 11]] ∧
      room.decryptions.map (fun decryption => decryption.posted.rawKey) = [9, 9] ∧
      room.decryptions.map Decryption.result = [none, none] ∧ ¬ room.Survives := by
  intro room
  refine ⟨walk_reaches_end _ _ _ _ (by decide +kernel), by decide +kernel, by decide +kernel,
    by decide +kernel, by decide +kernel⟩

end Chatroom

end Seameet.E2ee

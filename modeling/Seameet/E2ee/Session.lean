import Mathlib.Data.List.Nodup
import Mathlib.Data.List.Perm.Basic
import Seameet.E2ee.Worker

/-!
# One participant's session

The main thread generates sender keys and installs them in the worker by messages;
the worker counts the frames it encrypts. A worker that crashes is replaced by a
fresh one, in which the current sender key is installed again.

A frame's key and nonce come from a chain position and a counter that both live in
the worker, so what a new worker does with an old key depends on whether that key
has encrypted anything yet.
-/

namespace Seameet.E2ee

open Library

/-- The state of one participant. The last two fields are records for the
statements: which sender keys were generated, under which identifier, and which
key and nonce each frame was encrypted under, through every worker. -/
structure Session (Raw Chain Key : Type) where
  senderKeyRaw : Option Raw
  localKeyId : Nat
  peerSenderKeys : Table String (Raw × Nat)
  /-- Ratchets between the choice of their key identifier and their new key. -/
  ratchets : List Nat
  /-- Delayed purges, by the key identifier they keep. -/
  purges : List Nat
  worker : Worker Chain Key
  /-- Messages posted to the present worker that it has not finished handling. -/
  mail : List (WorkerMessage Raw)
  generated : List (Raw × Nat)
  used : List (Key × List UInt8)

/-- Something that happens in the session. A position names one of the pending
ratchets, purges or messages, which may finish in any order. -/
inductive SessionEvent (Raw : Type) where
  /-- The first sender key is generated. -/
  | genKeys (rawKey : Raw)
  /-- A ratchet reads the key identifier. -/
  | ratchetBegins
  /-- A ratchet has its new sender key. -/
  | ratchetEnds (position : Nat) (rawKey : Raw)
  /-- The delay of a purge is over. -/
  | purgeFires (position : Nat)
  /-- The worker finishes handling a message. -/
  | handles (position : Nat)
  /-- The worker encrypts a frame of this participant. -/
  | encrypts (frame : Frame) (isAudio : Bool)
  /-- The worker decrypts a frame of a peer. -/
  | decrypts (peerId : String) (data : List UInt8)
  /-- A peer's sender key has been decrypted. -/
  | processSenderKey (peerId : String) (rawKey : Raw) (keyId : Nat)
  /-- A peer has left. -/
  | peerLeft (peerId : String)
  /-- The worker has crashed and a fresh one takes its place. -/
  | recreates

/-- The sender key that an event generates. -/
def SessionEvent.newKey {Raw : Type} : SessionEvent Raw → Option Raw
  | .genKeys rawKey => some rawKey
  | .ratchetEnds _ rawKey => some rawKey
  | _ => none

namespace Session

variable {Raw Chain Key : Type} (primitives : Primitives Raw Chain Key) (own : String)

/-- A session before its first key. -/
def mounted : Session Raw Chain Key :=
  { senderKeyRaw := none, localKeyId := 0, peerSenderKeys := ∅, ratchets := [], purges := [],
    worker := .fresh, mail := [], generated := [], used := [] }

/-- The messages that install the known keys in a fresh worker. -/
def reinstall (session : Session Raw Chain Key) : List (WorkerMessage Raw) :=
  (session.senderKeyRaw.toList.map (fun rawKey => .setKey own session.localKeyId rawKey))
    ++ session.peerSenderKeys.entries.map (fun entry => .setKey entry.1 entry.2.2 entry.2.1)

/-- Make a generated key the current one and install it in the worker. -/
def install (session : Session Raw Chain Key) (rawKey : Raw) (keyId : Nat) : Session Raw Chain Key :=
  { session with
    senderKeyRaw := some rawKey
    localKeyId := keyId
    mail := session.mail ++ [.setKey own keyId rawKey]
    generated := session.generated ++ [(rawKey, keyId)] }

/-- One event; a position that names nothing, or a peer that is this participant,
refuses it. -/
def step (session : Session Raw Chain Key) : SessionEvent Raw → Option (Session Raw Chain Key)
  | .genKeys rawKey => some (session.install own rawKey 0)
  | .ratchetBegins =>
    session.senderKeyRaw.map
      (fun _ => { session with ratchets := session.ratchets ++ [session.localKeyId + 1] })
  | .ratchetEnds position rawKey =>
    session.ratchets[position]?.map (fun newKeyId =>
      { session.install own rawKey newKeyId with
        ratchets := session.ratchets.eraseIdx position
        purges := session.purges ++ [newKeyId] })
  | .purgeFires position =>
    session.purges[position]?.map (fun keepKeyId =>
      { session with
        purges := session.purges.eraseIdx position
        mail := session.mail ++ [.purgeOldKeys own keepKeyId] })
  | .handles position =>
    session.mail[position]?.map (fun message =>
      { session with
        mail := session.mail.eraseIdx position
        worker := session.worker.receive primitives message })
  | .encrypts frame isAudio =>
    let result := session.worker.encryptFrame primitives frame own isAudio
    some { session with
      worker := result.2
      used := session.used ++ result.1.toList.map (fun sent => (sent.messageKey, sent.iv)) }
  | .decrypts peerId data =>
    if peerId = own then none
    else some { session with worker := (session.worker.decryptFrame primitives peerId data).2 }
  | .processSenderKey peerId rawKey keyId =>
    if peerId = own then none
    else some { session with
      peerSenderKeys := session.peerSenderKeys.insert peerId (rawKey, keyId)
      mail := session.mail ++ [.setKey peerId keyId rawKey] }
  | .peerLeft peerId =>
    if peerId = own then none
    else some { session with
      peerSenderKeys := session.peerSenderKeys.erase peerId
      mail := session.mail ++ [.removeKeys peerId] }
  | .recreates => some { session with worker := .fresh, mail := session.reinstall own }

/-- The sender key has encrypted no frame: no frame was encrypted under one of its
message keys. -/
def Unspent (session : Session Raw Chain Key) (rawKey : Raw) (keyId : Nat) : Prop :=
  ∀ pair ∈ session.used, ∀ ctr, pair.1 ≠ messageKeyAt primitives rawKey keyId ctr

/-- Generated keys are new. -/
def Fresh (session : Session Raw Chain Key) (event : SessionEvent Raw) : Prop :=
  ∀ rawKey, event.newKey = some rawKey → ∀ known ∈ session.generated, known.1 ≠ rawKey

/-- A worker is replaced only while the current key has encrypted no frame. -/
def ReplacedUnspent (session : Session Raw Chain Key) : SessionEvent Raw → Prop
  | .recreates => ∀ rawKey, session.senderKeyRaw = some rawKey →
      session.Unspent primitives rawKey session.localKeyId
  | _ => True

/-- What a session asks of an event: its generated keys are new, and a worker is
replaced before the current key is used. -/
def Careful (session : Session Raw Chain Key) (event : SessionEvent Raw) : Prop :=
  session.Fresh event ∧ session.ReplacedUnspent primitives event

/-- The sender keys of this participant among posted messages. -/
def ownKeys (mail : List (WorkerMessage Raw)) : List (Raw × Nat) :=
  mail.filterMap (fun message =>
    match message with
    | .setKey participantId keyId rawKey => if participantId = own then some (rawKey, keyId) else none
    | _ => none)

/-- An entry that belongs to a generated key which is not on its way any more, and
which has encrypted frames behind the entry's next counter only. -/
structure Placed (session : Session Raw Chain Key) (rawKey : Raw) (entry : ChainEntry Chain Key) :
    Prop where
  belongs : entry.Belongs primitives rawKey
  known : (rawKey, entry.keyId) ∈ session.generated
  arrived : (rawKey, entry.keyId) ∉ ownKeys own session.mail
  behind : ∀ pair ∈ session.used, ∀ ctr, 1 ≤ ctr →
    pair.1 = messageKeyAt primitives rawKey entry.keyId ctr → ctr < entry.nextCtr

/-- What every careful run keeps. A key on its way is there once and unspent, every
installed entry is placed, and no message key was used twice. -/
structure Secure (session : Session Raw Chain Key) : Prop where
  current : ∀ rawKey, session.senderKeyRaw = some rawKey →
    (rawKey, session.localKeyId) ∈ session.generated
  once : (ownKeys own session.mail).Nodup
  posted : ∀ known ∈ ownKeys own session.mail,
    known ∈ session.generated ∧ session.Unspent primitives known.1 known.2
  installed : ∀ entry ∈ session.worker.entriesOf own, ∃ rawKey, session.Placed primitives own rawKey entry
  traced : ∀ pair ∈ session.used, ∃ known ∈ session.generated, ∃ ctr,
    pair.1 = messageKeyAt primitives known.1 known.2 ctr
  unrepeated : (session.used.map Prod.fst).Nodup
  others : session.peerSenderKeys.lookup own = none

end Session

/-- Injective derivations. The three derivations of a chain differ in their info
strings, which keeps the start of a chain apart from its later keys. -/
structure Primitives.Injective {Raw Chain Key : Type} (primitives : Primitives Raw Chain Key) :
    Prop where
  chain : ∀ {rawKey other : Raw} {keyId otherId : Nat},
    primitives.deriveChain rawKey keyId = primitives.deriveChain other otherId →
      rawKey = other ∧ keyId = otherId
  message : Function.Injective primitives.deriveMessage
  next : Function.Injective primitives.deriveNext
  apart : ∀ (rawKey : Raw) (keyId : Nat) (chain : Chain),
    primitives.deriveNext chain ≠ primitives.deriveChain rawKey keyId

section Injective

variable {Raw Chain Key : Type} {primitives : Primitives Raw Chain Key}

/-- A chain key tells the sender key, the key identifier and the position. The
induction is on the position of the left one. -/
theorem chainAt_injective (injective : primitives.Injective) {rawKey other : Raw}
    {keyId otherId position otherPosition : Nat}
    (same : chainAt primitives rawKey keyId position = chainAt primitives other otherId otherPosition) :
    (rawKey = other ∧ keyId = otherId) ∧ position = otherPosition := by
  induction position generalizing otherPosition with
  | zero =>
    cases otherPosition with
    | zero => exact ⟨injective.chain same, rfl⟩
    | succ otherPosition => exact absurd same.symm (injective.apart _ _ _)
  | succ position inductionHypothesis =>
    cases otherPosition with
    | zero => exact absurd same (injective.apart _ _ _)
    | succ otherPosition =>
      obtain ⟨source, steps⟩ := inductionHypothesis (injective.next same)
      exact ⟨source, by omega⟩

/-- A message key tells the sender key, the key identifier and the counter. -/
theorem messageKeyAt_injective (injective : primitives.Injective) {rawKey other : Raw}
    {keyId otherId ctr otherCtr : Nat}
    (same : messageKeyAt primitives rawKey keyId ctr = messageKeyAt primitives other otherId otherCtr) :
    (rawKey = other ∧ keyId = otherId) ∧ ctr - 1 = otherCtr - 1 :=
  chainAt_injective injective (injective.message same)

/-- The sample derivations are injective. -/
theorem samplePrimitives_injective : samplePrimitives.Injective := by
  constructor
  · intro rawKey other keyId otherId same
    have parts : (rawKey, keyId, 0) = (other, otherId, 0) := same
    simp only [Prod.mk.injEq] at parts
    exact ⟨parts.1, parts.2.1⟩
  · exact fun _ _ same => same
  · intro chain other same
    have parts : (chain.1, chain.2.1, chain.2.2 + 1) = (other.1, other.2.1, other.2.2 + 1) := same
    simp only [Prod.mk.injEq, Nat.add_right_cancel_iff] at parts
    exact Prod.ext parts.1 (Prod.ext parts.2.1 parts.2.2)
  · intro rawKey keyId chain same
    have parts : (chain.1, chain.2.1, chain.2.2 + 1) = (rawKey, keyId, 0) := same
    simp only [Prod.mk.injEq] at parts
    omega

end Injective

namespace Session

variable {Raw Chain Key : Type} {primitives : Primitives Raw Chain Key} {own : String}
  {session : Session Raw Chain Key}

/-- The own keys of two stretches of mail are those of the first and then of the second. -/
theorem ownKeys_append (mail later : List (WorkerMessage Raw)) :
    ownKeys own (mail ++ later) = ownKeys own mail ++ ownKeys own later :=
  List.filterMap_append

/-- A fresh key has encrypted nothing. -/
theorem unspent_of_fresh (injective : primitives.Injective) (secure : session.Secure primitives own)
    {rawKey : Raw} (fresh : ∀ known ∈ session.generated, known.1 ≠ rawKey) (keyId : Nat) :
    session.Unspent primitives rawKey keyId := by
  intro pair used ctr same
  obtain ⟨known, generated, other, traced⟩ := secure.traced pair used
  obtain ⟨⟨sameKey, _⟩, _⟩ := messageKeyAt_injective injective (traced.symm.trans same)
  exact fresh known generated sameKey

/-- A session that has posted no further key of its own and whose worker has gained
no entry is secure when it was. -/
theorem Secure.narrow {after : Session Raw Chain Key} (secure : session.Secure primitives own)
    (senderKeyRaw : after.senderKeyRaw = session.senderKeyRaw)
    (localKeyId : after.localKeyId = session.localKeyId)
    (generated : after.generated = session.generated) (used : after.used = session.used)
    (others : after.peerSenderKeys.lookup own = none)
    (mail : (ownKeys own after.mail).Sublist (ownKeys own session.mail))
    (entries : ∀ entry ∈ after.worker.entriesOf own, entry ∈ session.worker.entriesOf own) :
    after.Secure primitives own := by
  constructor
  · rw [senderKeyRaw, localKeyId, generated]
    exact secure.current
  · exact secure.once.sublist mail
  · intro known member
    obtain ⟨old, unspent⟩ := secure.posted known (mail.subset member)
    unfold Unspent
    rw [generated, used]
    exact ⟨old, unspent⟩
  · intro entry member
    obtain ⟨rawKey, placed⟩ := secure.installed entry (entries entry member)
    refine ⟨rawKey, placed.belongs, ?_, fun waiting => placed.arrived (mail.subset waiting), ?_⟩
    · rw [generated]
      exact placed.known
    · rw [used]
      exact placed.behind
  · rw [generated, used]
    exact secure.traced
  · rw [used]
    exact secure.unrepeated
  · exact others

/-- Installing a fresh key keeps a session secure. -/
theorem Secure.install (injective : primitives.Injective) (secure : session.Secure primitives own)
    {rawKey : Raw} (fresh : ∀ known ∈ session.generated, known.1 ≠ rawKey) (keyId : Nat) :
    (session.install own rawKey keyId).Secure primitives own := by
  have keys : ownKeys own (session.install own rawKey keyId).mail =
      ownKeys own session.mail ++ [(rawKey, keyId)] := by
    show ownKeys own (session.mail ++ [.setKey own keyId rawKey]) = _
    rw [ownKeys_append]
    simp [ownKeys]
  have absent : (rawKey, keyId) ∉ session.generated := fun member => fresh _ member rfl
  constructor
  · intro current same
    obtain rfl : rawKey = current := Option.some.inj same
    exact List.mem_append_right _ List.mem_cons_self
  · rw [keys]
    apply List.Nodup.append secure.once (List.nodup_singleton _)
    intro known old new
    obtain rfl := List.mem_singleton.mp new
    exact absent (secure.posted _ old).1
  · intro known member
    rw [keys] at member
    rcases List.mem_append.mp member with old | new
    · obtain ⟨before, unspent⟩ := secure.posted known old
      exact ⟨List.mem_append_left _ before, unspent⟩
    · obtain rfl := List.mem_singleton.mp new
      exact ⟨List.mem_append_right _ List.mem_cons_self, unspent_of_fresh injective secure fresh keyId⟩
  · intro entry member
    obtain ⟨held, placed⟩ := secure.installed entry member
    refine ⟨held, placed.belongs, List.mem_append_left _ placed.known, ?_, placed.behind⟩
    rw [keys]
    intro waiting
    rcases List.mem_append.mp waiting with old | new
    · exact placed.arrived old
    · exact absent (List.mem_singleton.mp new ▸ placed.known)
  · intro pair used
    obtain ⟨known, before, traced⟩ := secure.traced pair used
    exact ⟨known, List.mem_append_left _ before, traced⟩
  · exact secure.unrepeated
  · exact secure.others

/-- The keys in the mail are the handled message's and those of the rest. -/
theorem ownKeys_perm {position : Nat} {message : WorkerMessage Raw}
    (named : session.mail[position]? = some message) :
    (ownKeys own session.mail).Perm (ownKeys own (message :: session.mail.eraseIdx position)) := by
  obtain ⟨inside, rfl⟩ := List.getElem?_eq_some_iff.mp named
  exact (List.getElem_cons_eraseIdx_perm inside).symm.filterMap _

/-- Handling a message keeps a session secure. A key of this participant's own
starts its chain, and it has encrypted nothing before; other messages only remove. -/
theorem Secure.handles (secure : session.Secure primitives own) {position : Nat}
    {message : WorkerMessage Raw} (named : session.mail[position]? = some message) :
    ({ session with
        mail := session.mail.eraseIdx position
        worker := session.worker.receive primitives message } : Session Raw Chain Key).Secure
      primitives own := by
  have erased : (ownKeys own (session.mail.eraseIdx position)).Sublist (ownKeys own session.mail) :=
    (List.eraseIdx_sublist session.mail position).filterMap _
  cases message with
  | setKey participantId keyId rawKey =>
    by_cases mine : participantId = own
    · subst mine
      have split : (ownKeys participantId session.mail).Perm (ownKeys participantId
          (.setKey participantId keyId rawKey :: session.mail.eraseIdx position)) := ownKeys_perm named
      have head : ownKeys participantId (.setKey participantId keyId rawKey ::
          session.mail.eraseIdx position) =
            (rawKey, keyId) :: ownKeys participantId (session.mail.eraseIdx position) := by
        simp [ownKeys]
      rw [head] at split
      have apart := List.nodup_cons.mp (split.nodup_iff.mp secure.once)
      have waited : (rawKey, keyId) ∈ ownKeys participantId session.mail :=
        split.mem_iff.mpr List.mem_cons_self
      obtain ⟨known, unspent⟩ := secure.posted _ waited
      constructor
      · exact secure.current
      · exact apart.2
      · exact fun other member => secure.posted other (erased.subset member)
      · intro entry member
        rw [Worker.entriesOf_receive] at member
        dsimp only at member
        rw [if_pos rfl] at member
        rcases List.mem_append.mp member with old | new
        · obtain ⟨held, placed⟩ := secure.installed entry (List.mem_filter.mp old).1
          exact ⟨held, placed.belongs, placed.known,
            fun waiting => placed.arrived (erased.subset waiting), placed.behind⟩
        · obtain rfl := List.mem_singleton.mp new
          refine ⟨rawKey, initChainEntry_belongs primitives rawKey keyId, known, apart.1, ?_⟩
          exact fun pair used ctr _ same => absurd same (unspent pair used ctr)
      · exact secure.traced
      · exact secure.unrepeated
      · exact secure.others
    · refine secure.narrow rfl rfl rfl rfl secure.others erased (fun entry member => ?_)
      rw [Worker.entriesOf_receive] at member
      dsimp only at member
      rwa [if_neg (Ne.symm mine)] at member
  | removeKeys participantId =>
    refine secure.narrow rfl rfl rfl rfl secure.others erased (fun entry member => ?_)
    rw [Worker.entriesOf_receive] at member
    dsimp only at member
    split at member
    · cases member
    · exact member
  | purgeOldKeys participantId keepKeyId =>
    refine secure.narrow rfl rfl rfl rfl secure.others erased (fun entry member => ?_)
    rw [Worker.entriesOf_receive] at member
    dsimp only at member
    split at member
    · next same =>
      rw [same]
      exact (List.mem_filter.mp member).1
    · exact member

/-- The message key of a placed entry's next counter is new, and only keys of that
entry's sender key are behind it. -/
theorem Secure.encrypted (injective : primitives.Injective) (secure : session.Secure primitives own)
    {entry : ChainEntry Chain Key} (member : entry ∈ session.worker.entriesOf own) (iv : List UInt8) :
    ({ session with
        worker := session.worker.advanced primitives own entry
        used := session.used ++ [(primitives.deriveMessage entry.chainKeyRaw, iv)] } :
      Session Raw Chain Key).Secure primitives own := by
  obtain ⟨rawKey, placed⟩ := secure.installed entry member
  have key : primitives.deriveMessage entry.chainKeyRaw =
      messageKeyAt primitives rawKey entry.keyId entry.nextCtr :=
    congrArg Prod.fst (stepChain_eq placed.belongs)
  have started := placed.belongs.started
  rw [key]
  have apart : ∀ pair ∈ session.used,
      pair.1 ≠ messageKeyAt primitives rawKey entry.keyId entry.nextCtr := by
    intro pair used same
    exact Nat.lt_irrefl _ (placed.behind pair used entry.nextCtr started same)
  constructor
  · exact secure.current
  · exact secure.once
  · intro known waiting
    obtain ⟨before, unspent⟩ := secure.posted known waiting
    refine ⟨before, ?_⟩
    intro pair used ctr same
    rcases List.mem_append.mp used with old | new
    · exact unspent pair old ctr same
    · obtain rfl := List.mem_singleton.mp new
      obtain ⟨⟨sameKey, sameId⟩, _⟩ := messageKeyAt_injective injective same
      exact placed.arrived (sameKey ▸ sameId ▸ waiting)
  · intro held present
    dsimp only at present
    rw [Worker.entriesOf_advanced, if_pos rfl] at present
    obtain ⟨old, place, rfl⟩ := List.mem_map.mp present
    split
    · refine ⟨rawKey, getEncryptionKey_belongs placed.belongs, placed.known, placed.arrived, ?_⟩
      intro pair used ctr positive same
      show ctr < entry.nextCtr + 1
      rcases List.mem_append.mp used with earlier | new
      · exact Nat.lt_succ_of_lt (placed.behind pair earlier ctr positive same)
      · obtain rfl := List.mem_singleton.mp new
        obtain ⟨_, steps⟩ := messageKeyAt_injective injective same
        omega
    · next other =>
      obtain ⟨heldKey, heldPlaced⟩ := secure.installed old place
      refine ⟨heldKey, heldPlaced.belongs, heldPlaced.known, heldPlaced.arrived, ?_⟩
      intro pair used ctr positive same
      rcases List.mem_append.mp used with earlier | new
      · exact heldPlaced.behind pair earlier ctr positive same
      · obtain rfl := List.mem_singleton.mp new
        obtain ⟨⟨_, sameId⟩, _⟩ := messageKeyAt_injective injective same
        exact absurd sameId.symm other
  · intro pair used
    rcases List.mem_append.mp used with old | new
    · exact secure.traced pair old
    · obtain rfl := List.mem_singleton.mp new
      exact ⟨_, placed.known, entry.nextCtr, rfl⟩
  · dsimp only
    rw [List.map_append]
    apply List.Nodup.append secure.unrepeated (List.nodup_singleton _)
    intro used old new
    obtain rfl := List.mem_singleton.mp new
    obtain ⟨pair, earlier, same⟩ := List.mem_map.mp old
    exact apart pair earlier same
  · exact secure.others

/-- A frame to encrypt keeps a session secure. -/
theorem Secure.encrypts (injective : primitives.Injective) (secure : session.Secure primitives own)
    (frame : Frame) (isAudio : Bool) :
    ({ session with
        worker := (session.worker.encryptFrame primitives frame own isAudio).2
        used := session.used ++ (session.worker.encryptFrame primitives frame own isAudio).1.toList.map
          (fun sent => (sent.messageKey, sent.iv)) } : Session Raw Chain Key).Secure primitives own := by
  have outcome := Worker.encryptFrame_outcome primitives session.worker frame own isAudio
  generalize session.worker.encryptFrame primitives frame own isAudio = result at outcome
  cases outcome with
  | notReady missing =>
    refine secure.narrow rfl rfl rfl (List.append_nil _) secure.others (List.Sublist.refl _) ?_
    intro entry member
    rwa [Worker.entriesOf_notifyNotReady] at member
  | short under =>
    exact secure.narrow rfl rfl rfl (List.append_nil _) secure.others (List.Sublist.refl _) (fun _ member => member)
  | encrypted entry codecHeader payload aad newest room cut bound =>
    exact secure.encrypted injective (List.mem_of_getLast? newest) _

/-- A fresh worker that is to be given an unspent key is secure. -/
theorem Secure.recreates (secure : session.Secure primitives own)
    (replaced : session.ReplacedUnspent primitives .recreates) :
    ({ session with worker := .fresh, mail := session.reinstall own } :
      Session Raw Chain Key).Secure primitives own := by
  have peers : ownKeys own (session.peerSenderKeys.entries.map
      (fun entry => .setKey entry.1 entry.2.2 entry.2.1)) = [] := by
    apply List.filterMap_eq_nil_iff.mpr
    intro message member
    obtain ⟨entry, place, rfl⟩ := List.mem_map.mp member
    apply if_neg
    intro same
    have present := (Table.mem_entries entry.1 entry.2 session.peerSenderKeys).mp place
    rw [same, secure.others] at present
    cases present
  have keys : ownKeys own (session.reinstall own) =
      session.senderKeyRaw.toList.map (fun rawKey => (rawKey, session.localKeyId)) := by
    rw [reinstall, ownKeys_append, peers, List.append_nil]
    cases session.senderKeyRaw with
    | none => rfl
    | some rawKey => simp [ownKeys]
  constructor
  · exact secure.current
  · dsimp only
    rw [keys]
    cases session.senderKeyRaw with
    | none => exact List.nodup_nil
    | some rawKey => exact List.nodup_singleton _
  · intro known member
    dsimp only at member
    rw [keys] at member
    obtain ⟨rawKey, held, rfl⟩ := List.mem_map.mp member
    have present := Option.mem_toList.mp held
    exact ⟨secure.current rawKey present, replaced rawKey present⟩
  · intro entry member
    cases member
  · exact secure.traced
  · exact secure.unrepeated
  · exact secure.others

/-- A session before its first key is secure. -/
theorem mounted_secure : (mounted : Session Raw Chain Key).Secure primitives own := by
  constructor
  · exact fun _ none => by cases none
  · exact List.nodup_nil
  · exact fun _ member => by cases member
  · exact fun _ member => by cases member
  · exact fun _ member => by cases member
  · exact List.nodup_nil
  · rfl

/-- One careful event keeps a session secure. -/
theorem step_secure (injective : primitives.Injective) (secure : session.Secure primitives own)
    {event : SessionEvent Raw} {after : Session Raw Chain Key}
    (careful : session.Careful primitives event) (stepped : session.step primitives own event = some after) :
    after.Secure primitives own := by
  cases event with
  | genKeys rawKey =>
    obtain rfl := Option.some.inj stepped
    exact secure.install injective (careful.1 rawKey rfl) 0
  | ratchetBegins =>
    obtain ⟨_, _, rfl⟩ := Option.map_eq_some_iff.mp stepped
    exact secure.narrow rfl rfl rfl rfl secure.others (List.Sublist.refl _) (fun _ member => member)
  | ratchetEnds position rawKey =>
    obtain ⟨newKeyId, _, rfl⟩ := Option.map_eq_some_iff.mp stepped
    exact (secure.install injective (careful.1 rawKey rfl) newKeyId).narrow rfl rfl rfl rfl secure.others
      (List.Sublist.refl _) (fun _ member => member)
  | purgeFires position =>
    obtain ⟨keepKeyId, _, rfl⟩ := Option.map_eq_some_iff.mp stepped
    refine secure.narrow rfl rfl rfl rfl secure.others ?_ (fun _ member => member)
    dsimp only
    rw [ownKeys_append]
    simp [ownKeys]
  | handles position =>
    obtain ⟨message, named, rfl⟩ := Option.map_eq_some_iff.mp stepped
    exact secure.handles named
  | encrypts frame isAudio =>
    obtain rfl := Option.some.inj stepped
    exact secure.encrypts injective frame isAudio
  | decrypts peerId data =>
    simp only [step] at stepped
    split at stepped
    · cases stepped
    · next other =>
      obtain rfl := Option.some.inj stepped
      refine secure.narrow rfl rfl rfl rfl secure.others (List.Sublist.refl _) ?_
      intro entry member
      rwa [(Worker.decryptFrame_frame (Ne.symm other) data).1] at member
  | processSenderKey peerId rawKey keyId =>
    simp only [step] at stepped
    split at stepped
    · cases stepped
    · next other =>
      obtain rfl := Option.some.inj stepped
      refine secure.narrow rfl rfl rfl rfl ?_ ?_ (fun _ member => member)
      · dsimp only
        rw [Table.lookup_insert_eq, if_neg (Ne.symm other)]
        exact secure.others
      · dsimp only
        rw [ownKeys_append]
        simp [ownKeys, other]
  | peerLeft peerId =>
    simp only [step] at stepped
    split at stepped
    · cases stepped
    · next other =>
      obtain rfl := Option.some.inj stepped
      refine secure.narrow rfl rfl rfl rfl ?_ ?_ (fun _ member => member)
      · dsimp only
        rw [Table.lookup_erase_eq, if_neg (Ne.symm other)]
        exact secure.others
      · dsimp only
        rw [ownKeys_append]
        simp [ownKeys]
  | recreates =>
    obtain rfl := Option.some.inj stepped
    exact secure.recreates careful.2

/-- No two frames of a session were encrypted under one message key and nonce, as
long as no worker was replaced while the current key was in use: not even the
message key alone occurs twice.

The invariant has each generated key either on its way, and then unspent, or installed once.
The chain of an entry moves on with every frame, and the derivation is injective. -/
theorem nonce_unrepeated (injective : primitives.Injective)
    (reached : Reaches (step primitives own) (Careful primitives) mounted session) :
    session.used.Nodup := by
  have secure : session.Secure primitives own :=
    reached.invariant (fun state => state.Secure primitives own) mounted_secure
      (fun _ _ _ held careful stepped => step_secure injective held careful stepped)
  exact secure.unrepeated.of_map Prod.fst

section Sample

/-- A frame of three bytes. -/
def sampleFrame : Frame := { data := [1, 2, 3], payloadType := none }

/-- The state after some events of the sample participant. -/
def after (events : List (SessionEvent Nat)) : Session Nat SampleKey SampleKey :=
  (walk (step samplePrimitives "alice") always mounted events).getD mounted

/-- The first key is generated, installed and used for one frame. -/
def speaking : List (SessionEvent Nat) := [.genKeys 9, .handles 0, .encrypts sampleFrame true]

/-- A session that generates its keys and speaks is reached wherever the guard lets it. -/
theorem speaking_reached {admitted : Session Nat SampleKey SampleKey → SessionEvent Nat → Prop}
    (generates : admitted mounted (.genKeys 9))
    (free : ∀ session event, event.newKey = none → event ≠ .recreates → admitted session event) :
    Reaches (step samplePrimitives "alice") admitted mounted (after speaking) := by
  have generated : Reaches (step samplePrimitives "alice") admitted mounted (after [.genKeys 9]) :=
    .next .start generates rfl
  have installed : Reaches (step samplePrimitives "alice") admitted mounted
      (after [.genKeys 9, .handles 0]) := .next generated (free _ (.handles 0) rfl nofun) rfl
  exact .next installed (free _ (.encrypts sampleFrame true) rfl nofun) rfl

/-- A fresh worker is given the current key and encrypts a frame. -/
theorem replaced_reached {admitted : Session Nat SampleKey SampleKey → SessionEvent Nat → Prop}
    {events : List (SessionEvent Nat)} {replaced handled ended : Session Nat SampleKey SampleKey}
    (reached : Reaches (step samplePrimitives "alice") admitted mounted (after events))
    (replaces : admitted (after events) .recreates)
    (free : ∀ session event, event.newKey = none → event ≠ .recreates → admitted session event)
    (first : step samplePrimitives "alice" (after events) .recreates = some replaced)
    (second : step samplePrimitives "alice" replaced (.handles 0) = some handled)
    (third : step samplePrimitives "alice" handled (.encrypts sampleFrame true) = some ended) :
    Reaches (step samplePrimitives "alice") admitted mounted ended :=
  ((reached.next replaces first).next (free _ (.handles 0) rfl nofun) second).next
    (free _ (.encrypts sampleFrame true) rfl nofun) third

/-- A worker that crashes after a frame is given the same sender key from its start,
and the next frame is encrypted under the key and the nonce of the first. -/
theorem nonce_repeated : ∃ session : Session Nat SampleKey SampleKey,
    Reaches (step samplePrimitives "alice") Fresh mounted session ∧
      session.generated = [(9, 0)] ∧ ¬ session.used.Nodup := by
  have free : ∀ (session : Session Nat SampleKey SampleKey) (event : SessionEvent Nat),
      event.newKey = none → session.Fresh event := by
    intro session event none rawKey some
    rw [none] at some
    cases some
  have spoke : Reaches (step samplePrimitives "alice") Fresh mounted (after speaking) :=
    speaking_reached (fun _ _ _ member => by cases member) (fun session event none _ => free session event none)
  refine ⟨after (speaking ++ [.recreates, .handles 0, .encrypts sampleFrame true]), ?_,
    by decide +kernel, by decide +kernel⟩
  exact replaced_reached spoke (free _ .recreates rfl) (fun session event none _ => free session event none)
    rfl rfl rfl

/-- A worker that crashes after a ratchet and before the next frame is given the
new key, and the two frames share nothing. -/
theorem nonce_unrepeated_ratchet :
    (after (speaking ++ [.ratchetBegins, .ratchetEnds 0 4, .recreates, .handles 0,
      .encrypts sampleFrame true])).used.Nodup := by
  have free : ∀ (session : Session Nat SampleKey SampleKey) (event : SessionEvent Nat),
      event.newKey = none → event ≠ .recreates → session.Careful samplePrimitives event := by
    intro session event none notRecreates
    constructor
    · intro rawKey some
      rw [none] at some
      cases some
    · cases event with
      | recreates => exact absurd rfl notRecreates
      | _ => trivial
  have spoke : Reaches (step samplePrimitives "alice") (Careful samplePrimitives) mounted (after speaking) :=
    speaking_reached ⟨fun _ _ _ member => (by cases member), trivial⟩ free
  have began : Reaches (step samplePrimitives "alice") (Careful samplePrimitives) mounted
      (after (speaking ++ [.ratchetBegins])) := .next spoke (free _ .ratchetBegins rfl nofun) rfl
  have changes : (after (speaking ++ [.ratchetBegins])).Careful samplePrimitives (.ratchetEnds 0 4) := by
    refine ⟨?_, trivial⟩
    intro rawKey same known member
    obtain rfl : 4 = rawKey := Option.some.inj same
    obtain rfl : known = (9, 0) := List.mem_singleton.mp member
    decide
  have changed : Reaches (step samplePrimitives "alice") (Careful samplePrimitives) mounted
      (after (speaking ++ [.ratchetBegins, .ratchetEnds 0 4])) := .next began changes rfl
  have spent : (after (speaking ++ [.ratchetBegins, .ratchetEnds 0 4])).used.map Prod.fst =
      [messageKeyAt samplePrimitives 9 0 1] := by decide +kernel
  have replaces : (after (speaking ++ [.ratchetBegins, .ratchetEnds 0 4])).Careful samplePrimitives
      .recreates := by
    refine ⟨fun rawKey same => (by cases same), ?_⟩
    intro rawKey same pair member ctr equal
    obtain rfl : 4 = rawKey := Option.some.inj same
    have place : pair.1 ∈ (after (speaking ++ [.ratchetBegins, .ratchetEnds 0 4])).used.map Prod.fst :=
      List.mem_map_of_mem member
    rw [spent, List.mem_singleton] at place
    obtain ⟨⟨raw, _⟩, _⟩ := messageKeyAt_injective samplePrimitives_injective (place.symm.trans equal)
    cases raw
  exact nonce_unrepeated samplePrimitives_injective (replaced_reached changed replaces free rfl rfl rfl)

end Sample

end Session

end Seameet.E2ee

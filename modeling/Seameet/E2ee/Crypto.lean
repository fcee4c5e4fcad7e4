import Mathlib.Data.Nat.Basic
import Seameet.Library.BigEndian
import Seameet.Library.Ordered
import Seameet.Library.Table
import Seameet.Library.Window

/-!
# Frame keys

Each sender key starts a chain: one derivation gives the chain's first key and
another the base of the nonces. A step of the chain gives a message key and the
next chain key. A sender steps once for each frame; a receiver steps up to the
frame's counter, keeping the message keys of the frames it skips.

The browser's cryptography is a parameter. It enters the statements through two
properties of authenticated encryption only, stated where they are used.
-/

namespace Seameet.E2ee

open Library

/-- What the browser's `crypto.subtle` computes. The derivations carry their info
strings in their names; the key identifier is part of the first two. -/
structure Primitives (Raw Chain Key : Type) where
  /-- HKDF with info `seameet-chain-` and the key identifier. -/
  deriveChain : Raw → Nat → Chain
  /-- HKDF with info `seameet-salt-` and the key identifier. -/
  deriveSalt : Raw → Nat → List UInt8
  /-- HKDF with info `msg`. -/
  deriveMessage : Chain → Key
  /-- HKDF with info `chain`. -/
  deriveNext : Chain → Chain
  /-- AES-GCM encryption: key, nonce, additional data, plaintext. -/
  encrypt : Key → List UInt8 → List UInt8 → List UInt8 → List UInt8
  /-- AES-GCM decryption: key, nonce, additional data, ciphertext. -/
  decrypt : Key → List UInt8 → List UInt8 → List UInt8 → Option (List UInt8)

/-- Ideal authenticated encryption with a sixteen-byte tag: a ciphertext opens to
a plaintext exactly when it is that plaintext's encryption under the same key,
nonce and additional data. -/
structure Primitives.Ideal {Raw Chain Key : Type} (primitives : Primitives Raw Chain Key) : Prop where
  opens : ∀ key nonce aad ciphertext plaintext,
    primitives.decrypt key nonce aad ciphertext = some plaintext ↔
      ciphertext = primitives.encrypt key nonce aad plaintext
  tagged : ∀ key nonce aad plaintext,
    (primitives.encrypt key nonce aad plaintext).length = plaintext.length + 16

/-- Header bytes in front of the ciphertext: key identifier and counter. -/
def headerKidLength : Nat := 1

/-- The counter takes four bytes of the header. -/
def headerCtrLength : Nat := 4

/-- The whole header: one byte for the key's identifier, and the counter. -/
def e2eeHeaderLength : Nat := headerKidLength + headerCtrLength

/-- Bytes behind the ciphertext: the length of the clear codec header. -/
def trailerLength : Nat := 1

/-- How many message keys a receiver skips and keeps. -/
def maxSkip : Nat := 256

/-- How many chain steps a receiver catches up with after it installs a key. -/
def maxInitialSkip : Nat := 30000

/-- How many counters a replay window covers. -/
def replayWindowSize : Nat := 128

/-- The counters of one sender and key identifier that have been accepted. -/
abbrev ReplayWindow := Window

/-- The state of one sender key's chain. -/
structure ChainEntry (Chain Key : Type) where
  chainKeyRaw : Chain
  nextCtr : Nat
  baseSalt : List UInt8
  keyId : Nat
  skippedKeys : Ordered Nat Key
  caughtUp : Bool

section Chain

variable {Raw Chain Key : Type} (primitives : Primitives Raw Chain Key)

/-- The entry of a key that was just set: its first chain key, and nothing caught up. -/
def initChainEntry (rawKey : Raw) (keyId : Nat) : ChainEntry Chain Key :=
  { chainKeyRaw := primitives.deriveChain rawKey keyId
    nextCtr := 1
    baseSalt := primitives.deriveSalt rawKey keyId
    keyId
    skippedKeys := .empty
    caughtUp := false }

/-- A step of the chain: a message key, and the next chain key. -/
def stepChain (chainKeyRaw : Chain) : Key × Chain :=
  (primitives.deriveMessage chainKeyRaw, primitives.deriveNext chainKeyRaw)

/-- The next message key of the chain, and the entry behind it. -/
def getEncryptionKey (entry : ChainEntry Chain Key) : Key × ChainEntry Chain Key :=
  let (messageKey, nextChainKeyRaw) := stepChain primitives entry.chainKeyRaw
  (messageKey, { entry with chainKeyRaw := nextChainKeyRaw, nextCtr := entry.nextCtr + 1 })

/-- The catch-up loop: steps of the chain whose message keys are discarded. -/
def catchUp : Nat → ChainEntry Chain Key → ChainEntry Chain Key
  | 0, entry => entry
  | steps + 1, entry =>
    let (_, nextChainKeyRaw) := stepChain primitives entry.chainKeyRaw
    catchUp steps { entry with chainKeyRaw := nextChainKeyRaw, nextCtr := entry.nextCtr + 1 }

/-- The skipping loop: steps of the chain whose message keys are kept. -/
def skipAhead : Nat → ChainEntry Chain Key → ChainEntry Chain Key
  | 0, entry => entry
  | steps + 1, entry =>
    let (messageKey, nextChainKeyRaw) := stepChain primitives entry.chainKeyRaw
    skipAhead steps { entry with
      skippedKeys := entry.skippedKeys.insert entry.nextCtr messageKey
      chainKeyRaw := nextChainKeyRaw
      nextCtr := entry.nextCtr + 1 }

/-- The message key of a received counter, when the entry can still give it. The
loops run while the next counter is below the target. -/
def getDecryptionKey (entry : ChainEntry Chain Key) (targetCtr : Nat) :
    Option Key × ChainEntry Chain Key :=
  match entry.skippedKeys.lookup targetCtr with
  | some cached =>
    (some cached, { entry with skippedKeys := entry.skippedKeys.erase targetCtr, caughtUp := true })
  | none =>
    if targetCtr < entry.nextCtr then (none, entry)
    else
      let skip := targetCtr - entry.nextCtr
      if entry.caughtUp = false then
        if maxInitialSkip < skip then (none, entry)
        else
          let entry := catchUp primitives skip entry
          let (messageKey, nextChainKeyRaw) := stepChain primitives entry.chainKeyRaw
          (some messageKey, { entry with
            chainKeyRaw := nextChainKeyRaw, nextCtr := entry.nextCtr + 1, caughtUp := true })
      else if maxSkip < skip then (none, entry)
      else
        let entry := skipAhead primitives skip entry
        let (messageKey, nextChainKeyRaw) := stepChain primitives entry.chainKeyRaw
        (some messageKey, { entry with
          chainKeyRaw := nextChainKeyRaw
          nextCtr := entry.nextCtr + 1
          skippedKeys := entry.skippedKeys.keepHighest maxSkip })

end Chain

/-- The nonce of a counter: the last four bytes of the base, combined with the
counter bit by bit. -/
def computeNonce (salt : List UInt8) (ctr : Nat) : List UInt8 :=
  salt.take 8 ++ BigEndian.encode 4 (BigEndian.decode ((salt.drop 8).take 4) ^^^ ctr)

/-- Test a counter against the window of a sender and key identifier, and record
it there. -/
def checkReplay (replayWindows : Table (String × Nat) ReplayWindow) (senderId : String) (keyId ctr : Nat) :
    Bool × Table (String × Nat) ReplayWindow :=
  match Window.check replayWindowSize (replayWindows.lookup (senderId, keyId)) ctr with
  | some window => (true, replayWindows.insert (senderId, keyId) window)
  | none => (false, replayWindows)

/-- What the seal authenticates besides the text: the sender and both headers. -/
def buildAAD (senderId : String) (codecHeader e2eeHeader : List UInt8) : List UInt8 :=
  senderId.toUTF8.toList ++ codecHeader ++ e2eeHeader

/-- The clear part of a VP8 frame: ten bytes of a key frame, three of another. -/
def getVP8UnencryptedBytes (data : List UInt8) : Nat :=
  match data with
  | byte0 :: _ :: _ :: _ =>
    let isKeyframe := byte0 &&& 0x01 == 0
    if isKeyframe then 10 else 3
  | _ => 0

/-- The clear part of a VP9 frame. -/
def getVP9UnencryptedBytes (data : List UInt8) : Nat :=
  match data with
  | byte0 :: _ =>
    let profileLowBit := byte0 >>> 1 &&& 1
    if profileLowBit = 0 then 1
    else
      let showExistingFrame := byte0 >>> 3 &&& 1
      if showExistingFrame ≠ 0 then 1 else 3
  | [] => 0

/-- The clear part of a frame, by its payload type. -/
def getUnencryptedBytes (payloadType : Option Nat) (data : List UInt8) (isAudio : Bool) : Nat :=
  if isAudio then 0
  else
    let pt := payloadType.getD 0
    if 100 ≤ pt ∧ pt < 110 then getVP9UnencryptedBytes data else getVP8UnencryptedBytes data

section Derivation

variable {Raw Chain Key : Type} (primitives : Primitives Raw Chain Key)

/-- The chain key of a sender key after this many steps. -/
def chainAt (rawKey : Raw) (keyId : Nat) : Nat → Chain
  | 0 => primitives.deriveChain rawKey keyId
  | steps + 1 => primitives.deriveNext (chainAt rawKey keyId steps)

/-- The message key of a counter. Counters start at one. -/
def messageKeyAt (rawKey : Raw) (keyId ctr : Nat) : Key :=
  primitives.deriveMessage (chainAt primitives rawKey keyId (ctr - 1))

/-- An entry that belongs to a sender key: its chain key stands at its next
counter, and the message keys it has kept are those of earlier counters. -/
structure ChainEntry.Belongs (rawKey : Raw) (entry : ChainEntry Chain Key) : Prop where
  salt : entry.baseSalt = primitives.deriveSalt rawKey entry.keyId
  started : 1 ≤ entry.nextCtr
  chain : entry.chainKeyRaw = chainAt primitives rawKey entry.keyId (entry.nextCtr - 1)
  skipped : ∀ kept ∈ entry.skippedKeys.entries,
    kept.1 < entry.nextCtr ∧ kept.2 = messageKeyAt primitives rawKey entry.keyId kept.1

variable {primitives} {rawKey : Raw} {entry : ChainEntry Chain Key}

/-- A new entry belongs to the key it was made from. -/
theorem initChainEntry_belongs (primitives : Primitives Raw Chain Key) (rawKey : Raw) (keyId : Nat) :
    (initChainEntry primitives rawKey keyId).Belongs primitives rawKey :=
  ⟨rfl, Nat.le_refl 1, rfl, fun _ member => by cases member⟩

/-- A step of an entry's chain gives the message key of its next counter. -/
theorem stepChain_eq (belongs : entry.Belongs primitives rawKey) :
    stepChain primitives entry.chainKeyRaw =
      (messageKeyAt primitives rawKey entry.keyId entry.nextCtr,
        chainAt primitives rawKey entry.keyId entry.nextCtr) := by
  have started := belongs.started
  have next : entry.nextCtr = entry.nextCtr - 1 + 1 := by omega
  have ahead : chainAt primitives rawKey entry.keyId entry.nextCtr =
      primitives.deriveNext (chainAt primitives rawKey entry.keyId (entry.nextCtr - 1)) := by
    rw [next]
    rfl
  rw [stepChain, belongs.chain, ahead]
  rfl

/-- The sender's step leaves an entry that belongs to the same key. -/
theorem getEncryptionKey_belongs (belongs : entry.Belongs primitives rawKey) :
    (getEncryptionKey primitives entry).2.Belongs primitives rawKey := by
  refine ⟨belongs.salt, Nat.le_add_left 1 entry.nextCtr, ?_, ?_⟩
  · exact congrArg Prod.snd (stepChain_eq belongs)
  · intro held member
    obtain ⟨below, same⟩ := belongs.skipped held member
    exact ⟨Nat.lt_succ_of_lt below, same⟩

/-- Catching up moves the chain and the counter together. The induction is on the
number of steps. -/
theorem catchUp_eq (steps : Nat) (belongs : entry.Belongs primitives rawKey) :
    catchUp primitives steps entry = { entry with
      chainKeyRaw := chainAt primitives rawKey entry.keyId (entry.nextCtr + steps - 1)
      nextCtr := entry.nextCtr + steps } := by
  induction steps generalizing entry with
  | zero =>
    rw [catchUp, Nat.add_zero, ← belongs.chain]
  | succ steps inductionHypothesis =>
    have started := belongs.started
    have later : ({ entry with
        chainKeyRaw := chainAt primitives rawKey entry.keyId entry.nextCtr
        nextCtr := entry.nextCtr + 1 } : ChainEntry Chain Key).Belongs primitives rawKey := by
      refine ⟨belongs.salt, Nat.le_add_left 1 entry.nextCtr, rfl, ?_⟩
      intro kept member
      obtain ⟨below, same⟩ := belongs.skipped kept member
      exact ⟨Nat.lt_succ_of_lt below, same⟩
    have place : entry.nextCtr + 1 + steps = entry.nextCtr + (steps + 1) := by omega
    rw [catchUp, stepChain_eq belongs]
    dsimp only
    rw [inductionHypothesis later]
    dsimp only
    rw [place]

/-- Skipping ahead moves the chain and the counter in the same way, and keeps the
message keys of the counters it passes beside those it had. -/
theorem skipAhead_eq (steps : Nat) (belongs : entry.Belongs primitives rawKey) :
    ∃ kept, skipAhead primitives steps entry = { entry with
        skippedKeys := kept
        chainKeyRaw := chainAt primitives rawKey entry.keyId (entry.nextCtr + steps - 1)
        nextCtr := entry.nextCtr + steps } ∧
      ∀ held, held ∈ kept.entries ↔ held ∈ entry.skippedKeys.entries ∨
        entry.nextCtr ≤ held.1 ∧ held.1 < entry.nextCtr + steps ∧
          held.2 = messageKeyAt primitives rawKey entry.keyId held.1 := by
  induction steps generalizing entry with
  | zero =>
    refine ⟨entry.skippedKeys, ?_, ?_⟩
    · rw [skipAhead, Nat.add_zero, ← belongs.chain]
    · intro held
      constructor
      · exact .inl
      · rintro (old | ⟨above, below, _⟩)
        · exact old
        · omega
  | succ steps inductionHypothesis =>
    have started := belongs.started
    have fresh : ∀ held ∈ entry.skippedKeys.entries, held.1 ≠ entry.nextCtr := by
      intro held member
      exact Nat.ne_of_lt (belongs.skipped held member).1
    have later : ({ entry with
        skippedKeys := entry.skippedKeys.insert entry.nextCtr
          (messageKeyAt primitives rawKey entry.keyId entry.nextCtr)
        chainKeyRaw := chainAt primitives rawKey entry.keyId entry.nextCtr
        nextCtr := entry.nextCtr + 1 } : ChainEntry Chain Key).Belongs primitives rawKey := by
      refine ⟨belongs.salt, Nat.le_add_left 1 entry.nextCtr, rfl, ?_⟩
      intro held member
      rcases Ordered.mem_of_mem_insert member with rfl | old
      · exact ⟨Nat.lt_succ_self entry.nextCtr, rfl⟩
      · obtain ⟨below, same⟩ := belongs.skipped held old
        exact ⟨Nat.lt_succ_of_lt below, same⟩
    obtain ⟨kept, advanced, exact⟩ := inductionHypothesis later
    have place : entry.nextCtr + 1 + steps = entry.nextCtr + (steps + 1) := by omega
    refine ⟨kept, ?_, ?_⟩
    · rw [skipAhead, stepChain_eq belongs]
      dsimp only
      rw [advanced]
      dsimp only
      rw [place]
    · intro held
      rw [exact, Ordered.mem_insert]
      dsimp only
      constructor
      · rintro ((rfl | ⟨old, _⟩) | ⟨above, below, same⟩)
        · exact .inr ⟨Nat.le_refl _, by omega, rfl⟩
        · exact .inl old
        · exact .inr ⟨by omega, by omega, same⟩
      · rintro (old | ⟨above, below, same⟩)
        · exact .inl (.inr ⟨old, fresh held old⟩)
        · by_cases first : held.1 = entry.nextCtr
          · refine .inl (.inl (Prod.ext first ?_))
            rw [same, first]
          · exact .inr ⟨by omega, by omega, same⟩

/-- How far ahead of its next counter the entry still follows a frame. -/
def ChainEntry.skipLimit (entry : ChainEntry Chain Key) : Nat :=
  if entry.caughtUp then maxSkip else maxInitialSkip

/-- What an entry gives for a counter. -/
inductive KeyOutcome (primitives : Primitives Raw Chain Key) (rawKey : Raw)
    (entry : ChainEntry Chain Key) (targetCtr : Nat) :
    Option Key × ChainEntry Chain Key → Prop where
  /-- The counter was skipped and its key is used up now. -/
  | cached (found : targetCtr ∈ entry.skippedKeys.keys) (below : targetCtr < entry.nextCtr) :
      KeyOutcome primitives rawKey entry targetCtr
        (some (messageKeyAt primitives rawKey entry.keyId targetCtr),
          { entry with skippedKeys := entry.skippedKeys.erase targetCtr, caughtUp := true })
  /-- The counter is behind and no key of it is kept. -/
  | passed (absent : targetCtr ∉ entry.skippedKeys.keys) (below : targetCtr < entry.nextCtr) :
      KeyOutcome primitives rawKey entry targetCtr (none, entry)
  /-- The counter is too far ahead. -/
  | far (beyond : entry.skipLimit < targetCtr - entry.nextCtr) :
      KeyOutcome primitives rawKey entry targetCtr (none, entry)
  /-- The chain moves on to the counter. Once the entry has caught up, and not
  before, the keys passed on the way are kept, at least those of the last `maxSkip`
  counters. -/
  | reached (kept : Ordered Nat Key) (ahead : entry.nextCtr ≤ targetCtr)
      (near : targetCtr - entry.nextCtr ≤ entry.skipLimit)
      (origin : ∀ held ∈ kept.entries, held ∈ entry.skippedKeys.entries ∨
        entry.caughtUp = true ∧ entry.nextCtr ≤ held.1 ∧ held.1 < targetCtr ∧
          held.2 = messageKeyAt primitives rawKey entry.keyId held.1)
      (recent : entry.caughtUp = true → ∀ held, targetCtr ≤ held.1 + maxSkip →
        (held ∈ entry.skippedKeys.entries ∨ entry.nextCtr ≤ held.1 ∧ held.1 < targetCtr ∧
          held.2 = messageKeyAt primitives rawKey entry.keyId held.1) → held ∈ kept.entries) :
      KeyOutcome primitives rawKey entry targetCtr
        (some (messageKeyAt primitives rawKey entry.keyId targetCtr),
          { entry with
            chainKeyRaw := chainAt primitives rawKey entry.keyId targetCtr
            nextCtr := targetCtr + 1
            skippedKeys := kept
            caughtUp := true })

/-- An entry that belongs to a key gives one of these outcomes. -/
theorem getDecryptionKey_outcome (belongs : entry.Belongs primitives rawKey) (targetCtr : Nat) :
    KeyOutcome primitives rawKey entry targetCtr (getDecryptionKey primitives entry targetCtr) := by
  unfold getDecryptionKey
  cases found : entry.skippedKeys.lookup targetCtr with
  | some key =>
    have member := Ordered.lookup_eq_some.mp found
    obtain ⟨below, same⟩ := belongs.skipped _ member
    obtain rfl : key = messageKeyAt primitives rawKey entry.keyId targetCtr := same
    exact .cached (Ordered.mem_keys.mpr ⟨_, member⟩) below
  | none =>
    have absent := Ordered.lookup_eq_none.mp found
    dsimp only
    split
    · next below => exact .passed absent below
    · next notBelow =>
      have ahead : entry.nextCtr ≤ targetCtr := Nat.le_of_not_lt notBelow
      have place : entry.nextCtr + (targetCtr - entry.nextCtr) = targetCtr := by omega
      have started := belongs.started
      have previous : targetCtr = targetCtr - 1 + 1 := by omega
      have last : stepChain primitives (chainAt primitives rawKey entry.keyId (targetCtr - 1)) =
          (messageKeyAt primitives rawKey entry.keyId targetCtr,
            chainAt primitives rawKey entry.keyId targetCtr) := by
        rw [previous]
        rfl
      split
      · next fresh =>
        have limit : entry.skipLimit = maxInitialSkip := by simp [ChainEntry.skipLimit, fresh]
        split
        · next beyond => exact .far (by rw [limit]; exact beyond)
        · next within =>
          rw [catchUp_eq _ belongs]
          dsimp only
          rw [place, last]
          refine .reached entry.skippedKeys ahead ?_ (fun _ member => .inl member) ?_
          · rw [limit]
            exact Nat.le_of_not_lt within
          · intro caught
            rw [fresh] at caught
            cases caught
      · next notFresh =>
        have caught : entry.caughtUp = true := by simpa using notFresh
        have limit : entry.skipLimit = maxSkip := by simp [ChainEntry.skipLimit, caught]
        split
        · next beyond => exact .far (by rw [limit]; exact beyond)
        · next within =>
          obtain ⟨kept, advanced, exact⟩ :=
            skipAhead_eq (targetCtr - entry.nextCtr) belongs
          rw [place] at advanced exact
          have below : ∀ held ∈ kept.entries, held.1 < targetCtr := by
            intro held member
            rcases (exact held).mp member with old | ⟨_, new, _⟩
            · exact Nat.lt_of_lt_of_le (belongs.skipped held old).1 ahead
            · exact new
          rw [advanced]
          dsimp only
          rw [last]
          have outcome : KeyOutcome primitives rawKey entry targetCtr _ := .reached
            (kept.keepHighest maxSkip) ahead (by rw [limit]; exact Nat.le_of_not_lt within)
            (fun held member => ((exact held).mp (Ordered.mem_of_mem_keepHighest member)).imp_right
              (fun passed => ⟨caught, passed⟩))
            (fun _ held near member =>
              Ordered.mem_keepHighest ((exact held).mpr member) below near)
          rw [caught]
          exact outcome

/-- Deriving a key leaves an entry that belongs to the same sender key. -/
theorem getDecryptionKey_belongs (belongs : entry.Belongs primitives rawKey) (targetCtr : Nat) :
    (getDecryptionKey primitives entry targetCtr).2.Belongs primitives rawKey ∧
      (getDecryptionKey primitives entry targetCtr).2.keyId = entry.keyId := by
  have outcome := getDecryptionKey_outcome belongs targetCtr
  generalize getDecryptionKey primitives entry targetCtr = result at outcome
  cases outcome with
  | cached found below =>
    refine ⟨⟨belongs.salt, belongs.started, belongs.chain, ?_⟩, rfl⟩
    exact fun kept member => belongs.skipped kept (Ordered.mem_erase.mp member).1
  | passed absent below => exact ⟨belongs, rfl⟩
  | far beyond => exact ⟨belongs, rfl⟩
  | reached kept ahead near origin recent =>
    refine ⟨⟨belongs.salt, Nat.le_add_left 1 targetCtr, rfl, ?_⟩, rfl⟩
    intro held member
    rcases origin held member with old | ⟨_, _, below, same⟩
    · obtain ⟨below, same⟩ := belongs.skipped held old
      exact ⟨Nat.lt_of_lt_of_le below (Nat.le_succ_of_le ahead), same⟩
    · exact ⟨Nat.lt_succ_of_lt below, same⟩

end Derivation

section Sample

/-- A derived key that is told by the sender key, the key identifier and the
number of steps it comes from. -/
abbrev SampleKey := Nat × Nat × Nat

/-- A sixteen-byte checksum of everything an encryption reads. -/
def sampleTag (key : SampleKey) (nonce aad plaintext : List UInt8) : List UInt8 :=
  BigEndian.encode 16
    (BigEndian.decode (nonce ++ aad ++ plaintext) * 31 + key.1 * 7 + key.2.1 * 5 + key.2.2)

/-- Computable primitives: a derivation keeps what it is derived from, and a
ciphertext is the plaintext with its tag. -/
def samplePrimitives : Primitives Nat SampleKey SampleKey where
  deriveChain rawKey keyId := (rawKey, keyId, 0)
  deriveSalt rawKey keyId := BigEndian.encode 12 (rawKey * 65536 + keyId)
  deriveMessage chain := chain
  deriveNext chain := (chain.1, chain.2.1, chain.2.2 + 1)
  encrypt key nonce aad plaintext := plaintext ++ sampleTag key nonce aad plaintext
  decrypt key nonce aad ciphertext :=
    let plaintext := ciphertext.take (ciphertext.length - 16)
    if ciphertext = plaintext ++ sampleTag key nonce aad plaintext then some plaintext else none

/-- The sample opens exactly what it has sealed. -/
theorem samplePrimitives_ideal : samplePrimitives.Ideal := by
  have tag : ∀ key nonce aad plaintext, (sampleTag key nonce aad plaintext).length = 16 :=
    fun _ _ _ _ => BigEndian.encode_length 16 _
  have cut : ∀ key nonce aad plaintext, (plaintext ++ sampleTag key nonce aad plaintext).take
      ((plaintext ++ sampleTag key nonce aad plaintext).length - 16) = plaintext := by
    intro key nonce aad plaintext
    rw [List.length_append, tag, Nat.add_sub_cancel, List.take_left]
  constructor
  · intro key nonce aad ciphertext plaintext
    show (if ciphertext = ciphertext.take (ciphertext.length - 16) ++ sampleTag key nonce aad
      (ciphertext.take (ciphertext.length - 16)) then
        some (ciphertext.take (ciphertext.length - 16)) else none) = some plaintext ↔
      ciphertext = plaintext ++ sampleTag key nonce aad plaintext
    constructor
    · intro opened
      split at opened
      · next whole =>
        rw [← Option.some.inj opened]
        exact whole
      · cases opened
    · intro same
      rw [same, cut, if_pos rfl]
  · intro key nonce aad plaintext
    show (plaintext ++ sampleTag key nonce aad plaintext).length = plaintext.length + 16
    rw [List.length_append, tag]

end Sample

end Seameet.E2ee

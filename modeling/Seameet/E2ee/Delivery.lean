import Seameet.E2ee.Worker

/-!
# Decryption undoes encryption

A sender with one key encrypts frames one after the other; a receiver holding
that key is given encrypted frames in any order, some of them twice and some not
at all. While no frame runs too far ahead of those before it, the receiver emits
each frame it has not seen yet and that its window still covers, byte for byte,
and nothing else.

Three bounds have to agree on every counter: the window's, the number of keys kept
for skipped frames, and the first catch-up. The invariant says what the window and
the kept keys hold in terms of the delivered counters.
-/

namespace Seameet.E2ee

open Library

section Wire

variable {Raw Chain Key : Type} (primitives : Primitives Raw Chain Key)

/-- The header in front of the ciphertext. -/
def e2eeHeaderOf (keyId ctr : Nat) : List UInt8 :=
  UInt8.ofNat keyId :: BigEndian.encode headerCtrLength ctr

/-- The encryption of a payload under a sender key at a counter. -/
def sealed (senderId : String) (rawKey : Raw) (keyId ctr : Nat) (codecHeader payload : List UInt8) :
    List UInt8 :=
  primitives.encrypt (messageKeyAt primitives rawKey keyId ctr)
    (computeNonce (primitives.deriveSalt rawKey keyId) ctr)
    (buildAAD senderId codecHeader (e2eeHeaderOf keyId ctr)) payload

/-- A frame as it is sent. -/
def wireBytes (senderId : String) (rawKey : Raw) (keyId ctr : Nat)
    (codecHeader payload : List UInt8) : List UInt8 :=
  codecHeader ++ e2eeHeaderOf keyId ctr
    ++ sealed primitives senderId rawKey keyId ctr codecHeader payload
    ++ [UInt8.ofNat codecHeader.length &&& 0x7f]

/-- A header has its length whatever it holds. -/
theorem e2eeHeaderOf_length (keyId ctr : Nat) :
    (e2eeHeaderOf keyId ctr).length = e2eeHeaderLength := by
  rw [e2eeHeaderOf, List.length_cons, BigEndian.encode_length]
  rfl

/-- A header length of less than 128 bytes is read back from the trailer. -/
theorem trailer_read {length : Nat} (short : length < 128) :
    ((UInt8.ofNat length &&& 0x7f) &&& 0x7f).toNat = length := by
  have finite : ∀ length : Fin 128,
      ((UInt8.ofNat length.val &&& 0x7f) &&& 0x7f).toNat = length.val := by
    decide +kernel
  exact finite ⟨length, short⟩

variable {primitives}

/-- A sent frame is taken apart into what it was built from, but for the upper bits
of its identifier and its counter. -/
theorem readFrame_wireBytes_mod (ideal : primitives.Ideal) (senderId : String) (rawKey : Raw)
    (keyId ctr : Nat) (codecHeader payload : List UInt8) (short : codecHeader.length < 128) :
    Worker.readFrame (wireBytes primitives senderId rawKey keyId ctr codecHeader payload) = some {
      codecHeader
      kid := keyId % 256
      ctr := ctr % 4294967296
      e2eeHeader := e2eeHeaderOf keyId ctr
      ciphertext := sealed primitives senderId rawKey keyId ctr codecHeader payload } := by
  have tag : (sealed primitives senderId rawKey keyId ctr codecHeader payload).length =
      payload.length + 16 := ideal.tagged _ _ _ _
  generalize cipher : sealed primitives senderId rawKey keyId ctr codecHeader payload = ciphertext
    at tag
  have whole : wireBytes primitives senderId rawKey keyId ctr codecHeader payload =
      codecHeader ++ (e2eeHeaderOf keyId ctr ++ (ciphertext
        ++ [UInt8.ofNat codecHeader.length &&& 0x7f])) := by
    rw [wireBytes, cipher, List.append_assoc, List.append_assoc]
  have header := e2eeHeaderOf_length keyId ctr
  have length : (codecHeader ++ (e2eeHeaderOf keyId ctr ++ (ciphertext
      ++ [UInt8.ofNat codecHeader.length &&& 0x7f]))).length =
        codecHeader.length + e2eeHeaderLength + (payload.length + 16) + 1 := by
    simp only [List.length_append, header, tag, List.length_singleton]
    omega
  have last : (codecHeader ++ (e2eeHeaderOf keyId ctr ++ (ciphertext
      ++ [UInt8.ofNat codecHeader.length &&& 0x7f]))).getLast?.getD 0 =
        UInt8.ofNat codecHeader.length &&& 0x7f := by
    simp only [← List.append_assoc, List.getLast?_concat, Option.getD_some]
  have counter : BigEndian.decode ((e2eeHeaderOf keyId ctr).drop headerKidLength) =
      ctr % 4294967296 :=
    BigEndian.decode_encode_mod 4 ctr
  have identifier : ((e2eeHeaderOf keyId ctr).head?.getD 0).toNat = keyId % 256 :=
    UInt8.toNat_ofNat'
  rw [whole, Worker.readFrame]
  rw [if_neg (by rw [length, trailerLength, e2eeHeaderLength]; omega)]
  simp only [last, trailer_read short]
  rw [if_neg (by rw [length, trailerLength]; omega)]
  rw [List.take_left, List.drop_left, ← header, List.take_left, ← List.drop_drop, List.drop_left,
    List.drop_left, List.dropLast_concat, counter, identifier]

/-- A counter that fits its four bytes is read back as it is. -/
theorem readFrame_wireBytes (ideal : primitives.Ideal) (senderId : String) (rawKey : Raw)
    (keyId ctr : Nat) (codecHeader payload : List UInt8) (short : codecHeader.length < 128)
    (small : ctr < 4294967296) :
    Worker.readFrame (wireBytes primitives senderId rawKey keyId ctr codecHeader payload) = some {
      codecHeader
      kid := keyId % 256
      ctr
      e2eeHeader := e2eeHeaderOf keyId ctr
      ciphertext := sealed primitives senderId rawKey keyId ctr codecHeader payload } := by
  rw [readFrame_wireBytes_mod ideal senderId rawKey keyId ctr codecHeader payload short,
    Nat.mod_eq_of_lt small]

end Wire

/-- The clear part of a frame is short. -/
theorem getUnencryptedBytes_le (payloadType : Option Nat) (data : List UInt8) (isAudio : Bool) :
    getUnencryptedBytes payloadType data isAudio ≤ 10 := by
  have vp8 : getVP8UnencryptedBytes data ≤ 10 := by
    unfold getVP8UnencryptedBytes
    split
    · dsimp only
      split <;> omega
    · omega
  have vp9 : getVP9UnencryptedBytes data ≤ 10 := by
    unfold getVP9UnencryptedBytes
    split
    · dsimp only
      split
      · omega
      · split <;> omega
    · omega
  unfold getUnencryptedBytes
  split
  · omega
  · dsimp only
    split
    · exact vp9
    · exact vp8

section Sending

variable {Raw Chain Key : Type} (primitives : Primitives Raw Chain Key)

/-- A frame of one of the sender's streams; the flag says whether the stream is audio. -/
abbrev Sent := Frame × Bool

/-- How many bytes of a sent frame stay clear. -/
def Sent.clear (item : Sent) : Nat :=
  getUnencryptedBytes item.1.payloadType item.1.data item.2

/-- Frames encrypted one after the other, with what each one is sent as. -/
def encryptAll (senderId : String) :
    Worker Chain Key → List Sent → List (Option (List UInt8)) × Worker Chain Key
  | worker, [] => ([], worker)
  | worker, item :: rest =>
    let first := worker.encryptFrame primitives item.1 senderId item.2
    let later := encryptAll senderId first.2 rest
    (first.1.map Encrypted.output :: later.1, later.2)

/-- A worker that has encrypted this many frames under its one key. -/
structure Sending (senderId : String) (rawKey : Raw) (keyId sent : Nat)
    (worker : Worker Chain Key) : Prop where
  installed : ∃ entry, worker.entriesOf senderId = [entry] ∧ entry.keyId = keyId ∧
    entry.nextCtr = sent + 1 ∧ entry.Belongs primitives rawKey
  counted : (worker.frameCounters.lookup (senderId, keyId)).getD 0 = sent

/-- What a frame is sent as when its counter is known. -/
def wireOf (senderId : String) (rawKey : Raw) (keyId ctr : Nat) (item : Sent) : List UInt8 :=
  wireBytes primitives senderId rawKey keyId ctr (item.1.data.take item.clear)
    (item.1.data.drop item.clear)

variable {primitives} {senderId : String} {rawKey : Raw} {keyId sent : Nat}
  {worker : Worker Chain Key}

/-- A frame with room for its clear header goes out under the newest key, which
moves on by one step. -/
theorem encryptFrame_next {entry : ChainEntry Chain Key}
    (newest : (worker.entriesOf senderId).getLast? = some entry)
    (next : entry.nextCtr = sent + 1) (belongs : entry.Belongs primitives rawKey)
    (counted : (worker.frameCounters.lookup (senderId, entry.keyId)).getD 0 = sent) (item : Sent)
    (room : item.clear ≤ item.1.data.length) :
    (worker.encryptFrame primitives item.1 senderId item.2).1.map Encrypted.output =
        some (wireOf primitives senderId rawKey entry.keyId (sent + 1) item) ∧
      (worker.encryptFrame primitives item.1 senderId item.2).2 =
        worker.advanced primitives senderId entry := by
  have outcome := worker.encryptFrame_outcome primitives item.1 senderId item.2
  generalize worker.encryptFrame primitives item.1 senderId item.2 = result at outcome
  cases outcome with
  | notReady missing =>
    rw [missing] at newest
    cases newest
  | short under => exact absurd room (Nat.not_le.mpr under)
  | encrypted last codecHeader payload aad found _ cut bound =>
    obtain rfl : entry = last := Option.some.inj (newest.symm.trans found)
    obtain ⟨rfl, rfl⟩ := cut
    subst bound
    have header : (item.1.data.take item.clear).length = item.clear := by
      rw [List.length_take, Nat.min_eq_left room]
    have key : primitives.deriveMessage entry.chainKeyRaw =
        messageKeyAt primitives rawKey entry.keyId (sent + 1) := by
      rw [← next]
      exact congrArg Prod.fst (stepChain_eq belongs)
    have ctr : worker.nextCounter senderId entry = sent + 1 := by
      rw [Worker.nextCounter, counted]
    refine ⟨?_, rfl⟩
    rw [key, ctr, belongs.salt, wireOf, wireBytes, header]
    rfl

/-- The counter of the key that a frame went out under. -/
theorem counted_advanced {entry : ChainEntry Chain Key}
    (counted : (worker.frameCounters.lookup (senderId, entry.keyId)).getD 0 = sent) :
    ((worker.advanced primitives senderId entry).frameCounters.lookup
      (senderId, entry.keyId)).getD 0 = sent + 1 := by
  rw [Worker.frameCounters_advanced, if_pos rfl, Option.getD_some, Worker.nextCounter, counted]

/-- Each frame takes the next counter and the next message key. -/
theorem encryptFrame_sending (sending : Sending primitives senderId rawKey keyId sent worker)
    (item : Sent) (room : item.clear ≤ item.1.data.length) :
    ((worker.encryptFrame primitives item.1 senderId item.2).1.map Encrypted.output =
        some (wireOf primitives senderId rawKey keyId (sent + 1) item)) ∧
      Sending primitives senderId rawKey keyId (sent + 1)
        (worker.encryptFrame primitives item.1 senderId item.2).2 := by
  obtain ⟨⟨entry, installed, rfl, next, belongs⟩, counted⟩ := sending
  have newest : (worker.entriesOf senderId).getLast? = some entry := by
    rw [installed]
    rfl
  obtain ⟨wire, moved⟩ := encryptFrame_next newest next belongs counted item room
  refine ⟨wire, ?_⟩
  rw [moved]
  refine ⟨⟨(getEncryptionKey primitives entry).2, ?_, rfl, congrArg (· + 1) next,
    getEncryptionKey_belongs belongs⟩, counted_advanced counted⟩
  rw [Worker.entriesOf_advanced, if_pos rfl, installed]
  simp

/-- The frames take the counters one after the other. The induction is on the
frames still to be encrypted. -/
theorem encryptAll_sending (items : List Sent)
    (sending : Sending primitives senderId rawKey keyId sent worker)
    (room : ∀ item ∈ items, item.clear ≤ item.1.data.length) (index : Nat) :
    (encryptAll primitives senderId worker items).1[index]? =
      items[index]?.map (fun item =>
        some (wireOf primitives senderId rawKey keyId (sent + index + 1) item)) := by
  induction items generalizing worker sent index with
  | nil => rfl
  | cons item rest inductionHypothesis =>
    obtain ⟨output, later⟩ := encryptFrame_sending sending item (room item List.mem_cons_self)
    rw [encryptAll]
    cases index with
    | zero => exact congrArg some output
    | succ index =>
      have place : sent + 1 + index + 1 = sent + (index + 1) + 1 := by omega
      have tail := inductionHypothesis later
        (fun item member => room item (List.mem_cons_of_mem _ member)) index
      rw [place] at tail
      exact tail

end Sending

section Receiving

variable {Raw Chain Key : Type} (primitives : Primitives Raw Chain Key)

/-- The highest of the delivered counters. -/
def highest (delivered : List Nat) : Nat := delivered.foldr max 0

/-- The highest of the counters, with one more. -/
theorem highest_append (delivered : List Nat) (ctr : Nat) :
    highest (delivered ++ [ctr]) = max (highest delivered) ctr := by
  induction delivered with
  | nil => exact Nat.max_comm ctr 0
  | cons head rest inductionHypothesis =>
    show max head (highest (rest ++ [ctr])) = max (max head (highest rest)) ctr
    rw [inductionHypothesis, Nat.max_assoc]

/-- No counter is above the highest. -/
theorem le_highest {delivered : List Nat} {ctr : Nat} (member : ctr ∈ delivered) :
    ctr ≤ highest delivered := by
  induction delivered with
  | nil => cases member
  | cons head rest inductionHypothesis =>
    show ctr ≤ max head (highest rest)
    rcases List.mem_cons.mp member with rfl | there
    · exact Nat.le_max_left ctr (highest rest)
    · exact Nat.le_trans (inductionHypothesis there) (Nat.le_max_right head (highest rest))

/-- What the receiver holds after these counters were delivered, the first of them
`first`. The window marks the delivered counters it covers, and the kept keys of
those counters are the ones of the frames that were skipped. -/
structure Receiving (senderId : String) (rawKey : Raw) (keyId first : Nat) (delivered : List Nat)
    (worker : Worker Chain Key) : Prop where
  opened : first ∈ delivered
  entry : ∃ entry, worker.entriesOf senderId = [entry] ∧ entry.keyId = keyId ∧
    entry.Belongs primitives rawKey ∧ entry.caughtUp = true ∧
    entry.nextCtr = highest delivered + 1 ∧
    ∀ ctr, highest delivered < ctr + replayWindowSize →
      (ctr ∈ entry.skippedKeys.keys ↔
        first < ctr ∧ ctr ≤ highest delivered ∧ ctr ∉ delivered)
  window : ∃ window, worker.replayWindows.lookup (senderId, keyId % 256) = some window ∧
    window.highest = highest delivered ∧
    ∀ ctr, window.Covers replayWindowSize ctr → (window.Marks ctr ↔ ctr ∈ delivered)

/-- A received frame that the sender key produced at a counter: it names both, and
the counter's message key opens it to the rest of the frame. -/
structure Genuine (senderId : String) (rawKey : Raw) (keyId ctr : Nat) (plain : List UInt8)
    (wire : WireFrame) : Prop where
  named : wire.kid = keyId % 256
  counted : wire.ctr = ctr
  opens : ∃ payload, Worker.openFrame primitives senderId wire (primitives.deriveSalt rawKey keyId)
    (messageKeyAt primitives rawKey keyId ctr) = some payload ∧ wire.codecHeader ++ payload = plain

variable {primitives} {senderId : String} {rawKey : Raw} {keyId first ctr : Nat}
  {delivered : List Nat} {worker : Worker Chain Key} {plain : List UInt8} {wire : WireFrame}
  {entry : ChainEntry Chain Key} {window : ReplayWindow}

/-- A receiver with one entry finds it by the key identifier on the frame. -/
theorem find_single (single : worker.entriesOf senderId = [entry])
    (kid : wire.kid = entry.keyId % 256) :
    (worker.entriesOf senderId).find? (fun held => held.keyId % 256 == wire.kid) = some entry := by
  rw [single, kid]
  simp

/-- Asking for a counter's key leaves the one entry in its place. -/
theorem entriesOf_derived_single (single : worker.entriesOf senderId = [entry])
    (belongs : entry.Belongs primitives rawKey) (wire : WireFrame) (window : ReplayWindow) :
    (worker.derived primitives senderId wire entry window).entriesOf senderId =
      [(getDecryptionKey primitives entry wire.ctr).2] := by
  rw [Worker.entriesOf_derived, if_pos rfl, single, (getDecryptionKey_belongs belongs wire.ctr).2]
  simp

/-- An accepted frame whose key the entry gives is emitted. -/
theorem decryptWire_emits (genuine : Genuine primitives senderId rawKey entry.keyId ctr plain wire)
    (single : worker.entriesOf senderId = [entry]) (belongs : entry.Belongs primitives rawKey)
    (accepted : Window.check replayWindowSize
      (worker.replayWindows.lookup (senderId, entry.keyId % 256)) ctr = some window)
    (given : (getDecryptionKey primitives entry ctr).1 =
      some (messageKeyAt primitives rawKey entry.keyId ctr)) :
    worker.decryptWire primitives senderId wire =
      (some plain, worker.derived primitives senderId wire entry window) := by
  obtain ⟨kid, rfl, payload, opens, rfl⟩ := genuine
  rw [Worker.decryptWire_accepted (find_single single kid) (by rw [kid]; exact accepted), given]
  dsimp only
  rw [belongs.salt, opens]

/-- An accepted frame whose key the entry no longer gives is dropped. -/
theorem decryptWire_drops (genuine : Genuine primitives senderId rawKey entry.keyId ctr plain wire)
    (single : worker.entriesOf senderId = [entry])
    (accepted : Window.check replayWindowSize
      (worker.replayWindows.lookup (senderId, entry.keyId % 256)) ctr = some window)
    (withheld : (getDecryptionKey primitives entry ctr).1 = none) :
    worker.decryptWire primitives senderId wire =
      (none, worker.derived primitives senderId wire entry window) := by
  obtain ⟨kid, rfl, -⟩ := genuine
  rw [Worker.decryptWire_accepted (find_single single kid) (by rw [kid]; exact accepted), withheld]

/-- A recorded counter joins those that the window marks. -/
theorem window_recorded {after : ReplayWindow} (top : window.highest = highest delivered)
    (marks : ∀ tested, window.Covers replayWindowSize tested →
      (window.Marks tested ↔ tested ∈ delivered))
    (tried : Window.check replayWindowSize (some window) ctr = some after) :
    after.highest = highest (delivered ++ [ctr]) ∧
      ∀ tested, after.Covers replayWindowSize tested →
        (after.Marks tested ↔ tested ∈ delivered ++ [ctr]) := by
  obtain ⟨reach, recorded⟩ := Window.check_marks tried
  refine ⟨by rw [highest_append, reach, top], ?_⟩
  intro tested covered
  have earlier : window.Covers replayWindowSize tested := by
    unfold Window.Covers at covered ⊢
    rw [reach] at covered
    omega
  rw [recorded tested covered, marks tested earlier, List.mem_append, List.mem_singleton, or_comm]

/-- A frame whose counter the window refuses was delivered before or is behind. -/
theorem refused_delivery (genuine : Genuine primitives senderId rawKey keyId ctr plain wire)
    (receiving : Receiving primitives senderId rawKey keyId first delivered worker)
    (stored : worker.replayWindows.lookup (senderId, keyId % 256) = some window)
    (refused : Window.check replayWindowSize (some window) ctr = none) :
    (worker.decryptWire primitives senderId wire).1 = none ∧
      Receiving primitives senderId rawKey keyId first (delivered ++ [ctr])
        (worker.decryptWire primitives senderId wire).2 := by
  obtain ⟨opened, ⟨entry, single, rfl, belongs, caught, next, keys⟩, held, holds, top, marks⟩ :=
    receiving
  obtain rfl : window = held := Option.some.inj (stored.symm.trans holds)
  have accepts := Window.check_isSome replayWindowSize window ctr
  rw [refused, top] at accepts
  have inside : ctr ≤ highest delivered := by
    by_contra above
    exact absurd (accepts.mpr (.inl (Nat.lt_of_not_le above))) (by decide)
  have known : highest delivered < ctr + replayWindowSize → ctr ∈ delivered := by
    intro near
    have covered : window.Covers replayWindowSize ctr := by
      rw [← top] at near
      exact near
    by_contra unknown
    exact absurd (accepts.mpr (.inr ⟨covered, fun mark => unknown ((marks ctr covered).mp mark)⟩))
      (by decide)
  have same : highest (delivered ++ [ctr]) = highest delivered := by
    rw [highest_append, Nat.max_eq_left inside]
  have room : ∀ tested, tested ∈ delivered ++ [ctr] ↔ tested ∈ delivered ∨ tested = ctr := by
    intro tested
    rw [List.mem_append, List.mem_singleton]
  -- A covered counter that is delivered now was delivered before.
  have again : ∀ tested, highest delivered < tested + replayWindowSize →
      (tested ∈ delivered ++ [ctr] ↔ tested ∈ delivered) := by
    intro tested near
    rw [room]
    constructor
    · rintro (old | rfl)
      · exact old
      · exact known near
    · exact .inl
  have untouched : worker.decryptWire primitives senderId wire = (none, worker) := by
    apply Worker.decryptWire_refused (find_single single genuine.named)
    rw [genuine.named, genuine.counted, stored]
    exact refused
  rw [untouched]
  refine ⟨rfl, List.mem_append_left [ctr] opened,
    ⟨entry, single, rfl, belongs, caught, by rw [same]; exact next, ?_⟩,
    window, stored, by rw [same]; exact top, ?_⟩
  · intro tested near
    rw [same] at near ⊢
    rw [keys tested near, again tested near]
  · intro tested covered
    have near : highest delivered < tested + replayWindowSize := by
      rw [← top]
      exact covered
    rw [marks tested covered, again tested near]

/-- A frame above every delivered one is emitted, and the keys passed on the way
are kept. -/
theorem ahead_delivery (genuine : Genuine primitives senderId rawKey keyId ctr plain wire)
    (receiving : Receiving primitives senderId rawKey keyId first delivered worker)
    (above : highest delivered < ctr) (near : ctr ≤ highest delivered + maxSkip) :
    (worker.decryptWire primitives senderId wire).1 = some plain ∧
      Receiving primitives senderId rawKey keyId first (delivered ++ [ctr])
        (worker.decryptWire primitives senderId wire).2 := by
  obtain ⟨opened, ⟨entry, single, rfl, belongs, caught, next, keys⟩, window, stored, top, marks⟩ :=
    receiving
  have begun := le_highest opened
  have reach : highest (delivered ++ [ctr]) = ctr := by
    rw [highest_append, Nat.max_eq_right (Nat.le_of_lt above)]
  have accepts := (Window.check_isSome replayWindowSize window ctr).mpr (.inl (by rw [top]; exact above))
  obtain ⟨after, tried⟩ := Option.isSome_iff_exists.mp accepts
  have accepted : Window.check replayWindowSize
      (worker.replayWindows.lookup (senderId, entry.keyId % 256)) ctr = some after := by
    rw [stored]
    exact tried
  obtain ⟨afterTop, afterMarks⟩ := window_recorded top marks tried
  have entries := entriesOf_derived_single single belongs wire after
  rw [genuine.counted] at entries
  have emits := decryptWire_emits genuine single belongs accepted
  have outcome := getDecryptionKey_outcome belongs ctr
  have belongsAfter := (getDecryptionKey_belongs belongs ctr).1
  have limit : entry.skipLimit = maxSkip := by simp [ChainEntry.skipLimit, caught]
  generalize getDecryptionKey primitives entry ctr = result at outcome belongsAfter entries emits
  cases outcome with
  | cached found below => omega
  | passed absent below => omega
  | far beyond =>
    rw [limit] at beyond
    omega
  | reached kept _ within origin recent =>
    rw [emits rfl]
    refine ⟨rfl, List.mem_append_left [ctr] opened,
      ⟨_, entries, rfl, belongsAfter, rfl, by rw [reach], ?_⟩, after, ?_, afterTop, afterMarks⟩
    · intro tested covered
      rw [reach] at covered ⊢
      have close : highest delivered < tested + replayWindowSize := by omega
      rw [Ordered.mem_keys]
      constructor
      · rintro ⟨key, held⟩
        rcases origin _ held with old | ⟨_, passed, below, _⟩
        · obtain ⟨after_first, below, new⟩ :=
            (keys tested close).mp (Ordered.mem_keys.mpr ⟨key, old⟩)
          refine ⟨after_first, by omega, ?_⟩
          rw [List.mem_append, List.mem_singleton, not_or]
          exact ⟨new, by omega⟩
        · dsimp only at passed below
          refine ⟨by omega, by omega, ?_⟩
          rw [List.mem_append, List.mem_singleton, not_or]
          refine ⟨fun old => ?_, by omega⟩
          have bounded := le_highest old
          omega
      · rintro ⟨after_first, below, new⟩
        rw [List.mem_append, List.mem_singleton, not_or] at new
        have recentEnough : ctr ≤ tested + maxSkip := by
          unfold replayWindowSize at covered
          unfold maxSkip
          omega
        by_cases old : tested ≤ highest delivered
        · obtain ⟨key, held⟩ :=
            Ordered.mem_keys.mp ((keys tested close).mpr ⟨after_first, old, new.1⟩)
          exact ⟨key, recent caught (tested, key) recentEnough (.inl held)⟩
        · exact ⟨messageKeyAt primitives rawKey entry.keyId tested,
            recent caught (tested, _) recentEnough (.inr ⟨by dsimp only; omega, by dsimp only; omega, rfl⟩)⟩
    · rw [Worker.replayWindows_derived, genuine.named, if_pos rfl]

/-- A frame inside the window that was not delivered before is emitted with the key
kept for it, unless it comes before the first frame. -/
theorem inside_delivery (genuine : Genuine primitives senderId rawKey keyId ctr plain wire)
    (receiving : Receiving primitives senderId rawKey keyId first delivered worker)
    (below : ctr ≤ highest delivered) (covered : highest delivered < ctr + replayWindowSize)
    (new : ctr ∉ delivered) :
    (worker.decryptWire primitives senderId wire).1 = (if first ≤ ctr then some plain else none) ∧
      Receiving primitives senderId rawKey keyId first (delivered ++ [ctr])
        (worker.decryptWire primitives senderId wire).2 := by
  obtain ⟨opened, ⟨entry, single, rfl, belongs, caught, next, keys⟩, window, stored, top, marks⟩ :=
    receiving
  have same : highest (delivered ++ [ctr]) = highest delivered := by
    rw [highest_append, Nat.max_eq_left below]
  have covers : window.Covers replayWindowSize ctr := by
    unfold Window.Covers
    rw [top]
    exact covered
  have accepts := (Window.check_isSome replayWindowSize window ctr).mpr
    (.inr ⟨covers, fun mark => new ((marks ctr covers).mp mark)⟩)
  obtain ⟨after, tried⟩ := Option.isSome_iff_exists.mp accepts
  have accepted : Window.check replayWindowSize
      (worker.replayWindows.lookup (senderId, entry.keyId % 256)) ctr = some after := by
    rw [stored]
    exact tried
  obtain ⟨afterTop, afterMarks⟩ := window_recorded top marks tried
  have entries := entriesOf_derived_single single belongs wire after
  rw [genuine.counted] at entries
  have emits := decryptWire_emits genuine single belongs accepted
  have drops := decryptWire_drops genuine single accepted
  have outcome := getDecryptionKey_outcome belongs ctr
  have belongsAfter := (getDecryptionKey_belongs belongs ctr).1
  have other : ctr ≠ first := fun here => new (here ▸ opened)
  have recorded : ∀ tested, tested ∈ delivered ++ [ctr] ↔ tested ∈ delivered ∨ tested = ctr := by
    intro tested
    rw [List.mem_append, List.mem_singleton]
  generalize getDecryptionKey primitives entry ctr = result
    at outcome belongsAfter entries emits drops
  cases outcome with
  | cached found _ =>
    obtain ⟨after_first, -⟩ := (keys ctr covered).mp found
    rw [emits rfl, if_pos (Nat.le_of_lt after_first)]
    refine ⟨rfl, List.mem_append_left [ctr] opened,
      ⟨_, entries, rfl, belongsAfter, rfl, by rw [same]; exact next, ?_⟩, after, ?_, afterTop, afterMarks⟩
    · intro tested close
      rw [same] at close ⊢
      have erased : tested ∈ (entry.skippedKeys.erase ctr).keys ↔
          tested ∈ entry.skippedKeys.keys ∧ tested ≠ ctr := by
        simp only [Ordered.mem_keys, Ordered.mem_erase, exists_and_right]
      rw [erased, keys tested close, recorded, not_or]
      constructor
      · rintro ⟨⟨start, within, fresh⟩, apart⟩
        exact ⟨start, within, fresh, apart⟩
      · rintro ⟨start, within, fresh, apart⟩
        exact ⟨⟨start, within, fresh⟩, apart⟩
    · rw [Worker.replayWindows_derived, genuine.named, if_pos rfl]
  | passed absent _ =>
    have before : ¬ first ≤ ctr := by
      intro reached
      exact absent ((keys ctr covered).mpr ⟨by omega, below, new⟩)
    rw [drops rfl, if_neg before]
    refine ⟨rfl, List.mem_append_left [ctr] opened,
      ⟨_, entries, rfl, belongsAfter, caught, by rw [same]; exact next, ?_⟩, after, ?_, afterTop,
      afterMarks⟩
    · intro tested close
      rw [same] at close ⊢
      rw [keys tested close, recorded, not_or]
      constructor
      · rintro ⟨start, within, fresh⟩
        exact ⟨start, within, fresh, by omega⟩
      · rintro ⟨start, within, fresh, _⟩
        exact ⟨start, within, fresh⟩
    · rw [Worker.replayWindows_derived, genuine.named, if_pos rfl]
  | far beyond => omega
  | reached kept ahead within origin recent => omega

/-- A later frame is emitted exactly when it is delivered for the first time, does
not come before the first frame and is covered by the window. -/
theorem later_delivery (genuine : Genuine primitives senderId rawKey keyId ctr plain wire)
    (receiving : Receiving primitives senderId rawKey keyId first delivered worker)
    (near : ctr ≤ highest delivered + maxSkip) :
    (worker.decryptWire primitives senderId wire).1 =
        (if ctr ∉ delivered ∧ first ≤ ctr ∧
          highest (delivered ++ [ctr]) < ctr + replayWindowSize then some plain else none) ∧
      Receiving primitives senderId rawKey keyId first (delivered ++ [ctr])
        (worker.decryptWire primitives senderId wire).2 := by
  have begun := le_highest receiving.opened
  rw [highest_append]
  by_cases above : highest delivered < ctr
  · have new : ctr ∉ delivered := fun old => Nat.not_lt.mpr (le_highest old) above
    have size : max (highest delivered) ctr < ctr + replayWindowSize := by
      unfold replayWindowSize
      omega
    rw [if_pos ⟨new, by omega, size⟩]
    exact ahead_delivery genuine receiving above near
  · have below : ctr ≤ highest delivered := Nat.le_of_not_lt above
    rw [Nat.max_eq_left below]
    by_cases fresh : ctr ∉ delivered ∧ highest delivered < ctr + replayWindowSize
    · have result := inside_delivery genuine receiving below fresh.2 fresh.1
      simpa only [fresh.1, fresh.2, not_false_eq_true, and_true, true_and] using result
    · obtain ⟨window, stored, top, marks⟩ := receiving.window
      cases tried : Window.check replayWindowSize (some window) ctr with
      | none =>
        obtain ⟨dropped, after⟩ := refused_delivery genuine receiving stored tried
        rw [if_neg (fun both => fresh ⟨both.1, both.2.2⟩)]
        exact ⟨dropped, after⟩
      | some after =>
        have accepts := (Window.check_isSome replayWindowSize window ctr).mp (by rw [tried]; rfl)
        rw [top] at accepts
        rcases accepts with ahead | ⟨covered, unmarked⟩
        · exact absurd ahead above
        · have close : highest delivered < ctr + replayWindowSize := by
            rw [← top]
            exact covered
          exact absurd ⟨fun old => unmarked ((marks ctr covered).mpr old), close⟩ fresh

/-- The first frame is emitted when the receiver can catch up with it. -/
theorem first_delivery (genuine : Genuine primitives senderId rawKey keyId ctr plain wire)
    (installed : worker.entriesOf senderId = [initChainEntry primitives rawKey keyId])
    (unused : worker.replayWindows.lookup (senderId, keyId % 256) = none)
    (positive : 1 ≤ ctr) (near : ctr ≤ 30001) :
    (worker.decryptWire primitives senderId wire).1 = some plain ∧
      Receiving primitives senderId rawKey keyId ctr [ctr]
        (worker.decryptWire primitives senderId wire).2 := by
  have belongs := initChainEntry_belongs primitives rawKey keyId
  have accepted : Window.check replayWindowSize
      (worker.replayWindows.lookup (senderId, keyId % 256)) ctr =
        some { highest := ctr, bitmap := 1 } := by
    rw [unused]
    rfl
  have entries := entriesOf_derived_single installed belongs wire { highest := ctr, bitmap := 1 }
  rw [genuine.counted] at entries
  have emits := decryptWire_emits genuine installed belongs accepted
  have outcome := getDecryptionKey_outcome belongs ctr
  have after := (getDecryptionKey_belongs belongs ctr).1
  generalize getDecryptionKey primitives (initChainEntry primitives rawKey keyId) ctr = result
    at outcome after entries emits
  cases outcome with
  | cached found below => cases found
  | passed absent below => exact absurd positive (Nat.not_le.mpr below)
  | far beyond =>
    have limit : (30000 : Nat) < ctr - 1 := beyond
    omega
  | reached kept ahead within origin recent =>
    rw [emits rfl]
    have top : highest [ctr] = ctr := Nat.max_zero ctr
    have none_kept : kept.keys = [] := by
      apply List.eq_nil_iff_forall_not_mem.mpr
      intro tested member
      obtain ⟨key, held⟩ := Ordered.mem_keys.mp member
      rcases origin _ held with old | ⟨impossible, _⟩
      · cases old
      · cases impossible
    refine ⟨rfl, List.mem_singleton_self ctr, ⟨_, entries, rfl, after, rfl, by rw [top], ?_⟩, ?_⟩
    · intro tested _
      rw [none_kept, top]
      constructor
      · intro impossible
        cases impossible
      · rintro ⟨above, below, _⟩
        omega
    · refine ⟨{ highest := ctr, bitmap := 1 }, ?_, top.symm, ?_⟩
      · rw [Worker.replayWindows_derived, genuine.named, if_pos rfl]
      · intro tested _
        rw [Window.marks_fresh, List.mem_singleton]

/-- The clear header of a frame is short enough for its trailer. -/
theorem clear_short (item : Sent) : (item.1.data.take item.clear).length < 128 := by
  have bound := getUnencryptedBytes_le item.1.payloadType item.1.data item.2
  rw [List.length_take]
  exact Nat.lt_of_le_of_lt (Nat.le_trans (Nat.min_le_left _ _) bound) (by decide)

/-- The receiver reads the low bits of a sent frame's identifier and counter. -/
theorem wireOf_read (ideal : primitives.Ideal) (senderId : String) (rawKey : Raw) (keyId ctr : Nat)
    (item : Sent) : ∃ wire, Worker.readFrame (wireOf primitives senderId rawKey keyId ctr item) =
      some wire ∧ wire.kid = keyId % 256 ∧ wire.ctr = ctr % 4294967296 :=
  ⟨_, readFrame_wireBytes_mod ideal senderId rawKey keyId ctr _ _ (clear_short item), rfl, rfl⟩

/-- A sent frame reaches the receiver as a genuine frame of its counter. -/
theorem wireOf_genuine (ideal : primitives.Ideal) (senderId : String) (rawKey : Raw) (keyId : Nat)
    (item : Sent) (small : ctr < 4294967296) :
    ∃ wire, Worker.readFrame (wireOf primitives senderId rawKey keyId ctr item) = some wire ∧
      Genuine primitives senderId rawKey keyId ctr item.1.data wire := by
  refine ⟨_, readFrame_wireBytes ideal senderId rawKey keyId ctr _ _ (clear_short item) small, rfl,
    rfl, item.1.data.drop item.clear, ?_, List.take_append_drop item.clear item.1.data⟩
  exact (ideal.opens _ _ _ _ _).mpr rfl

end Receiving

section Whole

variable {Raw Chain Key : Type} (primitives : Primitives Raw Chain Key)

/-- The frame that was sent under a counter. -/
def sentFrame (outputs : List (Option (List UInt8))) (ctr : Nat) : List UInt8 :=
  (outputs[ctr - 1]?.join).getD []

/-- The receiver after the frames of these counters were given to it in order. -/
def deliver (senderId : String) (outputs : List (Option (List UInt8))) (receiver : Worker Chain Key)
    (counters : List Nat) : Worker Chain Key :=
  counters.foldl
    (fun worker ctr => (worker.decryptFrame primitives senderId (sentFrame outputs ctr)).2) receiver

/-- A sequence of deliveries the receiver can follow: every frame was sent, the
first is within the catch-up, and none is too far above those before it. -/
structure Followable (count : Nat) (counters : List Nat) : Prop where
  sent : ∀ ctr ∈ counters, 1 ≤ ctr ∧ ctr ≤ count
  start : ∀ ctr, counters.head? = some ctr → ctr ≤ 30001
  near : ∀ earlier ctr later, counters = earlier ++ ctr :: later → earlier ≠ [] →
    ctr ≤ highest earlier + 256

variable {primitives} {senderId : String} {rawKey : Raw} {keyId : Nat}
  {sender receiver : Worker Chain Key} {items : List Sent} {counters : List Nat}

/-- The frame sent under a counter is genuine, and a receiver with a key for the
sender takes it apart and decrypts it. -/
theorem sentFrame_genuine (ideal : primitives.Ideal)
    (sending : Sending primitives senderId rawKey keyId 0 sender)
    (few : items.length < 4294967296) (room : ∀ item ∈ items, item.clear ≤ item.1.data.length)
    {ctr : Nat} (positive : 1 ≤ ctr) (known : ctr ≤ items.length) :
    ∃ item wire, items[ctr - 1]? = some item ∧
      Genuine primitives senderId rawKey keyId ctr item.1.data wire ∧
      ∀ worker : Worker Chain Key, worker.entriesOf senderId ≠ [] →
        worker.decryptFrame primitives senderId
          (sentFrame (encryptAll primitives senderId sender items).1 ctr) =
            worker.decryptWire primitives senderId wire := by
  obtain ⟨item, stored⟩ : ∃ item, items[ctr - 1]? = some item :=
    ⟨items[ctr - 1], List.getElem?_eq_getElem (by omega)⟩
  have place : 0 + (ctr - 1) + 1 = ctr := by omega
  have sent : sentFrame (encryptAll primitives senderId sender items).1 ctr =
      wireOf primitives senderId rawKey keyId ctr item := by
    rw [sentFrame, encryptAll_sending items sending room, stored, place]
    rfl
  obtain ⟨wire, read, genuine⟩ := wireOf_genuine ideal senderId rawKey keyId item
    (Nat.lt_of_le_of_lt known few)
  refine ⟨item, wire, stored, genuine, ?_⟩
  intro worker present
  rw [sent, Worker.decryptFrame, if_neg (by simpa using present), read]

/-- What a delivery does after the deliveries before it. The induction is on those,
from the last one, and carries what the receiver holds. -/
theorem delivery_step (ideal : primitives.Ideal)
    (sending : Sending primitives senderId rawKey keyId 0 sender)
    (few : items.length < 4294967296) (room : ∀ item ∈ items, item.clear ≤ item.1.data.length)
    (installed : receiver.entriesOf senderId = [initChainEntry primitives rawKey keyId])
    (unused : receiver.replayWindows.lookup (senderId, keyId % 256) = none)
    (followable : Followable items.length counters) (earlier : List Nat) (ctr : Nat)
    (later : List Nat) (split : counters = earlier ++ ctr :: later) :
    ((deliver primitives senderId (encryptAll primitives senderId sender items).1 receiver
        earlier).decryptFrame primitives senderId
          (sentFrame (encryptAll primitives senderId sender items).1 ctr)).1 =
      (if ctr ∉ earlier ∧ counters.head?.getD 0 ≤ ctr ∧
          highest (earlier ++ [ctr]) < ctr + replayWindowSize then
        items[ctr - 1]?.map (fun item => item.1.data)
      else none) ∧
    Receiving primitives senderId rawKey keyId (counters.head?.getD 0) (earlier ++ [ctr])
      (deliver primitives senderId (encryptAll primitives senderId sender items).1 receiver
        (earlier ++ [ctr])) := by
  induction earlier using List.reverseRecOn generalizing ctr later with
  | nil =>
    obtain ⟨positive, known⟩ := followable.sent ctr (by rw [split]; exact List.mem_cons_self)
    obtain ⟨item, wire, stored, genuine, taken⟩ :=
      sentFrame_genuine ideal sending few room positive known
    have head : counters.head?.getD 0 = ctr := by
      rw [split]
      rfl
    have near : ctr ≤ 30001 := followable.start ctr (by rw [split]; rfl)
    have size : highest ([] ++ [ctr]) < ctr + replayWindowSize := by
      rw [highest_append]
      show max 0 ctr < ctr + 128
      omega
    obtain ⟨emitted, after⟩ := first_delivery genuine installed unused positive near
    have present : receiver.entriesOf senderId ≠ [] := by
      rw [installed]
      exact List.cons_ne_nil _ _
    rw [head]
    constructor
    · rw [if_pos ⟨List.not_mem_nil, Nat.le_refl ctr, size⟩, stored]
      exact (congrArg Prod.fst (taken receiver present)).trans emitted
    · have done : deliver primitives senderId (encryptAll primitives senderId sender items).1
          receiver ([] ++ [ctr]) = (receiver.decryptWire primitives senderId wire).2 :=
        congrArg Prod.snd (taken receiver present)
      rw [done]
      exact after
  | append_singleton earlier previous inductionHypothesis =>
    have whole : counters = earlier ++ previous :: ctr :: later := by
      rw [split, List.append_assoc]
      rfl
    obtain ⟨-, receiving⟩ := inductionHypothesis previous (ctr :: later) whole
    obtain ⟨positive, known⟩ := followable.sent ctr (by rw [split]; simp)
    obtain ⟨item, wire, stored, genuine, taken⟩ :=
      sentFrame_genuine ideal sending few room positive known
    have near : ctr ≤ highest (earlier ++ [previous]) + maxSkip :=
      followable.near (earlier ++ [previous]) ctr later split (by simp)
    obtain ⟨emitted, after⟩ := later_delivery genuine receiving near
    obtain ⟨entry, single, -⟩ := receiving.entry
    have same := taken _ (by rw [single]; exact List.cons_ne_nil entry [])
    constructor
    · rw [same, emitted, stored]
      rfl
    · have done : deliver primitives senderId (encryptAll primitives senderId sender items).1
          receiver (earlier ++ [previous] ++ [ctr]) =
            ((deliver primitives senderId (encryptAll primitives senderId sender items).1 receiver
              (earlier ++ [previous])).decryptFrame primitives senderId
                (sentFrame (encryptAll primitives senderId sender items).1 ctr)).2 := by
        rw [deliver, List.foldl_append]
        rfl
      rw [done, same]
      exact after

/-- End-to-end decryption undoes encryption under loss, reordering and duplication.
A sender encrypts fewer than 2^32 frames under one new key, each at least as long
as its clear header; a receiver holding that key alone is given any followable
sequence of them. Then a frame is emitted, byte for byte as it was before
encryption, exactly when it is delivered for the first time, its counter is not
below the first one delivered, and the highest counter delivered so far is less
than 128 above it.

The deliveries are taken one by one. Each finds the entry and the window as those before it
have left them: the chain hands out the key of the counter, or the window refuses it. -/
theorem decryption_undoes_encryption (ideal : primitives.Ideal)
    (sends : sender.entriesOf senderId = [initChainEntry primitives rawKey keyId])
    (uncounted : sender.frameCounters.lookup (senderId, keyId) = none)
    (few : items.length < 4294967296) (room : ∀ item ∈ items, item.clear ≤ item.1.data.length)
    (installed : receiver.entriesOf senderId = [initChainEntry primitives rawKey keyId])
    (unused : receiver.replayWindows.lookup (senderId, keyId % 256) = none)
    (followable : Followable items.length counters) :
    ∀ earlier ctr later, counters = earlier ++ ctr :: later →
      ((deliver primitives senderId (encryptAll primitives senderId sender items).1 receiver
          earlier).decryptFrame primitives senderId
            (sentFrame (encryptAll primitives senderId sender items).1 ctr)).1 =
        if ctr ∉ earlier ∧ counters.head?.getD 0 ≤ ctr ∧ highest (earlier ++ [ctr]) < ctr + 128 then
          items[ctr - 1]?.map (fun item => item.1.data)
        else none := by
  intro earlier ctr later split
  have sending : Sending primitives senderId rawKey keyId 0 sender := by
    refine ⟨⟨_, sends, rfl, rfl, initChainEntry_belongs primitives rawKey keyId⟩, ?_⟩
    rw [uncounted]
    rfl
  exact (delivery_step ideal sending few room installed unused followable earlier ctr later split).1

end Whole

section Sample

/-- Three audio frames of one sender. -/
def sampleFrames : List Sent :=
  [({ data := [1, 2], payloadType := some 111 }, true), ({ data := [3], payloadType := some 111 }, true),
    ({ data := [4, 5, 6], payloadType := some 111 }, true)]

/-- A worker in which one sender key is installed. -/
def sampleWorker : Worker SampleKey SampleKey :=
  Worker.fresh.receive samplePrimitives (.setKey "alice" 7 9)

/-- The third frame is emitted after the second one, with the first one missing. -/
theorem decryption_undoes_encryption_sample :
    ((deliver samplePrimitives "alice" (encryptAll samplePrimitives "alice" sampleWorker
        sampleFrames).1 sampleWorker [2]).decryptFrame samplePrimitives "alice"
          (sentFrame (encryptAll samplePrimitives "alice" sampleWorker sampleFrames).1 3)).1 =
      some [4, 5, 6] := by
  have followable : Followable sampleFrames.length [2, 3, 1, 2] := by
    have sent : ∀ ctr ∈ [2, 3, 1, 2], 1 ≤ ctr ∧ ctr ≤ 3 := by decide
    refine ⟨sent, ?_, ?_⟩
    · intro ctr head
      cases head
      decide
    · intro earlier ctr later split _
      have small := (sent ctr (by rw [split]; simp)).2
      omega
  exact decryption_undoes_encryption samplePrimitives_ideal rfl rfl (by decide) (by decide) rfl rfl
    followable [2] 3 [1, 2] rfl

end Sample

end Seameet.E2ee

import Mathlib.Data.List.Nodup
import Seameet.E2ee.Worker
import Seameet.Library.Runs

/-!
# Counters and chains of one sender

The header of a frame carries the worker's frame counter of the key identifier, and
the frame's key is the next message key of a chain entry. The two are separate: a
counter is kept until the participant's keys are removed, an entry until another one
takes its identifier. Frames wait for the participant's lock with the list of entries
that was installed when they came, so an entry goes on to be used after a message has
replaced it or removed it.

Here one participant's encryptions are taken apart into the steps between which the
worker's messages are handled. An entry is an object the lists refer to; entries are
told apart by when they were made.
-/

namespace Seameet.E2ee.Lockstep

open Library

/-- A reference to a chain entry. -/
structure EntryRef where
  made : Nat
  keyId : Nat
  deriving DecidableEq, Repr

/-- An entry as it stands, with the key it was made from. -/
structure Made (Raw Chain Key : Type) where
  rawKey : Raw
  entry : ChainEntry Chain Key

/-- A frame that waits for the lock, with the entries installed when it came. -/
structure Waiting where
  frame : Frame
  isAudio : Bool
  entries : List EntryRef

/-- The frame that holds the lock. The last three fields are records: where in its
chain the entry stood, and which entries the frames before this one were encrypted
under, until the keys were last removed and since. -/
structure Sealing (Chain Key : Type) where
  ref : EntryRef
  codecHeader : List UInt8
  payload : List UInt8
  ctr : Nat
  messageKey : Key
  nextChainKeyRaw : Chain
  /-- The entry has been moved on. -/
  derived : Bool
  position : Nat
  before : List EntryRef
  since : List EntryRef

/-- A frame that was emitted, with the entry and the position of its key. -/
structure Emitted (Key : Type) where
  ref : EntryRef
  position : Nat
  messageKey : Key
  e2eeHeader : List UInt8
  output : List UInt8

/-- The counter that a receiver reads from the frame's header. -/
def Emitted.headerCtr {Key : Type} (emitted : Emitted Key) : Nat :=
  BigEndian.decode (emitted.e2eeHeader.drop headerKidLength)

/-- One participant's part of the worker. The last two fields are records: the entries
of the frames whose encryption began, until the keys were last removed and since. -/
structure Sender (Raw Chain Key : Type) where
  made : List (Made Raw Chain Key)
  installed : List EntryRef
  frameCounters : Table Nat Nat
  waiting : List Waiting
  sealing : Option (Sealing Chain Key)
  emitted : List (Emitted Key)
  before : List EntryRef
  since : List EntryRef

/-- A message whose handling ends, or a step of an encryption. -/
inductive SenderEvent (Raw : Type) where
  | setKey (keyId : Nat) (rawKey : Raw)
  | removeKeys
  | purgeOldKeys (keepKeyId : Nat)
  /-- A frame comes to be encrypted. -/
  | submit (frame : Frame) (isAudio : Bool)
  /-- The first waiting frame is given the lock, up to the derivation of its key. -/
  | start
  /-- The derivation ends and the entry is moved on. -/
  | derive
  /-- The encryption ends, with a ciphertext or with an error. -/
  | finish (succeeds : Bool)

variable {Raw Chain Key : Type} (primitives : Primitives Raw Chain Key) (participantId : String)

namespace Sender

/-- A worker without keys, and nothing that waits. -/
def fresh : Sender Raw Chain Key :=
  { made := [], installed := [], frameCounters := ∅, waiting := [], sealing := none, emitted := [],
    before := [], since := [] }

/-- A key is set: an entry is made for it and installed. -/
def setKey (sender : Sender Raw Chain Key) (keyId : Nat) (rawKey : Raw) : Sender Raw Chain Key :=
  { sender with
    made := sender.made ++ [{ rawKey, entry := initChainEntry primitives rawKey keyId }]
    installed := sender.installed.filter (fun held => held.keyId != keyId) ++
      [{ made := sender.made.length, keyId }] }

/-- All entries are taken out; a frame in hand keeps its own. -/
def removeKeys (sender : Sender Raw Chain Key) : Sender Raw Chain Key :=
  { sender with
    installed := [], frameCounters := ∅
    before := sender.before ++ sender.since, since := [] }

/-- The entries of other identifiers are taken out, once that of the kept one is there. -/
def purgeOldKeys (sender : Sender Raw Chain Key) (keepKeyId : Nat) : Sender Raw Chain Key :=
  { sender with installed := sender.installed.filter (fun held => keepKeyId ≤ held.keyId) }

/-- A frame without an installed entry is dropped, any other waits for the lock. -/
def submit (sender : Sender Raw Chain Key) (frame : Frame) (isAudio : Bool) : Sender Raw Chain Key :=
  if sender.installed.isEmpty then sender
  else { sender with
    waiting := sender.waiting ++ [{ frame, isAudio, entries := sender.installed }] }

/-- The frame takes the next counter and has its key derived. -/
def begun (sender : Sender Raw Chain Key) (job : Waiting) (rest : List Waiting) (ref : EntryRef)
    (entry : ChainEntry Chain Key) (unencryptedBytes : Nat) : Sender Raw Chain Key :=
  let ctr := (sender.frameCounters.lookup ref.keyId).getD 0 + 1
  let (messageKey, nextChainKeyRaw) := stepChain primitives entry.chainKeyRaw
  { sender with
    waiting := rest
    frameCounters := sender.frameCounters.insert ref.keyId ctr
    sealing := some {
      ref
      codecHeader := job.frame.data.take unencryptedBytes
      payload := job.frame.data.drop unencryptedBytes
      ctr, messageKey, nextChainKeyRaw
      derived := false
      position := entry.nextCtr
      before := sender.before
      since := sender.since }
    since := sender.since ++ [ref] }

/-- The frame is given the lock. The view of the clear header throws on a shorter
frame, before anything is changed. -/
def start (sender : Sender Raw Chain Key) (job : Waiting) (rest : List Waiting) (ref : EntryRef)
    (entry : ChainEntry Chain Key) : Sender Raw Chain Key :=
  let unencryptedBytes := getUnencryptedBytes job.frame.payloadType job.frame.data job.isAudio
  if job.frame.data.length < unencryptedBytes then { sender with waiting := rest }
  else sender.begun primitives job rest ref entry unencryptedBytes

/-- The entry is moved on by the step of its chain that was derived. -/
def moveOn (sealing : Sealing Chain Key) (held : Made Raw Chain Key) : Made Raw Chain Key :=
  { held with entry := { held.entry with
      chainKeyRaw := sealing.nextChainKeyRaw, nextCtr := held.entry.nextCtr + 1 } }

/-- The chain of an entry in hand goes one counter on. -/
def derive (sender : Sender Raw Chain Key) (sealing : Sealing Chain Key) : Sender Raw Chain Key :=
  { sender with
    made := sender.made.modify sealing.ref.made (moveOn sealing)
    sealing := some { sealing with derived := true } }

/-- The emitted frame. -/
def output (sealing : Sealing Chain Key) (baseSalt : List UInt8) : Emitted Key :=
  let iv := computeNonce baseSalt sealing.ctr
  let e2eeHeader := UInt8.ofNat sealing.ref.keyId :: BigEndian.encode headerCtrLength sealing.ctr
  let aad := buildAAD participantId sealing.codecHeader e2eeHeader
  let ciphertext := primitives.encrypt sealing.messageKey iv aad sealing.payload
  { ref := sealing.ref, position := sealing.position, messageKey := sealing.messageKey, e2eeHeader
    output := sealing.codecHeader ++ e2eeHeader ++ ciphertext ++
      [UInt8.ofNat sealing.codecHeader.length &&& 0x7f] }

/-- The lock is released; a frame whose encryption failed is dropped. -/
def finish (sender : Sender Raw Chain Key) (sealing : Sealing Chain Key) (baseSalt : List UInt8)
    (succeeds : Bool) : Sender Raw Chain Key :=
  { sender with
    sealing := none
    emitted := if succeeds then sender.emitted ++ [output primitives participantId sealing baseSalt]
      else sender.emitted }

/-- A frame is given the lock when it is free, and uses the last entry it came with. -/
def step (sender : Sender Raw Chain Key) : SenderEvent Raw → Option (Sender Raw Chain Key)
  | .setKey keyId rawKey => some (sender.setKey primitives keyId rawKey)
  | .removeKeys => some sender.removeKeys
  | .purgeOldKeys keepKeyId => some (sender.purgeOldKeys keepKeyId)
  | .submit frame isAudio => some (sender.submit frame isAudio)
  | .start =>
    if sender.sealing.isSome then none
    else do
      let job ← sender.waiting.head?
      let ref ← job.entries.getLast?
      let held ← sender.made[ref.made]?
      some (sender.start primitives job sender.waiting.tail ref held.entry)
  | .derive => do
    let sealing ← sender.sealing
    if sealing.derived then none else some (sender.derive sealing)
  | .finish succeeds => do
    let sealing ← sender.sealing
    let held ← sender.made[sealing.ref.made]?
    if sealing.derived then
      some (sender.finish primitives participantId sealing held.entry.baseSalt succeeds)
    else none

/-- What one step does. -/
inductive Stepped (sender : Sender Raw Chain Key) : SenderEvent Raw → Sender Raw Chain Key → Prop where
  | setKey (keyId : Nat) (rawKey : Raw) :
      Stepped sender (.setKey keyId rawKey) (sender.setKey primitives keyId rawKey)
  | removeKeys : Stepped sender .removeKeys sender.removeKeys
  | purgeOldKeys (keepKeyId : Nat) :
      Stepped sender (.purgeOldKeys keepKeyId) (sender.purgeOldKeys keepKeyId)
  | submit (frame : Frame) (isAudio : Bool) (ready : sender.installed ≠ []) :
      Stepped sender (.submit frame isAudio) { sender with
        waiting := sender.waiting ++ [{ frame, isAudio, entries := sender.installed }] }
  | dropped (frame : Frame) (isAudio : Bool) : Stepped sender (.submit frame isAudio) sender
  | short (job : Waiting) (rest : List Waiting) (first : sender.waiting = job :: rest) :
      Stepped sender .start { sender with waiting := rest }
  | begun (job : Waiting) (rest : List Waiting) (ref : EntryRef) (held : Made Raw Chain Key)
      (unencryptedBytes : Nat) (free : sender.sealing = none)
      (first : sender.waiting = job :: rest) (newest : job.entries.getLast? = some ref)
      (found : sender.made[ref.made]? = some held) :
      Stepped sender .start (sender.begun primitives job rest ref held.entry unencryptedBytes)
  | derive (sealing : Sealing Chain Key) (held : sender.sealing = some sealing)
      (underived : sealing.derived = false) : Stepped sender .derive (sender.derive sealing)
  | finish (sealing : Sealing Chain Key) (baseSalt : List UInt8) (succeeds : Bool)
      (held : sender.sealing = some sealing) (derived : sealing.derived = true) :
      Stepped sender (.finish succeeds)
        (sender.finish primitives participantId sealing baseSalt succeeds)

variable {primitives participantId} {sender after : Sender Raw Chain Key} {event : SenderEvent Raw}

/-- Every event that can happen is one of the steps. -/
theorem step_stepped (stepped : sender.step primitives participantId event = some after) :
    sender.Stepped primitives participantId event after := by
  cases event with
  | setKey keyId rawKey =>
    obtain rfl := Option.some.inj stepped
    exact .setKey keyId rawKey
  | removeKeys =>
    obtain rfl := Option.some.inj stepped
    exact .removeKeys
  | purgeOldKeys keepKeyId =>
    obtain rfl := Option.some.inj stepped
    exact .purgeOldKeys keepKeyId
  | submit frame isAudio =>
    obtain rfl := Option.some.inj stepped
    unfold submit
    split
    · exact .dropped frame isAudio
    · next ready => exact .submit frame isAudio (by simpa using ready)
  | start =>
    simp only [step, Option.bind_eq_bind] at stepped
    split at stepped
    · cases stepped
    · next free =>
      simp only [Option.bind_eq_some_iff] at stepped
      obtain ⟨job, head, ref, newest, held, found, begins⟩ := stepped
      obtain ⟨rest, first⟩ := List.head?_eq_some_iff.mp head
      obtain rfl := Option.some.inj begins
      rw [first, List.tail_cons]
      unfold start
      dsimp only
      split
      · exact .short job rest first
      · exact .begun job rest ref held _ (by simpa using free) first newest found
  | derive =>
    simp only [step, Option.bind_eq_bind, Option.bind_eq_some_iff] at stepped
    obtain ⟨sealing, held, stepped⟩ := stepped
    split at stepped
    · cases stepped
    · next underived =>
      obtain rfl := Option.some.inj stepped
      exact .derive sealing held (by simpa using underived)
  | finish succeeds =>
    simp only [step, Option.bind_eq_bind, Option.bind_eq_some_iff] at stepped
    obtain ⟨sealing, held, entry, _, stepped⟩ := stepped
    split at stepped
    · next derived =>
      obtain rfl := Option.some.inj stepped
      exact .finish sealing _ succeeds held derived
    · cases stepped

end Sender

section Heap

variable {made : List (Made Raw Chain Key)} {ref : EntryRef} {held : Made Raw Chain Key}

/-- The entry that a reference stands for. -/
def Stands (made : List (Made Raw Chain Key)) (ref : EntryRef) (held : Made Raw Chain Key) : Prop :=
  made[ref.made]? = some held ∧ held.entry.keyId = ref.keyId

/-- The reference stands for an entry that was made from this key. -/
def MadeFrom (made : List (Made Raw Chain Key)) (ref : EntryRef) (rawKey : Raw) : Prop :=
  ∃ held, Stands made ref held ∧ held.rawKey = rawKey

/-- An entry that stands was made. -/
theorem Stands.young (stands : Stands made ref held) : ref.made < made.length :=
  (List.getElem?_eq_some_iff.mp stands.1).1

/-- Two references that stand for one object are the same. -/
theorem Stands.unique {other : EntryRef} {found : Made Raw Chain Key} (stands : Stands made ref held)
    (too : Stands made other found) (same : ref.made = other.made) : ref = other := by
  obtain ⟨madeAt, keyId⟩ := ref
  obtain ⟨otherAt, otherId⟩ := other
  obtain rfl : madeAt = otherAt := same
  obtain rfl : held = found := Option.some.inj (stands.1.symm.trans too.1)
  obtain rfl : keyId = otherId := stands.2.symm.trans too.2
  rfl

/-- A new entry takes the next place and leaves the others theirs. -/
theorem stands_append (new : Made Raw Chain Key) :
    Stands (made ++ [new]) ref held ↔ Stands made ref held ∨
      ref = { made := made.length, keyId := new.entry.keyId } ∧ held = new := by
  unfold Stands
  by_cases old : ref.made < made.length
  · rw [List.getElem?_append_left old]
    constructor
    · exact .inl
    · rintro (stands | ⟨rfl, _⟩)
      · exact stands
      · exact absurd old (Nat.lt_irrefl _)
  · rw [List.getElem?_append_right (Nat.le_of_not_lt old)]
    constructor
    · rintro ⟨found, keyId⟩
      obtain ⟨place, rfl⟩ := List.getElem?_eq_some_iff.mp found
      have last : ref.made = made.length := by
        rw [List.length_singleton] at place
        omega
      obtain ⟨madeAt, refId⟩ := ref
      subst last
      simp only [Nat.sub_self, List.getElem_cons_zero] at keyId ⊢
      exact .inr ⟨by rw [keyId], trivial⟩
    · rintro (⟨found, _⟩ | ⟨rfl, rfl⟩)
      · exact absurd (List.getElem?_eq_some_iff.mp found).1 old
      · simp

/-- A change in place that keeps the identifiers. -/
theorem stands_modify {index : Nat} {change : Made Raw Chain Key → Made Raw Chain Key}
    (keeps : ∀ held, (change held).entry.keyId = held.entry.keyId) :
    Stands (made.modify index change) ref held ↔
      ∃ old, Stands made ref old ∧ held = if ref.made = index then change old else old := by
  unfold Stands
  rw [List.getElem?_modify]
  cases found : made[ref.made]? with
  | none => simp
  | some old =>
    by_cases here : ref.made = index
    · simp only [here, if_true, Option.map_eq_map, Option.map_some, Option.some.injEq]
      constructor
      · rintro ⟨rfl, keyId⟩
        exact ⟨old, ⟨rfl, by rw [← keyId, keeps]⟩, rfl⟩
      · rintro ⟨_, ⟨rfl, keyId⟩, rfl⟩
        exact ⟨rfl, by rw [keeps, keyId]⟩
    · have elsewhere : ¬ index = ref.made := fun same => here same.symm
      simp only [here, elsewhere, if_false, Option.map_eq_map, Option.map_some, Option.some.injEq]
      constructor
      · rintro ⟨rfl, keyId⟩
        exact ⟨old, ⟨rfl, keyId⟩, rfl⟩
      · rintro ⟨_, ⟨rfl, keyId⟩, rfl⟩
        exact ⟨rfl, keyId⟩

/-- An entry comes from the same key after one more was made. -/
theorem MadeFrom.append {rawKey : Raw} (origin : MadeFrom made ref rawKey) (new : Made Raw Chain Key) :
    MadeFrom (made ++ [new]) ref rawKey := by
  obtain ⟨held, stands, same⟩ := origin
  exact ⟨held, (stands_append new).mpr (.inl stands), same⟩

/-- An entry comes from the same key after a change that keeps identifiers and keys. -/
theorem MadeFrom.modify {rawKey : Raw} {index : Nat} {change : Made Raw Chain Key → Made Raw Chain Key}
    (origin : MadeFrom made ref rawKey)
    (keeps : ∀ held, (change held).entry.keyId = held.entry.keyId)
    (keepsKey : ∀ held, (change held).rawKey = held.rawKey) :
    MadeFrom (made.modify index change) ref rawKey := by
  obtain ⟨held, stands, same⟩ := origin
  refine ⟨_, (stands_modify keeps).mpr ⟨held, stands, rfl⟩, ?_⟩
  split
  · rw [keepsKey, same]
  · exact same

end Heap

section Accounts

/-- A step of the chain that the frame with the lock has derived, and the entry has not
taken yet. -/
def owed (sealing : Option (Sealing Chain Key)) (ref : EntryRef) : Nat :=
  match sealing with
  | some sealing => if sealing.derived = false ∧ sealing.ref = ref then 1 else 0
  | none => 0

/-- The frame that holds the lock was counted after the frames before it, and has the
message key of the place where its entry stood. -/
structure Sealing.Sound (made : List (Made Raw Chain Key)) (sealing : Sealing Chain Key) : Prop where
  ctr : sealing.ctr = sealing.since.countP (fun past => past.keyId = sealing.ref.keyId) + 1
  position : sealing.position = (sealing.before ++ sealing.since).count sealing.ref + 1
  key : ∃ rawKey, MadeFrom made sealing.ref rawKey ∧
    sealing.messageKey = messageKeyAt primitives rawKey sealing.ref.keyId sealing.position
  next : sealing.derived = false → ∀ held, Stands made sealing.ref held →
    held.entry.nextCtr = sealing.position ∧ sealing.nextChainKeyRaw =
      chainAt primitives held.rawKey sealing.ref.keyId sealing.position

/-- What holds of a sender in every run. A counter counts the frames of its identifier
since the keys were last removed, an entry the frames it has ever had. -/
structure Sender.Sound (sender : Sender Raw Chain Key) : Prop where
  belongs : ∀ held ∈ sender.made, held.entry.Belongs primitives held.rawKey
  installed : ∀ ref ∈ sender.installed, ∃ held, Stands sender.made ref held
  waiting : ∀ job ∈ sender.waiting, ∀ ref ∈ job.entries, ∃ held, Stands sender.made ref held
  used : ∀ ref ∈ sender.before ++ sender.since, ref.made < sender.made.length
  counters : ∀ keyId, (sender.frameCounters.lookup keyId).getD 0 =
    sender.since.countP (fun past => past.keyId = keyId)
  steps : ∀ ref held, Stands sender.made ref held →
    held.entry.nextCtr + owed sender.sealing ref = (sender.before ++ sender.since).count ref + 1
  sealing : ∀ sealing, sender.sealing = some sealing → sealing.Sound primitives sender.made
  emitted : ∀ emitted ∈ sender.emitted, ∃ rawKey, MadeFrom sender.made emitted.ref rawKey ∧
    emitted.messageKey = messageKeyAt primitives rawKey emitted.ref.keyId emitted.position

variable {primitives participantId} {sender : Sender Raw Chain Key}

/-- A worker without keys is sound. -/
theorem Sender.fresh_sound : (Sender.fresh : Sender Raw Chain Key).Sound primitives where
  belongs := by simp [fresh]
  installed := by simp [fresh]
  waiting := by simp [fresh]
  used := by simp [fresh]
  counters := by
    intro keyId
    rfl
  steps := by
    intro ref held stands
    cases stands.1
  sealing := by simp [fresh]
  emitted := by simp [fresh]

/-- An entry that is known stays known when another is made. -/
theorem known_append {made : List (Made Raw Chain Key)} {ref : EntryRef}
    (known : ∃ held, Stands made ref held) (new : Made Raw Chain Key) :
    ∃ held, Stands (made ++ [new]) ref held := by
  obtain ⟨held, stands⟩ := known
  exact ⟨held, (stands_append new).mpr (.inl stands)⟩

/-- A new entry has had no frame and is owed no step. -/
theorem Sender.Sound.unused (sound : sender.Sound primitives) (keyId : Nat) :
    (sender.before ++ sender.since).count { made := sender.made.length, keyId } = 0 ∧
      owed sender.sealing { made := sender.made.length, keyId } = 0 := by
  constructor
  · refine List.count_eq_zero.mpr fun member => ?_
    exact absurd (sound.used _ member) (Nat.lt_irrefl _)
  · unfold owed
    cases holds : sender.sealing with
    | none => rfl
    | some sealing =>
      obtain ⟨rawKey, ⟨held, stands, _⟩, _⟩ := (sound.sealing sealing holds).key
      refine if_neg ?_
      rintro ⟨_, same⟩
      have young := stands.young
      rw [same] at young
      exact absurd young (Nat.lt_irrefl _)

/-- A key that is set is sound: its entry is the last one made. -/
theorem Sender.Sound.setKey (sound : sender.Sound primitives) (keyId : Nat) (rawKey : Raw) :
    (sender.setKey primitives keyId rawKey).Sound primitives where
  belongs := by
    intro held member
    rcases List.mem_append.mp member with old | new
    · exact sound.belongs held old
    · obtain rfl := List.mem_singleton.mp new
      exact initChainEntry_belongs primitives rawKey keyId
  installed := by
    intro ref member
    rcases List.mem_append.mp member with old | new
    · exact known_append (sound.installed ref (List.mem_filter.mp old).1) _
    · obtain rfl := List.mem_singleton.mp new
      exact ⟨_, (stands_append _).mpr (.inr ⟨rfl, rfl⟩)⟩
  waiting := fun job member ref held => known_append (sound.waiting job member ref held) _
  used := by
    intro ref member
    have young := sound.used ref member
    show ref.made < (sender.made ++ [_]).length
    rw [List.length_append]
    exact Nat.lt_add_right _ young
  counters := sound.counters
  steps := by
    intro ref held stands
    rcases (stands_append _).mp stands with old | ⟨rfl, rfl⟩
    · exact sound.steps ref held old
    · obtain ⟨none, nothing⟩ := sound.unused keyId
      show 1 + owed sender.sealing { made := sender.made.length, keyId } =
        (sender.before ++ sender.since).count { made := sender.made.length, keyId } + 1
      rw [none, nothing]
  sealing := by
    intro sealing holds
    obtain ⟨ctr, position, ⟨origin, made, key⟩, next⟩ := sound.sealing sealing holds
    refine ⟨ctr, position, ⟨origin, made.append _, key⟩, ?_⟩
    intro underived held stands
    rcases (stands_append _).mp stands with old | ⟨same, _⟩
    · exact next underived held old
    · obtain ⟨_, known, _⟩ := made
      have young := known.young
      rw [same] at young
      exact absurd young (Nat.lt_irrefl _)
  emitted := by
    intro emitted member
    obtain ⟨origin, made, key⟩ := sound.emitted emitted member
    exact ⟨origin, made.append _, key⟩

/-- Without entries there is nothing to be sound. -/
theorem Sender.Sound.removeKeys (sound : sender.Sound primitives) :
    sender.removeKeys.Sound primitives where
  belongs := sound.belongs
  installed := by simp [Sender.removeKeys]
  waiting := sound.waiting
  used := by
    show ∀ ref ∈ (sender.before ++ sender.since) ++ [], ref.made < sender.made.length
    rw [List.append_nil]
    exact sound.used
  counters := by
    intro keyId
    rfl
  steps := by
    show ∀ ref held, Stands sender.made ref held → held.entry.nextCtr + owed sender.sealing ref =
      ((sender.before ++ sender.since) ++ []).count ref + 1
    rw [List.append_nil]
    exact sound.steps
  sealing := sound.sealing
  emitted := sound.emitted

/-- Fewer entries are sound as well. -/
theorem Sender.Sound.purgeOldKeys (sound : sender.Sound primitives) (keepKeyId : Nat) :
    (sender.purgeOldKeys keepKeyId).Sound primitives :=
  { sound with
    installed := fun ref member => sound.installed ref (List.mem_filter.mp member).1 }

/-- A frame that waits holds the entries that are installed now. -/
theorem Sender.Sound.submit (sound : sender.Sound primitives) (frame : Frame) (isAudio : Bool) :
    Sender.Sound primitives { sender with
      waiting := sender.waiting ++ [{ frame, isAudio, entries := sender.installed }] } :=
  { sound with
    waiting := by
      intro job member
      rcases List.mem_append.mp member with old | new
      · exact sound.waiting job old
      · obtain rfl := List.mem_singleton.mp new
        exact sound.installed }

/-- A frame too short for its clear part is dropped. -/
theorem Sender.Sound.short (sound : sender.Sound primitives) {job : Waiting} {rest : List Waiting}
    (first : sender.waiting = job :: rest) :
    Sender.Sound primitives { sender with waiting := rest } :=
  { sound with
    waiting := fun other member =>
      sound.waiting other (first ▸ List.mem_cons_of_mem job member) }

/-- A frame that is given the lock is counted, and a step of its entry is owed. -/
theorem Sender.Sound.begun (sound : sender.Sound primitives) {job : Waiting} {rest : List Waiting}
    {ref : EntryRef} {held : Made Raw Chain Key} (unencryptedBytes : Nat)
    (free : sender.sealing = none) (first : sender.waiting = job :: rest)
    (newest : job.entries.getLast? = some ref) (found : sender.made[ref.made]? = some held) :
    (sender.begun primitives job rest ref held.entry unencryptedBytes).Sound primitives := by
  obtain ⟨known, stands⟩ := sound.waiting job (first ▸ List.mem_cons_self) ref
    (List.mem_of_getLast? newest)
  obtain rfl : held = known := Option.some.inj (found.symm.trans stands.1)
  have belongs := sound.belongs held (List.mem_of_getElem? found)
  have step := stepChain_eq belongs
  have place : held.entry.nextCtr = (sender.before ++ sender.since).count ref + 1 := by
    have steps := sound.steps ref held stands
    rw [free] at steps
    exact steps
  constructor
  · exact sound.belongs
  · exact sound.installed
  · exact fun other member => sound.waiting other (first ▸ List.mem_cons_of_mem job member)
  · intro past member
    show past.made < sender.made.length
    have here : past ∈ (sender.before ++ sender.since) ++ [ref] := by
      rw [List.append_assoc]
      exact member
    rcases List.mem_append.mp here with earlier | new
    · exact sound.used past earlier
    · rw [List.mem_singleton.mp new]
      exact stands.young
  · intro keyId
    show ((sender.frameCounters.insert ref.keyId ((sender.frameCounters.lookup ref.keyId).getD 0 + 1)).lookup
      keyId).getD 0 = (sender.since ++ [ref]).countP _
    rw [Table.lookup_insert_eq, List.countP_append, List.countP_singleton, ← sound.counters]
    by_cases same : keyId = ref.keyId
    · subst same
      simp
    · have other : ¬ ref.keyId = keyId := fun equal => same equal.symm
      simp [same, other]
  · intro tested other standing
    show other.entry.nextCtr + (if false = false ∧ ref = tested then 1 else 0) =
      (sender.before ++ (sender.since ++ [ref])).count tested + 1
    have steps := sound.steps tested other standing
    rw [free] at steps
    rw [← List.append_assoc, List.count_append, List.count_singleton]
    by_cases same : ref = tested
    · subst same
      simp only [owed, Nat.add_zero] at steps
      simp [steps]
    · simp only [owed, Nat.add_zero] at steps
      simp [same, steps]
  · intro sealing holds
    obtain rfl := Option.some.inj holds
    refine ⟨?_, place, ⟨held.rawKey, ⟨held, stands, rfl⟩, ?_⟩, ?_⟩
    · show (sender.frameCounters.lookup ref.keyId).getD 0 + 1 = _
      rw [sound.counters]
    · show (stepChain primitives held.entry.chainKeyRaw).1 = _
      rw [step, stands.2]
    · intro _ other standing
      obtain rfl : held = other := Option.some.inj (stands.1.symm.trans standing.1)
      refine ⟨rfl, ?_⟩
      show (stepChain primitives held.entry.chainKeyRaw).2 = _
      rw [step, stands.2]
  · exact sound.emitted

/-- Only the entry that the frame uses is moved on. -/
theorem stands_derive {sealing : Sealing Chain Key} {ref : EntryRef} {held : Made Raw Chain Key} :
    Stands (sender.derive sealing).made ref held ↔ ∃ old, Stands sender.made ref old ∧
      held = if ref.made = sealing.ref.made then Sender.moveOn sealing old else old :=
  stands_modify (fun _ => rfl)

/-- An entry that goes one counter on comes from the same key. -/
theorem MadeFrom.derive {sealing : Sealing Chain Key} {ref : EntryRef} {rawKey : Raw}
    (origin : MadeFrom sender.made ref rawKey) : MadeFrom (sender.derive sealing).made ref rawKey :=
  origin.modify (fun _ => rfl) (fun _ => rfl)

/-- The entry takes the step it is owed. -/
theorem Sender.Sound.derive (sound : sender.Sound primitives) {sealing : Sealing Chain Key}
    (holds : sender.sealing = some sealing) (underived : sealing.derived = false) :
    (sender.derive sealing).Sound primitives := by
  obtain ⟨ctr, position, ⟨origin, ⟨used, standing, made⟩, key⟩, next⟩ := sound.sealing sealing holds
  have known : ∀ ref : EntryRef, (∃ held, Stands sender.made ref held) →
      ∃ held, Stands (sender.derive sealing).made ref held := by
    rintro ref ⟨held, stands⟩
    exact ⟨_, stands_derive.mpr ⟨held, stands, rfl⟩⟩
  have length : (sender.derive sealing).made.length = sender.made.length :=
    List.length_modify _ _ _
  constructor
  · intro held member
    obtain ⟨index, found⟩ := List.mem_iff_getElem?.mp member
    obtain ⟨ref, stands⟩ : ∃ ref, Stands (sender.derive sealing).made ref held :=
      ⟨{ made := index, keyId := held.entry.keyId }, found, rfl⟩
    obtain ⟨old, stood, rfl⟩ := stands_derive.mp stands
    have belongs := sound.belongs old (List.mem_of_getElem? stood.1)
    split
    · next here =>
      have same := stood.unique standing here
      rw [same] at stood
      obtain ⟨place, chain⟩ := next underived old stood
      refine ⟨belongs.salt, Nat.le_add_left 1 _, ?_, ?_⟩
      · show sealing.nextChainKeyRaw = chainAt primitives old.rawKey old.entry.keyId old.entry.nextCtr
        rw [place, chain, stood.2]
      · intro kept held
        obtain ⟨below, right⟩ := belongs.skipped kept held
        exact ⟨Nat.lt_succ_of_lt below, right⟩
    · exact belongs
  · exact fun ref member => known ref (sound.installed ref member)
  · exact fun job member ref held => known ref (sound.waiting job member ref held)
  · intro ref member
    rw [length]
    exact sound.used ref member
  · exact sound.counters
  · intro ref held stands
    obtain ⟨old, stood, rfl⟩ := stands_derive.mp stands
    have steps := sound.steps ref old stood
    rw [holds] at steps
    show _ + owed (some { sealing with derived := true }) ref = (sender.before ++ sender.since).count ref + 1
    simp only [owed, underived, true_and, Bool.true_eq_false, false_and, if_false] at steps ⊢
    by_cases here : ref.made = sealing.ref.made
    · rw [if_pos (stood.unique standing here).symm] at steps
      rw [if_pos here]
      exact steps
    · have other : ¬ sealing.ref = ref := fun same => here (congrArg EntryRef.made same.symm)
      rw [if_neg other] at steps
      rw [if_neg here]
      exact steps
  · intro later same
    obtain rfl := Option.some.inj same
    refine ⟨ctr, position, ⟨origin, MadeFrom.derive ⟨used, standing, made⟩, key⟩, ?_⟩
    intro impossible
    cases impossible
  · intro emitted member
    obtain ⟨origin, made, key⟩ := sound.emitted emitted member
    exact ⟨origin, made.derive, key⟩

/-- The lock is released when the entry has moved on, so no step is owed. -/
theorem Sender.Sound.finish (sound : sender.Sound primitives) {sealing : Sealing Chain Key}
    (baseSalt : List UInt8) (succeeds : Bool) (holds : sender.sealing = some sealing)
    (derived : sealing.derived = true) :
    (sender.finish primitives participantId sealing baseSalt succeeds).Sound primitives :=
  { sound with
    steps := by
      intro ref held stands
      have steps := sound.steps ref held stands
      rw [holds] at steps
      show held.entry.nextCtr + 0 = _
      simp only [owed, derived, Bool.true_eq_false, false_and, if_false] at steps
      exact steps
    sealing := by
      intro later impossible
      cases impossible
    emitted := by
      intro emitted member
      cases succeeds with
      | false => exact sound.emitted emitted member
      | true =>
        rcases List.mem_append.mp member with earlier | here
        · exact sound.emitted emitted earlier
        · obtain rfl := List.mem_singleton.mp here
          exact (sound.sealing sealing holds).key }

/-- Every step keeps the sender sound. Where an entry goes on, the frame in hand is the one it
goes on for. -/
theorem Sender.Sound.step (sound : sender.Sound primitives) {after : Sender Raw Chain Key}
    {event : SenderEvent Raw} (stepped : sender.Stepped primitives participantId event after) :
    after.Sound primitives := by
  cases stepped with
  | setKey keyId rawKey => exact sound.setKey keyId rawKey
  | removeKeys => exact sound.removeKeys
  | purgeOldKeys keepKeyId => exact sound.purgeOldKeys keepKeyId
  | submit frame isAudio ready => exact sound.submit frame isAudio
  | dropped frame isAudio => exact sound
  | short job rest first => exact sound.short first
  | begun job rest ref held unencryptedBytes free first newest found =>
    exact sound.begun unencryptedBytes free first newest found
  | derive sealing holds underived => exact sound.derive holds underived
  | finish sealing baseSalt succeeds holds derived =>
    exact sound.finish baseSalt succeeds holds derived

end Accounts

section Alignment

variable {primitives participantId} {sender after : Sender Raw Chain Key}
  {sealing : Sealing Chain Key}

/-- Every emitted frame's header names the position of its key in the chain of the
entry it was encrypted under. -/
def Sender.Aligned (primitives : Primitives Raw Chain Key) (sender : Sender Raw Chain Key) : Prop :=
  ∀ emitted ∈ sender.emitted, emitted.headerCtr = emitted.position ∧
    ∃ rawKey, MadeFrom sender.made emitted.ref rawKey ∧
      emitted.messageKey = messageKeyAt primitives rawKey emitted.ref.keyId emitted.headerCtr

/-- Before the frame with the lock, no frame was encrypted under another entry of its
identifier since the keys were last removed, and none under its own entry before. -/
def Sealing.Undisturbed (sealing : Sealing Chain Key) : Prop :=
  (∀ past ∈ sealing.since, past.keyId = sealing.ref.keyId → past = sealing.ref) ∧
    sealing.ref ∉ sealing.before

instance (sealing : Sealing Chain Key) : Decidable sealing.Undisturbed :=
  inferInstanceAs (Decidable (_ ∧ _))

/-- A frame is emitted undisturbed, and among the first frames of its entry that four
bytes can number. -/
def Sender.Undisturbed (sender : Sender Raw Chain Key) : SenderEvent Raw → Prop
  | .finish true => ∀ sealing ∈ sender.sealing,
      sealing.Undisturbed ∧ sealing.since.count sealing.ref + 1 < 4294967296
  | _ => True

instance (sender : Sender Raw Chain Key) (event : SenderEvent Raw) :
    Decidable (sender.Undisturbed event) :=
  match event with
  | .finish true => inferInstanceAs (Decidable (∀ sealing ∈ sender.sealing, _ ∧ _))
  | .finish false => isTrue trivial
  | .setKey _ _ | .removeKeys | .purgeOldKeys _ | .submit _ _ | .start | .derive => isTrue trivial

/-- The frames of an identifier are those of one entry when there is no other entry
among them. -/
theorem countP_eq_count (refs : List EntryRef) (ref : EntryRef) :
    refs.countP (fun past => past.keyId = ref.keyId) = refs.count ref ↔
      ∀ past ∈ refs, past.keyId = ref.keyId → past = ref := by
  have own : (refs.filter (fun past => past.keyId = ref.keyId)).count ref = refs.count ref :=
    List.count_filter (by simp)
  rw [List.countP_eq_length_filter, ← own, eq_comm, List.count_eq_length]
  simp only [List.mem_filter, decide_eq_true_eq, and_imp]
  constructor
  · intro alike past member same
    exact (alike past member same).symm
  · intro alike past member same
    exact (alike past member same).symm

/-- An undisturbed frame is counted where its entry stands. -/
theorem Sealing.Sound.aligned {made : List (Made Raw Chain Key)} (sound : sealing.Sound primitives made)
    (undisturbed : sealing.Undisturbed) :
    sealing.ctr = sealing.position ∧ sealing.ctr = sealing.since.count sealing.ref + 1 := by
  obtain ⟨alike, absent⟩ := undisturbed
  have counted := sound.ctr
  rw [(countP_eq_count _ _).mpr alike] at counted
  refine ⟨?_, counted⟩
  rw [counted, sound.position, List.count_append, List.count_eq_zero.mpr absent, Nat.zero_add]

/-- What is emitted stays, with the origin of its entry. -/
theorem aligned_kept (aligned : sender.Aligned primitives) (emits : after.emitted = sender.emitted)
    (kept : ∀ ref rawKey, MadeFrom sender.made ref rawKey → MadeFrom after.made ref rawKey) :
    after.Aligned primitives := by
  intro emitted member
  obtain ⟨header, rawKey, origin, key⟩ := aligned emitted (emits ▸ member)
  exact ⟨header, rawKey, kept emitted.ref rawKey origin, key⟩

/-- A frame that is emitted undisturbed carries its key's position. -/
theorem Sender.Aligned.finish (aligned : sender.Aligned primitives) (sound : sender.Sound primitives)
    (baseSalt : List UInt8) (succeeds : Bool) (holds : sender.sealing = some sealing)
    (undisturbed : succeeds = true →
      sealing.Undisturbed ∧ sealing.since.count sealing.ref + 1 < 4294967296) :
    (sender.finish primitives participantId sealing baseSalt succeeds).Aligned primitives := by
  intro emitted member
  cases succeeds with
  | false => exact aligned emitted member
  | true =>
    rcases List.mem_append.mp member with earlier | here
    · exact aligned emitted earlier
    · obtain rfl := List.mem_singleton.mp here
      obtain ⟨alone, small⟩ := undisturbed rfl
      have secure := sound.sealing sealing holds
      obtain ⟨place, counted⟩ := secure.aligned alone
      have header : (Sender.output primitives participantId sealing baseSalt).headerCtr =
          sealing.position := by
        show BigEndian.decode (BigEndian.encode 4 sealing.ctr) = sealing.position
        rw [BigEndian.decode_encode (by rw [counted]; exact small), place]
      obtain ⟨rawKey, origin, key⟩ := secure.key
      refine ⟨header, rawKey, origin, ?_⟩
      rw [header]
      exact key

/-- What one undisturbed step does to the frames emitted so far. -/
theorem Sender.Aligned.step {event : SenderEvent Raw} (aligned : sender.Aligned primitives)
    (sound : sender.Sound primitives) (undisturbed : sender.Undisturbed event)
    (stepped : sender.Stepped primitives participantId event after) : after.Aligned primitives := by
  cases stepped with
  | setKey keyId rawKey => exact aligned_kept aligned rfl (fun _ _ origin => origin.append _)
  | removeKeys => exact aligned
  | purgeOldKeys keepKeyId => exact aligned
  | submit frame isAudio ready => exact aligned
  | dropped frame isAudio => exact aligned
  | short job rest first => exact aligned
  | begun job rest ref held unencryptedBytes free first newest found => exact aligned
  | derive sealing holds underived => exact aligned_kept aligned rfl (fun _ _ origin => origin.derive)
  | finish sealing baseSalt succeeds holds derived =>
    refine aligned.finish sound baseSalt succeeds holds ?_
    rintro rfl
    exact undisturbed sealing holds

/-- In a run in which every frame is emitted undisturbed, every emitted frame's header
counter is the position of its message key in the chain of the entry used.

A sender that is undisturbed has its counters aligned with the chains of its entries. One
step of the lock takes both one further, and the message key is read off the chain before.
-/
theorem headers_aligned (primitives : Primitives Raw Chain Key) (participantId : String)
    {sender : Sender Raw Chain Key}
    (reached : Reaches (Sender.step primitives participantId) Sender.Undisturbed .fresh sender) :
    sender.Aligned primitives := by
  have kept := reached.invariant
    (fun sender => sender.Sound primitives ∧ sender.Aligned primitives)
    ⟨Sender.fresh_sound, by simp [Sender.Aligned, Sender.fresh]⟩
    (fun before event after held undisturbed stepped => by
      have taken := Sender.step_stepped stepped
      exact ⟨held.1.step taken, held.2.step held.1 undisturbed taken⟩)
  exact kept.2

/-- An audio frame that comes, is given the lock and is emitted. -/
def audioFrame : List (SenderEvent Nat) :=
  [.submit { data := [1, 2, 3], payloadType := some 111 } true, .start, .derive, .finish true]

/-- Frames under two keys, one of them waiting while the second key is set. -/
def rotation : List (SenderEvent Nat) :=
  .setKey 0 7 :: audioFrame ++
    [.submit { data := [4], payloadType := some 111 } true, .setKey 1 8, .start, .derive, .finish true] ++
    audioFrame

/-- Two frames under one key and one under the next: the counters begin anew. -/
theorem headers_aligned_rotation :
    let sender := (walk (Sender.step samplePrimitives "alice") Sender.Undisturbed .fresh rotation).getD .fresh
    sender.Aligned samplePrimitives ∧
      sender.emitted.map (fun emitted => (emitted.ref.keyId, emitted.headerCtr)) =
        [(0, 1), (0, 2), (1, 1)] :=
  ⟨headers_aligned samplePrimitives "alice" (walk_reaches_end _ _ Sender.fresh rotation (by decide +kernel)),
    by decide +kernel⟩

/-- A key identifier that is set again: the new entry starts at its first key, and the
counter goes on. -/
theorem headers_drift :
    ¬ ∀ sender, Reaches (Sender.step samplePrimitives "alice") always .fresh sender →
      sender.Aligned samplePrimitives := by
  intro aligned
  have drifted := aligned _ (walk_reaches_end (Sender.step samplePrimitives "alice") always .fresh
    (.setKey 0 7 :: audioFrame ++ .setKey 0 8 :: audioFrame) (by decide +kernel))
  have level := fun emitted member => (drifted emitted member).1
  exact absurd level (by decide +kernel)

end Alignment

section Order

variable {primitives participantId} {sender after : Sender Raw Chain Key}
  {sealing : Sealing Chain Key}

/-- The entries that the waiting frames will use. -/
def due (waiting : List Waiting) : List EntryRef :=
  waiting.filterMap (fun job => job.entries.getLast?)

/-- Of two frames of one identifier the later one uses the newer entry. -/
def Newer (earlier later : EntryRef) : Prop :=
  earlier.keyId = later.keyId → earlier.made ≤ later.made

/-- The lock is given in the order in which the frames came, and an entry that was
replaced is never installed again: the entries of an identifier are used in the order
in which they were made. -/
structure Sender.Ordered (sender : Sender Raw Chain Key) : Prop where
  distinct : (sender.installed.map EntryRef.keyId).Nodup
  made : ∀ held ∈ sender.installed, held.made < sender.made.length
  order : (sender.before ++ sender.since ++ due sender.waiting).Pairwise Newer
  latest : ∀ past ∈ sender.before ++ sender.since ++ due sender.waiting,
    past.made < sender.made.length ∧ ∀ held ∈ sender.installed, Newer past held
  sealing : ∀ sealing, sender.sealing = some sealing →
    (sealing.before ++ sealing.since ++ [sealing.ref]).Pairwise Newer

/-- A worker without keys has emitted nothing out of order. -/
theorem Sender.fresh_ordered : (Sender.fresh : Sender Raw Chain Key).Ordered := by
  constructor <;> simp [Sender.fresh, due]

/-- A key that is set emits nothing. -/
theorem Sender.Ordered.setKey (ordered : sender.Ordered) (keyId : Nat) (rawKey : Raw) :
    (sender.setKey primitives keyId rawKey).Ordered := by
  have length : (sender.setKey primitives keyId rawKey).made.length = sender.made.length + 1 := by
    simp [Sender.setKey]
  refine ⟨?_, ?_, ordered.order, ?_, ordered.sealing⟩
  · show ((sender.installed.filter _ ++ [_]).map EntryRef.keyId).Nodup
    rw [List.map_append]
    refine List.nodup_append.mpr
      ⟨ordered.distinct.sublist (List.filter_sublist.map _), List.nodup_singleton _, ?_⟩
    intro one member other here same
    obtain ⟨held, there, rfl⟩ := List.mem_map.mp member
    obtain rfl := List.mem_singleton.mp here
    have apart := (List.mem_filter.mp there).2
    rw [same] at apart
    simp at apart
  · intro held member
    rw [length]
    rcases List.mem_append.mp member with old | new
    · exact Nat.lt_succ_of_lt (ordered.made held (List.mem_filter.mp old).1)
    · obtain rfl := List.mem_singleton.mp new
      exact Nat.lt_succ_self _
  · intro past member
    obtain ⟨young, newer⟩ := ordered.latest past member
    rw [length]
    refine ⟨Nat.lt_succ_of_lt young, ?_⟩
    intro held there
    rcases List.mem_append.mp there with old | new
    · exact newer held (List.mem_filter.mp old).1
    · obtain rfl := List.mem_singleton.mp new
      exact fun _ => Nat.le_of_lt young

/-- Keys that are removed emit nothing. -/
theorem Sender.Ordered.removeKeys (ordered : sender.Ordered) : sender.removeKeys.Ordered := by
  have same : sender.removeKeys.before ++ sender.removeKeys.since = sender.before ++ sender.since :=
    List.append_nil _
  refine ⟨List.nodup_nil, nofun, ?_, ?_, ordered.sealing⟩
  · rw [same]
    exact ordered.order
  · rw [same]
    exact fun past member => ⟨(ordered.latest past member).1, nofun⟩

/-- Keys that are purged emit nothing. -/
theorem Sender.Ordered.purgeOldKeys (ordered : sender.Ordered) (keepKeyId : Nat) :
    (sender.purgeOldKeys keepKeyId).Ordered where
  distinct := ordered.distinct.sublist (List.filter_sublist.map _)
  made := fun held member => ordered.made held (List.mem_filter.mp member).1
  order := ordered.order
  latest := by
    intro past member
    obtain ⟨young, newer⟩ := ordered.latest past member
    exact ⟨young, fun held there => newer held (List.mem_filter.mp there).1⟩
  sealing := ordered.sealing

/-- A frame waits with the newest entry of its identifier. -/
theorem Sender.Ordered.submit (ordered : sender.Ordered) (frame : Frame) (isAudio : Bool)
    (ready : sender.installed ≠ []) :
    Sender.Ordered { sender with
      waiting := sender.waiting ++ [{ frame, isAudio, entries := sender.installed }] } := by
  obtain ⟨last, newest⟩ := List.getLast?_isSome.mpr ready |> Option.isSome_iff_exists.mp
  have installed := List.mem_of_getLast? newest
  have more : sender.before ++ sender.since ++
      due (sender.waiting ++ [{ frame, isAudio, entries := sender.installed }]) =
        (sender.before ++ sender.since ++ due sender.waiting) ++ [last] := by
    simp [due, newest]
  refine ⟨ordered.distinct, ordered.made, ?_, ?_, ordered.sealing⟩
  · rw [more]
    refine List.pairwise_append.mpr ⟨ordered.order, List.pairwise_singleton _ _, ?_⟩
    intro past member new here
    obtain rfl := List.mem_singleton.mp here
    exact (ordered.latest past member).2 new installed
  · rw [more]
    intro past member
    rcases List.mem_append.mp member with earlier | new
    · exact ordered.latest past earlier
    · obtain rfl := List.mem_singleton.mp new
      refine ⟨ordered.made past installed, ?_⟩
      intro held there same
      rw [List.inj_on_of_nodup_map ordered.distinct installed there same]

/-- Nor does a frame that is dropped. -/
theorem Sender.Ordered.short (ordered : sender.Ordered) {job : Waiting} {rest : List Waiting}
    (first : sender.waiting = job :: rest) : Sender.Ordered { sender with waiting := rest } := by
  have fewer : (due rest).Sublist (due sender.waiting) := by
    rw [first]
    exact (List.sublist_cons_self job rest).filterMap _
  have within := (List.Sublist.refl (sender.before ++ sender.since)).append fewer
  exact ⟨ordered.distinct, ordered.made, ordered.order.sublist within,
    fun past member => ordered.latest past (within.subset member), ordered.sealing⟩

/-- A frame that is given the lock goes from the waiting ones to those that began. -/
theorem Sender.Ordered.begun (ordered : sender.Ordered) {job : Waiting} {rest : List Waiting}
    {ref : EntryRef} {entry : ChainEntry Chain Key} (unencryptedBytes : Nat)
    (first : sender.waiting = job :: rest) (newest : job.entries.getLast? = some ref) :
    (sender.begun primitives job rest ref entry unencryptedBytes).Ordered := by
  have moved : sender.before ++ (sender.since ++ [ref]) ++ due rest =
      sender.before ++ sender.since ++ due sender.waiting := by
    simp [first, due, newest]
  refine ⟨ordered.distinct, ordered.made, ?_, ?_, ?_⟩
  · show (sender.before ++ (sender.since ++ [ref]) ++ due rest).Pairwise Newer
    rw [moved]
    exact ordered.order
  · show ∀ past ∈ sender.before ++ (sender.since ++ [ref]) ++ due rest, _
    rw [moved]
    exact ordered.latest
  · intro sealing holds
    obtain rfl := Option.some.inj holds
    have whole := ordered.order
    rw [← moved] at whole
    rw [List.append_assoc]
    exact (List.pairwise_append.mp whole).1

/-- A chain that goes on for the frame in hand keeps the order. -/
theorem Sender.Ordered.derive (ordered : sender.Ordered) (holds : sender.sealing = some sealing) :
    (sender.derive sealing).Ordered := by
  have length : (sender.derive sealing).made.length = sender.made.length :=
    List.length_modify _ _ _
  refine ⟨ordered.distinct, ?_, ordered.order, ?_, ?_⟩
  · rw [length]
    exact ordered.made
  · rw [length]
    exact ordered.latest
  · intro later same
    obtain rfl := Option.some.inj same
    exact ordered.sealing sealing holds

/-- Every step keeps the frames that were emitted in order. -/
theorem Sender.Ordered.step {event : SenderEvent Raw} (ordered : sender.Ordered)
    (stepped : sender.Stepped primitives participantId event after) : after.Ordered := by
  cases stepped with
  | setKey keyId rawKey => exact ordered.setKey keyId rawKey
  | removeKeys => exact ordered.removeKeys
  | purgeOldKeys keepKeyId => exact ordered.purgeOldKeys keepKeyId
  | submit frame isAudio ready => exact ordered.submit frame isAudio ready
  | dropped frame isAudio => exact ordered
  | short job rest first => exact ordered.short first
  | begun job rest ref held unencryptedBytes free first newest found =>
    exact ordered.begun unencryptedBytes first newest
  | derive sealing holds underived => exact ordered.derive holds
  | finish sealing baseSalt succeeds holds derived =>
    refine ⟨ordered.distinct, ordered.made, ordered.order, ordered.latest, ?_⟩
    intro later impossible
    cases impossible

/-- A disturbed frame's counter is not its position: the frames of other entries that
its counter has counted, and the frames of its own entry that it has not, are never
both there. -/
theorem Sealing.Sound.undisturbed_iff {made : List (Made Raw Chain Key)}
    (sound : sealing.Sound primitives made)
    (order : (sealing.before ++ sealing.since ++ [sealing.ref]).Pairwise Newer) :
    sealing.ctr = sealing.position ↔ sealing.Undisturbed := by
  constructor
  · intro level
    rw [sound.ctr, sound.position, List.count_append] at level
    obtain ⟨past, _, beforeRef⟩ := List.pairwise_append.mp order
    have crossed := (List.pairwise_append.mp past).2.2
    by_contra disturbed
    have others : ¬ ∀ past ∈ sealing.since, past.keyId = sealing.ref.keyId → past = sealing.ref := by
      intro alike
      rw [(countP_eq_count _ _).mpr alike] at level
      exact disturbed ⟨alike, List.count_eq_zero.mp (by omega)⟩
    have earlier : sealing.ref ∈ sealing.before := by
      by_contra absent
      rw [List.count_eq_zero.mpr absent] at level
      exact others ((countP_eq_count _ _).mp (by omega))
    push Not at others
    obtain ⟨other, member, same, apart⟩ := others
    -- The own entry was used before the other one, and the other one before it.
    have up := crossed sealing.ref earlier other member same.symm
    have down := beforeRef other (List.mem_append_right _ member) sealing.ref
      (List.mem_singleton_self _) same
    obtain ⟨otherMade, otherId⟩ := other
    refine apart ?_
    rw [EntryRef.mk.injEq]
    exact ⟨Nat.le_antisymm down up, same⟩
  · exact fun undisturbed => (sound.aligned undisturbed).1

/-- In any run, the counter of the frame that holds the lock is the position of its key
exactly when the frame is undisturbed. -/
theorem counter_level_iff (primitives : Primitives Raw Chain Key) (participantId : String)
    (reached : Reaches (Sender.step primitives participantId) always .fresh sender)
    (holds : sender.sealing = some sealing) :
    sealing.ctr = sealing.position ↔ sealing.Undisturbed := by
  have kept := reached.invariant (fun sender => sender.Sound primitives ∧ sender.Ordered)
    ⟨Sender.fresh_sound, Sender.fresh_ordered⟩
    (fun before event after held _ stepped => by
      have taken := Sender.step_stepped stepped
      exact ⟨held.1.step taken, held.2.step taken⟩)
  exact (kept.1.sealing sealing holds).undisturbed_iff (kept.2.sealing sealing holds)

end Order

section Whole

variable {primitives participantId} {sender : Sender Raw Chain Key} {worker : Worker Chain Key}

/-- The sender's part of a worker that handles one thing after the other. -/
structure Sender.Shows (participantId : String) (sender : Sender Raw Chain Key)
    (worker : Worker Chain Key) : Prop where
  entries : List.Forall₂ (fun ref entry => ∃ held, Stands sender.made ref held ∧ held.entry = entry)
    sender.installed (worker.entriesOf participantId)
  counters : ∀ keyId, worker.frameCounters.lookup (participantId, keyId) =
    sender.frameCounters.lookup keyId

/-- The last entry of the one is the last of the other. The induction is on the
installed entries. -/
theorem newest_shown {made : List (Made Raw Chain Key)} {refs : List EntryRef}
    {entries : List (ChainEntry Chain Key)} {entry : ChainEntry Chain Key}
    (shown : List.Forall₂ (fun ref entry => ∃ held, Stands made ref held ∧ held.entry = entry)
      refs entries)
    (newest : entries.getLast? = some entry) :
    ∃ ref held, refs.getLast? = some ref ∧ Stands made ref held ∧ held.entry = entry := by
  induction shown with
  | nil => cases newest
  | @cons ref first refs entries head tail inductionHypothesis =>
    cases tail with
    | nil =>
      obtain ⟨held, stands, same⟩ := head
      obtain rfl := Option.some.inj newest
      exact ⟨ref, held, rfl, stands, same⟩
    | cons next rest =>
      rw [List.getLast?_cons_cons] at newest ⊢
      exact inductionHypothesis newest

/-- Moving one entry on is replacing it in the worker's list, where no other entry has
its identifier. -/
theorem shown_derive (sender : Sender Raw Chain Key) (sealing : Sealing Chain Key)
    {entries : List (ChainEntry Chain Key)} {held : Made Raw Chain Key}
    (stands : Stands sender.made sealing.ref held)
    (alone : ∀ ref ∈ sender.installed, ref.keyId = sealing.ref.keyId → ref = sealing.ref)
    (shown : List.Forall₂ (fun ref entry => ∃ held, Stands sender.made ref held ∧ held.entry = entry)
      sender.installed entries) :
    List.Forall₂ (fun ref entry => ∃ held, Stands (sender.derive sealing).made ref held ∧
      held.entry = entry) sender.installed (entries.map (fun entry =>
        if entry.keyId = sealing.ref.keyId then (Sender.moveOn sealing held).entry else entry)) := by
  rw [List.forall₂_map_right_iff]
  refine ((List.forall₂_and_left _ _).mpr ⟨alone, shown⟩).imp ?_
  rintro ref entry ⟨same, other, standing, rfl⟩
  refine ⟨_, stands_derive.mpr ⟨other, standing, rfl⟩, ?_⟩
  by_cases own : ref.keyId = sealing.ref.keyId
  · obtain rfl := same own
    obtain rfl : held = other := Option.some.inj (stands.1.symm.trans standing.1)
    rw [if_pos rfl, if_pos stands.2]
  · have apart : ¬ ref.made = sealing.ref.made := by
      intro place
      exact own (congrArg EntryRef.keyId (standing.unique stands place))
    rw [if_neg apart, if_neg (by rw [standing.2]; exact own)]

/-- A frame that is encrypted without anything in between is encrypted as the worker
that handles one thing after the other does it. -/
theorem Sender.Shows.encryptFrame (shows : sender.Shows participantId worker)
    (distinct : (sender.installed.map EntryRef.keyId).Nodup) (idle : sender.waiting = [])
    (free : sender.sealing = none) {frame : Frame} {isAudio : Bool} {encrypted : Encrypted Key}
    (emits : (worker.encryptFrame primitives frame participantId isAudio).1 = some encrypted) :
    ∃ after emitted, walk (Sender.step primitives participantId) always sender
        [.submit frame isAudio, .start, .derive, .finish true] = some after ∧
      after.Shows participantId (worker.encryptFrame primitives frame participantId isAudio).2 ∧
      after.emitted = sender.emitted ++ [emitted] ∧ emitted.output = encrypted.output ∧
      emitted.messageKey = encrypted.messageKey := by
  have outcome := Worker.encryptFrame_outcome primitives worker frame participantId isAudio
  generalize worker.encryptFrame primitives frame participantId isAudio = result at outcome emits ⊢
  cases outcome with
  | notReady missing => cases emits
  | short under => cases emits
  | encrypted entry codecHeader payload aad newest room cut bound =>
    obtain ⟨rfl, rfl⟩ := cut
    obtain rfl := Option.some.inj emits
    obtain ⟨ref, held, last, stands, rfl⟩ := newest_shown shows.entries newest
    have ready : sender.installed ≠ [] := by
      intro empty
      rw [empty] at last
      cases last
    -- The four states, each with the step that leads to it.
    let unencryptedBytes := getUnencryptedBytes frame.payloadType frame.data isAudio
    let job : Waiting := { frame, isAudio, entries := sender.installed }
    let submitted := { sender with waiting := [job] }
    let began := submitted.begun primitives job [] ref held.entry unencryptedBytes
    have submits : sender.step primitives participantId (.submit frame isAudio) = some submitted := by
      simp [Sender.step, Sender.submit, ready, idle, submitted, job]
    have begins : submitted.step primitives participantId .start = some began := by
      simp [Sender.step, Sender.start, submitted, free, job, last, stands.1, began, unencryptedBytes,
        Nat.not_lt_of_le room]
    let sealing : Sealing Chain Key := {
      ref
      codecHeader := frame.data.take unencryptedBytes
      payload := frame.data.drop unencryptedBytes
      ctr := (sender.frameCounters.lookup ref.keyId).getD 0 + 1
      messageKey := primitives.deriveMessage held.entry.chainKeyRaw
      nextChainKeyRaw := primitives.deriveNext held.entry.chainKeyRaw
      derived := false
      position := held.entry.nextCtr
      before := sender.before
      since := sender.since }
    let derived := began.derive sealing
    let done := { sealing with derived := true }
    have derives : began.step primitives participantId .derive = some derived := rfl
    have moved : Stands derived.made ref (Sender.moveOn sealing held) :=
      stands_derive.mpr ⟨held, stands, (if_pos rfl).symm⟩
    have finishes : derived.step primitives participantId (.finish true) =
        some (derived.finish primitives participantId done held.entry.baseSalt true) := by
      have holds : derived.sealing = some done := rfl
      simp only [Sender.step, holds, Option.bind_eq_bind, Option.bind_some]
      rw [show done.ref = ref from rfl, moved.1]
      rfl
    have counted : sealing.ctr = worker.nextCounter participantId held.entry := by
      show (sender.frameCounters.lookup ref.keyId).getD 0 + 1 = _
      rw [Worker.nextCounter, stands.2, shows.counters]
    refine ⟨derived.finish primitives participantId done held.entry.baseSalt true,
      Sender.output primitives participantId done held.entry.baseSalt, ?_, ⟨?_, ?_⟩, rfl, ?_, rfl⟩
    · rw [walk_cons _ _ _ trivial submits, walk_cons _ _ _ trivial begins,
        walk_cons _ _ _ trivial derives, walk_cons _ _ _ trivial finishes]
      rfl
    · have alone : ∀ other ∈ sender.installed, other.keyId = ref.keyId → other = ref :=
        fun other member same =>
          List.inj_on_of_nodup_map distinct member (List.mem_of_getLast? last) same
      have shown := shown_derive began sealing stands alone shows.entries
      rw [Worker.entriesOf_advanced, if_pos rfl, stands.2]
      exact shown
    · intro keyId
      rw [Worker.frameCounters_advanced, ← counted, stands.2, shows.counters]
      show _ = (sender.frameCounters.insert ref.keyId sealing.ctr).lookup keyId
      rw [Table.lookup_insert_eq]
      simp
    · have length : (frame.data.take unencryptedBytes).length = unencryptedBytes :=
        List.length_take_of_le room
      rw [bound, ← counted, stands.2]
      simp only [Sender.output, done, sealing, length, List.append_assoc]
      rfl

end Whole

end Seameet.E2ee.Lockstep

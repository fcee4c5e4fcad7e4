import Seameet.E2ee.Renewal

/-!
# One key generation after the other

A sender's generations are numbered from zero, and a receiver keeps them all. On
the wire a frame carries the low eight bits of its generation, and the receiver
takes the oldest entry that has them. The first 256 generations are told apart in
this way; every later one is taken for one of them.

The invariant lists the entries by generation. It says besides that the windows of
generations still to come are untouched, and that an entry an older one hides has
never been asked for a key.
-/

namespace Seameet.E2ee

open Library

section Peer

variable {Raw Chain Key : Type} (primitives : Primitives Raw Chain Key) (senderId : String)

/-- A receiver with the sender's keys it has been given so far. A key's generation is
its place in the list. -/
structure Peer (Raw Chain Key : Type) where
  worker : Worker Chain Key
  generations : List Raw

/-- A new generation, or something else at the receiver. -/
inductive PeerEvent (Raw : Type) where
  | ratchets (rawKey : Raw)
  | other (event : WorkerEvent Raw)

/-- One event of a peer: the sender's key it is handed, or whatever else its worker gets. -/
def Peer.step (peer : Peer Raw Chain Key) : PeerEvent Raw → Option (Peer Raw Chain Key)
  | .ratchets rawKey => some {
      worker := peer.worker.receive primitives
        (.setKey senderId peer.generations.length rawKey)
      generations := peer.generations ++ [rawKey] }
  | .other event => (peer.worker.step primitives event).map (fun worker => { peer with worker })

/-- The sender's keys come as new generations only. While one is current, any frames
may come. -/
def Ratcheting (_ : Peer Raw Chain Key) : PeerEvent Raw → Prop
  | .ratchets _ => True
  | .other event => Elsewhere senderId event

/-- The keys of the generations, under their numbers. -/
def Numbered (generations : List Raw) (rawKey : Raw) (generation : Nat) : Prop :=
  generations[generation]? = some rawKey

/-- The receiver's entries are the generations in order. The windows of later
generations are untouched, and so are the entries that an older one hides. -/
structure Peer.Lined (peer : Peer Raw Chain Key) : Prop where
  sound : Sound primitives (Numbered peer.generations) senderId peer.worker
  identifiers : (peer.worker.entriesOf senderId).map ChainEntry.keyId =
    List.range peer.generations.length
  unheard : ∀ kid, peer.generations.length ≤ kid →
    peer.worker.replayWindows.lookup (senderId, kid) = none
  hidden : ∀ entry ∈ peer.worker.entriesOf senderId, 256 ≤ entry.keyId →
    entry.skippedKeys.entries = []

variable {primitives} {senderId} {keys more : Raw → Nat → Prop} {peer after : Peer Raw Chain Key}
  {worker : Worker Chain Key} {entry : ChainEntry Chain Key}

/-- What is sound for some keys is sound for more. -/
theorem Sound.mono (sound : Sound primitives keys senderId worker)
    (grows : ∀ rawKey keyId, keys rawKey keyId → more rawKey keyId) :
    Sound primitives more senderId worker := by
  refine ⟨sound.distinct, ?_, sound.behind⟩
  intro entry member
  obtain ⟨rawKey, known, belongs⟩ := sound.belongs entry member
  exact ⟨rawKey, grows rawKey entry.keyId known, belongs⟩

/-- An entry's identifier is its generation. -/
theorem Peer.Lined.generation_lt (lined : peer.Lined primitives senderId)
    (member : entry ∈ peer.worker.entriesOf senderId) : entry.keyId < peer.generations.length := by
  have place := List.mem_map_of_mem (f := ChainEntry.keyId) member
  rw [lined.identifiers] at place
  exact List.mem_range.mp place

/-- Among generations in order, one with a number of more than eight bits is never
the first that has its low bits. -/
theorem find_hidden {entries : List (ChainEntry Chain Key)} {count kid : Nat}
    (identifiers : entries.map ChainEntry.keyId = List.range count) (late : 256 ≤ entry.keyId) :
    entries.find? (fun held => held.keyId % 256 == kid) ≠ some entry := by
  intro found
  obtain ⟨named, older, newer, rfl, first⟩ := List.find?_eq_some_iff_append.mp found
  have low : entry.keyId % 256 = kid := by simpa using named
  have place : entry.keyId = older.length := by
    have here : ((older ++ entry :: newer).map ChainEntry.keyId)[older.length]? =
        some entry.keyId := by simp
    rw [identifiers, List.getElem?_range] at here
    · exact (Option.some.inj here).symm
    · have length := congrArg List.length identifiers
      rw [List.length_map, List.length_append, List.length_cons, List.length_range] at length
      omega
  have early : kid ∈ older.map ChainEntry.keyId := by
    have part : older.map ChainEntry.keyId = (List.range count).take older.length := by
      rw [← identifiers, List.map_append, List.take_left' (List.length_map ..)]
    rw [part, List.take_range, List.mem_range]
    have length := congrArg List.length identifiers
    rw [List.length_map, List.length_append, List.length_cons, List.length_range] at length
    omega
  obtain ⟨held, member, same⟩ := List.mem_map.mp early
  have unnamed := first held member
  rw [same, ← low] at unnamed
  simp at unnamed

/-- A hidden entry is not touched by any frame. -/
theorem Peer.Lined.idle (lined : peer.Lined primitives senderId)
    (member : entry ∈ peer.worker.entriesOf senderId) (late : 256 ≤ entry.keyId)
    (data : List UInt8) : peer.worker.Idle senderId data entry :=
  ⟨lined.hidden entry member late, fun _ _ => find_hidden lined.identifiers late⟩

/-- A new generation is listed behind the earlier ones. -/
theorem Peer.Lined.ratchets (lined : peer.Lined primitives senderId) (rawKey : Raw) :
    Peer.Lined primitives senderId {
      worker := peer.worker.receive primitives
        (.setKey senderId peer.generations.length rawKey)
      generations := peer.generations ++ [rawKey] } := by
  have entries := peer.worker.entriesOf_receive primitives
    (.setKey senderId peer.generations.length rawKey) senderId
  dsimp only at entries
  rw [if_pos rfl, List.filter_eq_self.mpr ?_] at entries
  · have sound : Sound primitives (Numbered (peer.generations ++ [rawKey])) senderId peer.worker := by
      apply lined.sound.mono
      intro earlier generation known
      exact (List.getElem?_append_left (List.getElem?_eq_some_iff.mp known).1).trans known
    have known : Receives (Numbered (peer.generations ++ [rawKey])) senderId peer.worker
        (.message (.setKey senderId peer.generations.length rawKey)) :=
      fun _ => List.getElem?_concat_length
    refine ⟨receive_sound sound _ known, ?_, ?_, ?_⟩
    · rw [entries, List.map_append, lined.identifiers, List.length_append, List.length_singleton,
        List.range_succ]
      rfl
    · intro kid above
      rw [List.length_append, List.length_singleton] at above
      exact lined.unheard kid (by omega)
    · intro entry member late
      rw [entries] at member
      rcases List.mem_append.mp member with old | new
      · exact lined.hidden entry old late
      · rw [List.mem_singleton.mp new]
        rfl
  · intro entry member
    have below := lined.generation_lt member
    simpa using Nat.ne_of_lt below

/-- Other events keep the generations listed. -/
theorem Peer.Lined.other (lined : peer.Lined primitives senderId) {event : WorkerEvent Raw}
    (elsewhere : Elsewhere senderId event)
    (stepped : peer.worker.step primitives event = some worker) :
    Peer.Lined primitives senderId { peer with worker } := by
  have sound : Sound primitives (Numbered peer.generations) senderId worker := by
    refine step_sound peer.worker event worker lined.sound ?_ stepped
    cases event with
    | message message =>
      cases message with
      | setKey participantId identifier other => exact fun here => absurd here elsewhere
      | removeKeys participantId => trivial
      | purgeOldKeys participantId keepKeyId => trivial
    | encrypts frame participantId isAudio => exact elsewhere
    | decrypts other data => trivial
  by_cases frame : ∃ data, event = .decrypts senderId data
  · obtain ⟨data, rfl⟩ := frame
    obtain rfl := Option.some.inj stepped
    have identifiers := decryptFrame_keyIds lined.sound data
    refine ⟨sound, identifiers.trans lined.identifiers, ?_, ?_⟩
    · intro kid above
      have later : peer.generations.length ≤ kid := above
      rw [← lined.unheard kid later]
      apply decryptFrame_window
      intro entry member served
      have below := lined.generation_lt member
      omega
    · intro entry member late
      have named := List.mem_map_of_mem (f := ChainEntry.keyId) member
      rw [identifiers] at named
      obtain ⟨old, place, same⟩ := List.mem_map.mp named
      have stays := decryptFrame_member lined.sound place
        (lined.idle place (by rw [same]; exact late) data)
      rw [← sound.same_entry stays member same]
      exact lined.hidden old place (by rw [same]; exact late)
  · obtain ⟨entries, windows⟩ :=
      elsewhere_frame elsewhere (fun data same => frame ⟨data, same⟩) stepped
    refine ⟨sound, by rw [entries]; exact lined.identifiers, ?_, ?_⟩
    · intro kid above
      rw [windows]
      exact lined.unheard kid above
    · intro entry member
      rw [entries] at member
      exact lined.hidden entry member

/-- A receiver without entries and windows of the sender has no generations to list. -/
theorem Peer.lined_blank (blank : worker.entriesOf senderId = [])
    (unheard : ∀ kid, worker.replayWindows.lookup (senderId, kid) = none) :
    Peer.Lined primitives senderId { worker, generations := [] } := by
  have absent : ∀ entry, entry ∉ worker.entriesOf senderId := by
    intro entry
    rw [blank]
    exact List.not_mem_nil
  refine ⟨⟨?_, fun entry member => absurd member (absent entry),
    fun entry member => absurd member (absent entry)⟩, ?_, fun kid _ => unheard kid,
    fun entry member => absurd member (absent entry)⟩
  · rw [blank]
    exact List.nodup_nil
  · rw [blank]
    rfl

/-- The generations are listed in every reached receiver. -/
theorem Peer.reached_lined (blank : worker.entriesOf senderId = [])
    (unheard : ∀ kid, worker.replayWindows.lookup (senderId, kid) = none)
    (reached : Reaches (Peer.step primitives senderId) (Ratcheting senderId)
      { worker, generations := [] } peer) : peer.Lined primitives senderId := by
  refine Reaches.invariant (Peer.Lined primitives senderId) (Peer.lined_blank blank unheard) ?_ reached
  intro before event after lined admits stepped
  cases event with
  | ratchets rawKey =>
    obtain rfl := Option.some.inj stepped
    exact lined.ratchets rawKey
  | other event =>
    obtain ⟨worker, moved, rfl⟩ := Option.map_eq_some_iff.mp stepped
    exact lined.other admits moved

end Peer

section Latest

variable {Raw Chain Key : Type} (primitives : Primitives Raw Chain Key)

/-- The new generation's frames open under no earlier generation's key: the keys are
independent of each other. -/
def Independent (senderId : String) (generations : List Raw) (rawKey : Raw)
    (arrivals : List (Arrival Raw)) : Prop :=
  ∀ generation earlier, generations[generation]? = some earlier → ∀ item, .inl item ∈ arrivals →
    ∀ ctr, 0 < ctr → ctr ≤ encryptable arrivals →
      primitives.decrypt (messageKeyAt primitives earlier generation ctr)
        (computeNonce (primitives.deriveSalt earlier generation) ctr)
        (buildAAD senderId (item.1.data.take item.clear) (e2eeHeaderOf generations.length ctr))
        (sealed primitives senderId rawKey generations.length ctr (item.1.data.take item.clear)
          (item.1.data.drop item.clear)) = none

variable {primitives} {senderId : String} {rawKey : Raw} {peer : Peer Raw Chain Key}
  {generations : List Raw} {worker : Worker Chain Key}

/-- An entry other than the newest one belongs to an earlier generation's key. -/
theorem earlier_key (lined : Peer.Lined primitives senderId
      { worker, generations := generations ++ [rawKey] })
    {entry : ChainEntry Chain Key} (member : entry ∈ worker.entriesOf senderId)
    (asked : entry.keyId ≠ generations.length) :
    ∃ earlier, generations[entry.keyId]? = some earlier ∧ entry.Belongs primitives earlier := by
  obtain ⟨earlier, known, belongs⟩ := lined.sound.belongs entry member
  have below := lined.generation_lt member
  rw [List.length_append, List.length_singleton] at below
  refine ⟨earlier, ?_, belongs⟩
  rw [← List.getElem?_append_left (by omega : entry.keyId < generations.length)]
  exact known

/-- A frame that opens under no earlier key is not emitted when its own generation
is hidden. -/
theorem hidden_frame (lined : Peer.Lined primitives senderId
      { worker, generations := generations ++ [rawKey] }) (many : 256 ≤ generations.length)
    {data : List UInt8} {wire : WireFrame} (read : Worker.readFrame data = some wire)
    (closed : ∀ generation earlier, generations[generation]? = some earlier →
      Worker.openFrame primitives senderId wire (primitives.deriveSalt earlier generation)
        (messageKeyAt primitives earlier generation wire.ctr) = none) :
    (worker.decryptFrame primitives senderId data).1 = none := by
  have late : ∀ {entry : ChainEntry Chain Key}, entry.keyId = generations.length →
      256 ≤ entry.keyId := by
    intro entry same
    omega
  have skipped : ∀ {start : Worker Chain Key} {tried : List (ChainEntry Chain Key)}
      {result : Option (List UInt8) × Worker Chain Key},
      (∀ entry ∈ tried, entry ∈ worker.entriesOf senderId) →
      Worker.FallbackOutcome primitives start senderId wire tried result → result.1 = none := by
    intro start tried result installed outcome
    cases outcome with
    | dropped => rfl
    | opened entry cached plaintext place below kept opens =>
      have member := installed entry place
      have asked : entry.keyId ≠ generations.length := by
        intro same
        rw [skipped_lookup_none (lined.hidden entry member (late same))] at kept
        cases kept
      obtain ⟨earlier, known, belongs⟩ := earlier_key lined member asked
      have key := (belongs.skipped _ (Ordered.lookup_eq_some.mp kept)).2
      dsimp only at key
      rw [belongs.salt, key, closed _ earlier known] at opens
      cases opens
  have outcome := worker.decryptFrame_outcome primitives senderId data
  generalize worker.decryptFrame primitives senderId data = result at outcome
  cases outcome with
  | keyless missing => rfl
  | malformed unread => rfl
  | refused frame entry again found refuses => rfl
  | withheld frame entry window again found accepts none_given => rfl
  | opened frame entry window messageKey plaintext again found accepts given opens =>
    obtain rfl : wire = frame := Option.some.inj (read.symm.trans again)
    have member := (found_entry found).1
    have asked : entry.keyId ≠ generations.length :=
      fun same => find_hidden lined.identifiers (late same) found
    obtain ⟨earlier, known, belongs⟩ := earlier_key lined member asked
    rw [belongs.salt, given_key belongs given, closed _ earlier known] at opens
    cases opens
  | fellBack frame entry window messageKey result again found accepts given sealed fallback =>
    obtain rfl : wire = frame := Option.some.inj (read.symm.trans again)
    exact skipped (fun other place => (List.mem_filter.mp (List.mem_reverse.mp place)).1) fallback
  | unmatched frame result again missing fallback =>
    obtain rfl : wire = frame := Option.some.inj (read.symm.trans again)
    exact skipped (fun other place => List.mem_reverse.mp place) fallback

/-- A hidden generation's first frame is dropped. The induction is on what arrives
before it. -/
theorem hidden_generation (ideal : primitives.Ideal) (arrivals : List (Arrival Raw))
    {sender : Worker Chain Key}
    (encrypting : Encrypting primitives senderId rawKey generations.length 0 sender)
    (lined : Peer.Lined primitives senderId { worker, generations := generations ++ [rawKey] })
    (many : 256 ≤ generations.length)
    (closed : ∀ generation earlier, generations[generation]? = some earlier →
      ∀ item, .inl item ∈ arrivals →
        primitives.decrypt (messageKeyAt primitives earlier generation 1)
          (computeNonce (primitives.deriveSalt earlier generation) 1)
          (buildAAD senderId (item.1.data.take item.clear) (e2eeHeaderOf generations.length 1))
          (sealed primitives senderId rawKey generations.length 1 (item.1.data.take item.clear)
            (item.1.data.drop item.clear)) = none)
    (elsewhere : ∀ event, .inr event ∈ arrivals → Elsewhere senderId event)
    (some_sent : 0 < encryptable arrivals) :
    ¬ AllEmitted (exchange primitives senderId sender worker arrivals) := by
  induction arrivals generalizing worker with
  | nil => exact absurd some_sent (Nat.lt_irrefl 0)
  | cons arrival rest inductionHypothesis =>
    have laterClosed := fun generation earlier known item (member : .inl item ∈ rest) =>
      closed generation earlier known item (List.mem_cons_of_mem arrival member)
    have laterElsewhere : ∀ event, .inr event ∈ rest → Elsewhere senderId event :=
      fun event member => elsewhere event (List.mem_cons_of_mem arrival member)
    cases arrival with
    | inr event =>
      have count : encryptable (.inr event :: rest) = encryptable rest := by
        simp [encryptable]
      obtain ⟨after, stepped⟩ : ∃ after, worker.step primitives event = some after := by
        cases event <;> exact ⟨_, rfl⟩
      rw [exchange, stepped, Option.getD_some]
      exact inductionHypothesis (lined.other (elsewhere event List.mem_cons_self) stepped)
        laterClosed laterElsewhere (count ▸ some_sent)
    | inl item =>
      have encrypted := encryptFrame_encrypting encrypting item
      by_cases room : item.clear ≤ item.1.data.length
      · rw [if_pos room] at encrypted
        obtain ⟨frame, made, wire⟩ := Option.map_eq_some_iff.mp encrypted.1
        have read := readFrame_wireBytes ideal senderId rawKey generations.length (0 + 1)
          (item.1.data.take item.clear) (item.1.data.drop item.clear) (clear_short item) (by decide)
        have dropped := hidden_frame lined many read (fun generation earlier known =>
          closed generation earlier known item List.mem_cons_self)
        rw [exchange, made]
        dsimp only
        rw [wire]
        intro emitted
        have first := emitted _ List.mem_cons_self
        rw [wireOf, dropped] at first
        cases first
      · have count : encryptable (.inl item :: rest) = encryptable rest := by
          simp [encryptable, room]
        rw [if_neg room] at encrypted
        rw [exchange, encrypted]
        exact inductionHypothesis lined laterClosed laterElsewhere (count ▸ some_sent)

/-- Decryption works at the first 256 key generations and at no later one. A receiver
is given the generations in order, with any frames and other events while each of
them is current; then the latest one is set, and frames are encrypted under it and
delivered in order.

Each generation is placed under the low bits of its number. Up to 256 of them the latest
finds its own fresh window; at a later one an older entry with the same low bits is tried in
its place. -/
theorem latest_generation_serves_iff (ideal : primitives.Ideal)
    (blank : worker.entriesOf senderId = [])
    (unheard : ∀ kid, worker.replayWindows.lookup (senderId, kid) = none)
    (reached : Reaches (Peer.step primitives senderId) (Ratcheting senderId)
      { worker, generations := [] } peer)
    {sender : Worker Chain Key}
    (uncounted : sender.frameCounters.lookup (senderId, peer.generations.length) = none)
    (arrivals : List (Arrival Raw))
    (independent : Independent primitives senderId peer.generations rawKey arrivals)
    (elsewhere : ∀ event, .inr event ∈ arrivals →
      Elsewhere senderId event ∧ Undisturbing senderId peer.generations.length event)
    (some_sent : 0 < encryptable arrivals) :
    AllEmitted (exchange primitives senderId
        (sender.receive primitives (.setKey senderId peer.generations.length rawKey))
        (peer.worker.receive primitives (.setKey senderId peer.generations.length rawKey))
        arrivals) ↔
      peer.generations.length + 1 ≤ 256 ∧ encryptable arrivals < 4294967296 := by
  have lined := Peer.reached_lined blank unheard reached
  have encrypting := encrypting_fresh primitives rawKey sender uncounted
  have latest := lined.ratchets rawKey
  by_cases few : peer.generations.length < 256
  · have lone : ∀ entry ∈ peer.worker.entriesOf senderId,
        entry.keyId % 256 = peer.generations.length % 256 → entry.keyId = peer.generations.length := by
      intro entry member low
      have below := lined.generation_lt member
      omega
    have served := exchange_emitted_iff ideal arrivals encrypting latest.sound
      (follows_fresh peer.worker lone) (by decide) (.inl rfl)
      (fun event member => (elsewhere event member).2)
    have fresh : (peer.worker.receive primitives
        (.setKey senderId peer.generations.length rawKey)).replayWindows.lookup
          (senderId, peer.generations.length % 256) = none := by
      rw [Nat.mod_eq_of_lt few]
      exact lined.unheard _ (Nat.le_refl _)
    rw [served, fresh, Nat.zero_add]
    constructor
    · exact fun both => ⟨few, both.1⟩
    · exact fun both => ⟨both.2, fun _ _ _ => rfl⟩
  · apply iff_of_false
    · exact hidden_generation ideal arrivals encrypting latest (Nat.le_of_not_lt few)
        (fun generation earlier known item member =>
          independent generation earlier known item member 1 Nat.one_pos some_sent)
        (fun event member => (elsewhere event member).1) some_sent
    · rintro ⟨low, _⟩
      exact few low

end Latest

section Sample

/-- A receiver that has been given keys of the sender, one generation after the other. -/
def ratchetedSample (rawKeys : List Nat) : Worker SampleKey SampleKey :=
  rawKeys.zipIdx.foldl
    (fun worker key => worker.receive samplePrimitives (.setKey "alice" key.2 key.1)) Worker.fresh

/-- After 256 generations, the first frame of the next one is dropped: its identifier's
low bits are those of the first generation. -/
theorem generation_dropped :
    exchange samplePrimitives "alice"
        (Worker.fresh.receive samplePrimitives (.setKey "alice" 256 999))
        (ratchetedSample (List.range 256 ++ [999])) [.inl sampleItem] = [(sampleItem, none)] := by
  decide +kernel

/-- The second generation serves after frames of the first. -/
theorem latest_generation_serves_sample :
    AllEmitted (exchange samplePrimitives "alice"
      (Worker.fresh.receive samplePrimitives (.setKey "alice" 1 5))
      ((((ratchetedSample [9]).decryptFrame samplePrimitives "alice"
        (wireOf samplePrimitives "alice" 9 0 1 sampleItem)).2).receive samplePrimitives
          (.setKey "alice" 1 5)) [.inl sampleItem]) := by
  have first : Reaches (Peer.step samplePrimitives "alice") (Ratcheting "alice")
      { worker := Worker.fresh, generations := [] }
      { worker := ratchetedSample [9], generations := [9] } := by
    have admits : Ratcheting "alice" ({ worker := Worker.fresh, generations := [] } :
        Peer Nat SampleKey SampleKey) (.ratchets 9) := trivial
    exact .next .start admits rfl
  have heard : Ratcheting "alice" ({ worker := ratchetedSample [9], generations := [9] } :
      Peer Nat SampleKey SampleKey)
      (.other (.decrypts "alice" (wireOf samplePrimitives "alice" 9 0 1 sampleItem))) := trivial
  have independent : Independent samplePrimitives "alice" [9] 5 [.inl sampleItem] := by
    intro generation earlier known item member ctr positive small
    obtain rfl : generation = 0 := by
      have below := (List.getElem?_eq_some_iff.mp known).1
      simpa using below
    obtain rfl : earlier = 9 := (Option.some.inj known).symm
    obtain rfl : item = sampleItem := by simpa using member
    obtain rfl : ctr = 1 := by
      have one : encryptable ([.inl sampleItem] : List (Arrival Nat)) = 1 := by decide
      omega
    decide +kernel
  refine (latest_generation_serves_iff samplePrimitives_ideal rfl (fun _ => rfl)
    (.next first heard rfl) rfl [.inl sampleItem] independent ?_ (by decide)).mpr
    ⟨by decide, by decide⟩
  intro event member
  simp at member

end Sample

end Seameet.E2ee

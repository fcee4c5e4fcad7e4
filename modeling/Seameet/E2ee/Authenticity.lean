import Seameet.E2ee.Forgery

/-!
# What a receiver emits

A receiver emits frames of a sender only as the sender sealed them, each under a key of
the sender, at the counter and under the key identifier that the frame carries. No frame
is emitted twice: while the sender's keys stay installed, no two emitted frames have the
same key identifier and counter, whatever bytes arrive, however often and in whatever
order, and whichever of the two ways to a message key opens them.

The second way, by a skipped key of another entry, records the counter at that entry's
identifier instead of the frame's. It emits nothing twice because the header is
authenticated: an entry with another identifier opens no frame of the sender.
-/

namespace Seameet.E2ee

open Library

section Sealing

variable {Raw Chain Key : Type} (primitives : Primitives Raw Chain Key)

/-- The ciphertext of a frame is this plaintext's, under this key at the frame's counter
and under its headers. -/
def WireFrame.SealedBy (wire : WireFrame) (senderId : String) (rawKey : Raw) (keyId : Nat)
    (plaintext : List UInt8) : Prop :=
  wire.ciphertext = primitives.encrypt (messageKeyAt primitives rawKey keyId wire.ctr)
    (computeNonce (primitives.deriveSalt rawKey keyId) wire.ctr)
    (buildAAD senderId wire.codecHeader wire.e2eeHeader) plaintext

/-- A frame carries the identifier of the key it was sealed under, if any. A sender puts
the identifier of its own entry into the header it authenticates. -/
def Labelled (keys : Raw → Nat → Prop) (senderId : String) (data : List UInt8) : Prop :=
  ∀ wire, Worker.readFrame data = some wire → ∀ rawKey keyId plaintext, keys rawKey keyId →
    wire.SealedBy primitives senderId rawKey keyId plaintext → wire.kid = keyId % 256

/-- A frame of the sender that was emitted, with how often the sender's keys had been
removed before. -/
structure Emission where
  round : Nat
  wire : WireFrame
  output : List UInt8
  deriving DecidableEq

/-- What tells the frames of a sender apart. -/
def Emission.place (emission : Emission) : Nat × Nat × Nat :=
  (emission.round, emission.wire.kid, emission.wire.ctr)

/-- A worker with what it has emitted of one sender. -/
structure Reception (Chain Key : Type) where
  worker : Worker Chain Key
  round : Nat
  emitted : List Emission

/-- What a worker emits of the sender at an event. -/
def Worker.emits (worker : Worker Chain Key) (senderId : String) (round : Nat) :
    WorkerEvent Raw → List Emission
  | .decrypts other data =>
    if other = senderId then
      match readFrame data, (worker.decryptFrame primitives senderId data).1 with
      | some wire, some output => [{ round, wire, output }]
      | _, _ => []
    else []
  | _ => []

/-- The removals of the sender's keys, counted. -/
def roundAfter (senderId : String) (round : Nat) : WorkerEvent Raw → Nat
  | .message (.removeKeys participantId) => if participantId = senderId then round + 1 else round
  | _ => round

/-- One event. -/
def Reception.step (senderId : String) (reception : Reception Chain Key) (event : WorkerEvent Raw) :
    Option (Reception Chain Key) :=
  (reception.worker.step primitives event).map fun worker =>
    { worker
      round := roundAfter senderId reception.round event
      emitted := reception.emitted ++
        reception.worker.emits primitives senderId reception.round event }

/-- A worker that has just been created. -/
def Reception.fresh : Reception Chain Key := { worker := Worker.fresh, round := 0, emitted := [] }

/-- The keys installed for the sender are the sender's, and what arrives as a frame of the
sender is anything but a seal under another label. -/
def Reception.Receives (keys : Raw → Nat → Prop) (senderId : String)
    (reception : Reception Chain Key) (event : WorkerEvent Raw) : Prop :=
  E2ee.Receives keys senderId reception.worker event ∧
    ∀ data, event = .decrypts senderId data → Labelled primitives keys senderId data

end Sealing

section Windows

variable {senderId : String} {before after : Table (String × Nat) ReplayWindow}
  {seen : Nat → Nat → Prop}

/-- The windows of the sender have accepted all counters that were seen. -/
def Kept (windows : Table (String × Nat) ReplayWindow) (senderId : String)
    (seen : Nat → Nat → Prop) : Prop :=
  ∀ kid, ∃ accepted, Window.Records replayWindowSize (windows.lookup (senderId, kid)) accepted ∧
    ∀ ctr, seen kid ctr → ctr ∈ accepted

/-- The windows of the sender accept a counter and record it. -/
structure Accepts (before after : Table (String × Nat) ReplayWindow) (senderId : String)
    (kid ctr : Nat) (window : ReplayWindow) : Prop where
  accepted : Window.check replayWindowSize (before.lookup (senderId, kid)) ctr = some window
  recorded : ∀ other, after.lookup (senderId, other) =
    if other = kid then some window else before.lookup (senderId, other)

/-- Only the windows of the sender count. -/
theorem Kept.congr (kept : Kept before senderId seen)
    (same : ∀ kid, after.lookup (senderId, kid) = before.lookup (senderId, kid)) :
    Kept after senderId seen := by
  intro kid
  rw [same]
  exact kept kid

/-- Fewer counters that were seen are accepted as well. -/
theorem Kept.fewer {fewer : Nat → Nat → Prop} (kept : Kept before senderId seen)
    (among : ∀ kid ctr, fewer kid ctr → seen kid ctr) : Kept before senderId fewer := by
  intro kid
  obtain ⟨accepted, records, known⟩ := kept kid
  exact ⟨accepted, records, fun ctr member => known ctr (among kid ctr member)⟩

/-- A counter that is accepted was not seen before. -/
theorem Kept.unseen (kept : Kept before senderId seen) {kid ctr : Nat} {window : ReplayWindow}
    (accepts : Accepts before after senderId kid ctr window) : ¬ seen kid ctr := by
  intro again
  obtain ⟨accepted, records, known⟩ := kept kid
  have judged := records.judge ctr
  rw [accepts.accepted, Option.isSome_some] at judged
  have member := known ctr again
  obtain ⟨highest, top⟩ := Option.isSome_iff_exists.mp (List.isSome_max?_of_mem member)
  have below := (List.max?_eq_some_iff.mp top).2 ctr member
  simp only [Window.admits, top] at judged
  simp [member, Nat.not_lt_of_le below] at judged

/-- A counter that is accepted is kept beside those seen before. -/
theorem Kept.accepts (kept : Kept before senderId seen) {kid ctr : Nat} {window : ReplayWindow}
    (accepts : Accepts before after senderId kid ctr window) :
    Kept after senderId (fun other number => seen other number ∨ (other = kid ∧ number = ctr)) := by
  intro other
  obtain ⟨accepted, records, known⟩ := kept other
  rw [accepts.recorded]
  by_cases here : other = kid
  · subst here
    have settled := records.settle ctr
    have admitted := records.judge ctr
    rw [Window.settle, accepts.accepted, Option.some_or] at settled
    rw [accepts.accepted, Option.isSome_some] at admitted
    rw [Window.collect, if_pos admitted.symm] at settled
    refine ⟨_, by rw [if_pos rfl]; exact settled, ?_⟩
    rintro number (again | ⟨-, rfl⟩)
    · exact List.mem_cons_of_mem _ (known number again)
    · exact List.mem_cons_self
  · rw [if_neg here]
    refine ⟨accepted, records, ?_⟩
    rintro number (again | ⟨same, -⟩)
    · exact known number again
    · exact absurd same here

end Windows

section Receiver

variable {Raw Chain Key : Type} {primitives : Primitives Raw Chain Key} {keys : Raw → Nat → Prop}
  {senderId : String} {worker : Worker Chain Key} {data : List UInt8}

/-- A frame that was emitted, as the sender sealed it. -/
def WireFrame.Genuine (primitives : Primitives Raw Chain Key) (keys : Raw → Nat → Prop)
    (senderId : String) (wire : WireFrame) (output : List UInt8) : Prop :=
  ∃ rawKey keyId plaintext, keys rawKey keyId ∧ wire.kid = keyId % 256 ∧
    wire.SealedBy primitives senderId rawKey keyId plaintext ∧
      output = wire.codecHeader ++ plaintext

/-- What a frame of the sender does to the sender's windows, and what it emits. -/
inductive Handling (primitives : Primitives Raw Chain Key) (keys : Raw → Nat → Prop)
    (senderId : String) (worker : Worker Chain Key) (data : List UInt8) :
    Option (List UInt8) × Worker Chain Key → Prop where
  | unchanged (after : Worker Chain Key)
      (same : ∀ kid, after.replayWindows.lookup (senderId, kid) =
        worker.replayWindows.lookup (senderId, kid)) :
      Handling primitives keys senderId worker data (none, after)
  | spends (wire : WireFrame) (window : ReplayWindow) (after : Worker Chain Key)
      (accepts : Accepts worker.replayWindows after.replayWindows senderId wire.kid wire.ctr window) :
      Handling primitives keys senderId worker data (none, after)
  | emits (wire : WireFrame) (window : ReplayWindow) (output : List UInt8) (after : Worker Chain Key)
      (read : Worker.readFrame data = some wire)
      (accepts : Accepts worker.replayWindows after.replayWindows senderId wire.kid wire.ctr window)
      (genuine : wire.Genuine primitives keys senderId output) :
      Handling primitives keys senderId worker data (some output, after)

/-- The worker records a counter that its window accepts. -/
theorem derived_accepts {wire : WireFrame} {entry : ChainEntry Chain Key} {window : ReplayWindow}
    (accepts : Window.check replayWindowSize
      (worker.replayWindows.lookup (senderId, wire.kid)) wire.ctr = some window) :
    Accepts worker.replayWindows
      (worker.derived primitives senderId wire entry window).replayWindows senderId wire.kid
      wire.ctr window := by
  refine ⟨accepts, fun other => ?_⟩
  rw [Worker.replayWindows_derived]
  simp

/-- A key of an entry opens a frame only as the sender sealed it, under the identifier of
the entry. -/
theorem opened_genuine (ideal : primitives.Ideal) (labelled : Labelled primitives keys senderId data)
    {wire : WireFrame} (read : Worker.readFrame data = some wire) {rawKey : Raw} {keyId : Nat}
    (known : keys rawKey keyId) {plaintext : List UInt8}
    (opens : Worker.openFrame primitives senderId wire (primitives.deriveSalt rawKey keyId)
      (messageKeyAt primitives rawKey keyId wire.ctr) = some plaintext) :
    wire.kid = keyId % 256 ∧
      wire.Genuine primitives keys senderId (wire.codecHeader ++ plaintext) := by
  have sealedBy : wire.SealedBy primitives senderId rawKey keyId plaintext :=
    (ideal.opens _ _ _ _ _).mp opens
  have label := labelled wire read rawKey keyId plaintext known sealedBy
  exact ⟨label, rawKey, keyId, plaintext, known, label, sealedBy, rfl⟩

/-- What the fallback opens carries the identifier of the entry that opened it. -/
theorem fallback_genuine (ideal : primitives.Ideal)
    (labelled : Labelled primitives keys senderId data) {wire : WireFrame}
    (read : Worker.readFrame data = some wire) {entry : ChainEntry Chain Key} {rawKey : Raw}
    (known : keys rawKey entry.keyId) (belongs : entry.Belongs primitives rawKey) {cached : Key}
    {plaintext : List UInt8} (kept : entry.skippedKeys.lookup wire.ctr = some cached)
    (opens : Worker.openFrame primitives senderId wire entry.baseSalt cached = some plaintext) :
    wire.kid = entry.keyId % 256 ∧
      wire.Genuine primitives keys senderId (wire.codecHeader ++ plaintext) := by
  obtain ⟨_, same⟩ := belongs.skipped _ (Ordered.lookup_eq_some.mp kept)
  dsimp only at same
  rw [same, belongs.salt] at opens
  exact opened_genuine ideal labelled read known opens

/-- A frame of the sender is emitted only as the sender sealed it, and only when its
counter is accepted; otherwise it spends at most its own counter. -/
theorem decryptFrame_handling (ideal : primitives.Ideal)
    (sound : Sound primitives keys senderId worker)
    (labelled : Labelled primitives keys senderId data) :
    Handling primitives keys senderId worker data (worker.decryptFrame primitives senderId data) := by
  have outcome := worker.decryptFrame_outcome primitives senderId data
  generalize worker.decryptFrame primitives senderId data = result at outcome
  cases outcome with
  | keyless missing => exact .unchanged _ (by simp)
  | malformed unread => exact .unchanged worker fun _ => rfl
  | refused wire entry read found refuses => exact .unchanged worker fun _ => rfl
  | withheld wire entry window read found accepts none_given =>
    exact .spends wire window _ (derived_accepts accepts)
  | opened wire entry window messageKey plaintext read found accepts given opens =>
    obtain ⟨rawKey, known, belongs⟩ := sound.belongs entry (found_entry found).1
    rw [given_key belongs given, belongs.salt] at opens
    exact .emits wire window _ _ read (derived_accepts accepts)
      (opened_genuine ideal labelled read known opens).2
  | fellBack wire entry window messageKey result read found accepts given sealed fallback =>
    obtain ⟨_, _, belongs⟩ := sound.belongs entry (found_entry found).1
    have recorded : Accepts worker.replayWindows
        (worker.derived primitives senderId wire entry window).replayWindows senderId wire.kid
        wire.ctr window := derived_accepts accepts
    cases fallback with
    | dropped =>
      refine .spends wire window _ ⟨accepts, fun other => ?_⟩
      rw [Worker.replayWindows_notifyNotReady]
      exact recorded.recorded other
    | opened other cached plaintext member below kept opens =>
      have installed : other ∈ (worker.derived primitives senderId wire entry window).entriesOf
          senderId := others_installed worker belongs other member
      obtain ⟨rawKey, known, own⟩ := (derived_sound sound found accepts).belongs other installed
      obtain ⟨label, genuine⟩ := fallback_genuine ideal labelled read known own kept opens
      refine .emits wire window _ _ read ⟨accepts, fun tested => ?_⟩ genuine
      -- the counter is already recorded where the other entry records it
      show (checkReplay (worker.derived primitives senderId wire entry window).replayWindows senderId
        (other.keyId % 256) wire.ctr).2.lookup (senderId, tested) = _
      rw [Worker.checkReplay_lookup, ← label, recorded.recorded, if_pos rfl, Window.settle,
        Window.check_again _ accepts, recorded.recorded]
      by_cases here : tested = wire.kid
      · simp [here]
      · simp [here]
  | unmatched wire result read missing fallback =>
    cases fallback with
    | dropped => exact .unchanged _ (by simp)
    | opened other cached plaintext member below kept opens =>
      have installed := List.mem_reverse.mp member
      obtain ⟨rawKey, known, own⟩ := sound.belongs other installed
      obtain ⟨label, _⟩ := fallback_genuine ideal labelled read known own kept opens
      have elsewhere := List.find?_eq_none.mp missing other installed
      simp [label] at elsewhere

end Receiver

section Runs

variable {Raw Chain Key : Type} {primitives : Primitives Raw Chain Key} {keys : Raw → Nat → Prop}
  {senderId : String} {reception : Reception Chain Key}

/-- The counters of the sender's frames that were emitted since its keys were last removed. -/
def Reception.seen (reception : Reception Chain Key) (kid ctr : Nat) : Prop :=
  ∃ emission ∈ reception.emitted, emission.place = (reception.round, kid, ctr)

/-- What was emitted is the sender's, and nothing was emitted twice. -/
structure Authentic (primitives : Primitives Raw Chain Key) (keys : Raw → Nat → Prop)
    (senderId : String) (emitted : List Emission) : Prop where
  genuine : ∀ emission ∈ emitted, emission.wire.Genuine primitives keys senderId emission.output
  once : (emitted.map Emission.place).Nodup

/-- What a reception keeps: the windows have recorded what was emitted in this round. -/
structure Reception.Guarded (primitives : Primitives Raw Chain Key) (keys : Raw → Nat → Prop)
    (senderId : String) (reception : Reception Chain Key) : Prop
    extends Authentic primitives keys senderId reception.emitted where
  sound : Sound primitives keys senderId reception.worker
  rounds : ∀ emission ∈ reception.emitted, emission.round ≤ reception.round
  kept : Kept reception.worker.replayWindows senderId reception.seen

/-- Events that emit nothing of the sender keep what is kept, when they leave its windows
alone. -/
theorem Reception.Guarded.quiet (guarded : reception.Guarded primitives keys senderId)
    {after : Worker Chain Key} (sound : Sound primitives keys senderId after)
    (kept : Kept after.replayWindows senderId reception.seen) :
    ({ worker := after, round := reception.round, emitted := reception.emitted ++ [] } :
      Reception Chain Key).Guarded primitives keys senderId := by
  rw [List.append_nil]
  exact ⟨guarded.toAuthentic, sound, guarded.rounds, kept⟩

/-- A frame that is emitted was not emitted before in this round. -/
theorem Reception.Guarded.emits (guarded : reception.Guarded primitives keys senderId)
    {after : Worker Chain Key} (sound : Sound primitives keys senderId after) {wire : WireFrame}
    {window : ReplayWindow} {output : List UInt8}
    (accepts : Accepts reception.worker.replayWindows after.replayWindows senderId wire.kid wire.ctr
      window) (genuine : wire.Genuine primitives keys senderId output) :
    ({ worker := after, round := reception.round
       emitted := reception.emitted ++ [{ round := reception.round, wire, output }] } :
      Reception Chain Key).Guarded primitives keys senderId := by
  have unseen := guarded.kept.unseen accepts
  refine ⟨⟨?_, ?_⟩, sound, ?_, ?_⟩
  · intro emission member
    rcases List.mem_append.mp member with earlier | last
    · exact guarded.genuine emission earlier
    · obtain rfl := List.mem_singleton.mp last
      exact genuine
  · rw [List.map_append, List.nodup_append]
    refine ⟨guarded.once, List.nodup_singleton _, ?_⟩
    intro place earlier other last same
    obtain ⟨emission, member, rfl⟩ := List.mem_map.mp earlier
    obtain rfl := List.mem_singleton.mp last
    exact unseen ⟨emission, member, same⟩
  · intro emission member
    rcases List.mem_append.mp member with earlier | last
    · exact guarded.rounds emission earlier
    · obtain rfl := List.mem_singleton.mp last
      exact Nat.le_refl _
  · refine (guarded.kept.accepts accepts).fewer ?_
    rintro kid ctr ⟨emission, member, same⟩
    rcases List.mem_append.mp member with earlier | last
    · exact .inl ⟨emission, earlier, same⟩
    · obtain rfl := List.mem_singleton.mp last
      simp only [Emission.place, Prod.mk.injEq, true_and] at same
      exact .inr ⟨same.1.symm, same.2.symm⟩

/-- Removing the sender's keys starts a round in which nothing was emitted yet. -/
theorem Reception.Guarded.removes (guarded : reception.Guarded primitives keys senderId)
    {after : Worker Chain Key} (sound : Sound primitives keys senderId after)
    (cleared : ∀ kid, after.replayWindows.lookup (senderId, kid) = none) :
    ({ worker := after, round := reception.round + 1, emitted := reception.emitted ++ [] } :
      Reception Chain Key).Guarded primitives keys senderId := by
  rw [List.append_nil]
  refine ⟨guarded.toAuthentic, sound, ?_, ?_⟩
  · intro emission member
    exact Nat.le_succ_of_le (guarded.rounds emission member)
  · intro kid
    refine ⟨[], ?_, ?_⟩
    · rw [cleared]
      rfl
    · rintro ctr ⟨emission, member, same⟩
      have older := guarded.rounds emission member
      have now : emission.round = reception.round + 1 := congrArg Prod.fst same
      omega

/-- Every event keeps the reception guarded. Only a frame that is emitted adds to what was seen.
-/
theorem Reception.Guarded.step (ideal : primitives.Ideal)
    (guarded : reception.Guarded primitives keys senderId) {event : WorkerEvent Raw}
    {after : Reception Chain Key}
    (receives : reception.Receives primitives keys senderId event)
    (stepped : reception.step primitives senderId event = some after) :
    after.Guarded primitives keys senderId := by
  obtain ⟨worker, moved, rfl⟩ := Option.map_eq_some_iff.mp stepped
  have sound := step_sound _ event worker guarded.sound receives.1 moved
  cases event with
  | message message =>
    obtain rfl := Option.some.inj moved
    cases message with
    | setKey participantId keyId rawKey => exact guarded.quiet sound guarded.kept
    | purgeOldKeys participantId keepKeyId => exact guarded.quiet sound guarded.kept
    | removeKeys participantId =>
      have windows : ∀ kid, (reception.worker.receive primitives
          (.removeKeys participantId)).replayWindows.lookup (senderId, kid) =
            if participantId = senderId then none
            else reception.worker.replayWindows.lookup (senderId, kid) := by
        intro kid
        show (reception.worker.replayWindows.retain (fun key _ => key.1 != participantId)).lookup
          (senderId, kid) = _
        rw [Table.lookup_retain]
        cases reception.worker.replayWindows.lookup (senderId, kid) with
        | none => simp
        | some window =>
          by_cases here : participantId = senderId
          · simp [Option.filter, here]
          · simp [Option.filter, here, Ne.symm here]
      by_cases here : participantId = senderId
      · simp only [roundAfter, if_pos here] at windows ⊢
        exact guarded.removes sound windows
      · simp only [roundAfter, if_neg here] at windows ⊢
        exact guarded.quiet sound (guarded.kept.congr windows)
  | encrypts frame participantId isAudio =>
    obtain rfl := Option.some.inj moved
    refine guarded.quiet sound (guarded.kept.congr ?_)
    intro kid
    have outcome := reception.worker.encryptFrame_outcome primitives frame participantId isAudio
    generalize reception.worker.encryptFrame primitives frame participantId isAudio = result at outcome
    cases outcome with
    | notReady missing => simp
    | short under => rfl
    | encrypted entry codecHeader payload aad newest room cut bound => rfl
  | decrypts other data =>
    obtain rfl := Option.some.inj moved
    by_cases here : other = senderId
    · subst here
      have labelled := receives.2 data rfl
      have handling := decryptFrame_handling ideal guarded.sound labelled
      simp only [Worker.emits, if_pos, roundAfter]
      generalize reception.worker.decryptFrame primitives other data = result at handling sound
      cases handling with
      | unchanged after same =>
        have nothing : ∀ read : Option WireFrame, (match read, (none : Option (List UInt8)) with
            | some wire, some output =>
              [({ round := reception.round, wire, output } : Emission)]
            | _, _ => []) = [] := by
          intro read
          cases read <;> rfl
        rw [nothing]
        exact guarded.quiet sound (guarded.kept.congr same)
      | spends wire window after accepts =>
        have nothing : ∀ read : Option WireFrame, (match read, (none : Option (List UInt8)) with
            | some wire, some output =>
              [({ round := reception.round, wire, output } : Emission)]
            | _, _ => []) = [] := by
          intro read
          cases read <;> rfl
        rw [nothing]
        exact guarded.quiet sound ((guarded.kept.accepts accepts).fewer fun _ _ => .inl)
      | emits wire window output after read accepts genuine =>
        rw [read]
        exact guarded.emits sound accepts genuine
    · have apart : senderId ≠ other := fun same => here same.symm
      obtain ⟨_, windows⟩ := @Worker.decryptFrame_frame Raw Chain Key primitives _ _ _ apart data
      simp only [Worker.emits, if_neg here, roundAfter]
      exact guarded.quiet sound (guarded.kept.congr windows)

/-- In every run in which no keys but the sender's are installed for the sender, whatever
arrives in its name, each frame that was emitted is one that the sender sealed under one
of its keys, at the counter and under the identifier that the frame carries; and no
counter of an identifier was emitted twice, unless the sender's keys were removed
between.

A frame that opens was sealed by the ideal encryption's rule, under a key that was installed
for the sender. The window has the counter recorded once it was emitted, which leaves no
second time. -/
theorem emitted_once_authentic (ideal : primitives.Ideal)
    (reached : Reaches (Reception.step primitives senderId)
      (Reception.Receives primitives keys senderId) .fresh reception) :
    Authentic primitives keys senderId reception.emitted := by
  refine Reception.Guarded.toAuthentic (reached.invariant
    (Reception.Guarded primitives keys senderId) ?_ ?_)
  · refine ⟨⟨nofun, List.nodup_nil⟩, ⟨List.nodup_nil, nofun, nofun⟩, nofun, ?_⟩
    intro kid
    exact ⟨[], rfl, fun ctr ⟨emission, member, _⟩ => by cases member⟩
  · intro before event after guarded receives stepped
    exact guarded.step ideal receives stepped

end Runs

section Sample

/-- A key, a genuine frame, the same one again, and a forged one. -/
def replayedSample : List (WorkerEvent Nat) :=
  [.message (.setKey "alice" 7 9), .decrypts "alice" genuineSample, .decrypts "alice" genuineSample,
    .decrypts "alice" forgedSample]

/-- The reception after these events. -/
def hearing (events : List (WorkerEvent Nat)) : Reception SampleKey SampleKey :=
  (walk (Reception.step samplePrimitives "alice") always .fresh events).getD .fresh

/-- A frame with the identifier of the only key is labelled with it. -/
theorem labelled_sample {data : List UInt8} {wire : WireFrame}
    (read : Worker.readFrame data = some wire) (kid : wire.kid = 7) :
    Labelled samplePrimitives sampleKeys "alice" data := by
  rintro other again rawKey keyId plaintext ⟨_, rfl⟩ _
  obtain rfl := Option.some.inj (read.symm.trans again)
  exact kid

/-- Every event of the sample is one the receiver may be given. -/
theorem replayedSample_receives (reception : Reception SampleKey SampleKey) :
    ∀ event ∈ replayedSample,
      reception.Receives samplePrimitives sampleKeys "alice" event := by
  intro event member
  have genuine : ∃ wire, Worker.readFrame genuineSample = some wire ∧ wire.kid = 7 :=
    ⟨(Worker.readFrame genuineSample).getD ⟨[], 0, 0, [], []⟩, by decide +kernel, by decide +kernel⟩
  obtain ⟨wire, read, kid⟩ := genuine
  simp only [replayedSample, List.mem_cons, List.not_mem_nil, or_false] at member
  rcases member with rfl | rfl | rfl | rfl
  · exact ⟨fun _ => ⟨rfl, rfl⟩, nofun⟩
  · refine ⟨trivial, ?_⟩
    rintro data ⟨⟩
    exact labelled_sample read kid
  · refine ⟨trivial, ?_⟩
    rintro data ⟨⟩
    exact labelled_sample read kid
  · refine ⟨trivial, ?_⟩
    rintro data ⟨⟩
    exact labelled_sample forgedSample_read rfl

/-- The receiver of the sample is reached. -/
theorem replayedSample_reached : Reaches (Reception.step samplePrimitives "alice")
    (Reception.Receives samplePrimitives sampleKeys "alice") .fresh (hearing replayedSample) := by
  have admits := replayedSample_receives
  simp only [replayedSample, List.forall_mem_cons] at admits
  have first := fun reception => (admits reception).1
  have second := fun reception => (admits reception).2.1
  have third := fun reception => (admits reception).2.2.1
  have last := fun reception => (admits reception).2.2.2.1
  exact .next (.next (.next (.next .start (first _) rfl) (second _) rfl) (third _) rfl) (last _) rfl

/-- The copy and the forged frame are not emitted. -/
theorem emitted_once_authentic_replayed :
    Authentic samplePrimitives sampleKeys "alice" (hearing replayedSample).emitted ∧
      (hearing replayedSample).emitted.map Emission.output = [[1, 2]] :=
  ⟨emitted_once_authentic samplePrimitives_ideal replayedSample_reached, by decide +kernel⟩

end Sample

end Seameet.E2ee

import Seameet.E2ee.Prospects

/-!
# Two participants introduced

A participant sends its sender key when it has handled the other's public key. If its
own sender key is not generated by then, nothing is sent, and the broadcast, which
comes once the keys are ready, passes the other over, because the shared secret is
there. So the sender key is lost unless another public key of the other is still to be
handled.

Nothing else is lost. Whoever is to get a public key or a sender key will get it, once
nothing is left to do.
-/

namespace Seameet.E2ee

open Library

namespace Entrant

variable {Chain Key : Type} {primitives : Primitives Nat Chain Key} {ownId peerId : String}
  {entrant own peer : Entrant Chain Key} {message : LobbyMessage} {sent : List LobbyMessage}

/-- A participant that the server has not let in: whatever it sends is behind its `join`,
and nothing has reached it. -/
structure Newcomer (entrant : Entrant Chain Key) : Prop where
  received : entrant.received = []
  peerPublicKey : entrant.peerPublicKey = none
  sharedSecret : entrant.sharedSecret = none
  awaiting : ∀ suspended ∈ entrant.awaiting, ∃ publicKey, suspended = .announcing false publicKey
  outside : entrant.joined = false → entrant.sent = [] ∧ entrant.awaiting = []
  joining : entrant.joined = true → ∃ rest, entrant.sent = .join :: rest

/-- Once a participant has announced its key it has joined and has its keys. -/
def Ready (entrant : Entrant Chain Key) : Prop :=
  entrant.broadcasted = true → entrant.joined = true ∧ entrant.keys.senderKeyRaw.isSome = true

/-- A participant's sender key has reached its peer or will, and so has what the shared
secret needs. -/
structure Introduces (primitives : Primitives Nat Chain Key) (ownId : String)
    (own peer : Entrant Chain Key) : Prop where
  answered : peer.Obtained primitives ownId ∨ peer.waits = true ∨ own.sends = true ∨
    own.answers = true ∨ own.hears = true ∨ peer.announces = true
  derives : own.derives = true ∨ own.hears = true ∨ peer.announces = true

/-- A handler that goes on keeps the keys and what the participant has done of itself. -/
theorem resume_frame (suspended : Suspended) :
    (entrant.resume peerId suspended).keys = entrant.keys ∧
      (entrant.resume peerId suspended).joined = entrant.joined ∧
      (entrant.resume peerId suspended).broadcasted = entrant.broadcasted := by
  have proceeds : ∀ (before : Entrant Chain Key) rest,
      (before.proceed rest).keys = before.keys ∧ (before.proceed rest).joined = before.joined ∧
        (before.proceed rest).broadcasted = before.broadcasted := by
    intro before rest
    cases rest <;> exact ⟨rfl, rfl, rfl⟩
  cases suspended with
  | noticing | importing =>
    simp only [resume]
    split <;> exact ⟨rfl, rfl, rfl⟩
  | exporting | agreeing | encrypting => exact ⟨rfl, rfl, rfl⟩
  | numbering broadcast =>
    cases broadcast with
    | false => exact ⟨rfl, rfl, rfl⟩
    | true =>
      simp only [resume]
      split <;> exact ⟨rfl, rfl, rfl⟩
  | announcing pending publicKey => cases pending <;> exact ⟨rfl, rfl, rfl⟩
  | draining queue =>
    cases queue with
    | nil =>
      simp only [resume, sendSenderKeyTo]
      split <;> exact ⟨rfl, rfl, rfl⟩
    | cons item queue =>
      simp only [resume, processSenderKey]
      split
      · exact proceeds entrant _
      · exact ⟨rfl, rfl, rfl⟩
  | decrypting sharedSecret item rest =>
    simp only [resume]
    split
    · exact proceeds entrant rest
    · exact proceeds _ rest

/-- So does a message that is handled. -/
theorem handleMessage_frame (message : LobbyMessage) :
    (entrant.handleMessage message).keys = entrant.keys ∧
      (entrant.handleMessage message).joined = entrant.joined ∧
      (entrant.handleMessage message).broadcasted = entrant.broadcasted := by
  cases message with
  | senderKey encryptedKey keyId =>
    simp only [handleMessage]
    split
    · exact ⟨rfl, rfl, rfl⟩
    · simp only [processSenderKey]
      split <;> exact ⟨rfl, rfl, rfl⟩
  | _ => exact ⟨rfl, rfl, rfl⟩

/-- The broadcast keeps the keys. -/
theorem broadcast_frame (entrant : Entrant Chain Key) :
    entrant.broadcast.keys = entrant.keys ∧ entrant.broadcast.joined = entrant.joined := by
  simp only [broadcast]
  split <;> exact ⟨rfl, rfl⟩

/-- And a key that is generated. -/
theorem generate_frame (generated : Nat) :
    (entrant.generate ownId generated).keys = entrant.keys.generate generated ∧
      (entrant.generate ownId generated).joined = entrant.joined ∧
      (entrant.generate ownId generated).broadcasted = entrant.broadcasted ∧
      ∃ mail, entrant.generate ownId generated =
        { entrant with keys := entrant.keys.generate generated, mail } := by
  simp only [generate]
  split <;> exact ⟨rfl, rfl, rfl, _, rfl⟩

/-- A participant that announced its key has a key pair. -/
theorem Ready.pair (ready : entrant.Ready) (broadcasted : entrant.broadcasted = true) :
    entrant.keys.ecdhKeyPair ≠ none := Keys.pair_of_raw (ready broadcasted).2

/-- The handler at a position goes on. -/
theorem resume_at (primitives : Primitives Nat Chain Key) {peer : Keys} {position : Nat}
    {suspended : Suspended} (genuine : entrant.Genuine ownId peerId peer) (ready : entrant.Ready)
    (named : entrant.awaiting[position]? = some suspended) :
    let rest := { entrant with awaiting := entrant.awaiting.eraseIdx position }
    Moves primitives peerId entrant (rest.resume peerId suspended)
        (suspended = .draining [] ∧ entrant.keys.senderKeyRaw = none) ∧
      (rest.resume peerId suspended).Genuine ownId peerId peer ∧
      (rest.resume peerId suspended).Ready ∧
      (rest.resume peerId suspended).keys = entrant.keys := by
  intro rest
  have remaining : rest.Genuine ownId peerId peer :=
    { genuine with
      awaiting := fun later listed => genuine.awaiting later (List.mem_of_mem_eraseIdx listed) }
  have holds := genuine.awaiting suspended (List.mem_of_getElem? named)
  have moves : Moves primitives peerId (rest.await suspended) (rest.resume peerId suspended) _ :=
    resume_moves remaining (fun broadcasted => ready.pair broadcasted) holds
  have perm : entrant.awaiting.Perm (entrant.awaiting.eraseIdx position ++ [suspended]) := by
    obtain ⟨inside, rfl⟩ := List.getElem?_eq_some_iff.mp named
    exact (List.getElem_cons_eraseIdx_perm inside).symm.trans
      (List.perm_append_singleton _ _).symm
  obtain ⟨keys, joined, broadcasted⟩ := @resume_frame _ _ peerId rest suspended
  refine ⟨.of_perm entrant moves perm, remaining.resume holds, ?_, keys⟩
  intro announced
  rw [broadcasted] at announced
  rw [joined, keys]
  exact ready announced

/-- A newcomer's handlers announce its key behind its `join`. -/
theorem Newcomer.resume {position : Nat} {suspended : Suspended} (newcomer : entrant.Newcomer)
    (named : entrant.awaiting[position]? = some suspended) :
    ({ entrant with awaiting := entrant.awaiting.eraseIdx position }.resume peerId
      suspended).Newcomer := by
  have held := List.mem_of_getElem? named
  obtain ⟨publicKey, rfl⟩ := newcomer.awaiting suspended held
  exact {
    received := newcomer.received
    peerPublicKey := newcomer.peerPublicKey
    sharedSecret := newcomer.sharedSecret
    awaiting := fun later listed => newcomer.awaiting later (List.mem_of_mem_eraseIdx listed)
    outside := fun out => by
      rw [(newcomer.outside out).2] at held
      cases held
    joining := fun inside => by
      obtain ⟨rest, sent⟩ := newcomer.joining inside
      have sends : entrant.sent ++ [LobbyMessage.publicKey publicKey] =
          .join :: (rest ++ [.publicKey publicKey]) := by
        rw [sent]
        rfl
      exact ⟨_, sends⟩ }

/-- A newcomer joins. -/
theorem Newcomer.join (newcomer : entrant.Newcomer) (out : entrant.joined = false) :
    entrant.join.Newcomer := by
  obtain ⟨sent, awaiting⟩ := newcomer.outside out
  exact { newcomer with
    outside := fun inside => by cases inside
    joining := fun _ => ⟨[], by
      change entrant.sent ++ [.join] = [.join]
      rw [sent]
      rfl⟩ }

/-- A newcomer knows no public key of the other, and its broadcast announces its own. -/
theorem Newcomer.broadcast (newcomer : entrant.Newcomer) (due : entrant.broadcastDue = true) :
    entrant.broadcast.Newcomer := by
  have joined : entrant.joined = true := by
    simp only [broadcastDue, Bool.and_eq_true] at due
    exact due.1.2
  have announced : entrant.broadcast = { entrant with broadcasted := true } ∨
      ∃ keyPair, entrant.broadcast =
        { entrant with broadcasted := true }.await (.announcing false keyPair) := by
    simp only [Entrant.broadcast, newcomer.peerPublicKey]
    cases entrant.keys.ecdhKeyPair with
    | none => exact .inl rfl
    | some keyPair => exact .inr ⟨keyPair, rfl⟩
  rcases announced with same | ⟨keyPair, same⟩
  · rw [same]
    exact { newcomer with }
  · rw [same]
    exact { newcomer with
      awaiting := fun suspended held => by
        rcases List.mem_append.mp held with earlier | now
        · exact newcomer.awaiting suspended earlier
        · exact ⟨keyPair, List.mem_singleton.mp now⟩
      outside := fun out => by
        rw [show entrant.joined = false from out] at joined
        cases joined }

/-- A message of a participant reaches its peer. -/
theorem Introduces.passed (mine : Introduces primitives ownId own peer)
    (theirs : Introduces primitives peerId peer own) (taken : own.sent = message :: sent) :
    Introduces primitives ownId { own with sent }
        { peer with received := peer.received ++ [message] } ∧
      Introduces primitives peerId { peer with received := peer.received ++ [message] }
        { own with sent } := by
  have sends : own.sends = true → ({ own with sent } : Entrant Chain Key).sends = true ∨
      ({ peer with received := peer.received ++ [message] } : Entrant Chain Key).waits = true := by
    simp only [Entrant.sends, Entrant.waits, taken, List.any_cons, List.any_append, List.any_nil]
    grind
  have waits : peer.waits = true →
      ({ peer with received := peer.received ++ [message] } : Entrant Chain Key).waits = true := by
    simp only [Entrant.waits, List.any_append]
    grind
  have hears : peer.hears = true →
      ({ peer with received := peer.received ++ [message] } : Entrant Chain Key).hears = true := by
    simp only [Entrant.hears, List.any_append]
    grind
  have announces : own.announces = true →
      ({ own with sent } : Entrant Chain Key).announces = true ∨
      ({ peer with received := peer.received ++ [message] } : Entrant Chain Key).hears = true := by
    simp only [Entrant.announces, Entrant.hears, taken, List.any_cons, List.any_append,
      List.any_nil]
    grind
  have shown : peer.announces = true → ({ peer with
      received := peer.received ++ [message] } : Entrant Chain Key).announces = true := by
    simp only [Entrant.announces, List.any_append]
    grind
  refine ⟨⟨?_, ?_⟩, ?_, ?_⟩
  · rcases mine.answered with obtained | waiting | sending | rest
    · exact .inl obtained
    · exact .inr (.inl (waits waiting))
    · exact (sends sending).elim (.inr ∘ .inr ∘ .inl) (.inr ∘ .inl)
    · exact .inr (.inr (.inr (rest.imp_right (Or.imp_right shown))))
  · exact mine.derives.imp_right (Or.imp_right shown)
  · rcases theirs.answered with obtained | waiting | sending | answers | hearing | announcing
    · exact .inl obtained
    · exact .inr (.inl waiting)
    · exact .inr (.inr (.inl sending))
    · exact .inr (.inr (.inr (.inl answers)))
    · exact .inr (.inr (.inr (.inr (.inl (hears hearing)))))
    · exact (announces announcing).elim (.inr ∘ .inr ∘ .inr ∘ .inr ∘ .inr)
        (.inr ∘ .inr ∘ .inr ∘ .inr ∘ .inl)
  · rcases theirs.derives with derives | hearing | announcing
    · exact .inl derives
    · exact .inr (.inl (hears hearing))
    · exact (announces announcing).elim (.inr ∘ .inr) (.inr ∘ .inl)

/-- Who is shown the other will announce its key. -/
theorem Ready.shown (ready : own.Ready) {received : List LobbyMessage}
    (placed : received.any LobbyMessage.isPresent = true) :
    ({ own with sent, received } : Entrant Chain Key).announces = true := by
  rw [announces]
  cases broadcasted : own.broadcasted with
  | false => rfl
  | true =>
    have pair := Option.isSome_iff_ne_none.mpr (ready.pair broadcasted)
    simp only [placed, pair, Bool.true_or, Bool.and_true, Bool.or_true]


/-- The server takes the first message off a sender, which stays genuine. -/
theorem Genuine.taken {entrant : Entrant Chain Key} {ownName peerName : String}
    {peerKeys : Keys} (genuine : entrant.Genuine ownName peerName peerKeys) {message : LobbyMessage}
    {sent : List LobbyMessage} (taken : entrant.sent = message :: sent) :
    ({ entrant with sent } : Entrant Chain Key).Genuine ownName peerName peerKeys :=
  { genuine with
    sent := fun later listed => genuine.sent later (taken ▸ List.mem_cons_of_mem message listed) }

/-- A genuine message that is placed leaves its receiver genuine. -/
theorem Genuine.placed {entrant : Entrant Chain Key} {ownName peerName : String}
    {peerKeys : Keys} (genuine : entrant.Genuine ownName peerName peerKeys) {message : LobbyMessage}
    (valid : message.Genuine peerKeys entrant.keys) :
    ({ entrant with received := entrant.received ++ [message] } : Entrant Chain Key).Genuine
      ownName peerName peerKeys := by
  refine { genuine with received := fun tested listed => ?_ }
  rcases List.mem_append.mp listed with earlier | now
  · exact genuine.received tested earlier
  · cases List.mem_singleton.mp now
    exact valid

end Entrant

namespace Lobby

variable {Chain Key : Type} {primitives : Primitives Nat Chain Key} {names : Side → String}
  {lobby after : Lobby Chain Key}

/-- A participant that comes to send its sender key and has none yet will handle a public
key of the other again: it is handling another one, one is on its way, or the other is
to send one. -/
def Careful (lobby : Lobby Chain Key) : LobbyEvent → Prop
  | .resumes side position =>
    let entrant := lobby.entrant side
    let rest := { entrant with awaiting := entrant.awaiting.eraseIdx position }
    entrant.awaiting[position]? = some (.draining []) → entrant.keys.senderKeyRaw = none →
      rest.answers = true ∨ rest.hears = true ∨ (lobby.entrant side.other).announces = true
  | _ => True

/-- Nothing is left to do. -/
def Quiescent (lobby : Lobby Chain Key) : Prop :=
  ∀ side, (lobby.entrant side).awaiting = [] ∧ (lobby.entrant side).mail = [] ∧
    (lobby.entrant side).sent = [] ∧ (lobby.entrant side).received = [] ∧
    (lobby.entrant side).broadcastDue = false

/-- Both have joined and have their keys. -/
def Entered (lobby : Lobby Chain Key) : Prop :=
  ∀ side, (lobby.entrant side).joined = true ∧
    (lobby.entrant side).keys.senderKeyRaw.isSome = true

/-- Each has installed the other's sender key. -/
def Introduced (primitives : Primitives Nat Chain Key) (names : Side → String)
    (lobby : Lobby Chain Key) : Prop :=
  ∀ side, ∃ senderKeyRaw, (lobby.entrant side.other).keys.senderKeyRaw = some senderKeyRaw ∧
    (lobby.entrant side).peerSenderKey = some (senderKeyRaw, Entrant.localKeyId) ∧
    ∃ entry ∈ (lobby.entrant side).worker.entriesOf (names side.other),
      entry.keyId = Entrant.localKeyId ∧ entry.Belongs primitives senderKeyRaw

/-- What every careful run keeps. -/
structure Underway (primitives : Primitives Nat Chain Key) (names : Side → String)
    (lobby : Lobby Chain Key) : Prop where
  genuine : ∀ side, (lobby.entrant side).Genuine (names side) (names side.other)
    (lobby.entrant side.other).keys
  ready : ∀ side, (lobby.entrant side).Ready
  newcomer : ∀ side, lobby.admitted side = false → (lobby.entrant side).Newcomer
  drained : ∀ side, (lobby.entrant side).drained = true
  introduces : (∀ side, lobby.admitted side = true) → ∀ side,
    Entrant.Introduces primitives (names side) (lobby.entrant side) (lobby.entrant side.other)

/-- The laws, from one side. -/
theorem Underway.of_sides (side : Side) {own peer : Entrant Chain Key}
    (here : lobby.entrant side = own) (there : lobby.entrant side.other = peer)
    (genuine : own.Genuine (names side) (names side.other) peer.keys)
    (peerGenuine : peer.Genuine (names side.other) (names side) own.keys)
    (ready : own.Ready) (peerReady : peer.Ready)
    (newcomer : lobby.admitted side = false → own.Newcomer)
    (peerNewcomer : lobby.admitted side.other = false → peer.Newcomer)
    (drained : own.drained = true) (peerDrained : peer.drained = true)
    (introduces : lobby.admitted side = true → lobby.admitted side.other = true →
      Entrant.Introduces primitives (names side) own peer ∧
        Entrant.Introduces primitives (names side.other) peer own) :
    lobby.Underway primitives names := by
  constructor
  · intro tested
    rcases Side.eq_or_other side tested with rfl | rfl
    · rw [here, there]
      exact genuine
    · rw [Side.other_other, here, there]
      exact peerGenuine
  · intro tested
    rcases Side.eq_or_other side tested with rfl | rfl
    · exact here ▸ ready
    · exact there ▸ peerReady
  · intro tested out
    rcases Side.eq_or_other side tested with rfl | rfl
    · exact here ▸ newcomer out
    · exact there ▸ peerNewcomer out
  · intro tested
    rcases Side.eq_or_other side tested with rfl | rfl
    · exact here ▸ drained
    · exact there ▸ peerDrained
  · intro inside tested
    obtain ⟨mine, theirs⟩ := introduces (inside side) (inside side.other)
    rcases Side.eq_or_other side tested with rfl | rfl
    · rw [here, there]
      exact mine
    · rw [Side.other_other, here, there]
      exact theirs

/-- Setting one side leaves the other one. -/
theorem entrant_set (lobby : Lobby Chain Key) (side : Side) (entrant : Entrant Chain Key) :
    (lobby.set side entrant).entrant side = entrant ∧
      (lobby.set side entrant).entrant side.other = lobby.entrant side.other :=
  ⟨Function.update_self .., Function.update_of_ne (Side.other_ne side) ..⟩

/-- One participant goes on. -/
theorem Underway.set (underway : lobby.Underway primitives names) (side : Side) (generated : Nat)
    {entrant : Entrant Chain Key} {lost : Prop}
    (moves : Entrant.Moves primitives (names side.other) (lobby.entrant side) entrant lost)
    (grows : (lobby.entrant side).keys.Extends entrant.keys)
    (genuine : entrant.Genuine (names side) (names side.other) (lobby.entrant side.other).keys)
    (ready : entrant.Ready)
    (newcomer : (lobby.entrant side).Newcomer → entrant.Newcomer)
    (kept : lost → entrant.answers = true ∨ entrant.hears = true ∨
      (lobby.entrant side.other).announces = true) :
    ({ lobby with generated }.set side entrant).Underway primitives names := by
  obtain ⟨here, there⟩ := entrant_set { lobby with generated } side entrant
  have peerGenuine := underway.genuine side.other
  rw [Side.other_other] at peerGenuine
  refine .of_sides side here there genuine (peerGenuine.peer_extends grows) ready
    (underway.ready side.other) (fun out => newcomer (underway.newcomer side out))
    (underway.newcomer side.other) (moves.drained (underway.drained side))
    (underway.drained side.other) ?_
  intro inside present
  have both : ∀ tested, lobby.admitted tested = true := by
    intro tested
    rcases Side.eq_or_other side tested with rfl | rfl
    · exact inside
    · exact present
  have mine := underway.introduces both side
  have theirs := underway.introduces both side.other
  rw [Side.other_other] at theirs
  constructor
  · constructor
    · rcases mine.answered with obtained | waits | sends | answers | hears | announces
      · exact .inl obtained
      · exact .inr (.inl waits)
      · exact .inr (.inr (.inl (moves.sends sends)))
      · rcases moves.answers answers with answers | sends | lost
        · exact .inr (.inr (.inr (.inl answers)))
        · exact .inr (.inr (.inl sends))
        · exact .inr (.inr (.inr (kept lost)))
      · rcases moves.hears hears with hears | ⟨answers, _⟩
        · exact .inr (.inr (.inr (.inr (.inl hears))))
        · exact .inr (.inr (.inr (.inl answers)))
      · exact .inr (.inr (.inr (.inr (.inr announces))))
    · rcases mine.derives with derives | hears | announces
      · exact .inl (moves.derives derives)
      · exact (moves.hears hears).elim (.inr ∘ .inl) (.inl ∘ And.right)
      · exact .inr (.inr announces)
  · constructor
    · rcases theirs.answered with obtained | waits | sends | answers | hears | announces
      · exact .inl (moves.obtained obtained)
      · exact (moves.waits waits).elim (.inr ∘ .inl) .inl
      · exact .inr (.inr (.inl sends))
      · exact .inr (.inr (.inr (.inl answers)))
      · exact .inr (.inr (.inr (.inr (.inl hears))))
      · exact .inr (.inr (.inr (.inr (.inr (moves.announces announces)))))
    · rcases theirs.derives with derives | hears | announces
      · exact .inl derives
      · exact .inr (.inl hears)
      · exact .inr (.inr (moves.announces announces))



/-- A handler goes on. -/
theorem Underway.resumes (underway : lobby.Underway primitives names) {side : Side} {position : Nat}
    {suspended : Suspended} (named : (lobby.entrant side).awaiting[position]? = some suspended)
    (careful : lobby.Careful (.resumes side position)) :
    (lobby.set side ({ lobby.entrant side with
      awaiting := (lobby.entrant side).awaiting.eraseIdx position }.resume (names side.other)
        suspended)).Underway primitives names := by
  obtain ⟨moves, genuine, ready, keys⟩ := Entrant.resume_at primitives
    (underway.genuine side) (underway.ready side) named
  refine underway.set side lobby.generated moves ?_ genuine ready (fun new => new.resume named) ?_
  · rw [keys]
    exact .refl _
  · rintro ⟨rfl, missing⟩
    have tried := careful named missing
    have passed : ({ lobby.entrant side with
        awaiting := (lobby.entrant side).awaiting.eraseIdx position } : Entrant Chain Key).resume
          (names side.other) (.draining []) =
        { lobby.entrant side with
          awaiting := (lobby.entrant side).awaiting.eraseIdx position } := by
      cases secret : (lobby.entrant side).sharedSecret with
      | none => simp only [Entrant.resume, Entrant.sendSenderKeyTo, secret]
      | some sharedSecret => simp only [Entrant.resume, Entrant.sendSenderKeyTo, secret, missing]
    rw [passed]
    exact tried

/-- A key is generated. -/
theorem Underway.generates (underway : lobby.Underway primitives names) (side : Side) :
    ({ lobby with generated := lobby.generated + 1 }.set side
      ((lobby.entrant side).generate (names side) lobby.generated)).Underway primitives names := by
  obtain ⟨keys, joined, broadcasted, mail, same⟩ :=
    @Entrant.generate_frame _ _ (names side) (lobby.entrant side) lobby.generated
  have grows := (lobby.entrant side).keys.grows_generate lobby.generated
  refine underway.set side _ (Entrant.generate_moves _) ?_ ((underway.genuine side).generate _)
    ?_ ?_ False.elim
  · rw [keys]
    exact grows
  · intro announced
    rw [broadcasted] at announced
    obtain ⟨inside, ready⟩ := underway.ready side announced
    obtain ⟨senderKeyRaw, has⟩ := Option.isSome_iff_exists.mp ready
    rw [joined, keys, grows.raw senderKeyRaw has]
    exact ⟨inside, rfl⟩
  · intro new
    rw [same]
    exact { new with }

/-- A participant joins. -/
theorem Underway.joins (underway : lobby.Underway primitives names) (side : Side)
    (out : (lobby.entrant side).joined = false) :
    (lobby.set side (lobby.entrant side).join).Underway primitives names := by
  have genuine := underway.genuine side
  have joined : ({ lobby.entrant side with joined := true } : Entrant Chain Key).Genuine
      (names side) (names side.other) (lobby.entrant side.other).keys := { genuine with }
  refine underway.set side lobby.generated Entrant.join_moves (.refl _)
    (joined.send .join trivial) ?_ (fun new => new.join out) False.elim
  exact fun announced => ⟨rfl, (underway.ready side announced).2⟩

/-- The broadcast starts. -/
theorem Underway.broadcasts (underway : lobby.Underway primitives names) (side : Side)
    (due : (lobby.entrant side).broadcastDue = true) :
    (lobby.set side (lobby.entrant side).broadcast).Underway primitives names := by
  have entered : (lobby.entrant side).joined = true ∧
      (lobby.entrant side).keys.senderKeyRaw.isSome = true := by
    simp only [Entrant.broadcastDue, Bool.and_eq_true] at due
    exact due.1.symm
  obtain ⟨keys, joined⟩ := (lobby.entrant side).broadcast_frame
  refine underway.set side lobby.generated
    (Entrant.broadcast_moves (Keys.pair_of_raw entered.2)) ?_ (underway.genuine side).broadcast ?_
    (fun new => new.broadcast due) False.elim
  · rw [keys]
    exact .refl _
  · intro announced
    rw [joined, keys]
    exact entered

/-- A message of the server is handled. -/
theorem Underway.delivers (underway : lobby.Underway primitives names) (side : Side)
    {message : LobbyMessage} {received : List LobbyMessage}
    (taken : (lobby.entrant side).received = message :: received) :
    (lobby.set side ({ lobby.entrant side with received }.handleMessage message)).Underway
      primitives names := by
  have genuine := underway.genuine side
  have rest : ({ lobby.entrant side with received } : Entrant Chain Key).Genuine (names side)
      (names side.other) (lobby.entrant side.other).keys :=
    { genuine with
      received := fun later listed =>
        genuine.received later (taken ▸ List.mem_cons_of_mem message listed) }
  have carries := genuine.received message (taken ▸ List.mem_cons_self)
  obtain ⟨keys, joined, broadcasted⟩ :=
    @Entrant.handleMessage_frame _ _ { lobby.entrant side with received } message
  refine underway.set side lobby.generated (Entrant.deliver_moves taken) ?_
    (rest.handleMessage carries) ?_ ?_ False.elim
  · rw [keys]
    exact .refl _
  · intro announced
    rw [broadcasted] at announced
    rw [joined, keys]
    exact underway.ready side announced
  · intro new
    rw [new.received] at taken
    cases taken

/-- The worker finishes handling a message. -/
theorem Underway.installs (underway : lobby.Underway primitives names)
    (distinct : ∀ side, names side ≠ names side.other) {side : Side} {position : Nat}
    {message : WorkerMessage Nat} (named : (lobby.entrant side).mail[position]? = some message) :
    (lobby.set side { lobby.entrant side with
      mail := (lobby.entrant side).mail.eraseIdx position
      worker := (lobby.entrant side).worker.receive primitives message }).Underway
        primitives names := by
  have genuine := underway.genuine side
  refine underway.set side lobby.generated
    (Entrant.install_moves (distinct side) genuine named) (.refl _) ?_
    (underway.ready side) (fun new => { new with }) False.elim
  exact { genuine with
    mail := fun later posted => genuine.mail later (List.mem_of_mem_eraseIdx posted) }



/-- A message delivered to one side is all that changes. -/
theorem entrant_deliver (lobby : Lobby Chain Key) (side : Side) (message : LobbyMessage) :
    (lobby.deliver side message).admitted = lobby.admitted ∧
      (lobby.deliver side message).entrant side = { lobby.entrant side with
        received := (lobby.entrant side).received ++ [message] } ∧
      (lobby.deliver side message).entrant side.other = lobby.entrant side.other :=
  ⟨rfl, entrant_set lobby side _⟩

/-- The other side is genuine towards this one. -/
theorem Underway.mirrored (underway : lobby.Underway primitives names) (side : Side) :
    (lobby.entrant side.other).Genuine (names side.other) (names side) (lobby.entrant side).keys := by
  have genuine := underway.genuine side.other
  rwa [Side.other_other] at genuine

/-- With both in the room, each is being introduced to the other. -/
theorem Underway.both (underway : lobby.Underway primitives names) {side : Side}
    (inside : lobby.admitted side = true) (present : lobby.admitted side.other = true) :
    Entrant.Introduces primitives (names side) (lobby.entrant side) (lobby.entrant side.other) ∧
      Entrant.Introduces primitives (names side.other) (lobby.entrant side.other)
        (lobby.entrant side) := by
  have all : ∀ tested, lobby.admitted tested = true := by
    intro tested
    rcases Side.eq_or_other side tested with rfl | rfl
    · exact inside
    · exact present
  have theirs := underway.introduces all side.other
  rw [Side.other_other] at theirs
  exact ⟨underway.introduces all side, theirs⟩

section Relaying

variable {side : Side} {message : LobbyMessage} {sent : List LobbyMessage}

/-- Only a `join` is taken from a participant that is not in the room. -/
theorem Underway.joins_first (underway : lobby.Underway primitives names)
    (taken : (lobby.entrant side).sent = message :: sent) (out : lobby.admitted side = false) :
    message = .join := by
  have newcomer := underway.newcomer side out
  cases joined : (lobby.entrant side).joined with
  | false =>
    rw [(newcomer.outside joined).1] at taken
    cases taken
  | true =>
    obtain ⟨later, first⟩ := newcomer.joining joined
    exact (List.cons.inj (taken.symm.trans first)).1

/-- A message that is passed on reaches the other side, if it is in the room. -/
theorem Underway.passes (underway : lobby.Underway primitives names)
    (taken : (lobby.entrant side).sent = message :: sent) (unlike : message ≠ .join) :
    (if lobby.admitted side.other then
        (lobby.set side { lobby.entrant side with sent }).deliver side.other message
      else lobby.set side { lobby.entrant side with sent }).Underway primitives names := by
  obtain ⟨here, there⟩ := entrant_set lobby side { lobby.entrant side with sent }
  have before := underway.genuine side
  have carries := before.sent message (taken ▸ List.mem_cons_self)
  have stays : lobby.admitted side = false →
      ({ lobby.entrant side with sent } : Entrant Chain Key).Newcomer :=
    fun out => absurd (underway.joins_first taken out) unlike
  cases present : lobby.admitted side.other with
  | false =>
    refine .of_sides side here there (before.taken taken) (underway.mirrored side)
      (underway.ready side) (underway.ready side.other) stays (underway.newcomer side.other)
      (underway.drained side) (underway.drained side.other) fun _ inside => ?_
    cases present.symm.trans inside
  | true =>
    obtain ⟨-, placed, kept⟩ :=
      entrant_deliver (lobby.set side { lobby.entrant side with sent }) side.other message
    rw [Side.other_other, here] at kept
    rw [there] at placed
    refine .of_sides side kept placed (before.taken taken) ((underway.mirrored side).placed carries)
      (underway.ready side) (underway.ready side.other) stays (fun out => ?_) (underway.drained side)
      (underway.drained side.other) fun inside _ => ?_
    · cases present.symm.trans out
    · obtain ⟨mine, theirs⟩ := underway.both inside present
      exact mine.passed theirs taken

/-- A message that carries no key and reaches nobody leaves the rest as it is. -/
theorem Underway.ignores (underway : lobby.Underway primitives names)
    (taken : (lobby.entrant side).sent = message :: sent) (unkeyed : message.isPublicKey = false)
    (unsealed : message.isSenderKey = false) (unlike : message ≠ .join) :
    (lobby.set side { lobby.entrant side with sent }).Underway primitives names := by
  obtain ⟨here, there⟩ := entrant_set lobby side { lobby.entrant side with sent }
  refine .of_sides side here there ((underway.genuine side).taken taken) (underway.mirrored side)
    (underway.ready side) (underway.ready side.other)
    (fun out => absurd (underway.joins_first taken out) unlike) (underway.newcomer side.other)
    (underway.drained side) (underway.drained side.other) fun inside present => ?_
  obtain ⟨mine, theirs⟩ := underway.both inside present
  have sends : ({ lobby.entrant side with sent } : Entrant Chain Key).sends =
      (lobby.entrant side).sends := by
    simp only [Entrant.sends, taken, List.any_cons, unsealed, Bool.false_or]
  have announces : ({ lobby.entrant side with sent } : Entrant Chain Key).announces =
      (lobby.entrant side).announces := by
    simp only [Entrant.announces, taken, List.any_cons, unkeyed, Bool.false_or]
  exact ⟨⟨sends ▸ mine.answered, mine.derives⟩, announces ▸ theirs.answered,
    announces ▸ theirs.derives⟩

/-- A participant is admitted. If the other one is there, both are shown to each other,
and each has its announcement ahead. -/
theorem Underway.admits (underway : lobby.Underway primitives names)
    (taken : (lobby.entrant side).sent = .join :: sent) :
    ((lobby.set side { lobby.entrant side with sent }).relay side .join).Underway
      primitives names := by
  let own : Entrant Chain Key := { lobby.entrant side with sent }
  let rest := lobby.set side own
  obtain ⟨here, there⟩ : rest.entrant side = own ∧
    rest.entrant side.other = lobby.entrant side.other := entrant_set lobby side own
  have genuine : own.Genuine (names side) (names side.other) (lobby.entrant side.other).keys :=
    (underway.genuine side).taken taken
  have peerGenuine := underway.mirrored side
  have ready := underway.ready side
  have peerReady := underway.ready side.other
  let admitting : Lobby Chain Key :=
    { rest with admitted := Function.update rest.admitted side true }
  have inside : admitting.admitted side = true := Function.update_self ..
  have others : admitting.admitted side.other = lobby.admitted side.other :=
    Function.update_of_ne (Side.other_ne side) ..
  change (if admitting.admitted side.other then (admitting.deliver side .present).deliver
    side.other .present else admitting).Underway primitives names
  cases present : admitting.admitted side.other with
  | false =>
    refine .of_sides side here there genuine peerGenuine ready peerReady (fun out => ?_)
      (fun out => underway.newcomer side.other (others ▸ out)) (underway.drained side)
      (underway.drained side.other) fun _ entered => ?_
    · cases inside.symm.trans out
    · cases present.symm.trans entered
  | true =>
    obtain ⟨-, shown, kept⟩ := entrant_deliver admitting side .present
    obtain ⟨-, placed, stays⟩ :=
      entrant_deliver (admitting.deliver side .present) side.other .present
    rw [Side.other_other, shown, show admitting.entrant side = own from here] at stays
    rw [kept, show admitting.entrant side.other = lobby.entrant side.other from there] at placed
    have mineShown : ({ own with
        received := own.received ++ [.present] } : Entrant Chain Key).announces = true :=
      ready.shown (by simp [LobbyMessage.isPresent])
    have theirsShown : ({ lobby.entrant side.other with
        received := (lobby.entrant side.other).received ++ [.present] } :
          Entrant Chain Key).announces = true :=
      peerReady.shown (by simp [LobbyMessage.isPresent])
    refine .of_sides side stays placed (genuine.placed trivial) (peerGenuine.placed trivial) ready
      peerReady (fun out => ?_) (fun out => ?_) (underway.drained side)
      (underway.drained side.other) fun _ _ => ?_
    · cases inside.symm.trans out
    · cases present.symm.trans out
    · exact ⟨⟨.inr (.inr (.inr (.inr (.inr theirsShown)))), .inr (.inr theirsShown)⟩,
        .inr (.inr (.inr (.inr (.inr mineShown)))), .inr (.inr mineShown)⟩

/-- The server takes a message. -/
theorem Underway.relays (underway : lobby.Underway primitives names)
    (taken : (lobby.entrant side).sent = message :: sent) :
    ((lobby.set side { lobby.entrant side with sent }).relay side message).Underway
      primitives names := by
  cases message with
  | publicKey key => exact underway.passes taken (by simp)
  | senderKey encryptedKey keyId => exact underway.passes taken (by simp)
  | present => exact underway.ignores taken rfl rfl (by simp)
  | requestKeyframe => exact underway.ignores taken rfl rfl (by simp)
  | join => exact underway.admits taken

end Relaying

/-- In a lobby that nobody has entered everything is under way. -/
theorem new_underway (primitives : Primitives Nat Chain Key) (names : Side → String) :
    (new : Lobby Chain Key).Underway primitives names := by
  have listed : ∀ {α : Type} {property : α → Prop}, ∀ element ∈ ([] : List α), property element :=
    fun _ inside => by cases inside
  constructor
  · intro side
    exact ⟨listed, listed, listed, nofun, nofun, listed, nofun, listed⟩
  · intro side announced
    cases announced
  · intro side out
    exact ⟨rfl, rfl, rfl, listed, fun _ => ⟨rfl, rfl⟩, nofun⟩
  · intro side
    rfl
  · intro inside
    cases inside .left

/-- A careful step keeps the laws. -/
theorem Underway.step (distinct : ∀ side, names side ≠ names side.other)
    (underway : lobby.Underway primitives names) {event : LobbyEvent}
    (careful : lobby.Careful event) (stepped : lobby.step primitives names event = some after) :
    after.Underway primitives names := by
  cases event with
  | generates side =>
    simp only [Lobby.step] at stepped
    split at stepped
    · cases stepped
      exact underway.generates side
    · cases stepped
  | joins side =>
    simp only [Lobby.step] at stepped
    split at stepped
    · cases stepped
    · rename_i out
      cases stepped
      exact underway.joins side (Bool.eq_false_iff.mpr out)
  | broadcasts side =>
    simp only [Lobby.step] at stepped
    split at stepped
    · rename_i due
      cases stepped
      exact underway.broadcasts side due
    · cases stepped
  | resumes side position =>
    obtain ⟨suspended, named, rfl⟩ := Option.map_eq_some_iff.mp stepped
    exact underway.resumes named careful
  | relays side =>
    obtain ⟨message, first, rfl⟩ := Option.map_eq_some_iff.mp stepped
    obtain ⟨sent, taken⟩ := List.head?_eq_some_iff.mp first
    rw [taken, List.tail_cons]
    exact underway.relays taken
  | delivers side =>
    obtain ⟨message, first, rfl⟩ := Option.map_eq_some_iff.mp stepped
    obtain ⟨received, taken⟩ := List.head?_eq_some_iff.mp first
    rw [taken, List.tail_cons]
    exact underway.delivers side taken
  | installs side position =>
    obtain ⟨message, named, rfl⟩ := Option.map_eq_some_iff.mp stepped
    exact underway.installs distinct named

/-- Once both have entered and nothing is left to do, whoever is not introduced would
still have something on the way. -/
theorem Underway.introduced (underway : lobby.Underway primitives names)
    (quiet : lobby.Quiescent) (entered : lobby.Entered) : lobby.Introduced primitives names := by
  have done : ∀ side, (lobby.entrant side).broadcasted = true := by
    intro side
    obtain ⟨joined, ready⟩ := entered side
    have due := (quiet side).2.2.2.2
    simpa [Entrant.broadcastDue, joined, ready] using due
  have inside : ∀ side, lobby.admitted side = true := by
    intro side
    cases out : lobby.admitted side with
    | true => rfl
    | false =>
      obtain ⟨later, waiting⟩ := (underway.newcomer side out).joining (entered side).1
      rw [(quiet side).2.2.1] at waiting
      cases waiting
  have silent : ∀ side, (lobby.entrant side).sends = false ∧
      (lobby.entrant side).answers = false ∧ (lobby.entrant side).hears = false ∧
        (lobby.entrant side).announces = false := by
    intro side
    obtain ⟨awaiting, mail, sent, received, -⟩ := quiet side
    simp [Entrant.sends, Entrant.answers, Entrant.hears, Entrant.announces, Entrant.linkable,
      awaiting, sent, received, done side]
  -- Nobody waits: the shared secret is there, and then no sender key is queued.
  have opened : ∀ side, (lobby.entrant side).waits = false := by
    intro side
    obtain ⟨awaiting, mail, sent, received, -⟩ := quiet side
    obtain ⟨-, -, mute, -⟩ := silent side
    obtain ⟨-, -, -, unspoken⟩ := silent side.other
    have derived : (lobby.entrant side).derives = true := by
      rcases (underway.introduces inside side).derives with derives | hears | announces
      · exact derives
      · cases mute.symm.trans hears
      · cases unspoken.symm.trans announces
    have secret : (lobby.entrant side).sharedSecret.isSome = true := by
      simpa [Entrant.derives, Entrant.linkable, awaiting, done side] using derived
    have drained := underway.drained side
    simp only [Entrant.drained, awaiting, List.any_nil, Bool.or_false, Bool.or_eq_true,
      Option.isNone_iff_eq_none] at drained
    have empty : (lobby.entrant side).pendingSenderKeys.isEmpty = true := by
      rcases drained with missing | empty
      · simp [missing] at secret
      · exact empty
    simp [Entrant.waits, awaiting, received, empty]
  intro side
  have answered := (underway.introduces inside side.other).answered
  rw [Side.other_other] at answered
  obtain ⟨-, mail, -⟩ := quiet side
  obtain ⟨unsent, unanswered, unheard, -⟩ := silent side.other
  have obtained : (lobby.entrant side).Obtained primitives (names side.other) := by
    rcases answered with obtained | waits | sends | answers | hears | announces
    · exact obtained
    · cases (opened side).symm.trans waits
    · cases unsent.symm.trans sends
    · cases unanswered.symm.trans answers
    · cases unheard.symm.trans hears
    · cases (silent side).2.2.2.symm.trans announces
  obtain ⟨key, held, installed | posted⟩ := obtained
  · obtain ⟨senderKeyRaw, has, rfl⟩ := (underway.genuine side).obtained key held
    exact ⟨senderKeyRaw, has, held, installed⟩
  · rw [mail] at posted
    cases posted

/-- Two participants that enter a room are introduced. No participant comes to send its
sender key before it is generated, unless a public key of the other will be handled
afterwards; then in every state in which both have joined and have their keys and
nothing is left to do, each has installed the other's sender key.

The invariant says what is ahead of each side: a key to be made, a public key to be handled,
a sender key to be sent or taken up. When nothing is left to do, nothing is ahead, and the
key is there. -/
theorem newcomers_introduced (distinct : ∀ side, names side ≠ names side.other)
    (reached : Reaches (Lobby.step primitives names) Careful new lobby)
    (quiet : lobby.Quiescent) (entered : lobby.Entered) : lobby.Introduced primitives names := by
  have underway := reached.invariant (Underway primitives names) (new_underway primitives names)
    fun before event after held careful stepped => held.step distinct careful stepped
  exact underway.introduced quiet entered

instance (lobby : Lobby Chain Key) : (event : LobbyEvent) → Decidable (lobby.Careful event)
  | .resumes side position => by
    dsimp only [Careful]
    infer_instance
  | .generates _ | .joins _ | .broadcasts _ | .relays _ | .delivers _ | .installs _ _ =>
    isTrue trivial

section Sample

/-- The names of the two sides. -/
def sampleNames : Side → String
  | .left => "alice"
  | .right => "bob"

/-- A participant is shown the other and announces its key. -/
def noticed (side : Side) : List LobbyEvent :=
  [.delivers side, .resumes side 0, .resumes side 0, .relays side]

/-- A public key is handled, up to the sender key. -/
def heard (side : Side) : List LobbyEvent :=
  [.delivers side, .resumes side 0, .resumes side 0, .resumes side 0, .resumes side 0]

/-- The sender key is sent. -/
def answered (side : Side) : List LobbyEvent := [.resumes side 0, .relays side]

/-- A sender key is decrypted and installed. -/
def learned (side : Side) : List LobbyEvent :=
  [.delivers side, .resumes side 0, .installs side 0, .relays side]

/-- Bob enters an empty room with its keys. -/
def bobEntered : List LobbyEvent :=
  [.generates .right, .generates .right, .installs .right 0, .joins .right, .relays .right,
    .broadcasts .right, .resumes .right 0, .relays .right]

/-- Alice joins with a key pair. -/
def aliceJoined : List LobbyEvent := [.generates .left, .joins .left, .relays .left]

/-- Alice's sender key is there, and its broadcast is sent. -/
def aliceReady : List LobbyEvent :=
  [.generates .left, .installs .left 0, .broadcasts .left, .resumes .left 0, .relays .left]

/-- Alice's sender key is there when it handles bob's public key. -/
def alicePrompt : List LobbyEvent :=
  bobEntered ++ aliceJoined ++ aliceReady ++ noticed .right ++ noticed .left
    ++ heard .left ++ heard .right ++ answered .right ++ heard .right ++ answered .right
    ++ answered .left ++ learned .right ++ learned .left ++ learned .left

/-- Alice handles bob's public key between its two keys. -/
def aliceEarly : List LobbyEvent :=
  bobEntered ++ aliceJoined ++ noticed .right ++ noticed .left ++ heard .left
    ++ heard .right ++ answered .right ++ learned .left
    ++ aliceReady ++ heard .right ++ answered .right ++ learned .left

/-- In time, both are introduced. -/
theorem newcomers_introduced_prompt :
    ((walk (step samplePrimitives sampleNames) Careful new alicePrompt).getD new).Introduced
      samplePrimitives sampleNames := by
  apply newcomers_introduced (fun side => by cases side <;> decide)
    (walk_reaches_end _ _ _ _ (by decide +kernel))
  · intro side
    cases side <;> decide +kernel
  · intro side
    cases side <;> decide +kernel

/-- Too early, bob never gets alice's sender key. -/
theorem newcomer_unintroduced : ∃ lobby : Lobby SampleKey SampleKey,
    Reaches (step samplePrimitives sampleNames) always new lobby ∧ lobby.Quiescent ∧
      lobby.Entered ∧ ¬ lobby.Introduced samplePrimitives sampleNames := by
  refine ⟨(walk (step samplePrimitives sampleNames) always new aliceEarly).getD new,
    walk_reaches_end _ _ _ _ (by decide +kernel), ?_, ?_, ?_⟩
  · intro side
    cases side <;> decide +kernel
  · intro side
    cases side <;> decide +kernel
  · intro introduced
    obtain ⟨senderKeyRaw, -, held, -⟩ := introduced .right
    have missing : (((walk (step samplePrimitives sampleNames) always new aliceEarly).getD
      new).entrant .right).peerSenderKey = none := by decide +kernel
    cases missing.symm.trans held

end Sample

end Lobby

end Seameet.E2ee

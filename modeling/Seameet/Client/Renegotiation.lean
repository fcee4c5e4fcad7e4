import Seameet.Library.Runs
import Seameet.Signaling.Message

/-!
# The browser's renegotiations

The browser handles the server's messages one at a time, each to its end. A change of
the media lines asks for a new offer, from a message or from the page. While one offer
is out, further requests are noted once and made good when its answer has been applied,
or when ten seconds have passed without one.

The messages are handled in the order they came in, whatever fails. No request is lost:
while no offer has been begun since the last request, one is owed. Once nothing is under
way any more the lock is free and nothing is owed, unless the browser refused to make an
offer, which leaves the lock taken without a timer that frees it.
-/

namespace Seameet

open Library

/-- What the message in hand waits for. -/
inductive Stage where
  /-- The first offer of a connection. -/
  | opening
  /-- An answer is being applied. -/
  | settling
  /-- A further offer. -/
  | building
  /-- Nothing that the lock depends on. -/
  | passing
  deriving DecidableEq, Repr

/-- The refs of `useWebRTC` that order messages and offers, with the browser's timers and
microtasks. The last five fields are records for the statements. -/
structure Renegotiation where
  /-- Whether there is a peer connection. -/
  pc : Bool
  renegotiating : Bool
  renegotiationPending : Bool
  renegotiationTimer : Option Nat
  /-- The pending watchdogs. -/
  timers : List Nat
  timersSet : Nat
  /-- Renegotiations put off to a microtask. -/
  microtasks : Nat
  messageQueue : List SdpMessage
  /-- The message in hand, if one is being processed. -/
  processing : Option (SdpMessage × Stage)
  /-- Further offers the page waits for, beside the message in hand. -/
  building : Nat
  /-- How many requests there have been, and how many of them when an offer was last begun. -/
  demanded : Nat
  covered : Nat
  received : List SdpMessage
  handled : List SdpMessage
  /-- Whether an offer was refused under the lock, since it was last free. -/
  refused : Bool

namespace Renegotiation

/-- No connection yet, nothing received, nothing under way. -/
def new : Renegotiation :=
  { pc := false, renegotiating := false, renegotiationPending := false, renegotiationTimer := none,
    timers := [], timersSet := 0, microtasks := 0, messageQueue := [], processing := none,
    building := 0, demanded := 0, covered := 0, received := [], handled := [], refused := false }

variable (state : Renegotiation)

/-- Frees the lock, and puts a noted renegotiation off to a microtask. -/
def finishRenegotiation : Renegotiation :=
  let state :=
    match state.renegotiationTimer with
    | some timer =>
      { state with timers := state.timers.filter (· ≠ timer), renegotiationTimer := none }
    | none => state
  let state := { state with renegotiating := false, refused := false }
  if state.renegotiationPending then
    { state with renegotiationPending := false, microtasks := state.microtasks + 1 }
  else state

/-- Makes an offer, or notes that one is due, and says whether it is waited for. -/
def renegotiate : Bool × Renegotiation :=
  if state.pc = false then (false, state)
  else if state.renegotiating then (false, { state with renegotiationPending := true })
  else (true, { state with renegotiating := true, covered := state.demanded })

/-- The lines of the connection change. -/
def demand : Renegotiation :=
  if state.pc then { state with demanded := state.demanded + 1 } else state

/-- The offer is sent, and its watchdog is set. -/
def offered : Renegotiation :=
  { state with
    timers := state.timers ++ [state.timersSet]
    renegotiationTimer := some state.timersSet
    timersSet := state.timersSet + 1 }

/-- Begins a message, up to where it first waits. -/
def processMessage (message : SdpMessage) : Renegotiation :=
  match message with
  | .ready _ _ _ _ =>
    { state with pc := true, covered := state.demanded, processing := some (message, .opening) }
  | .answer _ _ _ _ =>
    { state with processing := some (message, if state.pc then .settling else .passing) }
  | .requestRenegotiation _ _ =>
    let (waits, state) := state.demand.renegotiate
    { state with processing := some (message, if waits then .building else .passing) }
  | _ => { state with processing := some (message, .passing) }

/-- Takes the next message, unless one is in hand. -/
def drainQueue : Renegotiation :=
  match state.processing, state.messageQueue with
  | none, message :: rest => { state with messageQueue := rest }.processMessage message
  | _, _ => state

/-- A message is put in line, and the next one begun if none is in hand. -/
def handleMessage (message : SdpMessage) : Renegotiation :=
  { state with
    messageQueue := state.messageQueue ++ [message]
    received := state.received ++ [message] }.drainQueue

/-- What is left to do for a message once the browser has answered. -/
def complete (resolves : Bool) : Stage → Renegotiation
  | .opening => if resolves then { state with renegotiating := true }.offered else state
  | .settling => state.finishRenegotiation
  | .building => if resolves then state.offered else { state with refused := state.renegotiating }
  | .passing => state

/-- A renegotiation that no message waits for. -/
def renegotiateAside : Renegotiation :=
  let (waits, state) := state.renegotiate
  if waits then { state with building := state.building + 1 } else state

end Renegotiation

/-- Something that happens to the hook. -/
inductive RenegotiationEvent where
  | receives (message : SdpMessage)
  /-- The browser answers what the message in hand waits for. -/
  | proceeds (resolves : Bool)
  /-- The page changes its lines, or restarts the connection. -/
  | requests
  /-- The browser makes an offer for the page, or refuses to. -/
  | makes (resolves : Bool)
  | fires (timer : Nat)
  | runsMicrotask

namespace Renegotiation

/-- One event. -/
def step (state : Renegotiation) : RenegotiationEvent → Option Renegotiation
  | .receives message => some (state.handleMessage message)
  | .proceeds resolves =>
    match state.processing with
    | some (message, stage) =>
      let state := state.complete resolves stage
      some { state with processing := none, handled := state.handled ++ [message] }.drainQueue
    | none => none
  | .requests => some state.demand.renegotiateAside
  | .makes resolves =>
    if 0 < state.building then
      let state := { state with building := state.building - 1 }
      some (if resolves then state.offered else { state with refused := state.renegotiating })
    else none
  | .fires timer =>
    if timer ∈ state.timers then
      let state := { state with timers := state.timers.filter (· ≠ timer) }
      some (if state.renegotiating then state.finishRenegotiation else state)
    else none
  | .runsMicrotask =>
    if 0 < state.microtasks then
      some { state with microtasks := state.microtasks - 1 }.renegotiateAside
    else none

end Renegotiation

variable {state : Renegotiation}

section Messages

namespace Renegotiation

/-- The messages that came in, in order: those that were handled, the one in hand, and
those that wait. None waits while none is in hand. -/
structure Ordered (state : Renegotiation) : Prop where
  line : state.handled ++ (state.processing.map Prod.fst).toList ++ state.messageQueue = state.received
  busy : state.processing = none → state.messageQueue = []

/-- The messages are the same in both states, and so is the one in hand. -/
structure SameMail (before after : Renegotiation) : Prop where
  queue : after.messageQueue = before.messageQueue
  inHand : after.processing = before.processing
  received : after.received = before.received
  handled : after.handled = before.handled

/-- What two steps in a row leave of the messages. -/
theorem SameMail.trans {before between after : Renegotiation} (first : before.SameMail between)
    (second : between.SameMail after) : before.SameMail after :=
  ⟨second.queue.trans first.queue, second.inHand.trans first.inHand,
    second.received.trans first.received, second.handled.trans first.handled⟩

/-- The messages stay in order where none of them is moved. -/
theorem SameMail.ordered {before after : Renegotiation} (same : before.SameMail after)
    (ordered : before.Ordered) : after.Ordered := by
  constructor
  · rw [same.handled, same.inHand, same.queue, same.received]
    exact ordered.line
  · rw [same.inHand, same.queue]
    exact ordered.busy

/-- The end of a negotiation moves no message. -/
theorem finishRenegotiation_mail (state : Renegotiation) :
    state.SameMail state.finishRenegotiation := by
  unfold finishRenegotiation
  cases state.renegotiationTimer <;> dsimp only <;> split <;> exact ⟨rfl, rfl, rfl, rfl⟩

/-- An offer that is begun, or noted for later, moves no message. -/
theorem renegotiate_mail (state : Renegotiation) : state.SameMail state.renegotiate.2 := by
  unfold renegotiate
  split
  · exact ⟨rfl, rfl, rfl, rfl⟩
  · split <;> exact ⟨rfl, rfl, rfl, rfl⟩

/-- A request that is counted moves no message. -/
theorem demand_mail (state : Renegotiation) : state.SameMail state.demand := by
  unfold demand
  split <;> exact ⟨rfl, rfl, rfl, rfl⟩

/-- Nor does an offer that is begun beside the messages. -/
theorem renegotiateAside_mail (state : Renegotiation) : state.SameMail state.renegotiateAside := by
  have same := renegotiate_mail state
  unfold renegotiateAside
  dsimp only
  split
  · exact ⟨same.queue, same.inHand, same.received, same.handled⟩
  · exact same

/-- What is done behind a wait moves no message; the message in hand is put away afterwards. -/
theorem complete_mail (state : Renegotiation) (resolves : Bool) (stage : Stage) :
    state.SameMail (state.complete resolves stage) := by
  cases stage with
  | opening => cases resolves <;> exact ⟨rfl, rfl, rfl, rfl⟩
  | settling => exact finishRenegotiation_mail state
  | building => cases resolves <;> exact ⟨rfl, rfl, rfl, rfl⟩
  | passing => exact ⟨rfl, rfl, rfl, rfl⟩

/-- A message that is begun is the one in hand. -/
theorem processMessage_mail (state : Renegotiation) (message : SdpMessage) :
    ∃ stage, (state.processMessage message).processing = some (message, stage) ∧
      (state.processMessage message).messageQueue = state.messageQueue ∧
      (state.processMessage message).received = state.received ∧
      (state.processMessage message).handled = state.handled := by
  cases message with
  | requestRenegotiation _ _ =>
    have same := (demand_mail state).trans (renegotiate_mail state.demand)
    exact ⟨_, rfl, same.queue, same.received, same.handled⟩
  | _ => exact ⟨_, rfl, rfl, rfl, rfl⟩

/-- Taking the next message restores the line when none is in hand. -/
theorem drainQueue_ordered
    (line : state.handled ++ (state.processing.map Prod.fst).toList ++ state.messageQueue =
      state.received) : state.drainQueue.Ordered := by
  unfold drainQueue
  split
  · next message rest idle queue =>
    obtain ⟨stage, inHand, waiting, received, handled⟩ :=
      processMessage_mail { state with messageQueue := rest } message
    constructor
    · rw [inHand, waiting, received, handled, ← line, idle, queue]
      simp
    · rw [inHand]
      exact nofun
  · next busy =>
    refine ⟨line, ?_⟩
    intro idle
    cases queue : state.messageQueue with
    | nil => rfl
    | cons message rest => exact absurd queue (busy message rest idle)

/-- One event keeps the messages in order. Only a message that arrives, and one that is done,
are moved. -/
theorem step_ordered {event : RenegotiationEvent} {after : Renegotiation}
    (ordered : state.Ordered) (stepped : state.step event = some after) : after.Ordered := by
  cases event with
  | receives message =>
    obtain rfl := Option.some.inj stepped
    refine drainQueue_ordered ?_
    rw [← ordered.line, List.append_assoc _ state.messageQueue]
  | proceeds resolves =>
    simp only [step] at stepped
    split at stepped
    · next message stage inHand =>
      obtain rfl := Option.some.inj stepped
      have same := complete_mail state resolves stage
      refine drainQueue_ordered ?_
      dsimp only
      rw [same.handled, same.queue, same.received, ← ordered.line, inHand]
      simp
    · cases stepped
  | requests =>
    obtain rfl := Option.some.inj stepped
    exact ((demand_mail state).trans (renegotiateAside_mail _)).ordered ordered
  | makes resolves =>
    simp only [step] at stepped
    split at stepped
    · obtain rfl := Option.some.inj stepped
      cases resolves <;> exact ⟨ordered.line, ordered.busy⟩
    · cases stepped
  | fires timer =>
    simp only [step] at stepped
    split at stepped
    · obtain rfl := Option.some.inj stepped
      split
      · exact (finishRenegotiation_mail _).ordered ⟨ordered.line, ordered.busy⟩
      · exact ⟨ordered.line, ordered.busy⟩
    · cases stepped
  | runsMicrotask =>
    simp only [step] at stepped
    split at stepped
    · obtain rfl := Option.some.inj stepped
      exact (renegotiateAside_mail _).ordered ⟨ordered.line, ordered.busy⟩
    · cases stepped

end Renegotiation

/-- In every state the messages that came in are those handled so far, then the one in
hand, then those that wait, in the order they came in; and one is in hand while any
waits.

The messages form one queue, of which the first is in hand. A step takes the next one in
hand when the one before is done. -/
theorem messages_in_order (reached : Reaches Renegotiation.step always .new state) :
    state.Ordered := by
  refine reached.invariant Renegotiation.Ordered ⟨rfl, fun _ => rfl⟩ ?_
  intro before event after ordered _ stepped
  exact Renegotiation.step_ordered ordered stepped

end Messages

section Offers

namespace Renegotiation

/-- Nothing is under way. -/
structure AtRest (state : Renegotiation) : Prop where
  processing : state.processing = none
  building : state.building = 0
  timers : state.timers = []
  microtasks : state.microtasks = 0

/-- A renegotiation is noted under the lock only. A taken lock has an offer under way or
a timer that frees it, or was left so by a refused offer. -/
structure Guarded (state : Renegotiation) : Prop where
  connected : state.covered ≠ state.demanded → state.pc = true
  noted : state.renegotiationPending = true → state.renegotiating = true
  guarded : state.renegotiating = true → 0 < state.building ∨
    state.processing.map Prod.snd = some .building ∨ state.timers ≠ [] ∨ state.refused = true
  stuck : state.refused = true → state.renegotiating = true

/-- A request that no offer was begun after is noted, or about to be offered. -/
structure Owing (state : Renegotiation) : Prop extends Guarded state where
  owed : state.covered ≠ state.demanded →
    state.renegotiationPending = true ∨ 0 < state.microtasks

/-- The parts of a state that say what is owed are the same in both states. -/
structure SameLock (before after : Renegotiation) : Prop where
  pc : after.pc = before.pc
  renegotiating : after.renegotiating = before.renegotiating
  renegotiationPending : after.renegotiationPending = before.renegotiationPending
  timers : after.timers = before.timers
  microtasks : after.microtasks = before.microtasks
  building : after.building = before.building
  demanded : after.demanded = before.demanded
  covered : after.covered = before.covered
  refused : after.refused = before.refused

/-- What is owed stays so when the message in hand is exchanged for one that is not
waited for under the lock, if the one before was not either. -/
theorem Owing.exchange {before after : Renegotiation} (owing : before.Owing)
    (same : before.SameLock after)
    (aside : before.processing.map Prod.snd = some .building →
      after.processing.map Prod.snd = some .building) : after.Owing := by
  refine ⟨⟨?_, ?_, ?_, ?_⟩, ?_⟩
  · rw [same.covered, same.demanded, same.pc]
    exact owing.connected
  · rw [same.renegotiationPending, same.renegotiating]
    exact owing.noted
  · rw [same.renegotiating, same.building, same.timers, same.refused]
    intro taken
    rcases owing.guarded taken with building | inHand | timed | refused
    · exact .inl building
    · exact .inr (.inl (aside inHand))
    · exact .inr (.inr (.inl timed))
    · exact .inr (.inr (.inr refused))
  · rw [same.refused, same.renegotiating]
    exact owing.stuck
  · rw [same.covered, same.demanded, same.renegotiationPending, same.microtasks]
    exact owing.owed

/-- Freeing the lock leaves what was noted about to be offered. -/
theorem finishRenegotiation_owing (connected : state.covered ≠ state.demanded → state.pc = true)
    (owed : state.covered ≠ state.demanded →
      state.renegotiationPending = true ∨ 0 < state.microtasks) :
    state.finishRenegotiation.Owing := by
  unfold finishRenegotiation
  cases state.renegotiationTimer <;> dsimp only
  all_goals
    split
    · exact ⟨⟨connected, nofun, nofun, nofun⟩, fun _ => .inr (Nat.succ_pos _)⟩
    · next unnoted =>
      refine ⟨⟨connected, fun noted => absurd noted unnoted, nofun, nofun⟩, ?_⟩
      exact fun short => .inr ((owed short).resolve_left unnoted)

/-- A request changes the lines of a connection only. -/
theorem Guarded.demand (guarded : state.Guarded) : state.demand.Guarded := by
  unfold Renegotiation.demand
  split
  · next connected => exact ⟨fun _ => connected, guarded.noted, guarded.guarded, guarded.stuck⟩
  · exact guarded

/-- A renegotiation makes an offer of all that was requested, or is noted. -/
inductive Renegotiates (state : Renegotiation) : Bool × Renegotiation → Prop where
  | unconnected (apart : state.pc = false) : Renegotiates state (false, state)
  | notes (connected : state.pc = true) (taken : state.renegotiating = true) :
      Renegotiates state (false, { state with renegotiationPending := true })
  | builds (connected : state.pc = true) (free : state.renegotiating = false) :
      Renegotiates state (true, { state with renegotiating := true, covered := state.demanded })

/-- An offer is begun, or noted because another one is under way, or there is no connection. -/
theorem renegotiate_cases (state : Renegotiation) : Renegotiates state state.renegotiate := by
  unfold renegotiate
  split
  · next apart => exact .unconnected apart
  · next connected =>
    rw [Bool.not_eq_false] at connected
    split
    · next taken => exact .notes connected taken
    · next free => exact .builds connected (Bool.not_eq_true _ ▸ free)

/-- Without a connection nothing is left to offer. -/
theorem Guarded.settled (guarded : state.Guarded) (apart : state.pc = false) :
    state.covered = state.demanded := by
  refine Decidable.byContradiction fun short => ?_
  exact absurd ((guarded.connected short).symm.trans apart) nofun

/-- Where a request was just counted, an offer begun or noted for it is owed to nobody. -/
theorem Guarded.renegotiateAside (guarded : state.Guarded) : state.renegotiateAside.Owing := by
  have outcome := renegotiate_cases state
  unfold Renegotiation.renegotiateAside
  generalize state.renegotiate = result at outcome
  cases outcome with
  | unconnected apart => exact ⟨guarded, fun short => absurd (guarded.settled apart) short⟩
  | notes connected taken =>
    exact ⟨⟨fun _ => connected, fun _ => taken, guarded.guarded, guarded.stuck⟩, fun _ => .inl rfl⟩
  | builds connected free =>
    exact ⟨⟨fun _ => connected, fun _ => rfl, fun _ => .inl (Nat.succ_pos _), fun _ => rfl⟩,
      fun short => absurd rfl short⟩

/-- Beginning a message keeps what is owed. -/
theorem Owing.processMessage (owing : state.Owing) (idle : state.processing = none)
    (message : SdpMessage) : (state.processMessage message).Owing := by
  have aside : ∀ {after : Renegotiation}, state.SameLock after → after.Owing := by
    intro after same
    refine owing.exchange same ?_
    rw [idle]
    exact nofun
  cases message with
  | ready _ _ _ _ =>
    refine ⟨⟨fun _ => rfl, owing.noted, ?_, owing.stuck⟩, fun short => absurd rfl short⟩
    intro taken
    rcases owing.guarded taken with building | inHand | left
    · exact .inl building
    · rw [idle] at inHand
      cases inHand
    · exact .inr (.inr left)
  | requestRenegotiation _ _ =>
    have guarded := owing.toGuarded.demand
    have same := demand_mail state
    have outcome := renegotiate_cases state.demand
    simp only [Renegotiation.processMessage]
    generalize state.demand.renegotiate = result at outcome
    have unwaited : state.demand.renegotiating = true → 0 < state.demand.building ∨
        state.demand.timers ≠ [] ∨ state.demand.refused = true := by
      intro taken
      rcases guarded.guarded taken with building | inHand | left
      · exact .inl building
      · rw [same.inHand, idle] at inHand
        cases inHand
      · exact .inr left
    cases outcome with
    | unconnected apart =>
      refine ⟨⟨guarded.connected, guarded.noted, ?_, guarded.stuck⟩,
        fun short => absurd (guarded.settled apart) short⟩
      exact fun taken => (unwaited taken).imp_right .inr
    | notes connected taken =>
      refine ⟨⟨fun _ => connected, fun _ => taken, ?_, guarded.stuck⟩, fun _ => .inl rfl⟩
      exact fun taken => (unwaited taken).imp_right .inr
    | builds connected free =>
      exact ⟨⟨fun _ => connected, fun _ => rfl, fun _ => .inr (.inl rfl), fun _ => rfl⟩,
        fun short => absurd rfl short⟩
  | _ => exact aside ⟨rfl, rfl, rfl, rfl, rfl, rfl, rfl, rfl, rfl⟩

/-- Beginning the next message keeps what is owed. -/
theorem Owing.drainQueue (owing : state.Owing) : state.drainQueue.Owing := by
  unfold Renegotiation.drainQueue
  split
  · next message rest idle queue =>
    have shorter : ({ state with messageQueue := rest } : Renegotiation).Owing :=
      owing.exchange ⟨rfl, rfl, rfl, rfl, rfl, rfl, rfl, rfl, rfl⟩ id
    exact shorter.processMessage idle message
  · exact owing

/-- A message that is done keeps what is owed. -/
theorem Owing.complete (owing : state.Owing) {message : SdpMessage} {stage : Stage}
    (inHand : state.processing = some (message, stage)) (resolves : Bool)
    (handled : List SdpMessage) :
    ({ state.complete resolves stage with processing := none, handled } : Renegotiation).Owing := by
  -- only a further offer is waited for under the lock
  have unwaited : stage ≠ .building → state.renegotiating = true → 0 < state.building ∨
      state.timers ≠ [] ∨ state.refused = true := by
    intro otherwise taken
    rcases owing.guarded taken with building | waited | left
    · exact .inl building
    · rw [inHand] at waited
      exact absurd (Option.some.inj waited) otherwise
    · exact .inr left
  have timed : state.offered.timers ≠ [] := by simp [Renegotiation.offered]
  cases stage with
  | opening =>
    cases resolves with
    | true =>
      exact ⟨⟨owing.connected, fun _ => rfl, fun _ => .inr (.inr (.inl timed)), fun _ => rfl⟩,
        owing.owed⟩
    | false =>
      refine ⟨⟨owing.connected, owing.noted, ?_, owing.stuck⟩, owing.owed⟩
      exact fun taken => (unwaited nofun taken).imp_right .inr
  | settling =>
    have finished := finishRenegotiation_owing owing.connected owing.owed
    have same := finishRenegotiation_mail state
    refine finished.exchange ⟨rfl, rfl, rfl, rfl, rfl, rfl, rfl, rfl, rfl⟩ ?_
    rw [same.inHand, inHand]
    exact nofun
  | building =>
    cases resolves with
    | true =>
      exact ⟨⟨owing.connected, owing.noted, fun _ => .inr (.inr (.inl timed)), owing.stuck⟩,
        owing.owed⟩
    | false =>
      exact ⟨⟨owing.connected, owing.noted, fun taken => .inr (.inr (.inr taken)), id⟩, owing.owed⟩
  | passing =>
    refine ⟨⟨owing.connected, owing.noted, ?_, owing.stuck⟩, owing.owed⟩
    exact fun taken => (unwaited nofun taken).imp_right .inr

/-- One event keeps what is owed. -/
theorem step_owing {event : RenegotiationEvent} {after : Renegotiation} (owing : state.Owing)
    (stepped : state.step event = some after) : after.Owing := by
  cases event with
  | receives message =>
    obtain rfl := Option.some.inj stepped
    refine Owing.drainQueue ?_
    exact owing.exchange ⟨rfl, rfl, rfl, rfl, rfl, rfl, rfl, rfl, rfl⟩ id
  | proceeds resolves =>
    simp only [step] at stepped
    split at stepped
    · next message stage inHand =>
      obtain rfl := Option.some.inj stepped
      exact (owing.complete inHand resolves _).drainQueue
    · cases stepped
  | requests =>
    obtain rfl := Option.some.inj stepped
    exact owing.toGuarded.demand.renegotiateAside
  | makes resolves =>
    simp only [step] at stepped
    split at stepped
    · obtain rfl := Option.some.inj stepped
      cases resolves with
      | true =>
        exact ⟨⟨owing.connected, owing.noted,
          fun _ => .inr (.inr (.inl (by simp [Renegotiation.offered]))), owing.stuck⟩, owing.owed⟩
      | false =>
        exact ⟨⟨owing.connected, owing.noted, fun taken => .inr (.inr (.inr taken)), id⟩, owing.owed⟩
    · cases stepped
  | fires timer =>
    simp only [step] at stepped
    split at stepped
    · obtain rfl := Option.some.inj stepped
      split
      · exact finishRenegotiation_owing owing.connected owing.owed
      · next free =>
        exact ⟨⟨owing.connected, owing.noted, fun taken => absurd taken free, owing.stuck⟩, owing.owed⟩
    · cases stepped
  | runsMicrotask =>
    simp only [step] at stepped
    split at stepped
    · obtain rfl := Option.some.inj stepped
      refine Guarded.renegotiateAside ?_
      exact ⟨owing.connected, owing.noted, owing.guarded, owing.stuck⟩
    · cases stepped

/-- So it is in every state that is reached. -/
theorem reached_owing (reached : Reaches Renegotiation.step always .new state) : state.Owing := by
  refine reached.invariant Renegotiation.Owing ?_ ?_
  · exact ⟨⟨fun short => absurd rfl short, nofun, nofun, nofun⟩, fun short => absurd rfl short⟩
  · intro before event after owing _ stepped
    exact step_owing owing stepped

end Renegotiation

/-- In every state, while no offer has been begun since the last request a renegotiation is
noted or about to run. Once nothing is under way, the lock is taken exactly when an offer
was refused under it; and if it is free, an offer was begun since the last request.

The invariant has a half for each direction: who holds the lock, and what is owed to the
last request. At rest the first leaves a refusal only, and the second an offer. -/
theorem requests_offered (reached : Reaches Renegotiation.step always .new state) :
    (state.covered ≠ state.demanded → state.renegotiationPending = true ∨ 0 < state.microtasks) ∧
      (state.AtRest → (state.renegotiating = true ↔ state.refused = true) ∧
        (state.renegotiating = false → state.covered = state.demanded)) := by
  have owing := Renegotiation.reached_owing reached
  refine ⟨owing.owed, ?_⟩
  intro rest
  refine ⟨⟨?_, owing.stuck⟩, ?_⟩
  · intro taken
    rcases owing.guarded taken with building | inHand | timed | refused
    · rw [rest.building] at building
      cases building
    · rw [rest.processing] at inHand
      cases inHand
    · exact absurd rest.timers timed
    · exact refused
  · intro free
    refine Decidable.byContradiction fun short => ?_
    rcases owing.owed short with noted | queued
    · exact absurd ((owing.noted noted).symm.trans free) nofun
    · rw [rest.microtasks] at queued
      cases queued

end Offers

section Sample

/-- Two peers join while the first offer is out, and the browser refuses the last of the
offers that follow. -/
def crowding : List RenegotiationEvent :=
  [.receives (.ready "r" true [] []), .receives (.requestRenegotiation "r" 1), .proceeds true,
    .proceeds true, .requests, .receives (.answer ⟨1⟩ ⟨1⟩ "r" "sdp"), .proceeds true, .runsMicrotask,
    .makes true, .requests, .fires 1, .runsMicrotask, .makes false]

/-- The hook after some of these events. -/
def crowded (count : Nat) : Renegotiation :=
  (walk Renegotiation.step always .new (crowding.take count)).getD .new

/-- The hook after so many of these events is reached, if they can all happen. -/
theorem crowded_reached (count : Nat)
    (completes : (walk Renegotiation.step always .new (crowding.take count)).isSome = true) :
    Reaches Renegotiation.step always .new (crowded count) :=
  walk_reaches_end Renegotiation.step always .new (crowding.take count) completes

/-- A message waits behind the one in hand, and they are in order. -/
theorem messages_in_order_crowded :
    (crowded 2).Ordered ∧ ((crowded 2).processing.isSome = true ∧ (crowded 2).messageQueue ≠ []) :=
  ⟨messages_in_order (crowded_reached 2 (by decide)), by decide⟩

/-- The browser refused an offer under the lock, and the lock stays taken. -/
theorem requests_offered_refused :
    (crowded 13).AtRest ∧ ((crowded 13).renegotiating = true ↔ (crowded 13).refused = true) ∧
      (crowded 13).renegotiating = true := by
  have rest : (crowded 13).AtRest := ⟨by decide, by decide, by decide, by decide⟩
  exact ⟨rest, ((requests_offered (crowded_reached 13 (by decide))).2 rest).1, by decide⟩

end Sample

end Seameet

import Mathlib.Algebra.Ring.Nat
import Mathlib.Data.List.Perm.Basic
import Seameet.Library.Runs
import Seameet.Signaling.Message

/-!
# The browser's signaling connection

The browser keeps one web socket for its messages. When it closes, a timer opens the
next one after a delay, which doubles with every closing and starts over once a socket
opens. On an open socket a message goes out at once. Otherwise it waits for the page to
join the room again, with at most a hundred others; offers, answers, candidates and
joins never wait.

However sockets open and close, and whenever the page is taken down and set up again,
there is one socket that is not on its way out, and it is replaced when it closes. Every
message has one fate. The messages keep their order unless the page sends one on a
socket that is open and not joined yet, ahead of those that wait.
-/

namespace Seameet

open Library

/-- The state of a web socket. -/
inductive ReadyState where
  | connecting
  | opened
  | closing
  | closed
  deriving DecidableEq, Repr

/-- A socket that is not on its way out. -/
def ReadyState.live : ReadyState → Bool
  | .connecting => true
  | .opened => true
  | _ => false

/-- The connection state the page shows. -/
inductive ShownState where
  | connecting
  | opened
  | closed
  deriving DecidableEq, Repr

/-- `QUEUE_CAP`: how many messages wait while no socket is open. -/
def queueCap : Nat := 100

/-- The types of messages that are not kept for later. -/
def nonQueueable : List String := ["offer", "answer", "ice_candidate", "join"]

/-- The refs of `useSignaling` that keep the connection, with the sockets and timers of
the browser. A socket and a timer are named by their place among those made so far. -/
structure Link where
  mounted : Bool
  /-- Whether the effect that connects is set up. -/
  effect : Bool
  ws : Option Nat
  sockets : List ReadyState
  reconnectDelay : Nat
  reconnectTimer : Option Nat
  /-- The pending timers, with their delays. -/
  timers : List (Nat × Nat)
  timersSet : Nat
  state : ShownState
  /-- How often a socket closed since one last opened. A record for the statements. -/
  closings : Nat

namespace Link

/-- The refs before the effect is set up. -/
def new : Link :=
  { mounted := true, effect := false, ws := none, sockets := [], reconnectDelay := 1000,
    reconnectTimer := none, timers := [], timersSet := 0, state := .connecting, closings := 0 }

variable (link : Link)

/-- The browser moves a socket on. -/
def setReady (socket : Nat) (ready : ReadyState) : Link :=
  { link with sockets := link.sockets.set socket ready }

/-- `WebSocket.close`. -/
def closeSocket (socket : Nat) : Link :=
  match link.sockets[socket]? with
  | some ready => if ready.live then link.setReady socket .closing else link
  | none => link

/-- A socket is made, and is the current one from now on. -/
def connect : Link :=
  if link.mounted then
    { link with
      state := .connecting
      sockets := link.sockets ++ [.connecting]
      ws := some link.sockets.length }
  else link

/-- A socket that opens shows the connection open and forgets the failures. -/
def onopen (socket : Nat) : Link :=
  if link.mounted = false then link.closeSocket socket
  else if link.ws ≠ some socket then link.closeSocket socket
  else { link with state := .opened, reconnectDelay := 1000, closings := 0 }

/-- A socket that closes sets a timer for the next one, if it is the current one of a running
hook. -/
def onclose (socket : Nat) : Link :=
  if link.mounted = false then link
  else if link.ws ≠ some socket then link
  else
    let delay := link.reconnectDelay
    { link with
      state := .closed
      reconnectDelay := min (delay * 2) 10000
      timers := link.timers ++ [(link.timersSet, delay)]
      reconnectTimer := some link.timersSet
      timersSet := link.timersSet + 1
      closings := link.closings + 1 }

/-- The timer that the hook knows is cancelled. -/
def clearTimer : Link :=
  match link.reconnectTimer with
  | some timer =>
    { link with timers := link.timers.filter (·.1 ≠ timer), reconnectTimer := none }
  | none => link

/-- What `close` and the cleanup of the effect do. -/
def takeDown : Link :=
  let link := { link with mounted := false }.clearTimer
  match link.ws with
  | some socket => { link.closeSocket socket with ws := none }
  | none => link

/-- The socket that messages go out on. -/
def openSocket : Option Nat :=
  link.ws.filter fun socket => link.sockets[socket]? = some .opened

end Link

/-- A message, with its place among all that the page has sent. -/
structure Letter where
  number : Nat
  message : SdpMessage

/-- The queue of `useSignaling`. The other fields are records for the statements. -/
structure Outbox where
  outboundQueue : List Letter
  sent : Nat
  /-- What was written, with the socket it was written on. -/
  wire : List (Nat × Letter)
  dropped : List Letter
  refused : List Letter

namespace Outbox

/-- Nothing sent, and nothing that waits. -/
def new : Outbox := { outboundQueue := [], sent := 0, wire := [], dropped := [], refused := [] }

/-- A message goes out, waits, or is given up. -/
def send (outbox : Outbox) (openSocket : Option Nat) (message : SdpMessage) : Outbox :=
  let letter := { number := outbox.sent, message : Letter }
  let outbox := { outbox with sent := outbox.sent + 1 }
  match openSocket with
  | some socket => { outbox with wire := outbox.wire ++ [(socket, letter)] }
  | none =>
    if message.kind ∈ nonQueueable then { outbox with refused := outbox.refused ++ [letter] }
    else
      let queue := outbox.outboundQueue ++ [letter]
      if queueCap < queue.length then
        { outbox with outboundQueue := queue.tail, dropped := outbox.dropped ++ queue.head?.toList }
      else { outbox with outboundQueue := queue }

/-- All that waits goes out. -/
def flush (outbox : Outbox) (socket : Nat) : Outbox :=
  { outbox with
    outboundQueue := []
    wire := outbox.wire ++ outbox.outboundQueue.map fun letter => (socket, letter) }

/-- A join goes out, and behind it all that waits. -/
def join (outbox : Outbox) (openSocket : Option Nat) (participantId : ParticipantId)
    (roomId : RoomId) (displayName token : Option String) : Outbox :=
  let outbox := outbox.send openSocket (.join participantId roomId displayName token)
  match openSocket with
  | some socket => outbox.flush socket
  | none => outbox

end Outbox

/-- The state of the hook. -/
structure UseSignaling where
  link : Link
  outbox : Outbox

/-- Something that happens to the hook. -/
inductive SocketEvent where
  /-- The effect is set up. -/
  | mounts
  /-- The effect is cleaned up. -/
  | unmounts
  /-- The page closes the connection. -/
  | leaves
  | opens (socket : Nat)
  /-- The server begins to close a socket. -/
  | shuts (socket : Nat)
  | closes (socket : Nat)
  | fires (timer : Nat)
  | sends (message : SdpMessage)
  | joins (participantId : ParticipantId) (roomId : RoomId) (displayName token : Option String)

/-- What an event does to the connection, if it can happen. -/
def Link.step (link : Link) : SocketEvent → Option Link
  | .mounts =>
    if link.effect then none else some { link with effect := true, mounted := true }.connect
  | .unmounts => if link.effect then some { link.takeDown with effect := false } else none
  | .leaves => some link.takeDown
  | .opens socket =>
    if link.sockets[socket]? = some .connecting then
      some ((link.setReady socket .opened).onopen socket)
    else none
  | .shuts socket =>
    if link.sockets[socket]? = some .opened then some (link.setReady socket .closing) else none
  | .closes socket =>
    match link.sockets[socket]? with
    | some ready =>
      if ready = .closed then none else some ((link.setReady socket .closed).onclose socket)
    | none => none
  | .fires timer =>
    if timer ∈ link.timers.map Prod.fst then
      some { link with timers := link.timers.filter (·.1 ≠ timer) }.connect
    else none
  | .sends _ => some link
  | .joins _ _ _ _ => some link

/-- What an event does to the messages. -/
def Outbox.take (outbox : Outbox) (openSocket : Option Nat) : SocketEvent → Outbox
  | .sends message => outbox.send openSocket message
  | .joins participantId roomId displayName token =>
    outbox.join openSocket participantId roomId displayName token
  | _ => outbox

namespace UseSignaling

/-- A hook that is not mounted yet. -/
def new : UseSignaling := { link := .new, outbox := .new }

/-- One event. -/
def step (hook : UseSignaling) (event : SocketEvent) : Option UseSignaling :=
  (hook.link.step event).map fun link =>
    { link, outbox := hook.outbox.take hook.link.openSocket event }

end UseSignaling

section Connection

namespace Link

variable {link after : Link}

/-- The delay before a connection that failed as often in a row. -/
def backoff (failures : Nat) : Nat := min (1000 * 2 ^ failures) 10000

/-- The delay doubles with each failure up to ten seconds. -/
theorem backoff_succ (failures : Nat) : min (backoff failures * 2) 10000 = backoff (failures + 1) := by
  simp only [backoff, Nat.pow_succ]
  omega

/-- Whether the hook is meant to be connected. -/
def running (link : Link) : Bool := link.effect && link.mounted

/-- A hook runs while its effect is on and its component is mounted. -/
theorem running_iff : link.running = true ↔ link.effect = true ∧ link.mounted = true := by
  simp [running]

/-- A running hook has one live socket, or a closed one and the timer that replaces it,
and shows which. -/
inductive Current (link : Link) : Prop where
  | live (socket : Nat) (ready : ReadyState) (held : link.ws = some socket)
      (found : link.sockets[socket]? = some ready) (unclosed : ready ≠ .closed)
      (unset : link.timers = [])
      (shown : link.state = if ready = .connecting then .connecting else .opened)
  | waiting (socket timer : Nat) (held : link.ws = some socket)
      (found : link.sockets[socket]? = some .closed)
      (only : link.timers = [(timer, backoff (link.closings - 1))])
      (known : link.reconnectTimer = some timer) (closed : 0 < link.closings)
      (shown : link.state = .closed)

/-- There is one connection: no socket beside the current one is live, no timer runs
beside the one that replaces a closed socket, and neither remains when the hook is not
running. -/
structure OneConnection (link : Link) : Prop where
  alone : ∀ socket ready, link.sockets[socket]? = some ready → ready.live = true →
    link.ws = some socket
  current : link.running = true → link.Current
  idle : link.running = false → link.ws = none ∧ link.timers = []
  delay : link.reconnectDelay = backoff link.closings

/-- Before the first effect there is no socket and no timer. -/
theorem new_one : Link.new.OneConnection where
  alone := nofun
  current := nofun
  idle := fun _ => ⟨rfl, rfl⟩
  delay := rfl

/-- A live socket is the one a running hook holds, and no timer is pending then. -/
theorem OneConnection.held (one : link.OneConnection) {socket : Nat} {ready : ReadyState}
    (found : link.sockets[socket]? = some ready) (live : ready.live = true) :
    link.ws = some socket ∧ link.running = true ∧ link.timers = [] := by
  have holds := one.alone socket ready found live
  have running : link.running = true := by
    by_contra stopped
    have absent := (one.idle (Bool.not_eq_true _ ▸ stopped)).1
    rw [absent] at holds
    cases holds
  refine ⟨holds, running, ?_⟩
  cases one.current running with
  | live other _ _ _ _ unset _ => exact unset
  | waiting other _ held closed _ _ _ _ =>
    obtain rfl : other = socket := Option.some.inj (held.symm.trans holds)
    rw [closed] at found
    obtain rfl := Option.some.inj found
    cases live

/-- What is connected anew is the one live socket. -/
theorem connect_one (mounted : link.mounted = true) (effect : link.effect = true)
    (unset : link.timers = [])
    (dead : ∀ ready ∈ link.sockets, ready.live = false)
    (delay : link.reconnectDelay = backoff link.closings) : link.connect.OneConnection := by
  have connected : link.connect = { link with
      state := .connecting
      sockets := link.sockets ++ [.connecting]
      ws := some link.sockets.length } := if_pos mounted
  rw [connected]
  constructor
  · intro socket ready found live
    rw [List.getElem?_append] at found
    split at found
    · rw [dead ready (List.mem_of_getElem? found)] at live
      cases live
    · have last : socket - link.sockets.length < 1 := (List.getElem?_eq_some_iff.mp found).1
      exact congrArg some (by omega)
  · exact fun _ => .live _ .connecting rfl (by simp) nofun unset rfl
  · intro stopped
    simp [running, mounted, effect] at stopped
  · exact delay

/-- A socket that is closed is not live any more, and the others stay. -/
theorem closeSocket_eq (link : Link) (socket : Nat) :
    ∃ sockets, link.closeSocket socket = { link with sockets } ∧
      ∀ (other : Nat) (ready : ReadyState), sockets[other]? = some ready → ready.live = true →
        link.sockets[other]? = some ready ∧ other ≠ socket := by
  unfold closeSocket
  cases found : link.sockets[socket]? with
  | none =>
    refine ⟨link.sockets, rfl, ?_⟩
    rintro other ready same live
    refine ⟨same, ?_⟩
    rintro rfl
    rw [found] at same
    cases same
  | some present =>
    cases alive : present.live with
    | false =>
      refine ⟨link.sockets, by simp [alive], ?_⟩
      rintro other ready same live
      refine ⟨same, ?_⟩
      rintro rfl
      obtain rfl := Option.some.inj (found.symm.trans same)
      rw [alive] at live
      cases live
    | true =>
      refine ⟨link.sockets.set socket .closing, by simp [alive, setReady], ?_⟩
      intro other ready same live
      rw [List.getElem?_set] at same
      by_cases own : socket = other
      · rw [if_pos own] at same
        split at same
        · obtain rfl := Option.some.inj same
          cases live
        · cases same
      · rw [if_neg own] at same
        exact ⟨same, Ne.symm own⟩

/-- The hook knows every pending timer, so cancelling leaves none. -/
theorem OneConnection.cleared (one : link.OneConnection) :
    { link with mounted := false }.clearTimer =
      { link with mounted := false, timers := [], reconnectTimer := none } := by
  have known : link.timers = [] ∨
      ∃ timer delay, link.timers = [(timer, delay)] ∧ link.reconnectTimer = some timer := by
    cases running : link.running with
    | false => exact .inl (one.idle running).2
    | true =>
      cases one.current running with
      | live socket ready held found unclosed unset shown => exact .inl unset
      | waiting socket timer held found only known closed shown =>
        exact .inr ⟨timer, _, only, known⟩
  unfold clearTimer
  rcases known with unset | ⟨timer, delay, only, known⟩
  · cases known : link.reconnectTimer with
    | none => simp [unset]
    | some timer => simp [unset]
  · simp [only, known]

/-- Without a held socket no socket is live. -/
theorem OneConnection.dead (one : link.OneConnection) (unheld : link.ws = none) :
    ∀ ready ∈ link.sockets, ready.live = false := by
  intro ready member
  obtain ⟨socket, found⟩ := List.mem_iff_getElem?.mp member
  by_contra live
  have holds := one.alone socket ready found (Bool.not_eq_false _ ▸ live)
  rw [unheld] at holds
  cases holds

/-- Taking the connection down leaves no timer and no live socket. -/
theorem OneConnection.takenDown (one : link.OneConnection) :
    ∃ sockets, link.takeDown = { link with
        mounted := false, timers := [], reconnectTimer := none, ws := none, sockets } ∧
      ∀ ready ∈ sockets, ready.live = false := by
  unfold takeDown
  rw [one.cleared]
  dsimp only
  cases held : link.ws with
  | none => exact ⟨link.sockets, rfl, one.dead held⟩
  | some socket =>
    obtain ⟨sockets, closed, others⟩ := closeSocket_eq { link with
      mounted := false, ws := some socket, timers := [], reconnectTimer := none } socket
    refine ⟨sockets, ?_, ?_⟩
    · dsimp only
      rw [closed]
    · intro ready member
      obtain ⟨other, found⟩ := List.mem_iff_getElem?.mp member
      by_contra live
      obtain ⟨same, apart⟩ := others other ready found (Bool.not_eq_false _ ▸ live)
      have holds := one.alone other ready same (Bool.not_eq_false _ ▸ live)
      exact apart (Option.some.inj (holds.symm.trans held))

/-- A hook that is taken down leaves at most sockets that nobody looks at. -/
theorem OneConnection.down (one : link.OneConnection) (effect : Bool) :
    { link.takeDown with effect }.OneConnection := by
  obtain ⟨sockets, down, dead⟩ := one.takenDown
  rw [down]
  constructor
  · intro socket ready found live
    rw [dead ready (List.mem_of_getElem? found)] at live
    cases live
  · intro running
    simp [Link.running] at running
  · exact fun _ => ⟨rfl, rfl⟩
  · exact one.delay

/-- A socket that moves on is still the only one that may be live. -/
theorem OneConnection.alone_set (one : link.OneConnection) {socket : Nat} {next : ReadyState}
    (held : next.live = true → link.ws = some socket) :
    ∀ (other : Nat) (ready : ReadyState), (link.sockets.set socket next)[other]? = some ready →
      ready.live = true → link.ws = some other := by
  intro other ready found live
  rw [List.getElem?_set] at found
  split at found
  · next same =>
    subst same
    split at found
    · obtain rfl := Option.some.inj found
      exact held live
    · cases found
  · exact one.alone other ready found live

/-- The current socket closes, and the timer that replaces it is set. -/
theorem OneConnection.lost (one : link.OneConnection) {socket : Nat} (held : link.ws = some socket)
    (found : (link.sockets.set socket .closed)[socket]? = some .closed)
    (running : link.running = true) (unset : link.timers = []) :
    ((link.setReady socket .closed).onclose socket).OneConnection := by
  have mounted := (running_iff.mp running).2
  have closed : (link.setReady socket .closed).onclose socket = { link.setReady socket .closed with
      state := .closed
      reconnectDelay := min (link.reconnectDelay * 2) 10000
      timers := link.timers ++ [(link.timersSet, link.reconnectDelay)]
      reconnectTimer := some link.timersSet
      timersSet := link.timersSet + 1
      closings := link.closings + 1 } := by
    simp [onclose, setReady, mounted, held]
  rw [closed]
  constructor
  · exact one.alone_set nofun
  · intro _
    refine .waiting socket link.timersSet held found ?_ rfl (Nat.succ_pos _) rfl
    simp [unset, one.delay]
  · intro stopped
    exact absurd (running.symm.trans stopped) nofun
  · show min (link.reconnectDelay * 2) 10000 = backoff (link.closings + 1)
    rw [one.delay, backoff_succ]

/-- A socket that the hook does not hold closes without effect. -/
theorem OneConnection.stray (one : link.OneConnection) {socket : Nat} (other : link.ws ≠ some socket) :
    ((link.setReady socket .closed).onclose socket).OneConnection := by
  have ignored : (link.setReady socket .closed).onclose socket = link.setReady socket .closed := by
    simp [onclose, setReady, other]
  rw [ignored]
  have kept : ∀ held : Nat, link.ws = some held →
      (link.sockets.set socket .closed)[held]? = link.sockets[held]? := by
    intro held holds
    refine List.getElem?_set_ne ?_
    rintro rfl
    exact other holds
  constructor
  · exact one.alone_set nofun
  · intro running
    cases one.current running with
    | live held ready holds found unclosed unset shown =>
      exact .live held ready holds ((kept held holds).trans found) unclosed unset shown
    | waiting held timer holds found only known closed shown =>
      exact .waiting held timer holds ((kept held holds).trans found) only known closed shown
  · exact one.idle
  · exact one.delay

/-- A socket that opens is the one the hook holds, and it is live now. -/
theorem opens_one (one : link.OneConnection) {socket : Nat}
    (found : link.sockets[socket]? = some .connecting) :
    ((link.setReady socket .opened).onopen socket).OneConnection := by
  obtain ⟨held, running, unset⟩ := one.held found rfl
  have opened : (link.setReady socket .opened).onopen socket = { link.setReady socket .opened with
      state := .opened, reconnectDelay := 1000, closings := 0 } := by
    simp [onopen, setReady, held, (running_iff.mp running).2]
  rw [opened]
  constructor
  · exact one.alone_set fun _ => held
  · have moved : (link.sockets.set socket .opened)[socket]? = some .opened :=
      List.getElem?_set_self (List.getElem?_eq_some_iff.mp found).1
    exact fun _ => .live socket .opened held moved nofun unset rfl
  · exact fun stopped => absurd (running.symm.trans stopped) nofun
  · rfl

/-- A socket that begins to close is held until it has closed. -/
theorem shuts_one (one : link.OneConnection) {socket : Nat}
    (found : link.sockets[socket]? = some .opened) : (link.setReady socket .closing).OneConnection := by
  obtain ⟨held, running, unset⟩ := one.held found rfl
  have moved : (link.sockets.set socket .closing)[socket]? = some .closing :=
    List.getElem?_set_self (List.getElem?_eq_some_iff.mp found).1
  have shown : link.state = .opened := by
    cases one.current running with
    | live other ready same present _ _ shown =>
      obtain rfl : other = socket := Option.some.inj (same.symm.trans held)
      obtain rfl := Option.some.inj (present.symm.trans found)
      exact shown
    | waiting other timer same closed _ _ _ _ =>
      obtain rfl : other = socket := Option.some.inj (same.symm.trans held)
      cases closed.symm.trans found
  constructor
  · exact one.alone_set fun _ => held
  · exact fun _ => .live socket .closing held moved nofun unset shown
  · exact fun stopped => absurd (running.symm.trans stopped) nofun
  · exact one.delay

/-- A socket that has closed is replaced after a delay if the hook holds it, and is
forgotten otherwise. -/
theorem closes_one (one : link.OneConnection) {socket : Nat} {ready : ReadyState}
    (found : link.sockets[socket]? = some ready) (unclosed : ready ≠ .closed) :
    ((link.setReady socket .closed).onclose socket).OneConnection := by
  have moved : (link.sockets.set socket .closed)[socket]? = some .closed :=
    List.getElem?_set_self (List.getElem?_eq_some_iff.mp found).1
  by_cases current : link.ws = some socket ∧ link.running = true
  · obtain ⟨held, running⟩ := current
    refine one.lost held moved running ?_
    cases one.current running with
    | live _ _ _ _ _ unset _ => exact unset
    | waiting other timer same closed _ _ _ _ =>
      obtain rfl : other = socket := Option.some.inj (same.symm.trans held)
      exact absurd (Option.some.inj (found.symm.trans closed)) unclosed
  · refine one.stray fun held => current ⟨held, ?_⟩
    by_contra stopped
    rw [(one.idle (Bool.not_eq_true _ ▸ stopped)).1] at held
    cases held

/-- A timer that fires is the one that is set, and it finds no live socket. -/
theorem fires_one (one : link.OneConnection) {timer : Nat}
    (pending : timer ∈ link.timers.map Prod.fst) :
    ({ link with timers := link.timers.filter (·.1 ≠ timer) }.connect).OneConnection := by
  have running : link.running = true := by
    by_contra stopped
    rw [(one.idle (Bool.not_eq_true _ ▸ stopped)).2] at pending
    cases pending
  obtain ⟨effect, mounted⟩ := running_iff.mp running
  cases one.current running with
  | live _ _ _ _ _ unset _ =>
    rw [unset] at pending
    cases pending
  | waiting socket only held found listed _ _ _ =>
    rw [listed] at pending
    obtain rfl : timer = only := by simpa using pending
    refine connect_one mounted effect (by simp [listed]) ?_ one.delay
    intro ready member
    obtain ⟨other, present⟩ := List.mem_iff_getElem?.mp member
    by_contra live
    have same := one.alone other ready present (Bool.not_eq_false _ ▸ live)
    obtain rfl : other = socket := Option.some.inj (same.symm.trans held)
    obtain rfl := Option.some.inj (present.symm.trans found)
    exact live rfl

/-- Every event keeps the connection one. -/
theorem step_one (one : link.OneConnection) {event : SocketEvent}
    (stepped : link.step event = some after) : after.OneConnection := by
  cases event with
  | mounts =>
    simp only [step] at stepped
    split at stepped
    · cases stepped
    · next down =>
      obtain rfl := Option.some.inj stepped
      have stopped : link.running = false := by simp [running, down]
      obtain ⟨unheld, unset⟩ := one.idle stopped
      exact connect_one rfl rfl unset (one.dead unheld) one.delay
  | unmounts =>
    simp only [step] at stepped
    split at stepped
    · obtain rfl := Option.some.inj stepped
      exact one.down false
    · cases stepped
  | leaves =>
    obtain rfl := Option.some.inj stepped
    exact one.down link.takeDown.effect
  | opens socket =>
    simp only [step] at stepped
    split at stepped
    · next found =>
      obtain rfl := Option.some.inj stepped
      exact opens_one one found
    · cases stepped
  | shuts socket =>
    simp only [step] at stepped
    split at stepped
    · next found =>
      obtain rfl := Option.some.inj stepped
      exact shuts_one one found
    · cases stepped
  | closes socket =>
    simp only [step] at stepped
    split at stepped
    · next ready found =>
      split at stepped
      · cases stepped
      · next unclosed =>
        obtain rfl := Option.some.inj stepped
        exact closes_one one found unclosed
    · cases stepped
  | fires timer =>
    simp only [step] at stepped
    split at stepped
    · next pending =>
      obtain rfl := Option.some.inj stepped
      exact fires_one one pending
    · cases stepped
  | sends message =>
    obtain rfl := Option.some.inj stepped
    exact one
  | joins participantId roomId displayName token =>
    obtain rfl := Option.some.inj stepped
    exact one

end Link

/-- In every state, at most one socket is live, and it is the one the hook holds. A hook
that is set up and has not been left holds a socket that is not closed, with no timer
pending, or a closed one, with the one timer that replaces it after the delay of that
many closings in a row. Else it holds no socket, and no timer is pending.

A hook holds one socket or one timer in turn. Each event of the socket or the page is looked
at in the state of the link it finds. -/
theorem one_connection {hook : UseSignaling}
    (reached : Reaches UseSignaling.step always .new hook) : hook.link.OneConnection := by
  refine reached.invariant (fun hook => hook.link.OneConnection) Link.new_one ?_
  intro before event after one _ stepped
  obtain ⟨link, moved, rfl⟩ := Option.map_eq_some_iff.mp stepped
  exact Link.step_one one moved

end Connection

section Messages

namespace Outbox

variable {outbox : Outbox} {openSocket : Option Nat}

/-- The places of messages. -/
def numbers (letters : List Letter) : List Nat := letters.map Letter.number

/-- The messages that were written. -/
def written (outbox : Outbox) : List Letter := outbox.wire.map Prod.snd

/-- Every message was written, waits, was dropped or was given up, and just once. Those
that wait are at most a hundred and stand in the order they were sent in, behind all
that were dropped. Only what may not wait is given up. -/
structure Accounted (outbox : Outbox) : Prop where
  fates : (numbers outbox.written ++ numbers outbox.outboundQueue ++ numbers outbox.dropped ++
    numbers outbox.refused).Perm (List.range outbox.sent)
  room : outbox.outboundQueue.length ≤ queueCap
  inLine : (numbers (outbox.dropped ++ outbox.outboundQueue)).Pairwise (· < ·)
  waits : ∀ letter ∈ outbox.dropped ++ outbox.outboundQueue, letter.message.kind ∉ nonQueueable
  givenUp : ∀ letter ∈ outbox.refused, letter.message.kind ∈ nonQueueable

/-- All messages have a place below the number of messages sent. -/
theorem Accounted.below (accounted : outbox.Accounted) {number : Nat}
    (member : number ∈ numbers outbox.written ++ numbers outbox.outboundQueue ++
      numbers outbox.dropped ++ numbers outbox.refused) : number < outbox.sent :=
  List.mem_range.mp (accounted.fates.mem_iff.mp member)

/-- The next message to be sent. -/
def next (outbox : Outbox) (message : SdpMessage) : Letter := { number := outbox.sent, message }

/-- What becomes of a message that is sent. -/
inductive Sending (outbox : Outbox) (openSocket : Option Nat) (message : SdpMessage) :
    Outbox → Prop where
  | writes (socket : Nat) (opened : openSocket = some socket) :
      Sending outbox openSocket message { outbox with
        sent := outbox.sent + 1, wire := outbox.wire ++ [(socket, outbox.next message)] }
  | givesUp (shut : openSocket = none) (passing : message.kind ∈ nonQueueable) :
      Sending outbox openSocket message { outbox with
        sent := outbox.sent + 1, refused := outbox.refused ++ [outbox.next message] }
  | waits (shut : openSocket = none) (lasting : message.kind ∉ nonQueueable)
      (room : outbox.outboundQueue.length < queueCap) :
      Sending outbox openSocket message { outbox with
        sent := outbox.sent + 1, outboundQueue := outbox.outboundQueue ++ [outbox.next message] }
  /-- The queue is full, and drops the oldest message. -/
  | displaces (oldest : Letter) (rest : List Letter) (shut : openSocket = none)
      (lasting : message.kind ∉ nonQueueable) (queue : outbox.outboundQueue = oldest :: rest) :
      Sending outbox openSocket message { outbox with
        sent := outbox.sent + 1
        outboundQueue := rest ++ [outbox.next message]
        dropped := outbox.dropped ++ [oldest] }

/-- A message that is sent is written, or waits, or is dropped with the oldest one, or refused.
-/
theorem send_sending (outbox : Outbox) (openSocket : Option Nat) (message : SdpMessage) :
    Sending outbox openSocket message (outbox.send openSocket message) := by
  unfold send
  cases opened : openSocket with
  | some socket => exact .writes socket rfl
  | none =>
    dsimp only
    split
    · next passing => exact .givesUp rfl passing
    · next lasting =>
      split
      · next full =>
        cases queue : outbox.outboundQueue with
        | nil =>
          rw [queue] at full
          exact absurd full (Nat.not_lt_of_le (Nat.le_add_left 1 99))
        | cons oldest rest =>
          exact .displaces oldest rest rfl lasting queue
      · next room =>
        refine .waits rfl lasting ?_
        rw [List.length_append, List.length_singleton] at room
        omega

/-- Another message has a fate when its place is added to all the fates. -/
theorem fates_send {before after : List Nat} {sent : Nat} (fates : before.Perm (List.range sent))
    (added : after.Perm (before ++ [sent])) : after.Perm (List.range (sent + 1)) := by
  rw [List.range_succ]
  exact added.trans (fates.append_right [sent])

/-- A message that joins the line is the last in it. -/
theorem Accounted.lineUp (accounted : outbox.Accounted) {message : SdpMessage}
    (lasting : message.kind ∉ nonQueueable) :
    (numbers (outbox.dropped ++ outbox.outboundQueue ++ [outbox.next message])).Pairwise (· < ·) ∧
      ∀ letter ∈ outbox.dropped ++ outbox.outboundQueue ++ [outbox.next message],
        letter.message.kind ∉ nonQueueable := by
  constructor
  · rw [numbers, List.map_append, List.pairwise_append]
    refine ⟨accounted.inLine, List.pairwise_singleton _ _, ?_⟩
    intro earlier member last only
    obtain rfl : last = outbox.sent := List.mem_singleton.mp only
    refine accounted.below ?_
    rw [List.map_append, List.mem_append] at member
    rcases member with dropped | waiting
    · exact List.mem_append_left _ (List.mem_append_right _ dropped)
    · exact List.mem_append_left _ (List.mem_append_left _ (List.mem_append_right _ waiting))
  · intro letter member
    rcases List.mem_append.mp member with earlier | last
    · exact accounted.waits letter earlier
    · obtain rfl := List.mem_singleton.mp last
      exact lasting

/-- A message that is sent is accounted for. -/
theorem Accounted.send (accounted : outbox.Accounted) (openSocket : Option Nat)
    (message : SdpMessage) : (outbox.send openSocket message).Accounted := by
  have outcome := send_sending outbox openSocket message
  generalize outbox.send openSocket message = after at outcome
  cases outcome with
  | writes socket opened =>
    refine ⟨fates_send accounted.fates ?_, accounted.room, accounted.inLine, accounted.waits,
      accounted.givenUp⟩
    rw [List.perm_iff_count]
    intro tested
    simp only [written, numbers, next, List.map_append, List.map_cons, List.map_nil,
      List.count_append]
    omega
  | givesUp shut passing =>
    refine ⟨fates_send accounted.fates ?_, accounted.room, accounted.inLine, accounted.waits, ?_⟩
    · rw [List.perm_iff_count]
      intro tested
      simp only [written, numbers, next, List.map_append, List.map_cons, List.map_nil,
        List.count_append]
      omega
    · intro letter member
      rcases List.mem_append.mp member with earlier | last
      · exact accounted.givenUp letter earlier
      · obtain rfl := List.mem_singleton.mp last
        exact passing
  | waits shut lasting room =>
    obtain ⟨inLine, waits⟩ := accounted.lineUp lasting
    rw [List.append_assoc] at inLine waits
    refine ⟨fates_send accounted.fates ?_, ?_, inLine, waits, accounted.givenUp⟩
    · rw [List.perm_iff_count]
      intro tested
      simp only [written, numbers, next, List.map_append, List.map_cons, List.map_nil,
        List.count_append]
      omega
    · rw [List.length_append]
      exact room
  | displaces oldest rest shut lasting queue =>
    obtain ⟨inLine, waits⟩ := accounted.lineUp lasting
    have same : outbox.dropped ++ outbox.outboundQueue ++ [outbox.next message] =
        outbox.dropped ++ [oldest] ++ (rest ++ [outbox.next message]) := by
      simp [queue]
    rw [same] at inLine waits
    refine ⟨fates_send accounted.fates ?_, ?_, inLine, waits, accounted.givenUp⟩
    · rw [List.perm_iff_count]
      intro tested
      simp only [queue, written, numbers, next, List.map_append, List.map_cons, List.map_nil,
        List.count_append, List.count_cons, List.count_nil]
      omega
    · have room := accounted.room
      rw [queue] at room
      simpa using room

/-- The messages that waited are written, each once. -/
theorem Accounted.flush (accounted : outbox.Accounted) (socket : Nat) :
    (outbox.flush socket).Accounted := by
  have sent : (outbox.flush socket).written = outbox.written ++ outbox.outboundQueue := by
    simp [written, Outbox.flush, Function.comp_def]
  constructor
  · rw [sent]
    simpa [numbers, Outbox.flush] using accounted.fates
  · exact Nat.zero_le queueCap
  · refine accounted.inLine.sublist ?_
    exact ((List.nil_sublist outbox.outboundQueue).append_left outbox.dropped).map Letter.number
  · intro letter member
    refine accounted.waits letter ?_
    rcases List.mem_append.mp member with dropped | waiting
    · exact List.mem_append_left _ dropped
    · cases waiting
  · exact accounted.givenUp

/-- Every event keeps the account. -/
theorem Accounted.take (accounted : outbox.Accounted) (openSocket : Option Nat)
    (event : SocketEvent) : (outbox.take openSocket event).Accounted := by
  cases event with
  | sends message => exact accounted.send openSocket message
  | joins participantId roomId displayName token =>
    have sent := accounted.send openSocket (.join participantId roomId displayName token)
    cases openSocket with
    | none => exact sent
    | some socket => exact sent.flush socket
  | _ => exact accounted

/-- The messages that follow a join, written or still to be written. -/
def following (outbox : Outbox) : List Letter :=
  outbox.written.filter (fun letter => letter.message.kind ≠ "join") ++ outbox.outboundQueue

/-- Messages are written in the order they were sent in, and those that wait are newer. -/
def InOrder (outbox : Outbox) : Prop := (numbers outbox.following).Pairwise (· < ·)

/-- A message sent on an open socket does not overtake any that waits. -/
def Patient (outbox : Outbox) (openSocket : Option Nat) : SocketEvent → Prop
  | .sends message =>
    openSocket.isSome = true → message.kind = "join" ∨ outbox.outboundQueue = []
  | _ => True

/-- What follows a join is neither dropped nor given up, so it has a place too. -/
theorem Accounted.following_below (accounted : outbox.Accounted) {letter : Letter}
    (member : letter ∈ outbox.following) : letter.number < outbox.sent := by
  refine accounted.below (List.mem_append_left _ (List.mem_append_left _ ?_))
  rw [numbers, numbers, ← List.map_append]
  refine List.mem_map_of_mem ?_
  rcases List.mem_append.mp member with written | waiting
  · exact List.mem_append_left _ (List.mem_of_mem_filter written)
  · exact List.mem_append_right _ waiting

/-- A message at the end of all that follow keeps the order. -/
theorem Accounted.extend (accounted : outbox.Accounted) (message : SdpMessage) :
    (numbers (outbox.following ++ [outbox.next message])).Pairwise (· < ·) ↔ outbox.InOrder := by
  rw [numbers, List.map_append, List.pairwise_append]
  constructor
  · exact And.left
  · intro ordered
    refine ⟨ordered, List.pairwise_singleton _ _, ?_⟩
    intro earlier member last only
    obtain rfl : last = outbox.sent := List.mem_singleton.mp only
    obtain ⟨letter, among, rfl⟩ := List.mem_map.mp member
    exact accounted.following_below among

/-- Sending keeps the order exactly when it is patient. -/
theorem InOrder.send_iff (accounted : outbox.Accounted) (ordered : outbox.InOrder)
    (openSocket : Option Nat) (message : SdpMessage) :
    outbox.Patient openSocket (.sends message) ↔ (outbox.send openSocket message).InOrder := by
  have outcome := send_sending outbox openSocket message
  generalize outbox.send openSocket message = after at outcome
  cases outcome with
  | writes socket opened =>
    subst opened
    by_cases joins : message.kind = "join"
    · refine iff_of_true (fun _ => .inl joins) ?_
      simpa [InOrder, following, written, next, joins] using ordered
    · have placed : ({ outbox with
          sent := outbox.sent + 1, wire := outbox.wire ++ [(socket, outbox.next message)] } :
          Outbox).following = outbox.written.filter (fun letter => letter.message.kind ≠ "join") ++
            [outbox.next message] ++ outbox.outboundQueue := by
        simp [following, written, next, joins]
      rw [InOrder, placed]
      constructor
      · intro patient
        have clear := (patient rfl).resolve_left joins
        have extended := (accounted.extend message).mpr ordered
        rw [following, clear, List.append_nil] at extended
        rw [clear, List.append_nil]
        exact extended
      · intro kept _
        refine .inr (List.eq_nil_iff_forall_not_mem.mpr ?_)
        intro letter waiting
        rw [numbers, List.map_append, List.pairwise_append] at kept
        have behind := kept.2.2 outbox.sent (by simp [next]) letter.number
          (List.mem_map_of_mem waiting)
        exact absurd (accounted.following_below (List.mem_append_right _ waiting))
          (Nat.lt_asymm behind)
  | givesUp shut passing =>
    subst shut
    exact iff_of_true nofun ordered
  | waits shut lasting room =>
    subst shut
    refine iff_of_true nofun ?_
    have extended := (accounted.extend message).mpr ordered
    simpa [InOrder, following, written] using extended
  | displaces oldest rest shut lasting queue =>
    subst shut
    refine iff_of_true nofun ?_
    have extended := (accounted.extend message).mpr ordered
    refine extended.sublist (List.Sublist.map Letter.number ?_)
    simp only [following, written, queue, List.append_assoc, List.cons_append]
    exact (List.sublist_cons_self oldest _).append_left _

/-- The messages that waited are written in the order they were sent. -/
theorem InOrder.flush (accounted : outbox.Accounted) (ordered : outbox.InOrder) (socket : Nat) :
    (outbox.flush socket).InOrder := by
  have queued : outbox.outboundQueue.filter (fun letter => letter.message.kind ≠ "join") =
      outbox.outboundQueue := by
    rw [List.filter_eq_self]
    intro letter waiting
    have lasting := accounted.waits letter (List.mem_append_right _ waiting)
    rw [decide_eq_true_eq]
    intro joins
    rw [joins] at lasting
    exact lasting (by decide)
  have same : (outbox.flush socket).following = outbox.following := by
    simp only [following, written, Outbox.flush, List.map_append, List.map_map, Function.comp_def,
      List.map_id', List.filter_append, queued, List.append_nil]
  rw [InOrder, same]
  exact ordered

/-- An event keeps the order exactly when it is patient. -/
theorem InOrder.take_iff (accounted : outbox.Accounted) (ordered : outbox.InOrder)
    (openSocket : Option Nat) (event : SocketEvent) :
    outbox.Patient openSocket event ↔ (outbox.take openSocket event).InOrder := by
  cases event with
  | sends message => exact ordered.send_iff accounted openSocket message
  | joins participantId roomId displayName token =>
    refine iff_of_true trivial ?_
    have sent := accounted.send openSocket (.join participantId roomId displayName token)
    have kept := (ordered.send_iff accounted openSocket
      (.join participantId roomId displayName token)).mp fun _ => .inl rfl
    cases openSocket with
    | none => exact kept
    | some socket => exact kept.flush sent socket
  | _ => exact iff_of_true trivial ordered

end Outbox

variable {hook : UseSignaling}

/-- Every message ever sent is accounted for in every state that is reached. -/
theorem reached_accounted (reached : Reaches UseSignaling.step always .new hook) :
    hook.outbox.Accounted := by
  refine reached.invariant (fun hook => hook.outbox.Accounted) ?_ ?_
  · exact ⟨.refl _, Nat.zero_le _, .nil, nofun, nofun⟩
  · intro before event after accounted _ stepped
    obtain ⟨link, _, rfl⟩ := Option.map_eq_some_iff.mp stepped
    exact accounted.take before.link.openSocket event

/-- In every state, each message that was sent was written, waits, was dropped behind a
hundred newer ones or was given up, and just once; and a join on an open socket leaves
none waiting.

The outbox gives each message its number, and a message moves from one fate to the next one
only. A join on an open socket writes all that waits. -/
theorem message_fates (reached : Reaches UseSignaling.step always .new hook) :
    hook.outbox.Accounted ∧
      ∀ participantId roomId displayName token after, hook.link.openSocket.isSome = true →
        hook.step (.joins participantId roomId displayName token) = some after →
          after.outbox.outboundQueue = [] := by
  refine ⟨reached_accounted reached, ?_⟩
  intro participantId roomId displayName token after opened stepped
  obtain ⟨link, _, rfl⟩ := Option.map_eq_some_iff.mp stepped
  obtain ⟨socket, opened⟩ := Option.isSome_iff_exists.mp opened
  simp [Outbox.take, Outbox.join, Outbox.flush, opened]

/-- Whether an event lets what waits go first. -/
def UseSignaling.Patient (hook : UseSignaling) (event : SocketEvent) : Prop :=
  hook.outbox.Patient hook.link.openSocket event

/-- Along a run the messages that follow a join are written in the order they were sent
in, with what waits behind them, exactly when none is sent on an open socket while
others wait for the join.

What waits is newer than what was written, so a message goes out of order only if it is
written at once while others wait. That is what the condition rules out at each sending. -/
theorem order_kept_iff :
    (Reaches UseSignaling.step (fun before (_ : SocketEvent) => before.outbox.InOrder) .new hook ∧
        hook.outbox.InOrder) ↔ Reaches UseSignaling.step UseSignaling.Patient .new hook := by
  have initial : UseSignaling.new.outbox.InOrder := .nil
  refine Reaches.within_iff (fun hook : UseSignaling => hook.outbox.InOrder) initial ?_
  intro before event after reached ordered stepped
  obtain ⟨link, _, rfl⟩ := Option.map_eq_some_iff.mp stepped
  exact ordered.take_iff (reached_accounted reached) before.link.openSocket event

end Messages

section Sample

/-- A page that loses its socket, is muted meanwhile, and joins again on the next one. -/
def reconnection : List SocketEvent :=
  [.mounts, .opens 0, .joins ⟨1⟩ "r" none none, .closes 0, .sends (.muteAudio ⟨1⟩ "r"),
    .sends (.offer ⟨1⟩ none "r" "sdp"), .fires 0, .opens 1, .joins ⟨1⟩ "r" none none]

/-- The page after some of these events. -/
def reconnecting (count : Nat) : UseSignaling :=
  (walk UseSignaling.step always .new (reconnection.take count)).getD .new

/-- The hook after so many of these events is reached, if they can all happen. -/
theorem reconnecting_reached (count : Nat)
    (completes : (walk UseSignaling.step always .new (reconnection.take count)).isSome = true) :
    Reaches UseSignaling.step always .new (reconnecting count) :=
  walk_reaches_end UseSignaling.step always .new (reconnection.take count) completes

/-- Behind the failed socket one timer is set, for a second. -/
theorem one_connection_waiting :
    (reconnecting 4).link.OneConnection ∧ (reconnecting 4).link.timers = [(0, 1000)] :=
  ⟨one_connection (reconnecting_reached 4 (by decide)), by decide⟩

/-- The queue was full: of four messages three were written, behind the `join`, and one was
refused. -/
theorem message_fates_rejoined :
    (reconnecting 9).outbox.Accounted ∧
      (Outbox.numbers (reconnecting 9).outbox.written = [0, 3, 1] ∧
        Outbox.numbers (reconnecting 9).outbox.refused = [2]) :=
  ⟨(message_fates (reconnecting_reached 9 (by decide))).1, by decide⟩

end Sample

end Seameet

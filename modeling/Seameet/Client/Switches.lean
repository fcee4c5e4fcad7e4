import Seameet.Client.Devices
import Seameet.Client.Socket
import Seameet.Library.Since

/-!
# What the server is told of the switches

The page joins the room once its socket is open and the devices have answered, and tells the
server behind each join which switches it shows on. From then on it tells of every switch that
is turned off, and of every one that was to be turned on, once the devices have answered. It
does not look at what they answered.

So along the whole life of a page, with any sockets lost and any messages sent besides, the
last that the server was told of a switch since the join is what the page shows, as long as
the devices deny nothing to a joined page that waits to turn a switch on.
-/

namespace Seameet

open Library

/-- What a page is made for. -/
structure CallProviderProps where
  participantId : ParticipantId
  displayName : String
  roomId : RoomId
  authToken : String
  /-- The switches that were turned on in the lobby. -/
  initial : TrackKind → Bool

namespace CallProviderProps

variable (props : CallProviderProps)

/-- The `join` that the page sends, with its name and its token. -/
def joinMessage : SdpMessage :=
  .join props.participantId props.roomId (some props.displayName) (some props.authToken)

/-- The message that tells of a switch. -/
def switchMessage : TrackKind → Bool → SdpMessage
  | .audio, true => .unmuteAudio props.participantId props.roomId
  | .audio, false => .muteAudio props.participantId props.roomId
  | .video, true => .unmuteVideo props.participantId props.roomId
  | .video, false => .muteVideo props.participantId props.roomId

end CallProviderProps

/-- The types of the messages that the page sends itself. -/
def pageKinds : List String := ["join", "mute_audio", "unmute_audio", "mute_video", "unmute_video"]

/-- The switch that one waits to turn on. -/
def Awaiting.switch : Awaiting → Option TrackKind
  | .initial => none
  | .turnOn kind => some kind

/-- What the browser and the server do to the sockets. -/
def SocketEvent.network : SocketEvent → Bool
  | .opens _ => true
  | .shuts _ => true
  | .closes _ => true
  | .fires _ => true
  | _ => false

/-- The page, with its devices and its connection. -/
structure CallProvider where
  media : UseMediaDevices
  signaling : UseSignaling
  /-- `joinedRef`. -/
  joined : Bool

/-- What happens to the page. -/
inductive PageEvent where
  | mounts
  | unmounts
  /-- The call is left. -/
  | leaves
  | network (event : SocketEvent)
  /-- The effect that joins runs. -/
  | joins
  | toggles (kind : TrackKind)
  | grants
  | denies (message : String)
  /-- Another message is sent. -/
  | sends (message : SdpMessage)

namespace CallProvider

/-- A page that was not mounted yet. -/
def new (props : CallProviderProps) : CallProvider :=
  { media := .new props.initial, signaling := .new, joined := false }

variable (props : CallProviderProps) (page : CallProvider)

/-- A message goes out on the open socket, or waits for one. -/
def send (message : SdpMessage) : CallProvider :=
  { page with signaling := { page.signaling with
      outbox := page.signaling.outbox.send page.signaling.link.openSocket message } }

/-- A switch is told to be on or off. -/
def tell (kind : TrackKind) (on : Bool) : CallProvider := page.send (props.switchMessage kind on)

/-- Those that waited to turn a switch on go on, whatever the answer was. -/
def tellOn (kinds : List TrackKind) : CallProvider :=
  kinds.foldl (fun page kind => page.tell props kind true) page

/-- The join, and behind it what the page shows. -/
def enter : CallProvider :=
  let outbox := page.signaling.outbox.join page.signaling.link.openSocket props.participantId
    props.roomId (some props.displayName) (some props.authToken)
  let entered : CallProvider :=
    { page with signaling := { page.signaling with outbox }, joined := true }
  (entered.tell props .video (page.media.shown .video)).tell props .audio (page.media.shown .audio)

/-- `handleToggleAudio` and `handleToggleVideo`. Who waits for the stream tells of it later. -/
def handleToggle (kind : TrackKind) : CallProvider :=
  let toggled := { page with media := page.media.toggle kind }
  if page.media.shown kind then toggled.tell props kind false
  else if page.media.stream.isSome then toggled.tell props kind true
  else toggled

/-- The switches that wait for the stream. -/
def waiting : List TrackKind := page.media.awaiting.filterMap Awaiting.switch

/-- The connection goes on. A page whose connection is closed is to join again. -/
def connection (event : SocketEvent) : Option CallProvider :=
  (page.signaling.step event).map fun signaling =>
    { page with signaling, joined := page.joined && decide (signaling.link.state ≠ .closed) }

/-- One event; none when it cannot happen. -/
def step : PageEvent → Option CallProvider
  | .mounts =>
      (page.media.step .mounts).bind fun media => { page with media }.connection .mounts
  | .unmounts =>
      (page.media.step .leaves).bind fun media => { page with media }.connection .unmounts
  | .leaves => if page.media.page = .mounted then page.connection .leaves else none
  | .network event => if event.network then page.connection event else none
  | .joins =>
      if page.media.page = .mounted ∧ page.signaling.link.state = .opened ∧
          page.media.mediaReady = true ∧ page.joined = false then
        some (page.enter props)
      else none
  | .toggles kind => if page.media.page = .mounted then some (page.handleToggle props kind) else none
  | .grants => (page.media.step .grants).map fun media => { page with media }.tellOn props page.waiting
  | .denies message =>
      (page.media.step (.denies message)).map fun media => { page with media }.tellOn props page.waiting
  | .sends message => if message.kind ∈ pageKinds then none else some (page.send message)

end CallProvider

section Waiting

namespace UseMediaDevices

variable {hook after : UseMediaDevices}

/-- Who waits has asked, and shows its switch off meanwhile. -/
structure Waits (hook : UseMediaDevices) : Prop where
  asked : hook.acquiring = false → hook.awaiting = []
  off : ∀ kind, .turnOn kind ∈ hook.awaiting → hook.shown kind = false

/-- One more waits for the stream, or has it at once. -/
theorem Waits.acquireStream (waits : hook.Waits)
    (single : hook.stream.isSome = true → hook.acquiring = false) {waiter : Awaiting}
    (off : ∀ kind, waiter = .turnOn kind → hook.shown kind = false) :
    (hook.acquireStream waiter).Waits := by
  unfold UseMediaDevices.acquireStream
  split
  · next stream there =>
    have resumed := @resume_resumed hook stream waiter
    have nobody : (hook.resume stream waiter).awaiting = [] :=
      resumed.asked.2.trans (waits.asked (single (by rw [there]; rfl)))
    refine ⟨fun _ => nobody, fun kind waiting => ?_⟩
    rw [nobody] at waiting
    cases waiting
  · split
    · next asked =>
      refine ⟨fun free => absurd (asked.symm.trans free) nofun, fun kind waiting => ?_⟩
      rcases List.mem_append.mp waiting with before | last
      · exact waits.off kind before
      · exact off kind (List.mem_singleton.mp last).symm
    · refine ⟨nofun, fun kind waiting => ?_⟩
      exact off kind (List.mem_singleton.mp waiting).symm

/-- A grant leaves the page, nobody who waits, and those on who waited. -/
theorem grant_leaves (hook : UseMediaDevices) :
    hook.grant.page = hook.page ∧ hook.grant.awaiting = [] ∧
      ∀ kind, hook.grant.shown kind = (hook.shown kind || decide (.turnOn kind ∈ hook.awaiting)) := by
  have resumed := hook.grant_resumed
  exact ⟨resumed.page, resumed.asked.2, resumed.shown⟩

/-- Nothing takes a page back to where it is new. -/
theorem step_new {event : DeviceEvent} (stepped : hook.step event = some after)
    (new : after.page = .new) : hook.page = .new := by
  have acquired : ∀ (hook : UseMediaDevices) (waiter : Awaiting),
      (hook.acquireStream waiter).page = hook.page := by
    intro hook waiter
    unfold UseMediaDevices.acquireStream
    split
    · exact (resume_resumed _ waiter).page
    · split <;> rfl
  cases event with
  | mounts =>
    simp only [UseMediaDevices.step, Option.ite_none_right_eq_some] at stepped
    exact stepped.1
  | toggles kind =>
    simp only [UseMediaDevices.step, Option.ite_none_right_eq_some, Option.some.injEq] at stepped
    obtain ⟨_, rfl⟩ := stepped
    unfold UseMediaDevices.toggle at new
    split at new
    · exact new
    · rwa [acquired] at new
  | grants =>
    simp only [UseMediaDevices.step, Option.ite_none_right_eq_some, Option.some.injEq] at stepped
    obtain ⟨_, rfl⟩ := stepped
    rw [← hook.grant_leaves.1]
    exact new
  | denies message =>
    simp only [UseMediaDevices.step, Option.ite_none_right_eq_some, Option.some.injEq] at stepped
    obtain ⟨_, rfl⟩ := stepped
    exact new
  | leaves =>
    simp only [UseMediaDevices.step, Option.ite_none_right_eq_some, Option.some.injEq] at stepped
    obtain ⟨_, rfl⟩ := stepped
    cases new

/-- Every event of the devices keeps who waits and what is shown meanwhile. -/
theorem Waits.step (waits : hook.Waits) (sound : hook.Sound) {event : DeviceEvent}
    (stepped : hook.step event = some after) : after.Waits := by
  cases event with
  | mounts =>
    simp only [UseMediaDevices.step, Option.ite_none_right_eq_some, Option.some.injEq] at stepped
    obtain ⟨_, rfl⟩ := stepped
    have kept : { hook with page := .mounted }.Waits := ⟨waits.asked, waits.off⟩
    refine kept.acquireStream sound.single ?_
    intro kind same
    cases same
  | toggles kind =>
    simp only [UseMediaDevices.step, Option.ite_none_right_eq_some, Option.some.injEq] at stepped
    obtain ⟨_, rfl⟩ := stepped
    unfold UseMediaDevices.toggle
    split
    · refine ⟨waits.asked, fun other waiting => ?_⟩
      simp only [setShown]
      split
      · rfl
      · exact waits.off other waiting
    · next shown =>
      refine waits.acquireStream sound.single ?_
      rintro other same
      cases same
      exact Bool.not_eq_true _ ▸ shown
  | grants =>
    simp only [UseMediaDevices.step, Option.ite_none_right_eq_some, Option.some.injEq] at stepped
    obtain ⟨_, rfl⟩ := stepped
    obtain ⟨_, nobody, _⟩ := hook.grant_leaves
    refine ⟨fun _ => nobody, fun kind waiting => ?_⟩
    rw [nobody] at waiting
    cases waiting
  | denies message =>
    simp only [UseMediaDevices.step, Option.ite_none_right_eq_some, Option.some.injEq] at stepped
    obtain ⟨_, rfl⟩ := stepped
    refine ⟨fun _ => rfl, fun kind waiting => ?_⟩
    cases waiting
  | leaves =>
    simp only [UseMediaDevices.step, Option.ite_none_right_eq_some, Option.some.injEq] at stepped
    obtain ⟨_, rfl⟩ := stepped
    exact ⟨waits.asked, waits.off⟩

/-- A switch that is toggled goes off, or goes on, or waits. -/
theorem toggle_shown (hook : UseMediaDevices) (kind : TrackKind) :
    (hook.toggle kind).shown =
      if hook.shown kind = false ∧ hook.stream = none then hook.shown
      else fun other => if other = kind then !hook.shown kind else hook.shown other := by
  unfold UseMediaDevices.toggle UseMediaDevices.acquireStream
  cases shown : hook.shown kind with
  | true => simp [setShown]
  | false =>
    cases hook.stream with
    | some stream => simp [resume, setShown]
    | none =>
      simp only [Bool.false_eq_true, if_false, and_self, if_true]
      split <;> rfl

end UseMediaDevices

end Waiting

section Linking

namespace Link

variable {link after : Link}

/-- The open socket is the current one, once that has opened. -/
theorem openSocket_eq_some {socket : Nat} :
    link.openSocket = some socket ↔ link.ws = some socket ∧ link.sockets[socket]? = some .opened := by
  simp [openSocket, Option.filter_eq_some_iff]

/-- A timer that fires finds the connection closed. -/
theorem OneConnection.fired (one : link.OneConnection) {timer : Nat}
    (pending : timer ∈ link.timers.map Prod.fst) : link.state = .closed := by
  have running : link.running = true := by
    by_contra stopped
    rw [(one.idle (Bool.not_eq_true _ ▸ stopped)).2] at pending
    cases pending
  cases one.current running with
  | live _ _ _ _ _ unset _ =>
    rw [unset] at pending
    cases pending
  | waiting _ _ _ _ _ _ _ shown => exact shown

/-- A socket that opens finds the connection connecting. -/
theorem OneConnection.opening (one : link.OneConnection) {socket : Nat}
    (found : link.sockets[socket]? = some .connecting) : link.state = .connecting := by
  obtain ⟨held, running, _⟩ := one.held found rfl
  cases one.current running with
  | live other ready holds present _ _ shown =>
    obtain rfl : other = socket := Option.some.inj (holds.symm.trans held)
    obtain rfl := Option.some.inj (present.symm.trans found)
    exact shown
  | waiting other timer holds closed _ _ _ _ =>
    obtain rfl : other = socket := Option.some.inj (holds.symm.trans held)
    cases closed.symm.trans found

/-- A connection that is shown open and is not closed goes on with the socket it had, or with
none. -/
theorem network_kept (one : link.OneConnection) {event : SocketEvent} (network : event.network = true)
    (stepped : link.step event = some after) (shown : link.state = .opened)
    (unclosed : after.state ≠ .closed) :
    after.state = .opened ∧ ∀ socket, after.openSocket = some socket → link.openSocket = some socket := by
  have moved : ∀ (moving : Nat) (ready : ReadyState), ready ≠ .opened → ∀ socket,
      (link.setReady moving ready).openSocket = some socket → link.openSocket = some socket := by
    intro moving ready other socket opened
    obtain ⟨held, found⟩ := openSocket_eq_some.mp opened
    refine openSocket_eq_some.mpr ⟨held, ?_⟩
    simp only [setReady, List.getElem?_set] at found
    split at found
    · split at found
      · exact absurd (Option.some.inj found) other
      · cases found
    · exact found
  cases event with
  | opens socket =>
    simp only [step, Option.ite_none_right_eq_some] at stepped
    exact absurd (shown.symm.trans (one.opening stepped.1)) (by decide)
  | shuts socket =>
    simp only [step, Option.ite_none_right_eq_some, Option.some.injEq] at stepped
    obtain ⟨_, rfl⟩ := stepped
    exact ⟨shown, moved socket .closing (by decide)⟩
  | closes socket =>
    simp only [step] at stepped
    split at stepped
    · split at stepped
      · cases stepped
      · obtain rfl := Option.some.inj stepped
        unfold onclose at unclosed ⊢
        split at unclosed
        · next unmounted =>
          rw [if_pos unmounted]
          exact ⟨shown, moved socket .closed (by decide)⟩
        · next mounted =>
          split at unclosed
          · next other =>
            rw [if_neg mounted, if_pos other]
            exact ⟨shown, moved socket .closed (by decide)⟩
          · exact absurd rfl unclosed
    · cases stepped
  | fires timer =>
    simp only [step, Option.ite_none_right_eq_some] at stepped
    exact absurd (shown.symm.trans (one.fired stepped.1)) (by decide)
  | mounts | unmounts | leaves | sends | joins => cases network

/-- A connection that is taken down is shown as it was, and has no socket. -/
theorem OneConnection.ended (one : link.OneConnection) (effect : Bool) :
    { link.takeDown with effect }.state = link.state ∧
      { link.takeDown with effect }.openSocket = none := by
  obtain ⟨sockets, down, _⟩ := one.takenDown
  rw [down]
  exact ⟨rfl, rfl⟩

end Link

end Linking

section Saying

namespace CallProviderProps

variable (props : CallProviderProps)

/-- The messages join, and what they say of a switch since is this. -/
def Said (kind : TrackKind) (on : Bool) (messages : List SdpMessage) : Prop :=
  Since
    (fun earlier message => props.joinMessage ∈ earlier ∧ message = props.switchMessage kind on)
    (fun _ message => message ≠ props.joinMessage ∧ ∀ other, message ≠ props.switchMessage kind other)
    messages

variable {props} {kind other : TrackKind} {on also : Bool} {messages : List SdpMessage}

/-- The four messages about switches are told apart. -/
theorem switchMessage_inj (same : props.switchMessage kind on = props.switchMessage other also) :
    kind = other ∧ on = also := by
  cases kind <;> cases on <;> cases other <;> cases also <;> cases same <;> exact ⟨rfl, rfl⟩

/-- No message about a switch is the `join`. -/
theorem switchMessage_ne_join : props.switchMessage kind on ≠ props.joinMessage := by
  cases kind <;> cases on <;> exact nofun

/-- The page's own messages are known by their types. -/
theorem foreign {message : SdpMessage} (foreign : message.kind ∉ pageKinds) :
    message ≠ props.joinMessage ∧ ∀ kind on, message ≠ props.switchMessage kind on := by
  constructor
  · rintro rfl
    simp [joinMessage, SdpMessage.kind, pageKinds] at foreign
  · rintro kind on rfl
    cases kind <;> cases on <;> simp [switchMessage, SdpMessage.kind, pageKinds] at foreign

/-- Where something was said of a switch, there was a join before. -/
theorem Said.joined (said : props.Said kind on messages) : props.joinMessage ∈ messages := by
  obtain ⟨earlier, message, later, rfl, ⟨join, _⟩, _⟩ := said
  exact List.mem_append_left _ join

/-- Of a switch one thing is said. -/
theorem Said.unique (said : props.Said kind on messages) (again : props.Said kind also messages) :
    on = also := by
  induction messages using List.reverseRecOn with
  | nil => exact absurd said since_nil
  | append_singleton messages last inductionHypothesis =>
    rcases (since_append_one messages last).mp said with ⟨_, spoken⟩ | ⟨before, silent⟩
    · rcases (since_append_one messages last).mp again with ⟨_, same⟩ | ⟨_, quiet⟩
      · exact (switchMessage_inj (spoken.symm.trans same)).2
      · exact absurd spoken (quiet.2 on)
    · rcases (since_append_one messages last).mp again with ⟨_, spoken⟩ | ⟨also_before, _⟩
      · exact absurd spoken (silent.2 also)
      · exact inductionHypothesis before also_before

/-- Another message leaves standing what was said. -/
theorem Said.foreign (said : props.Said kind on messages) {message : SdpMessage}
    (other : message.kind ∉ pageKinds) : props.Said kind on (messages ++ [message]) := by
  have plain : message ≠ props.joinMessage ∧ ∀ kind on, message ≠ props.switchMessage kind on :=
    CallProviderProps.foreign other
  obtain ⟨no_join, no_switch⟩ := plain
  exact (since_append_one messages message).mpr (.inr ⟨said, no_join, no_switch kind⟩)

/-- The message about a switch replaces what was said of it, and leaves the other one. -/
theorem Said.tell (said : props.Said kind on messages) (told : TrackKind) (now : Bool) :
    props.Said kind (if kind = told then now else on) (messages ++ [props.switchMessage told now]) := by
  refine (since_append_one messages _).mpr ?_
  by_cases own : kind = told
  · subst own
    exact .inl ⟨said.joined, by rw [if_pos rfl]⟩
  · rw [if_neg own]
    refine .inr ⟨said, switchMessage_ne_join, fun other same => ?_⟩
    exact own (switchMessage_inj same).1.symm

end CallProviderProps

/-- What was written on a socket. -/
def Outbox.messagesOn (outbox : Outbox) (socket : Nat) : List SdpMessage :=
  outbox.wire.filterMap fun written =>
    if written.1 = socket then some written.2.message else none

/-- What is sent on an open socket is written there at once. -/
theorem Outbox.messagesOn_send (outbox : Outbox) (socket : Nat) (message : SdpMessage) :
    (outbox.send (some socket) message).messagesOn socket = outbox.messagesOn socket ++ [message] := by
  simp [messagesOn, Outbox.send]

/-- The `join` of a page is written on the open socket, before what waited. -/
theorem Outbox.messagesOn_join (outbox : Outbox) (socket : Nat) (props : CallProviderProps) :
    props.joinMessage ∈ (outbox.join (some socket) props.participantId props.roomId
      (some props.displayName) (some props.authToken)).messagesOn socket := by
  have sent := outbox.messagesOn_send socket props.joinMessage
  have flushed : (outbox.join (some socket) props.participantId props.roomId
      (some props.displayName) (some props.authToken)).messagesOn socket =
        (outbox.send (some socket) props.joinMessage).messagesOn socket ++
          outbox.outboundQueue.map Letter.message := by
    simp [messagesOn, Outbox.join, Outbox.flush, Outbox.send, CallProviderProps.joinMessage,
      List.filterMap_map]
  rw [flushed, sent]
  simp

end Saying

namespace CallProvider

variable {props : CallProviderProps} {page after : CallProvider} {shown : TrackKind → Bool}

section Telling

/-- A joined page has said on its socket, if it is open, which switches are on. -/
def Says (props : CallProviderProps) (page : CallProvider) (shown : TrackKind → Bool) : Prop :=
  page.joined = true → ∀ socket, page.signaling.link.openSocket = some socket → ∀ kind,
    props.Said kind (shown kind) (page.signaling.outbox.messagesOn socket)

/-- After a switch is told of, what was said of the other one still stands. -/
theorem Says.tell (spoken : page.Says props shown) (told : TrackKind) (on : Bool) :
    (page.tell props told on).Says props fun kind => if kind = told then on else shown kind := by
  intro joined socket opened kind
  have before := (spoken joined socket opened kind).tell told on
  have shut : page.signaling.link.openSocket = some socket := opened
  rw [CallProvider.tell, CallProvider.send, shut, Outbox.messagesOn_send]
  exact before

/-- What is told of those that waited. The induction is on them. -/
theorem Says.tellOn (spoken : page.Says props shown) (kinds : List TrackKind) :
    (page.tellOn props kinds).Says props fun kind => shown kind || decide (kind ∈ kinds) := by
  induction kinds generalizing page shown with
  | nil => simpa [CallProvider.tellOn] using spoken
  | cons first rest inductionHypothesis =>
    have later := inductionHypothesis (spoken.tell first true)
    have same : (fun kind => (if kind = first then true else shown kind) || decide (kind ∈ rest)) =
        fun kind => shown kind || decide (kind ∈ first :: rest) := by
      funext kind
      by_cases here : kind = first <;> simp [here]
    rw [same] at later
    exact later

/-- A message of another type leaves standing what was said. -/
theorem Says.send (spoken : page.Says props shown) {message : SdpMessage}
    (other : message.kind ∉ pageKinds) : (page.send message).Says props shown := by
  intro joined socket opened kind
  have shut : page.signaling.link.openSocket = some socket := opened
  rw [CallProvider.send, shut, Outbox.messagesOn_send]
  exact (spoken joined socket opened kind).foreign other

/-- Behind the join stands what is shown. -/
theorem enter_says : (page.enter props).Says props page.media.shown := by
  intro _ socket opened kind
  have shut : page.signaling.link.openSocket = some socket := opened
  have join := page.signaling.outbox.messagesOn_join socket props
  simp only [enter, tell, CallProvider.send, shut, Outbox.messagesOn_send]
  generalize (page.signaling.outbox.join (some socket) props.participantId props.roomId
    (some props.displayName) (some props.authToken)).messagesOn socket = messages at join ⊢
  cases kind with
  | audio => exact (since_append_one _ _).mpr (.inl ⟨List.mem_append_left _ join, rfl⟩)
  | video =>
    refine (since_append_one _ _).mpr (.inr ⟨?_, CallProviderProps.switchMessage_ne_join, ?_⟩)
    · exact (since_append_one _ _).mpr (.inl ⟨join, rfl⟩)
    · intro other same
      cases (CallProviderProps.switchMessage_inj same).1

/-- Telling of switches does not touch the connection. -/
@[simp] theorem tellOn_link (kinds : List TrackKind) :
    (page.tellOn props kinds).signaling.link = page.signaling.link := by
  induction kinds generalizing page with
  | nil => rfl
  | cons first rest inductionHypothesis => exact inductionHypothesis

/-- Nor does it touch whether the page has joined. -/
@[simp] theorem tellOn_joined (kinds : List TrackKind) :
    (page.tellOn props kinds).joined = page.joined := by
  induction kinds generalizing page with
  | nil => rfl
  | cons first rest inductionHypothesis => exact inductionHypothesis

/-- Nor does it touch the devices. -/
@[simp] theorem tellOn_media (kinds : List TrackKind) :
    (page.tellOn props kinds).media = page.media := by
  induction kinds generalizing page with
  | nil => rfl
  | cons first rest inductionHypothesis => exact inductionHypothesis

end Telling

section Standing

/-- What is known of a page. -/
structure Standing (page : CallProvider) : Prop where
  media : page.media.Sound
  waits : page.media.Waits
  one : page.signaling.link.OneConnection
  young : page.media.page = .new → page.joined = false
  /-- A page that has joined is shown as connected. -/
  entered : page.joined = true → page.signaling.link.state = .opened

/-- A page that was not mounted yet stands. -/
theorem standing_new (props : CallProviderProps) : (new props).Standing where
  media := ⟨nofun, rfl, rfl, fun _ => ⟨rfl, rfl⟩, nofun⟩
  waits := ⟨fun _ => rfl, nofun⟩
  one := Link.new_one
  young := fun _ => rfl
  entered := nofun

/-- The connection goes on, and the page with it. -/
theorem connection_eq_some {event : SocketEvent} (connected : page.connection event = some after) :
    ∃ link, page.signaling.link.step event = some link ∧ after.media = page.media ∧
      after.signaling = { link, outbox := page.signaling.outbox.take page.signaling.link.openSocket event } ∧
        after.joined = (page.joined && decide (link.state ≠ .closed)) := by
  obtain ⟨signaling, moved, rfl⟩ := Option.map_eq_some_iff.mp connected
  obtain ⟨link, stepped, rfl⟩ := Option.map_eq_some_iff.mp moved
  exact ⟨link, stepped, rfl, rfl, rfl⟩

/-- The devices go on. -/
theorem Standing.devices (standing : page.Standing) {event : DeviceEvent} {media : UseMediaDevices}
    (stepped : page.media.step event = some media) : { page with media }.Standing where
  media := standing.media.step stepped
  waits := standing.waits.step standing.media stepped
  one := standing.one
  young := fun new => standing.young (UseMediaDevices.step_new stepped new)
  entered := standing.entered

/-- The connection goes on; a page that has joined stays so only on an open connection. -/
theorem Standing.connected (standing : page.Standing) {event : SocketEvent}
    (connected : page.connection event = some after)
    (shown : page.joined = true → ∀ link, page.signaling.link.step event = some link →
      link.state ≠ .closed → link.state = .opened) : after.Standing := by
  obtain ⟨link, stepped, media, signaling, joined⟩ := connection_eq_some connected
  refine ⟨media ▸ standing.media, media ▸ standing.waits, ?_, ?_, ?_⟩
  · rw [signaling]
    exact Link.step_one standing.one stepped
  · intro new
    rw [joined, standing.young (media ▸ new), Bool.false_and]
  · intro entered
    rw [joined, Bool.and_eq_true, decide_eq_true_eq] at entered
    rw [signaling]
    exact shown entered.1 link stepped entered.2

/-- Telling of switches keeps a page standing. -/
theorem Standing.tellOn (standing : page.Standing) (kinds : List TrackKind) :
    (page.tellOn props kinds).Standing := by
  refine ⟨?_, ?_, ?_, ?_, ?_⟩
  · rw [tellOn_media]
    exact standing.media
  · rw [tellOn_media]
    exact standing.waits
  · rw [tellOn_link]
    exact standing.one
  · rw [tellOn_media, tellOn_joined]
    exact standing.young
  · rw [tellOn_joined, tellOn_link]
    exact standing.entered

/-- Every event keeps it. -/
theorem Standing.step (standing : page.Standing) {event : PageEvent}
    (stepped : page.step props event = some after) : after.Standing := by
  cases event with
  | mounts =>
    obtain ⟨media, mounted, connected⟩ := Option.bind_eq_some_iff.mp stepped
    have new : page.media.page = .new := by
      simp only [UseMediaDevices.step, Option.ite_none_right_eq_some] at mounted
      exact mounted.1
    refine (standing.devices mounted).connected connected ?_
    intro joined
    exact absurd (joined.symm.trans (standing.young new)) (by decide)
  | unmounts =>
    obtain ⟨media, left, connected⟩ := Option.bind_eq_some_iff.mp stepped
    refine (standing.devices left).connected connected ?_
    intro joined link moved _
    simp only [Link.step, Option.ite_none_right_eq_some, Option.some.injEq] at moved
    rw [← moved.2, (standing.one.ended false).1]
    exact standing.entered joined
  | leaves =>
    simp only [CallProvider.step, Option.ite_none_right_eq_some] at stepped
    refine standing.connected stepped.2 ?_
    intro joined link moved _
    obtain rfl := Option.some.inj moved
    exact (standing.one.ended page.signaling.link.takeDown.effect).1.trans (standing.entered joined)
  | network event =>
    simp only [CallProvider.step, Option.ite_none_right_eq_some] at stepped
    refine standing.connected stepped.2 ?_
    intro joined link moved unclosed
    exact (Link.network_kept standing.one stepped.1 moved (standing.entered joined) unclosed).1
  | joins =>
    simp only [CallProvider.step, Option.ite_none_right_eq_some, Option.some.injEq] at stepped
    obtain ⟨⟨mounted, shown, _⟩, rfl⟩ := stepped
    refine ⟨standing.media, standing.waits, standing.one, ?_, fun _ => shown⟩
    intro new
    exact absurd (mounted.symm.trans new) (by decide)
  | toggles kind =>
    simp only [CallProvider.step, Option.ite_none_right_eq_some, Option.some.injEq] at stepped
    obtain ⟨mounted, rfl⟩ := stepped
    have toggled : page.media.step (.toggles kind) = some (page.media.toggle kind) := if_pos mounted
    have stands := standing.devices toggled
    unfold handleToggle
    split
    · exact ⟨stands.media, stands.waits, stands.one, stands.young, stands.entered⟩
    · split
      · exact ⟨stands.media, stands.waits, stands.one, stands.young, stands.entered⟩
      · exact stands
  | grants =>
    obtain ⟨media, granted, rfl⟩ := Option.map_eq_some_iff.mp stepped
    exact (standing.devices granted).tellOn _
  | denies message =>
    obtain ⟨media, denied, rfl⟩ := Option.map_eq_some_iff.mp stepped
    exact (standing.devices denied).tellOn _
  | sends message =>
    simp only [CallProvider.step, Option.ite_none_left_eq_some, Option.some.injEq] at stepped
    obtain ⟨_, rfl⟩ := stepped
    exact ⟨standing.media, standing.waits, standing.one, standing.young, standing.entered⟩

/-- So it is in every state that is reached. -/
theorem reached_standing (reached : Reaches (step props) always (new props) page) : page.Standing :=
  reached.invariant Standing (standing_new props) fun _ _ _ standing _ stepped => standing.step stepped

end Standing

section Agreeing

/-- A joined page with an open socket has said on it what it shows. -/
def Told (props : CallProviderProps) (page : CallProvider) : Prop := page.Says props page.media.shown

/-- The devices deny nothing to a joined page that waits to turn a switch on. -/
def Undenied (page : CallProvider) (event : PageEvent) : Prop :=
  ∀ message, event = .denies message → page.joined = true →
    page.signaling.link.openSocket.isSome = true → page.waiting = []

/-- An event that is no denial denies nothing. -/
theorem undenied {event : PageEvent} (other : ∀ message, event ≠ .denies message) :
    page.Undenied event :=
  fun message same => absurd same (other message)

/-- The switches that wait are those somebody waits to turn on. -/
theorem mem_waiting {kind : TrackKind} : kind ∈ page.waiting ↔ .turnOn kind ∈ page.media.awaiting := by
  rw [waiting, List.mem_filterMap]
  constructor
  · rintro ⟨waiter, member, switch⟩
    cases waiter with
    | initial => cases switch
    | turnOn other => exact Option.some.inj switch ▸ member
  · intro member
    exact ⟨_, member, rfl⟩

/-- A page whose connection is taken down has nothing to have said. -/
theorem told_ended {event : SocketEvent} (connected : page.connection event = some after)
    (ended : ∀ link, page.signaling.link.step event = some link → link.openSocket = none) :
    after.Told props := by
  obtain ⟨link, stepped, _, signaling, _⟩ := connection_eq_some connected
  intro _ socket opened
  rw [signaling, ended link stepped] at opened
  cases opened

/-- A switch that is toggled is told of, unless it waits. -/
theorem Told.toggle (told : page.Told props) (kind : TrackKind) :
    (page.handleToggle props kind).Told props := by
  have toggled : { page with media := page.media.toggle kind }.Says props page.media.shown := told
  have shown := page.media.toggle_shown kind
  unfold handleToggle
  split
  · next on =>
    rw [if_neg (by simp [on])] at shown
    have spoken := toggled.tell kind false
    rw [Told]
    show CallProvider.Says props _ (page.media.toggle kind).shown
    rw [shown, on]
    exact spoken
  · next off =>
    have off : page.media.shown kind = false := Bool.not_eq_true _ ▸ off
    split
    · next there =>
      rw [if_neg (by rintro ⟨_, absent⟩; simp [absent] at there)] at shown
      have spoken := toggled.tell kind true
      rw [Told]
      show CallProvider.Says props _ (page.media.toggle kind).shown
      rw [shown, off]
      exact spoken
    · next absent =>
      rw [if_pos ⟨off, by simpa using absent⟩] at shown
      rw [Told]
      show CallProvider.Says props _ (page.media.toggle kind).shown
      rw [shown]
      exact toggled

/-- What a grant lets show is what is told. -/
theorem Told.grant (told : page.Told props) :
    ({ page with media := page.media.grant }.tellOn props page.waiting).Told props := by
  have granted : { page with media := page.media.grant }.Says props page.media.shown := told
  obtain ⟨_, _, switched⟩ := page.media.grant_leaves
  have shown : page.media.grant.shown = fun kind => page.media.shown kind || decide (kind ∈ page.waiting) := by
    funext kind
    simp only [mem_waiting]
    exact switched kind
  rw [Told, tellOn_media]
  show CallProvider.Says props _ page.media.grant.shown
  rw [shown]
  exact granted.tellOn page.waiting

/-- After a denial what is shown was told exactly if nobody waited, or there is nobody to tell. -/
theorem Told.deny_iff (told : page.Told props) (standing : page.Standing) {media : UseMediaDevices}
    (same : media.shown = page.media.shown) :
    (page.joined = true → page.signaling.link.openSocket.isSome = true → page.waiting = []) ↔
      ({ page with media }.tellOn props page.waiting).Told props := by
  have denied : { page with media }.Says props page.media.shown := told
  have spoken := denied.tellOn page.waiting
  rw [Told, tellOn_media]
  show _ ↔ CallProvider.Says props _ media.shown
  rw [same]
  constructor
  · intro nobody joined socket opened
    rw [tellOn_joined] at joined
    rw [tellOn_link] at opened
    have waiting := nobody joined (by rw [opened]; rfl)
    rw [waiting]
    exact denied joined socket opened
  · intro agreed joined connected
    obtain ⟨socket, opened⟩ := Option.isSome_iff_exists.mp connected
    rw [List.eq_nil_iff_forall_not_mem]
    intro kind waits
    have on := spoken (by rw [tellOn_joined]; exact joined) socket (by rw [tellOn_link]; exact opened) kind
    have off := agreed (by rw [tellOn_joined]; exact joined) socket (by rw [tellOn_link]; exact opened) kind
    have shown := standing.waits.off kind (mem_waiting.mp waits)
    have clash := on.unique off
    simp [waits, shown] at clash

/-- An event keeps the server told exactly if it is no denial of that kind. -/
theorem told_step_iff (standing : page.Standing) (told : page.Told props) {event : PageEvent}
    (stepped : page.step props event = some after) : page.Undenied event ↔ after.Told props := by
  cases event with
  | mounts =>
    refine iff_of_true (undenied (by simp)) ?_
    obtain ⟨media, mounted, connected⟩ := Option.bind_eq_some_iff.mp stepped
    obtain ⟨_, _, _, _, joined⟩ := connection_eq_some connected
    simp only [UseMediaDevices.step, Option.ite_none_right_eq_some] at mounted
    intro entered
    rw [joined, standing.young mounted.1] at entered
    cases entered
  | unmounts =>
    refine iff_of_true (undenied (by simp)) ?_
    obtain ⟨media, _, connected⟩ := Option.bind_eq_some_iff.mp stepped
    refine told_ended connected ?_
    intro link moved
    simp only [Link.step, Option.ite_none_right_eq_some, Option.some.injEq] at moved
    rw [← moved.2]
    exact (standing.one.ended false).2
  | leaves =>
    refine iff_of_true (undenied (by simp)) ?_
    simp only [CallProvider.step, Option.ite_none_right_eq_some] at stepped
    refine told_ended stepped.2 ?_
    intro link moved
    obtain rfl := Option.some.inj moved
    exact (standing.one.ended page.signaling.link.takeDown.effect).2
  | network event =>
    refine iff_of_true (undenied (by simp)) ?_
    simp only [CallProvider.step, Option.ite_none_right_eq_some] at stepped
    obtain ⟨link, moved, media, signaling, joined⟩ := connection_eq_some stepped.2
    have written : page.signaling.outbox.take page.signaling.link.openSocket event =
        page.signaling.outbox := by
      cases event with
      | sends | joins => cases stepped.1
      | _ => rfl
    intro entered socket opened
    rw [joined, Bool.and_eq_true, decide_eq_true_eq] at entered
    rw [signaling] at opened
    have before := (Link.network_kept standing.one stepped.1 moved (standing.entered entered.1)
      entered.2).2 socket opened
    rw [signaling, written, media]
    exact told entered.1 socket before
  | joins =>
    refine iff_of_true (undenied (by simp)) ?_
    simp only [CallProvider.step, Option.ite_none_right_eq_some, Option.some.injEq] at stepped
    obtain ⟨_, rfl⟩ := stepped
    exact enter_says
  | toggles kind =>
    refine iff_of_true (undenied (by simp)) ?_
    simp only [CallProvider.step, Option.ite_none_right_eq_some, Option.some.injEq] at stepped
    obtain ⟨_, rfl⟩ := stepped
    exact told.toggle kind
  | grants =>
    refine iff_of_true (undenied (by simp)) ?_
    obtain ⟨media, granted, rfl⟩ := Option.map_eq_some_iff.mp stepped
    simp only [UseMediaDevices.step, Option.ite_none_right_eq_some, Option.some.injEq] at granted
    obtain ⟨_, rfl⟩ := granted
    exact told.grant
  | denies message =>
    obtain ⟨media, denied, rfl⟩ := Option.map_eq_some_iff.mp stepped
    simp only [UseMediaDevices.step, Option.ite_none_right_eq_some, Option.some.injEq] at denied
    obtain ⟨_, rfl⟩ := denied
    refine Iff.trans ?_ (told.deny_iff standing rfl)
    constructor
    · intro undenied
      exact undenied message rfl
    · intro nobody _ _
      exact nobody
  | sends message =>
    refine iff_of_true (undenied (by simp)) ?_
    simp only [CallProvider.step, Option.ite_none_left_eq_some, Option.some.injEq] at stepped
    obtain ⟨foreign, rfl⟩ := stepped
    exact Says.send told foreign

/-- Along a run of a page, whenever it has joined and its socket is open, the last that was said
of each switch on that socket since the join is what the page shows, exactly when no denial
finds a switch waiting on a page that has joined and is connected.

A switch is said when it is toggled and when the page joins. Of all else only a denial
changes what is shown, and only if it finds a switch waiting. -/
theorem switches_told_iff :
    (Reaches (step props) (fun before (_ : PageEvent) => before.Told props) (new props) page ∧
        page.Told props) ↔ Reaches (step props) Undenied (new props) page := by
  refine Reaches.within_iff (Told props) ?_ ?_
  · intro joined
    cases joined
  · intro before event after reached told stepped
    exact told_step_iff (reached_standing reached) told stepped

end Agreeing

section Sample

/-- The first request is denied; on a joined page the microphone is turned on, and the second
one is denied as well. The page shows the microphone off, and has told that it is on. -/
example :
    let props : CallProviderProps := ⟨⟨1⟩, "Ada", "room", "token", fun _ => false⟩
    (walk (step props) always (new props)
      [.mounts, .network (.opens 0), .denies "NotAllowedError", .joins, .toggles .audio,
        .denies "NotAllowedError"]).map
      (fun page => (page.media.shown .audio, page.signaling.outbox.messagesOn 0)) =
        some (false, [props.joinMessage, props.switchMessage .video false,
          props.switchMessage .audio false, props.switchMessage .audio true]) := by
  decide

end Sample

end CallProvider

end Seameet

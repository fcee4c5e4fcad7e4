import Mathlib.Data.List.Basic
import Seameet.Library.Runs

/-!
# Microphone and camera

The page asks for the microphone and the camera together, when it is mounted and, if that
was denied, when a switch is turned on. Whoever needs the stream waits for the same request.
When it is granted, both tracks are disabled first; then the mount enables those that were
chosen in the lobby, and each switch that was turned on enables its own.

There is never a second request under way, and never a second stream. Once the request is
answered, what the page shows is what is live, unless the answer comes late, after the page
was left, when nothing stops the tracks any more, or after a switch was turned off that the
lobby had turned on; or unless it is a denial that finds a switch on, which stays on.
-/

namespace Seameet

open Library

/-- The two tracks of the local stream. -/
inductive TrackKind where
  | audio
  | video
  deriving DecidableEq, Repr

/-- The local stream: which tracks are enabled, and whether they were stopped. -/
structure LocalStream where
  enabled : TrackKind → Bool
  stopped : Bool

namespace LocalStream

/-- A track that captures. -/
def live (stream : LocalStream) (kind : TrackKind) : Bool := stream.enabled kind && !stream.stopped

/-- One track is enabled or disabled. -/
def setEnabled (stream : LocalStream) (kind : TrackKind) (value : Bool) : LocalStream :=
  { stream with enabled := fun other => if other = kind then value else stream.enabled other }

end LocalStream

/-- Where the page that uses the hook is. -/
inductive PageState where
  | new
  | mounted
  | left
  deriving DecidableEq, Repr

/-- Who waits for the stream: the mount, or a switch that was turned on. -/
inductive Awaiting where
  | initial
  | turnOn (kind : TrackKind)
  deriving DecidableEq, Repr

/-- The refs and the state of `useMediaDevices`, without the settings and the screen. -/
structure UseMediaDevices where
  /-- The choice that was made in the lobby. -/
  initial : TrackKind → Bool
  page : PageState
  stream : Option LocalStream
  acquiring : Bool
  awaiting : List Awaiting
  /-- The switches that the page shows on. -/
  shown : TrackKind → Bool
  mediaReady : Bool
  error : Option String
  /-- The requests that were made, granted and denied. Records for the statements. -/
  requests : Nat
  granted : Nat
  denied : Nat

/-- What happens to the hook. -/
inductive DeviceEvent where
  | mounts
  | toggles (kind : TrackKind)
  /-- The request is granted. -/
  | grants
  /-- The request fails. -/
  | denies (message : String)
  | leaves
  deriving DecidableEq, Repr

namespace UseMediaDevices

/-- The hook before its page is mounted. -/
def new (initial : TrackKind → Bool) : UseMediaDevices :=
  { initial, page := .new, stream := none, acquiring := false, awaiting := [], shown := initial,
    mediaReady := false, error := none, requests := 0, granted := 0,
    denied := 0 }

variable (hook : UseMediaDevices)

/-- The page shows a switch on or off. -/
def setShown (kind : TrackKind) (value : Bool) : UseMediaDevices :=
  { hook with shown := fun other => if other = kind then value else hook.shown other }

/-- What follows once the stream is there. The mount enables nothing on a page that was
left; a switch does not ask. -/
def resume (stream : LocalStream) : Awaiting → UseMediaDevices
  | .initial =>
      if hook.page = .mounted then
        { hook with stream := some {
            stream with enabled := fun kind => stream.enabled kind || hook.initial kind } }
      else { hook with stream := some stream }
  | .turnOn kind => { hook.setShown kind true with stream := some (stream.setEnabled kind true) }

/-- All that wait go on, in the order they came. -/
def resumeAll : UseMediaDevices → List Awaiting → UseMediaDevices
  | hook, [] => hook
  | hook, waiter :: rest =>
      match hook.stream with
      | some stream => resumeAll (hook.resume stream waiter) rest
      | none => hook

/-- Wait for the stream: it is there, or it was asked for, or it is asked for now. -/
def acquireStream (waiter : Awaiting) : UseMediaDevices :=
  match hook.stream with
  | some stream => hook.resume stream waiter
  | none =>
      if hook.acquiring then { hook with awaiting := hook.awaiting ++ [waiter] }
      else { hook with acquiring := true, awaiting := [waiter], requests := hook.requests + 1 }

/-- Turn a switch off, or on. -/
def toggle (kind : TrackKind) : UseMediaDevices :=
  if hook.shown kind then
    { hook.setShown kind false with
      stream := hook.stream.map fun stream => stream.setEnabled kind false }
  else hook.acquireStream (.turnOn kind)

/-- The stream arrives with its tracks disabled. -/
def grant : UseMediaDevices :=
  resumeAll
    { hook with
      stream := some ⟨fun _ => false, false⟩, acquiring := false, awaiting := [], mediaReady := true
      granted := hook.granted + 1 }
    hook.awaiting

/-- One event; none when it cannot happen. -/
def step : DeviceEvent → Option UseMediaDevices
  | .mounts => if hook.page = .new then some ({ hook with page := .mounted }.acquireStream .initial) else none
  | .toggles kind => if hook.page = .mounted then some (hook.toggle kind) else none
  | .grants => if hook.acquiring then some hook.grant else none
  | .denies message =>
      if hook.acquiring then
        some { hook with
          acquiring := false, awaiting := [], mediaReady := true, error := some message
          denied := hook.denied + 1 }
      else none
  | .leaves =>
      if hook.page = .mounted then
        some { hook with
          page := .left, stream := hook.stream.map fun stream => { stream with stopped := true } }
      else none

section Resuming

variable {hook}

/-- What going on with the stream leaves. -/
structure Resumed (hook : UseMediaDevices) (stream : LocalStream) (waiters : List Awaiting)
    (after : UseMediaDevices) : Prop where
  page : after.page = hook.page
  asked : after.acquiring = hook.acquiring ∧ after.awaiting = hook.awaiting
  counts : after.requests = hook.requests ∧ after.granted = hook.granted ∧ after.denied = hook.denied
  initial : after.initial = hook.initial
  shown : ∀ kind, after.shown kind = (hook.shown kind || decide (.turnOn kind ∈ waiters))
  stream : ∃ later, after.stream = some later ∧ later.stopped = stream.stopped ∧
    ∀ kind, later.enabled kind = (stream.enabled kind ||
      (decide (.initial ∈ waiters) && decide (hook.page = .mounted) && hook.initial kind) ||
        decide (.turnOn kind ∈ waiters))

/-- One of those that wait goes on. -/
theorem resume_resumed (stream : LocalStream) (waiter : Awaiting) :
    Resumed hook stream [waiter] (hook.resume stream waiter) := by
  cases waiter with
  | initial =>
    by_cases mounted : hook.page = .mounted
    · simp only [resume, if_pos mounted]
      exact ⟨rfl, ⟨rfl, rfl⟩, ⟨rfl, rfl, rfl⟩, rfl, by simp, _, rfl, rfl, by simp [mounted]⟩
    · simp only [resume, if_neg mounted]
      exact ⟨rfl, ⟨rfl, rfl⟩, ⟨rfl, rfl, rfl⟩, rfl, by simp, _, rfl, rfl, by simp [mounted]⟩
  | turnOn kind =>
    refine ⟨rfl, ⟨rfl, rfl⟩, ⟨rfl, rfl, rfl⟩, rfl, ?_, _, rfl, rfl, ?_⟩
    · intro other
      by_cases same : other = kind <;> simp [resume, setShown, same]
    · intro other
      by_cases same : other = kind <;> simp [LocalStream.setEnabled, same]

/-- All that wait go on. The induction is on them. -/
theorem resumeAll_resumed {stream : LocalStream} (waiters : List Awaiting)
    (there : hook.stream = some stream) : Resumed hook stream waiters (hook.resumeAll waiters) := by
  induction waiters generalizing hook stream with
  | nil => exact ⟨rfl, ⟨rfl, rfl⟩, ⟨rfl, rfl, rfl⟩, rfl, by simp [resumeAll], stream, there, rfl, by simp⟩
  | cons waiter rest inductionHypothesis =>
    have first := @resume_resumed hook stream waiter
    obtain ⟨middle, here, stopped, enabled⟩ := first.stream
    have later := inductionHypothesis here
    obtain ⟨last, found, same, switched⟩ := later.stream
    rw [resumeAll, there]
    refine ⟨later.page.trans first.page, ?_, ?_, later.initial.trans first.initial, ?_, last, found,
      same.trans stopped, ?_⟩
    · exact ⟨later.asked.1.trans first.asked.1, later.asked.2.trans first.asked.2⟩
    · exact ⟨later.counts.1.trans first.counts.1, later.counts.2.1.trans first.counts.2.1,
        later.counts.2.2.trans first.counts.2.2⟩
    · intro kind
      rw [later.shown, first.shown]
      simp [Bool.or_assoc, Bool.decide_or]
    · intro kind
      rw [switched, enabled, first.page, first.initial]
      simp only [List.mem_cons, List.not_mem_nil, or_false, Bool.decide_or]
      cases stream.enabled kind <;> cases decide (Awaiting.initial = waiter) <;>
        cases decide (Awaiting.turnOn kind = waiter) <;> cases decide (hook.page = .mounted) <;>
          cases hook.initial kind <;> simp

/-- Once the stream is granted, all that waited go on with it. -/
theorem grant_resumed (hook : UseMediaDevices) :
    Resumed
      { hook with
        stream := some ⟨fun _ => false, false⟩, acquiring := false, awaiting := [], mediaReady := true
        granted := hook.granted + 1 }
      ⟨fun _ => false, false⟩ hook.awaiting hook.grant :=
  resumeAll_resumed hook.awaiting rfl

end Resuming

section Capturing

variable {hook}

/-- What is known of the stream and the requests for it. -/
structure Sound (hook : UseMediaDevices) : Prop where
  /-- A request is made only where there is no stream. -/
  single : hook.stream.isSome = true → hook.acquiring = false
  counted : hook.requests = hook.granted + hook.denied + if hook.acquiring then 1 else 0
  captured : hook.granted = if hook.stream.isSome then 1 else 0
  idle : hook.page = .new → hook.stream = none ∧ hook.acquiring = false
  running : hook.page = .mounted → ∀ stream ∈ hook.stream, stream.stopped = false

namespace Sound

/-- While a request is under way there is no stream. -/
theorem absent (sound : hook.Sound) (asked : hook.acquiring = true) : hook.stream = none := by
  cases there : hook.stream with
  | none => rfl
  | some stream =>
    have free := sound.single (by rw [there]; rfl)
    rw [asked] at free
    cases free

/-- Whoever asks for the stream keeps it, or begins the one request. -/
theorem acquireStream (sound : hook.Sound) (mounted : hook.page = .mounted) (waiter : Awaiting) :
    (hook.acquireStream waiter).Sound := by
  unfold UseMediaDevices.acquireStream
  split
  · next stream there =>
    have free := sound.single (by rw [there]; rfl)
    have running := sound.running mounted stream there
    have resumed := @resume_resumed hook stream waiter
    obtain ⟨later, found, stopped, _⟩ := resumed.stream
    refine ⟨fun _ => resumed.asked.1.trans free, ?_, ?_, ?_, ?_⟩
    · rw [resumed.counts.1, resumed.counts.2.1, resumed.counts.2.2, resumed.asked.1]
      exact sound.counted
    · rw [resumed.counts.2.1, found, sound.captured, there]
      rfl
    · intro new
      rw [resumed.page, mounted] at new
      cases new
    · intro _ other held
      rw [found] at held
      exact Option.some.inj held ▸ stopped.trans running
  · next there =>
    have counted := sound.counted
    have captured := sound.captured
    split
    · next asked =>
      refine ⟨fun held => ?_, counted, captured, ?_, sound.running⟩
      · rw [there] at held
        cases held
      · intro new
        rw [mounted] at new
        cases new
    · next free =>
      rw [if_neg free] at counted
      refine ⟨fun held => ?_, ?_, captured, ?_, sound.running⟩
      · rw [there] at held
        cases held
      · show hook.requests + 1 = _
        rw [if_pos rfl, counted]
      · intro new
        rw [mounted] at new
        cases new

/-- The request is answered with the stream. -/
theorem grant (sound : hook.Sound) (asked : hook.acquiring = true) : hook.grant.Sound := by
  have resumed := hook.grant_resumed
  obtain ⟨later, found, stopped, _⟩ := resumed.stream
  have counted := sound.counted
  have captured := sound.captured
  have absent := sound.absent asked
  rw [if_pos asked] at counted
  rw [absent] at captured
  refine ⟨fun _ => resumed.asked.1, ?_, ?_, ?_, ?_⟩
  · rw [resumed.counts.1, resumed.counts.2.1, resumed.counts.2.2, resumed.asked.1]
    show hook.requests = hook.granted + 1 + hook.denied + 0
    omega
  · rw [resumed.counts.2.1, found]
    show hook.granted + 1 = 1
    rw [captured]
    rfl
  · intro new
    have idle := sound.idle (resumed.page.symm.trans new)
    rw [asked] at idle
    cases idle.2
  · intro _ stream held
    rw [found] at held
    exact Option.some.inj held ▸ stopped

/-- Every event keeps it. -/
theorem step (sound : hook.Sound) {event : DeviceEvent} {after : UseMediaDevices}
    (stepped : hook.step event = some after) : after.Sound := by
  cases event with
  | mounts =>
    simp only [UseMediaDevices.step, Option.ite_none_right_eq_some, Option.some.injEq] at stepped
    obtain ⟨new, rfl⟩ := stepped
    obtain ⟨absent, free⟩ := sound.idle new
    refine Sound.acquireStream ?_ rfl .initial
    refine ⟨sound.single, sound.counted, sound.captured, nofun, ?_⟩
    intro _ stream held
    rw [show _ = none from absent] at held
    cases held
  | toggles kind =>
    simp only [UseMediaDevices.step, Option.ite_none_right_eq_some, Option.some.injEq] at stepped
    obtain ⟨mounted, rfl⟩ := stepped
    unfold UseMediaDevices.toggle
    split
    · refine ⟨?_, sound.counted, ?_, ?_, ?_⟩
      · intro held
        exact sound.single (by simpa using held)
      · show hook.granted = _
        simpa using sound.captured
      · intro new
        exact absurd (mounted.symm.trans new) nofun
      · intro _ stream held
        obtain ⟨before, there, rfl⟩ := Option.map_eq_some_iff.mp held
        exact sound.running mounted before there
    · exact sound.acquireStream mounted _
  | grants =>
    simp only [UseMediaDevices.step, Option.ite_none_right_eq_some, Option.some.injEq] at stepped
    obtain ⟨asked, rfl⟩ := stepped
    exact sound.grant asked
  | denies message =>
    simp only [UseMediaDevices.step, Option.ite_none_right_eq_some, Option.some.injEq] at stepped
    obtain ⟨asked, rfl⟩ := stepped
    have counted := sound.counted
    rw [if_pos asked] at counted
    refine ⟨fun _ => rfl, ?_, sound.captured, ?_, sound.running⟩
    · show hook.requests = hook.granted + (hook.denied + 1) + 0
      omega
    · intro new
      exact ⟨(sound.idle new).1, rfl⟩
  | leaves =>
    simp only [UseMediaDevices.step, Option.ite_none_right_eq_some, Option.some.injEq] at stepped
    obtain ⟨_, rfl⟩ := stepped
    refine ⟨?_, sound.counted, ?_, nofun, nofun⟩
    · intro held
      exact sound.single (by simpa using held)
    · simpa using sound.captured

end Sound

/-- In every state that is reached the stream and the requests for it are sound. -/
theorem reached_sound {initial : TrackKind → Bool} (reached : Reaches step always (.new initial) hook) :
    hook.Sound := by
  refine Reaches.invariant Sound ⟨?_, rfl, rfl, fun _ => ⟨rfl, rfl⟩, ?_⟩ ?_ reached
  · intro held
    cases held
  · intro mounted
    cases mounted
  · intro before event after sound _ stepped
    exact sound.step stepped

/-- At most one request is ever under way, and none once a stream was granted, so that no
second stream is ever captured.

A request is begun by a mount or by nothing, and it is not begun again while the first is
under way or a stream is there. -/
theorem captured_once {initial : TrackKind → Bool}
    (reached : Reaches step always (.new initial) hook) :
    hook.requests - (hook.granted + hook.denied) ≤ 1 ∧ hook.granted ≤ 1 ∧
      (hook.granted = 1 → hook.acquiring = false) := by
  have sound := reached_sound reached
  have counted := sound.counted
  have captured := sound.captured
  refine ⟨?_, ?_, ?_⟩
  · split at counted <;> omega
  · split at captured <;> omega
  · intro one
    refine sound.single ?_
    split at captured
    · assumption
    · omega

end Capturing

section Showing

variable {hook}

/-- A track captures: there is a stream, and the track is live. -/
def captures (hook : UseMediaDevices) (kind : TrackKind) : Bool := hook.stream.any (·.live kind)

/-- On a mounted page whose request was answered, what captures is what is shown; on a page
that was left, nothing is captured any more. -/
def Honest (hook : UseMediaDevices) : Prop :=
  (hook.page = .mounted → hook.acquiring = false → ∀ kind, hook.captures kind = hook.shown kind) ∧
    (hook.page = .left → ∀ stream ∈ hook.stream, stream.stopped = true)

/-- A grant finds the page mounted, and each switch that nobody waits to turn on as the
mount is going to set it; a denial finds no switch on, unless the page was left. -/
def Timely (hook : UseMediaDevices) : DeviceEvent → Prop
  | .grants => hook.page = .mounted ∧ ∀ kind, .turnOn kind ∉ hook.awaiting →
      hook.shown kind = (decide (.initial ∈ hook.awaiting) && hook.initial kind)
  | .denies _ => hook.page = .mounted → ∀ kind, hook.shown kind = false
  | _ => True

/-- Without a stream nothing is captured. -/
theorem captures_none (absent : hook.stream = none) (kind : TrackKind) :
    hook.captures kind = false := by
  rw [captures, absent]
  rfl

/-- Of the one stream there is, what is live is captured. -/
theorem captures_some {stream : LocalStream} (there : hook.stream = some stream)
    (kind : TrackKind) : hook.captures kind = stream.live kind := by
  rw [captures, there]
  rfl

/-- A page that asks, and was not left, promises nothing. -/
theorem honest_asking (mounted : hook.page = .mounted) (asked : hook.acquiring = true) :
    hook.Honest :=
  ⟨fun _ free => absurd (asked.symm.trans free) (by decide),
    fun left => absurd (mounted.symm.trans left) (by decide)⟩

/-- A switch that is turned on or off keeps the page honest. -/
theorem Honest.toggle (honest : hook.Honest) (sound : hook.Sound) (mounted : hook.page = .mounted)
    (kind : TrackKind) : (hook.toggle kind).Honest := by
  unfold UseMediaDevices.toggle UseMediaDevices.acquireStream
  split
  · next on =>
    refine ⟨fun _ free other => ?_, fun left => absurd (mounted.symm.trans left) (by decide)⟩
    have free : hook.acquiring = false := free
    have same := honest.1 mounted free other
    cases there : hook.stream with
    | none =>
      -- an honest page without a stream shows no switch on
      have off := honest.1 mounted free kind
      rw [captures_none there, on] at off
      cases off
    | some before =>
      have running := sound.running mounted before there
      rw [captures_some there] at same
      by_cases here : other = kind <;>
        simp_all [captures, LocalStream.live, LocalStream.setEnabled, setShown]
  · split
    · next before there =>
      have free := sound.single (by rw [there]; rfl)
      refine ⟨fun _ _ other => ?_, fun left => absurd (mounted.symm.trans left) (by decide)⟩
      have same := honest.1 mounted free other
      rw [captures_some there] at same
      have running := sound.running mounted before there
      by_cases here : other = kind <;>
        simp_all [captures, LocalStream.live, LocalStream.setEnabled, setShown, resume]
    · split
      · next asked => exact honest_asking mounted asked
      · exact honest_asking mounted rfl

/-- After a grant the page is honest exactly when the grant was timely. -/
theorem honest_grant (sound : hook.Sound) (asked : hook.acquiring = true) :
    hook.Timely .grants ↔ hook.grant.Honest := by
  have resumed := hook.grant_resumed
  obtain ⟨later, found, stopped, enabled⟩ := resumed.stream
  have page : hook.grant.page = hook.page := resumed.page
  have free : hook.grant.acquiring = false := resumed.asked.1
  have shown : ∀ kind, hook.grant.shown kind =
      (hook.shown kind || decide (.turnOn kind ∈ hook.awaiting)) := resumed.shown
  have live : ∀ kind, hook.grant.captures kind =
      (decide (.initial ∈ hook.awaiting) && decide (hook.page = .mounted) && hook.initial kind ||
        decide (.turnOn kind ∈ hook.awaiting)) := by
    intro kind
    rw [captures_some found, LocalStream.live, stopped, enabled]
    simp
  constructor
  · rintro ⟨mounted, set⟩
    refine ⟨fun _ _ kind => ?_, fun left => absurd ((page.symm.trans left).symm.trans mounted) (by decide)⟩
    rw [live, shown]
    by_cases waits : .turnOn kind ∈ hook.awaiting
    · simp [waits]
    · simp [waits, set kind waits, mounted]
  · rintro ⟨agrees, stops⟩
    have mounted : hook.page = .mounted := by
      cases there : hook.page with
      | new =>
        have idle := (sound.idle there).2
        rw [asked] at idle
        cases idle
      | mounted => rfl
      | left =>
        have ended := stops (page.trans there) later found
        rw [stopped] at ended
        cases ended
    refine ⟨mounted, fun kind waits => ?_⟩
    have same := agrees (page.trans mounted) free kind
    rw [live, shown] at same
    simpa [waits, mounted] using same.symm

/-- After a denial there is no stream, so the page is honest exactly when it showed no
switch on. -/
theorem honest_denied (sound : hook.Sound) (asked : hook.acquiring = true) (message : String) :
    hook.Timely (.denies message) ↔ { hook with
      acquiring := false, awaiting := [], mediaReady := true, error := some message
      denied := hook.denied + 1 }.Honest := by
  have absent := sound.absent asked
  constructor
  · intro off
    refine ⟨fun mounted _ kind => ?_, fun _ stream there => ?_⟩
    · exact (captures_none absent kind).trans (off mounted kind).symm
    · rw [show _ = none from absent] at there
      cases there
  · intro honest mounted kind
    exact (honest.1 mounted rfl kind).symm.trans (captures_none absent kind)

/-- Along a run the page is honest, in that a mounted page whose request was answered shows
what captures, and a page that was left captures nothing, exactly when every answer of the
devices is timely.

A switch that is toggled keeps an honest page honest, and a request under way promises
nothing; so it is the answers that decide, and both of them are looked at from the state
they find. -/
theorem honest_iff {initial : TrackKind → Bool} :
    (Reaches step (fun before (_ : DeviceEvent) => before.Honest) (.new initial) hook ∧ hook.Honest) ↔
      Reaches step Timely (.new initial) hook := by
  refine Reaches.within_iff Honest ?_ ?_
  · constructor <;>
    · intro elsewhere
      cases elsewhere
  · intro before event after reached honest stepped
    have sound := reached_sound reached
    cases event with
    | mounts =>
      simp only [step, Option.ite_none_right_eq_some, Option.some.injEq] at stepped
      obtain ⟨new, rfl⟩ := stepped
      obtain ⟨absent, free⟩ := sound.idle new
      refine iff_of_true trivial (honest_asking ?_ ?_) <;> simp [acquireStream, absent, free]
    | toggles kind =>
      simp only [step, Option.ite_none_right_eq_some, Option.some.injEq] at stepped
      obtain ⟨mounted, rfl⟩ := stepped
      exact iff_of_true trivial (honest.toggle sound mounted kind)
    | grants =>
      simp only [step, Option.ite_none_right_eq_some, Option.some.injEq] at stepped
      obtain ⟨asked, rfl⟩ := stepped
      exact honest_grant sound asked
    | denies message =>
      simp only [step, Option.ite_none_right_eq_some, Option.some.injEq] at stepped
      obtain ⟨asked, rfl⟩ := stepped
      exact honest_denied sound asked message
    | leaves =>
      simp only [step, Option.ite_none_right_eq_some, Option.some.injEq] at stepped
      obtain ⟨_, rfl⟩ := stepped
      refine iff_of_true trivial ⟨fun mounted => ?_, fun _ stream held => ?_⟩
      · cases mounted
      · obtain ⟨_, _, rfl⟩ := Option.map_eq_some_iff.mp held
        rfl

end Showing

section Sample

/-- The lobby turned the microphone on; it is turned off before the request is granted. -/
def muteWhileAsking : List DeviceEvent := [.mounts, .toggles .audio, .grants]

/-- The hook after these events. -/
def mutedWhileAsking : UseMediaDevices :=
  (walk step always (.new fun kind => kind = .audio) muteWhileAsking).getD (.new fun _ => false)

/-- Of that one request one stream came, and no other is under way. -/
theorem captured_once_muted :
    mutedWhileAsking.granted = 1 ∧ mutedWhileAsking.acquiring = false :=
  ⟨by decide, (captured_once (walk_reaches_end step always (.new fun kind => kind = .audio)
    muteWhileAsking (by decide))).2.2 (by decide)⟩

/-- The microphone is live, and the page shows it off. -/
example : mutedWhileAsking.stream.any (LocalStream.live · .audio) = true ∧
    mutedWhileAsking.shown .audio = false := by
  decide

end Sample

end UseMediaDevices

end Seameet

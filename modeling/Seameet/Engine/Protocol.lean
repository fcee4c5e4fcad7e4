import Mathlib.Data.Countable.Basic
import Mathlib.Logic.Equiv.List
import Mathlib.Tactic.DeriveCountable
import Seameet.Engine.Speech

/-!
# The protocol

A client reads the texts of its connection as messages. Whether it can read them all is
a question of every text ever placed on its sink, and of the texts the server forwards
as they arrived, which mean to the receiver what they meant to the server.

What the derived serialisation does is a parameter with two laws: a serialised message
is read as itself, and a text of no known tag is not read.
-/

namespace Seameet

open Library

/-- What `serde_json` does with `SdpMessage`. The tag of a text is the `type` of the
object the text stands for. -/
structure Serde where
  /-- `serde_json::to_string` of a message. -/
  toText : SdpMessage → String
  /-- `serde_json::from_str`. -/
  fromStr : String → Except String SdpMessage
  tag : String → Option String
  /-- The text of a media task's bitrate notice. -/
  notice : Nat → String
  inverts : ∀ message, fromStr (toText message) = .ok message
  tagged : ∀ text message, fromStr text = .ok message → tag text = some message.kind
  noticeTag : ∀ maxBitrateBps, tag (notice maxBitrateBps) = some "bwe_update"

namespace Serde

/-- What the engine makes of a text; it drops what does not parse. -/
def parse (serde : Serde) (raw : String) : Option SdpMessage := (serde.fromStr raw).toOption

/-- What a client's `recv` makes of a text. -/
def recv (serde : Serde) (text : String) : Except String SdpMessage :=
  (serde.fromStr text).mapError fun e => s!"deserialize error: {e}"

/-- The text of a frame. -/
def text (serde : Serde) : Frame → String
  | .serialised message => serde.toText message
  | .relayed raw => raw
  | .bweUpdate maxBitrateBps => serde.notice maxBitrateBps

variable {serde : Serde} {raw : String} {message : SdpMessage}

/-- A client receives what the text is read as. -/
theorem recv_eq_ok : serde.recv raw = .ok message ↔ serde.fromStr raw = .ok message := by
  unfold recv
  cases serde.fromStr raw <;> simp [Except.mapError]

/-- The engine parses what a client would receive. -/
theorem parse_eq_some : serde.parse raw = some message ↔ serde.fromStr raw = .ok message := by
  unfold parse
  cases serde.fromStr raw <;> simp [Except.toOption]

/-- No client receives a bitrate notice: its tag is no variant's. -/
theorem recv_notice (maxBitrateBps : Nat) :
    serde.recv (serde.notice maxBitrateBps) ≠ .ok message := by
  intro received
  have named := serde.tagged _ _ (recv_eq_ok.mp received)
  rw [serde.noticeTag] at named
  cases message <;> simp [SdpMessage.kind] at named

end Serde

/-- What happens next, every text read as it parses. -/
def Event.heard (serde : Serde) : Event → Event
  | .receive id raw _ auth rateOk => .receive id raw (serde.parse raw) auth rateOk
  | event => event

/-- The same for the whole server. -/
def ServiceEvent.heard (serde : Serde) : ServiceEvent → ServiceEvent
  | .engine event launch => .engine (event.heard serde) launch
  | event => event

/-- So every text is. -/
theorem heard_readBy (serde : Serde) (event : ServiceEvent) (engineEvent : Event) (launch : Launch)
    (same : event.heard serde = .engine engineEvent launch) : engineEvent.readBy serde.parse := by
  cases event with
  | engine event =>
    cases same
    cases event <;> trivial
  | takes | drains | ends | arrives | reads => cases same

/-- The server with the texts it has acted on and what it took them for. -/
structure Transcript where
  service : Service
  acted : List (String × SdpMessage)

namespace Transcript

/-- A server that has heard nothing. -/
def new (e2eeRequired : Bool) : Transcript := { service := .new e2eeRequired, acted := [] }

/-- One step of the server. -/
def step (serde : Serde) (config : Config) (transcript : Transcript) (event : ServiceEvent) :
    Option Transcript :=
  (transcript.service.step config (event.heard serde)).map fun service =>
    { service, acted := transcript.acted ++ transcript.service.acts (event.heard serde) }

/-- The server speaks its own protocol: a client receives every text that was placed as
a message, and a text that was forwarded is read as what the server acted on. -/
structure Speaks (serde : Serde) (transcript : Transcript) : Prop where
  received : ∀ text ∈ transcript.service.world.sent, ∃ message,
    serde.recv (serde.text text.2) = .ok message
  forwarded : ∀ text ∈ transcript.service.world.sent, ∀ raw, text.2 = .relayed raw →
    raw ∈ transcript.acted.map Prod.fst
  same : ∀ acted ∈ transcript.acted, serde.recv acted.1 = .ok acted.2

/-- No media task drains a bitrate estimate once its last notice is two seconds old. -/
def Unnoticed (transcript : Transcript) (event : ServiceEvent) : Prop :=
  ¬ transcript.service.Notifies event

/-- What every run keeps. -/
structure Recorded (serde : Serde) (transcript : Transcript) : Prop where
  reading : transcript.service.world.Reading serde.parse
  acted : ∀ acted ∈ transcript.acted, serde.recv acted.1 = .ok acted.2
  stored : transcript.service.world.signaling.Stored (transcript.acted.map Prod.fst)
  placed : ∀ text ∈ transcript.service.world.sent,
    text.2.Says (transcript.acted.map Prod.fst) ∨ ∃ bps, text.2 = .bweUpdate bps

variable {serde : Serde} {config : Config} {transcript after : Transcript}

/-- A transcript in order speaks the protocol exactly while no notice was placed. -/
theorem Recorded.speaks_iff (recorded : transcript.Recorded serde) :
    transcript.Speaks serde ↔
      ¬ ∃ text ∈ transcript.service.world.sent, ∃ bps, text.2 = .bweUpdate bps := by
  constructor
  · rintro speaks ⟨text, placed, bps, same⟩
    obtain ⟨message, received⟩ := speaks.received text placed
    rw [same] at received
    exact serde.recv_notice bps received
  · intro unnoticed
    have said : ∀ text ∈ transcript.service.world.sent,
        text.2.Says (transcript.acted.map Prod.fst) := by
      intro text placed
      refine (recorded.placed text placed).resolve_right ?_
      rintro ⟨bps, same⟩
      exact unnoticed ⟨text, placed, bps, same⟩
    refine ⟨?_, ?_, recorded.acted⟩
    · intro text placed
      have known := said text placed
      cases frame : text.2 with
      | serialised message => exact ⟨message, Serde.recv_eq_ok.mpr (serde.inverts message)⟩
      | relayed raw =>
        rw [frame] at known
        obtain ⟨acted, listed, rfl⟩ := List.mem_map.mp known
        exact ⟨acted.2, recorded.acted acted listed⟩
      | bweUpdate bps => exact absurd ⟨text, placed, bps, frame⟩ unnoticed
    · intro text placed raw same
      have known := said text placed
      rw [same] at known
      exact known

/-- What an event acts on is read as it is taken. -/
theorem Recorded.acts (recorded : transcript.Recorded serde) (event : ServiceEvent) :
    ∀ acted ∈ transcript.service.acts event, serde.recv acted.1 = .ok acted.2 := by
  intro acted listed
  cases event with
  | engine event launch =>
    cases event with
    | advance id answer =>
      simp only [Service.acts, World.acts] at listed
      cases present : transcript.service.world.connections.lookup id with
      | none => simp [present] at listed
      | some connection =>
        have reads := recorded.reading id connection present
        simp only [present, Option.map_some, Option.getD_some, Connection.acting] at listed
        split at listed
        · rename_i handled stage point
          rw [point] at reads
          cases List.mem_singleton.mp listed
          exact Serde.recv_eq_ok.mpr (Serde.parse_eq_some.mp reads)
        · cases listed
    | connect | receive | hangUp | deadline | writerEnds | mediaEnds | routed => cases listed
  | takes | drains | ends | arrives | reads => cases listed

/-- Every step keeps the transcript in order; it places a notice exactly when a media
task drains an estimate that is due. -/
theorem Recorded.step (recorded : transcript.Recorded serde) {event : ServiceEvent}
    (stepped : transcript.step serde config event = some after) :
    after.Recorded serde ∧
      ((∃ text ∈ after.service.world.sent, ∃ bps, text.2 = .bweUpdate bps) ↔
        (∃ text ∈ transcript.service.world.sent, ∃ bps, text.2 = .bweUpdate bps) ∨
          transcript.service.Notifies event) := by
  obtain ⟨service, moved, rfl⟩ := Option.map_eq_some_iff.mp stepped
  have known : ∀ acted ∈ transcript.acted ++ transcript.service.acts (event.heard serde),
      serde.recv acted.1 = .ok acted.2 := by
    intro acted listed
    rcases List.mem_append.mp listed with old | new
    · exact recorded.acted acted old
    · exact recorded.acts _ acted new
  have before : ∀ raw ∈ transcript.acted.map Prod.fst,
      raw ∈ (transcript.acted ++ transcript.service.acts (event.heard serde)).map Prod.fst := by
    intro raw listed
    rw [List.map_append]
    exact List.mem_append_left _ listed
  have stored : transcript.service.world.signaling.Stored
      ((transcript.acted ++ transcript.service.acts (event.heard serde)).map Prod.fst) :=
    fun roomId texts recalled raw listed =>
      before raw (recorded.stored roomId texts recalled raw listed)
  obtain ⟨kept, placed, sent, spoken, notices⟩ := Service.step_spoken (event.heard serde) stored
    (fun acted listed => List.mem_map.mpr ⟨acted, List.mem_append_right _ listed, rfl⟩) moved
  have reading := Service.reading_step (event.heard serde) recorded.reading
    (heard_readBy serde event) moved
  have same : transcript.service.Notifies (event.heard serde) ↔
      transcript.service.Notifies event := by
    cases event <;> exact Iff.rfl
  refine ⟨⟨reading, known, kept, ?_⟩, ?_⟩
  · intro text listed
    dsimp only at listed
    rw [sent] at listed
    rcases List.mem_append.mp listed with old | new
    · exact (recorded.placed text old).imp_left fun said => said.mono before
    · exact spoken text new
  · dsimp only
    rw [sent, ← same, ← notices]
    simp only [List.mem_append, or_and_right, exists_or]

/-- A new transcript is in order. -/
theorem Recorded.of_new (serde : Serde) (e2eeRequired : Bool) :
    (new e2eeRequired).Recorded serde := by
  constructor
  · intro id connection present
    cases present
  · intro acted listed
    cases listed
  · intro roomId texts recalled
    cases recalled
  · intro text placed
    cases placed

/-- In every state reached the transcript is in order. -/
theorem Recorded.of_reaches {admitted : Transcript → ServiceEvent → Prop} {e2eeRequired : Bool}
    (reached : Reaches (Transcript.step serde config) admitted (new e2eeRequired) transcript) :
    transcript.Recorded serde :=
  reached.invariant (Recorded serde) (.of_new serde e2eeRequired)
    fun _ _ _ recorded _ stepped => (recorded.step stepped).1

/-- In every run, the server speaks its own protocol exactly as long as no media task
drains a bitrate estimate that is due.

What the transcript holds is the serialised messages and the notices, so that it speaks the
protocol as long as there is no notice. A step adds a notice exactly if it drains an
estimate that is due. -/
theorem speaks_iff_unnoticed (serde : Serde) (config : Config) (e2eeRequired : Bool)
    (transcript : Transcript) :
    (Reaches (step serde config) (fun before _ => before.Speaks serde) (new e2eeRequired)
        transcript ∧ transcript.Speaks serde) ↔
        Reaches (step serde config) Unnoticed (new e2eeRequired) transcript := by
  apply Reaches.within_iff (Speaks serde)
  · refine (Recorded.of_new serde e2eeRequired).speaks_iff.mpr ?_
    rintro ⟨text, placed, _⟩
    cases placed
  · intro before event after reached speaks stepped
    have recorded := Recorded.of_reaches reached
    obtain ⟨kept, notices⟩ := recorded.step stepped
    rw [kept.speaks_iff, notices, not_or]
    exact (and_iff_right (recorded.speaks_iff.mp speaks)).symm

end Transcript

instance charCountable : Countable Char :=
  Function.Injective.countable (f := Char.toNat) fun _ _ same =>
    Char.ext (UInt32.toNat_inj.mp same)

instance stringCountable : Countable String :=
  Function.Injective.countable (f := String.toList) fun _ _ same => String.toList_inj.mp same

deriving instance Countable for ParticipantId

deriving instance Countable for ParticipantStatus

deriving instance Countable for SdpMessage

/-- Messages numbered in some way. -/
noncomputable def sampleNumber : SdpMessage → Nat := (exists_injective_nat SdpMessage).choose

/-- Numbers are told apart by the sample coding. -/
theorem sampleNumber_injective : Function.Injective sampleNumber :=
  (exists_injective_nat SdpMessage).choose_spec

/-- How the key of an object's tag is written. -/
def typeKey : List Char := "\"type\":\"".toList

/-- The tag of an object's text: what stands behind the first key `type`. -/
def typeOf : List Char → Option String
  | [] => none
  | char :: rest =>
    if typeKey.isPrefixOf (char :: rest) then
      some (String.ofList (((char :: rest).drop typeKey.length).takeWhile (· ≠ '\x22')))
    else typeOf rest

/-- What is not quoted is passed over. -/
theorem typeOf_skip {plain : List Char} (unquoted : '\x22' ∉ plain) (rest : List Char) :
    typeOf (plain ++ rest) = typeOf rest := by
  induction plain with
  | nil => rfl
  | cons char plain inductionHypothesis =>
    have other : char ≠ '\x22' := fun same => unquoted (same ▸ List.mem_cons_self)
    have begins : typeKey = '\x22' :: "type\":\"".toList := by decide +kernel
    have elsewhere : typeKey.isPrefixOf (char :: (plain ++ rest)) = false := by
      rw [begins, List.isPrefixOf_cons_cons, beq_eq_false_iff_ne.mpr (Ne.symm other),
        Bool.false_and]
    rw [List.cons_append, typeOf, if_neg (by simp [elsewhere])]
    exact inductionHypothesis fun listed => unquoted (List.mem_cons_of_mem char listed)

/-- A quotation mark in front of anything but a `t` is passed over. -/
theorem typeOf_quote {char : Char} (other : char ≠ 't') (rest : List Char) :
    typeOf ('\x22' :: char :: rest) = typeOf (char :: rest) := by
  have begins : typeKey = '\x22' :: 't' :: "ype\":\"".toList := by decide +kernel
  have elsewhere : typeKey.isPrefixOf ('\x22' :: char :: rest) = false := by
    rw [begins, List.isPrefixOf_cons_cons, List.isPrefixOf_cons_cons,
      beq_eq_false_iff_ne.mpr (Ne.symm other), Bool.false_and, Bool.and_false]
  rw [typeOf, if_neg (by simp [elsewhere])]

/-- Behind its key the tag is read up to the closing quotation mark. -/
theorem typeOf_key {kind : String} (unquoted : '\x22' ∉ kind.toList) (rest : List Char) :
    typeOf (typeKey ++ (kind.toList ++ '\x22' :: rest)) = some kind := by
  have begins : typeKey ++ (kind.toList ++ '\x22' :: rest) =
      '\x22' :: ("type\":\"".toList ++ (kind.toList ++ '\x22' :: rest)) := by
    have key : typeKey = '\x22' :: "type\":\"".toList := by decide +kernel
    rw [key]
    rfl
  have here : typeKey.isPrefixOf (typeKey ++ (kind.toList ++ '\x22' :: rest)) = true := by
    rw [List.isPrefixOf_iff_prefix]
    exact List.prefix_append _ _
  rw [begins] at here ⊢
  rw [typeOf, if_pos here, ← begins, List.drop_left, List.takeWhile_append_of_pos]
  · simp
  · intro char listed
    have other : char ≠ '\x22' := fun same => unquoted (same ▸ listed)
    simpa using other

/-- An object with its tag in front, and what comes behind it. -/
def tagFirst (kind : String) (fields : List Char) : List Char :=
  '\x7b' :: (typeKey ++ (kind.toList ++ '\x22' :: fields))

/-- An object with a number in front and its tag behind. -/
def tagLast (key number : List Char) (kind : String) : List Char :=
  '\x7b' :: '\x22' :: (key ++ '\x22' :: ':' ::
    (number ++ ',' :: (typeKey ++ (kind.toList ++ ['\x22', '\x7d']))))

/-- A tag in front is read. -/
theorem typeOf_tagFirst {kind : String} (unquoted : '\x22' ∉ kind.toList) (fields : List Char) :
    typeOf (tagFirst kind fields) = some kind := by
  have opening : '\x22' ∉ ['\x7b'] := by decide
  exact (typeOf_skip opening _).trans (typeOf_key unquoted fields)

/-- A tag behind a number is read. -/
theorem typeOf_tagLast {start : Char} {key number : List Char} {kind : String} (other : start ≠ 't')
    (unquotedKey : '\x22' ∉ start :: key) (unquotedNumber : '\x22' ∉ number)
    (unquoted : '\x22' ∉ kind.toList) :
    typeOf (tagLast (start :: key) number kind) = some kind := by
  have opening : '\x22' ∉ ['\x7b'] := by decide
  have colon : '\x22' ∉ [':'] := by decide
  have comma : '\x22' ∉ [','] := by decide
  calc typeOf (tagLast (start :: key) number kind)
      = typeOf ('\x22' :: start :: (key ++ '\x22' :: ':' ::
          (number ++ ',' :: (typeKey ++ (kind.toList ++ ['\x22', '\x7d']))))) :=
        typeOf_skip opening _
    _ = typeOf ('\x22' :: ':' ::
          (number ++ ',' :: (typeKey ++ (kind.toList ++ ['\x22', '\x7d'])))) := by
        rw [typeOf_quote other, ← List.cons_append, typeOf_skip unquotedKey]
    _ = typeOf (number ++ ',' :: (typeKey ++ (kind.toList ++ ['\x22', '\x7d']))) := by
        rw [typeOf_quote (by decide)]
        exact typeOf_skip colon _
    _ = typeOf (typeKey ++ (kind.toList ++ ['\x22', '\x7d'])) := by
        rw [typeOf_skip unquotedNumber]
        exact typeOf_skip comma _
    _ = some kind := typeOf_key unquoted _

/-- A tag has neither quotation marks nor strokes. -/
theorem kind_plain (message : SdpMessage) :
    '\x22' ∉ message.kind.toList ∧ '1' ∉ message.kind.toList := by
  cases message <;> simp [SdpMessage.kind]

/-- The messages of a run in which a participant joins a room and negotiates, with the
fields that the source writes behind their tags. -/
def sampleFields : List (SdpMessage × String) :=
  [(.join ⟨1⟩ "a" none none,
      ",\"participant\":\"00000000-0000-0000-0000-000000000001\",\"room_id\":\"a\"\x7d"),
    (.offer ⟨1⟩ none "a" "",
      ",\"from\":\"00000000-0000-0000-0000-000000000001\",\"to\":null,\"room_id\":\"a\"," ++
        "\"sdp\":\"\"\x7d"),
    (.ready "a" true [] [], ",\"room_id\":\"a\",\"initiator\":true,\"peers\":[]\x7d"),
    (.roomStatus "a" [⟨⟨1⟩, none, false, false, false, false⟩] false,
      ",\"room_id\":\"a\",\"participants\":[" ++
        "\x7b\"id\":\"00000000-0000-0000-0000-000000000001\",\"audio_muted\":false," ++
        "\"video_muted\":false,\"screen_sharing\":false,\"e2ee\":false\x7d]," ++
        "\"e2ee_required\":false\x7d"),
    (.answer ⟨1⟩ ⟨1⟩ "sfu" "",
      ",\"from\":\"00000000-0000-0000-0000-000000000001\"," ++
        "\"to\":\"00000000-0000-0000-0000-000000000001\",\"room_id\":\"sfu\",\"sdp\":\"\"\x7d")]

/-- The text of any other message: its number in strokes, and its tag. -/
noncomputable def counted (message : SdpMessage) : List Char :=
  tagLast ('n' :: "umber".toList) (List.replicate (sampleNumber message) '1') message.kind

/-- The text of a message: the source's, if it is one of the run's. -/
noncomputable def sampleText (message : SdpMessage) : List Char :=
  match sampleFields.find? fun entry => entry.1 = message with
  | some entry => tagFirst message.kind entry.2.toList
  | none => counted message

/-- Every text has the tag of its message. -/
theorem typeOf_sampleText (message : SdpMessage) :
    typeOf (sampleText message) = some message.kind := by
  have plain := (kind_plain message).1
  unfold sampleText
  split
  · exact typeOf_tagFirst plain _
  · refine typeOf_tagLast (by decide) (by decide) ?_ plain
    intro stroke
    cases List.eq_of_mem_replicate stroke

/-- Counted texts are told apart by their strokes. -/
theorem counted_injective : Function.Injective counted := by
  have strokes : ∀ message, (counted message).count '1' = sampleNumber message := by
    intro message
    have tag := List.count_eq_zero.mpr (kind_plain message).2
    have type : typeKey.count '1' = 0 := by decide +kernel
    simp [counted, tagLast, List.count_append, type, tag]
  intro one other same
  apply sampleNumber_injective
  rw [← strokes one, same, strokes other]

/-- Messages are told apart by their texts: those of the run by their tags, and from the
others by the key in front. -/
theorem sampleText_injective : Function.Injective sampleText := by
  have tags : (sampleFields.map fun entry => entry.1.kind).Nodup := by decide +kernel
  have apart : ∀ message fields, counted message ≠ tagFirst message.kind fields := by
    intro message fields same
    have begins : typeKey = '\x22' :: 't' :: "ype\":\"".toList := by decide +kernel
    rw [counted, tagLast, tagFirst, begins] at same
    simp at same
  intro one other same
  have kinds : one.kind = other.kind := by
    have read := congrArg typeOf same
    rw [typeOf_sampleText, typeOf_sampleText] at read
    exact Option.some.inj read
  cases first : sampleFields.find? (fun entry => entry.1 = one) with
  | none =>
    cases second : sampleFields.find? (fun entry => entry.1 = other) with
    | none =>
      simp only [sampleText, first, second] at same
      exact counted_injective same
    | some entry =>
      simp only [sampleText, first, second, ← kinds] at same
      exact absurd same (apart one _)
  | some entry =>
    cases second : sampleFields.find? (fun entry => entry.1 = other) with
    | none =>
      simp only [sampleText, first, second, kinds] at same
      exact absurd same.symm (apart other _)
    | some another =>
      obtain rfl : entry.1 = one := by simpa using List.find?_some first
      obtain rfl : another.1 = other := by simpa using List.find?_some second
      exact congrArg Prod.fst (List.inj_on_of_nodup_map tags (List.mem_of_find?_eq_some first)
        (List.mem_of_find?_eq_some second) kinds)

/-- The text of a bitrate notice: the keys of its object are in alphabetical order. -/
def sampleNotice (maxBitrateBps : Nat) : List Char :=
  tagLast ('m' :: "ax_bitrate_bps".toList) (toString maxBitrateBps).toList "bwe_update"

/-- A bitrate notice has its own tag. -/
theorem typeOf_sampleNotice (maxBitrateBps : Nat) :
    typeOf (sampleNotice maxBitrateBps) = some "bwe_update" := by
  have unquoted : '\x22' ∉ (toString maxBitrateBps).toList := by
    intro listed
    have digit := Nat.isDigit_of_mem_toDigits (b := 10) (by decide) (by decide)
      (by simpa using listed)
    simp at digit
  exact typeOf_tagLast (by decide) (by decide +kernel) unquoted (by decide +kernel)

/-- The message of a text, if there is one with that text. -/
noncomputable def sampleRead (text : String) : Option SdpMessage :=
  Function.partialInv sampleText text.toList

/-- A format of objects with tags. The messages of the run, and all notices, have the
texts that the source gives them. -/
noncomputable def sampleSerde : Serde where
  toText message := String.ofList (sampleText message)
  fromStr text := (sampleRead text).elim (.error "unknown variant") .ok
  tag text := typeOf text.toList
  notice maxBitrateBps := String.ofList (sampleNotice maxBitrateBps)
  inverts message := by
    simp [sampleRead, Function.partialInv_left sampleText_injective]
  tagged text message read := by
    cases known : sampleRead text with
    | none => simp [known] at read
    | some other =>
      obtain rfl : other = message := by simpa [known] using read
      have same := (sampleText_injective.isPartialInv other text.toList).mp known
      rw [← same]
      exact typeOf_sampleText other
  noticeTag maxBitrateBps := by
    rw [String.toList_ofList]
    exact typeOf_sampleNotice maxBitrateBps

/-- A text that says the message it stands for. -/
def Event.voiced (serde : Serde) : Event → Event
  | .receive id _ (some message) auth rateOk =>
      .receive id (serde.toText message) (some message) auth rateOk
  | event => event

/-- A service event with every text of it written by the given serialisation. -/
def ServiceEvent.voiced (serde : Serde) : ServiceEvent → ServiceEvent
  | .engine event launch => .engine (event.voiced serde) launch
  | event => event

namespace Transcript

/-- A run of the transcript is a run of the server on the events as they are heard. -/
theorem service_walk (serde : Serde) (config : Config) (events : List ServiceEvent)
    (transcript : Transcript) :
    (walk (step serde config) always transcript events).map Transcript.service =
      walk (Service.step config) always transcript.service
        (events.map (ServiceEvent.heard serde)) := by
  induction events generalizing transcript with
  | nil => rfl
  | cons event rest inductionHypothesis =>
    simp only [walk, List.map_cons, always, step]
    cases transcript.service.step config (event.heard serde) with
    | none => rfl
    | some service => exact inductionHypothesis _

/-- A participant joins a room and negotiates, and two seconds later its media task
drains a bitrate estimate. -/
def estimated (serde : Serde) : List ServiceEvent :=
  (ServiceEvent.enters 1 ⟨1⟩ "a").map (ServiceEvent.voiced serde) ++
    [.drains ⟨⟨1⟩, 1⟩ (Rtc.plain (fun _ => none) 2000000000) [.egressBitrateEstimate 500000]]

/-- Every text of the run says the message it is read as. -/
theorem heard_estimated (serde : Serde) :
    (estimated serde).map (ServiceEvent.heard serde) = estimated serde := by
  have reads : ∀ message, serde.parse (serde.toText message) = some message :=
    fun message => Serde.parse_eq_some.mpr (serde.inverts message)
  simp [estimated, ServiceEvent.enters, ServiceEvent.engines, Event.firstJoin, Event.join,
    Event.sections, Event.offer, ServiceEvent.voiced, Event.voiced, ServiceEvent.heard, Event.heard,
    reads]

/-- The participant's client gets an error for the notice it is sent then. -/
theorem estimate_fails_recv :
    let transcript := (walk (step sampleSerde .sfuDefault) always (new false)
      (estimated sampleSerde)).getD (new false)
    Reaches (step sampleSerde .sfuDefault) always (new false) transcript ∧
      (1, .bweUpdate 500000) ∈ transcript.service.world.sent ∧
      (∀ message, sampleSerde.recv (sampleSerde.text (.bweUpdate 500000)) ≠ .ok message) ∧
      ¬ transcript.Speaks sampleSerde := by
  intro transcript
  have mapped := service_walk sampleSerde .sfuDefault (estimated sampleSerde) (new false)
  rw [heard_estimated] at mapped
  have completes : (walk (Service.step .sfuDefault) always (new false).service
      (estimated sampleSerde)).isSome = true := by decide +kernel
  have notified : (1, Frame.bweUpdate 500000) ∈ ((walk (Service.step .sfuDefault) always
      (new false).service (estimated sampleSerde)).getD (.new false)).world.sent := by
    decide +kernel
  rw [← mapped] at completes notified
  rw [Option.isSome_map] at completes
  obtain ⟨ended, walked⟩ := Option.isSome_iff_exists.mp completes
  have same : transcript = ended := by simp [transcript, walked]
  have reached : Reaches (step sampleSerde .sfuDefault) always (new false) transcript :=
    walk_reaches_end _ _ _ _ completes
  have placed : (1, Frame.bweUpdate 500000) ∈ transcript.service.world.sent := by
    rw [same]
    simpa [walked] using notified
  refine ⟨reached, placed, fun message => sampleSerde.recv_notice 500000, ?_⟩
  intro speaks
  exact (Recorded.of_reaches reached).speaks_iff.mp speaks ⟨_, placed, 500000, rfl⟩

end Transcript

end Seameet

import Mathlib.Init

/-!
# Signaling messages

The messages of the signaling channel, with every field of the source; `from`
and `to` are called `sender` and `recipient`. Numbers the code only carries
(codes, sizes, timestamps, levels) are natural numbers, and the display-name map
of `Ready`, which the source keys by the printed participant id, is a list of
pairs keyed by the id itself.

The text a connection sends is of three kinds: a message the server serialised,
the text of a client's message relayed as it arrived, or the bitrate notice a
media task builds without an `SdpMessage`.
-/

namespace Seameet

/-- Unique identifier of a participant. The wrapped UUID is only ever compared. -/
structure ParticipantId where
  uuid : Nat
deriving DecidableEq

/-- A room is named by its identifier. -/
abbrev RoomId := String

/-- Status of a single participant within a room, used in `RoomStatus` snapshots. -/
structure ParticipantStatus where
  id : ParticipantId
  displayName : Option String
  audioMuted : Bool
  videoMuted : Bool
  screenSharing : Bool
  e2ee : Bool
deriving DecidableEq

/-- Messages exchanged over the signaling channel. -/
inductive SdpMessage where
  | join (participant : ParticipantId) (roomId : RoomId) (displayName : Option String)
      (token : Option String)
  | leave (participant : ParticipantId) (roomId : RoomId)
  | offer (sender : ParticipantId) (recipient : Option ParticipantId) (roomId : RoomId) (sdp : String)
  | answer (sender recipient : ParticipantId) (roomId : RoomId) (sdp : String)
  | iceCandidate (sender recipient : ParticipantId) (roomId : RoomId) (candidate : String)
      (sdpMid : Option String) (sdpMlineIndex : Option Nat)
  | ready (roomId : RoomId) (initiator : Bool) (peers : List ParticipantId)
      (displayNames : List (ParticipantId × String))
  | peerJoined (participant : ParticipantId) (roomId : RoomId) (displayName : Option String)
  | peerLeft (participant : ParticipantId) (roomId : RoomId)
  | screenShareStarted (sender : ParticipantId) (roomId : RoomId) (trackId : Nat)
  | screenShareStopped (sender : ParticipantId) (roomId : RoomId) (trackId : Nat)
  | muteAudio (sender : ParticipantId) (roomId : RoomId)
  | unmuteAudio (sender : ParticipantId) (roomId : RoomId)
  | muteVideo (sender : ParticipantId) (roomId : RoomId)
  | unmuteVideo (sender : ParticipantId) (roomId : RoomId)
  | videoConfigChanged (sender : ParticipantId) (roomId : RoomId) (width height fps : Nat)
  | requestRenegotiation (roomId : RoomId) (neededSlots : Nat)
  | requestKeyframe (sender target : ParticipantId) (roomId : RoomId)
  | roomStatus (roomId : RoomId) (participants : List ParticipantStatus) (e2eeRequired : Bool)
  | e2eePublicKey (sender : ParticipantId) (roomId : RoomId) (publicKey : String)
  | e2eeSenderKey (sender recipient : ParticipantId) (roomId : RoomId) (encryptedKey : String)
      (keyId : Nat)
  | e2eeKeyRotation (sender : ParticipantId) (roomId : RoomId) (keyId : Nat)
  | chatMessage (sender : ParticipantId) (roomId : RoomId) (displayName : Option String)
      (content : String) (timestamp : Nat) (encrypted : Bool) (keyId : Option Nat)
  | activeSpeaker (roomId : RoomId) (speaker : ParticipantId) (level : Nat)
  | screenShareRouted (sender : ParticipantId) (mid : String) (roomId : RoomId)
  | error (code : Nat) (message : String)
deriving DecidableEq

/-- The room a message belongs to; only `error` belongs to none. -/
def SdpMessage.roomId : SdpMessage → Option RoomId
  | .join _ roomId _ _ | .leave _ roomId | .offer _ _ roomId _ | .answer _ _ roomId _
  | .iceCandidate _ _ roomId _ _ _ | .ready roomId _ _ _ | .peerJoined _ roomId _
  | .peerLeft _ roomId | .screenShareStarted _ roomId _ | .screenShareStopped _ roomId _
  | .muteAudio _ roomId | .unmuteAudio _ roomId | .muteVideo _ roomId | .unmuteVideo _ roomId
  | .videoConfigChanged _ roomId _ _ _ | .requestRenegotiation roomId _
  | .requestKeyframe _ _ roomId | .roomStatus roomId _ _ | .e2eePublicKey _ roomId _
  | .e2eeSenderKey _ _ roomId _ _ | .e2eeKeyRotation _ roomId _
  | .chatMessage _ roomId _ _ _ _ _ | .activeSpeaker roomId _ _
  | .screenShareRouted _ _ roomId => some roomId
  | .error _ _ => none

/-- The tag of a message's variant, as it is serialised. -/
def SdpMessage.kind : SdpMessage → String
  | .join _ _ _ _ => "join"
  | .leave _ _ => "leave"
  | .offer _ _ _ _ => "offer"
  | .answer _ _ _ _ => "answer"
  | .iceCandidate _ _ _ _ _ _ => "ice_candidate"
  | .ready _ _ _ _ => "ready"
  | .peerJoined _ _ _ => "peer_joined"
  | .peerLeft _ _ => "peer_left"
  | .screenShareStarted _ _ _ => "screen_share_started"
  | .screenShareStopped _ _ _ => "screen_share_stopped"
  | .muteAudio _ _ => "mute_audio"
  | .unmuteAudio _ _ => "unmute_audio"
  | .muteVideo _ _ => "mute_video"
  | .unmuteVideo _ _ => "unmute_video"
  | .videoConfigChanged _ _ _ _ _ => "video_config_changed"
  | .requestRenegotiation _ _ => "request_renegotiation"
  | .requestKeyframe _ _ _ => "request_keyframe"
  | .roomStatus _ _ _ => "room_status"
  | .e2eePublicKey _ _ _ => "e2ee_public_key"
  | .e2eeSenderKey _ _ _ _ _ => "e2ee_sender_key"
  | .e2eeKeyRotation _ _ _ => "e2ee_key_rotation"
  | .chatMessage _ _ _ _ _ _ _ => "chat_message"
  | .activeSpeaker _ _ _ => "active_speaker"
  | .screenShareRouted _ _ _ => "screen_share_routed"
  | .error _ _ => "error"

/-- A text placed on a connection's sink. -/
inductive Frame where
  /-- A message the server built and serialised. -/
  | serialised (message : SdpMessage)
  /-- A client's text, forwarded as it arrived. -/
  | relayed (raw : String)
  /-- The JSON object `bwe_update`, which is no variant of `SdpMessage`. -/
  | bweUpdate (maxBitrateBps : Nat)
deriving DecidableEq

end Seameet

import Seameet.Library.Traced
import Seameet.Media.Lines

/-!
# The browser's pool of lines

The browser offers its own audio and video line and a number of further pairs,
and keeps the pairs as a pool. A remote peer takes the head of the pool when it
is first listed, and its pair returns to the head when it is no longer listed.
Which peer takes which pair is decided by the order of the listings alone.

Tracks, encryption transforms and the rendering state are left out: the pool
does not depend on them. A map of the browser iterates in insertion order; the
table keeps the newest entry first.
-/

namespace Seameet

open Library

/-- A pair of pool transceivers, named by their lines. -/
structure TransceiverSlot where
  audioMid : Mid
  videoMid : Mid
deriving DecidableEq

/-- The lines of an offer: the browser's own pair, then the pool pairs. -/
def offeredLines (ownAudio ownVideo : Mid) (pool : List TransceiverSlot) : List (Mid × MediaKind) :=
  (ownAudio, .audio) :: (ownVideo, .video) ::
    pool.flatMap fun slot => [(slot.audioMid, .audio), (slot.videoMid, .video)]

/-- An offer's lines; it names each line once. -/
structure Offered where
  ownAudio : Mid
  ownVideo : Mid
  pool : List TransceiverSlot
  distinct : ((offeredLines ownAudio ownVideo pool).map Prod.fst).Nodup

/-- All lines of an offer, in order. -/
def Offered.lines (offered : Offered) : List (Mid × MediaKind) :=
  offeredLines offered.ownAudio offered.ownVideo offered.pool

/-- A peer the browser shows. A missing display name stands for the first eight
characters of the id. -/
structure RemotePeer where
  displayName : Option String
  audioMid : Mid
  videoMid : Mid
  audioMuted : Bool
  videoMuted : Bool
  e2ee : Bool
deriving DecidableEq

/-- The browser's side of one connection. -/
structure Client where
  participantId : ParticipantId
  roomId : RoomId
  transceivers : List Mid
  transceiverPool : List TransceiverSlot
  remotePeers : Table ParticipantId RemotePeer

namespace Client

/-- Forget a peer and put its pair at the head of the pool, if the connection
still has both transceivers. -/
def removeRemotePeer (client : Client) (peerId : ParticipantId) : Client :=
  match client.remotePeers.lookup peerId with
  | none => client
  | some info =>
      let returned :=
        if info.audioMid ∈ client.transceivers && info.videoMid ∈ client.transceivers then
          [{ audioMid := info.audioMid, videoMid := info.videoMid : TransceiverSlot }]
        else []
      { client with
        transceiverPool := returned ++ client.transceiverPool
        remotePeers := client.remotePeers.erase peerId }

/-- Show a peer on the head of the pool, after recycling its old entry. Without
a free pair the peer is skipped. -/
def addRemotePeer (client : Client) (peerId : ParticipantId) (displayName : Option String) :
    Client × List SdpMessage :=
  let recycled :=
    if (client.remotePeers.lookup peerId).isSome then client.removeRemotePeer peerId else client
  match recycled.transceiverPool with
  | [] => (recycled, [])
  | slot :: rest =>
      let peer : RemotePeer :=
        { displayName, audioMid := slot.audioMid, videoMid := slot.videoMid, audioMuted := false,
          videoMuted := false, e2ee := false }
      ({ recycled with
          transceiverPool := rest, remotePeers := recycled.remotePeers.insert peerId peer },
        [.requestKeyframe recycled.participantId peerId recycled.roomId])

/-- Show a listed participant that is not shown yet. -/
def track (client : Client) (listed : ParticipantStatus) : Client × List SdpMessage :=
  if (client.remotePeers.lookup listed.id).isSome then (client, [])
  else client.addRemotePeer listed.id listed.displayName

/-- Take over a listed participant's flags. -/
def updateFlags (client : Client) (listed : ParticipantStatus) : Client :=
  { client with
    remotePeers := client.remotePeers.modify listed.id fun info =>
      { info with
        audioMuted := listed.audioMuted, videoMuted := listed.videoMuted, e2ee := listed.e2ee } }

/-- The listed participants other than the browser's own. -/
def remote (client : Client) (participants : List ParticipantStatus) : List ParticipantStatus :=
  participants.filter fun listed => listed.id ≠ client.participantId

/-- Forget the peers that are no longer listed, in the order they were shown. -/
def dropUnlisted (client : Client) (participants : List ParticipantStatus) : Client :=
  (client.remotePeers.keys.reverse.filter fun peerId =>
    peerId ∉ (client.remote participants).map ParticipantStatus.id).foldl removeRemotePeer client

/-- A `room_status` listing: drop, add in listed order, update flags. -/
def reconcile (client : Client) (participants : List ParticipantStatus) :
    Client × List SdpMessage :=
  let tracked := traced track (client.dropUnlisted participants) (client.remote participants)
  ((client.remote participants).foldl updateFlags tracked.1, tracked.2)

/-- A `ready` message: a fresh connection whose pool is assigned to the existing
peers in listed order. The offer itself is sent afterwards. -/
def createOfferToServer (participantId : ParticipantId) (roomId : RoomId) (offered : Offered)
    (existingPeers : List ParticipantId) (displayNames : List (ParticipantId × String)) :
    Client × List SdpMessage :=
  traced (fun client peerId => client.addRemotePeer peerId (displayNames.lookup peerId))
    { participantId, roomId, transceivers := offered.lines.map Prod.fst,
      transceiverPool := offered.pool, remotePeers := ∅ }
    existingPeers

end Client

end Seameet

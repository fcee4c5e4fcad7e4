import Seameet.Library.Since
import Seameet.Engine.Names

/-!
# The participants that the meeting server issues

A page asks the meeting server for a participant before it joins. The server may be set up
to trust an identity provider: it fetches the provider's keys now and then, and gives a
participant that is derived from the subject of a token that one of the keys has signed.

A document is taken whole or not at all, and what could not be fetched or read leaves the
keys as they are. So a participant is issued to exactly the subjects that the last document
that was taken vouches for. The libraries for tokens, for JSON and for identifiers are
parameters.
-/

namespace Seameet.Meet

open Library

/-- What a token is checked against: who may have issued it, and for whom. -/
structure JwksConfig where
  issuer : String
  audience : String
  pidNamespace : Nat

/-- A key of a JWKS document. -/
structure Jwk where
  kid : Option String
  kty : String
  alg : Option String
  use : Option String
  n : Option String
  e : Option String

/-- The part of a token that names its key and algorithm. -/
structure TokenHeader where
  alg : String
  kid : Option String
deriving DecidableEq

/-- The libraries. An error is its text. -/
structure Libraries (Key : Type) where
  decodeHeader : String → Except String TokenHeader
  fromRsaComponents : String → String → Except String Key
  /-- The subject of a token that is valid under a key, for an issuer and an audience, at
  a time. -/
  decode : String → Key → String → String → Nat → Except String String
  readJwkSet : String → Except String (List Jwk)
  newV5 : Nat → String → ParticipantId

/-- A signing key, as it is listed. -/
structure RsaJwk where
  kid : String
  n : String
  e : String

/-- The keys that can verify an RS256 signature; the others are passed over. -/
def Jwk.usable (jwk : Jwk) : Option RsaJwk :=
  if jwk.kty ≠ "RSA" then none
  else if jwk.use.any (· ≠ "sig") then none
  else if jwk.alg.any (· ≠ "RS256") then none
  else
    match jwk.kid, jwk.n, jwk.e with
    | some kid, some n, some e => some { kid, n, e }
    | _, _, _ => none

/-- What the network gives for a request of the document. -/
inductive Fetched where
  | failed (error : String)
  | refused (status : String)
  | unreadable (error : String)
  | body (text : String)

/-- What authorising a request comes to. -/
inductive AuthOutcome where
  | authenticated (pid : ParticipantId)
  | anonymous
  | rejected (reason : String)

section Keys

variable {Key : Type} (libraries : Libraries Key)

/-- The key of a listed RSA key: decoded from its two components. -/
def Libraries.keyOf (jwk : RsaJwk) : Except String Key := libraries.fromRsaComponents jwk.n jwk.e

/-- The keys of a document, listed one after the other. -/
def collect : List Jwk → Table String Key → Except String (Table String Key)
  | [], out => .ok out
  | jwk :: rest, out =>
      match jwk.usable with
      | none => collect rest out
      | some listed =>
          match libraries.keyOf listed with
          | .error err => .error s!"jwk {listed.kid} invalid rsa components: {err}"
          | .ok key => collect rest (out.insert listed.kid key)

/-- The keys of a key set, by their identifiers: one that is listed and cannot be read fails the
whole. -/
def parseJwks (text : String) : Except String (Table String Key) :=
  match libraries.readJwkSet text with
  | .error e => .error s!"jwks json parse failed: {e}"
  | .ok jwks =>
      match collect libraries jwks ∅ with
      | .error e => .error e
      | .ok out =>
          if out.entries.isEmpty then .error "jwks document had no usable RSA RS256 keys"
          else .ok out

/-- Fetch the document and swap the keys, unless there is an error. -/
def refresh (keys : Table String Key) (fetched : Fetched) : Except String Nat × Table String Key :=
  match fetched with
  | .failed e => (.error s!"jwks fetch failed: {e}", keys)
  | .refused status => (.error s!"jwks fetch returned {status}", keys)
  | .unreadable e => (.error s!"jwks read body failed: {e}", keys)
  | .body text =>
      match parseJwks libraries text with
      | .error e => (.error e, keys)
      | .ok next => (.ok next.entries.length, next)

/-- The keys after the fetches of a server. -/
def keysAfter (fetches : List Fetched) : Table String Key :=
  fetches.foldl (fun keys fetched => (refresh libraries keys fetched).2) ∅

/-- A bearer token is validated: its header, the key it names, and then its claims. -/
def validate (config : JwksConfig) (keys : Table String Key) (now : Nat) (bearer : String) :
    Except String ParticipantId :=
  match libraries.decodeHeader bearer with
  | .error e => .error s!"bad token header: {e}"
  | .ok header =>
      match header.kid with
      | none => .error "token missing kid"
      | some kid =>
          if header.alg ≠ "RS256" then .error s!"unsupported alg {header.alg}"
          else
            match keys.lookup kid with
            | none => .error s!"unknown kid {kid}"
            | some key =>
                match libraries.decode bearer key config.issuer config.audience now with
                | .error e => .error s!"token rejected: {e}"
                | .ok subject => .ok (libraries.newV5 config.pidNamespace subject)

/-- How the server was set up to authenticate. -/
inductive AuthProvider (Key : Type) where
  | jwks (config : JwksConfig) (keys : Table String Key)
  | sharedSecret (expected : String)
  | openAuth

/-- A request is authorised by its token, or without one where the provider asks for none. -/
def AuthProvider.authorize (now : Nat) : AuthProvider Key → Option String → AuthOutcome
  | .jwks _ _, none => .rejected "missing token"
  | .jwks config keys, some token =>
      match validate libraries config keys now token with
      | .ok pid => .authenticated pid
      | .error reason => .rejected reason
  | .sharedSecret expected, some token =>
      if token = expected then .anonymous else .rejected "invalid token"
  | .sharedSecret _, none => .rejected "missing token"
  | .openAuth, _ => .anonymous

end Keys

section Requests

/-- What the handler answers: the token, or the status and the error's text. -/
inductive Response where
  | failed (status : Nat) (code message : String)
  | created (roomId : RoomId) (pid : ParticipantId) (displayName : Option String)
deriving DecidableEq

/-- How many characters of a room's identifier are accepted: the source's constant. -/
def maxRoomIdLen : Nat := 64

/-- How many characters of a display name are accepted: the source's constant. -/
def maxDisplayNameLen : Nat := 64

/-- The bearer of an authorization header, which holds visible ASCII. -/
def bearerOf (authorization : Option String) : Option String :=
  let scheme := "Bearer ".toList
  match authorization with
  | none => none
  | some text =>
      if scheme.isPrefixOf text.toList then
        let token := (text.toList.drop scheme.length).dropWhile Char.isWhitespace
        let trimmed := (token.reverse.dropWhile Char.isWhitespace).reverse
        if trimmed.isEmpty then none else some (String.ofList trimmed)
      else none

/-- The first characters of a display name that are no control characters. -/
def shownName (name : String) : String :=
  String.ofList ((name.toList.filter fun char => !isControl char).take maxDisplayNameLen)

variable {Key : Type} (libraries : Libraries Key)

/-- A participant for a room. A fresh identifier is at hand for an anonymous one. -/
def createParticipant (provider : AuthProvider Key) (now : Nat) (fresh : ParticipantId)
    (roomId : RoomId) (authorization displayName : Option String) : Response :=
  if roomId.toList.isEmpty || maxRoomIdLen < byteLen roomId.toList || roomId.toList.any isControl then
    .failed 400 "invalid_room_id" "invalid room id"
  else
    match provider.authorize libraries now (bearerOf authorization) with
    | .authenticated pid => .created roomId pid (displayName.map shownName)
    | .anonymous => .created roomId fresh (displayName.map shownName)
    | .rejected reason => .failed 401 "unauthorized" reason

end Requests

section Documents

variable {Key : Type} {libraries : Libraries Key}

/-- The usable keys of a document. -/
def usableKeys (jwks : List Jwk) : List RsaJwk := jwks.filterMap Jwk.usable

/-- The key that a document lists under an identifier: the last one. -/
def listedKey (jwks : List Jwk) (kid : String) : Option RsaJwk :=
  ((usableKeys jwks).filter fun listed => listed.kid = kid).getLast?

/-- A list of keys is taken whole or not at all. -/
theorem collect_taken_iff (jwks : List Jwk) (out : Table String Key) :
    (∃ kept, collect libraries jwks out = .ok kept) ↔
      ∀ listed ∈ usableKeys jwks, ∃ key, libraries.keyOf listed = .ok key := by
  induction jwks generalizing out with
  | nil => simp [collect, usableKeys]
  | cons jwk rest inductionHypothesis =>
    cases usable : jwk.usable with
    | none =>
      rw [collect, usable, usableKeys, List.filterMap_cons_none usable]
      exact inductionHypothesis out
    | some listed =>
      rw [collect, usable, usableKeys, List.filterMap_cons_some usable, List.forall_mem_cons]
      cases made : libraries.keyOf listed with
      | error err => simp [made]
      | ok key =>
        simp only [made, Except.ok.injEq, exists_eq', true_and]
        exact inductionHypothesis _

/-- Of the keys listed under an identifier, the last one is kept. -/
theorem collect_lookup {jwks : List Jwk} {out kept : Table String Key}
    (taken : collect libraries jwks out = .ok kept) (kid : String) (key : Key) :
    kept.lookup kid = some key ↔
      match listedKey jwks kid with
      | none => out.lookup kid = some key
      | some listed => libraries.keyOf listed = .ok key := by
  induction jwks generalizing out with
  | nil =>
    obtain rfl := Except.ok.inj taken
    exact Iff.rfl
  | cons jwk rest inductionHypothesis =>
    unfold collect at taken
    unfold listedKey usableKeys
    cases usable : jwk.usable with
    | none =>
      rw [List.filterMap_cons_none usable]
      simp only [usable] at taken
      exact inductionHypothesis taken
    | some first =>
      rw [List.filterMap_cons_some usable]
      simp only [usable] at taken
      cases made : libraries.keyOf first with
      | error err =>
        rw [made] at taken
        cases taken
      | ok stored =>
        rw [made] at taken
        rw [inductionHypothesis taken, Table.lookup_insert_eq]
        unfold listedKey usableKeys
        by_cases here : first.kid = kid
        · rw [List.filter_cons_of_pos (by simpa using here), List.getLast?_cons]
          cases ((rest.filterMap Jwk.usable).filter fun listed => listed.kid = kid).getLast? with
          | none => simp [here, made]
          | some later => rfl
        · rw [List.filter_cons_of_neg (by simpa using here), if_neg (Ne.symm here)]

/-- The fetch brings a document that is taken: it can be read, all of its usable keys are
sound, and it has one. -/
def Publishes (libraries : Libraries Key) (jwks : List Jwk) (fetched : Fetched) : Prop :=
  ∃ text, fetched = .body text ∧ libraries.readJwkSet text = .ok jwks ∧
    (∀ listed ∈ usableKeys jwks, ∃ key, libraries.keyOf listed = .ok key) ∧ usableKeys jwks ≠ []

/-- A fetch brings one document at most. -/
theorem Publishes.unique {jwks other : List Jwk} {fetched : Fetched}
    (published : Publishes libraries jwks fetched) (again : Publishes libraries other fetched) :
    jwks = other := by
  obtain ⟨text, rfl, read, _⟩ := published
  obtain ⟨_, same, other_read, _⟩ := again
  obtain rfl := Fetched.body.inj same
  exact Except.ok.inj (read.symm.trans other_read)

/-- The keys of a document are none exactly if it has no usable one. -/
theorem collect_isEmpty {jwks : List Jwk} {kept : Table String Key}
    (taken : collect libraries jwks ∅ = .ok kept) : kept.entries.isEmpty = (usableKeys jwks).isEmpty := by
  cases listing : usableKeys jwks with
  | nil =>
    have absent : ∀ kid key, kept.lookup kid ≠ some key := by
      intro kid key stored
      rw [collect_lookup taken, listedKey, listing] at stored
      cases stored
    cases entries : kept.entries with
    | nil => rfl
    | cons entry rest =>
      have stored := (Table.mem_entries entry.1 entry.2 kept).mp (by rw [entries]; exact List.mem_cons_self)
      exact absurd stored (absent entry.1 entry.2)
  | cons first rest =>
    have valid := (collect_taken_iff jwks ∅).mp ⟨kept, taken⟩
    cases listed : listedKey jwks first.kid with
    | none =>
      rw [listedKey, listing, List.filter_cons_of_pos (by simp), List.getLast?_cons] at listed
      cases listed
    | some last =>
      have member : last ∈ usableKeys jwks := (List.mem_filter.mp (List.mem_of_getLast? listed)).1
      obtain ⟨key, made⟩ := valid last member
      have stored : kept.lookup first.kid = some key := by
        rw [collect_lookup taken, listed]
        exact made
      cases entries : kept.entries with
      | nil =>
        have present := (Table.mem_entries first.kid key kept).mpr stored
        rw [entries] at present
        cases present
      | cons entry others => rfl

/-- A document that is published replaces the keys. -/
theorem refresh_published {jwks : List Jwk} {fetched : Fetched} (keys : Table String Key)
    (published : Publishes libraries jwks fetched) :
    ∃ kept, collect libraries jwks ∅ = .ok kept ∧ (refresh libraries keys fetched).2 = kept := by
  obtain ⟨text, rfl, read, sound, some_key⟩ := published
  obtain ⟨kept, taken⟩ := (collect_taken_iff jwks ∅).mpr sound
  have filled : kept.entries.isEmpty = false := by
    rw [collect_isEmpty taken]
    simpa using some_key
  refine ⟨kept, taken, ?_⟩
  simp [refresh, parseJwks, read, taken, filled]

/-- Whatever else is fetched leaves them as they are. -/
theorem refresh_unpublished (keys : Table String Key) (fetched : Fetched)
    (unpublished : ¬∃ jwks, Publishes libraries jwks fetched) :
    (refresh libraries keys fetched).2 = keys := by
  cases fetched with
  | failed | refused | unreadable => rfl
  | body text =>
    unfold refresh parseJwks
    cases read : libraries.readJwkSet text with
    | error e => simp [read]
    | ok jwks =>
      cases taken : collect libraries jwks ∅ with
      | error e => simp [read, taken]
      | ok kept =>
        have none_usable : kept.entries.isEmpty = true := by
          rw [collect_isEmpty taken]
          by_contra some_usable
          apply unpublished
          have sound := (collect_taken_iff jwks ∅).mp ⟨kept, taken⟩
          exact ⟨jwks, text, rfl, read, sound, by simpa using some_usable⟩
        simp [read, taken, none_usable]

/-- The document in force after the fetches: published, and none was since. -/
def InForce (libraries : Libraries Key) (jwks : List Jwk) (fetches : List Fetched) : Prop :=
  Since (fun _ => Publishes libraries jwks) (fun _ fetched => ¬∃ other, Publishes libraries other fetched)
    fetches

/-- The server's keys are those of the document in force. -/
theorem keysAfter_lookup (fetches : List Fetched) (kid : String) (key : Key) :
    (keysAfter libraries fetches).lookup kid = some key ↔
      ∃ jwks, InForce libraries jwks fetches ∧
        ∃ listed, listedKey jwks kid = some listed ∧ libraries.keyOf listed = .ok key := by
  induction fetches using List.reverseRecOn with
  | nil =>
    constructor
    · intro absent
      cases absent
    · rintro ⟨_, since, _⟩
      exact absurd since since_nil
  | append_singleton fetches last inductionHypothesis =>
    have step : keysAfter libraries (fetches ++ [last]) =
        (refresh libraries (keysAfter libraries fetches) last).2 := by
      rw [keysAfter, List.foldl_append]
      rfl
    simp only [step, InForce, since_append_one]
    by_cases published : ∃ jwks, Publishes libraries jwks last
    · obtain ⟨jwks, published⟩ := published
      obtain ⟨kept, taken, swapped⟩ := refresh_published (keysAfter libraries fetches) published
      rw [swapped, collect_lookup taken]
      constructor
      · intro stored
        refine ⟨jwks, .inl published, ?_⟩
        cases listed : listedKey jwks kid with
        | none =>
          rw [listed] at stored
          cases stored
        | some listed_key =>
          rw [listed] at stored
          exact ⟨listed_key, rfl, stored⟩
      · rintro ⟨other, again | ⟨_, quiet⟩, listed, found, made⟩
        · obtain rfl := published.unique again
          rw [found]
          exact made
        · exact absurd ⟨jwks, published⟩ quiet
    · rw [refresh_unpublished _ last published, inductionHypothesis]
      constructor
      · rintro ⟨jwks, since, found⟩
        exact ⟨jwks, .inr ⟨since, published⟩, found⟩
      · rintro ⟨jwks, now | ⟨since, _⟩, found⟩
        · exact absurd ⟨jwks, now⟩ published
        · exact ⟨jwks, since, found⟩

end Documents

section Issuing

variable {Key : Type} (libraries : Libraries Key)

/-- The document in force vouches for a token: it lists a key under the identifier that the
token names, and the token is valid under that key. The participant derives from the
subject. -/
def Vouches (config : JwksConfig) (fetches : List Fetched) (now : Nat) (token : String)
    (pid : ParticipantId) : Prop :=
  ∃ kid jwks listed key subject,
    libraries.decodeHeader token = .ok { alg := "RS256", kid := some kid } ∧
      InForce libraries jwks fetches ∧ listedKey jwks kid = some listed ∧
        libraries.keyOf listed = .ok key ∧
          libraries.decode token key config.issuer config.audience now = .ok subject ∧
            libraries.newV5 config.pidNamespace subject = pid

/-- Tokens are validated against the document in force. -/
theorem validate_iff (config : JwksConfig) (fetches : List Fetched) (now : Nat) (token : String)
    (pid : ParticipantId) :
    validate libraries config (keysAfter libraries fetches) now token = .ok pid ↔
      Vouches libraries config fetches now token pid := by
  constructor
  · intro validated
    unfold validate at validated
    cases decoded : libraries.decodeHeader token with
    | error e => simp [decoded] at validated
    | ok header =>
      obtain ⟨alg, named⟩ := header
      cases named with
      | none => simp [decoded] at validated
      | some kid =>
        by_cases signed : alg = "RS256"
        · subst signed
          cases stored : (keysAfter libraries fetches).lookup kid with
          | none => simp [decoded, stored] at validated
          | some key =>
            cases subject : libraries.decode token key config.issuer config.audience now with
            | error e => simp [decoded, stored, subject] at validated
            | ok sub =>
              simp only [decoded, stored, subject, ne_eq, not_true, if_false, Except.ok.injEq] at validated
              obtain ⟨jwks, since, listed, found, made⟩ := (keysAfter_lookup fetches kid key).mp stored
              exact ⟨kid, jwks, listed, key, sub, decoded, since, found, made, subject, validated⟩
        · simp [decoded, signed] at validated
  · rintro ⟨kid, jwks, listed, key, subject, decoded, since, found, made, valid, rfl⟩
    have stored := (keysAfter_lookup fetches kid key).mpr ⟨jwks, since, listed, found, made⟩
    simp [validate, decoded, stored, valid]

/-- A room that a participant is created for may be named in a first `Join`. -/
theorem room_checked (roomId : RoomId) :
    (roomId.toList.isEmpty || decide (maxRoomIdLen < byteLen roomId.toList) ||
        roomId.toList.any isControl) = !validRoomId .sfuDefault roomId := by
  have length : decide (maxRoomIdLen < byteLen roomId.toList) =
      !decide (byteLen roomId.toList ≤ Config.sfuDefault.maxRoomIdLen) := by
    rw [← decide_not]
    exact decide_eq_decide.mpr Nat.not_le.symm
  rw [length, validRoomId]
  cases roomId.toList.isEmpty <;> cases roomId.toList.any isControl <;> simp

/-- Behind an identity provider, a participant is issued exactly for a room that can be joined
and a token that the document in force vouches for, and it is the one that derives from the
token's subject.

The checks are taken in the order of the handler: the room, the header of the request and
the token. The keys in force are those of the last document that was fetched whole. -/
theorem issued_iff (config : JwksConfig) (fetches : List Fetched) (now : Nat) (fresh : ParticipantId)
    (roomId : RoomId) (authorization displayName : Option String) (pid : ParticipantId) :
    createParticipant libraries (.jwks config (keysAfter libraries fetches)) now fresh roomId
        authorization displayName = .created roomId pid (displayName.map shownName) ↔
      validRoomId .sfuDefault roomId = true ∧
        ∃ token, bearerOf authorization = some token ∧
          Vouches libraries config fetches now token pid := by
  unfold createParticipant
  rw [room_checked]
  cases validRoomId .sfuDefault roomId with
  | false => simp
  | true =>
    simp only [Bool.not_true, Bool.false_eq_true, if_false, true_and]
    cases bearerOf authorization with
    | none => simp [AuthProvider.authorize]
    | some token =>
      have validated := validate_iff libraries config fetches now token pid
      simp only [AuthProvider.authorize, Option.some.injEq, exists_eq_left']
      rw [← validated]
      cases validate libraries config (keysAfter libraries fetches) now token with
      | error reason => simp
      | ok other => simp

end Issuing

section Naming

/-- A text has no more characters than bytes. -/
theorem length_le_byteLen (chars : List Char) : chars.length ≤ byteLen chars := by
  induction chars with
  | nil => exact Nat.zero_le _
  | cons char rest inductionHypothesis =>
    have occupied := Char.utf8Size_pos char
    simp only [List.length_cons, byteLen]
    omega

/-- The engine stores the name that was answered exactly if it fits in its bytes. -/
theorem shownName_stored_iff (name : String) :
    sanitizeName .sfuDefault name = some (shownName name) ↔ byteLen (shownName name).toList ≤ 64 := by
  have shown : (shownName name).toList = (cleanedName name).take 64 := String.toList_ofList
  have limit : Config.sfuDefault.maxDisplayNameLen = 64 := rfl
  rw [shown]
  simp only [sanitizeName, limit]
  change (if 64 < byteLen (cleanedName name) then (cutBytes 64 (cleanedName name)).map String.ofList
    else some (String.ofList (cleanedName name))) =
      some (String.ofList ((cleanedName name).take 64)) ↔ _
  generalize cleanedName name = cleaned
  by_cases long : 64 < byteLen cleaned
  · rw [if_pos long]
    constructor
    · intro stored
      obtain ⟨cut, kept, same⟩ := Option.map_eq_some_iff.mp stored
      have cut_eq : cut = cleaned.take 64 := by
        simpa using congrArg String.toList same
      exact cut_eq ▸ Nat.le_of_eq (cutBytes_spec 64 cleaned cut kept).1
    · intro fits
      have many : 64 ≤ cleaned.length := by
        by_contra few
        rw [List.take_of_length_le (by omega)] at fits
        omega
      have counted := length_le_byteLen (cleaned.take 64)
      rw [List.length_take_of_le many] at counted
      have exactly : byteLen (cleaned.take 64) = 64 := Nat.le_antisymm fits counted
      have cut := cutBytes_between (cleaned.take 64) (cleaned.drop 64)
      rw [exactly, List.take_append_drop] at cut
      rw [cut]
      rfl
  · have short : cleaned.length ≤ 64 := Nat.le_trans (length_le_byteLen cleaned) (by omega)
    rw [if_neg long, List.take_of_length_le short]
    exact iff_of_true rfl (by omega)

variable {Key : Type} {libraries : Libraries Key}

/-- However the server authenticates: the room of an issued participant may be named in a first
`Join`, and the engine stores the display name that was answered exactly if it has no more
than 64 bytes.

The room is checked by the same function as in a `Join`. The name that is answered is cut by
its characters, while the engine counts bytes. -/
theorem issued_agrees {provider : AuthProvider Key} {now : Nat} {fresh : ParticipantId}
    {roomId issued : RoomId} {authorization displayName shown : Option String} {pid : ParticipantId}
    (created : createParticipant libraries provider now fresh roomId authorization displayName =
      .created issued pid shown) :
    issued = roomId ∧ validRoomId .sfuDefault issued = true ∧
      ∀ given, displayName = some given → ∃ name, shown = some name ∧
        (sanitizeName .sfuDefault given = some name ↔ byteLen name.toList ≤ 64) := by
  unfold createParticipant at created
  rw [room_checked] at created
  cases checked : validRoomId .sfuDefault roomId with
  | false => simp [checked] at created
  | true =>
    simp only [checked, Bool.not_true, Bool.false_eq_true, if_false] at created
    have answered : issued = roomId ∧ shown = displayName.map shownName := by
      cases outcome : provider.authorize libraries now (bearerOf authorization) with
      | authenticated | anonymous =>
        rw [outcome] at created
        cases created
        exact ⟨rfl, rfl⟩
      | rejected =>
        rw [outcome] at created
        cases created
    obtain ⟨rfl, rfl⟩ := answered
    refine ⟨rfl, checked, ?_⟩
    rintro given rfl
    exact ⟨shownName given, rfl, shownName_stored_iff given⟩

/-- A name of forty accented letters is answered whole. It has eighty bytes, and the engine
stores another. -/
theorem issued_agrees_accented :
    let libraries : Libraries Unit :=
      { decodeHeader := fun _ => .error "InvalidToken", fromRsaComponents := fun _ _ => .ok ()
        decode := fun _ _ _ _ _ => .error "InvalidSignature", readJwkSet := fun _ => .ok []
        newV5 := fun _ _ => ⟨0⟩ }
    let given := String.ofList (List.replicate 40 'é')
    let answered := createParticipant libraries .openAuth 0 ⟨7⟩ "room" none (some given)
    answered = .created "room" ⟨7⟩ (some given) ∧ sanitizeName .sfuDefault given ≠ some given ∧
      ("room" = "room" ∧ validRoomId .sfuDefault "room" = true ∧
        ∀ name, some given = some name → ∃ shown, some given = some shown ∧
          (sanitizeName .sfuDefault name = some shown ↔ byteLen shown.toList ≤ 64)) := by
  intro libraries given answered
  have created : answered = .created "room" ⟨7⟩ (some given) := by decide +kernel
  exact ⟨created, by decide +kernel, issued_agrees created⟩

end Naming

end Seameet.Meet

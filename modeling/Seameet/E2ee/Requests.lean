import Seameet.E2ee.Crypto
import Seameet.Library.Traced

/-!
# Requests for message keys

A receiver asks an entry for the message keys of the counters it is sent, in any
order and any number of times. The entry moves up its chain, keeps the keys it passes
and gives every key out once.

The chain keys and message keys of an entry are those of the sender key it was made
from: `chainAt` and `messageKeyAt`. What is kept along the requests is stated once, in
`Follows`, with the answers so far beside the entry.
-/

namespace Seameet.E2ee

open Library

variable {Raw Chain Key : Type} (primitives : Primitives Raw Chain Key)

/-- A request for the message key of a counter, and its answer. -/
def request (entry : ChainEntry Chain Key) (targetCtr : Nat) :
    ChainEntry Chain Key × List (Nat × Option Key) :=
  let (key, entry) := getDecryptionKey primitives entry targetCtr
  (entry, [(targetCtr, key)])

/-- The counters whose keys were given out. -/
def givenOut (answers : List (Nat × Option Key)) : List Nat :=
  (answers.filter (fun answer => answer.2.isSome)).map Prod.fst

/-- The keys given out over two stretches are those of the first and then of the second. -/
theorem givenOut_append (past answers : List (Nat × Option Key)) :
    givenOut (past ++ answers) = givenOut past ++ givenOut answers := by
  simp [givenOut]

/-- An entry that has given these answers: it stands on its sender key's chain, it
keeps no more keys than it may, every answer was the counter's own key, and a counter
that was answered is behind the entry and kept no longer. -/
structure ChainEntry.Follows (rawKey : Raw) (keyId : Nat) (entry : ChainEntry Chain Key)
    (answers : List (Nat × Option Key)) : Prop where
  belongs : entry.Belongs primitives rawKey
  own : entry.keyId = keyId
  bounded : entry.skippedKeys.size ≤ maxSkip
  answered : ∀ targetCtr key, (targetCtr, some key) ∈ answers →
    key = messageKeyAt primitives rawKey keyId targetCtr
  once : (givenOut answers).Nodup
  gone : ∀ targetCtr ∈ givenOut answers,
    targetCtr < entry.nextCtr ∧ targetCtr ∉ entry.skippedKeys.keys

variable {primitives} {rawKey : Raw} {keyId targetCtr : Nat} {entry : ChainEntry Chain Key}
  {answers : List (Nat × Option Key)}

/-- A new entry has given no answer. -/
theorem initChainEntry_follows (primitives : Primitives Raw Chain Key) (rawKey : Raw) (keyId : Nat) :
    (initChainEntry primitives rawKey keyId).Follows primitives rawKey keyId [] where
  belongs := initChainEntry_belongs primitives rawKey keyId
  own := rfl
  bounded := Nat.zero_le maxSkip
  answered := by simp
  once := List.nodup_nil
  gone := by simp [givenOut]

/-- A request never leaves more keys than an entry may keep. -/
theorem getDecryptionKey_bounded (belongs : entry.Belongs primitives rawKey)
    (bounded : entry.skippedKeys.size ≤ maxSkip) (targetCtr : Nat) :
    (getDecryptionKey primitives entry targetCtr).2.skippedKeys.size ≤ maxSkip := by
  unfold getDecryptionKey
  cases entry.skippedKeys.lookup targetCtr with
  | some cached => exact Nat.le_trans (Ordered.erase_size targetCtr entry.skippedKeys) bounded
  | none =>
    dsimp only
    split
    · exact bounded
    · split
      · split
        · exact bounded
        · rw [catchUp_eq _ belongs]
          exact bounded
      · split
        · exact bounded
        · exact Ordered.keepHighest_size maxSkip _

/-- A request that is refused changes nothing. -/
theorem getDecryptionKey_refused (belongs : entry.Belongs primitives rawKey)
    (refused : (getDecryptionKey primitives entry targetCtr).1 = none) :
    (getDecryptionKey primitives entry targetCtr).2 = entry := by
  have outcome := getDecryptionKey_outcome belongs targetCtr
  generalize getDecryptionKey primitives entry targetCtr = result at outcome refused
  cases outcome with
  | cached found below => cases refused
  | passed absent below => rfl
  | far beyond => rfl
  | reached kept ahead near origin recent => cases refused

/-- A request that is answered gives the counter's own key. The counter had not been
passed, or its key was kept; afterwards it is passed and its key is not kept, and the
other counters behind the entry have gained nothing. -/
theorem getDecryptionKey_answered (belongs : entry.Belongs primitives rawKey) {key : Key}
    (answered : (getDecryptionKey primitives entry targetCtr).1 = some key) :
    let after := (getDecryptionKey primitives entry targetCtr).2
    key = messageKeyAt primitives rawKey entry.keyId targetCtr ∧
      (entry.nextCtr ≤ targetCtr ∨ targetCtr ∈ entry.skippedKeys.keys) ∧
      targetCtr < after.nextCtr ∧ targetCtr ∉ after.skippedKeys.keys ∧
      entry.nextCtr ≤ after.nextCtr ∧
      ∀ earlier < entry.nextCtr, earlier ∉ entry.skippedKeys.keys → earlier ∉ after.skippedKeys.keys := by
  have outcome := getDecryptionKey_outcome belongs targetCtr
  generalize getDecryptionKey primitives entry targetCtr = result at outcome answered
  cases outcome with
  | cached found below =>
    refine ⟨(Option.some.inj answered).symm, .inr found, below, ?_, Nat.le_refl _, ?_⟩
    · intro kept
      obtain ⟨value, member⟩ := Ordered.mem_keys.mp kept
      exact (Ordered.mem_erase.mp member).2 rfl
    · intro earlier _ absent kept
      obtain ⟨value, member⟩ := Ordered.mem_keys.mp kept
      exact absent (Ordered.mem_keys.mpr ⟨value, (Ordered.mem_erase.mp member).1⟩)
  | passed absent below => cases answered
  | far beyond => cases answered
  | reached kept ahead near origin recent =>
    refine ⟨(Option.some.inj answered).symm, .inl ahead, Nat.lt_succ_self _, ?_,
      Nat.le_succ_of_le ahead, ?_⟩
    · intro held
      obtain ⟨value, member⟩ := Ordered.mem_keys.mp held
      rcases origin _ member with old | ⟨_, _, below, _⟩
      · exact absurd (belongs.skipped _ old).1 (Nat.not_lt_of_le ahead)
      · exact absurd below (Nat.lt_irrefl _)
    · intro earlier behind absent held
      obtain ⟨value, member⟩ := Ordered.mem_keys.mp held
      rcases origin _ member with old | ⟨_, above, _⟩
      · exact absent (Ordered.mem_keys.mpr ⟨value, old⟩)
      · exact absurd behind (Nat.not_lt_of_le above)

/-- What one request does to an entry and its answers. -/
theorem ChainEntry.Follows.step (follows : entry.Follows primitives rawKey keyId answers)
    (targetCtr : Nat) :
    (request primitives entry targetCtr).1.Follows primitives rawKey keyId
      (answers ++ (request primitives entry targetCtr).2) := by
  obtain ⟨belongs, own, bounded, answered, once, gone⟩ := follows
  show (getDecryptionKey primitives entry targetCtr).2.Follows primitives rawKey keyId
    (answers ++ [(targetCtr, (getDecryptionKey primitives entry targetCtr).1)])
  obtain ⟨later, kept⟩ := getDecryptionKey_belongs belongs targetCtr
  have size := getDecryptionKey_bounded belongs bounded targetCtr
  cases given : (getDecryptionKey primitives entry targetCtr).1 with
  | none =>
    have same : givenOut (answers ++ [(targetCtr, none)]) = givenOut answers := by
      rw [givenOut_append]
      exact List.append_nil _
    refine ⟨later, kept.trans own, size, ?_, same ▸ once, ?_⟩
    · intro asked key member
      rcases List.mem_append.mp member with earlier | here
      · exact answered asked key earlier
      · simp at here
    · rw [getDecryptionKey_refused belongs given, same]
      exact gone
  | some key =>
    have more : givenOut (answers ++ [(targetCtr, some key)]) = givenOut answers ++ [targetCtr] :=
      givenOut_append answers [(targetCtr, some key)]
    obtain ⟨right, source, passed, released, onward, unkept⟩ := getDecryptionKey_answered belongs given
    have fresh : targetCtr ∉ givenOut answers := by
      intro before
      obtain ⟨behind, absent⟩ := gone targetCtr before
      rcases source with ahead | found
      · exact absurd behind (Nat.not_lt_of_le ahead)
      · exact absent found
    refine ⟨later, kept.trans own, size, ?_, ?_, ?_⟩
    · intro asked value member
      rcases List.mem_append.mp member with earlier | here
      · exact answered asked value earlier
      · obtain ⟨rfl, rfl⟩ : asked = targetCtr ∧ value = key := by simpa using here
        rw [right, own]
    · rw [more, List.nodup_append]
      refine ⟨once, List.nodup_singleton targetCtr, ?_⟩
      intro earlier before asked here same
      exact fresh ((List.mem_singleton.mp here) ▸ same ▸ before)
    · rw [more]
      intro earlier member
      rcases List.mem_append.mp member with before | here
      · obtain ⟨behind, absent⟩ := gone earlier before
        exact ⟨Nat.lt_of_lt_of_le behind onward, unkept earlier behind absent⟩
      · obtain rfl := List.mem_singleton.mp here
        exact ⟨passed, released⟩

/-- Inside a request the chain key stands at the next counter too, after any number of
steps of either loop. -/
theorem loops_belong (belongs : entry.Belongs primitives rawKey) (steps : Nat) :
    (catchUp primitives steps entry).Belongs primitives rawKey ∧
      (skipAhead primitives steps entry).Belongs primitives rawKey := by
  have started := belongs.started
  constructor
  · rw [catchUp_eq steps belongs]
    refine ⟨belongs.salt, by dsimp only; omega, rfl, ?_⟩
    intro held member
    obtain ⟨below, same⟩ := belongs.skipped held member
    exact ⟨by dsimp only; omega, same⟩
  · obtain ⟨kept, advanced, exact⟩ := skipAhead_eq steps belongs
    rw [advanced]
    refine ⟨belongs.salt, by dsimp only; omega, rfl, ?_⟩
    intro held member
    rcases (exact held).mp member with old | ⟨_, below, same⟩
    · obtain ⟨below, same⟩ := belongs.skipped held old
      exact ⟨by dsimp only; omega, same⟩
    · exact ⟨below, same⟩

/-- After any requests a new entry follows its chain: the chain key stands at the next
counter, the kept keys are those of counters behind it, no key was given out twice, and
a request that is refused now changes nothing.

One request keeps an entry on its chain, by the way it is answered: from a key that was
kept, from the chain ahead, or with a refusal. The requests are then taken one by one. -/
theorem requests_follow (primitives : Primitives Raw Chain Key) (rawKey : Raw) (keyId : Nat)
    (targets : List Nat) :
    let run := traced (request primitives) (initChainEntry primitives rawKey keyId) targets
    run.1.Follows primitives rawKey keyId run.2 ∧
      (∀ steps, (catchUp primitives steps run.1).Belongs primitives rawKey ∧
        (skipAhead primitives steps run.1).Belongs primitives rawKey) ∧
      ∀ targetCtr, (getDecryptionKey primitives run.1 targetCtr).1 = none →
        (getDecryptionKey primitives run.1 targetCtr).2 = run.1 := by
  have follows := traced_keeps
    (fun (entry : ChainEntry Chain Key) answers => entry.Follows primitives rawKey keyId answers)
    targets (fun _ _ targetCtr _ follows => follows.step targetCtr) _ []
    (initChainEntry_follows primitives rawKey keyId)
  rw [List.nil_append] at follows
  refine ⟨follows, ?_, ?_⟩
  · exact loops_belong follows.belongs
  · intro targetCtr refused
    exact getDecryptionKey_refused follows.belongs refused

/-- A late frame, a repetition and a jump within reach on one entry. -/
example : (traced (request samplePrimitives) (initChainEntry samplePrimitives 9 4) [3, 6, 5, 5, 1]).2.map
    (fun answer => (answer.1, answer.2.isSome)) =
      [(3, true), (6, true), (5, true), (5, false), (1, false)] := by
  decide

end Seameet.E2ee

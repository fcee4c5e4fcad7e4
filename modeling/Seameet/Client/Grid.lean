import Seameet.Library.Firsts

/-!
# Who is shown with live video

The page cannot show live video of everybody in a large room. It remembers the last five
participants that were heard, and gives the ten live tiles to the one who speaks, to those
who spoke before, and to the others as far as the tiles go.

The tiles are filled by three loops that stop when there is none left. What they come to
is the beginning of one list.
-/

namespace Seameet

open Library

/-- What the page knows of the speakers. -/
structure Speakers where
  activeSpeakerId : Option String
  /-- The last one first. -/
  recentSpeakers : List String

/-- How many tiles show live video. -/
def videoGridBudget : Nat := 10

/-- How many recent speakers are kept: the default of the source. -/
def recentSpeakersCap : Nat := 5

/-- A speaker moves to the front of the recent ones, and the last of them may drop out. -/
def pushRecentSpeaker (current : List String) (speaker : String) : List String :=
  (speaker :: current.filter (· ≠ speaker)).take recentSpeakersCap

/-- A message names the active speaker. -/
def Speakers.hear (speakers : Speakers) (speaker : String) : Speakers :=
  { activeSpeakerId := some speaker
    recentSpeakers := pushRecentSpeaker speakers.recentSpeakers speaker }

/-- The speakers after the messages of a call. -/
def Speakers.after (heard : List String) : Speakers :=
  heard.foldl Speakers.hear { activeSpeakerId := none, recentSpeakers := [] }

/-- The tiles, the peers they are for and the one that has its own. -/
structure VideoGrid where
  peerIds : List String
  localId : String
  /-- How many screens are shared, each on a tile of its own. -/
  screenShareCount : Nat

namespace VideoGrid

/-- A peer that may get a live tile. -/
def eligible (grid : VideoGrid) (id : String) : Bool :=
  id ≠ "" && id ≠ grid.localId && id ∈ grid.peerIds

/-- A tile is given, unless the participant has one or there is none left. -/
def consider (grid : VideoGrid) (visible : List String) (id : String) : List String :=
  if grid.eligible id && visible.length < videoGridBudget && id ∉ visible then visible ++ [id]
  else visible

/-- Tiles for the participants of a list, until there is none left. -/
def fill (grid : VideoGrid) : List String → List String → List String
  | visible, [] => visible
  | visible, id :: rest =>
      if videoGridBudget ≤ visible.length then visible else grid.fill (grid.consider visible id) rest

/-- The peers that get a live tile, in the order in which they get it. -/
def pickVisibleVideoSet (grid : VideoGrid) (speakers : Speakers) : List String :=
  let spoken :=
    match speakers.activeSpeakerId with
    | none => []
    | some id => grid.consider [] id
  grid.fill (grid.fill spoken speakers.recentSpeakers) grid.peerIds

/-- The peers with live video: all of them while the tiles suffice. -/
def visibleVideoIds (grid : VideoGrid) (speakers : Speakers) : List String :=
  if 1 + grid.peerIds.length + grid.screenShareCount ≤ videoGridBudget then grid.peerIds.eraseDups
  else grid.pickVisibleVideoSet speakers

section Filling

variable (grid : VideoGrid)

/-- The first of the eligible participants of a list, as many as there are tiles. -/
def firsts (ids : List String) : List String :=
  ((ids.filter grid.eligible).eraseDups).take videoGridBudget

/-- Considering a participant is putting it last. -/
theorem consider_firsts (ids : List String) (id : String) :
    grid.consider (grid.firsts ids) id = grid.firsts (ids ++ [id]) := by
  unfold consider firsts
  rw [List.filter_append]
  cases allowed : grid.eligible id with
  | false => simp [List.filter_cons_of_neg, allowed]
  | true =>
    rw [List.filter_cons_of_pos allowed, List.filter_nil, eraseDups_append_one]
    have seen : id ∈ ids.filter grid.eligible ↔ id ∈ (ids.filter grid.eligible).eraseDups :=
      List.mem_eraseDups.symm
    simp only [seen]
    generalize (ids.filter grid.eligible).eraseDups = kept
    by_cases room : kept.length < videoGridBudget
    · have whole : kept.take videoGridBudget = kept := List.take_of_length_le (by omega)
      by_cases here : id ∈ kept
      · simp [whole, here]
      · rw [whole, if_neg here, List.take_of_length_le (by simp; omega)]
        simp [room, here]
    · have full : (kept.take videoGridBudget).length = videoGridBudget :=
        List.length_take_of_le (by omega)
      rw [if_neg (by simp [full])]
      split
      · rfl
      · exact (List.take_append_of_le_length (by omega)).symm

/-- A full grid has room for nobody. -/
theorem firsts_full (ids more : List String) (full : videoGridBudget ≤ (grid.firsts ids).length) :
    grid.firsts (ids ++ more) = grid.firsts ids := by
  induction more using List.reverseRecOn with
  | nil => rw [List.append_nil]
  | append_singleton more last inductionHypothesis =>
    rw [← List.append_assoc, ← consider_firsts, inductionHypothesis, consider, if_neg]
    simp only [Bool.and_eq_true, decide_eq_true_eq]
    omega

/-- The loop that stops at the last tile goes on without a difference. -/
theorem fill_firsts (ids more : List String) :
    grid.fill (grid.firsts ids) more = grid.firsts (ids ++ more) := by
  induction more generalizing ids with
  | nil => rw [List.append_nil, fill]
  | cons id rest inductionHypothesis =>
    rw [fill]
    split
    · next full => exact (grid.firsts_full ids (id :: rest) full).symm
    · rw [consider_firsts, inductionHypothesis, List.append_assoc, List.singleton_append]

end Filling

end VideoGrid

section Hearing

/-- The recent speakers are the last ones that were heard, each once. -/
theorem recentSpeakers_after (heard : List String) :
    (Speakers.after heard).recentSpeakers = (heard.reverse.eraseDups).take recentSpeakersCap := by
  induction heard using List.reverseRecOn with
  | nil => rfl
  | append_singleton heard last inductionHypothesis =>
    have step : (Speakers.after (heard ++ [last])).recentSpeakers =
        pushRecentSpeaker (Speakers.after heard).recentSpeakers last := by
      rw [Speakers.after, List.foldl_append]
      rfl
    have others : (heard.reverse.filter fun id => !id == last).eraseDups =
        heard.reverse.eraseDups.filter (· ≠ last) := by
      rw [eraseDups_filter]
      exact List.filter_congr fun id _ => by by_cases same : id = last <;> simp [same]
    rw [step, inductionHypothesis, pushRecentSpeaker, take_front _ _ (nodup_eraseDups _),
      List.reverse_append, List.reverse_singleton, List.singleton_append, List.eraseDups_cons, others]

/-- The active speaker is the first of the recent ones. -/
theorem activeSpeakerId_after (heard : List String) :
    (Speakers.after heard).activeSpeakerId = (Speakers.after heard).recentSpeakers.head? := by
  induction heard using List.reverseRecOn with
  | nil => rfl
  | append_singleton heard last _ =>
    rw [Speakers.after, List.foldl_append]
    rfl

end Hearing

namespace VideoGrid

section Showing

variable (grid : VideoGrid)

/-- Naming the first one twice makes no difference. -/
theorem firsts_twice (id : String) (rest : List String) :
    grid.firsts (id :: id :: rest) = grid.firsts (id :: rest) := by
  unfold firsts
  cases allowed : grid.eligible id with
  | false => simp [List.filter_cons_of_neg, allowed]
  | true => simp [List.filter_cons_of_pos, allowed, List.eraseDups_cons]

/-- The live tiles go to the last speakers that are there, and then to the other peers. -/
theorem pickVisibleVideoSet_after (heard : List String) :
    grid.pickVisibleVideoSet (Speakers.after heard) =
      grid.firsts ((heard.reverse.eraseDups).take recentSpeakersCap ++ grid.peerIds) := by
  have active := activeSpeakerId_after heard
  have start : grid.firsts [] = [] := rfl
  unfold pickVisibleVideoSet
  rw [← recentSpeakers_after, active]
  cases (Speakers.after heard).recentSpeakers with
  | nil =>
    simp only [List.head?_nil, List.nil_append]
    rw [fill, ← start, fill_firsts, List.nil_append]
  | cons id rest =>
    simp only [List.head?_cons]
    rw [← start, consider_firsts, fill_firsts, fill_firsts, List.nil_append, List.singleton_append,
      List.cons_append, List.cons_append, firsts_twice]

/-- The recent speakers have tiles, as there are more tiles than recent speakers. -/
theorem mem_firsts_recent (recent others : List String) (few : recent.length ≤ videoGridBudget)
    {id : String} (spoke : id ∈ recent) (allowed : grid.eligible id = true) :
    id ∈ grid.firsts (recent ++ others) := by
  have kept : id ∈ (recent.filter grid.eligible).eraseDups :=
    List.mem_eraseDups.mpr (List.mem_filter.mpr ⟨spoke, allowed⟩)
  have short : (recent.filter grid.eligible).eraseDups.length ≤ videoGridBudget :=
    calc (recent.filter grid.eligible).eraseDups.length
        ≤ (recent.filter grid.eligible).length := (eraseDups_sublist _).length_le
      _ ≤ recent.length := List.length_filter_le _ _
      _ ≤ videoGridBudget := few
  rw [firsts, List.filter_append, List.eraseDups_append, List.take_append]
  exact List.mem_append_left _ (by rwa [List.take_of_length_le short])

/-- While a tile is left, no eligible participant goes without. -/
theorem mem_firsts_of_room (ids : List String) (room : (grid.firsts ids).length < videoGridBudget)
    {id : String} (listed : id ∈ ids) (allowed : grid.eligible id = true) : id ∈ grid.firsts ids := by
  unfold firsts at room ⊢
  rw [List.length_take] at room
  rw [List.take_of_length_le (by omega)]
  exact List.mem_eraseDups.mpr (List.mem_filter.mpr ⟨listed, allowed⟩)

/-- In a room with more than ten tiles, the live ones go to those of the last five speakers
who are there, the last one first, and then to the other peers in their order, each once,
until there is none left. In any room, whoever of the last five speakers is there is live, and
a peer is not live only if ten are.

The tiles are chosen from a list without repetition, the recent speakers before the other
peers. What is chosen is a beginning of it, as long as there is room. -/
theorem grid_exact (heard : List String) :
    let visible := grid.visibleVideoIds (Speakers.after heard)
    let recent := (heard.reverse.eraseDups).take recentSpeakersCap
    (videoGridBudget < 1 + grid.peerIds.length + grid.screenShareCount →
        visible = grid.firsts (recent ++ grid.peerIds)) ∧
      (∀ id ∈ recent, grid.eligible id = true → id ∈ visible) ∧
      ∀ id ∈ grid.peerIds, grid.eligible id = true → id ∉ visible → visible.length = videoGridBudget := by
  intro visible recent
  have chosen : videoGridBudget < 1 + grid.peerIds.length + grid.screenShareCount →
      visible = grid.firsts (recent ++ grid.peerIds) := by
    intro crowded
    simp only [visible, visibleVideoIds]
    rw [if_neg (by omega)]
    exact grid.pickVisibleVideoSet_after heard
  have everybody : ¬videoGridBudget < 1 + grid.peerIds.length + grid.screenShareCount →
      visible = grid.peerIds.eraseDups := by
    intro roomy
    simp only [visible, visibleVideoIds]
    rw [if_pos (by omega)]
  refine ⟨chosen, ?_, ?_⟩
  · intro id spoke allowed
    by_cases crowded : videoGridBudget < 1 + grid.peerIds.length + grid.screenShareCount
    · rw [chosen crowded]
      have few : recent.length ≤ videoGridBudget :=
        Nat.le_trans (List.length_take_le _ _) (by decide)
      exact grid.mem_firsts_recent recent grid.peerIds few spoke allowed
    · rw [everybody crowded, List.mem_eraseDups]
      simp only [eligible, Bool.and_eq_true, decide_eq_true_eq] at allowed
      exact allowed.2
  · intro id listed allowed hidden
    by_cases crowded : videoGridBudget < 1 + grid.peerIds.length + grid.screenShareCount
    · rw [chosen crowded] at hidden ⊢
      by_contra room
      apply hidden
      have most : (grid.firsts (recent ++ grid.peerIds)).length ≤ videoGridBudget :=
        List.length_take_le _ _
      exact grid.mem_firsts_of_room _ (by omega) (List.mem_append_right _ listed) allowed
    · rw [everybody crowded, List.mem_eraseDups] at hidden
      exact absurd listed hidden

end Showing

end VideoGrid

end Seameet

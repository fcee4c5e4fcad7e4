import Seameet.E2ee.Worker
import Seameet.Library.Runs
import Seameet.Library.Traced

/-!
# Replayed counters

A receiver tests every frame's counter against the window of the frame's sender and
key identifier. The windows of different senders and identifiers do not touch each
other, and each one answers as a set of all the counters it has accepted would.

A window's bitmap is moved up when its highest counter rises and is not cut off. Its
length is the span of the counters taken since the window was last started, and
small steps upwards never start it afresh.
-/

namespace Seameet.E2ee.Replay

open Library

/-- A call of `checkReplay`. -/
structure ReplayCall where
  senderId : String
  keyId : Nat
  ctr : Nat
  deriving DecidableEq, Repr

/-- The window a call reads. -/
def ReplayCall.windowKey (call : ReplayCall) : String × Nat := (call.senderId, call.keyId)

/-- A call on the worker's windows, with its counter and answer. -/
def answer (replayWindows : Table (String × Nat) ReplayWindow) (call : ReplayCall) :
    Table (String × Nat) ReplayWindow × List (ReplayCall × Bool) :=
  let (accepted, replayWindows) := checkReplay replayWindows call.senderId call.keyId call.ctr
  (replayWindows, [(call, accepted)])

/-- The reference for one window: the set of the accepted counters, and the answer the
set gives. -/
def judge (accepted : List Nat) (ctr : Nat) : List Nat × List (Nat × Bool) :=
  (Window.collect replayWindowSize accepted ctr, [(ctr, Window.admits replayWindowSize accepted ctr)])

/-- The answers to the calls that read one window. -/
def answersAt (windowKey : String × Nat) (answers : List (ReplayCall × Bool)) : List (Nat × Bool) :=
  (answers.filter (fun answered => answered.1.windowKey = windowKey)).map
    (fun answered => (answered.1.ctr, answered.2))

/-- The counters of the calls that read one window. -/
def countersAt (windowKey : String × Nat) (calls : List ReplayCall) : List Nat :=
  (calls.filter (fun call => call.windowKey = windowKey)).map ReplayCall.ctr

/-- The counters that were accepted. -/
def acceptedOf (answers : List (Nat × Bool)) : List Nat :=
  (answers.filter (fun answered => answered.2)).map Prod.fst

variable {replayWindows : Table (String × Nat) ReplayWindow} {accepted : List Nat}

/-- One call settles the window it reads and answers as the reference does. -/
theorem answer_judge (call : ReplayCall)
    (records : Window.Records replayWindowSize (replayWindows.lookup call.windowKey) accepted) :
    (answer replayWindows call).2 =
        [(call, Window.admits replayWindowSize accepted call.ctr)] ∧
      Window.Records replayWindowSize ((answer replayWindows call).1.lookup call.windowKey)
        (Window.collect replayWindowSize accepted call.ctr) := by
  constructor
  · have judged := records.judge call.ctr
    unfold answer checkReplay
    rw [← judged]
    show _ = [(call, (Window.check replayWindowSize
      (replayWindows.lookup (call.senderId, call.keyId)) call.ctr).isSome)]
    cases Window.check replayWindowSize (replayWindows.lookup (call.senderId, call.keyId)) call.ctr with
    | none => rfl
    | some window => rfl
  · show Window.Records replayWindowSize ((checkReplay replayWindows call.senderId call.keyId
      call.ctr).2.lookup call.windowKey) _
    rw [Worker.checkReplay_lookup]
    exact (if_pos rfl).symm ▸ records.settle call.ctr

/-- A call leaves the other windows alone. -/
theorem answer_elsewhere (call : ReplayCall) {windowKey : String × Nat}
    (elsewhere : call.windowKey ≠ windowKey) :
    (answer replayWindows call).1.lookup windowKey = replayWindows.lookup windowKey := by
  show (checkReplay replayWindows call.senderId call.keyId call.ctr).2.lookup windowKey = _
  rw [Worker.checkReplay_lookup, if_neg]
  exact fun same => elsewhere same.symm

/-- The windows and the reference go through any calls together. The induction is on
the calls; a call of another window changes neither side. -/
theorem answers_judged (windowKey : String × Nat) (calls : List ReplayCall)
    (records : Window.Records replayWindowSize (replayWindows.lookup windowKey) accepted) :
    answersAt windowKey (traced answer replayWindows calls).2 =
      (traced judge accepted (countersAt windowKey calls)).2 := by
  induction calls generalizing replayWindows accepted with
  | nil => rfl
  | cons call rest inductionHypothesis =>
    by_cases here : call.windowKey = windowKey
    · subst here
      obtain ⟨answered, recorded⟩ := answer_judge call records
      have later := inductionHypothesis recorded
      simp only [answersAt, countersAt, traced, answered, List.cons_append, List.nil_append,
        List.filter_cons, decide_true, if_true, List.map_cons, judge] at later ⊢
      rw [later]
    · have recorded : Window.Records replayWindowSize
          ((answer replayWindows call).1.lookup windowKey) accepted := by
        rw [answer_elsewhere call here]
        exact records
      have later := inductionHypothesis recorded
      have shown : ∃ accepted, (answer replayWindows call).2 = [(call, accepted)] := ⟨_, rfl⟩
      obtain ⟨accepted, answered⟩ := shown
      simp only [answersAt, countersAt, traced, answered, List.cons_append, List.nil_append,
        List.filter_cons, here, decide_false, Bool.false_eq_true, if_false] at later ⊢
      exact later

/-- The reference keeps the counters it accepts, and none twice. -/
theorem judged_nodup (counters : List Nat) (distinct : accepted.Nodup) :
    ((acceptedOf (traced judge accepted counters).2).reverse ++ accepted).Nodup := by
  have each : ∀ (state : List Nat) (past : List (Nat × Bool)), ∀ ctr ∈ counters,
      (state.Nodup ∧ state = (acceptedOf past).reverse ++ accepted) →
      (judge state ctr).1.Nodup ∧
        (judge state ctr).1 = (acceptedOf (past ++ (judge state ctr).2)).reverse ++ accepted := by
    rintro state past ctr _ ⟨distinct, same⟩
    refine ⟨Window.collect_nodup distinct, ?_⟩
    unfold judge Window.collect acceptedOf
    rw [List.filter_append, List.map_append]
    cases Window.admits replayWindowSize state ctr with
    | true => simp [same, acceptedOf]
    | false => simp [same, acceptedOf]
  have kept := traced_keeps
    (fun state past => state.Nodup ∧ state = (acceptedOf past).reverse ++ accepted) counters each
    accepted [] ⟨distinct, rfl⟩
  rw [List.nil_append] at kept
  rw [← kept.2]
  exact kept.1

/-- The calls of a window that has not been started are answered as the reference
answers them, and no counter is accepted twice.

The window records the counters that were accepted. A call is answered as the record says,
and the answer is entered into it. -/
theorem checkReplay_reference (replayWindows : Table (String × Nat) ReplayWindow)
    (windowKey : String × Nat) (calls : List ReplayCall)
    (unheard : replayWindows.lookup windowKey = none) :
    answersAt windowKey (traced answer replayWindows calls).2 =
        (traced judge [] (countersAt windowKey calls)).2 ∧
      (acceptedOf (answersAt windowKey (traced answer replayWindows calls).2)).Nodup := by
  have records : Window.Records replayWindowSize (replayWindows.lookup windowKey) [] := by
    rw [unheard]
    rfl
  have judged := answers_judged windowKey calls records
  refine ⟨judged, ?_⟩
  have empty : ([] : List Nat).Nodup := List.nodup_nil
  have distinct := judged_nodup (countersAt windowKey calls) empty
  rw [List.append_nil, List.nodup_reverse] at distinct
  rw [judged]
  exact distinct

/-- Counters of one sender: a repetition, an old counter, steps of one less than the
window, of the window and of one more, and what is just inside and just behind. -/
def jumpingCalls : List ReplayCall :=
  [5, 3, 5, 132, 4, 5, 3, 260, 133, 132, 389, 262, 261].map
    (fun ctr => { senderId := "alice", keyId := 7, ctr })

/-- A traced run of the sliding window answers as the reference does, jumps included. -/
theorem checkReplay_reference_jumping :
    answersAt ("alice", 7) (traced answer ∅ jumpingCalls).2 =
        [(5, true), (3, true), (5, false), (132, true), (4, false), (5, false), (3, false),
          (260, true), (133, true), (132, false), (389, true), (262, true), (261, false)] ∧
      (acceptedOf (answersAt ("alice", 7) (traced answer ∅ jumpingCalls).2)).Nodup := by
  obtain ⟨answers, distinct⟩ := checkReplay_reference ∅ ("alice", 7) jumpingCalls rfl
  refine ⟨?_, distinct⟩
  rw [answers]
  decide +kernel

/-- The windows of a worker, with the span of the counters that each window has taken
since it was last started. -/
structure ReplayLog where
  replayWindows : Table (String × Nat) ReplayWindow
  spans : Table (String × Nat) Window.Span

/-- A worker that has heard no one. -/
def ReplayLog.start : ReplayLog := { replayWindows := ∅, spans := ∅ }

/-- A call of `checkReplay`, recorded. -/
def ReplayLog.call (log : ReplayLog) (call : ReplayCall) : Option ReplayLog :=
  some { replayWindows := (answer log.replayWindows call).1
         spans := log.spans.insert call.windowKey
           (Window.Span.extend replayWindowSize (log.spans.lookup call.windowKey) call.ctr) }

/-- No bitmap is longer than the window. -/
def ReplayLog.Bounded (log : ReplayLog) : Prop :=
  ∀ windowKey window, log.replayWindows.lookup windowKey = some window →
    window.bitmap < 2 ^ replayWindowSize

/-- A counter that moves its window up, and does not start it afresh, is still within
the window's size of the lowest counter the window has taken. -/
def ReplayLog.Steady (log : ReplayLog) (call : ReplayCall) : Prop :=
  ∀ span, log.spans.lookup call.windowKey = some span → span.highest < call.ctr →
    call.ctr - span.highest < replayWindowSize → call.ctr < span.lowest + replayWindowSize

/-- Every window has recorded its span. -/
def ReplayLog.Spanned (log : ReplayLog) : Prop :=
  ∀ windowKey,
    Window.Spanned (log.replayWindows.lookup windowKey) (log.spans.lookup windowKey)

variable {log after : ReplayLog} {call : ReplayCall}

/-- What a call does to the windows and to their spans. -/
theorem ReplayLog.call_lookup (stepped : log.call call = some after) (windowKey : String × Nat) :
    after.replayWindows.lookup windowKey =
        (if windowKey = call.windowKey then
          Window.settle replayWindowSize (log.replayWindows.lookup call.windowKey) call.ctr
        else log.replayWindows.lookup windowKey) ∧
      after.spans.lookup windowKey =
        (if windowKey = call.windowKey then
          some (Window.Span.extend replayWindowSize (log.spans.lookup call.windowKey) call.ctr)
        else log.spans.lookup windowKey) := by
  obtain rfl := Option.some.inj stepped
  exact ⟨Worker.checkReplay_lookup _ _ _ _ _, Table.lookup_insert_eq _ _ _ _⟩

/-- One more call keeps the log inside the span of its window. -/
theorem ReplayLog.Spanned.step (spanned : log.Spanned) (stepped : log.call call = some after) :
    after.Spanned := by
  intro windowKey
  obtain ⟨window, span⟩ := ReplayLog.call_lookup stepped windowKey
  rw [window, span]
  by_cases here : windowKey = call.windowKey
  · rw [if_pos here, if_pos here]
    exact (spanned call.windowKey).settle call.ctr
  · rw [if_neg here, if_neg here]
    exact spanned windowKey

/-- The fresh log is inside the span of its window. -/
theorem ReplayLog.start_spanned : ReplayLog.start.Spanned := by
  intro windowKey
  trivial

/-- Every log that is reached is inside the span of its window. -/
theorem ReplayLog.reached_spanned {guard : ReplayLog → ReplayCall → Prop}
    (reached : Reaches ReplayLog.call guard .start log) : log.Spanned :=
  reached.invariant ReplayLog.Spanned ReplayLog.start_spanned
    (fun _ _ _ spanned _ stepped => spanned.step stepped)

/-- The bitmaps are bounded where the spans are shorter than the window. -/
theorem ReplayLog.Spanned.bounded_iff (spanned : log.Spanned) :
    log.Bounded ↔ ∀ windowKey span, log.spans.lookup windowKey = some span →
      span.highest < span.lowest + replayWindowSize := by
  constructor
  · intro bounded windowKey span recorded
    have here := spanned windowKey
    rw [recorded] at here
    cases started : log.replayWindows.lookup windowKey with
    | none => exact absurd (started ▸ here : Window.Spanned none (some span)) id
    | some window =>
      rw [started] at here
      exact (Window.Spans.bounded_iff here replayWindowSize).mp (bounded windowKey window started)
  · intro short windowKey window started
    have here := spanned windowKey
    rw [started] at here
    cases recorded : log.spans.lookup windowKey with
    | none => exact absurd (recorded ▸ here : Window.Spanned (some window) none) id
    | some span =>
      rw [recorded] at here
      exact (Window.Spans.bounded_iff here replayWindowSize).mpr (short windowKey span recorded)

/-- A short span stays short when the next counter is a steady one, and only then. -/
theorem extend_short {size number : Nat} {span : Option Window.Span} (positive : 0 < size)
    (short : ∀ earlier, span = some earlier → earlier.highest < earlier.lowest + size) :
    (Window.Span.extend size span number).highest <
        (Window.Span.extend size span number).lowest + size ↔
      ∀ earlier, span = some earlier → earlier.highest < number →
        number - earlier.highest < size → number < earlier.lowest + size := by
  cases span with
  | none =>
    refine iff_of_true ?_ nofun
    exact Nat.lt_add_of_pos_right positive
  | some span =>
    have near := short span rfl
    simp only [Window.Span.extend, Option.some.injEq, forall_eq']
    split
    · split
      · simp [*]
      · simp [*]
    · split
      · simp [*]; omega
      · simp [*]

/-- The bitmaps stay bounded along a run exactly when its calls are steady.

A window spans from the lowest counter it has accepted to the highest, and its bitmap is as
wide as that. A call is steady exactly if the span it leaves is short. -/
theorem bitmaps_bounded (log : ReplayLog) :
    (Reaches ReplayLog.call (fun before _ => before.Bounded) .start log ∧ log.Bounded) ↔
      Reaches ReplayLog.call ReplayLog.Steady .start log := by
  have empty : ReplayLog.start.Bounded := by
    intro windowKey window started
    cases started
  refine Reaches.within_iff ReplayLog.Bounded empty ?_
  intro before call after reached bounded stepped
  have spanned := ReplayLog.reached_spanned reached
  have short := spanned.bounded_iff.mp bounded
  rw [(spanned.step stepped).bounded_iff]
  have steady_iff : _ ↔ before.Steady call :=
    extend_short (by decide) (fun span => short call.windowKey span)
  constructor
  · intro steady windowKey span recorded
    rw [(ReplayLog.call_lookup stepped windowKey).2] at recorded
    split at recorded
    · obtain rfl := Option.some.inj recorded
      exact steady_iff.mpr steady
    · exact short windowKey span recorded
  · intro kept
    refine steady_iff.mp (kept call.windowKey _ ?_)
    rw [(ReplayLog.call_lookup stepped call.windowKey).2, if_pos rfl]

/-- Two steps up, each shorter than the window, leave a bitmap longer than it. -/
def climbingCalls : List ReplayCall :=
  [1, 100, 200].map (fun ctr => { senderId := "alice", keyId := 7, ctr })

/-- The bitmap is not bounded in every state that is reached. -/
theorem bitmap_outgrows :
    ¬ ∀ log, Reaches ReplayLog.call always .start log → log.Bounded := by
  intro bounded
  have climbed := bounded _ (walk_reaches_end ReplayLog.call always .start climbingCalls (by decide +kernel))
  have length := climbed ("alice", 7) { highest := 200, bitmap := 2 ^ 199 + 2 ^ 100 + 1 }
    (by decide +kernel)
  exact absurd length (by decide +kernel)

end Seameet.E2ee.Replay

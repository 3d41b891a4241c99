import Mathlib.Data.List.Basic
import ScriptedChat.Proofs.Delivery.Safety

/-!
# Every delivery ends

A receiver that stays takes everything that is put into the buffer.  Producer and
receiver take turns, and a turn that changes nothing is followed by one that
does; so the delivery comes to its end within the steps that it is given.

What is proved here:

* `Produced`, `produced_of_move`, `next?_cases` — all that a step on the clock
  can do;
* `Attended`, `Attended.step` — what holds as long as the receiver stays;
* `Run.workLeft`, `workLeft_lt` — the work that is left, which every step lowers;
* `finish_ends` — at the end everything is received and the producer is done;
* `received_of_done` — what the receiver then has.
-/

namespace ScriptedChat.Delivery

variable {schedule : Schedule} {frames : List Frame} {run next : Run}

/-! ## Steps on the clock -/

/-- What the producer does in its turn, in front of a receiver that stays. -/
inductive Produced (schedule : Schedule) (run : Run) : Run → Prop
  | finish (writing : run.state.producer = .writing) (written : run.state.pending = []) :
    Produced schedule run
      { run with state := { run.state with producer := afterReturn schedule.fault } }
  | write {frame : Frame} {pending : List Frame} (writing : run.state.producer = .writing)
    (more : run.state.pending = frame :: pending) (awake : run.wake ≤ run.now) :
    Produced schedule run
      { run with
        state := { run.state with
          pending
          written := run.state.written + 1
          buffer := run.state.buffer ++ [.text frame.encode] }
        wake := run.now + schedule.delay
        allowance := run.allowance - 1 }
  | expire (writing : run.state.producer = .writing) (more : run.state.pending ≠ [])
    (late : schedule.isOver run.now = true) :
    Produced schedule run { run with state := { run.state with producer := .cut } }
  | report {failure : Failure} (reporting : run.state.producer = .reporting failure) :
    Produced schedule run
      { run with
        state := { run.state with
          buffer := run.state.buffer ++ [.failure failure]
          producer := .failed failure } }

/-- The run after the move that the producer makes now, if it can make one. -/
def Run.produced? (schedule : Schedule) (run : Run) : Option Run :=
  (run.producerMove? schedule).bind (run.after schedule)

theorem after_eq_some {move : Move} (h : run.after schedule move = some next)
    (hmove : move ≠ .write) :
    ∃ state, run.state.apply schedule.terms move = some state ∧ next = { run with state } := by
  obtain ⟨state, happly, hnext⟩ := Option.map_eq_some_iff.1 h
  rw [if_neg hmove] at hnext
  exact ⟨state, happly, hnext.symm⟩

theorem produced_of_finish (h : run.after schedule .finish = some next) :
    Produced schedule run next := by
  obtain ⟨state, happly, rfl⟩ := after_eq_some h (by decide)
  obtain ⟨hwriting, hpending, rfl⟩ := apply_finish happly
  exact .finish hwriting hpending

theorem produced_of_write (hawake : run.wake ≤ run.now) (h : run.after schedule .write = some next) :
    Produced schedule run next := by
  obtain ⟨state, happly, hnext⟩ := Option.map_eq_some_iff.1 h
  rw [if_pos rfl] at hnext
  subst hnext
  obtain ⟨frame, pending, hwriting, hpending, -, -, rfl⟩ := apply_write happly
  exact .write hwriting hpending hawake

theorem produced_of_expire (hwriting : run.state.producer = .writing)
    (hmore : run.state.pending ≠ []) (hover : schedule.isOver run.now = true)
    (h : run.after schedule .expire = some next) : Produced schedule run next := by
  obtain ⟨state, happly, rfl⟩ := after_eq_some h (by decide)
  obtain rfl := apply_expire happly
  rw [hwriting]
  exact .expire hwriting hmore hover

theorem produced_of_report (hthere : run.state.listening = true)
    (h : run.after schedule .report = some next) : Produced schedule run next := by
  obtain ⟨state, happly, rfl⟩ := after_eq_some h (by decide)
  obtain ⟨failure, hreporting, ⟨hgone, -⟩ | ⟨-, -, rfl⟩⟩ := apply_report happly
  · rw [hthere] at hgone
    cases hgone
  · exact .report hreporting

theorem produced_of_move (hthere : run.state.listening = true)
    (h : run.produced? schedule = some next) : Produced schedule run next := by
  obtain ⟨move, hmove, hafter⟩ := Option.bind_eq_some_iff.1 h
  cases hproducer : run.state.producer with
  | writing =>
    simp only [Run.producerMove?, hproducer, hthere, Bool.not_true, Bool.false_eq_true,
      if_false] at hmove
    by_cases hempty : run.state.pending.isEmpty = true
    · rw [if_pos hempty] at hmove
      obtain rfl := Option.some.inj hmove
      exact produced_of_finish hafter
    · have hmore : run.state.pending ≠ [] := fun hnil => hempty (by rw [hnil]; rfl)
      rw [if_neg hempty] at hmove
      split at hmove
      · split at hmove
        · rename_i hover
          obtain rfl := Option.some.inj hmove
          exact produced_of_expire hproducer hmore hover hafter
        · cases hmove
      · rename_i hfree
        simp only [Bool.or_eq_true, decide_eq_true_eq, not_or] at hfree
        obtain rfl := Option.some.inj hmove
        exact produced_of_write (Nat.not_lt.1 hfree.1.1) hafter
  | reporting failure =>
    simp only [Run.producerMove?, hproducer] at hmove
    split at hmove
    · cases hmove
    · obtain rfl := Option.some.inj hmove
      exact produced_of_report hthere hafter
  | finished => simp [Run.producerMove?, hproducer] at hmove
  | failed failure => simp [Run.producerMove?, hproducer] at hmove
  | cut => simp [Run.producerMove?, hproducer] at hmove

/-- The run in which the receiver has ended its turn.  If the producer can do nothing at this time,
time passes. -/
def Run.resumed (schedule : Schedule) (run : Run) : Run :=
  { run with
    turn := .producer
    now := if (run.producerMove? schedule).isSome then run.now
      else max run.now (schedule.alarm run.wake) }

/-- A receiver that stays takes what waits, and ends its turn when nothing does. -/
theorem consume_of_there (hstays : schedule.limit = none) (hthere : run.state.listening = true) :
    run.consume schedule =
      if run.state.buffer.isEmpty then
        if run.state.producer.isDone then none else some (run.resumed schedule)
      else run.after schedule .receive := by
  have hsated : schedule.isSated run.state = false := by simp [Schedule.isSated, hstays]
  rw [Run.consume]
  simp only [hthere, hsated, Bool.not_true, Bool.false_eq_true, if_false]
  by_cases hempty : run.state.buffer.isEmpty = true
  · by_cases hable : (run.producerMove? schedule).isSome = true
    · simp [hempty, hable, Run.resumed]
    · simp [hempty, hable, Run.resumed]
  · simp [hempty]

/-- All that a step can do while the receiver stays: the producer makes a move or ends its turn, or
the receiver takes an item or ends its turn. -/
theorem next?_cases (hstays : schedule.limit = none) (hthere : run.state.listening = true)
    (h : run.next? schedule = some next) :
    (run.turn = .producer ∧ run.produced? schedule = some next) ∨
    (run.turn = .producer ∧ run.produced? schedule = none ∧
      next = { run with turn := .receiver, allowance := fullAllowance }) ∨
    (run.turn = .receiver ∧ ∃ item buffer, run.state.buffer = item :: buffer ∧
      next = { run with
        state := { run.state with buffer, received := run.state.received ++ [item] } }) ∨
    (run.turn = .receiver ∧ run.state.buffer = [] ∧ run.state.producer.isDone = false ∧
      next = run.resumed schedule) := by
  unfold Run.next? at h
  split at h
  · rename_i hturn
    have hproduce : (run.produced? schedule).getD
        { run with turn := .receiver, allowance := fullAllowance } = next := Option.some.inj h
    cases hproduced : run.produced? schedule with
    | some after =>
      rw [hproduced, Option.getD_some] at hproduce
      exact .inl ⟨hturn, congrArg some hproduce⟩
    | none =>
      rw [hproduced, Option.getD_none] at hproduce
      exact .inr (.inl ⟨hturn, rfl, hproduce.symm⟩)
  · rename_i hturn
    rw [consume_of_there hstays hthere] at h
    split at h
    · rename_i hempty
      split at h
      · cases h
      · rename_i hbusy
        exact .inr (.inr (.inr ⟨hturn, List.isEmpty_iff.1 hempty, Bool.eq_false_iff.2 hbusy,
          (Option.some.inj h).symm⟩))
    · obtain ⟨state, happly, rfl⟩ := after_eq_some h (by decide)
      obtain ⟨item, buffer, hbuffer, -, rfl⟩ := apply_receive happly
      exact .inr (.inr (.inl ⟨hturn, item, buffer, hbuffer, rfl⟩))

/-- A run that has come to its end: everything is received and the producer is done. -/
theorem next?_eq_none (hstays : schedule.limit = none) (hthere : run.state.listening = true)
    (h : run.next? schedule = none) :
    run.state.buffer = [] ∧ run.state.producer.isDone = true := by
  unfold Run.next? at h
  split at h
  · cases h
  · rw [consume_of_there hstays hthere] at h
    cases hbuffer : run.state.buffer with
    | nil =>
      rw [hbuffer, List.isEmpty_nil, if_pos rfl] at h
      split at h
      · rename_i hdone
        exact ⟨rfl, hdone⟩
      · cases h
    | cons item buffer =>
      simp [hbuffer, Run.after, State.apply, hthere] at h

/-! ## While the receiver stays -/

/-- The items after the last frame: the failure of the producer, unless it is the news that the
receiver has left. -/
def closing : Option Failure → List Item
  | none => []
  | some .cancelled => []
  | some failure => [.failure failure]

/-- What the producer has said about its failure. -/
def Producer.said : Producer → List Item
  | .failed failure => closing (some failure)
  | _ => []

/-- The producer has returned, whether or not it has told its failure. -/
def Producer.HasReturned (fault : Option Failure) (producer : Producer) : Prop :=
  producer = afterReturn fault ∨
    ∃ failure, afterReturn fault = .reporting failure ∧ producer = .failed failure

theorem said_afterReturn (fault : Option Failure) : (afterReturn fault).said = [] := by
  unfold afterReturn
  split
  · rfl
  · rfl
  · rfl

/-- A producer that is done after its return has said all that there is to say. -/
theorem said_of_returned {fault : Option Failure} {producer : Producer}
    (h : producer.HasReturned fault) (hdone : producer.isDone = true) :
    producer.said = closing fault := by
  rcases h with rfl | ⟨failure, hreporting, rfl⟩
  · rw [said_afterReturn]
    unfold afterReturn at hdone
    split at hdone
    · rfl
    · rfl
    · cases hdone
  · obtain ⟨rfl, -⟩ := eq_of_afterReturn hreporting
    rfl

/-- What holds of a delivery as long as the receiver stays. -/
structure Attended (schedule : Schedule) (frames : List Frame) (run : Run) : Prop where
  there : run.state.listening = true
  pending_eq : run.state.pending = frames.drop run.state.written
  /-- nothing is lost, and nothing comes twice -/
  carried : run.state.received ++ run.state.buffer =
    texts (frames.take run.state.written) ++ run.state.producer.said
  /-- only the deadline ends a producer that has frames left -/
  returned : run.state.producer = .writing ∨ run.state.producer = .cut ∨
    (run.state.pending = [] ∧ run.state.producer.HasReturned schedule.fault)
  /-- the producer begins each of its turns with its full allowance -/
  rested : run.turn = .receiver → run.allowance = fullAllowance

theorem attended_start (schedule : Schedule) (frames : List Frame) :
    Attended schedule frames (.start frames) where
  there := rfl
  pending_eq := rfl
  carried := rfl
  returned := .inl rfl
  rested := fun _ => rfl

/-- A producer that is about to tell its failure has returned with it. -/
theorem Attended.of_reporting (att : Attended schedule frames run) {failure : Failure}
    (h : run.state.producer = .reporting failure) :
    run.state.pending = [] ∧ afterReturn schedule.fault = .reporting failure := by
  rcases att.returned with hwriting | hcut | ⟨hpending, hfault | ⟨_, -, hfailed⟩⟩
  · cases h.symm.trans hwriting
  · cases h.symm.trans hcut
  · exact ⟨hpending, hfault.symm.trans h⟩
  · cases h.symm.trans hfailed

/-- The producer's moves keep what holds. -/
theorem Attended.produced (att : Attended schedule frames run) (hturn : run.turn = .producer)
    (h : Produced schedule run next) : Attended schedule frames next := by
  have hcarried := att.carried
  cases h with
  | finish writing written =>
    rw [writing] at hcarried
    refine ⟨att.there, att.pending_eq, ?_, .inr (.inr ⟨written, .inl rfl⟩), att.rested⟩
    exact hcarried.trans (congrArg _ (said_afterReturn _).symm)
  | @write frame pending writing more awake =>
    have hdrop : frames.drop run.state.written = frame :: pending := by
      rw [← att.pending_eq, more]
    refine ⟨att.there, ?_, ?_, .inl writing, by simp [hturn]⟩
    · show pending = frames.drop (run.state.written + 1)
      rw [← List.tail_drop, hdrop]
      rfl
    · show run.state.received ++ (run.state.buffer ++ [.text frame.encode]) =
        texts (frames.take (run.state.written + 1)) ++ run.state.producer.said
      rw [← List.append_assoc, hcarried, texts_take_succ hdrop, writing]
      simp [Producer.said]
  | expire writing more late =>
    rw [writing] at hcarried
    exact ⟨att.there, att.pending_eq, hcarried, .inr (.inl rfl), att.rested⟩
  | @report failure reporting =>
    obtain ⟨hpending, hfault⟩ := att.of_reporting reporting
    obtain ⟨-, hne⟩ := eq_of_afterReturn hfault
    rw [reporting] at hcarried
    refine ⟨att.there, att.pending_eq, ?_, .inr (.inr ⟨hpending, .inr ⟨failure, hfault, rfl⟩⟩),
      att.rested⟩
    have hclosing : closing (some failure) = [.failure failure] := by
      cases failure with
      | cancelled => exact absurd rfl hne
      | _ => rfl
    show run.state.received ++ (run.state.buffer ++ [.failure failure]) =
      texts (frames.take run.state.written) ++ closing (some failure)
    rw [hclosing, ← List.append_assoc, hcarried]
    simp [Producer.said]

/-- Every step keeps what holds. -/
theorem Attended.step (att : Attended schedule frames run) (hstays : schedule.limit = none)
    (h : run.next? schedule = some next) : Attended schedule frames next := by
  rcases next?_cases hstays att.there h with
    ⟨hturn, hproduced⟩ | ⟨-, -, rfl⟩ | ⟨hturn, item, buffer, hbuffer, rfl⟩ | ⟨-, -, -, rfl⟩
  · exact att.produced hturn (produced_of_move att.there hproduced)
  · exact ⟨att.there, att.pending_eq, att.carried, att.returned, fun _ => rfl⟩
  · refine ⟨att.there, att.pending_eq, ?_, att.returned, att.rested⟩
    rw [← att.carried, hbuffer]
    simp
  · exact ⟨att.there, att.pending_eq, att.carried, att.returned, nofun⟩

/-! ## The work that is left -/

/-- The moves that the producer has before it besides its frames. -/
def Producer.movesLeft : Producer → Nat
  | .writing => 2
  | .reporting _ => 1
  | _ => 0

/-- The work that is left.  A move of the producer makes at most one item for the receiver, and the
turn changes at most twice before the next move; a turn in which the producer can do nothing counts
for both changes. -/
def Run.workLeft (schedule : Schedule) (run : Run) : Nat :=
  4 * (run.state.pending.length + run.state.producer.movesLeft) + run.state.buffer.length +
    match run.turn with
    | .receiver => 1
    | .producer => if (run.produced? schedule).isSome then 0 else 2

theorem workLeft_le (schedule : Schedule) (run : Run) :
    run.workLeft schedule ≤
      4 * (run.state.pending.length + run.state.producer.movesLeft) + run.state.buffer.length + 2 := by
  unfold Run.workLeft
  split
  · omega
  · split
    · omega
    · omega

theorem movesLeft_afterReturn (fault : Option Failure) : (afterReturn fault).movesLeft ≤ 1 := by
  unfold afterReturn
  split
  · exact Nat.zero_le _
  · exact Nat.zero_le _
  · exact Nat.le_refl _

/-- A move of the producer uses up a frame or one of its further moves. -/
theorem workLeft_produced (h : Produced schedule run next) :
    next.workLeft schedule <
      4 * (run.state.pending.length + run.state.producer.movesLeft) + run.state.buffer.length := by
  refine Nat.lt_of_le_of_lt (workLeft_le schedule next) ?_
  cases h with
  | finish writing written =>
    have hmoves := movesLeft_afterReturn schedule.fault
    have hwriting : run.state.producer.movesLeft = 2 := by rw [writing]; rfl
    show 4 * (run.state.pending.length + (afterReturn schedule.fault).movesLeft) +
      run.state.buffer.length + 2 < _
    omega
  | write writing more awake =>
    rw [more]
    simp only [List.length_append, List.length_cons, List.length_nil]
    omega
  | expire writing more late =>
    rw [writing]
    simp only [Producer.movesLeft]
    omega
  | report reporting =>
    rw [reporting]
    simp only [Producer.movesLeft, List.length_append, List.length_cons, List.length_nil]
    omega

section

variable (hthere : run.state.listening = true) (hbuffer : run.state.buffer = [])
  (hrested : run.allowance = fullAllowance)
include hthere hbuffer hrested

/-- A producer that has to tell a failure can do so as soon as the buffer is empty. -/
theorem produced?_of_reporting {failure : Failure}
    (hreporting : run.state.producer = .reporting failure) :
    (run.produced? schedule).isSome = true := by
  have hroom : 0 < max schedule.capacity 1 := by omega
  have hallowance : run.allowance ≠ 0 := by rw [hrested]; decide
  simp [Run.produced?, Run.producerMove?, Run.after, State.apply, Schedule.terms, hreporting,
    hallowance, hthere, hbuffer, hroom]

/-- A producer that writes is ready to do so when it has slept enough; at the deadline it is ended. -/
theorem produced?_of_awake {frame : Frame} {pending : List Frame}
    (hwriting : run.state.producer = .writing) (hpending : run.state.pending = frame :: pending)
    (h : run.wake ≤ run.now ∨ schedule.isOver run.now = true) :
    (run.produced? schedule).isSome = true := by
  have hroom : 0 < max schedule.capacity 1 := by omega
  have hallowance : run.allowance ≠ 0 := by rw [hrested]; decide
  by_cases hawake : run.wake ≤ run.now
  · have hmove : run.producerMove? schedule = some .write := by
      simp [Run.producerMove?, hwriting, hpending, hthere, hbuffer, hallowance, hawake]
    simp [Run.produced?, hmove, Run.after, State.apply, Schedule.terms, hwriting, hpending, hthere,
      hbuffer, hroom]
  · have hover := h.resolve_left hawake
    have hmove : run.producerMove? schedule = some .expire := by
      simp [Run.producerMove?, hwriting, hpending, hthere, hover, Nat.not_le.1 hawake]
    have hdeadline : schedule.deadline.isSome = true := by
      cases hnone : schedule.deadline with
      | none => simp [Schedule.isOver, hnone] at hover
      | some deadline => rfl
    simp [Run.produced?, hmove, Run.after, State.apply, Schedule.terms, hdeadline]

end

theorem isOver_iff {now : Nat} :
    schedule.isOver now = true ↔ ∃ deadline, schedule.deadline = some deadline ∧ deadline ≤ now := by
  simp [Schedule.isOver, Option.any_eq_true]

/-- After the time that passes the producer has slept enough, or the deadline has come. -/
theorem awake_of_alarm (schedule : Schedule) (now wake : Nat) :
    wake ≤ max now (schedule.alarm wake) ∨
      schedule.isOver (max now (schedule.alarm wake)) = true := by
  cases hdeadline : schedule.deadline with
  | none =>
    left
    rw [Schedule.alarm, hdeadline]
    exact Nat.le_max_right now wake
  | some deadline =>
    rw [Schedule.alarm, hdeadline]
    show wake ≤ max now (min wake deadline) ∨ schedule.isOver (max now (min wake deadline)) = true
    by_cases hle : wake ≤ deadline
    · left
      omega
    · right
      exact isOver_iff.2 ⟨deadline, hdeadline, by omega⟩

/-- When the receiver has taken everything and has ended its turn, the producer can make a move. -/
theorem produced?_resumed (hthere : run.state.listening = true) (hbuffer : run.state.buffer = [])
    (hbusy : run.state.producer.isDone = false) (hrested : run.allowance = fullAllowance) :
    ((run.resumed schedule).produced? schedule).isSome = true := by
  have hresumed : (run.resumed schedule).state.listening = true := hthere
  cases hproducer : run.state.producer with
  | writing =>
    cases hpending : run.state.pending with
    | nil =>
      simp [Run.produced?, Run.producerMove?, Run.after, State.apply, Run.resumed, hproducer, hpending]
    | cons frame pending =>
      refine produced?_of_awake hresumed hbuffer hrested hproducer hpending ?_
      by_cases hable : (run.producerMove? schedule).isSome = true
      · -- no time passes, since there is something to do already
        have hnow : (run.resumed schedule).now = run.now := if_pos hable
        rw [hnow]
        by_contra hnot
        obtain ⟨hawake, hearly⟩ := not_or.1 hnot
        have hasleep : run.now < run.wake := Nat.not_le.1 hawake
        have hnone : run.producerMove? schedule = none := by
          simp [Run.producerMove?, hproducer, hpending, hthere, hasleep,
            Bool.eq_false_iff.2 hearly]
        rw [hnone] at hable
        cases hable
      · have hnow : (run.resumed schedule).now = max run.now (schedule.alarm run.wake) :=
          if_neg hable
        rw [hnow]
        exact awake_of_alarm schedule run.now run.wake
  | reporting failure =>
    exact produced?_of_reporting hresumed hbuffer hrested hproducer
  | finished => simp [hproducer, Producer.isDone] at hbusy
  | failed failure => simp [hproducer, Producer.isDone] at hbusy
  | cut => simp [hproducer, Producer.isDone] at hbusy

/-- **Every step lowers the work that is left.** -/
theorem workLeft_lt (att : Attended schedule frames run) (hstays : schedule.limit = none)
    (h : run.next? schedule = some next) : next.workLeft schedule < run.workLeft schedule := by
  rcases next?_cases hstays att.there h with
    ⟨hturn, hproduced⟩ | ⟨hturn, hstuck, rfl⟩ | ⟨hturn, item, buffer, hbuffer, rfl⟩ |
      ⟨hturn, hbuffer, hbusy, rfl⟩
  · refine Nat.lt_of_lt_of_le (workLeft_produced (produced_of_move att.there hproduced)) ?_
    simp [Run.workLeft]
  · simp [Run.workLeft, hturn, hstuck]
  · simp [Run.workLeft, hturn, hbuffer]
  · have hable : ((run.resumed schedule).produced? schedule).isSome = true :=
      produced?_resumed att.there hbuffer hbusy (att.rested hturn)
    simp only [Run.workLeft, hable, hturn]
    simp [Run.resumed]

/-! ## The end -/

/-- An invariant of the steps holds at the end of enough of them, and nothing is left to do. -/
theorem finish_ends {P : Run → Prop} (hstays : schedule.limit = none)
    (hstep : ∀ run next, P run → Attended schedule frames run → run.next? schedule = some next →
      P next)
    (steps : Nat) (hrun : P run) (att : Attended schedule frames run)
    (hsteps : run.workLeft schedule ≤ steps) :
    P (run.finish schedule steps) ∧ Attended schedule frames (run.finish schedule steps) ∧
      (run.finish schedule steps).state.buffer = [] ∧
      (run.finish schedule steps).state.producer.isDone = true := by
  induction steps generalizing run with
  | zero =>
    cases hnext : run.next? schedule with
    | none => exact ⟨hrun, att, next?_eq_none hstays att.there hnext⟩
    | some next =>
      have hlt := workLeft_lt att hstays hnext
      omega
  | succ steps ih =>
    rw [Run.finish]
    cases hnext : run.next? schedule with
    | none => exact ⟨hrun, att, next?_eq_none hstays att.there hnext⟩
    | some next =>
      have hlt := workLeft_lt att hstays hnext
      exact ih (hstep run next hrun att hnext) (att.step hstays hnext) (by omega)

/-- The steps that a delivery is given are enough. -/
theorem workLeft_start (schedule : Schedule) (frames : List Frame) :
    (Run.start frames).workLeft schedule ≤ stepsFor frames := by
  show 4 * (frames.length + 2) + 0 + 1 ≤ 6 * (frames.length + 4)
  omega

/-- What the receiver has at the end, if the deadline did not cut the producer off. -/
theorem Attended.received_of_done (att : Attended schedule frames run)
    (hbuffer : run.state.buffer = []) (hdone : run.state.producer.isDone = true)
    (hcut : run.state.producer ≠ .cut) :
    run.state.received = texts frames ++ closing schedule.fault := by
  have hcarried := att.carried
  rw [hbuffer, List.append_nil] at hcarried
  rcases att.returned with hwriting | hother | ⟨hpending, hreturned⟩
  · rw [hwriting] at hdone
    cases hdone
  · exact absurd hother hcut
  · rw [att.pending_eq, List.drop_eq_nil_iff] at hpending
    rw [hcarried, List.take_of_length_le hpending, said_of_returned hreturned hdone]

end ScriptedChat.Delivery

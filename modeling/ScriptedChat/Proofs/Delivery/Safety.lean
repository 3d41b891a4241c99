import Mathlib.Data.List.Basic
import ScriptedChat.Delivery

/-!
# Safety of a delivery

Producer, receiver and deadline take their moves in any order.  Whatever the
order, the receiver sees the frames from the first one on, each once and none
left out, and a failure only after the last of them.

What is proved here:

* `apply_write` to `apply_leave` — all that each move can do, with its guard;
* `Reached` — the states that a delivery can come to, with the moves that led
  there and everything that was ever put into the buffer;
* `Inv`, `Inv.step`, `inv_of_reached` — the invariant, kept by every move and
  hence true of every state;
* `reachable_deliver`, `received_deliver` — the delivery on the clock takes one
  of these orders;
* `received_in_order` — what the receiver has and what waits for it, in every
  state.
-/

namespace ScriptedChat.Delivery

variable {terms : Terms} {frames : List Frame} {moves : List Move} {sent : List Item}
  {state next : State}

/-! ## What a move does -/

theorem apply_write (h : state.apply terms .write = some next) :
    ∃ frame pending, state.producer = .writing ∧ state.pending = frame :: pending ∧
      state.listening = true ∧ state.buffer.length < terms.capacity ∧
      next = { state with pending, written := state.written + 1,
                          buffer := state.buffer ++ [.text frame.encode] } := by
  rw [State.apply] at h
  split at h
  · rename_i frame pending hproducer hpending
    split at h
    · rename_i hguard
      simp only [Bool.and_eq_true, decide_eq_true_eq] at hguard
      exact ⟨frame, pending, hproducer, hpending, hguard.1, hguard.2, (Option.some.inj h).symm⟩
    · cases h
  · cases h

theorem apply_refuse (h : state.apply terms .refuse = some next) :
    state.producer = .writing ∧ state.listening = false ∧
      next = { state with producer := afterReturn terms.refusal } := by
  rw [State.apply] at h
  split at h
  · rename_i hguard
    simp only [Bool.and_eq_true, decide_eq_true_eq, Bool.not_eq_true'] at hguard
    exact ⟨hguard.1.1, hguard.2, (Option.some.inj h).symm⟩
  · cases h

theorem apply_finish (h : state.apply terms .finish = some next) :
    state.producer = .writing ∧ state.pending = [] ∧
      next = { state with producer := afterReturn terms.fault } := by
  rw [State.apply] at h
  split at h
  · rename_i hguard
    simp only [Bool.and_eq_true, decide_eq_true_eq, List.isEmpty_iff] at hguard
    exact ⟨hguard.1, hguard.2, (Option.some.inj h).symm⟩
  · cases h

/-- A failure reaches the buffer only while the receiver is there. -/
theorem apply_report (h : state.apply terms .report = some next) :
    ∃ failure, state.producer = .reporting failure ∧
      ((state.listening = false ∧ next = { state with producer := .failed failure }) ∨
       (state.listening = true ∧ state.buffer.length < terms.capacity ∧
        next = { state with buffer := state.buffer ++ [.failure failure],
                            producer := .failed failure })) := by
  rw [State.apply] at h
  split at h
  · rename_i failure hproducer
    refine ⟨failure, hproducer, ?_⟩
    split at h
    · rename_i hgone
      exact Or.inl ⟨by simpa using hgone, (Option.some.inj h).symm⟩
    · rename_i hthere
      split at h
      · rename_i hroom
        exact Or.inr ⟨by simpa using hthere, hroom, (Option.some.inj h).symm⟩
      · cases h
  · cases h

theorem apply_expire (h : state.apply terms .expire = some next) :
    next = { state with producer := state.producer.afterDeadline } := by
  rw [State.apply] at h
  split at h
  · exact (Option.some.inj h).symm
  · cases h

theorem apply_receive (h : state.apply terms .receive = some next) :
    ∃ item buffer, state.buffer = item :: buffer ∧ state.listening = true ∧
      next = { state with buffer, received := state.received ++ [item] } := by
  rw [State.apply] at h
  split at h
  · rename_i item buffer hbuffer
    split at h
    · rename_i hthere
      exact ⟨item, buffer, hbuffer, hthere, (Option.some.inj h).symm⟩
    · cases h
  · cases h

theorem apply_leave (h : state.apply terms .leave = some next) :
    state.listening = true ∧ next = { state with buffer := [], listening := false } := by
  rw [State.apply] at h
  split at h
  · rename_i hthere
    exact ⟨hthere, (Option.some.inj h).symm⟩
  · cases h

/-- Once the receiver has left, nothing is put into the buffer and no frame is
counted as written. -/
theorem apply_of_gone {move : Move} (hgone : state.listening = false)
    (h : state.apply terms move = some next) :
    next.buffer = state.buffer ∧ next.written = state.written ∧ next.listening = false := by
  cases move with
  | write =>
    obtain ⟨_, _, -, -, hthere, -⟩ := apply_write h
    simp [hgone] at hthere
  | refuse =>
    obtain ⟨-, -, rfl⟩ := apply_refuse h
    exact ⟨rfl, rfl, hgone⟩
  | finish =>
    obtain ⟨-, -, rfl⟩ := apply_finish h
    exact ⟨rfl, rfl, hgone⟩
  | report =>
    obtain ⟨_, -, ⟨-, rfl⟩ | ⟨hthere, -⟩⟩ := apply_report h
    · exact ⟨rfl, rfl, hgone⟩
    · simp [hgone] at hthere
  | expire =>
    obtain rfl := apply_expire h
    exact ⟨rfl, rfl, hgone⟩
  | receive =>
    obtain ⟨_, _, -, hthere, -⟩ := apply_receive h
    simp [hgone] at hthere
  | leave =>
    obtain ⟨hthere, -⟩ := apply_leave h
    simp [hgone] at hthere

/-! ## Reachable states -/

/-- The states that a delivery of frames can come to, with the moves that led
there and with all items that were ever put into the buffer: those by which it
grew in one move or another. -/
inductive Reached (terms : Terms) (frames : List Frame) :
    List Move → List Item → State → Prop
  | start : Reached terms frames [] [] (.start frames)
  | step {moves : List Move} {sent : List Item} {state next : State}
      (h : Reached terms frames moves sent state) (move : Move) :
      state.apply terms move = some next →
        Reached terms frames (moves ++ [move])
          (sent ++ next.buffer.drop state.buffer.length) next

/-! ## The invariant -/

/-- The items that frames become. -/
def texts (frames : List Frame) : List Item :=
  frames.map fun frame => .text frame.encode

/-- The producer has written its last frame and then failed, before any
deadline, for a reason that the receiver is told. -/
def FailedInTime (terms : Terms) (moves : List Move) (failure : Failure) : Prop :=
  terms.fault = some failure ∧ failure ≠ .cancelled ∧
    ∃ before after, moves = before ++ .finish :: after ∧ .expire ∉ before

theorem FailedInTime.append {failure : Failure} (h : FailedInTime terms moves failure)
    (move : Move) : FailedInTime terms (moves ++ [move]) failure := by
  obtain ⟨hfault, hne, before, after, rfl, hbefore⟩ := h
  exact ⟨hfault, hne, before, after ++ [move], by simp, hbefore⟩

/-- All that was put into the buffer: the frames that are written, and at most
one failure after the last of them. -/
def Accounts (terms : Terms) (frames : List Frame) (moves : List Move) (sent : List Item)
    (state : State) : Prop :=
  sent = texts (frames.take state.written) ∨
    ∃ failure, state.producer = .failed failure ∧ state.pending = [] ∧
      FailedInTime terms moves failure ∧
      sent = texts (frames.take state.written) ++ [.failure failure]

theorem Accounts.append (h : Accounts terms frames moves sent state) (move : Move) :
    Accounts terms frames (moves ++ [move]) sent state := by
  rcases h with hsent | ⟨failure, hproducer, hpending, hfailed, hsent⟩
  · exact Or.inl hsent
  · exact Or.inr ⟨failure, hproducer, hpending, hfailed.append move, hsent⟩

/-- What holds at every moment of a delivery. -/
structure Inv (terms : Terms) (frames : List Frame) (moves : List Move) (sent : List Item)
    (state : State) : Prop where
  written_le : state.written ≤ frames.length
  pending_eq : state.pending = frames.drop state.written
  accounts : Accounts terms frames moves sent state
  /-- a producer that is still writing has not met the deadline -/
  writing : state.producer = .writing → .expire ∉ moves
  /-- a failure that is going to reach the receiver -/
  reporting : ∀ failure, state.producer = .reporting failure → state.listening = true →
    state.pending = [] ∧ FailedInTime terms moves failure
  /-- nothing is lost while the receiver is there -/
  there : state.listening = true → state.received ++ state.buffer = sent
  gone : state.listening = false → state.buffer = [] ∧ state.received <+: sent
  bounded : state.buffer.length ≤ terms.capacity

theorem inv_start (terms : Terms) (frames : List Frame) :
    Inv terms frames [] [] (.start frames) where
  written_le := Nat.zero_le _
  pending_eq := rfl
  accounts := Or.inl rfl
  writing := by simp
  reporting := by simp [State.start]
  there := fun _ => rfl
  gone := by simp [State.start]
  bounded := Nat.zero_le _

/-- Who writes has put nothing but frames into the buffer. -/
theorem Inv.sent_of_not_failed (inv : Inv terms frames moves sent state)
    (h : ∀ failure, state.producer ≠ .failed failure) :
    sent = texts (frames.take state.written) := by
  rcases inv.accounts with hsent | ⟨failure, hfailed, -⟩
  · exact hsent
  · exact absurd hfailed (h failure)

/-! ### One lemma a move -/

theorem texts_take_succ {n : Nat} {frame : Frame} {pending : List Frame}
    (h : frames.drop n = frame :: pending) :
    texts (frames.take (n + 1)) = texts (frames.take n) ++ [.text frame.encode] := by
  have hget : frames[n]? = some frame := by rw [← List.head?_drop, h]; rfl
  rw [List.take_add_one, hget, texts, List.map_append]
  rfl

theorem Inv.write (inv : Inv terms frames moves sent state)
    (h : state.apply terms .write = some next) :
    Inv terms frames (moves ++ [.write]) (sent ++ next.buffer.drop state.buffer.length) next := by
  obtain ⟨frame, pending, hwriting, hpending, hthere, hroom, rfl⟩ := apply_write h
  have hdrop : frames.drop state.written = frame :: pending := by rw [← inv.pending_eq, hpending]
  have hsent := inv.sent_of_not_failed (by simp [hwriting])
  have hlt : state.written < frames.length := by
    have hlength := congrArg List.length hdrop
    simp only [List.length_drop, List.length_cons] at hlength
    omega
  simp only [List.drop_left]
  refine ⟨hlt, ?_, Or.inl ?_, ?_, ?_, ?_, ?_, ?_⟩
  · rw [← List.tail_drop, hdrop]
    rfl
  · rw [texts_take_succ hdrop, hsent]
  · intro hproducer
    simpa using inv.writing hproducer
  · simp [hwriting]
  · intro _
    simp only [← List.append_assoc, inv.there hthere]
  · simp [hthere]
  · simp only [List.length_append, List.length_singleton]
    omega

theorem afterReturn_ne_writing (failure : Option Failure) : afterReturn failure ≠ .writing := by
  unfold afterReturn
  split <;> simp

theorem eq_of_afterReturn {result : Option Failure} {failure : Failure}
    (h : afterReturn result = .reporting failure) :
    result = some failure ∧ failure ≠ .cancelled := by
  unfold afterReturn at h
  split at h
  · cases h
  · cases h
  · rename_i failure' hne
    cases h
    exact ⟨rfl, hne⟩

theorem Inv.refuse (inv : Inv terms frames moves sent state)
    (h : state.apply terms .refuse = some next) :
    Inv terms frames (moves ++ [.refuse]) (sent ++ next.buffer.drop state.buffer.length) next := by
  obtain ⟨hwriting, hgone, rfl⟩ := apply_refuse h
  have hsent := inv.sent_of_not_failed (by simp [hwriting])
  simp only [List.drop_length, List.append_nil]
  refine ⟨inv.written_le, inv.pending_eq, Or.inl hsent, ?_, ?_, inv.there, inv.gone, inv.bounded⟩
  · exact fun hproducer => absurd hproducer (afterReturn_ne_writing _)
  · -- what the producer returns now is told to nobody
    simp [hgone]

theorem Inv.finish (inv : Inv terms frames moves sent state)
    (h : state.apply terms .finish = some next) :
    Inv terms frames (moves ++ [.finish]) (sent ++ next.buffer.drop state.buffer.length) next := by
  obtain ⟨hwriting, hpending, rfl⟩ := apply_finish h
  have hsent := inv.sent_of_not_failed (by simp [hwriting])
  simp only [List.drop_length, List.append_nil]
  refine ⟨inv.written_le, inv.pending_eq, Or.inl hsent, ?_, ?_, inv.there, inv.gone, inv.bounded⟩
  · exact fun hproducer => absurd hproducer (afterReturn_ne_writing _)
  · intro failure hreporting _
    obtain ⟨hfault, hne⟩ := eq_of_afterReturn hreporting
    exact ⟨hpending, hfault, hne, moves, [], rfl, inv.writing hwriting⟩

theorem Inv.report (inv : Inv terms frames moves sent state)
    (h : state.apply terms .report = some next) :
    Inv terms frames (moves ++ [.report]) (sent ++ next.buffer.drop state.buffer.length) next := by
  obtain ⟨failure, hreporting, ⟨hgone, rfl⟩ | ⟨hthere, hroom, rfl⟩⟩ := apply_report h
  · have hsent := inv.sent_of_not_failed (by simp [hreporting])
    simp only [List.drop_length, List.append_nil]
    exact ⟨inv.written_le, inv.pending_eq, Or.inl hsent, by simp, by simp, inv.there, inv.gone,
      inv.bounded⟩
  · have hsent := inv.sent_of_not_failed (by simp [hreporting])
    obtain ⟨hpending, hfailed⟩ := inv.reporting failure hreporting hthere
    simp only [List.drop_left]
    refine ⟨inv.written_le, inv.pending_eq, Or.inr ⟨failure, rfl, hpending, hfailed.append _, ?_⟩,
      by simp, by simp, ?_, by simp [hthere], ?_⟩
    · rw [hsent]
    · intro _
      simp only [← List.append_assoc, inv.there hthere]
    · simp only [List.length_append, List.length_singleton]
      omega

theorem Inv.expire (inv : Inv terms frames moves sent state)
    (h : state.apply terms .expire = some next) :
    Inv terms frames (moves ++ [.expire]) (sent ++ next.buffer.drop state.buffer.length) next := by
  obtain rfl := apply_expire h
  simp only [List.drop_length, List.append_nil]
  refine ⟨inv.written_le, inv.pending_eq, ?_, ?_, ?_, inv.there, inv.gone, inv.bounded⟩
  · rcases inv.accounts.append .expire with hsent | ⟨failure, hproducer, hrest⟩
    · exact Or.inl hsent
    · exact Or.inr ⟨failure, by rw [hproducer]; rfl, hrest⟩
  · intro hproducer
    cases hstate : state.producer <;> simp [hstate, Producer.afterDeadline] at hproducer
  · intro failure hreporting hthere
    cases hstate : state.producer <;> simp [hstate, Producer.afterDeadline] at hreporting
    subst hreporting
    obtain ⟨hpending, hfailed⟩ := inv.reporting _ hstate hthere
    exact ⟨hpending, hfailed.append _⟩

theorem Inv.receive (inv : Inv terms frames moves sent state)
    (h : state.apply terms .receive = some next) :
    Inv terms frames (moves ++ [.receive]) (sent ++ next.buffer.drop state.buffer.length)
      next := by
  obtain ⟨item, buffer, hbuffer, hthere, rfl⟩ := apply_receive h
  have hput : buffer.drop state.buffer.length = [] := by
    rw [List.drop_eq_nil_iff, hbuffer]
    simp
  simp only [hput, List.append_nil]
  refine ⟨inv.written_le, inv.pending_eq, inv.accounts.append .receive, ?_, ?_, ?_, ?_, ?_⟩
  · intro hwriting
    simpa using inv.writing hwriting
  · intro failure hreporting _
    obtain ⟨hpending, hfailed⟩ := inv.reporting failure hreporting hthere
    exact ⟨hpending, hfailed.append _⟩
  · intro _
    rw [← inv.there hthere, hbuffer]
    simp
  · simp [hthere]
  · have hbounded := inv.bounded
    rw [hbuffer, List.length_cons] at hbounded
    exact Nat.le_of_succ_le hbounded

theorem Inv.leave (inv : Inv terms frames moves sent state)
    (h : state.apply terms .leave = some next) :
    Inv terms frames (moves ++ [.leave]) (sent ++ next.buffer.drop state.buffer.length) next := by
  obtain ⟨hthere, rfl⟩ := apply_leave h
  simp only [List.drop_nil, List.append_nil]
  refine ⟨inv.written_le, inv.pending_eq, inv.accounts.append .leave, ?_, ?_, ?_, ?_,
    Nat.zero_le _⟩
  · intro hwriting
    simpa using inv.writing hwriting
  · simp
  · simp
  · -- what was received stays the beginning of what was sent; the buffer is lost
    intro _
    exact ⟨rfl, state.buffer, inv.there hthere⟩

/-- Every move keeps the invariant. -/
theorem Inv.step {move : Move} (inv : Inv terms frames moves sent state)
    (h : state.apply terms move = some next) :
    Inv terms frames (moves ++ [move]) (sent ++ next.buffer.drop state.buffer.length) next := by
  cases move with
  | write => exact inv.write h
  | refuse => exact inv.refuse h
  | finish => exact inv.finish h
  | report => exact inv.report h
  | expire => exact inv.expire h
  | receive => exact inv.receive h
  | leave => exact inv.leave h

/-- The invariant holds in every state that a delivery can come to. -/
theorem inv_of_reached (h : Reached terms frames moves sent state) :
    Inv terms frames moves sent state := by
  induction h with
  | start => exact inv_start terms frames
  | step _ _ happly ih => exact ih.step happly

/-! ## What the receiver sees -/

def Item.isText : Item → Bool
  | .text _ => true
  | .failure _ => false

@[simp] theorem length_texts (frames : List Frame) : (texts frames).length = frames.length := by
  simp [texts]

@[simp] theorem countP_texts (frames : List Frame) :
    (texts frames).countP Item.isText = frames.length := by
  rw [texts, List.countP_map, List.countP_eq_length.2]
  exact fun _ _ => rfl

/-- The beginnings of a list of items from frames come from the beginnings of
the list of frames. -/
theorem exists_take_of_prefix {received : List Item} {n : Nat}
    (h : received <+: texts (frames.take n)) (hn : n ≤ frames.length) :
    ∃ k ≤ frames.length, received = texts (frames.take k) := by
  refine ⟨min received.length n, by omega, ?_⟩
  rw [List.prefix_iff_eq_take.1 h, texts, ← List.map_take, List.take_take]
  simp [texts]

/-- Everything that was put into the buffer is counted as written, except for a
failure. -/
theorem Inv.written_eq (inv : Inv terms frames moves sent state) :
    state.written = sent.countP Item.isText := by
  have hlength : (frames.take state.written).length = state.written :=
    List.length_take_of_le inv.written_le
  rcases inv.accounts with hsent | ⟨failure, -, -, -, hsent⟩
  · rw [hsent, countP_texts, hlength]
  · rw [hsent, List.countP_append, countP_texts, hlength]
    rfl

/-- The last frame is written when none is left. -/
theorem Inv.written_of_pending (inv : Inv terms frames moves sent state)
    (h : state.pending = []) : state.written = frames.length := by
  have hdrop := inv.pending_eq
  rw [h, eq_comm, List.drop_eq_nil_iff] at hdrop
  exact Nat.le_antisymm inv.written_le hdrop

/-- What the receiver has and what waits for it is a beginning of what was put
into the buffer. -/
theorem Inv.prefix_sent (inv : Inv terms frames moves sent state) :
    state.received ++ state.buffer <+: sent := by
  cases hlistening : state.listening with
  | true => exact (inv.there hlistening).symm ▸ List.prefix_rfl
  | false =>
    obtain ⟨hbuffer, hprefix⟩ := inv.gone hlistening
    rwa [hbuffer, List.append_nil]

/-- The frames that the receiver has or will have, and the failure after them. -/
theorem Inv.shape (inv : Inv terms frames moves sent state) :
    ∃ k ≤ frames.length, ∃ last : Option Failure,
      state.received ++ state.buffer =
        texts (frames.take k) ++ (last.map Item.failure).toList ∧
      (state.listening = true → k = state.written) ∧
      ∀ failure, last = some failure →
        k = frames.length ∧ state.written = frames.length ∧
          FailedInTime terms moves failure := by
  rcases inv.accounts with hsent | ⟨failure, -, hpending, hfailed, hsent⟩
  · cases hlistening : state.listening with
    | true =>
      refine ⟨state.written, inv.written_le, none, ?_, fun _ => rfl, by simp⟩
      rw [inv.there hlistening, hsent]
      simp
    | false =>
      obtain ⟨k, hk, hreceived⟩ :=
        exists_take_of_prefix (hsent ▸ inv.prefix_sent) inv.written_le
      exact ⟨k, hk, none, by simpa using hreceived, by simp, by simp⟩
  · have hwritten := inv.written_of_pending hpending
    have hprefix := inv.prefix_sent
    rw [hsent, List.prefix_concat_iff] at hprefix
    rcases hprefix with hall | hprefix
    · refine ⟨frames.length, Nat.le_refl _, some failure, ?_, fun _ => hwritten.symm, ?_⟩
      · rw [hall, hwritten]
        rfl
      · intro failure' heq
        cases heq
        exact ⟨rfl, hwritten, hfailed⟩
    · obtain ⟨k, hk, hreceived⟩ := exists_take_of_prefix hprefix inv.written_le
      refine ⟨k, hk, none, by simpa using hreceived, ?_, by simp⟩
      -- a receiver that is still there cannot miss the failure
      intro hthere
      have hlength := congrArg List.length (inv.there hthere)
      rw [hreceived, hsent, length_texts, List.length_append, length_texts, List.length_take,
        List.length_take, List.length_singleton] at hlength
      omega

/-! ## The delivery on the clock -/

/-- A state to which some moves lead. -/
def Reachable (terms : Terms) (frames : List Frame) (state : State) : Prop :=
  ∃ moves sent, Reached terms frames moves sent state

theorem Reachable.after {schedule : Schedule} {run next : Run} {move : Move}
    (h : Reachable schedule.terms frames run.state)
    (hnext : run.after schedule move = some next) :
    Reachable schedule.terms frames next.state := by
  obtain ⟨moves, sent, hreached⟩ := h
  obtain ⟨state, happly, rfl⟩ := Option.map_eq_some_iff.1 hnext
  have hstep := hreached.step _ happly
  split
  · exact ⟨_, _, hstep⟩
  · exact ⟨_, _, hstep⟩

theorem Reachable.produce {schedule : Schedule} {run : Run}
    (h : Reachable schedule.terms frames run.state) :
    Reachable schedule.terms frames (run.produce schedule).state := by
  rw [Run.produce]
  cases hmove : (run.producerMove? schedule).bind (run.after schedule) with
  | none => exact h
  | some next =>
    obtain ⟨move, -, hafter⟩ := Option.bind_eq_some_iff.1 hmove
    exact h.after hafter

theorem Reachable.consume {schedule : Schedule} {run next : Run}
    (h : Reachable schedule.terms frames run.state)
    (hnext : run.consume schedule = some next) :
    Reachable schedule.terms frames next.state := by
  rw [Run.consume] at hnext
  split at hnext
  · exact h.after hnext
  · -- time passes or the turn changes, and nothing moves
    split at hnext
    · cases hnext
    · split at hnext
      · cases hnext
        exact h
      · cases hnext
        exact h

theorem Reachable.finish {schedule : Schedule} (steps : Nat) {run : Run}
    (h : Reachable schedule.terms frames run.state) :
    Reachable schedule.terms frames (run.finish schedule steps).state := by
  induction steps generalizing run with
  | zero => exact h
  | succ steps ih =>
    rw [Run.finish]
    split
    · rename_i next hnext
      refine ih ?_
      rw [Run.next?] at hnext
      split at hnext
      · cases hnext
        exact h.produce
      · exact h.consume hnext
    · exact h

/-- A delivery on the clock takes some order of the moves and no others. -/
theorem reachable_deliver (schedule : Schedule) (frames : List Frame) :
    Reachable schedule.terms frames (deliver schedule frames) :=
  Reachable.finish _ ⟨[], [], .start⟩

/-- So whatever the pauses and the deadline are, the receiver of a delivery gets
the frames from the first one on, and a failure only after the last of them. -/
theorem received_deliver (schedule : Schedule) (frames : List Frame) :
    ∃ k ≤ frames.length, ∃ last : Option Failure,
      (deliver schedule frames).received ++ (deliver schedule frames).buffer =
        texts (frames.take k) ++ (last.map Item.failure).toList ∧
      ∀ failure, last = some failure →
        k = frames.length ∧ schedule.fault = some failure ∧ failure ≠ .cancelled := by
  obtain ⟨moves, sent, hreached⟩ := reachable_deliver schedule frames
  obtain ⟨k, hk, last, hshape, -, hlast⟩ := (inv_of_reached hreached).shape
  refine ⟨k, hk, last, hshape, ?_⟩
  intro failure heq
  obtain ⟨hall, -, hfault, hne, -⟩ := hlast failure heq
  exact ⟨hall, hfault, hne⟩

/-! ## Main result -/

/-- **Safety of a delivery under every order of moves.**  What the receiver has,
followed by what waits for it, are the texts of the first `k` frames, in order,
each once and none left out, and then at most one failure.  A failure is there
only after all frames, and only the one that the producer returned before any
deadline, other than the news that the receiver has left.  The buffer never holds
more than it may, the producer counts exactly the frames that were ever put into
it, and once the receiver has left nothing more is put there. -/
theorem received_in_order (schedule : Schedule) (refusal : Option Failure) (frames : List Frame)
    {moves : List Move} {sent : List Item} {state : State}
    (h : Reached { schedule.terms with refusal } frames moves sent state) :
    (∃ k ≤ frames.length, ∃ last : Option Failure,
      state.received ++ state.buffer =
        (frames.take k).map (fun frame => .text frame.encode) ++
          (last.map Item.failure).toList ∧
      (state.listening = true → k = state.written) ∧
      ∀ failure, last = some failure →
        k = frames.length ∧ state.written = frames.length ∧
        schedule.fault = some failure ∧ failure ≠ .cancelled ∧
        ∃ before after, moves = before ++ .finish :: after ∧ .expire ∉ before) ∧
    state.buffer.length ≤ max schedule.capacity 1 ∧
    state.written = sent.countP Item.isText ∧
    (state.listening = false → state.buffer = [] ∧
      ∀ move next, state.apply { schedule.terms with refusal } move = some next →
        next.buffer = [] ∧ next.written = state.written ∧ next.listening = false) := by
  have inv := inv_of_reached h
  refine ⟨inv.shape, inv.bounded, inv.written_eq, fun hgone => ⟨(inv.gone hgone).1, ?_⟩⟩
  intro move next happly
  obtain ⟨hbuffer, hrest⟩ := apply_of_gone hgone happly
  exact ⟨hbuffer.trans (inv.gone hgone).1, hrest⟩

/-- Two frames through a buffer for one, and a failure that the deadline comes
too late for. -/
theorem received_in_order_late_deadline :
    ∃ sent state,
      Reached
        { Schedule.terms { capacity := 0, fault := some (.streamGeneration "boom"), delay := 5,
                           deadline := some 20, limit := none } with refusal := none }
        [⟨none, "a"⟩, ⟨none, "b"⟩]
        [.write, .receive, .write, .finish, .expire, .receive, .report, .receive] sent state ∧
      state.received.length = 3 ∧
      ∃ k ≤ 2, ∃ last : Option Failure,
        state.received ++ state.buffer =
          ([⟨none, "a"⟩, ⟨none, "b"⟩].take k).map (fun frame : Frame => .text frame.encode) ++
            (last.map Item.failure).toList := by
  have h₀ : Reached
      { Schedule.terms { capacity := 0, fault := some (.streamGeneration "boom"), delay := 5,
                         deadline := some 20, limit := none } with refusal := none }
      [⟨none, "a"⟩, ⟨none, "b"⟩] [] [] _ := .start
  have h₂ := (h₀.step .write rfl).step .receive rfl
  have h₄ := (h₂.step .write rfl).step .finish rfl
  have h₆ := (h₄.step .expire rfl).step .receive rfl
  have h₈ := (h₆.step .report rfl).step .receive rfl
  obtain ⟨⟨k, hk, last, hshape, -⟩, -⟩ := received_in_order _ none _ h₈
  exact ⟨_, _, h₈, rfl, k, hk, last, hshape⟩

end ScriptedChat.Delivery

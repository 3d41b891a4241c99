import Mathlib.Data.List.Basic
import Mathlib.Data.List.Induction
import ScriptedChat.Turn

/-!
# The transcript as a session

Nothing is remembered between requests: `position?` looks for the newest script
from the end of the transcript and then counts the answers after it.  This file
sets a machine beside it that does remember, hears the messages from the first
to the last, and needs no search.

What is proved here:

* `anchor?_append`, `anchor?_lt` — the backward search, one message at a time:
  a script in the newest message hides every older one, and an anchor is a
  place of the transcript;
* `position?_append` — one more message changes the position exactly as the
  machine's step does;
* `position?_eq_replay` — hence the position is the machine's state, for every
  transcript;
* `select_of_replay` — the turn that answers a transcript, read off that state;
* `select_refines_session` — all of it in one statement.
-/

namespace ScriptedChat.Transcript

/-! ## The machine -/

/-- A position after one more answer. -/
def Position.advance (position : Position) : Position :=
  { position with cursor := position.cursor + 1 }

/-- What a session remembers after it has heard the message at a place of the
transcript.  A script of the user begins anew, an answer of the assistant uses
up one plan, and nothing else counts. -/
def hear (session : Option Position) (index : Nat) (message : Json) : Option Position :=
  if hasRole "user" message then
    match (text? message).bind (Script.plans? (scopeOf index)) with
    | some plans => some { anchor := index, plans, cursor := 0 }
    | none => session
  else if hasRole "assistant" message then session.map Position.advance
  else session

/-- What a session remembers after a whole transcript. -/
def replay (messages : List Json) : Option Position :=
  messages.zipIdx.foldl (fun session (message, index) => hear session index message) none

theorem replay_append (messages : List Json) (message : Json) :
    replay (messages ++ [message]) = hear (replay messages) messages.length message := by
  rw [replay, List.zipIdx_append, List.foldl_append]
  simp [replay]

/-! ## Roles -/

/-- No message has two authors. -/
theorem hasRole_assistant_of_user {message : Json} (h : hasRole "user" message = true) :
    hasRole "assistant" message = false := by
  unfold hasRole at *
  cases hrole : message.getText? "role" with
  | none => rfl
  | some role =>
    rw [hrole] at h
    simp only [Option.any_some, sameName, beq_iff_eq] at h ⊢
    rw [← h]
    decide

/-- The machine's step, told by the script that a message carries. -/
theorem hear_eq (session : Option Position) (index : Nat) (message : Json) :
    hear session index message =
      match script? index message with
      | some plans => some { anchor := index, plans, cursor := 0 }
      | none => if hasRole "assistant" message then session.map Position.advance else session := by
  unfold hear script?
  by_cases h : hasRole "user" message = true
  · rw [if_pos h, if_pos h, hasRole_assistant_of_user h]
    rfl
  · rw [if_neg h, if_neg h]

/-! ## The backward search -/

/-- The newest message comes first in the search. -/
theorem anchor?_append (messages : List Json) (message : Json) :
    anchor? (messages ++ [message]) =
      ((script? messages.length message).map fun plans => (messages.length, plans)).or
        (anchor? messages) := by
  unfold anchor?
  rw [List.zipIdx_append, List.reverse_append, List.findSome?_append]
  simp

/-- The anchor is a message of the transcript. -/
theorem anchor?_lt {messages : List Json} {anchor : Nat} {plans : List Plan}
    (h : anchor? messages = some (anchor, plans)) : anchor < messages.length := by
  obtain ⟨⟨message, index⟩, hmem, hfound⟩ := List.exists_of_findSome?_eq_some h
  obtain ⟨found, -, heq⟩ := Option.map_eq_some_iff.1 hfound
  cases heq
  have hget := List.mem_zipIdx' (List.mem_reverse.1 hmem)
  exact hget.1

/-- **One more message.**  The position in a longer transcript follows from the
position in the shorter one, by the machine's step. -/
theorem position?_append (messages : List Json) (message : Json) :
    position? (messages ++ [message]) =
      hear (position? messages) messages.length message := by
  rw [hear_eq, position?, anchor?_append]
  cases hscript : script? messages.length message with
  | some plans => simp
  | none =>
    cases hanchor : anchor? messages with
    | none => simp [position?, hanchor]
    | some found =>
      obtain ⟨anchor, plans⟩ := found
      have hlt : anchor < messages.length := anchor?_lt hanchor
      -- the anchor stands before the new message, so the answers after it are counted up to there
      have hdrop : (messages ++ [message]).drop (anchor + 1)
          = messages.drop (anchor + 1) ++ [message] :=
        List.drop_append_of_le_length hlt
      simp only [position?, hanchor, Option.map_none, Option.none_or, Option.map_some, hdrop,
        List.countP_append, List.countP_singleton]
      by_cases h : hasRole "assistant" message = true <;> simp [h, Position.advance]

/-- The position of a transcript is what the session remembers after it. -/
theorem position?_eq_replay (messages : List Json) : position? messages = replay messages := by
  induction messages using List.reverseRecOn with
  | nil => rfl
  | append_singleton messages message ih => rw [position?_append, replay_append, ih]

/-! ## The turn that answers -/

/-- The turn while the script has plans left. -/
theorem ofPosition_of_lt (fallback : FallbackSettings) {position : Position}
    (h : position.cursor < position.plans.length) :
    Turn.ofPosition fallback position =
      { plan := position.plans[position.cursor], origin := .script,
        cursor := some position.cursor } := by
  have hplan : position.plan? = some position.plans[position.cursor] :=
    List.getElem?_eq_getElem h
  rw [Turn.ofPosition, hplan]

/-- The turn after the last plan of the script. -/
theorem ofPosition_of_le (fallback : FallbackSettings) {position : Position}
    (h : position.plans.length ≤ position.cursor) :
    Turn.ofPosition fallback position =
      { plan := { label := "completion", reasoning := none,
                  steps := [.filler fallback.completionWords.toNat] },
        origin := .completion, cursor := some position.cursor } := by
  have hplan : position.plan? = none := List.getElem?_eq_none h
  rw [Turn.ofPosition, hplan]
  rfl

/-- Without a script the turn is neither a plan of one nor what follows it. -/
theorem origin_ofText (fallback : FallbackSettings) (index : Nat) (text : String) :
    (Turn.ofText fallback index text).origin = .single ∨
      (Turn.ofText fallback index text).origin = .filler := by
  unfold Turn.ofText
  split
  · exact Or.inl rfl
  · exact Or.inr rfl

/-- The turn of a transcript with a script is the turn of its position. -/
theorem select_of_replay (fallback : FallbackSettings) {messages : List Json} {session : Position}
    (h : replay messages = some session) :
    Turn.select fallback messages = Turn.ofPosition fallback session := by
  rw [Turn.select, position?_eq_replay, h]

/-- **A transcript without memory answers like a session with one.**  The
position is missing exactly when the session has heard no script, and otherwise
it is the session's anchor, script and cursor; the turn is the plan at the
cursor as long as there is one, and a closing turn of one text step after that.
One more message moves the position as it moves the session, so no plan is given
twice and none is left out. -/
theorem select_refines_session (fallback : FallbackSettings) (messages : List Json) :
    (position? messages = none ↔ replay messages = none) ∧
    (replay messages = none →
      (Turn.select fallback messages).origin = .single ∨
        (Turn.select fallback messages).origin = .filler) ∧
    (∀ session, replay messages = some session →
      position? messages = some session ∧
      session.plan? = session.plans[session.cursor]? ∧
      (∀ h : session.cursor < session.plans.length,
        Turn.select fallback messages =
          { plan := session.plans[session.cursor], origin := .script,
            cursor := some session.cursor }) ∧
      (session.plans.length ≤ session.cursor →
        Turn.select fallback messages =
          { plan := { label := "completion", reasoning := none,
                      steps := [.filler fallback.completionWords.toNat] },
            origin := .completion, cursor := some session.cursor })) ∧
    (∀ message, position? (messages ++ [message]) =
      hear (position? messages) messages.length message) := by
  refine ⟨by rw [position?_eq_replay], ?_, ?_, position?_append messages⟩
  · intro h
    rw [Turn.select, position?_eq_replay, h]
    exact origin_ofText fallback _ _
  · intro session h
    refine ⟨(position?_eq_replay messages).trans h, rfl, ?_, ?_⟩
    · intro hlt
      rw [select_of_replay fallback h, ofPosition_of_lt fallback hlt]
    · intro hle
      rw [select_of_replay fallback h, ofPosition_of_le fallback hle]

end ScriptedChat.Transcript

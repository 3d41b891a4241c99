import ScriptedChat.Chat
import ScriptedChat.Proofs.Json.RoundTrip
import ScriptedChat.Proofs.Json.Soundness

/-!
# Which bodies are chat requests

A request is malformed for one of five reasons, and for no other: its body has
not arrived, is blank, means nothing as JSON, is no object, or has messages that
are no list.  What a text means is told by the grammar of JSON and not by how it
is read; a text beyond the limits, for the levels of its nesting, the range of
its numbers or a half of a surrogate pair, means nothing.

* `Chat.MessagesFault`, `Chat.Malformed` — the reasons;
* `Chat.read_cases` — a request is refused for one of them, and else it is read;
* `Chat.malformed_iff_of_means` — of an object, only its messages count.
-/

namespace ScriptedChat.Chat

/-! ## The reasons -/

/-- The messages of a body are there, and they are neither null nor a list. -/
def MessagesFault (body : Json) : Prop :=
  ∃ messages, body.get? "messages" = some messages ∧ messages ≠ .null ∧
    ∀ items, messages ≠ .arr items

/-- Why a request is no chat request. -/
inductive Malformed (request : Http.Request) : Prop where
  /-- the body could not be read from the connection -/
  | unread (message : String) (fault : request.bodyFault = some message)
  /-- the body is empty or has blanks only -/
  | blank (all_blank : ∀ b ∈ request.body, isBlankByte b = true)
  /-- the body is no JSON text, or one beyond the limits -/
  | notJson (meaningless : ∀ body, ¬ Json.Means request.body body)
  | notObject (body : Json) (means : Json.Means request.body body)
    (other : ∀ fields, body ≠ .obj fields)
  | messages (body : Json) (means : Json.Means request.body body) (fault : MessagesFault body)

/-! ## Blank bodies -/

/-- A blank of a request that is no blank of a JSON text is a form feed. -/
theorem eq_formFeed {b : UInt8} (hblank : isBlankByte b = true) (hspace : Json.isSpace b = false) :
    b = 0x0C := by
  simp only [isBlankByte, Bool.or_eq_true, beq_iff_eq] at hblank
  simp only [Json.isSpace, Bool.or_eq_false_iff, beq_eq_false_iff_ne, ne_eq,
    ← UInt8.toNat_inj] at hspace
  rw [← UInt8.toNat_inj]
  simp at hspace ⊢
  omega

/-- What is left after blanks is a part of the text, and begins with none. -/
theorem skipSpace_eq_cons {s rest : List UInt8} {b : UInt8} (h : Json.skipSpace s = b :: rest) :
    b ∈ s ∧ Json.isSpace b = false := by
  induction s with
  | nil => exact absurd h nofun
  | cons c s ih =>
    by_cases hspace : Json.isSpace c = true
    · rw [Json.skipSpace, List.dropWhile_cons_of_pos hspace] at h
      exact ⟨List.mem_cons_of_mem c (ih h).1, (ih h).2⟩
    · rw [Json.skipSpace, List.dropWhile_cons_of_neg hspace] at h
      obtain rfl := (List.cons.inj h).1
      exact ⟨List.mem_cons_self, Bool.eq_false_iff.2 hspace⟩

/-- No value begins with blanks and nothing else. -/
theorem valueWith_blank (list record : Json.Reader Json) {s : List UInt8}
    (h : ∀ b ∈ s, isBlankByte b = true) : ∃ fault, Json.valueWith list record s = .error fault := by
  unfold Json.valueWith
  cases hskip : Json.skipSpace s with
  | nil => exact ⟨_, rfl⟩
  | cons b rest =>
    obtain ⟨hmem, hspace⟩ := skipSpace_eq_cons hskip
    obtain rfl := eq_formFeed (h b hmem) hspace
    exact ⟨_, rfl⟩

/-- Blanks mean nothing. -/
theorem not_means_blank {s : List UInt8} (h : ∀ b ∈ s, isBlankByte b = true) (body : Json) :
    ¬ Json.Means s body := by
  intro hmeans
  obtain ⟨list, record, hvalue⟩ := Json.value_eq Json.maxDepth
  obtain ⟨fault, hfault⟩ := valueWith_blank list record h
  have hread := Json.read_eq_ok_iff.2 hmeans
  rw [Json.read, Json.whole?, hvalue, hfault] at hread
  cases hread

/-! ## Objects -/

/-- **An object is refused for its messages only.** -/
theorem malformed_iff_of_means {request : Http.Request} {fields : List (String × Json)}
    (hfault : request.bodyFault = none) (hmeans : Json.Means request.body (.obj fields)) :
    Malformed request ↔ MessagesFault (.obj fields) := by
  have heq {body : Json} (h : Json.Means request.body body) : body = .obj fields :=
    Except.ok.inj ((Json.read_eq_ok_iff.2 h).symm.trans (Json.read_eq_ok_iff.2 hmeans))
  constructor
  · intro h
    cases h with
    | unread message fault => exact absurd (hfault.symm.trans fault) nofun
    | blank all_blank => exact absurd hmeans (not_means_blank all_blank _)
    | notJson meaningless => exact absurd hmeans (meaningless _)
    | notObject body means other => exact absurd (heq means) (other fields)
    | messages body means fault => exact heq means ▸ fault
  · exact .messages (.obj fields) hmeans

/-! ## Reading a request -/

theorem messagesOf_cases (body : Json) :
    (MessagesFault body ∧ ∃ message, messagesOf body = .error (.malformedRequest message)) ∨
      (¬ MessagesFault body ∧ ∃ messages, messagesOf body = .ok messages) := by
  unfold messagesOf
  split
  · rename_i messages hget
    refine .inr ⟨?_, messages, rfl⟩
    rintro ⟨other, hother, _, hlist⟩
    exact hlist messages (Option.some.inj (hother.symm.trans hget))
  · rename_i hget
    refine .inr ⟨?_, [], rfl⟩
    rintro ⟨other, hother, _⟩
    exact absurd (hget.symm.trans hother) nofun
  · rename_i hget
    refine .inr ⟨?_, [], rfl⟩
    rintro ⟨other, hother, hnull, _⟩
    exact hnull (Option.some.inj (hother.symm.trans hget))
  · rename_i messages hlist hnull hget
    refine .inl ⟨⟨messages, hget, ?_, ?_⟩, _, rfl⟩
    · rintro rfl
      exact hnull rfl
    · rintro items rfl
      exact hlist items rfl

theorem ofBody_cases (body : Json) :
    (((∀ fields, body ≠ .obj fields) ∨ MessagesFault body) ∧
        ∃ message, ofBody body = .error (.malformedRequest message)) ∨
      ((∃ fields, body = .obj fields) ∧ ¬ MessagesFault body ∧ ∃ chat, ofBody body = .ok chat) := by
  cases body with
  | obj fields =>
    obtain ⟨hmessages, message, hread⟩ | ⟨hmessages, messages, hread⟩ :=
      messagesOf_cases (.obj fields)
    · exact .inl ⟨.inr hmessages, message, by rw [ofBody, hread]; rfl⟩
    · exact .inr ⟨⟨fields, rfl⟩, hmessages, _, by rw [ofBody, hread]; rfl⟩
  | _ => exact .inl ⟨.inl nofun, _, rfl⟩

/-- **A request is refused as malformed for one of the reasons, and else it is read.** -/
theorem read_cases (request : Http.Request) :
    (Malformed request ∧ ∃ message, read request = .error (.malformedRequest message)) ∨
      (¬ Malformed request ∧ ∃ chat, read request = .ok chat) := by
  unfold read document
  cases hfault : request.bodyFault with
  | some message => exact .inl ⟨.unread message hfault, message, rfl⟩
  | none =>
    by_cases hblank : request.body.all isBlankByte = true
    · rw [if_pos hblank]
      exact .inl ⟨.blank (List.all_eq_true.1 hblank), _, rfl⟩
    · rw [if_neg hblank]
      cases hread : Json.read request.body with
      | error error =>
        refine .inl ⟨.notJson fun body hmeans => ?_, _, rfl⟩
        exact absurd (hread.symm.trans (Json.read_eq_ok_iff.2 hmeans)) nofun
      | ok body =>
        have hmeans := Json.read_eq_ok_iff.1 hread
        obtain ⟨hbad, message, hbody⟩ | ⟨⟨fields, rfl⟩, hmessages, chat, hbody⟩ := ofBody_cases body
        · refine .inl ⟨?_, message, hbody⟩
          rcases hbad with hother | hmessages
          · exact .notObject body hmeans hother
          · exact .messages body hmeans hmessages
        · have hnot := mt (malformed_iff_of_means hfault hmeans).1 hmessages
          exact .inr ⟨hnot, chat, hbody⟩

end ScriptedChat.Chat

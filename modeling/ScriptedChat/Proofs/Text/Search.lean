import ScriptedChat.Text.Search

/-!
# What a search finds

* `afterFront?_eq_some`, `beforeBack?_eq_some` — a fixed beginning or ending and
  the rest are the text;
* `cutAt?_eq_some`, `cutAt?_eq_none` — a text is cut at the first occurrence, if
  there is one at all;
* `infix_of_append_left`, `infix_of_append_right` — texts around that an
  occurrence cannot reach into;
* `cutAt?_append` — a needle whose first item does not occur in it again is found
  where it was put, since it cannot overlap with itself.
-/

namespace ScriptedChat.Text

variable {α : Type} [DecidableEq α]

theorem afterFront?_append (front rest : List α) : afterFront? front (front ++ rest) = some rest := by
  induction front with
  | nil => rfl
  | cons f front ih => rw [List.cons_append, afterFront?, if_pos rfl, ih]

theorem afterFront?_eq_some {front text rest : List α} :
    afterFront? front text = some rest ↔ text = front ++ rest := by
  constructor
  · intro h
    induction front generalizing text with
    | nil => exact Option.some.inj h
    | cons f front ih =>
      cases text with
      | nil => exact absurd h nofun
      | cons c text =>
        rw [afterFront?] at h
        split at h
        · rename_i heq
          rw [heq, ih h, List.cons_append]
        · exact absurd h nofun
  · rintro rfl
    exact afterFront?_append front rest

theorem afterFront?_eq_none {front text : List α} :
    afterFront? front text = none ↔ ¬ front <+: text := by
  rw [Option.eq_none_iff_forall_ne_some]
  constructor
  · rintro h ⟨rest, rfl⟩
    exact h rest (afterFront?_append front rest)
  · rintro h rest hrest
    exact h ⟨rest, (afterFront?_eq_some.1 hrest).symm⟩

theorem beforeBack?_eq_some {back text before : List α} :
    beforeBack? back text = some before ↔ text = before ++ back := by
  rw [beforeBack?, Option.map_eq_some_iff]
  constructor
  · rintro ⟨rest, hrest, rfl⟩
    have htext := congrArg List.reverse (afterFront?_eq_some.1 hrest)
    rwa [List.reverse_reverse, List.reverse_append, List.reverse_reverse] at htext
  · rintro rfl
    exact ⟨before.reverse, by rw [List.reverse_append, afterFront?_append], before.reverse_reverse⟩

/-! ## The first occurrence -/

/-- **The cut is at the first occurrence.** -/
theorem cutAt?_eq_some {needle text before after : List α}
    (h : cutAt? needle text = some (before, after)) :
    text = before ++ (needle ++ after) ∧
      ∀ first rest, text = first ++ (needle ++ rest) → before.length ≤ first.length := by
  induction text generalizing before with
  | nil =>
    obtain ⟨rest, hrest, heq⟩ := Option.map_eq_some_iff.1 h
    cases heq
    rw [List.nil_append]
    exact ⟨afterFront?_eq_some.1 hrest, fun _ _ _ => Nat.zero_le _⟩
  | cons c text ih =>
    rw [cutAt?] at h
    split at h
    · rename_i hrest
      cases h
      rw [List.nil_append]
      exact ⟨afterFront?_eq_some.1 hrest, fun _ _ _ => Nat.zero_le _⟩
    · rename_i hnot
      obtain ⟨⟨before, after⟩, hcut, heq⟩ := Option.map_eq_some_iff.1 h
      cases heq
      obtain ⟨htext, hfirst⟩ := ih hcut
      refine ⟨by rw [htext, List.cons_append], ?_⟩
      intro first rest hother
      cases first with
      | nil => exact absurd ⟨rest, hother.symm⟩ (afterFront?_eq_none.1 hnot)
      | cons d first =>
        have hle := hfirst first rest (List.cons.inj hother).2
        simp only [List.length_cons]
        omega

/-- There is no cut only where there is no occurrence. -/
theorem cutAt?_eq_none {needle text : List α} : cutAt? needle text = none ↔ ¬ needle <:+: text := by
  induction text with
  | nil =>
    rw [cutAt?, Option.map_eq_none_iff, afterFront?_eq_none]
    simp
  | cons c text ih =>
    rw [cutAt?, List.infix_cons_iff]
    cases hfront : afterFront? needle (c :: text) with
    | some rest =>
      have hbegins : needle <+: c :: text := ⟨rest, (afterFront?_eq_some.1 hfront).symm⟩
      simp [hbegins]
    | none =>
      have hbegins : ¬ needle <+: c :: text := afterFront?_eq_none.1 hfront
      simp [hbegins, ih]

/-! ## Needles that cannot overlap -/

omit [DecidableEq α] in
theorem infix_of_append_left {c : α} {needle front text : List α} (h : c ∉ front)
    (hoccurs : c :: needle <:+: front ++ text) : c :: needle <:+: text := by
  induction front with
  | nil => exact hoccurs
  | cons d front ih =>
    rw [List.mem_cons, not_or] at h
    rw [List.cons_append, List.infix_cons_iff, List.cons_prefix_cons] at hoccurs
    obtain ⟨hfirst, -⟩ | hoccurs := hoccurs
    · exact absurd hfirst h.1
    · exact ih h.2 hoccurs

omit [DecidableEq α] in
theorem infix_of_append_right {c : α} {needle text back : List α} (h : c ∉ back)
    (hoccurs : needle ++ [c] <:+: text ++ back) : needle ++ [c] <:+: text := by
  rw [← List.reverse_infix, List.reverse_append, List.reverse_append] at hoccurs
  rw [← List.reverse_infix, List.reverse_append]
  exact infix_of_append_left (by rwa [List.mem_reverse]) hoccurs

/-- **A needle is found where it was put**, if it does not stand before that. -/
theorem cutAt?_append {c : α} {needle front : List α} (hneedle : c ∉ needle)
    (hfront : ¬ c :: needle <:+: front) (rest : List α) :
    cutAt? (c :: needle) (front ++ (c :: needle ++ rest)) = some (front, rest) := by
  induction front with
  | nil =>
    have hfound := afterFront?_append (c :: needle) rest
    rw [List.nil_append, List.cons_append] at *
    rw [cutAt?, hfound]
  | cons d front ih =>
    rw [List.infix_cons_iff, not_or] at hfront
    have hnone : afterFront? (c :: needle) (d :: (front ++ (c :: needle ++ rest))) = none := by
      rw [afterFront?_eq_none]
      intro hbegins
      obtain hshort | ⟨tail, htail⟩ :=
        List.prefix_or_prefix_of_prefix hbegins (List.prefix_append (d :: front) _)
      · exact hfront.1 hshort
      -- an occurrence here would go on into the next one and have its first item inside
      · obtain ⟨more, hmore⟩ := hbegins
        have htails : tail ++ more = c :: needle ++ rest := by
          refine List.append_cancel_left (?_ : d :: front ++ (tail ++ more) =
            d :: front ++ (c :: needle ++ rest))
          rw [← List.append_assoc, htail]
          exact hmore
        cases tail with
        | nil =>
          rw [List.append_nil] at htail
          exact hfront.1 (htail ▸ List.prefix_rfl)
        | cons e tail =>
          obtain rfl : e = c := (List.cons.inj htails).1
          have hinside : e ∈ needle := by
            rw [← (List.cons.inj htail).2]
            exact List.mem_append_right _ List.mem_cons_self
          exact hneedle hinside
    rw [List.cons_append, cutAt?, hnone]
    simp only [ih hfront.2, Option.map_some]

end ScriptedChat.Text

import ScriptedChat.Proofs.Json.Fields
import ScriptedChat.Proofs.Json.Taken

/-!
# What is read is what the text means

The reader gives a value for a text exactly if the text denotes that value:
nothing else is read, and nothing that means something is refused.

* `TakesValue`, `TakesBody` — a reader takes texts that denote its values;
* `exists_items`, `exists_fields` — the rounds inside arrays and objects, by
  induction;
* `takesValue` — values, by induction on the levels that are left;
* `read_eq_ok_iff` — whole texts;
* `ascending_of_read` — the fields of an object that is read are in order.
-/

namespace ScriptedChat.Json

/-- What is read in two steps is read by both. -/
theorem ok_of_bind {ε α β : Type} {first : Except ε α} {next : α → Except ε β} {result : β}
    (h : (first >>= next) = .ok result) : ∃ a, first = .ok a ∧ next a = .ok result := by
  cases first with
  | error fault => cases h
  | ok a => exact ⟨a, rfl, h⟩

/-! ## Gaps -/

theorem Gap.append {text more : List Char} (h : Gap text) (hmore : Gap more) : Gap (text ++ more) :=
  List.forall_mem_append.2 ⟨h, hmore⟩

/-- A slot with a wider gap before its text. -/
def Slot.after (gap : List Char) (slot : Slot) : Slot :=
  { slot with front := gap ++ slot.front }

theorem Slot.whole_after (gap : List Char) (slot : Slot) :
    (slot.after gap).whole = gap ++ slot.whole :=
  List.append_assoc _ _ _

theorem Slot.Spaced.after {gap : List Char} {slot : Slot} (h : slot.Spaced) (hgap : Gap gap) :
    (slot.after gap).Spaced :=
  ⟨hgap.append h.front, h.back⟩

/-- A field with a wider gap before its name. -/
def Field.after (gap : List Char) (field : Field) : Field :=
  { field with name := field.name.after gap }

theorem Field.whole_after (gap : List Char) (field : Field) :
    (field.after gap).whole = gap ++ field.whole := by
  rw [Field.whole, Field.after, Slot.whole_after, List.append_assoc]
  rfl

theorem Field.Spells.after {gap : List Char} {field : Field} {name : String}
    (h : field.Spells name) (hgap : Gap gap) : (field.after gap).Spells name :=
  ⟨h.spaced.after hgap, h.name, h.value⟩

/-- What stands before a byte that is no blank. -/
theorem exists_gap_before {s rest : List UInt8} {b : UInt8} (h : skipSpace s = b :: rest) :
    ∃ gap, Gap gap ∧ s = Utf8.encode gap ++ b :: rest := by
  obtain ⟨gap, hgap, hs⟩ := exists_gap s
  exact ⟨gap, hgap, h ▸ hs⟩

theorem skipSpace_skipSpace (s : List UInt8) : skipSpace (skipSpace s) = skipSpace s := by
  obtain ⟨gap, hgap, hs⟩ := exists_gap s
  have hskip := hgap.skip (skipSpace s)
  rw [← hs] at hskip
  exact hskip.symm

/-! ## Arrays -/

/-- What a reader takes from the front of some bytes, where no number goes on, denotes its value. -/
def TakesValue (d : Nat) (reader : Reader Json) : Prop :=
  ∀ s v rest, reader s = .ok (v, rest) → EndsNumber rest → ∃ gap text, Gap gap ∧ Denotes d text v ∧
    s = Utf8.encode gap ++ (Utf8.encode text ++ rest)

/-- What a reader takes after an opening mark denotes its value. -/
def TakesBody (d : Nat) (mark : Char) (reader : Reader Json) : Prop :=
  ∀ s v rest, reader s = .ok (v, rest) → ∃ text, Denotes d (mark :: text) v ∧
    s = Utf8.encode text ++ rest

theorem takesBody_fail (d : Nat) (mark : Char) (cause : Cause) : TakesBody d mark (fail cause) :=
  nofun

variable {d : Nat} {item : Reader Json}

/-- A value and the gap up to a byte with which no number goes on. -/
theorem TakesValue.exists_slot (h : TakesValue d item) {s left rest : List UInt8} {b : UInt8}
    {v : Json} (hitem : item s = .ok (v, left)) (hleft : skipSpace left = b :: rest)
    (hb : EndsNumber (b :: rest)) : ∃ slot : Slot, slot.Spaced ∧ Denotes d slot.text v ∧
      s = Utf8.encode slot.whole ++ b :: rest := by
  obtain ⟨back, hback, rfl⟩ := exists_gap_before hleft
  obtain ⟨front, text, hfront, hdenotes, rfl⟩ := h _ _ _ hitem (hback.endsNumber hb)
  exact ⟨⟨front, text, back⟩, ⟨hfront, hback⟩, hdenotes, (encode_whole ⟨front, text, back⟩ _).symm⟩

/-- The items of an array, item by item. -/
theorem TakesValue.exists_items (h : TakesValue d item) {fuel : Nat} {read : List Json}
    {s rest : List UInt8} {v : Json} (hread : items item fuel read s = .ok (v, rest)) :
    ∃ (first : Slot × Json) (slots : List (Slot × Json)),
      (∀ entry ∈ first :: slots, entry.1.Spaced ∧ Denotes d entry.1.text entry.2) ∧
      v = .arr (read.reverse ++ (first :: slots).map Prod.snd) ∧
      s = Utf8.encode (first.1.whole ++ afterItems (slots.map Prod.fst)) ++ rest := by
  induction fuel generalizing read s with
  | zero => cases hread
  | succ fuel ih =>
    obtain ⟨⟨w, left⟩, hitem, hround⟩ := ok_of_bind hread
    dsimp only at hround
    split at hround
    · cases hround
    · rename_i hleft
      cases hround
      obtain ⟨slot, hspaced, hdenotes, rfl⟩ := h.exists_slot hitem hleft (.cons (by decide))
      refine ⟨(slot, w), [], List.forall_mem_singleton.2 ⟨hspaced, hdenotes⟩, ?_, ?_⟩
      · rw [List.reverse_cons]
        rfl
      · rw [Utf8.encode_append, List.append_assoc]
        rfl
    · rename_i t hleft
      obtain ⟨slot, hspaced, hdenotes, rfl⟩ := h.exists_slot hitem hleft (.cons (by decide))
      split at hround
      · cases hround
      · cases hround
      · obtain ⟨gap, hgap, ht⟩ := exists_gap t
        obtain ⟨next, slots, hslots, rfl, hs⟩ := ih hround
        obtain ⟨hnext, hslots⟩ := List.forall_mem_cons.1 hslots
        refine ⟨(slot, w), (next.1.after gap, next.2) :: slots, ?_, ?_, ?_⟩
        · exact List.forall_mem_cons.2 ⟨⟨hspaced, hdenotes⟩,
            List.forall_mem_cons.2 ⟨⟨hnext.1.after hgap, hnext.2⟩, hslots⟩⟩
        · rw [List.reverse_cons, List.append_assoc]
          rfl
        · rw [ht, hs, List.map_cons, afterItems, Slot.whole_after]
          simp only [Utf8.encode_append, Utf8.encode_cons, List.append_assoc]
          rfl
    · cases hround

theorem takesBody_array (h : TakesValue d item) : TakesBody (d + 1) '[' (array item) := by
  intro s v rest hread
  unfold array at hread
  split at hread
  · cases hread
  · rename_i hs
    cases hread
    obtain ⟨gap, hgap, rfl⟩ := exists_gap_before hs
    refine ⟨gap ++ [']'], .emptyArray hgap, ?_⟩
    rw [Utf8.encode_append, List.append_assoc]
    rfl
  · obtain ⟨gap, hgap, hs⟩ := exists_gap s
    obtain ⟨first, slots, hslots, rfl, hitems⟩ := h.exists_items hread
    obtain ⟨hfirst, hslots⟩ := List.forall_mem_cons.1 hslots
    refine ⟨_, @Denotes.array d (first.1.after gap, first.2) slots ?_ ?_, ?_⟩
    · exact List.forall_mem_cons.2 ⟨hfirst.1.after hgap, fun entry he => (hslots entry he).1⟩
    · exact List.forall_mem_cons.2 ⟨hfirst.2, fun entry he => (hslots entry he).2⟩
    · rw [hs, hitems, Slot.whole_after]
      simp only [Utf8.encode_append, List.append_assoc]

/-! ## Objects -/

/-- The fields of an object, field by field. -/
theorem TakesValue.exists_fields (h : TakesValue d item) {fuel : Nat}
    {read : List (String × Json)} {s rest : List UInt8} {v : Json}
    (hread : fields item fuel read s = .ok (v, rest)) :
    ∃ (first : Field × String × Json) (entries : List (Field × String × Json)),
      (∀ entry ∈ first :: entries,
        entry.1.Spells entry.2.1 ∧ Denotes d entry.1.value.text entry.2.2) ∧
      v = object (read.reverse ++ (first :: entries).map Prod.snd) ∧
      0x22 :: s = Utf8.encode (first.1.whole ++ afterFields (entries.map Prod.fst)) ++ rest := by
  induction fuel generalizing read s with
  | zero => cases hread
  | succ fuel ih =>
    obtain ⟨⟨name, afterName⟩, hname, hcolon⟩ := ok_of_bind hread
    obtain ⟨body, hbody, rfl⟩ := spelling_of_string hname
    dsimp only at hcolon
    split at hcolon
    · cases hcolon
    · rename_i start hstart
      obtain ⟨back, hback, rfl⟩ := exists_gap_before hstart
      obtain ⟨⟨w, left⟩, hitem, hround⟩ := ok_of_bind hcolon
      dsimp only at hround
      -- the name is known, and the value is as soon as it is known what stands after it
      have hspells {slot : Slot} (hspaced : slot.Spaced) :
          (Field.mk ⟨[], '"' :: body, back⟩ slot).Spells name :=
        ⟨⟨.nil, hback⟩, ⟨body, hbody, rfl⟩, hspaced⟩
      split at hround
      · cases hround
      · rename_i hleft
        cases hround
        obtain ⟨slot, hspaced, hdenotes, rfl⟩ := h.exists_slot hitem hleft (.cons (by decide))
        refine ⟨(⟨⟨[], '"' :: body, back⟩, slot⟩, name, w), [],
          List.forall_mem_singleton.2 ⟨hspells hspaced, hdenotes⟩, ?_, ?_⟩
        · rw [List.reverse_cons]
          rfl
        · rw [Utf8.encode_append, List.append_assoc, encode_field_whole rfl]
          rfl
      · rename_i t hleft
        obtain ⟨slot, hspaced, hdenotes, rfl⟩ := h.exists_slot hitem hleft (.cons (by decide))
        split at hround
        · cases hround
        · rename_i s hquote
          obtain ⟨gap, hgap, rfl⟩ := exists_gap_before hquote
          obtain ⟨next, entries, hentries, rfl, hs⟩ := ih hround
          obtain ⟨hnext, hentries⟩ := List.forall_mem_cons.1 hentries
          refine ⟨(⟨⟨[], '"' :: body, back⟩, slot⟩, name, w),
            (next.1.after gap, next.2) :: entries, ?_, ?_, ?_⟩
          · exact List.forall_mem_cons.2 ⟨⟨hspells hspaced, hdenotes⟩,
              List.forall_mem_cons.2 ⟨⟨hnext.1.after hgap, hnext.2⟩, hentries⟩⟩
          · rw [List.reverse_cons, List.append_assoc]
            rfl
          · rw [Utf8.encode_append, List.append_assoc, encode_field_whole rfl, hs, List.map_cons,
              afterFields, Field.whole_after]
            simp only [Utf8.encode_append, Utf8.encode_cons, List.append_assoc]
            rfl
        · cases hround
        · cases hround
      · cases hround
    · cases hcolon

theorem takesBody_object (h : TakesValue d item) :
    TakesBody (d + 1) '\x7b' (objectBody item) := by
  intro s v rest hread
  unfold objectBody at hread
  split at hread
  · cases hread
  · rename_i hs
    cases hread
    obtain ⟨gap, hgap, rfl⟩ := exists_gap_before hs
    refine ⟨gap ++ ['\x7d'], .emptyObject hgap, ?_⟩
    rw [Utf8.encode_append, List.append_assoc]
    rfl
  · rename_i hs
    obtain ⟨gap, hgap, rfl⟩ := exists_gap_before hs
    obtain ⟨first, entries, hentries, rfl, hfields⟩ := h.exists_fields hread
    obtain ⟨hfirst, hentries⟩ := List.forall_mem_cons.1 hentries
    refine ⟨_, @Denotes.object d (first.1.after gap, first.2) entries ?_ ?_, ?_⟩
    · exact List.forall_mem_cons.2 ⟨hfirst.1.after hgap, fun entry he => (hentries entry he).1⟩
    · exact List.forall_mem_cons.2 ⟨hfirst.2, fun entry he => (hentries entry he).2⟩
    · rw [hfields, Field.whole_after]
      simp only [Utf8.encode_append, List.append_assoc]
  · cases hread

/-! ## Values -/

theorem eq_of_word {meaning v : Json} {expected s rest : List UInt8}
    (h : word meaning expected s = .ok (v, rest)) : v = meaning ∧ s = expected ++ rest := by
  induction expected generalizing s with
  | nil =>
    cases h
    exact ⟨rfl, rfl⟩
  | cons b expected ih =>
    cases s with
    | nil => cases h
    | cons c s =>
      rw [word] at h
      split at h
      · rename_i hc
        obtain ⟨hv, rfl⟩ := ih h
        exact ⟨hv, by rw [hc]; rfl⟩
      · cases h

/-- A number that is read before other bytes is read alone. -/
theorem numberOf_of_value {text : List Char} {n : Number} {rest : List UInt8}
    (h : NumberText text) (hrest : EndsNumber rest)
    (hread : value d (Utf8.encode text ++ rest) = .ok (.num n, rest)) : NumberOf text n := by
  have hsettled : Settled 0 text := settled_number h
  have hsees := hsettled.sees d rest hrest
  have halone : alone (value d) text = some (.num n) := by
    cases hout : alone (value d) text with
    | none =>
      rw [hout] at hsees
      obtain ⟨fault, hfault⟩ := hsees
      exact absurd (hread.symm.trans hfault) nofun
    | some w =>
      rw [hout] at hsees
      cases hread.symm.trans hsees
      rfl
  have hslot := read_slot (Slot.spaced_tight text) (.number (d := 0) h)
  rw [Slot.whole_tight] at hslot
  refine ⟨h, ok_of_toOption ?_⟩
  calc (read (Utf8.encode text)).toOption
    _ = alone (value maxDepth) text := hslot
    _ = alone (value 0) text := hsettled.stable maxDepth (Nat.zero_le _)
    _ = alone (value d) text := (hsettled.stable d (Nat.zero_le d)).symm
    _ = some (.num n) := halone

theorem takesValue_of_bodies {list record : Reader Json} (heq : value d = valueWith list record)
    (hlist : TakesBody d '[' list) (hrecord : TakesBody d '\x7b' record) :
    TakesValue d (value d) := by
  intro s v rest h hrest
  obtain ⟨gap, hgap, hs⟩ := exists_gap s
  suffices hvalue : ∃ text, Denotes d text v ∧ skipSpace s = Utf8.encode text ++ rest by
    obtain ⟨text, hdenotes, htext⟩ := hvalue
    exact ⟨gap, text, hgap, hdenotes, htext ▸ hs⟩
  rw [hs, skipsGaps_value d gap _ hgap] at h
  have hnumber {sign text : List Char} {n : Number} (hsign : sign = [] ∨ sign = ['-'])
      (htext : UnsignedText text) (hv : v = .num n)
      (hskip : skipSpace s = Utf8.encode (sign ++ text) ++ rest) :
      ∃ text, Denotes d text v ∧ skipSpace s = Utf8.encode text ++ rest := by
    subst hv
    rw [hskip] at h
    exact ⟨_, .number (numberOf_of_value (htext.numberText hsign) hrest h), hskip⟩
  rw [heq] at h
  unfold valueWith at h
  rw [skipSpace_skipSpace] at h
  split at h
  · cases h
  rename_i b t hskip
  rw [hskip]
  split at h
  · rename_i hb
    obtain ⟨rfl, rfl⟩ := eq_of_word h
    exact ⟨_, .null, by rw [hb]; rfl⟩
  split at h
  · rename_i hb
    obtain ⟨rfl, rfl⟩ := eq_of_word h
    exact ⟨_, .yes, by rw [hb]; rfl⟩
  split at h
  · rename_i hb
    obtain ⟨rfl, rfl⟩ := eq_of_word h
    exact ⟨_, .no, by rw [hb]; rfl⟩
  split at h
  · rename_i hb
    obtain ⟨⟨text, left⟩, hstring, h⟩ := ok_of_bind h
    cases h
    obtain ⟨body, hbody, rfl⟩ := spelling_of_string hstring
    exact ⟨_, .string hbody, by rw [hb]; rfl⟩
  split at h
  · rename_i hb
    obtain ⟨text, hdenotes, rfl⟩ := hlist _ _ _ h
    exact ⟨_, hdenotes, by rw [hb]; rfl⟩
  split at h
  · rename_i hb
    obtain ⟨text, hdenotes, rfl⟩ := hrecord _ _ _ h
    exact ⟨_, hdenotes, by rw [hb]; rfl⟩
  split at h
  · rename_i hb
    obtain ⟨text, n, htext, hv, rfl⟩ := takes_number true _ _ _ h
    exact hskip ▸ hnumber (.inr rfl) htext hv (hskip.trans (by rw [hb]; rfl))
  split at h
  · obtain ⟨text, n, htext, hv, ht⟩ := takes_number false _ _ _ h
    exact hskip ▸ hnumber (.inl rfl) htext hv (hskip.trans ht)
  · cases h

/-- **What is taken as a value denotes it**, by induction on the levels that are left. -/
theorem takesValue (d : Nat) : TakesValue d (value d) := by
  induction d with
  | zero => exact takesValue_of_bodies rfl (takesBody_fail 0 _ _) (takesBody_fail 0 _ _)
  | succ d ih => exact takesValue_of_bodies rfl (takesBody_array ih) (takesBody_object ih)

/-! ## Whole texts -/

/-- What is read does not depend on how a fault is placed. -/
theorem whole_of_read {s : List UInt8} {v : Json} (h : read s = .ok v) : whole? s = .ok v := by
  unfold read at h
  cases hwhole : whole? s with
  | error fault =>
    rw [hwhole] at h
    cases h
  | ok result =>
    rw [hwhole] at h
    cases h
    rfl

theorem means_of_read {s : List UInt8} {v : Json} (h : read s = .ok v) : Means s v := by
  obtain ⟨⟨w, rest⟩, hvalue, h⟩ := ok_of_bind (whole_of_read h)
  dsimp only at h
  split at h
  · rename_i hskip
    cases h
    obtain ⟨back, hback, hrest⟩ := exists_gap rest
    rw [hskip, List.append_nil] at hrest
    subst hrest
    have hends := hback.endsNumber .nil
    rw [List.append_nil] at hends
    obtain ⟨front, text, hfront, hdenotes, rfl⟩ := takesValue maxDepth _ _ _ hvalue hends
    refine ⟨⟨front, text, back⟩, ⟨hfront, hback⟩, hdenotes, ?_⟩
    rw [Slot.whole, Utf8.encode_append, Utf8.encode_append]
  · cases h

/-- **A text is read exactly if it means something**, and as what it means. -/
theorem read_eq_ok_iff {s : List UInt8} {v : Json} : read s = .ok v ↔ Means s v :=
  ⟨means_of_read, read_of_means⟩

/-! ## The fields of an object -/

theorem Denotes.ascending {text : List Char} {v : Json} (h : Denotes d text v)
    {fields : List (String × Json)} (hv : v = .obj fields) : Ascending fields := by
  cases h with
  | emptyObject =>
    cases hv
    exact List.Pairwise.nil
  | object =>
    cases hv
    exact ascending_sortFields _
  | _ => cases hv

/-- **The fields of an object that is read are in ascending order, each name once.** -/
theorem ascending_of_read {s : List UInt8} {fields : List (String × Json)}
    (h : read s = .ok (.obj fields)) : Ascending fields := by
  obtain ⟨slot, -, hdenotes, -⟩ := means_of_read h
  exact hdenotes.ascending rfl

end ScriptedChat.Json

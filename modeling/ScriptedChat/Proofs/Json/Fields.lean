import Mathlib.Data.List.Basic
import Mathlib.Data.List.Induction
import ScriptedChat.Json.Basic

/-!
# Fields of an object

An object keeps its fields in ascending order of their names, so two objects
are equal as soon as every name leads to the same value in both.

What is proved here:

* `ascending_sortFields`, `sortFields_of_ascending` — the order, and that
  fields in that order are left as they are;
* `get?_object` — among several fields of one name the last one counts;
* `ascending_ext`, `object_congr` — an object is what its names lead to;
* `set_field` — setting a field changes that field only.

`set`, `asInt?` and `asNat?` are what a reader of objects needs besides
`get?`; the programs that only write them do without.
-/

namespace ScriptedChat.Json

/-- Fields in ascending order of their names, no name twice. -/
def Ascending (fields : List (String × Json)) : Prop :=
  fields.Pairwise fun a b => a.1 < b.1

theorem lt_of_not_lt_of_ne {a b : String} (h : ¬ a < b) (hne : a ≠ b) : b < a := by
  by_cases hlt : b < a
  · exact hlt
  · exact absurd (String.le_antisymm (String.not_lt.1 hlt) (String.not_lt.1 h)) hne

/-! ## Putting a field in -/

theorem mem_insertField {name : String} {value : Json} {fields : List (String × Json)}
    {field : String × Json} (h : field ∈ insertField name value fields) :
    field = (name, value) ∨ field ∈ fields := by
  induction fields with
  | nil => simpa [insertField] using h
  | cons first fields ih =>
    obtain ⟨k, v⟩ := first
    rw [insertField] at h
    split at h
    · rcases List.mem_cons.1 h with heq | hmem
      · exact Or.inl heq
      · exact Or.inr (List.mem_cons_of_mem _ hmem)
    · split at h
      · exact List.mem_cons.1 h
      · rcases List.mem_cons.1 h with heq | hmem
        · exact Or.inr (heq ▸ List.mem_cons_self)
        · exact (ih hmem).imp_right (List.mem_cons_of_mem _)

theorem ascending_insertField {name : String} {value : Json} {fields : List (String × Json)}
    (h : Ascending fields) : Ascending (insertField name value fields) := by
  induction fields with
  | nil => exact List.pairwise_singleton _ _
  | cons first fields ih =>
    obtain ⟨k, v⟩ := first
    obtain ⟨hfirst, hrest⟩ := List.pairwise_cons.1 h
    rw [insertField]
    split
    · rename_i heq
      exact List.pairwise_cons.2 ⟨fun field hmem => heq ▸ hfirst field hmem, hrest⟩
    · rename_i hne
      split
      · rename_i hlt
        refine List.pairwise_cons.2 ⟨fun field hmem => ?_, h⟩
        rcases List.mem_cons.1 hmem with rfl | hmem
        · exact hlt
        · exact String.lt_trans hlt (hfirst field hmem)
      · rename_i hge
        refine List.pairwise_cons.2 ⟨fun field hmem => ?_, ih hrest⟩
        rcases mem_insertField hmem with rfl | hmem
        · exact lt_of_not_lt_of_ne hge hne
        · exact hfirst field hmem

/-- A field after all others is put at the end. -/
theorem insertField_of_gt {name : String} {value : Json} {fields : List (String × Json)}
    (h : ∀ field ∈ fields, field.1 < name) :
    insertField name value fields = fields ++ [(name, value)] := by
  induction fields with
  | nil => rfl
  | cons first fields ih =>
    obtain ⟨k, v⟩ := first
    have hlt : k < name := h (k, v) List.mem_cons_self
    rw [insertField, if_neg (String.ne_of_lt hlt).symm, if_neg (String.lt_asymm hlt),
      ih fun field hmem => h field (List.mem_cons_of_mem _ hmem)]
    rfl

/-! ## Fields in any order -/

theorem sortFields_append (fields : List (String × Json)) (name : String) (value : Json) :
    sortFields (fields ++ [(name, value)]) = insertField name value (sortFields fields) := by
  rw [sortFields, List.foldl_append]
  rfl

theorem ascending_sortFields (fields : List (String × Json)) : Ascending (sortFields fields) := by
  induction fields using List.reverseRecOn with
  | nil => exact List.Pairwise.nil
  | append_singleton fields field ih =>
    rw [sortFields_append]
    exact ascending_insertField ih

theorem mem_of_mem_sortFields {fields : List (String × Json)} {field : String × Json}
    (h : field ∈ sortFields fields) : field ∈ fields := by
  induction fields using List.reverseRecOn with
  | nil => exact h
  | append_singleton fields last ih =>
    rw [sortFields_append] at h
    rcases mem_insertField h with rfl | hmem
    · exact List.mem_append_right _ (List.mem_singleton_self _)
    · exact List.mem_append_left _ (ih hmem)

theorem sortFields_of_ascending {fields : List (String × Json)} (h : Ascending fields) :
    sortFields fields = fields := by
  induction fields using List.reverseRecOn with
  | nil => rfl
  | append_singleton fields field ih =>
    obtain ⟨hfields, _, hlast⟩ := List.pairwise_append.1 h
    rw [sortFields_append, ih hfields,
      insertField_of_gt fun other hmem => hlast other hmem field (List.mem_singleton_self _)]

theorem object_of_ascending {fields : List (String × Json)} (h : Ascending fields) :
    object fields = .obj fields := by
  rw [object, sortFields_of_ascending h]

/-! ## Looking a name up -/

@[simp] theorem lookup_nil (name : String) : lookup name [] = none := rfl

@[simp] theorem lookup_cons (name k : String) (v : Json) (fields : List (String × Json)) :
    lookup name ((k, v) :: fields) = if k = name then some v else lookup name fields := rfl

theorem lookup_append (name : String) (fields more : List (String × Json)) :
    lookup name (fields ++ more) = (lookup name fields).or (lookup name more) := by
  induction fields with
  | nil => rfl
  | cons field fields ih =>
    rw [List.cons_append, lookup_cons, lookup_cons, ih]
    split
    · rfl
    · rfl

theorem lookup_insertField (name k : String) (value : Json) (fields : List (String × Json)) :
    lookup name (insertField k value fields) =
      if k = name then some value else lookup name fields := by
  induction fields with
  | nil => rfl
  | cons first fields ih =>
    obtain ⟨k', v'⟩ := first
    rw [insertField]
    split
    · rename_i heq
      subst heq
      by_cases hk : k = name <;> simp [hk]
    · rename_i hne
      split
      · rfl
      · rw [lookup_cons, ih, lookup_cons]
        by_cases hk' : k' = name
        · rw [if_pos hk', if_neg fun hk => hne (hk.trans hk'.symm), if_pos hk']
        · rw [if_neg hk', if_neg hk']

theorem lookup_sortFields (name : String) (fields : List (String × Json)) :
    lookup name (sortFields fields) = lookup name fields.reverse := by
  induction fields using List.reverseRecOn with
  | nil => rfl
  | append_singleton fields field ih =>
    rw [sortFields_append, lookup_insertField, ih, List.reverse_append]
    rfl

/-- The last field of a name counts. -/
@[simp] theorem get?_object (name : String) (fields : List (String × Json)) :
    (object fields).get? name = lookup name fields.reverse :=
  lookup_sortFields name fields

theorem lookup_eq_none {name : String} {fields : List (String × Json)}
    (h : ∀ field ∈ fields, field.1 ≠ name) : lookup name fields = none := by
  induction fields with
  | nil => rfl
  | cons field fields ih =>
    rw [lookup_cons, if_neg (h field List.mem_cons_self)]
    exact ih fun other hmem => h other (List.mem_cons_of_mem _ hmem)

/-- Where the value of each field depends on its name only, it does not matter how often and in which
order the names are given. -/
theorem lookup_sortFields_names (valueOf : String → Json) (names : List String) (name : String) :
    lookup name (sortFields (names.map fun name => (name, valueOf name))) =
      if name ∈ names then some (valueOf name) else none := by
  induction names using List.reverseRecOn with
  | nil => rfl
  | append_singleton names last ih =>
    rw [List.map_append, List.map_singleton, sortFields_append, lookup_insertField, ih]
    by_cases hlast : last = name
    · subst hlast
      simp
    · simp [hlast, Ne.symm hlast]

theorem mem_of_lookup {name : String} {value : Json} {fields : List (String × Json)}
    (h : lookup name fields = some value) : (name, value) ∈ fields := by
  induction fields with
  | nil => cases h
  | cons field fields ih =>
    rw [lookup_cons] at h
    split at h
    · rename_i heq
      cases h
      exact heq ▸ List.mem_cons_self
    · exact List.mem_cons_of_mem _ (ih h)

/-! ## Objects with the same content -/

/-- The first name of fields in ascending order does not come again. -/
theorem lookup_tail_of_ascending {k : String} {v : Json} {fields : List (String × Json)}
    (h : Ascending ((k, v) :: fields)) {name : String} (hle : name ≤ k) :
    lookup name fields = none :=
  lookup_eq_none fun field hmem heq =>
    String.not_lt.2 hle (heq ▸ (List.pairwise_cons.1 h).1 field hmem)

/-- The fields in ascending order are what their names lead to. -/
theorem mem_iff_lookup {name : String} {value : Json} {fields : List (String × Json)}
    (h : Ascending fields) : (name, value) ∈ fields ↔ lookup name fields = some value := by
  refine ⟨fun hmem => ?_, mem_of_lookup⟩
  induction fields with
  | nil => cases hmem
  | cons field fields ih =>
    obtain ⟨hfirst, hrest⟩ := List.pairwise_cons.1 h
    rw [lookup_cons]
    rcases List.mem_cons.1 hmem with heq | hmem
    · cases heq
      exact if_pos rfl
    · rw [if_neg (String.ne_of_lt (hfirst _ hmem))]
      exact ih hrest hmem

/-- **Fields in ascending order are determined by what their names lead to.** -/
theorem ascending_ext {a b : List (String × Json)} (ha : Ascending a) (hb : Ascending b)
    (h : ∀ name, lookup name a = lookup name b) : a = b := by
  induction a generalizing b with
  | nil =>
    cases b with
    | nil => rfl
    | cons field b =>
      have hname := h field.1
      rw [lookup_cons, if_pos rfl] at hname
      exact absurd hname nofun
  | cons field a ih =>
    obtain ⟨k, v⟩ := field
    cases b with
    | nil =>
      have hname := h k
      rw [lookup_cons, if_pos rfl] at hname
      exact absurd hname nofun
    | cons field b =>
      obtain ⟨k', v'⟩ := field
      -- the smaller of two different first names would be missing in the other list
      have hk : k = k' := by
        by_cases hlt : k < k'
        · have hname := h k
          rw [lookup_cons, if_pos rfl, lookup_cons, if_neg (String.ne_of_lt hlt).symm,
            lookup_tail_of_ascending hb (String.not_lt.1 (String.lt_asymm hlt))] at hname
          exact absurd hname nofun
        · by_cases hne : k = k'
          · exact hne
          · have hgt := lt_of_not_lt_of_ne hlt hne
            have hname := h k'
            rw [lookup_cons, if_neg hne, lookup_cons, if_pos rfl,
              lookup_tail_of_ascending ha (String.not_lt.1 hlt)] at hname
            exact absurd hname nofun
      subst hk
      have hv : v = v' := by
        have hname := h k
        rw [lookup_cons, if_pos rfl, lookup_cons, if_pos rfl] at hname
        exact Option.some.inj hname
      have hrest : a = b := by
        refine ih (List.pairwise_cons.1 ha).2 (List.pairwise_cons.1 hb).2 fun name => ?_
        by_cases hname : k = name
        · subst hname
          rw [lookup_tail_of_ascending ha (String.le_refl _),
            lookup_tail_of_ascending hb (String.le_refl _)]
        · have hboth := h name
          rwa [lookup_cons, if_neg hname, lookup_cons, if_neg hname] at hboth
      rw [hv, hrest]

theorem object_congr {a b : List (String × Json)}
    (h : ∀ name, lookup name a.reverse = lookup name b.reverse) : object a = object b := by
  refine congrArg Json.obj (ascending_ext (ascending_sortFields a) (ascending_sortFields b) ?_)
  intro name
  rw [lookup_sortFields, lookup_sortFields, h name]

/-! ## Objects in the hands of a reader -/

/-- A whole number. -/
def asInt? : Json → Option Int
  | .num (.int n) => some n
  | _ => none

/-- A whole number that is not negative. -/
def asNat? : Json → Option Nat
  | .num (.int (.ofNat n)) => some n
  | _ => none

@[simp] theorem asInt?_int (n : Int) : asInt? (.int n) = some n := rfl

@[simp] theorem asNat?_nat (n : Nat) : asNat? (.nat n) = some n := rfl

/-- An object with one field put in, in the place of the one of that name. -/
def set (whole : Json) (name : String) (value : Json) : Json :=
  match whole with
  | .obj fields => .obj (insertField name value fields)
  | other => other

theorem set_object (fields : List (String × Json)) (name : String) (value : Json) :
    (object fields).set name value = object (fields ++ [(name, value)]) := by
  rw [object, set, object, sortFields_append]

/-- **A field that is set keeps its place, and the others are as they were.** -/
theorem set_field (before : List (String × Json)) {after : List (String × Json)} {name : String}
    (value more : Json) (h : ∀ field ∈ after, field.1 ≠ name) :
    (object (before ++ (name, value) :: after)).set name more =
      object (before ++ (name, more) :: after) := by
  have hafter : lookup name after.reverse = none :=
    lookup_eq_none fun field hmem => h field (List.mem_reverse.1 hmem)
  rw [set_object]
  refine object_congr fun other => ?_
  simp only [List.reverse_append, List.reverse_cons, List.append_assoc, List.reverse_nil,
    List.nil_append, List.cons_append, lookup_cons, lookup_append]
  by_cases heq : name = other
  · subst heq
    rw [if_pos rfl, hafter, if_pos rfl]
    rfl
  · rw [if_neg heq, if_neg heq, if_neg heq]

end ScriptedChat.Json

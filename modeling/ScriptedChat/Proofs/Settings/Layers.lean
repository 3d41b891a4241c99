import ScriptedChat.Proofs.Json.Fields
import ScriptedChat.Settings.Tree

/-!
# Layers, leaf by leaf

A tree of settings has tables, and every table has leaves, which are values that
are neither tables nor arrays.  Laying a layer over a tree changes the leaves
that the layer names, and no other leaf.

* `leaf?` — the value of a leaf in a tree;
* `alone`, `given` — what an entry of a layer says, and what a layer says;
* `Clear` — an entry makes no table of a leaf, and nothing else of a table;
* `leaf?_setAt`, `leaf?_layOver` — one entry over a tree, and a whole layer.
-/

namespace ScriptedChat.Settings

/-! ## Leaves -/

/-- The value under a name in a table of a tree. -/
def leaf? (table name : String) (tree : Json) : Option Json :=
  (tree.get? table).bind (·.get? name)

/-- A value that is neither a table nor an array. -/
def Plain (value : Json) : Prop :=
  (∀ fields, value ≠ .obj fields) ∧ ∀ items, value ≠ .arr items

/-- A tree has a table of a name. -/
def HasTable (table : String) (tree : Json) : Prop :=
  ∃ fields, tree.get? table = some (.obj fields)

/-- What an entry makes of an empty tree. -/
def alone (entry : String × Json) : Json :=
  setAt entry.2 (pathOf entry.1) (.obj [])

/-- What a layer says about a leaf: the last of its entries that say something counts. -/
def given (table name : String) : List (String × Json) → Option Json
  | [] => none
  | entry :: layer => (given table name layer).or (leaf? table name (alone entry))

/-- A tree has a table under the one name and a plain value under the other, if it has anything
there. -/
structure Clear (table name : String) (tree : Json) : Prop where
  isTable : ∀ value, tree.get? table = some value → ∃ fields, value = .obj fields
  isPlain : ∀ value, leaf? table name tree = some value → Plain value

variable {table name : String}

/-! ## Tables merged with tables -/

/-- What comes of a value when the fields of a name are laid over it, one after the other. -/
def laid (name : String) : List (String × Json) → Option Json → Option Json
  | [], value => value
  | (k, more) :: fields, value =>
    laid name fields (if k = name then some (merge (value.getD .null) more) else value)

theorem lookup_mergeFields (name : String) (base fields : List (String × Json)) :
    Json.lookup name (mergeFields base fields) = laid name fields (Json.lookup name base) := by
  induction fields generalizing base with
  | nil => rw [mergeFields, laid]
  | cons field fields ih =>
    obtain ⟨k, more⟩ := field
    rw [mergeFields, ih, laid, Json.lookup_insertField]
    by_cases hk : k = name
    · subst hk
      rfl
    · rw [if_neg hk, if_neg hk]

theorem laid_some (name : String) (fields : List (String × Json)) (value : Json) :
    ∃ result, laid name fields (some value) = some result := by
  induction fields generalizing value with
  | nil => exact ⟨value, rfl⟩
  | cons field fields ih =>
    obtain ⟨k, more⟩ := field
    rw [laid]
    split
    · exact ih _
    · exact ih _

theorem merge_of_plain {base value : Json} (h : ∀ fields, value ≠ .obj fields) :
    merge base value = value := by
  cases value with
  | obj fields => exact absurd rfl (h fields)
  | _ =>
    rw [merge]
    · exact nofun
    · exact nofun

/-- A table over a table is a table, and so it is over nothing. -/
theorem merge_table {base : Json} (hbase : base = .null ∨ ∃ content, base = .obj content)
    (fields : List (String × Json)) : ∃ content, merge base (.obj fields) = .obj content := by
  cases fields with
  | nil =>
    rcases hbase with rfl | ⟨content, rfl⟩
    · exact ⟨[], by rw [merge]⟩
    · exact ⟨content, by rw [merge]; exact nofun⟩
  | cons field fields => exact ⟨_, by rw [merge]⟩

/-- Two values of a name that the same fields are laid over: nothing has been laid over the first
one so far, or it is the same as the second one, or it is a table. -/
inductive Follows : Option Json → Option Json → Prop where
  | nothing (value : Option Json) : Follows none value
  | same (value : Option Json) : Follows value value
  | table (fields : List (String × Json)) (value : Option Json) : Follows (some (.obj fields)) value

theorem follows_merge {first second : Option Json} (h : Follows first second) (more : Json) :
    Follows (some (merge (first.getD .null) more)) (some (merge (second.getD .null) more)) := by
  by_cases hmore : ∃ fields, more = .obj fields
  · obtain ⟨fields, rfl⟩ := hmore
    cases h with
    | nothing =>
      obtain ⟨content, hmerge⟩ := merge_table (.inl rfl) fields
      rw [Option.getD_none, hmerge]
      exact .table content _
    | same => exact .same _
    | table base =>
      obtain ⟨content, hmerge⟩ := merge_table (.inr ⟨base, rfl⟩) fields
      rw [Option.getD_some, hmerge]
      exact .table content _
  · have hplain : ∀ fields, more ≠ .obj fields := fun fields heq => hmore ⟨fields, heq⟩
    rw [merge_of_plain hplain, merge_of_plain hplain]
    exact .same _

/-- **A plain value that comes of nothing comes of everything.**  Otherwise nothing has been laid
over the value. -/
theorem laid_of_plain {fields : List (String × Json)} {first second : Option Json}
    (h : Follows first second) (hplain : ∀ value, laid name fields first = some value → Plain value) :
    laid name fields second = (laid name fields first).or second := by
  induction fields generalizing first second with
  | nil =>
    cases h with
    | nothing => rfl
    | same => rw [laid, Option.or_self]
    | table content => exact absurd rfl ((hplain _ rfl).1 content)
  | cons field fields ih =>
    obtain ⟨k, more⟩ := field
    rw [laid] at hplain ⊢
    rw [laid]
    by_cases hk : k = name
    · rw [if_pos hk] at hplain ⊢
      rw [if_pos hk, ih (follows_merge h more) hplain]
      obtain ⟨result, hresult⟩ := laid_some name fields (merge (first.getD .null) more)
      rw [hresult]
      rfl
    · rw [if_neg hk] at hplain ⊢
      rw [if_neg hk]
      exact ih h hplain

/-! ## One entry -/

/-- The first step of a way is a name. -/
theorem pathOf_cons (key : String) : ∃ first steps, pathOf key = .field first :: steps := by
  unfold pathOf path?
  cases hname : name? key.toList with
  | none => exact ⟨key, [], rfl⟩
  | some result =>
    obtain ⟨step, rest⟩ := result
    unfold name? at hname
    simp only at hname
    split at hname
    · cases hname
    · cases hname
      cases hsteps : steps? (key.toList.dropWhile isNameChar).length
          (key.toList.dropWhile isNameChar) with
      | none => exact ⟨key, [], by simp [hsteps]⟩
      | some steps =>
        exact ⟨String.ofList (key.toList.takeWhile isNameChar), steps, by simp [hsteps]⟩

theorem get?_setAt_field (value : Json) (first : String) (steps : List Step) (base : Json)
    (name : String) :
    (setAt value (.field first :: steps) base).get? name =
      if first = name then some (setAt value steps ((base.get? first).getD .null))
      else base.get? name := by
  have hfields (name : String) :
      Json.lookup name (base.asFields?.getD []) = base.get? name := by
    cases base <;> rfl
  rw [setAt, Json.get?, changeField, Json.lookup_insertField, hfields, hfields]

/-- A plain value stands at the end of a way whatever was there. -/
theorem setAt_of_plain {value : Json} {steps : List Step} (h : Plain (setAt value steps .null))
    (base : Json) : setAt value steps base = setAt value steps .null := by
  cases steps with
  | nil =>
    have hvalue : ∀ fields, value ≠ .obj fields := by
      rintro fields rfl
      obtain ⟨content, hmerge⟩ := merge_table (.inl rfl) fields
      rw [setAt] at h
      exact h.1 content hmerge
    rw [setAt, setAt, merge_of_plain hvalue, merge_of_plain hvalue]
  | cons step steps =>
    cases step with
    | field first =>
      rw [setAt] at h
      exact absurd rfl (h.1 _)
    | item index =>
      rw [setAt] at h
      exact absurd rfl (h.2 _)

/-- What a way inside a table changes of the table. -/
theorem get?_setAt_table (content : List (String × Json)) {value : Json} {steps : List Step}
    (htable : ∃ fields, setAt value steps .null = .obj fields)
    (hplain : ∀ result, (setAt value steps .null).get? name = some result → Plain result) :
    (∃ fields, setAt value steps (.obj content) = .obj fields) ∧
      (setAt value steps (.obj content)).get? name =
        ((setAt value steps .null).get? name).or (Json.lookup name content) := by
  cases steps with
  | nil =>
    simp only [setAt] at htable hplain ⊢
    by_cases hvalue : ∃ fields, value = .obj fields
    · obtain ⟨fields, rfl⟩ := hvalue
      refine ⟨merge_table (.inr ⟨content, rfl⟩) fields, ?_⟩
      cases fields with
      | nil =>
        rw [merge, merge]
        · rfl
        · exact nofun
      | cons field fields =>
        rw [merge] at hplain
        rw [merge, merge]
        simp only [Json.get?, Json.asFields?, Option.getD_some, Option.getD_none,
          lookup_mergeFields, Json.lookup_nil] at hplain ⊢
        exact laid_of_plain (.nothing _) hplain
    · obtain ⟨fields, hmerge⟩ := htable
      rw [merge_of_plain fun fields heq => hvalue ⟨fields, heq⟩] at hmerge
      exact absurd ⟨fields, hmerge⟩ hvalue
  | cons step steps =>
    cases step with
    | field first =>
      refine ⟨⟨_, by rw [setAt]⟩, ?_⟩
      simp only [get?_setAt_field] at hplain ⊢
      by_cases hfirst : first = name
      · rw [if_pos hfirst] at hplain ⊢
        rw [if_pos hfirst, setAt_of_plain (hplain _ rfl)]
        rfl
      · rw [if_neg hfirst, if_neg hfirst]
        rfl
    | item index =>
      obtain ⟨fields, hfields⟩ := htable
      rw [setAt] at hfields
      cases hfields

/-- **One entry.**  It changes the leaf if it says something about it, and the table stays one. -/
theorem leaf?_setAt {entry : String × Json} (h : Clear table name (alone entry)) {base : Json}
    (hbase : HasTable table base) :
    HasTable table (setAt entry.2 (pathOf entry.1) base) ∧
      leaf? table name (setAt entry.2 (pathOf entry.1) base) =
        (leaf? table name (alone entry)).or (leaf? table name base) := by
  obtain ⟨content, hcontent⟩ := hbase
  obtain ⟨first, steps, hpath⟩ := pathOf_cons entry.1
  obtain ⟨htable, hplain⟩ := h
  simp only [alone, leaf?, HasTable, hpath, get?_setAt_field, hcontent] at htable hplain ⊢
  by_cases hfirst : first = table
  · subst hfirst
    simp only [if_true, hcontent, Option.bind_some, Option.getD_some] at htable hplain ⊢
    obtain ⟨⟨fields, hfields⟩, hleaf⟩ := get?_setAt_table content (htable _ rfl) hplain
    exact ⟨⟨fields, congrArg some hfields⟩, hleaf⟩
  · simp only [if_neg hfirst]
    exact ⟨⟨content, rfl⟩, rfl⟩

/-- An entry for a leaf, with a value that is no table, says nothing else. -/
theorem alone_of_path {key table name : String} {value : Json}
    (hpath : pathOf key = [.field table, .field name]) (hvalue : ∀ fields, value ≠ .obj fields) :
    alone (key, value) = .obj [(table, .obj [(name, value)])] := by
  simp [alone, hpath, setAt, changeField, merge_of_plain hvalue, Json.insertField, Json.asFields?]

/-! ## A layer -/

/-- **A layer changes the leaves that it says something about**, by induction on its entries. -/
theorem leaf?_layOver {layer : List (String × Json)}
    (h : ∀ entry ∈ layer, Clear table name (alone entry)) {base : Json}
    (hbase : HasTable table base) :
    HasTable table (layOver base layer) ∧
      leaf? table name (layOver base layer) =
        (given table name layer).or (leaf? table name base) := by
  induction layer generalizing base with
  | nil => exact ⟨hbase, rfl⟩
  | cons entry layer ih =>
    obtain ⟨hentry, hlayer⟩ := List.forall_mem_cons.1 h
    obtain ⟨htable, hleaf⟩ := leaf?_setAt hentry hbase
    obtain ⟨hall, hgiven⟩ := ih hlayer htable
    refine ⟨hall, ?_⟩
    rw [given, Option.or_assoc, ← hleaf, ← hgiven]
    rfl

example : (given "emitter" "words_per_chunk"
    [("emitter", .obj [("words_per_chunk", .int 5)]),
     ("emitter.words_per_chunk", .int 7)]).bind Json.asNat? = some 7 := by decide +kernel

end ScriptedChat.Settings

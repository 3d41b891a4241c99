import Mathlib.Algebra.GroupWithZero.Nat
import ScriptedChat.Proofs.EventStream.Production
import ScriptedChat.Proofs.Json.OneLine
import ScriptedChat.Proofs.Text.Blank
import ScriptedChat.Proofs.Text.Search

/-!
# Frames on the wire

The text of a frame is two lines at most and an empty line after them.  It is
read back as that frame exactly if neither the name nor the data has a line
feed and no blanks stand around the name.

What is proved here:

* `lines_append`, `blocks_append` — one line, and one block, before any other text;
* `parse_encode` — legible frames are read back;
* `legible_event_of_mem_parse` — no name that is read breaks the rule;
* `length_data_of_broken` — data with a line feed is read back shorter;
* `legible_frames` — what both streams write is legible, because compact text
  is one line;
* `wire_round_trip` — all of it in one statement.
-/

namespace ScriptedChat

/-! ## Frames that can be read back -/

/-- A name that is read back: one line without blanks around it. -/
def LegibleName (name : String) : Prop :=
  '\n' ∉ name.toList ∧ Text.trim name.toList = name.toList

instance (name : String) : Decidable (LegibleName name) := inferInstanceAs (Decidable (_ ∧ _))

/-- A frame that is read back: data of one line, and a legible name or none. -/
def Frame.Legible (frame : Frame) : Prop :=
  '\n' ∉ frame.data.toList ∧ ∀ name ∈ frame.event, LegibleName name

instance (frame : Frame) : Decidable frame.Legible := inferInstanceAs (Decidable (_ ∧ _))

namespace EventStream

/-! ## Lines -/

/-- A line without the carriage return that belongs to its end. -/
def dropReturn : List Char → List Char
  | [] => []
  | ['\r'] => []
  | c :: line => c :: dropReturn line

theorem dropReturn_cons {c : Char} {line : List Char} (h : c ≠ '\r' ∨ line ≠ []) :
    dropReturn (c :: line) = c :: dropReturn line := by
  rw [dropReturn]
  rintro rfl rfl
  exact h.elim (absurd rfl) (absurd rfl)

theorem dropReturn_of_getLast {line : List Char} (h : line.getLast? ≠ some '\r') :
    dropReturn line = line := by
  fun_induction dropReturn line with
  | case1 => rfl
  | case2 => exact absurd rfl h
  | case3 c line hne ih =>
    cases line with
    | nil => rfl
    | cons d line => rw [ih (by rwa [List.getLast?_cons_cons] at h)]

theorem length_dropReturn_le (line : List Char) : (dropReturn line).length ≤ line.length := by
  fun_induction dropReturn line with
  | case1 => exact Nat.le_refl _
  | case2 => exact Nat.zero_le _
  | case3 c line _ ih => exact Nat.succ_le_succ ih

theorem lines_of_not_mem {line : List Char} (h : '\n' ∉ line) : lines line = [line] := by
  fun_induction lines line with
  | case1 => rfl
  | case2 text _ => exact absurd List.mem_cons_self h
  | case3 text _ => exact absurd (List.mem_cons_of_mem _ List.mem_cons_self) h
  | case4 c text _ _ ih =>
    rw [ih fun hmem => h (List.mem_cons_of_mem _ hmem), consPart]

/-- **One line before any other text.** -/
theorem lines_append {line : List Char} (h : '\n' ∉ line) (text : List Char) :
    lines (line ++ '\n' :: text) = dropReturn line :: lines text := by
  induction line with
  | nil => rfl
  | cons c line ih =>
    have hc : c ≠ '\n' := fun heq => h (heq ▸ List.mem_cons_self)
    have hline : '\n' ∉ line := fun hmem => h (List.mem_cons_of_mem _ hmem)
    by_cases hlast : c = '\r' ∧ line = []
    · obtain ⟨rfl, rfl⟩ := hlast
      rfl
    · have hne : c ≠ '\r' ∨ line ≠ [] := by
        by_cases hreturn : c = '\r'
        · exact Or.inr fun hnil => hlast ⟨hreturn, hnil⟩
        · exact Or.inl hreturn
      have hcons : lines (c :: (line ++ '\n' :: text)) = consPart c (lines (line ++ '\n' :: text)) := by
        rw [lines]
        · exact hc
        · intro more hreturn hmore
          rcases hne with hne | hne
          · exact hne hreturn
          · cases line with
            | nil => exact hne rfl
            | cons d line =>
              rw [List.cons_append] at hmore
              exact hline ((List.cons.inj hmore).1 ▸ List.mem_cons_self)
      rw [List.cons_append, hcons, ih hline, consPart, dropReturn_cons hne]

theorem newline_not_mem_lines {line text : List Char} (h : line ∈ lines text) : '\n' ∉ line := by
  fun_induction lines text generalizing line with
  | case1 =>
    rw [List.mem_singleton.1 h]
    exact List.not_mem_nil
  | case2 text ih =>
    rcases List.mem_cons.1 h with rfl | h
    · exact List.not_mem_nil
    · exact ih h
  | case3 text ih =>
    rcases List.mem_cons.1 h with rfl | h
    · exact List.not_mem_nil
    · exact ih h
  | case4 c text hc _ ih =>
    have hc' : '\n' ≠ c := fun heq => hc heq.symm
    cases hlines : lines text with
    | nil =>
      rw [hlines, consPart, List.mem_singleton] at h
      rw [h]
      simpa using hc'
    | cons first more =>
      rw [hlines, consPart] at h
      rcases List.mem_cons.1 h with rfl | h
      · have hfirst := ih (hlines ▸ List.mem_cons_self)
        simp [hc', hfirst]
      · exact ih (hlines ▸ List.mem_cons_of_mem _ h)

/-- Every line takes up its own characters and one for its end. -/
theorem sum_length_lines_le (text : List Char) :
    ((lines text).map fun line => line.length + 1).sum ≤ text.length + 1 := by
  fun_induction lines text with
  | case1 => exact Nat.le_refl _
  | case2 text ih => simp only [List.map_cons, List.sum_cons, List.length_nil, List.length_cons]; omega
  | case3 text ih => simp only [List.map_cons, List.sum_cons, List.length_nil, List.length_cons]; omega
  | case4 c text _ _ ih =>
    cases hlines : lines text with
    | nil =>
      rw [consPart]
      simp
    | cons first more =>
      rw [hlines] at ih
      rw [consPart]
      simp only [List.map_cons, List.sum_cons, List.length_cons] at ih ⊢
      omega

/-! ## Blocks -/

theorem blocks_cons {c : Char} (h : c ≠ '\n') (text : List Char) :
    blocks (c :: text) = consPart c (blocks text) := by
  rw [blocks]
  exact fun _ heq _ => h heq

/-- A line belongs to the block that goes on after it. -/
theorem blocks_line {line text first : List Char} {more : List (List Char)} (h : '\n' ∉ line)
    (htext : blocks text = first :: more) : blocks (line ++ text) = (line ++ first) :: more := by
  induction line with
  | nil => exact htext
  | cons c line ih =>
    have hc : c ≠ '\n' := fun heq => h (heq ▸ List.mem_cons_self)
    have hline : '\n' ∉ line := fun hmem => h (List.mem_cons_of_mem _ hmem)
    rw [List.cons_append, blocks_cons hc, ih hline]
    rfl

/-- **One block of a line before any other text.** -/
theorem blocks_append {line : List Char} (h : '\n' ∉ line) (text : List Char) :
    blocks (line ++ '\n' :: '\n' :: text) = line :: blocks text := by
  have hend : blocks ('\n' :: '\n' :: text) = [] :: blocks text := rfl
  rw [blocks_line h hend, List.append_nil]

/-- Two lines, the second of them not empty, are in one block. -/
theorem blocks_lines {line text next : List Char} {more : List (List Char)} {c : Char}
    (h : '\n' ∉ line) (hc : c ≠ '\n') (htext : blocks (c :: text) = next :: more) :
    blocks (line ++ '\n' :: c :: text) = (line ++ '\n' :: next) :: more := by
  have hend : blocks ('\n' :: c :: text) = ('\n' :: next) :: more := by
    rw [blocks, htext]
    · rfl
    · exact fun _ _ heq => hc (List.cons.inj heq).1
  exact blocks_line h hend

/-- What follows a line within its block: nothing, or a line feed and further lines. -/
theorem blocks_newline (text : List Char) :
    ∃ tail more, blocks ('\n' :: text) = tail :: more ∧
      (tail = [] ∨ ∃ next, tail = '\n' :: next ∧ next.length ≤ text.length) := by
  have hfirst : ∀ text : List Char, ∃ first more,
      blocks text = first :: more ∧ first.length ≤ text.length := by
    intro text
    fun_induction blocks text with
    | case1 => exact ⟨[], [], rfl, Nat.le_refl _⟩
    | case2 text _ => exact ⟨[], blocks text, rfl, Nat.zero_le _⟩
    | case3 c text _ ih =>
      obtain ⟨first, more, heq, hlen⟩ := ih
      exact ⟨c :: first, more, by rw [heq]; rfl, Nat.succ_le_succ hlen⟩
  by_cases h : ∃ rest, text = '\n' :: rest
  · obtain ⟨rest, rfl⟩ := h
    exact ⟨[], blocks rest, rfl, Or.inl rfl⟩
  · obtain ⟨first, more, heq, hlen⟩ := hfirst text
    refine ⟨'\n' :: first, more, ?_, Or.inr ⟨first, rfl, hlen⟩⟩
    rw [blocks, heq]
    · rfl
    · exact fun rest _ htext => h ⟨rest, htext⟩

/-! ## One line of a block -/

/-- The line with a name. -/
def eventLine (name : List Char) : List Char := "event: ".toList ++ name

/-- The line with data. -/
def dataLine (data : List Char) : List Char := "data: ".toList ++ data

theorem dataLine_append (data more : List Char) : dataLine (data ++ more) = dataLine data ++ more :=
  (List.append_assoc _ _ _).symm

theorem addLine_eventLine (content : Content) (name : List Char) :
    content.addLine (eventLine name) = { content with event := some (Text.trim name) } := by
  have hblank : Text.trim (' ' :: name) = Text.trim name := rfl
  rw [← hblank]
  rfl

theorem addLine_dataLine (content : Content) (data : List Char) :
    content.addLine (dataLine data) = { content with data := content.data ++ [data] } := rfl

theorem dropReturn_dataLine (data : List Char) :
    dropReturn (dataLine data) = dataLine (dropReturn data) := by
  cases data with
  | nil => rfl
  | cons c data => rfl

/-- A name without blanks at its end leaves no carriage return to drop. -/
theorem dropReturn_eventLine {name : List Char} (h : Text.trim name = name) :
    dropReturn (eventLine name) = eventLine name := by
  refine dropReturn_of_getLast fun hlast => ?_
  cases name with
  | nil => exact absurd hlast (by decide)
  | cons c name =>
    have hname : (c :: name).getLast? = some '\r' :=
      (List.getLast?_append_of_ne_nil "event: ".toList (List.cons_ne_nil c name)).symm.trans hlast
    exact absurd (Text.isBlank_getLast_of_trim h '\r' hname) (by decide)

theorem newline_not_mem_eventLine {name : List Char} (h : '\n' ∉ name) : '\n' ∉ eventLine name :=
  List.not_mem_append (by decide) h

theorem newline_not_mem_dataLine {data : List Char} (h : '\n' ∉ data) : '\n' ∉ dataLine data :=
  List.not_mem_append (by decide) h

/-! ## Legible frames -/

theorem toList_encode_unnamed (data : String) :
    (Frame.mk none data).encode.toList = dataLine data.toList ++ ['\n', '\n'] := by
  rw [Frame.encode, String.toList_append, String.toList_append]
  rfl

theorem toList_encode_named (name data : String) :
    (Frame.mk (some name) data).encode.toList =
      eventLine name.toList ++ '\n' :: (dataLine data.toList ++ ['\n', '\n']) := by
  have hname : ("event: " ++ name).toList = eventLine name.toList := String.toList_append
  have hdata : ("\ndata: ".toList ++ data.toList) ++ ['\n', '\n'] =
      '\n' :: (dataLine data.toList ++ ['\n', '\n']) := rfl
  rw [Frame.encode, String.toList_append, String.toList_append, String.toList_append, hname,
    ← hdata, ← List.append_assoc, ← List.append_assoc]
  rfl

/-- What all lines of a block say. -/
def contentOf (block : List Char) : Content :=
  (lines block).foldl Content.addLine { event := none, data := [] }

theorem frame?_eq (block : List Char) :
    frame? block = if (contentOf block).data.isEmpty then none else some
      { event := (contentOf block).event.map String.ofList
        data := String.ofList (List.intercalate ['\n'] (contentOf block).data) } := rfl

/-- The frame of a block with data. -/
theorem frame?_of_data {block line : List Char} {more : List (List Char)}
    (h : (contentOf block).data = line :: more) :
    frame? block = some
      { event := (contentOf block).event.map String.ofList
        data := String.ofList (List.intercalate ['\n'] (line :: more)) } := by
  rw [frame?_eq, h]
  rfl

/-- **A legible frame before any other text.** -/
theorem blocks_encode {frame : Frame} (h : frame.Legible) (text : List Char) :
    ∃ block, blocks (frame.encode.toList ++ text) = block :: blocks text ∧
      frame? block = some frame := by
  obtain ⟨event, data⟩ := frame
  obtain ⟨hdata, hevent⟩ := h
  have hdataLine := newline_not_mem_dataLine hdata
  have hend : blocks (dataLine data.toList ++ '\n' :: '\n' :: text) =
      dataLine data.toList :: blocks text := blocks_append hdataLine text
  cases event with
  | none =>
    refine ⟨dataLine data.toList, ?_, ?_⟩
    · rw [toList_encode_unnamed, List.append_assoc]
      exact hend
    · have hcontent : contentOf (dataLine data.toList) =
          { event := none, data := [data.toList] } := by
        rw [contentOf, lines_of_not_mem hdataLine]
        rfl
      rw [frame?_of_data (congrArg Content.data hcontent), List.intercalate_singleton,
        String.ofList_toList, hcontent]
      rfl
  | some name =>
    obtain ⟨hname, htrim⟩ := hevent name rfl
    refine ⟨eventLine name.toList ++ '\n' :: dataLine data.toList, ?_, ?_⟩
    · rw [toList_encode_named]
      simp only [List.append_assoc, List.cons_append]
      exact blocks_lines (newline_not_mem_eventLine hname) (by decide) hend
    · have hcontent : contentOf (eventLine name.toList ++ '\n' :: dataLine data.toList) =
          { event := some name.toList, data := [data.toList] } := by
        rw [contentOf, lines_append (newline_not_mem_eventLine hname), lines_of_not_mem hdataLine,
          dropReturn_eventLine htrim, List.foldl_cons, addLine_eventLine, htrim, List.foldl_cons,
          addLine_dataLine]
        rfl
      rw [frame?_of_data (congrArg Content.data hcontent), List.intercalate_singleton,
        String.ofList_toList, hcontent, Option.map_some, String.ofList_toList]

/-- **Legible frames are read back**, as many as there were and in their order. -/
theorem parse_encode {frames : List Frame} (h : ∀ frame ∈ frames, frame.Legible) :
    parse (encode frames) = frames := by
  induction frames with
  | nil => rfl
  | cons frame frames ih =>
    obtain ⟨block, hblocks, hframe⟩ :=
      blocks_encode (h frame List.mem_cons_self) (encode frames).toList
    have htext : (encode (frame :: frames)).toList =
        frame.encode.toList ++ (encode frames).toList := by
      rw [encode, List.map_cons, String.join_cons, String.toList_append, encode]
    rw [parse, htext, hblocks, List.filterMap_cons, hframe]
    exact congrArg (frame :: ·) (ih fun other hmem => h other (List.mem_cons_of_mem _ hmem))

/-! ## What one line can say -/

/-- **A line names the block, adds data to it, or says nothing.** -/
theorem addLine_cases (content : Content) (line : List Char) :
    (∃ name, line = "event:".toList ++ name ∧
      content.addLine line = { content with event := some (Text.trim name) }) ∨
    (∃ data, line = "data:".toList ++ data ∧
      content.addLine line = { content with data := content.data ++ [dropSpace data] }) ∨
    content.addLine line = content := by
  unfold Content.addLine
  split
  · rename_i name h
    exact Or.inl ⟨name, Text.afterFront?_eq_some.1 h, rfl⟩
  · split
    · rename_i data h
      exact Or.inr (Or.inl ⟨data, Text.afterFront?_eq_some.1 h, rfl⟩)
    · exact Or.inr (Or.inr rfl)

/-- A name that has been read is one line without blanks around it. -/
theorem event_foldl_addLine {lines : List (List Char)} (hlines : ∀ line ∈ lines, '\n' ∉ line)
    {content : Content} (h : ∀ name ∈ content.event, '\n' ∉ name ∧ Text.trim name = name) :
    ∀ name ∈ (lines.foldl Content.addLine content).event, '\n' ∉ name ∧ Text.trim name = name := by
  induction lines generalizing content with
  | nil => exact h
  | cons line lines ih =>
    refine ih (fun other hmem => hlines other (List.mem_cons_of_mem _ hmem)) ?_
    rcases addLine_cases content line with ⟨name, hline, hadd⟩ | ⟨data, _, hadd⟩ | hadd
    · rw [hadd]
      intro trimmed heq
      cases heq
      have hname : '\n' ∉ name := fun hmem =>
        hlines line List.mem_cons_self (hline ▸ List.mem_append_right _ hmem)
      exact ⟨fun hmem => hname (Text.mem_of_mem_trim hmem), Text.trim_trim name⟩
    · rw [hadd]
      exact h
    · rw [hadd]
      exact h

/-- Data that has been read is added at the end, and every line of it is shorter than the line it
stood in by the name of the field. -/
theorem data_foldl_addLine (lines : List (List Char)) (content : Content) :
    ∃ data, (lines.foldl Content.addLine content).data = content.data ++ data ∧
      (data.map fun line => line.length + 1).sum + 5 * data.length ≤
        (lines.map fun line => line.length + 1).sum := by
  induction lines generalizing content with
  | nil => exact ⟨[], (List.append_nil _).symm, Nat.le_refl _⟩
  | cons line lines ih =>
    obtain ⟨data, hdata, hsum⟩ := ih (content.addLine line)
    rw [List.foldl_cons, hdata, List.map_cons, List.sum_cons]
    rcases addLine_cases content line with ⟨name, _, hadd⟩ | ⟨first, hline, hadd⟩ | hadd
    · exact ⟨data, by rw [hadd], by omega⟩
    · refine ⟨dropSpace first :: data, by rw [hadd, List.append_assoc]; rfl, ?_⟩
      have hshort : (dropSpace first).length ≤ first.length := by
        unfold dropSpace
        split
        · exact Nat.le_succ _
        · exact Nat.le_refl _
      have hlength : line.length = 5 + first.length := by
        rw [hline, List.length_append]
        rfl
      rw [List.map_cons, List.sum_cons, List.length_cons]
      omega
    · exact ⟨data, by rw [hadd], by omega⟩

/-! ## Frames that are not legible -/

/-- **No frame that is read has an illegible name.** -/
theorem legibleName_of_mem_parse {text : String} {frame : Frame} (h : frame ∈ parse text) :
    ∀ name ∈ frame.event, LegibleName name := by
  obtain ⟨block, _, hframe⟩ := List.mem_filterMap.1 h
  have hnames : ∀ name ∈ (contentOf block).event, '\n' ∉ name ∧ Text.trim name = name :=
    event_foldl_addLine (fun line hmem => newline_not_mem_lines hmem) nofun
  rw [frame?_eq] at hframe
  split at hframe
  · exact absurd hframe nofun
  · cases hframe
    intro name hname
    obtain ⟨read, hread, rfl⟩ := Option.map_eq_some_iff.1 hname
    rw [LegibleName, String.toList_ofList]
    exact hnames read hread

theorem length_intercalate_newline (line : List Char) (more : List (List Char)) :
    (List.intercalate ['\n'] (line :: more)).length =
      line.length + (more.map fun line => line.length + 1).sum := by
  induction more generalizing line with
  | nil => rw [List.intercalate_singleton]; rfl
  | cons next more ih =>
    rw [List.intercalate_cons_cons, List.length_append, List.length_append, ih, List.map_cons,
      List.sum_cons, List.length_singleton]
    omega

/-- The block of a data line has a frame.  Lines after the first one lose the name of their field,
so the data is shorter than all that followed the first name. -/
theorem length_data_of_newline (content : Content) {data next tail : List Char}
    (hdata : '\n' ∉ data) (hcontent : content.data = [])
    (htail : tail = [] ∨ ∃ more, tail = '\n' :: more ∧ more.length ≤ next.length + 2) :
    ∃ line more, ((lines (dataLine data ++ tail)).foldl Content.addLine content).data = line :: more ∧
      (List.intercalate ['\n'] (line :: more)).length < data.length + 1 + next.length := by
  have hline := newline_not_mem_dataLine hdata
  rcases htail with rfl | ⟨rest, rfl, hlen⟩
  · refine ⟨data, [], ?_, ?_⟩
    · rw [List.append_nil, lines_of_not_mem hline, List.foldl_cons, addLine_dataLine, hcontent]
      rfl
    · rw [List.intercalate_singleton]
      omega
  · obtain ⟨more, hmore, hsum⟩ := data_foldl_addLine (lines rest)
      (content.addLine (dataLine (dropReturn data)))
    have hshort := length_dropReturn_le data
    have hlines := sum_length_lines_le rest
    refine ⟨dropReturn data, more, ?_, ?_⟩
    · rw [lines_append hline, dropReturn_dataLine, List.foldl_cons, hmore, addLine_dataLine, hcontent]
      rfl
    · rw [length_intercalate_newline]
      cases more with
      | nil =>
        simp only [List.map_nil, List.sum_nil]
        omega
      | cons first more =>
        rw [List.length_cons] at hsum
        omega

/-- The first block of a frame whose name is legible is read as a frame, with shorter data if the
data has a line feed. -/
theorem blocks_encode_broken {frame : Frame} (hname : ∀ name ∈ frame.event, LegibleName name)
    (hdata : '\n' ∈ frame.data.toList) :
    ∃ block more read, blocks frame.encode.toList = block :: more ∧ frame? block = some read ∧
      read.data.length < frame.data.length := by
  obtain ⟨event, whole⟩ := frame
  obtain ⟨data, next, hwhole, hline⟩ := List.eq_append_cons_of_mem hdata
  obtain ⟨tail, more, htail, hlength⟩ := blocks_newline (next ++ ['\n', '\n'])
  rw [List.length_append] at hlength
  have hrest : dataLine whole.toList ++ ['\n', '\n'] =
      dataLine data ++ '\n' :: (next ++ ['\n', '\n']) := by
    rw [show whole.toList = data ++ '\n' :: next from hwhole, dataLine_append, List.append_assoc,
      List.cons_append]
  have hblocks : blocks (dataLine data ++ '\n' :: (next ++ ['\n', '\n'])) =
      (dataLine data ++ tail) :: more := blocks_line (newline_not_mem_dataLine hline) htail
  have hwholeLength : whole.length = data.length + 1 + next.length := by
    rw [← String.length_toList, show whole.toList = data ++ '\n' :: next from hwhole,
      List.length_append, List.length_cons]
    omega
  cases event with
  | none =>
    obtain ⟨line, others, hread, hshort⟩ :=
      length_data_of_newline { event := none, data := [] } hline rfl hlength
    refine ⟨dataLine data ++ tail, more, _, ?_, frame?_of_data hread, ?_⟩
    · rw [toList_encode_unnamed, hrest, hblocks]
    · rw [String.length_ofList, hwholeLength]
      exact hshort
  | some name =>
    obtain ⟨hnewline, htrim⟩ := hname name rfl
    obtain ⟨line, others, hread, hshort⟩ :=
      length_data_of_newline { event := some name.toList, data := [] } hline rfl hlength
    have hlines : (lines (eventLine name.toList ++ '\n' :: (dataLine data ++ tail))).foldl
        Content.addLine { event := none, data := [] } =
          (lines (dataLine data ++ tail)).foldl Content.addLine
            { event := some name.toList, data := [] } := by
      rw [lines_append (newline_not_mem_eventLine hnewline), dropReturn_eventLine htrim,
        List.foldl_cons, addLine_eventLine, htrim]
    refine ⟨eventLine name.toList ++ '\n' :: (dataLine data ++ tail), more, _, ?_,
      frame?_of_data (hlines ▸ hread), ?_⟩
    · rw [toList_encode_named, hrest]
      exact blocks_lines (newline_not_mem_eventLine hnewline) (by decide) hblocks
    · rw [String.length_ofList, hwholeLength]
      exact hshort

/-- **Only legible frames are read back.** -/
theorem parse_ne_of_not_legible {frame : Frame} (h : ¬ frame.Legible) :
    parse frame.encode ≠ [frame] := by
  intro hparse
  have hname := legibleName_of_mem_parse (hparse ▸ List.mem_singleton_self frame)
  have hdata : '\n' ∈ frame.data.toList := by
    by_contra hdata
    exact h ⟨hdata, hname⟩
  obtain ⟨block, more, read, hblocks, hframe, hlength⟩ := blocks_encode_broken hname hdata
  rw [parse, hblocks, List.filterMap_cons, hframe] at hparse
  have hread : read = frame := (List.cons.inj hparse).1
  rw [hread] at hlength
  exact Nat.lt_irrefl _ hlength

/-! ## Both streams -/

theorem legible_ofJson (event : Option String) (h : ∀ name ∈ event, LegibleName name)
    (payload : Json) : (Frame.ofJson event payload).Legible :=
  ⟨Json.newline_not_mem_compact payload, h⟩

theorem legibleName_name (event : Message.Event) : LegibleName event.name := by
  cases event with
  | messageStart => decide
  | blockStart index block => exact (by decide : LegibleName "content_block_start")
  | blockDelta index delta => exact (by decide : LegibleName "content_block_delta")
  | blockStop index => exact (by decide : LegibleName "content_block_stop")
  | messageDelta => decide
  | messageStop => decide

end EventStream

theorem Completion.legible_frames (settings : StreamSettings) (plan : Plan) (stamp : Stamp) :
    ∀ frame ∈ Completion.frames settings plan stamp, frame.Legible := by
  intro frame hmem
  rcases List.mem_append.1 hmem with hmem | hmem
  · obtain ⟨chunk, _, rfl⟩ := List.mem_map.1 hmem
    exact EventStream.legible_ofJson none nofun _
  · rw [List.mem_singleton.1 hmem]
    decide

theorem Message.legible_frames (settings : StreamSettings) (plan : Plan) (stamp : Stamp) :
    ∀ frame ∈ Message.frames settings plan stamp, frame.Legible := by
  intro frame hmem
  obtain ⟨event, _, rfl⟩ := List.mem_map.1 hmem
  refine EventStream.legible_ofJson (some event.name) ?_ _
  intro name hname
  cases hname
  exact EventStream.legibleName_name event

namespace EventStream

/-! ## The round trip -/

/-- **What is written is what is read.**  Legible frames are read back one by one,
with empty data, blanks before the data and carriage returns after it; a frame that
is not legible never is.  Whatever texts, names, arguments and citations a plan
holds, and whatever a stamp says, both streams consist of legible frames, so no
content splits, joins, forges or hides a frame. -/
theorem wire_round_trip :
    (∀ frames : List Frame, (∀ frame ∈ frames, frame.Legible) → parse (encode frames) = frames) ∧
    (∀ frame : Frame, ¬ frame.Legible → parse frame.encode ≠ [frame]) ∧
    (∀ (settings : StreamSettings) (plan : Plan) (stamp : Stamp),
      (∀ frame ∈ Completion.frames settings plan stamp, frame.Legible) ∧
      (∀ frame ∈ Message.frames settings plan stamp, frame.Legible) ∧
      parse (encode (Completion.frames settings plan stamp)) =
        Completion.frames settings plan stamp ∧
      parse (encode (Message.frames settings plan stamp)) = Message.frames settings plan stamp ∧
      written (Completion.acts settings plan stamp) <+: Completion.frames settings plan stamp ∧
      written (Message.acts settings plan stamp) <+: Message.frames settings plan stamp) := by
  refine ⟨fun frames h => parse_encode h, fun frame h => parse_ne_of_not_legible h, ?_⟩
  intro settings plan stamp
  have hcompletion := Completion.legible_frames settings plan stamp
  have hmessage := Message.legible_frames settings plan stamp
  exact ⟨hcompletion, hmessage, parse_encode hcompletion, parse_encode hmessage,
    Completion.written_acts_prefix settings plan stamp,
    Message.written_acts_prefix settings plan stamp⟩

/-- A carriage return inside a name and at the end of data, blanks before data, no data at all; and a
second frame hidden in the data of one that is not legible. -/
theorem wire_round_trip_returns :
    parse (encode
        [{ event := some "a\rb", data := "  x\r" }, { event := some "", data := "" },
         { event := none, data := "\r" }]) =
      [{ event := some "a\rb", data := "  x\r" }, { event := some "", data := "" },
       { event := none, data := "\r" }] ∧
    parse (Frame.encode { event := none, data := "x\n\ndata: y" }) ≠
      [{ event := none, data := "x\n\ndata: y" }] :=
  ⟨wire_round_trip.1 _ (by decide), wire_round_trip.2.1 _ (by decide)⟩

end EventStream

end ScriptedChat

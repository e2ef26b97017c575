import DoxygenRest.Rest.Layout
import DoxygenRest.Proofs.Text.White
import Mathlib.Data.List.Forall2

/-!
# Lines that hang below a marker

A block of text begins with a marker, and its other lines are blank or indented as far as the marker
asks for (`Marker.Heads`).  Texts are indented by `indent`, whose lines all hang (`hangs_indent`).
What is trimmed afterwards may lose its first lines in part, but the lines behind the first still
hang (`hangsBelow_trim`), so that the rest can be put behind a marker.
-/

namespace DoxygenRest.Rest

/-! ### The lines of a text -/

/-- The lines of a text. -/
def linesOf (cs : List Char) : List (List Char) :=
  cs.splitOn '\n'

/-- A line is blank, or it starts with so many blanks. -/
def IsHung (width : Nat) (line : List Char) : Prop :=
  line.all Text.isWhite = true ∨ blanks width <+: line

/-- All lines of a text are blank or indented. -/
def Hangs (width : Nat) (cs : List Char) : Prop :=
  ∀ line ∈ linesOf cs, IsHung width line

/-- All lines of a text but the first are blank or indented. -/
def HangsBelow (width : Nat) (cs : List Char) : Prop :=
  ∀ line ∈ (linesOf cs).tail, IsHung width line

variable {width : Nat} {cs ds line : List Char}

/-- Every text has a line. -/
lemma linesOf_ne_nil (cs : List Char) : linesOf cs ≠ [] :=
  List.splitOn_ne_nil '\n' cs

/-- A newline separates the lines in front of it from those behind it. -/
lemma linesOf_append_newline (cs ds : List Char) :
    linesOf (cs ++ '\n' :: ds) = linesOf cs ++ linesOf ds :=
  List.splitOn_append_cons_self cs ds

/-- A text without newlines is one line. -/
lemma linesOf_of_notMem (h : '\n' ∉ cs) : linesOf cs = [cs] :=
  List.splitOn_eq_singleton h

/-- Where two texts meet, the last line of the one goes on as the first line of the other. -/
lemma exists_linesOf_append (cs ds : List Char) :
    ∃ front last first rest, linesOf cs = front ++ [last] ∧ linesOf ds = first :: rest ∧
      linesOf (cs ++ ds) = front ++ (last ++ first) :: rest := by
  induction cs with
  | nil =>
    obtain ⟨first, rest, hds⟩ := List.exists_cons_of_ne_nil (linesOf_ne_nil ds)
    exact ⟨[], [], first, rest, rfl, hds, hds⟩
  | cons c cs ih =>
    obtain ⟨front, last, first, rest, hcs, hds, happend⟩ := ih
    have hcons (cs : List Char) : linesOf (c :: cs) =
        if (c == '\n') = true then [] :: linesOf cs else (linesOf cs).modifyHead (List.cons c) :=
      List.splitOn_cons_eq_if_modifyHead c cs
    rw [List.cons_append, hcons, hcons, hcs, happend]
    split
    · exact ⟨[] :: front, last, first, rest, rfl, hds, rfl⟩
    · cases front with
      | nil => exact ⟨[], c :: last, first, rest, rfl, hds, rfl⟩
      | cons line front => exact ⟨(c :: line) :: front, last, first, rest, rfl, hds, rfl⟩

/-- No line holds a newline. -/
lemma notMem_of_mem_linesOf (h : line ∈ linesOf cs) : '\n' ∉ line := by
  induction cs generalizing line with
  | nil =>
    rw [List.mem_singleton.1 h]
    exact List.not_mem_nil
  | cons c cs ih =>
    rw [linesOf, List.splitOn_cons_eq_if_modifyHead] at h
    split at h
    · rcases List.mem_cons.1 h with rfl | h
      · exact List.not_mem_nil
      · exact ih h
    · next hc =>
      obtain ⟨first, rest, hlines⟩ := List.exists_cons_of_ne_nil (List.splitOn_ne_nil '\n' cs)
      rw [hlines, List.modifyHead_cons] at h
      have hmem {l : List Char} (hl : l ∈ first :: rest) : '\n' ∉ l := by
        rw [← hlines] at hl
        exact ih hl
      rcases List.mem_cons.1 h with rfl | h
      · rw [List.mem_cons, not_or]
        exact ⟨fun heq => hc (beq_iff_eq.2 heq.symm), hmem List.mem_cons_self⟩
      · exact hmem (List.mem_cons_of_mem _ h)

/-! ### Lines that hang -/

/-- The start of a line that hangs does so, too. -/
lemma IsHung.of_append {rest : List Char} (h : IsHung width (line ++ rest)) :
    IsHung width line := by
  rcases h with hwhite | ⟨behind, hblanks⟩
  · rw [List.all_append, Bool.and_eq_true] at hwhite
    exact Or.inl hwhite.1
  · rcases List.append_eq_append_iff.1 hblanks with ⟨more, rfl, -⟩ | ⟨more, hline, -⟩
    · exact Or.inr (List.prefix_append _ _)
    · left
      have hall : (blanks width).all Text.isWhite = true :=
        List.all_eq_true.2 fun c hc => by rw [(List.mem_replicate.1 hc).2]; decide
      rw [hline, List.all_append, Bool.and_eq_true] at hall
      exact hall.1

/-- The empty text hangs. -/
lemma hangs_nil (width : Nat) : Hangs width [] := by
  intro line hline
  rw [List.mem_singleton.1 hline]
  exact Or.inl rfl

/-- Two texts that hang do so one below the other. -/
lemma Hangs.append_newline (hcs : Hangs width cs) (hds : Hangs width ds) :
    Hangs width (cs ++ '\n' :: ds) := by
  intro line hline
  rw [linesOf_append_newline] at hline
  exact (List.mem_append.1 hline).elim (hcs line) (hds line)

/-- What hangs can be put behind a newline. -/
lemma HangsBelow.append_newline (hcs : HangsBelow width cs) (hds : Hangs width ds) :
    HangsBelow width (cs ++ '\n' :: ds) := by
  intro line hline
  rw [linesOf_append_newline, List.tail_append_of_ne_nil (linesOf_ne_nil cs)] at hline
  exact (List.mem_append.1 hline).elim (hcs line) (hds line)

/-- Below a single line there is nothing. -/
lemma hangsBelow_of_notMem (h : '\n' ∉ cs) : HangsBelow width cs := by
  intro line hline
  rw [linesOf_of_notMem h] at hline
  exact absurd hline List.not_mem_nil

/-- Text without newlines can be put in front. -/
lemma HangsBelow.append_left (h : HangsBelow width ds) (hcs : '\n' ∉ cs) :
    HangsBelow width (cs ++ ds) := by
  obtain ⟨front, last, first, rest, hfront, hds, happend⟩ := exists_linesOf_append cs ds
  rw [linesOf_of_notMem hcs] at hfront
  obtain rfl : front = [] := by
    cases front with
    | nil => rfl
    | cons line front => simp at hfront
  rw [HangsBelow, happend]
  rw [HangsBelow, hds] at h
  exact h

/-- The end of a text that hangs still hangs below its first line, of which a part may be missing. -/
lemma Hangs.of_suffix (h : Hangs width cs) (hds : ds <:+ cs) : HangsBelow width ds := by
  obtain ⟨missing, rfl⟩ := hds
  obtain ⟨front, last, first, rest, -, hds, happend⟩ := exists_linesOf_append missing ds
  intro line hline
  apply h line
  rw [hds] at hline
  rw [happend]
  exact List.mem_append_right _ (List.mem_cons_of_mem _ hline)

/-- The start of a text hangs below its first line if the text does. -/
lemma HangsBelow.of_front (h : HangsBelow width cs) (hds : ds <+: cs) : HangsBelow width ds := by
  obtain ⟨missing, rfl⟩ := hds
  obtain ⟨front, last, first, rest, hds, -, happend⟩ := exists_linesOf_append ds missing
  intro line hline
  rw [hds] at hline
  rw [HangsBelow, happend] at h
  cases front with
  | nil => exact absurd hline List.not_mem_nil
  | cons line' front =>
    rw [List.cons_append, List.tail_cons, List.mem_append, List.mem_singleton] at hline
    rcases hline with hline | rfl
    · exact h line (List.mem_append_left _ hline)
    · exact (h _ (List.mem_append_right _ List.mem_cons_self)).of_append

/-! ### Indented text -/

/-- Indenting puts no newline into a line. -/
lemma notMem_indentLine (h : '\n' ∉ line) : '\n' ∉ indentLine width line := by
  unfold indentLine
  split
  · exact h
  · rw [List.mem_append, blanks, List.mem_replicate, not_or]
    exact ⟨fun hblank => absurd hblank.2 (by decide), h⟩

/-- The lines of indented text are the lines of the text, each of them indented. -/
lemma linesOf_indent (text : String) (width : Nat) :
    linesOf (indent text width).toList = (linesOf text.toList).map (indentLine width) := by
  have hnewline : ∀ line ∈ (linesOf text.toList).map (indentLine width), '\n' ∉ line := by
    intro indented hindented
    obtain ⟨line, hline, rfl⟩ := List.mem_map.1 hindented
    exact notMem_indentLine (notMem_of_mem_linesOf hline)
  rw [indent, String.toList_ofList]
  exact List.splitOn_intercalate '\n' hnewline
    fun h => linesOf_ne_nil _ (List.map_eq_nil_iff.1 h)

/-- **Indented text hangs.** -/
theorem hangs_indent (text : String) (width : Nat) : Hangs width (indent text width).toList := by
  intro line hline
  rw [linesOf_indent] at hline
  obtain ⟨line, -, rfl⟩ := List.mem_map.1 hline
  unfold indentLine
  split
  · next hwhite => exact Or.inl hwhite
  · exact Or.inr (List.prefix_append _ _)

/-- Indented text that is trimmed in front hangs below its first line. -/
lemma hangsBelow_trimStart (text : String) (width : Nat) :
    HangsBelow width (Text.trimStart (indent text width)).toList := by
  rw [Text.trimStart, String.toList_ofList]
  exact (hangs_indent text width).of_suffix (List.dropWhile_suffix _)

/-- Indented text that is trimmed hangs below its first line. -/
lemma hangsBelow_trim (text : String) (width : Nat) :
    HangsBelow width (Text.trim (indent text width)).toList := by
  rw [Text.trim, Text.trimEnd, String.toList_ofList]
  refine (hangsBelow_trimStart text width).of_front ?_
  exact ⟨_, Text.dropEndWhile_append_takeEndWhile _ _⟩

/-! ### Markers -/

/-- What a block begins with, and how far its other lines are indented. -/
structure Marker where
  text : String
  width : Nat
  deriving DecidableEq

/-- The first of these lines begins with the marker, and the others hang below it. -/
def Marker.Heads (m : Marker) (lines : List (List Char)) : Prop :=
  ∃ first rest, lines = first :: rest ∧ m.text.toList <+: first ∧ ∀ line ∈ rest, IsHung m.width line

/-- What hangs can be put behind a marker. -/
lemma Marker.heads_append {m : Marker} (htext : '\n' ∉ m.text.toList)
    (hcs : HangsBelow m.width cs) : m.Heads (linesOf (m.text.toList ++ cs)) := by
  obtain ⟨front, last, first, rest, hfront, hcs', happend⟩ := exists_linesOf_append m.text.toList cs
  rw [linesOf_of_notMem htext] at hfront
  obtain ⟨rfl, rfl⟩ : front = [] ∧ last = m.text.toList := by
    cases front with
    | nil => exact ⟨rfl, (List.singleton_inj.1 hfront).symm⟩
    | cons line front => simp at hfront
  rw [HangsBelow, hcs'] at hcs
  exact ⟨_, rest, happend, List.prefix_append _ _, hcs⟩

/-- The text consists of one block for each marker, in this order, and blank lines. -/
def Contained (markers : List Marker) (text : String) : Prop :=
  ∃ blocks behind, linesOf text.toList = blocks.flatten ++ behind ∧
    List.Forall₂ Marker.Heads markers blocks ∧ ∀ line ∈ behind, line.all Text.isWhite = true

variable {m : Marker} {markers : List Marker} {text : String}

/-- What is headed by one marker is contained behind it. -/
lemma contained_singleton (h : m.Heads (linesOf text.toList)) : Contained [m] text := by
  refine ⟨[linesOf text.toList], [], ?_, .cons h .nil, List.forall_mem_nil _⟩
  rw [List.flatten_singleton, List.append_nil]

/-- The lines of texts that are joined by newlines are those of all of them. -/
lemma linesOf_intercalate {items : List (List Char)} (h : items ≠ []) :
    linesOf (['\n'].intercalate items) = (items.map linesOf).flatten := by
  induction items with
  | nil => exact absurd rfl h
  | cons item items ih =>
    cases items with
    | nil => simp
    | cons item' items =>
      rw [List.intercalate_cons_cons, List.append_assoc, List.singleton_append,
        linesOf_append_newline, ih (List.cons_ne_nil _ _)]
      rfl

/-- Blocks that stand below one another make up a text of these blocks. -/
lemma contained_intercalate {items : List String}
    (h : List.Forall₂ (fun m item => m.Heads (linesOf item.toList)) markers items) :
    Contained markers ("\n".intercalate items ++ "\n\n") := by
  have hblank : ∀ line ∈ [[], []], line.all Text.isWhite = true := by decide
  have hlines : linesOf ("\n".intercalate items ++ "\n\n").toList =
      linesOf (['\n'].intercalate (items.map String.toList)) ++ [[], []] := by
    rw [String.toList_append, String.toList_intercalate]
    exact linesOf_append_newline _ ['\n']
  rw [Contained, hlines]
  cases items with
  | nil =>
    cases h
    exact ⟨[], [[], [], []], rfl, .nil, by decide⟩
  | cons item items =>
    refine ⟨(item :: items).map (linesOf ∘ String.toList), [[], []], ?_, ?_, hblank⟩
    · rw [linesOf_intercalate (by simp), List.map_map]
    · exact List.forall₂_map_right_iff.2 h

/-! ### Flush lines -/

/-- The lines that are neither blank nor indented. -/
def flushLines (lines : List (List Char)) : List (List Char) :=
  lines.filter fun line => !line.all Text.isWhite && line.head? != some ' '

/-- The flush lines of two rows are those of the first and those of the second. -/
lemma flushLines_append (lines lines' : List (List Char)) :
    flushLines (lines ++ lines') = flushLines lines ++ flushLines lines' :=
  List.filter_append ..

/-- Lines that hang are not flush. -/
lemma flushLines_eq_nil {lines : List (List Char)} (hwidth : 0 < width)
    (h : ∀ line ∈ lines, IsHung width line) : flushLines lines = [] := by
  rw [flushLines, List.filter_eq_nil_iff]
  intro line hline
  rcases h line hline with hwhite | ⟨rest, rfl⟩
  · simp [hwhite]
  · obtain ⟨width, rfl⟩ := Nat.exists_eq_add_one.2 hwidth
    simp [blanks, List.replicate_succ]

/-- A marker that can be told from an indented line. -/
structure Marker.IsFlush (m : Marker) : Prop where
  width_pos : 0 < m.width
  begins : ∃ c rest, m.text.toList = c :: rest ∧ Text.isWhite c = false

/-- Of a block behind a flush marker, the first line alone is flush. -/
lemma Marker.Heads.flushLines_eq {lines : List (List Char)} (h : m.Heads lines)
    (hflush : m.IsFlush) : ∃ first, flushLines lines = [first] ∧ m.text.toList <+: first := by
  obtain ⟨first, rest, rfl, htext, hrest⟩ := h
  obtain ⟨c, marker, hmarker, hwhite⟩ := hflush.begins
  have hnone := flushLines_eq_nil hflush.width_pos hrest
  refine ⟨first, ?_, htext⟩
  obtain ⟨more, rfl⟩ := htext
  have hspace : c ≠ ' ' := by
    rintro rfl
    exact absurd hwhite (by decide)
  rw [flushLines] at hnone ⊢
  rw [List.filter_cons, hnone, hmarker]
  simp [hwhite, hspace]

/-- **The flush lines of blocks are the lines of their markers.** -/
theorem Contained.forall₂_flushLines (h : Contained markers text)
    (hflush : ∀ m ∈ markers, m.IsFlush) :
    List.Forall₂ (fun m line => m.text.toList <+: line) markers
      (flushLines (linesOf text.toList)) := by
  obtain ⟨blocks, behind, hlines, hblocks, hbehind⟩ := h
  have hnone : flushLines behind = [] :=
    flushLines_eq_nil Nat.zero_lt_one fun line hline => Or.inl (hbehind line hline)
  rw [hlines, flushLines_append, hnone, List.append_nil]
  clear hlines
  induction hblocks with
  | nil => exact .nil
  | cons hhead hrest ih =>
    rw [List.forall_mem_cons] at hflush
    obtain ⟨first, hfirst, htext⟩ := hhead.flushLines_eq hflush.1
    rw [List.flatten_cons, flushLines_append, hfirst]
    exact .cons htext (ih hflush.2)

end DoxygenRest.Rest

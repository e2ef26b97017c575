import DoxygenRest.Proofs.Adjust.Clearance
import DoxygenRest.Proofs.Adjust.Reading
import DoxygenRest.Proofs.Adjust.Walk
import DoxygenRest.Proofs.Tree.Specimen

/-!
# The pass conserves text

The pass drops the content of elements that are meant for presentation alone, and puts a line break
or a space for the elements that stand for one.  All other text stays, in document order
(`adjust_conserves_text`).

This needs that the pass does not take the text of a link or of a highlighted reference before it has
come to such elements inside.
-/

namespace DoxygenRest.Adjust

open Branch

variable {outer : Context} {x : Branch} {highlighted : Bool} {bs : List Branch}

/-! ### Conserved text -/

mutual

/-- The text of an element that the pass conserves: its own, and for each child what stands for the
child and the child's tail. -/
def conserved (highlighted : Bool) : Branch → String
  | node _ e cs => e.text.getD "" ++ conservedRow (highlighted || e.tag == "highlight") cs

/-- The text of a row of children that the pass conserves, tails included. -/
def conservedRow (highlighted : Bool) : List Branch → String
  | [] => ""
  | b :: bs =>
    (if b.own.tag ∈ Schema.presentationTags then ""
      else if b.own.tag = "linebreak" then "\n"
      else if b.own.tag = "sp" ∧ highlighted then " "
      else conserved highlighted b) ++ (b.tail ++ conservedRow highlighted bs)

end

/-- Whether an element of a tree lies in a highlight. -/
def isHighlighted (t : Tree) (n : NodeId) : Bool :=
  (t.ancestors n).any fun a => t.tag a == "highlight"

/-- The editor tells a highlight by the names of the ancestors. -/
lemma highlighted_context (t : Tree) (n : NodeId) : (context t n).highlighted = isHighlighted t n := by
  rw [Bool.eq_iff_iff, highlighted_iff, isHighlighted, List.any_eq_true]
  simp

/-- The text of an element of a tree that the pass conserves. -/
def conservedText (t : Tree) (n : NodeId) : String :=
  conserved (isHighlighted t n) (t.branch n)

/-- What the pass conserves of a child: nothing, a line break, or a space, if the child stands for
that, and otherwise the conserved text of the child. -/
def replacement (t : Tree) (n : NodeId) : String :=
  if t.tag n ∈ Schema.presentationTags then ""
  else if t.tag n = "linebreak" then "\n"
  else if t.tag n = "sp" ∧ isHighlighted t n then " "
  else conservedText t n

/-! ### Reading the text -/

/-- Reading the text that the pass conserves, letter by letter. -/
def textReading : Reading Char where
  ink _ s := s.toList
  stamp? highlighted tag :=
    if tag ∈ Schema.presentationTags then some []
    else if tag = "linebreak" then some ['\n']
    else if tag = "sp" ∧ highlighted then some [' ']
    else none
  ink_append _ _ _ := String.toList_append
  ink_congr _ _ _ := rfl
  ink_blank _ _ _ _ := rfl
  stamped {highlighted tag} h := by
    split at h
    · next htag => exact Or.inl htag
    · split at h
      · next htag => exact Or.inr (Or.inl htag)
      · split at h
        · next htag => exact Or.inr (Or.inr htag)
        · exact absurd rfl h

/-- Only elements that stand for a text are read as a whole. -/
lemma stamp?_textReading_eq_none {tag : String} (hpresentation : tag ∉ Schema.presentationTags)
    (hbreak : tag ≠ "linebreak") (hsp : highlighted → tag ≠ "sp") :
    textReading.stamp? highlighted tag = none := by
  by_contra hne
  rcases textReading.stamped hne with htag | htag | ⟨htag, hk⟩
  · exact hpresentation htag
  · exact hbreak htag
  · exact hsp hk htag

/-- What the pass conserves of a row of children is what the row is read as. -/
lemma toList_conservedRow (e : Entry) (highlighted : Bool) (bs : List Branch)
    (hbs : ∀ b ∈ bs, ∀ highlighted,
      (conserved highlighted b).toList = textReading.read highlighted b) :
    (conservedRow highlighted bs).toList = textReading.readRow highlighted e bs := by
  induction bs with
  | nil =>
    rw [conservedRow, Reading.readRow_nil]
    rfl
  | cons b bs ih =>
    obtain ⟨hb, hbs⟩ := List.forall_mem_cons.1 hbs
    rw [conservedRow, Reading.readRow_cons, Reading.item, String.toList_append,
      String.toList_append, ih hbs, ← hb]
    refine congrArg (· ++ _) ?_
    simp only [textReading]
    split
    · rfl
    · split
      · rfl
      · split
        · rfl
        · rfl

/-- The text that the pass conserves is what is read. -/
lemma toList_conserved (highlighted : Bool) (x : Branch) :
    (conserved highlighted x).toList = textReading.read highlighted x := by
  induction x using Branch.induction generalizing highlighted with
  | step n e cs ih =>
    rw [conserved, String.toList_append, Reading.read_eq,
      toList_conservedRow e _ cs fun b hb k => ih b hb k]
    rfl

/-- The text of an element of a tree that the pass conserves is what the element is read as. -/
lemma toList_conservedText (t : Tree) (n : NodeId) :
    (conservedText t n).toList = textReading.readAt t n := by
  rw [conservedText, toList_conserved, ← highlighted_context]
  rfl

/-- The text an element stands for is its stamp, or what is read there. -/
lemma toList_replacement (t : Tree) (n : NodeId) : (replacement t n).toList =
    (textReading.stamp? (context t n).highlighted (t.tag n)).getD (textReading.readAt t n) := by
  rw [replacement, ← toList_conservedText, highlighted_context]
  simp only [textReading]
  split
  · rfl
  · split
    · rfl
    · split
      · rfl
      · rfl

/-- The conserved text of an element is its own text, and then for each child its replacement and its
tail. -/
theorem conservedText_eq {t : Tree} (h : t.WellFormed) (n : NodeId) :
    conservedText t n = t.text n ++
      (t.children n).foldr (fun c rest => replacement t c ++ (t.tail c ++ rest)) "" := by
  have hrow (cs : List NodeId) :
      (cs.foldr (fun c rest => replacement t c ++ (t.tail c ++ rest)) "").toList =
        cs.flatMap fun c => (replacement t c).toList ++ (t.tail c).toList := by
    induction cs with
    | nil => rfl
    | cons c cs ih =>
      rw [List.foldr_cons, List.flatMap_cons, String.toList_append, String.toList_append, ih,
        List.append_assoc]
  refine String.toList_injective ?_
  rw [toList_conservedText, textReading.readAt_eq h, String.toList_append, hrow]
  simp only [toList_replacement]
  rfl

/-- An element is read as all its text if nothing inside stands for a text. -/
lemma read_textReading {Q : Bool → Branch → Prop}
    (hQ : ∀ {highlighted : Bool} {y : Branch}, Q highlighted y →
      textReading.stamp? highlighted y.own.tag = none)
    (h : ThroughoutRow Q (highlighted || x.own.tag == "highlight") x.children) :
    textReading.read highlighted x = x.stringValue.toList := by
  refine textReading.read_eq_ink (fun _ _ _ => rfl) (fun hy symbols hsymbols => ?_) h
  rw [hQ hy] at hsymbols
  cases hsymbols

/-! ### Links and references -/

/-- An element with this tag stands for no text. -/
def IsLiteral (tag : String) : Prop :=
  tag ∉ Schema.presentationTags ∧ tag ≠ "linebreak" ∧ tag ≠ "sp"

/-- If the pass takes the text of an element as a whole, no element inside stands for a text. -/
def Quotable (highlighted : Bool) (x : Branch) : Prop :=
  x.own.tag = "ulink" ∨ x.own.tag = "ref" ∧ highlighted = true →
    ThroughoutRow (fun _ y => IsLiteral y.own.tag) (highlighted || x.own.tag == "highlight") x.children

/-- A part of a quotable element is quotable. -/
lemma divisible_quotable : Divisible Quotable where
  part {highlighted x x'} h halike hdrawn := by
    intro htag
    rw [halike.tag] at htag ⊢
    exact (h htag).drawn (fun tail hliteral => hliteral) hdrawn
  bare {highlighted x} hchildren htag hsp := by
    intro _
    rw [hchildren]
    trivial

/-- What is inside of a quotable element is all read as text. -/
lemma Quotable.read_eq (h : Quotable highlighted x)
    (htag : x.own.tag = "ulink" ∨ x.own.tag = "ref" ∧ highlighted = true) :
    textReading.read highlighted x = x.stringValue.toList :=
  read_textReading (fun hliteral => stamp?_textReading_eq_none hliteral.1 hliteral.2.1
    fun _ => hliteral.2.2) (h htag)

/-- Removed elements are read as nothing. -/
lemma item_of_remove {k : Context} {previous? : Option Entry}
    (h : treatment k previous? x = .remove) : textReading.item k.highlighted x = [] := by
  cases grounds h with
  | presentation htag =>
    have hstamp : textReading.stamp? k.highlighted x.own.tag = some [] := if_pos htag
    rw [Reading.item, hstamp, Option.getD_some]
  | empty hkind hempty =>
    obtain ⟨htext, hchildren⟩ := isEmpty_iff.1 hempty
    by_cases hpresentation : x.own.tag ∈ Schema.presentationTags
    · have hstamp : textReading.stamp? k.highlighted x.own.tag = some [] := if_pos hpresentation
      rw [Reading.item, hstamp, Option.getD_some]
    · have hstamp : textReading.stamp? k.highlighted x.own.tag = none := by
        refine stamp?_textReading_eq_none hpresentation (fun hbreak => ?_) fun hk hsp => ?_
        · rw [treatment_linebreak k previous? hbreak] at h
          cases h
        · rw [treatment_space previous? hsp hk] at h
          cases h
      rw [textReading.item_of_eq_none hstamp, textReading.read_eq, htext, hchildren,
        textReading.readRow_nil, textReading.ink_empty, List.append_nil]

/-- In order, a step treats as text what is read as text. -/
lemma agrees_textReading {l : Location} (h : (Outcome.standing l).Orderly Quotable outer)
    (hroot : (Outcome.standing l).Rooted) : textReading.Agrees outer l where
  root := hroot
  replace e text hτ := by
    have hquotable := (throughout_iff.1 h.1).1
    cases groundsAt hτ with
    | reference htag hk =>
      have hstamp : textReading.stamp? (contextAt outer l.frames).highlighted l.focus.own.tag =
          none := by
        rw [htag]
        exact stamp?_textReading_eq_none (by decide) (by decide) fun _ => by decide
      rw [textReading.item_of_eq_none hstamp, hquotable.read_eq (Or.inr ⟨htag, hk⟩)]
      rfl
    | space htag hk =>
      have hstamp : textReading.stamp? (contextAt outer l.frames).highlighted l.focus.own.tag =
          some [' '] := by
        rw [htag, hk]
        rfl
      rw [Reading.item, hstamp, Option.getD_some]
      rfl
    | linebreak htag =>
      have hstamp : textReading.stamp? (contextAt outer l.frames).highlighted l.focus.own.tag =
          some ['\n'] := by
        rw [htag]
        rfl
      rw [Reading.item, hstamp, Option.getD_some]
      rfl
  remove hτ := item_of_remove hτ
  flatten hτ := by
    cases groundsAt hτ with
    | link htag hchildren => exact (throughout_iff.1 h.1).1.read_eq (Or.inl htag)
  gap _ _ _ _ _ _ _ _ := rfl

/-! ### The pass -/

/-- What each step keeps: all is in order, and the text that is read stays the same. -/
structure Outcome.Conserving (outer : Context) (text : List Char) (o : Outcome) : Prop where
  orderly : o.Orderly Quotable outer
  rooted : o.Rooted
  read_eq : textReading.read outer.highlighted o.whole = text

/-- Every step conserves the text. -/
lemma Step.conserving {fresh : NodeId} {l : Location} {o : Outcome} {text : List Char}
    (hstep : Step outer fresh l o) (h : (Outcome.standing l).Conserving outer text) :
    o.Conserving outer text := by
  refine ⟨hstep.orderly divisible_quotable h.orderly, hstep.rooted h.rooted, ?_⟩
  rw [hstep.read_eq (agrees_textReading h.orderly h.rooted)]
  exact h.read_eq

/-- **The pass conserves text**: if it succeeds, the string value of the subtree is the text that the
pass conserves of it. -/
theorem adjust_conserves_text {t t' : Tree} {root : NodeId} (h : t.WellFormed)
    (hroot : t.tag root ∉ Schema.inlineTags)
    (hinside : ∀ n a, root ∈ t.ancestors a → a ∈ t.ancestors n →
      (t.tag a = "ulink" ∨ t.tag a = "ref" ∧ ∃ b ∈ t.ancestors a, t.tag b = "highlight") →
      t.tag n ∉ Schema.presentationTags ∧ t.tag n ≠ "linebreak" ∧ t.tag n ≠ "sp")
    (hrun : adjust root t = .ok () t') : t'.stringValue root = conservedText t root := by
  have hquotable (n : NodeId) (hn : n = root ∨ root ∈ t.ancestors n) :
      Quotable (context t n).highlighted (t.branch n) := by
    intro htag
    rw [Tree.own_branch h, highlighted_iff] at htag
    refine throughoutRow_branch h fun m hm => ?_
    rw [Tree.own_branch h]
    rcases hn with rfl | hn
    · rcases htag with htag | ⟨htag, -⟩
      · exact absurd (by rw [show t.tag n = _ from htag]; decide) hroot
      · exact absurd (by rw [show t.tag n = _ from htag]; decide) hroot
    · exact hinside m n hn hm htag
  have hstart : (Outcome.standing ⟨t.branch root, []⟩).Conserving (context t root)
      (textReading.read (context t root).highlighted (t.branch root)) := by
    refine ⟨⟨throughout_branch h hquotable, trivial⟩, fun _ => ?_, rfl⟩
    rw [Tree.own_branch h]
    exact hroot
  obtain ⟨-, -, hend⟩ := keeps_of_adjust h hrun Step.conserving hstart
  -- After the pass nothing is left that stands for a text of its own, so that the reading is the
  -- string value.
  have hcleared := (throughout_iff.1 hend.orderly).2
  have hread : textReading.read (context t root).highlighted (t'.branch root) =
      (t'.branch root).stringValue.toList :=
    read_textReading (fun hy => stamp?_textReading_eq_none hy.visible.1 hy.visible.2
      fun hk => (hy.textual hk).2) hcleared
  refine String.toList_injective ?_
  rw [Tree.stringValue_eq_branch, ← hread, toList_conservedText]
  exact hend.read_eq

/-- A description with a link, a line break, content for presentation alone, and a highlight:

    <detaileddescription><para>See<ulink> <bold>there</bold></ulink>,<linebreak/>or not
    <htmlonly>!</htmlonly>.</para><highlight>call<sp/><ref>f</ref></highlight></detaileddescription>
-/
def notice : Tree :=
  ⟨#[{ tag := "detaileddescription", children := [1, 6] },
    { tag := "para", text := some "See", parent := some 0, children := [2, 4, 5] },
    { tag := "ulink", text := some " ", tail := some ",", parent := some 1, children := [3] },
    { tag := "bold", text := some "there", parent := some 2 },
    { tag := "linebreak", tail := some "or not", parent := some 1 },
    { tag := "htmlonly", text := some "!", tail := some ".", parent := some 1 },
    { tag := "highlight", text := some "call", parent := some 0, children := [7, 8] },
    { tag := "sp", parent := some 6 },
    { tag := "ref", text := some "f", parent := some 6 }]⟩

/-- The same description after the pass:

    <detaileddescription><para>See <ulink>there</ulink>,
    or not.</para><highlight>call f</highlight></detaileddescription>
-/
def fairNotice : Tree :=
  ⟨#[{ tag := "detaileddescription", children := [1, 6] },
    { tag := "para", text := some "See ", parent := some 0, children := [2] },
    { tag := "ulink", text := some "there", tail := some ",\nor not.", parent := some 1 },
    { tag := "bold", text := some "there" },
    { tag := "linebreak" },
    { tag := "htmlonly", text := some "!" },
    { tag := "highlight", text := some "call f", parent := some 0 },
    { tag := "sp" },
    { tag := "ref", text := some "f" }]⟩

/-- The pass conserves the text of the description. -/
theorem adjust_conserves_text_notice :
    adjust 0 notice = .ok () fairNotice ∧ fairNotice.stringValue 0 = conservedText notice 0 := by
  have hwellFormed : notice.WellFormed := Tree.wellFormed_of_ordered (by decide)
  have hinside : ∀ n < notice.size, ∀ a ∈ notice.ancestors n,
      (notice.tag a = "ulink" ∨
        notice.tag a = "ref" ∧ ∃ b ∈ notice.ancestors a, notice.tag b = "highlight") →
      notice.tag n ∉ Schema.presentationTags ∧ notice.tag n ≠ "linebreak" ∧ notice.tag n ≠ "sp" := by
    decide +kernel
  have hrun : adjust 0 notice = .ok () fairNotice := by decide +kernel
  refine ⟨hrun, adjust_conserves_text hwellFormed (by decide) (fun n a _ ha => ?_) hrun⟩
  exact hinside n (Tree.lt_size_of_below hwellFormed ha) a ha

/-- All text but for the content meant for presentation alone. -/
example : conservedText notice 0 = "See there,\nor not.call f" := by
  decide +kernel

end DoxygenRest.Adjust

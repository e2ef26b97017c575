import DoxygenRest.Rest.Layout
import DoxygenRest.Proofs.Adjust.Clearance
import DoxygenRest.Proofs.Text.Visible

/-!
# The text that blocks carry

A block is made of parts (`parts?`): a section of its paragraphs, a list of its items.  White space
aside, `carried` is the text of an element that its rendering is bound to show: of a paragraph all
that is in it, of a block what its parts carry.  That is all of the text if nothing visible stands
outside of the parts (`carried_eq_visible_of_complete`).
-/

namespace DoxygenRest.Rest

open Branch
open Text (visible)

/-! ### The parts of blocks -/

/-- The branches of a tag in a row. -/
def allOf (tag : String) (bs : List Branch) : List Branch :=
  bs.filter fun b => b.own.tag == tag

/-- The first branch of a tag in a row, as a row. -/
def firstOf (tag : String) (bs : List Branch) : List Branch :=
  (bs.find? fun b => b.own.tag == tag).toList

/-- The title that a section is shown with, if its kind has one. -/
def titleIn (own : Entry) (cs : List Branch) : List Branch :=
  if (own.attributes.get? "kind").getD "" = "par" then firstOf "title" cs else []

/-- The names that an item of a parameter list is shown with. -/
def namesIn (cs : List Branch) : List Branch :=
  (firstOf "parameternamelist" cs).flatMap fun names => allOf "parametername" names.children

/-- The blocks that are shown with all their children of one tag, and that tag. -/
def partTags : List (String × String) :=
  [("briefdescription", "para"), ("detaileddescription", "para"), ("inbodydescription", "para"),
    ("parameterdescription", "para"), ("listitem", "para"), ("itemizedlist", "listitem"),
    ("orderedlist", "listitem"), ("parameterlist", "parameteritem"),
    ("programlisting", "codeline")]

/-- The parts that a block is shown with, in the order in which they are shown, or nothing for an
element that is not made of parts. -/
def parts? : Branch → Option (List Branch)
  | node _ own cs =>
    if own.tag = "simplesect" then some (titleIn own cs ++ allOf "para" cs)
    else if own.tag = "parameteritem" then
      -- The description is shown behind each name, so not at all if there is none.
      if namesIn cs = [] then some [] else some (namesIn cs ++ firstOf "parameterdescription" cs)
    else (partTags.lookup own.tag).map fun tag => allOf tag cs

section Parts

variable {tag : String} {b c : Branch} {bs : List Branch}

/-- What is found by its name is one of the row and has that name. -/
lemma of_mem_allOf (h : b ∈ allOf tag bs) : b ∈ bs ∧ b.own.tag = tag := by
  simpa [allOf] using h

/-- So is what is found first. -/
lemma of_mem_firstOf (h : b ∈ firstOf tag bs) : b ∈ bs ∧ b.own.tag = tag := by
  rw [firstOf, Option.mem_toList] at h
  exact ⟨List.mem_of_find?_eq_some h, by simpa using List.find?_some h⟩

/-- A part of a block is a child of it, or a child of a child. -/
lemma of_mem_parts (h : parts? b = some bs) (hc : c ∈ bs) :
    c ∈ b.children ∨ ∃ d ∈ b.children, c ∈ d.children := by
  obtain ⟨k, e, cs⟩ := b
  rw [parts?] at h
  rw [children_node]
  split_ifs at h
  · obtain rfl := Option.some.inj h
    rcases List.mem_append.1 hc with hc | hc
    · unfold titleIn at hc
      split_ifs at hc
      · exact Or.inl (of_mem_firstOf hc).1
      · cases hc
    · exact Or.inl (of_mem_allOf hc).1
  · obtain rfl := Option.some.inj h
    cases hc
  · obtain rfl := Option.some.inj h
    rcases List.mem_append.1 hc with hc | hc
    · obtain ⟨names, hnames, hc⟩ := List.mem_flatMap.1 hc
      exact Or.inr ⟨names, (of_mem_firstOf hnames).1, (of_mem_allOf hc).1⟩
    · exact Or.inl (of_mem_firstOf hc).1
  · obtain ⟨tag, -, rfl⟩ := Option.map_eq_some_iff.1 h
    exact Or.inl (of_mem_allOf hc).1

/-- A child is smaller than its parent. -/
lemma sizeOf_lt_of_mem_children (h : c ∈ b.children) : sizeOf c < sizeOf b := by
  obtain ⟨k, e, cs⟩ := b
  have hlt := List.sizeOf_lt_of_mem h
  rw [children_node] at hlt
  rw [node.sizeOf_spec]
  omega

/-- The parts of a block are smaller than it. -/
lemma sizeOf_lt_of_mem_parts (h : parts? b = some bs) (hc : c ∈ bs) : sizeOf c < sizeOf b := by
  rcases of_mem_parts h hc with hc | ⟨d, hd, hc⟩
  · exact sizeOf_lt_of_mem_children hc
  · exact (sizeOf_lt_of_mem_children hc).trans (sizeOf_lt_of_mem_children hd)

/-! ### What is carried -/

/-- The text that a formula is shown with: in a line, it loses its dollar signs. -/
def shownFormula (own : Entry) : String :=
  if own.markup = .inline then stripDollars (own.text.getD "") else own.text.getD ""

/-- The visible text of an element that its rendering is bound to show. -/
def carried (b : Branch) : List Char :=
  match _h : parts? b with
  | some bs => bs.attach.flatMap fun ⟨c, _⟩ => carried c
  | none =>
    if b.own.tag = "para" then
      visible b.text ++ b.children.attach.flatMap fun ⟨c, _⟩ => carried c ++ visible c.tail
    else if b.own.tag = "formula" then visible (shownFormula b.own)
    else visible b.stringValue
termination_by sizeOf b
decreasing_by
  · exact sizeOf_lt_of_mem_parts _h ‹_›
  · exact sizeOf_lt_of_mem_children ‹_›

/-- A block carries what its parts carry. -/
lemma carried_of_parts (h : parts? b = some bs) : carried b = bs.flatMap carried := by
  rw [carried]
  split
  · next bs' h' =>
    obtain rfl := Option.some.inj (h.symm.trans h')
    conv_rhs => rw [← List.attach_map_subtype_val bs, List.flatMap_map]
  · next h' => cases h.symm.trans h'

/-- What an element carries that is not made of parts. -/
lemma carried_of_parts_eq_none (h : parts? b = none) : carried b =
    if b.own.tag = "para" then
      visible b.text ++ b.children.flatMap fun c => carried c ++ visible c.tail
    else if b.own.tag = "formula" then visible (shownFormula b.own)
    else visible b.stringValue := by
  rw [carried]
  split
  · next h' => cases h.symm.trans h'
  · conv_rhs => rw [← List.attach_map_subtype_val b.children, List.flatMap_map]

/-- The tags of elements that do not just carry all their text. -/
def carrierTags : List String :=
  ["para", "formula", "simplesect", "parameteritem"] ++ partTags.map Prod.fst

/-- Paragraphs and formulas are not made of parts, and neither is what is not listed. -/
lemma parts?_eq_none (htag : b.own.tag ∉ carrierTags ∨ b.own.tag ∈ ["para", "formula"]) :
    parts? b = none := by
  have hnone : b.own.tag ≠ "simplesect" ∧ b.own.tag ≠ "parameteritem" ∧
      partTags.lookup b.own.tag = none := by
    rcases htag with htag | htag
    · have hne {tag : String} (hmem : tag ∈ carrierTags) : b.own.tag ≠ tag :=
        fun heq => htag (heq ▸ hmem)
      refine ⟨hne (by decide), hne (by decide), List.lookup_eq_none_iff.2 fun item hitem => ?_⟩
      have hmem : item.1 ∈ carrierTags := List.mem_append_right _ (List.mem_map_of_mem hitem)
      simpa using hne hmem
    · have hall : ∀ tag ∈ ["para", "formula"], tag ≠ "simplesect" ∧ tag ≠ "parameteritem" ∧
          partTags.lookup tag = none := by
        decide
      exact hall _ htag
  obtain ⟨k, e, cs⟩ := b
  obtain ⟨hsection, hitem, hlookup⟩ := hnone
  rw [own_node] at hsection hitem hlookup
  rw [parts?, if_neg hsection, if_neg hitem, hlookup, Option.map_none]

/-- A paragraph carries its text, and its children with their tails. -/
lemma carried_para (htag : b.own.tag = "para") : carried b =
    visible b.text ++ b.children.flatMap fun c => carried c ++ visible c.tail := by
  rw [carried_of_parts_eq_none (parts?_eq_none (Or.inr (by simp [htag]))), if_pos htag]

/-- A formula carries what is shown of it. -/
lemma carried_formula (htag : b.own.tag = "formula") :
    carried b = visible (shownFormula b.own) := by
  rw [carried_of_parts_eq_none (parts?_eq_none (Or.inr (by simp [htag]))),
    if_neg (by simp [htag]), if_pos htag]

/-- All other elements carry all their text. -/
lemma carried_eq_visible (htag : b.own.tag ∉ carrierTags) : carried b = visible b.stringValue := by
  have hne {tag : String} (hmem : tag ∈ carrierTags) : b.own.tag ≠ tag :=
    fun heq => htag (heq ▸ hmem)
  rw [carried_of_parts_eq_none (parts?_eq_none (Or.inl htag)), if_neg (hne (by decide)),
    if_neg (hne (by decide))]

/-! ### Elements that carry all their text -/

/-- An element is no formula, and if it is made of parts, nothing visible stands outside of them. -/
def IsComplete (b : Branch) : Prop :=
  b.own.tag ≠ "formula" ∧ ∀ bs ∈ parts? b, visible b.stringValue = bs.flatMap fun c =>
    visible c.stringValue

instance decidableIsComplete (b : Branch) : Decidable (IsComplete b) :=
  inferInstanceAs (Decidable (_ ∧ _))

/-- What is visible in a row is what is visible in each element and behind it. -/
lemma visible_stringValues (bs : List Branch) : visible (stringValues bs) =
    bs.flatMap fun b => visible b.stringValue ++ visible b.tail := by
  induction bs with
  | nil => rw [stringValues_nil, Text.visible_empty, List.flatMap_nil]
  | cons b bs ih =>
    rw [stringValues_cons, Text.visible_append, Text.visible_append, ih, List.flatMap_cons,
      List.append_assoc]

/-- A branch of complete elements carries all its text. -/
lemma carried_eq_visible_of_throughout {highlighted : Bool}
    (h : Adjust.Throughout (fun _ => IsComplete) highlighted b) :
    carried b = visible b.stringValue := by
  induction hsize : sizeOf b using Nat.strong_induction_on generalizing b highlighted with
  | h size ih =>
    rw [Adjust.throughout_iff, Adjust.throughoutRow_iff] at h
    obtain ⟨⟨hformula, hparts⟩, hrow⟩ := h
    have hchild : ∀ c ∈ b.children, carried c = visible c.stringValue := fun c hc =>
      ih _ (hsize ▸ sizeOf_lt_of_mem_children hc) (hrow c hc) rfl
    cases hb : parts? b with
    | some bs =>
      rw [carried_of_parts hb, hparts bs hb]
      refine List.flatMap_congr fun c hc => ?_
      rcases of_mem_parts hb hc with hc | ⟨d, hd, hc⟩
      · exact hchild c hc
      · have hd' := hrow d hd
        rw [Adjust.throughout_iff, Adjust.throughoutRow_iff] at hd'
        have hlt := (sizeOf_lt_of_mem_children hc).trans (sizeOf_lt_of_mem_children hd)
        exact ih _ (hsize ▸ hlt) (hd'.2 c hc) rfl
    | none =>
      rw [carried_of_parts_eq_none hb, if_neg hformula, Branch.stringValue_eq, Text.visible_append,
        visible_stringValues]
      split
      · rw [List.flatMap_congr fun c hc => congrArg (· ++ visible c.tail) (hchild c hc)]
      · rfl

end Parts

/-- **If nothing visible stands outside of parts, all text is carried.** -/
theorem carried_eq_visible_of_complete {t : Tree} (ht : t.WellFormed) {n : NodeId}
    (h : ∀ m, m = n ∨ n ∈ t.ancestors m → IsComplete (t.branch m)) :
    carried (t.branch n) = visible (t.stringValue n) := by
  have hall : Adjust.Throughout (fun _ => IsComplete) (Adjust.context t n).highlighted
      (t.branch n) :=
    Adjust.throughout_branch ht h
  rw [Tree.stringValue_eq_branch, carried_eq_visible_of_throughout hall]

end DoxygenRest.Rest

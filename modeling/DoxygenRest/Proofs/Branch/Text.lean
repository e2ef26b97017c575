import DoxygenRest.Proofs.Branch.Surgery

/-!
# The text of a branch

The string value of a branch is all its text in document order.  Around a place of a branch the text
falls into what stands before the place, what is put there, and what stands after it
(`stringValue_plug`), so a surgery conserves the text of the whole if it conserves the text of the
part that it exchanges (`stringValue_plug_congr`).
-/

namespace DoxygenRest

namespace Branch

/-- All text inside of a branch, in document order; the tail of its root lies outside. -/
def stringValue (b : Branch) : String :=
  b.fragment.stringValue

/-- All text of a row of branches, tails included. -/
def stringValues (bs : List Branch) : String :=
  Fragment.stringValues (bs.map fragment)

/-- The tail of a branch is that of its fragment. -/
lemma tail_fragment (b : Branch) : b.fragment.tail = b.tail := by
  cases b
  rw [fragment_node, Fragment.tail, tail, own_node]

/-- The text of an element comes before that of its children. -/
@[simp] lemma stringValue_node (n : NodeId) (e : Entry) (cs : List Branch) :
    (node n e cs).stringValue = e.text.getD "" ++ stringValues cs := by
  rw [stringValue, fragment_node, Fragment.stringValue, stringValues]

@[simp] lemma stringValues_nil : stringValues [] = "" := by
  rw [stringValues, List.map_nil, Fragment.stringValues]

/-- The text of a row begins with that of its first branch and the tail of that branch. -/
@[simp] lemma stringValues_cons (b : Branch) (bs : List Branch) :
    stringValues (b :: bs) = b.stringValue ++ (b.tail ++ stringValues bs) := by
  rw [stringValues, List.map_cons, Fragment.stringValues, tail_fragment, String.append_assoc,
    stringValue, stringValues]

/-- The texts of two rows follow one another. -/
@[simp] lemma stringValues_append (bs cs : List Branch) :
    stringValues (bs ++ cs) = stringValues bs ++ stringValues cs := by
  induction bs with
  | nil => simp
  | cons b bs ih => simp [ih, String.append_assoc]

/-- The text inside of a branch is its root's text and that of its children. -/
lemma stringValue_eq (b : Branch) : b.stringValue = b.text ++ stringValues b.children := by
  cases b
  rw [stringValue_node, text, own_node, children_node]

/-- A tail lies outside of its element. -/
@[simp] lemma stringValue_withTail (b : Branch) (tail : Option String) :
    (b.withTail tail).stringValue = b.stringValue := by
  rw [stringValue_eq, stringValue_eq b]
  rfl

@[simp] lemma tail_withTail (b : Branch) (tail : Option String) :
    (b.withTail tail).tail = tail.getD "" := rfl

/-- A tail is no text of the branch itself. -/
@[simp] lemma stringValue_extendTail (b : Branch) (more : String) :
    (b.extendTail more).stringValue = b.stringValue := by
  rw [stringValue_eq, stringValue_eq b]
  rfl

/-- Text appended to a tail follows the tail. -/
@[simp] lemma tail_extendTail (b : Branch) (more : String) :
    (b.extendTail more).tail = b.tail ++ more := by
  rw [tail, own_extendTail, getD_appendTo, tail]

/-- Text appended at the end of the content comes last in the string value. -/
@[simp] lemma stringValue_appendContent (b : Branch) (more : String) :
    (b.appendContent more).stringValue = b.stringValue ++ more := by
  rcases b.children_cases with h | ⟨bs, last, h⟩
  · rw [appendContent_of_nil h, stringValue_node, stringValue_eq, h]
    simp [text]
  · rw [appendContent_of_append h, stringValue_node, stringValue_eq, h]
    simp [text, String.append_assoc]

/-- A merge puts the text of an element behind that of its sibling, and both tails where they were. -/
lemma stringValue_absorb (b c : Branch) :
    (b.absorb c).stringValue ++ (b.absorb c).tail =
      b.stringValue ++ (b.tail ++ (c.stringValue ++ c.tail)) := by
  have hjoined : (((b.withTail none).appendContent b.tail).appendContent c.text).stringValue =
      b.stringValue ++ (b.tail ++ c.text) := by
    simp [String.append_assoc]
  rw [stringValue_eq] at hjoined
  rw [absorb, stringValue_node, stringValues_append, ← String.append_assoc, ← text, hjoined,
    stringValue_eq c]
  simp [tail, String.append_assoc]

end Branch

open Branch

/-- The string value of an element is that of the branch at it. -/
lemma Tree.stringValue_eq_branch (t : Tree) (n : NodeId) :
    t.stringValue n = (t.branch n).stringValue := by
  rw [Tree.stringValue, Branch.stringValue, Tree.fragment_branch]

/-- In a tree, the text of a branch is the text of its root. -/
lemma Branch.Holds.stringValue_eq {t : Tree} (h : t.WellFormed) {b : Branch} (hb : b.Holds t) :
    t.stringValue b.number = b.stringValue := by
  rw [Tree.stringValue_eq_branch, hb.branch_eq h]

namespace Frame

/-- The text of the element before the child that was taken out. -/
def textBefore (f : Frame) : String :=
  f.own.text.getD "" ++ stringValues f.before.reverse

/-- The tail of the element, empty if absent. -/
def tail (f : Frame) : String :=
  f.own.tail.getD ""

/-- The text of an element around a row is the text before the place, that of the row, and the text
after the place. -/
lemma stringValue_fillRow (f : Frame) (row : List Branch) :
    (f.fillRow row).stringValue = f.textBefore ++ (stringValues row ++ stringValues f.after) := by
  simp [fillRow, textBefore, String.append_assoc]

@[simp] lemma tail_fillRow (f : Frame) (row : List Branch) : (f.fillRow row).tail = f.tail := rfl

/-- The text of an element around a place, with what fills it between the text before and the text
after. -/
lemma stringValue_fill (f : Frame) (b : Branch) :
    (f.fill b).stringValue = f.textBefore ++ (b.stringValue ++ (b.tail ++ stringValues f.after)) := by
  rw [← fillRow_singleton, stringValue_fillRow]
  simp [String.append_assoc]

@[simp] lemma tail_fill (f : Frame) (b : Branch) : (f.fill b).tail = f.tail := rfl

/-- Text that is put before a place comes last of what is there. -/
@[simp] lemma textBefore_extendBefore (f : Frame) (more : String) :
    (f.extendBefore more).textBefore = f.textBefore ++ more := by
  unfold extendBefore
  split
  · next h => simp [textBefore, h]
  · next h => simp [textBefore, h, String.append_assoc]

/-- Text put before a place does not get into the tail of the element around it. -/
@[simp] lemma tail_extendBefore (f : Frame) (more : String) :
    (f.extendBefore more).tail = f.tail := by
  unfold extendBefore
  split <;> rfl

/-- An element that is divided in front of a child keeps its text and tail. -/
lemma stringValues_splitBefore (f : Frame) (k : NodeId) (x : Branch) :
    stringValues (f.splitBefore k x) = (f.fill x).stringValue ++ f.tail := by
  rw [stringValue_fill]
  simp [splitBefore, front, back, Branch.tail, textBefore, tail, String.append_assoc]

/-- An element that is divided in front of the tail of a child keeps its text and tail. -/
lemma stringValues_splitAfterTail (f : Frame) (k : NodeId) (x : Branch) :
    stringValues (f.splitAfterTail k x) = (f.fill x).stringValue ++ f.tail := by
  rw [stringValue_fill]
  simp [splitAfterTail, front, back, Branch.tail, textBefore, tail, String.append_assoc]

/-- An element keeps its text and tail where a child is lifted out of it. -/
lemma stringValues_lift (f : Frame) (k : NodeId) (x : Branch) :
    stringValues (f.lift k x) = (f.fill x).stringValue ++ f.tail := by
  rw [stringValue_fill]
  unfold lift
  split
  · next h =>
    rw [Bool.and_eq_true, List.isEmpty_iff, Option.isNone_iff_eq_none] at h
    have htail : x.own.tail.getD "" = "" := by
      rw [← getD_handedTail, h.1, Option.getD_none]
    simp [front, h.2, htail, textBefore, tail, Branch.tail, String.append_assoc]
  · simp [front, back, Branch.tail, textBefore, tail, String.append_assoc]

end Frame

/-! ### Text around a place -/

/-- The text that comes before a place. -/
def textBefore : List Frame → String
  | [] => ""
  | f :: fs => textBefore fs ++ f.textBefore

/-- The text that comes after a place and the tail of what stands there.  The tail of the outermost
element lies outside. -/
def textAfter : List Frame → String
  | [] => ""
  | [f] => stringValues f.after
  | f :: g :: fs => stringValues f.after ++ (f.tail ++ textAfter (g :: fs))

/-- Around a place, the text is what comes before, what stands there, and what comes after. -/
theorem stringValue_plug_fillRow (f : Frame) (fs : List Frame) (row : List Branch) :
    (plug fs (f.fillRow row)).stringValue =
      textBefore (f :: fs) ++ (stringValues row ++ textAfter (f :: fs)) := by
  induction fs generalizing f row with
  | nil =>
    rw [plug_nil, Frame.stringValue_fillRow, textBefore, textBefore, textAfter, String.empty_append]
  | cons g fs ih =>
    rw [plug_cons, ← Frame.fillRow_singleton, ih, stringValues_cons, Frame.stringValue_fillRow,
      Frame.tail_fillRow, stringValues_nil, String.append_empty]
    simp only [textBefore, textAfter, String.append_assoc]

/-- Around an element, the text is what comes before, its string value, its tail, and what comes
after. -/
theorem stringValue_plug (f : Frame) (fs : List Frame) (x : Branch) :
    (plug (f :: fs) x).stringValue =
      textBefore (f :: fs) ++ (x.stringValue ++ (x.tail ++ textAfter (f :: fs))) := by
  rw [plug_cons, ← Frame.fillRow_singleton, stringValue_plug_fillRow, stringValues_cons,
    stringValues_nil, String.append_empty, String.append_assoc]

/-- Text that is put before a place comes last of what is there. -/
lemma textBefore_extendBefore (f : Frame) (fs : List Frame) (more : String) :
    textBefore (f.extendBefore more :: fs) = textBefore (f :: fs) ++ more := by
  rw [textBefore, Frame.textBefore_extendBefore, textBefore, String.append_assoc]

/-- Text put before a place is not after it. -/
lemma textAfter_extendBefore (f : Frame) (fs : List Frame) (more : String) :
    textAfter (f.extendBefore more :: fs) = textAfter (f :: fs) := by
  cases fs <;> simp [textAfter]

/-- The text stays the same if what stands at a place is exchanged for something of the same text and
tail. -/
theorem stringValue_plug_congr (fs : List Frame) {x y : Branch} (h : x.stringValue = y.stringValue)
    (htail : x.tail = y.tail) : (plug fs x).stringValue = (plug fs y).stringValue := by
  cases fs with
  | nil => exact h
  | cons f fs => rw [stringValue_plug, stringValue_plug, h, htail]

end DoxygenRest

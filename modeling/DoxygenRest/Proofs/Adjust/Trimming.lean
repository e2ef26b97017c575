import DoxygenRest.Proofs.Adjust.Move
import DoxygenRest.Proofs.Cursor.Target
import DoxygenRest.Proofs.Tree.Specimen
import DoxygenRest.Proofs.Text.Splitting

/-!
# White space leaves inline markup

The white space around the text of an element is moved out of it: what is in front to the text right
before the element, and what is behind to the element's tail (`IsTrimmed`).  `trimCurrent_ok` says
what becomes of the tree.

The guard asks for white space around the text, and what is split off is all of it.  So when the
guard has let an element pass, something is moved, and the guard does not let it pass again
(`trimmed_exactly`).
-/

namespace DoxygenRest

namespace Tree

variable {t : Tree} {n : NodeId}

/-! ### The text right before an element -/

/-- The text right before an element: the tail of the sibling before it, or else the text of its
parent.  Nothing is before an element that has neither. -/
def precedingText? (t : Tree) (n : NodeId) : Option String :=
  match t.previousSibling? n, t.parent? n with
  | some previous, _ => some (t.tail previous)
  | none, some parent => some (t.text parent)
  | none, none => none

/-- The text of an element is part of its own data. -/
lemma text_eq_of_entry {e : Entry} (h : t.entry n = e) : t.text n = e.text.getD "" := by
  rw [← h]
  rfl

/-- The tail of an element is part of its own data. -/
lemma tail_eq_of_entry {e : Entry} (h : t.entry n = e) : t.tail n = e.tail.getD "" := by
  rw [← h]
  rfl

/-- What an element itself has does not count among what is before it. -/
lemma precedingText?_revise (h : t.WellFormed) (n : NodeId) (f : Entry → Entry) :
    (t.revise n f).precedingText? n = t.precedingText? n := by
  have hprevious : (t.revise n f).previousSibling? n = t.previousSibling? n :=
    previousSibling?_congr (parent?_revise ..) fun p _ => children_revise ..
  rw [precedingText?, precedingText?, hprevious, parent?_revise]
  cases hm : t.previousSibling? n with
  | some previous =>
    have hentry : (t.revise n f).entry previous = t.entry previous :=
      entry_revise_of_ne f (parent?_of_previousSibling h hm).1
    exact congrArg some (tail_eq_of_entry hentry)
  | none =>
    cases hp : t.parent? n with
    | none => rfl
    | some parent =>
      have hentry : (t.revise n f).entry parent = t.entry parent :=
        entry_revise_of_ne f (ne_of_parent?_eq_some h hp).symm
      exact congrArg some (text_eq_of_entry hentry)

/-- Extending the text of an element adds to its end. -/
lemma text_extendText (hn : n < t.size) (more : String) :
    (t.extendText n more).text n = t.text n ++ more := by
  have hentry := entry_revise_self (fun e => { e with text := appendTo e.text more }) hn
  exact (text_eq_of_entry hentry).trans (getD_appendTo _ _)

/-- Extending the tail of an element adds to its end. -/
lemma tail_extendTail (hn : n < t.size) (more : String) :
    (t.extendTail n more).tail n = t.tail n ++ more := by
  have hentry := entry_revise_self (fun e => { e with tail := appendTo e.tail more }) hn
  exact (tail_eq_of_entry hentry).trans (getD_appendTo _ _)

/-- What is written right before an element is appended to what is before it. -/
lemma precedingText?_writtenBefore (h : t.WellFormed) (n : NodeId) (more : String) :
    (t.writtenBefore n more).precedingText? n = (t.precedingText? n).map (· ++ more) := by
  rw [precedingText?, precedingText?, previousSibling?_writtenBefore h, parent?_writtenBefore h,
    writtenBefore]
  cases hm : t.previousSibling? n with
  | some previous =>
    obtain ⟨-, parent, -, hmp⟩ := parent?_of_previousSibling h hm
    exact congrArg some (tail_extendTail (lt_size_of_parent?_eq_some hmp) more)
  | none =>
    cases hp : t.parent? n with
    | none => rfl
    | some parent => exact congrArg some (text_extendText (h.parent_lt_size hp) more)

end Tree

namespace Adjust

open Text (splitBlanks isBlank)

variable {c : Cursor} {t u : Tree} {n : NodeId} {text head tail : String}

/-- The own data of an element with its text trimmed, and the white space behind the text in its
tail. -/
def trimEntry (text : String) (e : Entry) : Entry :=
  { e with
    text := if (splitBlanks text).2.1 = "" then none else some (splitBlanks text).2.1
    tail := Tree.prependTo e.tail (splitBlanks text).2.2 }

/-- Trimming changes nothing of an element but text and tail. -/
lemma bare_trimEntry (text : String) (e : Entry) : (trimEntry text e).bare = e.bare := by
  simp only [Entry.bare, trimEntry]

/-- The editor writes in front of an element by an update of the tree. -/
lemma extendBefore_eq (n : NodeId) (more : String) :
    Cursor.extendBefore n more = Cursor.updateTree (·.writtenBefore n more) :=
  rfl

/-- Trimming writes the white space in front of the text right before the element, and trims the
element's own data. -/
lemma trimCurrent_ok (h : c.tree.WellFormed) (hcurrent : c.current = some n)
    (htext : c.tree.text? n = some text) :
    trimCurrent c = .ok () { c with
      tree := (c.tree.writtenBefore n (splitBlanks text).1).revise n (trimEntry text) } := by
  have hentry : trimEntry text = fun e =>
      { e with
        text := if (splitBlanks text).2.1 = "" then none else some (splitBlanks text).2.1
        tail := Tree.prependTo e.tail (splitBlanks text).2.2 } := rfl
  rw [trimCurrent, Program.bind_ok (current_ok hcurrent)]
  simp only [Cursor.stepTree_bind_apply, Tree.takeText, htext, extendBefore_eq,
    Cursor.updateTree_bind_apply, Tree.setText_eq_revise, Tree.writtenBefore_revise h,
    Tree.prependTail_eq_revise, Tree.revise_revise]
  split
  · next hbody =>
    rw [Cursor.updateTree_apply, Tree.revise_revise, hentry, if_neg hbody]
  · next hbody =>
    rw [hentry, if_pos (not_not.1 hbody)]
    rfl

/-- White space has left the text of an element: `head`, which was in front, has been appended to the
text right before the element, if there is any, and `tail`, which was behind, has been put in front
of the element's tail.  Other than texts, nothing has changed. -/
structure IsTrimmed (t u : Tree) (n : NodeId) (head tail : String) : Prop where
  text_eq : t.text n = head ++ u.text n ++ tail
  preceding_eq : u.precedingText? n = (t.precedingText? n).map (· ++ head)
  tail_eq : u.tail n = tail ++ t.tail n
  bare_eq : ∀ m, (u.entry m).bare = (t.entry m).bare
  links_eq : ∀ m, u.parent? m = t.parent? m ∧ u.children m = t.children m

section Trimmed

variable (h : t.WellFormed) (htext : t.text? n = some text)

include h htext

/-- What a trimmed element has of its own. -/
lemma entry_trimmed :
    ((t.writtenBefore n (splitBlanks text).1).revise n (trimEntry text)).entry n =
      trimEntry text (t.entry n) := by
  have hlt : n < t.size := by
    refine Nat.lt_of_not_le fun hsize => ?_
    rw [Tree.text?_of_size_le hsize] at htext
    cases htext
  have hnumber : n ∈ (t.branch n).numbers := (Tree.mem_numbers_branch h).2 (Or.inl rfl)
  rw [Tree.entry_revise_self _ (by rwa [Tree.size_writtenBefore h]),
    Tree.entry_writtenBefore_of_mem h n _ hnumber]

/-- After trimming, the text is what is between the blanks. -/
lemma text_of_trimmed :
    ((t.writtenBefore n (splitBlanks text).1).revise n (trimEntry text)).text n =
      (splitBlanks text).2.1 := by
  rw [Tree.text_eq_of_entry (entry_trimmed h htext)]
  simp only [trimEntry]
  split
  · next hempty => rw [hempty, Option.getD_none]
  · rfl

/-- What is written in front of an element and what is left of it are as trimming promises. -/
lemma isTrimmed_trimmed :
    IsTrimmed t ((t.writtenBefore n (splitBlanks text).1).revise n (trimEntry text)) n
      (splitBlanks text).1 (splitBlanks text).2.2 where
  text_eq := by
    rw [text_of_trimmed h htext, String.append_assoc, Text.append_splitBlanks, Tree.text, htext,
      Option.getD_some]
  preceding_eq := by
    rw [Tree.precedingText?_revise (Tree.wellFormed_writtenBefore h n _),
      Tree.precedingText?_writtenBefore h]
  tail_eq := by
    rw [Tree.tail_eq_of_entry (entry_trimmed h htext), trimEntry, getD_prependTo]
    rfl
  bare_eq m := by
    rw [Tree.entry_revise]
    split
    · rw [bare_trimEntry, Tree.bare_entry_writtenBefore h]
    · exact Tree.bare_entry_writtenBefore h n _ m
  links_eq m := by
    rw [Tree.parent?_revise, Tree.children_revise, Tree.parent?_writtenBefore h,
      Tree.children_writtenBefore h]
    exact ⟨rfl, rfl⟩

end Trimmed

/-- If there is white space around a text, some of it is split off. -/
lemma splitBlanks_ne_of_hasOuterBlanks (h : Text.hasOuterBlanks text = true) :
    (splitBlanks text).1 ++ (splitBlanks text).2.2 ≠ "" := by
  intro hnone
  obtain ⟨hhead, htail⟩ := String.append_eq_empty_iff.1 hnone
  have hbody := Text.append_splitBlanks text
  rw [hhead, htail, String.empty_append, String.append_empty] at hbody
  have hbare := Text.hasOuterBlanks_splitBlanks text
  rw [hbody, h] at hbare
  cases hbare

/-- **White space is split off exactly, and trimming takes it out.**  A text is split into what
`IsSplit` asks for, and in no other way.  If the guard lets an element pass, then trimming moves some
white space out of it, all that there is, and the guard does not let it pass again. -/
theorem trimmed_exactly :
    (∀ s head body tail, splitBlanks s = (head, body, tail) ↔ Text.IsSplit s head body tail) ∧
    ∀ (c : Cursor) (n : NodeId), c.tree.WellFormed → c.current = some n →
      isUntrimmedInline c.tree n = true →
      ∃ u head tail, trimCurrent c = .ok () { c with tree := u } ∧
        IsTrimmed c.tree u n head tail ∧ head ++ tail ≠ "" ∧ isBlank (head ++ tail) = true ∧
        isUntrimmedInline u n = false := by
  refine ⟨fun _ _ _ _ => Text.splitBlanks_eq_iff, fun c n h hcurrent hguard => ?_⟩
  rw [isUntrimmedInline, Bool.and_eq_true] at hguard
  cases htext : c.tree.text? n with
  | none =>
    rw [Tree.text, htext] at hguard
    cases hguard.2
  | some text =>
    have heq : c.tree.text n = text := by rw [Tree.text, htext, Option.getD_some]
    rw [heq] at hguard
    refine ⟨_, _, _, trimCurrent_ok h hcurrent htext, isTrimmed_trimmed h htext,
      splitBlanks_ne_of_hasOuterBlanks hguard.2, ?_, ?_⟩
    · exact Text.isBlank_append (Text.isBlank_splitBlanks_fst _) (Text.isBlank_splitBlanks_snd _)
    · rw [isUntrimmedInline, text_of_trimmed h htext, Text.hasOuterBlanks_splitBlanks,
        Bool.and_false]

/-- A paragraph with a blank on each side of the text in bold:

    <para>a<bold> b </bold>c</para>
-/
def padded : Tree :=
  ⟨#[{ tag := "para", text := some "a", children := [1] },
    { tag := "bold", text := some " b ", tail := some "c", parent := some 0 }]⟩

/-- Both blanks around the letter of ` b ` move out of the element. -/
theorem trimmed_exactly_padded :
    splitBlanks " b " = (" ", "b", " ") ∧ padded.WellFormed ∧ isUntrimmedInline padded 1 = true ∧
      ∃ u head tail, trimCurrent ⟨padded, 0, some 1⟩ = .ok () ⟨u, 0, some 1⟩ ∧
        IsTrimmed padded u 1 head tail ∧ head ++ tail ≠ "" ∧ isUntrimmedInline u 1 = false := by
  have hsplit : Text.IsSplit " b " " " "b" " " :=
    ⟨by decide, by decide, by decide, by decide, by decide⟩
  have hpadded : padded.WellFormed := Tree.wellFormed_of_ordered (by decide)
  have hguard : isUntrimmedInline padded 1 = true := by decide +kernel
  obtain ⟨u, head, tail, hrun, htrimmed, hmoved, -, hdone⟩ :=
    trimmed_exactly.2 ⟨padded, 0, some 1⟩ 1 hpadded rfl hguard
  exact ⟨(trimmed_exactly.1 _ _ _ _).2 hsplit, hpadded, hguard, u, head, tail, hrun, htrimmed,
    hmoved, hdone⟩

end Adjust

end DoxygenRest

import DoxygenRest.Proofs.Branch.Replacement
import DoxygenRest.Proofs.Program
import DoxygenRest.Proofs.Xml.Content

/-!
# The builder builds the document it is fed

While a builder takes in the events of a document, its tree holds what has been read so far: the
innermost open element stands at a place of the tree (`Builder.Builds`), and all that was read lies
before the place.  Feeding the builder the events of what the element holds appends the text and the
branches of that content to the element (`Builder.Builds.feed`), by induction on the content.

In the end the tree has the branch of the document's root, and nothing else (`tree_of_document`).
-/

namespace DoxygenRest

open Branch

/-- An element whose content is longer by a text and a row of children behind it. -/
def Branch.extend (x : Branch) (text : String) (row : List Branch) : Branch :=
  node x.number (x.appendContent text).own ((x.appendContent text).children ++ row)

@[simp] lemma Branch.number_extend (x : Branch) (text : String) (row : List Branch) :
    (x.extend text row).number = x.number := rfl

/-- Extending a branch without text only adds children. -/
lemma Branch.extend_empty (x : Branch) (row : List Branch) :
    x.extend "" row = node x.number x.own (x.children ++ row) := by
  rw [extend, appendContent_empty]

/-- Filling the place behind all children of an element is appending a child. -/
lemma Branch.fill_eq_extend (x y : Branch) :
    (⟨x.number, x.own, x.children.reverse, []⟩ : Frame).fill y = x.extend "" [y] := by
  rw [Frame.fill, extend_empty, List.reverse_reverse]

/-- Content is appended to an element piece by piece, text first. -/
lemma Branch.extend_appendContent (x : Branch) (s text : String) (row : List Branch) :
    (x.appendContent s).extend text row = x.extend (s ++ text) row := by
  rw [extend, extend, appendContent_appendContent, number_appendContent]

/-- Content is appended to an element piece by piece, a child first. -/
lemma Branch.extend_extend (x y : Branch) (text : String) (row : List Branch) :
    (x.extend "" [y]).extend text row = x.extend "" (y.extendTail text :: row) := by
  have hchildren : (x.extend "" [y]).children = x.children ++ [y] := by
    rw [extend_empty, children_node]
  rw [extend, appendContent_of_append hchildren, extend_empty, extend_empty]
  simp

/-! ### Text at the end of an element -/

namespace Tree

variable {t : Tree} {n m : NodeId}

/-- The tree with more text behind all that an element holds: in the tail of its last child, or in
its own text if it has no children. -/
def extendContent (t : Tree) (n : NodeId) (more : String) : Tree :=
  match t.lastChild? n with
  | some last => t.extendTail last more
  | none => t.extendText n more

/-- Text at the end of an element changes own data of one element, and of these the text or the
tail. -/
lemma extendContent_eq_revise (t : Tree) (n : NodeId) (more : String) :
    (∃ last, t.lastChild? n = some last ∧
      t.extendContent n more = t.revise last fun e => { e with tail := appendTo e.tail more }) ∨
    t.lastChild? n = none ∧
      t.extendContent n more = t.revise n fun e => { e with text := appendTo e.text more } := by
  unfold extendContent
  cases t.lastChild? n with
  | some last => exact Or.inl ⟨last, rfl, rfl⟩
  | none => exact Or.inr ⟨rfl, rfl⟩

@[simp] lemma size_extendContent (more : String) : (t.extendContent n more).size = t.size := by
  rcases t.extendContent_eq_revise n more with ⟨last, -, heq⟩ | ⟨-, heq⟩ <;> rw [heq, size_revise]

@[simp] lemma parent?_extendContent (more : String) :
    (t.extendContent n more).parent? m = t.parent? m := by
  rcases t.extendContent_eq_revise n more with ⟨last, -, heq⟩ | ⟨-, heq⟩ <;>
    rw [heq, parent?_revise]

@[simp] lemma children_extendContent (more : String) :
    (t.extendContent n more).children m = t.children m := by
  rcases t.extendContent_eq_revise n more with ⟨last, -, heq⟩ | ⟨-, heq⟩ <;>
    rw [heq, children_revise]

@[simp] lemma bare_entry_extendContent (more : String) :
    ((t.extendContent n more).entry m).bare = (t.entry m).bare := by
  rcases t.extendContent_eq_revise n more with ⟨last, -, heq⟩ | ⟨-, heq⟩ <;>
  · rw [heq, entry_revise]
    split <;> rfl

/-- An element without children has the text itself. -/
lemma text_extendContent (hn : n < t.size) (more : String) :
    (t.extendContent n more).text m =
      if m = n ∧ t.lastChild? n = none then t.text m ++ more else t.text m := by
  show ((t.extendContent n more).entry m).text.getD "" = _
  rcases t.extendContent_eq_revise n more with ⟨last, hlast, heq⟩ | ⟨hlast, heq⟩
  · have hnot : ¬(m = n ∧ some last = none) := by simp
    rw [heq, entry_revise, hlast, if_neg hnot]
    split <;> rfl
  · rw [heq, entry_revise, hlast]
    by_cases hm : m = n
    · rw [if_pos ⟨hm, hn⟩, if_pos ⟨hm, rfl⟩, getD_appendTo]
      rfl
    · rw [if_neg (mt And.left hm), if_neg (mt And.left hm)]
      rfl

/-- The last child of an element has the text as its tail. -/
lemma tail?_extendContent (h : t.WellFormed) (more : String) :
    (t.extendContent n more).tail? m =
      if t.lastChild? n = some m then appendTo (t.tail? m) more else t.tail? m := by
  show ((t.extendContent n more).entry m).tail = _
  rcases t.extendContent_eq_revise n more with ⟨last, hlast, heq⟩ | ⟨hlast, heq⟩
  · have hlt := lt_size_of_parent?_eq_some (h.mem_children_iff.1 (List.mem_of_getLast? hlast))
    rw [heq, entry_revise, hlast]
    by_cases hm : m = last
    · rw [if_pos ⟨hm, hlt⟩, if_pos (by rw [hm])]
      rfl
    · rw [if_neg (mt And.left hm), if_neg (by simpa using Ne.symm hm)]
      rfl
  · have hnot : ¬none = some m := by simp
    rw [heq, entry_revise, hlast, if_neg hnot]
    split <;> rfl

/-- Text that is added to the content of an element lands in the tail of its last child, if it has
one. -/
lemma tail_extendContent (h : t.WellFormed) (more : String) :
    (t.extendContent n more).tail m =
      if t.lastChild? n = some m then t.tail m ++ more else t.tail m := by
  rw [tail, tail?_extendContent h]
  split
  · rw [getD_appendTo, tail]
  · rw [tail]

end Tree

namespace Xml

/-! ### Opening an element -/

/-- A branch of one element without content, as it is opened by a tag. -/
def opening (n : NodeId) (tag : String) (attributes : List (String × String)) : Branch :=
  node n ⟨tag, plainAttributes attributes, declaredNamespaces attributes, none, none⟩ []

/-- The branch of an element that is given its content after it was opened. -/
lemma branches_element (n : NodeId) (tag : String) (attributes : List (String × String))
    (contents : List Content) (tail : String) :
    (Content.element tag attributes contents).branches n tail =
      [((opening n tag attributes).extend (Content.leadingText contents)
        (Content.branchesAll (n + 1) contents)).extendTail tail] := by
  rw [Content.branches, Branch.extend, appendContent_of_nil rfl]
  simp [opening, extendTail, revise]

/-- An empty element makes one branch without children. -/
lemma branches_empty (n : NodeId) (tag : String) (attributes : List (String × String))
    (tail : String) :
    (Content.empty tag attributes).branches n tail =
      [(opening n tag attributes).extendTail tail] := by
  rw [Content.branches]
  simp [opening, extendTail, revise]

section AddChild

variable {t : Tree} {parent : NodeId} (tag : String) (attributes : List (String × String))

/-- The tree with one more element, as a tag creates it, which has no parent yet. -/
def created (t : Tree) (tag : String) (attributes : List (String × String)) : Tree :=
  (t.create tag (plainAttributes attributes) (declaredNamespaces attributes)).2

@[simp] lemma children_created (m : NodeId) :
    (created t tag attributes).children m = t.children m :=
  Tree.children_create ..

@[simp] lemma parent?_created (m : NodeId) : (created t tag attributes).parent? m = t.parent? m :=
  Tree.parent?_create ..

@[simp] lemma size_addChild : (addChild t parent tag attributes).size = t.size + 1 := by
  simp [addChild]

/-- A tree with one more root is well-formed. -/
lemma wellFormed_created (h : t.WellFormed) : (created t tag attributes).WellFormed :=
  h.create ..

/-- Nothing speaks against putting a new element under another. -/
lemma canMove_created (h : t.WellFormed) (hparent : parent < t.size) :
    (created t tag attributes).CanMove parent t.size where
  lt_size := by
    rw [created, Tree.size_create]
    exact Nat.lt_succ_self _
  parent_lt_size := by
    rw [created, Tree.size_create]
    exact Nat.lt_succ_of_lt hparent
  ne_parent := Nat.ne_of_gt hparent
  ne_root := Nat.ne_of_gt h.size_pos
  notMem_ancestors := by
    intro hmem
    rw [Tree.ancestors_congr h (wellFormed_created tag attributes h)
      fun m _ => parent?_created tag attributes m] at hmem
    exact Nat.lt_irrefl _ (Tree.lt_size_of_mem_ancestors h hmem)

/-- An element is added by creating it and moving it behind the last child of its parent. -/
lemma appendChild_created (h : t.WellFormed) (hparent : parent < t.size) :
    Tree.appendChild parent t.size (created t tag attributes) =
      .ok () (addChild t parent tag attributes) := by
  have hloose : (created t tag attributes).unlink t.size = created t tag attributes := by
    unfold Tree.unlink
    rw [parent?_created, Tree.parent?_of_size_le (Nat.le_refl _)]
  have hlast : (created t tag attributes).update parent (fun e => { e with
        children := e.children.take (t.children parent).length ++
          t.size :: e.children.drop (t.children parent).length }) =
      (created t tag attributes).update parent fun e =>
        { e with children := e.children ++ [t.size] } := by
    apply Tree.update_congr
    rw [← children_created tag attributes, Tree.children, List.take_length, List.drop_length]
  rw [Tree.appendChild, Program.get_bind_apply,
    Tree.insertChild_ok (canMove_created tag attributes h hparent).refusal?, hloose, Tree.link,
    children_created, hlast]
  rfl

/-- Adding a child is creating an element and moving it behind the other children. -/
lemma movedInto_addChild (h : t.WellFormed) (hparent : parent < t.size) :
    Tree.MovedInto (created t tag attributes) (addChild t parent tag attributes) parent
      [t.size] := by
  obtain ⟨u, hrun, hu⟩ := Tree.appendChild_ok (wellFormed_created tag attributes h)
    (canMove_created tag attributes h hparent)
  rw [appendChild_created tag attributes h hparent] at hrun
  obtain rfl : addChild t parent tag attributes = u := by injection hrun
  exact hu

/-- Where an element is added, all others keep their own data. -/
lemma entry_addChild (h : t.WellFormed) (hparent : parent < t.size) (m : NodeId) :
    (addChild t parent tag attributes).entry m =
      if m = t.size then (opening t.size tag attributes).own else t.entry m := by
  rw [(movedInto_addChild tag attributes h hparent).entry, created, Tree.entry_create]
  rfl

/-- A new element has neither text nor tail. -/
lemma texts_addChild (h : t.WellFormed) (hparent : parent < t.size) (m : NodeId) :
    (addChild t parent tag attributes).text? m = t.text? m ∧
      (addChild t parent tag attributes).tail? m = t.tail? m := by
  have hentry := entry_addChild tag attributes h hparent m
  split at hentry
  · next hm =>
    have hle := Nat.le_of_eq hm.symm
    rw [Tree.text?_of_size_le hle, Tree.tail?_of_size_le hle]
    exact ⟨congrArg Entry.text hentry, congrArg Entry.tail hentry⟩
  · exact ⟨congrArg Entry.text hentry, congrArg Entry.tail hentry⟩

/-- The other elements keep their parents. -/
lemma parent?_addChild (h : t.WellFormed) (hparent : parent < t.size) {m : NodeId}
    (hm : m ≠ t.size) : (addChild t parent tag attributes).parent? m = t.parent? m := by
  rw [(movedInto_addChild tag attributes h hparent).parent?, if_neg (by simpa using hm),
    parent?_created]

/-- The new element is the last child of its parent. -/
lemma children_addChild (h : t.WellFormed) (hparent : parent < t.size) (m : NodeId) :
    (addChild t parent tag attributes).children m =
      t.children m ++ if m = parent then [t.size] else [] := by
  rw [(movedInto_addChild tag attributes h hparent).children, children_created,
    Tree.filter_notMem_children h]
  intro n hn
  rw [List.mem_singleton.1 hn, Tree.parent?_of_size_le (Nat.le_refl _)]
  simp

/-- The branch at the parent of an added element has one child more. -/
lemma holds_addChild (h : t.WellFormed) {x : Branch} (hx : x.Holds t) (hlt : x.number < t.size) :
    (x.extend "" [opening t.size tag attributes]).Holds (addChild t x.number tag attributes) := by
  have hne : x.number ≠ t.size := Nat.ne_of_lt hlt
  have hholds : (plug [] x).Holds t := hx
  have hothers : HoldsAll (addChild t x.number tag attributes) x.children := by
    apply And.left
    apply holds_beside h hlt hholds
    intro m hm hmx _
    rw [entry_addChild tag attributes h hlt, if_neg (Nat.ne_of_lt hm),
      children_addChild tag attributes h hlt, if_neg hmx, List.append_nil]
    exact ⟨rfl, rfl⟩
  rw [Branch.extend_empty, holds_node, holdsAll_append, holdsAll_cons]
  refine ⟨?_, ?_, hothers, ?_, holdsAll_nil.2 trivial⟩
  · rw [entry_addChild tag attributes h hlt, if_neg hne, hx.entry_eq]
  · rw [children_addChild tag attributes h hlt, if_pos rfl, hx.children_eq, List.map_append]
    rfl
  · rw [opening, holds_node, children_addChild tag attributes h hlt, if_neg hne.symm,
      Tree.children_of_size_le (Nat.le_refl _), entry_addChild tag attributes h hlt, if_pos rfl]
    exact ⟨rfl, rfl, holdsAll_nil.2 trivial⟩

/-- Where an element is added, its parent has one child more, and nothing else is changed. -/
theorem replaced_addChild (h : t.WellFormed) {x : Branch} (hx : x.Holds t)
    (hlt : x.number < t.size) :
    Tree.Replaced t (addChild t x.number tag attributes) x.number
      (x.extend "" [opening t.size tag attributes]) := by
  have hmoved := movedInto_addChild tag attributes h hlt
  refine Tree.replaced_of_fields hmoved.wellFormed ?_ rfl (holds_addChild tag attributes h hx hlt)
    (parent?_addChild tag attributes h hlt (Nat.ne_of_lt hlt)) ?_ ?_
  · rw [hmoved.size, created, Tree.size_create]
    omega
  · intro m hm
    rw [Branch.extend_empty, numbers_node, numbersAll_append, ← List.cons_append, ← numbers_node,
      node_eta, List.mem_append] at hm
    rw [hx.branch_eq h]
    rcases hm with hm | hm
    · exact Or.inl hm
    · rw [numbersAll_cons, opening, numbers_node] at hm
      right
      simp only [numbersAll_nil, List.append_nil, List.mem_singleton] at hm
      exact Nat.le_of_eq hm.symm
  · intro m hm hmx
    have hmne : m ≠ x.number := by
      rintro rfl
      rw [hx.branch_eq h] at hmx
      exact hmx x.number_mem_numbers
    refine ⟨?_, parent?_addChild tag attributes h hlt (Nat.ne_of_lt hm), ?_⟩
    · rw [entry_addChild tag attributes h hlt, if_neg (Nat.ne_of_lt hm)]
    · rw [children_addChild tag attributes h hlt, if_neg hmne, List.append_nil]

end AddChild

/-! ### What has been built so far -/

namespace Builder

/-- Outside of all elements, text is dropped. -/
lemma addText_outside {blanks : Blanks} {b : Builder} (hopened : b.opened = []) (s : String) :
    b.addText blanks s = b := by
  rw [addText, hopened]
  cases b.tree? <;> rfl

/-- A builder has built a tree in which the branch `x`, at the place in the frames `fs`, is the
innermost open element, and behind which there is nothing yet. -/
structure Builds (b : Builder) (t : Tree) (fs : List Frame) (x : Branch) : Prop where
  tree?_eq : b.tree? = some t
  wellFormed : t.WellFormed
  place : t.branch Tree.root = plug fs x
  opened_eq : b.opened = x.number :: fs.map Frame.number
  lastClosed?_eq : b.lastClosed? = (x.children.map Branch.number).getLast?
  after_eq : ∀ f ∈ fs, f.after = []

variable {b : Builder} {t u : Tree} {fs : List Frame} {f : Frame} {x y : Branch}

namespace Builds

/-- The tree that is built is the branch at its root. -/
lemma replaced (hb : b.Builds t fs x) : Tree.Replaced t t Tree.root (plug fs x) := by
  have hrefl := Tree.Replaced.refl hb.wellFormed Tree.root
  rwa [hb.place] at hrefl

/-- The tree holds the element that is open. -/
lemma holds (hb : b.Builds t fs x) : x.Holds t :=
  (holds_plug.1 hb.replaced.holds).1

/-- The open element is in the tree. -/
lemma lt_size (hb : b.Builds t fs x) : x.number < t.size := by
  have hnumber : (plug fs x).number = Tree.root := by
    rw [← hb.place, Tree.number_branch]
  have hroot : (plug fs x).number < t.size := by
    rw [hnumber]
    exact hb.wellFormed.size_pos
  apply hb.replaced.holds.lt_size hb.wellFormed hroot
  exact mem_numbers_plug.2 (Or.inl x.number_mem_numbers)

/-- After the open element was replaced by one with the same number, the builder has built that
one. -/
lemma of_replaced (hb : b.Builds t fs x) (hu : Tree.Replaced t u Tree.root (plug fs y))
    (hnumber : y.number = x.number) {last? : Option NodeId}
    (hlast : last? = (y.children.map Branch.number).getLast?) :
    Builds { b with tree? := some u, lastClosed? := last? } u fs y where
  tree?_eq := rfl
  wellFormed := hu.wellFormed
  place := hu.branch
  opened_eq := hnumber ▸ hb.opened_eq
  lastClosed?_eq := hlast
  after_eq := hb.after_eq

/-- What was closed last is the last child of the open element. -/
lemma lastChild?_eq (hb : b.Builds t fs x) : b.lastClosed? = t.lastChild? x.number := by
  rw [hb.lastClosed?_eq, Tree.lastChild?, hb.holds.children_eq]

/-- Text goes to the end of the innermost open element. -/
lemma addText_eq (hb : b.Builds t fs x) (s : String) :
    b.addText .keep s = { b with tree? := some (t.extendContent x.number s) } := by
  rw [Builder.addText, hb.tree?_eq, hb.opened_eq, hb.lastChild?_eq, Tree.extendContent]
  cases hlast : t.lastChild? x.number with
  | none => simp
  | some last =>
    have hparent := hb.wellFormed.mem_children_iff.1 (List.mem_of_getLast? hlast)
    simp [hparent]

/-- Blank text is stripped where the innermost open element has no text. -/
lemma addText_strip (hb : b.Builds t fs x) (s : String) :
    b.addText .strip s =
      if Text.isBlank s = true ∧ t.text x.number = "" then b else b.addText .keep s := by
  simp only [Builder.addText, hb.tree?_eq, hb.opened_eq, Tree.hasText]
  simp

/-- Text is added to the content of the open element, unless it is blank and to be stripped. -/
lemma addText_ite (hb : b.Builds t fs x) (blanks : Blanks) (s : String) :
    b.addText blanks s =
      if blanks = .strip ∧ Text.isBlank s = true ∧ t.text x.number = "" then b
      else { b with tree? := some (t.extendContent x.number s) } := by
  rw [← hb.addText_eq]
  cases blanks with
  | keep => simp
  | strip => simp [hb.addText_strip]

/-- Text is appended to what the innermost open element holds. -/
lemma addText (hb : b.Builds t fs x) (s : String) :
    ∃ u, (b.addText .keep s).Builds u fs (x.appendContent s) ∧ u.size = t.size := by
  have hu : Tree.Replaced t (t.extendContent x.number s) Tree.root
      (plug fs (x.appendContent s)) := by
    rcases x.children_cases with hnil | ⟨bs, last, hcons⟩
    · have hlast : t.lastChild? x.number = none := by
        rw [Tree.lastChild?, hb.holds.children_eq, hnil]
        rfl
      rw [Tree.extendContent, hlast]
      exact hb.replaced.extendText hb.lt_size hnil s
    · have hlast : t.lastChild? x.number = some last.number := by
        rw [Tree.lastChild?, hb.holds.children_eq, hcons]
        simp
      rw [Tree.extendContent, hlast]
      exact hb.replaced.extendTail hcons s
  refine ⟨t.extendContent x.number s, ?_, Tree.size_extendContent s⟩
  rw [hb.addText_eq]
  refine hb.of_replaced hu (number_appendContent ..) ?_
  rw [map_number_children_appendContent, hb.lastClosed?_eq]

variable (position : Nat) (tag : String) (attributes : List (String × String))

/-- A piece that is no element adds its text to the innermost open element. -/
lemma other (hb : b.Builds t fs x) {c : Content} (hc : c.isElement = false) {event : Event}
    (hevent : c.events = [event]) :
    ∃ b' u, b.step .keep position event = .ok b' ∧ b'.Builds u fs (x.appendContent c.fullText) ∧
      u.size = t.size := by
  have hnone : b.Builds t fs (x.appendContent "") := by
    rw [appendContent_empty]
    exact hb
  cases c with
  | text s =>
    obtain ⟨u, hu, hsize⟩ := hb.addText s
    cases hevent
    exact ⟨_, u, rfl, hu, hsize⟩
  | cdata s =>
    obtain ⟨u, hu, hsize⟩ := hb.addText s
    cases hevent
    exact ⟨_, u, rfl, hu, hsize⟩
  | comment =>
    cases hevent
    exact ⟨b, t, rfl, hnone, rfl⟩
  | instruction =>
    cases hevent
    exact ⟨b, t, rfl, hnone, rfl⟩
  | element => cases hc
  | empty => cases hc

/-- A new element is opened as the last child of the innermost open one. -/
lemma openElement (hb : b.Builds t fs x) :
    ∃ u, b.openElement position tag attributes =
        .ok (t.size, { b with tree? := some u, lastClosed? := none }) ∧
      Tree.Replaced t u Tree.root (plug fs (x.extend "" [opening t.size tag attributes])) ∧
      u.size = t.size + 1 := by
  refine ⟨addChild t x.number tag attributes, ?_, ?_, ?_⟩
  · simp [Builder.openElement, hb.tree?_eq, hb.opened_eq]
  · exact hb.replaced.step (replaced_addChild tag attributes hb.wellFormed hb.holds hb.lt_size)
  · exact size_addChild tag attributes

/-- After a start tag, the new element is the innermost open one. -/
lemma start (hb : b.Builds t fs x) :
    ∃ b' u, b.step .keep position (.start tag attributes) = .ok b' ∧
      b'.Builds u (⟨x.number, x.own, x.children.reverse, []⟩ :: fs)
        (opening t.size tag attributes) ∧
      u.size = t.size + 1 := by
  obtain ⟨u, hopen, hu, hsize⟩ := hb.openElement position tag attributes
  refine ⟨{ tree? := some u, opened := t.size :: b.opened, lastClosed? := none }, u, ?_, ?_, hsize⟩
  · rw [Builder.step, hopen]
    rfl
  · refine ⟨rfl, hu.wellFormed, ?_, ?_, rfl, ?_⟩
    · rw [hu.branch, plug_cons, fill_eq_extend]
    · rw [hb.opened_eq]
      rfl
    · intro f hf
      rcases List.mem_cons.1 hf with rfl | hf
      · rfl
      · exact hb.after_eq f hf

/-- A tag that opens and closes an element adds it to the innermost open one. -/
lemma empty (hb : b.Builds t fs x) :
    ∃ b' u, b.step .keep position (.empty tag attributes) = .ok b' ∧
      b'.Builds u fs (x.extend "" [opening t.size tag attributes]) ∧ u.size = t.size + 1 := by
  obtain ⟨u, hopen, hu, hsize⟩ := hb.openElement position tag attributes
  refine ⟨{ b with tree? := some u, lastClosed? := some t.size }, u, ?_, ?_, hsize⟩
  · rw [Builder.step, hopen]
    rfl
  · apply hb.of_replaced hu (Branch.number_extend ..)
    simp [Branch.extend_empty, opening]

/-- After an end tag, the element around is the innermost open one, and the element that was open is
its last child. -/
lemma stop (hb : b.Builds t (f :: fs) x) :
    ∃ b', b.step .keep position (.stop x.own.tag) = .ok b' ∧ b'.Builds t fs (f.fill x) := by
  refine ⟨{ b with opened := f.number :: fs.map Frame.number, lastClosed? := some x.number },
    ?_, ?_⟩
  · simp [Builder.step, Builder.closeElement, hb.tree?_eq, hb.opened_eq, hb.holds.tag_eq]
  · refine ⟨hb.tree?_eq, hb.wellFormed, hb.place, rfl, ?_, ?_⟩
    · simp [Frame.fill, hb.after_eq f (List.mem_cons_self ..)]
    · intro g hg
      exact hb.after_eq g (List.mem_cons_of_mem _ hg)

/-- After the end tag of the root, no element is open. -/
lemma stopRoot (hb : b.Builds t [] x) :
    ∃ b', b.step .keep position (.stop x.own.tag) = .ok b' ∧ b'.tree? = some t ∧
      b'.opened = [] := by
  refine ⟨{ b with opened := [], lastClosed? := some x.number }, ?_, hb.tree?_eq, rfl⟩
  simp [Builder.step, Builder.closeElement, hb.tree?_eq, hb.opened_eq, hb.holds.tag_eq]

end Builds

/-! ### Feeding a row of pieces -/

/-- Events in front of others are taken in first. -/
lemma feed_append {blanks : Blanks} {items items' : List (Nat × Event)} {b' : Builder}
    (h : feed blanks b items = .ok b') :
    feed blanks b (items ++ items') = feed blanks b' items' := by
  rw [feed, List.foldlM_append, ← feed, h]
  rfl

/-- The first event is handled first. -/
lemma feed_cons {blanks : Blanks} {position : Nat} {event : Event} {items : List (Nat × Event)}
    {b' : Builder} (h : b.step blanks position event = .ok b') :
    feed blanks b ((position, event) :: items) = feed blanks b' items := by
  rw [feed, List.foldlM_cons, h]
  rfl

/-- What holds of a builder and the events it is going to be fed with, and goes on to hold after each
step, holds in the end, when no events are left. -/
lemma feed_induction {blanks : Blanks} {motive : Builder → List (Nat × Event) → Prop}
    (hstep : ∀ {b c position event items}, b.step blanks position event = .ok c →
      motive b ((position, event) :: items) → motive c items)
    {c : Builder} {items : List (Nat × Event)} (hfeed : feed blanks b items = .ok c)
    (h : motive b items) : motive c [] := by
  induction items generalizing b with
  | nil =>
    cases hfeed
    exact h
  | cons item items ih =>
    rw [feed, List.foldlM_cons] at hfeed
    obtain ⟨b₁, hfirst, hrest⟩ := Program.exists_of_bind_eq_ok hfeed
    exact ih hrest (hstep hfirst h)

/-- Fed with the events of a row of pieces, a builder appends what the row says to the innermost
open element. -/
theorem Builds.feed {contents : List Content} (hb : b.Builds t fs x) {items : List (Nat × Event)}
    (hitems : items.map Prod.snd = Content.eventsAll contents) :
    ∃ b' u, Builder.feed .keep b items = .ok b' ∧
      b'.Builds u fs (x.extend (Content.leadingText contents)
        (Content.branchesAll t.size contents)) ∧
      u.size = t.size + Content.sizeAll contents := by
  -- By induction on what the document holds, with the builder, the tree and the place in it free:
  -- the contents of an element are read inside of it, the rest behind it.
  induction contents using Content.induction generalizing b t fs x items with
  | nil =>
    rw [Content.eventsAll, List.map_eq_nil_iff] at hitems
    refine ⟨b, t, by rw [hitems]; rfl, ?_, rfl⟩
    rw [Content.leadingText, Content.branchesAll, Branch.extend_empty, List.append_nil, node_eta]
    exact hb
  | other c rest hc ih =>
    obtain ⟨hbranches, hnone, hleading⟩ := Content.of_not_isElement hc
    obtain ⟨event, hevent⟩ := Content.exists_event_of_not_isElement hc
    rw [Content.eventsAll, hevent, List.singleton_append, List.map_eq_cons_iff] at hitems
    obtain ⟨⟨position, _⟩, items, rfl, rfl, hrest⟩ := hitems
    obtain ⟨b₁, t₁, hstep, hb₁, hsize⟩ := hb.other position hc hevent
    obtain ⟨b', u, hfeed, hb', hu⟩ := ih hb₁ hrest
    rw [Branch.extend_appendContent, hsize, ← hleading] at hb'
    refine ⟨b', u, (feed_cons hstep).trans hfeed, ?_, ?_⟩
    · rw [Content.branchesAll, hbranches, hnone]
      exact hb'
    · rw [hu, hsize, Content.sizeAll, hnone, Nat.zero_add]
  | element tag attributes contents rest ih ihRest =>
    rw [Content.eventsAll, Content.events, List.cons_append, List.append_assoc,
      List.map_eq_cons_iff] at hitems
    obtain ⟨⟨position, _⟩, items, rfl, rfl, hitems⟩ := hitems
    obtain ⟨inner, items, rfl, hinner, hitems⟩ := List.map_eq_append_iff.1 hitems
    obtain ⟨⟨position', _⟩, outer, rfl, rfl, houter⟩ := List.map_eq_cons_iff.1 hitems
    obtain ⟨b₁, t₁, hstart, hb₁, hsize₁⟩ := hb.start position tag attributes
    obtain ⟨b₂, t₂, hinside, hb₂, hsize₂⟩ := ih hb₁ hinner
    obtain ⟨b₃, hstop, hb₃⟩ := hb₂.stop position'
    rw [Branch.fill_eq_extend, hsize₁] at hb₃
    obtain ⟨b', u, hfeed, hb', hu⟩ := ihRest hb₃ houter
    rw [Branch.extend_extend] at hb'
    refine ⟨b', u, ?_, ?_, ?_⟩
    · exact (feed_cons hstart).trans ((feed_append hinside).trans ((feed_cons hstop).trans hfeed))
    · rw [Content.leadingText, Content.branchesAll, branches_element, Content.size,
        List.singleton_append, ← Nat.add_assoc]
      rw [hsize₂, hsize₁, Nat.add_right_comm] at hb'
      exact hb'
    · rw [hu, hsize₂, hsize₁, Content.sizeAll, Content.size]
      omega
  | empty tag attributes rest ih =>
    rw [Content.eventsAll, Content.events, List.singleton_append, List.map_eq_cons_iff] at hitems
    obtain ⟨⟨position, _⟩, items, rfl, rfl, hrest⟩ := hitems
    obtain ⟨b₁, t₁, hempty, hb₁, hsize₁⟩ := hb.empty position tag attributes
    obtain ⟨b', u, hfeed, hb', hu⟩ := ih hb₁ hrest
    rw [Branch.extend_extend, hsize₁] at hb'
    refine ⟨b', u, (feed_cons hempty).trans hfeed, ?_, ?_⟩
    · rw [Content.leadingText, Content.branchesAll, branches_empty, Content.size,
        List.singleton_append]
      exact hb'
    · rw [hu, hsize₁, Content.sizeAll, Content.size, Nat.add_assoc]

/-! ### Documents -/

/-- The builder of a document's root, right after its start tag. -/
lemma builds_root (tag : String) (attributes : List (String × String)) :
    Builds
      { tree? := some (Tree.ofRoot tag (plainAttributes attributes) (declaredNamespaces attributes))
        opened := [Tree.root] }
      (Tree.ofRoot tag (plainAttributes attributes) (declaredNamespaces attributes)) []
      (opening Tree.root tag attributes) := by
  have hwellFormed := Tree.wellFormed_ofRoot tag (plainAttributes attributes)
    (declaredNamespaces attributes)
  refine ⟨rfl, hwellFormed, ?_, rfl, rfl, ?_⟩
  · rw [Tree.branch_eq hwellFormed]
    rfl
  · intro f hf
    cases hf

/-- A builder without open elements that has built the branches of a piece, and nothing else. -/
structure Built (b : Builder) (t : Tree) (c : Content) : Prop where
  tree?_eq : b.tree? = some t
  opened_eq : b.opened = []
  wellFormed : t.WellFormed
  branches_eq : c.branches Tree.root "" = [t.branch Tree.root]
  size_eq : t.size = c.size

/-- Fed with the events of an element at the start, a builder builds that element. -/
theorem built_of_feed {c : Content} (hc : c.isElement = true) {items : List (Nat × Event)}
    (hitems : items.map Prod.snd = c.events) :
    ∃ b t, feed .keep {} items = .ok b ∧ b.Built t c := by
  cases c with
  | element tag attributes contents =>
    rw [Content.events, List.map_eq_cons_iff] at hitems
    obtain ⟨⟨position, _⟩, items, rfl, rfl, hitems⟩ := hitems
    obtain ⟨inner, items, rfl, hinner, hitems⟩ := List.map_eq_append_iff.1 hitems
    obtain ⟨⟨position', _⟩, outer, rfl, rfl, houter⟩ := List.map_eq_cons_iff.1 hitems
    obtain rfl := List.map_eq_nil_iff.1 houter
    -- The contents of the root are read by the builder that has just opened it.
    obtain ⟨b₁, t, hinside, hb₁, hsize⟩ := (builds_root tag attributes).feed hinner
    obtain ⟨b, hstop, htree, hopened⟩ := hb₁.stopRoot position'
    refine ⟨b, t, ?_, htree, hopened, hb₁.wellFormed, ?_, ?_⟩
    · exact (feed_cons rfl).trans ((feed_append hinside).trans (feed_cons hstop))
    · rw [branches_element, extendTail_empty, hb₁.place]
      rfl
    · rw [hsize, Content.size, Nat.add_comm]
      rfl
  | empty tag attributes =>
    rw [Content.events, List.map_eq_cons_iff] at hitems
    obtain ⟨⟨position, _⟩, items, rfl, rfl, hitems⟩ := hitems
    obtain rfl := List.map_eq_nil_iff.1 hitems
    have hb := builds_root tag attributes
    refine ⟨_, _, feed_cons rfl, rfl, rfl, hb.wellFormed, ?_, rfl⟩
    rw [branches_empty, extendTail_empty, hb.place]
    rfl
  | text s => cases hc
  | cdata s => cases hc
  | comment => cases hc
  | instruction => cases hc

/-- Outside of all elements, a builder lets pass whatever is no tag. -/
lemma feed_outside {blanks : Blanks} (hopened : b.opened = []) {items : List (Nat × Event)}
    (hitems : ∀ event ∈ items.map Prod.snd, event.isTag = false) :
    feed blanks b items = .ok b := by
  induction items with
  | nil => rfl
  | cons item items ih =>
    rw [List.map_cons, List.forall_mem_cons] at hitems
    have hstep : b.step blanks item.1 item.2 = .ok b := by
      cases hevent : item.2 with
      | text s => rw [step, addText_outside hopened]
      | cdata s => rw [step, addText_outside hopened]
      | comment => rfl
      | instruction => rfl
      | doctype => rfl
      | start tag attributes => simp [hevent, Event.isTag] at hitems
      | empty tag attributes => simp [hevent, Event.isTag] at hitems
      | stop tag => simp [hevent, Event.isTag] at hitems
    exact (feed_cons hstep).trans (ih hitems.2)

/-- The events of a document make a tree of the document's root. -/
theorem exists_tree_of_document (d : Document) {items : List (Nat × Event)}
    (hitems : items.map Prod.snd = d.events) :
    ∃ (b : Builder) (t : Tree), Reading.tree .keep ⟨items, none⟩ = .ok t ∧ b.Built t d.root := by
  rw [Document.events] at hitems
  obtain ⟨front, epilog, rfl, hfront, hepilog⟩ := List.map_eq_append_iff.1 hitems
  obtain ⟨prolog, inner, rfl, hprolog, hinner⟩ := List.map_eq_append_iff.1 hfront
  obtain ⟨b, t, hfeed, hb⟩ := built_of_feed d.isElement_root hinner
  have hbefore : feed .keep {} prolog = .ok {} :=
    feed_outside rfl (hprolog ▸ d.isTag_prolog)
  have hbehind : feed .keep b epilog = .ok b :=
    feed_outside hb.opened_eq (hepilog ▸ d.isTag_epilog)
  have hall : feed .keep {} (prolog ++ inner ++ epilog) = .ok b := by
    rw [List.append_assoc, feed_append hbefore, feed_append hfeed, hbehind]
  refine ⟨b, t, ?_, hb⟩
  rw [Reading.tree, hall]
  simp [bind, Except.bind, finish, hb.tree?_eq, hb.opened_eq]

end Builder

/-- Whatever the positions of its events, a document becomes a well-formed tree: its root is the
document's root, each element has the tag, the attributes, the texts and the children that the
document gives it, the elements are numbered in document order, no text inside of the root is lost,
and nothing outside of it is kept.  Of the attributes of a tag, those that declare namespaces are the
namespaces of the element and the others its attributes; of several for one name the last one counts. -/
theorem tree_of_document (d : Document) (items : List (Nat × Event))
    (hitems : items.map Prod.snd = d.events) :
    (∃ t, Reading.tree .keep ⟨items, none⟩ = .ok t ∧ t.WellFormed ∧
      d.root.branches Tree.root "" = [t.branch Tree.root] ∧ t.size = d.root.size ∧
      (t.branch Tree.root).numbers = List.range t.size ∧
      t.stringValue Tree.root = d.root.fullText ∧ t.tail Tree.root = "") ∧
    ∀ (attributes : List (String × String)) (name : String),
      (plainAttributes attributes).get? name =
        (if declaredName? name = none then attributes.reverse.lookup name else none) ∧
      (declaredNamespaces attributes).get? name =
        attributes.reverse.findSome? fun item =>
          if declaredName? item.1 = some name then some item.2 else none := by
  obtain ⟨b, t, htree, hb⟩ := Builder.exists_tree_of_document d hitems
  obtain ⟨hstring, htail⟩ := Content.stringValue_of_branches_eq hb.branches_eq
  refine ⟨⟨t, htree, hb.wellFormed, hb.branches_eq, hb.size_eq, ?_, ?_, ?_⟩, ?_⟩
  · have hrow : Content.branchesAll Tree.root [d.root] = [t.branch Tree.root] := by
      rw [Content.branchesAll, Content.leadingText, hb.branches_eq, Content.branchesAll,
        List.append_nil]
    have hnumbers := Content.numbersAll_branchesAll Tree.root [d.root]
    rw [hrow, numbersAll_cons, numbersAll_nil, List.append_nil, Content.sizeAll, Content.sizeAll,
      Nat.add_zero, ← hb.size_eq] at hnumbers
    rw [hnumbers, List.range_eq_range']
    rfl
  · rw [Tree.stringValue_eq_branch, hstring]
  · rw [Branch.tail, Tree.own_branch hb.wellFormed] at htail
    exact htail
  · intro attributes name
    exact ⟨get?_plainAttributes attributes name, get?_declaredNamespaces attributes name⟩

/-- A document with text, a CDATA section and a comment around a tag:

    <!-- --><para xmlns="n" id="i">a<anchor/>b<![CDATA[c]]><!-- -->d</para>
-/
def memo : Document where
  prolog := [.comment]
  root := .element "para" [("xmlns", "n"), ("id", "i")]
    [.text "a", .empty "anchor" [], .text "b", .cdata "c", .comment, .text "d"]
  epilog := []
  isElement_root := rfl
  isTag_prolog := by decide
  isTag_epilog := by decide

/-- The document becomes a tree of two elements, with the namespace and the attribute of the outer one
told apart, and the comments before it and in it are not kept. -/
theorem tree_of_document_memo :
    (memo.events.map fun event => (0, event)).map Prod.snd = memo.events ∧
      (∃ t, Reading.tree .keep ⟨memo.events.map fun event => (0, event), none⟩ = .ok t ∧
        t.WellFormed ∧ memo.root.branches Tree.root "" = [t.branch Tree.root] ∧
        t.size = memo.root.size ∧ (t.branch Tree.root).numbers = List.range t.size ∧
        t.stringValue Tree.root = memo.root.fullText ∧ t.tail Tree.root = "") ∧
      (plainAttributes [("xmlns", "n"), ("id", "i")]).get? "id" = some "i" ∧
      (plainAttributes [("xmlns", "n"), ("id", "i")]).get? "xmlns" = none ∧
      (declaredNamespaces [("xmlns", "n"), ("id", "i")]).get? "" = some "n" := by
  have hitems : (memo.events.map fun event => (0, event)).map Prod.snd = memo.events := by decide
  obtain ⟨htree, hattributes⟩ :=
    tree_of_document memo (memo.events.map fun event => (0, event)) hitems
  have hsame (name : String) := hattributes [("xmlns", "n"), ("id", "i")] name
  refine ⟨hitems, htree, ?_, ?_, ?_⟩
  · rw [(hsame "id").1]
    decide
  · rw [(hsame "xmlns").1]
    decide
  · rw [(hsame "").2]
    decide

end Xml

end DoxygenRest

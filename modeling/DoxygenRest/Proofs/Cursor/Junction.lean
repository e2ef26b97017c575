import DoxygenRest.Proofs.Cursor.Target

/-!
# Joining and removing elements under a cursor

`mergeIntoPrevious` and `remove` take an element out of the cursor's subtree, after some texts, and in
a merge the children, went to other elements.  Said of branches, the element's place stays empty, and
what stood right before it has grown.
-/

namespace DoxygenRest.Cursor

open Branch

variable {c : Cursor} {n? : Option NodeId} {x : Branch} {f : Frame} {fs : List Frame}

/-! ### Where the walk goes on -/

/-- Walking on leaves the tree alone. -/
lemma tree_advancePast (c : Cursor) : c.advancePast.tree = c.tree := by
  unfold advancePast
  split <;> rfl

/-- Walking on leaves the tree as it is. -/
lemma tree_advanceInto (c : Cursor) : c.advanceInto.tree = c.tree := by
  unfold advanceInto
  split
  · rfl
  · split
    · rfl
    · exact tree_advancePast c

/-- What follows a subtree in document order can be told from the frames around it. -/
lemma nextOutside_eq (h : c.tree.WellFormed) (hplace : c.branch = plug fs x) :
    c.nextOutside x.number = nextNumber fs := by
  induction fs generalizing x with
  | nil =>
    have hroot : x.number = c.root := by
      rw [← plug_nil x, ← hplace, branch, Tree.number_branch]
    simp [nextOutside, nextNumber, hroot]
  | cons f fs ih =>
    have hne := ne_root_of_place h hplace
    have hframes := (holds_plug.1 (holds_of_place h hplace)).2
    rw [nextOutside, Tree.ancestors_eq_cons h (parent?_of_place h hplace),
      List.takeWhile_cons_of_pos (by simpa using hne), List.findSome?_cons,
      f.nextSibling?_eq h hframes.1, nextNumber, ← ih (x := f.fill x) hplace, nextOutside,
      Frame.number_fill]
    cases f.after <;> rfl

/-- Walking on from an element goes to its first child, or else to what follows its place. -/
lemma advanceInto_eq (h : c.tree.WellFormed) (hplace : c.branch = plug fs x)
    (hcurrent : c.current = some x.number) :
    c.advanceInto = { c with current := (x.children.head?.map number).or (nextNumber fs) } := by
  have hholds := (holds_plug.1 (holds_of_place h hplace)).1
  rw [advanceInto, hcurrent]
  simp only [Tree.firstChild?, hholds.children_eq, List.head?_map]
  cases x.children.head? with
  | some y => rfl
  | none =>
    rw [Option.map_none, Option.none_or, advancePast, hcurrent]
    simp only [nextOutside_eq h hplace]

/-! ### Moving texts -/

section Texts

variable {t : Tree} {r : NodeId} (more : String)

/-- Text is appended at the end of the content of an element. -/
lemma appendContent_ok (hu : Tree.Replaced t c.tree r (plug fs x)) (hx : x.number < c.tree.size) :
    ∃ u, appendContent x.number more c = .ok () { c with tree := u } ∧
      Tree.Replaced t u r (plug fs (x.appendContent more)) := by
  have hchildren := (holds_plug.1 hu.holds).1.children_eq
  rcases x.children_cases with hnil | ⟨bs, last, hlast⟩
  · refine ⟨c.tree.extendText x.number more, ?_, hu.extendText hx hnil more⟩
    rw [appendContent, updateTree_apply, Tree.lastChild?, hchildren, hnil]
    rfl
  · refine ⟨c.tree.extendTail last.number more, ?_, hu.extendTail hlast more⟩
    rw [appendContent, updateTree_apply, Tree.lastChild?, hchildren, hlast]
    simp

/-- Text is appended to whatever stands right before an element. -/
lemma extendBefore_ok (hu : Tree.Replaced t c.tree r (plug (f :: fs) x)) :
    ∃ u, extendBefore x.number more c = .ok () { c with tree := u } ∧
      Tree.Replaced t u r (plug (f.extendBefore more :: fs) x) := by
  have hf := (holds_plug.1 hu.holds).2.1
  have hprevious := f.previousSibling?_eq hu.wellFormed hf
  -- The text goes to the parent if the place is at its first child, and else to the tail of the
  -- sibling before the place.
  cases hbefore : f.before with
  | nil =>
    refine ⟨c.tree.extendText f.number more, ?_, ?_⟩
    · rw [extendBefore, updateTree_apply, hprevious, hbefore, hu.parent?_place]
      rfl
    · have hv := Tree.Replaced.revise (x := f.fill x) hu hu.lt_size_place.2
        fun e => { e with text := Tree.appendTo e.text more }
      have hfill : (f.extendBefore more).fill x =
          (f.fill x).revise fun e => { e with text := Tree.appendTo e.text more } := by
        simp [Frame.extendBefore, hbefore, Frame.fill, revise]
      rw [plug_cons, hfill]
      exact hv
  | cons prev rest =>
    refine ⟨c.tree.extendTail prev.number more, ?_, ?_⟩
    · rw [extendBefore, updateTree_apply, hprevious, hbefore]
      rfl
    · have hshift : f.fill x = { f with before := rest, after := x :: f.after }.fill prev := by
        rw [← Frame.fill_shift, ← hbefore]
      rw [plug_cons, hshift, ← plug_cons] at hu
      have hv := hu.revise hu.lt_size_place.1 fun e => { e with tail := Tree.appendTo e.tail more }
      rw [plug_cons, ← Frame.fill_shift] at hv
      rw [Frame.extendBefore, hbefore]
      exact hv

end Texts

/-! ### Detaching -/

/-- An element below the root of the cursor's subtree is taken out of its parent. -/
lemma detach_ok {t : Tree} {r : NodeId} (hu : Tree.Replaced t c.tree r (plug (f :: fs) x)) :
    onTree (Tree.detach x.number) c = .ok () { c with tree := c.tree.unlink x.number } ∧
      Tree.Replaced t (c.tree.unlink x.number) r (plug fs (f.fillRow [])) := by
  constructor
  · exact onTree_ok (Tree.detach_ok hu.wellFormed hu.parent?_place)
  · have hholds := ((holds_plug (b := f.fill x)).1 hu.holds).1
    exact Tree.Replaced.step (x := f.fill x) hu (Tree.replaced_unlink hu.wellFormed hholds)

/-! ### Merging -/

/-- A sibling takes over the content and the tail of the element after it.  This is all of a merge but
for taking the emptied element out. -/
lemma takeOver_ok {prev : Branch} {rest : List Branch} (h : c.tree.WellFormed)
    (hplace : c.branch = plug (f :: fs) x) (hbefore : f.before = prev :: rest) :
    ∃ t₂ t₄ t₅, appendContent prev.number prev.tail
          { c with tree := c.tree.setTail prev.number none } = .ok () { c with tree := t₂ } ∧
      t₂.text? x.number = x.own.text ∧
      appendContent prev.number x.text
          { c with tree := t₂.setText x.number none } = .ok () { c with tree := t₄ } ∧
      Tree.appendChildren prev.number (x.children.map number) t₄ = .ok () t₅ ∧
      t₅.tail? x.number = x.own.tail ∧
      Tree.Replaced c.tree ((t₅.setTail x.number none).setTail prev.number x.own.tail) c.root
        (plug ({ f with before := prev.absorb x :: rest } :: fs)
          (node x.number { x.own with text := none, tail := none } [])) := by
  -- The place stands on the sibling where that is changed, and on the element elsewhere.
  have h0 : Tree.Replaced c.tree c.tree c.root
      (plug ({ f with before := rest, after := x :: f.after } :: fs) prev) := by
    have hrefl := Tree.Replaced.refl h c.root
    rw [← branch, hplace, plug_cons] at hrefl
    rwa [plug_cons, ← Frame.fill_shift, ← hbefore]
  have h1 : Tree.Replaced c.tree (c.tree.setTail prev.number none) c.root
      (plug ({ f with before := rest, after := x :: f.after } :: fs) (prev.withTail none)) :=
    h0.revise h0.lt_size_place.1 fun e => { e with tail := none }
  obtain ⟨t₂, hrun₂, h2⟩ :=
    appendContent_ok (c := { c with tree := c.tree.setTail prev.number none }) prev.tail h1
      h1.lt_size_place.1
  rw [plug_cons, ← Frame.fill_shift, ← plug_cons] at h2
  have h3 := h2.revise h2.lt_size_place.1 fun e => { e with text := none }
  rw [plug_cons, Frame.fill_shift, ← plug_cons] at h3
  obtain ⟨t₄, hrun₄, h4⟩ :=
    appendContent_ok (c := { c with tree := t₂.setText x.number none }) x.text h3
      h3.lt_size_place.1
  rw [plug_cons, ← Frame.fill_shift] at h4
  obtain ⟨t₅, hrun₅, h45⟩ := Tree.replaced_appendChildren h4.wellFormed rfl (holds_plug.1 h4.holds).1
  have h5 := h4.step h45
  rw [← plug_cons] at h5
  have h6 := h5.revise h5.lt_size_place.1 fun e => { e with tail := none }
  rw [plug_cons, Frame.fill_shift, ← plug_cons] at h6
  have h7 := h6.revise h6.lt_size_place.1 fun e => { e with tail := x.own.tail }
  rw [plug_cons, ← Frame.fill_shift, ← plug_cons] at h7
  refine ⟨t₂, t₄, t₅, hrun₂, (holds_plug.1 h2.holds).1.text?_eq, ?_, ?_,
    (holds_plug.1 h5.holds).1.tail?_eq, ?_⟩
  · simpa using hrun₄
  · simpa using hrun₅
  · simpa [absorb, revise, Tree.setTail_eq_revise] using h7

/-- Joining a target into its previous sibling. -/
theorem mergeIntoPrevious_ok (h : c.tree.WellFormed) {prev : Branch} {rest : List Branch}
    (hplace : c.branch = plug (f :: fs) x) (hbefore : f.before = prev :: rest)
    (hchosen : n?.or c.current = some x.number) :
    ∃ u, mergeIntoPrevious n? c = .ok ()
        { c with
          tree := u
          current := if c.current = some x.number then
            (x.children.head?.map number).or (nextNumber (f :: fs)) else c.current } ∧
      Tree.Replaced c.tree u c.root
        (plug fs ({ f with before := prev.absorb x :: rest }.fillRow [])) := by
  have hholds := holds_plug.1 (holds_of_place h hplace)
  have hf := hholds.2.1
  have hprevious := f.previousSibling?_eq h hf
  rw [hbefore] at hprevious
  -- Where the cursor lands is read off before the merge.
  have hlanding : (c.tree.firstChild? x.number).or (c.nextOutside x.number) =
      (x.children.head?.map number).or (nextNumber (f :: fs)) := by
    rw [nextOutside_eq h hplace, Tree.firstChild?, hholds.1.children_eq, List.head?_map]
  obtain ⟨t₂, t₄, t₅, hrun₂, htext, hrun₄, hrun₅, htail, hu⟩ := takeOver_ok h hplace hbefore
  obtain ⟨hdetach, hv⟩ := detach_ok
    (c := { c with tree := (t₅.setTail x.number none).setTail prev.number x.own.tail }) hu
  rw [number_node] at hdetach hv
  refine ⟨_, ?_, hv⟩
  have hgap : (c.tree.tail? prev.number).getD "" = prev.tail := by
    have hbs := hf.2.2.1
    rw [hbefore, holdsAll_cons] at hbs
    rw [hbs.1.tail?_eq, tail]
  rw [mergeIntoPrevious, Program.bind_ok (targetBelowRoot_ok h _ hchosen hplace)]
  simp only [Program.get_bind_apply, hprevious, List.head?_cons, Option.map_some, hlanding,
    stepTree_bind_apply, Tree.takeTail, Tree.takeText, hgap, hholds.1.children_eq]
  rw [Program.bind_ok hrun₂]
  simp only [stepTree_bind_apply, htext]
  rw [← text, Program.bind_ok hrun₄, Program.bind_ok (onTree_ok hrun₅)]
  simp only [stepTree_bind_apply, updateTree_bind_apply, htail]
  rw [Program.bind_ok hdetach]
  split <;> rfl

/-- A merge is refused, or it has a target with a previous sibling. -/
lemma mergeIntoPrevious_cases (h : c.tree.WellFormed) (n? : Option NodeId) :
    (∃ f fs x prev rest, c.TargetAt n? (f :: fs) x ∧ f.before = prev :: rest) ∨
      c.Refused (mergeIntoPrevious n? c) := by
  unfold mergeIntoPrevious
  rcases targetBelowRoot_cases "merge" n? c with ⟨n, hrun, htarget, hroot⟩ | ⟨op, tag, reason, hrun⟩
  · obtain ⟨f, fs, x, hplace, rfl⟩ := htarget.exists_place h hroot
    cases hbefore : f.before with
    | cons prev rest => exact Or.inl ⟨f, fs, x, prev, rest, ⟨htarget.chosen, hplace⟩, hbefore⟩
    | nil =>
      have hprevious := f.previousSibling?_eq h (holds_plug.1 (holds_of_place h hplace)).2.1
      rw [hbefore, List.head?_nil, Option.map_none] at hprevious
      rw [Program.bind_ok hrun, Program.get_bind_apply, hprevious]
      exact Or.inr ⟨_, _, _, rfl⟩
  · exact Or.inr ⟨op, tag, reason, Program.bind_error hrun _⟩

/-! ### Removing -/

/-- Removing a target. -/
theorem remove_ok (h : c.tree.WellFormed) (hplace : c.branch = plug (f :: fs) x)
    (hchosen : n?.or c.current = some x.number) :
    ∃ u, remove n? c = .ok ()
        { c with
          tree := u
          current := c.current.bind fun m =>
            if m ∈ x.numbers then nextNumber (f :: fs) else some m } ∧
      Tree.Replaced c.tree u c.root (plug fs ((f.extendBefore x.tail).fillRow [])) := by
  have hholds := holds_plug.1 (holds_of_place h hplace)
  have hinside (m : NodeId) : m = x.number ∨ c.tree.isAncestorOf x.number m ↔ m ∈ x.numbers := by
    rw [Tree.isAncestorOf_iff, ← Tree.mem_numbers_branch h, hholds.1.branch_eq h]
  have hrefl := Tree.Replaced.refl h c.root
  rw [← branch, hplace] at hrefl
  have htaken := hrefl.revise hrefl.lt_size_place.1 fun e => { e with tail := none }
  obtain ⟨t₂, hrun₂, h2⟩ := extendBefore_ok
    (c := { c with
      tree := c.tree.setTail x.number none
      current := c.current.bind fun m => if m ∈ x.numbers then nextNumber (f :: fs) else some m })
    x.tail htaken
  obtain ⟨hdetach, hv⟩ := detach_ok
    (c := { c with
      tree := t₂
      current := c.current.bind fun m => if m ∈ x.numbers then nextNumber (f :: fs) else some m }) h2
  refine ⟨_, ?_, hv⟩
  rw [number_revise] at hrun₂ hdetach
  -- A cursor inside of the removed branch is moved behind it first; the rest of the removal is the
  -- same for all cursors.
  have hmove : remove n? c =
      (do
        let tail ← stepTree (·.takeTail x.number)
        extendBefore x.number (tail.getD "")
        onTree (Tree.detach x.number))
      { c with
        current := c.current.bind fun m =>
          if m ∈ x.numbers then nextNumber (f :: fs) else some m } := by
    rw [remove, Program.bind_ok (targetBelowRoot_ok h _ hchosen hplace), Program.modify_bind_apply]
    split
    · next hc => rw [hc, Option.bind_none, ← hc]
    · next m hc =>
      simp only [hinside, hc, Option.bind_some, nextOutside_eq h hplace]
      split
      · rfl
      · rw [← hc]
  rw [hmove]
  simp only [stepTree_bind_apply, Tree.takeTail, hholds.1.tail?_eq]
  rw [← tail, Program.bind_ok hrun₂, hdetach]
  rfl

/-- A removal is refused, or it has a target below the cursor's root. -/
lemma remove_cases (h : c.tree.WellFormed) (n? : Option NodeId) :
    (∃ f fs x, c.TargetAt n? (f :: fs) x) ∨ c.Refused (remove n? c) := by
  unfold remove
  rcases targetBelowRoot_cases "remove" n? c with ⟨n, -, htarget, hroot⟩ | ⟨op, tag, reason, hrun⟩
  · obtain ⟨f, fs, x, hplace, rfl⟩ := htarget.exists_place h hroot
    exact Or.inl ⟨f, fs, x, htarget.chosen, hplace⟩
  · exact Or.inr ⟨op, tag, reason, Program.bind_error hrun _⟩

end DoxygenRest.Cursor

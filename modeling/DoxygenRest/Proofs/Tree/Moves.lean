import DoxygenRest.Proofs.Tree.Ancestry
import DoxygenRest.Proofs.Program

/-!
# Moving elements in well-formed trees

What the moves of the library do to a well-formed tree: they succeed under the conditions they
check, the tree stays well-formed, no own data changes, and the new parents and children can be
told for each element (`MovedInto`, `MovedAfter`, `children_unlink`).
-/

namespace DoxygenRest.Tree

variable {t u : Tree}

/-! ### Siblings -/

/-- What stands behind a row that it is not in, has the length of the row for an index. -/
lemma idxOf?_append_cons {α : Type} [DecidableEq α] {before after : List α} {a : α}
    (h : a ∉ before) : (before ++ a :: after).idxOf? a = some before.length := by
  induction before with
  | nil => simp [List.idxOf?_cons]
  | cons b before ih =>
    simp only [List.mem_cons, not_or] at h
    simp [List.idxOf?_cons, Ne.symm h.1, ih h.2]

section Siblings

variable {n parent : NodeId} {before after : List NodeId}

/-- An element with a parent stands somewhere among the children of its parent. -/
lemma exists_children_eq (h : t.WellFormed) (hp : t.parent? n = some parent) :
    ∃ before after, t.children parent = before ++ n :: after :=
  List.append_of_mem (h.mem_children_iff.2 hp)

variable (h : t.WellFormed) (hchildren : t.children parent = before ++ n :: after)

include h hchildren

/-- What is listed among the children of an element has it for a parent. -/
lemma parent?_of_children_eq : t.parent? n = some parent :=
  h.mem_children_iff.1 (by simp [hchildren])

/-- No child is listed twice. -/
lemma nodup_of_children_eq : (before ++ n :: after).Nodup :=
  hchildren ▸ h.nodup_children parent

/-- A child is not among the children before and behind it. -/
lemma notMem_of_children_eq : n ∉ before ∧ n ∉ after := by
  have hnodup := nodup_of_children_eq h hchildren
  rw [List.perm_middle.nodup_iff, List.nodup_cons, List.mem_append, not_or] at hnodup
  exact hnodup.1

/-- The index of a child is the number of children before it. -/
lemma indexInParent?_of_children_eq : t.indexInParent? n = some before.length := by
  rw [indexInParent?, parent?_of_children_eq h hchildren, Option.bind_some, hchildren,
    idxOf?_append_cons (notMem_of_children_eq h hchildren).1]

/-- The siblings before a child, nearest first, are the children before it. -/
lemma precedingSiblings_of_children_eq : t.precedingSiblings n = before.reverse := by
  simp [precedingSiblings, parent?_of_children_eq h hchildren,
    indexInParent?_of_children_eq h hchildren, hchildren]

/-- The siblings behind a child are the children behind it. -/
lemma followingSiblings_of_children_eq : t.followingSiblings n = after := by
  simp [followingSiblings, parent?_of_children_eq h hchildren,
    indexInParent?_of_children_eq h hchildren, hchildren]

/-- The sibling before a child is the last of the children before it. -/
lemma previousSibling?_of_children_eq : t.previousSibling? n = before.getLast? := by
  rw [previousSibling?, precedingSiblings_of_children_eq h hchildren, List.head?_reverse]

/-- The sibling behind a child is the first of the children behind it. -/
lemma nextSibling?_of_children_eq : t.nextSibling? n = after.head? := by
  rw [nextSibling?, followingSiblings_of_children_eq h hchildren]

end Siblings

/-! ### When ancestors stay the same -/

/-- Ancestors stay the same where all parents on the way stay the same. -/
lemma ancestors_congr (h : t.WellFormed) (h' : u.WellFormed) {n : NodeId}
    (hsame : ∀ m ∈ n :: t.ancestors n, u.parent? m = t.parent? m) :
    u.ancestors n = t.ancestors n := by
  induction n using h.parent_induction with
  | step n ih =>
    have hparent := hsame n (List.mem_cons_self ..)
    cases hp : t.parent? n with
    | none => rw [ancestors_eq_nil hp, ancestors_eq_nil (hparent.trans hp)]
    | some parent =>
      rw [ancestors_eq_cons h hp, ancestors_eq_cons h' (hparent.trans hp)]
      rw [ancestors_eq_cons h hp] at hsame
      rw [ih parent hp fun m hm => hsame m (List.mem_cons_of_mem _ hm)]

/-- With fewer parents there are fewer ancestors. -/
lemma ancestors_subset_of_parent? (h : t.WellFormed) (h' : u.WellFormed)
    (hparent : ∀ {m parent : NodeId}, u.parent? m = some parent → t.parent? m = some parent)
    (n : NodeId) : u.ancestors n ⊆ t.ancestors n := by
  induction n using h'.parent_induction with
  | step n ih =>
    intro a ha
    obtain ⟨parent, hp, ha⟩ := (mem_ancestors_iff h').1 ha
    exact (mem_ancestors_iff h).2 ⟨parent, hparent hp, ha.imp_right (ih parent hp ·)⟩

/-! ### When a move is allowed -/

/-- Nothing speaks against putting `n` under `parent`: both are elements of the tree, and `n` is
neither the root nor `parent` itself nor around `parent`. -/
structure CanMove (t : Tree) (parent n : NodeId) : Prop where
  lt_size : n < t.size
  parent_lt_size : parent < t.size
  ne_parent : n ≠ parent
  notMem_ancestors : n ∉ t.ancestors parent
  ne_root : n ≠ root

/-- An insertion is refused if it would close a circle or give the root a parent, and for no other
reason. -/
lemma refusal?_eq_none_iff {parent n : NodeId} :
    t.refusal? parent n = none ↔ n ≠ parent ∧ n ∉ t.ancestors parent ∧ n ≠ root := by
  unfold refusal?
  by_cases h : n = parent ∨ n ∈ t.ancestors parent
  · rw [if_pos (by simpa [isAncestorOf] using h)]
    simp only [reduceCtorEq, false_iff]
    tauto
  · rw [if_neg (by simpa [isAncestorOf] using h)]
    by_cases hroot : n = root
    · simp [hroot]
    · simp only [beq_iff_eq, hroot, if_false, true_iff]
      tauto

/-- What can move is not refused. -/
lemma CanMove.refusal? {parent n : NodeId} (h : t.CanMove parent n) :
    t.refusal? parent n = none :=
  refusal?_eq_none_iff.2 ⟨h.ne_parent, h.notMem_ancestors, h.ne_root⟩

/-- A move within the tree that is not refused is allowed. -/
lemma canMove_of_refusal? {parent n : NodeId} (hn : n < t.size) (hparent : parent < t.size)
    (hrefusal : t.refusal? parent n = none) : t.CanMove parent n := by
  obtain ⟨hne, hbelow, hroot⟩ := refusal?_eq_none_iff.1 hrefusal
  exact ⟨hn, hparent, hne, hbelow, hroot⟩

/-- A check that does not refuse changes nothing. -/
lemma checkInsertable_ok {parent n : NodeId} (h : t.refusal? parent n = none) :
    checkInsertable parent n t = .ok () t := by
  rw [checkInsertable, h]

/-- An insertion that is not refused unlinks the element and links it in its new place. -/
lemma insertChild_ok {parent n : NodeId} (h : t.refusal? parent n = none) (index : Nat) :
    insertChild parent index n t = .ok () ((t.unlink n).link parent index n) := by
  rw [insertChild, Program.bind_ok (checkInsertable_ok h), Program.modify_apply]

/-- A check that refuses changes nothing. -/
lemma checkInsertable_error {parent n : NodeId} {failure : EditError}
    (h : t.refusal? parent n = some failure) : checkInsertable parent n t = .error failure t := by
  rw [checkInsertable, h]

/-- An insertion that is refused changes nothing. -/
lemma insertChild_error {parent n : NodeId} {failure : EditError}
    (h : t.refusal? parent n = some failure) (index : Nat) :
    insertChild parent index n t = .error failure t := by
  rw [insertChild, Program.bind_error (checkInsertable_error h)]

/-- To append a child is to insert it behind all children. -/
lemma appendChild_eq (t : Tree) (parent n : NodeId) :
    appendChild parent n t = insertChild parent (t.children parent).length n t := by
  rw [appendChild, Program.get_bind_apply]

/-- An element is put after another in three steps, of which the first and the last may fail: the
check of the move, taking the element out of its parent, and finding the place. -/
lemma insertAfter_eq {parent anchor : NodeId} (hp : t.parent? anchor = some parent) (n : NodeId) :
    insertAfter anchor n t =
      match t.refusal? parent n with
      | some failure => .error failure t
      | none =>
        match (t.unlink n).indexInParent? anchor with
        | none => .error .notAmongSiblings (t.unlink n)
        | some index => .ok () ((t.unlink n).link parent (index + 1) n) := by
  rw [insertAfter, Program.get_bind_apply, hp]
  cases hrefusal : t.refusal? parent n with
  | some failure =>
    simp only [Program.bind_error (checkInsertable_error hrefusal)]
  | none =>
    simp only [Program.bind_ok (checkInsertable_ok hrefusal), Program.modify_bind_apply,
      Program.get_bind_apply]
    cases (t.unlink n).indexInParent? anchor with
    | none => rfl
    | some index => rfl

/-- A move keeps a tree well-formed. -/
lemma CanMove.wellFormed_link {parent n : NodeId} (h : t.WellFormed) (hmove : t.CanMove parent n)
    (index : Nat) : ((t.unlink n).link parent index n).WellFormed := by
  refine (h.unlink n).link index (by simp [parent?_unlink]) hmove.ne_root
    (by simpa using hmove.lt_size) (by simpa using hmove.parent_lt_size)
    ⟨hmove.ne_parent.symm, fun hn => hmove.notMem_ancestors ?_⟩
  refine ancestors_subset_of_parent? h (h.unlink n) (fun hp => ?_) parent hn
  rw [parent?_unlink] at hp
  split at hp
  · cases hp
  · exact hp

/-- A move changes the parent of the moved element alone. -/
lemma CanMove.parent?_link {parent n : NodeId} (hmove : t.CanMove parent n) (index : Nat)
    (m : NodeId) :
    ((t.unlink n).link parent index n).parent? m = if m = n then some parent else t.parent? m := by
  rw [Tree.parent?_link _ (by simpa using hmove.lt_size), parent?_unlink]
  by_cases hm : m = n <;> simp [hm]

/-! ### Moving a row of elements behind the children of another -/

/-- `u` is `t` with the elements of `row` moved behind the children of `parent`. -/
structure MovedInto (t u : Tree) (parent : NodeId) (row : List NodeId) : Prop where
  wellFormed : u.WellFormed
  size : u.size = t.size
  entry : ∀ m, u.entry m = t.entry m
  parent? : ∀ m, u.parent? m = if m ∈ row then some parent else t.parent? m
  children : ∀ m, u.children m =
    (t.children m).filter (· ∉ row) ++ if m = parent then row else []

/-- A child that can move is appended behind the others. -/
lemma appendChild_ok (h : t.WellFormed) {parent n : NodeId} (hmove : t.CanMove parent n) :
    ∃ u, appendChild parent n t = .ok () u ∧ MovedInto t u parent [n] := by
  refine ⟨(t.unlink n).link parent (t.children parent).length n, ?_, hmove.wellFormed_link h _,
    by simp, by simp, ?_, ?_⟩
  · rw [appendChild_eq, insertChild_ok hmove.refusal?]
  · intro m
    rw [hmove.parent?_link]
    simp
  · intro m
    rw [children_link _ (by simpa using hmove.parent_lt_size), children_unlink h]
    by_cases hm : m = parent
    · subst hm
      have hle := List.length_filter_le (· ≠ n) (t.children m)
      rw [if_pos rfl, if_pos rfl, List.take_of_length_le hle, List.drop_of_length_le hle]
      simp
    · simp [hm]

/-- Where an element may be put, others may still be put after other elements were put there. -/
lemma MovedInto.canMove {parent n : NodeId} {row : List NodeId} (h : t.WellFormed)
    (hmoved : MovedInto t u parent row) (hrow : ∀ m ∈ row, t.CanMove parent m)
    (hmove : t.CanMove parent n) : u.CanMove parent n where
  lt_size := hmoved.size ▸ hmove.lt_size
  parent_lt_size := hmoved.size ▸ hmove.parent_lt_size
  ne_parent := hmove.ne_parent
  ne_root := hmove.ne_root
  notMem_ancestors := by
    rw [ancestors_congr h hmoved.wellFormed]
    · exact hmove.notMem_ancestors
    · intro m hm
      have hnot : m ∉ row := fun hr => by
        rcases List.mem_cons.1 hm with rfl | hm
        · exact (hrow m hr).ne_parent rfl
        · exact (hrow m hr).notMem_ancestors hm
      rw [hmoved.parent?, if_neg hnot]

/-- A row of children that can move is appended in its order. -/
lemma appendChildren_ok (h : t.WellFormed) (parent : NodeId) {row : List NodeId}
    (hnodup : row.Nodup) (hrow : ∀ n ∈ row, t.CanMove parent n) :
    ∃ u, appendChildren parent row t = .ok () u ∧ MovedInto t u parent row := by
  -- The induction is on the row: each child that is appended leaves the rest of the row free to
  -- move.
  induction row generalizing t with
  | nil =>
    refine ⟨t, rfl, h, rfl, fun _ => rfl, by simp, fun m => ?_⟩
    rw [List.filter_eq_self.2 (by simp)]
    simp
  | cons n row ih =>
    obtain ⟨hn, hnodup⟩ := List.nodup_cons.1 hnodup
    obtain ⟨t₁, hrun, hfirst⟩ := appendChild_ok h (hrow n (List.mem_cons_self ..))
    obtain ⟨u, hrest, hmoved⟩ := ih hfirst.wellFormed hnodup fun m hm =>
      hfirst.canMove h (by simpa using hrow n (List.mem_cons_self ..))
        (hrow m (List.mem_cons_of_mem _ hm))
    refine ⟨u, ?_, hmoved.wellFormed, hmoved.size.trans hfirst.size,
      fun m => (hmoved.entry m).trans (hfirst.entry m), fun m => ?_, fun m => ?_⟩
    · exact (Program.bind_ok hrun _).trans hrest
    · rw [hmoved.parent?, hfirst.parent?]
      by_cases hm : m ∈ row <;> by_cases hmn : m = n <;> simp [hm, hmn]
    · rw [hmoved.children, hfirst.children]
      by_cases hm : m = parent
      · subst hm
        simp [List.filter_filter, hn, Bool.and_comm]
      · simp [hm, List.filter_filter, Bool.and_comm]

/-- Elements without a child in a row keep their children when the row is taken out. -/
lemma filter_notMem_children (h : t.WellFormed) {m : NodeId} (row : List NodeId)
    (hrow : ∀ n ∈ row, t.parent? n ≠ some m) : (t.children m).filter (· ∉ row) = t.children m := by
  refine List.filter_eq_self.2 fun c hc => ?_
  simpa using fun hcr => hrow c hcr (h.mem_children_iff.1 hc)

/-- The last children of an element are moved behind the children of another. -/
lemma MovedInto.children_eq (h : t.WellFormed) {source dest : NodeId} {kept row : List NodeId}
    (hmoved : MovedInto t u dest row) (hsource : t.children source = kept ++ row)
    (hne : dest ≠ source) (m : NodeId) :
    u.children m = if m = dest then t.children dest ++ row
      else if m = source then kept else t.children m := by
  have hparent {n : NodeId} (hn : n ∈ row) : t.parent? n = some source :=
    h.mem_children_iff.1 (by simp [hsource, hn])
  have hother (hm : m ≠ source) : (t.children m).filter (· ∉ row) = t.children m :=
    filter_notMem_children h row fun n hn => by simpa [hparent hn] using hm.symm
  rw [hmoved.children]
  by_cases hd : m = dest
  · subst hd
    rw [hother hne, if_pos rfl, if_pos rfl]
  · by_cases hs : m = source
    · subst hs
      have hnodup := h.nodup_children m
      rw [hsource, List.nodup_append] at hnodup
      have hkept : kept.filter (· ∉ row) = kept :=
        List.filter_eq_self.2 fun a ha => by simpa using fun har => hnodup.2.2 a ha a har rfl
      have hrow : row.filter (· ∉ row) = [] := by simp
      rw [hsource, List.filter_append, hkept, hrow]
      simp [hd]
    · rw [hother hs, if_neg hd, if_neg hd, if_neg hs, List.append_nil]

/-! ### Moving an element right after another -/

/-- `u` is `t` with `n` moved right after `anchor`, which stands under `parent`. -/
structure MovedAfter (t u : Tree) (parent anchor n : NodeId) : Prop where
  wellFormed : u.WellFormed
  size : u.size = t.size
  entry : ∀ m, u.entry m = t.entry m
  parent? : ∀ m, u.parent? m = if m = n then some parent else t.parent? m
  children_of_ne : ∀ m, m ≠ parent → u.children m = (t.children m).filter (· ≠ n)
  children_parent : ∀ before after, (t.children parent).filter (· ≠ n) = before ++ anchor :: after →
    u.children parent = before ++ anchor :: n :: after

/-- An element that can move is inserted right behind another one. -/
lemma insertAfter_ok (h : t.WellFormed) {parent anchor n : NodeId}
    (hparent : t.parent? anchor = some parent) (hne : anchor ≠ n) (hmove : t.CanMove parent n) :
    ∃ u, insertAfter anchor n t = .ok () u ∧ MovedAfter t u parent anchor n := by
  have hparent' : (t.unlink n).parent? anchor = some parent := by
    rw [parent?_unlink, if_neg hne, hparent]
  obtain ⟨before, after, hchildren⟩ := exists_children_eq (h.unlink n) hparent'
  have hindex := indexInParent?_of_children_eq (h.unlink n) hchildren
  refine ⟨(t.unlink n).link parent (before.length + 1) n, ?_, hmove.wellFormed_link h _, by simp,
    by simp, hmove.parent?_link _, fun m hm => ?_, fun before' after' hsplit => ?_⟩
  · rw [insertAfter_eq hparent, hmove.refusal?, hindex]
  · rw [children_link _ (by simpa using hmove.parent_lt_size), if_neg hm, children_unlink h]
  · rw [children_link _ (by simpa using hmove.parent_lt_size), if_pos rfl, children_unlink h,
      hsplit]
    have hindex' := indexInParent?_of_children_eq (h.unlink n) ((children_unlink h ..).trans hsplit)
    rw [Option.some.inj (hindex.symm.trans hindex')]
    simp [List.take_append, List.drop_append, List.take_of_length_le, List.drop_of_length_le]

/-- An element without a parent is put right after another. -/
lemma MovedAfter.children_eq_of_parentless (h : t.WellFormed) {parent anchor n : NodeId}
    {before after : List NodeId} (hmoved : MovedAfter t u parent anchor n)
    (hn : t.parent? n = none) (hchildren : t.children parent = before ++ anchor :: after)
    (m : NodeId) :
    u.children m = if m = parent then before ++ anchor :: n :: after else t.children m := by
  have hother (m : NodeId) : (t.children m).filter (· ≠ n) = t.children m := by
    have := filter_notMem_children h (m := m) [n] (by simp [hn])
    simpa using this
  split
  · next hm =>
    rw [hm, hmoved.children_parent before after ((hother parent).trans hchildren)]
  · next hm => rw [hmoved.children_of_ne m hm, hother]

/-- The last child of an element is put right after another, under another parent. -/
lemma MovedAfter.children_eq_of_last (h : t.WellFormed) {parent source anchor n : NodeId}
    {before after kept : List NodeId} (hmoved : MovedAfter t u parent anchor n)
    (hsource : t.children source = kept ++ [n]) (hne : source ≠ parent)
    (hchildren : t.children parent = before ++ anchor :: after) (m : NodeId) :
    u.children m = if m = parent then before ++ anchor :: n :: after
      else if m = source then kept else t.children m := by
  have hn : t.parent? n = some source := h.mem_children_iff.1 (by simp [hsource])
  have hother {m : NodeId} (hm : m ≠ source) : (t.children m).filter (· ≠ n) = t.children m := by
    have := filter_notMem_children h (m := m) [n] (by simpa [hn] using hm.symm)
    simpa using this
  by_cases hp : m = parent
  · rw [if_pos hp, hp,
      hmoved.children_parent before after ((hother hne.symm).trans hchildren)]
  · rw [if_neg hp, hmoved.children_of_ne m hp]
    by_cases hs : m = source
    · subst hs
      have hnodup := h.nodup_children m
      rw [hsource, List.nodup_append] at hnodup
      have hkept : kept.filter (· ≠ n) = kept :=
        List.filter_eq_self.2 fun a ha => by
          simpa using fun han : a = n => hnodup.2.2 a ha n (by simp) han
      rw [if_pos rfl, hsource, List.filter_append, hkept]
      simp
    · rw [if_neg hs, hother hs]

end DoxygenRest.Tree

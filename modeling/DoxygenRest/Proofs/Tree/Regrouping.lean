import DoxygenRest.Proofs.Tree.Moves

/-!
# Regrouping elements

Dividing an element takes three moves: its last children go into a new element, which has neither
parent nor children yet; the new element is put right after the divided one; and an element that is
lifted goes right after the one that it was the last child of.  This file tells the parents and
children of all elements after each of these moves.
-/

namespace DoxygenRest.Tree

variable {t : Tree}

/-- Links that a move leaves behind; own data stays as it is. -/
structure Relinked (t u : Tree) (parent? : NodeId → Option NodeId)
    (children : NodeId → List NodeId) : Prop where
  wellFormed : u.WellFormed
  size : u.size = t.size
  entry : ∀ m, u.entry m = t.entry m
  parent? : ∀ m, u.parent? m = parent? m
  children : ∀ m, u.children m = children m

/-- The last children of an element move behind those of another that does not lie below it. -/
lemma appendChildren_last (h : t.WellFormed) {source dest : NodeId} {kept row : List NodeId}
    (hsize : dest < t.size) (hne : dest ≠ source) (hbelow : source ∉ t.ancestors dest)
    (hsource : t.children source = kept ++ row) :
    ∃ u, appendChildren dest row t = .ok () u ∧ Relinked t u
      (fun m => if m ∈ row then some dest else t.parent? m)
      (fun m => if m = dest then t.children dest ++ row
        else if m = source then kept else t.children m) := by
  have hrow {n : NodeId} (hn : n ∈ row) : t.parent? n = some source :=
    h.mem_children_iff.1 (by simp [hsource, hn])
  have haround {n : NodeId} (hn : n ∈ row) : source ∈ t.ancestors n :=
    (mem_ancestors_iff h).2 ⟨source, hrow hn, Or.inl rfl⟩
  have hnodup := h.nodup_children source
  rw [hsource, List.nodup_append] at hnodup
  obtain ⟨u, hrun, hmoved⟩ := appendChildren_ok h dest hnodup.2.1 fun n hn =>
    { lt_size := lt_size_of_parent?_eq_some (hrow hn)
      parent_lt_size := hsize
      ne_parent := fun hnd => hbelow (hnd ▸ haround hn)
      notMem_ancestors := fun hnd => hbelow (ancestors_subset h hnd (haround hn))
      ne_root := by
        rintro rfl
        have hroot := h.parent?_root
        simp [hrow hn] at hroot }
  exact ⟨u, hrun, hmoved.wellFormed, hmoved.size, hmoved.entry, hmoved.parent?,
    hmoved.children_eq h hsource hne⟩

/-- A parentless element is put right after another. -/
lemma insertAfter_loose (h : t.WellFormed) {parent anchor n : NodeId} {before after : List NodeId}
    (hsize : n < t.size) (hroot : n ≠ root) (hn : t.parent? n = none)
    (hchildren : t.children parent = before ++ anchor :: after)
    (hbelow : n ∉ parent :: t.ancestors parent) :
    ∃ u, insertAfter anchor n t = .ok () u ∧ Relinked t u
      (fun m => if m = n then some parent else t.parent? m)
      (fun m => if m = parent then before ++ anchor :: n :: after else t.children m) := by
  have hanchor := parent?_of_children_eq h hchildren
  rw [List.mem_cons, not_or] at hbelow
  have hne : anchor ≠ n := by
    rintro rfl
    simp [hn] at hanchor
  obtain ⟨u, hrun, hmoved⟩ := insertAfter_ok h hanchor hne
    ⟨hsize, h.parent_lt_size hanchor, hbelow.1, hbelow.2, hroot⟩
  exact ⟨u, hrun, hmoved.wellFormed, hmoved.size, hmoved.entry, hmoved.parent?,
    hmoved.children_eq_of_parentless h hn hchildren⟩

/-- The last child of an element is put right after that element. -/
lemma insertAfter_last (h : t.WellFormed) {parent source n : NodeId}
    {kept before after : List NodeId} (hsource : t.children source = kept ++ [n])
    (hchildren : t.children parent = before ++ source :: after) :
    ∃ u, insertAfter source n t = .ok () u ∧ Relinked t u
      (fun m => if m = n then some parent else t.parent? m)
      (fun m => if m = parent then before ++ source :: n :: after
        else if m = source then kept else t.children m) := by
  have hn := h.mem_children_iff.1 (show n ∈ t.children source by simp [hsource])
  have hanchor := parent?_of_children_eq h hchildren
  have hbelow : n ∉ source :: t.ancestors source :=
    notMem_cons_ancestors h ((mem_ancestors_iff h).2 ⟨source, hn, Or.inl rfl⟩)
  rw [ancestors_eq_cons h hanchor, List.mem_cons, List.mem_cons, not_or, not_or] at hbelow
  have hne : source ≠ parent := by
    rintro rfl
    exact h.notMem_ancestors source ((mem_ancestors_iff h).2 ⟨source, hanchor, Or.inl rfl⟩)
  obtain ⟨u, hrun, hmoved⟩ := insertAfter_ok h hanchor (Ne.symm hbelow.1)
    { lt_size := lt_size_of_parent?_eq_some hn
      parent_lt_size := h.parent_lt_size hanchor
      ne_parent := hbelow.2.1
      notMem_ancestors := hbelow.2.2
      ne_root := by
        rintro rfl
        have hroot := h.parent?_root
        simp [hn] at hroot }
  exact ⟨u, hrun, hmoved.wellFormed, hmoved.size, hmoved.entry, hmoved.parent?,
    hmoved.children_eq_of_last h hsource hne hchildren⟩

/-- The last children of an element move into an element that has no links yet. -/
lemma appendChildren_fresh (h : t.WellFormed) {parent source fresh : NodeId}
    {kept row : List NodeId} (hsize : fresh < t.size) (hfresh : t.parent? fresh = none)
    (hchildren : t.children fresh = []) (hsource : t.children source = kept ++ row)
    (hparent : t.parent? source = some parent) :
    ∃ u, appendChildren fresh row t = .ok () u ∧ Relinked t u
        (fun m => if m ∈ row then some fresh else t.parent? m)
        (fun m => if m = fresh then row else if m = source then kept else t.children m) ∧
      fresh ∉ parent :: u.ancestors parent := by
  have hne : fresh ≠ source := by
    rintro rfl
    simp [hparent] at hfresh
  obtain ⟨u, hrun, hu⟩ := appendChildren_last h hsize hne (by simp [ancestors_eq_nil hfresh])
    hsource
  have hancestors : u.ancestors parent = t.ancestors parent := by
    refine ancestors_congr h hu.wellFormed fun m hm => ?_
    have hrow : m ∉ row := fun hm' => by
      have hp := h.mem_children_iff.1 (show m ∈ t.children source by simp [hsource, hm'])
      refine notMem_cons_ancestors h ((mem_ancestors_iff h).2 ⟨source, hp, Or.inr ?_⟩) hm
      exact (mem_ancestors_iff h).2 ⟨parent, hparent, Or.inl rfl⟩
    rw [hu.parent?, if_neg hrow]
  refine ⟨u, hrun, ⟨hu.wellFormed, hu.size, hu.entry, hu.parent?, fun m => ?_⟩, ?_⟩
  · rw [hu.children, hchildren, List.nil_append]
  · rw [hancestors, List.mem_cons, not_or]
    refine ⟨?_, notMem_ancestors_of_children_eq_nil h hchildren parent⟩
    rintro rfl
    simp [← h.mem_children_iff, hchildren] at hparent

section Divide

variable {s : Tree} {parent source : NodeId} {before after : List NodeId}

/-- A new element was added to a tree, and own data may have changed, but no links. -/
structure Extended (t s : Tree) : Prop where
  wellFormed : s.WellFormed
  size : s.size = t.size + 1
  parent? : ∀ m, s.parent? m = t.parent? m
  children : ∀ m, s.children m = t.children m

/-- The first number that was not in use is that of a new element, which has no parent and no
children. -/
lemma Extended.fresh (h : t.WellFormed) (hs : Extended t s) :
    t.size < s.size ∧ t.size ≠ root ∧ s.parent? t.size = none ∧ s.children t.size = [] := by
  refine ⟨by simp [hs.size], Nat.ne_of_gt h.size_pos, ?_, ?_⟩
  · rw [hs.parent?, parent?_of_size_le (Nat.le_refl _)]
  · rw [hs.children, children_of_size_le (Nat.le_refl _)]

variable (h : t.WellFormed) (hs : Extended t s)
  (hchildren : t.children parent = before ++ source :: after)

include h hs hchildren

/-- The last children of a child of `parent` go into the new element. -/
lemma moveToFresh {kept row : List NodeId} (hsource : t.children source = kept ++ row) :
    ∃ u, appendChildren t.size row s = .ok () u ∧ Relinked s u
        (fun m => if m ∈ row then some t.size else t.parent? m)
        (fun m => if m = t.size then row else if m = source then kept else t.children m) ∧
      t.size ∉ parent :: u.ancestors parent ∧ u.parent? t.size = none ∧
      u.children parent = before ++ source :: after := by
  have hp := parent?_of_children_eq h hchildren
  have hlt : parent < t.size := h.parent_lt_size hp
  obtain ⟨hsize, -, hfresh, hnil⟩ := hs.fresh h
  obtain ⟨u, hrun, hu, hbelow⟩ := appendChildren_fresh hs.wellFormed hsize hfresh hnil
    ((hs.children source).trans hsource) ((hs.parent? source).trans hp)
  have hrow : t.size ∉ row := fun hmem => by
    have := h.mem_children_iff.1 (show t.size ∈ t.children source by simp [hsource, hmem])
    simp [parent?_of_size_le] at this
  refine ⟨u, hrun, ⟨hu.wellFormed, hu.size, hu.entry, ?_, ?_⟩, hbelow, ?_, ?_⟩
  · exact fun m => by rw [hu.parent?, hs.parent?]
  · exact fun m => by rw [hu.children, hs.children]
  · rw [hu.parent?, if_neg hrow, hfresh]
  · rw [hu.children, if_neg (Nat.ne_of_lt hlt), if_neg (ne_of_parent?_eq_some h hp).symm,
      hs.children, hchildren]

/-- An element is divided: its last children go into a new element right after it. -/
lemma divide_links {kept row : List NodeId} (hsource : t.children source = kept ++ row) :
    ∃ u v, appendChildren t.size row s = .ok () u ∧ insertAfter source t.size u = .ok () v ∧
      Relinked s v
        (fun m => if m = t.size then some parent else if m ∈ row then some t.size else t.parent? m)
        (fun m => if m = parent then before ++ source :: t.size :: after
          else if m = t.size then row else if m = source then kept else t.children m) := by
  obtain ⟨hsize, hroot, -, -⟩ := hs.fresh h
  obtain ⟨u, hrun, hu, hbelow, hparent, hchildren⟩ := moveToFresh h hs hchildren hsource
  obtain ⟨v, hrun', hv⟩ := insertAfter_loose hu.wellFormed (by rwa [hu.size]) hroot hparent
    hchildren hbelow
  refine ⟨u, v, hrun, hrun', hv.wellFormed, hv.size.trans hu.size,
    fun m => (hv.entry m).trans (hu.entry m), fun m => ?_, fun m => ?_⟩
  · rw [hv.parent?, hu.parent?]
  · rw [hv.children, hu.children]

/-- An element is divided, and the last child that it keeps is put between it and the new element. -/
lemma divide_links_lift {n : NodeId} {kept row : List NodeId}
    (hsource : t.children source = (kept ++ [n]) ++ row) :
    ∃ u v w, appendChildren t.size row s = .ok () u ∧ insertAfter source n u = .ok () v ∧
      insertAfter n t.size v = .ok () w ∧ Relinked s w
        (fun m => if m = t.size then some parent else if m = n then some parent
          else if m ∈ row then some t.size else t.parent? m)
        (fun m => if m = parent then before ++ source :: n :: t.size :: after
          else if m = t.size then row else if m = source then kept else t.children m) := by
  obtain ⟨hsize, hroot, -, -⟩ := hs.fresh h
  obtain ⟨u, hrun, hu, hbelow, hparent, hchildren'⟩ := moveToFresh h hs hchildren hsource
  have hp := parent?_of_children_eq h hchildren
  have hne : parent ≠ source := (ne_of_parent?_eq_some h hp).symm
  have hlt : parent < t.size := h.parent_lt_size hp
  have hlt' : source < t.size := lt_size_of_parent?_eq_some hp
  have hsource' : u.children source = kept ++ [n] := by
    rw [hu.children, if_neg (Nat.ne_of_lt hlt'), if_pos rfl]
  obtain ⟨v, hrun', hv⟩ := insertAfter_last hu.wellFormed hsource' hchildren'
  have hn : t.parent? n = some source := h.mem_children_iff.1 (by simp [hsource])
  have hnlt : n < t.size := lt_size_of_parent?_eq_some hn
  -- The new element has neither a parent nor a place around `parent` yet.
  have hparent' : v.parent? t.size = none := by
    rw [hv.parent?, if_neg (Nat.ne_of_gt hnlt), hparent]
  have hbelow' : t.size ∉ parent :: v.ancestors parent := by
    rwa [ancestors_congr hu.wellFormed hv.wellFormed]
    intro m hm
    rw [hv.parent?, if_neg]
    rintro rfl
    refine notMem_cons_ancestors hu.wellFormed ?_ hm
    have hq := hu.wellFormed.mem_children_iff.1 (show m ∈ u.children source by simp [hsource'])
    rw [ancestors_eq_cons hu.wellFormed hq,
      ancestors_eq_cons hu.wellFormed (parent?_of_children_eq hu.wellFormed hchildren')]
    simp
  have hchildren'' : v.children parent = (before ++ [source]) ++ n :: after := by
    rw [hv.children, if_pos rfl]
    simp
  obtain ⟨w, hrun'', hw⟩ := insertAfter_loose hv.wellFormed
    (by rwa [hv.size, hu.size]) hroot hparent' hchildren'' hbelow'
  refine ⟨u, v, w, hrun, hrun', hrun'', hw.wellFormed, (hw.size.trans hv.size).trans hu.size,
    fun m => ((hw.entry m).trans (hv.entry m)).trans (hu.entry m), fun m => ?_, fun m => ?_⟩
  · rw [hw.parent?, hv.parent?, hu.parent?]
  · rw [hw.children, hv.children, hu.children, List.append_assoc, List.singleton_append]
    by_cases hm : m = parent
    · rw [if_pos hm, if_pos hm]
    · rw [if_neg hm, if_neg hm, if_neg hm]
      by_cases hm' : m = source
      · rw [if_pos hm', if_neg (by rw [hm']; exact Nat.ne_of_lt hlt'), if_pos hm']
      · rw [if_neg hm', if_neg hm', if_neg hm']

end Divide

end DoxygenRest.Tree

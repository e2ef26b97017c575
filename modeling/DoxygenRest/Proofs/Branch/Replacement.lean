import DoxygenRest.Proofs.Branch.Surgery
import DoxygenRest.Proofs.Tree.Regrouping

/-!
# Replacing a branch of a tree

`Tree.Replaced` says that an edit replaced one branch of a tree by another and did nothing else.  What
replaces a branch inside of another replaces that other one too (`Replaced.plug`), and replacements
follow one another (`Replaced.trans`), so the effect of a compound edit is put together from the
effects of its steps: changes of own data, taking an element out of its parent, and moving the
children of an element into its neighbor.
-/

namespace DoxygenRest

open Branch

variable {t u : Tree}

namespace Tree

/-- `u` is `t` with the branch at `n` replaced by `b`, which may hold new elements; all other
elements of `t` are untouched. -/
structure Replaced (t u : Tree) (n : NodeId) (b : Branch) : Prop where
  wellFormed : u.WellFormed
  branch : u.branch n = b
  size_le : t.size ≤ u.size
  parent : u.parent? n = t.parent? n
  outside : ∀ m < t.size, m ∉ (t.branch n).numbers → u.element m = t.element m
  numbers : ∀ m ∈ b.numbers, m ∈ (t.branch n).numbers ∨ t.size ≤ m

namespace Replaced

variable {n r : NodeId} {b : Branch}

/-- What takes the place of a branch has its number. -/
lemma number (hu : Replaced t u n b) : b.number = n := by
  rw [← hu.branch, number_branch]

/-- A branch takes its own place. -/
lemma refl (h : t.WellFormed) (n : NodeId) : Replaced t t n (t.branch n) :=
  ⟨h, rfl, Nat.le_refl _, rfl, fun _ _ _ => rfl, fun _ hm => Or.inl hm⟩

/-- What takes the place of a branch may be replaced in its turn. -/
lemma trans {v : Tree} {c : Branch} (hu : Replaced t u n b) (hv : Replaced u v n c) :
    Replaced t v n c where
  wellFormed := hv.wellFormed
  branch := hv.branch
  size_le := Nat.le_trans hu.size_le hv.size_le
  parent := hv.parent.trans hu.parent
  outside m hm hn := by
    rw [hv.outside m (Nat.lt_of_lt_of_le hm hu.size_le), hu.outside m hm hn]
    rw [hu.branch]
    intro hb
    rcases hu.numbers m hb with hb | hb
    · exact hn hb
    · exact Nat.not_le_of_lt hm hb
  numbers m hm := by
    rcases hv.numbers m hm with hb | hb
    · rw [hu.branch] at hb
      exact hu.numbers m hb
    · exact Or.inr (Nat.le_trans hu.size_le hb)

/-- What replaces a branch inside of another, replaces that other one. -/
theorem plug (h : t.WellFormed) (hu : Replaced t u n b) {fs : List Frame}
    (hr : t.branch r = DoxygenRest.plug fs (t.branch n)) : Replaced t u r (DoxygenRest.plug fs b) := by
  have hnumber : (t.branch n).number = b.number := by rw [number_branch, hu.number]
  have hnumber' : (DoxygenRest.plug fs b).number = r := by
    rw [← number_plug_congr fs hnumber, ← hr, number_branch]
  have hnodup := nodup_numbers_branch h r
  obtain ⟨-, hframes⟩ := holds_plug.1 (hr ▸ holds_branch h r)
  rw [hr, (numbers_plug_perm _ _).nodup_iff, List.nodup_append] at hnodup
  -- The frames around the place have no element of what was replaced.
  have hsame : ∀ f ∈ fs, ∀ m ∈ f.numbers, u.element m = t.element m := fun f hf m hm =>
    hu.outside m (hframes.lt_size h f hf m hm) fun hn =>
      hnodup.2.2 m hn m (List.mem_flatMap.2 ⟨f, hf, hm⟩) rfl
  refine ⟨hu.wellFormed, ?_, hu.size_le, ?_, fun m hm hr' => hu.outside m hm fun hn => hr' ?_, ?_⟩
  · have hb : b.Holds u := hu.branch ▸ holds_branch hu.wellFormed n
    have hholds : (DoxygenRest.plug fs b).Holds u := by
      refine holds_plug.2 ⟨hb, hnumber ▸ hframes.congr fun f hf m hm => ?_⟩
      simp only [entry_congr (hsame f hf m hm), children_congr (hsame f hf m hm), and_self]
    rw [← hnumber', hholds.branch_eq hu.wellFormed]
  · cases fs with
    | nil =>
      obtain rfl : n = r := by rw [← hnumber', plug_nil, hu.number]
      exact hu.parent
    | cons f fs =>
      obtain ⟨g, hg, hr⟩ := exists_number_eq_of_plug_cons f fs b
      rw [← hnumber', hr]
      exact parent?_congr (hsame g hg _ (List.mem_cons_self ..))
  · exact hr ▸ mem_numbers_plug.2 (Or.inl hn)
  · intro m hm
    rw [hr, mem_numbers_plug]
    rcases mem_numbers_plug.1 hm with hm | hm
    · exact (hu.numbers m hm).imp_left Or.inl
    · exact Or.inl (Or.inr hm)

/-- The elements around a branch that is replaced are untouched. -/
lemma element_of_mem_ancestors (h : t.WellFormed) (hu : Replaced t u n b) {m : NodeId}
    (hm : m ∈ t.ancestors n) : u.element m = t.element m := by
  refine hu.outside m (lt_size_of_mem_ancestors h hm) fun hn => ?_
  rcases (mem_numbers_branch h).1 hn with rfl | hn
  · exact h.notMem_ancestors m hm
  · exact h.notMem_ancestors n (ancestors_subset h hm hn)

/-- The same elements lie around a branch that is replaced. -/
lemma ancestors (h : t.WellFormed) (hu : Replaced t u n b) : u.ancestors n = t.ancestors n := by
  refine ancestors_congr h hu.wellFormed fun m hm => ?_
  rcases List.mem_cons.1 hm with rfl | hm
  · exact hu.parent
  · exact parent?_congr (hu.element_of_mem_ancestors h hm)

/-- What replaces the branch at an element leaves the branches at its siblings alone. -/
lemma branch_of_sibling (h : t.WellFormed) (hu : Replaced t u n b) {parent m : NodeId}
    (hn : n ∈ t.children parent) (hm : m ∈ t.children parent) (hne : m ≠ n) :
    u.branch m = t.branch m := by
  have hdisjoint := disjoint_numbers_branch h hm hn hne
  have hlt : m < t.size := lt_size_of_parent?_eq_some (h.mem_children_iff.1 hm)
  have hholds : (t.branch m).Holds u := by
    refine (holds_branch h m).congr fun k hk => ?_
    have hk' : k < t.size := (holds_branch h m).lt_size h (by rwa [number_branch]) k hk
    have helement := hu.outside k hk' (hdisjoint hk)
    exact ⟨entry_congr helement, children_congr helement⟩
  have hbranch := hholds.branch_eq hu.wellFormed
  rwa [number_branch] at hbranch

end Replaced

/-- How to show that a branch was replaced: by the elements that a tree has after an edit. -/
theorem replaced_of_fields {n : NodeId} {b : Branch} (hu : u.WellFormed) (hsize : t.size ≤ u.size)
    (hnumber : b.number = n) (hholds : b.Holds u) (hparent : u.parent? n = t.parent? n)
    (hnumbers : ∀ m ∈ b.numbers, m ∈ (t.branch n).numbers ∨ t.size ≤ m)
    (houtside : ∀ m < t.size, m ∉ (t.branch n).numbers →
      u.entry m = t.entry m ∧ u.parent? m = t.parent? m ∧ u.children m = t.children m) :
    Replaced t u n b where
  wellFormed := hu
  branch := hnumber ▸ hholds.branch_eq hu
  size_le := hsize
  parent := hparent
  outside m hm hn := by
    obtain ⟨hentry, hparent, hchildren⟩ := houtside m hm hn
    exact element_ext hentry hparent hchildren
  numbers := hnumbers

/-! ### Changing own data -/

/-- A change of an element's own data. -/
theorem replaced_revise (h : t.WellFormed) {n : NodeId} (hn : n < t.size) (f : Entry → Entry) :
    Replaced t (t.revise n f) n ((t.branch n).revise f) := by
  have hholds := holds_branch h n
  have hnumber : (t.branch n).number = n := number_branch t n
  have hholds' : (plug [] (t.branch n)).Holds t := hholds
  have hbeside := holds_beside h (u := t.revise n f) (by rwa [hnumber]) hholds' fun m _ hm _ => by
      rw [hnumber] at hm
      exact ⟨entry_revise_of_ne f hm, children_revise ..⟩
  refine replaced_of_fields (h.revise n f) (Nat.le_of_eq (size_revise ..).symm) hnumber ?_
    (parent?_revise ..) (fun m hm => Or.inl (by simpa using hm)) fun m _ hm => ?_
  · refine holds_node.2 ⟨?_, ?_, hbeside.1⟩
    · rw [hnumber, entry_revise_self f hn, ← hholds.entry_eq, hnumber]
    · rw [children_revise, hholds.children_eq]
  · refine ⟨entry_revise_of_ne f fun hmn => hm ?_, parent?_revise .., children_revise ..⟩
    have hmem := number_mem_numbers (t.branch n)
    rw [hnumber] at hmem
    rwa [hmn]

namespace Replaced

variable {v : Tree} {r : NodeId} {b x y : Branch} {f : Frame} {fs : List Frame}

/-- The tree after the replacement has the branch in it. -/
lemma holds (hu : Replaced t u r (DoxygenRest.plug fs x)) : (DoxygenRest.plug fs x).Holds u :=
  hu.branch ▸ holds_branch hu.wellFormed r

/-- The branch at a place is read off the tree. -/
lemma branch_place (hu : Replaced t u r (DoxygenRest.plug fs x)) : u.branch x.number = x :=
  (holds_plug.1 hu.holds).1.branch_eq hu.wellFormed

/-- The frame around a place has the parent of what stands there. -/
lemma parent?_place (hu : Replaced t u r (DoxygenRest.plug (f :: fs) x)) :
    u.parent? x.number = some f.number :=
  f.parent?_eq hu.wellFormed (holds_plug.1 hu.holds).2.1

/-- What stands at a place, and the element around it, are elements of the tree. -/
lemma lt_size_place (hu : Replaced t u r (DoxygenRest.plug (f :: fs) x)) :
    x.number < u.size ∧ f.number < u.size :=
  ⟨lt_size_of_parent?_eq_some hu.parent?_place, hu.wellFormed.parent_lt_size hu.parent?_place⟩

/-- Trees that come from one tree, with the same in the place of a branch, differ in new elements and in
those that are not in that place any more. -/
lemma agree (hu : Replaced t u r b) (hv : Replaced t v r b) {m : NodeId} (hm : m < t.size)
    (hkept : m ∈ (t.branch r).numbers → m ∈ b.numbers) : u.element m = v.element m := by
  by_cases hin : m ∈ (t.branch r).numbers
  · obtain ⟨fs, x, rfl, rfl⟩ := exists_plug_of_mem (hkept hin)
    have hx := (holds_plug.1 hu.holds).1
    have hx' := (holds_plug.1 hv.holds).1
    refine element_ext (hx.entry_eq.trans hx'.entry_eq.symm) ?_
      (hx.children_eq.trans hx'.children_eq.symm)
    cases fs with
    | nil =>
      obtain rfl : x.number = r := hu.number
      exact hu.parent.trans hv.parent.symm
    | cons f fs => exact hu.parent?_place.trans hv.parent?_place.symm
  · exact (hu.outside m hm hin).trans (hv.outside m hm hin).symm

/-- One more replacement, at a place of what stands there after the first. -/
lemma step (hu : Replaced t u r (DoxygenRest.plug fs x)) (hv : Replaced u v x.number y) :
    Replaced t v r (DoxygenRest.plug fs y) :=
  hu.trans (hv.plug hu.wellFormed (by rw [hu.branch_place, hu.branch]))

/-- Other own data at a place are other own data in the whole. -/
lemma revise (hu : Replaced t u r (DoxygenRest.plug fs x)) (hx : x.number < u.size)
    (g : Entry → Entry) : Replaced t (u.revise x.number g) r (DoxygenRest.plug fs (x.revise g)) := by
  have hv := replaced_revise hu.wellFormed hx g
  rw [hu.branch_place] at hv
  exact hu.step hv

/-- Where an element has no children, text at the end of its content is its own text. -/
lemma extendText (hu : Replaced t u r (DoxygenRest.plug fs x)) (hx : x.number < u.size)
    (hnil : x.children = []) (more : String) :
    Replaced t (u.extendText x.number more) r (DoxygenRest.plug fs (x.appendContent more)) := by
  have hv := hu.revise hx fun e => { e with text := Tree.appendTo e.text more }
  rwa [Branch.revise, hnil, ← appendContent_of_nil hnil] at hv

/-- Behind the last child of an element, text at the end of its content is the tail of that child. -/
lemma extendTail (hu : Replaced t u r (DoxygenRest.plug fs x)) {bs : List Branch} {last : Branch}
    (hlast : x.children = bs ++ [last]) (more : String) :
    Replaced t (u.extendTail last.number more) r (DoxygenRest.plug fs (x.appendContent more)) := by
  have hplug : DoxygenRest.plug fs x =
      DoxygenRest.plug (⟨x.number, x.own, bs.reverse, []⟩ :: fs) last := by
    rw [plug_cons, Frame.fill_eq_of_children hlast]
  rw [hplug] at hu
  have hv := hu.revise hu.lt_size_place.1 fun e => { e with tail := Tree.appendTo e.tail more }
  rwa [plug_cons, Frame.fill, List.reverse_reverse, ← Branch.extendTail,
    ← appendContent_of_append hlast] at hv

end Replaced

/-! ### Taking an element out of its parent -/

/-- An element is taken out of its parent. -/
theorem replaced_unlink (h : t.WellFormed) {f : Frame} {x : Branch} (hholds : (f.fill x).Holds t) :
    Replaced t (t.unlink x.number) f.number (f.fillRow []) := by
  obtain ⟨hx, hf⟩ := holds_fill.1 hholds
  have hparent := f.parent?_eq h hf
  -- Of all lists of children, only that of the parent loses the element.
  have hother {m : NodeId} (hm : m ≠ f.number) :
      (t.unlink x.number).children m = t.children m := by
    have := filter_notMem_children h (m := m) [x.number]
      (by simpa [hparent] using Ne.symm hm)
    rw [children_unlink h]
    simpa using this
  have hholds' : (plug [f] x).Holds t := hholds
  -- So what stood beside the element is still there.
  have hbeside := holds_beside h (u := t.unlink x.number)
    (lt_size_of_parent?_eq_some hparent) hholds' fun m _ _ hm =>
      ⟨entry_unlink .., hother (hm f (by simp))⟩
  obtain ⟨hbefore, hafter⟩ := hbeside.2 f (by simp)
  have hne := ne_of_parent?_eq_some h hparent
  have hin : (t.branch f.number) = f.fill x := hholds.branch_eq h
  refine replaced_of_fields (h.unlink _) (Nat.le_of_eq (size_unlink ..).symm) rfl ?_ ?_ ?_ ?_
  · rw [Frame.fillRow, holds_node, List.nil_append, holdsAll_append, holdsAll_reverse]
    refine ⟨(entry_unlink ..).trans hf.1, ?_, hbefore, hafter⟩
    have hnotMem := notMem_of_children_eq h hf.2.1
    rw [children_unlink h, hf.2.1, List.filter_append, List.filter_cons_of_neg (by simp),
      List.filter_eq_self.2, List.filter_eq_self.2, List.map_append]
    · intro m hm
      simpa using fun hmx : m = x.number => hnotMem.2 (hmx ▸ hm)
    · intro m hm
      simpa using fun hmx : m = x.number => hnotMem.1 (hmx ▸ hm)
  · rw [parent?_unlink, if_neg hne.symm]
  · intro m hm
    rw [hin, (f.numbers_fill_perm x).mem_iff]
    simp only [Frame.fillRow, List.nil_append, numbers_node, numbersAll_append, List.mem_cons,
      List.mem_append, mem_numbersAll_reverse] at hm
    simp [Frame.numbers, hm]
  · intro m _ hm
    rw [hin, (f.numbers_fill_perm x).mem_iff, List.mem_append, not_or] at hm
    refine ⟨entry_unlink .., ?_, hother fun hmf => hm.2 (hmf ▸ List.mem_cons_self ..)⟩
    rw [parent?_unlink, if_neg fun hmx : m = x.number => hm.1 (hmx ▸ number_mem_numbers x)]

/-- An element with a parent may be detached. -/
lemma detach_ok (h : t.WellFormed) {n parent : NodeId} (hp : t.parent? n = some parent) :
    detach n t = .ok () (t.unlink n) := by
  have hroot : n ≠ root := by
    rintro rfl
    rw [h.parent?_root] at hp
    cases hp
  simp [detach, hroot]

/-- All children of an element are detached. -/
theorem detachAll_ok (h : t.WellFormed) {x : Branch} (hx : x.Holds t) :
    ∃ u, (x.children.map number).forM detach t = .ok () u ∧
      Replaced t u x.number (node x.number x.own []) := by
  obtain ⟨n, e, cs⟩ := x
  rw [number_node, own_node, children_node]
  induction cs generalizing t with
  | nil =>
    have hrefl := Replaced.refl h n
    have hbranch : t.branch n = node n e [] := hx.branch_eq h
    rw [hbranch] at hrefl
    exact ⟨t, rfl, hrefl⟩
  | cons y ys ih =>
    have hfill : (Frame.fill ⟨n, e, [], ys⟩ y).Holds t := hx
    have hfirst := replaced_unlink h hfill
    have hp := (⟨n, e, [], ys⟩ : Frame).parent?_eq h (holds_fill.1 hfill).2
    have hrest : (node n e ys).Holds (t.unlink y.number) := by
      have hholds := holds_branch hfirst.wellFormed n
      rwa [hfirst.branch] at hholds
    obtain ⟨u, hrun, hu⟩ := ih hfirst.wellFormed hrest
    exact ⟨u, (Program.bind_ok (detach_ok h hp) _).trans hrun, hfirst.trans hu⟩

/-! ### Moving children into a neighbor -/

/-- Two entries of a list without repetitions differ from one another and from all others. -/
lemma ne_of_nodup {f p x : NodeId} {as bs cs ds : List NodeId}
    (h : (f :: (as ++ p :: bs ++ (x :: cs ++ ds))).Nodup) :
    p ≠ x ∧ f ∉ cs ∧ ∀ m, m = f ∨ m ∈ as ∨ m ∈ bs ∨ m ∈ cs ∨ m ∈ ds → m ≠ p ∧ m ≠ x := by
  have hperm : (f :: (as ++ p :: bs ++ (x :: cs ++ ds))).Perm
      (p :: x :: f :: (as ++ bs ++ cs ++ ds)) := by
    grind
  have hnodup := hperm.nodup_iff.1 h
  simp only [List.nodup_cons, List.mem_cons, List.mem_append, not_or] at hnodup
  obtain ⟨⟨hpx, hp⟩, hx, hf, -⟩ := hnodup
  refine ⟨hpx, hf.1.2, fun m hm => ⟨?_, ?_⟩⟩
  · rintro rfl
    tauto
  · rintro rfl
    tauto

/-- The children of an element are moved behind those of its previous sibling. -/
theorem replaced_appendChildren (h : t.WellFormed) {f : Frame} {x prev : Branch}
    {rest : List Branch} (hbefore : f.before = prev :: rest) (hholds : (f.fill x).Holds t) :
    ∃ u, appendChildren prev.number (x.children.map number) t = .ok () u ∧
      Replaced t u f.number
        ({ f with before := node prev.number prev.own (prev.children ++ x.children) :: rest }.fill
          (node x.number x.own [])) := by
  obtain ⟨hx, hf⟩ := holds_fill.1 hholds
  obtain ⟨hown, hchildren, hbs, has⟩ := hf
  rw [hbefore, holdsAll_cons] at hbs
  have hxp := f.parent?_eq h (holds_fill.1 hholds).2
  have hprev : t.parent? prev.number = some f.number := by
    rw [← h.mem_children_iff, hchildren, hbefore]
    simp
  have hin : t.branch f.number = f.fill x := hholds.branch_eq h
  have hnodup := nodup_numbers_branch h f.number
  rw [hin, Frame.fill, hbefore] at hnodup
  obtain ⟨xn, xe, xcs⟩ := x
  obtain ⟨pn, pe, pcs⟩ := prev
  simp only [List.reverse_cons, numbers_node, numbersAll_append, numbersAll_cons, numbersAll_nil,
    List.append_nil, number_node, own_node, children_node] at hnodup hprev hxp ⊢
  obtain ⟨hne, hfirst, hother⟩ := ne_of_nodup hnodup
  have hbelow : xn ∉ t.ancestors pn := by
    rw [ancestors_eq_cons h hprev]
    exact notMem_cons_ancestors h ((mem_ancestors_iff h).2 ⟨_, hxp, Or.inl rfl⟩)
  have hchildren' : t.children xn = [] ++ xcs.map number := hx.children_eq
  obtain ⟨u, hrun, hu⟩ :=
    appendChildren_last h (lt_size_of_parent?_eq_some hprev) hne hbelow hchildren'
  refine ⟨u, hrun, ?_⟩
  -- Nothing but the two elements has other children than before.
  have hsame {m : NodeId} (hm : m ≠ pn ∧ m ≠ xn) :
      u.entry m = t.entry m ∧ u.children m = t.children m :=
    ⟨hu.entry m, by rw [hu.children, if_neg hm.1]; exact if_neg hm.2⟩
  rw [holds_node] at hx hbs
  refine replaced_of_fields hu.wellFormed (Nat.le_of_eq hu.size.symm) rfl ?_ ?_ ?_ ?_
  · simp only [Frame.fill, List.reverse_cons, holds_node, holdsAll_append, holdsAll_cons,
      holdsAll_reverse, holdsAll_nil, hu.entry, List.map_append, List.map_cons, List.map_nil]
    refine ⟨hown, ?_, ⟨hbs.2.congr fun m hm => ?_, ⟨hbs.1.1, ?_, ?_, ?_⟩, trivial⟩,
      ⟨hx.1, ?_, trivial⟩, has.congr fun m hm => ?_⟩
    · rw [(hsame (hother f.number (Or.inl rfl))).2, hchildren, hbefore]
      simp
    · exact hsame (hother m (Or.inr (Or.inl (mem_numbersAll_reverse.2 hm))))
    · rw [hu.children, if_pos rfl, hbs.1.2.1]
    · exact hbs.1.2.2.congr fun m hm => hsame (hother m (Or.inr (Or.inr (Or.inl hm))))
    · exact hx.2.2.congr fun m hm => hsame (hother m (Or.inr (Or.inr (Or.inr (Or.inl hm)))))
    · rw [hu.children, if_neg hne.symm, if_pos rfl]
    · exact hsame (hother m (Or.inr (Or.inr (Or.inr (Or.inr hm)))))
  · rw [hu.parent?, if_neg]
    intro hm
    obtain ⟨b, hb, hbn⟩ := List.mem_map.1 hm
    exact hfirst (hbn ▸ number_mem_numbersAll hb)
  · intro m hm
    rw [hin, Frame.fill, hbefore]
    simp [Frame.fill] at hm ⊢
    tauto
  · intro m _ hm
    rw [hin, Frame.fill, hbefore] at hm
    simp at hm
    have hout : m ∉ xcs.map number := by
      intro hm'
      obtain ⟨b, hb, rfl⟩ := List.mem_map.1 hm'
      have := number_mem_numbersAll hb
      tauto
    refine ⟨hu.entry m, by rw [hu.parent?, if_neg hout], (hsame ?_).2⟩
    tauto

end Tree

end DoxygenRest

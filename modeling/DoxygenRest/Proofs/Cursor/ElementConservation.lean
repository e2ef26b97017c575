import DoxygenRest.Proofs.Branch.Roll
import DoxygenRest.Proofs.Cursor.Effect

/-!
# Edits conserve elements

Merges, divisions and lifts keep the elements below the cursor's root, each of them once and in their
order, but for an element that is joined into another.  Divisions and lifts add at most one element,
a copy of the one they divide (`ElementsConserved`).

Each of these edits exchanges a piece of the roll of the cursor's subtree for another and leaves the
roll before and behind as it was, so the rest is a matter of lists (`Exchange.conserved`).
-/

namespace DoxygenRest.Cursor

open Branch

/-- The elements below `root` survive an edit, but for one that may be lost: each of them is there
exactly once, in the old order, with its own label and the chain of labels that is told of it.  At
most one element is new, and it is a copy. -/
structure ElementsConserved (t u : Tree) (root : NodeId) (lost? copied? : Option NodeId)
    (chains : NodeId → List Label) : Prop where
  once : ∀ m ∈ t.descendants root, lost? ≠ some m → (u.descendants root).count m = 1
  order : (u.descendants root).filter (· ∈ t.descendants root) =
    (t.descendants root).filter (lost? ≠ some ·)
  added : ∀ m ∈ u.descendants root, m ∉ t.descendants root →
    m = t.size ∧ ∃ copied ∈ copied?, u.label m = t.label copied
  label : ∀ m ∈ t.descendants root, lost? ≠ some m → u.label m = t.label m
  chain : ∀ m ∈ t.descendants root, lost? ≠ some m → u.chain m = chains m

/-! ### Exchanging a piece of a roll -/

section Exchange

variable {t u : Tree} {root : NodeId} {pre old new added post : List (NodeId × List Label)}
  {lost? copied? : Option NodeId} {chains : NodeId → List Label}

/-- An edit exchanges the piece `old` of the roll of a subtree for `new`, with `added` behind it. -/
structure Exchange (t u : Tree) (root : NodeId)
    (pre old new added post : List (NodeId × List Label)) : Prop where
  before : t.WellFormed
  after : u.WellFormed
  roll_before : (t.branch root).roll (t.chain root) = pre ++ (old ++ post)
  roll_after : (u.branch root).roll (u.chain root) = pre ++ (new ++ (added ++ post))

namespace Exchange

variable (hx : Exchange t u root pre old new added post)

include hx

/-- The elements before the exchange, in document order. -/
lemma descendants_before :
    root :: t.descendants root =
      pre.map Prod.fst ++ (old.map Prod.fst ++ post.map Prod.fst) := by
  rw [← Tree.numbers_branch hx.before, ← map_fst_roll (t.chain root), hx.roll_before,
    List.map_append, List.map_append]

/-- The elements after the exchange, in document order. -/
lemma descendants_after :
    root :: u.descendants root =
      pre.map Prod.fst ++ (new.map Prod.fst ++ (added.map Prod.fst ++ post.map Prod.fst)) := by
  rw [← Tree.numbers_branch hx.after, ← map_fst_roll (u.chain root), hx.roll_after,
    List.map_append, List.map_append, List.map_append]

/-- Before the exchange, the list tells the path of each element. -/
lemma path_before {i : NodeId × List Label} (hi : i ∈ pre ++ (old ++ post)) :
    i.2 = t.path i.1 :=
  Tree.eq_path_of_mem_roll hx.before (hx.roll_before ▸ hi)

/-- After the exchange, the list tells the path of each element. -/
lemma path_after {i : NodeId × List Label} (hi : i ∈ pre ++ (new ++ (added ++ post))) :
    i.2 = u.path i.1 :=
  Tree.eq_path_of_mem_roll hx.after (hx.roll_after ▸ hi)

/-- What is exchanged was listed with its path. -/
lemma path_old {i : NodeId × List Label} (hi : i ∈ old) : i.2 = t.path i.1 :=
  hx.path_before (List.mem_append_right _ (List.mem_append_left _ hi))

/-- What stays is not part of the piece that is exchanged. -/
lemma notMem_old {m : NodeId} (hm : m ∈ pre.map Prod.fst ∨ m ∈ post.map Prod.fst) :
    m ∉ old.map Prod.fst := by
  have hnodup := Tree.nodup_cons_descendants hx.before root
  rw [hx.descendants_before, List.nodup_append, List.nodup_append] at hnodup
  obtain ⟨-, ⟨-, -, hpost⟩, hpre⟩ := hnodup
  intro hold
  rcases hm with hm | hm
  · exact hpre m hm m (List.mem_append_left _ hold) rfl
  · exact hpost m hold m hm rfl

/-- The survivors are listed in the old order. -/
lemma order (hlost : ∀ n, lost? = some n → n ∈ old.map Prod.fst)
    (hnew : new.map Prod.fst = (old.map Prod.fst).filter (lost? ≠ some ·))
    (hadded : ∀ i ∈ added, i.1 = t.size) :
    (u.descendants root).filter (· ∈ t.descendants root) =
      (t.descendants root).filter (lost? ≠ some ·) := by
  let below (m : NodeId) : Bool := m ∈ t.descendants root
  let kept (m : NodeId) : Bool := lost? ≠ some m
  have hroot : ¬below root = true := by
    simpa [below] using (List.nodup_cons.1 (Tree.nodup_cons_descendants hx.before root)).1
  -- What is not exchanged is not lost either, and what is added was not there before.
  have hstays {ms : List NodeId} (hms : ∀ m ∈ ms, m ∉ old.map Prod.fst) : ms.filter kept = ms := by
    refine List.filter_eq_self.2 fun m hm => ?_
    simpa [kept] using fun hn : lost? = some m => hms m hm (hlost m hn)
  have hfresh : (added.map Prod.fst).filter below = [] := by
    refine List.filter_eq_nil_iff.2 fun m hm => ?_
    obtain ⟨i, hi, rfl⟩ := List.mem_map.1 hm
    rw [hadded i hi]
    simpa [below] using fun hin => Nat.lt_irrefl _ (Tree.lt_size_of_below hx.before
      ((Tree.mem_descendants_iff hx.before).1 hin))
  have hsurvivors : (root :: t.descendants root).filter kept =
      pre.map Prod.fst ++ (new.map Prod.fst ++ post.map Prod.fst) := by
    rw [hx.descendants_before, List.filter_append, List.filter_append,
      hstays fun m hm => hx.notMem_old (Or.inl hm),
      hstays fun m hm => hx.notMem_old (Or.inr hm), hnew]
  calc (u.descendants root).filter below
      = (root :: u.descendants root).filter below := (List.filter_cons_of_neg hroot).symm
    _ = (pre.map Prod.fst ++ (new.map Prod.fst ++ post.map Prod.fst)).filter below := by
      rw [hx.descendants_after]
      simp only [List.filter_append, hfresh, List.nil_append]
    _ = ((root :: t.descendants root).filter kept).filter below := by
      rw [hsurvivors]
    _ = ((root :: t.descendants root).filter below).filter kept := by
      rw [List.filter_filter, List.filter_filter]
      simp only [Bool.and_comm]
    _ = (t.descendants root).filter kept := by
      rw [List.filter_cons_of_neg hroot, List.filter_eq_self.2 fun m hm => decide_eq_true hm]

/-- The paths of the survivors: those in the exchanged piece are told by what is new there. -/
lemma path_eq (hnew : new.map Prod.fst = (old.map Prod.fst).filter (lost? ≠ some ·))
    (hmoved : ∀ i ∈ new, i.2 = t.label i.1 :: chains i.1)
    (hstay : ∀ m, m ∉ old.map Prod.fst → chains m = t.chain m) {m : NodeId}
    (hm : m ∈ t.descendants root) (hkept : lost? ≠ some m) :
    u.path m = t.label m :: chains m := by
  have hstays {i : NodeId × List Label} (hi : i ∈ pre ∨ i ∈ post) :
      u.path i.1 = t.label i.1 :: chains i.1 := by
    have hout := hx.notMem_old (hi.imp (List.mem_map_of_mem) (List.mem_map_of_mem))
    rw [hstay i.1 hout, ← hx.path_after (by simp; tauto), hx.path_before (by simp; tauto), Tree.path]
  have hlisted := List.mem_cons_of_mem root hm
  rw [hx.descendants_before, List.mem_append, List.mem_append] at hlisted
  rcases hlisted with hpre | hold | hpost
  · obtain ⟨i, hi, rfl⟩ := List.mem_map.1 hpre
    exact hstays (Or.inl hi)
  · have hin : m ∈ new.map Prod.fst := by
      rw [hnew]
      exact List.mem_filter.2 ⟨hold, by simpa using hkept⟩
    obtain ⟨i, hi, rfl⟩ := List.mem_map.1 hin
    rw [← hmoved i hi, hx.path_after (by simp [hi])]
  · obtain ⟨i, hi, rfl⟩ := List.mem_map.1 hpost
    exact hstays (Or.inr hi)

/-- Elements are conserved if the exchanged piece keeps all of its elements but the lost one, with
the chains that are told of them. -/
theorem conserved (hlost : ∀ n, lost? = some n → n ∈ old.map Prod.fst)
    (hnew : new.map Prod.fst = (old.map Prod.fst).filter (lost? ≠ some ·))
    (hadded : ∀ i ∈ added, i.1 = t.size ∧ ∃ copied ∈ copied?, i.2 = t.path copied)
    (hmoved : ∀ i ∈ new, i.2 = t.label i.1 :: chains i.1)
    (hstay : ∀ m, m ∉ old.map Prod.fst → chains m = t.chain m) :
    ElementsConserved t u root lost? copied? chains := by
  have horder := hx.order hlost hnew fun i hi => (hadded i hi).1
  have hnodup := Tree.nodup_cons_descendants hx.after root
  refine ⟨?_, horder, ?_, ?_, ?_⟩
  · intro m hm hkept
    have hsurvivor : m ∈ (t.descendants root).filter (lost? ≠ some ·) :=
      List.mem_filter.2 ⟨hm, by simpa using hkept⟩
    rw [← horder] at hsurvivor
    exact List.count_eq_one_of_mem hnodup.of_cons (List.mem_filter.1 hsurvivor).1
  · intro m hm hout
    have hne : m ≠ root := fun hmr => (List.nodup_cons.1 hnodup).1 (hmr ▸ hm)
    have hin : ¬m ∈ root :: t.descendants root := by simp [hne, hout]
    have hlisted := List.mem_cons_of_mem root hm
    rw [hx.descendants_before, List.mem_append, List.mem_append] at hin
    rw [hx.descendants_after, List.mem_append, List.mem_append, List.mem_append, hnew,
      List.mem_filter] at hlisted
    -- An element that was not listed before is one that is added.
    obtain ⟨i, hi, rfl⟩ := List.mem_map.1 (show m ∈ added.map Prod.fst by tauto)
    obtain ⟨hsize, copied, hcopied, hpath⟩ := hadded i hi
    rw [hx.path_after (by simp [hi])] at hpath
    exact ⟨hsize, copied, hcopied, (List.cons.inj hpath).1⟩
  · intro m hm hkept
    exact (List.cons.inj (hx.path_eq hnew hmoved hstay hm hkept)).1
  · intro m hm hkept
    exact (List.cons.inj (hx.path_eq hnew hmoved hstay hm hkept)).2

end Exchange

end Exchange

/-! ### Exchanging a row of the cursor's subtree -/

variable {c : Cursor} {x prev : Branch} {f p g : Frame} {fs : List Frame}
  {row row' rest : List Branch} {u : Tree}

/-- The root of the cursor's subtree keeps what lies around it. -/
lemma chain_root (h : c.tree.WellFormed) {b : Branch} (hu : Tree.Replaced c.tree u c.root b) :
    u.chain c.root = c.tree.chain c.root := by
  rw [Tree.chain, hu.ancestors h, Tree.chain]
  refine List.map_congr_left fun a ha => ?_
  rw [← Tree.label_entry, Tree.entry_congr (hu.element_of_mem_ancestors h ha), Tree.label_entry]

/-- To exchange a row of branches is to exchange a piece of the roll.  The elements `x` of the row
tell what lies around it. -/
lemma exists_rolls (h : c.tree.WellFormed) (hplace : c.branch = plug fs (f.fillRow row))
    (hu : Tree.Replaced c.tree u c.root (plug fs (f.fillRow row'))) :
    ∃ outer pre post,
      (c.tree.branch c.root).roll (c.tree.chain c.root) = pre ++ (rollAll outer row ++ post) ∧
        (u.branch c.root).roll (u.chain c.root) = pre ++ (rollAll outer row' ++ post) ∧
        ∀ x ∈ row, x.own.label :: outer = c.tree.path x.number := by
  obtain ⟨pre, post, hrolls⟩ := exists_roll_plug_fillRow (c.tree.chain c.root) f fs
  have hbefore : (c.tree.branch c.root).roll (c.tree.chain c.root) =
      pre ++ (rollAll (labelsAround (c.tree.chain c.root) (f :: fs)) row ++ post) := by
    rw [← hrolls, ← hplace, branch]
  refine ⟨labelsAround (c.tree.chain c.root) (f :: fs), pre, post, hbefore, ?_, fun x hx => ?_⟩
  · rw [hu.branch, chain_root h hu, hrolls]
  · have hlisted : (x.number, x.own.label :: labelsAround (c.tree.chain c.root) (f :: fs)) ∈
        (c.tree.branch c.root).roll (c.tree.chain c.root) := by
      rw [hbefore, List.mem_append, List.mem_append]
      exact Or.inr (Or.inl (mem_rollAll.2 ⟨x, hx, mem_roll_self _ x⟩))
    exact Tree.eq_path_of_mem_roll h hlisted

/-- What is read at an element with a place in the cursor's subtree. -/
lemma branch_of_place (h : c.tree.WellFormed) (hplace : c.branch = plug fs x) :
    c.tree.branch x.number = x :=
  (holds_plug.1 (holds_of_place h hplace)).1.branch_eq h

/-- A division adds a copy of the divided element, and all else stays. -/
lemma conserved_of_divided (h : c.tree.WellFormed) (hplace : c.branch = plug (p :: g :: fs) x)
    (hu : Tree.Replaced c.tree u c.root (plug fs (g.fillRow row)))
    (hrow : ∀ outer, ∃ pre post, (p.fill x).roll outer = pre ++ post ∧
      rollAll outer row = pre ++ (c.tree.size, p.own.label :: outer) :: post) :
    ElementsConserved c.tree u c.root none (some p.number) c.tree.chain := by
  have hplace' : c.branch = plug fs (g.fillRow [p.fill x]) := hplace
  obtain ⟨outer, pre, post, hbefore, hafter, hpath⟩ := exists_rolls h hplace' hu
  obtain ⟨pre', post', hfill, hnew⟩ := hrow outer
  have hx : Exchange c.tree u c.root (pre ++ pre') [] [] [(c.tree.size, p.own.label :: outer)]
      (post' ++ post) := by
    refine ⟨h, hu.wellFormed, ?_, ?_⟩
    · rw [hbefore, rollAll_cons, rollAll_nil, hfill]
      simp
    · rw [hafter, hnew]
      simp
  apply hx.conserved
  · simp
  · simp
  · intro i hi
    rw [List.mem_singleton.1 hi]
    exact ⟨rfl, p.number, rfl, hpath (p.fill x) (List.mem_singleton_self _)⟩
  · simp
  · simp

/-- A lift takes the divided element from around the lifted one. -/
lemma conserved_of_lifted (h : c.tree.WellFormed) (hplace : c.branch = plug (p :: g :: fs) x)
    (hu : Tree.Replaced c.tree u c.root (plug fs (g.fillRow (p.lift c.tree.size x)))) :
    ElementsConserved c.tree u c.root none (some p.number) fun m =>
      if m = x.number ∨ x.number ∈ c.tree.ancestors m then
        ((c.tree.ancestors m).erase p.number).map c.tree.label
      else c.tree.chain m := by
  have hplace' : c.branch = plug fs (g.fillRow [p.fill x]) := hplace
  obtain ⟨outer, pre, post, hbefore, hafter, hpath⟩ := exists_rolls h hplace' hu
  obtain ⟨pre', post', added, hfill, hlift, hadded⟩ :=
    exists_rollAll_lift outer p c.tree.size x
  have hp : p.own.label :: outer = c.tree.path p.number :=
    hpath (p.fill x) (List.mem_singleton_self _)
  have hx : Exchange c.tree u c.root (pre ++ pre') (x.roll (c.tree.path p.number))
      (x.roll (c.tree.chain p.number)) added (post' ++ post) := by
    refine ⟨h, hu.wellFormed, ?_, ?_⟩
    · rw [hbefore, rollAll_cons, rollAll_nil, hfill, hp]
      simp
    · rw [hafter, hlift, (List.cons.inj hp).2]
      simp
  have hinside {m : NodeId} : m ∈ x.numbers ↔ m = x.number ∨ x.number ∈ c.tree.ancestors m := by
    rw [← Tree.mem_numbers_branch h, branch_of_place h hplace]
  apply hx.conserved
  · simp
  · simp [map_fst_roll]
  · intro i hi
    rw [List.mem_singleton.1 (hadded hi)]
    exact ⟨rfl, p.number, rfl, hp⟩
  · intro i hi
    have hin := hinside.1 (map_fst_roll _ x ▸ List.mem_map_of_mem hi)
    obtain ⟨ls, hls, hold⟩ := exists_mem_roll hi (c.tree.path p.number)
    -- A path that led through the parent leads past it now.
    rw [if_pos hin, hls]
    apply Tree.append_chain_eq h
    · apply (Tree.mem_ancestors_iff_child h).2
      exact ⟨x.number, h.mem_children_iff.2 (parent?_of_place h hplace), hin⟩
    · exact (hx.path_old hold).symm
  · intro m hm
    rw [map_fst_roll, hinside] at hm
    rw [if_neg hm]

/-- A merge puts the sibling around what the joined element was around. -/
lemma conserved_of_merged (h : c.tree.WellFormed) (hplace : c.branch = plug (f :: fs) x)
    (hsibling : f.before = prev :: rest)
    (hu : Tree.Replaced c.tree u c.root
      (plug fs ({ f with before := prev.absorb x :: rest }.fillRow []))) :
    ElementsConserved c.tree u c.root (some x.number) none fun m =>
      (c.tree.ancestors m).map fun a =>
        c.tree.label (if a = x.number then prev.number else a) := by
  -- The place is widened to hold the sibling too.
  have hplace' : c.branch = plug fs ({ f with before := rest }.fillRow [prev, x]) := by
    simp [hplace, Frame.fill, Frame.fillRow, hsibling]
  have hwidened : { f with before := prev.absorb x :: rest }.fillRow [] =
      { f with before := rest }.fillRow [prev.absorb x] := by
    simp [Frame.fillRow]
  rw [hwidened] at hu
  obtain ⟨outer, pre, post, hbefore, hafter, hpath⟩ := exists_rolls h hplace' hu
  have hprev : prev.own.label :: outer = c.tree.path prev.number := hpath prev (by simp)
  have hjoined : x.own.label :: outer = c.tree.path x.number := hpath x (by simp)
  have hx : Exchange c.tree u c.root (pre ++ prev.roll outer) (x.roll outer)
      (rollAll (prev.own.label :: outer) x.children) [] post := by
    refine ⟨h, hu.wellFormed, ?_, ?_⟩
    · rw [hbefore]
      simp
    · rw [hafter, rollAll_cons, roll_absorb]
      simp
  have hnumbers : x.numbers = x.number :: c.tree.descendants x.number := by
    rw [← Tree.numbers_branch h, branch_of_place h hplace]
  have hchildren : numbersAll x.children = c.tree.descendants x.number := by
    rw [Tree.descendants_eq h, branch_of_place h hplace]
  apply hx.conserved
  · intro n hn
    rw [map_fst_roll, ← Option.some.inj hn]
    exact x.number_mem_numbers
  · have hself := (List.nodup_cons.1 (Tree.nodup_cons_descendants h x.number)).1
    rw [map_fst_roll, map_fst_rollAll, hnumbers, hchildren, List.filter_cons_of_neg (by simp),
      List.filter_eq_self.2]
    intro m hm
    simpa using fun hxm : x.number = m => hself (hxm ▸ hm)
  · simp
  · intro i hi
    have hin : i.1 ∈ c.tree.descendants x.number := by
      rw [← hchildren, ← map_fst_rollAll]
      exact List.mem_map_of_mem hi
    obtain ⟨ls, hls, hold⟩ := exists_mem_rollAll hi (x.own.label :: outer)
    have hpath := hx.path_old (roll_eq outer x ▸ List.mem_cons_of_mem _ hold)
    rw [hls, (List.cons.inj hprev).1, (List.cons.inj hjoined).2]
    apply Tree.append_label_eq h
    · exact (Tree.mem_descendants_iff h).1 hin
    · rw [← hpath, hjoined]
  · intro m hm
    rw [map_fst_roll, hnumbers, List.mem_cons, Tree.mem_descendants_iff h, not_or] at hm
    refine List.map_congr_left fun a ha => ?_
    rw [if_neg fun hax : a = x.number => hm.2 (hax ▸ ha)]

/-! ### The edits -/

/-- Merges, divisions and lifts conserve elements.  All elements below the cursor's root are there
afterwards, each exactly once and in the old order, but for a merged one.  At most one element is new,
a copy of the divided one.  Chains of labels stay as they are, but a lift takes the label of the
former parent out of the chains in the lifted subtree, and a merge puts the label of the previous
sibling in the place of that of the merged element. -/
theorem elements_conserved (h : c.tree.WellFormed) :
    (∀ n? c', splitBefore n? c = .ok () c' → ∃ n parent, n?.or c.current = some n ∧
      c.tree.parent? n = some parent ∧
      ElementsConserved c.tree c'.tree c.root none (some parent) c.tree.chain) ∧
    (∀ n? c', splitAfterTail n? c = .ok () c' → ∃ n parent, n?.or c.current = some n ∧
      c.tree.parent? n = some parent ∧
      ElementsConserved c.tree c'.tree c.root none (some parent) c.tree.chain) ∧
    (∀ n? c', lift n? c = .ok () c' → ∃ n parent, n?.or c.current = some n ∧
      c.tree.parent? n = some parent ∧
      ElementsConserved c.tree c'.tree c.root none (some parent) fun m =>
        if m = n ∨ n ∈ c.tree.ancestors m then
          ((c.tree.ancestors m).erase parent).map c.tree.label
        else c.tree.chain m) ∧
    (∀ n? c', mergeIntoPrevious n? c = .ok () c' → ∃ n previous, n?.or c.current = some n ∧
      c.tree.previousSibling? n = some previous ∧
      ElementsConserved c.tree c'.tree c.root (some n) none fun m =>
        (c.tree.ancestors m).map fun a => c.tree.label (if a = n then previous else a)) := by
  refine ⟨?_, ?_, ?_, ?_⟩
  · intro n? c' hrun
    cases edited_of_ok (o := .splitBefore n?) h rfl hrun with
    | @dividedBefore _ p g fs x u htarget hu =>
      exact ⟨x.number, p.number, htarget.chosen, parent?_of_place h htarget.place,
        conserved_of_divided h htarget.place hu fun outer => exists_rollAll_splitBefore ..⟩
  · intro n? c' hrun
    cases edited_of_ok (o := .splitAfterTail n?) h rfl hrun with
    | @dividedBehind _ p g fs x u htarget hu =>
      exact ⟨x.number, p.number, htarget.chosen, parent?_of_place h htarget.place,
        conserved_of_divided h htarget.place hu fun outer => exists_rollAll_splitAfterTail ..⟩
  · intro n? c' hrun
    cases edited_of_ok (o := .lift n?) h rfl hrun with
    | @lifted _ p g fs x u htarget hu =>
      exact ⟨x.number, p.number, htarget.chosen, parent?_of_place h htarget.place,
        conserved_of_lifted h htarget.place hu⟩
  · intro n? c' hrun
    cases edited_of_ok (o := .mergeIntoPrevious n?) h rfl hrun with
    | @merged _ f fs x prev rest u current htarget hbefore hu =>
      have hf := (holds_plug.1 (holds_of_place h htarget.place)).2.1
      refine ⟨x.number, prev.number, htarget.chosen, ?_, ?_⟩
      · rw [f.previousSibling?_eq h hf, hbefore, List.head?_cons, Option.map_some]
      -- The merged element is gone, and its sibling stands for it in the labels around what was
      -- below it.
      · exact conserved_of_merged h htarget.place hbefore hu

/-- The emphasis that is lifted out of the first bold element stands between its front and a copy of
it, and is no longer bold. -/
theorem elements_conserved_specimen :
    ∃ c', Tree.specimen.WellFormed ∧ lift (some 3) (start Tree.specimen 0) = .ok () c' ∧
      c'.tree.descendants 0 = [1, 2, 3, 5, 4] ∧
      ElementsConserved Tree.specimen c'.tree 0 none (some 2) fun m =>
        if m = 3 ∨ 3 ∈ Tree.specimen.ancestors m then
          ((Tree.specimen.ancestors m).erase 2).map Tree.specimen.label
        else Tree.specimen.chain m := by
  obtain ⟨c', hrun, hlisted⟩ : ∃ c', lift (some 3) (start Tree.specimen 0) = .ok () c' ∧
      c'.tree.descendants 0 = [1, 2, 3, 5, 4] :=
    ⟨_, rfl, by decide⟩
  obtain ⟨-, -, hlift, -⟩ := elements_conserved (c := start Tree.specimen 0) Tree.wellFormed_specimen
  obtain ⟨n, parent, hn, hparent, hconserved⟩ := hlift (some 3) c' hrun
  obtain rfl : 3 = n := Option.some.inj hn
  obtain rfl : 2 = parent := Option.some.inj hparent
  exact ⟨c', Tree.wellFormed_specimen, hrun, hlisted, hconserved⟩

end DoxygenRest.Cursor

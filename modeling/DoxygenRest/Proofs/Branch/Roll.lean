import DoxygenRest.Proofs.Branch.Descent
import DoxygenRest.Proofs.Branch.Surgery

/-!
# The roll of a branch

The label of an element is what its start tag says, and its path is the labels from the element up to
the outermost one around it.  The roll of a branch lists its elements in document order, each with its
path (`Branch.roll`); what lies around the branch has to be given.  In a tree a roll tells what
`ancestors` tells (`roll_branch`).

To exchange a row of children for another is to exchange a piece of the roll: what is listed before the
row and behind it does not depend on the row (`exists_roll_plug_fillRow`).  And what lies around a
branch is the end of each path in its roll (`roll_append`).
-/

namespace DoxygenRest

/-- What the start tag of an element says. -/
structure Label where
  tag : String
  attributes : Bindings
  namespaces : Bindings
  deriving DecidableEq

/-- The label of an element with this own data. -/
def Entry.label (e : Entry) : Label :=
  ⟨e.tag, e.attributes, e.namespaces⟩

namespace Tree

/-- The label of an element. -/
def label (t : Tree) (n : NodeId) : Label :=
  ⟨t.tag n, t.attributes n, t.declaredNamespaces n⟩

/-- The labels of an element's ancestors, nearest first. -/
def chain (t : Tree) (n : NodeId) : List Label :=
  (t.ancestors n).map t.label

/-- The labels of an element and its ancestors, nearest first. -/
def path (t : Tree) (n : NodeId) : List Label :=
  t.label n :: t.chain n

variable {t : Tree}

/-- The label of the own data of an element is the element's label. -/
lemma label_entry (t : Tree) (n : NodeId) : (t.entry n).label = t.label n := rfl

/-- The labels around an element are the path of its parent. -/
lemma chain_of_parent?_eq (h : t.WellFormed) {n parent : NodeId}
    (hp : t.parent? n = some parent) : t.chain n = t.path parent := by
  rw [chain, ancestors_eq_cons h hp, List.map_cons, path, chain]

/-- The ancestors of an ancestor are the last of the ancestors. -/
lemma exists_ancestors_eq (h : t.WellFormed) {a m : NodeId} (ha : a ∈ t.ancestors m) :
    ∃ as, t.ancestors m = as ++ a :: t.ancestors a := by
  induction m using h.parent_induction with
  | step m ih =>
    obtain ⟨parent, hp, rfl | hap⟩ := (mem_ancestors_iff h).1 ha
    · exact ⟨[], ancestors_eq_cons h hp⟩
    · obtain ⟨as, has⟩ := ih parent hp hap
      refine ⟨parent :: as, ?_⟩
      rw [ancestors_eq_cons h hp, has, List.cons_append]

/-- The path of an ancestor is the last of the path, and what comes before it are the labels of the
elements between the two. -/
lemma exists_ancestors_eq_of_path (h : t.WellFormed) {a m : NodeId} {ls : List Label}
    (ha : a ∈ t.ancestors m) (hpath : t.path m = ls ++ t.path a) :
    ∃ as, t.ancestors m = as ++ a :: t.ancestors a ∧ a ∉ as ∧ ls = t.label m :: as.map t.label := by
  obtain ⟨as, has⟩ := exists_ancestors_eq h ha
  refine ⟨as, has, ?_, ?_⟩
  · have hnodup := (nodup_cons_ancestors h m).of_cons
    rw [has, List.nodup_append] at hnodup
    intro hmem
    exact hnodup.2.2 a hmem a (List.mem_cons_self ..) rfl
  · have hsplit : t.path m = (t.label m :: as.map t.label) ++ t.path a := by
      rw [path, chain, has, List.map_append, List.map_cons, path, chain, List.cons_append]
    rw [hsplit] at hpath
    exact (List.append_cancel_right hpath).symm

/-- A path without the label of an ancestor. -/
lemma append_chain_eq (h : t.WellFormed) {a m : NodeId} {ls : List Label} (ha : a ∈ t.ancestors m)
    (hpath : t.path m = ls ++ t.path a) :
    ls ++ t.chain a = t.label m :: ((t.ancestors m).erase a).map t.label := by
  obtain ⟨as, has, hout, rfl⟩ := exists_ancestors_eq_of_path h ha hpath
  rw [has, List.erase_append_right _ hout, List.erase_cons_head, List.map_append, chain,
    List.cons_append]

/-- A path with the label of another element in place of that of an ancestor. -/
lemma append_label_eq (h : t.WellFormed) {a b m : NodeId} {ls : List Label}
    (ha : a ∈ t.ancestors m) (hpath : t.path m = ls ++ t.path a) :
    ls ++ t.label b :: t.chain a =
      t.label m :: (t.ancestors m).map fun d => t.label (if d = a then b else d) := by
  obtain ⟨as, has, hout, rfl⟩ := exists_ancestors_eq_of_path h ha hpath
  have hsame {ds : List NodeId} (hds : a ∉ ds) :
      ds.map (fun d => t.label (if d = a then b else d)) = ds.map t.label := by
    refine List.map_congr_left fun d hd => ?_
    rw [if_neg fun hda : d = a => hds (hda ▸ hd)]
  rw [has, List.map_append, List.map_cons, hsame hout, hsame (h.notMem_ancestors a), if_pos rfl,
    chain, List.cons_append]

end Tree

namespace Branch

mutual

/-- The elements of a branch in document order, each with the labels from itself up to the outermost
element around it.  Around the branch lie elements with the labels `outer`. -/
def roll (outer : List Label) : Branch → List (NodeId × List Label)
  | node number own children =>
    (number, own.label :: outer) :: rollAll (own.label :: outer) children

/-- The roll of a row of branches. -/
def rollAll (outer : List Label) : List Branch → List (NodeId × List Label)
  | [] => []
  | b :: bs => b.roll outer ++ rollAll outer bs

end

variable {outer : List Label}

@[simp] lemma roll_node (outer : List Label) (n : NodeId) (e : Entry) (cs : List Branch) :
    (node n e cs).roll outer = (n, e.label :: outer) :: rollAll (e.label :: outer) cs := by
  rw [roll]

@[simp] lemma rollAll_nil (outer : List Label) : rollAll outer [] = [] := by
  rw [rollAll]

@[simp] lemma rollAll_cons (outer : List Label) (b : Branch) (bs : List Branch) :
    rollAll outer (b :: bs) = b.roll outer ++ rollAll outer bs := by
  rw [rollAll]

/-- The roll of a row is put together from those of its parts. -/
@[simp] lemma rollAll_append (outer : List Label) (bs cs : List Branch) :
    rollAll outer (bs ++ cs) = rollAll outer bs ++ rollAll outer cs := by
  induction bs with
  | nil => simp
  | cons b bs ih => simp [ih]

/-- The roll of a row, branch by branch. -/
lemma rollAll_eq_flatMap (outer : List Label) (bs : List Branch) :
    rollAll outer bs = bs.flatMap (roll outer) := by
  induction bs with
  | nil => simp
  | cons b bs ih => simp [ih]

/-- The root of a branch comes first in its roll. -/
lemma roll_eq (outer : List Label) (b : Branch) :
    b.roll outer = (b.number, b.own.label :: outer) ::
      rollAll (b.own.label :: outer) b.children := by
  cases b
  rw [roll_node, number_node, own_node, children_node]

/-- The root of a branch is on its roll. -/
lemma mem_roll_self (outer : List Label) (b : Branch) :
    (b.number, b.own.label :: outer) ∈ b.roll outer := by
  rw [roll_eq]
  exact List.mem_cons_self ..

/-- What is on the roll of a row is on that of one of its branches. -/
lemma mem_rollAll {outer : List Label} {i : NodeId × List Label} {bs : List Branch} :
    i ∈ rollAll outer bs ↔ ∃ b ∈ bs, i ∈ b.roll outer := by
  rw [rollAll_eq_flatMap, List.mem_flatMap]

/-! ### What is on a roll -/

/-- A roll lists the elements of the branch. -/
theorem map_fst_roll (outer : List Label) (b : Branch) :
    (b.roll outer).map Prod.fst = b.numbers := by
  induction b using Branch.induction generalizing outer with
  | step n e cs ih =>
    rw [roll_node, List.map_cons, numbers_node, rollAll_eq_flatMap, numbersAll_eq_flatMap,
      List.map_flatMap]
    congr 1
    exact List.flatMap_congr fun c hc => ih c hc _

/-- A roll lists the elements of the row. -/
lemma map_fst_rollAll (outer : List Label) (bs : List Branch) :
    (rollAll outer bs).map Prod.fst = numbersAll bs := by
  rw [rollAll_eq_flatMap, numbersAll_eq_flatMap, List.map_flatMap]
  exact List.flatMap_congr fun b _ => map_fst_roll outer b

/-- What lies around a branch is the end of each path on its roll. -/
theorem roll_append (inner outer : List Label) (b : Branch) :
    b.roll (inner ++ outer) = (b.roll inner).map fun i => (i.1, i.2 ++ outer) := by
  induction b using Branch.induction generalizing inner with
  | step n e cs ih =>
    rw [roll_node, roll_node, List.map_cons, rollAll_eq_flatMap, rollAll_eq_flatMap,
      List.map_flatMap, List.cons_append]
    congr 1
    exact List.flatMap_congr fun c hc => ih c hc (e.label :: inner)

/-- What lies around a branch may be exchanged in each path on its roll. -/
lemma exists_mem_roll {i : NodeId × List Label} {b : Branch} (hi : i ∈ b.roll outer)
    (outer' : List Label) : ∃ ls, i.2 = ls ++ outer ∧ (i.1, ls ++ outer') ∈ b.roll outer' := by
  have hroll (outer : List Label) : b.roll outer = (b.roll []).map fun j => (j.1, j.2 ++ outer) :=
    roll_append [] outer b
  rw [hroll] at hi
  obtain ⟨j, hj, rfl⟩ := List.mem_map.1 hi
  refine ⟨j.2, rfl, ?_⟩
  rw [hroll]
  exact List.mem_map_of_mem hj

/-- The same for the roll of a row. -/
lemma exists_mem_rollAll {i : NodeId × List Label} {bs : List Branch}
    (hi : i ∈ rollAll outer bs) (outer' : List Label) :
    ∃ ls, i.2 = ls ++ outer ∧ (i.1, ls ++ outer') ∈ rollAll outer' bs := by
  obtain ⟨b, hb, hi⟩ := mem_rollAll.1 hi
  obtain ⟨ls, hls, hmem⟩ := exists_mem_roll hi outer'
  exact ⟨ls, hls, mem_rollAll.2 ⟨b, hb, hmem⟩⟩

/-! ### Texts and tails are not on a roll -/

/-- A tail is not on a roll. -/
@[simp] lemma roll_withTail (outer : List Label) (b : Branch) (tail : Option String) :
    (b.withTail tail).roll outer = b.roll outer := by
  rw [roll_eq, roll_eq]
  rfl

@[simp] lemma roll_extendTail (outer : List Label) (b : Branch) (more : String) :
    (b.extendTail more).roll outer = b.roll outer :=
  roll_withTail outer b _

/-- Text appended to the last tail is not on a roll. -/
@[simp] lemma rollAll_extendLast (outer : List Label) (more : String) (bs : List Branch) :
    rollAll outer (extendLast more bs) = rollAll outer bs := by
  rcases List.eq_nil_or_concat' bs with rfl | ⟨bs, b, rfl⟩
  · rfl
  · simp

/-- A tail is not in a label. -/
lemma label_withTail (b : Branch) (tail : Option String) :
    (b.withTail tail).own.label = b.own.label := rfl

/-- Text is not in a label. -/
lemma label_appendContent (b : Branch) (more : String) :
    (b.appendContent more).own.label = b.own.label := by
  unfold appendContent
  split <;> rfl

/-- Text appended to the content is not on a roll. -/
@[simp] lemma roll_appendContent (outer : List Label) (b : Branch) (more : String) :
    (b.appendContent more).roll outer = b.roll outer := by
  unfold appendContent
  split
  · next h =>
    rw [roll_eq, roll_eq _ b]
    rfl
  · next c cs h =>
    rw [roll_node, rollAll_extendLast, ← h, roll_eq]

end Branch

open Branch

/-! ### Rolls of trees -/

namespace Tree

variable {t : Tree}

/-- In a tree, the roll of a branch tells what lies around each of its elements. -/
theorem roll_branch (h : t.WellFormed) (n : NodeId) :
    (t.branch n).roll (t.chain n) = (t.branch n).numbers.map fun m => (m, t.path m) := by
  induction n using h.child_induction with
  | step n ih =>
    rw [branch_eq h, roll_node, numbers_node, List.map_cons, label_entry, rollAll_eq_flatMap,
      numbersAll_eq_flatMap, List.map_flatMap, List.flatMap_map, List.flatMap_map]
    congr 1
    refine List.flatMap_congr fun c hc => ?_
    rw [← ih c hc, chain_of_parent?_eq h (h.mem_children_iff.1 hc), path]

/-- What a roll says of an element is its path. -/
lemma eq_path_of_mem_roll (h : t.WellFormed) {n : NodeId} {i : NodeId × List Label}
    (hi : i ∈ (t.branch n).roll (t.chain n)) : i.2 = t.path i.1 := by
  rw [roll_branch h] at hi
  obtain ⟨m, -, rfl⟩ := List.mem_map.1 hi
  rfl

end Tree

/-! ### Rolls around a place -/

/-- The labels around a place, nearest first. -/
def labelsAround (outer : List Label) : List Frame → List Label
  | [] => outer
  | f :: fs => f.own.label :: labelsAround outer fs

/-- What a roll lists around a row of children does not depend on the row. -/
lemma Frame.exists_roll_fillRow (outer : List Label) (f : Frame) :
    ∃ pre post, ∀ row, (f.fillRow row).roll outer =
      pre ++ (rollAll (f.own.label :: outer) row ++ post) := by
  refine ⟨(f.number, f.own.label :: outer) :: rollAll (f.own.label :: outer) f.before.reverse,
    rollAll (f.own.label :: outer) f.after, fun row => ?_⟩
  rw [Frame.fillRow, roll_node, rollAll_append, rollAll_append, List.cons_append]

/-- Text that is put before a place is not on a roll. -/
@[simp] lemma Frame.roll_fillRow_extendBefore (outer : List Label) (f : Frame) (more : String)
    (row : List Branch) :
    ((f.extendBefore more).fillRow row).roll outer = (f.fillRow row).roll outer := by
  unfold extendBefore
  split
  · rw [fillRow, fillRow, roll_node, roll_node]
    rfl
  · next prev rest hbefore => simp [fillRow, hbefore]

/-- What a roll lists around a place does not depend on what stands there. -/
theorem exists_roll_plug (outer : List Label) (fs : List Frame) :
    ∃ pre post, ∀ x, (plug fs x).roll outer = pre ++ (x.roll (labelsAround outer fs) ++ post) := by
  induction fs with
  | nil => exact ⟨[], [], fun x => by simp [labelsAround]⟩
  | cons f fs ih =>
    obtain ⟨pre, post, hfs⟩ := ih
    obtain ⟨pre', post', hf⟩ := f.exists_roll_fillRow (labelsAround outer fs)
    refine ⟨pre ++ pre', post' ++ post, fun x => ?_⟩
    rw [plug_cons, hfs, ← Frame.fillRow_singleton, hf, rollAll_cons, rollAll_nil, labelsAround]
    simp only [List.append_assoc, List.nil_append]

/-- What a roll lists around a place does not depend on the row that stands there. -/
theorem exists_roll_plug_fillRow (outer : List Label) (f : Frame) (fs : List Frame) :
    ∃ pre post, ∀ row, (plug fs (f.fillRow row)).roll outer =
      pre ++ (rollAll (labelsAround outer (f :: fs)) row ++ post) := by
  obtain ⟨pre, post, hfs⟩ := exists_roll_plug outer fs
  obtain ⟨pre', post', hf⟩ := f.exists_roll_fillRow (labelsAround outer fs)
  refine ⟨pre ++ pre', post' ++ post, fun row => ?_⟩
  rw [hfs, hf, labelsAround]
  simp only [List.append_assoc]

/-! ### What the edits of a cursor do to a roll -/

section Edits

variable (outer : List Label) (f : Frame) (k : NodeId) (x : Branch)

/-- A division in front of a child adds the new element, right before the child. -/
lemma exists_rollAll_splitBefore :
    ∃ pre post, (f.fill x).roll outer = pre ++ post ∧
      rollAll outer (f.splitBefore k x) = pre ++ (k, f.own.label :: outer) :: post := by
  refine ⟨(f.number, f.own.label :: outer) :: rollAll (f.own.label :: outer) f.before.reverse,
    rollAll (f.own.label :: outer) (x :: f.after), ?_, ?_⟩
  · simp [Frame.fill]
  · simp [Frame.splitBefore, Frame.front, Frame.back, Entry.label]

/-- A division behind a child adds the new element, right behind what is in the child. -/
lemma exists_rollAll_splitAfterTail :
    ∃ pre post, (f.fill x).roll outer = pre ++ post ∧
      rollAll outer (f.splitAfterTail k x) = pre ++ (k, f.own.label :: outer) :: post := by
  refine ⟨(f.number, f.own.label :: outer) ::
      rollAll (f.own.label :: outer) (f.before.reverse ++ [x]),
    rollAll (f.own.label :: outer) f.after, ?_, ?_⟩
  · simp [Frame.fill]
  · simp [Frame.splitAfterTail, Frame.front, Frame.back, Entry.label]

/-- A lift takes the label of the divided element out of the paths in the lifted one, and may add the
new element right behind. -/
lemma exists_rollAll_lift :
    ∃ pre post added, (f.fill x).roll outer = pre ++ (x.roll (f.own.label :: outer) ++ post) ∧
      rollAll outer (f.lift k x) = pre ++ (x.roll outer ++ (added ++ post)) ∧
      added ⊆ [(k, f.own.label :: outer)] := by
  have hbefore : (f.fill x).roll outer =
      ((f.number, f.own.label :: outer) :: rollAll (f.own.label :: outer) f.before.reverse) ++
        (x.roll (f.own.label :: outer) ++ rollAll (f.own.label :: outer) f.after) := by
    simp [Frame.fill]
  refine ⟨_, _, if (handedTail x.own.tail).isNone && f.after.isEmpty then [] else
    [(k, f.own.label :: outer)], hbefore, ?_, ?_⟩
  -- With nothing left for it, no back is made, and nothing is added.
  · unfold Frame.lift
    split
    · next hlast =>
      have hafter : f.after = [] := by simpa using (Bool.and_eq_true_iff.1 hlast).2
      simp [Frame.front, Entry.label, hafter]
    · simp [Frame.front, Frame.back, Entry.label]
  · split <;> simp

/-- A merge takes the joined element off the roll, and its sibling takes its place in the paths. -/
lemma roll_absorb (prev : Branch) :
    (prev.absorb x).roll outer =
      prev.roll outer ++ rollAll (prev.own.label :: outer) x.children := by
  -- The joined branch is the first one with text appended, and then the children of the second.
  let joined := ((prev.withTail none).appendContent prev.tail).appendContent x.text
  have hlabel : joined.own.label = prev.own.label := by
    rw [label_appendContent, label_appendContent, label_withTail]
  have hroll : joined.roll outer = prev.roll outer := by
    rw [roll_appendContent, roll_appendContent, roll_withTail]
  rw [roll_eq, roll_eq _ prev, hlabel] at hroll
  calc (prev.absorb x).roll outer
      = (prev.number, joined.own.label :: outer) ::
          rollAll (joined.own.label :: outer) (joined.children ++ x.children) := roll_node ..
    _ = (prev.number, prev.own.label :: outer) ::
          (rollAll (prev.own.label :: outer) prev.children ++
            rollAll (prev.own.label :: outer) x.children) := by
      rw [hlabel, rollAll_append, (List.cons.inj hroll).2]
    _ = prev.roll outer ++ rollAll (prev.own.label :: outer) x.children := by
      rw [roll_eq _ prev, List.cons_append]

end Edits

end DoxygenRest

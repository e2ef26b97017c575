import DoxygenRest.Proofs.Branch.Place

/-!
# Surgery on branches

What the edits of a cursor do, said of branches.  An edit works on an element at a place of a branch,
and puts something else in its stead: `Frame.fillRow` puts a row of branches where a single one was
taken out, `Frame.extendBefore` appends text to whatever stands right before the place, and
`Branch.appendContent` appends text at the end of a branch's content.

An element is divided into its front, which keeps its number (`Frame.front`), and its back, which
is new and takes its tail (`Frame.back`).
-/

namespace DoxygenRest

/-- The tail that an element gets when the tail of another is handed to it: an empty tail is
dropped on the way. -/
def handedTail (tail : Option String) : Option String :=
  tail.filter (· != "")

/-- A tail that is put in front of nothing is handed on. -/
lemma prependTo_none_getD (tail : Option String) :
    Tree.prependTo none (tail.getD "") = handedTail tail := by
  cases tail with
  | none => rfl
  | some s => by_cases hs : s = "" <;> simp [Tree.prependTo, handedTail, Option.filter, hs]

/-- Handing a tail on loses no text. -/
@[simp] lemma getD_handedTail (tail : Option String) : (handedTail tail).getD "" = tail.getD "" := by
  cases tail with
  | none => rfl
  | some s => by_cases hs : s = "" <;> simp [handedTail, Option.filter, hs]

/-- Text that is appended follows the text that was there. -/
@[simp] lemma getD_appendTo (text : Option String) (more : String) :
    (Tree.appendTo text more).getD "" = text.getD "" ++ more := by
  unfold Tree.appendTo
  split <;> simp_all

/-- Text that is prepended comes before the text that was there. -/
@[simp] lemma getD_prependTo (text : Option String) (more : String) :
    (Tree.prependTo text more).getD "" = more ++ text.getD "" := by
  unfold Tree.prependTo
  split <;> simp_all

namespace Branch

/-- The text of the root, empty if absent. -/
def text (b : Branch) : String :=
  b.own.text.getD ""

/-- The tail of the root, empty if absent. -/
def tail (b : Branch) : String :=
  b.own.tail.getD ""

/-- The branch with another tail. -/
def withTail (b : Branch) (tail : Option String) : Branch :=
  b.revise fun e => { e with tail }

/-- The branch with text appended to its tail. -/
def extendTail (b : Branch) (more : String) : Branch :=
  b.revise fun e => { e with tail := Tree.appendTo e.tail more }

/-- A row of branches with text appended to the tail of the last one. -/
def extendLast (more : String) : List Branch → List Branch
  | [] => []
  | [b] => [b.extendTail more]
  | b :: c :: bs => b :: extendLast more (c :: bs)

/-- The branch with text appended at the end of its content. -/
def appendContent (b : Branch) (more : String) : Branch :=
  match b.children with
  | [] => b.revise fun e => { e with text := Tree.appendTo e.text more }
  | c :: cs => node b.number b.own (extendLast more (c :: cs))

/-- The branch with another one joined into it: its tail becomes content, the content of the other
follows, and so does the tail of the other. -/
def absorb (b c : Branch) : Branch :=
  let joined := ((b.withTail none).appendContent b.tail).appendContent c.text
  node b.number { joined.own with tail := c.own.tail } (joined.children ++ c.children)

@[simp] lemma number_withTail (b : Branch) (tail : Option String) :
    (b.withTail tail).number = b.number := rfl

@[simp] lemma children_withTail (b : Branch) (tail : Option String) :
    (b.withTail tail).children = b.children := rfl

@[simp] lemma own_withTail (b : Branch) (tail : Option String) :
    (b.withTail tail).own = { b.own with tail } := rfl

/-- Another tail changes no numbers. -/
@[simp] lemma numbers_withTail (b : Branch) (tail : Option String) :
    (b.withTail tail).numbers = b.numbers :=
  b.numbers_revise _

@[simp] lemma number_extendTail (b : Branch) (more : String) :
    (b.extendTail more).number = b.number := rfl

@[simp] lemma children_extendTail (b : Branch) (more : String) :
    (b.extendTail more).children = b.children := rfl

@[simp] lemma own_extendTail (b : Branch) (more : String) :
    (b.extendTail more).own = { b.own with tail := Tree.appendTo b.own.tail more } := rfl

/-- Text appended to a tail changes no numbers. -/
@[simp] lemma numbers_extendTail (b : Branch) (more : String) :
    (b.extendTail more).numbers = b.numbers :=
  b.numbers_revise _

/-- The text goes to the tail of the last branch. -/
@[simp] lemma extendLast_append_singleton (more : String) (bs : List Branch) (b : Branch) :
    extendLast more (bs ++ [b]) = bs ++ [b.extendTail more] := by
  induction bs with
  | nil => rfl
  | cons c bs ih =>
    cases bs with
    | nil => rfl
    | cons d bs => exact congrArg (c :: ·) ih

/-- Without children, text at the end of the content belongs to the text. -/
lemma appendContent_of_nil {b : Branch} (h : b.children = []) (more : String) :
    b.appendContent more = node b.number { b.own with text := Tree.appendTo b.own.text more } [] := by
  simp [appendContent, h, revise]

/-- With children, text at the end of the content belongs to the tail of the last one. -/
lemma appendContent_of_append {b last : Branch} {bs : List Branch} (h : b.children = bs ++ [last])
    (more : String) :
    b.appendContent more = node b.number b.own (bs ++ [last.extendTail more]) := by
  unfold appendContent
  split
  · next h' => simp [h'] at h
  · next h' => rw [← h', h, extendLast_append_singleton]

/-- A branch has no children, or a last one. -/
lemma children_cases (b : Branch) :
    b.children = [] ∨ ∃ bs last, b.children = bs ++ [last] :=
  List.eq_nil_or_concat' b.children

/-- Appending no text changes nothing. -/
@[simp] lemma appendTo_empty (text : Option String) : Tree.appendTo text "" = text :=
  if_pos rfl

/-- Text is appended to text piece by piece. -/
lemma appendTo_appendTo (text : Option String) (s s' : String) :
    Tree.appendTo (Tree.appendTo text s) s' = Tree.appendTo text (s ++ s') := by
  by_cases hs : s = ""
  · simp [hs]
  · by_cases hs' : s' = ""
    · simp [hs']
    · simp [Tree.appendTo, hs, hs', String.append_assoc]

/-- Appending no text to a tail changes nothing. -/
lemma extendTail_empty (b : Branch) : b.extendTail "" = b := by
  cases b
  simp [extendTail, revise]

/-- Text is appended to a tail piece by piece. -/
lemma extendTail_extendTail (b : Branch) (s s' : String) :
    (b.extendTail s).extendTail s' = b.extendTail (s ++ s') := by
  simp [extendTail, revise, appendTo_appendTo]

/-- Appending no text to the content changes nothing. -/
lemma appendContent_empty (b : Branch) : b.appendContent "" = b := by
  -- The text would go to the branch itself or to its last child.
  rcases b.children_cases with h | ⟨bs, last, h⟩
  · rw [appendContent_of_nil h, appendTo_empty, ← h, node_eta]
  · rw [appendContent_of_append h, extendTail_empty, ← h, node_eta]

/-- Text is appended to the content of an element piece by piece. -/
lemma appendContent_appendContent (b : Branch) (s s' : String) :
    (b.appendContent s).appendContent s' = b.appendContent (s ++ s') := by
  rcases b.children_cases with h | ⟨bs, last, h⟩
  · rw [appendContent_of_nil h, appendContent_of_nil h, appendContent_of_nil rfl, number_node,
      own_node, appendTo_appendTo]
  · rw [appendContent_of_append h, appendContent_of_append h, appendContent_of_append rfl,
      number_node, own_node, extendTail_extendTail]

@[simp] lemma number_appendContent (b : Branch) (more : String) :
    (b.appendContent more).number = b.number := by
  unfold appendContent
  split <;> rfl

/-- Text appended to a tail leaves the elements of a row the same. -/
@[simp] lemma map_number_extendLast (more : String) (bs : List Branch) :
    (extendLast more bs).map number = bs.map number := by
  rcases List.eq_nil_or_concat' bs with rfl | ⟨bs, b, rfl⟩
  · rfl
  · simp

/-- Text appended to the content leaves the children the same elements. -/
lemma map_number_children_appendContent (b : Branch) (more : String) :
    (b.appendContent more).children.map number = b.children.map number := by
  rcases b.children_cases with h | ⟨bs, last, h⟩
  · rw [appendContent_of_nil h, children_node, h]
  · simp [appendContent_of_append h, h]

/-- Text appended to a tail leaves all elements below a row the same. -/
@[simp] lemma numbersAll_extendLast (more : String) (bs : List Branch) :
    numbersAll (extendLast more bs) = numbersAll bs := by
  rcases List.eq_nil_or_concat' bs with rfl | ⟨bs, b, rfl⟩
  · rfl
  · simp

section Renumbered

variable {x y b b' : Branch}

/-- Branches that differ in numbers alone have the same tail. -/
lemma tail_eq_of_fragment_eq (h : x.fragment = y.fragment) : x.tail = y.tail := by
  rw [Branch.tail, Branch.tail, (fragment_eq_iff.1 h).1]

/-- Branches that differ in numbers alone still do with the same text appended to their content. -/
lemma fragment_appendContent_congr (h : x.fragment = y.fragment) (more : String) :
    (x.appendContent more).fragment = (y.appendContent more).fragment := by
  obtain ⟨hown, hchildren⟩ := fragment_eq_iff.1 h
  -- Both branches have a last child, or neither has.
  rcases x.children_cases with hx | ⟨bs, b, hx⟩
  · have hy : y.children = [] := by
      rw [hx] at hchildren
      exact List.map_eq_nil_iff.1 hchildren.symm
    rw [appendContent_of_nil hx, appendContent_of_nil hy, hown]
    simp
  · rw [hx, List.map_append] at hchildren
    obtain ⟨cs, ds, hy, hcs, hds⟩ := List.map_eq_append_iff.1 hchildren.symm
    obtain ⟨c, rfl, hc⟩ := List.map_eq_singleton_iff.1 hds
    have hlast := fragment_revise_congr hc.symm
      fun e => { e with tail := Tree.appendTo e.tail more }
    rw [appendContent_of_append hx, appendContent_of_append hy, fragment_eq_iff]
    simp only [own_node, children_node, List.map_append, List.map_cons, List.map_nil]
    exact ⟨hown, by rw [hcs]; exact congrArg (_ ++ [·]) hlast⟩

/-- The branch that others are joined into, before their children are. -/
lemma fragment_joined_congr (h : b.fragment = b'.fragment) (text : String) :
    (((b.withTail none).appendContent b.tail).appendContent text).fragment =
      (((b'.withTail none).appendContent b'.tail).appendContent text).fragment := by
  rw [tail_eq_of_fragment_eq h]
  refine fragment_appendContent_congr (fragment_appendContent_congr ?_ _) _
  exact fragment_revise_congr h fun e => { e with tail := none }

/-- Of the branch that is joined into another, the own data of the whole depend on the own data. -/
lemma own_absorb_congr (h : b.fragment = b'.fragment) (hown : x.own = y.own) :
    (b.absorb x).own = (b'.absorb y).own := by
  have htext : x.text = y.text := by rw [Branch.text, Branch.text, hown]
  have hjoined := (fragment_eq_iff.1 (fragment_joined_congr h x.text)).1
  rw [absorb, absorb, own_node, own_node, hjoined, htext, hown]

/-- Joined branches differ in numbers alone if the parts do. -/
lemma fragment_absorb_congr (h : b.fragment = b'.fragment) (hx : x.fragment = y.fragment) :
    (b.absorb x).fragment = (b'.absorb y).fragment := by
  obtain ⟨hown, hchildren⟩ := fragment_eq_iff.1 hx
  have htext : x.text = y.text := by rw [Branch.text, Branch.text, hown]
  refine fragment_eq_iff.2 ⟨own_absorb_congr h hown, ?_⟩
  have hjoined := (fragment_eq_iff.1 (fragment_joined_congr h x.text)).2
  rw [absorb, absorb, children_node, children_node, List.map_append, List.map_append, hjoined,
    htext, hchildren]

end Renumbered

/-- The elements of a row are elements of another one, but for their tails. -/
def DrawnFrom (bs cs : List Branch) : Prop :=
  ∀ c ∈ cs, ∃ b ∈ bs, ∃ tail, c = b.withTail tail

/-- Some of the elements of a row are drawn from it. -/
lemma drawnFrom_of_subset {bs cs : List Branch} (h : cs ⊆ bs) : DrawnFrom bs cs := by
  intro c hc
  refine ⟨c, h hc, c.own.tail, ?_⟩
  cases c
  rfl

/-- What is drawn from a row that is drawn from another, is drawn from that one. -/
lemma DrawnFrom.trans {as bs cs : List Branch} (h : DrawnFrom as bs) (h' : DrawnFrom bs cs) :
    DrawnFrom as cs := by
  intro c hc
  obtain ⟨b, hb, tail, rfl⟩ := h' c hc
  obtain ⟨a, ha, tail', rfl⟩ := h b hb
  exact ⟨a, ha, tail, rfl⟩

/-- Rows are drawn from part by part. -/
lemma DrawnFrom.append {as bs cs ds : List Branch} (h : DrawnFrom as bs) (h' : DrawnFrom cs ds) :
    DrawnFrom (as ++ cs) (bs ++ ds) := by
  intro d hd
  rcases List.mem_append.1 hd with hd | hd
  · obtain ⟨a, ha, hdrawn⟩ := h d hd
    exact ⟨a, List.mem_append_left cs ha, hdrawn⟩
  · obtain ⟨c, hc, hdrawn⟩ := h' d hd
    exact ⟨c, List.mem_append_right as hc, hdrawn⟩

/-- An element with another tail is drawn from the element. -/
lemma drawnFrom_singleton (b : Branch) (tail : Option String) :
    DrawnFrom [b] [b.withTail tail] := by
  intro c hc
  exact ⟨b, List.mem_singleton_self b, tail, List.mem_singleton.1 hc⟩

/-- The children of an element up to one of them, which may lose its tail. -/
lemma drawnFrom_append_withTail (ys : List Branch) (y : Branch) (zs : List Branch) :
    DrawnFrom (ys ++ y :: zs) (ys ++ [y.withTail none]) := by
  have hlast : DrawnFrom (y :: zs) [y.withTail none] :=
    (drawnFrom_of_subset (by simp)).trans (drawnFrom_singleton y none)
  exact (drawnFrom_of_subset (List.Subset.refl ys)).append hlast

/-- Text appended to the last tail leaves a row drawn from the former one. -/
lemma drawnFrom_extendLast (more : String) (bs : List Branch) :
    DrawnFrom bs (extendLast more bs) := by
  rcases List.eq_nil_or_concat' bs with rfl | ⟨bs, b, rfl⟩
  · exact drawnFrom_of_subset (List.Subset.refl _)
  · rw [extendLast_append_singleton]
    exact (drawnFrom_of_subset (List.Subset.refl bs)).append (drawnFrom_singleton b _)

/-- Text that is appended to a branch changes no more of its children than a tail. -/
lemma drawnFrom_appendContent (b : Branch) (more : String) :
    DrawnFrom b.children (b.appendContent more).children := by
  unfold appendContent
  split
  · exact drawnFrom_of_subset (List.Subset.refl _)
  · next h =>
    rw [h]
    exact drawnFrom_extendLast more _

/-- The children of the first of two branches that are joined, before those of the second. -/
lemma drawnFrom_joined (b c : Branch) :
    DrawnFrom b.children
      (((b.withTail none).appendContent b.tail).appendContent c.text).children :=
  (drawnFrom_appendContent (b.withTail none) b.tail).trans (drawnFrom_appendContent _ c.text)

/-- Joined branches have the children of both. -/
lemma mem_children_absorb {b c d : Branch} (h : d ∈ (b.absorb c).children) :
    (∃ a ∈ b.children, ∃ tail, d = a.withTail tail) ∨ d ∈ c.children := by
  rw [absorb, children_node, List.mem_append] at h
  exact h.imp_left (drawnFrom_joined b c d)

/-- Text appended to the content leaves all elements below the same. -/
@[simp] lemma numbersAll_children_appendContent (b : Branch) (more : String) :
    numbersAll (b.appendContent more).children = numbersAll b.children := by
  unfold appendContent
  split
  · next h => simp [h]
  · next h => simp [h]

end Branch

open Branch

namespace Frame

/-- Put a row of branches in the place of the child that was taken out. -/
def fillRow (f : Frame) (row : List Branch) : Branch :=
  .node f.number f.own (f.before.reverse ++ (row ++ f.after))

/-- Append text to what stands right before the place: the tail of the nearest child before it, or
else the text of the element itself. -/
def extendBefore (f : Frame) (more : String) : Frame :=
  match f.before with
  | [] => { f with own := { f.own with text := Tree.appendTo f.own.text more } }
  | prev :: rest => { f with before := prev.extendTail more :: rest }

/-- The front of a divided element, with more children at its end. -/
def front (f : Frame) (more : List Branch) : Branch :=
  .node f.number { f.own with tail := none } (f.before.reverse ++ more)

/-- The back of a divided element: a copy that takes the element's tail. -/
def back (f : Frame) (number : NodeId) (text : Option String) (children : List Branch) : Branch :=
  .node number { f.own with text, tail := handedTail f.own.tail } children

/-- What stands in the place of an element that was divided in front of the child `x`. -/
def splitBefore (f : Frame) (number : NodeId) (x : Branch) : List Branch :=
  [f.front [], f.back number none (x :: f.after)]

/-- What stands in the place of an element that was divided behind the child `x`, in front of the
child's tail. -/
def splitAfterTail (f : Frame) (number : NodeId) (x : Branch) : List Branch :=
  [f.front [x.withTail none], f.back number x.own.tail f.after]

/-- What stands in the place of an element whose child `x` was lifted out of it. -/
def lift (f : Frame) (number : NodeId) (x : Branch) : List Branch :=
  if (handedTail x.own.tail).isNone && f.after.isEmpty then
    [f.front [], x.withTail (handedTail f.own.tail)]
  else [f.front [], x.withTail none, f.back number (handedTail x.own.tail) f.after]

@[simp] lemma number_fillRow (f : Frame) (row : List Branch) :
    (f.fillRow row).number = f.number := rfl

/-- The same element with the place moved one child back. -/
lemma fill_shift (f : Frame) (b c : Branch) (bs : List Branch) :
    { f with before := b :: bs }.fill c =
      { f with before := bs, after := c :: f.after }.fill b := by
  simp [fill]

/-- A row of one branch fills a place as the branch does. -/
lemma fillRow_singleton (f : Frame) (b : Branch) : f.fillRow [b] = f.fill b := rfl

/-- The place of the second of two neighbors. -/
lemma fillRow_pair_eq_fill_second (g : Frame) (b b' : Branch) :
    g.fillRow [b, b'] = { g with before := b :: g.before }.fill b' := by
  simp [fillRow, fill]

/-- Behind its last child, an element is whole again. -/
lemma fill_next {f : Frame} {x y : Branch} {rest : List Branch} (h : f.after = y :: rest) :
    { f with before := x :: f.before, after := rest }.fill y = f.fill x := by
  rw [fill, fill, List.reverse_cons, List.append_assoc, List.singleton_append, h]

/-- A place left empty closes up with what comes after it. -/
lemma fillRow_nil_next {f : Frame} {y : Branch} {rest : List Branch} (h : f.after = y :: rest) :
    { f with after := rest }.fill y = f.fillRow [] := by
  rw [fillRow, h]
  rfl

/-- Two joined branches with the place at the first child of the second one. -/
lemma fill_absorb (prev : Branch) {x y : Branch} {ys : List Branch} (h : x.children = y :: ys) :
    (⟨prev.number, (prev.absorb x).own,
      (((prev.withTail none).appendContent prev.tail).appendContent x.text).children.reverse, ys⟩ :
        Frame).fill y = prev.absorb x := by
  rw [fill, List.reverse_reverse, absorb, h]
  rfl

@[simp] lemma number_extendBefore (f : Frame) (more : String) :
    (f.extendBefore more).number = f.number := by
  unfold extendBefore
  split <;> rfl

/-- Text put before a place changes nothing after it. -/
@[simp] lemma after_extendBefore (f : Frame) (more : String) :
    (f.extendBefore more).after = f.after := by
  unfold extendBefore
  split <;> rfl

/-- Text put before a place changes no more of what stands before it than a tail. -/
lemma drawnFrom_extendBefore (f : Frame) (more : String) :
    DrawnFrom f.before (f.extendBefore more).before := by
  unfold extendBefore
  split
  · exact drawnFrom_of_subset (List.Subset.refl _)
  · next prev rest h =>
    rw [h]
    exact (drawnFrom_singleton prev _).append (drawnFrom_of_subset (List.Subset.refl rest))

/-- The children before a place stay the same elements if text is put before the place. -/
@[simp] lemma map_number_before_extendBefore (f : Frame) (more : String) :
    (f.extendBefore more).before.map Branch.number = f.before.map Branch.number := by
  unfold extendBefore
  split <;> simp_all

/-- All elements before a place stay the same if text is put before the place. -/
@[simp] lemma numbersAll_before_extendBefore (f : Frame) (more : String) :
    numbersAll (f.extendBefore more).before = numbersAll f.before := by
  unfold extendBefore
  split <;> simp_all

/-- The elements around a place stay the same if text is put before it. -/
@[simp] lemma numbers_extendBefore (f : Frame) (more : String) :
    (f.extendBefore more).numbers = f.numbers := by
  simp [numbers]

/-! ### The elements of a row -/

/-- The elements of a filled place are those around it and those of what fills it. -/
lemma mem_numbers_fill {f : Frame} {b : Branch} {m : NodeId} :
    m ∈ (f.fill b).numbers ↔ m ∈ f.numbers ∨ m ∈ b.numbers := by
  rw [(f.numbers_fill_perm b).mem_iff, List.mem_append, or_comm]

/-- The elements of a place filled with a row are those around it and those of the row. -/
lemma mem_numbers_fillRow {f : Frame} {row : List Branch} {m : NodeId} :
    m ∈ (f.fillRow row).numbers ↔ m ∈ f.numbers ∨ m ∈ numbersAll row := by
  simp only [fillRow, numbers, numbers_node, numbersAll_append, List.mem_cons, List.mem_append,
    mem_numbersAll_reverse]
  tauto

/-- A division loses no element. -/
lemma subset_numbersAll_splitBefore (f : Frame) (k : NodeId) (x : Branch) :
    (f.fill x).numbers ⊆ numbersAll (f.splitBefore k x) := by
  intro m hm
  simp only [mem_numbers_fill, numbers, List.mem_cons, List.mem_append] at hm
  simp only [splitBefore, front, back, numbersAll_cons, numbersAll_nil, numbers_node,
    List.append_nil, List.mem_append, List.mem_cons, mem_numbersAll_reverse]
  tauto

/-- A division loses no element. -/
lemma subset_numbersAll_splitAfterTail (f : Frame) (k : NodeId) (x : Branch) :
    (f.fill x).numbers ⊆ numbersAll (f.splitAfterTail k x) := by
  intro m hm
  simp only [mem_numbers_fill, numbers, List.mem_cons, List.mem_append] at hm
  simp only [splitAfterTail, front, back, numbersAll_append, numbersAll_cons, numbersAll_nil,
    numbers_node, numbers_withTail, List.append_nil, List.mem_append, List.mem_cons,
    mem_numbersAll_reverse]
  tauto

/-- A lift loses no element. -/
lemma subset_numbersAll_lift (f : Frame) (k : NodeId) (x : Branch) :
    (f.fill x).numbers ⊆ numbersAll (f.lift k x) := by
  intro m hm
  simp only [mem_numbers_fill, numbers, List.mem_cons, List.mem_append] at hm
  unfold lift
  -- The back of the element is missing if it would hold nothing.
  split
  · next hlast =>
    have hafter : f.after = [] := by simpa using (Bool.and_eq_true_iff.1 hlast).2
    rw [hafter, numbersAll_nil] at hm
    simp only [front, numbersAll_cons, numbersAll_nil, numbers_node, numbers_withTail,
      List.append_nil, List.mem_append, List.mem_cons, mem_numbersAll_reverse]
    simp only [List.not_mem_nil, or_false] at hm
    tauto
  · simp only [front, back, numbersAll_cons, numbersAll_nil, numbers_node, numbers_withTail,
      List.append_nil, List.mem_append, List.mem_cons, mem_numbersAll_reverse]
    tauto

end Frame

/-- A merge keeps the content of both elements. -/
lemma Branch.mem_numbers_absorb {b c : Branch} {m : NodeId} :
    m ∈ (b.absorb c).numbers ↔ m ∈ b.numbers ∨ m ∈ numbersAll c.children := by
  have hchildren : numbersAll ((b.withTail none).appendContent b.tail |>.appendContent c.text).children
      = numbersAll b.children := by
    simp
  cases b
  simp only [absorb, numbers_node, numbersAll_append, hchildren, number_node, children_node,
    List.mem_cons, List.mem_append]
  tauto

end DoxygenRest

import DoxygenRest.Proofs.Query.Axes
import DoxygenRest.Proofs.Query.Roundtrip
import DoxygenRest.Proofs.Tree.Specimen

/-!
# What a path selects

A step from an element comes to a row of elements: the row of its axis, less what fails the name
test, and then thinned out by one predicate after the other (`Step.ComesTo`).  A path leads from an
element to another if there are elements on the way of which each is in the row that a step from the
one before comes to (`Leads`).

A query is not evaluated along such ways.  All elements reached so far are kept in one row without
repetition, and each step is taken from all of them.  Still what is selected is what the path leads to
(`select_iff_leads`), since the row of a step from an element does not depend on how the element was
reached, and only its members matter for the steps behind it.
-/

namespace DoxygenRest.Query

variable {t : Tree} {m n : NodeId} {row kept result : List NodeId}

/-! ### Thinning out -/

/-- What is left of a row when all is dropped that lacks a property. -/
structure IsKept (keep : NodeId → Prop) (row kept : List NodeId) : Prop where
  sublist : kept.Sublist row
  mem_iff : ∀ m, m ∈ kept ↔ m ∈ row ∧ keep m

/-- Of a row without repetitions only one row is left. -/
lemma IsKept.unique {keep : NodeId → Prop} (hnodup : row.Nodup) (h : IsKept keep row kept)
    (h' : IsKept keep row result) : kept = result := by
  -- Both are in the order of the row, which runs one way only.
  have hordered {l : List NodeId} (hsub : l.Sublist row) :
      l.Pairwise fun m k => [m, k].Sublist row :=
    List.pairwise_iff_forall_sublist.2 fun hpair => hpair.trans hsub
  have hperm : kept.Perm result := by
    refine (List.perm_ext_iff_of_nodup (hnodup.sublist h.sublist) (hnodup.sublist h'.sublist)).2 ?_
    intro m
    rw [h.mem_iff, h'.mem_iff]
  refine hperm.eq_of_pairwise ?_ (hordered h.sublist) (hordered h'.sublist)
  intro m k _ _ hmk hkm
  exact absurd hkm (Tree.not_sublist_of_sublist hnodup hmk)

/-- Filtering keeps what passes the test. -/
lemma isKept_filter {keep : NodeId → Prop} {p : NodeId → Bool} (hp : ∀ m, p m = true ↔ keep m)
    (row : List NodeId) : IsKept keep row (row.filter p) where
  sublist := List.filter_sublist
  mem_iff m := by rw [List.mem_filter, hp]

/-! ### Tests -/

/-- An element has a tag that a name test asks for. -/
def NameTest.Holds (t : Tree) (m : NodeId) : NameTest → Prop
  | .any => True
  | .tag name => t.tag m = name

/-- An element of a row passes a predicate.  Its place is counted from 1, in this row. -/
def Predicate.Holds (t : Tree) (row : List NodeId) (m : NodeId) : Predicate → Prop
  | .position place => ∃ before after, row = before ++ m :: after ∧ before.length + 1 = place
  | .selfTag name => t.tag m = name
  | .hasChild name => ∃ child, t.parent? child = some m ∧ t.tag child = name
  | .attribute name value =>
    ∃ actual, t.attribute? m name = some actual ∧ ∀ expected ∈ value, actual = expected

/-- A name test accepts what it holds of. -/
lemma NameTest.accepts_iff {test : NameTest} : test.accepts t m = true ↔ test.Holds t m := by
  cases test with
  | any => exact ⟨fun _ => trivial, fun _ => rfl⟩
  | tag name => exact beq_iff_eq

/-- An attribute is there if it has a value, the expected one if there is one. -/
lemma hasAttribute_iff {name : String} {value : Option String} :
    hasAttribute t m name value = true ↔
      ∃ actual, t.attribute? m name = some actual ∧ ∀ expected ∈ value, actual = expected := by
  unfold hasAttribute
  cases t.attribute? m name with
  | none => simp
  | some actual =>
    cases value with
    | none => simp
    | some expected => simp

/-- An element is the only one at its place. -/
lemma isKept_getElem? (row : List NodeId) (index : Nat) :
    IsKept (fun m => ∃ before after, row = before ++ m :: after ∧ before.length = index) row
      (row[index]?).toList where
  sublist := by
    cases hget : row[index]? with
    | none => exact List.nil_sublist row
    | some m => exact List.singleton_sublist.2 (List.mem_of_getElem? hget)
  mem_iff m := by
    rw [Option.mem_toList]
    constructor
    · intro hget
      obtain ⟨hlt, rfl⟩ := List.getElem?_eq_some_iff.1 hget
      refine ⟨List.getElem_mem hlt, row.take index, row.drop (index + 1), ?_, ?_⟩
      · rw [← List.drop_eq_getElem_cons hlt, List.take_append_drop]
      · exact List.length_take_of_le (Nat.le_of_lt hlt)
    · rintro ⟨-, before, after, rfl, rfl⟩
      simp

/-- A predicate leaves the elements that pass it. -/
lemma Predicate.isKept_filter (h : t.WellFormed) {p : Predicate} (hp : p.Writable)
    (row : List NodeId) : IsKept (fun m => p.Holds t row m) row (p.filter t row) := by
  match p, hp with
  | .position place, ⟨hplace, _⟩ =>
    -- Positions start at 1, so that nothing is lost where 1 is taken away.
    obtain ⟨index, rfl⟩ : ∃ index, place = index + 1 := ⟨place - 1, by omega⟩
    simpa only [Holds, filter, Nat.add_sub_cancel, Nat.add_right_cancel_iff] using
      isKept_getElem? row index
  | .selfTag name, _ => exact Query.isKept_filter (fun m => beq_iff_eq) row
  | .hasChild name, _ =>
    refine Query.isKept_filter (fun m => ?_) row
    simp only [List.any_eq_true, h.mem_children_iff, beq_iff_eq, Holds]
  | .attribute name value, _ => exact Query.isKept_filter (fun m => hasAttribute_iff) row

/-! ### Steps -/

/-- One predicate after the other thins out a row, each what those before it left. -/
inductive Thinned (t : Tree) : List Predicate → (row result : List NodeId) → Prop
  | nil (row : List NodeId) : Thinned t [] row row
  | cons {p : Predicate} {ps : List Predicate} {row kept result : List NodeId}
      (hkept : IsKept (fun m => p.Holds t row m) row kept) (hthinned : Thinned t ps kept result) :
      Thinned t (p :: ps) row result

/-- The row that a step from `n` comes to. -/
def Step.ComesTo (t : Tree) (s : Step) (n : NodeId) (result : List NodeId) : Prop :=
  ∃ row named, s.axis.IsRow t n row ∧ IsKept (fun m => s.test.Holds t m) row named ∧
    Thinned t s.predicates named result

/-- Predicates compute the one row that they thin out another to. -/
lemma thinned_iff (h : t.WellFormed) {ps : List Predicate} (hps : ∀ p ∈ ps, p.Writable)
    (hnodup : row.Nodup) :
    Thinned t ps row result ↔ result = ps.foldl (Predicate.filter t) row := by
  induction ps generalizing row with
  | nil =>
    constructor
    · intro hthinned
      cases hthinned
      rfl
    · rintro rfl
      exact .nil _
  | cons p ps ih =>
    have hkept := Predicate.isKept_filter h (hps p (List.mem_cons_self ..)) row
    have ih := ih (fun q hq => hps q (List.mem_cons_of_mem _ hq)) (hnodup.sublist hkept.sublist)
    rw [List.foldl_cons, ← ih]
    constructor
    · intro hthinned
      cases hthinned with
      | cons hkept' hthinned => rwa [hkept.unique hnodup hkept']
    · intro hthinned
      exact .cons hkept hthinned

/-- A step computes the one row that it comes to. -/
theorem Step.comesTo_iff (h : t.WellFormed) {s : Step} (hs : s.Writable) :
    s.ComesTo t n result ↔ result = s.select t n := by
  have hrow := s.axis.nodup_select h n
  have hnamed : IsKept (fun m => s.test.Holds t m) (s.axis.select t n)
      ((s.axis.select t n).filter (s.test.accepts t)) :=
    isKept_filter (fun m => NameTest.accepts_iff) _
  rw [Step.select, ← thinned_iff h hs.predicates (hrow.sublist hnamed.sublist)]
  constructor
  · rintro ⟨row, named, hrow', hnamed', hresult⟩
    obtain rfl := (Axis.isRow_iff h).1 hrow'
    rwa [hnamed.unique hrow hnamed']
  · intro hresult
    exact ⟨_, _, (Axis.isRow_iff h).2 rfl, hnamed, hresult⟩

/-! ### The elements reached so far -/

variable {selected more contexts : List NodeId}

/-- The first of the new elements is added unless it is there. -/
lemma addNew_cons (selected : List NodeId) (n : NodeId) (more : List NodeId) :
    addNew selected (n :: more) =
      addNew (if n ∈ selected then selected else selected ++ [n]) more := by
  simp [addNew]

/-- Selected are the elements from before and the new ones. -/
lemma mem_addNew : m ∈ addNew selected more ↔ m ∈ selected ∨ m ∈ more := by
  induction more generalizing selected with
  | nil => simp [addNew]
  | cons n more ih =>
    rw [addNew_cons, ih, List.mem_cons]
    by_cases hn : n ∈ selected
    · rw [if_pos hn]
      constructor
      · rintro (hm | hm)
        · exact Or.inl hm
        · exact Or.inr (Or.inr hm)
      · rintro (hm | rfl | hm)
        · exact Or.inl hm
        · exact Or.inl hn
        · exact Or.inr hm
    · rw [if_neg hn, List.mem_append, List.mem_singleton, or_assoc]

/-- Nothing is selected twice. -/
lemma nodup_addNew (hnodup : selected.Nodup) : (addNew selected more).Nodup := by
  induction more generalizing selected with
  | nil => exact hnodup
  | cons n more ih =>
    rw [addNew_cons]
    apply ih
    split
    · exact hnodup
    · next hn => simpa using hnodup.concat hn

/-- All of a row is added if nothing in it is there. -/
lemma addNew_eq_append (hnodup : (selected ++ more).Nodup) :
    addNew selected more = selected ++ more := by
  induction more generalizing selected with
  | nil => simp [addNew]
  | cons n more ih =>
    have hn : n ∉ selected := by
      intro hn
      exact (List.nodup_append.1 hnodup).2.2 n hn n (List.mem_cons_self ..) rfl
    rw [addNew_cons, if_neg hn, ih (by simpa using hnodup), List.append_assoc,
      List.singleton_append]

/-- A step from all elements reached so far comes to all that it comes to from one of them, without
repetition. -/
lemma mem_selectAll {s : Step} : m ∈ s.selectAll t contexts ↔ ∃ n ∈ contexts, m ∈ s.select t n := by
  -- What has been selected before an element's turn is arbitrary, for the induction.
  have hfold (selected : List NodeId) :
      m ∈ contexts.foldl (fun selected n => addNew selected (s.select t n)) selected ↔
        m ∈ selected ∨ ∃ n ∈ contexts, m ∈ s.select t n := by
    induction contexts generalizing selected with
    | nil => simp
    | cons n contexts ih => simp [ih, mem_addNew, or_assoc]
  rw [Step.selectAll, hfold]
  simp

/-- A step selects nothing twice. -/
lemma nodup_selectAll (t : Tree) (contexts : List NodeId) (s : Step) :
    (s.selectAll t contexts).Nodup := by
  have hfold (selected : List NodeId) (hnodup : selected.Nodup) :
      (contexts.foldl (fun selected n => addNew selected (s.select t n)) selected).Nodup := by
    induction contexts generalizing selected with
    | nil => exact hnodup
    | cons n contexts ih => exact ih _ (nodup_addNew hnodup)
  exact hfold [] List.nodup_nil

/-- Nor do steps one after the other. -/
lemma nodup_foldl_selectAll (t : Tree) (steps : List Step) (hnodup : contexts.Nodup) :
    (steps.foldl (Step.selectAll t) contexts).Nodup := by
  induction steps generalizing contexts with
  | nil => exact hnodup
  | cons s steps ih => exact ih (nodup_selectAll t contexts s)

/-! ### Paths -/

/-- A row of steps leads from an element to another, over elements of which each is in the row that a
step from the one before comes to. -/
inductive Leads (t : Tree) : List Step → (n m : NodeId) → Prop
  | nil (n : NodeId) : Leads t [] n n
  | cons {s : Step} {steps : List Step} {n k m : NodeId} {row : List NodeId}
      (hrow : s.ComesTo t n row) (hk : k ∈ row) (hleads : Leads t steps k m) :
      Leads t (s :: steps) n m

/-- The steps of a query, taken from all elements reached so far, reach all that they lead to from one
of them. -/
theorem mem_foldl_selectAll (h : t.WellFormed) {steps : List Step} (hsteps : ∀ s ∈ steps, s.Writable) :
    m ∈ steps.foldl (Step.selectAll t) contexts ↔ ∃ n ∈ contexts, Leads t steps n m := by
  induction steps generalizing contexts with
  | nil =>
    constructor
    · intro hm
      exact ⟨m, hm, .nil m⟩
    · rintro ⟨n, hn, ⟨⟩⟩
      exact hn
  | cons s steps ih =>
    have hs := hsteps s (List.mem_cons_self ..)
    rw [List.foldl_cons, ih fun s' hs' => hsteps s' (List.mem_cons_of_mem _ hs')]
    constructor
    -- Whichever element `k` was reached from, the way goes on from it alike.
    · rintro ⟨k, hk, hleads⟩
      obtain ⟨n, hn, hk⟩ := mem_selectAll.1 hk
      exact ⟨n, hn, .cons ((Step.comesTo_iff h hs).2 rfl) hk hleads⟩
    · rintro ⟨n, hn, _ | ⟨hrow, hk, hleads⟩⟩
      rw [(Step.comesTo_iff h hs).1 hrow] at hk
      exact ⟨_, mem_selectAll.2 ⟨n, hn, hk⟩, hleads⟩

/-! ### Queries -/

/-- A query holds of an element if it selects something from there. -/
lemma holds_iff {q : Query} : q.holds t n = true ↔ ∃ m, m ∈ q.select t n := by
  rw [holds, Bool.not_eq_true', List.isEmpty_eq_false_iff_exists_mem]

/-- A path of one step selects what the step does. -/
lemma mem_select_singleton {source : String} {s : Step} :
    m ∈ select ⟨source, .path [s]⟩ t n ↔ m ∈ s.select t n := by
  rw [select, Expr.select, List.foldl_cons, List.foldl_nil, mem_selectAll]
  simp

/-- The written form of a query is read as this query. -/
lemma parse_of_eq_write {source : String} {e : Expr} (h : e.Writable) (hsource : source = e.write) :
    parse source = .ok ⟨source, e⟩ := by
  rw [parse, hsource, h.parse_write]
  rfl

/-- The query for the sibling right before an element, if it has this tag. -/
def previousNamed (name : String) : Query :=
  ⟨"preceding-sibling::*[1][self::" ++ name ++ "]",
    .path [⟨.precedingSibling, .any, [.position 1, .selfTag name]⟩]⟩

/-- The query for the previous sibling is read from its text. -/
lemma parse_previousNamed {name : String} (hname : IsName name) :
    parse (previousNamed name).source = .ok (previousNamed name) := by
  apply parse_of_eq_write
  · have hpredicates : ∀ p ∈ [.position 1, .selfTag name], Predicate.Writable p := by
      simpa [Predicate.Writable] using hname
    exact ⟨by simp, List.forall_mem_singleton.2 ⟨trivial, hpredicates⟩⟩
  · have hfront : "preceding-sibling::*[1][self::".toList = "preceding-sibling::".toList ++
        ("*".toList ++ ('[' :: '1' :: ']' :: '[' :: "self::".toList)) := by decide
    apply String.toList_injective
    unfold previousNamed
    rw [toList_writePath, toList_writeStep]
    simp only [hfront, String.toList_append, Axis.write, NameTest.write, bracketed, Predicate.write,
      List.flatMap_cons, List.flatMap_nil, List.append_assoc, List.cons_append, List.nil_append,
      List.append_nil]
    rfl

/-- It holds if the previous sibling has that name. -/
lemma holds_previousNamed (name : String) (t : Tree) (n : NodeId) :
    (previousNamed name).holds t n = true ↔
      ∃ m, t.previousSibling? n = some m ∧ t.tag m = name := by
  rw [holds_iff]
  refine exists_congr fun m => mem_select_singleton.trans ?_
  rw [Tree.previousSibling?, List.head?_eq_getElem?]
  simp [Step.select, Axis.select, NameTest.accepts, Predicate.filter]

/-- Evaluation agrees with the meaning of paths.  A step has one row that it comes to, which is the one
computed.  A query for a path selects, without repetition, the elements that the path leads to, and holds
if there is one.  So the query `preceding-sibling::*[1][self::name]` holds of an element exactly if there
is a sibling right before it and it has this tag. -/
theorem select_iff_leads (t : Tree) (h : t.WellFormed) :
    (∀ source q steps, parse source = .ok q → q.expr = .path steps →
      (∀ s ∈ steps, ∀ n row, s.ComesTo t n row ↔ row = s.select t n) ∧
        ∀ n, (q.select t n).Nodup ∧
          (∀ m, m ∈ q.select t n ↔ Leads t steps n m) ∧
          (q.holds t n = true ↔ ∃ m, Leads t steps n m)) ∧
      ∀ name, IsName name → ∃ q,
        parse ("preceding-sibling::*[1][self::" ++ name ++ "]") = .ok q ∧
          ∀ n, q.holds t n = true ↔ ∃ m, t.previousSibling? n = some m ∧ t.tag m = name := by
  constructor
  · intro source q steps hparse hpath
    obtain ⟨e, he, rfl⟩ := Program.exists_of_map_eq_ok hparse
    obtain rfl : e = .path steps := hpath
    have hsteps := (Expr.writable_of_parse he).2
    refine ⟨fun s hs n row => Step.comesTo_iff h (hsteps s hs), fun n => ?_⟩
    have hmem (m : NodeId) :
        m ∈ select ⟨source, .path steps⟩ t n ↔ Leads t steps n m := by
      rw [select, Expr.select, mem_foldl_selectAll h hsteps]
      simp
    refine ⟨nodup_foldl_selectAll t steps (List.nodup_singleton n), hmem, ?_⟩
    rw [holds_iff]
    exact exists_congr hmem
  · intro name hname
    exact ⟨previousNamed name, parse_previousNamed hname, holds_previousNamed name t⟩

/-- The query for the second bold element among the children, written in a roundabout way that comes
back to the element itself from each of them. -/
def secondBold : Query :=
  ⟨"*/../*[self::bold][2]", .path [⟨.child, .any, []⟩, ⟨.parent, .any, []⟩,
    ⟨.child, .any, [.selfTag "bold", .position 2]⟩]⟩

/-- In `specimen`, the paragraph is reached from both of its children but counts once, and a bold stands
right before its second bold, but not before its first. -/
theorem select_iff_leads_secondBold :
    Tree.specimen.WellFormed ∧ parse secondBold.source = .ok secondBold ∧
      secondBold.select Tree.specimen 1 = [4] ∧
      (∃ m, Leads Tree.specimen [⟨.child, .any, []⟩, ⟨.parent, .any, []⟩,
        ⟨.child, .any, [.selfTag "bold", .position 2]⟩] 1 m) ∧
      IsName "bold" ∧
      ∃ q, parse "preceding-sibling::*[1][self::bold]" = .ok q ∧
        q.holds Tree.specimen 4 = true ∧ ¬ q.holds Tree.specimen 2 = true := by
  have hparse : parse secondBold.source = .ok secondBold := by decide +kernel
  have hselect : secondBold.select Tree.specimen 1 = [4] := by decide +kernel
  have hbold : IsName "bold" := by decide +kernel
  obtain ⟨hpath, hprevious⟩ := select_iff_leads Tree.specimen Tree.wellFormed_specimen
  obtain ⟨-, hleads, -⟩ := (hpath _ _ _ hparse rfl).2 1
  obtain ⟨q, hq, hholds⟩ := hprevious "bold" hbold
  refine ⟨Tree.wellFormed_specimen, hparse, hselect, ⟨4, (hleads 4).1 ?_⟩, hbold, q, hq,
    (hholds 4).2 ⟨2, by decide, by decide⟩, ?_⟩
  · rw [hselect]
    exact List.mem_singleton_self 4
  · intro htrue
    obtain ⟨m, hm, -⟩ := (hholds 2).1 htrue
    have hfirst : Tree.specimen.previousSibling? 2 = none := by decide
    rw [hfirst] at hm
    cases hm

/-! ### Opposite axes -/

/-- The query for all that an axis leads to. -/
def Axis.query (axis : Axis) : Query :=
  ⟨axis.write ++ "*", .path [⟨axis, .any, []⟩]⟩

/-- The query for an axis is read from its text. -/
lemma parse_axisQuery (axis : Axis) : parse axis.query.source = .ok axis.query := by
  apply parse_of_eq_write
  · exact ⟨by simp, List.forall_mem_singleton.2 ⟨trivial, by simp⟩⟩
  · cases axis <;> rfl

/-- It selects what the axis does. -/
lemma select_axisQuery (h : t.WellFormed) (axis : Axis) (n : NodeId) :
    axis.query.select t n = axis.select t n := by
  have hstep : (⟨axis, .any, []⟩ : Step).select t n = axis.select t n := by
    simp [Step.select, NameTest.accepts]
  have hadd : addNew [] (axis.select t n) = axis.select t n :=
    addNew_eq_append (axis.nodup_select h n)
  simpa [Axis.query, select, Expr.select, Step.selectAll, hstep] using hadd

/-- Opposite axes agree.  Each axis has a query for all that it leads to, which selects what the axis
lists; it selects one element from another exactly if the query for the opposite axis selects this one
from that; and the preceding siblings in document order, the element and its following siblings make up
the children of its parent. -/
theorem opposite_axes_agree (t : Tree) (h : t.WellFormed) :
    (∀ axis : Axis, parse (axis.write ++ "*") = .ok axis.query) ∧
      (∀ axis : Axis, ∀ n, axis.query.select t n = axis.select t n) ∧
      (∀ axis : Axis, ∀ a b, b ∈ axis.query.select t a ↔ a ∈ axis.opposite.query.select t b) ∧
      ∀ n parent, t.parent? n = some parent →
        (Axis.precedingSibling.query.select t n).reverse ++
          n :: Axis.followingSibling.query.select t n = t.children parent := by
  refine ⟨parse_axisQuery, fun axis n => select_axisQuery h axis n, ?_, ?_⟩
  · intro axis a b
    rw [select_axisQuery h, select_axisQuery h]
    exact (axis.mem_select_opposite h).symm
  · intro n parent hp
    rw [select_axisQuery h, select_axisQuery h]
    exact Tree.reverse_precedingSiblings_append h hp

/-- In `specimen`, the emphasis lies below the paragraph, which therefore lies around it, and the second
bold has the first before it and nothing behind it. -/
theorem opposite_axes_agree_specimen :
    Tree.specimen.WellFormed ∧ 3 ∈ Axis.descendant.query.select Tree.specimen 1 ∧
      1 ∈ Axis.ancestor.query.select Tree.specimen 3 ∧ Tree.specimen.parent? 4 = some 1 ∧
      (Axis.precedingSibling.query.select Tree.specimen 4).reverse ++
        4 :: Axis.followingSibling.query.select Tree.specimen 4 = [2, 4] := by
  obtain ⟨-, -, hopposite, hchildren⟩ :=
    opposite_axes_agree Tree.specimen Tree.wellFormed_specimen
  have hbelow : 3 ∈ Axis.descendant.query.select Tree.specimen 1 := by decide +kernel
  exact ⟨Tree.wellFormed_specimen, hbelow, (hopposite .descendant 1 3).1 hbelow, by decide,
    hchildren 4 1 (by decide)⟩

end DoxygenRest.Query

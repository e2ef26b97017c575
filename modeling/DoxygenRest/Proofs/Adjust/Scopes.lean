import DoxygenRest.Proofs.Adjust.Outside
import DoxygenRest.Proofs.Adjust.SectionTitles
import DoxygenRest.Proofs.Bindings
import DoxygenRest.Proofs.Branch.Roll

/-!
# The pass keeps namespaces in scope

The pass lifts elements out of others, divides them and merges them, and none of this changes which
namespaces are in scope at an element that was there before (`namespaces_of_adjust`).  What is in
scope is read off the labels along a path (`inScope`), and each step changes paths in few ways
(`Step.listedBefore`): a division copies the label of the divided element, a merge asks that the same
namespaces are in scope in both sections, and an element that is lifted loses the label of inline
markup, which is asked to declare no namespace.
-/

namespace DoxygenRest

open Branch

/-! ### Declarations along a path -/

namespace Bindings

/-- An element without declarations adds nothing to a scope. -/
lemma union_empty (b : Bindings) : b.union .empty = b := rfl

/-- A name is looked up among the inner declarations first. -/
lemma get?_union (b c : Bindings) (name : String) :
    (b.union c).get? name = (c.get? name).or (b.get? name) := by
  have hentries : c.get? name = c.entries.reverse.lookup name := by
    rw [← get?_ofList, ofList_entries]
  rw [union, get?_insertAll, hentries]

end Bindings

/-- What is in scope inside of elements with these labels, the innermost first, given what is in scope
around them. -/
def inScope (scope : Bindings) (ls : List Label) : Bindings :=
  ls.foldr (fun l scope => scope.union l.namespaces) scope

variable {scope : Bindings} {ls ls' : List Label}

/-- An element is in the scope of its ancestors and its own declarations. -/
lemma inScope_cons (scope : Bindings) (l : Label) (ls : List Label) :
    inScope scope (l :: ls) = (inScope scope ls).union l.namespaces := rfl

/-- What is in scope below two chains is found by going down one behind the other. -/
lemma inScope_append (scope : Bindings) (ls ls' : List Label) :
    inScope scope (ls ++ ls') = inScope (inScope scope ls') ls :=
  List.foldr_append

/-- For each name, the nearest declaration is in scope. -/
lemma get?_inScope_empty (ls : List Label) (name : String) :
    (inScope .empty ls).get? name = ls.findSome? fun l => l.namespaces.get? name := by
  induction ls with
  | nil => rfl
  | cons l ls ih =>
    rw [inScope_cons, Bindings.get?_union, ih, List.findSome?_cons]
    cases l.namespaces.get? name <;> rfl

/-- The elements on a roll, each with what is in scope at it. -/
def scopes (scope : Bindings) (roll : List (NodeId × List Label)) : List (NodeId × Bindings) :=
  roll.map fun i => (i.1, inScope scope i.2)

@[simp] lemma scopes_cons (scope : Bindings) (i : NodeId × List Label)
    (is : List (NodeId × List Label)) :
    scopes scope (i :: is) = (i.1, inScope scope i.2) :: scopes scope is := rfl

@[simp] lemma scopes_append (scope : Bindings) (is js : List (NodeId × List Label)) :
    scopes scope (is ++ js) = scopes scope is ++ scopes scope js :=
  List.map_append

/-- Of what lies around a branch only matters what is in scope. -/
lemma scopes_roll_congr (h : inScope scope ls = inScope scope ls') (b : Branch) :
    scopes scope (b.roll ls) = scopes scope (b.roll ls') := by
  induction b using Branch.induction generalizing ls ls' with
  | step n e cs ih =>
    have hinside : inScope scope (e.label :: ls) = inScope scope (e.label :: ls') := by
      rw [inScope_cons, inScope_cons, h]
    rw [roll_node, roll_node, scopes_cons, scopes_cons, hinside, rollAll_eq_flatMap,
      rollAll_eq_flatMap, scopes, scopes, List.map_flatMap, List.map_flatMap]
    congr 1
    exact List.flatMap_congr fun c hc => ih c hc hinside

/-- The scopes of a row depend on its ancestors only by what is in scope below them. -/
lemma scopes_rollAll_congr (h : inScope scope ls = inScope scope ls') (bs : List Branch) :
    scopes scope (rollAll ls bs) = scopes scope (rollAll ls' bs) := by
  induction bs with
  | nil => simp
  | cons b bs ih => rw [rollAll_cons, rollAll_cons, scopes_append, scopes_append, ih,
      scopes_roll_congr h b]

namespace Tree

variable {t : Tree} {root : NodeId}

/-- The scope the editor meets at an element is made of the declarations along its chain. -/
lemma scope_context (t : Tree) (n : NodeId) :
    (Adjust.context t n).scope = inScope .empty (t.chain n) := by
  rw [Adjust.context, inScope, chain]
  induction t.ancestors n with
  | nil => rfl
  | cons a as ih =>
    rw [List.foldr_cons, List.map_cons, List.foldr_cons, ← ih]
    rfl

/-- The namespaces in scope at an element are those of its path. -/
lemma namespaces_eq_inScope (t : Tree) (n : NodeId) :
    t.namespaces n = inScope .empty (t.path n) := by
  rw [Adjust.namespaces_eq, scope_context]
  rfl

/-- In scope is, for each name, the nearest declaration. -/
theorem get?_namespaces (t : Tree) (n : NodeId) (name : String) :
    (t.namespaces n).get? name =
      (n :: t.ancestors n).findSome? fun a => (t.declaredNamespaces a).get? name := by
  rw [namespaces_eq_inScope, get?_inScope_empty, path, chain, ← List.map_cons, List.findSome?_map]
  rfl

/-- In a subtree, the roll tells what is in scope at each element. -/
lemma scopes_branch (h : t.WellFormed) (root : NodeId) :
    scopes (Adjust.context t root).scope ((t.branch root).roll []) =
      (t.branch root).numbers.map fun n => (n, t.namespaces n) := by
  calc scopes (Adjust.context t root).scope ((t.branch root).roll [])
      = scopes .empty ((t.branch root).roll (t.chain root)) := by
        have happend := roll_append [] (t.chain root) (t.branch root)
        rw [List.nil_append] at happend
        rw [happend, scopes, scopes, List.map_map, scope_context]
        refine List.map_congr_left fun i _ => ?_
        rw [Function.comp_apply, inScope_append]
    _ = (t.branch root).numbers.map fun n => (n, t.namespaces n) := by
        rw [roll_branch h, scopes, List.map_map]
        refine List.map_congr_left fun n _ => ?_
        rw [Function.comp_apply, namespaces_eq_inScope]

end Tree

namespace Adjust

variable {outer : Context} {x y : Branch} {f : Frame} {fs : List Frame} {fresh : NodeId}

/-- The scope the editor meets in a hole is made of the declarations on the frames. -/
lemma scope_contextAt (outer : Context) (fs : List Frame) :
    (contextAt outer fs).scope = inScope outer.scope (labelsAround [] fs) := by
  induction fs with
  | nil => rfl
  | cons f fs ih =>
    rw [contextAt, Context.inside, ih]
    rfl

/-- Trimming an element takes nothing off a roll. -/
lemma roll_trimmed (ls : List Label) (x : Branch) (text : String) :
    (trimmed x text).roll ls = x.roll ls := by
  rw [roll_eq, roll_eq _ x]
  rfl

/-! ### Steps -/

/-- But for the new element, all that is listed was listed before. -/
def ListedBefore (fresh : NodeId) (old new : List (NodeId × Bindings)) : Prop :=
  ∀ i ∈ new, i.1 ≠ fresh → i ∈ old

namespace ListedBefore

variable {old new pre post : List (NodeId × Bindings)}

/-- Nothing new is listed where the elements listed are among the old ones. -/
lemma of_subset (h : new ⊆ old) : ListedBefore fresh old new :=
  fun _ hi _ => h hi

/-- What is listed around two rolls may be the same on both sides. -/
lemma around (h : ListedBefore fresh old new) (pre post : List (NodeId × Bindings)) :
    ListedBefore fresh (pre ++ (old ++ post)) (pre ++ (new ++ post)) := by
  intro i hi hne
  simp only [List.mem_append] at hi ⊢
  exact hi.imp_right fun hi => hi.imp_left fun hi => h i hi hne

/-- What is listed of a branch was listed before if what is listed of a part of it was. -/
lemma plugged (fs : List Frame)
    (h : ListedBefore fresh (scopes scope (x.roll (labelsAround [] fs)))
      (scopes scope (y.roll (labelsAround [] fs)))) :
    ListedBefore fresh (scopes scope ((plug fs x).roll []))
      (scopes scope ((plug fs y).roll [])) := by
  obtain ⟨pre, post, hroll⟩ := exists_roll_plug [] fs
  rw [hroll, hroll, scopes_append, scopes_append, scopes_append, scopes_append]
  exact h.around _ _

/-- What is listed of an element was listed before if what is listed of a row of its children was. -/
lemma fillRow {xs ys : List Branch} (f : Frame)
    (h : ListedBefore fresh (scopes scope (rollAll (f.own.label :: ls) xs))
      (scopes scope (rollAll (f.own.label :: ls) ys))) :
    ListedBefore fresh (scopes scope ((f.fillRow xs).roll ls))
      (scopes scope ((f.fillRow ys).roll ls)) := by
  obtain ⟨pre, post, hroll⟩ := f.exists_roll_fillRow ls
  rw [hroll, hroll, scopes_append, scopes_append, scopes_append, scopes_append]
  exact h.around _ _

end ListedBefore

/-- Nothing new is listed when elements of a branch take its place, whatever text is put before
them. -/
lemma listedBefore_shrunk {row : List Branch} (f : Frame) (fs : List Frame) (more : String)
    (hrow : rollAll (labelsAround [] (f :: fs)) row ⊆ x.roll (labelsAround [] (f :: fs))) :
    ListedBefore fresh (scopes scope ((plug (f :: fs) x).roll []))
      (scopes scope ((plug fs ((f.extendBefore more).fillRow row)).roll [])) := by
  refine ListedBefore.plugged fs ?_
  rw [Frame.roll_fillRow_extendBefore, ← Frame.fillRow_singleton]
  refine ListedBefore.fillRow f (ListedBefore.of_subset (List.map_subset _ ?_))
  rw [rollAll_cons, rollAll_nil, List.append_nil]
  exact hrow

/-- A division lists the new element, and nothing else that is new. -/
lemma listedBefore_divided {row : List Branch}
    (hrow : ∃ pre post label, x.roll (labelsAround [] (f :: fs)) = pre ++ post ∧
      rollAll (labelsAround [] (f :: fs)) row = pre ++ (fresh, label) :: post) :
    ListedBefore fresh (scopes scope ((plug (f :: fs) x).roll []))
      (scopes scope ((plug fs (f.fillRow row)).roll [])) := by
  obtain ⟨pre, post, label, hold, hnew⟩ := hrow
  rw [plug_cons, ← Frame.fillRow_singleton]
  refine ListedBefore.plugged fs (ListedBefore.fillRow f ?_)
  rw [rollAll_cons, rollAll_nil, List.append_nil, ← labelsAround, hold, hnew]
  intro i hi hne
  rw [scopes_append, scopes_cons, List.mem_append, List.mem_cons] at hi
  rw [scopes_append, List.mem_append]
  rcases hi with hi | rfl | hi
  · exact Or.inl hi
  · exact absurd rfl hne
  · exact Or.inr hi

/-- A lift out of an element that declares no namespaces lists the new element, and nothing else that
is new. -/
lemma listedBefore_lifted {ys : List Branch} (hchildren : x.children = y :: ys)
    (hnone : x.own.namespaces = .empty) :
    ListedBefore fresh (scopes scope ((plug (f :: fs) x).roll []))
      (scopes scope
        ((plug fs (f.fillRow (Frame.lift ⟨x.number, x.own, [], ys⟩ fresh y))).roll [])) := by
  obtain ⟨pre, post, added, hold, hnew, hadded⟩ :=
    exists_rollAll_lift (labelsAround [] (f :: fs)) ⟨x.number, x.own, [], ys⟩ fresh y
  rw [Frame.fill_eq_of_children_cons hchildren] at hold
  -- The label that an element loses declares nothing.
  have hinside (outer : List Label) :
      inScope scope (x.own.label :: outer) = inScope scope outer := by
    rw [inScope_cons, Entry.label, hnone, Bindings.union_empty]
  rw [plug_cons, ← Frame.fillRow_singleton]
  refine ListedBefore.plugged fs (ListedBefore.fillRow f ?_)
  rw [rollAll_cons, rollAll_nil, List.append_nil, ← labelsAround, hold, hnew]
  simp only [scopes_append, scopes_roll_congr (hinside _) y]
  intro i hi hne
  simp only [List.mem_append] at hi ⊢
  rcases hi with hi | hi | hi | hi
  · exact Or.inl hi
  · exact Or.inr (Or.inl hi)
  · obtain ⟨j, hj, rfl⟩ := List.mem_map.1 hi
    rw [List.mem_singleton.1 (hadded hj)] at hne
    exact absurd rfl hne
  · exact Or.inr (Or.inr hi)

/-- A merge of two elements with the same namespaces in scope lists nothing new. -/
lemma listedBefore_merged {prev : Branch} {rest : List Branch} (hbefore : f.before = prev :: rest)
    (hscope : inScope scope (prev.own.label :: labelsAround [] (f :: fs)) =
      inScope scope (x.own.label :: labelsAround [] (f :: fs))) :
    ListedBefore fresh (scopes scope ((plug (f :: fs) x).roll []))
      (scopes scope ((plug ({ f with before := rest } :: fs) (prev.absorb x)).roll [])) := by
  have hpair : f.fill x = { f with before := rest }.fillRow [prev, x] := by
    rw [Frame.fillRow_pair_eq_fill_second, ← hbefore]
  rw [plug_cons, plug_cons, hpair, ← Frame.fillRow_singleton]
  refine ListedBefore.plugged fs (ListedBefore.fillRow _ (ListedBefore.of_subset ?_))
  rw [rollAll_cons, rollAll_nil, List.append_nil, roll_absorb, rollAll_cons, rollAll_cons,
    rollAll_nil, List.append_nil, roll_eq _ x]
  have hsame := scopes_rollAll_congr hscope x.children
  rw [labelsAround] at hsame
  simp only [scopes_append, scopes_cons, hsame]
  simp

/-- Every step keeps what is in scope at each element, if inline markup declares no namespaces. -/
theorem Step.listedBefore {l : Location} {o : Outcome} (hstep : Step outer fresh l o)
    (hinline : l.focus.own.tag ∈ Schema.inlineTags → l.focus.own.namespaces = .empty) :
    ListedBefore fresh (scopes outer.scope ((Outcome.standing l).whole.roll []))
      (scopes outer.scope (o.whole.roll [])) := by
  -- Elements that are merged open the same scope, so what goes over to the other one stays in scope
  -- of the same declarations.
  have hscope {prev x : Branch} {fs : List Frame}
      (h : Mergeable (contextAt outer fs) prev.own x.own) :
      inScope outer.scope (prev.own.label :: labelsAround [] fs) =
        inScope outer.scope (x.own.label :: labelsAround [] fs) := by
    rw [inScope_cons, inScope_cons, ← scope_contextAt]
    exact h.2.2
  have hrefl {b : Branch} : ListedBefore fresh (scopes outer.scope (b.roll []))
      (scopes outer.scope (b.roll [])) :=
    ListedBefore.of_subset (List.Subset.refl _)
  -- A step that takes elements away lists a part of what was there. Lifting and merging give an
  -- element another parent with the same scope, and only a division lists a new element, in the
  -- scope of the one that was divided.
  cases hstep with
  | @replace x f fs text hτ =>
    rw [whole_skip, Frame.extendBefore_extendBefore]
    exact listedBefore_shrunk f fs _ (List.nil_subset _)
  | @remove x f fs hτ hmore =>
    rw [whole_skip]
    exact listedBefore_shrunk f fs _ (List.nil_subset _)
  | @removeLast x f fs hτ hbelow hempty => exact listedBefore_shrunk f fs _ (List.nil_subset _)
  | @flatten x fs hτ =>
    refine ListedBefore.plugged fs (ListedBefore.of_subset (List.map_subset _ ?_))
    rw [roll_node, rollAll_nil, roll_eq _ x]
    exact List.cons_subset_cons _ (List.nil_subset _)
  | @lift x y front ys rest f fs hτ hchildren _ hrow =>
    cases groundsAt hτ with
    | nested href htag hne =>
      change ListedBefore fresh _
        (scopes outer.scope ((plug fs (f.fillRow (front :: rest))).roll []))
      rw [← hrow]
      -- The parent that is left behind is inline, and so it declares nothing.
      exact listedBefore_lifted hchildren (hinline htag)
  | @trim x f fs text hτ htext =>
    change ListedBefore fresh _ (scopes outer.scope
      ((plug fs ((f.extendBefore (Text.splitBlanks text).1).fillRow [trimmed x text])).roll []))
    refine listedBefore_shrunk f fs _ ?_
    rw [rollAll_cons, rollAll_nil, List.append_nil, roll_trimmed]
    exact List.Subset.refl _
  | @trimRoot x text hτ htext =>
    rw [Outcome.whole, Outcome.whole, plug_nil, plug_nil, roll_trimmed]
    exact hrefl
  | @absorb x y prev ys rest f fs hτ hbefore hmergeable hchildren =>
    change ListedBefore fresh _
      (scopes outer.scope ((plug ({ f with before := rest } :: fs) (Frame.fill _ y)).roll []))
    rw [Frame.fill_absorb prev hchildren]
    exact listedBefore_merged hbefore (hscope hmergeable)
  | @absorbLeaf x prev rest f fs hτ hbefore hmergeable hchildren =>
    rw [whole_leave]
    exact listedBefore_merged hbefore (hscope hmergeable)
  | keep hτ hbefore hdiffer =>
    rw [whole_enter]
    exact hrefl
  | @divideBefore x y front back ys zs f fs hτ hchildren hfront hrow =>
    obtain ⟨pre, post, hold, hnew⟩ := exists_rollAll_splitBefore (labelsAround [] (f :: fs))
      ⟨x.number, x.own, ys.reverse, zs⟩ fresh y
    rw [Frame.fill_eq_of_children hchildren] at hold
    rw [hrow] at hnew
    exact listedBefore_divided ⟨pre, post, _, hold, hnew⟩
  | @divideBehind x y front back ys zs f fs hτ hchildren htail hrow =>
    obtain ⟨pre, post, hold, hnew⟩ := exists_rollAll_splitAfterTail (labelsAround [] (f :: fs))
      ⟨x.number, x.own, ys.reverse, zs⟩ fresh y
    rw [Frame.fill_eq_of_children hchildren] at hold
    rw [hrow] at hnew
    exact listedBefore_divided ⟨pre, post, _, hold, hnew⟩
  | undivided hτ hcontent =>
    rw [whole_enter]
    exact hrefl
  | advance hτ =>
    rw [whole_enter]
    exact hrefl

/-! ### The pass -/

/-- Inline markup declares no namespace. -/
def Undeclaring (_highlighted : Bool) (x : Branch) : Prop :=
  x.own.tag ∈ Schema.inlineTags → x.own.namespaces = .empty

/-- Dividing an inline element keeps it free of declarations. -/
lemma divisible_undeclaring : Divisible Undeclaring where
  part hx halike _ := by
    intro htag
    rw [halike.namespaces]
    exact hx (halike.tag ▸ htag)
  bare _ htag _ := fun hinline => absurd hinline htag

variable {t t' : Tree} {root n : NodeId}

/-- What each step keeps: inline markup ahead declares no namespace, and at each element of the
beginning the same namespaces are in scope as at the beginning. -/
structure Outcome.Scoped (t : Tree) (outer : Context) (o : Outcome) : Prop where
  orderly : o.Orderly Undeclaring outer
  namespaces : ∀ i ∈ scopes outer.scope (o.whole.roll []), i.1 < t.size → i.2 = t.namespaces i.1

/-- Every step keeps what is in scope at the elements of the beginning. -/
lemma Step.keepsScopes {l : Location} {o : Outcome} (hfresh : t.size ≤ fresh)
    (hstep : Step outer fresh l o) (h : (Outcome.standing l).Scoped t outer) :
    o.Scoped t outer where
  orderly := hstep.orderly divisible_undeclaring h.orderly
  namespaces i hi hold := by
    have hundeclaring := (throughout_iff.1 h.orderly.1).1
    have hne : i.1 ≠ fresh := Nat.ne_of_lt (Nat.lt_of_lt_of_le hold hfresh)
    exact h.namespaces i (hstep.listedBefore hundeclaring i hi hne) hold

/-- A root that is inline markup has nothing below it after the pass. -/
lemma notMem_inlineTags_of_adjust (h : t.WellFormed) (hrun : adjust root t = .ok () t')
    (hn : root ∈ t'.ancestors n) : t.tag root ∉ Schema.inlineTags := by
  obtain ⟨h', -, hcleared⟩ := gathered_of_adjust h hrun
  have htag : (t'.branch root).own.tag = (t.branch root).own.tag :=
    (keeps_of_adjust h hrun (I := fun o => o.whole.own.tag = (t.branch root).own.tag)
      (fun hstep hold => hstep.tag_whole.trans hold) rfl).2.2
  intro hinline
  rw [Tree.own_branch h] at htag
  have hchildren : (t'.branch root).children = [] :=
    (throughout_iff.1 hcleared).1.flat (htag ▸ hinline)
  obtain ⟨c, hc, -⟩ := (Tree.mem_ancestors_iff_child h').1 hn
  have hchild := Tree.branch_mem_children h' hc
  rw [hchildren] at hchild
  exact absurd hchild List.not_mem_nil

/-- **The pass keeps what is in scope**: if no inline markup below `root` declares a namespace, every
element below `root` that is still below it after the pass has the same namespaces in scope, for
each name the nearest declaration on itself or an element around it. -/
theorem namespaces_of_adjust (h : t.WellFormed)
    (hinline : ∀ n, root ∈ t.ancestors n → t.tag n ∈ Schema.inlineTags →
      t.declaredNamespaces n = .empty)
    (hrun : adjust root t = .ok () t') (hn : root ∈ t.ancestors n) (hn' : root ∈ t'.ancestors n) :
    t'.namespaces n = t.namespaces n ∧
      ∀ name, ((n :: t'.ancestors n).findSome? fun a => (t'.declaredNamespaces a).get? name) =
        (n :: t.ancestors n).findSome? fun a => (t.declaredNamespaces a).get? name := by
  have hroot := notMem_inlineTags_of_adjust h hrun hn'
  have hstart : (Outcome.standing ⟨t.branch root, []⟩).Scoped t (context t root) := by
    refine ⟨⟨throughout_branch h fun m hm => ?_, trivial⟩, fun i hi _ => ?_⟩
    · rw [Undeclaring, Tree.own_branch h]
      rcases hm with rfl | hm
      · exact fun htag => absurd htag hroot
      · exact hinline m hm
    · rw [Outcome.whole, plug_nil, Tree.scopes_branch h] at hi
      obtain ⟨m, -, rfl⟩ := List.mem_map.1 hi
      rfl
  obtain ⟨h', haround, hend⟩ := keeps_of_adjust_fresh h hrun Step.keepsScopes hstart
  have hsame : t'.namespaces n = t.namespaces n := by
    refine hend.namespaces (n, t'.namespaces n) ?_ (Tree.lt_size_of_below h hn)
    rw [← haround, Outcome.whole, Tree.scopes_branch h']
    exact List.mem_map_of_mem ((Tree.mem_numbers_branch h').2 (Or.inr hn'))
  refine ⟨hsame, fun name => ?_⟩
  rw [← Tree.get?_namespaces, ← Tree.get?_namespaces, hsame]

/-- A paragraph that rebinds a name, with markup that is nested and with two sections of the same kind,
the first of which binds the name once more to the same:

    <detaileddescription xmlns:a="u"><para xmlns:a="v">x<bold><emphasis>y</emphasis></bold>
    <simplesect kind="see" xmlns:a="v"><para>p</para></simplesect>
    <simplesect kind="see"><para>q</para></simplesect></para></detaileddescription>
-/
def rebound : Tree :=
  ⟨#[{ tag := "detaileddescription", namespaces := .ofList [("a", "u")], children := [1] },
    { tag := "para", namespaces := .ofList [("a", "v")], text := some "x", parent := some 0,
      children := [2, 4, 6] },
    { tag := "bold", parent := some 1, children := [3] },
    { tag := "emphasis", text := some "y", parent := some 2 },
    { tag := "simplesect", attributes := .ofList [("kind", "see")],
      namespaces := .ofList [("a", "v")], parent := some 1, children := [5] },
    { tag := "para", text := some "p", parent := some 4 },
    { tag := "simplesect", attributes := .ofList [("kind", "see")], parent := some 1,
      children := [7] },
    { tag := "para", text := some "q", parent := some 6 }]⟩

/-- The same paragraph after the pass: the markup is lifted, the paragraph is divided, and the sections
are one.

    <detaileddescription xmlns:a="u"><para xmlns:a="v">x<emphasis>y</emphasis></para>
    <para xmlns:a="v"><simplesect kind="see" xmlns:a="v"><para>p</para><para>q</para></simplesect>
    </para></detaileddescription>
-/
def reboundFairly : Tree :=
  ⟨#[{ tag := "detaileddescription", namespaces := .ofList [("a", "u")], children := [1, 8] },
    { tag := "para", namespaces := .ofList [("a", "v")], text := some "x", parent := some 0,
      children := [3] },
    { tag := "bold" },
    { tag := "emphasis", text := some "y", parent := some 1 },
    { tag := "simplesect", attributes := .ofList [("kind", "see")],
      namespaces := .ofList [("a", "v")], parent := some 8, children := [5, 7] },
    { tag := "para", text := some "p", parent := some 4 },
    { tag := "simplesect", attributes := .ofList [("kind", "see")] },
    { tag := "para", text := some "q", parent := some 4 },
    { tag := "para", namespaces := .ofList [("a", "v")], parent := some 0, children := [4] }]⟩

/-- What is in scope in the second section is in scope in the first one after the sections are one. -/
theorem namespaces_of_adjust_rebound :
    adjust 0 rebound = .ok () reboundFairly ∧
      rebound.ancestors 7 = [6, 1, 0] ∧ reboundFairly.ancestors 7 = [4, 8, 0] ∧
      reboundFairly.namespaces 7 = rebound.namespaces 7 ∧
      (rebound.namespaces 7).get? "a" = some "v" := by
  have h : rebound.WellFormed := Tree.wellFormed_of_ordered (by decide)
  have hrun : adjust 0 rebound = .ok () reboundFairly := by decide +kernel
  have hnone : ∀ n < rebound.size, rebound.tag n ∈ Schema.inlineTags →
      rebound.declaredNamespaces n = .empty := by decide
  have hsame := namespaces_of_adjust h (fun n hn => hnone n (Tree.lt_size_of_below h hn)) hrun
    (n := 7) (by decide) (by decide)
  exact ⟨hrun, by decide, by decide, hsame.1, by decide⟩

end Adjust

end DoxygenRest

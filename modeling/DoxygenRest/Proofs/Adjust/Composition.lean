import DoxygenRest.Proofs.Adjust.Agreement
import DoxygenRest.Proofs.Adjust.Idempotence
import DoxygenRest.Proofs.Adjust.Nesting

/-!
# Adjusting piece by piece

Where neither an element nor any of its children is ever treated itself, the pass on the element
does what the passes on its children do, in whatever order these are run (`adjust_compositional`).
So it is the same to adjust a definition as a whole and to adjust its descriptions one by one.

The one run is a walk that is made up of walks over the children (`CourseRow.course`).  The many
runs do not get in each other's way: a run on a child leaves the other children, and all that the
pass asks of what lies around them, as they were (`Partway.step`).
-/

namespace DoxygenRest.Adjust

open Branch

variable {t u w w' : Tree} {root c : NodeId} {cs : List NodeId}
variable {result result' : EStateM.Result PassError Tree Unit}

/-! ### One run after another -/

/-- Run on the subtrees at the listed elements, one after another, the pass succeeds each time and
leads from the one tree to the other. -/
inductive YieldsInTurn : List NodeId → Tree → Tree → Prop where
  | nil (t : Tree) : YieldsInTurn [] t t
  | cons {c : NodeId} {cs : List NodeId} {t u v : Tree} (hresult : Yields c t (.ok () u))
      (hrest : YieldsInTurn cs u v) : YieldsInTurn (c :: cs) t v

/-- The tree `w` comes from `t` by runs of the pass on all children of `root` but those in `left`.
-/
structure Partway (t w : Tree) (root : NodeId) (left : List NodeId) : Prop where
  wellFormed : w.WellFormed
  entry : w.entry root = t.entry root
  children : w.children root = t.children root
  around : context w root = context t root
  bare : ∀ c ∈ t.children root, (w.entry c).bare = (t.entry c).bare
  ahead : ∀ c ∈ left, w.branch c = t.branch c
  behind : ∀ c ∈ t.children root, c ∉ left →
    ∃ u, Yields c t (.ok () u) ∧ w.fragment c = u.fragment c

namespace Partway

/-- Before the first run, all children are left. -/
lemma start (h : t.WellFormed) (hcs : t.children root ⊆ cs) : Partway t t root cs where
  wellFormed := h
  entry := rfl
  children := rfl
  around := rfl
  bare _ _ := rfl
  ahead _ _ := rfl
  behind _ hc hleft := absurd (hcs hc) hleft

variable (hw : Partway t w root (c :: cs)) (h : t.WellFormed) (hc : c ∈ t.children root)

include hw hc

/-- The children that are left to adjust are still below the root. -/
lemma parent? : w.parent? c = some root := by
  rw [← hw.wellFormed.mem_children_iff, hw.children]
  exact hc

include h

/-- The runs before have not changed the surroundings of a child that is left. -/
lemma surroundings_eq : surroundings w c = surroundings t c := by
  have hp := h.mem_children_iff.1 hc
  have hprevious : w.previousSibling? c = t.previousSibling? c := by
    refine Tree.previousSibling?_congr ((hw.parent? hc).trans hp.symm) fun p hp' => ?_
    obtain rfl : root = p := Option.some.inj (hp.symm.trans hp')
    exact hw.children
  rw [surroundings, surroundings, hprevious, context_eq_inside hw.wellFormed (hw.parent? hc),
    context_eq_inside h hp, hw.around, hw.entry]
  cases hm : t.previousSibling? c with
  | none => rfl
  | some m =>
    obtain ⟨-, p, hcp, hmp⟩ := Tree.parent?_of_previousSibling h hm
    obtain rfl : root = p := Option.some.inj (hp.symm.trans hcp)
    rw [Option.map_some, Option.map_some, hw.bare m (h.mem_children_iff.2 hmp)]

/-- A run on a child that is left does what it would have done before all others. -/
lemma agree (hresult : Yields c w result) (hresult' : Yields c t result') :
    ResultsAgree c c result result' := by
  refine hresult.agree hresult' hw.wellFormed h ?_ ?_
  · rw [hw.surroundings_eq h hc]
    exact .refl _
  · rw [hw.ahead c (List.mem_cons_self ..)]
    exact resembles_of_fragment_eq rfl

/-- **A run on one more child** leaves all else as it was. -/
theorem step (hnodup : (c :: cs).Nodup) (hcs : cs ⊆ t.children root) (hplain : IsPlain (t.tag c))
    (hresult : Yields c w (.ok () w')) : Partway t w' root cs := by
  have htag : w.tag c = t.tag c := congrArg Entry.tag (hw.bare c hc)
  obtain ⟨b, hb, hown⟩ := hresult.spares hw.wellFormed (htag ▸ hplain)
  have hb : Tree.Replaced w w' c b := hb
  have hp := hw.parent? hc
  -- The run below the child replaces the branch there, so the root and the other children are as
  -- they were.
  have hroot : w'.element root = w.element root :=
    hb.outside root (hw.wellFormed.parent_lt_size hp)
      (Tree.notMem_numbers_of_parent hw.wellFormed hp)
  have hcw : c ∈ w.children root := hw.children ▸ hc
  have hsibling {d : NodeId} (hd : d ∈ t.children root) (hne : d ≠ c) :
      w'.branch d = w.branch d :=
    hb.branch_of_sibling hw.wellFormed hcw (hw.children ▸ hd) hne
  -- The fields are the root and its children, the context around it, and then the data of each
  -- child, the children ahead and those behind.
  refine ⟨hb.wellFormed, ?_, ?_, ?_, fun d hd => ?_, fun d hd => ?_, fun d hd hleft => ?_⟩
  · rw [Tree.entry_congr hroot, hw.entry]
  · rw [Tree.children_congr hroot, hw.children]
  · -- The elements around the root lie around the child, too.
    have hancestors := hb.ancestors hw.wellFormed
    rw [Tree.ancestors_eq_cons hw.wellFormed hp,
      Tree.ancestors_eq_cons hb.wellFormed (hb.parent.trans hp)] at hancestors
    rw [← hw.around]
    refine context_congr (List.cons.inj hancestors).2 fun a ha => ?_
    rw [Tree.entry_congr (hb.element_of_mem_ancestors hw.wellFormed ?_)]
    rw [Tree.ancestors_eq_cons hw.wellFormed hp]
    exact List.mem_cons_of_mem root ha
  · by_cases hdc : d = c
    · subst hdc
      rw [← hw.bare d hc, ← Tree.own_branch hb.wellFormed, hb.branch]
      have hbare := congrArg Entry.bare hown
      exact hbare
    · rw [← hw.bare d hd, ← Tree.own_branch hb.wellFormed, hsibling hd hdc,
        Tree.own_branch hw.wellFormed]
  · have hdc : d ≠ c := fun heq => (List.nodup_cons.1 hnodup).1 (heq ▸ hd)
    rw [hsibling (hcs hd) hdc, hw.ahead d (List.mem_cons_of_mem c hd)]
  · by_cases hdc : d = c
    · subst hdc
      obtain ⟨result, hfirst⟩ := exists_yields h d
      have hagree := hw.agree h hc hresult hfirst
      cases result with
      | ok a u => exact ⟨u, hfirst, hagree⟩
      | error failure u => cases hagree
    · obtain ⟨u, hu, hfragment⟩ := hw.behind d hd (by simp [hdc, hleft])
      refine ⟨u, hu, ?_⟩
      rw [← hfragment, ← Tree.fragment_branch, hsibling hd hdc, Tree.fragment_branch]

end Partway

/-- After runs on all children that were left, none is left. -/
theorem YieldsInTurn.partway {v : Tree} (hturn : YieldsInTurn cs w v) (h : t.WellFormed)
    (hw : Partway t w root cs) (hnodup : cs.Nodup) (hcs : cs ⊆ t.children root)
    (hplain : ∀ c ∈ t.children root, IsPlain (t.tag c)) : Partway t v root [] := by
  induction hturn with
  | nil w => exact hw
  | @cons c cs w u v hresult hrest ih =>
    have hc : c ∈ t.children root := hcs (List.mem_cons_self ..)
    have hcs' : cs ⊆ t.children root := fun d hd => hcs (List.mem_cons_of_mem c hd)
    exact ih (hw.step h hc hnodup hcs' (hplain c hc) hresult) (List.nodup_cons.1 hnodup).2 hcs'

/-- If the pass succeeds on each child, it does so on one after the other. -/
theorem Partway.exists_yieldsInTurn (hw : Partway t w root cs) (h : t.WellFormed)
    (hnodup : cs.Nodup) (hcs : cs ⊆ t.children root)
    (hplain : ∀ c ∈ t.children root, IsPlain (t.tag c))
    (hchildren : ∀ c ∈ cs, ∃ u, Yields c t (.ok () u)) : ∃ v, YieldsInTurn cs w v := by
  induction cs generalizing w with
  | nil => exact ⟨w, .nil w⟩
  | cons c cs ih =>
    rw [List.forall_mem_cons] at hchildren
    obtain ⟨⟨u, hu⟩, hrest⟩ := hchildren
    have hc : c ∈ t.children root := hcs (List.mem_cons_self ..)
    have hcs' : cs ⊆ t.children root := fun d hd => hcs (List.mem_cons_of_mem c hd)
    obtain ⟨result, hresult⟩ := exists_yields hw.wellFormed c
    have hagree := hw.agree h hc hresult hu
    cases result with
    | error failure w' => cases hagree
    | ok a w' =>
      have hw' := hw.step h hc hnodup hcs' (hplain c hc) hresult
      obtain ⟨v, hv⟩ := ih hw' (List.nodup_cons.1 hnodup).2 hcs' hrest
      exact ⟨v, .cons hresult hv⟩

/-! ### One run on the whole -/

/-- A tree that has the subtrees in it that the pass leaves, run on each of the listed elements of
`t` alone. -/
def HasResults (t v : Tree) (cs : List NodeId) : Prop :=
  ∀ c ∈ cs, ∃ u, Yields c t (.ok () u) ∧ v.fragment c = u.fragment c

/-- The runs on some children of an element make up a row of walks, which fails if one of them does.
-/
lemma exists_courseRow (h : t.WellFormed) (hcs : cs ⊆ t.children root) :
    ∃ rest, CourseRow ((context t root).inside (t.entry root)) (cs.map t.branch) rest ∧
      (∀ bs, rest = .ok bs → (∀ c ∈ cs, ∃ u, Yields c t (.ok () u)) ∧
        ∀ v, HasResults t v cs → cs.map v.fragment = bs.map fragment) ∧
      ∀ failure, rest = .error failure → ∃ c ∈ cs, ∃ u, Yields c t (.error failure u) := by
  -- Along the children: the first failure decides, and without one the results stand side by side.
  induction cs with
  | nil =>
    refine ⟨.ok [], .nil, fun bs hbs => ?_, fun failure hfailure => ?_⟩
    · cases hbs
      exact ⟨fun c hc => (List.not_mem_nil hc).elim, fun v _ => rfl⟩
    · cases hfailure
  | cons c cs ih =>
    obtain ⟨hc, hcs'⟩ := List.cons_subset.1 hcs
    have houter : (surroundings t c).outer = (context t root).inside (t.entry root) :=
      context_eq_inside h (h.mem_children_iff.1 hc)
    obtain ⟨result, hresult⟩ := exists_yields h c
    obtain ⟨rest, hrow, hsuccess, hfail⟩ := ih hcs'
    cases result with
    | error failure u =>
      refine ⟨.error failure, .fail houter (hresult.course_error h), fun bs hbs => ?_,
        fun failure' hfailure' => ?_⟩
      · cases hbs
      · cases hfailure'
        exact ⟨c, List.mem_cons_self .., u, hresult⟩
    | ok a u =>
      obtain ⟨-, -, hcourse⟩ := hresult.course_ok h
      refine ⟨rest.map (u.branch c :: ·), .cons houter hcourse hrow, fun bs hbs => ?_,
        fun failure hfailure => ?_⟩
      · cases rest with
        | error failure => cases hbs
        | ok bs' =>
          cases hbs
          obtain ⟨hall, hsame⟩ := hsuccess bs' rfl
          refine ⟨List.forall_mem_cons.2 ⟨⟨u, hresult⟩, hall⟩, fun v hv => ?_⟩
          obtain ⟨⟨u', hresult', hfragment⟩, hrest⟩ := List.forall_mem_cons.1 hv
          cases hresult.unique hresult'
          rw [List.map_cons, List.map_cons, hsame v hrest, hfragment, Tree.fragment_branch]
      · cases rest with
        | ok bs' => cases hfailure
        | error failure' =>
          obtain ⟨d, hd, hfailed⟩ := hfail failure' rfl
          cases hfailure
          exact ⟨d, List.mem_cons_of_mem c hd, hfailed⟩

/-- A branch is entered as if the place in front of its first child had become empty. -/
lemma enter_eq_skip (x : Branch) : enter x [] = skip ⟨x.number, x.own, [], x.children⟩ [] := by
  rw [enter, skip]
  cases hchildren : x.children with
  | nil =>
    have hx : node x.number x.own [] = x := by rw [← hchildren, node_eta]
    simp [leave, Frame.fillRow, hx]
  | cons y ys => rfl

/-- The walk over an element that is never treated itself, like its children, is made up of walks
over the children. -/
lemma course_of_courseRow (h : t.WellFormed) (hplain : IsPlain (t.tag root))
    (hchildren : ∀ c ∈ t.children root, IsPlain (t.tag c))
    {rest : Except PassError (List Branch)}
    (hrow : CourseRow ((context t root).inside (t.entry root)) ((t.children root).map t.branch)
      rest) :
    Course (surroundings t root) (start t root)
      (rest.map fun bs => node root (t.entry root) bs) := by
  have hown : (t.branch root).own = t.entry root := Tree.own_branch h root
  have hmove : move (surroundings t root) 0 ⟨t.branch root, []⟩ = .ok (enter (t.branch root) []) := by
    refine move_of_isPlain ?_
    rw [hown]
    exact hplain
  refine .step hmove ?_
  rw [enter_eq_skip, Tree.number_branch, hown, Tree.children_branch h]
  refine CourseRow.course hrow fun x hx => ?_
  obtain ⟨c, hc, rfl⟩ := List.mem_map.1 hx
  rw [Tree.own_branch h]
  exact hchildren c hc

section Whole

variable (h : t.WellFormed) (hplain : IsPlain (t.tag root))
variable (hchildren : ∀ c ∈ t.children root, IsPlain (t.tag c))

include h hplain hchildren

/-- If the pass succeeds on an element, it does so on each child, and it leaves what the runs on the
children leave. -/
lemma Yields.of_root (hu : Yields root t (.ok () u)) :
    (∀ c ∈ t.children root, ∃ v, Yields c t (.ok () v)) ∧
      ∀ v, v.WellFormed → v.entry root = t.entry root → v.children root = t.children root →
        HasResults t v (t.children root) → u.fragment root = v.fragment root := by
  obtain ⟨rest, hrow, hsuccess, -⟩ := exists_courseRow h (List.Subset.refl (t.children root))
  have hcourse := course_of_courseRow h hplain hchildren hrow
  obtain ⟨-, -, hcourse'⟩ := hu.course_ok h
  have hagree := hcourse'.agree hcourse (.refl _) ⟨resembles_of_fragment_eq rfl, rfl⟩
  cases rest with
  | error failure => cases hagree
  | ok bs =>
    have hfragment : (u.branch root).fragment = (node root (t.entry root) bs).fragment := hagree
    obtain ⟨hall, hsame⟩ := hsuccess bs rfl
    refine ⟨hall, fun v hv hentry hchildren' hresults => ?_⟩
    rw [← Tree.fragment_branch, ← Tree.fragment_branch, hfragment]
    refine fragment_eq_iff.2 ⟨((Tree.own_branch hv root).trans hentry).symm, ?_⟩
    rw [Tree.children_branch hv, hchildren', children_node, List.map_map, ← hsame v hresults]
    exact List.map_congr_left fun c _ => (Tree.fragment_branch v c).symm

/-- If the pass succeeds on each child of an element, it succeeds on the element. -/
lemma exists_yields_of_children (hall : ∀ c ∈ t.children root, ∃ v, Yields c t (.ok () v)) :
    ∃ u, Yields root t (.ok () u) := by
  obtain ⟨rest, hrow, -, hfail⟩ := exists_courseRow h (List.Subset.refl (t.children root))
  have hcourse := course_of_courseRow h hplain hchildren hrow
  obtain ⟨result, hresult⟩ := exists_yields h root
  cases result with
  | ok a u => exact ⟨u, hresult⟩
  | error failure u =>
    have hagree := (hresult.course_error h).agree hcourse (.refl _)
      ⟨resembles_of_fragment_eq rfl, rfl⟩
    cases rest with
    | ok bs => cases hagree
    | error failure' =>
      obtain ⟨c, hc, v, hv⟩ := hfail failure' rfl
      obtain ⟨v', hv'⟩ := hall c hc
      cases hv.unique hv'

end Whole

/-- **Adjusting is compositional**: where neither an element nor its children are ever treated
themselves, the pass succeeds on the element if and only if it succeeds on each child, and if and
only if it succeeds on the children one after another, in any order.  The runs on the children leave
a subtree that means the same as the one that the run on the element leaves. -/
theorem adjust_compositional (h : t.WellFormed) (hplain : IsPlain (t.tag root))
    (hchildren : ∀ c ∈ t.children root, IsPlain (t.tag c)) :
    ((∃ u, Yields root t (.ok () u)) ↔ ∀ c ∈ t.children root, ∃ u, Yields c t (.ok () u)) ∧
      ∀ cs, cs.Perm (t.children root) →
        ((∃ u, Yields root t (.ok () u)) ↔ ∃ v, YieldsInTurn cs t v) ∧
          ∀ u v, Yields root t (.ok () u) → YieldsInTurn cs t v →
            u.semanticallyEqual root v root = true := by
  have hiff : (∃ u, Yields root t (.ok () u)) ↔
      ∀ c ∈ t.children root, ∃ u, Yields c t (.ok () u) := by
    constructor
    · rintro ⟨u, hu⟩
      exact (hu.of_root h hplain hchildren).1
    · exact exists_yields_of_children h hplain hchildren
  refine ⟨hiff, fun cs hperm => ?_⟩
  have hnodup : cs.Nodup := hperm.nodup_iff.2 (h.nodup_children root)
  -- Whatever the order, the runs lead from all children being left to none.
  have hfirst : Partway t t root cs := Partway.start h hperm.symm.subset
  have hlast {v : Tree} (hv : YieldsInTurn cs t v) : Partway t v root [] :=
    hv.partway h hfirst hnodup hperm.subset hchildren
  refine ⟨?_, fun u v hu hv => ?_⟩
  · rw [hiff]
    constructor
    · intro hall
      exact hfirst.exists_yieldsInTurn h hnodup hperm.subset hchildren fun c hc =>
        hall c (hperm.subset hc)
    · rintro ⟨v, hv⟩ c hc
      obtain ⟨u, hu, -⟩ := (hlast hv).behind c hc List.not_mem_nil
      exact ⟨u, hu⟩
  · have hv' := hlast hv
    have hfragment := (hu.of_root h hplain hchildren).2 v hv'.wellFormed hv'.entry hv'.children
      fun c hc => hv'.behind c hc List.not_mem_nil
    rw [Tree.semanticallyEqual, hfragment]
    exact Fragment.same_refl _

/-- A definition with two descriptions:

    <memberdef><briefdescription><para>a<bold> b</bold></para></briefdescription>
    <detaileddescription><para><emphasis/></para><para>c</para></detaileddescription></memberdef>
-/
def described : Tree :=
  ⟨#[{ tag := "memberdef", children := [1, 4] },
    { tag := "briefdescription", parent := some 0, children := [2] },
    { tag := "para", text := some "a", parent := some 1, children := [3] },
    { tag := "bold", text := some " b", parent := some 2 },
    { tag := "detaileddescription", parent := some 0, children := [5, 7] },
    { tag := "para", parent := some 4, children := [6] },
    { tag := "emphasis", parent := some 5 },
    { tag := "para", text := some "c", parent := some 4 }]⟩

/-- The same definition, adjusted:

    <memberdef><briefdescription><para>a <bold>b</bold></para></briefdescription>
    <detaileddescription><para>c</para></detaileddescription></memberdef>
-/
def describedFairly : Tree :=
  ⟨#[{ tag := "memberdef", children := [1, 4] },
    { tag := "briefdescription", parent := some 0, children := [2] },
    { tag := "para", text := some "a ", parent := some 1, children := [3] },
    { tag := "bold", text := some "b", parent := some 2 },
    { tag := "detaileddescription", parent := some 0, children := [7] },
    { tag := "para" },
    { tag := "emphasis" },
    { tag := "para", text := some "c", parent := some 4 }]⟩

/-- The definition may be adjusted as a whole, or its second description before the first one. -/
theorem adjust_compositional_described :
    described.WellFormed ∧ IsPlain (described.tag 0) ∧
      (∀ c ∈ described.children 0, IsPlain (described.tag c)) ∧
      Yields 0 described (.ok () describedFairly) ∧
      ∃ v, YieldsInTurn [4, 1] described v ∧
        describedFairly.semanticallyEqual 0 v 0 = true := by
  have h : described.WellFormed := Tree.wellFormed_of_ordered (by decide)
  have hplain : IsPlain (described.tag 0) := by
    unfold IsPlain
    decide
  have hchildren : ∀ c ∈ described.children 0, IsPlain (described.tag c) := by
    unfold IsPlain
    decide
  have hrun : adjust 0 described = .ok () describedFairly := by decide +kernel
  have hwhole := yields_of_adjust h hrun
  obtain ⟨hturn, hsame⟩ := (adjust_compositional h hplain hchildren).2 [4, 1] (by decide)
  obtain ⟨v, hv⟩ := hturn.1 ⟨describedFairly, hwhole⟩
  exact ⟨h, hplain, hchildren, hwhole, v, hv, hsame describedFairly v hwhole hv⟩

end DoxygenRest.Adjust

import DoxygenRest.Index.Basic
import DoxygenRest.Proofs.Query.Axes
import DoxygenRest.Proofs.Tree.Specimen

/-!
# What an index lists

An identifier may be listed more than once in an index document, as a compound and as a member, under
several compounds and with different kinds.  Looking it up finds the listing that comes before all
others in document order (`Index.get?_eq_some_iff`).  A row of members keeps of each member this one
listing (`Index.mem_membersOfKind_iff`), so that no identifier is met twice in it, nor in the rows of
several kinds put one behind the other (`Index.listed_once`).
-/

namespace DoxygenRest

open DoxygenRest.Tree (root)

/-- In a row with an order that never runs both ways, the first item of a kind is found. -/
lemma find?_eq_some_iff_of_pairwise {α : Type} {r : α → α → Prop} {p : α → Bool} {row : List α}
    {a : α} (hasymm : ∀ a b, r a b → ¬ r b a) (hrow : row.Pairwise r) :
    row.find? p = some a ↔
      (a ∈ row ∧ p a = true) ∧ ∀ b, b ∈ row ∧ p b = true → b = a ∨ r a b := by
  -- What comes before the element found does not pass, so all that passes comes behind it.
  have hfirst {a : α} (hfind : row.find? p = some a) (b : α) (hb : b ∈ row ∧ p b = true) :
      b = a ∨ r a b := by
    obtain ⟨-, before, after, rfl, hbefore⟩ := List.find?_eq_some_iff_append.1 hfind
    rw [List.pairwise_append, List.pairwise_cons] at hrow
    rcases List.mem_append.1 hb.1 with hmem | hmem
    · have hnot := hbefore b hmem
      rw [hb.2] at hnot
      cases hnot
    · rcases List.mem_cons.1 hmem with rfl | hmem
      · exact Or.inl rfl
      · exact Or.inr (hrow.2.1.1 b hmem)
  constructor
  · intro hfind
    exact ⟨⟨List.mem_of_find?_eq_some hfind, List.find?_some hfind⟩, hfirst hfind⟩
  · rintro ⟨ha, hall⟩
    cases hfind : row.find? p with
    | none => exact absurd ha.2 (List.find?_eq_none.1 hfind a ha.1)
    | some b =>
      have hb : b ∈ row ∧ p b = true :=
        ⟨List.mem_of_find?_eq_some hfind, List.find?_some hfind⟩
      rcases hall b hb with rfl | hab
      · rfl
      · rcases hfirst hfind a ha with rfl | hba
        · rfl
        · exact absurd hba (hasymm a b hab)

namespace Tree

variable {t : Tree} {n : NodeId}

/-- The descendants of the root are what lies below it. -/
lemma mem_descendants_root_iff (h : t.WellFormed) : n ∈ t.descendants root ↔ t.LiesBelow n root :=
  (mem_descendants_iff h).trans (mem_ancestors_iff_liesBelow h)

/-- They are listed in document order. -/
lemma pairwise_descendants_root (h : t.WellFormed) :
    (t.descendants root).Pairwise t.ComesBefore := by
  have hpairwise := pairwise_preorder h root
  rw [preorder_eq_cons_descendants h] at hpairwise
  exact (List.pairwise_cons.1 hpairwise).2

end Tree

namespace Index

variable {index : Index} {id kind : String} {kinds : List String} {m n : NodeId}

/-! ### Looking up -/

/-- An element lists an identifier: it is a compound or a member below the root, and has the
identifier. -/
structure Lists (index : Index) (id : String) (n : NodeId) : Prop where
  below : index.document.LiesBelow n root
  tag : index.document.tag n = "compound" ∨ index.document.tag n = "member"
  refid : index.document.attribute? n "refid" = some id

/-- An index lists an element if its listings hold it with that reference. -/
lemma lists_iff (h : index.document.WellFormed) :
    index.Lists id n ↔
      n ∈ index.document.listings ∧ (index.document.attribute? n "refid" == some id) = true := by
  rw [Tree.listings, List.mem_filter, Tree.mem_descendants_root_iff h, Tree.isListing,
    Bool.or_eq_true, beq_iff_eq, beq_iff_eq, beq_iff_eq]
  exact ⟨fun ⟨hbelow, htag, hrefid⟩ => ⟨⟨hbelow, htag⟩, hrefid⟩,
    fun ⟨⟨hbelow, htag⟩, hrefid⟩ => ⟨hbelow, htag, hrefid⟩⟩

/-- An identifier is found at the place where it is listed first. -/
theorem get?_eq_some_iff (h : index.document.WellFormed) :
    index.get? id = some n ↔
      index.Lists id n ∧ ∀ m, index.Lists id m → m = n ∨ index.document.ComesBefore n m := by
  have hlistings : index.document.listings.Pairwise index.document.ComesBefore :=
    (Tree.pairwise_descendants_root h).filter _
  simp only [lists_iff h]
  rw [get?_eq_find?]
  exact find?_eq_some_iff_of_pairwise (fun _ _ => Tree.ComesBefore.asymm h) hlistings

/-- An identifier is not found if it is not listed. -/
theorem get?_eq_none_iff (h : index.document.WellFormed) :
    index.get? id = none ↔ ∀ n, ¬ index.Lists id n := by
  simp only [lists_iff h]
  rw [get?_eq_find?, List.find?_eq_none]
  exact ⟨fun hnone n hn => hnone n hn.1 hn.2, fun hnone n hn hid => hnone n ⟨hn, hid⟩⟩

/-! ### Rows of members -/

/-- An element is a member of a kind, by the first listing of its identifier. -/
structure ListsFirst (index : Index) (kind : String) (m : NodeId) : Prop where
  below : index.document.LiesBelow m root
  tag : index.document.tag m = "member"
  kind_eq : (index.document.attribute? m "kind").getD "" = kind
  get?_eq : ∃ id, index.document.attribute? m "refid" = some id ∧ index.get? id = some m

/-- A member without an identifier is not found, not even under the empty one. -/
lemma get?_refid_eq_some_iff (h : index.document.WellFormed) :
    index.get? (index.refid m) = some m ↔
      ∃ id, index.document.attribute? m "refid" = some id ∧ index.get? id = some m := by
  constructor
  · intro hget
    exact ⟨index.refid m, ((get?_eq_some_iff h).1 hget).1.refid, hget⟩
  · rintro ⟨id, hid, hget⟩
    rwa [refid, hid, Option.getD_some]

/-- The row of a kind has the members of the kind that are found by their identifiers. -/
theorem mem_membersOfKind_iff (h : index.document.WellFormed) :
    m ∈ index.membersOfKind kind ↔ index.ListsFirst kind m := by
  rw [membersOfKind, allMembers, List.mem_filter, List.mem_filter, Tree.mem_descendants_root_iff h,
    Bool.and_eq_true, beq_iff_eq, beq_iff_eq, get?_refid_eq_some_iff h, isMember, beq_iff_eq]
  exact ⟨fun ⟨⟨hbelow, htag⟩, hkind, hget⟩ => ⟨hbelow, htag, hkind, hget⟩,
    fun ⟨hbelow, htag, hkind, hget⟩ => ⟨⟨hbelow, htag⟩, hkind, hget⟩⟩

/-- The members of a kind are listed in document order. -/
lemma pairwise_membersOfKind (h : index.document.WellFormed) :
    (index.membersOfKind kind).Pairwise index.document.ComesBefore :=
  ((Tree.pairwise_descendants_root h).filter _).filter _

/-- The members of some kinds are the ones listed first for their references. -/
lemma mem_membersOfKinds_iff (h : index.document.WellFormed) :
    m ∈ index.membersOfKinds kinds ↔ ∃ kind ∈ kinds, index.ListsFirst kind m := by
  rw [membersOfKinds, List.mem_flatMap]
  simp only [mem_membersOfKind_iff h]

/-- The rows of different kinds have no member in common. -/
lemma nodup_membersOfKinds (h : index.document.WellFormed) (hkinds : kinds.Nodup) :
    (index.membersOfKinds kinds).Nodup := by
  rw [membersOfKinds, List.nodup_flatMap]
  constructor
  · intro kind _
    refine (pairwise_membersOfKind h).imp ?_
    rintro m n hbefore rfl
    exact hbefore.asymm h hbefore
  · refine hkinds.imp ?_
    intro kind kind' hne m hm hm'
    rw [mem_membersOfKind_iff h] at hm hm'
    exact hne (hm.kind_eq.symm.trans hm'.kind_eq)

/-- Members of different kinds have different identifiers, as each is found by its own. -/
lemma nodup_map_refid (h : index.document.WellFormed) (hkinds : kinds.Nodup) :
    ((index.membersOfKinds kinds).map index.refid).Nodup := by
  refine (nodup_membersOfKinds h hkinds).map_on ?_
  intro m hm n hn heq
  obtain ⟨_, _, hm⟩ := (mem_membersOfKinds_iff h).1 hm
  obtain ⟨_, _, hn⟩ := (mem_membersOfKinds_iff h).1 hn
  have hm := (get?_refid_eq_some_iff h).2 hm.get?_eq
  have hn := (get?_refid_eq_some_iff h).2 hn.get?_eq
  rw [heq, hn] at hm
  exact (Option.some.inj hm).symm

/-- Looking an identifier up finds its first listing in document order, and nothing if there is none.
The row of a kind has exactly the members of this kind that are found by their own identifiers, in
document order and no identifier twice.  The rows of different kinds put one behind the other have
no identifier twice either, and the members of these kinds alone. -/
theorem listed_once (index : Index) (h : index.document.WellFormed) :
    (∀ id n, index.get? id = some n ↔
      index.Lists id n ∧ ∀ m, index.Lists id m → m = n ∨ index.document.ComesBefore n m) ∧
    (∀ id, index.get? id = none ↔ ∀ n, ¬ index.Lists id n) ∧
    (∀ kind, (index.membersOfKind kind).Pairwise index.document.ComesBefore ∧
      ((index.membersOfKind kind).map index.refid).Nodup ∧
      ∀ m, m ∈ index.membersOfKind kind ↔ index.ListsFirst kind m) ∧
    ∀ kinds : List String, kinds.Nodup → ((index.membersOfKinds kinds).map index.refid).Nodup ∧
      ∀ m, m ∈ index.membersOfKinds kinds ↔ ∃ kind ∈ kinds, index.ListsFirst kind m := by
  refine ⟨fun id n => get?_eq_some_iff h, fun id => get?_eq_none_iff h, fun kind => ?_,
    fun kinds hkinds => ⟨nodup_map_refid h hkinds, fun m => mem_membersOfKinds_iff h⟩⟩
  refine ⟨pairwise_membersOfKind h, ?_, fun m => mem_membersOfKind_iff h⟩
  have hnodup := nodup_map_refid h (List.nodup_singleton kind)
  rwa [membersOfKinds, List.flatMap_singleton] at hnodup

/-- An index in which members are listed twice, under the identifier of a compound, and without an
identifier:

    <doxygenindex><compound refid="a" kind="file"><member refid="f" kind="function"/>
    <member refid="d" kind="define"/></compound><compound refid="s" kind="struct">
    <member refid="f" kind="function"/><member refid="a" kind="function"/>
    <member kind="function"/></compound></doxygenindex>
-/
def relisted : Index where
  directory := ""
  document :=
    ⟨#[{ tag := "doxygenindex", children := [1, 4] },
      { tag := "compound", attributes := .ofList [("refid", "a"), ("kind", "file")],
        parent := some 0, children := [2, 3] },
      { tag := "member", attributes := .ofList [("refid", "f"), ("kind", "function")],
        parent := some 1 },
      { tag := "member", attributes := .ofList [("refid", "d"), ("kind", "define")],
        parent := some 1 },
      { tag := "compound", attributes := .ofList [("refid", "s"), ("kind", "struct")],
        parent := some 0, children := [5, 6, 7] },
      { tag := "member", attributes := .ofList [("refid", "f"), ("kind", "function")],
        parent := some 4 },
      { tag := "member", attributes := .ofList [("refid", "a"), ("kind", "function")],
        parent := some 4 },
      { tag := "member", attributes := .ofList [("kind", "function")], parent := some 4 }]⟩

/-- In an index that lists a function twice, it is a member once. -/
theorem listed_once_relisted :
    relisted.document.WellFormed ∧ ["define", "function"].Nodup ∧
      relisted.membersOfKinds ["define", "function"] = [3, 2] ∧
      ((relisted.membersOfKinds ["define", "function"]).map relisted.refid).Nodup ∧
      ∀ m, m ∈ relisted.membersOfKinds ["define", "function"] ↔
        ∃ kind ∈ ["define", "function"], relisted.ListsFirst kind m := by
  have h : relisted.document.WellFormed := Tree.wellFormed_of_ordered (by decide)
  have hkinds : ["define", "function"].Nodup := by decide
  refine ⟨h, hkinds, ?_, (listed_once relisted h).2.2.2 _ hkinds⟩
  simp only [membersOfKinds, List.flatMap_cons, List.flatMap_nil, membersOfKind, get?_eq_find?]
  decide +kernel

end Index

end DoxygenRest

import DoxygenRest.Proofs.Xml.Roundtrip

/-!
# What the written form tells apart

Two subtrees that mean the same element are written the same way if they also declare the same
namespaces, element by element: sameness of subtrees leaves the declarations aside, and the written form
has them.  Where all names can be written, the written form tells everything else apart as well
(`Fragment.toXml_eq_iff`), as what is parsed from it is the same as what was written.
-/

namespace DoxygenRest

namespace Fragment

/-! ### The same is written the same way -/

/-- Elements that are the same are written the same way if their children are. -/
lemma toXml_element_congr {tag : String} {attributes namespaces : Bindings} {text tail : Option String}
    {children : List Fragment}
    (hchildren : ∀ gs, sameList children gs = true → allSameNamespaces children gs = true →
      toXmlList children = toXmlList gs) {g : Fragment}
    (h : (element tag attributes namespaces text tail children).same g = true)
    (h' : (element tag attributes namespaces text tail children).sameNamespaces g = true) :
    (element tag attributes namespaces text tail children).toXml = g.toXml := by
  obtain ⟨tag', attributes', namespaces', text', tail', children'⟩ := g
  simp only [same, sameNamespaces, Bool.and_eq_true, beq_iff_eq] at h h'
  obtain ⟨⟨⟨rfl, rfl⟩, htext⟩, hsame⟩ := h
  obtain ⟨rfl, hnamespaces⟩ := h'
  have hempty : children.isEmpty = children'.isEmpty := by
    cases children <;> cases children' <;> first | rfl | cases hsame
  rw [toXml, toXml, htext, hempty, hchildren children' hsame hnamespaces]

/-- Rows of fragments that are the same and declare the same namespaces are written the same way. -/
theorem toXmlList_congr {fs gs : List Fragment} (h : sameList fs gs = true)
    (h' : allSameNamespaces fs gs = true) : toXmlList fs = toXmlList gs := by
  induction fs using Fragment.induction generalizing gs with
  | nil =>
    cases gs with
    | nil => rfl
    | cons g gs => cases h
  | cons tag attributes namespaces text tail children rest ih ihRest =>
    cases gs with
    | nil => cases h
    | cons g gs =>
      simp only [sameList, allSameNamespaces, Bool.and_eq_true, beq_iff_eq] at h h'
      obtain ⟨⟨htail, hsame⟩, hrest⟩ := h
      rw [toXmlList, toXmlList, htail, ihRest hrest h'.2,
        toXml_element_congr (fun gs => ih) hsame h'.1]

/-- Fragments that are the same and declare the same namespaces are written the same way. -/
lemma toXml_congr {f g : Fragment} (h : f.same g = true) (h' : f.sameNamespaces g = true) :
    f.toXml = g.toXml := by
  cases f
  exact toXml_element_congr (fun gs => toXmlList_congr) h h'

/-! ### What is the same as one and the same -/

section Common

variable {tag : String} {attributes namespaces : Bindings} {text tail : Option String}
  {children : List Fragment} {f g k : Fragment}

/-- Elements that one and the same element is the same as are the same if their children are. -/
lemma same_element_of_common
    (hchildren : ∀ {gs ks}, sameList children gs = true → sameList children ks = true →
      sameList gs ks = true)
    (hg : (element tag attributes namespaces text tail children).same g = true)
    (hk : (element tag attributes namespaces text tail children).same k = true) :
    g.same k = true := by
  obtain ⟨tag₁, attributes₁, namespaces₁, text₁, tail₁, children₁⟩ := g
  obtain ⟨tag₂, attributes₂, namespaces₂, text₂, tail₂, children₂⟩ := k
  simp only [same, Bool.and_eq_true, beq_iff_eq] at hg hk ⊢
  obtain ⟨⟨⟨rfl, rfl⟩, htext⟩, hgs⟩ := hg
  obtain ⟨⟨⟨rfl, rfl⟩, htext'⟩, hks⟩ := hk
  exact ⟨⟨⟨rfl, rfl⟩, htext.symm.trans htext'⟩, hchildren hgs hks⟩

/-- Rows that one and the same row is the same as are the same. -/
theorem sameList_of_common {fs gs ks : List Fragment} (hg : sameList fs gs = true)
    (hk : sameList fs ks = true) : sameList gs ks = true := by
  induction fs using Fragment.induction generalizing gs ks with
  | nil =>
    cases gs with
    | nil => exact hk
    | cons g gs => cases hg
  | cons tag attributes namespaces text tail children rest ih ihRest =>
    rcases gs with _ | ⟨g, gs⟩
    · cases hg
    rcases ks with _ | ⟨k, ks⟩
    · cases hk
    simp only [sameList, Bool.and_eq_true, beq_iff_eq] at hg hk ⊢
    obtain ⟨⟨htail, hfirst⟩, hrest⟩ := hg
    obtain ⟨⟨htail', hfirst'⟩, hrest'⟩ := hk
    exact ⟨⟨htail.symm.trans htail', same_element_of_common ih hfirst hfirst'⟩,
      ihRest hrest hrest'⟩

/-- Fragments that one and the same fragment is the same as are the same. -/
lemma same_of_common (hg : f.same g = true) (hk : f.same k = true) : g.same k = true := by
  cases f
  exact same_element_of_common sameList_of_common hg hk

/-- Elements that declare the namespaces of one and the same element declare the same if their children
do. -/
lemma sameNamespaces_element_of_common
    (hchildren : ∀ {gs ks}, allSameNamespaces children gs = true →
      allSameNamespaces children ks = true → allSameNamespaces gs ks = true)
    (hg : (element tag attributes namespaces text tail children).sameNamespaces g = true)
    (hk : (element tag attributes namespaces text tail children).sameNamespaces k = true) :
    g.sameNamespaces k = true := by
  obtain ⟨tag₁, attributes₁, namespaces₁, text₁, tail₁, children₁⟩ := g
  obtain ⟨tag₂, attributes₂, namespaces₂, text₂, tail₂, children₂⟩ := k
  simp only [sameNamespaces, Bool.and_eq_true, beq_iff_eq] at hg hk ⊢
  obtain ⟨rfl, hgs⟩ := hg
  obtain ⟨rfl, hks⟩ := hk
  exact ⟨rfl, hchildren hgs hks⟩

/-- Rows that declare the namespaces of one and the same row declare the same. -/
theorem allSameNamespaces_of_common {fs gs ks : List Fragment}
    (hg : allSameNamespaces fs gs = true) (hk : allSameNamespaces fs ks = true) :
    allSameNamespaces gs ks = true := by
  induction fs using Fragment.induction generalizing gs ks with
  | nil =>
    cases gs with
    | nil => exact hk
    | cons g gs => cases hg
  | cons tag attributes namespaces text tail children rest ih ihRest =>
    rcases gs with _ | ⟨g, gs⟩
    · cases hg
    rcases ks with _ | ⟨k, ks⟩
    · cases hk
    simp only [allSameNamespaces, Bool.and_eq_true] at hg hk ⊢
    exact ⟨sameNamespaces_element_of_common ih hg.1 hk.1, ihRest hg.2 hk.2⟩

/-- Fragments that declare the namespaces of one and the same fragment declare the same. -/
lemma sameNamespaces_of_common (hg : f.sameNamespaces g = true) (hk : f.sameNamespaces k = true) :
    g.sameNamespaces k = true := by
  cases f
  exact sameNamespaces_element_of_common allSameNamespaces_of_common hg hk

end Common

/-- The written form tells apart whatever is not the same or declares other namespaces. -/
theorem toXml_eq_iff {f g : Fragment} (hf : f.Writable) (hg : g.Writable) :
    f.toXml = g.toXml ↔ f.same g = true ∧ f.sameNamespaces g = true := by
  constructor
  · intro heq
    obtain ⟨t, hparse, -, hsame, hnamespaces⟩ := exists_parse_of_writable hf
    obtain ⟨u, hparse', -, hsame', hnamespaces'⟩ := exists_parse_of_writable hg
    rw [heq, hparse'] at hparse
    cases hparse
    exact ⟨same_of_common hsame hsame', sameNamespaces_of_common hnamespaces hnamespaces'⟩
  · exact fun ⟨hsame, hnamespaces⟩ => toXml_congr hsame hnamespaces

end Fragment

namespace Tree

/-- Subtrees that mean the same element are written the same way if they declare the same namespaces,
element by element, and where all names can be written only then. -/
theorem toXml_eq_of_semanticallyEqual (t u : Tree) (n m : NodeId)
    (h : t.semanticallyEqual n u m = true) :
    ((t.fragment n).sameNamespaces (u.fragment m) = true → t.toXml n = u.toXml m) ∧
      ((t.fragment n).Writable → (u.fragment m).Writable → t.toXml n = u.toXml m →
        (t.fragment n).sameNamespaces (u.fragment m) = true) :=
  ⟨fun hnamespaces => Fragment.toXml_congr h hnamespaces,
    fun hwritable hwritable' heq => ((Fragment.toXml_eq_iff hwritable hwritable').1 heq).2⟩

/-- The same element as `note`, as it may come out of a pass that moves texts: with an empty text where
none was, a tail of its own, and its children under other numbers. -/
def notice : Tree :=
  ⟨#[{ tag := "remarks", children := [2] },
    { tag := "s:mark", text := some "", tail := some "]]>", parent := some 2 },
    { tag := "note", attributes := .ofList [("title", "a < 'b'")],
      namespaces := .ofList [("s", "\x22")], text := some "x &amp; ", tail := some "!",
      parent := some 0, children := [1] }]⟩

/-- The note and its copy are written alike. -/
theorem toXml_eq_of_semanticallyEqual_notice :
    note.semanticallyEqual root notice 2 = true ∧
      (note.fragment root).sameNamespaces (notice.fragment 2) = true ∧
      note.toXml root = notice.toXml 2 := by
  have hequal : note.semanticallyEqual root notice 2 = true := by decide
  have hnamespaces : (note.fragment root).sameNamespaces (notice.fragment 2) = true := by decide
  exact ⟨hequal, hnamespaces,
    (toXml_eq_of_semanticallyEqual note notice root 2 hequal).1 hnamespaces⟩

/-- An element that declares a namespace means the same as one that does not, and is written in
another way:

    <note xmlns="u"/>
-/
theorem not_toXml_eq_of_semanticallyEqual :
    ¬∀ (t u : Tree) (n m : NodeId), t.WellFormed → u.WellFormed →
      t.semanticallyEqual n u m = true → t.toXml n = u.toXml m := by
  intro h
  have heq := h ⟨#[{ tag := "note", namespaces := .ofList [("", "u")] }]⟩ ⟨#[{ tag := "note" }]⟩
    root root (wellFormed_of_ordered (by decide)) (wellFormed_of_ordered (by decide)) (by decide)
  exact absurd heq (by decide)

end Tree

end DoxygenRest

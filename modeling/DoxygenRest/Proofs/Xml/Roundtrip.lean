import DoxygenRest.Xml.Writer
import DoxygenRest.Proofs.Tree.Specimen
import DoxygenRest.Proofs.Xml.Building
import DoxygenRest.Proofs.Xml.Reading

/-!
# Parsing undoes writing

The written form of an element is a document, and `Fragment.content` is what that document says.
The two are joined in the middle: the characters are read as the events of the document
(`reads_element`, by induction on the fragment), the events are built into its branches, and these
branches mean the same as the fragment (`same_branchesAll`).  So a subtree that is written and
parsed again is the same subtree (`Tree.parse_toXml`).

Whatever is written between two tags is a text, or nothing: an empty text leaves no event.
-/

namespace DoxygenRest

namespace Xml

/-! ### The attributes of a written tag -/

/-- The name of the attribute that declares a namespace. -/
def declarationName (name : String) : String :=
  if name = "" then "xmlns" else "xmlns:" ++ name

/-- The attributes in the tag that is written for an element, namespace declarations first. -/
def writtenAttributes (attributes namespaces : Bindings) : List (String × String) :=
  (namespaces.entries.map fun entry => (declarationName entry.1, entry.2)) ++ attributes.entries

/-- The written part of a tag, in characters. -/
lemma toList_writeTag (tag : String) (attributes namespaces : Bindings) :
    (writeTag tag attributes namespaces).toList =
      tag.toList ++ writtenRow (writtenAttributes attributes namespaces) := by
  simp [writeTag, writtenRow, writtenAttributes, writeDeclaration, declarationName,
    String.toList_join, List.flatMap_def, Function.comp_def]

/-- The declaration of a namespace tells its name. -/
lemma declaredName?_declarationName (name : String) :
    declaredName? (declarationName name) = some name := by
  unfold declarationName
  split
  · next h =>
    rw [h]
    rfl
  · next h =>
    have hlist : ("xmlns:" ++ name).toList = "xmlns:".toList ++ name.toList := String.toList_append
    have hdefault : "xmlns:" ++ name ≠ "xmlns" := by
      intro heq
      have hlength := congrArg String.length heq
      rw [String.length_append] at hlength
      have : "xmlns:".length = 6 ∧ "xmlns".length = 5 := by decide
      omega
    have hprefix : "xmlns:".toList.isPrefixOf ("xmlns:" ++ name).toList = true := by
      rw [List.isPrefixOf_iff_prefix, hlist]
      exact List.prefix_append ..
    have hdrop : ("xmlns:" ++ name).toList.drop 6 = name.toList := by
      rw [hlist]
      exact List.drop_left' rfl
    rw [declaredName?, if_neg hdefault, if_pos hprefix, hdrop, String.ofList_toList]

/-- A name declares a namespace if it is `xmlns` or starts so with a colon. -/
lemma declaredName?_eq_none_iff {name : String} :
    declaredName? name = none ↔ name ≠ "xmlns" ∧ ¬"xmlns:".toList <+: name.toList := by
  rw [declaredName?, ← List.isPrefixOf_iff_prefix]
  split
  · next hdefault => exact iff_of_false (Option.some_ne_none _) fun h => h.1 hdefault
  · next hdefault =>
    split
    · next hprefix => exact iff_of_false (Option.some_ne_none _) fun h => h.2 hprefix
    · next hprefix => exact iff_of_true rfl ⟨hdefault, hprefix⟩

/-- Different prefixes are declared by different names. -/
lemma declarationName_injective : Function.Injective declarationName := by
  intro name other heq
  have hsome := congrArg declaredName? heq
  rw [declaredName?_declarationName, declaredName?_declarationName] at hsome
  exact Option.some.inj hsome

/-- What declares a namespace is a name, if the prefix is. -/
lemma isName_declarationName {name : String} (h : name = "" ∨ IsName name) :
    IsName (declarationName name) := by
  by_cases hempty : name = ""
  · rw [declarationName, if_pos hempty]
    decide
  · have hname := h.resolve_left hempty
    have hprefix : IsName "xmlns:" := by decide
    rw [declarationName, if_neg hempty]
    constructor
    · simp
    · intro c hc
      rw [String.toList_append, List.mem_append] at hc
      rcases hc with hc | hc
      · exact hprefix.has c hc
      · exact hname.has c hc

/-- Names that can be written: the tag and the attributes have names of XML, no attribute is named
like the declaration of a namespace, and the prefixes of namespaces are names of XML or empty. -/
structure IsWritable (tag : String) (attributes namespaces : Bindings) : Prop where
  isName_tag : IsName tag
  isName_attribute : ∀ entry ∈ attributes.entries, IsName entry.1
  not_declaration : ∀ entry ∈ attributes.entries,
    entry.1 ≠ "xmlns" ∧ ¬"xmlns:".toList <+: entry.1.toList
  isName_prefix : ∀ entry ∈ namespaces.entries, entry.1 = "" ∨ IsName entry.1

namespace IsWritable

instance (tag : String) (attributes namespaces : Bindings) :
    Decidable (IsWritable tag attributes namespaces) :=
  decidable_of_iff
    (IsName tag ∧ (∀ entry ∈ attributes.entries, IsName entry.1) ∧
      (∀ entry ∈ attributes.entries, entry.1 ≠ "xmlns" ∧ ¬"xmlns:".toList <+: entry.1.toList) ∧
      ∀ entry ∈ namespaces.entries, entry.1 = "" ∨ IsName entry.1)
    ⟨fun ⟨htag, hattribute, hdeclaration, hprefix⟩ => ⟨htag, hattribute, hdeclaration, hprefix⟩,
      fun h => ⟨h.isName_tag, h.isName_attribute, h.not_declaration, h.isName_prefix⟩⟩

variable {tag : String} {attributes namespaces : Bindings}
  (h : IsWritable tag attributes namespaces)

include h

/-- No attribute that is written declares a namespace. -/
lemma declaredName?_eq_none {entry : String × String} (hentry : entry ∈ attributes.entries) :
    declaredName? entry.1 = none :=
  declaredName?_eq_none_iff.2 (h.not_declaration entry hentry)

/-- The attributes and declarations are written as a row of different names. -/
lemma isRow : IsRow (writtenAttributes attributes namespaces) where
  isName := by
    rw [writtenAttributes, List.forall_mem_append, List.forall_mem_map]
    exact ⟨fun entry hentry => isName_declarationName (h.isName_prefix entry hentry),
      h.isName_attribute⟩
  nodup := by
    have hnames (b : Bindings) : (b.entries.map Prod.fst).Nodup := by
      rw [List.Nodup, List.pairwise_map]
      apply b.sorted.imp
      intro entry other hlt heq
      exact String.lt_irrefl _ (heq ▸ hlt)
    have hdeclarations :
        ((namespaces.entries.map fun entry => (declarationName entry.1, entry.2)).map Prod.fst) =
          (namespaces.entries.map Prod.fst).map declarationName := by
      simp only [List.map_map, Function.comp_def]
    rw [writtenAttributes, List.map_append, hdeclarations, List.nodup_append]
    refine ⟨(hnames namespaces).map declarationName_injective, hnames attributes, ?_⟩
    intro name hname other hother heq
    obtain ⟨declared, -, rfl⟩ := List.mem_map.1 hname
    obtain ⟨entry, hentry, rfl⟩ := List.mem_map.1 hother
    have hnone := h.declaredName?_eq_none hentry
    rw [← heq, declaredName?_declarationName] at hnone
    cases hnone

/-- The attributes of the element are those of the tag that declare nothing. -/
lemma plainAttributes_eq :
    plainAttributes (writtenAttributes attributes namespaces) = attributes := by
  have hdeclarations :
      (namespaces.entries.map fun entry => (declarationName entry.1, entry.2)).filter
        (fun item => (declaredName? item.1).isNone) = [] := by
    rw [List.filter_eq_nil_iff, List.forall_mem_map]
    intro entry _
    rw [declaredName?_declarationName]
    exact Bool.false_ne_true
  have hattributes : attributes.entries.filter (fun item => (declaredName? item.1).isNone) =
      attributes.entries := by
    rw [List.filter_eq_self]
    intro entry hentry
    rw [h.declaredName?_eq_none hentry]
    rfl
  rw [plainAttributes, writtenAttributes, List.filter_append, hdeclarations, hattributes,
    List.nil_append, Bindings.ofList_entries]

/-- The namespaces of the element are those that the tag declares. -/
lemma declaredNamespaces_eq :
    declaredNamespaces (writtenAttributes attributes namespaces) = namespaces := by
  have hdeclarations :
      (namespaces.entries.map fun entry => (declarationName entry.1, entry.2)).filterMap
        (fun item => (declaredName? item.1).map fun name => (name, item.2)) =
      namespaces.entries := by
    rw [List.filterMap_map]
    simp [declaredName?_declarationName]
  have hattributes : attributes.entries.filterMap
      (fun item => (declaredName? item.1).map fun name => (name, item.2)) = [] := by
    rw [List.filterMap_eq_nil_iff]
    intro entry hentry
    rw [h.declaredName?_eq_none hentry]
    rfl
  rw [declaredNamespaces, writtenAttributes, List.filterMap_append, hdeclarations, hattributes,
    List.append_nil, Bindings.ofList_entries]

end IsWritable

/-- A text as it is written between tags: nothing, if it is empty. -/
def Content.ofText (s : String) : List Content :=
  if s = "" then [] else [.text s]

end Xml

/-! ### What is written for an element -/

namespace Fragment

open Xml

/-- What holds of rows of fragments as soon as it holds of the rows behind and inside of their first
fragment, holds of all rows. -/
theorem induction {motive : List Fragment → Prop} (nil : motive [])
    (cons : ∀ tag attributes namespaces text tail children rest, motive children → motive rest →
      motive (.element tag attributes namespaces text tail children :: rest)) :
    ∀ fs, motive fs := by
  intro fs
  induction fs using @Fragment.rec_1 fun f => ∀ rest, motive rest → motive (f :: rest) with
  | element tag attributes namespaces text tail children ih rest ihRest =>
    exact cons tag attributes namespaces text tail children rest ih ihRest
  | nil => exact nil
  | cons f fs ih ihRest => exact ih fs ihRest

mutual

/-- The document that is written for a fragment, without its tail. -/
def content : Fragment → Content
  | element tag attributes namespaces text _ children =>
    let row := writtenAttributes attributes namespaces
    if text.getD "" = "" ∧ children.isEmpty then .empty tag row
    else .element tag row (Content.ofText (text.getD "") ++ contents children)

/-- The pieces that are written for a row of fragments. -/
def contents : List Fragment → List Content
  | [] => []
  | child :: rest => child.content :: (Content.ofText child.tail ++ contents rest)

end

mutual

/-- All names in a fragment can be written. -/
def Writable : Fragment → Prop
  | element tag attributes namespaces _ _ children =>
    IsWritable tag attributes namespaces ∧ AllWritable children

/-- All names in a row of fragments can be written. -/
def AllWritable : List Fragment → Prop
  | [] => True
  | child :: rest => child.Writable ∧ AllWritable rest

end

/-- A row can be written if each fragment in it can. -/
lemma allWritable_iff {fs : List Fragment} : AllWritable fs ↔ ∀ f ∈ fs, f.Writable := by
  induction fs with
  | nil => simp [AllWritable]
  | cons f fs ih => simp [AllWritable, ih]

/-! ### Reading what is written -/

/-- A written element starts with its tag. -/
lemma head?_toXml (f : Fragment) : f.toXml.toList.head? = some '<' := by
  cases f
  rw [toXml]
  split <;> simp

/-- What is written for a row starts with a tag, if what follows does. -/
lemma head?_toXmlList (fs : List Fragment) {rest : List Char} (hrest : rest.head? = some '<') :
    ((toXmlList fs).toList ++ rest).head? = some '<' := by
  cases fs with
  | nil => simpa [toXmlList] using hrest
  | cons f fs => simp [toXmlList, head?_toXml]

/-- A text between tags is read, and an empty one leaves no event. -/
lemma reads_ofText (s : String) (opened : List String) {rest : List Char}
    (hrest : rest.head? = some '<') :
    Reads opened ((escapeText s).toList ++ rest) (Content.eventsAll (Content.ofText s)) opened
      rest := by
  by_cases hs : s = ""
  · subst hs
    exact Reads.refl opened rest
  · rw [Content.ofText, if_neg hs]
    exact reads_text hs opened hrest

/-- An element is read if the row of its children is. -/
lemma reads_element {tag : String} {attributes namespaces : Bindings}
    (hwritable : IsWritable tag attributes namespaces) {children : List Fragment}
    (hchildren : ∀ opened rest, rest.head? = some '<' →
      Reads opened ((toXmlList children).toList ++ rest) (Content.eventsAll (contents children))
        opened rest)
    (text tail : Option String) (opened : List String) (rest : List Char) :
    Reads opened ((element tag attributes namespaces text tail children).toXml.toList ++ rest)
      (element tag attributes namespaces text tail children).content.events opened rest := by
  rw [toXml, content]
  split
  · have hread := reads_empty hwritable.isName_tag hwritable.isRow opened rest
    simpa [toList_writeTag, Content.events] using hread
  · have hstart := reads_start hwritable.isName_tag hwritable.isRow opened
    have hstop := reads_stop hwritable.isName_tag opened rest
    have hnext : ('<' :: '/' :: (tag.toList ++ '>' :: rest)).head? = some '<' := rfl
    have hinside := hchildren (tag :: opened) _ hnext
    have htext := reads_ofText (text.getD "") (tag :: opened) (head?_toXmlList children hnext)
    have hread := (hstart _).trans (htext.trans (hinside.trans hstop))
    simpa [toList_writeTag, Content.events, Content.eventsAll_append] using hread

/-- A row of written elements is read in front of a tag. -/
theorem reads_contents {fs : List Fragment} (hwritable : AllWritable fs) (opened : List String)
    (rest : List Char) (hrest : rest.head? = some '<') :
    Reads opened ((toXmlList fs).toList ++ rest) (Content.eventsAll (contents fs)) opened rest := by
  induction fs using Fragment.induction generalizing opened rest with
  | nil => simpa [toXmlList, contents, Content.eventsAll] using Reads.refl opened rest
  | cons tag attributes namespaces text tail children fs ih ihRest =>
    rw [AllWritable, Writable] at hwritable
    obtain ⟨⟨htag, hchildren⟩, hfs⟩ := hwritable
    have helement := reads_element htag (ih hchildren) text tail opened
    have htail := reads_ofText (tail.getD "") opened (head?_toXmlList fs hrest)
    have hread := (helement _).trans (htail.trans (ihRest hfs opened rest hrest))
    simpa [toXmlList, contents, Fragment.tail, Content.eventsAll, Content.eventsAll_append]
      using hread

/-! ### What the document says -/

/-- There is no text in front of the tag of an element. -/
lemma leadingText_content_cons (f : Fragment) (cs : List Content) :
    Content.leadingText (f.content :: cs) = "" := by
  cases f
  rw [content]
  split <;> rfl

/-- A text between tags says itself. -/
lemma leadingText_ofText (s : String) (fs : List Fragment) :
    Content.leadingText (Content.ofText s ++ contents fs) = s := by
  have hcontents : Content.leadingText (contents fs) = "" := by
    cases fs with
    | nil => rfl
    | cons f fs => rw [contents, leadingText_content_cons]
  by_cases hs : s = ""
  · subst hs
    exact hcontents
  · rw [Content.ofText, if_neg hs, List.singleton_append, Content.leadingText, hcontents,
      String.append_empty]

/-- A text between tags is no element. -/
lemma branchesAll_ofText (first : NodeId) (s : String) (cs : List Content) :
    Content.branchesAll first (Content.ofText s ++ cs) = Content.branchesAll first cs := by
  by_cases hs : s = ""
  · subst hs
    rfl
  · rw [Content.ofText, if_neg hs, List.singleton_append, Content.branchesAll]
    rfl

/-- What is written for an element says what the element is, but for the difference between an empty
text and none. -/
lemma branches_content {tag : String} {attributes namespaces : Bindings}
    (hwritable : IsWritable tag attributes namespaces) (text tail : Option String)
    (children : List Fragment) (first : NodeId) (behind : String) :
    (element tag attributes namespaces text tail children).content.branches first behind =
      [.node first
        ⟨tag, attributes, namespaces, Tree.appendTo none (text.getD ""), Tree.appendTo none behind⟩
        (Content.branchesAll (first + 1) (contents children))] := by
  rw [content]
  split
  · next h =>
    obtain ⟨htext, hchildren⟩ := h
    obtain rfl := List.isEmpty_iff.1 hchildren
    rw [Content.branches, hwritable.plainAttributes_eq, hwritable.declaredNamespaces_eq, htext]
    rfl
  · rw [Content.branches, hwritable.plainAttributes_eq, hwritable.declaredNamespaces_eq,
      leadingText_ofText, branchesAll_ofText]

mutual

/-- Whether two elements declare the same namespaces, and so does each element inside of the one and
its counterpart inside of the other. -/
def sameNamespaces : Fragment → Fragment → Bool
  | element _ _ namespaces _ _ children, element _ _ namespaces' _ _ children' =>
    namespaces == namespaces' && allSameNamespaces children children'

/-- Whether two rows of elements are as long and declare the same namespaces one by one. -/
def allSameNamespaces : List Fragment → List Fragment → Bool
  | [], [] => true
  | x :: xs, y :: ys => x.sameNamespaces y && allSameNamespaces xs ys
  | _, _ => false

end

/-- The branch of an element is the same element if the branches of its children are. -/
lemma same_branches {tag : String} {attributes namespaces : Bindings}
    (hwritable : IsWritable tag attributes namespaces) {children : List Fragment} {first : NodeId}
    (hsame : sameList ((Content.branchesAll (first + 1) (contents children)).map Branch.fragment)
      children = true)
    (hnamespaces : allSameNamespaces
      ((Content.branchesAll (first + 1) (contents children)).map Branch.fragment) children = true)
    (text tail : Option String) (behind : String) :
    ∃ b,
      (element tag attributes namespaces text tail children).content.branches first behind = [b] ∧
      b.tail = behind ∧
      b.fragment.same (element tag attributes namespaces text tail children) = true ∧
      b.fragment.sameNamespaces (element tag attributes namespaces text tail children) = true := by
  refine ⟨_, branches_content hwritable text tail children first behind, ?_, ?_, ?_⟩
  · simp [Branch.tail]
  · simp [same, hsame]
  · simp [sameNamespaces, hnamespaces]

/-- What is written for a row of elements says the same elements. -/
theorem same_branchesAll {fs : List Fragment} (hwritable : AllWritable fs) (first : NodeId) :
    sameList ((Content.branchesAll first (contents fs)).map Branch.fragment) fs = true ∧
      allSameNamespaces ((Content.branchesAll first (contents fs)).map Branch.fragment) fs =
        true := by
  induction fs using Fragment.induction generalizing first with
  | nil => exact ⟨by simp [contents, Content.branchesAll, sameList],
      by simp [contents, Content.branchesAll, allSameNamespaces]⟩
  | cons tag attributes namespaces text tail children fs ih ihRest =>
    rw [AllWritable, Writable] at hwritable
    obtain ⟨⟨htag, hchildren⟩, hfs⟩ := hwritable
    obtain ⟨hsame, hnamespaces⟩ := ih hchildren (first + 1)
    obtain ⟨b, hb, htail, hb', hb''⟩ :=
      same_branches htag hsame hnamespaces text tail (tail.getD "")
    have hrest := ihRest hfs
      (first + (element tag attributes namespaces text tail children).content.size)
    rw [contents, Content.branchesAll, Fragment.tail, leadingText_ofText, hb, branchesAll_ofText,
      List.singleton_append, List.map_cons, sameList, allSameNamespaces, hb', hb'', hrest.1,
      hrest.2, Branch.tail_fragment, htail, Fragment.tail]
    simp

/-- The document that is written for a fragment. -/
def document (f : Fragment) : Document where
  prolog := []
  root := f.content
  epilog := []
  isElement_root := by
    cases f
    rw [content]
    split <;> rfl
  isTag_prolog := isTag_nil
  isTag_epilog := isTag_nil

/-- The events of a document are those of its root. -/
lemma events_document (f : Fragment) : f.document.events = f.content.events := by
  rw [Document.events, document, List.nil_append, List.append_nil]

/-- The written form of a fragment is read as the events of its document. -/
lemma read_toXml {f : Fragment} (hwritable : f.Writable) :
    ∃ items, items.map Prod.snd = f.document.events ∧ read f.toXml = ⟨items, none⟩ := by
  obtain ⟨tag, attributes, namespaces, text, tail, children⟩ := f
  rw [Writable] at hwritable
  have hread := reads_element hwritable.1 (reads_contents hwritable.2) text tail [] []
  rw [List.append_nil] at hread
  rw [events_document]
  exact hread.read_eq (head?_toXml _)

/-- A fragment that is written and parsed is the same fragment. -/
theorem exists_parse_of_writable {f : Fragment} (hwritable : f.Writable) :
    ∃ t, Tree.parse .keep f.toXml = .ok t ∧ t.WellFormed ∧
      (t.fragment Tree.root).same f = true ∧ (t.fragment Tree.root).sameNamespaces f = true := by
  obtain ⟨items, hitems, hread⟩ := read_toXml hwritable
  obtain ⟨b, t, htree, hb⟩ := Builder.exists_tree_of_document _ hitems
  obtain ⟨tag, attributes, namespaces, text, tail, children⟩ := f
  rw [Writable] at hwritable
  obtain ⟨htag, hchildren⟩ := hwritable
  obtain ⟨hsame, hnamespaces⟩ := same_branchesAll hchildren (Tree.root + 1)
  obtain ⟨b', hb', -, hsame, hnamespaces⟩ := same_branches htag hsame hnamespaces text tail ""
  obtain rfl : b' = t.branch Tree.root := List.singleton_inj.1 (hb'.symm.trans hb.branches_eq)
  rw [Tree.fragment_branch] at hsame hnamespaces
  refine ⟨t, ?_, hb.wellFormed, hsame, hnamespaces⟩
  rw [Tree.parse, hread, htree]

end Fragment

namespace Tree

open Xml

/-- The names in a subtree can be written if those of its elements can. -/
lemma writable_fragment {t : Tree} (h : t.WellFormed) {n : NodeId}
    (hwritable : ∀ m, m = n ∨ n ∈ t.ancestors m →
      IsWritable (t.tag m) (t.attributes m) (t.declaredNamespaces m)) :
    (t.fragment n).Writable := by
  induction n using h.child_induction with
  | step n ih =>
    rw [← fragment_branch, branch_eq h, Branch.fragment_node, Fragment.Writable,
      Fragment.allWritable_iff, List.map_map, List.forall_mem_map]
    refine ⟨hwritable n (Or.inl rfl), ?_⟩
    intro c hc
    have hchild := ih c hc fun m hm =>
      hwritable m (Or.inr ((mem_ancestors_iff_child h).2 ⟨c, hc, hm⟩))
    rwa [← fragment_branch] at hchild

/-- A subtree whose names are names of XML is parsed back from its written form: elements,
attributes, texts and tails are the same, whatever characters they are made of, and each element
declares the same namespaces. -/
theorem parse_toXml {t : Tree} (h : t.WellFormed) {n : NodeId}
    (hwritable : ∀ m, m = n ∨ n ∈ t.ancestors m →
      IsWritable (t.tag m) (t.attributes m) (t.declaredNamespaces m)) :
    ∃ u, parse .keep (t.toXml n) = .ok u ∧ u.WellFormed ∧ u.semanticallyEqual root t n = true ∧
      (u.fragment root).sameNamespaces (t.fragment n) = true :=
  Fragment.exists_parse_of_writable (writable_fragment h hwritable)

/-- An element with markup, quotes and what looks like a reference in its values and texts:

    <note xmlns:s="&quot;" title="a &lt; &apos;b&apos;">x &amp;amp; <s:mark/>]]&gt;</note>
-/
def note : Tree :=
  ⟨#[{ tag := "note", attributes := .ofList [("title", "a < 'b'")],
        namespaces := .ofList [("s", "\x22")], text := some "x &amp; ", children := [1] },
    { tag := "s:mark", tail := some "]]>", parent := some 0 }]⟩

/-- The example is well-formed. -/
lemma wellFormed_note : note.WellFormed :=
  wellFormed_of_ordered (by decide)

/-- What is written for the example is read back as the same element with the same namespaces. -/
theorem parse_toXml_note :
    root ∈ note.ancestors 1 ∧
      IsWritable (note.tag 1) (note.attributes 1) (note.declaredNamespaces 1) ∧
      ∃ u, parse .keep (note.toXml root) = .ok u ∧ u.WellFormed ∧
        u.semanticallyEqual root note root = true ∧
        (u.fragment root).sameNamespaces (note.fragment root) = true := by
  have hwritable : ∀ m < note.size,
      IsWritable (note.tag m) (note.attributes m) (note.declaredNamespaces m) := by
    decide
  refine ⟨by decide, by decide, parse_toXml wellFormed_note ?_⟩
  intro m hm
  apply hwritable
  rcases hm with rfl | hm
  · exact wellFormed_note.size_pos
  · exact lt_size_of_below wellFormed_note hm

end Tree

end DoxygenRest

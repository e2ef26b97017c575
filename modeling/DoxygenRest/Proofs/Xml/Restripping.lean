import DoxygenRest.Proofs.Xml.Stripping
import DoxygenRest.Proofs.Xml.WrittenForm

/-!
# Stripping again what was stripped

A stripped tree that is written and parsed is the same tree, although blank text is stripped once more
(`Tree.restripped`).  What is written for an element has at most one piece of text between two tags.  In
a stripped tree no text is blank, and where a tail is, it belongs to a child of an element with text
(`Fragment.Stripped`); so stripping finds nothing to strip (`Fragment.parse_strip_eq`).
-/

namespace DoxygenRest

open Branch Xml

namespace Fragment

/-! ### Fragments without blank text to strip -/

mutual

/-- No text in a fragment is blank, and no tail is of a child of an element without text. -/
def Stripped : Fragment → Prop
  | element _ _ _ text _ children =>
    (Text.isBlank (text.getD "") = true → text.getD "" = "") ∧ AllStripped (text.getD "") children

/-- The same for the children of an element with the given text. -/
def AllStripped (text : String) : List Fragment → Prop
  | [] => True
  | child :: rest =>
    child.Stripped ∧ (text = "" → Text.isBlank child.tail = true → child.tail = "") ∧
      AllStripped text rest

end

/-- A row is stripped if each fragment in it is, and no tail is blank where the text in front of the
row is empty. -/
lemma allStripped_iff {text : String} {fs : List Fragment} :
    AllStripped text fs ↔
      ∀ f ∈ fs, f.Stripped ∧ (text = "" → Text.isBlank f.tail = true → f.tail = "") := by
  induction fs with
  | nil => simp [AllStripped]
  | cons f fs ih => simp [AllStripped, ih, and_assoc]

end Fragment

/-! ### Events with nothing to strip -/

namespace Xml.Builder

variable {b b' : Builder} {t : Tree} {fs : List Frame} {x : Branch} {items items' : List (Nat × Event)}

/-- Stripping makes no difference to what a builder makes of some events. -/
def Unstripped (b : Builder) (items : List (Nat × Event)) : Prop :=
  feed .strip b items = feed .keep b items

namespace Unstripped

/-- Without events, stripping makes no difference. -/
lemma nil (b : Builder) : b.Unstripped [] :=
  rfl

/-- If stripping makes no difference to the first event, it is enough to look at the rest. -/
lemma cons {position : Nat} {event : Event} (hstep : b.step .keep position event = .ok b')
    (hsame : b.step .strip position event = b.step .keep position event)
    (h : b'.Unstripped items) : b.Unstripped ((position, event) :: items) := by
  rw [Unstripped, feed_cons hstep, feed_cons (hsame.trans hstep), h]

/-- It makes none to two lists of events in a row if it makes none to either. -/
lemma append (hfeed : feed .keep b items = .ok b') (h : b.Unstripped items)
    (h' : b'.Unstripped items') : b.Unstripped (items ++ items') := by
  rw [Unstripped, feed_append hfeed, feed_append (h.trans hfeed), h']

end Unstripped

/-- What is put into an element without content becomes its text. -/
lemma text_opening_extend (n : NodeId) (tag : String) (attributes : List (String × String))
    (text : String) (row : List Branch) :
    ((opening n tag attributes).extend text row).own.text.getD "" = text := by
  rw [Branch.extend, appendContent_of_nil rfl]
  simp [opening]

/-- Text between two tags is kept if it is not blank or stands in an element with text. -/
lemma Builds.unstripped_ofText (hb : b.Builds t fs x) {s : String}
    (hs : x.own.text.getD "" = "" → Text.isBlank s = true → s = "")
    (hitems : items.map Prod.snd = Content.eventsAll (Content.ofText s)) : b.Unstripped items := by
  by_cases hempty : s = ""
  · rw [Content.ofText, if_pos hempty, Content.eventsAll, List.map_eq_nil_iff] at hitems
    rw [hitems]
    exact .nil b
  · rw [Content.ofText, if_neg hempty, Content.eventsAll, Content.events, Content.eventsAll,
      List.append_nil, List.map_eq_singleton_iff] at hitems
    obtain ⟨⟨position, _⟩, rfl, rfl⟩ := hitems
    have htext : t.text x.number = x.own.text.getD "" := by
      rw [← hb.holds.entry_eq]
      rfl
    refine .cons rfl ?_ (.nil _)
    rw [step, step, hb.addText_strip, htext, if_neg]
    exact fun h => hempty (hs h.2 h.1)

/-- Fed with what is written for an element that it can open, a builder has nothing to strip if there
is nothing to strip inside of the element. -/
lemma unstripped_content {tag : String} {attributes namespaces : Bindings}
    (hopen : ∀ position, ∃ b' t fs n,
      b.step .keep position (.start tag (writtenAttributes attributes namespaces)) = .ok b' ∧
        b'.Builds t fs (opening n tag (writtenAttributes attributes namespaces)))
    {text : Option String} (htext : Text.isBlank (text.getD "") = true → text.getD "" = "")
    {children : List Fragment}
    (hchildren : ∀ {b : Builder} {t : Tree} {fs : List Frame} {x : Branch}
      {items : List (Nat × Event)}, b.Builds t fs x → x.own.text.getD "" = text.getD "" →
      items.map Prod.snd = Content.eventsAll (Fragment.contents children) → b.Unstripped items)
    (tail : Option String)
    (hitems : items.map Prod.snd =
      (Fragment.element tag attributes namespaces text tail children).content.events) :
    b.Unstripped items := by
  rw [Fragment.content] at hitems
  split at hitems
  · obtain ⟨⟨position, _⟩, rfl, rfl⟩ := List.map_eq_singleton_iff.1 hitems
    rfl
  · rw [Content.events, List.map_eq_cons_iff] at hitems
    obtain ⟨⟨position, _⟩, items, rfl, rfl, hitems⟩ := hitems
    obtain ⟨inner, outer, rfl, hinner, houter⟩ := List.map_eq_append_iff.1 hitems
    obtain ⟨⟨position', _⟩, rfl, rfl⟩ := List.map_eq_singleton_iff.1 houter
    obtain ⟨b₁, t, fs, n, hstart, hb₁⟩ := hopen position
    obtain ⟨b₂, -, hfeed₂, -⟩ := hb₁.feed hinner
    rw [Content.eventsAll_append, List.map_eq_append_iff] at hinner
    obtain ⟨front, inside, rfl, hfront, hinside⟩ := hinner
    obtain ⟨b₃, t₃, hfeed₃, hb₃, -⟩ := hb₁.feed hfront
    -- The tags themselves are taken in the same way whether or not blank text is stripped.
    refine .cons hstart rfl (.append hfeed₂ (.append hfeed₃ ?_ ?_) rfl)
    · exact hb₁.unstripped_ofText (fun _ => htext) hfront
    · refine hchildren hb₃ ?_ hinside
      have hleading := Fragment.leadingText_ofText (text.getD "") []
      rw [Fragment.contents, List.append_nil] at hleading
      rw [text_opening_extend, hleading]

/-- Fed with what is written for stripped children of an element, a builder has nothing to strip. -/
theorem Builds.unstripped_contents {text : String} {children : List Fragment}
    (hb : b.Builds t fs x) (htext : x.own.text.getD "" = text)
    (hstripped : Fragment.AllStripped text children)
    (hitems : items.map Prod.snd = Content.eventsAll (Fragment.contents children)) :
    b.Unstripped items := by
  induction children using Fragment.induction generalizing text b t fs x items with
  | nil =>
    rw [Fragment.contents, Content.eventsAll, List.map_eq_nil_iff] at hitems
    rw [hitems]
    exact .nil b
  | cons tag attributes namespaces text' tail children rest ih ihRest =>
    rw [Fragment.AllStripped, Fragment.Stripped] at hstripped
    obtain ⟨⟨htext', hchildren⟩, htail, hrest⟩ := hstripped
    rw [Fragment.contents, Content.eventsAll, Content.eventsAll_append,
      List.map_eq_append_iff] at hitems
    obtain ⟨inside, items, rfl, hinside, hitems⟩ := hitems
    obtain ⟨behind, later, rfl, hbehind, hlater⟩ := List.map_eq_append_iff.1 hitems
    generalize hchild :
      Fragment.element tag attributes namespaces text' tail children = child at *
    have helement : inside.map Prod.snd = Content.eventsAll [child.content] := by
      rw [hinside, Content.eventsAll, Content.eventsAll, List.append_nil]
    have hfront : (inside ++ behind).map Prod.snd =
        Content.eventsAll (child.content :: Content.ofText child.tail) := by
      rw [List.map_append, hinside, hbehind, Content.eventsAll]
    obtain ⟨b₁, t₁, hfeed₁, hb₁, -⟩ := hb.feed helement
    obtain ⟨b₂, t₂, hfeed₂, hb₂, -⟩ := hb.feed hfront
    -- There is no text in front of the child, and what is behind it goes to tails: the text of the
    -- open element, on which stripping depends, stays what it is.
    have hown (cs : List Content) (row : List Branch) :
        (x.extend (Content.leadingText (child.content :: cs)) row).own = x.own := by
      rw [Fragment.leadingText_content_cons, Branch.extend_empty, own_node]
    rw [← List.append_assoc]
    refine .append hfeed₂ (.append hfeed₁ ?_ ?_) ?_
    · rw [← hchild] at hinside
      refine unstripped_content (fun position => ?_) htext'
        (fun hb htext => ih hb htext hchildren) tail hinside
      obtain ⟨b', t', hstart, hb', -⟩ := hb.start position tag
        (writtenAttributes attributes namespaces)
      exact ⟨b', t', _, _, hstart, hb'⟩
    · refine hb₁.unstripped_ofText ?_ hbehind
      rw [hown, htext]
      exact htail
    · refine ihRest hb₂ ?_ hrest hlater
      rw [hown, htext]

/-- Fed with what is written for a stripped fragment, a builder has nothing to strip at all. -/
theorem unstripped_document {f : Fragment} (hstripped : f.Stripped)
    (hitems : items.map Prod.snd = f.document.events) : Unstripped {} items := by
  obtain ⟨tag, attributes, namespaces, text, tail, children⟩ := f
  rw [Fragment.Stripped] at hstripped
  rw [Fragment.events_document] at hitems
  refine unstripped_content (fun _ => ⟨_, _, _, _, rfl, builds_root ..⟩) hstripped.1 ?_ tail hitems
  exact fun hb htext => hb.unstripped_contents htext hstripped.2

end Xml.Builder

namespace Fragment

/-- A stripped fragment that is written is parsed to the same tree whether or not blank text is
stripped. -/
theorem parse_strip_eq {f : Fragment} (hwritable : f.Writable) (hstripped : f.Stripped) :
    Tree.parse .strip f.toXml = Tree.parse .keep f.toXml := by
  obtain ⟨items, hitems, hread⟩ := read_toXml hwritable
  have hfeed := Builder.unstripped_document hstripped hitems
  rw [Tree.parse, Tree.parse, hread, Reading.tree, Reading.tree, hfeed]

end Fragment

namespace Tree

variable {t u : Tree}

/-- Each element of a parsed tree has the tag, the attributes and the namespaces that a tag of the
document gives it. -/
theorem exists_bare_entry_of_parse {blanks : Blanks} {document : String}
    (h : parse blanks document = .ok t) :
    ∀ n < t.size, ∃ tag attributes, (t.entry n).bare = (Xml.opening n tag attributes).own := by
  refine parse_induction (t := t) ?ofRoot ?addChild ?extendContent h
  case ofRoot =>
    intro tag attributes n hn
    obtain rfl := Nat.lt_one_iff.1 hn
    exact ⟨tag, attributes, rfl⟩
  case addChild =>
    intro t parent tag attributes ht hparent ih n hn
    rw [Xml.entry_addChild tag attributes ht hparent]
    split
    · next hnew => exact ⟨tag, attributes, hnew ▸ rfl⟩
    · next hold =>
      rw [Xml.size_addChild] at hn
      exact ih n (Nat.lt_of_le_of_ne (Nat.le_of_lt_succ hn) hold)
  case extendContent =>
    intro t parent s ht hparent ih n hn
    rw [bare_entry_extendContent]
    exact ih n (size_extendContent s ▸ hn)

/-- No attribute of a parsed tree is named like the declaration of a namespace. -/
lemma declaredName?_of_parse {blanks : Blanks} {document : String}
    (h : parse blanks document = .ok t) {n : NodeId} (hn : n < t.size) {entry : String × String}
    (hentry : entry ∈ (t.attributes n).entries) : declaredName? entry.1 = none := by
  obtain ⟨tag, attributes, hbare⟩ := exists_bare_entry_of_parse h n hn
  have hattributes : t.attributes n = plainAttributes attributes := congrArg Entry.attributes hbare
  rw [hattributes] at hentry
  exact declaredName?_of_mem_plainAttributes hentry

/-- A stripped tree has stripped fragments. -/
lemma StripsTo.stripped_fragment (h : StripsTo t u) (ht : t.WellFormed) (n : NodeId) :
    (u.fragment n).Stripped := by
  have hu := h.wellFormed ht
  induction n using hu.child_induction with
  | step n ih =>
    rw [← fragment_branch, branch_eq hu, Branch.fragment_node, Fragment.Stripped,
      Fragment.allStripped_iff, List.map_map, List.forall_mem_map]
    refine ⟨h.text_eq_empty n, fun c hc => ?_⟩
    rw [Function.comp_apply, fragment_branch]
    refine ⟨ih c hc, fun htext => ?_⟩
    rw [← fragment_branch, Branch.tail_fragment, Branch.tail, own_branch hu]
    exact h.tail_eq_empty n htext c hc

/-- A stripped tree all whose names are names of XML is parsed back from its written form although
blank text is stripped again: elements, attributes, texts and tails are the same, each element declares
the same namespaces, and the written form of what is parsed is what was written before. -/
theorem restripped (document : String) (u : Tree) (h : parse .strip document = .ok u)
    (hnames : ∀ n < u.size, IsName (u.tag n) ∧
      (∀ entry ∈ (u.attributes n).entries, IsName entry.1) ∧
      ∀ entry ∈ (u.declaredNamespaces n).entries, entry.1 = "" ∨ IsName entry.1) :
    ∃ v, parse .strip (u.toXml root) = .ok v ∧ v.WellFormed ∧
      v.semanticallyEqual root u root = true ∧
      (v.fragment root).sameNamespaces (u.fragment root) = true ∧
      v.toXml root = u.toXml root := by
  have hu := wellFormed_of_parse h
  have hwritable : (u.fragment root).Writable := by
    refine writable_fragment hu fun m hm => ?_
    have hlt : m < u.size := by
      rcases hm with rfl | hm
      · exact hu.size_pos
      · exact lt_size_of_below hu hm
    obtain ⟨htag, hattributes, hprefixes⟩ := hnames m hlt
    refine ⟨htag, hattributes, fun entry hentry => ?_, hprefixes⟩
    exact declaredName?_eq_none_iff.1 (declaredName?_of_parse h hlt hentry)
  have hstripped : (u.fragment root).Stripped := by
    obtain ⟨t, ht, hstrips⟩ := exists_stripsTo_of_parse h
    exact hstrips.stripped_fragment (wellFormed_of_parse ht) root
  obtain ⟨v, hparse, hv, hsame, hnamespaces⟩ := Fragment.exists_parse_of_writable hwritable
  refine ⟨v, ?_, hv, hsame, hnamespaces, Fragment.toXml_congr hsame hnamespaces⟩
  rw [toXml, Fragment.parse_strip_eq hwritable hstripped, hparse]

/-- What is left of a paragraph whose text comes in three pieces, the first of them blank:

    <para> <![CDATA[see]]> <ref xmlns:s="u" s:id="i"/> <ref> </ref></para>
-/
def crossReference : Tree :=
  ⟨#[{ tag := "para", text := some "see ", children := [1, 2] },
    { tag := "ref", attributes := .ofList [("s:id", "i")], namespaces := .ofList [("s", "u")],
      tail := some " ", parent := some 0 },
    { tag := "ref", parent := some 0 }]⟩

/-- What is left of the paragraph is written, read back and written again as it was. -/
theorem restripped_crossReference :
    parse .strip "<para> <![CDATA[see]]> <ref xmlns:s=\"u\" s:id=\"i\"/> <ref> </ref></para>" =
        .ok crossReference ∧
      (∀ n < crossReference.size, IsName (crossReference.tag n) ∧
        (∀ entry ∈ (crossReference.attributes n).entries, IsName entry.1) ∧
        ∀ entry ∈ (crossReference.declaredNamespaces n).entries, entry.1 = "" ∨ IsName entry.1) ∧
      ∃ v, parse .strip (crossReference.toXml root) = .ok v ∧ v.WellFormed ∧
        v.semanticallyEqual root crossReference root = true ∧
        (v.fragment root).sameNamespaces (crossReference.fragment root) = true ∧
        v.toXml root = crossReference.toXml root := by
  have hparse : parse .strip
      "<para> <![CDATA[see]]> <ref xmlns:s=\"u\" s:id=\"i\"/> <ref> </ref></para>" =
      .ok crossReference := by
    decide +kernel
  have hnames : ∀ n < crossReference.size, IsName (crossReference.tag n) ∧
      (∀ entry ∈ (crossReference.attributes n).entries, IsName entry.1) ∧
      ∀ entry ∈ (crossReference.declaredNamespaces n).entries, entry.1 = "" ∨ IsName entry.1 := by
    decide
  exact ⟨hparse, hnames, restripped _ crossReference hparse hnames⟩

end Tree

end DoxygenRest

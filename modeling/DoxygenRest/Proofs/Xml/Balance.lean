import DoxygenRest.Proofs.Branch.Roll
import DoxygenRest.Proofs.Xml.Building
import DoxygenRest.Proofs.Xml.Nesting

/-!
# Which documents are accepted

A document becomes a tree exactly if it can be read to its end and holds one element, with all its
end tags and no tag around it; the error tells which of the other shapes it has
(`Tree.outcome_of_parse`).

The reader and the builder both keep a stack of the open elements, the one of names, the other of
numbers.  They are in step on events that are balanced: these leave a builder inside of the element
in which it was (`Builder.Builds.balanced`), so that each end tag meets the element it belongs to.
So a builder never meets an end tag that it has to refuse.
-/

namespace DoxygenRest

open Branch

namespace Xml

variable (blanks : Blanks) {items : List (Nat × Event)} {events : List Event}

namespace Builder

variable {b : Builder} {t : Tree} {fs : List Frame} {x : Branch}

/-! ### Inside of an element -/

/-- Text leaves a builder inside of the element in which it is. -/
lemma Builds.text (hb : b.Builds t fs x) (s : String) :
    ∃ u y, (b.addText blanks s).Builds u fs y ∧ y.own.tag = x.own.tag := by
  obtain ⟨u, hu, -⟩ := hb.addText s
  have htag : (x.appendContent s).own.tag = x.own.tag :=
    congrArg Label.tag (label_appendContent x s)
  cases blanks with
  | keep => exact ⟨u, _, hu, htag⟩
  | strip =>
    rw [hb.addText_strip]
    split
    · exact ⟨t, x, hb, rfl⟩
    · exact ⟨u, _, hu, htag⟩

/-- An event that is no tag leaves the same element open. -/
lemma Builds.step_other (hb : b.Builds t fs x) (position : Nat) {event : Event}
    (hevent : event.isTag = false) :
    ∃ b' u y, b.step blanks position event = .ok b' ∧ b'.Builds u fs y ∧
      y.own.tag = x.own.tag := by
  cases event with
  | text s | cdata s =>
    obtain ⟨u, y, hu, htag⟩ := hb.text blanks s
    exact ⟨_, u, y, rfl, hu, htag⟩
  | comment | instruction | doctype => exact ⟨b, t, x, rfl, hb, rfl⟩
  | start | empty | stop => cases hevent

/-- What a builder does with tags does not depend on what it does with blank text. -/
lemma step_of_isTag (b : Builder) (position : Nat) {event : Event} (hevent : event.isTag = true) :
    b.step .keep position event = b.step blanks position event := by
  cases event with
  | start | empty | stop => rfl
  | text | cdata | comment | instruction | doctype => cases hevent

/-- Balanced events leave a builder inside of the element in which it is. -/
theorem Builds.balanced (hb : b.Builds t fs x) (hevents : Balanced events)
    (hitems : items.map Prod.snd = events) :
    ∃ b' u y, Builder.feed blanks b items = .ok b' ∧ b'.Builds u fs y ∧
      y.own.tag = x.own.tag := by
  induction hevents generalizing b t fs x items with
  | nil =>
    obtain rfl := List.map_eq_nil_iff.1 hitems
    exact ⟨b, t, x, rfl, hb, rfl⟩
  | other hevent hevents ih =>
    obtain ⟨⟨position, _⟩, items, rfl, rfl, hrest⟩ := List.map_eq_cons_iff.1 hitems
    obtain ⟨b₁, u₁, y₁, hstep, hb₁, htag₁⟩ := hb.step_other blanks position hevent
    obtain ⟨b', u, y, hfeed, hb', htag⟩ := ih hb₁ hrest
    exact ⟨b', u, y, (feed_cons hstep).trans hfeed, hb', htag.trans htag₁⟩
  | empty tag attributes hevents ih =>
    obtain ⟨⟨position, _⟩, items, rfl, rfl, hrest⟩ := List.map_eq_cons_iff.1 hitems
    obtain ⟨b₁, u₁, hstep, hb₁, -⟩ := hb.empty position tag attributes
    rw [step_of_isTag blanks b position rfl] at hstep
    obtain ⟨b', u, y, hfeed, hb', htag⟩ := ih hb₁ hrest
    rw [Branch.extend_empty, own_node] at htag
    exact ⟨b', u, y, (feed_cons hstep).trans hfeed, hb', htag⟩
  | element tag attributes hinside hevents ihInside ih =>
    obtain ⟨⟨position, _⟩, items, rfl, rfl, hrest⟩ := List.map_eq_cons_iff.1 hitems
    obtain ⟨inner, items, rfl, hinner, hbehind⟩ := List.map_eq_append_iff.1 hrest
    obtain ⟨⟨position', _⟩, items, rfl, rfl, houter⟩ := List.map_eq_cons_iff.1 hbehind
    obtain ⟨b₁, u₁, hstart, hb₁, -⟩ := hb.start position tag attributes
    obtain ⟨b₂, u₂, y₂, hinside, hb₂, htag₂⟩ := ihInside hb₁ hinner
    obtain ⟨b₃, hstop, hb₃⟩ := hb₂.stop position'
    -- the end tag meets the element that the start tag opened
    rw [htag₂, step_of_isTag blanks b₂ position' rfl] at hstop
    rw [step_of_isTag blanks b position rfl] at hstart
    obtain ⟨b', u, y, hfeed, hb', htag⟩ := ih hb₃ houter
    exact ⟨b', u, y,
      (feed_cons hstart).trans ((feed_append hinside).trans ((feed_cons hstop).trans hfeed)),
      hb', htag⟩

/-! ### From the start of a document -/

/-- After a whole element, a builder has a tree and no element open. -/
lemma exists_of_isElement (hevents : IsElement events) (hitems : items.map Prod.snd = events) :
    ∃ b t, Builder.feed blanks {} items = .ok b ∧ b.tree? = some t ∧ b.opened = [] := by
  cases hevents with
  | empty tag attributes =>
    obtain ⟨⟨position, _⟩, items, rfl, rfl, hrest⟩ := List.map_eq_cons_iff.1 hitems
    obtain rfl := List.map_eq_nil_iff.1 hrest
    exact ⟨_, _, feed_cons rfl, rfl, rfl⟩
  | element tag attributes hinside =>
    obtain ⟨⟨position, _⟩, items, rfl, rfl, hrest⟩ := List.map_eq_cons_iff.1 hitems
    obtain ⟨inner, items, rfl, hinner, hbehind⟩ := List.map_eq_append_iff.1 hrest
    obtain ⟨⟨position', _⟩, items, rfl, rfl, hnone⟩ := List.map_eq_cons_iff.1 hbehind
    obtain rfl := List.map_eq_nil_iff.1 hnone
    obtain ⟨b₁, u, y, hfeed, hb₁, htag⟩ := (builds_root tag attributes).balanced blanks hinside hinner
    obtain ⟨b, hstop, htree, hopened⟩ := hb₁.stopRoot position'
    rw [htag, step_of_isTag blanks b₁ position' rfl] at hstop
    refine ⟨b, u, ?_, htree, hopened⟩
    exact (feed_cons rfl).trans ((feed_append hfeed).trans (feed_cons hstop))

/-- Events with one root are built, and nothing is left open. -/
lemma exists_of_isWhole (hevents : IsWhole events) (hitems : items.map Prod.snd = events) :
    ∃ b t, Builder.feed blanks {} items = .ok b ∧ b.tree? = some t ∧ b.opened = [] := by
  obtain ⟨hprolog, hroot, hepilog⟩ := hevents
  obtain ⟨front, behind, rfl, hfront, rfl⟩ := List.map_eq_append_iff.1 hitems
  obtain ⟨before, inner, rfl, rfl, hinner⟩ := List.map_eq_append_iff.1 hfront
  obtain ⟨b, t, hfeed, htree, hopened⟩ := exists_of_isElement blanks hroot hinner
  refine ⟨b, t, ?_, htree, hopened⟩
  rw [List.append_assoc, feed_append (feed_outside rfl hprolog), feed_append hfeed,
    feed_outside hopened hepilog]

/-- After events that end within elements, a builder is inside of the innermost one. -/
lemma exists_of_endsWithin {opened : List String} (hevents : EndsWithin opened events)
    (hitems : items.map Prod.snd = events) :
    ∃ b t fs x, Builder.feed blanks {} items = .ok b ∧ b.Builds t fs x ∧
      opened.head? = some x.own.tag := by
  induction hevents generalizing items with
  | root hprolog tag attributes hinside =>
    obtain ⟨before, items, rfl, rfl, hrest⟩ := List.map_eq_append_iff.1 hitems
    obtain ⟨⟨position, _⟩, items, rfl, rfl, hinner⟩ := List.map_eq_cons_iff.1 hrest
    obtain ⟨b, u, y, hfeed, hb, htag⟩ := (builds_root tag attributes).balanced blanks hinside hinner
    refine ⟨b, u, [], y, ?_, hb, congrArg some htag.symm⟩
    rw [feed_append (feed_outside rfl hprolog)]
    exact (feed_cons rfl).trans hfeed
  | child hfront tag attributes hinside ih =>
    obtain ⟨before, items, rfl, hbefore, hrest⟩ := List.map_eq_append_iff.1 hitems
    obtain ⟨⟨position, _⟩, items, rfl, rfl, hinner⟩ := List.map_eq_cons_iff.1 hrest
    obtain ⟨b₁, t₁, fs, x, hfeed₁, hb₁, -⟩ := ih hbefore
    obtain ⟨b₂, t₂, hstart, hb₂, -⟩ := hb₁.start position tag attributes
    rw [step_of_isTag blanks b₁ position rfl] at hstart
    obtain ⟨b, u, y, hfeed, hb, htag⟩ := hb₂.balanced blanks hinside hinner
    refine ⟨b, u, _, y, ?_, hb, congrArg some htag.symm⟩
    rw [feed_append hfeed₁]
    exact (feed_cons hstart).trans hfeed

/-- A second element is refused where it begins. -/
lemma feed_of_hasSecondRoot {position : Nat} {tag : String}
    (h : HasSecondRoot items position tag) :
    Builder.feed blanks {} items = .error (.multipleRoots position tag) := by
  obtain ⟨front, event, rest, rfl, hwhole, hopens⟩ := h
  obtain ⟨b, t, hfeed, htree, hopened⟩ := exists_of_isWhole blanks hwhole rfl
  have hopen (attributes : List (String × String)) :
      b.openElement position tag attributes = .error (.multipleRoots position tag) := by
    rw [openElement, htree, hopened]
  have hstep : b.step blanks position event = .error (.multipleRoots position tag) := by
    cases event with
    | start tag' attributes =>
      obtain rfl := Option.some.inj hopens
      rw [step, hopen]
      rfl
    | empty tag' attributes =>
      obtain rfl := Option.some.inj hopens
      rw [step, hopen]
      rfl
    | text | cdata | comment | instruction | doctype | stop => cases hopens
  rw [feed_append hfeed, Builder.feed, List.foldlM_cons, hstep]
  rfl

end Builder

/-! ### The outcomes -/

variable {r : Reading}

/-- Where no second element begins, the outcome is the fault of the reader or what the builder makes
of the end. -/
lemma tree_eq_of_feed {b : Builder} (h : Builder.feed blanks {} r.events = .ok b) :
    r.tree blanks = match r.failure? with
      | some (position, cause) => .error (.unreadable position cause)
      | none => b.finish := by
  rw [Reading.tree, h]
  rfl

/-- Without tags there is no root. -/
lemma tree_of_isTagless (hfailure : r.failure? = none)
    (h : IsTagless (r.events.map Prod.snd)) : r.tree blanks = .error .missingRoot := by
  rw [tree_eq_of_feed blanks (Builder.feed_outside rfl h), hfailure]
  rfl

/-- A document with one root is accepted. -/
lemma tree_of_isWhole (hfailure : r.failure? = none) (h : IsWhole (r.events.map Prod.snd)) :
    ∃ t, r.tree blanks = .ok t := by
  obtain ⟨b, t, hfeed, htree, hopened⟩ := Builder.exists_of_isWhole blanks h rfl
  refine ⟨t, ?_⟩
  rw [tree_eq_of_feed blanks hfeed, hfailure]
  simp only [Builder.finish, htree, hopened]

/-- A document that ends within an element is refused, by the name of that. -/
lemma tree_of_endsWithin {tag : String} {outer : List String} (hfailure : r.failure? = none)
    (h : EndsWithin (tag :: outer) (r.events.map Prod.snd)) :
    r.tree blanks = .error (.unclosed tag) := by
  obtain ⟨b, t, fs, x, hfeed, hb, htag⟩ := Builder.exists_of_endsWithin blanks h rfl
  obtain rfl := Option.some.inj htag
  rw [tree_eq_of_feed blanks hfeed, hfailure]
  simp only [Builder.finish, hb.tree?_eq, hb.opened_eq, hb.holds.tag_eq]

/-- A document with a second root is refused there, whatever comes behind. -/
lemma tree_of_hasSecondRoot {position : Nat} {tag : String}
    (h : HasSecondRoot r.events position tag) :
    r.tree blanks = .error (.multipleRoots position tag) := by
  rw [Reading.tree, Builder.feed_of_hasSecondRoot blanks h]
  rfl

/-- What comes out of a reading, with what is the case of the reading if it does. -/
inductive Verdict (r : Reading) : Except DocumentError Tree → Prop
  | accepted (hfailure : r.failure? = none) (h : IsWhole (r.events.map Prod.snd)) (t : Tree) :
      Verdict r (.ok t)
  | missingRoot (hfailure : r.failure? = none) (h : IsTagless (r.events.map Prod.snd)) :
      Verdict r (.error .missingRoot)
  | multipleRoots {position : Nat} {tag : String} (h : HasSecondRoot r.events position tag) :
      Verdict r (.error (.multipleRoots position tag))
  | unclosed {tag : String} (hfailure : r.failure? = none)
      (h : ∃ outer, EndsWithin (tag :: outer) (r.events.map Prod.snd)) :
      Verdict r (.error (.unclosed tag))
  | unreadable {position : Nat} {cause : Error} (hfailure : r.failure? = some (position, cause)) :
      Verdict r (.error (.unreadable position cause))

/-- Whatever a document is, what comes out tells the shape of what was read of it. -/
theorem verdict_of_read (document : String) :
    Verdict (read document) ((read document).tree blanks) := by
  -- A fault of the reader counts only if the builder got to the end of the events.
  have hfault {position : Nat} {cause : Error} {b : Builder}
      (hfailure : (read document).failure? = some (position, cause))
      (hfeed : Builder.feed blanks {} (read document).events = .ok b) :
      Verdict (read document) ((read document).tree blanks) := by
    rw [tree_eq_of_feed blanks hfeed, hfailure]
    exact .unreadable hfailure
  -- Without tags, ending within an element, whole, or with a second root.
  rcases nesting_of_read document with htagless | ⟨tag, outer, hwithin⟩ | hwhole |
    ⟨position, tag, hsecond⟩
  · cases hfailure : (read document).failure? with
    | none =>
      rw [tree_of_isTagless blanks hfailure htagless]
      exact .missingRoot hfailure htagless
    | some fault => exact hfault hfailure (Builder.feed_outside rfl htagless)
  · cases hfailure : (read document).failure? with
    | none =>
      rw [tree_of_endsWithin blanks hfailure hwithin]
      exact .unclosed hfailure ⟨outer, hwithin⟩
    | some fault =>
      obtain ⟨b, _, _, _, hfeed, -⟩ := Builder.exists_of_endsWithin blanks hwithin rfl
      exact hfault hfailure hfeed
  · cases hfailure : (read document).failure? with
    | none =>
      obtain ⟨t, htree⟩ := tree_of_isWhole blanks hfailure hwhole
      rw [htree]
      exact .accepted hfailure hwhole t
    | some fault =>
      obtain ⟨b, _, hfeed, -⟩ := Builder.exists_of_isWhole blanks hwhole rfl
      exact hfault hfailure hfeed
  · rw [tree_of_hasSecondRoot blanks hsecond]
    exact .multipleRoots hsecond

end Xml

open Xml

namespace Tree

/-- A document becomes a tree if and only if it can be read to its end and holds one element, with
all its end tags and no tag around it.  It has no root if and only if it can be read to its end and
holds no element; it has more than one if and only if a second element begins behind a whole one,
whatever follows; and it is unclosed if and only if it can be read to its end and ends within
elements, the innermost of which is named.  Else it cannot be read, and the reader tells why.  No
end tag is ever found unbalanced in what the reader lets pass. -/
theorem outcome_of_parse (blanks : Blanks) (document : String) :
    ((∃ t, parse blanks document = .ok t) ↔
      (read document).failure? = none ∧ IsWhole ((read document).events.map Prod.snd)) ∧
    (parse blanks document = .error .missingRoot ↔
      (read document).failure? = none ∧ ∀ event ∈ (read document).events.map Prod.snd,
        event.opens? = none) ∧
    (∀ position tag, parse blanks document = .error (.multipleRoots position tag) ↔
      HasSecondRoot (read document).events position tag) ∧
    (∀ tag, parse blanks document = .error (.unclosed tag) ↔
      (read document).failure? = none ∧
        ∃ outer, EndsWithin (tag :: outer) ((read document).events.map Prod.snd)) ∧
    (∀ position cause, parse blanks document = .error (.unreadable position cause) ↔
      (read document).failure? = some (position, cause) ∧
        ¬ ∃ position' tag, HasSecondRoot (read document).events position' tag) ∧
    ∀ position expected found,
      parse blanks document ≠ .error (.unbalancedEndTag position expected found) := by
  -- Every result is one of the five verdicts, and what each of them says of the events excludes the
  -- others.
  have hverdict : Verdict (read document) (parse blanks document) :=
    verdict_of_read blanks document
  have hopens := isTagless_iff_of_read document
  refine ⟨⟨?_, ?_⟩, ⟨?_, ?_⟩, fun position tag => ⟨?_, ?_⟩, fun tag => ⟨?_, ?_⟩,
    fun position cause => ⟨?_, ?_⟩, ?_⟩
  · rintro ⟨t, htree⟩
    rw [htree] at hverdict
    cases hverdict with
    | accepted hfailure hwhole => exact ⟨hfailure, hwhole⟩
  · rintro ⟨hfailure, hwhole⟩
    exact tree_of_isWhole blanks hfailure hwhole
  · intro htree
    rw [htree] at hverdict
    cases hverdict with
    | missingRoot hfailure htagless => exact ⟨hfailure, hopens.1 htagless⟩
  · rintro ⟨hfailure, hnone⟩
    exact tree_of_isTagless blanks hfailure (hopens.2 hnone)
  · intro htree
    rw [htree] at hverdict
    cases hverdict with
    | multipleRoots hsecond => exact hsecond
  · exact tree_of_hasSecondRoot blanks
  · intro htree
    rw [htree] at hverdict
    cases hverdict with
    | unclosed hfailure hwithin => exact ⟨hfailure, hwithin⟩
  · rintro ⟨hfailure, outer, hwithin⟩
    exact tree_of_endsWithin blanks hfailure hwithin
  · intro htree
    rw [htree] at hverdict
    cases hverdict with
    | unreadable hfailure =>
      refine ⟨hfailure, ?_⟩
      rintro ⟨position', tag, hsecond⟩
      cases htree.symm.trans (tree_of_hasSecondRoot blanks hsecond)
  · rintro ⟨hfailure, hsecond⟩
    generalize parse blanks document = result at hverdict ⊢
    cases hverdict with
    | accepted hnone | missingRoot hnone | unclosed hnone => cases hnone.symm.trans hfailure
    | multipleRoots h => exact absurd ⟨_, _, h⟩ hsecond
    | unreadable hfault =>
      obtain ⟨rfl, rfl⟩ := Prod.mk.inj (Option.some.inj (hfault.symm.trans hfailure))
      rfl
  · intro position expected found htree
    rw [htree] at hverdict
    cases hverdict

end Tree

end DoxygenRest

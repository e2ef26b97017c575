import DoxygenRest.Proofs.Program
import DoxygenRest.Proofs.Xml.Building

/-!
# Parsed documents are well-formed trees

Whatever the events of a document are, and whether or not blank text is kept, a builder that takes
them in stands before the root of the document, inside of it or behind it (`Builder.Stage`), and has a
well-formed tree as soon as it has one: each event leads from one of these stages to another
(`Builder.Stage.step`).  So what a document is parsed to is a well-formed tree
(`Tree.wellFormed_of_parse`), and it is made in few ways: by adding elements, and text at the end of
elements (`Tree.parse_induction`).
-/

namespace DoxygenRest

open Branch

namespace Xml

namespace Builder

variable {b b' : Builder} {blanks : Blanks}

/-- An end tag leaves the tree as it is. -/
lemma closeElement_ok {position : Nat} {tag : String}
    (h : b.closeElement position tag = .ok b') : b'.tree? = b.tree? ∧ b'.lastClosed? ≠ none := by
  rw [closeElement] at h
  split at h
  · split at h
    · cases h
      exact ⟨rfl, by simp⟩
    · cases h
  · cases h

/-- Where a builder can stand: before the root of a document, inside of the root, where the innermost
open element is at the place up to which all is built, or behind the root. -/
inductive Stage (b : Builder) : Prop
  | before (htree : b.tree? = none) (hopened : b.opened = [])
  | inside {t : Tree} {fs : List Frame} {x : Branch} (h : b.Builds t fs x)
  | behind {t : Tree} (htree : b.tree? = some t) (hopened : b.opened = []) (h : t.WellFormed)

/-- At the start, nothing is built. -/
lemma stage_start : Stage {} :=
  .before rfl rfl

namespace Stage

/-- What is built is well-formed at any stage. -/
lemma wellFormed (hb : b.Stage) {t : Tree} (htree : b.tree? = some t) : t.WellFormed := by
  cases hb with
  | before hnone => cases hnone.symm.trans htree
  | inside h =>
    obtain rfl := Option.some.inj (h.tree?_eq.symm.trans htree)
    exact h.wellFormed
  | behind hsome hopened h =>
    obtain rfl := Option.some.inj (hsome.symm.trans htree)
    exact h

/-- A builder with an open element is inside of the root, and this element is the innermost one. -/
lemma exists_builds (hb : b.Stage) {n : NodeId} {outer : List NodeId}
    (hopened : b.opened = n :: outer) : ∃ t fs x, b.Builds t fs x ∧ x.number = n := by
  cases hb with
  | before htree hnone => cases hnone.symm.trans hopened
  | @inside t fs x h => exact ⟨t, fs, x, h, (List.cons_eq_cons.1 (h.opened_eq.symm.trans hopened)).1⟩
  | behind htree hnone h => cases hnone.symm.trans hopened

/-- The root of a document, right after it was opened. -/
lemma builds_openElement (htree : b.tree? = none) (hopened : b.opened = []) {position : Nat}
    {tag : String} {attributes : List (String × String)} {n : NodeId}
    (hopen : b.openElement position tag attributes = .ok (n, b')) :
    ∃ t, t.WellFormed ∧ b'.tree? = some t ∧ b'.opened = [] ∧
      Builds { b' with opened := n :: b'.opened } t [] (opening Tree.root tag attributes) := by
  rw [openElement, htree] at hopen
  cases hopen
  have hroot := builds_root tag attributes
  refine ⟨_, hroot.wellFormed, rfl, hopened, ?_⟩
  simp only [hopened]
  exact hroot

/-- A start tag leads to the next stage. -/
lemma start (hb : b.Stage) {position : Nat} {tag : String} {attributes : List (String × String)}
    (hstep : b.step blanks position (.start tag attributes) = .ok b') : b'.Stage := by
  cases hb with
  | before htree hopened =>
    obtain ⟨⟨n, b₁⟩, hopen, hrest⟩ := Program.exists_of_bind_eq_ok hstep
    obtain ⟨t, -, -, -, hroot⟩ := builds_openElement htree hopened hopen
    cases hrest
    exact .inside hroot
  | inside h =>
    obtain ⟨b₁, u, hkeep, hb₁, -⟩ := h.start position tag attributes
    cases hkeep.symm.trans hstep
    exact .inside hb₁
  | behind htree hopened h =>
    rw [step, openElement, htree, hopened] at hstep
    cases hstep

/-- So does an empty element. -/
lemma empty (hb : b.Stage) {position : Nat} {tag : String} {attributes : List (String × String)}
    (hstep : b.step blanks position (.empty tag attributes) = .ok b') : b'.Stage := by
  cases hb with
  | before htree hopened =>
    obtain ⟨⟨n, b₁⟩, hopen, hrest⟩ := Program.exists_of_bind_eq_ok hstep
    obtain ⟨t, ht, hsome, hnone, -⟩ := builds_openElement htree hopened hopen
    cases hrest
    exact .behind hsome hnone ht
  | inside h =>
    obtain ⟨b₁, u, hkeep, hb₁, -⟩ := h.empty position tag attributes
    cases hkeep.symm.trans hstep
    exact .inside hb₁
  | behind htree hopened h =>
    rw [step, openElement, htree, hopened] at hstep
    cases hstep

/-- So does an end tag. -/
lemma stop (hb : b.Stage) {position : Nat} {tag : String}
    (hstep : b.step blanks position (.stop tag) = .ok b') : b'.Stage := by
  cases hb with
  | before htree hopened =>
    rw [step, closeElement, htree] at hstep
    cases hstep
  | @inside t fs x h =>
    have htag : tag = x.own.tag := by
      simp only [step, closeElement, h.tree?_eq, h.opened_eq, h.holds.tag_eq] at hstep
      split at hstep
      · next heq => exact heq.symm
      · cases hstep
    subst htag
    cases fs with
    | nil =>
      obtain ⟨b₁, hkeep, htree, hopened⟩ := h.stopRoot position
      cases hkeep.symm.trans hstep
      exact .behind htree hopened h.wellFormed
    | cons f fs =>
      obtain ⟨b₁, hkeep, hb₁⟩ := h.stop position
      cases hkeep.symm.trans hstep
      exact .inside hb₁
  | behind htree hopened h =>
    rw [step, closeElement, htree, hopened] at hstep
    cases hstep

/-- So does text. -/
lemma addText (hb : b.Stage) (s : String) : (b.addText blanks s).Stage := by
  cases hb with
  | before htree hopened =>
    rw [addText_outside hopened]
    exact .before htree hopened
  | inside h =>
    obtain ⟨u, hu, -⟩ := h.addText s
    cases blanks with
    | keep => exact .inside hu
    | strip =>
      rw [h.addText_strip]
      split
      · exact .inside h
      · exact .inside hu
  | behind htree hopened h =>
    rw [addText_outside hopened]
    exact .behind htree hopened h

/-- Each event leads a builder from one of its stages to another. -/
theorem step (hb : b.Stage) {position : Nat} {event : Event}
    (hstep : b.step blanks position event = .ok b') : b'.Stage := by
  cases event with
  | start tag attributes => exact hb.start hstep
  | empty tag attributes => exact hb.empty hstep
  | stop tag => exact hb.stop hstep
  | text s | cdata s =>
    cases hstep
    exact hb.addText s
  | comment | instruction | doctype =>
    cases hstep
    exact hb

/-- After any events, a builder stands at one of its stages. -/
theorem feed (hb : b.Stage) {items : List (Nat × Event)}
    (hfeed : Builder.feed blanks b items = .ok b') : b'.Stage :=
  feed_induction (motive := fun b _ => b.Stage) (fun hstep hb => hb.step hstep) hfeed hb

variable {motive : Tree → Prop}
  (ofRoot : ∀ tag attributes,
    motive (.ofRoot tag (plainAttributes attributes) (declaredNamespaces attributes)))
  (addChild : ∀ t n tag attributes, t.WellFormed → n < t.size → motive t →
    motive (Xml.addChild t n tag attributes))
  (extendContent : ∀ t n s, t.WellFormed → n < t.size → motive t → motive (t.extendContent n s))

include ofRoot addChild in
/-- What each new element keeps holds after a start tag. -/
lemma motive_openElement (hb : b.Stage) {position : Nat} {tag : String}
    {attributes : List (String × String)} {n : NodeId}
    (hopen : b.openElement position tag attributes = .ok (n, b'))
    (hmotive : ∀ t ∈ b.tree?, motive t) : ∀ t ∈ b'.tree?, motive t := by
  cases hb with
  | before htree hopened =>
    rw [openElement, htree] at hopen
    cases hopen
    rintro _ ⟨⟩
    exact ofRoot tag attributes
  | inside h =>
    rw [openElement, h.tree?_eq, h.opened_eq] at hopen
    cases hopen
    rintro _ ⟨⟩
    exact addChild _ _ tag attributes h.wellFormed h.lt_size (hmotive _ h.tree?_eq)
  | behind htree hopened h =>
    rw [openElement, htree, hopened] at hopen
    cases hopen

include extendContent in
/-- What each added text keeps holds after text. -/
lemma motive_addText (hb : b.Stage) (s : String) (hmotive : ∀ t ∈ b.tree?, motive t) :
    ∀ t ∈ (b.addText blanks s).tree?, motive t := by
  cases hopened : b.opened with
  | nil =>
    rw [addText_outside hopened]
    exact hmotive
  | cons n outer =>
    obtain ⟨t, fs, x, h, -⟩ := hb.exists_builds hopened
    rw [h.addText_ite]
    split
    · exact hmotive
    · rintro _ ⟨⟩
      exact extendContent t x.number s h.wellFormed h.lt_size (hmotive t h.tree?_eq)

include ofRoot addChild extendContent

/-- What holds of a tree that is being built holds after one more event. -/
lemma motive_step (hb : b.Stage) {position : Nat} {event : Event}
    (hstep : b.step blanks position event = .ok b') (hmotive : ∀ t ∈ b.tree?, motive t) :
    ∀ t ∈ b'.tree?, motive t := by
  cases event with
  | start tag attributes =>
    obtain ⟨⟨n, c⟩, hopen, hrest⟩ := Program.exists_of_bind_eq_ok hstep
    cases hrest
    show ∀ t ∈ c.tree?, motive t
    exact motive_openElement ofRoot addChild hb hopen hmotive
  | empty tag attributes =>
    obtain ⟨⟨n, c⟩, hopen, hrest⟩ := Program.exists_of_bind_eq_ok hstep
    cases hrest
    show ∀ t ∈ c.tree?, motive t
    exact motive_openElement ofRoot addChild hb hopen hmotive
  | stop tag =>
    rw [(closeElement_ok hstep).1]
    exact hmotive
  | text s | cdata s =>
    cases hstep
    exact motive_addText extendContent hb s hmotive
  | comment | instruction | doctype =>
    cases hstep
    exact hmotive

/-- So it holds after all events. -/
lemma motive_feed (hb : b.Stage) {items : List (Nat × Event)}
    (hfeed : Builder.feed blanks b items = .ok b') (hmotive : ∀ t ∈ b.tree?, motive t) :
    ∀ t ∈ b'.tree?, motive t := by
  have hrun : b'.Stage ∧ ∀ t ∈ b'.tree?, motive t := by
    refine feed_induction (motive := fun b _ => b.Stage ∧ ∀ t ∈ b.tree?, motive t) ?_ hfeed
      ⟨hb, hmotive⟩
    rintro b b' position event items hstep ⟨hb, hmotive⟩
    exact ⟨hb.step hstep, motive_step ofRoot addChild extendContent hb hstep hmotive⟩
  exact hrun.2

end Stage

end Builder

/-- What a document is read as becomes a tree if a builder takes all of it in, and has a tree then and
no element open. -/
lemma Reading.exists_of_tree_eq_ok {blanks : Blanks} {r : Reading} {t : Tree}
    (h : r.tree blanks = .ok t) :
    r.failure? = none ∧ ∃ b, Builder.feed blanks {} r.events = .ok b ∧ b.tree? = some t ∧
      b.opened = [] := by
  obtain ⟨b, hfeed, hrest⟩ := Program.exists_of_bind_eq_ok h
  cases hfailure : r.failure? with
  | some fault =>
    rw [hfailure] at hrest
    cases hrest
  | none =>
    rw [hfailure] at hrest
    simp only [Builder.finish] at hrest
    split at hrest
    · cases hrest
    · next htree hopened =>
      cases hrest
      exact ⟨rfl, b, hfeed, htree, hopened⟩
    · cases hrest

end Xml

open Xml

/-- Parsed trees are made of one element by adding elements, and text at the end of elements. -/
@[elab_as_elim]
theorem Tree.parse_induction {motive : Tree → Prop}
    (ofRoot : ∀ tag attributes,
      motive (.ofRoot tag (plainAttributes attributes) (Xml.declaredNamespaces attributes)))
    (addChild : ∀ t n tag attributes, t.WellFormed → n < t.size → motive t →
      motive (Xml.addChild t n tag attributes))
    (extendContent : ∀ t n s, t.WellFormed → n < t.size → motive t → motive (t.extendContent n s))
    {blanks : Blanks} {document : String} {t : Tree} (h : Tree.parse blanks document = .ok t) :
    motive t := by
  obtain ⟨-, b, hfeed, htree, -⟩ := Reading.exists_of_tree_eq_ok h
  have hnone : ∀ t ∈ (none : Option Tree), motive t := by
    rintro _ ⟨⟩
  exact Builder.stage_start.motive_feed ofRoot addChild extendContent hfeed hnone t htree

/-- What a document is parsed to is a well-formed tree. -/
theorem Tree.wellFormed_of_parse {blanks : Blanks} {document : String} {t : Tree}
    (h : Tree.parse blanks document = .ok t) : t.WellFormed := by
  obtain ⟨-, b, hfeed, htree, -⟩ := Reading.exists_of_tree_eq_ok h
  exact (Builder.stage_start.feed hfeed).wellFormed htree

end DoxygenRest

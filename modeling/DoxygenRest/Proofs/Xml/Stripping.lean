import DoxygenRest.Proofs.Text.Visible
import DoxygenRest.Proofs.Text.White
import DoxygenRest.Proofs.Xml.WellFormed

/-!
# Stripping blank text

Whether blank text is kept or stripped, a document is parsed to the same tree but for blank text, or
refused for the same reason (`Tree.parse_endAlike`).

Two builders, one of which keeps blank text while the other strips it, take in the same events side by
side.  They have the same elements open, and the trees they have built are related by `Tree.StripsTo`
(`Builder.Abreast`).  The trees come apart where a blank text is stripped: in an element that has no
text yet.  If such an element gets text later on, it has no children so far, since behind a child all
text goes to tails; so the tails of the children of an element with text are never touched.
-/

namespace DoxygenRest

/-! ### Trees that differ in blank text -/

namespace Tree

/-- `u` is `t` without some of its blank text.  Elements with text keep all text between their
children, and what is left of the text of other elements is nowhere blank. -/
structure StripsTo (t u : Tree) : Prop where
  size_eq : u.size = t.size
  bare_entry_eq : ∀ n, (u.entry n).bare = (t.entry n).bare
  parent?_eq : ∀ n, u.parent? n = t.parent? n
  children_eq : ∀ n, u.children n = t.children n
  visible_text : ∀ n, Text.visible (u.text n) = Text.visible (t.text n)
  visible_tail : ∀ n, Text.visible (u.tail n) = Text.visible (t.tail n)
  tail?_eq : ∀ n, u.text n ≠ "" → ∀ c ∈ u.children n, u.tail? c = t.tail? c
  text_eq_empty : ∀ n, Text.isBlank (u.text n) = true → u.text n = ""
  tail_eq_empty : ∀ n, u.text n = "" → ∀ c ∈ u.children n, Text.isBlank (u.tail c) = true →
    u.tail c = ""

namespace StripsTo

variable {t u : Tree} {n : NodeId} {s : String}

/-- Stripping keeps the names. -/
lemma tag_eq (h : StripsTo t u) (n : NodeId) : u.tag n = t.tag n :=
  congrArg Entry.tag (h.bare_entry_eq n)

/-- Stripping keeps the children, and so the last one. -/
lemma lastChild?_eq (h : StripsTo t u) (n : NodeId) : u.lastChild? n = t.lastChild? n := by
  rw [lastChild?, h.children_eq, lastChild?]

/-- Stripping keeps a tree well-formed. -/
lemma wellFormed (h : StripsTo t u) (ht : t.WellFormed) : u.WellFormed :=
  ht.of_links (Nat.le_of_eq h.size_eq.symm) h.parent?_eq h.children_eq

/-- Of two elements of which the one has a given last child and the other holds this child, the one is
the other. -/
lemma eq_of_lastChild? (ht : t.WellFormed) {m c : NodeId} (hlast : t.lastChild? n = some c)
    (hc : c ∈ t.children m) : m = n := by
  have hn := ht.mem_children_iff.1 (List.mem_of_getLast? hlast)
  exact Option.some.inj ((ht.mem_children_iff.1 hc).symm.trans hn)

/-- An element that holds another keeps its text when text is put at the end of an element. -/
lemma text_extendContent_of_mem (hn : n < t.size) {m c : NodeId} (hc : c ∈ t.children m)
    (s : String) : (t.extendContent n s).text m = t.text m := by
  rw [text_extendContent hn, if_neg]
  rintro ⟨rfl, hlast⟩
  rw [lastChild?, List.getLast?_eq_none_iff] at hlast
  rw [hlast] at hc
  cases hc

/-- Text that is not blank, or that is put into an element with text, is kept by both. -/
theorem extendContent (h : StripsTo t u) (ht : t.WellFormed) (hn : n < t.size)
    (hs : Text.isBlank s = true → u.text n ≠ "") :
    StripsTo (t.extendContent n s) (u.extendContent n s) := by
  have hu := h.wellFormed ht
  have hnu : n < u.size := h.size_eq ▸ hn
  constructor
  case size_eq => simp [h.size_eq]
  case bare_entry_eq => simp [h.bare_entry_eq]
  case parent?_eq => simp [h.parent?_eq]
  case children_eq => simp [h.children_eq]
  case visible_text =>
    intro m
    rw [text_extendContent hnu, text_extendContent hn, h.lastChild?_eq]
    split
    · rw [Text.visible_append, Text.visible_append, h.visible_text]
    · exact h.visible_text m
  case visible_tail =>
    intro m
    rw [tail_extendContent hu, tail_extendContent ht, h.lastChild?_eq]
    split
    · rw [Text.visible_append, Text.visible_append, h.visible_tail]
    · exact h.visible_tail m
  case tail?_eq =>
    intro m htext c hc
    rw [children_extendContent] at hc
    rw [text_extendContent_of_mem hnu hc] at htext
    rw [tail?_extendContent hu, tail?_extendContent ht, h.lastChild?_eq, h.tail?_eq m htext c hc]
  case text_eq_empty =>
    intro m hblank
    rw [text_extendContent hnu] at hblank ⊢
    split at hblank
    -- A text that is blank with more behind it was blank, so empty, and got blank text.
    · next hm =>
      obtain ⟨htext, hblank⟩ := Text.isBlank_append_iff.1 hblank
      exact absurd (h.text_eq_empty m htext) (hm.1 ▸ hs hblank)
    · next hm =>
      rw [if_neg hm]
      exact h.text_eq_empty m hblank
  case tail_eq_empty =>
    intro m htext c hc hblank
    rw [children_extendContent] at hc
    rw [text_extendContent_of_mem hnu hc] at htext
    rw [tail_extendContent hu] at hblank ⊢
    split at hblank
    · next hlast =>
      obtain ⟨-, hblank⟩ := Text.isBlank_append_iff.1 hblank
      exact absurd htext (eq_of_lastChild? hu hlast hc ▸ hs hblank)
    · next hlast =>
      rw [if_neg hlast]
      exact h.tail_eq_empty m htext c hc hblank

/-- Blank text in an element without text is kept by the one and stripped by the other. -/
theorem strip (h : StripsTo t u) (ht : t.WellFormed) (hn : n < t.size)
    (hs : Text.isBlank s = true) (htext : u.text n = "") : StripsTo (t.extendContent n s) u := by
  have hu := h.wellFormed ht
  have hnone := Text.visible_eq_nil_iff.2 hs
  constructor
  case size_eq => simp [h.size_eq]
  case bare_entry_eq => simp [h.bare_entry_eq]
  case parent?_eq => simp [h.parent?_eq]
  case children_eq => simp [h.children_eq]
  case visible_text =>
    intro m
    rw [text_extendContent hn]
    split
    · rw [Text.visible_append, hnone, List.append_nil, h.visible_text]
    · exact h.visible_text m
  case visible_tail =>
    intro m
    rw [tail_extendContent ht]
    split
    · rw [Text.visible_append, hnone, List.append_nil, h.visible_tail]
    · exact h.visible_tail m
  case tail?_eq =>
    intro m hm c hc
    rw [tail?_extendContent ht, ← h.lastChild?_eq, if_neg]
    · exact h.tail?_eq m hm c hc
    · intro hlast
      exact hm (eq_of_lastChild? hu hlast hc ▸ htext)
  case text_eq_empty => exact h.text_eq_empty
  case tail_eq_empty => exact h.tail_eq_empty

variable (tag : String) (attributes : List (String × String))

/-- An element that is added has no text yet. -/
theorem addChild (h : StripsTo t u) (ht : t.WellFormed) (hn : n < t.size) :
    StripsTo (Xml.addChild t n tag attributes) (Xml.addChild u n tag attributes) := by
  have hu := h.wellFormed ht
  have hnu : n < u.size := h.size_eq ▸ hn
  have hmoved := Xml.movedInto_addChild tag attributes ht hn
  have hmovedu := Xml.movedInto_addChild tag attributes hu hnu
  have htext (m : NodeId) : (Xml.addChild t n tag attributes).text m = t.text m :=
    congrArg (Option.getD · "") (Xml.texts_addChild tag attributes ht hn m).1
  have htextu (m : NodeId) : (Xml.addChild u n tag attributes).text m = u.text m :=
    congrArg (Option.getD · "") (Xml.texts_addChild tag attributes hu hnu m).1
  have htail (m : NodeId) : (Xml.addChild t n tag attributes).tail? m = t.tail? m :=
    (Xml.texts_addChild tag attributes ht hn m).2
  have htailu (m : NodeId) : (Xml.addChild u n tag attributes).tail? m = u.tail? m :=
    (Xml.texts_addChild tag attributes hu hnu m).2
  -- The new element is the only other child, and it has no tail yet.
  have hchild {m c : NodeId} (hc : c ∈ (Xml.addChild u n tag attributes).children m) :
      c ∈ u.children m ∨ c = u.size := by
    rw [Xml.children_addChild tag attributes hu hnu, List.mem_append] at hc
    refine hc.imp_right fun hc => ?_
    split at hc
    · exact List.mem_singleton.1 hc
    · cases hc
  constructor
  case size_eq =>
    rw [Xml.size_addChild, Xml.size_addChild, h.size_eq]
  case bare_entry_eq =>
    intro m
    rw [Xml.entry_addChild tag attributes hu hnu, Xml.entry_addChild tag attributes ht hn,
      h.size_eq]
    split
    · rfl
    · exact h.bare_entry_eq m
  case parent?_eq =>
    intro m
    rw [hmoved.parent?, hmovedu.parent?, h.size_eq, Xml.parent?_created, Xml.parent?_created,
      h.parent?_eq]
  case children_eq =>
    intro m
    rw [Xml.children_addChild tag attributes hu hnu, Xml.children_addChild tag attributes ht hn,
      h.children_eq, h.size_eq]
  case visible_text =>
    intro m
    rw [htext, htextu, h.visible_text]
  case visible_tail =>
    intro m
    rw [tail, tail, htail, htailu]
    exact h.visible_tail m
  case tail?_eq =>
    intro m hm c hc
    rw [htextu] at hm
    rw [htail, htailu]
    rcases hchild hc with hc | rfl
    · exact h.tail?_eq m hm c hc
    · rw [tail?_of_size_le (Nat.le_refl _), tail?_of_size_le (Nat.le_of_eq h.size_eq.symm)]
  case text_eq_empty =>
    intro m hblank
    rw [htextu] at hblank ⊢
    exact h.text_eq_empty m hblank
  case tail_eq_empty =>
    intro m hm c hc
    rw [htextu] at hm
    rw [tail, htailu]
    rcases hchild hc with hc | rfl
    · exact h.tail_eq_empty m hm c hc
    · rw [tail?_of_size_le (Nat.le_refl _)]
      exact fun _ => rfl

end StripsTo

/-- A tree of one element without text has nothing to strip. -/
lemma stripsTo_ofRoot (tag : String) (attributes namespaces : Bindings) :
    StripsTo (ofRoot tag attributes namespaces) (ofRoot tag attributes namespaces) := by
  constructor
  case text_eq_empty =>
    intro n _
    rcases n with _ | n <;> rfl
  case tail_eq_empty =>
    intro n _ c hc
    rw [children, (element_ofRoot tag attributes namespaces n).2] at hc
    cases hc
  all_goals intros; rfl

end Tree

/-! ### Two builders side by side -/

namespace Xml

open Program

namespace Builder

variable {b c : Builder}

/-- Two builders, of which the second has stripped blank text, stand at the same place of a
document. -/
inductive Abreast : Builder → Builder → Prop
  | before (opened : List NodeId) (last? last?' : Option NodeId) :
    Abreast ⟨none, opened, last?⟩ ⟨none, opened, last?'⟩
  | begun {t u : Tree} (h : t.StripsTo u) (opened : List NodeId) (last? last?' : Option NodeId) :
    Abreast ⟨some t, opened, last?⟩ ⟨some u, opened, last?'⟩

namespace Abreast

/-- The two builders have the same elements open. -/
lemma opened_eq (h : Abreast b c) : c.opened = b.opened := by
  cases h <;> rfl

/-- A start tag keeps the builders abreast, or it is refused by both. -/
lemma openElement (h : Abreast b c) (hb : b.Stage) (position : Nat) (tag : String)
    (attributes : List (String × String)) :
    EndAlike (fun p q => q.1 = p.1 ∧ Abreast p.2 q.2) (b.openElement position tag attributes)
      (c.openElement position tag attributes) := by
  cases h with
  | before => exact .ok ⟨rfl, .begun (Tree.stripsTo_ofRoot ..) ..⟩
  | @begun t u h opened =>
    cases opened with
    | nil => exact .error _
    | cons n outer =>
      obtain ⟨_, fs, x, hbuilds, rfl⟩ := hb.exists_builds rfl
      obtain rfl := Option.some.inj hbuilds.tree?_eq
      exact .ok ⟨h.size_eq,
        .begun (h.addChild tag attributes hbuilds.wellFormed hbuilds.lt_size) ..⟩

/-- So does an end tag. -/
lemma closeElement (h : Abreast b c) (position : Nat) (tag : String) :
    EndAlike Abreast (b.closeElement position tag) (c.closeElement position tag) := by
  cases h with
  | before => exact .error _
  | begun h opened =>
    cases opened with
    | nil => exact .error _
    | cons n outer =>
      simp only [Builder.closeElement, h.tag_eq]
      split
      · exact .ok (.begun h ..)
      · exact .error _

/-- Text that one builder keeps and the other one strips keeps them abreast. -/
lemma addText (h : Abreast b c) (hb : b.Stage) (hc : c.Stage) (s : String) :
    Abreast (b.addText .keep s) (c.addText .strip s) := by
  cases hopened : b.opened with
  | nil =>
    rw [addText_outside hopened, addText_outside (h.opened_eq.trans hopened)]
    exact h
  | cons n outer =>
    obtain ⟨t, fs, x, hbuilds, rfl⟩ := hb.exists_builds hopened
    obtain ⟨u, gs, y, hbuilds', hnumber⟩ := hc.exists_builds (h.opened_eq.trans hopened)
    rw [hbuilds'.addText_strip, hbuilds'.addText_eq, hbuilds.addText_eq, hnumber]
    cases h with
    | before => cases hbuilds.tree?_eq
    | begun h =>
      obtain rfl := Option.some.inj hbuilds.tree?_eq
      obtain rfl := Option.some.inj hbuilds'.tree?_eq
      split
      · next hs => exact .begun (h.strip hbuilds.wellFormed hbuilds.lt_size hs.1 hs.2) ..
      · next hs =>
        rw [not_and] at hs
        exact .begun (h.extendContent hbuilds.wellFormed hbuilds.lt_size hs) ..

/-- One event leads two builders that stand at the same place to the same place, or to the same
failure. -/
theorem step (h : Abreast b c) (hb : b.Stage) (hc : c.Stage) (position : Nat) (event : Event) :
    EndAlike Abreast (b.step .keep position event) (c.step .strip position event) := by
  cases event with
  | start tag attributes =>
    refine (h.openElement hb position tag attributes).bind ?_
    rintro ⟨n, b'⟩ ⟨_, c'⟩ ⟨rfl, h'⟩
    cases h' with
    | before => exact .ok (.before ..)
    | begun h' => exact .ok (.begun h' ..)
  | empty tag attributes =>
    refine (h.openElement hb position tag attributes).bind ?_
    rintro ⟨n, b'⟩ ⟨_, c'⟩ ⟨rfl, h'⟩
    cases h' with
    | before => exact .ok (.before ..)
    | begun h' => exact .ok (.begun h' ..)
  | stop tag => exact h.closeElement position tag
  | text s | cdata s => exact .ok (h.addText hb hc s)
  | comment | instruction | doctype => exact .ok h

/-- Whatever the events, two builders that stand at the same place take them in side by side. -/
theorem feed (h : Abreast b c) (hb : b.Stage) (hc : c.Stage) (items : List (Nat × Event)) :
    EndAlike Abreast (Builder.feed .keep b items) (Builder.feed .strip c items) := by
  have hrun : EndAlike (fun b c => Abreast b c ∧ b.Stage ∧ c.Stage) (Builder.feed .keep b items)
      (Builder.feed .strip c items) := by
    refine EndAlike.foldlM ?_ ⟨h, hb, hc⟩ items
    rintro b c ⟨position, event⟩ ⟨h, hb, hc⟩
    refine (h.step hb hc position event).imp fun b' c' hstep hstep' h' => ?_
    exact ⟨h', hb.step hstep, hc.step hstep'⟩
  exact hrun.imp fun b' c' _ _ h => h.1

/-- At the end, both have built a tree, or both are refused alike. -/
lemma finish (h : Abreast b c) : EndAlike Tree.StripsTo b.finish c.finish := by
  cases h with
  | before => exact .error _
  | begun h opened =>
    cases opened with
    | nil => exact .ok h
    | cons n outer =>
      simp only [Builder.finish, h.tag_eq]
      exact .error _

end Abreast

end Builder

/-- What is read of a document becomes the same tree but for blank text, or is refused for the same
reason. -/
theorem Reading.tree_endAlike (r : Reading) :
    EndAlike Tree.StripsTo (r.tree .keep) (r.tree .strip) := by
  have hstart : Builder.Abreast {} {} := .before [] none none
  refine (hstart.feed Builder.stage_start Builder.stage_start r.events).bind fun b c h => ?_
  cases r.failure? with
  | some fault => exact .error _
  | none => exact h.finish

end Xml

/-- A tree that is parsed with blank text stripped is one that is parsed with it kept, but for blank
text. -/
lemma Tree.exists_stripsTo_of_parse {document : String} {u : Tree}
    (h : Tree.parse .strip document = .ok u) :
    ∃ t, Tree.parse .keep document = .ok t ∧ t.StripsTo u := by
  have halike := (Xml.read document).tree_endAlike
  rw [← Tree.parse, ← Tree.parse, h] at halike
  generalize ht : Tree.parse .keep document = x at halike
  cases halike with
  | ok hstrips => exact ⟨_, rfl, hstrips⟩

/-- Every document is refused for the same reason whether or not blank text is stripped, or else it is
parsed to trees that differ in blank text only: they have the same elements with the same tags,
attributes, namespaces and links, the same characters other than white space in each text and tail, and
where an element has text in the stripped tree, the tails of its children are the same. -/
theorem Tree.parse_endAlike (document : String) :
    Program.EndAlike Tree.StripsTo (Tree.parse .keep document) (Tree.parse .strip document) :=
  (Xml.read document).tree_endAlike

end DoxygenRest

import DoxygenRest.Proofs.Adjust.Clearance

/-!
# Readings of a branch

A reading of a branch follows its texts in document order.  What a text is read as may depend on the
element that directly contains it, white space aside, and some elements may be read as a whole, no
matter what they hold: those that the pass replaces or removes at once.  An element of a tree is read
as the branch at it (`Reading.readAt_eq`).

Steps move texts about, but a reading of the whole branch stays the same if it agrees with the few
decisions of a step about what is text and what is not (`Reading.Agrees`, `Step.read_eq`).
-/

namespace DoxygenRest.Adjust

open Branch

/-- A way to read a branch as a row of symbols. -/
structure Reading (α : Type) where
  /-- What a text is read as that an element with this own data directly contains. -/
  ink : Entry → String → List α
  /-- What an element with this tag is read as, whatever it holds, if it is read this way; it may
  matter whether it lies in a highlight. -/
  stamp? : (highlighted : Bool) → (tag : String) → Option (List α)
  ink_append : ∀ e s s', ink e (s ++ s') = ink e s ++ ink e s'
  ink_congr : ∀ {e e'} s, e'.tag = e.tag → e'.attributes = e.attributes → ink e' s = ink e s
  ink_blank : ∀ e e' {s}, Text.isBlank s = true → ink e s = ink e' s
  stamped : ∀ {highlighted tag}, stamp? highlighted tag ≠ none →
    tag ∈ Schema.presentationTags ∨ tag = "linebreak" ∨ tag = "sp" ∧ highlighted = true

variable {α : Type} (R : Reading α) {highlighted : Bool} {outer : Context} {x y : Branch}
  {f : Frame} {fs : List Frame}

namespace Reading

mutual

/-- What a branch is read as. -/
def read (R : Reading α) (highlighted : Bool) : Branch → List α
  | node _ e cs =>
    R.ink e (e.text.getD "") ++ readRow R (highlighted || e.tag == "highlight") e cs

/-- What a row of branches inside of an element is read as, tails included. -/
def readRow (R : Reading α) (highlighted : Bool) (around : Entry) : List Branch → List α
  | [] => []
  | b :: bs =>
    (R.stamp? highlighted b.own.tag).getD (read R highlighted b) ++
      (R.ink around b.tail ++ readRow R highlighted around bs)

end

/-- What an element inside of another is read as. -/
def item (highlighted : Bool) (b : Branch) : List α :=
  (R.stamp? highlighted b.own.tag).getD (R.read highlighted b)

/-- An element is read as its text and what its children say, one level written out. -/
lemma read_eq (x : Branch) : R.read highlighted x =
    R.ink x.own x.text ++ R.readRow (highlighted || x.own.tag == "highlight") x.own x.children := by
  cases x
  rw [read]
  rfl

/-- Nothing is read from no elements. -/
lemma readRow_nil (e : Entry) : R.readRow highlighted e [] = [] := by
  rw [readRow]

/-- A row is read as its first element, the tail of that and the rest. -/
lemma readRow_cons (e : Entry) (b : Branch) (bs : List Branch) :
    R.readRow highlighted e (b :: bs) =
      R.item highlighted b ++ (R.ink e b.tail ++ R.readRow highlighted e bs) := by
  rw [readRow, item]

/-- Rows behind each other are read one after the other. -/
lemma readRow_append (e : Entry) (bs cs : List Branch) :
    R.readRow highlighted e (bs ++ cs) =
      R.readRow highlighted e bs ++ R.readRow highlighted e cs := by
  induction bs with
  | nil => rw [List.nil_append, readRow_nil, List.nil_append]
  | cons b bs ih =>
    rw [List.cons_append, readRow_cons, readRow_cons, ih]
    simp only [List.append_assoc]

/-- A text that is empty is read as nothing. -/
@[simp] lemma ink_empty (e : Entry) : R.ink e "" = [] := by
  have happend := R.ink_append e "" ""
  rw [String.append_empty] at happend
  exact List.self_eq_append_right.1 happend

/-- Text is read the same in elements that are alike. -/
lemma ink_alike {e e' : Entry} (h : e.Alike e') (s : String) : R.ink e' s = R.ink e s :=
  R.ink_congr s h.tag h.attributes

/-- A row is read by the tag and the attributes of the element around it. -/
lemma readRow_congr {e e' : Entry} (htag : e'.tag = e.tag) (hattributes : e'.attributes = e.attributes)
    (bs : List Branch) : R.readRow highlighted e' bs = R.readRow highlighted e bs := by
  induction bs with
  | nil => rw [readRow_nil, readRow_nil]
  | cons b bs ih => rw [readRow_cons, readRow_cons, ih, R.ink_congr b.tail htag hattributes]

/-- So is a row of children. -/
lemma readRow_alike {e e' : Entry} (h : e.Alike e') (bs : List Branch) :
    R.readRow highlighted e' bs = R.readRow highlighted e bs :=
  R.readRow_congr h.tag h.attributes bs

/-- An element that is not read as a whole is read as what it holds. -/
lemma item_of_eq_none (h : R.stamp? highlighted x.own.tag = none) :
    R.item highlighted x = R.read highlighted x := by
  rw [item, h, Option.getD_none]

/-- A tail is read outside of its element. -/
@[simp] lemma read_withTail (x : Branch) (tail : Option String) :
    R.read highlighted (x.withTail tail) = R.read highlighted x := by
  have halike : x.own.Alike (x.withTail tail).own := ⟨rfl, rfl, rfl⟩
  rw [read_eq, read_eq]
  exact congrArg₂ _ (R.ink_alike halike x.text) (R.readRow_alike halike x.children)

/-- What is read for an element leaves out its tail. -/
@[simp] lemma item_withTail (x : Branch) (tail : Option String) :
    R.item highlighted (x.withTail tail) = R.item highlighted x := by
  rw [item, item, read_withTail]
  rfl

/-- Text added to the tail is no part of the element. -/
@[simp] lemma item_extendTail (x : Branch) (more : String) :
    R.item highlighted (x.extendTail more) = R.item highlighted x :=
  R.item_withTail x _

/-- Text that is appended to the content of an element is read last of all that it holds. -/
lemma read_appendContent (x : Branch) (more : String) :
    R.read highlighted (x.appendContent more) = R.read highlighted x ++ R.ink x.own more := by
  rcases x.children_cases with hnil | ⟨bs, last, hlast⟩
  · rw [appendContent_of_nil hnil, read_eq, read_eq, hnil, children_node, own_node, Branch.text,
      own_node, getD_appendTo, readRow_nil, readRow_nil, List.append_nil, List.append_nil,
      R.ink_append, ← Branch.text]
    exact congrArg₂ _ (R.ink_congr _ rfl rfl) (R.ink_congr _ rfl rfl)
  · rw [appendContent_of_append hlast, read_eq, read_eq, hlast, children_node, own_node,
      readRow_append, readRow_append, readRow_cons, readRow_cons, readRow_nil, item_extendTail,
      tail_extendTail, R.ink_append]
    simp only [List.append_nil, List.append_assoc]
    rfl

/-- An element is read as all its text if texts are read alike everywhere, and so is each element
inside that is read as a whole. -/
lemma read_eq_ink (hink : ∀ e e' s, R.ink e s = R.ink e' s) {Q : Bool → Branch → Prop}
    (hQ : ∀ {highlighted : Bool} {y : Branch}, Q highlighted y →
      ∀ symbols ∈ R.stamp? highlighted y.own.tag, symbols = R.ink y.own y.stringValue)
    (h : ThroughoutRow Q (highlighted || x.own.tag == "highlight") x.children) :
    R.read highlighted x = R.ink x.own x.stringValue := by
  induction x using Branch.induction generalizing highlighted with
  | step n e cs ih =>
    have hrow (k : Bool) (bs : List Branch) (hsub : bs ⊆ cs) (hbs : ThroughoutRow Q k bs) :
        R.readRow k e bs = R.ink e (stringValues bs) := by
      induction bs with
      | nil => rw [readRow_nil, stringValues_nil, ink_empty]
      | cons b bs ihbs =>
        obtain ⟨hb, hbs'⟩ := List.cons_subset.1 hsub
        obtain ⟨hqb, hinside⟩ := throughout_iff.1 hbs.1
        have hitem : R.item k b = R.ink e b.stringValue := by
          rw [item, ← hink b.own]
          cases hstamp : R.stamp? k b.own.tag with
          | none => exact ih b hb hinside
          | some symbols => exact hQ hqb symbols hstamp
        rw [readRow_cons, stringValues_cons, R.ink_append, R.ink_append, ihbs hbs' hbs.2, hitem]
    rw [own_node, children_node] at h
    rw [read_eq, stringValue_eq, R.ink_append, own_node, children_node,
      hrow _ cs (List.Subset.refl _) h]

/-! ### Reading around a place -/

/-- What is read in an element before the child that was taken out. -/
def before (highlighted : Bool) (f : Frame) : List α :=
  R.ink f.own (f.own.text.getD "") ++
    R.readRow (highlighted || f.own.tag == "highlight") f.own f.before.reverse

/-- What is read in an element with a row put in a place. -/
lemma read_fillRow (f : Frame) (row : List Branch) :
    R.read highlighted (f.fillRow row) =
      R.before highlighted f ++
        (R.readRow (highlighted || f.own.tag == "highlight") f.own row ++
          R.readRow (highlighted || f.own.tag == "highlight") f.own f.after) := by
  rw [Frame.fillRow, read, readRow_append, readRow_append, before]
  simp only [List.append_assoc]

/-- Text that is put before a place is read last of what is there. -/
lemma before_extendBefore (f : Frame) (more : String) :
    R.before highlighted (f.extendBefore more) = R.before highlighted f ++ R.ink f.own more := by
  unfold Frame.extendBefore
  split
  · next hnil =>
    simp only [before, hnil, List.reverse_nil, readRow_nil, List.append_nil, getD_appendTo,
      R.ink_append]
    exact congrArg₂ _ (R.ink_congr _ rfl rfl) (R.ink_congr _ rfl rfl)
  · next prev rest hcons =>
    simp only [before, hcons, List.reverse_cons, readRow_append, readRow_cons, readRow_nil,
      item_extendTail, tail_extendTail, R.ink_append, List.append_nil, List.append_assoc]

/-- What is read with text put before a place and a row put there. -/
lemma read_fillRow_extendBefore (f : Frame) (more : String) (row : List Branch) :
    R.read highlighted ((f.extendBefore more).fillRow row) =
      R.before highlighted f ++ (R.ink f.own more ++
        (R.readRow (highlighted || f.own.tag == "highlight") f.own row ++
          R.readRow (highlighted || f.own.tag == "highlight") f.own f.after)) := by
  have halike := f.alike_extendBefore more
  rw [read_fillRow, before_extendBefore, Frame.after_extendBefore, halike.tag,
    R.readRow_alike halike, R.readRow_alike halike, List.append_assoc]

/-- The whole is read the same if what stands at a place is. -/
theorem read_plug_congr (fs : List Frame) {x y : Branch} (halike : x.own.Alike y.own)
    (htail : y.own.tail = x.own.tail)
    (hread : R.read (contextAt outer fs).highlighted y = R.read (contextAt outer fs).highlighted x) :
    R.read outer.highlighted (plug fs y) = R.read outer.highlighted (plug fs x) := by
  induction fs generalizing x y with
  | nil => exact hread
  | cons f fs ih =>
    refine ih ⟨rfl, rfl, rfl⟩ rfl ?_
    have hitem : R.item (contextAt outer (f :: fs)).highlighted y =
        R.item (contextAt outer (f :: fs)).highlighted x := by
      rw [item, item, halike.tag, hread]
    have htails : y.tail = x.tail := by rw [Branch.tail, htail, Branch.tail]
    rw [contextAt, Context.inside] at hitem
    simp only at hitem
    rw [← Frame.fillRow_singleton, ← Frame.fillRow_singleton, read_fillRow, read_fillRow,
      readRow_cons, readRow_cons, hitem, htails]

/-! ### Reading a tree -/

/-- What an element of a tree is read as. -/
def readAt (t : Tree) (n : NodeId) : List α :=
  R.read (context t n).highlighted (t.branch n)

/-- An element is read as its own text, and then for each child the child and its tail. -/
theorem readAt_eq {t : Tree} (h : t.WellFormed) (n : NodeId) :
    R.readAt t n = R.ink (t.entry n) (t.text n) ++ (t.children n).flatMap fun c =>
      (R.stamp? (context t c).highlighted (t.tag c)).getD (R.readAt t c) ++
        R.ink (t.entry n) (t.tail c) := by
  have hrow (cs : List NodeId) (hcs : cs ⊆ t.children n) :
      R.readRow ((context t n).inside (t.entry n)).highlighted (t.entry n) (cs.map t.branch) =
        cs.flatMap fun c => (R.stamp? (context t c).highlighted (t.tag c)).getD (R.readAt t c) ++
          R.ink (t.entry n) (t.tail c) := by
    induction cs with
    | nil => rw [List.map_nil, readRow_nil, List.flatMap_nil]
    | cons c cs ih =>
      obtain ⟨hc, hcs⟩ := List.cons_subset.1 hcs
      have hcontext := context_eq_inside h (h.mem_children_iff.1 hc)
      have htail : (t.branch c).tail = t.tail c := by
        rw [Branch.tail, Tree.own_branch h]
        rfl
      have hitem : R.item ((context t n).inside (t.entry n)).highlighted (t.branch c) =
          (R.stamp? (context t c).highlighted (t.tag c)).getD (R.readAt t c) := by
        rw [item, readAt, ← hcontext, Tree.own_branch h]
        rfl
      rw [List.map_cons, readRow_cons, hitem, htail, ih hcs, List.flatMap_cons, List.append_assoc]
  rw [readAt, read_eq, Branch.text, Tree.own_branch h, Tree.children_branch h]
  exact congrArg (_ ++ ·) (hrow (t.children n) (List.Subset.refl _))

end Reading

/-! ### Steps -/

/-- An element that is neither replaced nor removed is not read as a whole. -/
lemma Reading.stamp?_eq_none {l : Location} {τ : Treatment} (h : treatmentAt outer l = τ)
    (hreplace : ∀ text, τ ≠ .replace text) (hremove : τ ≠ .remove) :
    R.stamp? (contextAt outer l.frames).highlighted l.focus.own.tag = none := by
  by_contra hne
  rcases R.stamped hne with htag | htag | ⟨htag, hk⟩
  · exact hremove (h.symm.trans (treatment_presentation _ _ htag))
  · exact hreplace "\n" (h.symm.trans (treatment_linebreak _ _ htag))
  · exact hreplace " " (h.symm.trans (treatment_space _ htag hk))

/-- A reading agrees with what a step takes to be text. -/
structure Reading.Agrees (R : Reading α) (outer : Context) (l : Location) : Prop where
  root : l.frames = [] → l.focus.own.tag ∉ Schema.inlineTags
  replace : ∀ e text, treatmentAt outer l = .replace text →
    R.item (contextAt outer l.frames).highlighted l.focus = R.ink e text
  remove : treatmentAt outer l = .remove →
    R.item (contextAt outer l.frames).highlighted l.focus = []
  flatten : treatmentAt outer l = .flatten →
    R.read (contextAt outer l.frames).highlighted l.focus =
      R.ink l.focus.own l.focus.stringValue
  /-- The text between two sections that are merged may as well stand inside. -/
  gap : ∀ f fs prev rest, l.frames = f :: fs → f.before = prev :: rest →
    treatmentAt outer l = .absorb → Mergeable (contextAt outer l.frames) prev.own l.focus.own →
    R.ink prev.own prev.tail = R.ink f.own prev.tail

section Steps

variable {R}

/-- The text that takes the place of an element is read as the element was. -/
lemma Reading.read_skip {more : String}
    (hread : R.ink f.own more =
      R.item (contextAt outer (f :: fs)).highlighted x ++ R.ink f.own x.tail) :
    R.read outer.highlighted (plug fs ((f.extendBefore more).fillRow [])) =
      R.read outer.highlighted (plug (f :: fs) x) := by
  refine R.read_plug_congr fs (f.alike_extendBefore more) (f.own_tail_extendBefore more) ?_
  rw [contextAt, Context.inside] at hread
  simp only at hread
  rw [read_fillRow_extendBefore, ← Frame.fillRow_singleton, R.read_fillRow, hread, R.readRow_nil,
    R.readRow_cons, R.readRow_nil, List.append_nil, List.nil_append]

/-- The parts that an element falls into are read as the element was. -/
lemma Reading.read_parts {front : Branch} {rest : List Branch}
    (hrow : R.readRow (contextAt outer (f :: fs)).highlighted f.own (front :: rest) =
      R.item (contextAt outer (f :: fs)).highlighted x ++ R.ink f.own x.tail) :
    R.read outer.highlighted (plug ({ f with after := rest ++ f.after } :: fs) front) =
      R.read outer.highlighted (plug (f :: fs) x) := by
  have hfill : { f with after := rest ++ f.after }.fill front = f.fillRow (front :: rest) := rfl
  rw [plug_cons, hfill]
  refine R.read_plug_congr fs ⟨rfl, rfl, rfl⟩ rfl ?_
  rw [contextAt, Context.inside] at hrow
  simp only at hrow
  rw [R.read_fillRow, ← Frame.fillRow_singleton, R.read_fillRow, hrow, R.readRow_cons, R.readRow_nil,
    List.append_nil]

/-- A part of an element is read as part of what the element holds. -/
lemma Reading.item_part (part : Branch) (halike : x.own.Alike part.own)
    (hstamp : R.stamp? highlighted x.own.tag = none) :
    R.item highlighted part = R.ink x.own part.text ++
      R.readRow (highlighted || x.own.tag == "highlight") x.own part.children := by
  have hstamp' : R.stamp? highlighted part.own.tag = none := by
    rw [halike.tag]
    exact hstamp
  rw [R.item_of_eq_none hstamp', R.read_eq, R.ink_alike halike, R.readRow_alike halike, halike.tag]

/-- What is lifted out of an element, and what is left of it, are read as the element was. -/
lemma Reading.readRow_lift (fresh : NodeId) (around : Entry) {ys : List Branch}
    (htag : x.own.tag ≠ "highlight") (hchildren : x.children = y :: ys)
    (hstamp : R.stamp? highlighted x.own.tag = none) :
    R.readRow highlighted around (Frame.lift ⟨x.number, x.own, [], ys⟩ fresh y) =
      R.item highlighted x ++ R.ink around x.tail := by
  have hhighlight : (highlighted || x.own.tag == "highlight") = highlighted := by simp [htag]
  have hx : R.item highlighted x = R.ink x.own x.text ++
      (R.item highlighted y ++ (R.ink x.own y.tail ++ R.readRow highlighted x.own ys)) := by
    rw [R.item_of_eq_none hstamp, R.read_eq, hhighlight, hchildren, R.readRow_cons]
  have hfront : R.item highlighted (Frame.front ⟨x.number, x.own, [], ys⟩ []) =
      R.ink x.own x.text := by
    have halike : x.own.Alike (Frame.front ⟨x.number, x.own, [], ys⟩ []).own := ⟨rfl, rfl, rfl⟩
    rw [Reading.item_part _ halike hstamp, Frame.front, children_node, List.reverse_nil,
      List.append_nil, R.readRow_nil, List.append_nil]
    rfl
  have htail : (Frame.front ⟨x.number, x.own, [], ys⟩ []).tail = "" := rfl
  -- The front takes the text before the lifted child. The tail of the child goes into a back part,
  -- unless nothing stands behind it.
  unfold Frame.lift
  split
  · next hlast =>
    rw [Bool.and_eq_true, Option.isNone_iff_eq_none, List.isEmpty_iff] at hlast
    have hytail : y.tail = "" := by
      rw [Branch.tail, ← getD_handedTail, hlast.1, Option.getD_none]
    have hys : ys = [] := hlast.2
    rw [R.readRow_cons, R.readRow_cons, R.readRow_nil, hfront, htail, hx, hytail, hys,
      R.item_withTail, tail_withTail, getD_handedTail, R.readRow_nil]
    simp [Branch.tail]
  · have hback : R.item highlighted
        (Frame.back ⟨x.number, x.own, [], ys⟩ fresh (handedTail y.own.tail) ys) =
        R.ink x.own y.tail ++ R.readRow highlighted x.own ys := by
      have halike : x.own.Alike
          (Frame.back ⟨x.number, x.own, [], ys⟩ fresh (handedTail y.own.tail) ys).own :=
        ⟨rfl, rfl, rfl⟩
      rw [Reading.item_part _ halike hstamp, hhighlight, Frame.back, Branch.text, own_node,
        getD_handedTail, children_node, Branch.tail]
    have hbacktail :
        (Frame.back ⟨x.number, x.own, [], ys⟩ fresh (handedTail y.own.tail) ys).tail = x.tail := by
      rw [Frame.back, Branch.tail, own_node, getD_handedTail, Branch.tail]
    rw [R.readRow_cons, R.readRow_cons, R.readRow_cons, R.readRow_nil, hfront, htail, hx,
      R.item_withTail, tail_withTail, Option.getD_none, hback, hbacktail]
    simp

/-- The two parts of a divided element are read as the element was. -/
lemma Reading.readRow_divide {n m : NodeId} {e e' : Entry} {cs cs' : List Branch} (around : Entry)
    (hstamp : R.stamp? highlighted x.own.tag = none) (he : x.own.Alike e) (he' : x.own.Alike e')
    (htext : e.text = x.own.text) (htail : e.tail = none) (htail' : e'.tail.getD "" = x.tail)
    (hcontent : R.readRow (highlighted || x.own.tag == "highlight") x.own cs ++
      (R.ink x.own (e'.text.getD "") ++
        R.readRow (highlighted || x.own.tag == "highlight") x.own cs') =
      R.readRow (highlighted || x.own.tag == "highlight") x.own x.children) :
    R.readRow highlighted around [node n e cs, node m e' cs'] =
      R.item highlighted x ++ R.ink around x.tail := by
  have hfront : (node n e cs).tail = "" := by rw [Branch.tail, own_node, htail, Option.getD_none]
  have hback : (node m e' cs').tail = x.tail := htail'
  have hpart := Reading.item_part (node n e cs) he hstamp
  have hpart' := Reading.item_part (node m e' cs') he' hstamp
  rw [R.readRow_cons, R.readRow_cons, R.readRow_nil, hpart, hpart', R.item_of_eq_none hstamp,
    R.read_eq, hfront, hback, ← hcontent]
  simp [Branch.text, htext]

/-- Trimmed inline markup and the white space around it are read as the markup was. -/
lemma Reading.item_trimmed {text : String} (e : Entry)
    (hstamp : R.stamp? highlighted x.own.tag = none) (htext : x.own.text = some text)
    (hchildren : x.children = []) :
    R.ink e (Text.splitBlanks text).1 ++ (R.item highlighted (trimmed x text) ++
      R.ink e (trimmed x text).tail) = R.item highlighted x ++ R.ink e x.tail := by
  have hxtext : x.text = text := by rw [Branch.text, htext, Option.getD_some]
  have hitem : R.item highlighted (trimmed x text) = R.ink x.own (Text.splitBlanks text).2.1 := by
    have hrow : (trimmed x text).children = [] := hchildren
    rw [Reading.item_part _ (alike_trimmed x text) hstamp, hrow, R.readRow_nil, List.append_nil,
      text_trimmed]
  have hsplit := Text.append_splitBlanks text
  rw [hitem, tail_trimmed, R.item_of_eq_none hstamp, R.read_eq, hchildren, R.readRow_nil, List.append_nil,
    hxtext, R.ink_append, R.ink_blank e x.own (Text.isBlank_splitBlanks_fst text),
    R.ink_blank e x.own (Text.isBlank_splitBlanks_snd text)]
  conv_rhs => rw [← hsplit, R.ink_append, R.ink_append]
  simp

/-- A merged section is read as the two sections were, the text between them taken to stand inside. -/
lemma Reading.item_absorb {prev : Branch} {k : Context} (e : Entry)
    (hstamp : R.stamp? highlighted x.own.tag = none) (hmergeable : Mergeable k prev.own x.own)
    (hgap : R.ink prev.own prev.tail = R.ink e prev.tail) :
    R.item highlighted (prev.absorb x) =
      R.item highlighted prev ++ (R.ink e prev.tail ++ R.item highlighted x) := by
  have hprev : R.stamp? highlighted prev.own.tag = none := by
    rw [hmergeable.1]
    exact hstamp
  have halike := alike_absorb prev x
  have hnone : prev.own.Alike (prev.withTail none).own := ⟨rfl, rfl, rfl⟩
  have hfirst := alike_appendContent (prev.withTail none) prev.tail
  -- What stands before the content of the second section.
  have hjoined : R.ink prev.own (prev.absorb x).text ++
      R.readRow (highlighted || prev.own.tag == "highlight") prev.own
        (((prev.withTail none).appendContent prev.tail).appendContent x.text).children =
      R.read highlighted prev ++ (R.ink prev.own prev.tail ++ R.ink prev.own x.text) := by
    have hread : R.read highlighted (((prev.withTail none).appendContent prev.tail).appendContent
        x.text) = R.read highlighted prev ++ (R.ink prev.own prev.tail ++ R.ink prev.own x.text) := by
      rw [R.read_appendContent, R.read_appendContent, R.read_withTail, R.ink_alike hfirst,
        R.ink_alike hnone, R.ink_alike hnone, List.append_assoc]
    have hsecond := alike_appendContent ((prev.withTail none).appendContent prev.tail) x.text
    rw [← hread, R.read_eq, R.ink_alike hsecond, R.ink_alike hfirst, R.ink_alike hnone,
      R.readRow_alike hsecond, R.readRow_alike hfirst, R.readRow_alike hnone, hsecond.tag,
      hfirst.tag]
    rfl
  have hx : R.item highlighted x = R.ink prev.own x.text ++
      R.readRow (highlighted || prev.own.tag == "highlight") prev.own x.children := by
    rw [R.item_of_eq_none hstamp, R.read_eq, R.ink_congr x.text hmergeable.1 hmergeable.2.1,
      R.readRow_congr hmergeable.1 hmergeable.2.1, hmergeable.1]
  have hchildren : (prev.absorb x).children =
      (((prev.withTail none).appendContent prev.tail).appendContent x.text).children ++
        x.children := rfl
  rw [Reading.item_part _ halike hprev, hchildren, R.readRow_append, ← List.append_assoc, hjoined,
    R.item_of_eq_none hprev, hx, hgap]
  simp only [List.append_assoc]

/-- With a section merged into the one before it, the whole is read as it was. -/
lemma Reading.read_merged {prev : Branch} {rest : List Branch}
    (h : R.Agrees outer ⟨x, f :: fs⟩) (hτ : treatmentAt outer ⟨x, f :: fs⟩ = .absorb)
    (hbefore : f.before = prev :: rest)
    (hmergeable : Mergeable (contextAt outer (f :: fs)) prev.own x.own) :
    R.read outer.highlighted (plug ({ f with before := rest } :: fs) (prev.absorb x)) =
      R.read outer.highlighted (plug (f :: fs) x) := by
  have hstamp := R.stamp?_eq_none hτ (by simp) (by simp)
  have hgap := h.gap f fs prev rest rfl hbefore hτ hmergeable
  have hitem := Reading.item_absorb f.own hstamp hmergeable hgap
  have htail : (prev.absorb x).tail = x.tail := rfl
  refine R.read_plug_congr fs ⟨rfl, rfl, rfl⟩ rfl ?_
  rw [contextAt, Context.inside] at hitem
  simp only at hitem
  rw [← Frame.fillRow_singleton, ← Frame.fillRow_singleton, R.read_fillRow, R.read_fillRow,
    R.readRow_cons, R.readRow_cons, R.readRow_nil, htail, hitem, Reading.before, Reading.before,
    hbefore, List.reverse_cons, R.readRow_append, R.readRow_cons, R.readRow_nil]
  simp only [List.append_assoc, List.append_nil]

/-- Every step leaves the reading of the whole the same, if the reading agrees with it. -/
theorem Step.read_eq {fresh : NodeId} {l : Location} {o : Outcome} (hstep : Step outer fresh l o)
    (h : R.Agrees outer l) :
    R.read outer.highlighted o.whole = R.read outer.highlighted (plug l.frames l.focus) := by
  -- Text that moves out of an element lands beside it, where it is read in the same place, and
  -- treatments that drop something apply where nothing was read.
  cases hstep with
  | replace hτ =>
    rw [whole_skip, Frame.extendBefore_extendBefore]
    refine Reading.read_skip ?_
    rw [R.ink_append, h.replace _ _ hτ]
  | remove hτ hmore =>
    rw [whole_skip]
    refine Reading.read_skip ?_
    rw [h.remove hτ, List.nil_append]
  | removeLast hτ hbelow hempty =>
    refine Reading.read_skip ?_
    rw [h.remove hτ, List.nil_append]
  | @flatten x fs hτ =>
    refine R.read_plug_congr fs ⟨rfl, rfl, rfl⟩ rfl ?_
    have halike : x.own.Alike { x.own with text := some x.stringValue } := ⟨rfl, rfl, rfl⟩
    rw [h.flatten hτ, R.read_eq, children_node, R.readRow_nil, List.append_nil]
    exact R.ink_alike halike x.stringValue
  | @lift x y front ys rest f fs hτ hchildren hinline hrow =>
    have hstamp := R.stamp?_eq_none hτ (by simp) (by simp)
    have hhighlight : x.own.tag ≠ "highlight" := by
      cases groundsAt hτ with
      | nested href htag hne =>
        intro heq
        rw [heq] at htag
        exact absurd htag (by decide)
    -- The parts of an inline element are read as the whole, as it is no highlight and puts no stamp
    -- on its text.
    refine Reading.read_parts ?_
    rw [← hrow]
    exact Reading.readRow_lift fresh f.own hhighlight hchildren hstamp
  | @trim x f fs text hτ htext =>
    have hstamp := R.stamp?_eq_none hτ (by simp) (by simp)
    cases groundsAt hτ with
    | untrimmed href hinline hchildren hblanks =>
      have hitem := Reading.item_trimmed f.own hstamp htext hchildren
      refine R.read_plug_congr fs (f.alike_extendBefore _) (f.own_tail_extendBefore _) ?_
      rw [contextAt, Context.inside] at hitem
      simp only at hitem
      rw [← Frame.fillRow_singleton, ← Frame.fillRow_singleton, R.read_fillRow_extendBefore,
        R.read_fillRow, R.readRow_cons, R.readRow_cons, R.readRow_nil, List.append_nil,
        List.append_nil, ← hitem]
      simp only [List.append_assoc]
  | trimRoot hτ htext =>
    cases groundsAt hτ with
    | untrimmed href hinline hchildren hblanks =>
      exact absurd (Entry.mem_inlineTags_of_markup hinline) (h.root rfl)
  | @absorb x y prev ys rest f fs hτ hbefore hmergeable hchildren =>
    rw [Outcome.whole, plug_cons, Frame.fill_absorb prev hchildren]
    exact Reading.read_merged h hτ hbefore hmergeable
  | absorbLeaf hτ hbefore hmergeable hchildren =>
    rw [whole_leave]
    exact Reading.read_merged h hτ hbefore hmergeable
  | keep hτ hbefore hdiffer => rw [whole_enter]
  | @divideBefore x y front back ys zs f fs hτ hchildren hfront hsplit =>
    have hstamp := R.stamp?_eq_none hτ (by simp) (by simp)
    cases hsplit
    have hparts : R.readRow (contextAt outer (f :: fs)).highlighted f.own
        (Frame.splitBefore ⟨x.number, x.own, ys.reverse, zs⟩ fresh y) =
        R.item (contextAt outer (f :: fs)).highlighted x ++ R.ink f.own x.tail := by
      refine Reading.readRow_divide f.own hstamp ⟨rfl, rfl, rfl⟩ ⟨rfl, rfl, rfl⟩ rfl rfl
        (getD_handedTail _) ?_
      simp [hchildren, R.readRow_append]
    exact Reading.read_parts hparts
  | @divideBehind x y front back ys zs f fs hτ hchildren htail hsplit =>
    have hstamp := R.stamp?_eq_none hτ (by simp) (by simp)
    cases hsplit
    have hparts : R.readRow (contextAt outer (f :: fs)).highlighted f.own
        (Frame.splitAfterTail ⟨x.number, x.own, ys.reverse, zs⟩ fresh y) =
        R.item (contextAt outer (f :: fs)).highlighted x ++ R.ink f.own x.tail := by
      refine Reading.readRow_divide f.own hstamp ⟨rfl, rfl, rfl⟩ ⟨rfl, rfl, rfl⟩ rfl rfl
        (getD_handedTail _) ?_
      simp [hchildren, R.readRow_append, R.readRow_cons, R.readRow_nil, Branch.tail]
    exact Reading.read_parts hparts
  | undivided hτ hcontent => rw [whole_enter]
  | advance hτ => rw [whole_enter]

end Steps

end DoxygenRest.Adjust

import DoxygenRest.Proofs.Adjust.Simulation

/-!
# What the pass cannot tell apart

The pass sees neither the numbers of elements nor, in general, what stands inside of presentation
markup, that is, of elements whose content is meant for one other output format alone: it removes
them when it comes to them.  Two branches that differ in no more than this resemble one another
(`Resembles`).

There is one exception.  The content of a link, and a reference in a highlight, is replaced by a
string value before the pass comes to the elements in it (`IsQuoted`), so what these hold is not
left aside there.
-/

namespace DoxygenRest.Adjust

open Branch

/-! ### Resemblance of branches -/

/-- The pass puts the string value of such an element in the place of what the element holds, or of
the element itself. -/
def IsQuoted (highlighted : Bool) (tag : String) : Prop :=
  tag = "ulink" ∨ tag = "ref" ∧ highlighted = true

/-- Only links and references are quoted. -/
lemma not_isQuoted {highlighted : Bool} {tag : String} (hlink : tag ≠ "ulink") (href : tag ≠ "ref") :
    ¬IsQuoted highlighted tag := by
  rintro (h | ⟨h, -⟩)
  · exact hlink h
  · exact href h

mutual

/-- Two branches differ in nothing but numbers and in what presentation markup holds, which does not
count in the string values that the pass reads. -/
def Resembles (highlighted : Bool) : Branch → Branch → Prop
  | .node n e cs, y =>
    y.own.tag = e.tag ∧ y.own.tail = e.tail ∧
      (e.tag ∉ Schema.presentationTags →
        y.own = e ∧ ResemblesRow (highlighted || e.tag == "highlight") cs y.children ∧
          (IsQuoted highlighted e.tag → y.stringValue = (node n e cs).stringValue))

/-- Two rows of branches are as long, and resemble one another branch by branch. -/
def ResemblesRow (highlighted : Bool) : List Branch → List Branch → Prop
  | [], ys => ys = []
  | x :: xs, ys => ∃ y zs, ys = y :: zs ∧ Resembles highlighted x y ∧ ResemblesRow highlighted xs zs

end

section Branches

variable {k : Bool} {x y : Branch} {xs ys zs : List Branch}

/-- What it means for an element to resemble another one, with the two rows of children written out.
-/
lemma resembles_iff :
    Resembles k x y ↔ y.own.tag = x.own.tag ∧ y.own.tail = x.own.tail ∧
      (x.own.tag ∉ Schema.presentationTags →
        y.own = x.own ∧ ResemblesRow (k || x.own.tag == "highlight") x.children y.children ∧
          (IsQuoted k x.own.tag → y.stringValue = x.stringValue)) := by
  cases x
  rw [Resembles]
  rfl

@[simp] lemma resemblesRow_nil : ResemblesRow k [] ys ↔ ys = [] := by
  rw [ResemblesRow]

/-- A row resembles one with a first element if its own first element and its rest do. -/
@[simp] lemma resemblesRow_cons :
    ResemblesRow k (x :: xs) ys ↔ ∃ y zs, ys = y :: zs ∧ Resembles k x y ∧ ResemblesRow k xs zs := by
  rw [ResemblesRow]

/-- Elements with the same own data resemble one another if what they hold does and is not quoted.
-/
lemma resembles_node {n m : NodeId} {e : Entry} (hquoted : ¬IsQuoted k e.tag)
    (h : ResemblesRow (k || e.tag == "highlight") xs ys) :
    Resembles k (node n e xs) (node m e ys) :=
  resembles_iff.2 ⟨rfl, rfl, fun _ => ⟨rfl, h, fun hq => absurd hq hquoted⟩⟩

/-- Elements that resemble each other carry the same data, unless they are for presentation only. -/
lemma Resembles.own_eq (h : Resembles k x y) (hx : x.own.tag ∉ Schema.presentationTags) :
    y.own = x.own :=
  ((resembles_iff.1 h).2.2 hx).1

/-- Their children resemble each other, unless they are for presentation only. -/
lemma Resembles.row (h : Resembles k x y) (hx : x.own.tag ∉ Schema.presentationTags) :
    ResemblesRow (k || x.own.tag == "highlight") x.children y.children :=
  ((resembles_iff.1 h).2.2 hx).2.1

/-- Elements that resemble each other have the same name. -/
lemma Resembles.tag_eq (h : Resembles k x y) : y.own.tag = x.own.tag :=
  (resembles_iff.1 h).1

/-- Elements that resemble each other record the same tail. -/
lemma Resembles.tail?_eq (h : Resembles k x y) : y.own.tail = x.own.tail :=
  (resembles_iff.1 h).2.1

/-- Elements that resemble each other have the same tail. -/
lemma Resembles.tail_eq (h : Resembles k x y) : y.tail = x.tail := by
  rw [Branch.tail, Branch.tail, h.tail?_eq]

/-- Branches that resemble one another play the same part. -/
lemma Resembles.markup_eq (h : Resembles k x y) : y.markup = x.markup := by
  by_cases hx : x.own.tag ∈ Schema.presentationTags
  · refine Entry.markup_congr h.tag_eq fun hformula => ?_
    rw [hformula] at hx
    exact absurd hx (by decide)
  · rw [Branch.markup, Branch.markup, h.own_eq hx]

/-- A row resembles two rows behind each other if it parts into rows that resemble them. -/
lemma resemblesRow_append :
    ResemblesRow k (xs ++ ys) zs ↔
      ∃ zs₁ zs₂, zs = zs₁ ++ zs₂ ∧ ResemblesRow k xs zs₁ ∧ ResemblesRow k ys zs₂ := by
  induction xs generalizing zs with
  | nil => simp
  | cons x xs ih =>
    simp only [List.cons_append, resemblesRow_cons, ih]
    constructor
    · rintro ⟨y, rest, rfl, hy, zs₁, zs₂, rfl, h₁, h₂⟩
      exact ⟨y :: zs₁, zs₂, rfl, ⟨y, zs₁, rfl, hy, h₁⟩, h₂⟩
    · rintro ⟨_, zs₂, rfl, ⟨y, zs₁, rfl, hy, h₁⟩, h₂⟩
      exact ⟨y, zs₁ ++ zs₂, rfl, hy, zs₁, zs₂, rfl, h₁, h₂⟩

/-- Rows that resemble each other do so when read backwards. -/
lemma ResemblesRow.reverse (h : ResemblesRow k xs ys) : ResemblesRow k xs.reverse ys.reverse := by
  induction xs generalizing ys with
  | nil =>
    rw [resemblesRow_nil.1 h]
    exact resemblesRow_nil.2 rfl
  | cons x xs ih =>
    obtain ⟨y, zs, rfl, hy, hzs⟩ := resemblesRow_cons.1 h
    rw [List.reverse_cons, List.reverse_cons, resemblesRow_append]
    exact ⟨zs.reverse, [y], rfl, ih hzs, by simp [hy]⟩

/-- Rows that resemble each other are empty together. -/
lemma ResemblesRow.eq_nil_iff (h : ResemblesRow k xs ys) : ys = [] ↔ xs = [] := by
  cases xs with
  | nil => simpa using h
  | cons x xs =>
    obtain ⟨y, zs, rfl, -⟩ := resemblesRow_cons.1 h
    simp

/-- Rows of the same fragments resemble each other if their elements do. -/
lemma resemblesRow_of_forall
    (hresembles : ∀ x ∈ xs, ∀ y, x.fragment = y.fragment → Resembles k x y)
    (h : xs.map fragment = ys.map fragment) : ResemblesRow k xs ys := by
  induction xs generalizing ys with
  | nil => exact resemblesRow_nil.2 (List.map_eq_nil_iff.1 h.symm)
  | cons x xs ih =>
    obtain ⟨y, zs, rfl, hy, hzs⟩ := List.map_eq_cons_iff.1 h.symm
    rw [List.forall_mem_cons] at hresembles
    exact resemblesRow_cons.2 ⟨y, zs, rfl, hresembles.1 y hy.symm, ih hresembles.2 hzs.symm⟩

/-- Branches that differ in numbers alone resemble one another. -/
lemma resembles_of_fragment_eq (h : x.fragment = y.fragment) : Resembles k x y := by
  induction x using Branch.induction generalizing y k with
  | step n e cs ih =>
    obtain ⟨hown, hchildren⟩ := fragment_eq_iff.1 h
    refine resembles_iff.2 ⟨congrArg Entry.tag hown.symm, congrArg Entry.tail hown.symm, fun _ =>
      ⟨hown.symm, resemblesRow_of_forall (fun c hc d hd => ih c hc hd) hchildren, fun _ => ?_⟩⟩
    rw [Branch.stringValue, Branch.stringValue, h]

/-- Branches without children that resemble one another differ in numbers alone, unless they are
presentation markup. -/
lemma Resembles.fragment_eq (h : Resembles k x y) (hx : x.own.tag ∉ Schema.presentationTags)
    (hchildren : x.children = []) : x.fragment = y.fragment := by
  have hy : y.children = [] := (h.row hx).eq_nil_iff.2 hchildren
  exact fragment_eq_iff.2 ⟨(h.own_eq hx).symm, by rw [hchildren, hy]⟩

/-- Tails are exchanged alike. -/
lemma Resembles.withTail (h : Resembles k x y) (tail : Option String) :
    Resembles k (x.withTail tail) (y.withTail tail) := by
  refine resembles_iff.2 ⟨h.tag_eq, rfl, fun hx => ⟨?_, h.row hx, ?_⟩⟩
  · rw [own_withTail, own_withTail, h.own_eq hx]
  · rw [stringValue_withTail, stringValue_withTail]
    exact ((resembles_iff.1 h).2.2 hx).2.2

/-- Elements that resemble each other are empty together, unless they are for presentation only. -/
lemma Resembles.isEmpty_eq (h : Resembles k x y) (hx : x.own.tag ∉ Schema.presentationTags) :
    y.isEmpty = x.isEmpty := by
  have hnil := (h.row hx).eq_nil_iff
  rw [Bool.eq_iff_iff, Branch.isEmpty_iff, Branch.isEmpty_iff, Branch.text, Branch.text, h.own_eq hx,
    hnil]

/-- Branches that resemble one another get the same treatment, if the siblings before them are of
the same tag. -/
lemma Resembles.treatment_eq {k : Context} {previous? previous'? : Option Entry}
    (h : Resembles k.highlighted x y)
    (hprevious : previous?.map Entry.tag = previous'?.map Entry.tag) :
    treatment k previous? x = treatment k previous'? y := by
  rw [treatment_congr_previous k x hprevious]
  by_cases hx : x.own.tag ∈ Schema.presentationTags
  · rw [treatment_presentation _ _ hx, treatment_presentation _ _ (h.tag_eq ▸ hx)]
  · have hnil := (h.row hx).eq_nil_iff
    have htext : y.text = x.text := by rw [Branch.text, Branch.text, h.own_eq hx]
    rw [treatment, treatment, h.tag_eq, h.markup_eq, h.isEmpty_eq hx, htext]
    by_cases href : x.own.tag = "ref" ∧ k.highlighted = true
    · have hvalue := ((resembles_iff.1 h).2.2 hx).2.2 (Or.inr href)
      simp only [href, and_self, if_true, hvalue]
    · simp only [href, if_false, ne_eq, hnil]

end Branches

/-! ### Resemblance of walks -/

/-- The frames around two places resemble one another: what has been walked over is the same but for
numbers, and what has not resembles one another. -/
structure FrameResembles (highlighted : Bool) (f g : Frame) : Prop where
  own : g.own = f.own
  visible : f.own.tag ∉ Schema.presentationTags
  quoted : ¬IsQuoted highlighted f.own.tag
  before : f.before.map fragment = g.before.map fragment
  after : ResemblesRow (highlighted || f.own.tag == "highlight") f.after g.after

/-- The places of two walks resemble one another. -/
def FramesResemble (outer : Context) : List Frame → List Frame → Prop
  | [], gs => gs = []
  | f :: fs, gs => ∃ g gs', gs = g :: gs' ∧ FrameResembles (contextAt outer fs).highlighted f g ∧
      FramesResemble outer fs gs'

/-- Two outcomes resemble one another. -/
def OutcomesResemble (outer : Context) : Outcome → Outcome → Prop
  | .standing l, .standing l' => Resembles (contextAt outer l.frames).highlighted l.focus l'.focus ∧
      FramesResemble outer l.frames l'.frames
  | .finished b, .finished b' => b.fragment = b'.fragment
  | _, _ => False

/-- Two results are related by `R`, or the same failure. -/
def Agree {α : Type} (R : α → α → Prop) : Except PassError α → Except PassError α → Prop
  | .ok a, .ok a' => R a a'
  | .error failure, .error failure' => failure = failure'
  | _, _ => False

/-- The surroundings of two walks resemble one another. -/
structure SurroundingsResemble (s s' : Surroundings) : Prop where
  outer : s'.outer = s.outer
  previous : Option.Rel (fun e e' => e'.tag = e.tag ∧ (e.tag ∉ Schema.presentationTags → e' = e))
    s.previous? s'.previous?

section Walks

variable {outer : Context} {x y : Branch} {f g : Frame} {fs gs : List Frame}

/-- Nothing but no frames resembles no frames. -/
lemma framesResemble_nil : FramesResemble outer [] gs ↔ gs = [] := by
  rw [FramesResemble]

/-- Frames resemble each other from the inside out, each in the context of those around it. -/
lemma framesResemble_cons :
    FramesResemble outer (f :: fs) (g :: gs) ↔
      FrameResembles (contextAt outer fs).highlighted f g ∧ FramesResemble outer fs gs := by
  rw [FramesResemble]
  simp

/-- Frames that resemble each other give what they hold the same context. -/
lemma FramesResemble.contextAt_eq (h : FramesResemble outer fs gs) :
    contextAt outer gs = contextAt outer fs := by
  induction fs generalizing gs with
  | nil => rw [framesResemble_nil.1 h]
  | cons f fs ih =>
    obtain ⟨g, gs', rfl, hf, hfs⟩ := h
    rw [contextAt, contextAt, ih hfs, hf.own]

/-- Frames still resemble each other when text is added in front of the hole. -/
lemma FrameResembles.extendBefore {k : Bool} (h : FrameResembles k f g) (more : String) :
    FrameResembles k (f.extendBefore more) (g.extendBefore more) := by
  have hbefore := h.before
  unfold Frame.extendBefore
  cases hf : f.before with
  | nil =>
    have hg : g.before = [] := by
      rw [hf] at hbefore
      exact List.map_eq_nil_iff.1 hbefore.symm
    simp only [hg]
    exact ⟨by simp only [h.own], h.visible, h.quoted, rfl, h.after⟩
  | cons b bs =>
    rw [hf] at hbefore
    obtain ⟨c, cs, hg, hc, hcs⟩ := List.map_eq_cons_iff.1 hbefore.symm
    simp only [hg]
    refine ⟨h.own, h.visible, h.quoted, ?_, h.after⟩
    rw [List.map_cons, List.map_cons, hcs]
    exact congrArg (· :: _) (fragment_revise_congr hc.symm _)

/-- A frame with all its children walked over is the same but for numbers. -/
lemma FrameResembles.fragment_fillRow {k : Bool} {xs ys : List Branch} (h : FrameResembles k f g)
    (hafter : f.after = []) (hrow : xs.map fragment = ys.map fragment) :
    (f.fillRow xs).fragment = (g.fillRow ys).fragment := by
  have hg : g.after = [] := h.after.eq_nil_iff.2 hafter
  refine fragment_eq_iff.2 ⟨h.own.symm, ?_⟩
  simp only [Frame.fillRow, children_node, hafter, hg, List.map_append, List.map_reverse, h.before,
    hrow]

/-- The next sibling is gone to alike. -/
lemma FrameResembles.next {k : Bool} {z : Branch} {zs bs cs : List Branch} (h : FrameResembles k f g)
    (hafter : f.after = z :: zs) (hbefore : bs.map fragment = cs.map fragment) :
    ∃ w ws, g.after = w :: ws ∧ Resembles (k || f.own.tag == "highlight") z w ∧
      FrameResembles k { f with before := bs, after := zs } { g with before := cs, after := ws } := by
  have hrow := h.after
  rw [hafter] at hrow
  obtain ⟨w, ws, hg, hw, hws⟩ := resemblesRow_cons.1 hrow
  exact ⟨w, ws, hg, hw, h.own, h.visible, h.quoted, hbefore, hws⟩

/-- Leaving equal fragments in frames that resemble each other ends in outcomes that do. -/
lemma resemble_leave (hx : x.fragment = y.fragment) (hfs : FramesResemble outer fs gs) :
    OutcomesResemble outer (leave x fs) (leave y gs) := by
  induction fs generalizing x y gs with
  | nil =>
    rw [framesResemble_nil.1 hfs]
    exact hx
  | cons f fs ih =>
    obtain ⟨g, gs, rfl, hf, hfs⟩ := hfs
    unfold leave
    split
    · next hafter =>
      have hg : g.after = [] := hf.after.eq_nil_iff.2 hafter
      simp only [hg]
      have hfill := hf.fragment_fillRow hafter
        (show [x].map fragment = [y].map fragment by simp [hx])
      exact ih hfill hfs
    · next z rest hafter =>
      have hbefore : (x :: f.before).map fragment = (y :: g.before).map fragment := by
        rw [List.map_cons, List.map_cons, hx, hf.before]
      obtain ⟨w, ws, hg, hw, hnext⟩ := hf.next hafter hbefore
      simp only [hg]
      exact ⟨hw, framesResemble_cons.2 ⟨hnext, hfs⟩⟩

/-- So does going on behind the hole. -/
lemma resemble_skip (hf : FrameResembles (contextAt outer fs).highlighted f g)
    (hfs : FramesResemble outer fs gs) : OutcomesResemble outer (skip f fs) (skip g gs) := by
  unfold skip
  split
  · next hafter =>
    have hg : g.after = [] := hf.after.eq_nil_iff.2 hafter
    simp only [hg]
    exact resemble_leave (hf.fragment_fillRow hafter rfl) hfs
  · next z rest hafter =>
    obtain ⟨w, ws, hg, hw, hnext⟩ := hf.next hafter hf.before
    simp only [hg]
    exact ⟨hw, framesResemble_cons.2 ⟨hnext, hfs⟩⟩

/-- An element is entered alike, if it is neither presentation markup nor quoted with all it holds.
-/
lemma resemble_enter (hx : Resembles (contextAt outer fs).highlighted x y)
    (hfs : FramesResemble outer fs gs) (hvisible : x.own.tag ∉ Schema.presentationTags)
    (hflat : x.children ≠ [] → ¬IsQuoted (contextAt outer fs).highlighted x.own.tag) :
    OutcomesResemble outer (enter x fs) (enter y gs) := by
  have hrow := hx.row hvisible
  unfold enter
  split
  · next hchildren =>
    have hy : y.children = [] := hrow.eq_nil_iff.2 hchildren
    simp only [hy]
    exact resemble_leave (hx.fragment_eq hvisible hchildren) hfs
  · next z zs hchildren =>
    rw [hchildren] at hrow
    obtain ⟨w, ws, hy, hw, hws⟩ := resemblesRow_cons.1 hrow
    simp only [hy]
    refine ⟨hw, framesResemble_cons.2 ⟨⟨hx.own_eq hvisible, hvisible, hflat ?_, rfl, hws⟩, hfs⟩⟩
    rw [hchildren]
    exact List.cons_ne_nil z zs

end Walks

end DoxygenRest.Adjust

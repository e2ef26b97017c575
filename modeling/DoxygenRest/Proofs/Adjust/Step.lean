import DoxygenRest.Proofs.Adjust.Treatment

/-!
# Steps of the adjusting pass

The pass walks over a branch.  Where it stands is a `Location`: the branch at the current element, and
the frames around it up to the root of the walk.  In the frames, what lies before the place has been
walked over already, and what lies after it has not.

A step leads from a location to an `Outcome`: the next location, or the whole branch once the walk
has come to its end.  `Step` lists what a step can do.
-/

namespace DoxygenRest.Adjust

open Branch

/-- A place in a walk. -/
structure Location where
  /-- The branch at the current element. -/
  focus : Branch
  /-- The elements around it, up to the root of the walk. -/
  frames : List Frame

/-- Where a step leads. -/
inductive Outcome where
  | standing (l : Location)
  | finished (b : Branch)

namespace Outcome

/-- The branch walked over. -/
def whole : Outcome → Branch
  | standing l => plug l.frames l.focus
  | finished b => b

/-- The number of the current element. -/
def number? : Outcome → Option NodeId
  | standing l => some l.focus.number
  | finished _ => none

end Outcome

/-! ### Moving on -/

/-- Go behind a branch. -/
def leave (x : Branch) : List Frame → Outcome
  | [] => .finished x
  | f :: fs =>
    match f.after with
    | [] => leave (f.fill x) fs
    | y :: rest => .standing ⟨y, { f with before := x :: f.before, after := rest } :: fs⟩

/-- Go behind a place that has become empty. -/
def skip (f : Frame) (fs : List Frame) : Outcome :=
  match f.after with
  | [] => leave (f.fillRow []) fs
  | y :: rest => .standing ⟨y, { f with after := rest } :: fs⟩

/-- Go to the first child of a branch, or behind it. -/
def enter (x : Branch) (fs : List Frame) : Outcome :=
  match x.children with
  | [] => leave x fs
  | y :: ys => .standing ⟨y, ⟨x.number, x.own, [], ys⟩ :: fs⟩

/-- Going behind a branch changes nothing. -/
lemma whole_leave (x : Branch) (fs : List Frame) : (leave x fs).whole = plug fs x := by
  induction fs generalizing x with
  | nil => rfl
  | cons f fs ih =>
    unfold leave
    split
    · exact ih _
    · next y rest hafter => simp [Outcome.whole, Frame.fill, hafter]

/-- Behind a branch stands what follows it in document order. -/
lemma number?_leave (x : Branch) (fs : List Frame) : (leave x fs).number? = nextNumber fs := by
  induction fs generalizing x with
  | nil => rfl
  | cons f fs ih =>
    unfold leave
    split
    · next hafter => rw [ih, nextNumber, hafter, List.head?_nil, Option.map_none, Option.none_or]
    · next y rest hafter => rw [nextNumber, hafter]; rfl

/-- Going on behind a hole leaves the hole empty. -/
lemma whole_skip (f : Frame) (fs : List Frame) : (skip f fs).whole = plug fs (f.fillRow []) := by
  unfold skip
  split
  · exact whole_leave _ _
  · next y rest hafter => simp [Outcome.whole, Frame.fill, Frame.fillRow, hafter]

/-- Behind a hole comes the next element in document order. -/
lemma number?_skip (f : Frame) (fs : List Frame) : (skip f fs).number? = nextNumber (f :: fs) := by
  unfold skip
  split
  · next hafter =>
    rw [number?_leave, nextNumber, hafter, List.head?_nil, Option.map_none, Option.none_or]
  · next y rest hafter => rw [nextNumber, hafter]; rfl

/-- Entering an element changes nothing. -/
lemma whole_enter (x : Branch) (fs : List Frame) : (enter x fs).whole = plug fs x := by
  unfold enter
  split
  · exact whole_leave x fs
  · next y ys hchildren => simp [Outcome.whole, Frame.fill, ← hchildren]

/-- Inside an element comes its first child, or else what is behind it. -/
lemma number?_enter (x : Branch) (fs : List Frame) :
    (enter x fs).number? = (x.children.head?.map number).or (nextNumber fs) := by
  unfold enter
  split
  · next hchildren => rw [number?_leave, hchildren]; rfl
  · next y ys hchildren => rw [hchildren]; rfl

/-! ### What a step can do -/

/-- The own data of the sibling right before a place. -/
def previousOwn? : List Frame → Option Entry
  | [] => none
  | f :: _ => f.before.head?.map own

/-- The treatment of the current element, given the context of the root of the walk. -/
def treatmentAt (outer : Context) (l : Location) : Treatment :=
  treatment (contextAt outer l.frames) (previousOwn? l.frames) l.focus

/-- The treatment of the current element is given on its grounds. -/
lemma groundsAt {outer : Context} {l : Location} {τ : Treatment} (h : treatmentAt outer l = τ) :
    Grounds (contextAt outer l.frames) (previousOwn? l.frames) l.focus τ :=
  grounds h

/-- A branch with its text trimmed, and the white space behind the text in its tail. -/
def trimmed (x : Branch) (text : String) : Branch :=
  let body := (Text.splitBlanks text).2.1
  node x.number
    { x.own with
      text := if body = "" then none else some body
      tail := Tree.prependTo x.own.tail (Text.splitBlanks text).2.2 }
    x.children

/-- The text of a trimmed branch is the body of the text. -/
lemma text_trimmed (x : Branch) (text : String) :
    (trimmed x text).text = (Text.splitBlanks text).2.1 := by
  rw [trimmed, Branch.text, own_node]
  by_cases hempty : (Text.splitBlanks text).2.1 = ""
  · rw [if_pos hempty, hempty, Option.getD_none]
  · rw [if_neg hempty, Option.getD_some]

/-- The tail of a trimmed element starts with the blanks that were at the end of its text. -/
lemma tail_trimmed (x : Branch) (text : String) :
    (trimmed x text).tail = (Text.splitBlanks text).2.2 ++ x.tail := by
  rw [trimmed, Branch.tail, own_node, getD_prependTo, Branch.tail]

/-- An element is only trimmed if it has a text. -/
lemma exists_text_of_trim {outer : Context} {l : Location} (h : treatmentAt outer l = .trim) :
    ∃ text, l.focus.own.text = some text := by
  cases groundsAt h with
  | untrimmed href hinline hchildren hblanks =>
    rw [Branch.text] at hblanks
    cases htext : l.focus.own.text with
    | none => simp [htext, Text.hasOuterBlanks] at hblanks
    | some text => exact ⟨text, rfl⟩

/-- Whether two siblings with these own data could be one. -/
def Mergeable (k : Context) (e e' : Entry) : Prop :=
  e.tag = e'.tag ∧ e.attributes = e'.attributes ∧
    k.scope.union e.namespaces = k.scope.union e'.namespaces

/-- The content of a paragraph is a line of inline markup or a row of blocks. -/
def IsUndivided (text : String) (children : List Branch) : Prop :=
  (∀ c ∈ children, c.markup = .inline) ∨
    text = "" ∧ ∀ c ∈ children, c.markup = .structural ∧ c.tail = ""

/-- The steps of a walk whose root has the context `outer`, where a new element gets the number
`fresh`. -/
inductive Step (outer : Context) (fresh : NodeId) : Location → Outcome → Prop where
  /-- Text takes the place of the element, and its tail follows. -/
  | replace {x : Branch} {f : Frame} {fs : List Frame} {text : String}
      (h : treatmentAt outer ⟨x, f :: fs⟩ = .replace text) :
      Step outer fresh ⟨x, f :: fs⟩ (skip ((f.extendBefore text).extendBefore x.tail) fs)
  /-- The element is removed. -/
  | remove {x : Branch} {f : Frame} {fs : List Frame}
      (h : treatmentAt outer ⟨x, f :: fs⟩ = .remove)
      (hmore : fs = [] ∨ ((f.extendBefore x.tail).fillRow []).isEmpty = false) :
      Step outer fresh ⟨x, f :: fs⟩ (skip (f.extendBefore x.tail) fs)
  /-- The element is removed, and its parent has become empty. -/
  | removeLast {x : Branch} {f : Frame} {fs : List Frame}
      (h : treatmentAt outer ⟨x, f :: fs⟩ = .remove) (hbelow : fs ≠ [])
      (hempty : ((f.extendBefore x.tail).fillRow []).isEmpty = true) :
      Step outer fresh ⟨x, f :: fs⟩ (.standing ⟨(f.extendBefore x.tail).fillRow [], fs⟩)
  /-- The content of a link becomes text. -/
  | flatten {x : Branch} {fs : List Frame} (h : treatmentAt outer ⟨x, fs⟩ = .flatten) :
      Step outer fresh ⟨x, fs⟩
        (.standing ⟨node x.number { x.own with text := some x.stringValue } [], fs⟩)
  /-- The first child, which is inline, is lifted out of the element. -/
  | lift {x y front : Branch} {ys rest : List Branch} {f : Frame} {fs : List Frame}
      (h : treatmentAt outer ⟨x, f :: fs⟩ = .lift) (hchildren : x.children = y :: ys)
      (hinline : y.markup = .inline)
      (hrow : Frame.lift ⟨x.number, x.own, [], ys⟩ fresh y = front :: rest) :
      Step outer fresh ⟨x, f :: fs⟩ (.standing ⟨front, { f with after := rest ++ f.after } :: fs⟩)
  /-- White space leaves the text of the element. -/
  | trim {x : Branch} {f : Frame} {fs : List Frame} {text : String}
      (h : treatmentAt outer ⟨x, f :: fs⟩ = .trim) (htext : x.own.text = some text) :
      Step outer fresh ⟨x, f :: fs⟩
        (.standing ⟨trimmed x text, f.extendBefore (Text.splitBlanks text).1 :: fs⟩)
  /-- White space leaves the text of the root of the walk; what precedes the text leaves the walk. -/
  | trimRoot {x : Branch} {text : String} (h : treatmentAt outer ⟨x, []⟩ = .trim)
      (htext : x.own.text = some text) :
      Step outer fresh ⟨x, []⟩ (.standing ⟨trimmed x text, []⟩)
  /-- The element joins the sibling before it; its first child comes next. -/
  | absorb {x y prev : Branch} {ys rest : List Branch} {f : Frame} {fs : List Frame}
      (h : treatmentAt outer ⟨x, f :: fs⟩ = .absorb) (hbefore : f.before = prev :: rest)
      (hmergeable : Mergeable (contextAt outer (f :: fs)) prev.own x.own)
      (hchildren : x.children = y :: ys) :
      Step outer fresh ⟨x, f :: fs⟩
        (.standing ⟨y, ⟨prev.number, (prev.absorb x).own,
          (((prev.withTail none).appendContent prev.tail).appendContent x.text).children.reverse,
          ys⟩ :: { f with before := rest } :: fs⟩)
  /-- The element, which has no children, joins the sibling before it. -/
  | absorbLeaf {x prev : Branch} {rest : List Branch} {f : Frame} {fs : List Frame}
      (h : treatmentAt outer ⟨x, f :: fs⟩ = .absorb) (hbefore : f.before = prev :: rest)
      (hmergeable : Mergeable (contextAt outer (f :: fs)) prev.own x.own)
      (hchildren : x.children = []) :
      Step outer fresh ⟨x, f :: fs⟩ (leave (prev.absorb x) ({ f with before := rest } :: fs))
  /-- The element differs from the sibling before it. -/
  | keep {x prev : Branch} {rest : List Branch} {f : Frame} {fs : List Frame}
      (h : treatmentAt outer ⟨x, f :: fs⟩ = .absorb) (hbefore : f.before = prev :: rest)
      (hdiffer : ¬Mergeable (contextAt outer (f :: fs)) prev.own x.own) :
      Step outer fresh ⟨x, f :: fs⟩ (enter x (f :: fs))
  /-- The paragraph is divided in front of a child; something of it stays before the child. -/
  | divideBefore {x y front back : Branch} {ys zs : List Branch} {f : Frame} {fs : List Frame}
      (h : treatmentAt outer ⟨x, f :: fs⟩ = .divide) (hchildren : x.children = ys ++ y :: zs)
      (hfront : x.text ≠ "" ∨ ys ≠ [])
      (hrow : Frame.splitBefore ⟨x.number, x.own, ys.reverse, zs⟩ fresh y = [front, back]) :
      Step outer fresh ⟨x, f :: fs⟩ (.standing ⟨front, { f with after := back :: f.after } :: fs⟩)
  /-- The paragraph is divided behind a child, in front of its tail, which is not empty. -/
  | divideBehind {x y front back : Branch} {ys zs : List Branch} {f : Frame} {fs : List Frame}
      (h : treatmentAt outer ⟨x, f :: fs⟩ = .divide) (hchildren : x.children = ys ++ y :: zs)
      (htail : y.tail ≠ "")
      (hrow : Frame.splitAfterTail ⟨x.number, x.own, ys.reverse, zs⟩ fresh y = [front, back]) :
      Step outer fresh ⟨x, f :: fs⟩ (.standing ⟨front, { f with after := back :: f.after } :: fs⟩)
  /-- The paragraph needs no division. -/
  | undivided {x : Branch} {fs : List Frame} (h : treatmentAt outer ⟨x, fs⟩ = .divide)
      (hcontent : IsUndivided x.text x.children) : Step outer fresh ⟨x, fs⟩ (enter x fs)
  /-- Nothing is to be done with the element. -/
  | advance {x : Branch} {fs : List Frame} (h : treatmentAt outer ⟨x, fs⟩ = .advance) :
      Step outer fresh ⟨x, fs⟩ (enter x fs)

end DoxygenRest.Adjust

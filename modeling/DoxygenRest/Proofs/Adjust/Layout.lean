import DoxygenRest.Proofs.Adjust.Clearance
import DoxygenRest.Proofs.Adjust.NormalForm

/-!
# Lines and blocks stay apart

Wherever the pass has been, each paragraph holds a line of inline markup or a row of blocks, as long
as no formula holds other elements (`undivided_of_adjust`).  This is a part of the normal form, but it
asks less of the subtree than the whole of it: the root may be any element, and a reference in a
highlight may be without text.

A walk divides a paragraph before it goes inside, and no later step puts a block into a line, or text
between blocks (`Step.laid`).
-/

namespace DoxygenRest.Adjust

open Branch

variable {outer : Context} {highlighted : Bool} {x y : Branch} {f f' : Frame} {fs : List Frame}

/-! ### Elements with their content laid out -/

/-- A paragraph holds a line of inline markup or a row of blocks. -/
def Laid (_ : Bool) (x : Branch) : Prop :=
  x.own.tag = "para" → IsUndivided x.text x.children

/-- Only paragraphs are asked for anything. -/
lemma laid_of_tag_ne (h : x.own.tag ≠ "para") : Laid highlighted x :=
  fun htag => absurd htag h

/-- Whether an element is laid out does not depend on its tail. -/
lemma Laid.withTail (tail : Option String) (h : Laid highlighted x) :
    Laid highlighted (x.withTail tail) := h

/-- A formula holds no other elements. -/
def FlatFormula (_ : Bool) (x : Branch) : Prop :=
  x.own.tag = "formula" → x.children = []

/-- A part of a formula without children has none either. -/
lemma divisible_flatFormula : Divisible FlatFormula where
  part {_ x x'} h halike hdrawn := by
    intro htag
    rw [halike.tag] at htag
    rw [h htag] at hdrawn
    refine List.eq_nil_iff_forall_not_mem.2 fun c hc => ?_
    obtain ⟨b, hb, -⟩ := hdrawn c hc
    exact absurd hb List.not_mem_nil
  bare hchildren _ _ _ := hchildren

/-! ### Places -/

/-- Around a place, all that the walk has been in is laid out. -/
def LaidFrames (outer : Context) : List Frame → Branch → Prop
  | [], _ => True
  | f :: fs, x =>
    ThroughoutRow Laid (contextAt outer (f :: fs)).highlighted f.before ∧
      Laid (contextAt outer fs).highlighted (f.fill x) ∧ LaidFrames outer fs (f.fill x)

/-- All that the walk has been in is laid out. -/
def Outcome.LaidOut (outer : Context) : Outcome → Prop
  | standing l => LaidFrames outer l.frames l.focus
  | finished b => Throughout Laid outer.highlighted b

/-- What is around a place does not depend on more of what stands there than its kind and its tail. -/
lemma LaidFrames.congr (h : LaidFrames outer fs x)
    (hsame : fs ≠ [] → y.markup = x.markup ∧ y.tail = x.tail) : LaidFrames outer fs y := by
  induction fs generalizing x y with
  | nil => trivial
  | cons f fs ih =>
    obtain ⟨hbefore, hlaid, hframes⟩ := h
    obtain ⟨hmarkup, htail⟩ := hsame (List.cons_ne_nil f fs)
    refine ⟨hbefore, fun hpara => ?_, ih hframes fun _ => ⟨rfl, rfl⟩⟩
    have hundivided := hlaid hpara
    rw [← Frame.fillRow_singleton, isUndivided_fillRow] at hundivided ⊢
    simpa [hmarkup, htail] using hundivided

/-- The elements around a place stay laid out if another row is put there, the siblings change, and
text is appended to the element around them, as long as it stays undivided. -/
lemma LaidFrames.exchange {row : List Branch} (h : LaidFrames outer (f :: fs) x)
    (htag : f.own.tag ∉ Schema.inlineTags) (halike : f.own.Alike f'.own)
    (htail : f'.own.tail = f.own.tail)
    (hpara : IsUndivided (f.fill x).text (f.fill x).children →
      IsUndivided (f'.fillRow row).text (f'.fillRow row).children) :
    Laid (contextAt outer fs).highlighted (f'.fillRow row) ∧
      LaidFrames outer fs (f'.fillRow row) := by
  obtain ⟨-, hlaid, hframes⟩ := h
  refine ⟨fun ht => hpara (hlaid (halike.tag.symm.trans ht)), hframes.congr fun _ => ⟨?_, ?_⟩⟩
  · refine Entry.markup_congr halike.tag fun hformula => htag ?_
    rw [Frame.own_fill] at hformula
    rw [hformula]
    decide
  · exact congrArg (Option.getD · "") htail

/-- What is around a place stays laid out if something else is put there, given that the siblings
before it are. -/
lemma LaidFrames.exchangeFill (h : LaidFrames outer (f :: fs) x)
    (htag : f.own.tag ∉ Schema.inlineTags) (halike : f.own.Alike f'.own)
    (htail : f'.own.tail = f.own.tail)
    (hbefore : ThroughoutRow Laid (contextAt outer (f' :: fs)).highlighted f'.before)
    (hpara : IsUndivided (f.fill x).text (f.fill x).children →
      IsUndivided (f'.fillRow [y]).text (f'.fillRow [y]).children) :
    LaidFrames outer (f' :: fs) y := by
  refine ⟨hbefore, ?_⟩
  rw [← Frame.fillRow_singleton]
  exact h.exchange htag halike htail hpara

/-- Text that is put before a place leaves the siblings before it laid out. -/
lemma laid_extendBefore (more : String)
    (h : ThroughoutRow Laid (contextAt outer (f :: fs)).highlighted f.before) :
    ThroughoutRow Laid (contextAt outer (f.extendBefore more :: fs)).highlighted
      (f.extendBefore more).before := by
  rw [contextAt_alike outer fs (f.alike_extendBefore more)]
  exact h.drawn Laid.withTail (f.drawnFrom_extendBefore more)

/-! ### Moving on -/

/-- An element behind whose last child the walk has come is laid out. -/
lemma throughout_laid_fillRow {row : List Branch}
    (hbefore : ThroughoutRow Laid (contextAt outer (f :: fs)).highlighted f.before)
    (hafter : f.after = [])
    (hrow : ThroughoutRow Laid (contextAt outer (f :: fs)).highlighted row)
    (hlaid : Laid (contextAt outer fs).highlighted (f.fillRow row)) :
    Throughout Laid (contextAt outer fs).highlighted (f.fillRow row) := by
  refine throughout_iff.2 ⟨hlaid, ?_⟩
  rw [Frame.fillRow, children_node, hafter, List.append_nil, throughoutRow_append,
    throughoutRow_reverse]
  exact ⟨hbefore, hrow⟩

/-- Behind a branch that is laid out, the walk goes on. -/
lemma laid_leave (hx : Throughout Laid (contextAt outer fs).highlighted x)
    (hfs : LaidFrames outer fs x) : (leave x fs).LaidOut outer := by
  induction fs generalizing x with
  | nil => exact hx
  | cons f fs ih =>
    obtain ⟨hbefore, hlaid, hframes⟩ := hfs
    unfold leave
    split
    · next hafter =>
      have hrow : ThroughoutRow Laid (contextAt outer (f :: fs)).highlighted [x] := ⟨hx, trivial⟩
      exact ih (throughout_laid_fillRow hbefore hafter hrow hlaid) hframes
    · next y rest hafter =>
      have hfill := Frame.fill_next (x := x) hafter
      refine ⟨⟨hx, hbefore⟩, ?_, ?_⟩
      · rw [hfill]
        exact hlaid
      · rw [hfill]
        exact hframes

/-- Behind a place that has become empty, the walk goes on. -/
lemma laid_skip (hbefore : ThroughoutRow Laid (contextAt outer (f :: fs)).highlighted f.before)
    (hrow : Laid (contextAt outer fs).highlighted (f.fillRow []) ∧
      LaidFrames outer fs (f.fillRow [])) : (skip f fs).LaidOut outer := by
  unfold skip
  split
  · next hafter => exact laid_leave (throughout_laid_fillRow hbefore hafter trivial hrow.1) hrow.2
  · next y rest hafter =>
    have hfill := Frame.fillRow_nil_next hafter
    refine ⟨hbefore, ?_, ?_⟩
    · rw [hfill]
      exact hrow.1
    · rw [hfill]
      exact hrow.2

/-- Inside of an element that is laid out, the walk goes on. -/
lemma laid_enter (hx : Laid (contextAt outer fs).highlighted x) (hfs : LaidFrames outer fs x) :
    (enter x fs).LaidOut outer := by
  unfold enter
  split
  · next hchildren =>
    refine laid_leave (throughout_iff.2 ⟨hx, ?_⟩) hfs
    rw [hchildren]
    trivial
  · next y ys hchildren =>
    have hfill := Frame.fill_eq_of_children_cons hchildren
    refine ⟨trivial, ?_, ?_⟩
    · rw [hfill]
      exact hx
    · rw [hfill]
      exact hfs

/-! ### Steps -/

/-- Parts of an element stand in its place, all of them inline if the element was. -/
lemma laid_row {front : Branch} {rest : List Branch} (h : LaidFrames outer (f :: fs) x)
    (htag : f.own.tag ∉ Schema.inlineTags) (hblock : x.markup ≠ .structural)
    (hline : x.markup = .inline → ∀ b ∈ front :: rest, b.markup = .inline) :
    (Outcome.standing ⟨front, { f with after := rest ++ f.after } :: fs⟩).LaidOut outer :=
  h.exchangeFill htag ⟨rfl, rfl, rfl⟩ rfl h.1 fun hundivided =>
    isUndivided_row hundivided hblock hline

/-- A paragraph is divided. -/
lemma laid_divide {front back : Branch} (h : LaidFrames outer (f :: fs) x)
    (htag : f.own.tag ∉ Schema.inlineTags) (hτ : treatmentAt outer ⟨x, f :: fs⟩ = .divide) :
    (Outcome.standing ⟨front, { f with after := back :: f.after } :: fs⟩).LaidOut outer := by
  have hother : x.markup = .other := markup_of_divide hτ
  have hparts : (Outcome.standing ⟨front, { f with after := [back] ++ f.after } :: fs⟩).LaidOut
      outer := by
    refine laid_row h htag (by rw [hother]; decide) fun hinline => ?_
    rw [hother] at hinline
    cases hinline
  exact hparts

/-- Two sections that are merged stand in one place. -/
lemma LaidFrames.absorb {prev : Branch} {rest : List Branch} (h : LaidFrames outer (f :: fs) x)
    (htag : f.own.tag ∉ Schema.inlineTags) (hbefore : f.before = prev :: rest)
    (hx : x.own.tag = "simplesect") (hprev : prev.own.tag = "simplesect") :
    Throughout Laid (contextAt outer (f :: fs)).highlighted prev ∧
      LaidFrames outer ({ f with before := rest } :: fs) (prev.absorb x) := by
  have hrow := h.1
  rw [hbefore] at hrow
  exact ⟨hrow.1, h.exchangeFill htag ⟨rfl, rfl, rfl⟩ rfl hrow.2 fun hundivided =>
    isUndivided_absorb hundivided hbefore hx hprev⟩

/-- Every step of a walk keeps all that it has been in laid out, if no formula ahead has children. -/
theorem Step.laid {fresh : NodeId} {l : Location} {o : Outcome} (hstep : Step outer fresh l o)
    (horder : (Outcome.standing l).Orderly FlatFormula outer)
    (h : (Outcome.standing l).LaidOut outer) : o.LaidOut outer := by
  obtain ⟨hx, htidy⟩ := horder
  have htag := htidy.notMem_inlineTags
  -- What is left behind is laid out already, so only the parent of the hole is at stake: a
  -- paragraph must not come to hold a block among text. Most steps take something away from it or
  -- put inline elements where one was.
  cases hstep with
  | @replace x f fs text hτ =>
    rw [Frame.extendBefore_extendBefore]
    refine laid_skip (laid_extendBefore _ h.1) (h.exchange (htag f List.mem_cons_self)
      (f.alike_extendBefore _) (f.own_tail_extendBefore _) fun hundivided => ?_)
    exact isUndivided_extendBefore _ hundivided (markup_of_replace hτ) fun _ => List.forall_mem_nil _
  | @remove x f fs hτ hmore =>
    exact laid_skip (laid_extendBefore _ h.1) (h.exchange (htag f List.mem_cons_self)
      (f.alike_extendBefore _) (f.own_tail_extendBefore _) isUndivided_remove)
  | @removeLast x f fs hτ hbelow hempty =>
    exact (h.exchange (htag f List.mem_cons_self) (f.alike_extendBefore _)
      (f.own_tail_extendBefore _) isUndivided_remove).2
  | flatten hτ =>
    cases groundsAt hτ with
    | link htag hchildren =>
      refine LaidFrames.congr h fun _ => ⟨Entry.markup_congr rfl ?_, rfl⟩
      rw [htag]
      decide
  | @lift x y front ys rest f fs hτ hchildren hinline hrow =>
    cases groundsAt hτ with
    | nested href hinlineTag hne =>
      -- A formula has no children, so what is lifted comes out of inline markup.
      have hformula : x.own.tag ≠ "formula" := fun ht => hne ((throughout_iff.1 hx).1 ht)
      have hmarkup : x.markup = .inline := Entry.markup_of_mem_inlineTags hinlineTag hformula
      refine laid_row h (htag f List.mem_cons_self) (by rw [hmarkup]; decide) fun _ => ?_
      rw [← hrow]
      exact markup_lift hmarkup hformula hinline fresh ys
  | @trim x f fs text hτ htext =>
    cases groundsAt hτ with
    | untrimmed href hinline hchildren hblanks =>
      have hmarkup := markup_trimmed hinline htext
      refine LaidFrames.exchangeFill h (htag f List.mem_cons_self) (f.alike_extendBefore _)
        (f.own_tail_extendBefore _) (laid_extendBefore _ h.1) fun hundivided => ?_
      exact isUndivided_extendBefore _ hundivided (by rw [hinline]; decide)
        fun _ => List.forall_mem_singleton.2 hmarkup
  | trimRoot hτ htext => trivial
  | @absorb x y prev ys rest f fs hτ hbefore hmergeable hchildren =>
    cases groundsAt hτ with
    | laterSection hsection hempty hprevious =>
      have hprev : prev.own.tag = "simplesect" := hmergeable.1.trans hsection
      -- A section is no paragraph, so nothing is asked of the merged one itself, only of what the
      -- two held.
      obtain ⟨hlaid, hframes⟩ :=
        LaidFrames.absorb h (htag f List.mem_cons_self) hbefore hsection hprev
      have halike := alike_absorb prev x
      have hfill := Frame.fill_absorb prev hchildren
      refine ⟨?_, ?_, ?_⟩
      · rw [contextAt, Context.inside_alike _ halike, throughoutRow_reverse]
        exact (throughout_iff.1 hlaid).2.drawn Laid.withTail (drawnFrom_joined prev x)
      · refine laid_of_tag_ne ?_
        rw [hfill, halike.tag, hprev]
        decide
      · rw [hfill]
        exact hframes
  | @absorbLeaf x prev rest f fs hτ hbefore hmergeable hchildren =>
    cases groundsAt hτ with
    | laterSection hsection hempty hprevious =>
      have hprev : prev.own.tag = "simplesect" := hmergeable.1.trans hsection
      obtain ⟨hlaid, hframes⟩ :=
        LaidFrames.absorb h (htag f List.mem_cons_self) hbefore hsection hprev
      have halike := alike_absorb prev x
      refine laid_leave (throughout_iff.2 ⟨laid_of_tag_ne ?_, ?_⟩) hframes
      · rw [halike.tag, hprev]
        decide
      · rw [halike.tag, Branch.absorb, children_node, hchildren, List.append_nil]
        exact (throughout_iff.1 hlaid).2.drawn Laid.withTail (drawnFrom_joined prev x)
  | keep hτ hbefore hdiffer =>
    cases groundsAt hτ with
    | laterSection hsection hempty hprevious =>
      refine laid_enter (laid_of_tag_ne ?_) h
      rw [hsection]
      decide
  | @divideBefore x y front back ys zs f fs hτ hchildren hfront hsplit =>
    exact laid_divide h (htag f List.mem_cons_self) hτ
  | @divideBehind x y front back ys zs f fs hτ hchildren htail hsplit =>
    exact laid_divide h (htag f List.mem_cons_self) hτ
  | undivided hτ hcontent => exact laid_enter (fun _ => hcontent) h
  | advance hτ =>
    cases groundsAt hτ with
    | fine href hsp hbreak hpresentation hchildren hinline hsection hparagraph =>
      exact laid_enter (laid_of_tag_ne hparagraph) h

/-! ### The pass -/

/-- What each step keeps, if no formula has children: all that the walk has been in is cleared and
laid out. -/
structure Outcome.Apart (outer : Context) (o : Outcome) : Prop where
  orderly : o.Orderly FlatFormula outer
  laid : o.LaidOut outer

/-- After a step, what has been passed is laid out and in order still. -/
lemma Step.apart {fresh : NodeId} {l : Location} {o : Outcome} (hstep : Step outer fresh l o)
    (h : (Outcome.standing l).Apart outer) : o.Apart outer :=
  ⟨hstep.orderly divisible_flatFormula h.orderly, hstep.laid h.orderly h.laid⟩

variable {t t' : Tree} {root n : NodeId}

/-- The pass leaves all elements cleared and laid out. -/
theorem apart_of_adjust (h : t.WellFormed)
    (hformula : ∀ m, m = root ∨ root ∈ t.ancestors m → t.tag m = "formula" → t.children m = [])
    (hrun : adjust root t = .ok () t') :
    t'.WellFormed ∧ (Outcome.finished (t'.branch root)).Apart (context t' root) := by
  have hflat (m : NodeId) (hm : m = root ∨ root ∈ t.ancestors m) :
      FlatFormula (context t m).highlighted (t.branch m) := by
    intro htag
    rw [Tree.own_branch h] at htag
    rw [Tree.children_branch h, hformula m hm htag, List.map_nil]
  have hstart : (Outcome.standing ⟨t.branch root, []⟩).Apart (context t root) :=
    ⟨⟨throughout_branch h hflat, trivial⟩, trivial⟩
  obtain ⟨h', haround, hend⟩ := keeps_of_adjust h hrun Step.apart hstart
  rw [haround]
  exact ⟨h', hend⟩

/-- **Lines and blocks stay apart**: each paragraph that the pass leaves holds a line of inline markup
or a row of blocks. -/
theorem undivided_of_adjust (h : t.WellFormed)
    (hformula : ∀ m, m = root ∨ root ∈ t.ancestors m → t.tag m = "formula" → t.children m = [])
    (hrun : adjust root t = .ok () t') (hn : n = root ∨ root ∈ t'.ancestors n)
    (htag : t'.tag n = "para") :
    (∀ m ∈ t'.children n, Schema.isInline t' m = true) ∨
      t'.hasText n = false ∧
        ∀ m ∈ t'.children n, Schema.isStructural t' m = true ∧ t'.hasTail m = false := by
  obtain ⟨h', hend⟩ := apart_of_adjust h hformula hrun
  have hlaid := (throughout_iff.1 (Throughout.below h' hend.laid hn)).1
  have hholds := Tree.holds_branch h' n
  have hchildren := undivided_children hholds (hlaid ?_)
  · rw [Tree.number_branch] at hchildren
    exact hchildren
  · rw [Tree.own_branch h']
    exact htag

end DoxygenRest.Adjust

import DoxygenRest.Proofs.Adjust.Invariant
import DoxygenRest.Proofs.Text.White

/-!
# Steps preserve the invariant

Each step of the pass leads from a sound place to a sound outcome (`Step.sound`).  Where a step
changes what is around the current element, it has to be shown that the elements there still fit:
text that is appended before the element leaves everything settled, an element that has become empty
is visited once more, and a paragraph only gets what it holds already, inline markup or blocks.
-/

namespace DoxygenRest

open Branch

/-! ### Appending text before a place -/

namespace Frame

variable {f : Frame} {row : List Branch}

/-- Text that is put before a place belongs to the element around it or to the child before it. -/
lemma alike_extendBefore (f : Frame) (more : String) : f.own.Alike (f.extendBefore more).own := by
  unfold extendBefore
  split
  · exact ⟨rfl, rfl, rfl⟩
  · exact ⟨rfl, rfl, rfl⟩

/-- Text added in front of a hole does not touch the tail of the parent. -/
lemma own_tail_extendBefore (f : Frame) (more : String) :
    (f.extendBefore more).own.tail = f.own.tail := by
  unfold extendBefore
  split
  · rfl
  · rfl

/-- Putting an empty text before a place changes nothing. -/
lemma extendBefore_empty (f : Frame) : f.extendBefore "" = f := by
  obtain ⟨n, e, before, after⟩ := f
  cases before with
  | nil => rfl
  | cons prev rest =>
    cases prev
    rfl

/-- Texts that are put before a place one after the other are one text. -/
lemma extendBefore_extendBefore (f : Frame) (first second : String) :
    (f.extendBefore first).extendBefore second = f.extendBefore (first ++ second) := by
  obtain ⟨n, e, before, after⟩ := f
  have happend (text : Option String) :
      Tree.appendTo (Tree.appendTo text first) second = Tree.appendTo text (first ++ second) := by
    unfold Tree.appendTo
    by_cases hfirst : first = ""
    · simp [hfirst]
    · by_cases hsecond : second = ""
      · simp [hsecond]
      · simp [hfirst, hsecond, String.append_assoc]
  cases before with
  | nil => simp [extendBefore, happend]
  | cons prev rest => simp [extendBefore, extendTail, revise, happend]

/-- An element that is empty after text was put into it was empty before. -/
lemma isEmpty_of_extendBefore {more : String} (h : ((f.extendBefore more).fillRow row).isEmpty) :
    (f.fillRow row).isEmpty ∧ more = "" := by
  rw [Branch.isEmpty_iff] at h
  obtain ⟨htext, hchildren⟩ := h
  simp only [fillRow, children_node, List.append_eq_nil_iff, List.reverse_eq_nil_iff,
    after_extendBefore] at hchildren
  obtain ⟨hbefore, hrow, hafter⟩ := hchildren
  have hnil : f.before = [] := by
    have hnumbers := f.map_number_before_extendBefore more
    rw [hbefore] at hnumbers
    exact List.map_eq_nil_iff.1 hnumbers.symm
  have hextended : f.own.text.getD "" ++ more = "" := by
    simpa [extendBefore, hnil, fillRow, Branch.text] using htext
  rw [String.append_eq_empty_iff] at hextended
  refine ⟨Branch.isEmpty_iff.2 ⟨hextended.1, ?_⟩, hextended.2⟩
  simp [fillRow, hnil, hrow, hafter]

end Frame

namespace Adjust

variable {outer : Context} {x y : Branch} {f f' : Frame} {fs : List Frame}

/-- What is inside of an element does not depend on its text. -/
lemma contextAt_alike (outer : Context) (fs : List Frame) (h : f.own.Alike f'.own) :
    contextAt outer (f' :: fs) = contextAt outer (f :: fs) :=
  Context.inside_alike _ h

/-- Text that is put before a place leaves everything beside it as it should be. -/
lemma Beside.extendBefore (h : Beside outer f fs) (more : String) :
    Beside outer (f.extendBefore more) fs := by
  have hcontext := contextAt_alike outer fs (f.alike_extendBefore more)
  refine ⟨?_, ?_⟩
  · rw [hcontext]
    exact settledRow_extendBefore more h.before
  · rw [hcontext, Frame.after_extendBefore]
    exact h.after

/-! ### Paragraphs with a change inside -/

/-- What takes the place of an element that is no block leaves a paragraph undivided, with text put
before it, if it is inline whenever the element was. -/
lemma isUndivided_extendBefore {row : List Branch} (more : String)
    (h : IsUndivided (f.fill x).text (f.fill x).children) (hx : x.markup ≠ .structural)
    (hrow : x.markup = .inline → ∀ b ∈ row, b.markup = .inline) :
    IsUndivided ((f.extendBefore more).fillRow row).text
      ((f.extendBefore more).fillRow row).children := by
  obtain ⟨hinline, hbefore, hafter⟩ := isLine_of_isUndivided h hx
  have hbefore' := forall_markup_extendBefore more hbefore
  exact isUndivided_fillRow.2 (Or.inl ⟨hbefore', hrow hinline, by simpa using hafter⟩)

/-- Taking an element away leaves a paragraph undivided. -/
lemma isUndivided_remove (h : IsUndivided (f.fill x).text (f.fill x).children) :
    IsUndivided ((f.extendBefore x.tail).fillRow []).text
      ((f.extendBefore x.tail).fillRow []).children := by
  rw [← Frame.fillRow_singleton, isUndivided_fillRow] at h
  rcases h with ⟨hbefore, -, hafter⟩ | ⟨htext, hbefore, hrow, hafter⟩
  · have hbefore' := forall_markup_extendBefore x.tail hbefore
    exact isUndivided_fillRow.2 (Or.inl ⟨hbefore', by simp, by simpa using hafter⟩)
  · rw [(hrow x (List.mem_singleton_self x)).2, Frame.extendBefore_empty]
    exact isUndivided_fillRow.2 (Or.inr ⟨htext, hbefore, by simp, hafter⟩)

/-- What takes the place of an element that is no block leaves a paragraph undivided, if it is
inline whenever the element was. -/
lemma isUndivided_row {front : Branch} {rest : List Branch}
    (h : IsUndivided (f.fill x).text (f.fill x).children) (hx : x.markup ≠ .structural)
    (hrow : x.markup = .inline → ∀ b ∈ front :: rest, b.markup = .inline) :
    IsUndivided ({ f with after := rest ++ f.after }.fillRow [front]).text
      ({ f with after := rest ++ f.after }.fillRow [front]).children := by
  have hparts := isUndivided_extendBefore "" h hx hrow
  rw [Frame.extendBefore_empty] at hparts
  exact hparts

/-- Merging two sections leaves a paragraph undivided. -/
lemma isUndivided_absorb {prev : Branch} {rest : List Branch}
    (h : IsUndivided (f.fill x).text (f.fill x).children) (hbefore : f.before = prev :: rest)
    (hx : x.own.tag = "simplesect") (hprev : prev.own.tag = "simplesect") :
    IsUndivided ({ f with before := rest }.fillRow [prev.absorb x]).text
      ({ f with before := rest }.fillRow [prev.absorb x]).children := by
  have hstructural {b : Branch} (hb : b.own.tag = "simplesect") : b.markup = .structural := by
    rw [Branch.markup, Entry.markup_eq_classOfTag hb (by decide)]
    decide
  rw [← Frame.fillRow_singleton, isUndivided_fillRow, hbefore] at h
  rcases h with ⟨-, hrow, -⟩ | ⟨htext, hfirst, hrow, hafter⟩
  · cases (hstructural hx).symm.trans (hrow x (List.mem_singleton_self x))
  · have htail : (prev.absorb x).tail = x.tail := rfl
    have hx' := hrow x (List.mem_singleton_self x)
    refine isUndivided_fillRow.2 (Or.inr ⟨htext, (List.forall_mem_cons.1 hfirst).2, ?_, hafter⟩)
    rw [List.forall_mem_singleton, htail]
    exact ⟨hstructural ((alike_absorb prev x).tag.trans hprev), hx'.2⟩

/-- Text only takes the place of inline markup, or of an element that stands for a space. -/
lemma markup_of_replace {k : Context} {previous? : Option Entry} {text : String}
    (h : treatment k previous? x = .replace text) : x.markup ≠ .structural := by
  have hmarkup {tag : String} (htag : x.own.tag = tag) (hformula : tag ≠ "formula")
      (hclass : Schema.classOfTag tag ≠ .structural) : x.markup ≠ .structural := by
    rw [Branch.markup, Entry.markup_eq_classOfTag htag hformula]
    exact hclass
  cases grounds h with
  | reference htag hk => exact hmarkup htag (by decide) (by decide)
  | space htag hk => exact hmarkup htag (by decide) (by decide)
  | linebreak htag => exact hmarkup htag (by decide) (by decide)

/-- Only paragraphs are divided, and these are neither inline markup nor blocks. -/
lemma markup_of_divide {k : Context} {previous? : Option Entry}
    (h : treatment k previous? x = .divide) : x.markup = .other := by
  cases grounds h with
  | paragraph htag hempty =>
    rw [Branch.markup, Entry.markup_eq_classOfTag htag (by decide)]
    decide

/-! ### Taking elements away -/

/-- The text that takes the place of an element is not empty. -/
lemma text_of_replace {k : Context} {previous? : Option Entry} {text : String}
    (h : treatment k previous? x = .replace text) (hadmissible : Admissible k.highlighted x) :
    text ≠ "" := by
  cases grounds h with
  | reference htag hk => exact (admissible_iff.1 hadmissible).2.1 htag hk
  | space htag hk => decide
  | linebreak htag => decide

/-- The elements around a place still fit if text is put before it and another row is put there, as
long as they do not become empty and stay undivided. -/
lemma Ready.exchange_extendBefore {row : List Branch} (more : String)
    (h : Ready outer (f :: fs) x)
    (hempty : fs ≠ [] → ¬((f.extendBefore more).fillRow row).isEmpty)
    (hpara : f.own.tag = "para" → IsUndivided (f.fill x).text (f.fill x).children →
      IsUndivided ((f.extendBefore more).fillRow row).text
        ((f.extendBefore more).fillRow row).children) :
    FitsAt outer fs ((f.extendBefore more).fillRow row) ∧
      Ready outer fs ((f.extendBefore more).fillRow row) :=
  h.exchange (f.alike_extendBefore more) (f.own_tail_extendBefore more) hempty hpara

/-- Text takes the place of an element. -/
lemma sound_replace {text : String} (h : Location.Sound outer ⟨x, f :: fs⟩)
    (hτ : treatmentAt outer ⟨x, f :: fs⟩ = .replace text) :
    (skip ((f.extendBefore text).extendBefore x.tail) fs).Sound outer := by
  rw [Frame.extendBefore_extendBefore]
  refine sound_skip (h.ready.1.extendBefore _) (h.ready.exchange_extendBefore _ ?_ ?_)
  · intro _ hempty
    have hboth := (Frame.isEmpty_of_extendBefore hempty).2
    rw [String.append_eq_empty_iff] at hboth
    exact text_of_replace hτ h.admissible hboth.1
  · exact fun _ hundivided => isUndivided_extendBefore _ hundivided (markup_of_replace hτ)
      fun _ => List.forall_mem_nil _

/-- An element is removed. -/
lemma sound_remove (h : Location.Sound outer ⟨x, f :: fs⟩)
    (hmore : fs = [] ∨ ((f.extendBefore x.tail).fillRow []).isEmpty = false) :
    (skip (f.extendBefore x.tail) fs).Sound outer := by
  refine sound_skip (h.ready.1.extendBefore _) (h.ready.exchange_extendBefore _ ?_ ?_)
  · intro hbelow hempty
    rcases hmore with hroot | hmore
    · exact hbelow hroot
    · rw [hempty] at hmore
      cases hmore
  · exact fun _ hundivided => isUndivided_remove hundivided

/-- An element is removed, and its parent has become empty. -/
lemma sound_removeLast (h : Location.Sound outer ⟨x, f :: fs⟩) (hbelow : fs ≠ [])
    (hempty : ((f.extendBefore x.tail).fillRow []).isEmpty) :
    Location.Sound outer ⟨(f.extendBefore x.tail).fillRow [], fs⟩ := by
  obtain ⟨-, hfits, hready⟩ := h.ready
  have htag : f.own.tag ∉ Schema.inlineTags := hfits.notMem_inlineTags (by simp)
  have hne {tag : String} (hmem : tag ∈ Schema.inlineTags) : f.own.tag ≠ tag :=
    fun heq => htag (heq ▸ hmem)
  have halike := f.alike_extendBefore x.tail
  refine ⟨hready.congr fun _ => ⟨?_, ?_⟩, admissible_iff.2 ⟨?_, ?_, ?_⟩, fun hnil => ?_⟩
  · exact Entry.markup_congr halike.tag (hne (by decide))
  · exact congrArg (Option.getD · "") (f.own_tail_extendBefore x.tail)
  · exact fun _ => (Branch.isEmpty_iff.1 hempty).2
  · intro href
    exact absurd (halike.tag.symm.trans href) (hne (by decide))
  · rw [(Branch.isEmpty_iff.1 hempty).2]
    trivial
  · exact absurd hnil hbelow

/-- The content of a link becomes text. -/
lemma sound_flatten (h : Location.Sound outer ⟨x, fs⟩)
    (hτ : treatmentAt outer ⟨x, fs⟩ = .flatten) :
    Location.Sound outer ⟨node x.number { x.own with text := some x.stringValue } [], fs⟩ := by
  cases groundsAt hτ with
  | link htag hchildren =>
    refine ⟨h.ready.congr fun _ => ⟨Entry.markup_congr rfl ?_, rfl⟩, ?_, h.plain⟩
    · rw [htag]
      decide
    · refine admissible_iff.2 ⟨fun _ => rfl, fun href => ?_, trivial⟩
      exact absurd (htag.symm.trans href) (by decide)

/-! ### Dividing elements -/

/-- A piece of an element is admissible if its children are. -/
lemma admissible_piece {highlighted : Bool} {n : NodeId} {e : Entry} {cs : List Branch}
    (halike : x.own.Alike e) (hformula : x.own.tag = "formula" → cs = [])
    (href : ¬(x.own.tag = "ref" ∧ highlighted))
    (hcs : AdmissibleRow (highlighted || x.own.tag == "highlight") cs) :
    Admissible highlighted (node n e cs) := by
  rw [Admissible, halike.tag]
  exact ⟨hformula, fun htag hk => absurd ⟨htag, hk⟩ href, hcs⟩

/-- A branch is admissible whatever its tail. -/
lemma Admissible.withTail {highlighted : Bool} (h : Admissible highlighted x)
    (tail : Option String) : Admissible highlighted (x.withTail tail) := by
  rw [admissible_iff] at h ⊢
  rw [stringValue_withTail]
  exact h

/-- A row of pieces stands in the place of an element. -/
lemma sound_row {front : Branch} {rest : List Branch} (h : Location.Sound outer ⟨x, f :: fs⟩)
    (hadmissible : AdmissibleRow (contextAt outer (f :: fs)).highlighted (front :: rest))
    (hblock : x.markup ≠ .structural)
    (hline : x.markup = .inline → ∀ b ∈ front :: rest, b.markup = .inline) :
    Location.Sound outer ⟨front, { f with after := rest ++ f.after } :: fs⟩ := by
  have hexchange : FitsAt outer fs ({ f with after := rest ++ f.after }.fillRow [front]) ∧
      Ready outer fs ({ f with after := rest ++ f.after }.fillRow [front]) := by
    refine h.ready.exchange ⟨rfl, rfl, rfl⟩ rfl ?_ ?_
    · simp [Branch.isEmpty_iff, Frame.fillRow]
    · exact fun _ hundivided => isUndivided_row hundivided hblock hline
  rw [AdmissibleRow] at hadmissible
  refine sound_below ⟨h.ready.1.before, ?_⟩ (Frame.fillRow_singleton ..).symm hexchange
    hadmissible.1
  exact admissibleRow_append.2 ⟨hadmissible.2, h.ready.1.after⟩

/-- The parts that inline markup falls into when an inline child is lifted out of it are inline. -/
lemma markup_lift (hx : x.markup = .inline) (hformula : x.own.tag ≠ "formula")
    (hy : y.markup = .inline) (fresh : NodeId) (ys : List Branch) :
    ∀ b ∈ Frame.lift ⟨x.number, x.own, [], ys⟩ fresh y, b.markup = .inline := by
  have hpart {b : Branch} (halike : x.own.Alike b.own) : b.markup = .inline :=
    (Entry.markup_congr halike.tag hformula).trans hx
  have hlifted (tail : Option String) : (y.withTail tail).markup = .inline := hy
  unfold Frame.lift
  split
  · simpa using ⟨hpart ⟨rfl, rfl, rfl⟩, hlifted _⟩
  · simpa using ⟨hpart ⟨rfl, rfl, rfl⟩, hlifted _, hpart ⟨rfl, rfl, rfl⟩⟩

/-- The first child of inline markup is lifted out of it. -/
lemma sound_lift {front : Branch} {ys rest : List Branch} {fresh : NodeId}
    (h : Location.Sound outer ⟨x, f :: fs⟩) (hτ : treatmentAt outer ⟨x, f :: fs⟩ = .lift)
    (hchildren : x.children = y :: ys) (hinline : y.markup = .inline)
    (hrow : Frame.lift ⟨x.number, x.own, [], ys⟩ fresh y = front :: rest) :
    Location.Sound outer ⟨front, { f with after := rest ++ f.after } :: fs⟩ := by
  cases groundsAt hτ with
  | nested href htag hne =>
    obtain ⟨hformula, -, hadmissible⟩ := admissible_iff.1 h.admissible
    have hformula' : x.own.tag ≠ "formula" := fun ht => hne (hformula ht)
    have hmarkup := Entry.markup_of_mem_inlineTags htag hformula'
    have hhighlight : (x.own.tag == "highlight") = false := by
      rw [beq_eq_false_iff_ne]
      rintro heq
      rw [heq] at htag
      exact absurd htag (by decide)
    have hys := hadmissible
    rw [hchildren, hhighlight, Bool.or_false, AdmissibleRow] at hys
    have hpiece {n : NodeId} {e : Entry} {cs : List Branch} (halike : x.own.Alike e)
        (hcs : AdmissibleRow (contextAt outer (f :: fs)).highlighted cs) :
        Admissible (contextAt outer (f :: fs)).highlighted (node n e cs) := by
      refine admissible_piece halike (fun ht => absurd ht hformula') href ?_
      rwa [hhighlight, Bool.or_false]
    -- Lifting makes two or three pieces, with the lifted child among them.
    have hpieces : AdmissibleRow (contextAt outer (f :: fs)).highlighted (front :: rest) := by
      rw [← hrow]
      unfold Frame.lift
      split
      · exact ⟨hpiece ⟨rfl, rfl, rfl⟩ trivial, hys.1.withTail _, trivial⟩
      · exact ⟨hpiece ⟨rfl, rfl, rfl⟩ trivial, hys.1.withTail _, hpiece ⟨rfl, rfl, rfl⟩ hys.2,
          trivial⟩
    refine sound_row h hpieces ?_ fun _ => ?_
    · rw [Branch.markup, hmarkup]
      decide
    · rw [← hrow]
      exact markup_lift hmarkup hformula' hinline fresh ys

/-- A paragraph is divided in two. -/
lemma sound_divide {n m : NodeId} {e e' : Entry} {cs cs' : List Branch}
    (h : Location.Sound outer ⟨x, f :: fs⟩) (hτ : treatmentAt outer ⟨x, f :: fs⟩ = .divide)
    (he : x.own.Alike e) (he' : x.own.Alike e')
    (hcs : AdmissibleRow ((contextAt outer (f :: fs)).highlighted || x.own.tag == "highlight")
      (cs ++ cs')) :
    Location.Sound outer ⟨node n e cs, { f with after := node m e' cs' :: f.after } :: fs⟩ := by
  cases groundsAt hτ with
  | paragraph htag hempty =>
    have hformula : x.own.tag ≠ "formula" := by
      rw [htag]
      decide
    have href : x.own.tag ≠ "ref" := by
      rw [htag]
      decide
    have hother := markup_of_divide hτ
    rw [admissibleRow_append] at hcs
    have hrow : AdmissibleRow (contextAt outer (f :: fs)).highlighted
        [node n e cs, node m e' cs'] :=
      ⟨admissible_piece he (fun ht => absurd ht hformula) (fun ht => href ht.1) hcs.1,
        admissible_piece he' (fun ht => absurd ht hformula) (fun ht => href ht.1) hcs.2, trivial⟩
    refine sound_row h hrow ?_ ?_
    · rw [hother]
      decide
    · intro hinline
      cases hother.symm.trans hinline

/-! ### Trimming -/

/-- Trimming changes the text and the tail of an element. -/
lemma alike_trimmed (x : Branch) (text : String) : x.own.Alike (trimmed x text).own := by
  rw [trimmed, own_node]
  exact ⟨rfl, rfl, rfl⟩

/-- Trimmed inline markup stays inline: a trimmed formula still starts with a dollar sign. -/
lemma markup_trimmed {text : String} (hinline : x.markup = .inline)
    (htext : x.own.text = some text) : (trimmed x text).markup = .inline := by
  have htag := (alike_trimmed x text).tag
  by_cases hformula : x.own.tag = "formula"
  · rw [Branch.markup, Entry.markup, if_pos hformula, htext] at hinline
    have hdollar : (text.toList.dropWhile Text.isWhite).head? = some '$' := by
      by_contra hne
      simp [hne] at hinline
    have hbody : (Text.splitBlanks text).2.1.toList.head? = some '$' := by
      rw [Text.splitBlanks, String.toList_ofList]
      exact Text.head?_dropEndWhile hdollar (by decide)
    have htrimmed : (trimmed x text).own.text.getD "" = (Text.splitBlanks text).2.1 :=
      text_trimmed x text
    obtain ⟨rest, hrest⟩ := List.head?_eq_some_iff.1 hbody
    have hwhite : Text.isWhite '$' = false := by decide
    rw [Branch.markup, Entry.markup, htag, if_pos hformula, htrimmed, hrest]
    simp [hwhite]
  · have hmarkup := Entry.markup_congr htag hformula
    rw [Branch.markup, hmarkup]
    exact hinline

/-- White space leaves the text of an element. -/
lemma sound_trim {text : String} (h : Location.Sound outer ⟨x, f :: fs⟩)
    (hτ : treatmentAt outer ⟨x, f :: fs⟩ = .trim) (htext : x.own.text = some text) :
    Location.Sound outer ⟨trimmed x text, f.extendBefore (Text.splitBlanks text).1 :: fs⟩ := by
  cases groundsAt hτ with
  | untrimmed href hinline hchildren hblanks =>
    have hmarkup := markup_trimmed hinline htext
    have hcontext := contextAt_alike outer fs (f.alike_extendBefore (Text.splitBlanks text).1)
    have hblock : x.markup ≠ .structural := by
      rw [hinline]
      decide
    have hexchange :
        FitsAt outer fs ((f.extendBefore (Text.splitBlanks text).1).fillRow [trimmed x text]) ∧
          Ready outer fs ((f.extendBefore (Text.splitBlanks text).1).fillRow [trimmed x text]) := by
      refine h.ready.exchange_extendBefore _ (fun _ hempty => ?_) fun _ hundivided => ?_
      · simp [Branch.isEmpty_iff, Frame.fillRow] at hempty
      · exact isUndivided_extendBefore _ hundivided hblock fun _ =>
          List.forall_mem_singleton.2 hmarkup
    refine sound_below (h.ready.1.extendBefore _) (Frame.fillRow_singleton ..).symm hexchange ?_
    have halike := alike_trimmed x text
    rw [trimmed, own_node] at halike
    rw [hcontext, trimmed]
    refine admissible_piece halike (fun _ => hchildren) href ?_
    rw [hchildren]
    trivial

/-! ### Merging sections -/

section Merging

variable {prev : Branch} {rest : List Branch} (h : Location.Sound outer ⟨x, f :: fs⟩)
  (hbefore : f.before = prev :: rest)

include h hbefore

/-- The sibling before a place is settled, and so are those before it. -/
lemma settled_before :
    SettledRow (contextAt outer (f :: fs)) none rest.reverse ∧
      Settled (contextAt outer (f :: fs)) (rest.head?.map own) prev := by
  have hrow := h.ready.1.before
  rw [hbefore] at hrow
  exact settledRow_reverse_cons.1 hrow

/-- What two sections hold together is settled as far as it was walked over. -/
lemma settledRow_joined :
    SettledRow ((contextAt outer (f :: fs)).inside (prev.absorb x).own) none
      (((prev.withTail none).appendContent prev.tail).appendContent x.text).children := by
  rw [Context.inside_alike _ (alike_absorb prev x)]
  exact (settled_before h hbefore).2.joined x

variable (hτ : treatmentAt outer ⟨x, f :: fs⟩ = .absorb)
  (hmergeable : Mergeable (contextAt outer (f :: fs)) prev.own x.own)

include hτ hmergeable

/-- A section with what it absorbs stands in the place of the two. -/
lemma ready_absorb :
    Ready outer ({ f with before := rest } :: fs) (prev.absorb x) ∧
      FitsAt outer ({ f with before := rest } :: fs) (prev.absorb x) := by
  cases groundsAt hτ with
  | laterSection htag hempty hprevious =>
    have hrow := settled_before h hbefore
    have hprev : prev.own.tag = "simplesect" := hmergeable.1.trans htag
    have hexchange : FitsAt outer fs ({ f with before := rest }.fillRow [prev.absorb x]) ∧
        Ready outer fs ({ f with before := rest }.fillRow [prev.absorb x]) := by
      refine h.ready.exchange ⟨rfl, rfl, rfl⟩ rfl ?_ ?_
      · simp [Branch.isEmpty_iff, Frame.fillRow]
      · exact fun _ hundivided => isUndivided_absorb hundivided hbefore htag hprev
    exact ⟨⟨⟨hrow.1, h.ready.1.after⟩, hexchange⟩, (settled_iff.1 hrow.2).1.absorb hprev x⟩

/-- A section without children joins the section before it. -/
lemma sound_absorbLeaf (hchildren : x.children = []) :
    (leave (prev.absorb x) ({ f with before := rest } :: fs)).Sound outer := by
  obtain ⟨hready, hfits⟩ := ready_absorb h hbefore hτ hmergeable
  have hjoined := settledRow_joined h hbefore
  refine sound_leave hready hfits ?_
  rw [Branch.absorb, children_node, hchildren, List.append_nil]
  exact hjoined

/-- A section joins the section before it, and its first child comes next. -/
lemma sound_absorb {ys : List Branch} (hchildren : x.children = y :: ys) :
    Location.Sound outer ⟨y, ⟨prev.number, (prev.absorb x).own,
      (((prev.withTail none).appendContent prev.tail).appendContent x.text).children.reverse,
      ys⟩ :: { f with before := rest } :: fs⟩ := by
  obtain ⟨hready, hfits⟩ := ready_absorb h hbefore hτ hmergeable
  have hjoined := settledRow_joined h hbefore
  have hfill := Frame.fill_absorb prev hchildren
  have hadmissible := (admissible_iff.1 h.admissible).2.2
  have htag : (prev.absorb x).own.tag = x.own.tag :=
    (alike_absorb prev x).tag.trans hmergeable.1
  rw [hchildren, AdmissibleRow, ← htag] at hadmissible
  refine sound_below ⟨?_, hadmissible.2⟩ hfill ⟨hfits, hready⟩ hadmissible.1
  rw [List.reverse_reverse]
  exact hjoined

end Merging

/-! ### All steps -/

/-- What is walked over without a change fits. -/
lemma sound_enter_of_fits {l : Location} (h : l.Sound outer)
    (hfits : l.frames ≠ [] →
      Fits (contextAt outer l.frames) (previousOwn? l.frames) l.focus) :
    (enter l.focus l.frames).Sound outer := by
  obtain ⟨x, fs⟩ := l
  refine sound_enter h.ready ?_ h.admissible
  cases fs with
  | nil => exact h.plain rfl
  | cons f fs => exact hfits (List.cons_ne_nil f fs)

/-- Every step of the pass preserves the invariant. -/
theorem Step.sound {fresh : NodeId} {l : Location} {o : Outcome} (hstep : Step outer fresh l o)
    (h : l.Sound outer) : o.Sound outer := by
  have hrow := (admissible_iff.1 h.admissible).2.2
  cases hstep with
  | replace hτ => exact sound_replace h hτ
  | remove hτ hmore => exact sound_remove h hmore
  | removeLast hτ hbelow hempty => exact sound_removeLast h hbelow hempty
  | flatten hτ => exact sound_flatten h hτ
  | lift hτ hchildren hinline hlift => exact sound_lift h hτ hchildren hinline hlift
  | trim hτ htext => exact sound_trim h hτ htext
  | trimRoot hτ htext =>
    rw [treatmentAt, treatment_of_isPlain _ _ (h.plain rfl)] at hτ
    cases hτ
  | absorb hτ hbefore hmergeable hchildren => exact sound_absorb h hbefore hτ hmergeable hchildren
  | absorbLeaf hτ hbefore hmergeable hchildren =>
    exact sound_absorbLeaf h hbefore hτ hmergeable hchildren
  | keep hτ hbefore hdiffer =>
    refine sound_enter_of_fits h fun _ => fits_of_absorb hτ fun e he => ?_
    obtain rfl : _ = e := by simpa [previousOwn?, hbefore] using he
    exact hdiffer
  | divideBefore hτ hchildren hfront hsplit =>
    cases hsplit
    refine sound_divide h hτ ⟨rfl, rfl, rfl⟩ ⟨rfl, rfl, rfl⟩ ?_
    simpa [hchildren] using hrow
  | @divideBehind x y front back ys zs f fs hτ hchildren htail hsplit =>
    cases hsplit
    refine sound_divide h hτ ⟨rfl, rfl, rfl⟩ ⟨rfl, rfl, rfl⟩ ?_
    rw [hchildren, admissibleRow_append, AdmissibleRow] at hrow
    obtain ⟨hys, hy, hzs⟩ := hrow
    rw [List.reverse_reverse, List.append_assoc]
    exact admissibleRow_append.2 ⟨hys, hy.withTail none, hzs⟩
  | undivided hτ hcontent => exact sound_enter_of_fits h fun _ => fits_of_divide hτ hcontent
  | advance hτ => exact sound_enter_of_fits h fun _ => fits_of_advance hτ

end Adjust

end DoxygenRest

import DoxygenRest.Proofs.Adjust.Settled

/-!
# The invariant of the pass

While the pass walks over a branch, what it has walked over is settled and what it has not is
admissible (`Location.Sound`).  Every step preserves this (`Step.sound`), although most edits reach
beyond the current element: they append to the text before it, put new elements behind it, and can
empty the elements around it.
-/

namespace DoxygenRest.Adjust

open Branch

variable {outer : Context} {x y : Branch} {f f' : Frame} {fs : List Frame}

/-! ### What is asked of a place -/

/-- An element that fits with the given frames around it.  The root of a walk fits whatever lies
around it. -/
def FitsAt (outer : Context) : List Frame → Branch → Prop
  | [], x => IsPlain x.own.tag
  | f :: fs, x => Fits (contextAt outer (f :: fs)) (previousOwn? (f :: fs)) x

/-- The siblings before a place are settled, and those after it are admissible. -/
structure Beside (outer : Context) (f : Frame) (fs : List Frame) : Prop where
  before : SettledRow (contextAt outer (f :: fs)) none f.before.reverse
  after : AdmissibleRow (contextAt outer (f :: fs)).highlighted f.after

/-- Around a place, all that comes before is settled, all that comes after is admissible, and the
elements around it fit. -/
def Ready (outer : Context) : List Frame → Branch → Prop
  | [], _ => True
  | f :: fs, x => Beside outer f fs ∧ FitsAt outer fs (f.fill x) ∧ Ready outer fs (f.fill x)

/-- An element with children that fits is no inline markup. -/
lemma FitsAt.notMem_inlineTags (h : FitsAt outer fs x) (hchildren : x.children ≠ []) :
    x.own.tag ∉ Schema.inlineTags := by
  cases fs with
  | nil => exact h.1
  | cons f fs => exact fun htag => hchildren (h.flat htag)

/-- Texts and tails do not matter to elements that are no inline markup, as long as these do not
become empty, and paragraphs stay undivided. -/
lemma FitsAt.of_alike (h : FitsAt outer fs x) (halike : x.own.Alike y.own)
    (htag : x.own.tag ∉ Schema.inlineTags) (hempty : fs ≠ [] → ¬y.isEmpty)
    (hpara : x.own.tag = "para" → IsUndivided x.text x.children → IsUndivided y.text y.children) :
    FitsAt outer fs y := by
  cases fs with
  | nil =>
    rw [FitsAt, halike.tag]
    exact h
  | cons f fs =>
    exact Fits.of_alike h halike htag (fun _ => hempty (List.cons_ne_nil f fs))
      fun ht => hpara ht (h.undivided ht).2

/-! ### Undivided paragraphs -/

/-- A paragraph with a row put in a place is undivided if what is before, in, and after the place is
a line, or blocks. -/
lemma isUndivided_fillRow {row : List Branch} :
    IsUndivided (f.fillRow row).text (f.fillRow row).children ↔
      ((∀ b ∈ f.before, b.markup = .inline) ∧ (∀ b ∈ row, b.markup = .inline) ∧
        ∀ b ∈ f.after, b.markup = .inline) ∨
      f.own.text.getD "" = "" ∧ (∀ b ∈ f.before, b.markup = .structural ∧ b.tail = "") ∧
        (∀ b ∈ row, b.markup = .structural ∧ b.tail = "") ∧
        ∀ b ∈ f.after, b.markup = .structural ∧ b.tail = "" := by
  simp only [IsUndivided, Frame.fillRow, Branch.text, own_node, children_node,
    List.forall_mem_append, List.mem_reverse]

/-- Text that is put before a place does not change the kind of what stands there. -/
lemma forall_markup_extendBefore {m : Schema.MarkupClass} (more : String)
    (h : ∀ b ∈ f.before, b.markup = m) : ∀ b ∈ (f.extendBefore more).before, b.markup = m := by
  unfold Frame.extendBefore
  split
  · exact h
  · next prev rest hbefore =>
    rw [hbefore, List.forall_mem_cons] at h
    exact List.forall_mem_cons.2 ⟨h.1, h.2⟩

/-- In a paragraph, whatever is no block stands in a line. -/
lemma isLine_of_isUndivided (h : IsUndivided (f.fill x).text (f.fill x).children)
    (hx : x.markup ≠ .structural) :
    x.markup = .inline ∧ (∀ b ∈ f.before, b.markup = .inline) ∧
      ∀ b ∈ f.after, b.markup = .inline := by
  rw [← Frame.fillRow_singleton, isUndivided_fillRow] at h
  rcases h with ⟨hbefore, hrow, hafter⟩ | ⟨-, -, hrow, -⟩
  · exact ⟨hrow x (List.mem_singleton_self x), hbefore, hafter⟩
  · exact absurd (hrow x (List.mem_singleton_self x)).1 hx

/-! ### Changes at a place -/

/-- What is around a place does not depend on more of what stands there than its kind and its tail. -/
lemma Ready.congr (h : Ready outer fs x) (hsame : fs ≠ [] → y.markup = x.markup ∧ y.tail = x.tail) :
    Ready outer fs y := by
  induction fs generalizing x y with
  | nil => trivial
  | cons f fs ih =>
    obtain ⟨hbeside, hfits, hready⟩ := h
    obtain ⟨hmarkup, htail⟩ := hsame (List.cons_ne_nil f fs)
    refine ⟨hbeside, hfits.of_alike ⟨rfl, rfl, rfl⟩ ?_ ?_ ?_, ih hready fun _ => ⟨rfl, rfl⟩⟩
    · exact hfits.notMem_inlineTags (by simp)
    · simp [Branch.isEmpty_iff]
    · intro _ hundivided
      rw [← Frame.fillRow_singleton, isUndivided_fillRow] at hundivided ⊢
      simpa [hmarkup, htail] using hundivided

/-- The elements around a place still fit if another row is put there, the siblings change, and text
is appended to the element around them, as long as it does not become empty and stays
undivided. -/
lemma Ready.exchange {row : List Branch} (h : Ready outer (f :: fs) x)
    (halike : f.own.Alike f'.own) (htail : f'.own.tail = f.own.tail)
    (hempty : fs ≠ [] → ¬(f'.fillRow row).isEmpty)
    (hpara : f.own.tag = "para" → IsUndivided (f.fill x).text (f.fill x).children →
      IsUndivided (f'.fillRow row).text (f'.fillRow row).children) :
    FitsAt outer fs (f'.fillRow row) ∧ Ready outer fs (f'.fillRow row) := by
  obtain ⟨-, hfits, hready⟩ := h
  have htag : f.own.tag ∉ Schema.inlineTags := hfits.notMem_inlineTags (by simp)
  refine ⟨hfits.of_alike halike htag hempty hpara, hready.congr fun _ => ⟨?_, ?_⟩⟩
  · refine Entry.markup_congr halike.tag fun hformula => htag ?_
    rw [Frame.own_fill] at hformula
    rw [hformula]
    decide
  · exact congrArg (Option.getD · "") htail

/-! ### Places and outcomes of a walk -/

/-- What has been walked over is settled and what has not is admissible. -/
structure Location.Sound (outer : Context) (l : Location) : Prop where
  ready : Ready outer l.frames l.focus
  admissible : Admissible (contextAt outer l.frames).highlighted l.focus
  plain : l.frames = [] → IsPlain l.focus.own.tag

/-- In the end, all below the root is settled. -/
def Outcome.Sound (outer : Context) : Outcome → Prop
  | standing l => l.Sound outer
  | finished b => IsPlain b.own.tag ∧ SettledRow (outer.inside b.own) none b.children

/-- A place below the root is sound if what is beside it and around it is as it should be. -/
lemma sound_below {b : Branch} (hbeside : Beside outer f fs) (hfill : f.fill x = b)
    (haround : FitsAt outer fs b ∧ Ready outer fs b)
    (hadmissible : Admissible (contextAt outer (f :: fs)).highlighted x) :
    Location.Sound outer ⟨x, f :: fs⟩ := by
  subst hfill
  exact ⟨⟨hbeside, haround⟩, hadmissible, fun hnil => absurd hnil (List.cons_ne_nil f fs)⟩

/-- Behind a settled branch, the walk goes on soundly. -/
lemma sound_leave (hready : Ready outer fs x) (hfits : FitsAt outer fs x)
    (hchildren : SettledRow ((contextAt outer fs).inside x.own) none x.children) :
    (leave x fs).Sound outer := by
  induction fs generalizing x with
  | nil => exact ⟨hfits, hchildren⟩
  | cons f fs ih =>
    obtain ⟨hbeside, hfits', hready'⟩ := hready
    have hrow : SettledRow (contextAt outer (f :: fs)) none (x :: f.before).reverse :=
      settledRow_reverse_cons.2 ⟨hbeside.before, settled_iff.2 ⟨hfits, hchildren⟩⟩
    unfold leave
    split
    · next hafter =>
      refine ih hready' hfits' ?_
      rw [Frame.children_fill, hafter, ← List.reverse_cons]
      exact hrow
    · next y rest hafter =>
      have hadmissible := hbeside.after
      rw [hafter, AdmissibleRow] at hadmissible
      exact sound_below ⟨hrow, hadmissible.2⟩ (Frame.fill_next hafter) ⟨hfits', hready'⟩ hadmissible.1

/-- Behind a place that has become empty, the walk goes on soundly. -/
lemma sound_skip (hbeside : Beside outer f fs)
    (hrow : FitsAt outer fs (f.fillRow []) ∧ Ready outer fs (f.fillRow [])) :
    (skip f fs).Sound outer := by
  unfold skip
  split
  · next hafter =>
    have hbefore := hbeside.before
    rw [contextAt] at hbefore
    refine sound_leave hrow.2 hrow.1 ?_
    simpa [Frame.fillRow, hafter] using hbefore
  · next y rest hafter =>
    have hadmissible := hbeside.after
    rw [hafter, AdmissibleRow] at hadmissible
    exact sound_below ⟨hbeside.before, hadmissible.2⟩ (Frame.fillRow_nil_next hafter) hrow
      hadmissible.1

/-- Inside of an element that fits, the walk goes on soundly. -/
lemma sound_enter (hready : Ready outer fs x) (hfits : FitsAt outer fs x)
    (hadmissible : Admissible (contextAt outer fs).highlighted x) : (enter x fs).Sound outer := by
  have hrow := (admissible_iff.1 hadmissible).2.2
  unfold enter
  split
  · next hchildren =>
    refine sound_leave hready hfits ?_
    rw [hchildren]
    trivial
  · next y ys hchildren =>
    have hfill := Frame.fill_eq_of_children_cons hchildren
    rw [hchildren, AdmissibleRow] at hrow
    exact sound_below ⟨trivial, hrow.2⟩ hfill ⟨hfits, hready⟩ hrow.1

end DoxygenRest.Adjust

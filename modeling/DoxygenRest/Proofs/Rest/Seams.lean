import DoxygenRest.Proofs.Rest.Inline
import DoxygenRest.Proofs.Tree.Specimen

/-!
# Spans in a line of text

The delimiters of a span have to be seen from both sides.  In front, `wrap` looks at the text
written so far, so that the start of a span is always seen.  Behind, it looks at the tail of the
element alone.  That is enough if the tail is not empty, or if a span comes next, which is set apart
on its own; but an element without delimiters may follow at once, and then the end of the span can
be hidden. `spans_of_render` says for each span of a paragraph that its start is seen, and that its
end is seen unless it is hidden in that way (`hidesEnd`).
-/

namespace DoxygenRest.Rest

variable (index : Resolver) (t : Tree)

/-! ### What is written for a row of elements -/

/-- What is written for a row of inline elements, with the text `out` in front of it. -/
def writeRow (row : List NodeId) (out : String) : String :=
  row.foldl (fun out c => out ++ writeInline index t c out) out

/-- Rows behind each other are written one after the other. -/
lemma writeRow_append (row row' : List NodeId) (out : String) :
    writeRow index t (row ++ row') out = writeRow index t row' (writeRow index t row out) :=
  List.foldl_append ..

/-- Whether a row of elements, written right behind a span, hides the end of the span.  Spans in the
row are set apart; an element without delimiters is not, nor is the tail of one without text. -/
def hidesEnd : List NodeId → Bool
  | [] => false
  | c :: rest =>
    if (delimited? index t c).isSome then false
    else if bareText t c ++ escape (t.tail c) = "" then hidesEnd rest
    else needsTrailingEscape (bareText t c ++ escape (t.tail c)).toList.head?

variable {index t}

/-- Inline elements within a paragraph are rendered one after the other. -/
lemma renderContent_eq {row : List NodeId} (hinline : ∀ c ∈ row, Schema.isInline t c = true)
    (hpara : ∀ c ∈ row, "para" ∈ (t.ancestors c).map t.tag) (depth : Nat) (out : String) :
    renderContent ((renderer index).renderWithin t (depth + 1)) t row out =
      .ok (writeRow index t row out) := by
  induction row generalizing out with
  | nil => rfl
  | cons c row ih =>
    rw [List.forall_mem_cons] at hinline hpara
    rw [renderContent, isStructural_eq_false hinline.1]
    simp only [Bool.false_and, Bool.false_eq_true, if_false,
      renderWithin_inline depth out hinline.1 hpara.1, bind, Except.bind]
    exact ih hinline.2 hpara.2 _

/-! ### The end of a span -/

/-- What the delimiters of inline elements end with. -/
def closings : List String :=
  ["**", "*", "\x60\x60", "\x60", "\x60_"]

/-- A reference ends with a backquote, resolved or not. -/
lemma closing_delimitedReference (index : Resolver) (t : Tree) (n : NodeId) :
    (delimitedReference index t n).closing = "\x60" := by
  unfold delimitedReference
  split
  · rfl
  · split
    · rfl
    · split <;> rfl

/-- What ends an element with delimiters is one of the closing delimiters. -/
lemma closing_mem_closings {n : NodeId} {s : Delimited} (h : delimited? index t n = some s) :
    s.closing ∈ closings := by
  have hquote : "\x60" ∈ closings := by decide
  have hlink : "\x60_" ∈ closings := by decide
  have hspans : ∀ item ∈ spanTags, item.2.closing ∈ closings := by decide
  unfold delimited? at h
  split at h
  · obtain rfl := Option.some.inj h
    rw [closing_delimitedReference]
    exact hquote
  · split at h
    · obtain rfl := Option.some.inj h
      exact hlink
    · split at h
      · obtain rfl := Option.some.inj h
        exact hquote
      · obtain ⟨span, hspan, rfl⟩ := Option.map_eq_some_iff.1 h
        obtain ⟨front, behind, hsplit, -⟩ := List.lookup_eq_some_iff.1 hspan
        apply hspans (t.tag n, span)
        rw [hsplit]
        exact List.mem_append_right _ (List.mem_cons_self ..)

/-- A text that ends with the end of a span hides the start of the next one. -/
lemma needsLeadingEscape_of_closing {closing : String} (h : closing ∈ closings) (out : String)
    (first : Option Char) : needsLeadingEscape (out ++ closing).toList.getLast? first = true := by
  fin_cases h <;> simp [needsLeadingEscape]

/-- What is written for a row of elements is put behind the text so far.  Behind the end of a span
it hides the end in no other case than `hidesEnd` tells. -/
lemma exists_writeRow (row : List NodeId) (out : String) :
    ∃ behind, writeRow index t row out = out ++ behind ∧
      ((∀ first, needsLeadingEscape out.toList.getLast? first = true) →
        needsTrailingEscape behind.toList.head? = hidesEnd index t row) := by
  induction row generalizing out with
  | nil => exact ⟨"", String.append_empty.symm, fun _ => rfl⟩
  | cons c row ih =>
    obtain ⟨behind, hbehind, hhides⟩ := ih (out ++ writeInline index t c out)
    have hcons :
        writeRow index t (c :: row) out = out ++ (writeInline index t c out ++ behind) := by
      rw [← String.append_assoc]
      exact hbehind
    refine ⟨writeInline index t c out ++ behind, hcons, ?_⟩
    intro hout
    rw [hidesEnd]
    -- An element with delimiters starts with an escape, which hides nothing.  Any other one starts
    -- with its text, or if that is empty, it leaves the matter to what follows.
    cases hc : delimited? index t c with
    | some s =>
      have hwritten : writeInline index t c out = s.render (t.tail c) out := by
        rw [writeInline, hc]
      rw [hwritten, Delimited.render, wrap, leadingEscape, hout, if_pos rfl]
      simp [needsTrailingEscape, asciiFollowers]
    | none =>
      have hwritten : writeInline index t c out = bareText t c ++ escape (t.tail c) := by
        rw [writeInline, hc]
      rw [hwritten] at hhides ⊢
      simp only [Option.isSome_none, Bool.false_eq_true, if_false]
      split
      · next hempty =>
        rw [hempty, String.empty_append]
        rw [hempty, String.append_empty] at hhides
        exact hhides hout
      · next hne =>
        obtain ⟨first, rest, hcons⟩ :=
          List.exists_cons_of_ne_nil (mt String.toList_eq_nil_iff.1 hne)
        rw [String.toList_append, hcons]
        rfl

/-! ### Spans in paragraphs -/

/-- The span `s` of the child `c` of a paragraph, with the children `pre` in front of it, stands in
the text `out` of the paragraph between `front` and `behind`, and its start is seen. -/
structure Stands (index : Resolver) (t : Tree) (n : NodeId) (pre : List NodeId) (c : NodeId)
    (s : Delimited) (out before front behind : String) : Prop where
  /-- The children in front are rendered as `before`. -/
  before_eq : renderContent ((renderer index).renderWithin t t.size) t pre
    (escape (Text.trimStart (t.text n))) = .ok before
  /-- The child is rendered as a span, behind that text. -/
  rendered : (renderer index).renderWithin t t.size c before = .ok (s.render (t.tail c) before)
  front_eq : front = before ∨ front = before ++ "\\ "
  out_eq : out = front ++ s.text ++ behind
  start_seen : "\\ ".toList <:+ front.toList ∨
    needsLeadingEscape front.toList.getLast? s.first? = false

/-- A text in front of a span, and what sets the span apart from it, show the start of the span. -/
lemma leadingEscape_cases (before : String) (first : Option Char) :
    (leadingEscape before first = "" ∧ needsLeadingEscape before.toList.getLast? first = false) ∨
      leadingEscape before first = "\\ " := by
  unfold leadingEscape
  by_cases hneeds : needsLeadingEscape before.toList.getLast? first = true
  · exact Or.inr (if_pos hneeds)
  · exact Or.inl ⟨if_neg hneeds, Bool.not_eq_true _ ▸ hneeds⟩

/-- Escaping leaves no text empty. -/
lemma exists_cons_escape {s : String} (h : s ≠ "") : ∃ c cs, (escape s).toList = c :: cs := by
  obtain ⟨c, cs, hcons⟩ := List.exists_cons_of_ne_nil (mt String.toList_eq_nil_iff.1 h)
  rw [escape, hcons, String.toList_ofList, escapeChars]
  split
  · exact ⟨_, _, rfl⟩
  · exact ⟨_, _, rfl⟩

/-- A tail, and what sets the span apart from it, show the end of the span. -/
lemma needsTrailingEscape_tail {tail : String} (h : tail ≠ "") (rest : String) :
    needsTrailingEscape (trailingEscape (escape tail) ++ escape tail ++ rest).toList.head? =
      false := by
  obtain ⟨first, more, hcons⟩ := exists_cons_escape h
  unfold trailingEscape
  by_cases hneeds : needsTrailingEscape (escape tail).toList.head? = true
  · rw [if_pos hneeds]
    simp [needsTrailingEscape, asciiFollowers]
  · rw [if_neg hneeds, String.empty_append, String.toList_append, hcons]
    rw [hcons, Bool.not_eq_true] at hneeds
    exact hneeds

/-- A span between a text and a row of elements: its start is seen, and its end is seen unless the
row hides it. -/
lemma exists_writeRow_of_span {c : NodeId} {s : Delimited} (hc : delimited? index t c = some s)
    (post : List NodeId) (before : String) :
    ∃ front behind, writeRow index t (c :: post) before = front ++ s.text ++ behind ∧
      (front = before ∨ front = before ++ "\\ ") ∧
      ("\\ ".toList <:+ front.toList ∨ needsLeadingEscape front.toList.getLast? s.first? = false) ∧
      (needsTrailingEscape behind.toList.head? = true ↔
        t.tail c = "" ∧ hidesEnd index t post = true) := by
  have hwritten : writeInline index t c before = s.render (t.tail c) before := by
    rw [writeInline, hc]
  have hcons : writeRow index t (c :: post) before =
      writeRow index t post (before ++ s.render (t.tail c) before) := by
    rw [← hwritten]
    rfl
  obtain ⟨rest, hrest, hhides⟩ :=
    exists_writeRow post (before ++ s.render (t.tail c) before)
  refine ⟨before ++ leadingEscape before s.first?,
    trailingEscape (escape (t.tail c)) ++ escape (t.tail c) ++ rest, ?_, ?_, ?_, ?_⟩
  · rw [hcons, hrest, Delimited.render, wrap, Delimited.text, Delimited.first?]
    simp only [String.append_assoc]
  · rcases leadingEscape_cases before s.first? with ⟨hnone, -⟩ | hescape
    · rw [hnone, String.append_empty]
      exact Or.inl rfl
    · rw [hescape]
      exact Or.inr rfl
  · rcases leadingEscape_cases before s.first? with ⟨hnone, hseen⟩ | hescape
    · rw [hnone, String.append_empty]
      exact Or.inr hseen
    · rw [hescape, String.toList_append]
      exact Or.inl (List.suffix_append ..)
  -- With a tail, the escape behind the span is decided by the tail alone; without one, by the rest
  -- of the row.
  · by_cases htail : t.tail c = ""
    · have hescape : escape (t.tail c) = "" := by
        rw [htail]
        rfl
      have htrailing : trailingEscape "" = "" := rfl
      rw [Delimited.render, wrap, hescape, htrailing, String.append_empty, String.append_empty,
        ← String.append_assoc] at hhides
      rw [hescape, htrailing, String.empty_append, String.empty_append,
        hhides (needsLeadingEscape_of_closing (closing_mem_closings hc) _)]
      simp [htail]
    · rw [needsTrailingEscape_tail htail]
      simp [htail]

/-- Paragraphs of inline elements are rendered, and each span in them is seen from both sides,
unless an element without delimiters follows that hides its end. -/
theorem spans_of_render (index : Resolver) {t : Tree} (h : t.WellFormed) {n : NodeId}
    (htag : t.tag n = "para") (hinline : ∀ c ∈ t.children n, Schema.isInline t c = true)
    (outer : String) :
    ∃ out, render index t n outer = .ok out ∧
      ∀ pre c post s, t.children n = pre ++ c :: post → delimited? index t c = some s →
        ∃ before front behind, Stands index t n pre c s out before front behind ∧
          (needsTrailingEscape behind.toList.head? = true ↔
            t.tail c = "" ∧ hidesEnd index t post = true) := by
  have hpara : ∀ c ∈ t.children n, "para" ∈ (t.ancestors c).map t.tag := by
    intro c hc
    rw [Tree.ancestors_eq_cons h (h.mem_children_iff.1 hc), List.map_cons, htag]
    exact List.mem_cons_self ..
  obtain ⟨depth, hdepth⟩ : ∃ depth, t.size = depth + 1 := ⟨t.size - 1, by have := h.size_pos; omega⟩
  -- What is in front of the span is rendered as a row of its own, so this is stated for any part of
  -- the paragraph.
  have hrender {row : List NodeId} (hrow : ∀ c ∈ row, c ∈ t.children n) (out : String) :
      renderContent ((renderer index).renderWithin t t.size) t row out =
        .ok (writeRow index t row out) := by
    rw [hdepth]
    apply renderContent_eq
    · exact fun c hc => hinline c (hrow c hc)
    · exact fun c hc => hpara c (hrow c hc)
  set start := escape (Text.trimStart (t.text n))
  refine ⟨writeRow index t (t.children n) start, ?_, ?_⟩
  · rw [render, Renderer.render, renderWithin_para htag, renderPara, hrender fun c hc => hc]
  · intro pre c post s hsplit hc
    have hmem : c ∈ t.children n := by
      rw [hsplit]
      exact List.mem_append_right _ (List.mem_cons_self ..)
    obtain ⟨front, behind, hout, hfront, hstart_seen, hend⟩ :=
      exists_writeRow_of_span hc post (writeRow index t pre start)
    refine ⟨writeRow index t pre start, front, behind, ⟨?_, ?_, hfront, ?_, hstart_seen⟩, hend⟩
    · apply hrender
      intro d hd
      rw [hsplit]
      exact List.mem_append_left _ hd
    · rw [hdepth, renderWithin_inline depth _ (hinline c hmem) (hpara c hmem), writeInline, hc]
    · rw [hsplit, writeRow_append]
      exact hout

/-- A span with an element without delimiters right behind it:

    <para><bold>a</bold><underline>b</underline></para>
-/
def glued : Tree :=
  ⟨#[{ tag := "para", children := [1, 2] },
    { tag := "bold", text := some "a", parent := some 0 },
    { tag := "underline", text := some "b", parent := some 0 }]⟩

/-- The example is well-formed. -/
lemma wellFormed_glued : glued.WellFormed :=
  Tree.wellFormed_of_ordered (by decide)

/-- The bold span of the example stands between its delimiters, and whether its end is seen depends on
what is behind it. -/
theorem spans_of_render_glued :
    1 ∈ glued.children Tree.root ∧ Schema.isInline glued 1 = true ∧
      ∃ out, render Resolver.none glued Tree.root "" = .ok out ∧
        ∃ before front behind,
          Stands Resolver.none glued Tree.root [] 1 ⟨"**", "a", "**"⟩ out before front behind ∧
          (needsTrailingEscape behind.toList.head? = true ↔
            glued.tail 1 = "" ∧ hidesEnd Resolver.none glued [2] = true) := by
  have hinline : ∀ c ∈ glued.children Tree.root, Schema.isInline glued c = true := by decide
  obtain ⟨out, hout, hspans⟩ := spans_of_render Resolver.none wellFormed_glued rfl hinline ""
  exact ⟨by decide, by decide, out, hout, hspans [] 1 [2] _ rfl rfl⟩

/-- The end of a span is not always seen: the text of `glued` is `**a**b`. -/
theorem not_ends_seen_of_render :
    ¬∀ (index : Resolver) (t : Tree) (n : NodeId) (outer : String), t.WellFormed →
      t.tag n = "para" → (∀ c ∈ t.children n, Schema.isInline t c = true ∧ t.children c = []) →
      ∃ out, render index t n outer = .ok out ∧
        ∀ pre c post s, t.children n = pre ++ c :: post → delimited? index t c = some s →
          ∃ before front behind, Stands index t n pre c s out before front behind ∧
            needsTrailingEscape behind.toList.head? = false := by
  intro h
  obtain ⟨out, hout, hspans⟩ := h Resolver.none glued Tree.root "" wellFormed_glued rfl (by decide)
  have hrender : render Resolver.none glued Tree.root "" = .ok "**a**b" := rfl
  obtain rfl : "**a**b" = out := Except.ok.inj (hrender.symm.trans hout)
  obtain ⟨before, front, behind, hstands, hseen⟩ := hspans [] 1 [2] ⟨"**", "a", "**"⟩ rfl rfl
  obtain rfl : "" = before := Except.ok.inj hstands.before_eq
  have hlist := congrArg String.toList hstands.out_eq
  rcases hstands.front_eq with rfl | rfl
  · have hbehind : behind.toList = ['b'] := by
      simpa [Delimited.text] using hlist.symm
    rw [hbehind] at hseen
    revert hseen
    decide
  · simp [Delimited.text] at hlist

end DoxygenRest.Rest

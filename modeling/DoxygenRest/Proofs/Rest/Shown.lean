import DoxygenRest.Proofs.Rest.Escaping
import DoxygenRest.Proofs.Rest.Seams

/-!
# What a line of text shows

Of escaped text a reader sees neither the backslashes that escape a character nor the escaped blanks
that set spans apart; `shown` leaves both out.  In a paragraph of spans there are escapes from three
places: in the running text, in front of a span, and behind one.  A written text `Shows` a text if
it does so whatever stands behind it, and such texts can be put one behind the other
(`Shows.append`): no escape of one takes in a character of the next.

So a paragraph of spans shows its own text, and each span between its delimiters
(`shown_render_para`).
-/

namespace DoxygenRest.Rest

/-! ### Leaving out the escapes -/

/-- What is left of escaped text without its escapes: a backslash goes with the white space behind
it, and else it goes alone, with the character behind it kept. -/
def shownChars : List Char → List Char
  | [] => []
  | ['\\'] => []
  | '\\' :: c :: rest => if Text.isWhite c then shownChars rest else c :: shownChars rest
  | c :: rest => c :: shownChars rest

/-- Escaped text without its escapes. -/
def shown (text : String) : String :=
  String.ofList (shownChars text.toList)

/-- An escaped character is shown, unless it is white space. -/
lemma shownChars_escaped {c : Char} (h : Text.isWhite c = false) (rest : List Char) :
    shownChars ('\\' :: c :: rest) = c :: shownChars rest := by
  rw [shownChars, h]
  rfl

/-- A character that is no backslash is shown. -/
lemma shownChars_cons {c : Char} (h : c ≠ '\\') (rest : List Char) :
    shownChars (c :: rest) = c :: shownChars rest := by
  rw [shownChars]
  · rintro rfl
    exact absurd rfl h
  · rintro c' rest' rfl
    exact absurd rfl h

/-- A written text shows a text if this is what is left of it without its escapes, whatever stands
behind it. -/
def Shows (written text : String) : Prop :=
  ∀ rest, shownChars (written.toList ++ rest) = text.toList ++ shownChars rest

variable {written written' text text' : String}

/-- What is shown for a text that has been written is the text. -/
lemma Shows.shown_eq (h : Shows written text) : shown written = text := by
  have hall := h []
  rw [List.append_nil, shownChars, List.append_nil] at hall
  rw [shown, hall, String.ofList_toList]

/-- Texts that follow one another show what each of them shows. -/
lemma Shows.append (h : Shows written text) (h' : Shows written' text') :
    Shows (written ++ written') (text ++ text') := by
  intro rest
  rw [String.toList_append, List.append_assoc, h, h', String.toList_append, List.append_assoc]

/-- Nothing shows nothing. -/
lemma shows_empty : Shows "" "" :=
  fun _ => rfl

/-- A text without backslashes shows itself. -/
lemma shows_of_notMem (h : '\\' ∉ text.toList) : Shows text text := by
  intro rest
  generalize text.toList = cs at h
  induction cs with
  | nil => rfl
  | cons c cs ih =>
    rw [List.mem_cons, not_or] at h
    rw [List.cons_append, shownChars_cons (Ne.symm h.1), ih h.2, List.cons_append]

/-! ### The escapes of running text -/

/-- White space is no markup. -/
lemma isWhite_of_isMarkup {c : Char} {next? : Option Char} (h : isMarkup c next? = true) :
    Text.isWhite c = false := by
  simp only [isMarkup, Bool.or_eq_true, Bool.and_eq_true, beq_iff_eq] at h
  rcases h with (((rfl | rfl) | rfl) | rfl) | ⟨rfl, -⟩
  all_goals decide

/-- Escaped text shows the text. -/
lemma shows_escape (s : String) : Shows (escape s) s := by
  intro rest
  rw [toList_escape]
  induction s.toList with
  | nil => rfl
  | cons c cs ih =>
    rcases escapeChars_cons_cases c cs with ⟨hmarkup, hcons⟩ | ⟨-, hbackslash, hcons⟩
    · rw [hcons, List.cons_append, List.cons_append,
        shownChars_escaped (isWhite_of_isMarkup hmarkup), ih, List.cons_append]
    · rw [hcons, List.cons_append, shownChars_cons hbackslash, ih, List.cons_append]

/-! ### The escapes around a span -/

/-- What sets a span apart from the text in front of it does not show. -/
lemma shows_leadingEscape (before : String) (first : Option Char) :
    Shows (leadingEscape before first) "" := by
  rcases leadingEscape_cases before first with ⟨hnone, -⟩ | hescape
  · rw [hnone]
    exact shows_empty
  · rw [hescape]
    intro rest
    show shownChars ('\\' :: ' ' :: rest) = shownChars rest
    rw [shownChars]
    rfl

/-- What sets a span apart from the text behind it does not show: it stands in front of a character
that is neither white space nor the backslash of another escape. -/
lemma shows_trailingEscape (tail : String) :
    Shows (trailingEscape (escape tail) ++ escape tail) tail := by
  unfold trailingEscape
  split
  · next hneeds =>
    intro rest
    have hshows := shows_escape tail rest
    cases hcons : (escape tail).toList with
    | nil =>
      rw [hcons] at hneeds
      cases hneeds
    | cons c cs =>
      rw [hcons, List.head?_cons, needsTrailingEscape] at hneeds
      have hfollower : ¬(Text.isWhite c || asciiFollowers.contains c) = true := by
        intro hc
        rw [if_pos hc] at hneeds
        cases hneeds
      rw [Bool.or_eq_true, not_or, Bool.not_eq_true] at hfollower
      have hc : c ≠ '\\' := by
        rintro rfl
        exact hfollower.2 (by decide)
      rw [hcons, List.cons_append, shownChars_cons hc] at hshows
      rw [String.toList_append, List.append_assoc, hcons]
      exact (shownChars_escaped hfollower.1 (cs ++ rest)).trans hshows
  · rw [String.empty_append]
    exact shows_escape tail

/-- A span shows its text between its delimiters, and its tail behind them. -/
lemma shows_wrap {opening closing : String} (hopening : '\\' ∉ opening.toList)
    (hclosing : '\\' ∉ closing.toList) (text tail before : String) :
    Shows (wrap opening (escape text) closing tail before)
      (opening ++ text ++ closing ++ tail) := by
  have hspan := (((shows_leadingEscape before (escape text).toList.head?).append
    (shows_of_notMem hopening)).append (shows_escape text)).append (shows_of_notMem hclosing)
  have hall := hspan.append (shows_trailingEscape tail)
  rw [String.empty_append, ← String.append_assoc] at hall
  exact hall

/-! ### Paragraphs of spans -/

/-- The elements that are written as spans with escaped text; of the references, those that lead to
no target. -/
def shownSpans : List (String × Span) :=
  [("bold", .bold), ("emphasis", .emphasis), ("subscript", .subscript),
    ("superscript", .superscript), ("ref", .unresolved)]

/-- An element is written as a span with escaped text. -/
structure IsShownSpan (index : Resolver) (t : Tree) (c : NodeId) : Prop where
  tag : ∃ span, (t.tag c, span) ∈ shownSpans
  /-- A reference is external, or it has no target. -/
  unresolved : t.tag c = "ref" → t.attribute? c "external" ≠ none ∨
    (t.attribute? c "refid").bind index = none

/-- What is shown of an element that is written as a span with escaped text: its text between the
delimiters, and its tail. -/
def shownSpan (t : Tree) (c : NodeId) : String :=
  match shownSpans.lookup (t.tag c) with
  | none => ""
  | some span => span.opening ++ t.stringValue c ++ span.closing ++ t.tail c

variable {index : Resolver} {t : Tree} {c : NodeId}

/-- A reference is external if it has the attribute. -/
lemma holds_isExternal (t : Tree) (c : NodeId) :
    isExternal.holds t c = true ↔ t.attribute? c "external" ≠ none := by
  have hselect : isExternal.select t c =
      if Query.hasAttribute t c "external" none then [c] else [] := rfl
  rw [Query.holds, hselect]
  unfold Query.hasAttribute
  cases t.attribute? c "external" with
  | none => exact iff_of_false Bool.false_ne_true fun h => h rfl
  | some value => exact iff_of_true rfl (Option.some_ne_none value)

/-- A reference without target is written as such. -/
lemma delimitedReference_of_unresolved
    (h : t.attribute? c "external" ≠ none ∨ (t.attribute? c "refid").bind index = none) :
    delimitedReference index t c = Span.unresolved.delimit (t.stringValue c) := by
  unfold delimitedReference
  split
  · rfl
  · next hexternal =>
    rw [holds_isExternal] at hexternal
    rw [h.resolve_left hexternal]

/-- An element that is written as a span has the delimiters that are listed for it. -/
lemma IsShownSpan.exists_span (h : IsShownSpan index t c) :
    ∃ span : Span, shownSpans.lookup (t.tag c) = some span ∧
      delimited? index t c = some ⟨span.opening, escape (t.stringValue c), span.closing⟩ ∧
      '\\' ∉ span.opening.toList ∧ '\\' ∉ span.closing.toList := by
  obtain ⟨span, hspan⟩ := h.tag
  have hall : ∀ item ∈ shownSpans, shownSpans.lookup item.1 = some item.2 ∧
      (item.1 = "ref" ∧ item.2 = .unresolved ∨ item ∈ spanTags ∧ item.2.escapes = true) ∧
      '\\' ∉ item.2.opening.toList ∧ '\\' ∉ item.2.closing.toList := by
    decide
  obtain ⟨hlookup, hkind, hdelimiters⟩ := hall _ hspan
  refine ⟨span, hlookup, ?_, hdelimiters⟩
  rcases hkind with ⟨htag, rfl⟩ | ⟨hspanTag, hescapes⟩
  · rw [delimited?, if_pos htag, delimitedReference_of_unresolved (h.unresolved htag)]
    rfl
  · obtain ⟨href, hulink, hformula, hlookup'⟩ := lookup_of_mem_spanTags hspanTag
    rw [delimited?, if_neg href, if_neg hulink, if_neg hformula, hlookup', Option.map_some,
      Span.delimit, hescapes, if_pos rfl]

/-- A span in a row of elements shows what is to be shown of its element. -/
lemma IsShownSpan.shows_writeInline (h : IsShownSpan index t c) (before : String) :
    Shows (writeInline index t c before) (shownSpan t c) := by
  obtain ⟨span, hlookup, hdelimited, hopening, hclosing⟩ := h.exists_span
  rw [writeInline, hdelimited, shownSpan, hlookup]
  exact shows_wrap hopening hclosing (t.stringValue c) (t.tail c) before

/-- A row of spans shows what is to be shown of its elements, behind the text in front of it. -/
lemma shows_writeRow {row : List NodeId} (h : ∀ c ∈ row, IsShownSpan index t c) {out : String}
    (hout : Shows out text) :
    Shows (writeRow index t row out) (text ++ String.join (row.map (shownSpan t))) := by
  induction row generalizing out text with
  | nil =>
    rw [List.map_nil, String.join_nil, String.append_empty]
    exact hout
  | cons c row ih =>
    rw [List.forall_mem_cons] at h
    rw [List.map_cons, String.join_cons, ← String.append_assoc]
    exact ih h.2 (hout.append (h.1.shows_writeInline out))

/-- Elements that are written as spans are inline markup. -/
lemma IsShownSpan.isInline (h : IsShownSpan index t c) : Schema.isInline t c = true := by
  obtain ⟨span, hspan⟩ := h.tag
  have hall : ∀ item ∈ shownSpans, item.1 ∈ Schema.inlineTags ∧ item.1 ≠ "formula" := by
    decide
  obtain ⟨htag, hformula⟩ := hall _ hspan
  rw [Schema.isInline, Schema.classify_eq_markup, beq_iff_eq]
  exact Entry.markup_of_mem_inlineTags htag hformula

/-- **A line of spans shows the source text**: a paragraph of spans is rendered, and without the
escapes the output is the paragraph's text, trimmed in front, and for each child in order its text
between its delimiters and its tail. -/
theorem shown_render_para (index : Resolver) {t : Tree} (h : t.WellFormed) {n : NodeId}
    (htag : t.tag n = "para") (hspans : ∀ c ∈ t.children n, IsShownSpan index t c)
    (before : String) :
    ∃ out, render index t n before = .ok out ∧
      shown out =
        Text.trimStart (t.text n) ++ String.join ((t.children n).map (shownSpan t)) := by
  have hpara : ∀ c ∈ t.children n, "para" ∈ (t.ancestors c).map t.tag := by
    intro c hc
    rw [Tree.ancestors_eq_cons h (h.mem_children_iff.1 hc), List.map_cons, htag]
    exact List.mem_cons_self
  have hinline : ∀ c ∈ t.children n, Schema.isInline t c = true :=
    fun c hc => (hspans c hc).isInline
  obtain ⟨depth, hdepth⟩ : ∃ depth, t.size = depth + 1 := Nat.exists_eq_add_one.2 h.size_pos
  have hrender : render index t n before =
      .ok (writeRow index t (t.children n) (escape (Text.trimStart (t.text n)))) := by
    rw [render, Renderer.render, renderWithin_para htag, renderPara, hdepth,
      renderContent_eq hinline hpara]
  refine ⟨_, hrender, ?_⟩
  exact (shows_writeRow hspans (shows_escape (Text.trimStart (t.text n)))).shown_eq

/-- A paragraph with spans between characters that need escapes:

    <para> a\<bold>b*</bold>c_<ref external="d">e</ref>*f<emphasis>g</emphasis></para>
-/
def spanned : Tree :=
  ⟨#[{ tag := "para", text := some " a\\", children := [1, 2, 3] },
    { tag := "bold", text := some "b*", tail := some "c_", parent := some 0 },
    { tag := "ref", attributes := .ofList [("external", "d")], text := some "e", tail := some "*f"
      parent := some 0 },
    { tag := "emphasis", text := some "g", parent := some 0 }]⟩

/-- The paragraph above is a row of spans behind a text, and no escape of it is shown. -/
theorem shown_render_para_spanned :
    spanned.WellFormed ∧ spanned.tag 0 = "para" ∧ ∃ out,
      render Resolver.none spanned 0 "" = .ok out ∧ shown out = "a\\**b***c_\x60!e\x60*f*g*" := by
  have hwellFormed : spanned.WellFormed := Tree.wellFormed_of_ordered (by decide)
  have hspans : ∀ c ∈ spanned.children 0, IsShownSpan Resolver.none spanned c := by
    intro c hc
    have hall : ∀ c ∈ spanned.children 0, (∃ item ∈ shownSpans, item.1 = spanned.tag c) ∧
        (spanned.tag c = "ref" → spanned.attribute? c "external" ≠ none) := by
      decide
    obtain ⟨⟨⟨tag, span⟩, hspan, htag⟩, hexternal⟩ := hall c hc
    exact ⟨⟨span, htag ▸ hspan⟩, fun href => Or.inl (hexternal href)⟩
  obtain ⟨out, hout, hshown⟩ := shown_render_para Resolver.none hwellFormed rfl hspans ""
  exact ⟨hwellFormed, rfl, out, hout, hshown.trans (by decide +kernel)⟩

end DoxygenRest.Rest

import DoxygenRest.Proofs.Branch.Descent
import DoxygenRest.Proofs.Rest.Carried
import DoxygenRest.Proofs.Rest.Success

/-!
# Renderings show what is carried

Whatever is rendered for a description, a paragraph or a block shows, white space aside, all that the
element carries, in order (`conveys_of_renderWithin`).  Each action does so, given that the
renderings of the elements below do (`ConveysBelow`): what texts are escaped, indented, trimmed and
joined for leaves what is visible of them.
-/

namespace DoxygenRest.Rest

open Branch Program
open Text (visible)
open scoped List

/-! ### What is visible in written forms -/

/-- Escaping adds characters, but drops none. -/
lemma sublist_escapeChars (cs : List Char) : cs <+ escapeChars cs := by
  induction cs with
  | nil => exact List.Sublist.slnil
  | cons c cs ih =>
    rw [escapeChars]
    split
    · exact (ih.cons_cons c).cons '\\'
    · exact ih.cons_cons c

/-- Escaping keeps all that is visible. -/
lemma visible_sublist_escape (s : String) : visible s <+ visible (escape s) := by
  rw [visible, visible, escape, String.toList_ofList]
  exact (sublist_escapeChars s.toList).filter _

/-- Indenting adds and drops nothing but white space. -/
@[simp] lemma visible_indent (s : String) (width : Nat) : visible (indent s width) = visible s := by
  have hline (line : List Char) : (indentLine width line).filter (fun c => !Text.isWhite c) =
      line.filter fun c => !Text.isWhite c := by
    unfold indentLine
    split
    · rfl
    · have hblanks : (blanks width).filter (fun c => !Text.isWhite c) = [] := by
        rw [blanks, List.filter_replicate]
        rfl
      rw [List.filter_append, hblanks, List.nil_append]
  have hnewline : ['\n'].filter (fun c => !Text.isWhite c) = [] := by decide
  rw [visible, indent, String.toList_ofList, Text.filter_intercalate hnewline, List.flatMap_map,
    funext hline, ← Text.filter_intercalate hnewline, List.intercalate_splitOn, visible]

lemma visible_blankLine : visible "\n\n" = [] := by decide

/-- What is visible in joined paragraphs is what is visible in each. -/
lemma visible_joinParagraphs (texts : List String) :
    visible (joinParagraphs texts) = texts.flatMap visible :=
  Text.visible_intercalate (by decide) texts

/-- A directive shows its header and its body. -/
lemma visible_directive (header body : String) :
    visible (directive header body) = visible header ++ visible body := by
  simp [directive, visible_blankLine]

/-- A field shows its marker and its body. -/
lemma visible_fieldItem (marker body : String) :
    visible (fieldItem marker body) = visible marker ++ visible body := by
  simp [fieldItem]

/-- What is set apart by delimiters shows itself and its tail. -/
lemma visible_sublist_wrap (opening inner closing tail before : String) :
    visible inner ++ visible tail <+ visible (wrap opening inner closing tail before) := by
  simp only [wrap, Text.visible_append]
  refine List.Sublist.append ?_ (visible_sublist_escape tail)
  refine List.Sublist.trans ?_ (List.sublist_append_left _ _)
  refine List.Sublist.trans ?_ (List.sublist_append_left _ _)
  exact List.sublist_append_right _ _

variable {index : Resolver} {render : Render} {t : Tree} {n : NodeId} {row : List NodeId}
  {texts : List String} {out : String}

/-- The root of a branch has the name the tree gives it. -/
lemma tag_own_branch (ht : t.WellFormed) (c : NodeId) : (t.branch c).own.tag = t.tag c :=
  congrArg Entry.tag (Tree.own_branch ht c)

/-! ### Inline markup -/

/-- Between its delimiters, a span shows its text. -/
lemma visible_sublist_delimit (span : Span) (text : String) :
    visible text <+ visible (span.delimit text).inner := by
  rw [Span.delimit]
  split
  · exact visible_sublist_escape text
  · exact List.Sublist.refl _

/-- Between its delimiters, a reference shows its text. -/
lemma visible_sublist_delimitedReference (index : Resolver) (t : Tree) (n : NodeId) :
    visible (t.stringValue n) <+ visible (delimitedReference index t n).inner := by
  have hunresolved := visible_sublist_delimit .unresolved (t.stringValue n)
  unfold delimitedReference
  split
  · exact hunresolved
  · cases (t.attribute? n "refid").bind index with
    | none => exact hunresolved
    | some target =>
      dsimp only
      cases roleOf? target.kind with
      | none => exact hunresolved
      | some role =>
        dsimp only
        split
        · exact visible_sublist_escape _
        · simp only [Text.visible_append, List.append_assoc]
          exact (visible_sublist_escape _).trans (List.sublist_append_left _ _)

/-- Between the delimiters of an inline element stands its text, and in those of a formula what the
formula is shown with. -/
lemma visible_sublist_inner {s : Delimited} (hs : delimited? index t n = some s) :
    visible (if t.tag n = "formula" then stripDollars (t.text n) else t.stringValue n) <+
      visible s.inner := by
  unfold delimited? at hs
  split_ifs at hs with href hulink hformula
  · obtain rfl := Option.some.inj hs
    rw [if_neg (by simp [href])]
    exact visible_sublist_delimitedReference index t n
  · obtain rfl := Option.some.inj hs
    rw [if_neg (by simp [hulink]), delimitedLink]
    simp only [Text.visible_append, List.append_assoc]
    exact (visible_sublist_escape _).trans (List.sublist_append_left _ _)
  · obtain rfl := Option.some.inj hs
    rw [if_pos hformula]
    exact visible_sublist_delimit _ _
  · obtain ⟨span, -, rfl⟩ := Option.map_eq_some_iff.1 hs
    rw [if_neg hformula]
    exact visible_sublist_delimit _ _

/-- Inline markup shows what it carries, and its tail. -/
lemma conveys_writeInline (ht : t.WellFormed) (hinline : Schema.isInline t n = true)
    (hlinebreak : t.tag n ≠ "linebreak") (before : String) :
    carried (t.branch n) ++ visible (t.tail n) <+ visible (writeInline index t n before) := by
  have hmarkup : (t.entry n).markup = .inline := by
    rwa [Schema.isInline, Schema.classify_eq_markup, beq_iff_eq] at hinline
  have hcarried : carried (t.branch n) =
      visible (if t.tag n = "formula" then stripDollars (t.text n) else t.stringValue n) := by
    split
    · next htag =>
      rw [← tag_own_branch ht] at htag
      rw [carried_formula htag, Tree.own_branch ht, shownFormula, if_pos hmarkup]
      rfl
    · next htag =>
      have hall : ∀ tag ∈ Schema.inlineTags, tag ≠ "formula" → tag ∉ carrierTags := by decide
      have hcarrier := hall _ (mem_inlineTags_of_isInline hinline) htag
      rw [← tag_own_branch ht] at hcarrier
      rw [carried_eq_visible hcarrier, Tree.stringValue_eq_branch]
  rw [hcarried, writeInline]
  cases hs : delimited? index t n with
  | some s =>
    have hinner := (visible_sublist_inner hs).append (List.Sublist.refl (visible (t.tail n)))
    exact hinner.trans (visible_sublist_wrap _ _ _ _ _)
  | none =>
    have hformula : t.tag n ≠ "formula" := by
      intro htag
      simp [delimited?, htag] at hs
    rw [if_neg hformula, bareText, if_neg hlinebreak, Text.visible_append]
    exact (visible_sublist_escape _).append (visible_sublist_escape _)

/-! ### Rows -/

/-- The text that is rendered for an element shows what the element carries. -/
def Conveys (t : Tree) (n : NodeId) (out : String) : Prop :=
  carried (t.branch n) <+ visible out

/-- The elements that are rendered on their own, inline markup aside. -/
def IsRendered (t : Tree) (n : NodeId) : Prop :=
  t.tag n ∈ "para" :: Schema.descriptionTags ∨ Schema.isStructural t n = true

/-- What is rendered for an element below `n` shows what the element carries. -/
def ConveysBelow (render : Render) (t : Tree) (n : NodeId) : Prop :=
  ∀ m, n ∈ t.ancestors m → IsRendered t m → ∀ before rendered, render m before = .ok rendered →
    Conveys t m rendered

section Rows

variable (ht : t.WellFormed)

include ht

/-- If all below an element conveys what it carries, so does all below a child. -/
lemma ConveysBelow.children (h : ConveysBelow render t n) :
    ∀ c ∈ t.children n, ConveysBelow render t c := by
  intro c hc m hm
  exact h m (Tree.ancestors_subset ht hm (Tree.mem_ancestors_of_mem_children ht (Or.inl rfl) hc))

/-- The branches of a name are those of the elements of that name. -/
lemma allOf_map (tag : String) (row : List NodeId) : allOf tag (row.map t.branch) =
    (row.filter fun c => t.tag c == tag).map t.branch := by
  have htag : (fun b : Branch => b.own.tag == tag) ∘ t.branch = fun c => t.tag c == tag :=
    funext fun c => by rw [Function.comp_apply, tag_own_branch ht]
  rw [allOf, List.filter_map, htag]

/-- An element of the name comes first among them. -/
lemma allOf_map_cons {tag : String} {c : NodeId} (htag : t.tag c = tag) (row : List NodeId) :
    allOf tag ((c :: row).map t.branch) = t.branch c :: allOf tag (row.map t.branch) := by
  rw [List.map_cons, allOf, List.filter_cons_of_pos (by simp [tag_own_branch ht, htag]), allOf]

/-- The blocks that are made of elements of one tag. -/
lemma parts?_of_lookup {tag : String} (h : partTags.lookup (t.tag n) = some tag) :
    parts? (t.branch n) = some (allOf tag ((t.children n).map t.branch)) := by
  have hne {tag : String} (hnone : partTags.lookup tag = none) : t.tag n ≠ tag := by
    rintro htag
    rw [htag, hnone] at h
    cases h
  have hlookup : partTags.lookup (t.entry n).tag = some tag := h
  rw [Tree.branch_eq ht, parts?, hlookup, Option.map_some]
  exact (if_neg (hne (by decide))).trans (if_neg (hne (by decide)))

/-- The first child of a tag is the first branch of the tag. -/
lemma firstOf_children {tag : String} {c : NodeId} (h : child? t n tag = some c) :
    firstOf tag ((t.children n).map t.branch) = [t.branch c] := by
  have htag : (fun b : Branch => b.own.tag == tag) ∘ t.branch = fun c => t.tag c == tag :=
    funext fun c => by rw [Function.comp_apply, tag_own_branch ht]
  unfold child? at h
  rw [firstOf, List.find?_map, htag, h, Option.map_some, Option.toList_some]

/-- The renderings that follow one another in a paragraph show what each element carries, and its
tail. -/
lemma conveys_renderContent {front : String}
    (hrow : ∀ c ∈ row, ∀ before rendered, render c before = .ok rendered →
      carried (t.branch c) ++ visible (t.tail c) <+ visible rendered)
    (h : renderContent render t row front = .ok out) :
    visible front ++ (row.map t.branch).flatMap (fun b => carried b ++ visible b.tail) <+
      visible out := by
  induction row generalizing front with
  | nil =>
    obtain rfl := Except.ok.inj h
    rw [List.map_nil, List.flatMap_nil, List.append_nil]
  | cons c row ih =>
    rw [List.forall_mem_cons] at hrow
    obtain ⟨rendered, hrendered, h⟩ := exists_of_renderContent_cons h
    have hfront : visible (if Schema.isStructural t c && isMidLine front then front ++ "\n\n"
        else front) = visible front := by
      split
      · rw [Text.visible_append, visible_blankLine, List.append_nil]
      · rfl
    have hrest := ih hrow.2 h
    rw [Text.visible_append, hfront] at hrest
    have hc := hrow.1 _ _ hrendered
    have htail : (t.branch c).tail = t.tail c := by
      rw [Branch.tail, Tree.own_branch ht]
      rfl
    rw [List.map_cons, List.flatMap_cons, htail, ← List.append_assoc]
    exact (((List.Sublist.refl _).append hc).append (List.Sublist.refl _)).trans hrest

/-- The paragraphs of a block show what they carry. -/
lemma conveys_paragraphs {owner : NodeId} (hbelow : ConveysBelow render t n)
    (hrow : row ⊆ t.children n) (h : paragraphs render t owner row = .ok texts) :
    (allOf "para" (row.map t.branch)).flatMap carried <+ visible (joinParagraphs texts) := by
  rw [visible_joinParagraphs]
  induction row generalizing texts with
  | nil => exact List.nil_sublist _
  | cons c row ih =>
    rw [List.cons_subset] at hrow
    obtain ⟨htag, rendered, others, hrendered, hothers, htexts⟩ := exists_of_paragraphs_cons h
    have hvisible : texts.flatMap visible = visible rendered ++ others.flatMap visible := by
      rw [htexts]
      split
      · next hblank => rw [Text.visible_eq_nil_iff.2 hblank, List.nil_append]
      · rw [List.flatMap_cons, Text.visible_trimEnd]
    have hc := Tree.mem_ancestors_of_mem_children ht (Or.inl rfl) hrow.1
    rw [allOf_map_cons ht htag, List.flatMap_cons, hvisible]
    exact (hbelow c hc (Or.inl (by simp [htag])) _ _ hrendered).append (ih hrow.2 hothers)

/-- The body of a section shows what the paragraphs of the section carry. -/
lemma conveys_sectionBody {body : String} (hbelow : ConveysBelow render t n)
    (h : sectionBody render t n = .ok body) :
    (allOf "para" ((t.children n).map t.branch)).flatMap carried <+ visible body := by
  obtain ⟨texts, htexts, rfl⟩ := exists_of_sectionBody h
  have hparas := conveys_paragraphs ht hbelow (List.filter_subset_self _) htexts
  have hfilter : allOf "para" (((t.children n).filter fun c => t.tag c != "title").map t.branch) =
      allOf "para" ((t.children n).map t.branch) := by
    rw [allOf_map ht, allOf_map ht, List.filter_filter]
    refine congrArg _ (List.filter_congr fun c _ => ?_)
    by_cases htag : t.tag c = "para" <;> simp [htag]
  rwa [hfilter] at hparas

/-- The items of a list show what they carry. -/
lemma conveys_listItems {bullet : String} {owner : NodeId} {items : List String}
    (hbelow : ∀ c ∈ row, ConveysBelow render t c)
    (h : listItems render t bullet owner row = .ok items) :
    (allOf "listitem" (row.map t.branch)).flatMap carried <+ items.flatMap visible := by
  induction row generalizing items with
  | nil => exact List.nil_sublist _
  | cons c row ih =>
    rw [List.forall_mem_cons] at hbelow
    obtain ⟨htag, texts, others, htexts, hothers, rfl⟩ := exists_of_listItems_cons h
    have hparts := parts?_of_lookup ht (by rw [htag]; rfl)
    rw [allOf_map_cons ht htag, List.flatMap_cons, List.flatMap_cons, Text.visible_append,
      Text.visible_trimStart, visible_indent, List.append_assoc, carried_of_parts hparts]
    have hitem := conveys_paragraphs ht hbelow.1 (List.Subset.refl _) htexts
    exact (hitem.append (ih hbelow.2 hothers)).trans (List.sublist_append_right _ _)

/-! ### Parameter lists -/

omit ht in
/-- If each name is followed by a text, the text stands behind all names, if there are any. -/
lemma sublist_fields {names : List String} (hnames : names ≠ []) {text : List Char}
    {field : String → String} (hfield : ∀ name, visible name ++ text <+ visible (field name)) :
    names.flatMap visible ++ text <+ (names.map field).flatMap visible := by
  induction names with
  | nil => exact absurd rfl hnames
  | cons name names ih =>
    rw [List.map_cons, List.flatMap_cons, List.flatMap_cons]
    cases names with
    | nil => simpa using hfield name
    | cons name' names =>
      rw [List.append_assoc]
      have hname := (List.sublist_append_left _ _).trans (hfield name)
      exact hname.append (ih (List.cons_ne_nil _ _))

/-- Elements of a tag that is no carrier's carry their texts. -/
lemma flatMap_carried_allOf {tag : String} (htag : tag ∉ carrierTags) (row : List NodeId) :
    (allOf tag (row.map t.branch)).flatMap carried =
      ((row.filter fun c => t.tag c == tag).map t.stringValue).flatMap visible := by
  rw [allOf_map ht, List.flatMap_map, List.flatMap_map]
  refine List.flatMap_congr fun c hc => ?_
  have hc : t.tag c = tag := by simpa using (List.mem_filter.1 hc).2
  rw [carried_eq_visible (by rwa [tag_own_branch ht, hc]), Tree.stringValue_eq_branch]

/-- The fields of an item show what it carries. -/
lemma conveys_parameterFields {fieldName : String} {fields : List String}
    (hbelow : ConveysBelow render t n) (htag : t.tag n = "parameteritem")
    (h : parameterFields render t fieldName n = .ok fields) :
    carried (t.branch n) <+ fields.flatMap visible := by
  obtain ⟨names, description, rendered, hnames, hdescription, hrendered, rfl⟩ :=
    exists_of_parameterFields h
  have hnamesIn : namesIn ((t.children n).map t.branch) =
      allOf "parametername" ((t.children names).map t.branch) := by
    rw [namesIn, firstOf_children ht hnames, List.flatMap_singleton, Tree.children_branch ht]
  have hparts : parts? (t.branch n) = if namesIn ((t.children n).map t.branch) = [] then some []
      else some (namesIn ((t.children n).map t.branch) ++ [t.branch description]) := by
    have htag' : (t.entry n).tag = "parameteritem" := htag
    rw [← firstOf_children ht hdescription, Tree.branch_eq ht]
    simp [parts?, htag']
  by_cases hempty : namesIn ((t.children n).map t.branch) = []
  · rw [if_pos hempty] at hparts
    rw [carried_of_parts hparts]
    exact List.nil_sublist _
  · have hne : namesOf t names ≠ [] := by
      rwa [hnamesIn, allOf_map ht, List.map_eq_nil_iff, ← List.map_eq_nil_iff (f := t.stringValue)]
        at hempty
    have hdescriptionTag : t.tag description = "parameterdescription" := by
      simpa using List.find?_some hdescription
    have hmem := Tree.mem_ancestors_of_mem_children ht (Or.inl rfl)
      (List.mem_of_find?_eq_some hdescription)
    have hrenderedOn : IsRendered t description := Or.inl (by rw [hdescriptionTag]; decide)
    have hconveys := hbelow description hmem hrenderedOn _ _ hrendered
    rw [if_neg hempty] at hparts
    rw [carried_of_parts hparts, hnamesIn, List.flatMap_append,
      flatMap_carried_allOf ht (by decide), List.flatMap_singleton]
    refine sublist_fields hne fun name => ?_
    rw [Text.visible_trimEnd, visible_fieldItem]
    simp only [Text.visible_append, Text.visible_trim]
    refine List.Sublist.append ?_ hconveys
    exact (List.sublist_append_right _ _).trans (List.sublist_append_left _ _)

/-- The fields of a parameter list show what its items carry. -/
lemma conveys_parameterItems {fieldName : String} {owner : NodeId} {fields : List String}
    (hbelow : ∀ c ∈ row, ConveysBelow render t c)
    (h : parameterItems render t fieldName owner row = .ok fields) :
    (allOf "parameteritem" (row.map t.branch)).flatMap carried <+ fields.flatMap visible := by
  induction row generalizing fields with
  | nil => exact List.nil_sublist _
  | cons c row ih =>
    rw [List.forall_mem_cons] at hbelow
    obtain ⟨htag, first, others, hfirst, hothers, rfl⟩ := exists_of_parameterItems_cons h
    rw [allOf_map_cons ht htag, List.flatMap_cons, List.flatMap_append]
    exact (conveys_parameterFields ht hbelow.1 htag hfirst).append (ih hbelow.2 hothers)

/-! ### Blocks -/

/-- A section shows its paragraphs, and its title if its kind has one. -/
lemma conveys_sectionAction {before : String} (hbelow : ConveysBelow render t n)
    (htag : t.tag n = "simplesect")
    (h : sectionAction render t (kindOf t n) n before = .ok out) : Conveys t n out := by
  have hparts : parts? (t.branch n) =
      some ((if kindOf t n = "par" then firstOf "title" ((t.children n).map t.branch) else []) ++
        allOf "para" ((t.children n).map t.branch)) := by
    have htag' : (t.entry n).tag = "simplesect" := htag
    rw [Tree.branch_eq ht]
    simp only [parts?, htag']
    rfl
  rw [Conveys, carried_of_parts hparts, List.flatMap_append]
  obtain ⟨body, hbody, ⟨hkind, hout⟩ | ⟨hkind, title, htitle, rfl⟩⟩ := exists_of_sectionAction h
  · rw [if_neg hkind]
    refine (conveys_sectionBody ht hbelow hbody).trans ?_
    rcases hout with rfl | ⟨header, rfl⟩ | rfl
    · rw [Text.visible_append, visible_fieldItem, List.append_assoc]
      exact (List.sublist_append_left _ _).trans (List.sublist_append_right _ _)
    · rw [visible_directive]
      exact List.sublist_append_right _ _
    · rw [Text.visible_append]
      exact List.sublist_append_left _ _
  · have htitleTag : (t.branch title).own.tag = "title" := by
      rw [tag_own_branch ht]
      simpa using List.find?_some htitle
    have hcarried : carried (t.branch title) = visible (t.stringValue title) := by
      rw [carried_eq_visible (by rw [htitleTag]; decide), Tree.stringValue_eq_branch]
    rw [if_pos hkind, firstOf_children ht htitle, List.flatMap_singleton, hcarried,
      visible_directive, Text.visible_append, Text.visible_trim]
    exact (List.sublist_append_right _ _).append (conveys_sectionBody ht hbelow hbody)

/-- Blocks in a paragraph show what they carry. -/
lemma conveys_of_isStructural {depth : Nat} {before : String}
    (hbelow : ConveysBelow ((renderer index).renderWithin t depth) t n)
    (hstructural : Schema.isStructural t n = true)
    (h : (renderer index).renderWithin t (depth + 1) n before = .ok out) : Conveys t n out := by
  have hown : (t.branch n).own.tag = t.tag n := tag_own_branch ht n
  have hlist {bullet : String} (hlookup : partTags.lookup (t.tag n) = some "listitem")
      (h : renderList ((renderer index).renderWithin t depth) t bullet n before = .ok out) :
      Conveys t n out := by
    obtain ⟨items, hitems, rfl⟩ := exists_of_renderList h
    rw [Conveys, carried_of_parts (parts?_of_lookup ht hlookup), Text.visible_append,
      visible_blankLine, List.append_nil, Text.visible_intercalate (by decide)]
    exact conveys_listItems ht (hbelow.children ht) hitems
  -- One case for each name a block may have: formulas, sections, parameters, two lists, listings
  -- and the blocks that are shown as they are.
  rcases isStructural_cases hstructural with htag | htag | htag | htag | htag | htag | htag
  · rw [renderWithin_displayFormula depth before htag hstructural] at h
    obtain rfl := eq_of_renderDisplayFormula h
    have hmarkup : (t.entry n).markup ≠ .inline := by
      rw [Schema.isStructural, Schema.classify_eq_markup, beq_iff_eq] at hstructural
      simp [hstructural]
    rw [Conveys, carried_formula (hown.trans htag), Tree.own_branch ht, shownFormula,
      if_neg hmarkup]
    simp only [Text.visible_append, visible_indent, Text.visible_trim]
    refine List.Sublist.trans ?_ (List.sublist_append_left _ _)
    refine List.Sublist.trans ?_ (List.sublist_append_left _ _)
    exact List.sublist_append_right _ _
  · rw [renderWithin_simplesect depth before htag] at h
    exact conveys_sectionAction ht hbelow htag h
  · rw [renderWithin_tagRule depth before htag rfl] at h
    obtain ⟨fieldName, fields, -, hfields, rfl⟩ := exists_of_renderParameterList h
    have hparts := parts?_of_lookup ht (by rw [htag]; rfl)
    rw [Conveys, carried_of_parts hparts, Text.visible_append, visible_blankLine,
      List.append_nil, Text.visible_intercalate (by decide)]
    exact conveys_parameterItems ht (hbelow.children ht) hfields
  · rw [renderWithin_tagRule depth before htag rfl] at h
    exact hlist (by rw [htag]; rfl) h
  · rw [renderWithin_tagRule depth before htag rfl] at h
    exact hlist (by rw [htag]; rfl) h
  · rw [renderWithin_tagRule depth before htag rfl] at h
    obtain rfl := eq_of_renderListing h
    have hparts := parts?_of_lookup ht (by rw [htag]; rfl)
    rw [Conveys, carried_of_parts hparts, flatMap_carried_allOf ht (by decide),
      visible_directive, Text.visible_intercalate (by decide)]
    exact List.sublist_append_right _ _
  · rw [renderWithin_plainBlocks depth before htag hstructural] at h
    obtain rfl := Except.ok.inj h
    have hall : ∀ tag ∈ plainBlocks, tag ∉ carrierTags := by decide
    rw [Conveys, carried_eq_visible (hown.symm ▸ hall _ htag), ← Tree.stringValue_eq_branch]
    exact visible_sublist_escape _

end Rows

variable {d : NodeId} {depth : Nat} {before : String}

/-! ### Renderings of tidy subtrees -/

/-- From `d` on, each paragraph holds a line of inline markup or a row of blocks, and no line
breaks are left. -/
structure IsTidy (t : Tree) (d : NodeId) : Prop where
  undivided : ∀ n, n = d ∨ d ∈ t.ancestors n → t.tag n = "para" →
    (∀ m ∈ t.children n, Schema.isInline t m = true) ∨
      t.hasText n = false ∧
        ∀ m ∈ t.children n, Schema.isStructural t m = true ∧ t.hasTail m = false
  unbroken : ∀ n, d ∈ t.ancestors n → t.tag n ≠ "linebreak"

/-- A paragraph shows what it carries if the blocks in it do. -/
lemma conveys_renderPara (ht : t.WellFormed) (htidy : IsTidy t d)
    (hbelow : ConveysBelow ((renderer index).renderWithin t depth) t n)
    (hdepth : (t.descendants n).length < depth + 1) (hn : n = d ∨ d ∈ t.ancestors n)
    (htag : t.tag n = "para")
    (h : renderPara ((renderer index).renderWithin t depth) t n before = .ok out) :
    Conveys t n out := by
  have hchild : ∀ c ∈ t.children n, ∀ before rendered,
      (renderer index).renderWithin t depth c before = .ok rendered →
        carried (t.branch c) ++ visible (t.tail c) <+ visible rendered := by
    intro c hc before rendered hrendered
    have hnc := Tree.mem_ancestors_of_mem_children ht (Or.inl rfl) hc
    -- A paragraph after the pass holds a line of inline markup, or blocks without tails.
    rcases htidy.undivided n hn htag with hline | ⟨-, hblocks⟩
    · obtain ⟨depth, rfl⟩ : ∃ k, depth = k + 1 := by
        have hlt := Tree.length_descendants_lt ht hnc
        exact ⟨depth - 1, by omega⟩
      have hpara : "para" ∈ (t.ancestors c).map t.tag := List.mem_map.2 ⟨n, hnc, htag⟩
      rw [renderWithin_inline depth before (hline c hc) hpara] at hrendered
      obtain rfl := Except.ok.inj hrendered
      have hbreak := htidy.unbroken c (Tree.mem_ancestors_of_mem_children ht hn hc)
      exact conveys_writeInline ht (hline c hc) hbreak before
    · obtain ⟨hstructural, htail⟩ := hblocks c hc
      have hempty : t.tail c = "" := by simpa [Tree.hasTail] using htail
      rw [hempty, Text.visible_empty, List.append_nil]
      exact hbelow c hnc (Or.inr hstructural) before rendered hrendered
  have htext : visible (t.text n) <+ visible (escape (Text.trimStart (t.text n))) := by
    have hescape := visible_sublist_escape (Text.trimStart (t.text n))
    rwa [Text.visible_trimStart] at hescape
  have hown : (t.branch n).text = t.text n := by
    rw [Branch.text, Tree.own_branch ht]
    rfl
  rw [Conveys, carried_para ((tag_own_branch ht n).trans htag), hown, Tree.children_branch ht]
  exact (htext.append (List.Sublist.refl _)).trans (conveys_renderContent ht hchild h)

/-- **Renderings show what is carried**: in a tidy subtree, what is rendered for a description, a
paragraph or a block shows all that it carries. -/
theorem conveys_of_renderWithin (ht : t.WellFormed) (htidy : IsTidy t d)
    (hdepth : (t.descendants n).length < depth) (hn : n = d ∨ d ∈ t.ancestors n)
    (hrendered : IsRendered t n) (h : (renderer index).renderWithin t depth n before = .ok out) :
    Conveys t n out := by
  induction depth generalizing n before out with
  | zero => omega
  | succ depth ih =>
    have hbelow : ConveysBelow ((renderer index).renderWithin t depth) t n := by
      intro m hm hrendered before rendered h
      have hlt := Tree.length_descendants_lt ht hm
      refine ih (by omega) (Or.inr ?_) hrendered h
      rcases hn with rfl | hn
      · exact hm
      · exact Tree.ancestors_subset ht hm hn
    rcases hrendered with htag | hstructural
    · rcases List.mem_cons.1 htag with htag | htag
      · rw [renderWithin_para htag] at h
        exact conveys_renderPara ht htidy hbelow hdepth hn htag h
      · rw [renderWithin_description depth before htag] at h
        obtain ⟨texts, htexts, rfl⟩ := Program.exists_of_map_eq_ok h
        have hall : ∀ tag ∈ Schema.descriptionTags, partTags.lookup tag = some "para" := by decide
        rw [Conveys, carried_of_parts (parts?_of_lookup ht (hall _ htag))]
        exact conveys_paragraphs ht hbelow (List.Subset.refl _) htexts
    · exact conveys_of_isStructural ht hbelow hstructural h

end DoxygenRest.Rest

import DoxygenRest.Proofs.Program
import DoxygenRest.Proofs.Rest.Inline

/-!
# Renderings that succeed

What a block is written as, once it is known to be written: each lemma takes a rendering that
succeeded apart into the renderings it was made of.  Rows are taken apart at their first element.
Members and sections are handled by the rule for their kind (`exists_of_renderWithin_memberdef`,
`renderWithin_simplesect`).
-/

namespace DoxygenRest.Rest

open Program

variable {render : Render} {t : Tree} {n : NodeId}

/-! ### Rows -/

/-- Content that starts with an element is that element, on a line of its own if it is a block, with
the rest behind it. -/
lemma exists_of_renderContent_cons {child : NodeId} {rest : List NodeId} {front out : String}
    (h : renderContent render t (child :: rest) front = .ok out) :
    ∃ rendered, render child
        (if Schema.isStructural t child && isMidLine front then front ++ "\n\n" else front) =
          .ok rendered ∧
      renderContent render t rest
        ((if Schema.isStructural t child && isMidLine front then front ++ "\n\n" else front) ++
          rendered) = .ok out :=
  exists_of_bind_eq_ok h

/-- A row of paragraphs starts with one, which is left out if nothing but white space is rendered
for it. -/
lemma exists_of_paragraphs_cons {owner child : NodeId} {rest : List NodeId} {texts : List String}
    (h : paragraphs render t owner (child :: rest) = .ok texts) :
    t.tag child = "para" ∧ ∃ rendered others, render child "" = .ok rendered ∧
      paragraphs render t owner rest = .ok others ∧
      texts = if Text.isBlank rendered then others else Text.trimEnd rendered :: others := by
  obtain ⟨htag, h⟩ := of_refuse_eq_ok (p := t.tag child ≠ "para") h
  obtain ⟨rendered, hrendered, h⟩ := exists_of_bind_eq_ok h
  obtain ⟨others, hothers, h⟩ := exists_of_bind_eq_ok h
  exact ⟨not_not.1 htag, rendered, others, hrendered, hothers, (Except.ok.inj h).symm⟩

/-- A row of items starts with one, the paragraphs of which are indented behind the bullet. -/
lemma exists_of_listItems_cons {bullet : String} {owner item : NodeId} {rest : List NodeId}
    {items : List String} (h : listItems render t bullet owner (item :: rest) = .ok items) :
    t.tag item = "listitem" ∧ ∃ texts others,
      paragraphs render t item (t.children item) = .ok texts ∧
      listItems render t bullet owner rest = .ok others ∧
      items = (bullet ++ Text.trimStart (indent (joinParagraphs texts) bullet.utf8ByteSize)) ::
        others := by
  obtain ⟨htag, h⟩ := of_refuse_eq_ok (p := t.tag item ≠ "listitem") h
  obtain ⟨body, hbody, h⟩ := exists_of_bind_eq_ok h
  obtain ⟨texts, htexts, rfl⟩ := exists_of_map_eq_ok hbody
  obtain ⟨others, hothers, h⟩ := exists_of_bind_eq_ok h
  exact ⟨not_not.1 htag, texts, others, htexts, hothers, (Except.ok.inj h).symm⟩

/-- A row of parameters starts with one, the fields of which come first. -/
lemma exists_of_parameterItems_cons {fieldName : String} {owner item : NodeId}
    {rest : List NodeId} {fields : List String}
    (h : parameterItems render t fieldName owner (item :: rest) = .ok fields) :
    t.tag item = "parameteritem" ∧ ∃ first others,
      parameterFields render t fieldName item = .ok first ∧
      parameterItems render t fieldName owner rest = .ok others ∧ fields = first ++ others := by
  obtain ⟨htag, h⟩ := of_refuse_eq_ok (p := t.tag item ≠ "parameteritem") h
  obtain ⟨first, hfirst, h⟩ := exists_of_bind_eq_ok h
  obtain ⟨others, hothers, h⟩ := exists_of_bind_eq_ok h
  exact ⟨not_not.1 htag, first, others, hfirst, hothers, (Except.ok.inj h).symm⟩

/-- The names in a list of names. -/
def namesOf (t : Tree) (names : NodeId) : List String :=
  ((t.children names).filter fun name => t.tag name == "parametername").map t.stringValue

/-- A parameter has one field for each name, with the same description in all of them. -/
lemma exists_of_parameterFields {fieldName : String} {item : NodeId} {fields : List String}
    (h : parameterFields render t fieldName item = .ok fields) :
    ∃ names description rendered, child? t item "parameternamelist" = some names ∧
      child? t item "parameterdescription" = some description ∧
      render description "" = .ok rendered ∧
      fields = (namesOf t names).map fun name =>
        Text.trimEnd (fieldItem (":" ++ fieldName ++ " " ++ Text.trim name ++ ": ") rendered) := by
  unfold parameterFields at h
  cases hnames : child? t item "parameternamelist" with
  | none =>
    rw [hnames] at h
    cases h
  | some names =>
    cases hdescription : child? t item "parameterdescription" with
    | none =>
      rw [hnames, hdescription] at h
      cases h
    | some description =>
      rw [hnames, hdescription] at h
      obtain ⟨rendered, hrendered, h⟩ := exists_of_bind_eq_ok h
      refine ⟨names, description, rendered, rfl, rfl, hrendered, ?_⟩
      rw [namesOf, List.map_map]
      exact (Except.ok.inj h).symm

/-- The body of a member starts with its first description, unless there is none. -/
lemma exists_of_memberBody_cons {tag : String} {rest : List String} {body : String}
    (h : memberBody render t n (tag :: rest) = .ok body) :
    ∃ others, memberBody render t n rest = .ok others ∧
      (body = others ∨
        ∃ text, body = indent (Text.trimEnd text) directiveIndent ++ "\n\n" ++ others) := by
  rw [memberBody] at h
  cases hdescription : child? t n tag with
  | none =>
    rw [hdescription] at h
    exact ⟨body, h, Or.inl rfl⟩
  | some description =>
    rw [hdescription] at h
    obtain ⟨rendered, -, h⟩ := exists_of_bind_eq_ok h
    obtain ⟨others, hothers, h⟩ := exists_of_bind_eq_ok h
    refine ⟨others, hothers, ?_⟩
    split at h
    · exact Or.inl (Except.ok.inj h).symm
    · exact Or.inr ⟨rendered, (Except.ok.inj h).symm⟩

/-! ### Blocks -/

/-- The body of a section is the paragraphs in it, titles aside. -/
lemma exists_of_sectionBody {body : String} (h : sectionBody render t n = .ok body) :
    ∃ texts, paragraphs render t n ((t.children n).filter fun child => t.tag child != "title") =
      .ok texts ∧ body = joinParagraphs texts := by
  obtain ⟨texts, htexts, hbody⟩ := exists_of_map_eq_ok h
  exact ⟨texts, htexts, hbody.symm⟩

/-- A directive is its header with the body of the section. -/
lemma exists_of_renderDirective {header before out : String}
    (h : renderDirective render t header n before = .ok out) :
    ∃ body, sectionBody render t n = .ok body ∧ out = directive header body := by
  obtain ⟨body, hbody, h⟩ := exists_of_bind_eq_ok h
  exact ⟨body, hbody, (Except.ok.inj h).symm⟩

/-- A field is the text of the first child of that name. -/
lemma exists_of_field {tag text : String} (h : field t n tag = .ok text) :
    ∃ child, child? t n tag = some child ∧ text = t.stringValue child := by
  unfold field at h
  cases hchild : child? t n tag with
  | none =>
    rw [hchild] at h
    cases h
  | some child =>
    rw [hchild] at h
    exact ⟨child, rfl, (Except.ok.inj h).symm⟩

/-- A titled section is an admonition with the title and the body. -/
lemma exists_of_renderTitled {before out : String} (h : renderTitled render t n before = .ok out) :
    ∃ title body, child? t n "title" = some title ∧ sectionBody render t n = .ok body ∧
      out = directive (".. admonition:: " ++ Text.trim (t.stringValue title)) body := by
  obtain ⟨text, htext, h⟩ := exists_of_bind_eq_ok h
  obtain ⟨title, htitle, rfl⟩ := exists_of_field htext
  obtain ⟨body, hbody, hout⟩ := exists_of_renderDirective h
  exact ⟨title, body, htitle, hbody, hout⟩

/-- What is returned is described in a field. -/
lemma exists_of_renderReturn {before out : String} (h : renderReturn render t n before = .ok out) :
    ∃ body, sectionBody render t n = .ok body ∧ out = fieldItem ":return: " body ++ "\n\n" := by
  obtain ⟨body, hbody, h⟩ := exists_of_bind_eq_ok h
  exact ⟨body, hbody, (Except.ok.inj h).symm⟩

/-- A member is its signature, with all descriptions below. -/
lemma exists_of_renderMember {name signature out : String}
    (h : renderMember render t name signature n = .ok out) :
    ∃ body, memberBody render t n memberDescriptions = .ok body ∧
      out = ".. " ++ name ++ ":: " ++ signature ++ "\n\n" ++ body := by
  obtain ⟨body, hbody, h⟩ := exists_of_bind_eq_ok h
  exact ⟨body, hbody, (Except.ok.inj h).symm⟩

/-- A list is its items, one below the other. -/
lemma exists_of_renderList {bullet before out : String}
    (h : renderList render t bullet n before = .ok out) :
    ∃ items, listItems render t bullet n (t.children n) = .ok items ∧
      out = "\n".intercalate items ++ "\n\n" := by
  obtain ⟨items, hitems, h⟩ := exists_of_bind_eq_ok h
  exact ⟨items, hitems, (Except.ok.inj h).symm⟩

/-- A list of parameters is their fields, one below the other. -/
lemma exists_of_renderParameterList {before out : String}
    (h : renderParameterList render t n before = .ok out) :
    ∃ fieldName fields, fieldName? ((t.attribute? n "kind").getD "") = some fieldName ∧
      parameterItems render t fieldName n (t.children n) = .ok fields ∧
      out = "\n".intercalate fields ++ "\n\n" := by
  unfold renderParameterList at h
  dsimp only at h
  cases hfieldName : fieldName? ((t.attribute? n "kind").getD "") with
  | none =>
    rw [hfieldName] at h
    cases h
  | some fieldName =>
    rw [hfieldName] at h
    obtain ⟨fields, hfields, h⟩ := exists_of_bind_eq_ok h
    exact ⟨fieldName, fields, rfl, hfields, (Except.ok.inj h).symm⟩

/-- A listing shows its lines of code. -/
lemma eq_of_renderListing {before out : String}
    (h : renderListing t n before = .ok out) :
    out = directive ".. code-block:: c" ("\n".intercalate
      (((t.children n).filter fun line => t.tag line == "codeline").map t.stringValue)) :=
  (Except.ok.inj h).symm

/-- A display formula is set in a directive, and its tail follows. -/
lemma eq_of_renderDisplayFormula {before out : String}
    (h : renderDisplayFormula t n before = .ok out) :
    out = ".. math::\n" ++ String.ofList (blanks directiveIndent) ++ ":nowrap:\n\n" ++
      indent (Text.trim (t.text n)) directiveIndent ++ "\n\n" ++
      escape (Text.trimStart (t.tail n)) :=
  (Except.ok.inj h).symm

/-! ### Rules for kinds -/

/-- The kind of an element, empty if it has none. -/
def kindOf (t : Tree) (n : NodeId) : String :=
  (t.attribute? n "kind").getD ""

/-- A kind that is not empty is one that is declared. -/
lemma attribute?_of_kindOf {kind : String} (h : kindOf t n = kind) (hkind : kind ≠ "") :
    t.attribute? n "kind" = some kind := by
  rw [kindOf] at h
  cases hattribute : t.attribute? n "kind" with
  | none =>
    rw [hattribute] at h
    exact absurd h.symm hkind
  | some value =>
    rw [hattribute] at h
    exact congrArg some h

/-- The action for members of a kind. -/
def memberAction (render : Render) (t : Tree) (kind : String) : Render :=
  if kind = "function" then renderFunction render t
  else if kind = "typedef" then renderDeclaration render t "c:type"
  else if kind = "define" then renderMacro render t
  else if kind = "variable" then renderDeclaration render t "c:var"
  else refuseMember t

/-- The action for sections of a kind. -/
def sectionAction (render : Render) (t : Tree) (kind : String) : Render :=
  if kind = "return" then renderReturn render t
  else if kind ∈ ["attention", "note", "warning"] then renderAdmonition render t
  else if kind = "remark" then renderDirective render t ".. admonition:: Remark"
  else if kind = "see" then renderDirective render t ".. seealso::"
  else if kind = "par" then renderTitled render t
  else renderSection render t

/-- A section is written as a field, as a directive or as its bare body; sections of one kind are
directives with their title. -/
lemma exists_of_sectionAction {kind before out : String}
    (h : sectionAction render t kind n before = .ok out) :
    ∃ body, sectionBody render t n = .ok body ∧
      (kind ≠ "par" ∧ (out = fieldItem ":return: " body ++ "\n\n" ∨
          (∃ header, out = directive header body) ∨ out = body ++ "\n\n") ∨
        kind = "par" ∧ ∃ title, child? t n "title" = some title ∧
          out = directive (".. admonition:: " ++ Text.trim (t.stringValue title)) body) := by
  unfold sectionAction at h
  split_ifs at h with hreturn hadmonition hremark hsee hpar
  · obtain ⟨body, hbody, rfl⟩ := exists_of_renderReturn h
    exact ⟨body, hbody, Or.inl ⟨by simp [hreturn], Or.inl rfl⟩⟩
  · obtain ⟨body, hbody, rfl⟩ := exists_of_renderDirective h
    have hpar : kind ≠ "par" := by
      rintro rfl
      exact absurd hadmonition (by decide)
    exact ⟨body, hbody, Or.inl ⟨hpar, Or.inr (Or.inl ⟨_, rfl⟩)⟩⟩
  · obtain ⟨body, hbody, rfl⟩ := exists_of_renderDirective h
    exact ⟨body, hbody, Or.inl ⟨by simp [hremark], Or.inr (Or.inl ⟨_, rfl⟩)⟩⟩
  · obtain ⟨body, hbody, rfl⟩ := exists_of_renderDirective h
    exact ⟨body, hbody, Or.inl ⟨by simp [hsee], Or.inr (Or.inl ⟨_, rfl⟩)⟩⟩
  · obtain ⟨title, body, htitle, hbody, rfl⟩ := exists_of_renderTitled h
    exact ⟨body, hbody, Or.inr ⟨hpar, title, htitle, rfl⟩⟩
  · obtain ⟨body, hbody, h⟩ := exists_of_bind_eq_ok h
    exact ⟨body, hbody, Or.inl ⟨hpar, Or.inr (Or.inr (Except.ok.inj h).symm)⟩⟩

/-- The query for a kind holds of the elements of that kind. -/
lemma holds_ofKind {kind : String} (hkind : kind ≠ "") (t : Tree) (n : NodeId) :
    (ofKind kind).holds t n = decide (kindOf t n = kind) := by
  have hselect : (ofKind kind).select t n =
      if Query.hasAttribute t n "kind" (some kind) then [n] else [] := rfl
  rw [Query.holds, hselect, kindOf]
  unfold Query.hasAttribute
  cases t.attribute? n "kind" with
  | none => simp [hkind.symm]
  | some value => by_cases h : value = kind <;> simp [h]

/-- The admonitions are the sections of three kinds. -/
lemma isAdmonition_eq (t : Tree) (n : NodeId) :
    isAdmonition t n = decide (kindOf t n ∈ ["attention", "note", "warning"]) := by
  rw [isAdmonition, kindOf, Bool.eq_iff_iff]
  cases t.attribute? n "kind" with
  | none => decide
  | some value => simp

section Kinds

variable {index : Resolver} (depth : Nat) (before : String)

/-- Members are handled by the rule for their kind. -/
theorem renderWithin_memberdef (htag : t.tag n = "memberdef") :
    (renderer index).renderWithin t (depth + 1) n before =
      memberAction ((renderer index).renderWithin t depth) t (kindOf t n) n before := by
  have haccepts {kind : String} (hkind : kind ≠ "") (name : String)
      (action : Render → Tree → Render) :
      (memberRule name kind action).accepts t n = decide (kindOf t n = kind) := by
    rw [Bool.eq_iff_iff, memberRule, Rule.accepts_iff]
    simp [htag, Guard.holds, holds_ofKind hkind]
  have hrefuse (action : Render → Tree → Render) :
      Rule.accepts { name := "unsupported_member", action, tags := some ["memberdef"] } t n =
        true := by
    simp [Rule.accepts, htag]
  have hrules : Rule.meantFor (t.tag n) (rules index) =
      [memberRule "function" "function" renderFunction,
        memberRule "typedef" "typedef" fun render t => renderDeclaration render t "c:type",
        memberRule "define" "define" renderMacro,
        memberRule "variable" "variable" fun render t => renderDeclaration render t "c:var",
        { name := "unsupported_member", action := fun _ => refuseMember
          tags := some ["memberdef"] }, inlineRule] := by
    rw [htag]
    rfl
  have hdispatch {r : Rule (Render → Tree → Render)}
      (h : Rule.dispatch (Rule.meantFor (t.tag n) (rules index)) t n = some r) :=
    renderWithin_eq depth before h
  rw [hrules] at hdispatch
  simp only [Rule.dispatch_cons, haccepts, hrefuse, ne_eq, String.reduceEq, not_false_eq_true,
    decide_eq_true_eq, if_true] at hdispatch
  unfold memberAction
  split_ifs at hdispatch ⊢ <;> exact hdispatch rfl

/-- Sections are handled by the rule for their kind. -/
theorem renderWithin_simplesect (htag : t.tag n = "simplesect") :
    (renderer index).renderWithin t (depth + 1) n before =
      sectionAction ((renderer index).renderWithin t depth) t (kindOf t n) n before := by
  have haccepts {kind : String} (hkind : kind ≠ "") (name : String)
      (action : Render → Tree → Render) :
      (sectionRule name kind action).accepts t n = decide (kindOf t n = kind) := by
    rw [Bool.eq_iff_iff, sectionRule, Rule.accepts_iff]
    simp [htag, Guard.holds, holds_ofKind hkind]
  have hadmonition (action : Render → Tree → Render) :
      Rule.accepts { name := "admonition", action, tags := some ["simplesect"]
                     requires := some (.predicate isAdmonition) } t n =
        decide (kindOf t n ∈ ["attention", "note", "warning"]) := by
    rw [Bool.eq_iff_iff, Rule.accepts_iff]
    simp [htag, Guard.holds, isAdmonition_eq]
  have hrules : Rule.meantFor (t.tag n) (rules index) =
      [sectionRule "return" "return" renderReturn,
        { name := "admonition", action := renderAdmonition
          tags := some ["simplesect"], requires := some (.predicate isAdmonition) },
        sectionRule "remark" "remark" fun render t =>
          renderDirective render t ".. admonition:: Remark",
        sectionRule "see" "see" fun render t => renderDirective render t ".. seealso::",
        sectionRule "par" "par" renderTitled, tagRule "simplesect" renderSection, inlineRule] := by
    rw [htag]
    rfl
  have hdispatch {r : Rule (Render → Tree → Render)}
      (h : Rule.dispatch (Rule.meantFor (t.tag n) (rules index)) t n = some r) :=
    renderWithin_eq depth before h
  rw [hrules] at hdispatch
  simp only [Rule.dispatch_cons, haccepts, hadmonition, accepts_tagRule renderSection htag, ne_eq,
    String.reduceEq, not_false_eq_true, decide_eq_true_eq, if_true] at hdispatch
  unfold sectionAction
  split_ifs at hdispatch ⊢ <;> exact hdispatch rfl

end Kinds

/-! ### Blocks in paragraphs, and descriptions -/

/-- The block elements that no rule is meant for. -/
def plainBlocks : List String :=
  ["hruler", "preformatted", "verbatim", "indexentry", "title", "variablelist", "table", "heading",
    "dotfile", "mscfile", "diafile", "toclist", "language", "xrefsect", "copydoc", "blockquote",
    "parblock"]

/-- Each block element is one of a few kinds. -/
lemma isStructural_cases (h : Schema.isStructural t n = true) :
    t.tag n = "formula" ∨ t.tag n = "simplesect" ∨ t.tag n = "parameterlist" ∨
      t.tag n = "itemizedlist" ∨ t.tag n = "orderedlist" ∨ t.tag n = "programlisting" ∨
      t.tag n ∈ plainBlocks := by
  have hall : ∀ tag ∈ Schema.structuralTags, tag = "simplesect" ∨ tag = "parameterlist" ∨
      tag = "itemizedlist" ∨ tag = "orderedlist" ∨ tag = "programlisting" ∨
      tag ∈ plainBlocks := by
    decide
  rw [Schema.isStructural, Schema.classify, beq_iff_eq] at h
  split_ifs at h with htag
  · exact Or.inl htag
  · unfold Schema.classOfTag at h
    split_ifs at h with hinline hstructural
    exact Or.inr (hall _ (List.contains_iff_mem.1 hstructural))

/-- A block is not inline. -/
lemma isInline_eq_false (h : Schema.isStructural t n = true) : Schema.isInline t n = false := by
  rw [Schema.isStructural, beq_iff_eq] at h
  rw [Schema.isInline, h]
  rfl

section Blocks

variable {index : Resolver} (depth : Nat) (before : String)

/-- Where all that might accept an element is the rule for inline markup, an element that is none is
rendered as its text. -/
lemma renderWithin_eq_stringValue (hrules : Rule.meantFor (t.tag n) (rules index) = [inlineRule])
    (h : Schema.isInline t n = false) :
    (renderer index).renderWithin t (depth + 1) n before = .ok (escape (t.stringValue n)) := by
  have hnone : Rule.dispatch (rules index) t n = none := by
    rw [← Rule.dispatch_meantFor, hrules, Rule.dispatch_cons, if_neg]
    · rfl
    · simp [inlineRule, Rule.accepts, Guard.holds, h]
  rw [Renderer.renderWithin]
  simp only [renderer, hnone]

/-- Blocks without a rule are rendered as their text. -/
lemma renderWithin_plainBlocks (htag : t.tag n ∈ plainBlocks)
    (h : Schema.isStructural t n = true) :
    (renderer index).renderWithin t (depth + 1) n before = .ok (escape (t.stringValue n)) := by
  have hrules {tag : String} (htag : tag ∈ plainBlocks) :
      Rule.meantFor tag (rules index) = [inlineRule] := by
    fin_cases htag <;> rfl
  exact renderWithin_eq_stringValue depth before (hrules htag) (isInline_eq_false h)

/-- A formula in a block of its own is rendered as such. -/
lemma renderWithin_displayFormula (htag : t.tag n = "formula")
    (h : Schema.isStructural t n = true) :
    (renderer index).renderWithin t (depth + 1) n before = renderDisplayFormula t n before := by
  have hrules :
      Rule.meantFor (t.tag n) (rules index) = [displayRule, formulaRule, inlineRule] := by
    rw [htag]
    rfl
  have hdisplay : displayRule.accepts t n = true := by
    rw [displayRule, Rule.accepts_iff]
    simp [htag, Guard.holds, h]
  have hdispatch :
      Rule.dispatch (Rule.meantFor (t.tag n) (rules index)) t n = some displayRule := by
    rw [hrules, Rule.dispatch_cons, if_pos hdisplay]
  exact renderWithin_eq depth before hdispatch

/-- Descriptions are rendered by their own rule. -/
lemma renderWithin_description (htag : t.tag n ∈ Schema.descriptionTags) :
    (renderer index).renderWithin t (depth + 1) n before =
      renderDescription ((renderer index).renderWithin t depth) t n before := by
  have hrules {tag : String} (htag : tag ∈ Schema.descriptionTags) :
      Rule.meantFor tag (rules index) =
        [{ name := "description", action := renderDescription
           tags := some Schema.descriptionTags }, inlineRule] := by
    fin_cases htag <;> rfl
  have haccepts (action : Render → Tree → Render) :
      Rule.accepts { name := "description", action, tags := some Schema.descriptionTags } t n =
        true := by
    rw [Rule.accepts_iff]
    simp [htag]
  have hdispatch {r : Rule (Render → Tree → Render)}
      (h : Rule.dispatch (Rule.meantFor (t.tag n) (rules index)) t n = some r) :=
    renderWithin_eq depth before h
  rw [hrules htag, Rule.dispatch_cons, if_pos (haccepts renderDescription)] at hdispatch
  exact hdispatch rfl

end Blocks

end DoxygenRest.Rest

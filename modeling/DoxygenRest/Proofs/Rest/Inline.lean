import DoxygenRest.Rest.Recipe
import DoxygenRest.Proofs.Rule
import DoxygenRest.Proofs.Adjust.Context
import Mathlib.Tactic.FinCases

/-!
# What is written for inline markup

Inline elements are written in one of two ways: some as a text between delimiters (`delimited?`),
set apart from what stands around it by `wrap`, the others as their bare text (`bareText`), whatever
stands around it.  `renderWithin_inline` says that the rules of the recipe come to this, for each
inline tag, within a paragraph.
-/

namespace DoxygenRest.Rest

/-! ### Text between delimiters -/

/-- A finished text with its delimiters. -/
structure Delimited where
  opening : String
  inner : String
  closing : String
  deriving DecidableEq

namespace Delimited

/-- The written form, without what sets it apart. -/
def text (s : Delimited) : String :=
  s.opening ++ s.inner ++ s.closing

/-- The first character between the delimiters. -/
def first? (s : Delimited) : Option Char :=
  s.inner.toList.head?

/-- The written form between the text `before` and the running text `tail`. -/
def render (s : Delimited) (tail before : String) : String :=
  wrap s.opening s.inner s.closing tail before

end Delimited

/-- A text in the delimiters of a span. -/
def Span.delimit (s : Span) (text : String) : Delimited :=
  ⟨s.opening, if s.escapes then escape text else text, s.closing⟩

/-- The elements whose text is one span. -/
def spanTags : List (String × Span) :=
  [("bold", .bold), ("emphasis", .emphasis), ("computeroutput", .literal),
    ("subscript", .subscript), ("superscript", .superscript)]

/-- The inline elements without delimiters that show their text. -/
def plainTags : List String :=
  ["s", "strike", "underline", "center", "small", "del", "ins", "htmlonly", "manonly", "xmlonly",
    "rtfonly", "latexonly", "docbookonly", "image", "dot", "msc", "plantuml", "anchor", "emoji"]

/-- What is written for a reference. -/
def delimitedReference (index : Resolver) (t : Tree) (n : NodeId) : Delimited :=
  if isExternal.holds t n then Span.unresolved.delimit (t.stringValue n)
  else
    match (t.attribute? n "refid").bind index with
    | none => Span.unresolved.delimit (t.stringValue n)
    | some target =>
      match roleOf? target.kind with
      | none => Span.unresolved.delimit (t.stringValue n)
      | some role =>
        ⟨":" ++ role ++ ":\x60",
          if showsName (t.stringValue n) target then escape (t.stringValue n)
          else escape (t.stringValue n) ++ " <" ++ escape target.name ++ ">", "\x60"⟩

/-- What is written for a link. -/
def delimitedLink (t : Tree) (n : NodeId) : Delimited :=
  ⟨"\x60", escape (t.stringValue n) ++ " <" ++ (t.attribute? n "url").getD "" ++ ">", "\x60_"⟩

/-- What is written for an inline element between delimiters, if it has any. -/
def delimited? (index : Resolver) (t : Tree) (n : NodeId) : Option Delimited :=
  if t.tag n = "ref" then some (delimitedReference index t n)
  else if t.tag n = "ulink" then some (delimitedLink t n)
  else if t.tag n = "formula" then some (Span.math.delimit (stripDollars (t.text n)))
  else (spanTags.lookup (t.tag n)).map fun span => span.delimit (t.stringValue n)

/-- What is written for an inline element without delimiters. -/
def bareText (t : Tree) (n : NodeId) : String :=
  if t.tag n = "linebreak" then "\n" else escape (t.stringValue n)

/-- What is written for an inline element and its tail, behind the text `before`. -/
def writeInline (index : Resolver) (t : Tree) (n : NodeId) (before : String) : String :=
  match delimited? index t n with
  | some s => s.render (t.tail n) before
  | none => bareText t n ++ escape (t.tail n)

/-! ### The rules for inline markup -/

/-- The rule for all inline elements that no other rule is meant for. -/
def inlineRule : Rule (Render → Tree → Render) :=
  { name := "inline", action := fun _ => renderPlain
    requires := some (.predicate Schema.isInline) }

/-- The rule for references that leave the documentation. -/
def externalRule : Rule (Render → Tree → Render) :=
  { name := "external_ref", action := fun _ => unresolvedReference
    tags := some ["ref"], within := some [["para"]], requires := some (.query isExternal) }

/-- The rule for references within the documentation. -/
def referenceRule (index : Resolver) : Rule (Render → Tree → Render) :=
  { name := "ref", action := fun _ => renderReference index
    tags := some ["ref"], within := some [["para"]] }

/-- The rule for formulas in blocks of their own. -/
def displayRule : Rule (Render → Tree → Render) :=
  { name := "display_formula", action := fun _ => renderDisplayFormula
    tags := some ["formula"], requires := some (.predicate Schema.isStructural) }

/-- The rule for formulas in lines of text. -/
def formulaRule : Rule (Render → Tree → Render) :=
  { name := "inline_formula", action := fun _ => renderInlineFormula, tags := some ["formula"] }

section Rules

variable (index : Resolver) {t : Tree} {n : NodeId}

/-- For the name of a span, there are its own rule and the one for all inline markup. -/
lemma meantFor_spanTags {tag : String} {span : Span} (h : (tag, span) ∈ spanTags) :
    Rule.meantFor tag (rules index) = [tagRule tag fun _ => renderSpan span, inlineRule] := by
  fin_cases h <;> rfl

/-- For inline markup without delimiters, there is only the rule for all of it. -/
lemma meantFor_plainTags {tag : String} (h : tag ∈ plainTags) :
    Rule.meantFor tag (rules index) = [inlineRule] := by
  fin_cases h <;> rfl

/-- Each inline tag is one of a few kinds. -/
lemma mem_inlineTags_cases : ∀ tag ∈ Schema.inlineTags,
    tag = "ref" ∨ tag = "ulink" ∨ tag = "formula" ∨ tag = "linebreak" ∨
      (∃ item ∈ spanTags, item.1 = tag) ∨ tag ∈ plainTags := by
  decide

/-- The names of spans are not those of references, links and formulas. -/
lemma lookup_of_mem_spanTags {tag : String} {span : Span} (h : (tag, span) ∈ spanTags) :
    tag ≠ "ref" ∧ tag ≠ "ulink" ∧ tag ≠ "formula" ∧ spanTags.lookup tag = some span := by
  have hall : ∀ item ∈ spanTags, item.1 ≠ "ref" ∧ item.1 ≠ "ulink" ∧ item.1 ≠ "formula" ∧
      spanTags.lookup item.1 = some item.2 := by
    decide
  exact hall (tag, span) h

/-- Neither are the names of markup without delimiters, which are no spans. -/
lemma lookup_of_mem_plainTags : ∀ {tag : String}, tag ∈ plainTags →
    tag ≠ "ref" ∧ tag ≠ "ulink" ∧ tag ≠ "formula" ∧ tag ≠ "linebreak" ∧
      spanTags.lookup tag = none := by
  decide

/-- What is inline has an inline name. -/
lemma mem_inlineTags_of_isInline (h : Schema.isInline t n = true) :
    t.tag n ∈ Schema.inlineTags := by
  rw [Schema.isInline, Schema.classify_eq_markup, beq_iff_eq] at h
  exact Entry.mem_inlineTags_of_markup h

/-- What is inline is no block. -/
lemma isStructural_eq_false (h : Schema.isInline t n = true) : Schema.isStructural t n = false := by
  rw [Schema.isInline, beq_iff_eq] at h
  rw [Schema.isStructural, h]
  rfl

variable {index}

/-- An element is rendered by the first rule meant for its tag that accepts it. -/
lemma renderWithin_eq (depth : Nat) (before : String) {rule : Rule (Render → Tree → Render)}
    (h : Rule.dispatch (Rule.meantFor (t.tag n) (rules index)) t n = some rule) :
    (renderer index).renderWithin t (depth + 1) n before =
      rule.action ((renderer index).renderWithin t depth) t n before := by
  rw [Rule.dispatch_meantFor] at h
  rw [Renderer.renderWithin]
  simp only [renderer, h]

/-- A rule for a tag alone accepts all elements of that tag. -/
lemma accepts_tagRule {tag : String} (action : Render → Tree → Render) (h : t.tag n = tag) :
    (tagRule tag action).accepts t n = true := by
  rw [tagRule, Rule.accepts_iff]
  simp [h]

/-- The rule for all inline markup accepts what is inline. -/
lemma accepts_inlineRule (h : Schema.isInline t n = true) : inlineRule.accepts t n = true := by
  simp [inlineRule, Rule.accepts, Guard.holds, h]

/-- An element with a rule for its tag alone is rendered by it, unless a rule in front of it is
meant for its tag. -/
lemma renderWithin_tagRule (depth : Nat) (before : String) {tag : String}
    {action : Render → Tree → Render} {others : List (Rule (Render → Tree → Render))}
    (htag : t.tag n = tag) (h : Rule.meantFor tag (rules index) = tagRule tag action :: others) :
    (renderer index).renderWithin t (depth + 1) n before =
      action ((renderer index).renderWithin t depth) t n before := by
  have hdispatch : Rule.dispatch (Rule.meantFor (t.tag n) (rules index)) t n =
      some (tagRule tag action) := by
    rw [htag, h, Rule.dispatch_cons, if_pos (accepts_tagRule action htag)]
  exact renderWithin_eq depth before hdispatch

/-- Paragraphs are rendered by their own rule. -/
lemma renderWithin_para (htag : t.tag n = "para") (depth : Nat) (before : String) :
    (renderer index).renderWithin t (depth + 1) n before =
      renderPara ((renderer index).renderWithin t depth) t n before := by
  have hrules :
      Rule.meantFor (t.tag n) (rules index) = [inlineRule, tagRule "para" renderPara] := by
    rw [htag]
    rfl
  have hinline : ¬inlineRule.accepts t n = true := by
    have hclass : Schema.isInline t n = false := by
      rw [Schema.isInline, Schema.classify, htag]
      rfl
    simp [inlineRule, Rule.accepts, Guard.holds, hclass]
  have hdispatch : Rule.dispatch (Rule.meantFor (t.tag n) (rules index)) t n =
      some (tagRule "para" renderPara) := by
    rw [hrules, Rule.dispatch_cons, if_neg hinline, Rule.dispatch_cons,
      if_pos (accepts_tagRule renderPara htag)]
  exact renderWithin_eq depth before hdispatch

/-- Within a paragraph, a reference is rendered between delimiters. -/
lemma renderWithin_ref (depth : Nat) (before : String) (htag : t.tag n = "ref")
    (hpara : "para" ∈ (t.ancestors n).map t.tag) :
    (renderer index).renderWithin t (depth + 1) n before =
      .ok ((delimitedReference index t n).render (t.tail n) before) := by
  have hrules :
      Rule.meantFor (t.tag n) (rules index) = [externalRule, referenceRule index, inlineRule] := by
    rw [htag]
    rfl
  have hwithin : isFoundIn ["para"] ((t.ancestors n).map t.tag) = true :=
    (isFoundIn_singleton _ _).2 hpara
  have hexternal : externalRule.accepts t n = isExternal.holds t n := by
    rw [Bool.eq_iff_iff, externalRule, Rule.accepts_iff]
    simp [htag, hwithin, Guard.holds]
  have hreference : (referenceRule index).accepts t n = true := by
    rw [referenceRule, Rule.accepts_iff]
    simp [htag, hwithin]
  -- Two rules ask for the element: the one for external references comes first.
  by_cases hholds : isExternal.holds t n = true
  · have hdispatch :
        Rule.dispatch (Rule.meantFor (t.tag n) (rules index)) t n = some externalRule := by
      rw [hrules, Rule.dispatch_cons, hexternal, if_pos hholds]
    rw [renderWithin_eq depth before hdispatch, delimitedReference, if_pos hholds]
    rfl
  · have hdispatch :
        Rule.dispatch (Rule.meantFor (t.tag n) (rules index)) t n = some (referenceRule index) := by
      rw [hrules, Rule.dispatch_cons, hexternal, if_neg hholds, Rule.dispatch_cons,
        if_pos hreference]
    rw [renderWithin_eq depth before hdispatch, delimitedReference, if_neg hholds]
    show renderReference index t n before = _
    unfold renderReference
    cases (t.attribute? n "refid").bind index with
    | none => rfl
    | some target =>
      simp only
      cases roleOf? target.kind with
      | none => rfl
      | some role => rfl

/-- A formula in a line of text is rendered between delimiters. -/
lemma renderWithin_formula (depth : Nat) (before : String) (htag : t.tag n = "formula")
    (hinline : Schema.isInline t n = true) :
    (renderer index).renderWithin t (depth + 1) n before =
      .ok ((Span.math.delimit (stripDollars (t.text n))).render (t.tail n) before) := by
  have hrules :
      Rule.meantFor (t.tag n) (rules index) = [displayRule, formulaRule, inlineRule] := by
    rw [htag]
    rfl
  have hdisplay : ¬displayRule.accepts t n = true := by
    rw [displayRule, Rule.accepts_iff]
    simp [Guard.holds, isStructural_eq_false hinline]
  have hformula : formulaRule.accepts t n = true := by
    rw [formulaRule, Rule.accepts_iff]
    simp [htag]
  have hdispatch :
      Rule.dispatch (Rule.meantFor (t.tag n) (rules index)) t n = some formulaRule := by
    rw [hrules, Rule.dispatch_cons, if_neg hdisplay, Rule.dispatch_cons, if_pos hformula]
  rw [renderWithin_eq depth before hdispatch]
  rfl

/-- Within a paragraph, inline elements are rendered between delimiters or as their bare text. -/
theorem renderWithin_inline (depth : Nat) (before : String) (hinline : Schema.isInline t n = true)
    (hpara : "para" ∈ (t.ancestors n).map t.tag) :
    (renderer index).renderWithin t (depth + 1) n before = .ok (writeInline index t n before) := by
  have hkinds := mem_inlineTags_cases (t.tag n) (mem_inlineTags_of_isInline hinline)
  unfold writeInline delimited?
  rcases hkinds with htag | htag | htag | htag | ⟨⟨tag, span⟩, hspan, htag⟩ | hplain
  · rw [renderWithin_ref depth before htag hpara, if_pos htag]
  · rw [renderWithin_tagRule depth before htag rfl, if_neg (by simp [htag]), if_pos htag]
    rfl
  · rw [renderWithin_formula depth before htag hinline, if_neg (by simp [htag]),
      if_neg (by simp [htag]), if_pos htag]
  · rw [renderWithin_tagRule depth before htag rfl, htag, bareText, if_pos htag]
    rfl
  · obtain ⟨href, hulink, hformula, hlookup⟩ := lookup_of_mem_spanTags hspan
    have hrules := meantFor_spanTags index hspan
    subst htag
    rw [renderWithin_tagRule depth before rfl hrules, if_neg href, if_neg hulink, if_neg hformula,
      hlookup]
    rfl
  · obtain ⟨href, hulink, hformula, hlinebreak, hlookup⟩ := lookup_of_mem_plainTags hplain
    have hdispatch :
        Rule.dispatch (Rule.meantFor (t.tag n) (rules index)) t n = some inlineRule := by
      rw [meantFor_plainTags index hplain, Rule.dispatch_cons, if_pos (accepts_inlineRule hinline)]
    rw [renderWithin_eq depth before hdispatch, if_neg href, if_neg hulink, if_neg hformula,
      hlookup, bareText, if_neg hlinebreak]
    rfl

end Rules

end DoxygenRest.Rest

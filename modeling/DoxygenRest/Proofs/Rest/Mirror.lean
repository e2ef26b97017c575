import DoxygenRest.Rest.Recipe
import DoxygenRest.Proofs.Adjust.Context
import DoxygenRest.Proofs.Branch.Descent
import Mathlib.Data.List.Find
import Mathlib.Data.List.Forall2
import Mathlib.Tactic.FinCases

/-!
# What rendering depends on

What is written for an element depends on its subtree, numbers aside, and on the tags of the
elements around it.  Elements of two trees that agree in both mirror one another (`Mirrors`), and
they are rendered alike (`Mirrors.render_eq`).

A rule asks for no more than that (`Mirrors.accepts_eq`), and neither does its action, as long as
the renderings it is given agree on the elements below its own (`action_eq`).
-/

namespace DoxygenRest.Rest

open Branch

/-- Two elements have the same subtrees, numbers aside, and the same tags around them. -/
structure Mirrors (t u : Tree) (n m : NodeId) : Prop where
  fragment : t.fragment n = u.fragment m
  around : (t.ancestors n).map t.tag = (u.ancestors m).map u.tag

variable {t u : Tree} {n m : NodeId} {ns ms : List NodeId}

/-- An element mirrors itself. -/
lemma Mirrors.refl (t : Tree) (n : NodeId) : Mirrors t t n n :=
  ⟨rfl, rfl⟩

/-! ### What elements that mirror one another have in common -/

namespace Mirrors

section Common

variable (h : Mirrors t u n m) (ht : t.WellFormed) (hu : u.WellFormed)

include h

lemma stringValue_eq : t.stringValue n = u.stringValue m :=
  congrArg Fragment.stringValue h.fragment

include ht hu

/-- The two elements carry the same data. -/
lemma entry_eq : t.entry n = u.entry m := by
  have hfragment := h.fragment
  rw [← Tree.fragment_branch, ← Tree.fragment_branch] at hfragment
  rw [← Tree.own_branch ht, ← Tree.own_branch hu]
  exact (fragment_eq_iff.1 hfragment).1

lemma tag_eq : t.tag n = u.tag m :=
  congrArg Entry.tag (h.entry_eq ht hu)

lemma text_eq : t.text n = u.text m :=
  congrArg (fun e : Entry => e.text.getD "") (h.entry_eq ht hu)

lemma tail_eq : t.tail n = u.tail m :=
  congrArg (fun e : Entry => e.tail.getD "") (h.entry_eq ht hu)

lemma attribute?_eq (name : String) : t.attribute? n name = u.attribute? m name :=
  congrArg (fun e : Entry => e.attributes.get? name) (h.entry_eq ht hu)

/-- The schema classifies them alike. -/
lemma classify_eq : Schema.classify t n = Schema.classify u m := by
  rw [Schema.classify_eq_markup, Schema.classify_eq_markup, h.entry_eq ht hu]

/-- Their parents have the same name. -/
lemma parentTag_eq : parentTag t n = parentTag u m := by
  have haround := congrArg List.head? h.around
  have hhead {t : Tree} {n : NodeId} (ht : t.WellFormed) :
      ((t.ancestors n).map t.tag).head? = (t.parent? n).map t.tag := by
    cases hp : t.parent? n with
    | none => rw [Tree.ancestors_eq_nil hp]; rfl
    | some p => rw [Tree.ancestors_eq_cons ht hp]; rfl
  rw [hhead ht, hhead hu] at haround
  rw [parentTag, parentTag, haround]

/-- The children of elements that mirror one another do so in turn. -/
lemma children : List.Forall₂ (Mirrors t u) (t.children n) (u.children m) := by
  have hfragments : (t.children n).map t.fragment = (u.children m).map u.fragment := by
    have hfragment := h.fragment
    rw [← Tree.fragment_branch, ← Tree.fragment_branch] at hfragment
    have hrow := (fragment_eq_iff.1 hfragment).2
    rw [Tree.children_branch ht, Tree.children_branch hu, List.map_map, List.map_map] at hrow
    simpa only [Function.comp_def, Tree.fragment_branch] using hrow
  have haround {c d : NodeId} (hc : t.parent? c = some n) (hd : u.parent? d = some m) :
      (t.ancestors c).map t.tag = (u.ancestors d).map u.tag := by
    rw [Tree.ancestors_eq_cons ht hc, Tree.ancestors_eq_cons hu hd, List.map_cons, List.map_cons,
      h.tag_eq ht hu, h.around]
  have hcs : ∀ c ∈ t.children n, t.parent? c = some n := fun c hc => ht.mem_children_iff.1 hc
  have hds : ∀ d ∈ u.children m, u.parent? d = some m := fun d hd => hu.mem_children_iff.1 hd
  generalize t.children n = cs at hfragments hcs
  generalize u.children m = ds at hfragments hds
  induction cs generalizing ds with
  | nil =>
    rw [List.map_eq_nil_iff.1 hfragments.symm]
    exact .nil
  | cons c cs ih =>
    obtain ⟨d, ds, rfl, hd, hrest⟩ := List.map_eq_cons_iff.1 hfragments.symm
    rw [List.forall_mem_cons] at hcs hds
    exact .cons ⟨hd.symm, haround hcs.1 hds.1⟩ (ih hcs.2 ds hrest.symm hds.2)

end Common

/-! ### Rules -/

section Rules

variable (h : Mirrors t u n m) (ht : t.WellFormed) (hu : u.WellFormed)

include h ht hu

/-- A query for an attribute holds of both or of neither. -/
lemma holds_attribute_eq (source name : String) (value : Option String) :
    (Query.mk source (.attribute name value)).holds t n =
      (Query.mk source (.attribute name value)).holds u m := by
  have hattribute : Query.hasAttribute t n name value = Query.hasAttribute u m name value := by
    unfold Query.hasAttribute
    rw [h.attribute?_eq ht hu]
  have hholds (t : Tree) (n : NodeId) : (Query.mk source (.attribute name value)).holds t n =
      Query.hasAttribute t n name value := by
    show (!(if Query.hasAttribute t n name value then [n] else []).isEmpty) = _
    cases Query.hasAttribute t n name value <;> rfl
  rw [hholds, hholds, hattribute]

/-- The rules of the recipe accept elements that mirror one another, or neither of them. -/
lemma accepts_eq {index : Resolver} {r : Rule (Render → Tree → Render)} (hr : r ∈ rules index) :
    r.accepts t n = r.accepts u m := by
  have hguards : (∀ guard ∈ r.requires, guard.holds t n = guard.holds u m) ∧ r.excludes = none := by
    have hkind (kind : String) : (ofKind kind).holds t n = (ofKind kind).holds u m :=
      h.holds_attribute_eq ht hu _ _ _
    have hexternal : isExternal.holds t n = isExternal.holds u m :=
      h.holds_attribute_eq ht hu _ _ _
    have hadmonition : isAdmonition t n = isAdmonition u m := by
      rw [isAdmonition, isAdmonition, h.attribute?_eq ht hu]
    have hinline : Schema.isInline t n = Schema.isInline u m := by
      rw [Schema.isInline, Schema.isInline, h.classify_eq ht hu]
    have hstructural : Schema.isStructural t n = Schema.isStructural u m := by
      rw [Schema.isStructural, Schema.isStructural, h.classify_eq ht hu]
    fin_cases hr <;>
      simp [memberRule, sectionRule, tagRule, hkind, hexternal, Guard.holds, hadmonition, hinline,
        hstructural]
  obtain ⟨hrequires, hexcludes⟩ := hguards
  rw [Rule.accepts, Rule.accepts, h.tag_eq ht hu, h.around, hexcludes, Option.all_none,
    Option.all_none]
  cases hguard : r.requires with
  | none => rfl
  | some guard => rw [Option.all_some, Option.all_some, hrequires guard hguard]

/-- The same rule of the recipe handles elements that mirror one another. -/
lemma dispatch_eq (index : Resolver) :
    Rule.dispatch (rules index) t n = Rule.dispatch (rules index) u m :=
  List.find?_congr fun _ hr => h.accepts_eq ht hu hr

end Rules

end Mirrors

/-! ### Rows of children -/

/-- Two elements mirror one another and are rendered alike. -/
structure Alike (t u : Tree) (render render' : Render) (n m : NodeId) : Prop where
  mirrors : Mirrors t u n m
  render_eq : ∀ before, render n before = render' m before

section Rows

variable (ht : t.WellFormed) (hu : u.WellFormed) {render render' : Render}

include ht hu

/-- A text that is made for each element of a tag is made alike for rows that mirror one another, as
long as it is made from the string values. -/
lemma map_filter_eq (h : List.Forall₂ (Mirrors t u) ns ms) (tag : String) (f : String → String) :
    ((ns.filter fun a => t.tag a == tag).map fun a => f (t.stringValue a)) =
      ((ms.filter fun b => u.tag b == tag).map fun b => f (u.stringValue b)) := by
  induction h with
  | nil => rfl
  | cons hab hrest ih =>
    rw [List.filter_cons, List.filter_cons, hab.tag_eq ht hu]
    split
    · rw [List.map_cons, List.map_cons, hab.stringValue_eq, ih]
    · exact ih

/-- The first elements of a tag in two rows mirror one another if the rows do. -/
lemma find?_cases (h : List.Forall₂ (Mirrors t u) ns ms) (tag : String) :
    ((ns.find? fun a => t.tag a == tag) = none ∧ (ms.find? fun b => u.tag b == tag) = none) ∨
      ∃ a b, (ns.find? fun a => t.tag a == tag) = some a ∧
        (ms.find? fun b => u.tag b == tag) = some b ∧ Mirrors t u a b := by
  induction h with
  | nil => exact Or.inl ⟨rfl, rfl⟩
  | @cons a b ns ms hab hrest ih =>
    rw [List.find?_cons, List.find?_cons, hab.tag_eq ht hu]
    cases u.tag b == tag with
    | true => exact Or.inr ⟨a, b, rfl, rfl, hab⟩
    | false => exact ih

/-- Rows that are rendered alike make the same content. -/
lemma renderContent_eq_of_alike (h : List.Forall₂ (Alike t u render render') ns ms) (out : String) :
    renderContent render t ns out = renderContent render' u ms out := by
  induction h generalizing out with
  | nil => rfl
  | @cons a b ns ms hab hrest ih =>
    have hstructural : Schema.isStructural t a = Schema.isStructural u b := by
      rw [Schema.isStructural, Schema.isStructural, hab.mirrors.classify_eq ht hu]
    simp only [renderContent, hstructural, hab.render_eq, ih]

/-- So do rows of paragraphs, which are refused alike, too. -/
lemma paragraphs_eq_of_alike {owner owner' : NodeId} (howner : t.tag owner = u.tag owner')
    (h : List.Forall₂ (Alike t u render render') ns ms) :
    paragraphs render t owner ns = paragraphs render' u owner' ms := by
  induction h with
  | nil => rfl
  | cons hab hrest ih =>
    simp only [paragraphs, hab.mirrors.tag_eq ht hu, hab.render_eq, howner, ih]

end Rows

/-! ### Actions -/

/-- Two renderings agree below two elements, where these mirror one another. -/
def AgreeBelow (t u : Tree) (n m : NodeId) (render render' : Render) : Prop :=
  ∀ a b, n ∈ t.ancestors a → m ∈ u.ancestors b → Mirrors t u a b →
    ∀ before, render a before = render' b before

section Actions

variable (ht : t.WellFormed) (hu : u.WellFormed) {render render' : Render}
variable (h : Mirrors t u n m)

include ht hu h

/-- The first children of a tag mirror one another. -/
lemma child?_cases (tag : String) :
    (child? t n tag = none ∧ child? u m tag = none) ∨
      ∃ a b, child? t n tag = some a ∧ child? u m tag = some b ∧ Mirrors t u a b :=
  find?_cases ht hu (h.children ht hu) tag

/-- A field is found with the same text, or it is missing in both. -/
lemma field_eq (tag : String) : field t n tag = field u m tag := by
  rw [field, field, h.tag_eq ht hu]
  rcases child?_cases ht hu h tag with ⟨hn, hm⟩ | ⟨a, b, hn, hm, hab⟩
  · rw [hn, hm]
  · simp only [hn, hm, hab.stringValue_eq]

/-- A member that is refused is refused with the same message. -/
lemma refuseMember_eq (before : String) : refuseMember t n before = refuseMember u m before := by
  rw [refuseMember, refuseMember, h.attribute?_eq ht hu, h.parentTag_eq ht hu]

lemma renderListing_eq (before : String) : renderListing t n before = renderListing u m before := by
  have hlines := map_filter_eq ht hu (h.children ht hu) "codeline" id
  simp only [id_eq] at hlines
  rw [renderListing, renderListing]
  exact congrArg (fun lines => Except.ok (directive _ ("\n".intercalate lines))) hlines

lemma unresolvedReference_eq (before : String) :
    unresolvedReference t n before = unresolvedReference u m before := by
  rw [unresolvedReference, unresolvedReference, h.stringValue_eq, h.tail_eq ht hu]

/-- A reference is written alike, resolved or not. -/
lemma renderReference_eq (index : Resolver) (before : String) :
    renderReference index t n before = renderReference index u m before := by
  rw [renderReference, renderReference, h.attribute?_eq ht hu, unresolvedReference_eq ht hu h,
    h.stringValue_eq, h.tail_eq ht hu]

lemma renderLink_eq (before : String) : renderLink t n before = renderLink u m before := by
  rw [renderLink, renderLink, h.stringValue_eq, h.attribute?_eq ht hu, h.tail_eq ht hu]

lemma renderSpan_eq (span : Span) (before : String) :
    renderSpan span t n before = renderSpan span u m before := by
  rw [renderSpan, renderSpan, h.stringValue_eq, h.tail_eq ht hu]

lemma renderInlineFormula_eq (before : String) :
    renderInlineFormula t n before = renderInlineFormula u m before := by
  rw [renderInlineFormula, renderInlineFormula, h.text_eq ht hu, h.tail_eq ht hu]

lemma renderDisplayFormula_eq (before : String) :
    renderDisplayFormula t n before = renderDisplayFormula u m before := by
  rw [renderDisplayFormula, renderDisplayFormula, h.text_eq ht hu, h.tail_eq ht hu]

lemma renderLinebreak_eq (before : String) :
    renderLinebreak t n before = renderLinebreak u m before := by
  rw [renderLinebreak, renderLinebreak, h.tail_eq ht hu]

lemma renderPlain_eq (before : String) : renderPlain t n before = renderPlain u m before := by
  rw [renderPlain, renderPlain, h.stringValue_eq, h.tail_eq ht hu]

/-! #### Actions that render elements below -/

variable (hbelow : AgreeBelow t u n m render render')

include hbelow

/-- The children are rendered alike, and so is what lies below them: items of lists are not rendered
on their own, but what is in them is. -/
lemma forall₂_children : List.Forall₂
    (fun a b => Alike t u render render' a b ∧ AgreeBelow t u a b render render')
    (t.children n) (u.children m) := by
  have hboth : ∀ a ∈ t.children n, ∀ b ∈ u.children m, Mirrors t u a b →
      Alike t u render render' a b ∧ AgreeBelow t u a b render render' := by
    intro a ha b hb hab
    have han := Tree.mem_ancestors_of_mem_children ht (Or.inl rfl) ha
    have hbm := Tree.mem_ancestors_of_mem_children hu (Or.inl rfl) hb
    exact ⟨⟨hab, hbelow a b han hbm hab⟩, fun c d hc hd =>
      hbelow c d (Tree.ancestors_subset ht hc han) (Tree.ancestors_subset hu hd hbm)⟩
  have hchildren := h.children ht hu
  generalize t.children n = ns at hchildren hboth
  generalize u.children m = ms at hchildren hboth
  induction hchildren with
  | nil => exact .nil
  | cons hab hrest ih =>
    refine .cons (hboth _ List.mem_cons_self _ List.mem_cons_self hab) (ih ?_)
    exact fun a ha b hb => hboth a (List.mem_cons_of_mem _ ha) b (List.mem_cons_of_mem _ hb)

/-- The children are rendered alike, as they mirror each other. -/
lemma alike_children : List.Forall₂ (Alike t u render render') (t.children n) (u.children m) :=
  (forall₂_children ht hu h hbelow).imp fun _ _ hab => hab.1

/-- The first child of a tag is rendered alike. -/
lemma render_child?_cases (tag : String) :
    (child? t n tag = none ∧ child? u m tag = none) ∨
      ∃ a b, child? t n tag = some a ∧ child? u m tag = some b ∧
        ∀ before, render a before = render' b before := by
  refine (child?_cases ht hu h tag).imp_right ?_
  rintro ⟨a, b, hn, hm, hab⟩
  have ha := Tree.mem_ancestors_of_mem_children ht (Or.inl rfl) (List.mem_of_find?_eq_some hn)
  have hb := Tree.mem_ancestors_of_mem_children hu (Or.inl rfl) (List.mem_of_find?_eq_some hm)
  exact ⟨a, b, hn, hm, hbelow a b ha hb hab⟩

lemma renderPara_eq (before : String) :
    renderPara render t n before = renderPara render' u m before := by
  rw [renderPara, renderPara, h.text_eq ht hu]
  exact renderContent_eq_of_alike ht hu (alike_children ht hu h hbelow) _

/-- All children taken as paragraphs are rendered alike. -/
lemma paragraphs_children_eq :
    paragraphs render t n (t.children n) = paragraphs render' u m (u.children m) :=
  paragraphs_eq_of_alike ht hu (h.tag_eq ht hu) (alike_children ht hu h hbelow)

lemma renderDescription_eq (before : String) :
    renderDescription render t n before = renderDescription render' u m before := by
  rw [renderDescription, renderDescription, paragraphs_children_eq ht hu h hbelow]

/-- The descriptions of a member are written alike. -/
lemma memberBody_eq (descriptions : List String) :
    memberBody render t n descriptions = memberBody render' u m descriptions := by
  induction descriptions with
  | nil => rfl
  | cons tag rest ih =>
    rw [memberBody, memberBody, ih]
    rcases render_child?_cases ht hu h hbelow tag with ⟨hn, hm⟩ | ⟨a, b, hn, hm, hrender⟩
    · rw [hn, hm]
    · simp only [hn, hm, hrender]

lemma renderMember_eq (name signature : String) :
    renderMember render t name signature n = renderMember render' u name signature m := by
  rw [renderMember, renderMember, memberBody_eq ht hu h hbelow]

lemma renderFunction_eq (before : String) :
    renderFunction render t n before = renderFunction render' u m before := by
  simp only [renderFunction, field_eq ht hu h, renderMember_eq ht hu h hbelow]

lemma renderDeclaration_eq (name before : String) :
    renderDeclaration render t name n before = renderDeclaration render' u name m before := by
  simp only [renderDeclaration, field_eq ht hu h, renderMember_eq ht hu h hbelow]

lemma renderMacro_eq (before : String) :
    renderMacro render t n before = renderMacro render' u m before := by
  simp only [renderMacro, field_eq ht hu h, renderMember_eq ht hu h hbelow,
    map_filter_eq ht hu (h.children ht hu) "param" Text.trim]

/-- What a section shows below its title is written alike. -/
lemma sectionBody_eq : sectionBody render t n = sectionBody render' u m := by
  have htitle : ∀ a b, Alike t u render render' a b →
      ((t.tag a != "title") = true ↔ (u.tag b != "title") = true) := by
    intro a b hab
    rw [hab.mirrors.tag_eq ht hu]
  have hrow := List.rel_filter htitle (alike_children ht hu h hbelow)
  rw [sectionBody, sectionBody, paragraphs_eq_of_alike ht hu (h.tag_eq ht hu) hrow]

lemma renderSection_eq (before : String) :
    renderSection render t n before = renderSection render' u m before := by
  rw [renderSection, renderSection, sectionBody_eq ht hu h hbelow]

lemma renderDirective_eq (header before : String) :
    renderDirective render t header n before = renderDirective render' u header m before := by
  rw [renderDirective, renderDirective, sectionBody_eq ht hu h hbelow]

lemma renderAdmonition_eq (before : String) :
    renderAdmonition render t n before = renderAdmonition render' u m before := by
  rw [renderAdmonition, renderAdmonition, h.attribute?_eq ht hu,
    renderDirective_eq ht hu h hbelow]

lemma renderTitled_eq (before : String) :
    renderTitled render t n before = renderTitled render' u m before := by
  simp only [renderTitled, field_eq ht hu h, renderDirective_eq ht hu h hbelow]

lemma renderReturn_eq (before : String) :
    renderReturn render t n before = renderReturn render' u m before := by
  rw [renderReturn, renderReturn, sectionBody_eq ht hu h hbelow]

/-- A parameter has the same fields. -/
lemma parameterFields_eq (fieldName : String) :
    parameterFields render t fieldName n = parameterFields render' u fieldName m := by
  rw [parameterFields, parameterFields]
  rcases child?_cases ht hu h "parameternamelist" with ⟨hn, hm⟩ | ⟨a, b, hn, hm, hab⟩
  · rw [hn, hm]
  · rw [hn, hm]
    rcases render_child?_cases ht hu h hbelow "parameterdescription" with
      ⟨hn', hm'⟩ | ⟨c, d, hn', hm', hrender⟩
    · rw [hn', hm']
    · have hnames (rendered : String) := map_filter_eq ht hu (hab.children ht hu) "parametername"
        fun name =>
          Text.trimEnd (fieldItem (":" ++ fieldName ++ " " ++ Text.trim name ++ ": ") rendered)
      simp only [hn', hm', hrender, hnames]

/-- A list of parameters has the same fields, or it is refused alike. -/
lemma parameterItems_eq (fieldName : String) :
    parameterItems render t fieldName n (t.children n) =
      parameterItems render' u fieldName m (u.children m) := by
  have hrow := forall₂_children ht hu h hbelow
  generalize t.children n = ns at hrow
  generalize u.children m = ms at hrow
  induction hrow with
  | nil => rfl
  | cons hab hrest ih =>
    obtain ⟨⟨hab, -⟩, hbelow'⟩ := hab
    rw [parameterItems, parameterItems, hab.tag_eq ht hu, h.tag_eq ht hu,
      parameterFields_eq ht hu hab hbelow', ih]

lemma renderParameterList_eq (before : String) :
    renderParameterList render t n before = renderParameterList render' u m before := by
  simp only [renderParameterList, h.attribute?_eq ht hu, h.parentTag_eq ht hu,
    parameterItems_eq ht hu h hbelow]

/-- A list has the same items, or it is refused alike. -/
lemma listItems_eq (bullet : String) :
    listItems render t bullet n (t.children n) = listItems render' u bullet m (u.children m) := by
  have hrow := forall₂_children ht hu h hbelow
  generalize t.children n = ns at hrow
  generalize u.children m = ms at hrow
  induction hrow with
  | nil => rfl
  | cons hab hrest ih =>
    obtain ⟨⟨hab, -⟩, hbelow'⟩ := hab
    rw [listItems, listItems, hab.tag_eq ht hu, h.tag_eq ht hu,
      paragraphs_children_eq ht hu hab hbelow', ih]

lemma renderList_eq (bullet before : String) :
    renderList render t bullet n before = renderList render' u bullet m before := by
  rw [renderList, renderList, listItems_eq ht hu h hbelow]

/-- The rules of the recipe render elements that mirror one another alike, given renderings that
agree below these. -/
theorem action_eq {index : Resolver} {r : Rule (Render → Tree → Render)} (hr : r ∈ rules index)
    (before : String) : r.action render t n before = r.action render' u m before := by
  fin_cases hr
  exacts [renderFunction_eq ht hu h hbelow before, renderDeclaration_eq ht hu h hbelow _ before,
    renderMacro_eq ht hu h hbelow before, renderDeclaration_eq ht hu h hbelow _ before,
    refuseMember_eq ht hu h before, renderDescription_eq ht hu h hbelow before,
    renderReturn_eq ht hu h hbelow before, renderAdmonition_eq ht hu h hbelow before,
    renderDirective_eq ht hu h hbelow _ before, renderDirective_eq ht hu h hbelow _ before,
    renderTitled_eq ht hu h hbelow before, renderSection_eq ht hu h hbelow before,
    renderParameterList_eq ht hu h hbelow before, renderList_eq ht hu h hbelow _ before,
    renderList_eq ht hu h hbelow _ before, renderListing_eq ht hu h before,
    unresolvedReference_eq ht hu h before, renderReference_eq ht hu h index before,
    renderLink_eq ht hu h before, renderSpan_eq ht hu h _ before, renderSpan_eq ht hu h _ before,
    renderSpan_eq ht hu h _ before, renderSpan_eq ht hu h _ before, renderSpan_eq ht hu h _ before,
    renderDisplayFormula_eq ht hu h before, renderInlineFormula_eq ht hu h before,
    renderLinebreak_eq ht hu h before, renderPlain_eq ht hu h before,
    renderPara_eq ht hu h hbelow before]

end Actions

/-! ### Whole renderings -/

section Whole

variable (ht : t.WellFormed) (hu : u.WellFormed)

include ht hu

/-- Renderings that are nested deep enough render elements that mirror one another alike. -/
lemma Mirrors.renderWithin_eq (h : Mirrors t u n m) (index : Resolver) (depth depth' : Nat)
    (hdepth : (t.descendants n).length < depth) (hdepth' : (u.descendants m).length < depth')
    (before : String) :
    (renderer index).renderWithin t depth n before =
      (renderer index).renderWithin u depth' m before := by
  induction depth generalizing depth' n m before with
  | zero => omega
  | succ depth ih =>
    obtain ⟨depth', rfl⟩ : ∃ k, depth' = k + 1 := ⟨depth' - 1, by omega⟩
    have hbelow : AgreeBelow t u n m ((renderer index).renderWithin t depth)
        ((renderer index).renderWithin u depth') := by
      intro a b ha hb hab
      have hlt := Tree.length_descendants_lt ht ha
      have hlt' := Tree.length_descendants_lt hu hb
      exact ih hab depth' (by omega) (by omega)
    have hdispatch := h.dispatch_eq ht hu index
    rw [Renderer.renderWithin, Renderer.renderWithin]
    simp only [renderer] at hbelow ⊢
    rw [hdispatch]
    cases hrule : Rule.dispatch (rules index) u m with
    | none => simp only [h.stringValue_eq]
    | some r => exact action_eq ht hu h hbelow (List.mem_of_find?_eq_some hrule) before

/-- **Elements that mirror one another are rendered alike.** -/
theorem Mirrors.render_eq (h : Mirrors t u n m) (index : Resolver) (before : String) :
    render index t n before = render index u m before := by
  have hn : (t.descendants n).length < t.size + 1 :=
    Nat.lt_succ_of_le (Tree.length_descendants_le ht n)
  have hm : (u.descendants m).length < u.size + 1 :=
    Nat.lt_succ_of_le (Tree.length_descendants_le hu m)
  exact h.renderWithin_eq ht hu index _ _ hn hm before

end Whole

end DoxygenRest.Rest

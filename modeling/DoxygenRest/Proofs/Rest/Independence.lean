import DoxygenRest.Proofs.Rest.Inline
import DoxygenRest.Proofs.Rest.Mirror
import DoxygenRest.Proofs.Tree.Specimen

/-!
# What rendering does not depend on

The text in front of an element and the targets of references decide how spans are written, and
nothing else.  Two renderings of one element both succeed or fail with the same error, whatever
they are given of either (`FailAlike`): outputs differ between the two, and so do the tests on
outputs, but no error depends on such a test.  The outputs are the same if the last characters in
front are, and the targets of the references in the element (`render_independent`).
-/

namespace DoxygenRest.Rest

/-! ### Failing alike -/

/-- Both succeed, or both fail with the same error. -/
inductive FailAlike {α β : Type} : Except PassError α → Except PassError β → Prop
  | ok (a : α) (b : β) : FailAlike (.ok a) (.ok b)
  | error (failure : PassError) : FailAlike (.error failure) (.error failure)

namespace FailAlike

variable {α β γ δ : Type} {x : Except PassError α} {y : Except PassError β}

/-- A result fails like itself. -/
lemma refl (x : Except PassError α) : FailAlike x x := by
  cases x with
  | ok a => exact ok a a
  | error failure => exact error failure

/-- What fails alike goes on to fail alike if what follows does, whatever it is given. -/
lemma bind {f : α → Except PassError γ} {g : β → Except PassError δ} (h : FailAlike x y)
    (hnext : ∀ a b, FailAlike (f a) (g b)) : FailAlike (x >>= f) (y >>= g) := by
  cases h with
  | ok a b => exact hnext a b
  | error failure => exact error failure

/-- What is done with the value of a result does not change how it fails. -/
lemma map (f : α → γ) (g : β → δ) (h : FailAlike x y) : FailAlike (x.map f) (y.map g) := by
  cases h with
  | ok a b => exact ok _ _
  | error failure => exact error failure

/-- A test that is the same for both refuses both with the same error. -/
lemma refuse (p : Prop) [Decidable p] (failure : PassError) {x : Except PassError α}
    {y : Except PassError β} (h : FailAlike x y) :
    FailAlike (if p then .error failure else x) (if p then .error failure else y) := by
  split
  · exact error failure
  · exact h

end FailAlike

/-! ### Actions -/

/-- References do not fail. -/
lemma failAlike_renderReference (index index' : Resolver) (t : Tree) (n : NodeId)
    (before before' : String) :
    FailAlike (renderReference index t n before) (renderReference index' t n before') := by
  have hok (index : Resolver) (before : String) :
      ∃ out, renderReference index t n before = .ok out := by
    unfold renderReference
    split
    · exact ⟨_, rfl⟩
    · split <;> exact ⟨_, rfl⟩
  obtain ⟨out, hout⟩ := hok index before
  obtain ⟨out', hout'⟩ := hok index' before'
  rw [hout, hout']
  exact .ok out out'

section Actions

variable {render render' : Render} (h : ∀ c out out', FailAlike (render c out) (render' c out'))
variable (t : Tree) (n : NodeId)

include h

/-- Content fails where an element in it does, whatever has been written in front. -/
lemma failAlike_renderContent (row : List NodeId) (out out' : String) :
    FailAlike (renderContent render t row out) (renderContent render' t row out') := by
  induction row generalizing out out' with
  | nil => exact .ok _ _
  | cons child rest ih => exact (h child _ _).bind fun _ _ => ih _ _

lemma failAlike_renderPara (before before' : String) :
    FailAlike (renderPara render t n before) (renderPara render' t n before') :=
  failAlike_renderContent h t _ _ _

/-- A row of paragraphs fails alike: at what is no paragraph, or where one fails. -/
lemma failAlike_paragraphs (owner : NodeId) (row : List NodeId) :
    FailAlike (paragraphs render t owner row) (paragraphs render' t owner row) := by
  induction row with
  | nil => exact .ok _ _
  | cons child rest ih =>
    refine FailAlike.refuse (t.tag child ≠ "para") _ ?_
    exact (h child _ _).bind fun _ _ => ih.bind fun _ _ => .ok _ _

lemma failAlike_renderDescription (before before' : String) :
    FailAlike (renderDescription render t n before) (renderDescription render' t n before') :=
  (failAlike_paragraphs h t n _).map _ _

/-- The body of a section fails alike. -/
lemma failAlike_sectionBody : FailAlike (sectionBody render t n) (sectionBody render' t n) :=
  (failAlike_paragraphs h t n _).map _ _

lemma failAlike_renderSection (before before' : String) :
    FailAlike (renderSection render t n before) (renderSection render' t n before') :=
  (failAlike_sectionBody h t n).bind fun _ _ => .ok _ _

lemma failAlike_renderDirective (header header' before before' : String) :
    FailAlike (renderDirective render t header n before)
      (renderDirective render' t header' n before') :=
  (failAlike_sectionBody h t n).bind fun _ _ => .ok _ _

lemma failAlike_renderAdmonition (before before' : String) :
    FailAlike (renderAdmonition render t n before) (renderAdmonition render' t n before') :=
  failAlike_renderDirective h t n _ _ _ _

lemma failAlike_renderTitled (before before' : String) :
    FailAlike (renderTitled render t n before) (renderTitled render' t n before') :=
  (FailAlike.refl _).bind fun _ _ => failAlike_renderDirective h t n _ _ _ _

lemma failAlike_renderReturn (before before' : String) :
    FailAlike (renderReturn render t n before) (renderReturn render' t n before') :=
  (failAlike_sectionBody h t n).bind fun _ _ => .ok _ _

/-- The fields of a parameter fail alike: at a part that is missing, or in the description. -/
lemma failAlike_parameterFields (fieldName : String) :
    FailAlike (parameterFields render t fieldName n) (parameterFields render' t fieldName n) := by
  unfold parameterFields
  cases child? t n "parameternamelist" with
  | none => exact .error _
  | some names =>
    cases child? t n "parameterdescription" with
    | none => exact .error _
    | some description => exact (h description _ _).bind fun _ _ => .ok _ _

/-- A list of parameters fails alike. -/
lemma failAlike_parameterItems (fieldName : String) (owner : NodeId) (row : List NodeId) :
    FailAlike (parameterItems render t fieldName owner row)
      (parameterItems render' t fieldName owner row) := by
  induction row with
  | nil => exact .ok _ _
  | cons item rest ih =>
    refine FailAlike.refuse (t.tag item ≠ "parameteritem") _ ?_
    exact (failAlike_parameterFields h t item fieldName).bind fun _ _ => ih.bind fun _ _ => .ok _ _

lemma failAlike_renderParameterList (before before' : String) :
    FailAlike (renderParameterList render t n before) (renderParameterList render' t n before') := by
  unfold renderParameterList
  dsimp only
  cases fieldName? ((t.attribute? n "kind").getD "") with
  | none => exact .error _
  | some fieldName => exact (failAlike_parameterItems h t fieldName n _).bind fun _ _ => .ok _ _

/-- The items of a list fail alike. -/
lemma failAlike_listItems (bullet : String) (owner : NodeId) (row : List NodeId) :
    FailAlike (listItems render t bullet owner row) (listItems render' t bullet owner row) := by
  induction row with
  | nil => exact .ok _ _
  | cons item rest ih =>
    refine FailAlike.refuse (t.tag item ≠ "listitem") _ ?_
    refine ((failAlike_paragraphs h t item _).map _ _).bind fun _ _ => ?_
    exact ih.bind fun _ _ => .ok _ _

lemma failAlike_renderList (bullet before before' : String) :
    FailAlike (renderList render t bullet n before) (renderList render' t bullet n before') :=
  (failAlike_listItems h t bullet n _).bind fun _ _ => .ok _ _

/-- The body of a member fails alike. -/
lemma failAlike_memberBody (descriptions : List String) :
    FailAlike (memberBody render t n descriptions) (memberBody render' t n descriptions) := by
  induction descriptions with
  | nil => exact .ok _ _
  | cons tag rest ih =>
    rw [memberBody, memberBody]
    cases child? t n tag with
    | none => exact ih
    | some description =>
      refine (h description _ _).bind fun _ _ => ih.bind fun _ _ => ?_
      -- A blank description is left out in one of the two, but it fails in neither.
      split <;> split <;> exact .ok _ _

lemma failAlike_renderMember (name signature signature' : String) :
    FailAlike (renderMember render t name signature n)
      (renderMember render' t name signature' n) :=
  (failAlike_memberBody h t n _).bind fun _ _ => .ok _ _

lemma failAlike_renderFunction (before before' : String) :
    FailAlike (renderFunction render t n before) (renderFunction render' t n before') :=
  (FailAlike.refl _).bind fun _ _ => (FailAlike.refl _).bind fun _ _ =>
    failAlike_renderMember h t n _ _ _

lemma failAlike_renderDeclaration (name before before' : String) :
    FailAlike (renderDeclaration render t name n before)
      (renderDeclaration render' t name n before') :=
  (FailAlike.refl _).bind fun _ _ => (FailAlike.refl _).bind fun _ _ =>
    failAlike_renderMember h t n _ _ _

lemma failAlike_renderMacro (before before' : String) :
    FailAlike (renderMacro render t n before) (renderMacro render' t n before') :=
  (FailAlike.refl _).bind fun _ _ => failAlike_renderMember h t n _ _ _

/-- The rules of the recipe fail alike, given renderings that do. -/
theorem failAlike_action {index : Resolver} {r : Rule (Render → Tree → Render)}
    (hr : r ∈ rules index) (before before' : String) :
    FailAlike (r.action render t n before) (r.action render' t n before') := by
  fin_cases hr
  exacts [failAlike_renderFunction h t n before before',
    failAlike_renderDeclaration h t n _ before before', failAlike_renderMacro h t n before before',
    failAlike_renderDeclaration h t n _ before before', .refl _,
    failAlike_renderDescription h t n before before', failAlike_renderReturn h t n before before',
    failAlike_renderAdmonition h t n before before',
    failAlike_renderDirective h t n _ _ before before',
    failAlike_renderDirective h t n _ _ before before', failAlike_renderTitled h t n before before',
    failAlike_renderSection h t n before before',
    failAlike_renderParameterList h t n before before',
    failAlike_renderList h t n _ before before', failAlike_renderList h t n _ before before',
    .refl _, .ok _ _, failAlike_renderReference index index t n before before', .ok _ _, .ok _ _,
    .ok _ _, .ok _ _, .ok _ _, .ok _ _, .refl _, .ok _ _, .refl _, .refl _,
    failAlike_renderPara h t n before before']

end Actions

/-! ### The choice of a rule -/

/-- The targets of references do not decide which rule handles an element: the rules in front of the
one for references are the same for all targets, and so are those behind it. -/
lemma dispatch_cases (index index' : Resolver) (t : Tree) (n : NodeId) :
    Rule.dispatch (rules index) t n = Rule.dispatch (rules index') t n ∨
      Rule.dispatch (rules index) t n = some (referenceRule index) ∧
        Rule.dispatch (rules index') t n = some (referenceRule index') := by
  have hsplit (index : Resolver) : rules index =
      (rules Resolver.none).take 17 ++ referenceRule index :: (rules Resolver.none).drop 18 := rfl
  have haccepts : (referenceRule index).accepts t n = (referenceRule index').accepts t n := rfl
  rw [Rule.dispatch, Rule.dispatch, hsplit index, hsplit index', List.find?_append,
    List.find?_append, List.find?_cons, List.find?_cons, haccepts]
  cases ((rules Resolver.none).take 17).find? fun r => r.accepts t n with
  | some r => exact Or.inl rfl
  | none =>
    cases (referenceRule index').accepts t n with
    | true => exact Or.inr ⟨rfl, rfl⟩
    | false => exact Or.inl rfl

/-- Two renderings of one element fail alike. -/
theorem failAlike_renderWithin (index index' : Resolver) (t : Tree) (depth : Nat) (n : NodeId)
    (before before' : String) : FailAlike ((renderer index).renderWithin t depth n before)
      ((renderer index').renderWithin t depth n before') := by
  induction depth generalizing n before before' with
  | zero => exact .ok _ _
  | succ depth ih =>
    rw [Renderer.renderWithin, Renderer.renderWithin]
    simp only [renderer] at ih ⊢
    rcases dispatch_cases index index' t n with hsame | ⟨hrule, hrule'⟩
    · rw [hsame]
      cases hrule : Rule.dispatch (rules index') t n with
      | none => exact .ok _ _
      | some r => exact failAlike_action ih t n (List.mem_of_find?_eq_some hrule) before before'
    · rw [hrule, hrule']
      exact failAlike_renderReference index index' t n before before'

/-! ### What is in front of an element -/

/-- Of the text in front of a span, the last character alone matters. -/
lemma wrap_eq_of_getLast?_eq {before before' : String}
    (h : before.toList.getLast? = before'.toList.getLast?) (opening inner closing tail : String) :
    wrap opening inner closing tail before = wrap opening inner closing tail before' := by
  rw [wrap, wrap, leadingEscape, leadingEscape, h]

section Before

variable {before before' : String} (h : before.toList.getLast? = before'.toList.getLast?)

include h

/-- A reference that is not resolved looks at the last character in front of it only. -/
lemma unresolvedReference_eq_of_getLast?_eq (t : Tree) (n : NodeId) :
    unresolvedReference t n before = unresolvedReference t n before' :=
  congrArg Except.ok (wrap_eq_of_getLast?_eq h _ _ _ _)

/-- References to the same target are rendered alike. -/
lemma renderReference_eq_of_getLast?_eq {index index' : Resolver} (t : Tree) (n : NodeId)
    (hindex : (t.attribute? n "refid").bind index = (t.attribute? n "refid").bind index') :
    renderReference index t n before = renderReference index' t n before' := by
  unfold renderReference
  rw [hindex, unresolvedReference_eq_of_getLast?_eq h]
  cases (t.attribute? n "refid").bind index' with
  | none => rfl
  | some target =>
    dsimp only
    cases roleOf? target.kind with
    | none => rfl
    | some role => exact congrArg Except.ok (wrap_eq_of_getLast?_eq h _ _ _ _)

/-- The rules of the recipe look at no more than the last character in front of an element. -/
theorem action_eq_of_getLast?_eq {index : Resolver} {r : Rule (Render → Tree → Render)}
    (hr : r ∈ rules index) (render : Render) (t : Tree) (n : NodeId) :
    r.action render t n before = r.action render t n before' := by
  have hspan (opening inner closing : String) :
      (.ok (wrap opening inner closing (t.tail n) before) : Except PassError String) =
        .ok (wrap opening inner closing (t.tail n) before') :=
    congrArg Except.ok (wrap_eq_of_getLast?_eq h _ _ _ _)
  fin_cases hr
  exacts [rfl, rfl, rfl, rfl, rfl, rfl, rfl, rfl, rfl, rfl, rfl, rfl, rfl, rfl, rfl, rfl,
    hspan _ _ _, renderReference_eq_of_getLast?_eq h t n rfl, hspan _ _ _, hspan _ _ _,
    hspan _ _ _, hspan _ _ _, hspan _ _ _, hspan _ _ _, rfl, hspan _ _ _, rfl, rfl, rfl]

end Before

/-! ### Whole renderings -/

/-- Two resolvers find the same targets for the references of an element and of those below it. -/
def ResolveAlike (index index' : Resolver) (t : Tree) (n : NodeId) : Prop :=
  ∀ m, m = n ∨ n ∈ t.ancestors m → ∀ id, t.attribute? m "refid" = some id → index id = index' id

section Whole

variable {index index' : Resolver} {t : Tree} (h : t.WellFormed) {n : NodeId}

/-- Two indexes that resolve the references of an element alike give it the same target. -/
lemma ResolveAlike.bind_eq (hindex : ResolveAlike index index' t n) :
    (t.attribute? n "refid").bind index = (t.attribute? n "refid").bind index' := by
  cases hid : t.attribute? n "refid" with
  | none => rfl
  | some id => exact hindex n (Or.inl rfl) id hid

include h

/-- Indexes that agree on an element agree on what is below it. -/
lemma ResolveAlike.of_ancestor {c : NodeId} (hindex : ResolveAlike index index' t n)
    (hc : n ∈ t.ancestors c) : ResolveAlike index index' t c := by
  rintro m (rfl | hm)
  · exact hindex m (Or.inr hc)
  · exact hindex m (Or.inr (Tree.ancestors_subset h hm hc))

/-- Renderings that are nested deep enough are the same if the targets of references and the last
characters in front are. -/
lemma renderWithin_eq_of_resolveAlike (depth : Nat) (hdepth : (t.descendants n).length < depth)
    (hindex : ResolveAlike index index' t n) {before before' : String}
    (hbefore : before.toList.getLast? = before'.toList.getLast?) :
    (renderer index).renderWithin t depth n before =
      (renderer index').renderWithin t depth n before' := by
  induction depth generalizing n before before' with
  | zero => omega
  | succ depth ih =>
    have hbelow : AgreeBelow t t n n ((renderer index).renderWithin t depth)
        ((renderer index').renderWithin t depth) := by
      intro a b ha hb hab out
      have hlt := Tree.length_descendants_lt h ha
      have hlt' := Tree.length_descendants_lt h hb
      rw [ih (by omega) (hindex.of_ancestor h ha) rfl]
      exact hab.renderWithin_eq h h index' depth depth (by omega) (by omega) out
    rw [Renderer.renderWithin, Renderer.renderWithin]
    simp only [renderer] at hbelow ⊢
    rcases dispatch_cases index index' t n with hsame | ⟨hrule, hrule'⟩
    · rw [hsame]
      cases hrule : Rule.dispatch (rules index') t n with
      | none => rfl
      | some r =>
        have hr := List.mem_of_find?_eq_some hrule
        dsimp only
        rw [action_eq h h (.refl t n) hbelow hr, action_eq_of_getLast?_eq hbefore hr]
    · rw [hrule, hrule']
      exact renderReference_eq_of_getLast?_eq hbefore t n hindex.bind_eq

/-- **Rendering depends on its context only for the spans**: an element is rendered, or the same
error found, whatever stands in front of it and whatever references lead to.  The output is the same
if the last characters in front are, and the targets of the references in the element. -/
theorem render_independent (n : NodeId) (index index' : Resolver) (before before' : String) :
    FailAlike (render index t n before) (render index' t n before') ∧
      (before.toList.getLast? = before'.toList.getLast? → ResolveAlike index index' t n →
        render index t n before = render index' t n before') := by
  have hdepth : (t.descendants n).length < t.size + 1 :=
    Nat.lt_succ_of_le (Tree.length_descendants_le h n)
  refine ⟨failAlike_renderWithin index index' t _ n before before', fun hbefore hindex => ?_⟩
  exact renderWithin_eq_of_resolveAlike h _ hdepth hindex hbefore

end Whole

/-- A reference behind a span:

    <para><bold>a</bold><ref refid="f">b</ref></para>
-/
def referring : Tree :=
  ⟨#[{ tag := "para", children := [1, 2] },
    { tag := "bold", text := some "a", parent := some 0 },
    { tag := "ref", attributes := .ofList [("refid", "f")], text := some "b", parent := some 0 }]⟩

/-- The resolver that finds a function for one reference. -/
def findsFunction : Resolver := fun id => if id = "f" then some ⟨.function, "b"⟩ else none

/-- The resolver that finds functions for all references. -/
def findsFunctions : Resolver := fun _ => some ⟨.function, "b"⟩

/-- The two resolvers differ, but for the paragraph above they make no difference. -/
theorem render_independent_referring :
    referring.WellFormed ∧ findsFunction "g" ≠ findsFunctions "g" ∧
      FailAlike (render findsFunction referring 0 "x") (render findsFunctions referring 0 "yx") ∧
      render findsFunctions referring 0 "yx" = .ok "**a**\\ :c:func:`b`" ∧
      render findsFunction referring 0 "x" = render findsFunctions referring 0 "yx" := by
  have hwellFormed : referring.WellFormed := Tree.wellFormed_of_ordered (by decide)
  have hindex : ResolveAlike findsFunction findsFunctions referring 0 := by
    intro m hm id hid
    have hlt : m < 3 := by
      rcases hm with rfl | hbelow
      · decide
      · exact Tree.lt_size_of_below hwellFormed hbelow
    have hall : ∀ m < 3, ∀ id ∈ referring.attribute? m "refid", id = "f" := by decide
    rw [hall m hlt id hid]
    rfl
  obtain ⟨hfail, heq⟩ :=
    render_independent hwellFormed 0 findsFunction findsFunctions "x" "yx"
  exact ⟨hwellFormed, by decide, hfail, by decide +kernel, heq rfl hindex⟩

end DoxygenRest.Rest

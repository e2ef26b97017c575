import DoxygenRest.Proofs.Rule
import DoxygenRest.Proofs.Adjust.Context

/-!
# Which rule treats an element

Of the rules of the adjusting pass the first one that accepts an element treats it.  Which one that
is, depends on the element's context, on the sibling before it, and on the branch at it; `treatment`
tells it as one chain of cases, and `handle_eq_run` shows that the pass does as it says.
-/

namespace DoxygenRest

/-! ### Guards -/

namespace Query

/-- A list is empty after additions if it was before and nothing was added. -/
lemma addNew_eq_nil {selected more : List NodeId} :
    addNew selected more = [] ↔ selected = [] ∧ more = [] := by
  induction more generalizing selected with
  | nil => simp [addNew]
  | cons n more ih =>
    have hcons : addNew selected (n :: more) =
        addNew (if selected.contains n then selected else selected ++ [n]) more := rfl
    rw [hcons, ih]
    split
    · next h =>
      constructor
      · rintro ⟨rfl, -⟩
        simp at h
      · rintro ⟨-, h⟩
        cases h
    · simp

/-- A path of one step selects something if the step does. -/
lemma select_path_eq_nil {t : Tree} {n : NodeId} {s : Step} :
    (Expr.path [s]).select t n = [] ↔ s.select t n = [] := by
  have hselect : (Expr.path [s]).select t n = addNew [] (s.select t n) := rfl
  rw [hselect, addNew_eq_nil]
  simp

end Query

namespace Adjust

open Branch
open Cursor (Edit)

/-- There is a child if the children are not none. -/
lemma holds_anyChild (t : Tree) (n : NodeId) :
    anyChild.holds t n = true ↔ t.children n ≠ [] := by
  have hselect : (Query.Step.mk .child .any []).select t n = t.children n := by
    simp [Query.Step.select, Query.Axis.select, Query.NameTest.accepts]
  rw [Query.holds, Query.select, Bool.not_eq_true', ← Bool.not_eq_true, List.isEmpty_iff]
  rw [anyChild, Query.select_path_eq_nil, hselect]

/-- There is a section right before if the previous sibling is one. -/
lemma holds_sectionBefore (t : Tree) (n : NodeId) :
    sectionBefore.holds t n = true ↔ ∃ m, t.previousSibling? n = some m ∧ t.tag m = "simplesect" := by
  have hselect : (Query.Step.mk .precedingSibling .any [.position 1, .selfTag "simplesect"]).select
      t n = (t.previousSibling? n).toList.filter fun m => t.tag m == "simplesect" := by
    simp [Query.Step.select, Query.Axis.select, Query.NameTest.accepts, Query.Predicate.filter,
      Tree.previousSibling?, List.head?_eq_getElem?]
  rw [Query.holds, Query.select, Bool.not_eq_true', ← Bool.not_eq_true, List.isEmpty_iff]
  rw [sectionBefore, Query.select_path_eq_nil, hselect]
  cases t.previousSibling? n with
  | none => simp
  | some m => simp

/-! ### Treatments -/

/-- What can be done to an element. -/
inductive Treatment where
  /-- Put a text in its place. -/
  | replace (text : String)
  | remove
  | flatten
  | lift
  | trim
  | absorb
  | divide
  /-- Nothing; the walk goes on. -/
  | advance
  deriving DecidableEq

/-- The treatment of an element, by its context, the sibling before it, and the branch at it. -/
def treatment (k : Context) (previous? : Option Entry) (x : Branch) : Treatment :=
  if x.own.tag = "ref" ∧ k.highlighted then .replace x.stringValue
  else if x.own.tag = "sp" ∧ k.highlighted then .replace " "
  else if x.own.tag = "linebreak" then .replace "\n"
  else if x.own.tag ∈ Schema.presentationTags then .remove
  else if x.own.tag ∈ Schema.inlineTags ∧ x.markup = .inline ∧ x.isEmpty then .remove
  else if x.own.tag = "ulink" ∧ x.children ≠ [] then .flatten
  else if x.own.tag ∈ Schema.inlineTags ∧ x.children ≠ [] then .lift
  else if x.own.tag ∈ Schema.inlineTags ∧ x.markup = .inline ∧ Text.hasOuterBlanks x.text then
    .trim
  else if x.own.tag = "simplesect" ∧ x.isEmpty then .remove
  else if x.own.tag = "simplesect" ∧ previous?.any (·.tag == "simplesect") then .absorb
  else if x.own.tag = "para" ∧ x.isEmpty then .remove
  else if x.own.tag = "para" then .divide
  else .advance

/-! ### What a treatment tells about the element -/

/-- The grounds for a treatment: what an element that gets it is like. -/
inductive Grounds (k : Context) (previous? : Option Entry) (x : Branch) : Treatment → Prop where
  | reference (htag : x.own.tag = "ref") (hk : k.highlighted) :
      Grounds k previous? x (.replace x.stringValue)
  | space (htag : x.own.tag = "sp") (hk : k.highlighted) : Grounds k previous? x (.replace " ")
  | linebreak (htag : x.own.tag = "linebreak") : Grounds k previous? x (.replace "\n")
  | presentation (htag : x.own.tag ∈ Schema.presentationTags) : Grounds k previous? x .remove
  | empty (hkind : x.markup = .inline ∨ x.own.tag = "simplesect" ∨ x.own.tag = "para")
      (hempty : x.isEmpty) : Grounds k previous? x .remove
  | link (htag : x.own.tag = "ulink") (hchildren : x.children ≠ []) :
      Grounds k previous? x .flatten
  | nested (href : ¬(x.own.tag = "ref" ∧ k.highlighted)) (htag : x.own.tag ∈ Schema.inlineTags)
      (hchildren : x.children ≠ []) : Grounds k previous? x .lift
  | untrimmed (href : ¬(x.own.tag = "ref" ∧ k.highlighted)) (hinline : x.markup = .inline)
      (hchildren : x.children = []) (hblanks : Text.hasOuterBlanks x.text) :
      Grounds k previous? x .trim
  | laterSection (htag : x.own.tag = "simplesect") (hempty : ¬x.isEmpty)
      (hprevious : ∃ e ∈ previous?, e.tag = "simplesect") : Grounds k previous? x .absorb
  | paragraph (htag : x.own.tag = "para") (hempty : ¬x.isEmpty) : Grounds k previous? x .divide
  | fine (href : ¬(x.own.tag = "ref" ∧ k.highlighted)) (hsp : ¬(x.own.tag = "sp" ∧ k.highlighted))
      (hbreak : x.own.tag ≠ "linebreak") (hpresentation : x.own.tag ∉ Schema.presentationTags)
      (hchildren : x.own.tag ∈ Schema.inlineTags → x.children = [])
      (hinline : x.markup = .inline → ¬x.isEmpty ∧ ¬Text.hasOuterBlanks x.text)
      (hsection : x.own.tag = "simplesect" → ¬x.isEmpty ∧ ¬∃ e ∈ previous?, e.tag = "simplesect")
      (hparagraph : x.own.tag ≠ "para") : Grounds k previous? x .advance

/-- Each treatment is given on its grounds. -/
theorem grounds {k : Context} {previous? : Option Entry} {x : Branch} {τ : Treatment}
    (h : treatment k previous? x = τ) : Grounds k previous? x τ := by
  subst h
  have hany : previous?.any (·.tag == "simplesect") = true ↔
      ∃ e ∈ previous?, e.tag = "simplesect" := by
    cases previous? <;> simp
  refine iteInduction (fun h => .reference h.1 h.2) fun href => ?_
  refine iteInduction (fun h => .space h.1 h.2) fun hsp => ?_
  refine iteInduction (fun h => .linebreak h) fun hbreak => ?_
  refine iteInduction (fun h => .presentation h) fun hpresentation => ?_
  refine iteInduction (fun h => .empty (Or.inl h.2.1) h.2.2) fun hempty => ?_
  refine iteInduction (fun h => .link h.1 h.2) fun _ => ?_
  refine iteInduction (fun h => .nested href h.1 h.2) fun hnested => ?_
  have hchildren : x.own.tag ∈ Schema.inlineTags → x.children = [] :=
    fun htag => not_not.1 fun hne => hnested ⟨htag, hne⟩
  refine iteInduction (fun h => .untrimmed href h.2.1 (hchildren h.1) h.2.2) fun htrimmed => ?_
  refine iteInduction (fun h => .empty (Or.inr (Or.inl h.1)) h.2) fun hsection => ?_
  refine iteInduction (fun h => .laterSection h.1 (fun hx => hsection ⟨h.1, hx⟩) (hany.1 h.2))
    fun hlater => ?_
  refine iteInduction (fun h => .empty (Or.inr (Or.inr h.1)) h.2) fun hpara => ?_
  refine iteInduction (fun h => .paragraph h fun hx => hpara ⟨h, hx⟩) fun hparagraph => ?_
  refine .fine href hsp hbreak hpresentation hchildren (fun hinline => ?_) (fun htag => ?_)
    hparagraph
  · have htag := Entry.mem_inlineTags_of_markup hinline
    exact ⟨fun hx => hempty ⟨htag, hinline, hx⟩, fun hx => htrimmed ⟨htag, hinline, hx⟩⟩
  · exact ⟨fun hx => hsection ⟨htag, hx⟩, fun hx => hlater ⟨htag, hany.2 hx⟩⟩

/-- Elements with these tags are never treated, whatever they hold and wherever they stand. -/
def IsPlain (tag : String) : Prop :=
  tag ∉ Schema.inlineTags ∧ tag ≠ "para" ∧ tag ≠ "simplesect" ∧ tag ≠ "sp"

lemma treatment_of_isPlain (k : Context) (previous? : Option Entry) {x : Branch}
    (hx : IsPlain x.own.tag) : treatment k previous? x = .advance := by
  obtain ⟨hinline, hpara, hsection, hsp⟩ := hx
  have hne {tag : String} (htag : tag ∈ Schema.inlineTags) : x.own.tag ≠ tag :=
    fun heq => hinline (heq ▸ htag)
  have hpresentation : x.own.tag ∉ Schema.presentationTags := by
    have hsubset : Schema.presentationTags ⊆ Schema.inlineTags := by decide
    exact fun htag => hinline (hsubset htag)
  simp [treatment, hinline, hpara, hsection, hsp, hpresentation,
    hne (show "ref" ∈ Schema.inlineTags by decide),
    hne (show "linebreak" ∈ Schema.inlineTags by decide),
    hne (show "ulink" ∈ Schema.inlineTags by decide)]

/-- A line break is replaced. -/
lemma treatment_linebreak (k : Context) (previous? : Option Entry) {x : Branch}
    (htag : x.own.tag = "linebreak") : treatment k previous? x = .replace "\n" := by
  simp [treatment, htag]

/-- In a highlight, an element for a space is replaced. -/
lemma treatment_space {k : Context} (previous? : Option Entry) {x : Branch}
    (htag : x.own.tag = "sp") (hk : k.highlighted = true) : treatment k previous? x = .replace " " := by
  simp [treatment, htag, hk]

/-- An element that is meant for presentation alone is removed. -/
lemma treatment_presentation (k : Context) (previous? : Option Entry) {x : Branch}
    (htag : x.own.tag ∈ Schema.presentationTags) : treatment k previous? x = .remove := by
  have hne {tag : String} (hout : tag ∉ Schema.presentationTags) : x.own.tag ≠ tag :=
    fun heq => hout (heq ▸ htag)
  simp [treatment, htag, hne (show "ref" ∉ Schema.presentationTags by decide),
    hne (show "sp" ∉ Schema.presentationTags by decide),
    hne (show "linebreak" ∉ Schema.presentationTags by decide)]

/-- Nothing is lifted out of a link. -/
lemma tag_ne_of_lift {k : Context} {previous? : Option Entry} {x : Branch}
    (h : treatment k previous? x = .lift) : x.own.tag ≠ "ulink" := by
  intro htag
  have hinline : "ulink" ∈ Schema.inlineTags := by decide
  have hvisible : "ulink" ∉ Schema.presentationTags := by decide
  cases grounds h with
  | nested href _ hchildren =>
    have hempty : x.isEmpty = false := by simp [Branch.isEmpty, hchildren]
    simp [treatment, htag, hinline, hvisible, hchildren, hempty] at h

/-! ### The rules give the treatments -/

/-- Give a treatment to the current element. -/
def Treatment.run : Treatment → Edit Unit
  | .replace text => do textualize (← current) text
  | .remove => removeCurrent
  | .flatten => flattenLink
  | .lift => liftNested
  | .trim => trimCurrent
  | .absorb => Adjust.absorb
  | .divide => dividePara
  | .advance => modify Cursor.advanceInto

/-- What is done with an element by the first rule that accepts it, or else by walking on. -/
def dispatched (rs : List (Rule (Edit Unit → Edit Unit))) (t : Tree) (n : NodeId)
    (again : Edit Unit) : Edit Unit :=
  match Rule.dispatch rs t n with
  | some rule => rule.action again
  | none => modify Cursor.advanceInto

lemma dispatched_cons (r : Rule (Edit Unit → Edit Unit)) (rs : List (Rule (Edit Unit → Edit Unit)))
    (t : Tree) (n : NodeId) (again : Edit Unit) :
    dispatched (r :: rs) t n again =
      if r.accepts t n then r.action again else dispatched rs t n again := by
  rw [dispatched, Rule.dispatch_cons]
  cases r.accepts t n <;> rfl

/-- One rule and one case of the chain, given that both apply at the same time. -/
lemma ite_run {p q : Prop} [Decidable p] [Decidable q] {a b : Edit Unit} {τ τ' : Treatment}
    {c : Cursor} (hpq : p ↔ q) (hthen : a c = τ.run c) (helse : b c = τ'.run c) :
    (if p then a else b) c = (if q then τ else τ').run c := by
  by_cases hq : q
  · rw [if_pos (hpq.2 hq), if_pos hq, hthen]
  · rw [if_neg (fun hp => hq (hpq.1 hp)), if_neg hq, helse]

section Dispatch

variable {c : Cursor} {x : Branch}

/-- The current element is the one the cursor stands on. -/
lemma current_ok {n : NodeId} (hcurrent : c.current = some n) : current c = .ok n c := by
  rw [current, Program.get_bind_apply, hcurrent]
  rfl

variable (hx : x.Holds c.tree) (hcurrent : c.current = some x.number)

include hx hcurrent

omit hx in
/-- Putting a text in the place of the current element. -/
lemma textualizeCurrent_run {text : Tree → NodeId → String} {s : String}
    (hs : text c.tree x.number = s) :
    textualizeCurrent text c = (Treatment.replace s).run c := by
  rw [textualizeCurrent, Treatment.run, Program.bind_ok (current_ok hcurrent),
    Program.bind_ok (current_ok hcurrent), Program.get_bind_apply, hs]

/-- The rules of the pass give an element the treatment that its context, the sibling before it and
the branch at it ask for. -/
theorem dispatched_rules (h : c.tree.WellFormed) (again : Edit Unit) :
    dispatched rules c.tree x.number again c =
      (treatment (context c.tree x.number)
        ((c.tree.previousSibling? x.number).map c.tree.entry) x).run c := by
  simp only [rules, dispatched_cons]
  rw [treatment]
  refine ite_run ?_ ?_ ?_
  · rw [Rule.accepts_iff]
    simp [isFoundIn_singleton, highlighted_iff, hx.tag_eq]
  · exact textualizeCurrent_run hcurrent (hx.stringValue_eq h)
  refine ite_run ?_ (textualizeCurrent_run hcurrent rfl) ?_
  · rw [Rule.accepts_iff]
    simp [isFoundIn_singleton, highlighted_iff, hx.tag_eq]
  refine ite_run ?_ (textualizeCurrent_run hcurrent rfl) ?_
  · rw [Rule.accepts_iff]
    simp [hx.tag_eq]
  refine ite_run ?_ rfl ?_
  · rw [Rule.accepts_iff]
    simp [hx.tag_eq]
  refine ite_run ?_ rfl ?_
  · rw [Rule.accepts_iff]
    simp [hx.tag_eq, Guard.holds, isEmptyInline, hx.isInline_eq, hx.isEmpty_eq]
  refine ite_run ?_ rfl ?_
  · rw [Rule.accepts_iff]
    simp [hx.tag_eq, Guard.holds, holds_anyChild, hx.children_eq]
  refine ite_run ?_ rfl ?_
  · rw [Rule.accepts_iff]
    simp [hx.tag_eq, Guard.holds, holds_anyChild, hx.children_eq]
  refine ite_run ?_ rfl ?_
  · rw [Rule.accepts_iff]
    simp [hx.tag_eq, Guard.holds, isUntrimmedInline, hx.isInline_eq, hx.text_eq]
  refine ite_run ?_ rfl ?_
  · rw [Rule.accepts_iff]
    simp [hx.tag_eq, Guard.holds, hx.isEmpty_eq]
  refine ite_run ?_ rfl ?_
  · rw [Rule.accepts_iff]
    simp only [hx.tag_eq, Guard.holds, holds_sectionBefore, Option.all_none, Option.all_some,
      List.mem_singleton, true_and]
    cases c.tree.previousSibling? x.number <;> simp [Tree.entry]
  refine ite_run ?_ rfl ?_
  · rw [Rule.accepts_iff]
    simp [hx.tag_eq, Guard.holds, hx.isEmpty_eq]
  refine ite_run ?_ rfl rfl
  rw [Rule.accepts_iff]
  simp [hx.tag_eq]

/-- The pass gives the current element its treatment. -/
theorem handle_eq_run (h : c.tree.WellFormed) :
    Editor.handle editor c =
      (treatment (context c.tree x.number)
        ((c.tree.previousSibling? x.number).map c.tree.entry) x).run c := by
  rw [← dispatched_rules hx hcurrent h (editor.handleWithin (Editor.nestingLimit - 1)),
    Editor.handle]
  have hlimit : Editor.nestingLimit = Editor.nestingLimit - 1 + 1 := rfl
  rw [hlimit, Editor.handleWithin, Program.get_bind_apply, hcurrent]
  simp only [dispatched, editor]
  cases Rule.dispatch rules c.tree x.number with
  | none => rfl
  | some rule => rfl

end Dispatch

end Adjust

end DoxygenRest

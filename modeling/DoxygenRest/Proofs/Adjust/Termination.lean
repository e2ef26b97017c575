import DoxygenRest.Proofs.Adjust.Run
import DoxygenRest.Proofs.Cursor.Steady

/-!
# The pass comes to an end

Lifts and divisions put new elements in front of the walk, and a removal can send it back to the
element around.  Still, each step makes what lies ahead weigh less (`Step.weight_lt`).  A lift or
a division deals the pieces of an element's content out to its parts, so the weight of an element
grows with the pieces of its content, by more than the weight of one more element.

So a run on a given subtree that may take enough steps has one and the same result however many more it
may take, and this is never that it was given up (`adjust_terminates`).
-/

namespace DoxygenRest.Adjust

open Branch

variable {outer : Context} {x y : Branch} {f : Frame} {fs : List Frame}

/-! ### The weight of a branch -/

/-- Whether there is a text, as a number. -/
def presence (text : String) : Nat :=
  if text = "" then 0 else 1

/-- Whether a text is untrimmed, as a number. -/
def roughness (text : String) : Nat :=
  if Text.hasOuterBlanks text then 1 else 0

/-- The number of pieces of content in a row of children: the children, and the texts behind them. -/
def pieces : List Branch → Nat
  | [] => 0
  | b :: bs => 1 + presence b.tail + pieces bs

mutual

/-- The weight of a branch.  An element whose content has `p` pieces, its text counted, weighs
`5 * p - 2` or 2, plus one if its text is untrimmed, plus the weight of its children. -/
def weight : Branch → Nat
  | node _ e cs =>
    2 + roughness (e.text.getD "") + (5 * (presence (e.text.getD "") + pieces cs) - 4) +
      weightAll cs

/-- The weight of a row of branches. -/
def weightAll : List Branch → Nat
  | [] => 0
  | b :: bs => weight b + weightAll bs

end

/-- The weight of an element, one level written out. -/
lemma weight_eq (x : Branch) :
    weight x = 2 + roughness x.text + (5 * (presence x.text + pieces x.children) - 4) +
      weightAll x.children := by
  cases x
  rw [weight]
  rfl

/-- The weights of rows behind each other add up. -/
lemma weightAll_append (bs cs : List Branch) :
    weightAll (bs ++ cs) = weightAll bs + weightAll cs := by
  induction bs with
  | nil => rw [List.nil_append, weightAll, Nat.zero_add]
  | cons b bs ih => rw [List.cons_append, weightAll, weightAll, ih, Nat.add_assoc]

/-- So do their pieces. -/
lemma pieces_append (bs cs : List Branch) : pieces (bs ++ cs) = pieces bs + pieces cs := by
  induction bs with
  | nil => rw [List.nil_append, pieces, Nat.zero_add]
  | cons b bs ih =>
    rw [List.cons_append, pieces, pieces, ih]
    omega

@[simp] lemma presence_empty : presence "" = 0 :=
  rfl

/-- Text that is not empty counts once. -/
lemma presence_pos {text : String} (h : text ≠ "") : presence text = 1 :=
  if_neg h

/-- Only texts that are there can be untrimmed. -/
lemma roughness_le_presence (text : String) : roughness text ≤ presence text := by
  unfold roughness presence
  by_cases htext : text = ""
  · subst htext
    decide
  · rw [if_neg htext]
    split
    · exact Nat.le_refl 1
    · exact Nat.zero_le 1

/-- A text counts at most once. -/
lemma presence_le_one (text : String) : presence text ≤ 1 := by
  unfold presence
  split
  · exact Nat.zero_le 1
  · exact Nat.le_refl 1

/-- A row with a child has a piece. -/
lemma pieces_pos {bs : List Branch} (h : bs ≠ []) : 1 ≤ pieces bs := by
  cases bs with
  | nil => exact absurd rfl h
  | cons b bs =>
    rw [pieces]
    omega

/-- An element weighs no less than two. -/
lemma two_le_weight (x : Branch) : 2 ≤ weight x := by
  rw [weight_eq]
  omega

/-- The weight of a branch does not depend on its tail. -/
@[simp] lemma weight_withTail (x : Branch) (tail : Option String) :
    weight (x.withTail tail) = weight x := by
  have htext : (x.withTail tail).text = x.text := rfl
  rw [weight_eq, weight_eq x, htext, children_withTail]

/-- An element with children weighs more than these by three or more. -/
lemma weightAll_add_three_le (h : x.children ≠ []) : weightAll x.children + 3 ≤ weight x := by
  have hpieces := pieces_pos h
  rw [weight_eq]
  omega

/-! ### The weight of what lies ahead -/

/-- The weight of what lies ahead in a walk, behind a place. -/
def weightAhead : List Frame → Nat
  | [] => 0
  | f :: fs => 1 + weightAll f.after + weightAhead fs

/-- The weight of what lies ahead in a walk. -/
def Outcome.weight : Outcome → Nat
  | standing l => Adjust.weight l.focus + weightAhead l.frames
  | finished _ => 0

@[simp] lemma weight_standing (x : Branch) (fs : List Frame) :
    (Outcome.standing ⟨x, fs⟩).weight = weight x + weightAhead fs := rfl

/-- Leaving an element weighs no more than what was ahead of it. -/
lemma weight_leave_le (x : Branch) (fs : List Frame) :
    (leave x fs).weight ≤ weightAhead fs := by
  induction fs generalizing x with
  | nil => exact Nat.le_refl 0
  | cons f fs ih =>
    unfold leave
    split
    · have hrest := ih (f.fill x)
      rw [weightAhead]
      omega
    · next y rest hafter =>
      simp only [weight_standing, weightAhead, hafter, weightAll]
      omega

/-- Nor does going on behind a hole. -/
lemma weight_skip_le (f : Frame) (fs : List Frame) :
    (skip f fs).weight ≤ weightAhead (f :: fs) := by
  unfold skip
  split
  · have hrest := weight_leave_le (f.fillRow []) fs
    rw [weightAhead]
    omega
  · next y rest hafter =>
    simp only [weight_standing, weightAhead, hafter, weightAll]
    omega

/-- Walking on makes what lies ahead weigh less. -/
lemma weight_enter_lt (x : Branch) (fs : List Frame) :
    (enter x fs).weight < weight x + weightAhead fs := by
  unfold enter
  split
  · have hrest := weight_leave_le x fs
    have hx := two_le_weight x
    omega
  · next y ys hchildren =>
    have hx := weightAll_add_three_le (x := x) (by simp [hchildren])
    simp only [hchildren, weightAll] at hx
    simp only [weight_standing, weightAhead]
    omega

/-! ### Steps -/

/-- An element without children, but with a text, weighs more than when it has been trimmed. -/
lemma weight_trimmed_lt {text : String} (htext : x.own.text = some text)
    (hblanks : Text.hasOuterBlanks x.text = true) : weight (trimmed x text) < weight x := by
  have hxtext : x.text = text := by rw [Branch.text, htext, Option.getD_some]
  have hne : x.text ≠ "" := by
    intro hempty
    rw [hempty] at hblanks
    exact absurd hblanks (by decide)
  have hsmooth : roughness (trimmed x text).text = 0 := by
    rw [text_trimmed, roughness, Text.hasOuterBlanks_splitBlanks]
    rfl
  have hrough : roughness x.text = 1 := by rw [roughness, if_pos hblanks]
  have hchildren : (trimmed x text).children = x.children := rfl
  have hpresence := presence_le_one (trimmed x text).text
  rw [weight_eq, weight_eq x, hsmooth, hrough, hchildren, presence_pos hne]
  omega

/-- A link with children weighs more than when it is flat. -/
lemma weight_flat_lt {text : String} (h : x.children ≠ []) :
    weight (node x.number { x.own with text := some text } []) < weight x := by
  obtain ⟨y, ys, hy⟩ := List.exists_cons_of_ne_nil h
  have hrest := weightAll_add_three_le h
  have hchild := two_le_weight y
  have hrough := roughness_le_presence text
  have hpresence := presence_le_one text
  rw [hy, weightAll] at hrest
  rw [weight_eq, Branch.text, own_node, Option.getD_some, children_node, pieces, weightAll]
  omega

/-- What is left of inline markup after its first child was lifted out of it weighs less than it did
before. -/
lemma weightAll_lift_lt (fresh : NodeId) {ys : List Branch} (hchildren : x.children = y :: ys) :
    weightAll (Frame.lift ⟨x.number, x.own, [], ys⟩ fresh y) < weight x := by
  have hx : weight x = 2 + roughness x.text +
      (5 * (presence x.text + (1 + presence y.tail + pieces ys)) - 4) +
      (weight y + weightAll ys) := by
    rw [weight_eq, hchildren, pieces, weightAll]
  have hfront : weight (Frame.front ⟨x.number, x.own, [], ys⟩ []) =
      2 + roughness x.text + (5 * presence x.text - 4) := by
    rw [Frame.front, weight_eq]
    simp [Branch.text, pieces, weightAll]
  have htext := presence_le_one x.text
  unfold Frame.lift
  split
  · rw [weightAll, weightAll, weightAll, weight_withTail, hfront]
    omega
  · next hlast =>
    have hback : weight (Frame.back ⟨x.number, x.own, [], ys⟩ fresh (handedTail y.own.tail) ys) =
        2 + roughness y.tail + (5 * (presence y.tail + pieces ys) - 4) + weightAll ys := by
      rw [Frame.back, weight_eq]
      simp [Branch.text, Branch.tail]
    -- Something is left behind the lifted child.
    have hmore : 1 ≤ presence y.tail + pieces ys := by
      by_cases hys : ys = []
      · have htail : y.tail ≠ "" := by
          intro hempty
          refine hlast ?_
          cases htail : y.own.tail with
          | none => simp [handedTail, hys]
          | some tail =>
            rw [Branch.tail, htail, Option.getD_some] at hempty
            simp [handedTail, hys, hempty]
        have hpresence := presence_pos htail
        omega
      · have hpieces := pieces_pos hys
        omega
    have hrough := roughness_le_presence y.tail
    have hpresence := presence_le_one y.tail
    rw [weightAll, weightAll, weightAll, weightAll, weight_withTail, hfront, hback]
    omega

/-- A paragraph weighs more than two parts of it that share out its content, if neither is empty. -/
lemma weight_parts_lt {n m : NodeId} {e e' : Entry} {cs cs' : List Branch}
    (htext : e.text = x.own.text)
    (hpieces : presence (e'.text.getD "") + pieces cs' + pieces cs = pieces x.children)
    (hweight : weightAll cs + weightAll cs' = weightAll x.children)
    (hfront : 1 ≤ presence x.text + pieces cs)
    (hback : 1 ≤ presence (e'.text.getD "") + pieces cs') :
    weight (node n e cs) + weight (node m e' cs') < weight x := by
  have hrough := roughness_le_presence (e'.text.getD "")
  have hpresence := presence_le_one (e'.text.getD "")
  rw [weight, weight, weight_eq x, htext, ← hweight, ← hpieces, ← Branch.text]
  omega

/-- Each step makes what lies ahead weigh less. -/
theorem Step.weight_lt {fresh : NodeId} {l : Location} {o : Outcome}
    (hstep : Step outer fresh l o) : o.weight < (Outcome.standing l).weight := by
  cases hstep with
  | @replace x f fs text hτ =>
    have hrest := weight_skip_le ((f.extendBefore text).extendBefore x.tail) fs
    have hx := two_le_weight x
    simp only [weightAhead, Frame.after_extendBefore] at hrest
    simp only [weight_standing, weightAhead]
    omega
  | @remove x f fs hτ hmore =>
    have hrest := weight_skip_le (f.extendBefore x.tail) fs
    have hx := two_le_weight x
    simp only [weightAhead, Frame.after_extendBefore] at hrest
    simp only [weight_standing, weightAhead]
    omega
  | @removeLast x f fs hτ hbelow hempty =>
    -- The element around is empty now, and lies ahead once more.
    obtain ⟨htext, hchildren⟩ := isEmpty_iff.1 hempty
    have hx := two_le_weight x
    have haround : weight ((f.extendBefore x.tail).fillRow []) = 2 := by
      rw [weight_eq, htext, hchildren]
      rfl
    simp only [weight_standing, weightAhead, haround]
    omega
  | flatten hτ =>
    cases groundsAt hτ with
    | link htag hchildren =>
      simp only [weight_standing]
      exact Nat.add_lt_add_right (weight_flat_lt hchildren) _
  | @lift x y front ys rest f fs hτ hchildren hinline hrow =>
    have hparts := weightAll_lift_lt fresh hchildren
    rw [hrow, weightAll] at hparts
    simp only [weight_standing, weightAhead, weightAll_append]
    omega
  | @trim x f fs text hτ htext =>
    cases groundsAt hτ with
    | untrimmed href hinline hchildren hblanks =>
      have hx := weight_trimmed_lt htext hblanks
      simp only [weight_standing, weightAhead, Frame.after_extendBefore]
      omega
  | @trimRoot x text hτ htext =>
    cases groundsAt hτ with
    | untrimmed href hinline hchildren hblanks =>
      have hx := weight_trimmed_lt htext hblanks
      simp only [weight_standing]
      omega
  | @absorb x y prev ys rest f fs hτ hbefore hmergeable hchildren =>
    have hx := weightAll_add_three_le (x := x) (by simp [hchildren])
    simp only [hchildren, weightAll] at hx
    simp only [weight_standing, weightAhead]
    omega
  | @absorbLeaf x prev rest f fs hτ hbefore hmergeable hchildren =>
    have hrest := weight_leave_le (prev.absorb x) ({ f with before := rest } :: fs)
    have hx := two_le_weight x
    simp only [weightAhead] at hrest
    simp only [weight_standing, weightAhead]
    omega
  | keep hτ hbefore hdiffer => exact weight_enter_lt ..
  | @divideBefore x y front back ys zs f fs hτ hchildren hfront hsplit =>
    cases hsplit
    have hparts : weight (Frame.front ⟨x.number, x.own, ys.reverse, zs⟩ []) +
        weight (Frame.back ⟨x.number, x.own, ys.reverse, zs⟩ fresh none (y :: zs)) <
        weight x := by
      refine weight_parts_lt rfl ?_ ?_ ?_ ?_
      · simp [hchildren, pieces_append, Nat.add_comm]
      · simp [hchildren, weightAll_append]
      · rcases hfront with htext | hys
        · have hpresence := presence_pos htext
          omega
        · have hpieces := pieces_pos hys
          simp only [List.reverse_reverse, List.append_nil]
          omega
      · have hpieces := pieces_pos (List.cons_ne_nil y zs)
        omega
    simp only [weight_standing, weightAhead, weightAll]
    omega
  | @divideBehind x y front back ys zs f fs hτ hchildren htail hsplit =>
    cases hsplit
    have hpresence := presence_pos htail
    have hparts : weight (Frame.front ⟨x.number, x.own, ys.reverse, zs⟩ [y.withTail none]) +
        weight (Frame.back ⟨x.number, x.own, ys.reverse, zs⟩ fresh y.own.tail zs) <
        weight x := by
      have hnone : (y.withTail none).tail = "" := rfl
      rw [Branch.tail] at hpresence
      refine weight_parts_lt rfl ?_ ?_ ?_ ?_
      · rw [hchildren, pieces_append, pieces_append, pieces, pieces, pieces, hnone,
          List.reverse_reverse, presence_empty, Branch.tail]
        simp only
        omega
      · simp [hchildren, weightAll_append, weightAll, Nat.add_assoc]
      · rw [pieces_append, pieces]
        omega
      · simp only [hpresence]
        omega
    simp only [weight_standing, weightAhead, weightAll]
    omega
  | undivided hτ hcontent => exact weight_enter_lt ..
  | advance hτ => exact weight_enter_lt ..

/-! ### Runs with enough steps -/

/-- No treatment of an element is given up. -/
lemma steady_run (τ : Treatment) : Cursor.Steady τ.run := by
  cases τ with
  | replace text => exact steady_current.bind fun n => steady_textualize n text
  | remove => exact steady_removeCurrent
  | flatten => exact steady_flattenLink
  | lift => exact steady_liftNested
  | trim => exact steady_trimCurrent
  | absorb => exact steady_absorb
  | divide => exact steady_dividePara
  | advance => exact Cursor.steady_modify _

/-- What is done with an element does not depend on how many steps a run may take. -/
lemma handleWithin_congr {r r' : Editor Cursor.Edit} (hrules : r.rules = r'.rules) (depth : Nat) :
    r.handleWithin depth = r'.handleWithin depth := by
  induction depth with
  | zero => rfl
  | succ depth ih =>
    unfold Editor.handleWithin
    rw [hrules, ih]

section Runs

variable {root : NodeId} {c : Cursor} {o : Outcome} {r : Editor Cursor.Edit}

/-- Handling an element by the rules of the pass is not given up. -/
lemma Tracks.not_givenUp_handle {l : Location} (hc : Tracks root outer c (.standing l)) :
    ¬GivenUp (Editor.handle editor c) := by
  rw [Adjust.handle_eq_run hc.holds_focus hc.standing hc.wellFormed]
  exact (steady_run _).not_givenUp c

/-- A run by the rules of the pass that may take as many steps as what lies ahead weighs, does the
same as any other such run, and it is not given up. -/
theorem runFor_of_weight_le (hrules : r.rules = rules) {left limit : Nat}
    (hc : Tracks root outer c o) (hleft : o.weight ≤ left) (hlimit : o.weight ≤ limit) :
    r.runFor left c = editor.runFor limit c ∧ ¬GivenUp (editor.runFor limit c) := by
  -- The weight falls with every step, and a walk that stands somewhere weighs something, so neither
  -- number of steps is ever used up.
  induction left generalizing limit c o with
  | zero =>
    cases o with
    | finished b =>
      rw [hc.runFor_finished, hc.runFor_finished]
      exact ⟨rfl, not_givenUp_ok () c⟩
    | standing l =>
      have hfocus := two_le_weight l.focus
      rw [Outcome.weight] at hleft
      omega
  | succ left ih =>
    cases o with
    | finished b =>
      rw [hc.runFor_finished, hc.runFor_finished]
      exact ⟨rfl, not_givenUp_ok () c⟩
    | standing l =>
      have hfocus := two_le_weight l.focus
      obtain ⟨limit, rfl⟩ : ∃ k, limit = k + 1 := by
        rw [Outcome.weight] at hlimit
        exact Nat.exists_eq_add_one.2 (by omega)
      have hhandle : Editor.handle r = Editor.handle editor := handleWithin_congr hrules _
      have hgiven := hc.not_givenUp_handle
      rw [hc.runFor_standing, hc.runFor_standing, hhandle, Program.bind_apply, Program.bind_apply]
      cases hrun : Editor.handle editor c with
      | error failure c' =>
        rw [hrun] at hgiven
        refine ⟨rfl, ?_⟩
        rintro ⟨steps, tag, s, heq⟩
        injection heq with hfailure
        exact hgiven ⟨steps, tag, c', by rw [hfailure]⟩
      | ok a c' =>
        obtain ⟨o', hstep, hc'⟩ := exists_step_of_handle hc hrun
        have hweight := hstep.weight_lt
        exact ih hc' (by omega) (by omega)

end Runs

/-- For each subtree there is a number of steps such that a run of the rules that may take that many,
or any more, has one and the same result, and this is never that the run was given up. -/
theorem adjust_terminates {t : Tree} (h : t.WellFormed) (root : NodeId) :
    ∃ (enough : Nat) (result : EStateM.Result PassError Tree Unit),
      (∀ steps tag u, result ≠ .error (.noProgress steps tag) u) ∧
        ∀ maxSteps ≥ enough, runOn { rules, maxSteps } root t = result := by
  have hstart := tracks_start h root
  have henough : (Outcome.standing ⟨t.branch root, []⟩).weight ≤ weight (t.branch root) :=
    Nat.le_refl _
  have hrun (maxSteps : Nat) (hle : weight (t.branch root) ≤ maxSteps) :
      Editor.run { rules, maxSteps } (Cursor.start t root) =
        editor.runFor (weight (t.branch root)) (Cursor.start t root) :=
    (runFor_of_weight_le rfl hstart hle henough).1
  have hgiven := (runFor_of_weight_le (r := editor) rfl hstart henough henough).2
  refine ⟨weight (t.branch root), runOn { rules, maxSteps := weight (t.branch root) } root t, ?_, ?_⟩
  · intro steps tag u hresult
    rw [runOn, hrun _ (Nat.le_refl _)] at hresult
    cases hloop : editor.runFor (weight (t.branch root)) (Cursor.start t root) with
    | ok a c =>
      rw [hloop] at hresult
      cases hresult
    | error failure c =>
      rw [hloop] at hresult hgiven
      injection hresult with hfailure
      exact hgiven ⟨steps, tag, c, by rw [hfailure]⟩
  · intro maxSteps hle
    rw [runOn, runOn, hrun maxSteps hle, hrun _ (Nat.le_refl _)]

/-- The pass comes to an end on a description with nested markup and adjacent sections. -/
theorem adjust_terminates_draft : draft.WellFormed ∧
    ∃ (enough : Nat) (result : EStateM.Result PassError Tree Unit),
      (∀ steps tag u, result ≠ .error (.noProgress steps tag) u) ∧
        ∀ maxSteps ≥ enough, runOn { rules, maxSteps } 0 draft = result :=
  ⟨suitable_draft.wellFormed, adjust_terminates suitable_draft.wellFormed 0⟩

end DoxygenRest.Adjust

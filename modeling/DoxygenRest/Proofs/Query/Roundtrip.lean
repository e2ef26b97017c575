import DoxygenRest.Proofs.Query.Tokens

/-!
# Queries are read back as they were written

A query has a written form that is read back if its names are names, its positions fit in a machine
word, its values lack one kind of quotes and no test for a child starts with a digit
(`Expr.Writable`).  All queries that are read are of this kind (`Expr.writable_of_parse`), since whatever
part of the grammar is read passes the same checks, and the written form of such a query is read back
part by part (`readPredicate_append`, `readStep_append`, `readSteps_append`).
-/

namespace DoxygenRest.Query

variable {cs rest : List Char}

/-! ### Queries that can be written -/

/-- A predicate that has a written form.  A test for a child that started with a digit would be taken for
a position. -/
def Predicate.Writable : Predicate → Prop
  | .position place => 1 ≤ place ∧ place < Nat.pow 2 64
  | .selfTag name => IsName name
  | .hasChild name => IsName name ∧ name.toList.head?.any Char.isDigit = false
  | .attribute name value => IsAttribute name value

/-- A name test that has a written form. -/
def NameTest.Writable : NameTest → Prop
  | .any => True
  | .tag name => IsName name

/-- A step that has a written form. -/
structure Step.Writable (s : Step) : Prop where
  test : s.test.Writable
  predicates : ∀ p ∈ s.predicates, p.Writable

/-- A query that has a written form.  A path has at least one step. -/
def Expr.Writable : Expr → Prop
  | .path steps => steps ≠ [] ∧ ∀ s ∈ steps, s.Writable
  | .attribute name value => IsAttribute name value

section Decidable

instance : (p : Predicate) → Decidable p.Writable
  | .position _ => inferInstanceAs (Decidable (_ ∧ _))
  | .selfTag name => inferInstanceAs (Decidable (IsName name))
  | .hasChild _ => inferInstanceAs (Decidable (_ ∧ _))
  | .attribute name value => inferInstanceAs (Decidable (IsAttribute name value))

instance : (test : NameTest) → Decidable test.Writable
  | .any => inferInstanceAs (Decidable True)
  | .tag name => inferInstanceAs (Decidable (IsName name))

instance (s : Step) : Decidable s.Writable :=
  decidable_of_iff (s.test.Writable ∧ ∀ p ∈ s.predicates, p.Writable)
    ⟨fun ⟨h, h'⟩ => ⟨h, h'⟩, fun h => ⟨h.test, h.predicates⟩⟩

instance : (e : Expr) → Decidable e.Writable
  | .path _ => inferInstanceAs (Decidable (_ ∧ _))
  | .attribute name value => inferInstanceAs (Decidable (IsAttribute name value))

end Decidable

/-! ### Predicates -/

/-- A written predicate is read up to its bracket. -/
lemma readPredicate_append {p : Predicate} (h : p.Writable) (rest : List Char) :
    readPredicate (p.write.toList ++ ']' :: rest) = .ok (p, ']' :: rest) := by
  have hstop : Stops (']' :: rest) := stops_cons (by simp) rest
  -- The reader tries a place, an element's own name, an attribute and a child, so each case shows
  -- that the ones tried before do not apply.
  match p, h with
  | .position place, h =>
    rw [readPredicate, Predicate.write, readPosition?_append h.1 h.2]
    rfl
  | .selfTag name, h =>
    have hplace : readPosition? ("self::".toList ++ (name.toList ++ ']' :: rest)) = none :=
      readPosition?_eq_none_iff.2 (Or.inl rfl)
    rw [readPredicate, Predicate.write, String.toList_append, List.append_assoc, hplace]
    simp only [eat?_append, readName_append h hstop.any_isNameChar]
    rfl
  | .hasChild name, ⟨hname, hdigit⟩ =>
    have hplace : readPosition? (name.toList ++ ']' :: rest) = none := by
      obtain ⟨c, cs, hcons, -⟩ := hname.exists_cons
      refine readPosition?_eq_none_iff.2 (Or.inl ?_)
      rw [hcons] at hdigit ⊢
      exact hdigit
    have hself := hname.eat?_self_eq_none hstop.any_isNameChar
    have hat : eat? "@" (name.toList ++ ']' :: rest) = none :=
      hname.eat?_eq_none '@' rfl (by simp [separators]) _
    rw [readPredicate, Predicate.write]
    simp only [hplace, hself, hat, readName_append hname hstop.any_isNameChar]
    rfl
  | .attribute name value, h =>
    obtain ⟨body, hbody, hread⟩ := readAttribute_append h hstop
    have hplace : readPosition? ('@' :: (body ++ ']' :: rest)) = none :=
      readPosition?_eq_none_iff.2 (Or.inl rfl)
    have hself : eat? "self::" ('@' :: (body ++ ']' :: rest)) = none := rfl
    have hat : eat? "@" ('@' :: (body ++ ']' :: rest)) = some (body ++ ']' :: rest) := rfl
    rw [readPredicate, Predicate.write, hbody, List.cons_append]
    simp only [hplace, hself, hat, hread]
    rfl

/-- A predicate that is read up to a bracket can be written. -/
lemma writable_of_readPredicate {p : Predicate} (h : readPredicate cs = .ok (p, ']' :: rest)) :
    p.Writable := by
  unfold readPredicate at h
  split at h
  · next result hplace =>
    obtain ⟨⟨place, cs'⟩, rfl, heq⟩ := Program.exists_of_map_eq_ok h
    cases heq
    exact bounds_of_readPosition? hplace
  · next hplace =>
    split at h
    · obtain ⟨⟨name, cs'⟩, hname, heq⟩ := Program.exists_of_map_eq_ok h
      cases heq
      exact (isName_of_readName hname).1
    · split at h
      · obtain ⟨⟨⟨name, value⟩, cs'⟩, hattribute, heq⟩ := Program.exists_of_map_eq_ok h
        cases heq
        exact isAttribute_of_readAttribute hattribute
      · obtain ⟨⟨name, cs'⟩, hname, heq⟩ := Program.exists_of_map_eq_ok h
        cases heq
        obtain ⟨hisName, rfl⟩ := isName_of_readName hname
        refine ⟨hisName, ?_⟩
        -- With a digit at the start, all up to the end would be digits, and there is the bracket.
        rcases readPosition?_eq_none_iff.1 hplace with hstart | hdigits
        · obtain ⟨c, cs, hcons, -⟩ := hisName.exists_cons
          rw [hcons] at hstart ⊢
          exact hstart
        · have hbracket := hdigits ']' (by simp)
          cases hbracket

/-! ### Rows of predicates -/

/-- A predicate in brackets. -/
def bracketed (p : Predicate) : List Char :=
  '[' :: (p.write.toList ++ [']'])

/-- A row has no more items than the text that is written for it has characters. -/
lemma length_le_length_flatMap {α : Type} {f : α → List Char} (hf : ∀ a, f a ≠ []) (row : List α) :
    row.length ≤ (row.flatMap f).length := by
  induction row with
  | nil => exact Nat.le_refl 0
  | cons a row ih =>
    have hpos := List.length_pos_iff.2 (hf a)
    rw [List.flatMap_cons, List.length_append, List.length_cons]
    omega

/-- Written predicates are read as long as brackets open. -/
lemma readPredicates_append {ps : List Predicate} (h : ∀ p ∈ ps, p.Writable)
    (hrest : eat? "[" rest = none) {bound : Nat} (hbound : ps.length ≤ bound) :
    readPredicates bound (ps.flatMap bracketed ++ rest) = .ok (ps, rest) := by
  induction ps generalizing bound with
  | nil =>
    cases bound with
    | zero => rfl
    | succ bound =>
      simp only [readPredicates, List.flatMap_nil, List.nil_append, hrest]
  | cons p ps ih =>
    obtain ⟨bound, rfl⟩ : ∃ k, bound = k + 1 := ⟨bound - 1, by simp at hbound; omega⟩
    have hopen : eat? "[" ((p :: ps).flatMap bracketed ++ rest) =
        some (p.write.toList ++ ']' :: (ps.flatMap bracketed ++ rest)) :=
      eat?_eq_some_iff.2 (by simp [bracketed])
    have hclose : eat? "]" (']' :: (ps.flatMap bracketed ++ rest)) =
        some (ps.flatMap bracketed ++ rest) := eat?_append "]" _
    rw [readPredicates, hopen]
    simp only [readPredicate_append (h p (List.mem_cons_self ..)), bind, Except.bind, hclose,
      ih (fun q hq => h q (List.mem_cons_of_mem _ hq)) (Nat.le_of_succ_le_succ hbound)]
    rfl

/-- Predicates that are read can be written. -/
lemma writable_of_readPredicates {bound : Nat} {ps : List Predicate}
    (h : readPredicates bound cs = .ok (ps, rest)) : ∀ p ∈ ps, p.Writable := by
  induction bound generalizing cs ps with
  | zero =>
    cases h
    simp
  | succ bound ih =>
    unfold readPredicates at h
    split at h
    · cases h
      simp
    · obtain ⟨⟨p, cs'⟩, hp, h⟩ := Program.exists_of_bind_eq_ok h
      simp only at h
      split at h
      · cases h
      · next hclose =>
        obtain ⟨⟨ps', cs''⟩, hps, h⟩ := Program.exists_of_bind_eq_ok h
        cases h
        rw [eat?_eq_some_iff.1 hclose] at hp
        exact List.forall_mem_cons.2 ⟨writable_of_readPredicate hp, ih hps⟩

/-! ### Steps -/

/-- A written axis is read back. -/
lemma readAxis_append (axis : Axis) (rest : List Char) :
    readAxis (axis.write.toList ++ rest) = .ok (axis, rest) := by
  cases axis <;> rfl

/-- A written name test is read up to a bracket, a slash or the end. -/
lemma readTest_append {test : NameTest} (h : test.Writable) (hrest : Stops rest) :
    readTest (test.write.toList ++ rest) = .ok (test, rest) := by
  cases test with
  | any => rfl
  | tag name =>
    have hstar : eat? "*" (name.toList ++ rest) = none :=
      IsName.eat?_eq_none h '*' rfl (by simp [separators]) _
    rw [readTest, NameTest.write]
    simp only [hstar, readName_append h hrest.any_isNameChar]
    rfl

/-- A name test that is read can be written. -/
lemma writable_of_readTest {test : NameTest} (h : readTest cs = .ok (test, rest)) :
    test.Writable := by
  unfold readTest at h
  split at h
  · cases h
    trivial
  · obtain ⟨⟨name, cs'⟩, hname, heq⟩ := Program.exists_of_map_eq_ok h
    cases heq
    exact (isName_of_readName hname).1

/-- A step is written as its axis, its test and its predicates. -/
lemma toList_writeStep (s : Step) :
    s.write.toList =
      s.axis.write.toList ++ (s.test.write.toList ++ s.predicates.flatMap bracketed) := by
  simp only [Step.write, String.toList_append, String.toList_join, List.flatMap_map,
    List.append_assoc]
  rfl

/-- A written step is read up to a slash or the end. -/
lemma readStep_append {s : Step} (h : s.Writable) (hrest : ∀ c ∈ rest.head?, c = '/') :
    readStep (s.write.toList ++ rest) = .ok (s, rest) := by
  have hbracket : eat? "[" rest = none := by
    rw [eat?_eq_none_iff]
    rintro ⟨more, rfl⟩
    simpa using hrest '[' rfl
  have hstops : Stops (s.predicates.flatMap bracketed ++ rest) := by
    cases s.predicates with
    | nil => exact fun c hc => Or.inr (Or.inr (hrest c hc))
    | cons p ps => exact stops_cons (by simp) _
  have hbound : s.predicates.length ≤ (s.predicates.flatMap bracketed ++ rest).length := by
    rw [List.length_append]
    exact Nat.le_add_right_of_le (length_le_length_flatMap (fun p => List.cons_ne_nil _ _) _)
  -- The name of an axis starts with a letter, so the step is not taken for one or two points.
  have htwo (more : List Char) : eat? ".." (s.axis.write.toList ++ more) = none := by
    cases s.axis <;> rfl
  have hone (more : List Char) : ¬(s.axis.write.toList ++ more = ['.'] ∨
      ['.', '/'].isPrefixOf (s.axis.write.toList ++ more) = true) := by
    cases s.axis <;> simp [Axis.write]
  rw [toList_writeStep, List.append_assoc, List.append_assoc, readStep, htwo]
  simp only [if_neg (hone _), readAxis_append, bind, Except.bind, readTest_append h.test hstops,
    readPredicates_append h.predicates hbracket hbound]
  rfl

/-- A step that is read can be written. -/
lemma writable_of_readStep {s : Step} (h : readStep cs = .ok (s, rest)) : s.Writable := by
  unfold readStep at h
  split at h
  · cases h
    exact ⟨trivial, by simp⟩
  · split at h
    · cases h
      exact ⟨trivial, by simp⟩
    · obtain ⟨⟨axis, cs'⟩, -, h⟩ := Program.exists_of_bind_eq_ok h
      obtain ⟨⟨test, cs''⟩, htest, h⟩ := Program.exists_of_bind_eq_ok h
      obtain ⟨⟨ps, cs'''⟩, hps, h⟩ := Program.exists_of_bind_eq_ok h
      cases h
      exact ⟨writable_of_readTest htest, writable_of_readPredicates hps⟩

/-! ### Paths -/

/-- A step behind a slash. -/
def slashed (s : Step) : List Char :=
  '/' :: s.write.toList

/-- A row of written steps is empty or starts with a slash. -/
lemma head?_flatMap_slashed (steps : List Step) : ∀ c ∈ (steps.flatMap slashed).head?, c = '/' := by
  intro c hc
  cases steps with
  | nil => cases hc
  | cons s steps => exact (Option.some.inj hc).symm

/-- Written steps are read to the end. -/
lemma readSteps_append {steps : List Step} (h : ∀ s ∈ steps, s.Writable) {bound : Nat}
    (hbound : steps.length ≤ bound) : readSteps bound (steps.flatMap slashed) = .ok (steps, []) := by
  induction steps generalizing bound with
  | nil => cases bound <;> rfl
  | cons s steps ih =>
    obtain ⟨bound, rfl⟩ : ∃ k, bound = k + 1 := ⟨bound - 1, by simp at hbound; omega⟩
    have hslash : eat? "/" ((s :: steps).flatMap slashed) =
        some (s.write.toList ++ steps.flatMap slashed) :=
      eat?_eq_some_iff.2 (by simp [slashed])
    rw [readSteps, hslash]
    simp only [readStep_append (h s (List.mem_cons_self ..)) (head?_flatMap_slashed steps), bind,
      Except.bind, ih (fun s' hs' => h s' (List.mem_cons_of_mem _ hs'))
        (Nat.le_of_succ_le_succ hbound)]
    rfl

/-- Steps that are read can be written. -/
lemma writable_of_readSteps {bound : Nat} {steps : List Step}
    (h : readSteps bound cs = .ok (steps, rest)) : ∀ s ∈ steps, s.Writable := by
  induction bound generalizing cs steps with
  | zero =>
    cases h
    simp
  | succ bound ih =>
    unfold readSteps at h
    split at h
    · cases h
      simp
    · obtain ⟨⟨s, cs'⟩, hs, h⟩ := Program.exists_of_bind_eq_ok h
      obtain ⟨⟨steps', cs''⟩, hsteps, h⟩ := Program.exists_of_bind_eq_ok h
      cases h
      exact List.forall_mem_cons.2 ⟨writable_of_readStep hs, ih hsteps⟩

/-- A path is written as its steps with slashes between them. -/
lemma toList_writePath (s : Step) (steps : List Step) :
    (Expr.path (s :: steps)).write.toList = s.write.toList ++ steps.flatMap slashed := by
  induction steps generalizing s with
  | nil => simp [Expr.write]
  | cons s' steps ih =>
    have hcons : (Expr.path (s :: s' :: steps)).write =
        s.write ++ "/" ++ (Expr.path (s' :: steps)).write := String.intercalate_cons_cons
    rw [hcons, String.toList_append, String.toList_append, ih]
    simp [slashed]

/-! ### Queries -/

/-- A written query is read to its end. -/
lemma readExpr_append {e : Expr} (h : e.Writable) : readExpr e.write.toList = .ok (e, []) := by
  match e, h with
  | .attribute name value, h =>
    obtain ⟨body, hbody, hread⟩ := readAttribute_append h stops_nil
    rw [List.append_nil] at hread
    have hat : eat? "@" ('@' :: body) = some body := rfl
    rw [readExpr, Expr.write, hbody]
    simp only [hat, hread]
    rfl
  | .path (s :: steps), ⟨_, h⟩ =>
    -- The name of an axis starts with a letter, so neither an at sign nor a point is read.
    have hat (more : List Char) : eat? "@" (s.axis.write.toList ++ more) = none := by
      cases s.axis <;> rfl
    have hpoint (more : List Char) : eat? "./" (s.axis.write.toList ++ more) = none := by
      cases s.axis <;> rfl
    have hwrite := toList_writePath s steps
    rw [toList_writeStep, List.append_assoc] at hwrite
    have hstep := readStep_append (h s (List.mem_cons_self ..)) (head?_flatMap_slashed steps)
    rw [toList_writeStep, List.append_assoc] at hstep
    have hsteps := readSteps_append (fun s' hs' => h s' (List.mem_cons_of_mem _ hs'))
      (length_le_length_flatMap (f := slashed) (fun s => List.cons_ne_nil _ _) steps)
    rw [hwrite, readExpr, hat]
    simp only [hpoint, Option.getD_none, hstep, bind, Except.bind, hsteps]
    rfl

/-- A query that is read can be written. -/
lemma writable_of_readExpr {e : Expr} (h : readExpr cs = .ok (e, rest)) : e.Writable := by
  unfold readExpr at h
  split at h
  · obtain ⟨⟨⟨name, value⟩, cs'⟩, hattribute, heq⟩ := Program.exists_of_map_eq_ok h
    cases heq
    exact isAttribute_of_readAttribute hattribute
  · obtain ⟨⟨s, cs'⟩, hs, h⟩ := Program.exists_of_bind_eq_ok h
    obtain ⟨⟨steps, cs''⟩, hsteps, h⟩ := Program.exists_of_bind_eq_ok h
    cases h
    exact ⟨List.cons_ne_nil _ _,
      List.forall_mem_cons.2 ⟨writable_of_readStep hs, writable_of_readSteps hsteps⟩⟩

/-! ### White space around queries -/

/-- The text does not end with white space. -/
def EndsSolid (cs : List Char) : Prop :=
  cs.getLast?.any Text.isWhite = false

/-- Two texts that end solid do so together. -/
lemma EndsSolid.append {ds : List Char} (h : EndsSolid cs) (h' : EndsSolid ds) :
    EndsSolid (cs ++ ds) := by
  unfold EndsSolid at h h' ⊢
  rw [List.getLast?_append]
  cases hlast : ds.getLast? with
  | none => rwa [Option.none_or]
  | some c =>
    rw [hlast] at h'
    rwa [Option.some_or]

/-- So does what is made of such pieces. -/
lemma EndsSolid.flatMap {α : Type} {f : α → List Char} {row : List α}
    (h : ∀ a ∈ row, EndsSolid (f a)) : EndsSolid (row.flatMap f) := by
  induction row with
  | nil => exact rfl
  | cons a row ih =>
    rw [List.flatMap_cons]
    exact (h a (List.mem_cons_self ..)).append (ih fun b hb => h b (List.mem_cons_of_mem _ hb))

/-- What ends with a character that is no white space. -/
lemma endsSolid_append_singleton (cs : List Char) {c : Char} (hc : Text.isWhite c = false) :
    EndsSolid (cs ++ [c]) := by
  rw [EndsSolid, List.getLast?_append, List.getLast?_singleton, Option.some_or, Option.any_some, hc]

/-- A name ends solid. -/
lemma IsName.endsSolid {name : String} (h : IsName name) : EndsSolid name.toList := by
  rw [EndsSolid]
  cases hlast : name.toList.getLast? with
  | none => rfl
  | some c =>
    rw [Option.any_some, Bool.eq_false_iff]
    intro hwhite
    have hc := h.isNameChar c (List.mem_of_getLast? hlast)
    rw [isNameChar_of_isWhite hwhite] at hc
    cases hc

/-- A quoted value ends solid. -/
lemma endsSolid_writeValue (value : String) : EndsSolid (writeValue value).toList := by
  rw [writeValue]
  split
  · simpa using endsSolid_append_singleton ('\x22' :: value.toList) rfl
  · simpa using endsSolid_append_singleton ('\x27' :: value.toList) rfl

/-- A test for an attribute ends solid. -/
lemma endsSolid_writeAttribute {name : String} {value : Option String} (h : IsName name) :
    EndsSolid (writeAttribute name value).toList := by
  have hname : EndsSolid ("@" ++ name).toList := by
    rw [String.toList_append]
    exact EndsSolid.append rfl h.endsSolid
  cases value with
  | none => exact hname
  | some value =>
    rw [writeAttribute, String.toList_append, String.toList_append]
    exact (hname.append (endsSolid_append_singleton [] rfl)).append (endsSolid_writeValue value)

/-- A step ends solid. -/
lemma Step.Writable.endsSolid {s : Step} (h : s.Writable) : EndsSolid s.write.toList := by
  have haxis : EndsSolid s.axis.write.toList := by
    cases s.axis <;> rfl
  have htest : EndsSolid s.test.write.toList := by
    match s.test, h.test with
    | .any, _ => rfl
    | .tag name, h => exact h.endsSolid
  rw [toList_writeStep]
  refine haxis.append (htest.append (EndsSolid.flatMap fun p _ => ?_))
  exact endsSolid_append_singleton ('[' :: p.write.toList) rfl

/-- So does a whole expression. -/
lemma Expr.Writable.endsSolid {e : Expr} (h : e.Writable) : EndsSolid e.write.toList := by
  match e, h with
  | .attribute name value, h => exact endsSolid_writeAttribute h.name
  | .path (s :: steps), ⟨_, h⟩ =>
    rw [toList_writePath]
    refine (h s (List.mem_cons_self ..)).endsSolid.append (EndsSolid.flatMap fun s' hs' => ?_)
    exact EndsSolid.append (endsSolid_append_singleton [] rfl)
      (h s' (List.mem_cons_of_mem _ hs')).endsSolid

/-- A written query is not empty and does not start with white space. -/
lemma Expr.Writable.exists_cons {e : Expr} (h : e.Writable) :
    ∃ c cs, e.write.toList = c :: cs ∧ Text.isWhite c = false := by
  match e, h with
  | .attribute name value, h =>
    obtain ⟨body, hbody, -⟩ := readAttribute_append h stops_nil
    exact ⟨'@', body, hbody, rfl⟩
  | .path (s :: steps), _ =>
    rw [toList_writePath, toList_writeStep]
    cases s.axis <;> exact ⟨_, _, rfl, rfl⟩

/-- No white space is trimmed from a written query. -/
lemma Expr.Writable.trim_write {e : Expr} (h : e.Writable) : Text.trim e.write = e.write := by
  apply Text.trim_of_hasOuterBlanks
  obtain ⟨c, cs, hcons, hc⟩ := h.exists_cons
  have hend := h.endsSolid
  rw [EndsSolid] at hend
  rw [Text.hasOuterBlanks, hend, hcons, List.head?_cons, Option.any_some, hc, Bool.or_false]

/-- A written query is read back. -/
lemma Expr.Writable.parse_write {e : Expr} (h : e.Writable) : Expr.parse e.write = .ok e := by
  obtain ⟨c, cs, hcons, -⟩ := h.exists_cons
  have hne : e.write.toList.isEmpty = false := by rw [hcons, List.isEmpty_cons]
  simp only [Expr.parse, h.trim_write, hne, readExpr_append h, Bool.false_eq_true, if_false, bind,
    Except.bind, List.all_nil, if_true]
  rfl

/-- A query that is read can be written. -/
lemma Expr.writable_of_parse {source : String} {e : Expr} (h : Expr.parse source = .ok e) :
    e.Writable := by
  simp only [Expr.parse] at h
  split at h
  · cases h
  · obtain ⟨⟨e', rest⟩, hread, h⟩ := Program.exists_of_bind_eq_ok h
    simp only at h
    split at h
    · cases h
      exact writable_of_readExpr hread
    · cases h

/-- Writing and reading undo each other.  Of whatever text is read as a query, the query has a written
form, which is read as the same query.  So its positions start at one, and its names are not empty and
hold no double colon; and every query whose positions start at one and fit in a machine word, whose names
are names, whose tests for children do not start with a digit and whose values lack one kind of quotes is
read back from its written form. -/
theorem reread_of_write :
    (∀ source q, parse source = .ok q →
      q.expr.Writable ∧ parse q.expr.write = .ok ⟨q.expr.write, q.expr⟩) ∧
      ∀ e : Expr, e.Writable → parse e.write = .ok ⟨e.write, e⟩ := by
  have hread (e : Expr) (he : e.Writable) : parse e.write = .ok ⟨e.write, e⟩ := by
    rw [parse, he.parse_write]
    rfl
  refine ⟨?_, hread⟩
  intro source q hq
  obtain ⟨e, he, rfl⟩ := Program.exists_of_map_eq_ok hq
  have hwritable := Expr.writable_of_parse he
  exact ⟨hwritable, hread e hwritable⟩

/-- The query for what surrounds the second child that is a title of this kind. -/
def titled : Expr :=
  .path [⟨.child, .tag "title", [.position 2, .attribute "kind" (some "it's")]⟩, ⟨.parent, .any, []⟩]

/-- The query for the element itself, if its name and that of a child look much like axes. -/
def colons : Expr :=
  .path [⟨.self, .tag "self:", [.hasChild ":a"]⟩]

/-- A short form of `titled` and its full form are read alike, and so is `colons` from its full form. -/
theorem reread_of_write_titled :
    parse " ./title[2][@kind=\"it's\"]/.. " = .ok ⟨" ./title[2][@kind=\"it's\"]/.. ", titled⟩ ∧
      titled.write = "child::title[2][@kind=\"it's\"]/parent::*" ∧
      parse titled.write = .ok ⟨titled.write, titled⟩ ∧
      colons.Writable ∧ colons.write = "self::self:[:a]" ∧
      parse colons.write = .ok ⟨colons.write, colons⟩ := by
  obtain ⟨hparse, hwrite⟩ := reread_of_write
  have htitled : parse " ./title[2][@kind=\"it's\"]/.. " =
      .ok ⟨" ./title[2][@kind=\"it's\"]/.. ", titled⟩ := by decide +kernel
  have hcolons : colons.Writable := by decide +kernel
  exact ⟨htitled, by decide +kernel, (hparse _ _ htitled).2, hcolons, by decide +kernel,
    hwrite colons hcolons⟩

end DoxygenRest.Query

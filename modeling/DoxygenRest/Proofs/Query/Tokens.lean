import DoxygenRest.Query.Parser
import DoxygenRest.Query.Writer
import DoxygenRest.Proofs.Program
import DoxygenRest.Proofs.Text.White
import Mathlib.Data.List.Infix

/-!
# Names, values and positions of queries

The smallest parts of a query are tokens, names, values in quotes and positions.  For each of them two
things are shown: what is written for it is read back, whatever follows that it cannot go on with
(`readName_append`, `readQuoted_append`, `readAttribute_append`, `readPosition?_append`), and whatever is
read can be written (`isName_of_readName`, `isValue_of_readQuoted`, `isAttribute_of_readAttribute`,
`bounds_of_readPosition?`).
-/

namespace DoxygenRest.Query

variable {cs rest : List Char}

/-! ### Tokens -/

/-- A token is read where the text starts with it, and what is left is what comes behind it. -/
lemma eat?_eq_some_iff {token : String} : eat? token cs = some rest ↔ cs = token.toList ++ rest := by
  rw [eat?]
  induction token.toList generalizing cs with
  | nil => simp [List.isPrefixOf?, eq_comm]
  | cons c token ih =>
    cases cs with
    | nil => simp [List.isPrefixOf?]
    | cons d cs =>
      by_cases hcd : c = d
      · simp [List.isPrefixOf?, hcd, ih]
      · simp [List.isPrefixOf?, hcd, Ne.symm hcd]

/-- A token is eaten where it stands. -/
lemma eat?_append (token : String) (rest : List Char) :
    eat? token (token.toList ++ rest) = some rest :=
  eat?_eq_some_iff.2 rfl

/-- It is eaten only there. -/
lemma eat?_eq_none_iff {token : String} : eat? token cs = none ↔ ¬token.toList <+: cs := by
  rw [Option.eq_none_iff_forall_ne_some]
  constructor
  · rintro h ⟨rest, rfl⟩
    exact h rest (eat?_append token rest)
  · intro h rest hrest
    exact h ⟨rest, (eat?_eq_some_iff.1 hrest).symm⟩

/-! ### Names -/

/-- A name in a query: some characters of names, among them no two colons in a row. -/
structure IsName (name : String) : Prop where
  ne_empty : name ≠ ""
  isNameChar : ∀ c ∈ name.toList, isNameChar c = true
  noDoubleColon : ¬[':', ':'] <:+: name.toList

instance (name : String) : Decidable (IsName name) :=
  decidable_of_iff
    (name ≠ "" ∧ name.toList.all isNameChar = true ∧ ¬[':', ':'] <:+: name.toList)
    ⟨fun ⟨h, h', h''⟩ => ⟨h, List.all_eq_true.1 h', h''⟩,
      fun h => ⟨h.ne_empty, List.all_eq_true.2 h.isNameChar, h.noDoubleColon⟩⟩

/-- The characters that stand around names. -/
def separators : List Char :=
  ['[', ']', '/', '@', '=', '*', '\x27', '\x22']

/-- No name goes on with a separator. -/
lemma isNameChar_separator {c : Char} (hc : c ∈ separators) : isNameChar c = false := by
  have hall : separators.all (fun c => !isNameChar c) = true := by decide +kernel
  simpa using List.all_eq_true.1 hall c hc

/-- White space is no part of names. -/
lemma isNameChar_of_isWhite {c : Char} (hc : Text.isWhite c = true) : isNameChar c = false := by
  let white : List Nat := List.range' 9 5 ++ List.range' 0x2000 11 ++
    [0x20, 0x85, 0xA0, 0x1680, 0x2028, 0x2029, 0x202F, 0x205F, 0x3000]
  have hall : ∀ n ∈ white, isNameChar (Char.ofNat n) = false := by decide +kernel
  have hmem : c.toNat ∈ white := by
    simp only [Text.isWhite, Bool.or_eq_true, Bool.and_eq_true, decide_eq_true_eq,
      beq_iff_eq] at hc
    simp only [white, List.mem_append, List.mem_range'_1, List.mem_cons, List.not_mem_nil]
    omega
  rw [← Char.ofNat_toNat c]
  exact hall _ hmem

/-- What stands before the first double colon is a first part of the text. -/
lemma isPrefix_beforeDoubleColon (cs : List Char) : beforeDoubleColon cs <+: cs := by
  fun_induction beforeDoubleColon cs with
  | case1 => exact List.prefix_rfl
  | case2 => exact List.nil_prefix
  | case3 c rest _ ih => exact List.cons_prefix_cons.2 ⟨rfl, ih⟩

/-- No double colon stands before the first one. -/
lemma noDoubleColon_beforeDoubleColon (cs : List Char) :
    ¬[':', ':'] <:+: beforeDoubleColon cs := by
  fun_induction beforeDoubleColon cs with
  | case1 => simp
  | case2 => simp
  | case3 c rest hcolons ih =>
    rw [List.infix_cons_iff, not_or]
    refine ⟨?_, ih⟩
    intro hstart
    obtain ⟨rfl, hnext⟩ := List.cons_prefix_cons.1 hstart
    obtain ⟨more, rfl⟩ := hnext.trans (isPrefix_beforeDoubleColon rest)
    exact hcolons more rfl rfl

/-- A text without a double colon stands before it as a whole. -/
lemma beforeDoubleColon_eq_self (h : ¬[':', ':'] <:+: cs) : beforeDoubleColon cs = cs := by
  fun_induction beforeDoubleColon cs with
  | case1 => rfl
  | case2 rest => exact absurd (List.prefix_append [':', ':'] rest).isInfix h
  | case3 c rest _ ih =>
    rw [List.infix_cons_iff, not_or] at h
    rw [ih h.2]

/-- The characters of names go on up to where a name ends. -/
lemma IsName.takeWhile_append {name : String} (h : IsName name)
    (hrest : rest.head?.any Query.isNameChar = false) :
    (name.toList ++ rest).takeWhile Query.isNameChar = name.toList := by
  rw [List.takeWhile_append_of_pos h.isNameChar, (Text.dropWhile_of_head? hrest).2, List.append_nil]

/-- A name is read up to a character that no name goes on with. -/
lemma readName_append {name : String} (h : IsName name) (hrest : rest.head?.any isNameChar = false) :
    readName (name.toList ++ rest) = .ok (name, rest) := by
  have hne : name.toList.isEmpty = false := by simpa using h.ne_empty
  simp only [readName, h.takeWhile_append hrest, beforeDoubleColon_eq_self h.noDoubleColon, hne,
    Bool.false_eq_true, if_false, String.ofList_toList, List.drop_left]

/-- What is read as a name is one. -/
lemma isName_of_readName {name : String} (h : readName cs = .ok (name, rest)) :
    IsName name ∧ cs = name.toList ++ rest := by
  simp only [readName] at h
  split at h
  · cases h
  · next hne =>
    obtain ⟨rfl, rfl⟩ := Prod.mk.inj (Except.ok.inj h)
    have hpre := isPrefix_beforeDoubleColon (cs.takeWhile isNameChar)
    refine ⟨⟨?_, ?_, ?_⟩, ?_⟩
    · simpa using hne
    · intro c hc
      rw [String.toList_ofList] at hc
      exact List.mem_takeWhile_imp (hpre.subset hc)
    · rw [String.toList_ofList]
      exact noDoubleColon_beforeDoubleColon _
    · rw [String.toList_ofList]
      exact (List.prefix_iff_eq_append.1 (hpre.trans (List.takeWhile_prefix _))).symm

/-- A name starts with a character of names. -/
lemma IsName.exists_cons {name : String} (h : IsName name) :
    ∃ c cs, name.toList = c :: cs ∧ Query.isNameChar c = true := by
  obtain ⟨c, cs, hcons⟩ := List.exists_cons_of_ne_nil (show name.toList ≠ [] by simpa using h.ne_empty)
  exact ⟨c, cs, hcons, h.isNameChar c (by rw [hcons]; exact List.mem_cons_self ..)⟩

/-- Where a name starts, no separator is read. -/
lemma IsName.eat?_eq_none {name token : String} (h : IsName name) (c : Char)
    (htoken : token.toList = [c]) (hc : c ∈ separators) (rest : List Char) :
    eat? token (name.toList ++ rest) = none := by
  obtain ⟨d, cs, hcons, hd⟩ := h.exists_cons
  rw [eat?_eq_none_iff, htoken, hcons, List.cons_append]
  intro hstart
  obtain ⟨rfl, -⟩ := List.cons_prefix_cons.1 hstart
  rw [isNameChar_separator hc] at hd
  cases hd

/-- A name is not taken for a test of the element itself. -/
lemma IsName.eat?_self_eq_none {name : String} (h : IsName name)
    (hrest : rest.head?.any Query.isNameChar = false) :
    eat? "self::" (name.toList ++ rest) = none := by
  have hself : "self::".toList.all Query.isNameChar = true := by decide +kernel
  rw [eat?_eq_none_iff]
  rintro ⟨more, hmore⟩
  -- Otherwise the colons would belong to the name.
  have hname := h.takeWhile_append hrest
  rw [← hmore, List.takeWhile_append_of_pos (List.all_eq_true.1 hself)] at hname
  refine h.noDoubleColon ⟨['s', 'e', 'l', 'f'], more.takeWhile Query.isNameChar, ?_⟩
  rw [← hname]
  rfl

/-! ### Values -/

/-- A value that has a written form lacks one kind of quotes. -/
def IsValue (value : String) : Prop :=
  '\x27' ∉ value.toList ∨ '\x22' ∉ value.toList

instance (value : String) : Decidable (IsValue value) :=
  inferInstanceAs (Decidable (_ ∨ _))

/-- A text in quotes that it does not hold is read up to the closing quote. -/
lemma readQuoted_cons {quote : Char} (hquote : quote = '\x27' ∨ quote = '\x22') {body : List Char}
    (hbody : quote ∉ body) (rest : List Char) :
    readQuoted (quote :: (body ++ quote :: rest)) = .ok (String.ofList body, rest) := by
  have hall : ∀ c ∈ body, (c != quote) = true := by
    intro c hc
    simpa using fun heq : c = quote => hbody (heq ▸ hc)
  simp only [readQuoted, hquote, if_true, List.dropWhile_append_of_pos hall,
    List.takeWhile_append_of_pos hall]
  simp

/-- A written value is read back. -/
lemma readQuoted_append {value : String} (h : IsValue value) (rest : List Char) :
    readQuoted ((writeValue value).toList ++ rest) = .ok (value, rest) := by
  rw [writeValue]
  split
  · next hsingle =>
    have hdouble : '\x22' ∉ value.toList := h.resolve_left (by simpa using hsingle)
    simpa using readQuoted_cons (Or.inr rfl) hdouble rest
  · next hsingle =>
    have hsingle : '\x27' ∉ value.toList := by simpa using hsingle
    simpa using readQuoted_cons (Or.inl rfl) hsingle rest

/-- What is read from quotes lacks the quotes it was read from. -/
lemma isValue_of_readQuoted {value : String} (h : readQuoted cs = .ok (value, rest)) :
    IsValue value := by
  unfold readQuoted at h
  split at h
  · cases h
  · next quote body =>
    split at h
    · next hquote =>
      split at h
      · cases h
      · obtain ⟨rfl, -⟩ := Prod.mk.inj (Except.ok.inj h)
        have hnot : quote ∉ (String.ofList (body.takeWhile (· != quote))).toList := by
          intro hmem
          rw [String.toList_ofList] at hmem
          simpa using List.mem_takeWhile_imp hmem
        rcases hquote with rfl | rfl
        · exact Or.inl hnot
        · exact Or.inr hnot
    · cases h

/-! ### Attribute tests -/

/-- An attribute test that has a written form: a name, and a value that can be put in quotes if there is
one. -/
structure IsAttribute (name : String) (value : Option String) : Prop where
  name : IsName name
  value : ∀ v ∈ value, IsValue v

instance (name : String) (value : Option String) : Decidable (IsAttribute name value) :=
  decidable_of_iff (IsName name ∧ ∀ v ∈ value, IsValue v)
    ⟨fun ⟨h, h'⟩ => ⟨h, h'⟩, fun h => ⟨h.name, h.value⟩⟩

/-- What a text goes on with, if it goes on, is a bracket or a slash. -/
def Stops (rest : List Char) : Prop :=
  ∀ c ∈ rest.head?, c = '[' ∨ c = ']' ∨ c = '/'

/-- A text that ends here stops. -/
lemma stops_nil : Stops [] := by
  intro c hc
  cases hc

/-- So does one that goes on with a bracket or a slash. -/
lemma stops_cons {c : Char} (hc : c = '[' ∨ c = ']' ∨ c = '/') (cs : List Char) :
    Stops (c :: cs) := by
  intro d hd
  rwa [← Option.some.inj hd]

/-- No name goes on at a bracket or a slash. -/
lemma Stops.any_isNameChar (h : Stops rest) : rest.head?.any isNameChar = false := by
  cases hhead : rest.head? with
  | none => rfl
  | some c =>
    apply isNameChar_separator
    rcases h c hhead with rfl | rfl | rfl <;> simp [separators]

/-- A written attribute test is an at sign and what is read back behind it. -/
lemma readAttribute_append {name : String} {value : Option String} (h : IsAttribute name value)
    (hrest : Stops rest) :
    ∃ body, (writeAttribute name value).toList = '@' :: body ∧
      readAttribute (body ++ rest) = .ok ((name, value), rest) := by
  cases value with
  | none =>
    refine ⟨name.toList, by simp [writeAttribute], ?_⟩
    have hequals : eat? "=" rest = none := by
      rw [eat?_eq_none_iff]
      rintro ⟨more, rfl⟩
      simpa using hrest '=' rfl
    rw [readAttribute, readName_append h.name hrest.any_isNameChar]
    simp [bind, Except.bind, hequals, pure, Except.pure]
  | some value =>
    refine ⟨name.toList ++ '=' :: (writeValue value).toList, by simp [writeAttribute], ?_⟩
    have hstop : ('=' :: ((writeValue value).toList ++ rest)).head?.any isNameChar = false := by
      rw [List.head?_cons, Option.any_some]
      exact isNameChar_separator (by simp [separators])
    have hequals : eat? "=" ('=' :: ((writeValue value).toList ++ rest)) =
        some ((writeValue value).toList ++ rest) := eat?_eq_some_iff.2 (by simp)
    rw [List.append_assoc, List.cons_append, readAttribute, readName_append h.name hstop]
    simp [bind, Except.bind, hequals, readQuoted_append (h.value value rfl), pure, Except.pure]

/-- What is read as an attribute test can be written. -/
lemma isAttribute_of_readAttribute {name : String} {value : Option String}
    (h : readAttribute cs = .ok ((name, value), rest)) : IsAttribute name value := by
  obtain ⟨⟨name', cs'⟩, hname, h⟩ := Program.exists_of_bind_eq_ok h
  have hisName := (isName_of_readName hname).1
  simp only at h
  split at h
  · cases h
    exact ⟨hisName, fun v hv => nomatch hv⟩
  · obtain ⟨⟨value', cs''⟩, hvalue, h⟩ := Program.exists_of_bind_eq_ok h
    cases h
    refine ⟨hisName, fun v hv => ?_⟩
    rw [← Option.some.inj hv]
    exact isValue_of_readQuoted hvalue

/-! ### Positions -/

/-- A number is the value of its decimal digits. -/
lemma numberOf_toDigits (n : Nat) : numberOf (Nat.toDigits 10 n) = n := by
  have hdigits := Nat.ofDigitChars_ten_toDigits (n := n)
  rw [Nat.ofDigitChars_eq_foldl] at hdigits
  simpa only [numberOf, Nat.mul_comm] using! hdigits

/-- A written position is read up to the bracket behind it. -/
lemma readPosition?_append {place : Nat} (hpos : 1 ≤ place) (hlt : place < Nat.pow 2 64)
    (rest : List Char) :
    readPosition? ((toString place).toList ++ ']' :: rest) = some (.ok (place, ']' :: rest)) := by
  have hdigits : ∀ c ∈ Nat.toDigits 10 place, c.isDigit = true := fun c hc =>
    Nat.isDigit_of_mem_toDigits (by decide) (by decide) hc
  have hstop : (']' :: rest).head?.any Char.isDigit = false := rfl
  obtain ⟨hdrop, htake⟩ := Text.dropWhile_of_head? hstop
  have hfits : ¬Nat.pow 2 64 ≤ place := Nat.not_le.2 hlt
  have hne : place ≠ 0 := Nat.pos_iff_ne_zero.1 hpos
  rw [Nat.toString_eq_repr, Nat.toList_repr, readPosition?,
    List.takeWhile_append_of_pos hdigits, List.dropWhile_append_of_pos hdigits, htake, hdrop,
    List.append_nil]
  simp [numberOf_toDigits, hfits, hne]

/-- No position is read unless there is a digit at the start and something behind the digits. -/
lemma readPosition?_eq_none_iff :
    readPosition? cs = none ↔ cs.head?.any Char.isDigit = false ∨ ∀ c ∈ cs, c.isDigit = true := by
  have hstart : cs.takeWhile Char.isDigit = [] ↔ cs.head?.any Char.isDigit = false := by
    cases cs with
    | nil => simp
    | cons c cs => simp [List.takeWhile_cons]
  rw [← hstart, ← List.dropWhile_eq_nil_iff]
  simp only [readPosition?]
  split
  · next hnone => simpa using hnone
  · next hsome =>
    have hnot : ¬(cs.takeWhile Char.isDigit = [] ∨ cs.dropWhile Char.isDigit = []) := by
      simpa using hsome
    refine iff_of_false ?_ hnot
    split
    · simp
    · split <;> simp

/-- Positions that are read start at one and fit in a machine word. -/
lemma bounds_of_readPosition? {place : Nat} (h : readPosition? cs = some (.ok (place, rest))) :
    1 ≤ place ∧ place < Nat.pow 2 64 := by
  simp only [readPosition?] at h
  split at h
  · cases h
  · split at h
    · cases h
    · next hfits =>
      split at h
      · cases h
      · next hne =>
        obtain ⟨rfl, -⟩ := Prod.mk.inj (Except.ok.inj (Option.some.inj h))
        exact ⟨Nat.pos_of_ne_zero hne, Nat.not_le.1 hfits⟩

end DoxygenRest.Query

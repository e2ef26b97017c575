import DoxygenRest.Rest.Escape
import Mathlib.Tactic.Common

/-!
# What escaping leaves live

A reader of escaped text takes a backslash together with the character behind it; what is left are
the characters that nothing escapes (`unescaped`), and those of them that are markup are live.  The
characters of escaped text that nothing escapes are those that were no markup where they stood
(`mem_unescaped_escapeChars`).  So no asterisk, backquote or bar is live, and each backslash has a
character to escape.

With underscores it is otherwise.  Whether one ends a word is told by what stood behind it at
first.  A word character may by now have a backslash in front of it, if it is an underscore that
ends the word; and a backslash ends the word before it.  Escaped text is inert if and only if no
word of the text ended in two underscores (`live_of_escape`).

Whatever is live in it, nothing is lost in escaped text: `unescape`, which reads from left to right
and knows nothing of words, gives the text back (`escape_reversible`).
-/

namespace DoxygenRest.Rest

/-! ### Reading escaped text -/

/-- The characters of a text that no backslash escapes, each with what stands behind it.  A
backslash escapes the character behind it; one at the end of the text has none, and is itself among
the characters that are left. -/
def unescaped : List Char → List (Char × List Char)
  | [] => []
  | ['\\'] => [('\\', [])]
  | '\\' :: _ :: rest => unescaped rest
  | c :: rest => (c, rest) :: unescaped rest

/-- The text begins with a word character. -/
def StartsWord (cs : List Char) : Prop :=
  cs.head?.any Text.isWord = true

/-- A reader finds no markup in the text: no asterisk, backquote or bar is live, no backslash stands
without a character to escape, and a word goes on behind each live underscore. -/
structure IsInert (cs : List Char) : Prop where
  plain : ∀ c behind, (c, behind) ∈ unescaped cs → c ≠ '*' ∧ c ≠ '\x60' ∧ c ≠ '|'
  paired : ∀ behind, ('\\', behind) ∉ unescaped cs
  within : ∀ behind, ('_', behind) ∈ unescaped cs → StartsWord behind

variable {c : Char} {cs behind : List Char}

/-- A character that is no backslash is read as itself. -/
lemma unescaped_cons (h : c ≠ '\\') (rest : List Char) :
    unescaped (c :: rest) = (c, rest) :: unescaped rest := by
  rw [unescaped]
  · rintro rfl
    exact absurd rfl h
  · rintro c' rest' rfl
    exact absurd rfl h

/-! ### Reading the text that `escape` writes -/

/-- Escaping a text is escaping its characters. -/
lemma toList_escape (text : String) : (escape text).toList = escapeChars text.toList :=
  String.toList_ofList

/-- A character is no markup if it is none of the signs, where an underscore counts unless a word goes
on behind it. -/
lemma isMarkup_eq_false_iff {next? : Option Char} :
    isMarkup c next? = false ↔
      c ≠ '\\' ∧ c ≠ '*' ∧ c ≠ '\x60' ∧ c ≠ '|' ∧ (c = '_' → next?.any Text.isWord = true) := by
  simp only [isMarkup, Bool.or_eq_false_iff, beq_eq_false_iff_ne, Bool.and_eq_false_iff,
    Bool.not_eq_false', and_assoc, ne_eq, imp_iff_not_or]

/-- A character gets a backslash if it is markup where it stands.  Else it is written as it is, and it
is no backslash. -/
lemma escapeChars_cons_cases (c : Char) (cs : List Char) :
    (isMarkup c cs.head? = true ∧ escapeChars (c :: cs) = '\\' :: c :: escapeChars cs) ∨
      (isMarkup c cs.head? = false ∧ c ≠ '\\' ∧ escapeChars (c :: cs) = c :: escapeChars cs) := by
  rw [escapeChars]
  cases hc : isMarkup c cs.head? with
  | true => exact Or.inl ⟨rfl, if_pos rfl⟩
  | false => exact Or.inr ⟨rfl, (isMarkup_eq_false_iff.1 hc).1, if_neg Bool.false_ne_true⟩

/-- Live in escaped text is what was no markup in the text. -/
lemma mem_unescaped_escapeChars :
    (c, behind) ∈ unescaped (escapeChars cs) ↔
      ∃ before rest, cs = before ++ c :: rest ∧ isMarkup c rest.head? = false ∧
        behind = escapeChars rest := by
  induction cs with
  | nil => simp [escapeChars, unescaped]
  | cons d ds ih =>
    -- an item of the row is the first, or it is one of `ds`
    have hsplit : (∃ before rest, d :: ds = before ++ c :: rest ∧ isMarkup c rest.head? = false ∧
          behind = escapeChars rest) ↔
        (c = d ∧ isMarkup d ds.head? = false ∧ behind = escapeChars ds) ∨
          (c, behind) ∈ unescaped (escapeChars ds) := by
      rw [ih]
      constructor
      · rintro ⟨_ | ⟨e, before⟩, rest, hds, hlive, hbehind⟩
        · obtain ⟨rfl, rfl⟩ := List.cons_eq_cons.1 hds
          exact Or.inl ⟨rfl, hlive, hbehind⟩
        · exact Or.inr ⟨before, rest, (List.cons_eq_cons.1 hds).2, hlive, hbehind⟩
      · rintro (⟨rfl, hlive, hbehind⟩ | ⟨before, rest, rfl, hlive, hbehind⟩)
        · exact ⟨[], ds, rfl, hlive, hbehind⟩
        · exact ⟨d :: before, rest, rfl, hlive, hbehind⟩
    rw [hsplit]
    rcases escapeChars_cons_cases d ds with ⟨hd, hcons⟩ | ⟨hd, hbackslash, hcons⟩
    · rw [hcons, unescaped]
      simp [hd]
    · rw [hcons, unescaped_cons hbackslash, List.mem_cons, Prod.mk.injEq]
      simp [hd]

/-- The only word character that is ever markup is an underscore that no word follows. -/
lemma eq_underscore_of_isMarkup {next? : Option Char} (hmarkup : isMarkup c next? = true)
    (hword : Text.isWord c = true) : c = '_' ∧ ¬ next?.any Text.isWord = true := by
  have hplain : Text.isWord '\\' = false ∧ Text.isWord '*' = false ∧
      Text.isWord '\x60' = false ∧ Text.isWord '|' = false := by
    decide +kernel
  simp only [isMarkup, Bool.or_eq_true, beq_iff_eq, Bool.and_eq_true, Bool.not_eq_true'] at hmarkup
  rcases hmarkup with (((rfl | rfl) | rfl) | rfl) | ⟨hc, hnext⟩
  · exact absurd hword (by simp [hplain])
  · exact absurd hword (by simp [hplain])
  · exact absurd hword (by simp [hplain])
  · exact absurd hword (by simp [hplain])
  · exact ⟨hc, by simp [hnext]⟩

/-- A text begins with a word after escaping if it does so before, unless what it begins with is an
underscore that no word follows. -/
lemma startsWord_escapeChars_iff :
    StartsWord (escapeChars cs) ↔
      StartsWord cs ∧ ¬ ∃ rest, cs = '_' :: rest ∧ ¬ StartsWord rest := by
  have hbackslash : Text.isWord '\\' = false := by decide +kernel
  have hunderscore : Text.isWord '_' = true := by decide +kernel
  cases cs with
  | nil => simp [escapeChars, StartsWord]
  | cons c rest =>
    have hfirst : StartsWord (c :: rest) ↔ Text.isWord c = true := by simp [StartsWord]
    have hlone : (∃ rest', c :: rest = '_' :: rest' ∧ ¬ StartsWord rest') ↔
        c = '_' ∧ ¬ StartsWord rest := by
      simp
    rw [hfirst, hlone, escapeChars]
    by_cases hc : isMarkup c rest.head? = true
    · rw [if_pos hc]
      constructor
      · intro h
        exact absurd h (by simp [StartsWord, hbackslash])
      · rintro ⟨hword, hlast⟩
        exact absurd (eq_underscore_of_isMarkup hc hword) hlast
    · rw [if_neg hc]
      refine ⟨fun h => ⟨hfirst.1 h, ?_⟩, fun h => hfirst.2 h.1⟩
      rintro ⟨rfl, hrest⟩
      exact hc (by simpa [isMarkup, StartsWord] using hrest)

/-! ### Inert texts -/

/-- A word of the text ends in two underscores. -/
def EndsDoubled (cs : List Char) : Prop :=
  ∃ before rest, cs = before ++ '_' :: '_' :: rest ∧ ¬ StartsWord rest

/-- The live underscores of escaped text are those that a word followed. -/
lemma underscore_mem_unescaped_escapeChars :
    ('_', behind) ∈ unescaped (escapeChars cs) ↔
      ∃ before rest, cs = before ++ '_' :: rest ∧ StartsWord rest ∧ behind = escapeChars rest := by
  rw [mem_unescaped_escapeChars]
  simp [isMarkup_eq_false_iff, StartsWord]

/-- Behind each live underscore of escaped text a word goes on, unless a word of the text ended in
two underscores. -/
lemma forall_startsWord_iff :
    (∀ behind, ('_', behind) ∈ unescaped (escapeChars cs) → StartsWord behind) ↔
      ¬ EndsDoubled cs := by
  have hunderscore : Text.isWord '_' = true := by decide +kernel
  constructor
  · rintro h ⟨before, rest, hcs, hrest⟩
    have hlive : ('_', escapeChars ('_' :: rest)) ∈ unescaped (escapeChars cs) :=
      underscore_mem_unescaped_escapeChars.2
        ⟨before, '_' :: rest, hcs, by simp [StartsWord, hunderscore], rfl⟩
    exact (startsWord_escapeChars_iff.1 (h _ hlive)).2 ⟨rest, rfl, hrest⟩
  · intro h behind hlive
    obtain ⟨before, rest, hcs, hword, rfl⟩ := underscore_mem_unescaped_escapeChars.1 hlive
    refine startsWord_escapeChars_iff.2 ⟨hword, ?_⟩
    rintro ⟨rest', rfl, hrest'⟩
    exact h ⟨before, rest', hcs, hrest'⟩

/-- Escaped text holds no live asterisk, backquote or bar, and no backslash without a character to
escape.  Behind a live underscore a word goes on, or ends at once with one more underscore, which is
escaped.  The latter never happens, and the text is inert, if and only if no word of it ended in two
underscores. -/
theorem live_of_escape (s : String) :
    (∀ c behind, (c, behind) ∈ unescaped (escape s).toList →
      c ≠ '*' ∧ c ≠ '\x60' ∧ c ≠ '|' ∧ c ≠ '\\') ∧
    (∀ behind, ('_', behind) ∈ unescaped (escape s).toList →
      StartsWord behind ∨ ∃ rest, behind = '\\' :: '_' :: rest ∧ ¬ StartsWord rest) ∧
    (IsInert (escape s).toList ↔ ¬ EndsDoubled s.toList) := by
  rw [escape, String.toList_ofList]
  have hplain : ∀ c behind, (c, behind) ∈ unescaped (escapeChars s.toList) →
      c ≠ '*' ∧ c ≠ '\x60' ∧ c ≠ '|' ∧ c ≠ '\\' := by
    intro c behind hlive
    obtain ⟨_, _, _, hno, _⟩ := mem_unescaped_escapeChars.1 hlive
    obtain ⟨hbackslash, hasterisk, hbackquote, hbar, _⟩ := isMarkup_eq_false_iff.1 hno
    exact ⟨hasterisk, hbackquote, hbar, hbackslash⟩
  refine ⟨hplain, ?_, ?_⟩
  · intro behind hlive
    obtain ⟨_, rest, _, hword, rfl⟩ := underscore_mem_unescaped_escapeChars.1 hlive
    -- An underscore that was no markup has a word behind it.  An escape comes between them only if
    -- that is one more underscore, with no word behind it.
    by_cases hlast : ∃ rest', rest = '_' :: rest' ∧ ¬ StartsWord rest'
    · obtain ⟨rest', rfl, hrest'⟩ := hlast
      have hmarkup : isMarkup '_' rest'.head? = true := by simpa [isMarkup, StartsWord] using hrest'
      rw [escapeChars, if_pos hmarkup]
      exact Or.inr ⟨escapeChars rest', rfl, fun h => hrest' (startsWord_escapeChars_iff.1 h).1⟩
    · exact Or.inl (startsWord_escapeChars_iff.2 ⟨hword, hlast⟩)
  · rw [← forall_startsWord_iff]
    refine ⟨IsInert.within, fun hwithin => ⟨?_, ?_, hwithin⟩⟩
    · intro c behind hlive
      obtain ⟨hasterisk, hbackquote, hbar, _⟩ := hplain c behind hlive
      exact ⟨hasterisk, hbackquote, hbar⟩
    · intro behind hlive
      exact (hplain _ behind hlive).2.2.2 rfl

/-- Escaping does not leave every text inert: the first of two underscores at the end of a word stays
live, and a backslash follows it. -/
theorem not_isInert_escape : ¬ ∀ s : String, IsInert (escape s).toList := by
  intro h
  have hescape : (escape "name__").toList = "name_\\_".toList := by decide +kernel
  have hlive : ('_', ['\\', '_']) ∈ unescaped "name_\\_".toList := by decide
  have hword : ¬ StartsWord ['\\', '_'] := by
    unfold StartsWord
    decide +kernel
  have hinert : IsInert "name_\\_".toList := hescape ▸ h "name__"
  exact hword (hinert.within _ hlive)

/-! ### Taking the escapes away -/

/-- A character that is no backslash stays. -/
lemma unescapeChars_cons (h : c ≠ '\\') (rest : List Char) :
    unescapeChars (c :: rest) = c :: unescapeChars rest := by
  rw [unescapeChars]
  · rintro rfl
    exact absurd rfl h
  · rintro c' rest' rfl
    exact absurd rfl h

/-- Escaped text is read to its end, and no escape of it takes in a character of what stands behind:
each backslash of escaped text is followed by the character that it was written for. -/
lemma unescapeChars_escapeChars_append (cs rest : List Char) :
    unescapeChars (escapeChars cs ++ rest) = cs ++ unescapeChars rest := by
  induction cs with
  | nil => rfl
  | cons c cs ih =>
    rcases escapeChars_cons_cases c cs with ⟨-, hcons⟩ | ⟨-, hbackslash, hcons⟩
    · rw [hcons, List.cons_append, List.cons_append, unescapeChars, ih, List.cons_append]
    · rw [hcons, List.cons_append, unescapeChars_cons hbackslash, ih, List.cons_append]

/-- Removing the escapes gives back the text. -/
lemma unescape_escape (s : String) : unescape (escape s) = s := by
  have happend := unescapeChars_escapeChars_append s.toList []
  rw [List.append_nil, unescapeChars, List.append_nil] at happend
  rw [unescape, toList_escape, happend, String.ofList_toList]

/-- **Escaping is reversible.**  Taking the escapes away from escaped text gives the text back, and so
different texts are never escaped to the same. -/
theorem escape_reversible :
    (∀ s, unescape (escape s) = s) ∧ Function.Injective escape :=
  ⟨unescape_escape, Function.LeftInverse.injective unescape_escape⟩

end DoxygenRest.Rest

import DoxygenRest.Proofs.Rest.Escaping
import DoxygenRest.Proofs.Rest.Inline
import Mathlib.Data.List.Infix

/-!
# Where spans end

Behind the opening delimiter of a span a reader looks for the closing one, and takes it where it
first stands (`closingIndex?`).  In a span whose content is escaped a backslash is passed over
together with the character behind it.

Escaped text is passed over whole if the delimiter begins with a character that is markup wherever
it stands (`closingIndex?_escapeChars_append`), whatever the text is, and whether or not it ends in
a part of the delimiter.  Content that is taken as it is has no such protection: it must not hold
the delimiter, nor end in what the delimiter written behind it could complete
(`exists_occurrence_iff`).  So the spans end where they were meant to if their content is escaped,
or else if it is of this kind (`closesAtEnd_iff`).
-/

namespace DoxygenRest.Rest

/-! ### Looking for a delimiter -/

/-- Where a closing delimiter first stands in a text.  If the content is escaped, a backslash is
passed over together with the character behind it. -/
def closingIndex? (escapes : Bool) (closing : List Char) : List Char → Option Nat
  | [] => none
  | c :: rest =>
    if escapes && c == '\\' then
      match rest with
      | [] => none
      | _ :: rest => (closingIndex? escapes closing rest).map (· + 2)
    else if closing <+: c :: rest then some 0
    else (closingIndex? escapes closing rest).map (· + 1)

variable {c : Char} {closing cs rest : List Char}

/-- An escaped character does not close anything. -/
lemma closingIndex?_escaped (closing rest : List Char) (c : Char) :
    closingIndex? true closing ('\\' :: c :: rest) =
      (closingIndex? true closing rest).map (· + 2) :=
  rfl

/-- Otherwise a delimiter is found here or further on. -/
lemma closingIndex?_cons {escapes : Bool} (hc : escapes = true → c ≠ '\\') :
    closingIndex? escapes closing (c :: rest) =
      if closing <+: c :: rest then some 0
      else (closingIndex? escapes closing rest).map (· + 1) := by
  have hescape : ¬(escapes && c == '\\') = true := by
    rw [Bool.and_eq_true, beq_iff_eq]
    exact fun h => hc h.1 h.2
  conv_lhs => unfold closingIndex?
  rw [if_neg hescape]

/-- A delimiter is found where it stands, unless it begins with a backslash. -/
lemma closingIndex?_append_self {escapes : Bool} (hc : c ≠ '\\') (cs rest : List Char) :
    closingIndex? escapes (c :: cs) (c :: cs ++ rest) = some 0 := by
  rw [List.cons_append, closingIndex?_cons fun _ => hc, if_pos]
  exact List.prefix_append (c :: cs) rest

/-! ### Passing over escaped text -/

/-- In escaped text no delimiter is found that begins with a character that is markup wherever it
stands. -/
lemma closingIndex?_escapeChars_append (hmarkup : ∀ next?, isMarkup c next? = true)
    (cs ds rest : List Char) :
    closingIndex? true (c :: cs) (escapeChars ds ++ rest) =
      (closingIndex? true (c :: cs) rest).map (· + (escapeChars ds).length) := by
  induction ds with
  | nil => simp [escapeChars]
  | cons d ds ih =>
    rcases escapeChars_cons_cases d ds with ⟨-, hcons⟩ | ⟨hplain, hbackslash, hcons⟩
    · rw [hcons, List.cons_append, List.cons_append, closingIndex?_escaped, ih, Option.map_map]
      rfl
    · -- the delimiter does not begin here, for its first character would be escaped
      have hno : ¬ c :: cs <+: d :: (escapeChars ds ++ rest) := by
        rw [List.cons_prefix_cons]
        rintro ⟨rfl, -⟩
        rw [hmarkup] at hplain
        cases hplain
      rw [hcons, List.cons_append, closingIndex?_cons fun _ => hbackslash, if_neg hno, ih,
        Option.map_map]
      rfl

/-! ### Content that is taken as it is -/

/-- Where nothing is escaped, the delimiter is found at the first place that it stands at. -/
lemma closingIndex?_eq_some_iff (hclosing : closing ≠ []) {k : Nat} :
    closingIndex? false closing cs = some k ↔
      closing <+: cs.drop k ∧ ∀ j < k, ¬ closing <+: cs.drop j := by
  induction cs generalizing k with
  | nil => simp [closingIndex?, hclosing]
  | cons c cs ih =>
    rw [closingIndex?_cons (by simp)]
    split
    · next hhere =>
      constructor
      · intro hk
        obtain rfl := Option.some.inj hk
        exact ⟨hhere, by simp⟩
      · rintro ⟨-, hfirst⟩
        cases k with
        | zero => rfl
        | succ k => exact absurd hhere (hfirst 0 k.succ_pos)
    · next hhere =>
      cases k with
      | zero => simp [hhere]
      | succ k =>
        rw [Option.map_eq_some_iff]
        simp only [Nat.add_right_cancel_iff, exists_eq_right, ih, List.drop_succ_cons,
          Nat.forall_lt_succ_left, List.drop_zero, hhere, not_false_eq_true, true_and]

/-- A delimiter behind a text stands somewhere within the text, too, if and only if it stands within
the text and all but the last character of the delimiter. -/
lemma exists_occurrence_iff (hclosing : closing ≠ []) (cs behind : List Char) :
    (∃ j < cs.length, closing <+: (cs ++ (closing ++ behind)).drop j) ↔
      closing <:+: cs ++ closing.dropLast := by
  have hwhole : cs ++ (closing ++ behind) =
      cs ++ closing.dropLast ++ closing.getLast hclosing :: behind := by
    conv_lhs => rw [← List.dropLast_append_getLast hclosing]
    simp
  rw [hwhole]
  constructor
  · rintro ⟨j, hj, hprefix⟩
    have hj' : j ≤ (cs ++ closing.dropLast).length := by
      rw [List.length_append]
      omega
    -- what is left in front of the last character is long enough for the delimiter
    have hlong : closing.length ≤ ((cs ++ closing.dropLast).drop j).length := by
      rw [List.length_drop, List.length_append, List.length_dropLast]
      omega
    rw [List.drop_append_of_le_length hj'] at hprefix
    have hfront := List.prefix_of_prefix_length_le hprefix (List.prefix_append _ _) hlong
    exact hfront.isInfix.trans (List.drop_suffix _ _).isInfix
  · rintro ⟨front, more, heq⟩
    have hlength := congrArg List.length heq
    rw [List.length_append, List.length_append, List.length_append, List.length_dropLast] at hlength
    have hpos := List.length_pos_iff.2 hclosing
    refine ⟨front.length, by omega, ?_⟩
    rw [← heq, List.append_assoc, List.append_assoc, List.drop_left]
    exact List.prefix_append _ _

/-! ### Spans -/

namespace Span

variable {s : Span}

/-- The kinds of span that are written. -/
def kinds : List Span :=
  [bold, emphasis, literal, subscript, superscript, math, unresolved]

/-- What a reader has before them behind the opening delimiter of a span. -/
def behindOpening (s : Span) (text tail before : String) : List Char :=
  (s.render text tail before).toList.drop
    (leadingEscape before (s.delimit text).first? ++ s.opening).toList.length

/-- A reader takes the content of a span to end where it does end: the closing delimiter first stands
right behind it. -/
def ClosesAtEnd (s : Span) (text tail before : String) : Prop :=
  closingIndex? s.escapes s.closing.toList (s.behindOpening text tail before) =
    some (s.delimit text).inner.toList.length
  deriving Decidable

/-- Behind the opening delimiter stand the content, the closing delimiter, and the tail. -/
lemma behindOpening_eq (s : Span) (text tail before : String) :
    s.behindOpening text tail before = (s.delimit text).inner.toList ++
      (s.closing.toList ++ (trailingEscape (escape tail) ++ escape tail).toList) := by
  have hrender : (s.render text tail before).toList =
      (leadingEscape before (s.delimit text).first? ++ s.opening).toList ++
        ((s.delimit text).inner.toList ++
          (s.closing.toList ++ (trailingEscape (escape tail) ++ escape tail).toList)) := by
    simp only [render, wrap, delimit, Delimited.first?, String.toList_append, List.append_assoc]
  rw [behindOpening, hrender, List.drop_left]

/-- The closing delimiters begin with an asterisk or a backquote. -/
lemma exists_cons_closing (hs : s ∈ kinds) :
    ∃ c cs, s.closing.toList = c :: cs ∧ c ≠ '\\' ∧ ∀ next?, isMarkup c next? = true := by
  have hall : ∀ s ∈ kinds, s.closing.toList.head? = some '*' ∨
      s.closing.toList.head? = some '\x60' := by
    decide
  rcases hall s hs with hhead | hhead
  · obtain ⟨cs, hcs⟩ := List.head?_eq_some_iff.1 hhead
    exact ⟨'*', cs, hcs, by decide, fun _ => rfl⟩
  · obtain ⟨cs, hcs⟩ := List.head?_eq_some_iff.1 hhead
    exact ⟨'\x60', cs, hcs, by decide, fun _ => rfl⟩

/-- Content that is escaped does not close its span. -/
lemma closesAtEnd_of_escapes (hs : s ∈ kinds) (hescapes : s.escapes = true)
    (text tail before : String) : s.ClosesAtEnd text tail before := by
  obtain ⟨c, cs, hclosing, hbackslash, hmarkup⟩ := exists_cons_closing hs
  have hinner : (s.delimit text).inner.toList = escapeChars text.toList := by
    rw [delimit, if_pos hescapes, toList_escape]
  rw [ClosesAtEnd, behindOpening_eq, hinner, hclosing, hescapes,
    closingIndex?_escapeChars_append hmarkup, closingIndex?_append_self hbackslash, Option.map_some,
    Nat.zero_add]

/-- A span whose content is taken as it is ends too early if and only if the closing delimiter stands
in the content, or begins in it and is completed by the one behind it. -/
lemma closesAtEnd_iff_of_not_escapes (hs : s ∈ kinds) (hescapes : s.escapes = false)
    (text tail before : String) :
    s.ClosesAtEnd text tail before ↔
      ¬ s.closing.toList <:+: text.toList ++ s.closing.toList.dropLast := by
  obtain ⟨c, cs, hclosing, -, -⟩ := exists_cons_closing hs
  have hne : s.closing.toList ≠ [] := hclosing ▸ List.cons_ne_nil c cs
  have hinner : (s.delimit text).inner = text := if_neg (by simp [hescapes])
  rw [ClosesAtEnd, behindOpening_eq, hinner, hescapes, closingIndex?_eq_some_iff hne,
    List.drop_left,
    ← exists_occurrence_iff hne _ (trailingEscape (escape tail) ++ escape tail).toList]
  simp only [List.prefix_append, true_and, not_exists, not_and]

/-- **Where spans end.**  If its content is escaped, a span ends where it was meant to, whatever the
content is and whatever stands around the span.  If its content is taken as it is, it does so if and
only if the closing delimiter does not stand within the content and all but the last character of
the delimiter behind it. -/
theorem closesAtEnd_iff (hs : s ∈ kinds) (text tail before : String) :
    s.ClosesAtEnd text tail before ↔ s.escapes = true ∨
      ¬ s.closing.toList <:+: text.toList ++ s.closing.toList.dropLast := by
  cases hescapes : s.escapes with
  | true => simp [closesAtEnd_of_escapes hs hescapes]
  | false => simp [closesAtEnd_iff_of_not_escapes hs hescapes]

/-- Bold text may end in an asterisk, as that is escaped; a literal may not end in a backquote. -/
theorem closesAtEnd_bold_and_literal :
    (bold ∈ kinds ∧ bold.ClosesAtEnd "2*" "pi" "x") ∧
      (literal ∈ kinds ∧ ¬ literal.ClosesAtEnd "2\x60" "pi" "x") := by
  have hbold := closesAtEnd_iff (s := bold) (by decide) "2*" "pi" "x"
  have hliteral := closesAtEnd_iff (s := literal) (by decide) "2\x60" "pi" "x"
  exact ⟨⟨by decide, hbold.2 (Or.inl rfl)⟩, ⟨by decide, fun h => absurd (hliteral.1 h) (by decide)⟩⟩

/-- Not all spans end where they were meant to: a backquote ends a formula. -/
theorem not_closesAtEnd_math :
    ¬ ∀ s ∈ kinds, ∀ text tail before, s.ClosesAtEnd text tail before := by
  intro h
  exact absurd (h math (by decide) "a\x60b" "" "") (by decide +kernel)

/-! ### The spans with content as it is -/

/-- A literal ends where it was meant to if and only if it holds no two backquotes in a row and does
not end in one. -/
theorem closesAtEnd_literal_iff (text tail before : String) :
    literal.ClosesAtEnd text tail before ↔
      ¬ ['\x60', '\x60'] <:+: text.toList ∧ text.toList.getLast? ≠ some '\x60' := by
  have hends : ['\x60', '\x60'] <:+ text.toList ++ ['\x60'] ↔
      text.toList.getLast? = some '\x60' := by
    show ['\x60'] ++ ['\x60'] <:+ text.toList ++ ['\x60'] ↔ _
    rw [List.suffix_append_inj_of_length_eq rfl, and_iff_left rfl,
      List.singleton_suffix_iff_getLast?_eq_some]
  have hclosing : literal.closing.toList = ['\x60', '\x60'] := by decide
  rw [closesAtEnd_iff_of_not_escapes (by decide) rfl, hclosing]
  show ¬ ['\x60', '\x60'] <:+: text.toList ++ ['\x60'] ↔ _
  rw [List.infix_concat_iff, hends, not_or, and_comm]

/-- A formula ends where it was meant to if and only if it holds no backquote. -/
theorem closesAtEnd_math_iff (text tail before : String) :
    math.ClosesAtEnd text tail before ↔ '\x60' ∉ text.toList := by
  have hclosing : math.closing.toList = ['\x60'] := by decide
  rw [closesAtEnd_iff_of_not_escapes (by decide) rfl, hclosing]
  show ¬ ['\x60'] <:+: text.toList ++ [] ↔ _
  rw [List.append_nil, List.singleton_infix_iff]

end Span

end DoxygenRest.Rest

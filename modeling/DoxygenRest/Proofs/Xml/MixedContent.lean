import DoxygenRest.Proofs.Xml.Stripping

/-!
# Blank text in mixed content

The text of an element comes in pieces: text and CDATA sections between its start tag and the next tag,
with comments and instructions among them (`textPieces`).  Kept blank text leaves all of them in the
text of the element; stripping leaves out the blank ones in front of the first one that is not blank.
So blank text behind text is kept, between the children of the element as well
(`Tree.mixedContent_kept`).

While a builder takes in events, the texts of its elements grow.  What they are going to be can be
foretold from what the builder has and the events that are left (`Builder.foretold`), and this never
changes as the builder goes on (`Builder.foretold_of_step`).
-/

namespace DoxygenRest

namespace Xml

/-! ### The pieces of a text -/

/-- The text and CDATA sections of a row of events up to the next tag. -/
def leadingPieces : List Event → List String
  | [] => []
  | .text s :: events => s :: leadingPieces events
  | .cdata s :: events => s :: leadingPieces events
  | .comment :: events => leadingPieces events
  | .instruction :: events => leadingPieces events
  | .doctype :: events => leadingPieces events
  | .start _ _ :: _ => []
  | .empty _ _ :: _ => []
  | .stop _ :: _ => []

/-- The pieces in front of the first child, for each element that begins in a row of events. -/
def textPieces : List Event → List (List String)
  | [] => []
  | .start _ _ :: events => leadingPieces events :: textPieces events
  | .empty _ _ :: events => [] :: textPieces events
  | .stop _ :: events => textPieces events
  | .text _ :: events => textPieces events
  | .cdata _ :: events => textPieces events
  | .comment :: events => textPieces events
  | .instruction :: events => textPieces events
  | .doctype :: events => textPieces events

/-- The pieces of text that the element of number `n` has in front of its first child. -/
def piecesOf (document : String) (n : NodeId) : List String :=
  (textPieces ((read document).events.map Prod.snd)).getD n []

/-- What is left of further pieces of an element that has a text already: stripping leaves out blank
pieces as long as there is no text. -/
def Blanks.left : Blanks → String → List String → List String
  | .keep, _, pieces => pieces
  | .strip, text, pieces => if text = "" then pieces.dropWhile Text.isBlank else pieces

namespace Blanks

variable {text s : String} {pieces : List String}

/-- A piece that is not blank, or stands behind text, is left. -/
lemma append_join_left {blanks : Blanks}
    (h : ¬(blanks = .strip ∧ Text.isBlank s = true ∧ text = "")) :
    text ++ s ++ String.join (blanks.left (text ++ s) pieces) =
      text ++ String.join (blanks.left text (s :: pieces)) := by
  cases blanks with
  | keep => rw [left, left, String.join_cons, String.append_assoc]
  | strip =>
    have hleft : left .strip text (s :: pieces) = s :: left .strip (text ++ s) pieces := by
      rw [left, left]
      by_cases htext : text = ""
      · have hblank : ¬Text.isBlank s = true := fun hs => h ⟨rfl, hs, htext⟩
        have hs : s ≠ "" := by
          rintro rfl
          exact hblank rfl
        rw [if_pos htext, List.dropWhile_cons_of_neg hblank, if_neg (by simp [hs])]
      · rw [if_neg htext, if_neg (by simp [htext])]
    rw [hleft, String.join_cons, String.append_assoc]

/-- A blank piece in front of all text is stripped. -/
lemma left_cons_of_isBlank (hs : Text.isBlank s = true) :
    left .strip "" (s :: pieces) = left .strip "" pieces := by
  rw [left, left, if_pos rfl, if_pos rfl, List.dropWhile_cons_of_pos hs]

end Blanks

namespace Builder

variable {b c : Builder} {blanks : Blanks} {position : Nat} {event : Event} {events : List Event}
  {n : NodeId}

/-! ### What the texts are going to be -/

/-- The tree that has been built so far, without elements before the root is opened. -/
def built (b : Builder) : Tree :=
  b.tree?.getD ⟨#[]⟩

/-- The pieces that the events left hold for the text of an element: all in front of the next tag if
the element is open and has no child yet, and those behind its tag if it has not begun. -/
def awaited (b : Builder) (events : List Event) (n : NodeId) : List String :=
  if n < b.built.size then
    if b.opened.head? = some n ∧ b.lastClosed? = none then leadingPieces events else []
  else (textPieces events).getD (n - b.built.size) []

/-- The text that an element is going to have once the events left are taken in. -/
def foretold (blanks : Blanks) (b : Builder) (events : List Event) (n : NodeId) : String :=
  b.built.text n ++ String.join (blanks.left (b.built.text n) (b.awaited events n))

/-- Without events, the text is the one that is there. -/
lemma foretold_nil (blanks : Blanks) (b : Builder) (n : NodeId) :
    b.foretold blanks [] n = b.built.text n := by
  have hnone : b.awaited [] n = [] := by simp [awaited, leadingPieces, textPieces]
  rw [foretold, hnone]
  cases blanks <;> simp [Blanks.left]

/-- Where texts stay as they are, so does what is foretold if the pieces that are awaited do. -/
lemma foretold_congr (htext : c.built.text n = b.built.text n)
    (hawaited : c.awaited events n = b.awaited (event :: events) n) :
    c.foretold blanks events n = b.foretold blanks (event :: events) n := by
  rw [foretold, foretold, htext, hawaited]

namespace Builds

variable {t : Tree} {fs : List Frame} {x : Branch} {s : String}

/-- What a builder has built is the tree it is known to build. -/
lemma built_eq (hb : b.Builds t fs x) : b.built = t := by
  rw [built, hb.tree?_eq, Option.getD_some]

/-- A piece is the first one awaited by the innermost open element if that has no child yet. -/
lemma awaited_cons (hb : b.Builds t fs x)
    (hleading : leadingPieces (event :: events) = s :: leadingPieces events)
    (hpieces : textPieces (event :: events) = textPieces events) (n : NodeId) :
    b.awaited (event :: events) n =
      if n = x.number ∧ t.lastChild? x.number = none then s :: b.awaited events n
      else b.awaited events n := by
  have hlt := hb.lt_size
  simp only [awaited, hb.built_eq, hb.opened_eq, hb.lastChild?_eq, hleading, hpieces]
  by_cases hn : n = x.number
  · subst hn
    rw [if_pos hlt, if_pos hlt]
    simp only [List.head?_cons, true_and]
    split <;> rfl
  · have hhead : (x.number :: fs.map Frame.number).head? ≠ some n := by
      simpa using Ne.symm hn
    rw [if_neg (mt And.left hn), if_neg (mt And.left hhead), if_neg (mt And.left hhead)]

/-- A piece of text comes out as it was foretold. -/
lemma foretold_addText (hb : b.Builds t fs x)
    (hleading : leadingPieces (event :: events) = s :: leadingPieces events)
    (hpieces : textPieces (event :: events) = textPieces events) (n : NodeId) :
    (b.addText blanks s).foretold blanks events n = b.foretold blanks (event :: events) n := by
  rw [hb.addText_ite, foretold, foretold, hb.awaited_cons hleading hpieces]
  split
  · next hs =>
    obtain ⟨rfl, hblank, htext⟩ := hs
    split
    · next hn =>
      rw [hn.1, hb.built_eq, htext, Blanks.left_cons_of_isBlank hblank]
    · rfl
  · next hs =>
    have hsame : awaited { b with tree? := some (t.extendContent x.number s) } events n =
        b.awaited events n := by
      simp [awaited, built, hb.tree?_eq]
    rw [hsame, hb.built_eq, built, Option.getD_some, Tree.text_extendContent hb.lt_size]
    split
    · next hn =>
      rw [← hn.1] at hs
      exact Blanks.append_join_left hs
    · rfl

end Builds

/-- A piece of text comes out as it was foretold, outside of all elements as well. -/
lemma foretold_addText (hb : b.Stage) {s : String}
    (hleading : leadingPieces (event :: events) = s :: leadingPieces events)
    (hpieces : textPieces (event :: events) = textPieces events) (n : NodeId) :
    (b.addText blanks s).foretold blanks events n = b.foretold blanks (event :: events) n := by
  cases hopened : b.opened with
  | nil =>
    rw [addText_outside hopened]
    apply foretold_congr rfl
    simp [awaited, hopened, hpieces]
  | cons m outer =>
    obtain ⟨t, fs, x, hx, -⟩ := hb.exists_builds hopened
    exact hx.foretold_addText hleading hpieces n

/-- An element that is opened gets the next number and has no text yet. -/
lemma openElement_ok (hb : b.Stage) {tag : String} {attributes : List (String × String)}
    (hopen : b.openElement position tag attributes = .ok (n, c)) :
    n = b.built.size ∧ c.built.size = n + 1 ∧ c.lastClosed? = none ∧
      ∀ m, c.built.text m = b.built.text m := by
  cases hb with
  | before htree hopened =>
    rw [openElement, htree] at hopen
    cases hopen
    refine ⟨?_, rfl, rfl, fun m => ?_⟩
    · rw [built, htree]
      rfl
    · rw [built, built, htree]
      rcases m with _ | m <;> rfl
  | @inside t fs x hx =>
    rw [hx.built_eq]
    rw [openElement, hx.tree?_eq, hx.opened_eq] at hopen
    cases hopen
    refine ⟨rfl, ?_, rfl, fun m => ?_⟩
    · exact size_addChild tag attributes
    · exact congrArg (Option.getD · "") (texts_addChild tag attributes hx.wellFormed hx.lt_size m).1
  | behind htree hopened ht =>
    rw [openElement, htree, hopened] at hopen
    cases hopen

/-- Behind the tag of an element, its pieces are awaited, and all others as before. -/
lemma awaited_of_opened (hsize : c.built.size = b.built.size + 1)
    (hleading : leadingPieces (event :: events) = [])
    (hpieces : textPieces (event :: events) = c.awaited events b.built.size :: textPieces events)
    (hothers : ∀ m < b.built.size, c.awaited events m = []) (n : NodeId) :
    c.awaited events n = b.awaited (event :: events) n := by
  rcases Nat.lt_trichotomy n b.built.size with hn | rfl | hn
  · rw [hothers n hn, awaited, if_pos hn, hleading, ite_self]
  · have hfirst : b.awaited (event :: events) b.built.size = c.awaited events b.built.size := by
      rw [awaited, if_neg (Nat.lt_irrefl _), Nat.sub_self, hpieces, List.getD_cons_zero]
    exact hfirst.symm
  · obtain ⟨k, rfl⟩ := Nat.exists_eq_add_of_lt hn
    have hc : ¬b.built.size + k + 1 < c.built.size := by omega
    have hk : b.built.size + k + 1 - c.built.size = k := by omega
    have hk' : b.built.size + k + 1 - b.built.size = k + 1 := by omega
    rw [awaited, awaited, if_neg hc, if_neg (Nat.lt_asymm hn), hpieces, hk, hk',
      List.getD_cons_succ]

/-- One event leaves as it is what is foretold. -/
theorem foretold_of_step (hb : b.Stage) (hstep : b.step blanks position event = .ok c)
    (n : NodeId) : c.foretold blanks events n = b.foretold blanks (event :: events) n := by
  cases event with
  | start tag attributes =>
    obtain ⟨⟨m, b'⟩, hopen, hrest⟩ := Program.exists_of_bind_eq_ok hstep
    obtain ⟨rfl, hsize, hlast, htext⟩ := openElement_ok hb hopen
    cases hrest
    refine foretold_congr (htext n) ?_
    have hawaited (m : NodeId) (hm : m < b.built.size + 1) :
        awaited { b' with opened := b.built.size :: b'.opened } events m =
          if b.built.size = m then leadingPieces events else [] := by
      rw [awaited, if_pos (hsize.symm ▸ hm), List.head?_cons, hlast]
      simp
    refine awaited_of_opened ?_ ?_ ?_ ?_ n
    · exact hsize
    · rfl
    · rw [hawaited _ (Nat.lt_succ_self _), if_pos rfl, textPieces]
    · intro m hm
      rw [hawaited m (Nat.lt_succ_of_lt hm), if_neg (Nat.ne_of_gt hm)]
  | empty tag attributes =>
    obtain ⟨⟨m, b'⟩, hopen, hrest⟩ := Program.exists_of_bind_eq_ok hstep
    obtain ⟨rfl, hsize, -, htext⟩ := openElement_ok hb hopen
    cases hrest
    refine foretold_congr (htext n) ?_
    have hawaited (m : NodeId) (hm : m < b.built.size + 1) :
        awaited { b' with lastClosed? := some b.built.size } events m = [] := by
      rw [awaited, if_pos (hsize.symm ▸ hm), if_neg (by simp)]
    refine awaited_of_opened ?_ ?_ ?_ ?_ n
    · exact hsize
    · rfl
    · rw [hawaited _ (Nat.lt_succ_self _), textPieces]
    · exact fun m hm => hawaited m (Nat.lt_succ_of_lt hm)
  | stop tag =>
    obtain ⟨htree, hlast⟩ := closeElement_ok hstep
    have hbuilt : c.built = b.built := by rw [built, built, htree]
    -- Neither what was closed nor what is around it has text to come: it has a child, or is closed.
    apply foretold_congr
    · rw [hbuilt]
    · simp [awaited, hbuilt, hlast, leadingPieces, textPieces]
  | text s | cdata s =>
    cases hstep
    exact foretold_addText hb rfl rfl n
  | comment | instruction | doctype =>
    cases hstep
    exact foretold_congr rfl rfl

/-- After all events, the texts are what was foretold. -/
theorem text_of_feed (hb : b.Stage) {items : List (Nat × Event)}
    (hfeed : feed blanks b items = .ok c) (n : NodeId) :
    c.built.text n = b.foretold blanks (items.map Prod.snd) n := by
  have hrun : c.Stage ∧ c.foretold blanks [] n = b.foretold blanks (items.map Prod.snd) n := by
    refine feed_induction (motive := fun c items' => c.Stage ∧
      c.foretold blanks (items'.map Prod.snd) n = b.foretold blanks (items.map Prod.snd) n)
      ?_ hfeed ⟨hb, rfl⟩
    rintro c c' position event items' hstep ⟨hc, hforetold⟩
    exact ⟨hc.step hstep, (foretold_of_step hc hstep n).trans hforetold⟩
  rw [← hrun.2, foretold_nil]

end Builder

/-- The text of each element of a tree that is read consists of its pieces, but for those that are left
out. -/
theorem Reading.text_of_tree {blanks : Blanks} {r : Reading} {t : Tree} (h : r.tree blanks = .ok t)
    (n : NodeId) :
    t.text n =
      String.join (blanks.left "" ((textPieces (r.events.map Prod.snd)).getD n [])) := by
  obtain ⟨-, b, hfeed, htree, -⟩ := exists_of_tree_eq_ok h
  have htext := Builder.text_of_feed Builder.stage_start hfeed n
  rw [Builder.built, htree, Option.getD_some] at htext
  rw [htext]
  exact String.empty_append

/-- A text is kept from its first piece on that is not blank, so it is not empty. -/
lemma join_dropWhile_isBlank_ne_empty {pieces : List String} {s : String} (hs : s ∈ pieces)
    (hblank : Text.isBlank s = false) : String.join (pieces.dropWhile Text.isBlank) ≠ "" := by
  cases hleft : pieces.dropWhile Text.isBlank with
  | nil =>
    have hall := List.dropWhile_eq_nil_iff.1 hleft s hs
    rw [hblank] at hall
    cases hall
  | cons s' rest =>
    have hhead := List.head?_dropWhile_not Text.isBlank pieces
    rw [hleft] at hhead
    rw [String.join_cons]
    intro hempty
    obtain ⟨rfl, -⟩ := String.append_eq_empty_iff.1 hempty
    cases hhead

end Xml

namespace Tree

/-- Blank text behind text is kept.  The text of an element in a stripped tree is what it is in the tree
with all blank text, but for the blank pieces in front of the first piece that is not blank; and if
there is such a piece, then the tails of the children are the same in both trees. -/
theorem mixedContent_kept (document : String) (u : Tree) (h : parse .strip document = .ok u) :
    ∃ t, parse .keep document = .ok t ∧ ∀ n,
      t.text n = String.join (Xml.piecesOf document n) ∧
      u.text n = String.join ((Xml.piecesOf document n).dropWhile Text.isBlank) ∧
      ((∃ s ∈ Xml.piecesOf document n, Text.isBlank s = false) →
        t.children n = u.children n ∧ ∀ c ∈ t.children n, u.tail? c = t.tail? c) := by
  obtain ⟨t, ht, hstrips⟩ := exists_stripsTo_of_parse h
  refine ⟨t, ht, fun n => ?_⟩
  have htext := Xml.Reading.text_of_tree ht n
  have htext' := Xml.Reading.text_of_tree h n
  refine ⟨htext, htext', ?_⟩
  rintro ⟨s, hs, hblank⟩
  refine ⟨(hstrips.children_eq n).symm, fun c hc => ?_⟩
  rw [← hstrips.children_eq] at hc
  exact hstrips.tail?_eq n (htext' ▸ Xml.join_dropWhile_isBlank_ne_empty hs hblank) c hc

/-- A paragraph whose text comes in two pieces, of which the first one is blank:

    <para> <!-- -->see <ref>a</ref> <ref>b</ref> </para>
-/
def quotation : Tree :=
  ⟨#[{ tag := "para", text := some "see ", children := [1, 2] },
    { tag := "ref", text := some "a", tail := some " ", parent := some 0 },
    { tag := "ref", text := some "b", tail := some " ", parent := some 0 }]⟩

/-- The blanks in front of the text of a paragraph are dropped, those around its references are
kept. -/
theorem mixedContent_kept_quotation :
    parse .strip "<para> <!-- -->see <ref>a</ref> <ref>b</ref> </para>" = .ok quotation ∧
      Xml.piecesOf "<para> <!-- -->see <ref>a</ref> <ref>b</ref> </para>" root = [" ", "see "] ∧
      ∃ t, parse .keep "<para> <!-- -->see <ref>a</ref> <ref>b</ref> </para>" = .ok t ∧ ∀ n,
        t.text n =
          String.join (Xml.piecesOf "<para> <!-- -->see <ref>a</ref> <ref>b</ref> </para>" n) ∧
        quotation.text n =
          String.join ((Xml.piecesOf "<para> <!-- -->see <ref>a</ref> <ref>b</ref> </para>" n).dropWhile
            Text.isBlank) ∧
        ((∃ s ∈ Xml.piecesOf "<para> <!-- -->see <ref>a</ref> <ref>b</ref> </para>" n,
            Text.isBlank s = false) →
          t.children n = quotation.children n ∧
            ∀ c ∈ t.children n, quotation.tail? c = t.tail? c) := by
  have hparse : parse .strip "<para> <!-- -->see <ref>a</ref> <ref>b</ref> </para>" =
      .ok quotation := by
    decide +kernel
  exact ⟨hparse, by decide +kernel, mixedContent_kept _ quotation hparse⟩

/-- In a paragraph that begins with markup, blank text is stripped although text follows:

    <para><bold>a</bold> <bold>b</bold> x</para>

The space between the two words is in front of all text of the paragraph. -/
theorem not_blanks_kept :
    ¬∀ (document : String) (t u : Tree), parse .keep document = .ok t →
      parse .strip document = .ok u → ∀ n,
        (Text.isBlank (t.text n) = false ∨
          ∃ c ∈ t.children n, Text.isBlank (t.tail c) = false) →
        u.text n = t.text n ∧ ∀ c ∈ t.children n, u.tail c = t.tail c := by
  intro h
  have hparse : parse .keep "<para><bold>a</bold> <bold>b</bold> x</para>" =
      .ok ⟨#[{ tag := "para", children := [1, 2] },
        { tag := "bold", text := some "a", tail := some " ", parent := some 0 },
        { tag := "bold", text := some "b", tail := some " x", parent := some 0 }]⟩ := by
    decide +kernel
  have hparse' : parse .strip "<para><bold>a</bold> <bold>b</bold> x</para>" =
      .ok ⟨#[{ tag := "para", children := [1, 2] },
        { tag := "bold", text := some "a", parent := some 0 },
        { tag := "bold", text := some "b", tail := some " x", parent := some 0 }]⟩ := by
    decide +kernel
  have htail := (h _ _ _ hparse hparse' root (Or.inr ⟨2, by decide, by decide⟩)).2 1 (by decide)
  exact absurd htail (by decide)

end Tree

end DoxygenRest

import DoxygenRest.Text.Ranges
import DoxygenRest.Xml.Writer
import DoxygenRest.Proofs.Text.White
import DoxygenRest.Proofs.Xml.Content
import DoxygenRest.Proofs.Xml.Escape

/-!
# Written tags and texts are read back

What is written for a tag, or for a text in front of a tag, is read as one event (`reads_start`,
`reads_empty`, `reads_stop`, `reads_text`), provided that the names in the tag are names of XML and
that no attribute occurs twice.  `Reads` says what is read of a document up to where it is read on;
it leaves the positions of the events open, since no tree depends on them.
-/

namespace DoxygenRest.Xml

/-! ### What is read -/

/-- While some elements are open, reading `cs` gives some events, and is reading `rest` then, while
the elements in `opened'` are open. -/
def Reads (opened : List String) (cs : List Char) (events : List Event) (opened' : List String)
    (rest : List Char) : Prop :=
  ∀ position, ∃ items next, items.map Prod.snd = events ∧
    readFrom opened position cs =
      ⟨items ++ (readFrom opened' next rest).events, (readFrom opened' next rest).failure?⟩

/-- Reading nothing leads nowhere. -/
lemma Reads.refl (opened : List String) (cs : List Char) : Reads opened cs [] opened cs :=
  fun position => ⟨[], position, rfl, rfl⟩

/-- What is read piece by piece is read in one go. -/
lemma Reads.trans {opened opened' opened'' : List String} {cs cs' cs'' : List Char}
    {events events' : List Event} (h : Reads opened cs events opened' cs')
    (h' : Reads opened' cs' events' opened'' cs'') :
    Reads opened cs (events ++ events') opened'' cs'' := by
  intro position
  obtain ⟨items, next, hitems, hread⟩ := h position
  obtain ⟨items', next', hitems', hread'⟩ := h' next
  refine ⟨items ++ items', next', ?_, ?_⟩
  · rw [List.map_append, hitems, hitems']
  · rw [hread, hread', List.append_assoc]

/-- What is read as one event. -/
lemma Reads.single {opened opened' : List String} {cs rest : List Char} {event : Event}
    (h : ∀ position, ∃ next,
      readFrom opened position cs = (readFrom opened' next rest).cons position event) :
    Reads opened cs [event] opened' rest := by
  intro position
  obtain ⟨next, hread⟩ := h position
  exact ⟨[(position, event)], next, rfl, hread⟩

/-- A document that is read to its end is read as its events. -/
lemma Reads.read_eq {document : String} {events : List Event}
    (h : Reads [] document.toList events [] []) (hfirst : document.toList.head? = some '<') :
    ∃ items, items.map Prod.snd = events ∧ read document = ⟨items, none⟩ := by
  obtain ⟨items, next, hitems, hread⟩ := h 0
  have hend : readFrom [] next [] = ⟨[], none⟩ := by
    rw [readFrom]
  have hmark : withoutByteOrderMark document.toList = document.toList := by
    obtain ⟨cs, hcs⟩ := List.head?_eq_some_iff.1 hfirst
    rw [hcs]
    rfl
  refine ⟨items, hitems, ?_⟩
  rw [read, hmark, hread, hend, List.append_nil]

/-! ### Names -/

/-- The characters of names in XML. -/
def nameRanges : Text.Ranges :=
  [(0x2D, 0x2E), (0x30, 0x3A), (0x41, 0x5A), (0x5F, 0x5F), (0x61, 0x7A), (0xB7, 0xB7), (0xC0, 0xD6),
    (0xD8, 0xF6), (0xF8, 0x37D), (0x37F, 0x1FFF), (0x200C, 0x200D), (0x203F, 0x2040),
    (0x2070, 0x218F), (0x2C00, 0x2FEF), (0x3001, 0xD7FF), (0xF900, 0xFDCF), (0xFDF0, 0xFFFD),
    (0x10000, 0xEFFFF)]

/-- A name in XML: some characters of names. -/
structure IsName (name : String) : Prop where
  ne_empty : name ≠ ""
  has : ∀ c ∈ name.toList, nameRanges.has c = true

instance (name : String) : Decidable (IsName name) :=
  decidable_of_iff (name ≠ "" ∧ name.toList.all nameRanges.has = true)
    ⟨fun ⟨hne, hhas⟩ => ⟨hne, List.all_eq_true.1 hhas⟩,
      fun h => ⟨h.ne_empty, List.all_eq_true.2 h.has⟩⟩

/-- The characters that are markup, or separate the parts of a tag, and those before references. -/
def markup : List Char :=
  ['<', '>', '=', '/', '!', '?', '&', '\x22', '\x27', ' ', '\t', '\n', '\x0d']

/-- No character of a name is markup. -/
lemma IsName.notMem_markup {name : String} (h : IsName name) {c : Char} (hc : c ∈ name.toList) :
    c ∉ markup := by
  have hmarkup : markup.any nameRanges.has = false := by decide
  intro hmem
  exact List.any_eq_false.1 hmarkup c hmem (h.has c hc)

/-- No character of a name is of a kind that all its characters in markup have. -/
lemma IsName.eq_false {name : String} (h : IsName name) {p : Char → Bool}
    (hp : ∀ c, p c = true → c ∈ markup) : ∀ c ∈ name.toList, p c = false := by
  intro c hc
  rw [Bool.eq_false_iff]
  intro hpc
  exact h.notMem_markup hc (hp c hpc)

/-- A name is not empty. -/
lemma IsName.exists_cons {name : String} (h : IsName name) : ∃ c cs, name.toList = c :: cs :=
  List.exists_cons_of_ne_nil (by simpa using h.ne_empty)

/-- White space is markup. -/
lemma isSpace_markup (c : Char) (hc : isSpace c = true) : c ∈ markup := by
  unfold isSpace at hc
  simp [markup] at hc ⊢
  tauto

/-- So is a quote. -/
lemma isQuote_markup (c : Char) (hc : isQuote c = true) : c ∈ markup := by
  unfold isQuote at hc
  simp [markup] at hc ⊢
  tauto

/-! ### Attributes -/

/-- What is written for an attribute, in characters. -/
lemma toList_writeAttribute (name value : String) :
    (writeAttribute name value).toList =
      ' ' :: (name.toList ++ '=' :: '\x22' :: ((escapeValue value).toList ++ ['\x22'])) := by
  simp [writeAttribute]

/-- What is written for a row of attributes. -/
def writtenRow (row : List (String × String)) : List Char :=
  row.flatMap fun item => (writeAttribute item.1 item.2).toList

/-- A written attribute is read up to its closing quote. -/
lemma attributeAt_written {name : String} (hname : IsName name) (value : String)
    {stop start : Nat} {seen : List (List Char × Nat)} (hseen : seen.lookup name.toList = none)
    (more : List Char) :
    attributeAt stop start seen
        (name.toList ++ '=' :: '\x22' :: ((escapeValue value).toList ++ '\x22' :: more)) =
      .ok ⟨name.toList, (escapeValue value).toList,
        name.toList.length + (escapeValue value).toList.length + 3⟩ := by
  obtain ⟨c, cs, hcons⟩ := hname.exists_cons
  have hpart : ∀ d ∈ cs, isNamePart d = true := by
    intro d hd
    have hnot := hname.notMem_markup (hcons ▸ List.mem_cons_of_mem c hd)
    unfold isNamePart isSpace
    simp [markup] at hnot ⊢
    tauto
  have hvalue : ∀ d ∈ (escapeValue value).toList, (d != '\x22') = true := by
    intro d hd
    have hquote := (ne_of_mem_escapeValue hd).2
    rw [bne_iff_ne]
    rintro rfl
    cases hquote
  have hequals : isNamePart '=' = false := rfl
  have hblank : isSpace '=' = false ∧ isSpace '\x22' = false := ⟨rfl, rfl⟩
  have hopen : isQuote '\x22' = true := rfl
  rw [hcons] at hseen ⊢
  unfold attributeAt
  simp only [List.cons_append, List.take_succ_cons, List.take_zero, List.drop_succ_cons,
    List.drop_zero, List.takeWhile_append_of_pos hpart, List.dropWhile_append_of_pos hpart,
    List.takeWhile_cons, List.dropWhile_cons, hequals, hblank.1, Bool.false_eq_true, if_false,
    List.append_nil, List.nil_append, hseen, hblank.2, hopen, if_true,
    List.takeWhile_append_of_pos hvalue, bne_self_eq_false]
  rw [if_pos (by simp)]
  simp

/-- Written attributes of different names are read back. -/
theorem attributesFrom_written {row : List (String × String)} (hnames : ∀ item ∈ row, IsName item.1)
    (hnodup : (row.map Prod.fst).Nodup) {stop offset : Nat} {seen : List (List Char × Nat)}
    (hseen : ∀ item ∈ row, seen.lookup item.1.toList = none) :
    attributesFrom stop offset seen (writtenRow row) = .ok row := by
  -- The first attribute is cut off, and the names seen so far grow by it; the rest is read from
  -- further on.
  induction row generalizing offset seen with
  | nil =>
    rw [writtenRow, List.flatMap_nil, attributesFrom]
    rfl
  | cons item row ih =>
    rw [List.forall_mem_cons] at hnames hseen
    rw [List.map_cons, List.nodup_cons] at hnodup
    obtain ⟨hname, hnames⟩ := hnames
    set written := item.1.toList ++
      '=' :: '\x22' :: ((escapeValue item.2).toList ++ '\x22' :: writtenRow row) with hwritten
    have hcons : writtenRow (item :: row) = ' ' :: written := by
      simp [writtenRow, toList_writeAttribute, hwritten]
    have hfirst : (' ' :: written).dropWhile isSpace = written := by
      obtain ⟨c, cs, hc⟩ := hname.exists_cons
      have hspace : isSpace c = false := by
        apply hname.eq_false isSpace_markup
        rw [hc]
        exact List.mem_cons_self ..
      simp [hwritten, hc, hspace, show isSpace ' ' = true from rfl]
    have hseen' (start : Nat) :
        ∀ other ∈ row, ((item.1.toList, start) :: seen).lookup other.1.toList = none := by
      intro other hother
      have hne : other.1 ≠ item.1 := fun heq => hnodup.1 (heq ▸ List.mem_map_of_mem hother)
      rw [List.lookup_cons, beq_eq_false_iff_ne.2 (mt String.toList_inj.1 hne)]
      exact hseen.2 other hother
    rw [hcons, attributesFrom]
    split
    · next heq =>
      rw [hfirst, hwritten] at heq
      simp at heq
    · next first rest heq =>
      rw [hfirst] at heq
      have hrest : rest.drop (item.1.toList.length + (escapeValue item.2).toList.length + 3 - 1) =
          writtenRow row := by
        have hsplit : written = (item.1.toList ++
            '=' :: '\x22' :: ((escapeValue item.2).toList ++ ['\x22'])) ++ writtenRow row := by
          simp [hwritten]
        rw [Nat.add_sub_assoc (by decide), ← List.drop_succ_cons (a := first), ← heq, hsplit]
        apply List.drop_left'
        simp
        omega
      rw [← heq, hwritten]
      simp only [attributeAt_written hname item.2 hseen.1, hrest, ih hnames hnodup.2 (hseen' _),
        resolve_escapeValue, Except.mapError, String.ofList_toList, bind, Except.bind]
      rfl

/-! ### Where a tag ends -/

/-- Which quote is open is told part by part. -/
lemma openQuote?_append (open? : Option Char) (cs ds : List Char) :
    openQuote? open? (cs ++ ds) = openQuote? (openQuote? open? cs) ds := by
  induction cs generalizing open? with
  | nil => rw [List.nil_append, openQuote?]
  | cons c cs ih =>
    cases open? with
    | none =>
      rw [List.cons_append, openQuote?, openQuote?]
      exact ih _
    | some quote =>
      rw [List.cons_append, openQuote?, openQuote?]
      exact ih _

/-- Without quotes, none is open. -/
lemma openQuote?_of_forall {cs : List Char} (h : ∀ c ∈ cs, isQuote c = false) :
    openQuote? none cs = none := by
  induction cs with
  | nil => rfl
  | cons c cs ih =>
    rw [List.forall_mem_cons] at h
    rw [openQuote?, h.1]
    exact ih h.2

/-- A quote stays open until it comes again. -/
lemma openQuote?_of_forall_ne {quote : Char} {cs : List Char} (h : ∀ c ∈ cs, c ≠ quote) :
    openQuote? (some quote) cs = some quote := by
  induction cs with
  | nil => rfl
  | cons c cs ih =>
    rw [List.forall_mem_cons] at h
    rw [openQuote?, if_neg h.1]
    exact ih h.2

/-- Attributes as they can be written: names of XML, each of which occurs once. -/
structure IsRow (row : List (String × String)) : Prop where
  isName : ∀ item ∈ row, IsName item.1
  nodup : (row.map Prod.fst).Nodup

/-- Behind a written attribute no quote is open. -/
lemma openQuote?_writeAttribute {name : String} (hname : IsName name) (value : String) :
    openQuote? none (writeAttribute name value).toList = none := by
  have hvalue : ∀ c ∈ (escapeValue value).toList, c ≠ '\x22' := by
    rintro c hc rfl
    have hquote := (ne_of_mem_escapeValue hc).2
    cases hquote
  have hfront : ∀ c ∈ ' ' :: (name.toList ++ ['=']), isQuote c = false := by
    intro c hc
    rw [List.mem_cons, List.mem_append, List.mem_singleton] at hc
    rcases hc with rfl | hc | rfl
    · rfl
    · exact hname.eq_false isQuote_markup c hc
    · rfl
  have hsplit : (writeAttribute name value).toList =
      ' ' :: (name.toList ++ ['=']) ++ '\x22' :: ((escapeValue value).toList ++ ['\x22']) := by
    simp [toList_writeAttribute]
  rw [hsplit, openQuote?_append, openQuote?_of_forall hfront, openQuote?, openQuote?_append]
  rw [show isQuote '\x22' = true from rfl, if_pos rfl, openQuote?_of_forall_ne hvalue]
  rfl

/-- Behind the attributes that are written, no quote is open. -/
lemma openQuote?_writtenRow {row : List (String × String)} (hrow : ∀ item ∈ row, IsName item.1) :
    openQuote? none (writtenRow row) = none := by
  induction row with
  | nil => rfl
  | cons item row ih =>
    rw [List.forall_mem_cons] at hrow
    rw [writtenRow, List.flatMap_cons, openQuote?_append, openQuote?_writeAttribute hrow.1]
    exact ih hrow.2

/-- A written attribute holds no `>`. -/
lemma notMem_writtenRow {row : List (String × String)} (hrow : ∀ item ∈ row, IsName item.1) :
    '>' ∉ writtenRow row := by
  rw [writtenRow, List.mem_flatMap]
  rintro ⟨item, hitem, hmem⟩
  have hname : '>' ∉ item.1.toList := fun hmem => (hrow item hitem).notMem_markup hmem (by decide)
  have hvalue : '>' ∉ (escapeValue item.2).toList :=
    fun hmem => (ne_of_mem_escapeValue hmem).1.2 rfl
  simp [toList_writeAttribute, hname, hvalue] at hmem

/-- Markup is cut at its first `>`, if it may end there. -/
lemma cutFrom_append {ends : List Char → Bool} (taken : List Char) {body : List Char}
    (hbody : '>' ∉ body) (hends : ends (taken.reverse ++ body) = true) (rest : List Char) :
    cutFrom ends taken (body ++ '>' :: rest) = some (taken.reverse ++ body, rest) := by
  induction body generalizing taken with
  | nil =>
    rw [List.append_nil] at hends ⊢
    rw [List.nil_append, cutFrom, if_pos ⟨rfl, hends⟩]
  | cons c body ih =>
    rw [List.mem_cons, not_or] at hbody
    have htaken : (c :: taken).reverse ++ body = taken.reverse ++ c :: body := by simp
    rw [List.cons_append, cutFrom, if_neg fun h => hbody.1 h.1.symm, ih _ hbody.2 (htaken ▸ hends),
      htaken]

/-- What stands between the `<` and the `>` of a tag. -/
structure IsTag (body : List Char) : Prop where
  head?_ne : body.head? ≠ some '!' ∧ body.head? ≠ some '?'
  notMem : '>' ∉ body
  endsTag : endsTag body = true

/-- A tag ends at the angle bracket behind it. -/
lemma IsTag.cutMarkup {body : List Char} (h : IsTag body) (rest : List Char) :
    cutMarkup (body ++ '>' :: rest) = .ok (body, rest) := by
  have hkind : markupKind (body ++ '>' :: rest) = .ok (Xml.endsTag, .openTag) := by
    have hne := h.head?_ne
    cases body with
    | nil => rfl
    | cons c body =>
      unfold markupKind
      split <;> simp_all
  have hcut := cutFrom_append [] h.notMem h.endsTag rest
  rw [Xml.cutMarkup, hkind]
  simp only [bind, Except.bind, hcut]
  rfl

/-- A tag is read as the event that it says. -/
lemma reads_tag {opened opened' : List String} {body : List Char} {event : Event} (h : IsTag body)
    (hinterpret : interpret opened body = .ok (event, opened')) (rest : List Char) :
    Reads opened ('<' :: (body ++ '>' :: rest)) [event] opened' rest := by
  apply Reads.single
  intro position
  refine ⟨position + Text.byteSize body + 2, ?_⟩
  rw [readFrom]
  split
  · next cause heq =>
    rw [h.cutMarkup] at heq
    cases heq
  · next body' after heq =>
    rw [h.cutMarkup] at heq
    cases heq
    rw [hinterpret]

/-! ### Start tags and end tags -/

section Tags

variable {tag : String} (htag : IsName tag)

include htag

/-- The part of a tag from its name to its last attribute is cut as a whole, also with a slash at
one end. -/
lemma isTag_written {row : List (String × String)} (hrow : ∀ item ∈ row, IsName item.1)
    (front back : List Char) (hfront : front = [] ∨ front = ['/'])
    (hback : back = [] ∨ back = ['/']) :
    IsTag (front ++ (tag.toList ++ (writtenRow row ++ back))) where
  head?_ne := by
    obtain ⟨c, cs, hc⟩ := htag.exists_cons
    have hfirst := htag.notMem_markup (hc ▸ List.mem_cons_self ..)
    rcases hfront with rfl | rfl
    · rw [hc]
      constructor
      · rintro heq
        cases heq
        exact hfirst (by decide)
      · rintro heq
        cases heq
        exact hfirst (by decide)
    · exact ⟨by simp, by simp⟩
  notMem := by
    have hname : '>' ∉ tag.toList := fun hmem => htag.notMem_markup hmem (by decide)
    have hattributes := notMem_writtenRow hrow
    rcases hfront with rfl | rfl <;> rcases hback with rfl | rfl <;> simp [hname, hattributes]
  endsTag := by
    have hslash {cs : List Char} (h : cs = [] ∨ cs = ['/']) : openQuote? none cs = none := by
      rcases h with rfl | rfl <;> rfl
    rw [endsTag, openQuote?_append, hslash hfront, openQuote?_append,
      openQuote?_of_forall (htag.eq_false isQuote_markup), openQuote?_append,
      openQuote?_writtenRow hrow, hslash hback]
    rfl

/-- The name of a tag ends where its attributes begin. -/
lemma span_tagName (row : List (String × String)) :
    tagName (tag.toList ++ writtenRow row) = tag.toList ∧
      (tag.toList ++ writtenRow row).dropWhile (fun c => !isSpace c) = writtenRow row := by
  have hname : ∀ c ∈ tag.toList, (!isSpace c) = true := by
    intro c hc
    rw [htag.eq_false isSpace_markup c hc]
    rfl
  have hrow : (writtenRow row).takeWhile (fun c => !isSpace c) = [] ∧
      (writtenRow row).dropWhile (fun c => !isSpace c) = writtenRow row := by
    cases row with
    | nil => exact ⟨rfl, rfl⟩
    | cons item row =>
      rw [writtenRow, List.flatMap_cons, toList_writeAttribute]
      exact ⟨rfl, rfl⟩
  constructor
  · rw [tagName, List.takeWhile_append_of_pos hname, hrow.1, List.append_nil]
  · rw [List.dropWhile_append_of_pos hname, hrow.2]

/-- The attributes of a tag are read back. -/
lemma attributes_written {row : List (String × String)} (hrow : IsRow row) :
    attributes (tag.toList ++ writtenRow row) = .ok row := by
  obtain ⟨hname, hrest⟩ := span_tagName htag row
  rw [attributes, hname, hrest]
  exact attributesFrom_written hrow.isName hrow.nodup fun _ _ => rfl

/-- A tag does not end in a slash, unless one is written behind its attributes. -/
lemma getLast?_written_ne {row : List (String × String)} :
    (tag.toList ++ writtenRow row).getLast? ≠ some '/' := by
  rcases List.eq_nil_or_concat' row with rfl | ⟨row, item, rfl⟩
  · intro hlast
    rw [writtenRow, List.flatMap_nil, List.append_nil] at hlast
    exact htag.notMem_markup (List.mem_of_getLast? hlast) (by decide)
  · have hquote : tag.toList ++ writtenRow (row ++ [item]) =
        tag.toList ++ (writtenRow row ++ ' ' :: (item.1.toList ++
          '=' :: '\x22' :: (escapeValue item.2).toList)) ++ ['\x22'] := by
      simp [writtenRow, toList_writeAttribute]
    rw [hquote, List.getLast?_concat]
    decide

variable {row : List (String × String)} (hrow : IsRow row) (opened : List String)

/-- What does not begin like other markup is a start tag. -/
lemma interpret_eq_startTag (more : List Char) :
    interpret opened (tag.toList ++ more) = startTag opened (tag.toList ++ more) := by
  obtain ⟨c, cs, hc⟩ := htag.exists_cons
  have hfirst : c ≠ '!' ∧ c ≠ '?' ∧ c ≠ '/' := by
    have hmarkup := htag.notMem_markup (hc ▸ List.mem_cons_self ..)
    simp [markup] at hmarkup
    tauto
  rw [hc, List.cons_append]
  unfold interpret
  split <;> simp_all

include hrow

/-- A start tag is read. -/
theorem reads_start (rest : List Char) :
    Reads opened ('<' :: (tag.toList ++ (writtenRow row ++ '>' :: rest))) [.start tag row]
      (tag :: opened) rest := by
  have htext := isTag_written htag hrow.isName [] [] (Or.inl rfl) (Or.inl rfl)
  rw [List.nil_append, List.append_nil] at htext
  have hinterpret : interpret opened (tag.toList ++ writtenRow row) =
      .ok (.start tag row, tag :: opened) := by
    have hlast : ¬['/'].isSuffixOf (tag.toList ++ writtenRow row) = true := by
      rw [List.isSuffixOf_iff_suffix, List.singleton_suffix_iff_getLast?_eq_some]
      exact getLast?_written_ne htag
    rw [interpret_eq_startTag htag, startTag, if_neg hlast, attributes_written htag hrow,
      (span_tagName htag row).1, String.ofList_toList]
    rfl
  have hread := reads_tag htext hinterpret rest
  rw [List.append_assoc] at hread
  exact hread

/-- A tag that opens and closes an element at once is read. -/
theorem reads_empty (rest : List Char) :
    Reads opened ('<' :: (tag.toList ++ (writtenRow row ++ '/' :: '>' :: rest))) [.empty tag row]
      opened rest := by
  have htext := isTag_written htag hrow.isName [] ['/'] (Or.inl rfl) (Or.inr rfl)
  rw [List.nil_append] at htext
  have hinterpret : interpret opened (tag.toList ++ (writtenRow row ++ ['/'])) =
      .ok (.empty tag row, opened) := by
    have hlast : ['/'].isSuffixOf (tag.toList ++ (writtenRow row ++ ['/'])) = true := by
      rw [← List.append_assoc, List.isSuffixOf_iff_suffix]
      exact List.suffix_append ..
    rw [interpret_eq_startTag htag, startTag, if_pos hlast, ← List.append_assoc,
      List.dropLast_concat]
    simp only [attributes_written htag hrow, (span_tagName htag row).1, String.ofList_toList]
    rfl
  have hread := reads_tag htext hinterpret rest
  rw [List.append_assoc, List.append_assoc] at hread
  exact hread

omit hrow in
/-- An end tag is read that closes the element opened last. -/
theorem reads_stop (rest : List Char) :
    Reads (tag :: opened) ('<' :: '/' :: (tag.toList ++ '>' :: rest)) [.stop tag] opened rest := by
  have htext := isTag_written htag (List.forall_mem_nil _) ['/'] [] (Or.inr rfl) (Or.inl rfl)
  rw [writtenRow, List.flatMap_nil, List.append_nil, List.append_nil] at htext
  have hname : endTagName tag.toList = tag.toList := by
    rw [endTagName]
    split
    · rfl
    · exact Text.dropEndWhile_of_forall (htag.eq_false isSpace_markup)
  have hinterpret : interpret (tag :: opened) (['/'] ++ tag.toList) = .ok (.stop tag, opened) := by
    rw [List.singleton_append, interpret, endTag, hname, String.ofList_toList]
    simp
  exact reads_tag htext hinterpret rest

end Tags

/-! ### Texts -/

/-- A text in front of a tag is read. -/
theorem reads_text {s : String} (hs : s ≠ "") (opened : List String) {rest : List Char}
    (hrest : rest.head? = some '<') :
    Reads opened ((escapeText s).toList ++ rest) [.text s] opened rest := by
  obtain ⟨c, cs, hc⟩ := List.exists_cons_of_ne_nil (escapeText_ne_empty hs)
  have hne : ∀ d ∈ c :: cs, d ≠ '<' := fun d hd => (ne_of_mem_escapeText (hc ▸ hd)).1
  rw [List.forall_mem_cons] at hne
  have hrun :
      (cs ++ rest).takeWhile (· != '<') = cs ∧ (cs ++ rest).dropWhile (· != '<') = rest := by
    have hcs : ∀ d ∈ cs, (d != '<') = true := by simpa using hne.2
    obtain ⟨d, rest, rfl⟩ := List.exists_cons_of_ne_nil (show rest ≠ [] by rintro rfl; cases hrest)
    cases hrest
    constructor
    · rw [List.takeWhile_append_of_pos hcs]
      simp
    · rw [List.dropWhile_append_of_pos hcs]
      simp
  apply Reads.single
  intro position
  refine ⟨position + Text.byteSize (escapeText s).toList, ?_⟩
  rw [hc, List.cons_append, readFrom, hrun.1, hrun.2, ← hc, resolve_escapeText]
  exact hne.1

end DoxygenRest.Xml

import DoxygenRest.Proofs.Program
import DoxygenRest.Proofs.Xml.Content

/-!
# How the tags of a document are nested

The reader refuses each end tag that does not close the element opened last.  So whatever it reads
of a document, up to the end or to the first fault, is of one of four shapes (`nesting_of_read`):
there is no tag at all; or the events end inside of elements that are open (`EndsWithin`); or they
are a whole element with no tag around it (`IsWhole`); or a second element begins behind a whole
one (`HasSecondRoot`).

What the reader keeps to is said of one event at a time (`Event.Moves`), and so is what follows for
the shapes (`Stands.step`).
-/

namespace DoxygenRest.Xml

variable {opened opened' : List String} {event : Event} {events front more : List Event}

/-! ### Shapes of rows of events -/

/-- The tag of the element that an event opens. -/
def Event.opens? : Event → Option String
  | start tag _ => some tag
  | empty tag _ => some tag
  | _ => none

/-- No event is a tag. -/
def IsTagless (events : List Event) : Prop :=
  ∀ event ∈ events, event.isTag = false

/-- Each start tag has its end tag behind it, each end tag has its start tag, and they are nested. -/
inductive Balanced : List Event → Prop
  | nil : Balanced []
  | other {event : Event} {events : List Event} (hevent : event.isTag = false)
      (hevents : Balanced events) : Balanced (event :: events)
  | empty (tag : String) (attributes : List (String × String)) {events : List Event}
      (hevents : Balanced events) : Balanced (.empty tag attributes :: events)
  | element (tag : String) (attributes : List (String × String)) {inside events : List Event}
      (hinside : Balanced inside) (hevents : Balanced events) :
      Balanced (.start tag attributes :: (inside ++ .stop tag :: events))

/-- The events of one element, from its start tag to its end tag. -/
inductive IsElement : List Event → Prop
  | empty (tag : String) (attributes : List (String × String)) : IsElement [.empty tag attributes]
  | element (tag : String) (attributes : List (String × String)) {inside : List Event}
      (hinside : Balanced inside) : IsElement (.start tag attributes :: (inside ++ [.stop tag]))

/-- There is one element, with all its end tags, and no tag around it. -/
inductive IsWhole : List Event → Prop
  | intro {prolog root epilog : List Event} (hprolog : IsTagless prolog) (hroot : IsElement root)
      (hepilog : IsTagless epilog) : IsWhole (prolog ++ root ++ epilog)

/-- The first element has no end tag, and the events end inside of it.  The elements without an end
tag are named in `opened`, innermost first; everything between their start tags is balanced. -/
inductive EndsWithin : List String → List Event → Prop
  | root {prolog inside : List Event} (hprolog : IsTagless prolog) (tag : String)
      (attributes : List (String × String)) (hinside : Balanced inside) :
      EndsWithin [tag] (prolog ++ .start tag attributes :: inside)
  | child {opened : List String} {front inside : List Event} (hfront : EndsWithin opened front)
      (tag : String) (attributes : List (String × String)) (hinside : Balanced inside) :
      EndsWithin (tag :: opened) (front ++ .start tag attributes :: inside)

/-- Behind one whole element, a second one begins. -/
def HasSecondRoot (items : List (Nat × Event)) (position : Nat) (tag : String) : Prop :=
  ∃ front event rest, items = front ++ (position, event) :: rest ∧
    IsWhole (front.map Prod.snd) ∧ event.opens? = some tag

/-- Where there are no events, there is no tag. -/
lemma isTagless_nil : IsTagless [] :=
  List.forall_mem_nil _

/-- An event that is no tag may follow. -/
lemma IsTagless.concat (h : IsTagless events) (hevent : event.isTag = false) :
    IsTagless (events ++ [event]) :=
  List.forall_mem_append.2 ⟨h, List.forall_mem_singleton.2 hevent⟩

/-- Balanced events behind each other are balanced. -/
lemma Balanced.append (h : Balanced events) (hmore : Balanced more) : Balanced (events ++ more) := by
  induction h with
  | nil => exact hmore
  | other hevent _ ih => exact .other hevent ih
  | empty tag attributes _ ih => exact .empty tag attributes ih
  | element tag attributes hinside _ _ ih =>
    rw [List.cons_append, List.append_assoc, List.cons_append]
    exact .element tag attributes hinside ih

/-- What ends within an element ends with an innermost one. -/
lemma EndsWithin.exists_cons (h : EndsWithin opened events) : ∃ tag outer, opened = tag :: outer := by
  cases h with
  | root hprolog tag => exact ⟨tag, [], rfl⟩
  | child hfront tag => exact ⟨tag, _, rfl⟩

/-- Balanced events leave the same elements open. -/
lemma EndsWithin.append (h : EndsWithin opened events) (hmore : Balanced more) :
    EndsWithin opened (events ++ more) := by
  cases h with
  | root hprolog tag attributes hinside =>
    rw [List.append_assoc, List.cons_append]
    exact .root hprolog tag attributes (hinside.append hmore)
  | child hfront tag attributes hinside =>
    rw [List.append_assoc, List.cons_append]
    exact .child hfront tag attributes (hinside.append hmore)

/-- Behind the root there may be events that are no tags. -/
lemma IsWhole.concat (h : IsWhole events) (hevent : event.isTag = false) :
    IsWhole (events ++ [event]) := by
  obtain ⟨hprolog, hroot, hepilog⟩ := h
  rw [List.append_assoc]
  exact .intro hprolog hroot (hepilog.concat hevent)

/-! ### What the reader keeps to -/

/-- How an event changes which elements are open, if an end tag closes the element opened last. -/
inductive Event.Moves : List String → Event → List String → Prop
  | other {event : Event} (hevent : event.isTag = false) (opened : List String) :
      Moves opened event opened
  | empty (tag : String) (attributes : List (String × String)) (opened : List String) :
      Moves opened (.empty tag attributes) opened
  | start (tag : String) (attributes : List (String × String)) (opened : List String) :
      Moves opened (.start tag attributes) (tag :: opened)
  | stop (tag : String) (outer : List String) : Moves (tag :: outer) (.stop tag) outer

/-- An end tag that is read closes the innermost element. -/
lemma moves_of_endTag {content : List Char} (h : endTag opened content = .ok (event, opened')) :
    event.Moves opened opened' := by
  cases opened with
  | nil => cases h
  | cons expected outer =>
    simp only [endTag] at h
    split at h
    · next hname =>
      cases h
      rw [hname]
      exact .stop expected _
    · cases h

/-- A start tag that is read opens an element, unless it is empty. -/
lemma moves_of_startTag {content : List Char}
    (h : startTag opened content = .ok (event, opened')) : event.Moves opened opened' := by
  unfold startTag at h
  split at h
  · obtain ⟨attributes, -, hanswer⟩ := Program.exists_of_bind_eq_ok h
    cases hanswer
    exact .empty _ attributes opened
  · obtain ⟨attributes, -, hanswer⟩ := Program.exists_of_bind_eq_ok h
    cases hanswer
    exact .start _ attributes opened

/-- A piece of markup opens an element, or closes the one opened last, or neither. -/
lemma moves_of_interpret {body : List Char} (h : interpret opened body = .ok (event, opened')) :
    event.Moves opened opened' := by
  unfold interpret at h
  split at h
  · split at h
    · cases h
      exact .other rfl opened
    · cases h
  · split at h
    · cases h
      exact .other rfl opened
    · cases h
  · split at h
    · obtain ⟨-, hanswer⟩ := Program.of_refuse_eq_ok h
      cases hanswer
      exact .other rfl opened
    · cases h
  · obtain ⟨-, hanswer⟩ := Program.of_refuse_eq_ok h
    cases hanswer
    exact .other rfl opened
  · exact moves_of_endTag h
  · exact moves_of_startTag h

/-! ### What is read -/

/-- Where the row of events that were read so far may end: in front of all elements, within
elements, which are named in `opened`, or behind one whole element. -/
inductive Stands : List String → List Event → Prop
  | before {front : List Event} (hfront : IsTagless front) : Stands [] front
  | within {opened : List String} {front : List Event} (hfront : EndsWithin opened front) :
      Stands opened front
  | behind {front : List Event} (hfront : IsWhole front) : Stands [] front

/-- An event that is no tag changes nothing about where the reader stands. -/
lemma Stands.other (h : Stands opened front) (hevent : event.isTag = false) :
    Stands opened (front ++ [event]) := by
  cases h with
  | before hfront => exact .before (hfront.concat hevent)
  | within hfront => exact .within (hfront.append (.other hevent .nil))
  | behind hfront => exact .behind (hfront.concat hevent)

/-- An end tag leads out of the innermost element, and out of the last one behind it. -/
lemma EndsWithin.stop {tag : String} {outer : List String}
    (h : EndsWithin (tag :: outer) front) : Stands outer (front ++ [.stop tag]) := by
  cases h with
  | @root prolog inside hprolog _ attributes hinside =>
    have hwhole := IsWhole.intro hprolog (.element tag attributes hinside) isTagless_nil
    rw [List.append_assoc, List.cons_append]
    rw [List.append_nil] at hwhole
    exact .behind hwhole
  | child hfront _ attributes hinside =>
    rw [List.append_assoc, List.cons_append]
    exact .within (hfront.append (.element tag attributes hinside .nil))

/-- With each event that is read, the row ends at one of its places, until a second element begins
behind a whole one. -/
theorem Stands.step (h : Stands opened front) (hmoves : event.Moves opened opened') :
    Stands opened' (front ++ [event]) ∨ IsWhole front ∧ ∃ tag, event.opens? = some tag := by
  cases hmoves with
  | other hevent => exact .inl (h.other hevent)
  | empty tag attributes =>
    cases h with
    | before hfront =>
      have hwhole := IsWhole.intro hfront (.empty tag attributes) isTagless_nil
      rw [List.append_nil] at hwhole
      exact .inl (.behind hwhole)
    | within hfront => exact .inl (.within (hfront.append (.empty tag attributes .nil)))
    | behind hfront => exact .inr ⟨hfront, tag, rfl⟩
  | start tag attributes =>
    cases h with
    | before hfront => exact .inl (.within (.root hfront tag attributes .nil))
    | within hfront => exact .inl (.within (.child hfront tag attributes .nil))
    | behind hfront => exact .inr ⟨hfront, tag, rfl⟩
  | stop tag =>
    cases h with
    | within hfront => exact .inl hfront.stop

/-- The events read from `opened` on: each one moves on from where the one before it led. -/
inductive Moving : List String → List (Nat × Event) → Prop
  | nil (opened : List String) : Moving opened []
  | cons {opened opened' : List String} {item : Nat × Event} {items : List (Nat × Event)}
      (hmoves : item.2.Moves opened opened') (hitems : Moving opened' items) :
      Moving opened (item :: items)

/-- From any place on, what is read moves from tag to tag. -/
lemma moving_readFrom (opened : List String) (position : Nat) (cs : List Char) :
    Moving opened (readFrom opened position cs).events := by
  fun_induction readFrom opened position cs with
  | case1 => exact .nil _
  | case2 => exact .nil _
  | case3 => exact .nil _
  | case4 opened position rest body after hcut event opened' hinterpret ih =>
    exact .cons (moves_of_interpret hinterpret) ih
  | case5 => exact .nil _
  | case6 opened position c rest hc run content hresolve ih =>
    exact .cons (.other rfl opened) ih

/-- Among events that are read from the start on, there are end tags only where an element was
opened. -/
lemma Moving.isTagless {items : List (Nat × Event)} (h : Moving [] items)
    (hopens : ∀ event ∈ items.map Prod.snd, event.opens? = none) :
    IsTagless (items.map Prod.snd) := by
  induction items with
  | nil => exact isTagless_nil
  | cons item items ih =>
    rw [List.map_cons, List.forall_mem_cons] at hopens
    rw [List.map_cons, IsTagless, List.forall_mem_cons]
    cases h with
    | cons hmoves hitems =>
      obtain ⟨position, event⟩ := item
      cases hmoves with
      | other hevent => exact ⟨hevent, ih hitems hopens.2⟩
      | empty | start => cases hopens.1

/-- What is read of a document is without tags if and only if it opens no element. -/
lemma isTagless_iff_of_read (document : String) :
    IsTagless ((read document).events.map Prod.snd) ↔
      ∀ event ∈ (read document).events.map Prod.snd, event.opens? = none := by
  refine ⟨fun h event hevent => ?_, (moving_readFrom ..).isTagless⟩
  have htag := h event hevent
  cases event with
  | start | empty | stop => cases htag
  | text | cdata | comment | instruction | doctype => rfl

/-- Behind events that end at one of the places, the reader goes on to one of them, or a second
element begins. -/
theorem Stands.run {items : List (Nat × Event)} (hitems : Moving opened items)
    (h : Stands opened front) :
    (∃ opened', Stands opened' (front ++ items.map Prod.snd)) ∨
      ∃ items' position event rest, items = items' ++ (position, event) :: rest ∧
        IsWhole (front ++ items'.map Prod.snd) ∧ ∃ tag, event.opens? = some tag := by
  induction hitems generalizing front with
  | nil opened =>
    rw [List.map_nil, List.append_nil]
    exact .inl ⟨opened, h⟩
  | @cons _ _ item items hmoves hitems ih =>
    rcases h.step hmoves with hnext | ⟨hwhole, hopens⟩
    · rcases ih hnext with hend | ⟨items', position, event, rest, rfl, hwhole, hopens⟩
      · rw [List.append_assoc] at hend
        exact .inl hend
      · rw [List.append_assoc] at hwhole
        exact .inr ⟨item :: items', position, event, rest, rfl, hwhole, hopens⟩
    · refine .inr ⟨[], item.1, item.2, items, rfl, ?_, hopens⟩
      rw [List.map_nil, List.append_nil]
      exact hwhole

/-- What is read of a document, up to its end or to the first fault, holds no tag, or ends within
elements, or is one whole element without tags around it, or goes on behind such a one with a second
element. -/
theorem nesting_of_read (document : String) :
    IsTagless ((read document).events.map Prod.snd) ∨
      (∃ tag outer, EndsWithin (tag :: outer) ((read document).events.map Prod.snd)) ∨
      IsWhole ((read document).events.map Prod.snd) ∨
      ∃ position tag, HasSecondRoot (read document).events position tag := by
  have hmoving : Moving [] (read document).events := moving_readFrom ..
  rcases (Stands.before isTagless_nil).run hmoving with
    ⟨opened, hend⟩ | ⟨front, position, event, rest, heq, hwhole, tag, hopens⟩
  · rw [List.nil_append] at hend
    cases hend with
    | before hfront => exact .inl hfront
    | within hfront =>
      obtain ⟨tag, outer, rfl⟩ := hfront.exists_cons
      exact .inr (.inl ⟨tag, outer, hfront⟩)
    | behind hfront => exact .inr (.inr (.inl hfront))
  · rw [List.nil_append] at hwhole
    exact .inr (.inr (.inr ⟨position, tag, front, event, rest, heq, hwhole, hopens⟩))

end DoxygenRest.Xml

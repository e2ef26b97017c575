import DoxygenRest.Bindings
import Mathlib.Data.List.Pairwise
import Mathlib.Tactic.Common

/-!
# Bindings as maps

What a name is bound to after bindings were made (`get?_insertAll`, `get?_ofList`): the entries of a
list count from the last to the first.  The entries of bindings, listed, make the same bindings
again (`ofList_entries`).
-/

namespace DoxygenRest.Bindings

/-- The first entry of a name counts. -/
lemma lookup_cons_ite (entry : String × String) (entries : List (String × String)) (key : String) :
    (entry :: entries).lookup key = if key = entry.1 then some entry.2 else entries.lookup key := by
  rw [List.lookup_cons]
  by_cases hkey : key = entry.1
  · simp [hkey]
  · simp [hkey, beq_eq_false_iff_ne.2 hkey]

/-- An entry that is inserted replaces the former one of its name alone. -/
lemma lookup_insertEntry (name value key : String) (entries : List (String × String)) :
    (insertEntry name value entries).lookup key =
      if key = name then some value else entries.lookup key := by
  induction entries with
  | nil => rw [insertEntry, lookup_cons_ite]
  | cons entry entries ih =>
    unfold insertEntry
    split
    · rw [lookup_cons_ite]
    · split
      · next hlt =>
        have hne : name ≠ entry.1 := by
          rintro rfl
          exact String.lt_irrefl _ hlt
        rw [lookup_cons_ite, ih, lookup_cons_ite]
        by_cases hkey : key = name
        · rw [if_neg (hkey ▸ hne), if_pos hkey, if_pos hkey]
        · rw [if_neg hkey, if_neg hkey]
      · next hnot hnot' =>
        have heq : name = entry.1 :=
          String.le_antisymm (String.not_lt.1 hnot') (String.not_lt.1 hnot)
        rw [lookup_cons_ite, lookup_cons_ite, ← heq]
        by_cases hkey : key = name
        · rw [if_pos hkey, if_pos hkey]
        · rw [if_neg hkey, if_neg hkey, if_neg hkey]

/-- A binding that is made replaces the former one of its name alone. -/
lemma get?_insert (b : Bindings) (name value key : String) :
    (b.insert name value).get? key = if key = name then some value else b.get? key :=
  lookup_insertEntry name value key b.entries

/-- Of several bindings of a name the last one counts. -/
theorem get?_insertAll (b : Bindings) (entries : List (String × String)) (key : String) :
    (b.insertAll entries).get? key = (entries.reverse.lookup key).or (b.get? key) := by
  induction entries generalizing b with
  | nil => rfl
  | cons entry entries ih =>
    have hcons :
        b.insertAll (entry :: entries) = (b.insert entry.1 entry.2).insertAll entries := rfl
    rw [hcons, ih, get?_insert, List.reverse_cons, List.lookup_append, Option.or_assoc]
    congr 1
    rw [lookup_cons_ite]
    by_cases hkey : key = entry.1 <;> simp [hkey]

/-- Of several entries for a name the last one counts. -/
theorem get?_ofList (entries : List (String × String)) (key : String) :
    (ofList entries).get? key = entries.reverse.lookup key := by
  rw [ofList, get?_insertAll]
  exact Option.or_none

/-! ### Entries in order -/

/-- A name behind all others is bound at the end. -/
lemma insertEntry_of_lt {name value : String} {entries : List (String × String)}
    (h : ∀ entry ∈ entries, entry.1 < name) :
    insertEntry name value entries = entries ++ [(name, value)] := by
  induction entries with
  | nil => rfl
  | cons entry entries ih =>
    rw [List.forall_mem_cons] at h
    have hnot : ¬name < entry.1 := fun hlt => String.lt_irrefl _ (String.lt_trans h.1 hlt)
    rw [insertEntry, if_neg hnot, if_pos h.1, ih h.2, List.cons_append]

/-- Entries in increasing order of names, behind those that are bound, are bound one after the
other. -/
lemma entries_insertAll {b : Bindings} {entries : List (String × String)}
    (h : (b.entries ++ entries).Pairwise (·.1 < ·.1)) :
    (b.insertAll entries).entries = b.entries ++ entries := by
  induction entries generalizing b with
  | nil => exact (List.append_nil _).symm
  | cons entry entries ih =>
    have hcons :
        b.insertAll (entry :: entries) = (b.insert entry.1 entry.2).insertAll entries := rfl
    have hlast : (b.insert entry.1 entry.2).entries = b.entries ++ [entry] := by
      apply insertEntry_of_lt
      intro other hother
      exact (List.pairwise_append.1 h).2.2 other hother entry (List.mem_cons_self ..)
    rw [List.append_cons, ← hlast] at h
    rw [hcons, ih h, hlast, ← List.append_cons]

/-- Bindings are made of their entries. -/
theorem ofList_entries (b : Bindings) : ofList b.entries = b := by
  have hentries : (ofList b.entries).entries = b.entries := entries_insertAll b.sorted
  cases hb : ofList b.entries
  cases b
  simp only [hb] at hentries
  congr

end DoxygenRest.Bindings

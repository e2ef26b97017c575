/-!
# Name bindings

A finite map from names to values, kept as the list of its entries in increasing order of names.
Attributes and namespace declarations are bindings: their order in a document carries no meaning,
so two equal maps are equal as data, and printing one always gives the same text.
-/

namespace DoxygenRest

/-- A finite map from names to values, listed in increasing order of names. -/
structure Bindings where
  /-- The bound names with their values. -/
  entries : List (String × String)
  /-- Each name occurs once, and smaller names come first. -/
  sorted : entries.Pairwise (·.1 < ·.1)
  deriving DecidableEq

namespace Bindings

/-- Bind `name` in a list of entries, replacing its former value. -/
def insertEntry (name value : String) : List (String × String) → List (String × String)
  | [] => [(name, value)]
  | entry :: rest =>
    if name < entry.1 then (name, value) :: entry :: rest
    else if entry.1 < name then entry :: insertEntry name value rest
    else (name, value) :: rest

/-- Each entry after an insertion is the new one or was there before. -/
theorem mem_insertEntry {name value : String} {entry : String × String}
    {entries : List (String × String)} (h : entry ∈ insertEntry name value entries) :
    entry = (name, value) ∨ entry ∈ entries := by
  induction entries with
  | nil => simpa [insertEntry] using h
  | cons first rest ih =>
    unfold insertEntry at h
    split at h
    · rcases List.mem_cons.1 h with rfl | h
      · exact Or.inl rfl
      · exact Or.inr h
    · split at h
      · rcases List.mem_cons.1 h with rfl | h
        · exact Or.inr (List.mem_cons_self ..)
        · exact (ih h).imp_right (List.mem_cons_of_mem _)
      · rcases List.mem_cons.1 h with rfl | h
        · exact Or.inl rfl
        · exact Or.inr (List.mem_cons_of_mem _ h)

/-- Insertion keeps the entries in increasing order of names. -/
theorem sorted_insertEntry (name value : String) {entries : List (String × String)}
    (h : entries.Pairwise (·.1 < ·.1)) :
    (insertEntry name value entries).Pairwise (·.1 < ·.1) := by
  induction entries with
  | nil => simp [insertEntry]
  | cons first rest ih =>
    have hfirst := (List.pairwise_cons.1 h).1
    have hrest := (List.pairwise_cons.1 h).2
    unfold insertEntry
    split
    · rename_i hlt
      refine List.pairwise_cons.2 ⟨fun entry hentry => ?_, h⟩
      rcases List.mem_cons.1 hentry with rfl | hentry
      · exact hlt
      · exact String.lt_trans hlt (hfirst entry hentry)
    · split
      · rename_i hlt
        refine List.pairwise_cons.2 ⟨fun entry hentry => ?_, ih hrest⟩
        rcases mem_insertEntry hentry with rfl | hentry
        · exact hlt
        · exact hfirst entry hentry
      · rename_i hnot hnot'
        have heq : name = first.1 := String.le_antisymm (String.not_lt.1 hnot') (String.not_lt.1 hnot)
        refine List.pairwise_cons.2 ⟨fun entry hentry => ?_, hrest⟩
        rw [heq]
        exact hfirst entry hentry

/-- No name is bound. -/
def empty : Bindings := ⟨[], List.Pairwise.nil⟩

instance : Inhabited Bindings := ⟨empty⟩

/-- Bind `name` to `value`, replacing its former value. -/
def insert (b : Bindings) (name value : String) : Bindings :=
  ⟨insertEntry name value b.entries, sorted_insertEntry name value b.sorted⟩

/-- The value bound to `name`, if any. -/
def get? (b : Bindings) (name : String) : Option String :=
  b.entries.lookup name

/-- Bind each listed name in turn; a later binding of a name replaces an earlier one. -/
def insertAll (b : Bindings) (entries : List (String × String)) : Bindings :=
  entries.foldl (fun b entry => b.insert entry.1 entry.2) b

/-- The bindings of a list of entries; a later entry of a name replaces an earlier one. -/
def ofList (entries : List (String × String)) : Bindings :=
  empty.insertAll entries

/-- Add all bindings of `c` to `b`; where both bind a name, `c` wins. -/
def union (b c : Bindings) : Bindings :=
  b.insertAll c.entries

/-- Whether no name is bound. -/
def isEmpty (b : Bindings) : Bool :=
  b.entries.isEmpty

end Bindings

end DoxygenRest

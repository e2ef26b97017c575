import DoxygenRest.Proofs.Rest.Lines
import DoxygenRest.Proofs.Rest.Success
import DoxygenRest.Proofs.Tree.Specimen

/-!
# Blocks contain what is in them

Members, sections, lists and listings are written as blocks.  Each block begins with a marker, and
whatever is in it hangs below the marker: texts of any kind are put into a block by `indent`, and
what is joined and trimmed afterwards still hangs.  So no content escapes from its block, however
deep blocks are nested (`contained_of_render`).

A parameter list has one marker for each name that is shown, which are the names in the first list
of names of an item.  The names in further lists have none (`not_contained_of_render`).
-/

namespace DoxygenRest.Rest

open Program

/-! ### The markers of an element -/

/-- The marker of a directive. -/
def Marker.ofDirective (name : String) : Marker :=
  ⟨".. " ++ name ++ "::", directiveIndent⟩

/-- The marker of a field.  The body is indented as if a blank stood behind the marker, which it
does unless the body is empty. -/
def Marker.ofField (text : String) : Marker :=
  ⟨text, (text ++ " ").utf8ByteSize⟩

/-- The marker of an item of a list. -/
def Marker.ofBullet (bullet : String) : Marker :=
  ⟨bullet, bullet.utf8ByteSize⟩

/-- The directives for members of the kinds that have one. -/
def memberDirectives : List (String × String) :=
  [("function", "c:function"), ("typedef", "c:type"), ("define", "c:macro"), ("variable", "c:var")]

/-- The markers of sections of the kinds that have one. -/
def sectionMarkers : List (String × Marker) :=
  [("return", .ofField ":return:"), ("attention", .ofDirective "attention"),
    ("note", .ofDirective "note"), ("warning", .ofDirective "warning"),
    ("remark", .ofDirective "admonition"), ("see", .ofDirective "seealso"),
    ("par", .ofDirective "admonition")]

/-- The lists of names of an item of a parameter list. -/
def nameLists (t : Tree) (item : NodeId) : List NodeId :=
  (t.children item).filter fun child => t.tag child == "parameternamelist"

/-- The names in those lists of names of an item that are shown. -/
def itemNames (t : Tree) (shown : List NodeId → List NodeId) (item : NodeId) : List String :=
  (shown (nameLists t item)).flatMap (namesOf t)

/-- The marker of the field for a name. -/
def fieldMarker (fieldName name : String) : Marker :=
  .ofField (":" ++ fieldName ++ " " ++ Text.trim name ++ ":")

/-- The markers of an element that is written in blocks, in document order, where `shown` says which
lists of names of an item of a parameter list are shown. -/
def blockMarkers (shown : List NodeId → List NodeId) (t : Tree) (n : NodeId) : List Marker :=
  let items := (t.children n).filter fun child => t.tag child == "listitem"
  if t.tag n = "memberdef" then
    [.ofDirective ((memberDirectives.lookup (kindOf t n)).getD "")]
  else if t.tag n = "simplesect" then (sectionMarkers.lookup (kindOf t n)).toList
  else if t.tag n = "itemizedlist" then items.map fun _ => .ofBullet "- "
  else if t.tag n = "orderedlist" then items.map fun _ => .ofBullet "#. "
  else if t.tag n = "parameterlist" then
    (t.children n).flatMap fun item =>
      (itemNames t shown item).map (fieldMarker ((fieldName? (kindOf t n)).getD ""))
  else if t.tag n = "programlisting" then [.ofDirective "code-block"]
  else []

/-- The texts of an element that stand in the lines of its markers. -/
def headTexts (shown : List NodeId → List NodeId) (t : Tree) (n : NodeId) : List String :=
  let fields (tags : List String) := (tags.filterMap (child? t n)).map t.stringValue
  if t.tag n = "memberdef" then
    if kindOf t n = "function" then fields ["definition", "argsstring"]
    else if kindOf t n = "define" then fields ["name"] ++
      ((t.children n).filter fun child => t.tag child == "param").map t.stringValue
    else fields ["type", "name"]
  else if t.tag n = "simplesect" then if kindOf t n = "par" then fields ["title"] else []
  else if t.tag n = "parameterlist" then (t.children n).flatMap (itemNames t shown)
  else []

/-- An element is written in blocks, each behind a marker. -/
def IsBlock (t : Tree) (n : NodeId) : Prop :=
  t.tag n ∈ ["memberdef", "itemizedlist", "orderedlist", "parameterlist", "programlisting"] ∨
    t.tag n = "simplesect" ∧ kindOf t n ∈ sectionMarkers.map Prod.fst

instance (t : Tree) (n : NodeId) : Decidable (IsBlock t n) :=
  inferInstanceAs (Decidable (_ ∨ _))

/-! ### Texts behind markers -/

section Texts

variable {width : Nat} {cs ds : List Char}

/-- A blank line can follow what hangs, and then more of it. -/
lemma Hangs.append_blank (hcs : Hangs width cs) (hds : Hangs width ds) :
    Hangs width (cs ++ '\n' :: '\n' :: ds) :=
  hcs.append_newline ((hangs_nil width).append_newline hds)

/-- What hangs below its first line does so with more of it behind a blank line. -/
lemma HangsBelow.append_blank (hcs : HangsBelow width cs) (hds : Hangs width ds) :
    HangsBelow width (cs ++ '\n' :: '\n' :: ds) :=
  hcs.append_newline ((hangs_nil width).append_newline hds)

/-- Trimming puts no characters into a text. -/
lemma notMem_trim {c : Char} {text : String} (h : c ∉ text.toList) :
    c ∉ (Text.trim text).toList := by
  intro hc
  rw [Text.trim, Text.trimEnd, Text.trimStart, String.toList_ofList, String.toList_ofList] at hc
  have hstart : c ∈ text.toList.dropWhile Text.isWhite := by
    rw [← Text.dropEndWhile_append_takeEndWhile Text.isWhite (text.toList.dropWhile Text.isWhite)]
    exact List.mem_append_left _ hc
  exact h ((List.dropWhile_suffix _).subset hstart)

/-- A directive, the rest of whose first line holds no newline, contains its body. -/
lemma heads_directive {name title : String} (hname : '\n' ∉ (Marker.ofDirective name).text.toList)
    (htitle : '\n' ∉ title.toList) (body : String) :
    (Marker.ofDirective name).Heads
      (linesOf (directive ((Marker.ofDirective name).text ++ title) body).toList) := by
  have hlist : (directive ((Marker.ofDirective name).text ++ title) body).toList =
      (Marker.ofDirective name).text.toList ++
        (title.toList ++ '\n' :: '\n' :: ((indent body directiveIndent).toList ++ ['\n', '\n'])) := by
    simp [directive]
  rw [hlist]
  apply Marker.heads_append hname
  exact (hangsBelow_of_notMem htitle).append_blank
    ((hangs_indent body _).append_blank (hangs_nil _))

/-- Behind the marker of a field comes a blank and the trimmed body. -/
lemma hangsBelow_fieldBody (body : String) (width : Nat) :
    HangsBelow width (' ' :: (Text.trim (indent body width)).toList) := by
  have hblank : '\n' ∉ [' '] := by decide
  rw [← List.singleton_append]
  exact (hangsBelow_trim body width).append_left hblank

/-- What is trimmed at the end keeps what stands before a character that is not white. -/
lemma dropEndWhile_append_cons {p : Char → Bool} {c : Char} (hc : p c = false) :
    Text.dropEndWhile p (cs ++ c :: ds) = cs ++ c :: Text.dropEndWhile p ds := by
  rw [Text.dropEndWhile, Text.dropEndWhile, List.reverse_append, List.reverse_cons,
    List.append_assoc, List.singleton_append, List.dropWhile_append]
  split
  · next h =>
    rw [List.isEmpty_iff.1 h, List.dropWhile_cons_of_neg (by simp [hc])]
    simp
  · simp

/-- A field contains its body, trimmed at the end or with a blank line behind it. -/
lemma heads_field {init : String} (hinit : '\n' ∉ init.toList) (body : String) :
    (Marker.ofField (init ++ ":")).Heads
      (linesOf (Text.trimEnd (fieldItem (init ++ ": ") body)).toList) := by
  have hmarker : init ++ ": " = init ++ ":" ++ " " := by
    rw [String.append_assoc]
    rfl
  have hlist : (Text.trimEnd (fieldItem (init ++ ": ") body)).toList = (init ++ ":").toList ++
      Text.dropEndWhile Text.isWhite
        (' ' :: (Text.trim (indent body (init ++ ": ").utf8ByteSize)).toList) := by
    have hcolon : Text.isWhite ':' = false := by decide
    rw [Text.trimEnd, String.toList_ofList, fieldItem, String.toList_append, String.toList_append,
      List.append_assoc]
    show Text.dropEndWhile _ (_ ++ ':' :: ' ' :: _) = _
    rw [dropEndWhile_append_cons hcolon]
    simp
  rw [hlist, hmarker]
  refine Marker.heads_append ?_ ((hangsBelow_fieldBody body _).of_front ?_)
  · show '\n' ∉ (init ++ ":").toList
    simp [hinit]
  · exact ⟨_, Text.dropEndWhile_append_takeEndWhile _ _⟩

end Texts

/-! ### Blocks -/

section Blocks

variable {render : Render} {t : Tree} {n : NodeId} {before out : String}

/-- The body of a member hangs. -/
lemma hangs_of_memberBody {tags : List String} {body : String}
    (h : memberBody render t n tags = .ok body) : Hangs directiveIndent body.toList := by
  induction tags generalizing body with
  | nil =>
    obtain rfl := Except.ok.inj h
    exact hangs_nil _
  | cons tag rest ih =>
    obtain ⟨others, hothers, rfl | ⟨text, rfl⟩⟩ := exists_of_memberBody_cons h
    · exact ih hothers
    · have hlist : (indent (Text.trimEnd text) directiveIndent ++ "\n\n" ++ others).toList =
          (indent (Text.trimEnd text) directiveIndent).toList ++ '\n' :: '\n' :: others.toList := by
        simp
      rw [hlist]
      exact (hangs_indent _ _).append_blank (ih hothers)

/-- The marker of a member heads all that is written for it. -/
lemma heads_of_renderMember {name signature : String}
    (hname : '\n' ∉ (Marker.ofDirective name).text.toList) (hsignature : '\n' ∉ signature.toList)
    (h : renderMember render t name signature n = .ok out) :
    (Marker.ofDirective name).Heads (linesOf out.toList) := by
  obtain ⟨body, hbody, rfl⟩ := exists_of_renderMember h
  have hlist : (".. " ++ name ++ ":: " ++ signature ++ "\n\n" ++ body).toList =
      (Marker.ofDirective name).text.toList ++
        ((' ' :: signature.toList) ++ '\n' :: '\n' :: body.toList) := by
    simp [Marker.ofDirective]
  have htitle : '\n' ∉ ' ' :: signature.toList := by simp [hsignature]
  rw [hlist]
  apply Marker.heads_append hname
  exact (hangsBelow_of_notMem htitle).append_blank (hangs_of_memberBody hbody)

/-- So does the marker of what is returned. -/
lemma heads_of_renderReturn (h : renderReturn render t n before = .ok out) :
    (Marker.ofField ":return:").Heads (linesOf out.toList) := by
  obtain ⟨body, -, rfl⟩ := exists_of_renderReturn h
  have hlist : (fieldItem ":return: " body ++ "\n\n").toList = ":return:".toList ++
      ((' ' :: (Text.trim (indent body ":return: ".utf8ByteSize)).toList) ++
        '\n' :: '\n' :: []) := by
    simp [fieldItem]
  rw [hlist]
  refine Marker.heads_append (m := .ofField ":return:") (by decide) ?_
  exact (hangsBelow_fieldBody body _).append_blank (hangs_nil _)

/-- Each item of a list is headed by the bullet. -/
lemma heads_of_listItems {bullet : String} (hbullet : '\n' ∉ bullet.toList) {owner : NodeId}
    {row : List NodeId} {items : List String} (h : listItems render t bullet owner row = .ok items) :
    (∀ item ∈ row, t.tag item = "listitem") ∧
      List.Forall₂ (fun m item => Marker.Heads m (linesOf item.toList))
        (row.map fun _ => .ofBullet bullet) items := by
  induction row generalizing items with
  | nil =>
    obtain rfl := Except.ok.inj h
    exact ⟨List.forall_mem_nil _, .nil⟩
  | cons item rest ih =>
    obtain ⟨htag, texts, others, -, hothers, rfl⟩ := exists_of_listItems_cons h
    obtain ⟨htags, hheads⟩ := ih hothers
    refine ⟨List.forall_mem_cons.2 ⟨htag, htags⟩, .cons ?_ hheads⟩
    rw [String.toList_append]
    exact Marker.heads_append (m := .ofBullet bullet) hbullet (hangsBelow_trimStart _ _)

/-- Each field of a parameter is headed by its name. -/
lemma heads_of_parameterFields {fieldName : String} (hfieldName : '\n' ∉ fieldName.toList)
    {item : NodeId} (hnames : ∀ name ∈ itemNames t (List.take 1) item, '\n' ∉ name.toList)
    {fields : List String} (h : parameterFields render t fieldName item = .ok fields) :
    List.Forall₂ (fun m field => Marker.Heads m (linesOf field.toList))
      ((itemNames t (List.take 1) item).map (fieldMarker fieldName)) fields := by
  obtain ⟨names, description, rendered, hlist, -, -, rfl⟩ := exists_of_parameterFields h
  have hitem : itemNames t (List.take 1) item = namesOf t names := by
    have hhead : (nameLists t item).head? = some names := by
      rw [nameLists, List.head?_filter]
      exact hlist
    rw [itemNames, List.take_one, hhead]
    exact List.append_nil _
  rw [hitem] at hnames ⊢
  rw [List.forall₂_map_left_iff, List.forall₂_map_right_iff, List.forall₂_same]
  intro name hname
  have hinit : '\n' ∉ (":" ++ fieldName ++ " " ++ Text.trim name).toList := by
    simp [hfieldName, notMem_trim (hnames name hname)]
  exact heads_field hinit rendered

/-- Each field in a list of parameters is headed by its name. -/
lemma heads_of_parameterItems {fieldName : String} (hfieldName : '\n' ∉ fieldName.toList)
    {owner : NodeId} {row : List NodeId} {fields : List String}
    (hnames : ∀ name ∈ row.flatMap (itemNames t (List.take 1)), '\n' ∉ name.toList)
    (h : parameterItems render t fieldName owner row = .ok fields) :
    List.Forall₂ (fun m field => Marker.Heads m (linesOf field.toList))
      (row.flatMap fun item => (itemNames t (List.take 1) item).map (fieldMarker fieldName))
      fields := by
  induction row generalizing fields with
  | nil =>
    obtain rfl := Except.ok.inj h
    exact .nil
  | cons item rest ih =>
    obtain ⟨-, first, others, hfirst, hothers, rfl⟩ := exists_of_parameterItems_cons h
    rw [List.flatMap_cons, List.forall_mem_append] at hnames
    exact List.rel_append (heads_of_parameterFields hfieldName hnames.1 hfirst)
      (ih hnames.2 hothers)

/-- A list contains its items. -/
lemma contained_of_renderList {bullet : String} (hbullet : '\n' ∉ bullet.toList)
    (h : renderList render t bullet n before = .ok out) :
    Contained (((t.children n).filter fun child => t.tag child == "listitem").map fun _ =>
      .ofBullet bullet) out := by
  obtain ⟨items, hitems, rfl⟩ := exists_of_renderList h
  obtain ⟨htags, hheads⟩ := heads_of_listItems hbullet hitems
  rw [List.filter_eq_self.2 fun item hitem => by simp [htags item hitem]]
  exact contained_intercalate hheads

/-- A list of parameters contains its fields. -/
lemma contained_of_renderParameterList
    (hnames : ∀ name ∈ (t.children n).flatMap (itemNames t (List.take 1)), '\n' ∉ name.toList)
    (h : renderParameterList render t n before = .ok out) :
    Contained ((t.children n).flatMap fun item => (itemNames t (List.take 1) item).map
      (fieldMarker ((fieldName? (kindOf t n)).getD ""))) out := by
  obtain ⟨fieldName, fields, hkind, hfields, rfl⟩ := exists_of_renderParameterList h
  have hnewline : '\n' ∉ fieldName.toList := by
    unfold fieldName? at hkind
    split_ifs at hkind <;> obtain rfl := Option.some.inj hkind <;> decide
  rw [kindOf, hkind, Option.getD_some]
  exact contained_intercalate (heads_of_parameterItems hnewline hnames hfields)

/-- A listing contains its code. -/
lemma contained_of_renderListing (h : renderListing t n before = .ok out) :
    Contained [.ofDirective "code-block"] out := by
  obtain rfl := Except.ok.inj h
  have hlanguage : '\n' ∉ " c".toList := by decide
  exact contained_singleton (heads_directive (by decide) hlanguage _)

/-! #### Members -/

/-- A field holds no newline if the texts of all fields that are read hold none. -/
lemma notMem_of_field {tags : List String} {tag text : String}
    (htexts : ∀ text ∈ (tags.filterMap (child? t n)).map t.stringValue, '\n' ∉ text.toList)
    (htag : tag ∈ tags) (h : field t n tag = .ok text) : '\n' ∉ text.toList := by
  obtain ⟨child, hchild, rfl⟩ := exists_of_field h
  exact htexts _ (List.mem_map_of_mem (List.mem_filterMap.2 ⟨tag, htag, hchild⟩))

/-- A character that is in neither the texts nor what separates them is not in what is joined. -/
lemma notMem_intercalate {c : Char} {separator : List Char} {texts : List (List Char)}
    (hseparator : c ∉ separator) (htexts : ∀ text ∈ texts, c ∉ text) :
    c ∉ separator.intercalate texts := by
  induction texts with
  | nil => exact List.not_mem_nil
  | cons text texts ih =>
    rw [List.forall_mem_cons] at htexts
    cases texts with
    | nil =>
      rw [List.intercalate_singleton]
      exact htexts.1
    | cons text' texts =>
      rw [List.intercalate_cons_cons, List.mem_append, List.mem_append, not_or, not_or]
      exact ⟨⟨htexts.1, hseparator⟩, ih htexts.2⟩

/-- The marker of a function heads its documentation, if the signature is on one line. -/
lemma heads_of_renderFunction
    (htexts : ∀ text ∈ (["definition", "argsstring"].filterMap (child? t n)).map t.stringValue,
      '\n' ∉ text.toList)
    (h : renderFunction render t n before = .ok out) :
    (Marker.ofDirective "c:function").Heads (linesOf out.toList) := by
  obtain ⟨definition, hdefinition, h⟩ := exists_of_bind_eq_ok h
  obtain ⟨arguments, harguments, h⟩ := exists_of_bind_eq_ok h
  refine heads_of_renderMember (by decide) ?_ h
  rw [String.toList_append, List.mem_append, not_or]
  exact ⟨notMem_of_field htexts (by simp) hdefinition, notMem_of_field htexts (by simp) harguments⟩

/-- The marker of a declaration heads its documentation, if the type and the name are on one line.
-/
lemma heads_of_renderDeclaration {name : String}
    (hname : '\n' ∉ (Marker.ofDirective name).text.toList)
    (htexts : ∀ text ∈ (["type", "name"].filterMap (child? t n)).map t.stringValue,
      '\n' ∉ text.toList)
    (h : renderDeclaration render t name n before = .ok out) :
    (Marker.ofDirective name).Heads (linesOf out.toList) := by
  obtain ⟨type, htype, h⟩ := exists_of_bind_eq_ok h
  obtain ⟨declared, hdeclared, h⟩ := exists_of_bind_eq_ok h
  refine heads_of_renderMember hname (notMem_trim ?_) h
  simp [notMem_of_field htexts (by simp) htype, notMem_of_field htexts (by simp) hdeclared]

/-- The marker of a macro heads its documentation, if the name and the parameters are on one line.
-/
lemma heads_of_renderMacro
    (hname : ∀ text ∈ (["name"].filterMap (child? t n)).map t.stringValue, '\n' ∉ text.toList)
    (hparams : ∀ text ∈
      ((t.children n).filter fun child => t.tag child == "param").map t.stringValue,
      '\n' ∉ text.toList)
    (h : renderMacro render t n before = .ok out) :
    (Marker.ofDirective "c:macro").Heads (linesOf out.toList) := by
  obtain ⟨name, hfield, h⟩ := exists_of_bind_eq_ok h
  have hname := notMem_of_field hname (by simp) hfield
  refine heads_of_renderMember (by decide) ?_ h
  split
  · exact hname
  · rw [String.toList_append, String.toList_append, String.toList_append, String.toList_intercalate,
      List.map_map]
    have hlist : '\n' ∉ (", ".toList).intercalate
        (((t.children n).filter fun child => t.tag child == "param").map fun param =>
          (Text.trim (t.stringValue param)).toList) := by
      refine notMem_intercalate (by decide) ?_
      intro text htext
      obtain ⟨param, hparam, rfl⟩ := List.mem_map.1 htext
      exact notMem_trim (hparams _ (List.mem_map_of_mem hparam))
    simp only [List.mem_append, not_or]
    exact ⟨⟨⟨hname, by decide⟩, hlist⟩, by decide⟩

/-- A member is one block. -/
lemma heads_of_memberAction (htag : t.tag n = "memberdef")
    (htexts : ∀ text ∈ headTexts (List.take 1) t n, '\n' ∉ text.toList)
    (h : memberAction render t (kindOf t n) n before = .ok out) :
    (Marker.ofDirective ((memberDirectives.lookup (kindOf t n)).getD "")).Heads
      (linesOf out.toList) := by
  simp only [headTexts, if_pos htag] at htexts
  unfold memberAction at h
  split_ifs at h with hfunction htypedef hdefine hvariable
  · rw [if_pos hfunction] at htexts
    rw [hfunction]
    exact heads_of_renderFunction htexts h
  · rw [if_neg hfunction, if_neg (by simp [htypedef])] at htexts
    rw [htypedef]
    exact heads_of_renderDeclaration (by decide) htexts h
  · rw [if_neg hfunction, if_pos hdefine, List.forall_mem_append] at htexts
    rw [hdefine]
    exact heads_of_renderMacro htexts.1 htexts.2 h
  · rw [if_neg hfunction, if_neg hdefine] at htexts
    rw [hvariable]
    exact heads_of_renderDeclaration (by decide) htexts h
  · cases h

/-! #### Sections -/

/-- The marker that is looked up for a kind is listed with it. -/
lemma mem_sectionMarkers_of_lookup {kind : String} {m : Marker}
    (h : sectionMarkers.lookup kind = some m) : (kind, m) ∈ sectionMarkers := by
  obtain ⟨front, behind, hsplit, -⟩ := List.lookup_eq_some_iff.1 h
  rw [hsplit]
  exact List.mem_append_right _ List.mem_cons_self

/-- A section of a kind that has a marker is one block. -/
lemma heads_of_sectionAction (htag : t.tag n = "simplesect")
    (htexts : ∀ text ∈ headTexts (List.take 1) t n, '\n' ∉ text.toList)
    {m : Marker} (hkind : sectionMarkers.lookup (kindOf t n) = some m)
    (h : sectionAction render t (kindOf t n) n before = .ok out) :
    m.Heads (linesOf out.toList) := by
  have hdirective {name title : String} (hname : '\n' ∉ (Marker.ofDirective name).text.toList)
      (htitle : '\n' ∉ title.toList)
      (h : renderDirective render t ((Marker.ofDirective name).text ++ title) n before = .ok out) :
      (Marker.ofDirective name).Heads (linesOf out.toList) := by
    obtain ⟨body, -, rfl⟩ := exists_of_renderDirective h
    exact heads_directive hname htitle body
  have hadmonition {kind : String} (hkind : kindOf t n = kind) (hne : kind ≠ "")
      (hname : '\n' ∉ (Marker.ofDirective kind).text.toList)
      (h : renderAdmonition render t n before = .ok out) :
      (Marker.ofDirective kind).Heads (linesOf out.toList) := by
    have hheader : ".. " ++ kind ++ "::" = (Marker.ofDirective kind).text ++ "" :=
      String.append_empty.symm
    rw [renderAdmonition, attribute?_of_kindOf hkind hne, Option.getD_some, hheader] at h
    exact hdirective hname (by decide) h
  have hmem := mem_sectionMarkers_of_lookup hkind
  clear hkind
  generalize hkind : kindOf t n = kind at hmem h
  -- One case for each kind of section that has a marker, in the order of the table.
  fin_cases hmem
  · have hreturn : renderReturn render t n before = .ok out := h
    exact heads_of_renderReturn hreturn
  · exact hadmonition hkind (by decide) (by decide) h
  · exact hadmonition hkind (by decide) (by decide) h
  · exact hadmonition hkind (by decide) (by decide) h
  · have hremark : '\n' ∉ " Remark".toList := by decide
    exact hdirective (by decide) hremark h
  · have hempty : '\n' ∉ "".toList := by decide
    exact hdirective (by decide) hempty h
  · obtain ⟨title, body, htitle, -, rfl⟩ := exists_of_renderTitled h
    have hnewline : '\n' ∉ (" " ++ Text.trim (t.stringValue title)).toList := by
      have htrim : '\n' ∉ (Text.trim (t.stringValue title)).toList := by
        apply notMem_trim
        apply htexts
        simp [headTexts, htag, hkind, htitle]
      simp [htrim]
    have hheader : ".. admonition:: " ++ Text.trim (t.stringValue title) =
        (Marker.ofDirective "admonition").text ++ (" " ++ Text.trim (t.stringValue title)) := by
      rw [← String.append_assoc]
      rfl
    rw [hheader]
    exact heads_directive (by decide) hnewline body

end Blocks

/-! ### Whole renderings -/

/-- All markers of an element can be told from indented lines. -/
lemma isFlush_of_mem_blockMarkers {shown : List NodeId → List NodeId} {t : Tree} {n : NodeId}
    {m : Marker} (h : m ∈ blockMarkers shown t n) : m.IsFlush := by
  have hdirective (name : String) : (Marker.ofDirective name).IsFlush := by
    refine ⟨Nat.succ_pos _, '.', ". ".toList ++ name.toList ++ "::".toList, ?_, by decide⟩
    simp [Marker.ofDirective]
  have hfield (text : String) : (Marker.ofField (":" ++ text)).IsFlush := by
    refine ⟨?_, ':', text.toList, ?_, by decide⟩
    · have hcolon : 0 < ":".utf8ByteSize := by decide
      simp only [Marker.ofField, String.utf8ByteSize_append]
      omega
    · simp [Marker.ofField]
  unfold blockMarkers at h
  split_ifs at h
  · obtain rfl := List.mem_singleton.1 h
    exact hdirective _
  · have hmem := mem_sectionMarkers_of_lookup (Option.mem_toList.1 h)
    have hall : ∀ item ∈ sectionMarkers, item.2.IsFlush := by
      simp only [sectionMarkers, List.forall_mem_cons]
      exact ⟨hfield "return:", hdirective _, hdirective _, hdirective _, hdirective _, hdirective _,
        hdirective _, List.forall_mem_nil _⟩
    exact hall _ hmem
  · obtain ⟨_, _, rfl⟩ := List.mem_map.1 h
    exact ⟨by decide, '-', [' '], by decide, by decide⟩
  · obtain ⟨_, _, rfl⟩ := List.mem_map.1 h
    exact ⟨by decide, '#', ['.', ' '], by decide, by decide⟩
  · obtain ⟨item, -, h⟩ := List.mem_flatMap.1 h
    obtain ⟨name, -, rfl⟩ := List.mem_map.1 h
    rw [fieldMarker, String.append_assoc, String.append_assoc, String.append_assoc]
    exact hfield _
  · obtain rfl := List.mem_singleton.1 h
    exact hdirective _
  · exact absurd h List.not_mem_nil

/-- **Blocks contain what is in them**: a member, a list, a listing, or a section of a kind that has
a marker is rendered as one block for each marker, in order, and the flush lines are the lines of the
markers.  Of an item of a parameter list, the first list of names counts. -/
theorem contained_of_render (index : Resolver) {t : Tree} {n : NodeId} (hblock : IsBlock t n)
    (htexts : ∀ text ∈ headTexts (List.take 1) t n, '\n' ∉ text.toList) {before out : String}
    (h : render index t n before = .ok out) :
    Contained (blockMarkers (List.take 1) t n) out ∧
      List.Forall₂ (fun m line => m.text.toList <+: line) (blockMarkers (List.take 1) t n)
        (flushLines (linesOf out.toList)) := by
  have hcontained : Contained (blockMarkers (List.take 1) t n) out := by
    rw [render, Renderer.render] at h
    rcases hblock with htag | ⟨htag, hkind⟩
    · simp only [List.mem_cons, List.not_mem_nil, or_false] at htag
      -- Members, the two kinds of list, lists of parameters and listings, in this order.
      rcases htag with htag | htag | htag | htag | htag
      · rw [renderWithin_memberdef _ _ htag] at h
        rw [blockMarkers, if_pos htag]
        exact contained_singleton (heads_of_memberAction htag htexts h)
      · rw [renderWithin_tagRule _ _ htag rfl] at h
        simp only [blockMarkers, htag, String.reduceEq, if_true, if_false]
        exact contained_of_renderList (by decide) h
      · rw [renderWithin_tagRule _ _ htag rfl] at h
        simp only [blockMarkers, htag, String.reduceEq, if_true, if_false]
        exact contained_of_renderList (by decide) h
      · rw [renderWithin_tagRule _ _ htag rfl] at h
        simp only [headTexts, htag, String.reduceEq, if_true, if_false] at htexts
        simp only [blockMarkers, htag, String.reduceEq, if_true, if_false]
        exact contained_of_renderParameterList htexts h
      · rw [renderWithin_tagRule _ _ htag rfl] at h
        simp only [blockMarkers, htag, String.reduceEq, if_true, if_false]
        exact contained_of_renderListing h
    · have hall : ∀ kind ∈ sectionMarkers.map Prod.fst, (sectionMarkers.lookup kind).isSome := by
        decide
      obtain ⟨m, hm⟩ := Option.isSome_iff_exists.1 (hall _ hkind)
      rw [renderWithin_simplesect _ _ htag] at h
      simp only [blockMarkers, htag, hm, String.reduceEq, if_true, if_false]
      exact contained_singleton (heads_of_sectionAction htag htexts hm h)
  exact ⟨hcontained, hcontained.forall₂_flushLines fun m hm => isFlush_of_mem_blockMarkers hm⟩

/-- A parameter list with two lists of names in its item:

    <parameterlist kind="param">
      <parameteritem>
        <parameternamelist><parametername>a</parametername></parameternamelist>
        <parameternamelist><parametername>b</parametername></parameternamelist>
        <parameterdescription>
          <para>x<itemizedlist><listitem><para>y</para></listitem></itemizedlist></para>
        </parameterdescription>
      </parameteritem>
    </parameterlist>
-/
def paired : Tree :=
  ⟨#[{ tag := "parameterlist", attributes := .ofList [("kind", "param")], children := [1] },
    { tag := "parameteritem", parent := some 0, children := [2, 4, 6] },
    { tag := "parameternamelist", parent := some 1, children := [3] },
    { tag := "parametername", text := some "a", parent := some 2 },
    { tag := "parameternamelist", parent := some 1, children := [5] },
    { tag := "parametername", text := some "b", parent := some 4 },
    { tag := "parameterdescription", parent := some 1, children := [7] },
    { tag := "para", text := some "x", parent := some 6, children := [8] },
    { tag := "itemizedlist", parent := some 7, children := [9] },
    { tag := "listitem", parent := some 8, children := [10] },
    { tag := "para", text := some "y", parent := some 9 }]⟩

/-- What is rendered for a parameter with two lists of names. -/
lemma render_paired :
    render Resolver.none paired 0 "" = .ok ":param a: x\n\n          - y\n\n" := by
  decide +kernel

/-- The list above is one block, behind the marker for the name in the first list of names. -/
theorem contained_of_render_paired :
    IsBlock paired 0 ∧
      ∃ out, render Resolver.none paired 0 "" = .ok out ∧ Contained [⟨":param a:", 10⟩] out ∧
        List.Forall₂ (fun (m : Marker) line => m.text.toList <+: line) [⟨":param a:", 10⟩]
          (flushLines (linesOf out.toList)) := by
  have hmarkers : blockMarkers (List.take 1) paired 0 = [⟨":param a:", 10⟩] := by decide +kernel
  have hblock : IsBlock paired 0 := by decide
  have hcontained := contained_of_render Resolver.none hblock (by decide) render_paired
  rw [hmarkers] at hcontained
  exact ⟨hblock, _, render_paired, hcontained⟩

/-- A name in a further list of names has no marker line: `paired` has the names `a` and `b`. -/
theorem not_contained_of_render :
    ¬∀ (index : Resolver) (t : Tree) (n : NodeId) (before out : String), t.WellFormed →
      IsBlock t n → (∀ text ∈ headTexts id t n, '\n' ∉ text.toList) →
      render index t n before = .ok out → Contained (blockMarkers id t n) out := by
  intro h
  have hwellFormed : paired.WellFormed := Tree.wellFormed_of_ordered (by decide)
  have hcontained := h Resolver.none paired 0 "" _ hwellFormed (by decide) (by decide) render_paired
  have hlines := hcontained.forall₂_flushLines fun m hm => isFlush_of_mem_blockMarkers hm
  exact absurd hlines.length_eq (by decide +kernel)

end DoxygenRest.Rest

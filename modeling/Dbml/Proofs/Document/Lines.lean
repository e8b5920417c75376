import Dbml.Document
import Dbml.Proofs.Document.Attributes

/-!
# What a line tells

The lines of a document tell what they were written from (`Row.text_inj`,
`Index.text_inj`, `Reference.text_inj`, `JoinColumn.text_inj`), as long as their names are
words: a name then ends where the line goes on with a blank, a comma, a point or a
bracket. A row is no column of a join table, since none of its settings is a reference.
-/

namespace Dbml

open Text

/-- Nothing is left, or what is left starts with a blank. -/
abbrev StopsAtBlank (rest : List Char) : Prop := Stops (· ≠ ' ') rest

/-! ## Keys -/

/-- One or more words. -/
structure IsKey (columns : List String) : Prop where
  ne_nil : columns ≠ []
  words : ∀ c ∈ columns, IsWord c

namespace IsKey

variable {xs ys : List String} {r s : List Char}

/-- Words with commas between them, up to a bracket. -/
theorem joined_inj (hx : IsKey xs) (hy : IsKey ys)
    (h : (", ".intercalate xs).toList ++ ')' :: r = (", ".intercalate ys).toList ++ ')' :: s) :
    xs = ys ∧ r = s := by
  have hchars {zs : List String} (hz : IsKey zs) (t : List Char) :
      separated [',', ' '] zs ++ ')' :: t =
        ',' :: ' ' :: ((", ".intercalate zs).toList ++ ')' :: t) := by
    obtain ⟨z, zs, rfl⟩ := List.exists_cons_of_ne_nil hz.ne_nil
    rw [toList_intercalate_cons]
    rfl
  have hsep : separated [',', ' '] xs ++ ')' :: r = separated [',', ' '] ys ++ ')' :: s := by
    rw [hchars hx, hchars hy, h]
  have hstop (t : List Char) : Stops (fun a => IsWordChar a ∨ a = ',') (')' :: t) :=
    stops_cons.mpr (by decide)
  obtain ⟨hxy, hrs⟩ := separated_inj (by decide) hx.words hy.words (hstop r) (hstop s) hsep
  exact ⟨hxy, (List.cons.inj hrs).2⟩

theorem toList_combineKeys (x y : String) (zs : List String) :
    (combineKeys (x :: y :: zs)).toList =
      '(' :: ((", ".intercalate (x :: y :: zs)).toList ++ [')']) := by
  have h : combineKeys (x :: y :: zs) = "(" ++ ", ".intercalate (x :: y :: zs) ++ ")" := rfl
  rw [h, String.toList_append, String.toList_append]
  rfl

/-- A word with a blank after it does not start with a bracket. -/
theorem word_ne_bracket {x : String} (hx : IsWord x) (hr : StopsAtBlank r) (cs : List Char) :
    x.toList ++ r ≠ '(' :: cs := by
  intro h
  rcases hxs : x.toList with _ | ⟨c, cs'⟩
  · rw [hxs, List.nil_append] at h
    exact hr '(' (by rw [h]; rfl) (by decide)
  · rw [hxs] at h
    obtain rfl := (List.cons.inj h).1
    exact absurd (hx '(' (by rw [hxs]; exact List.mem_cons_self)) (by decide)

/-- A key of one column or of several, up to a blank. -/
theorem combineKeys_inj (hx : IsKey xs) (hy : IsKey ys) (hr : StopsAtBlank r)
    (hs : StopsAtBlank s) (h : (combineKeys xs).toList ++ r = (combineKeys ys).toList ++ s) :
    xs = ys ∧ r = s := by
  rcases xs with _ | ⟨x, _ | ⟨x', xs⟩⟩
  · exact absurd rfl hx.ne_nil
  · have hxw := hx.words x List.mem_cons_self
    rcases ys with _ | ⟨y, _ | ⟨y', ys⟩⟩
    · exact absurd rfl hy.ne_nil
    · have hyw := hy.words y List.mem_cons_self
      change x.toList ++ r = y.toList ++ s at h
      obtain ⟨hxy, hrs⟩ := append_inj_of_stop (hxw.ne_of_mem (by decide))
        (hyw.ne_of_mem (by decide)) hr hs h
      exact ⟨by rw [String.toList_inj.mp hxy], hrs⟩
    · rw [toList_combineKeys] at h
      exact absurd h (word_ne_bracket hxw hr _)
  · rcases ys with _ | ⟨y, _ | ⟨y', ys⟩⟩
    · exact absurd rfl hy.ne_nil
    · rw [toList_combineKeys] at h
      exact absurd h.symm (word_ne_bracket (hy.words y List.mem_cons_self) hs _)
    · simp only [toList_combineKeys, List.cons_append, List.append_assoc, List.nil_append] at h
      exact hx.joined_inj hy (List.cons.inj h).2

end IsKey

/-! ## Rows and columns of join tables -/

/-- A name and a type, which a blank or the end of the line comes after. -/
theorem cells_inj {name name' type type' : String} {r s : List Char} (hn : IsToken name)
    (hn' : IsToken name') (ht : IsToken type) (ht' : IsToken type') (hr : StopsAtBlank r)
    (hs : StopsAtBlank s)
    (h : name.toList ++ ' ' :: (type.toList ++ r) = name'.toList ++ ' ' :: (type'.toList ++ s)) :
    name = name' ∧ type = type' ∧ r = s := by
  have htoken {t : String} (ht : IsToken t) : ∀ c ∈ t.toList, c ≠ ' ' := fun c hc => (ht c hc).1
  obtain ⟨hname, h⟩ := append_inj_of_stop (htoken hn) (htoken hn')
    (stops_cons.mpr (by decide)) (stops_cons.mpr (by decide)) h
  obtain ⟨htype, hrs⟩ := append_inj_of_stop (htoken ht) (htoken ht') hr hs (List.cons.inj h).2
  exact ⟨String.toList_inj.mp hname, String.toList_inj.mp htype, hrs⟩

/-- A row with settings like those of a column. -/
structure Row.Legible (r : Row) : Prop where
  name : IsToken r.name
  type : IsToken r.type
  arranged : Arranged r.settings
  oneLine : ∀ s ∈ r.settings, OneLine s.text

structure JoinColumn.Legible (c : JoinColumn) : Prop where
  name : IsToken c.name
  type : IsToken c.type
  table : IsWord c.table
  column : IsWord c.column

theorem Row.toList_text (r : Row) : r.text.toList = ' ' :: ' ' :: (r.name.toList ++
    ' ' :: (r.type.toList ++ (attributesText r.settings).toList)) := by
  simp [text]

theorem JoinColumn.toList_text (c : JoinColumn) : c.text.toList =
    ' ' :: ' ' :: (c.name.toList ++ ' ' :: (c.type.toList ++ ' ' :: '[' :: 'r' :: 'e' :: 'f' ::
      ':' :: ' ' :: '>' :: ' ' :: (c.table.toList ++ '.' :: (c.column.toList ++ [']'])))) := by
  simp [text]

theorem stopsAtBlank_attributesText (settings : List Setting) :
    StopsAtBlank (attributesText settings).toList := by
  cases settings with
  | nil => exact stops_nil
  | cons s rest =>
    rw [toList_attributesText_cons]
    exact stops_cons.mpr (by decide)

theorem Row.text_inj {r r' : Row} (hr : r.Legible) (hr' : r'.Legible) (h : r.text = r'.text) :
    r = r' := by
  replace h := congrArg String.toList h
  rw [toList_text, toList_text] at h
  obtain ⟨hn, ht, hs⟩ := cells_inj hr.name hr'.name hr.type hr'.type
    (stopsAtBlank_attributesText _) (stopsAtBlank_attributesText _)
    (List.cons.inj (List.cons.inj h).2).2
  have hs := hr.arranged.attributesText_inj hr'.arranged (String.toList_inj.mp hs)
  exact (Row.mk.injEq ..).mpr ⟨hn, ht, hs⟩

theorem JoinColumn.text_inj {c c' : JoinColumn} (hc : c.Legible) (hc' : c'.Legible)
    (h : c.text = c'.text) : c = c' := by
  replace h := congrArg String.toList h
  rw [toList_text, toList_text] at h
  obtain ⟨hn, ht, hrest⟩ := cells_inj hc.name hc'.name hc.type hc'.type
    (stops_cons.mpr (by decide)) (stops_cons.mpr (by decide)) (List.cons.inj (List.cons.inj h).2).2
  simp only [List.cons.injEq, true_and] at hrest
  have hdot {cs : List Char} : Stops (· ≠ '.') ('.' :: cs) := stops_cons.mpr (by decide)
  obtain ⟨htable, hcolumn⟩ := append_inj_of_stop (hc.table.ne_of_mem (by decide))
    (hc'.table.ne_of_mem (by decide)) hdot hdot hrest
  have htable := String.toList_inj.mp htable
  have hcolumn := String.toList_inj.mp (List.append_cancel_right (List.cons.inj hcolumn).2)
  exact (JoinColumn.mk.injEq ..).mpr ⟨hn, ht, htable, hcolumn⟩

theorem Row.text_ne_joinColumn {r : Row} {c : JoinColumn} (hr : r.Legible) (hc : c.Legible) :
    r.text ≠ c.text := by
  intro h
  replace h := congrArg String.toList h
  rw [Row.toList_text, JoinColumn.toList_text] at h
  obtain ⟨-, -, hs⟩ := cells_inj hr.name hc.name hr.type hc.type
    (stopsAtBlank_attributesText _) (stops_cons.mpr (by decide))
    (List.cons.inj (List.cons.inj h).2).2
  generalize r.settings = settings at hs
  cases settings with
  | nil => simp [attributesText] at hs
  | cons s rest =>
    rw [toList_attributesText_cons] at hs
    cases s <;> simp [Setting.text] at hs

/-! ## Indexes -/

theorem Index.text_inj {i i' : Index} (hi : IsKey i.columns) (hi' : IsKey i'.columns)
    (h : i.text = i'.text) : i = i' := by
  have hchars (i : Index) : i.text.toList = "    (".toList ++
      ((", ".intercalate i.columns).toList ++ ')' :: ' ' :: i.kind.text.toList) := by
    simp [text]
  replace h := congrArg String.toList h
  rw [hchars, hchars] at h
  obtain ⟨hcolumns, hkind⟩ := hi.joined_inj hi' (List.append_cancel_left h)
  rcases i with ⟨columns, kind⟩
  rcases i' with ⟨columns', kind'⟩
  cases hcolumns
  cases kind <;> cases kind' <;> first | rfl | simp [IndexKind.text] at hkind

/-! ## References -/

structure Reference.Legible (r : Reference) : Prop where
  fromTable : IsWord r.fromTable
  fromColumns : IsKey r.fromColumns
  toTable : IsWord r.toTable
  toColumns : IsKey r.toColumns

namespace Reference

theorem actionText_inj {a a' : Option DeleteAction} (h : actionText a = actionText a') :
    a = a' := by
  rcases a with _ | a <;> rcases a' with _ | a'
  · rfl
  · cases a' <;> simp [actionText, DeleteAction.words] at h
  · cases a <;> simp [actionText, DeleteAction.words] at h
  · cases a <;> cases a' <;> first | rfl | simp [actionText, DeleteAction.words] at h

theorem stopsAtBlank_actionText (a : Option DeleteAction) :
    StopsAtBlank (actionText a).toList := by
  cases a with
  | none => exact stops_nil
  | some a => simp [actionText]

/-- The sign is in the second place. -/
theorem sign_inj {r r' : Reference} {cs cs' : List Char}
    (h : r.sign.toList ++ cs = r'.sign.toList ++ cs') : r.toOne = r'.toOne ∧ cs = cs' := by
  unfold sign at h
  generalize r.toOne = one at h ⊢
  generalize r'.toOne = one' at h ⊢
  cases one <;> cases one' <;> simp_all

theorem toList_text (r : Reference) : r.text.toList = "Ref: ".toList ++ (r.fromTable.toList ++
    '.' :: ((combineKeys r.fromColumns).toList ++ (r.sign.toList ++ (r.toTable.toList ++
      '.' :: ((combineKeys r.toColumns).toList ++ (actionText r.onDelete).toList))))) := by
  simp [text]

theorem text_inj {r r' : Reference} (hr : r.Legible) (hr' : r'.Legible) (h : r.text = r'.text) :
    r = r' := by
  have hdot {cs : List Char} : Stops (· ≠ '.') ('.' :: cs) := stops_cons.mpr (by decide)
  have hsign (r : Reference) (cs : List Char) : StopsAtBlank (r.sign.toList ++ cs) := by
    unfold sign
    split <;> simp
  replace h := congrArg String.toList h
  rw [toList_text, toList_text] at h
  obtain ⟨hfrom, h⟩ := append_inj_of_stop (hr.fromTable.ne_of_mem (by decide))
    (hr'.fromTable.ne_of_mem (by decide)) hdot hdot (List.append_cancel_left h)
  obtain ⟨hfromColumns, h⟩ := hr.fromColumns.combineKeys_inj hr'.fromColumns (hsign _ _) (hsign _ _)
    (List.cons.inj h).2
  obtain ⟨hone, h⟩ := sign_inj h
  obtain ⟨hto, h⟩ := append_inj_of_stop (hr.toTable.ne_of_mem (by decide))
    (hr'.toTable.ne_of_mem (by decide)) hdot hdot h
  obtain ⟨htoColumns, h⟩ := hr.toColumns.combineKeys_inj hr'.toColumns
    (stopsAtBlank_actionText _) (stopsAtBlank_actionText _) (List.cons.inj h).2
  have haction := actionText_inj (String.toList_inj.mp h)
  have hfrom := String.toList_inj.mp hfrom
  have hto := String.toList_inj.mp hto
  exact (Reference.mk.injEq ..).mpr
    ⟨hfrom, hfromColumns, hone, hto, htoColumns, haction⟩

end Reference

/-! ## One line -/

theorem Row.oneLine_text {r : Row} (hn : OneLine r.name) (ht : OneLine r.type)
    (hs : ∀ s ∈ r.settings, OneLine s.text) : OneLine r.text := by
  have hattributes := oneLine_attributesText hs
  simp only [Row.text, oneLine_append]
  exact ⟨⟨⟨⟨by decide, hn⟩, by decide⟩, ht⟩, hattributes⟩

theorem Row.Legible.oneLine_text {r : Row} (h : r.Legible) : OneLine r.text :=
  Row.oneLine_text h.name.oneLine h.type.oneLine h.oneLine

theorem JoinColumn.oneLine_text {c : JoinColumn} (hn : OneLine c.name) (ht : OneLine c.type)
    (htable : OneLine c.table) (hcolumn : OneLine c.column) : OneLine c.text := by
  simp only [JoinColumn.text, oneLine_append]
  exact ⟨⟨⟨⟨⟨⟨⟨⟨by decide, hn⟩, by decide⟩, ht⟩, by decide⟩, htable⟩, by decide⟩, hcolumn⟩,
    by decide⟩

theorem JoinColumn.Legible.oneLine_text {c : JoinColumn} (h : c.Legible) : OneLine c.text :=
  JoinColumn.oneLine_text h.name.oneLine h.type.oneLine h.table.oneLine h.column.oneLine

theorem oneLine_joined {columns : List String} (h : ∀ c ∈ columns, OneLine c) :
    OneLine (", ".intercalate columns) := .intercalate (by decide) h

theorem oneLine_combineKeys {columns : List String} (h : ∀ c ∈ columns, OneLine c) :
    OneLine (combineKeys columns) := by
  unfold combineKeys
  split
  · exact h _ List.mem_cons_self
  · exact oneLine_append.mpr ⟨oneLine_append.mpr ⟨by decide, oneLine_joined h⟩, by decide⟩

theorem IsKey.oneLine {columns : List String} (h : IsKey columns) : ∀ c ∈ columns, OneLine c :=
  fun c hc => (h.words c hc).oneLine

theorem Index.oneLine_text {i : Index} (h : ∀ c ∈ i.columns, OneLine c) : OneLine i.text := by
  have hkind : OneLine i.kind.text := by cases i.kind <;> decide
  simp only [Index.text, oneLine_append]
  exact ⟨⟨⟨by decide, oneLine_joined h⟩, by decide⟩, hkind⟩

theorem Reference.oneLine_text {r : Reference} (hfrom : OneLine r.fromTable)
    (hfromColumns : ∀ c ∈ r.fromColumns, OneLine c) (hto : OneLine r.toTable)
    (htoColumns : ∀ c ∈ r.toColumns, OneLine c) : OneLine r.text := by
  have hsign : OneLine r.sign := by
    unfold Reference.sign
    split <;> decide
  have haction : OneLine (Reference.actionText r.onDelete) := by
    rcases r.onDelete with _ | a
    · decide
    · cases a <;> decide
  simp only [Reference.text, oneLine_append]
  exact ⟨⟨⟨⟨⟨⟨⟨⟨by decide, hfrom⟩, by decide⟩, oneLine_combineKeys hfromColumns⟩, hsign⟩, hto⟩,
    by decide⟩, oneLine_combineKeys htoColumns⟩, haction⟩

theorem Reference.Legible.oneLine_text {r : Reference} (h : r.Legible) : OneLine r.text :=
  Reference.oneLine_text h.fromTable.oneLine h.fromColumns.oneLine h.toTable.oneLine
    h.toColumns.oneLine

end Dbml

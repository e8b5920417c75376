import Dbml.Proofs.Document.Names
import Dbml.Proofs.Document.Paragraphs
import Mathlib.Algebra.Order.BigOperators.Group.List

/-!
# The lines of a table

A table is written line by line: its header, a row for each field that is shown, the indexes and
the note with an empty line before each, and a closing line. Quoting keeps line feeds
(`lineFeeds_quote`), so a row and a note go on for as many lines as their free texts have line
feeds, and nothing else breaks a line (`table_lines`).
-/

namespace Dbml

open Text (OneLine quote separated)

/-! ## Line feeds -/

/-- The number of line feeds in a text. -/
def lineFeeds (s : String) : Nat := s.toList.count '\n'

theorem lineFeeds_eq_zero_iff {s : String} : lineFeeds s = 0 ↔ OneLine s := List.count_eq_zero

theorem lineFeeds_append (s t : String) : lineFeeds (s ++ t) = lineFeeds s + lineFeeds t := by
  rw [lineFeeds, String.toList_append, List.count_append]
  rfl

/-- A label has no line feeds of its own. -/
theorem lineFeeds_label {label : String} (h : OneLine label) (s : String) :
    lineFeeds (label ++ s) = lineFeeds s := by
  rw [lineFeeds_append, lineFeeds_eq_zero_iff.mpr h, Nat.zero_add]

theorem count_escape {d : Char} (cs : List Char) :
    (Text.escape d cs).count '\n' = cs.count '\n' := by
  induction cs with
  | nil => rfl
  | cons c cs ih =>
    rw [Text.escape]
    split <;> simp [List.count_cons, ih]

/-- Quoting keeps line feeds, and adds none. -/
theorem lineFeeds_quote {d : Char} (hd : d ≠ '\n') (s : String) :
    lineFeeds (quote d s) = lineFeeds s := by
  simp [lineFeeds, Text.toList_quote, count_escape, hd]

theorem count_separated {separator : List Char} (hs : '\n' ∉ separator) (xs : List String) :
    (separated separator xs).count '\n' = (xs.map lineFeeds).sum := by
  induction xs with
  | nil => rfl
  | cons x xs ih =>
    rw [Text.separated_cons, List.count_append, List.count_append, List.count_eq_zero.mpr hs, ih,
      Nat.zero_add]
    rfl

theorem lineFeeds_intercalate {separator : String} (hs : OneLine separator) (xs : List String) :
    lineFeeds (separator.intercalate xs) = (xs.map lineFeeds).sum := by
  cases xs with
  | nil => rfl
  | cons x xs =>
    rw [lineFeeds, Text.toList_intercalate_cons, List.count_append, count_separated hs]
    rfl

theorem sum_lineFeeds_eq_zero_iff {xs : List String} :
    (xs.map lineFeeds).sum = 0 ↔ ∀ x ∈ xs, OneLine x := by
  simp [List.sum_eq_zero_iff, lineFeeds_eq_zero_iff]

/-! ## Lines -/

theorem length_linesOf (s : String) : (linesOf s).length = lineFeeds s + 1 := by
  rw [linesOf, List.length_map, lineFeeds]
  induction s.toList with
  | nil => rfl
  | cons c cs ih =>
    rw [List.splitOn_cons_eq_if_modifyHead, List.count_cons]
    split
    · rw [List.length_cons, ih]
    · rw [List.length_modifyHead, ih, Nat.add_zero]

theorem linesOf_of_oneLine {s : String} (h : OneLine s) : linesOf s = [s] := by
  rw [linesOf, List.splitOn_eq_singleton h, List.map_singleton, String.ofList_toList]

theorem flatMap_linesOf {ls : List String} (h : ∀ line ∈ ls, OneLine line) :
    ls.flatMap linesOf = ls := by
  rw [List.flatMap_congr fun line hline => linesOf_of_oneLine (h line hline)]
  exact List.flatMap_singleton' ls

/-- A line of a text that has line feeds itself is read as several lines. -/
theorem linesOf_intercalate_flatMap (line : String) (ls : List String) :
    linesOf ("\n".intercalate (line :: ls)) = (line :: ls).flatMap linesOf := by
  have hsplit (cs : List Char) : ((cs ++ separated ['\n'] ls).splitOn '\n').map String.ofList =
      (cs.splitOn '\n').map String.ofList ++ ls.flatMap linesOf := by
    induction ls generalizing cs with
    | nil => simp
    | cons x xs ih =>
      have hcut := List.splitOn_append_cons_self (a := '\n') cs (x.toList ++ separated ['\n'] xs)
      rw [Text.separated_cons, List.append_assoc, List.singleton_append, hcut, List.map_append, ih,
        List.flatMap_cons]
      rfl
  rw [linesOf, Text.toList_intercalate_cons]
  exact hsplit line.toList

theorem length_flatMap_linesOf (ls : List String) :
    (ls.flatMap linesOf).length = ls.length + (ls.map lineFeeds).sum := by
  induction ls with
  | nil => rfl
  | cons line ls ih =>
    rw [List.flatMap_cons, List.length_append, length_linesOf, ih, List.map_cons, List.sum_cons,
      List.length_cons]
    omega

/-- Lines are read as they are written iff none of them has a line feed itself. -/
theorem flatMap_linesOf_iff {ls : List String} :
    ls.flatMap linesOf = ls ↔ ∀ line ∈ ls, OneLine line := by
  refine ⟨fun h => ?_, flatMap_linesOf⟩
  have hlength := length_flatMap_linesOf ls
  rw [h] at hlength
  exact sum_lineFeeds_eq_zero_iff.mp (Nat.left_eq_add.mp hlength)

/-! ## Free texts -/

/-- What a default shows of free texts: its value, if that is quoted. -/
def ColumnDefault.freeTexts : ColumnDefault → List String
  | .string value | .member value => [value]
  | .number _ | .boolean _ | .generated _ _ | .unsupported => []

/-- The name of an expression. -/
def ColumnDefault.callName? : ColumnDefault → Option String
  | .generated name _ => some name
  | .string _ | .member _ | .number _ | .boolean _ | .unsupported => none

/-- The free texts in the row of a field. -/
def Field.freeTexts (f : Field) : List String :=
  f.default.toList.flatMap ColumnDefault.freeTexts ++ f.documentation.toList

/-- The free texts in the table of a model. -/
def Options.freeTexts (o : Options) (m : Model) : List String :=
  (o.shownFields m).flatMap Field.freeTexts ++ m.documentation.toList

/-- What the row of a field shows is on one line, but for its free texts. -/
structure Options.OneLineCells (o : Options) (dm : DataModel) (f : Field) : Prop where
  name : OneLine f.name
  type : OneLine (o.rowType dm f)
  call : ∀ d ∈ f.default, ∀ name ∈ d.callName?, OneLine name

/-- What the table of a model shows is on one line, but for its free texts. -/
structure Options.OneLineNames (o : Options) (dm : DataModel) (m : Model) : Prop where
  table : OneLine (o.tableName m)
  cells : ∀ f ∈ o.shownFields m, o.OneLineCells dm f
  keys : ∀ i ∈ m.indexes, ∀ c ∈ i.columns, OneLine c

variable {o : Options} {dm : DataModel} {m : Model} {f : Field} {r : Row} {t : Table}

/-! ## Line feeds of settings and of a row -/

theorem lineFeeds_of_text? {d : ColumnDefault} {text : String} (h : d.text? = some text)
    (hc : ∀ name ∈ d.callName?, OneLine name) :
    lineFeeds text = (d.freeTexts.map lineFeeds).sum := by
  cases d with
  | string value | member value =>
    obtain rfl := Option.some.inj h
    exact lineFeeds_quote (by decide) value
  | number n =>
    have hnumber : (ColumnDefault.number n).OneLine := trivial
    exact lineFeeds_eq_zero_iff.mpr (hnumber.text h)
  | boolean b =>
    have hboolean : (ColumnDefault.boolean b).OneLine := trivial
    exact lineFeeds_eq_zero_iff.mpr (hboolean.text h)
  | generated name args =>
    have hname : (ColumnDefault.generated name args).OneLine := hc name rfl
    exact lineFeeds_eq_zero_iff.mpr (hname.text h)
  | unsupported => cases h

/-- The line feeds in the texts of settings. -/
def settingFeeds (settings : List Setting) : Nat := (settings.map fun s => lineFeeds s.text).sum

theorem settingFeeds_append (xs ys : List Setting) :
    settingFeeds (xs ++ ys) = settingFeeds xs + settingFeeds ys := by
  rw [settingFeeds, List.map_append, List.sum_append]
  rfl

theorem settingFeeds_settingIf {p : Bool} {s : Setting} (hs : s.IsKeyword) :
    settingFeeds (settingIf p s) = 0 := by
  cases p with
  | false => rfl
  | true => exact lineFeeds_eq_zero_iff.mpr hs.oneLine

theorem settingFeeds_default (text : String) : settingFeeds [.default text] = lineFeeds text := by
  rw [settingFeeds, List.map_singleton, List.sum_singleton, Setting.text]
  exact lineFeeds_label (by decide) text

/-- An empty note is left out, and has no line feeds. -/
theorem lineFeeds_noteOf (documentation : Option String) :
    ((noteOf documentation).toList.map lineFeeds).sum = (documentation.toList.map lineFeeds).sum := by
  rcases documentation with _ | text
  · rfl
  · by_cases he : text = ""
    · subst he
      rfl
    · rw [noteOf, Option.filter_some_pos (by simpa using he)]

theorem settingFeeds_note (note : Option String) :
    settingFeeds (noteSettings note) = (note.toList.map lineFeeds).sum := by
  cases note with
  | none => rfl
  | some text =>
    have htext : lineFeeds (Setting.note text).text = lineFeeds text := by
      rw [Setting.text, lineFeeds_label (by decide), lineFeeds_quote (by decide)]
    exact congrArg (· + 0) htext

theorem DefaultSettings.feeds {d : Option ColumnDefault} {before after : List Setting}
    (h : DefaultSettings d before after) (hc : ∀ x ∈ d, ∀ name ∈ x.callName?, OneLine name) :
    settingFeeds before + settingFeeds after =
      ((d.toList.flatMap ColumnDefault.freeTexts).map lineFeeds).sum := by
  cases h with
  | absent => rfl
  | @increment x hx =>
    -- a default that numbers rows is an expression
    cases x with
    | generated name args => rfl
    | string | number | boolean | member | unsupported => cases hx
  | generated _ _ ht | literal _ _ ht =>
    rw [settingFeeds_default, lineFeeds_of_text? ht (hc _ rfl)]
    simp [settingFeeds]

theorem settingFeeds_of_columnSettings {settings : List Setting}
    (h : columnSettings m f = .ok settings)
    (hc : ∀ d ∈ f.default, ∀ name ∈ d.callName?, OneLine name) :
    settingFeeds settings = (f.freeTexts.map lineFeeds).sum := by
  obtain ⟨before, after, hd, rfl⟩ := columnSettings_eq_ok_iff.mp h
  have hdefault := hd.feeds hc
  have hnote := settingFeeds_note (noteOf f.documentation)
  rw [lineFeeds_noteOf] at hnote
  simp only [settingFeeds_append, settingFeeds_settingIf (s := .pk) trivial,
    settingFeeds_settingIf (s := .unique) trivial, settingFeeds_settingIf (s := .notNull) trivial,
    Field.freeTexts, List.map_append, List.sum_append, ← hdefault, ← hnote, noteSettings]
  omega

theorem lineFeeds_attributesText (settings : List Setting) :
    lineFeeds (attributesText settings) = settingFeeds settings := by
  cases settings with
  | nil => rfl
  | cons s rest =>
    have hcomma : OneLine ", " := by decide
    have hlist := lineFeeds_intercalate hcomma ((s :: rest).map (·.text))
    have htext : attributesText (s :: rest) =
        " [" ++ ", ".intercalate ((s :: rest).map (·.text)) ++ "]" := rfl
    rw [List.map_map] at hlist
    rw [htext, lineFeeds_append, lineFeeds_label (by decide), hlist]
    rfl

/-- A row has the line feeds of its free texts. -/
theorem lineFeeds_row (h : o.row dm m f = .ok r) (hf : o.OneLineCells dm f) :
    lineFeeds r.text = (f.freeTexts.map lineFeeds).sum := by
  obtain ⟨hn, ht, hs⟩ := row_eq_ok_iff.mp h
  have hcells : OneLine ("  " ++ r.name ++ " " ++ r.type) := by
    rw [hn, ht]
    simp only [Text.oneLine_append]
    exact ⟨⟨⟨by decide, hf.name⟩, by decide⟩, hf.type⟩
  rw [Row.text, lineFeeds_label hcells, lineFeeds_attributesText,
    settingFeeds_of_columnSettings hs hf.call]

/-! ## The lines of a table -/

theorem Table.length_indexLines (indexes : List Index) :
    (indexLines indexes).length = if indexes = [] then 0 else 1 + (2 + indexes.length) := by
  cases indexes with
  | nil => rfl
  | cons i is =>
    rw [if_neg (List.cons_ne_nil i is)]
    simp only [indexLines, List.length_cons, List.length_append, List.length_map, List.length_nil]
    omega

theorem Table.length_noteLines (note : Option String) :
    (noteLines note).length = if note = none then 0 else 2 := by
  cases note <;> rfl

theorem Table.sum_noteLines (note : Option String) :
    ((noteLines note).map lineFeeds).sum = (note.toList.map lineFeeds).sum := by
  cases note with
  | none => rfl
  | some text =>
    have htext : lineFeeds ("  Note: " ++ quote '\'' text) = lineFeeds text := by
      rw [lineFeeds_label (by decide), lineFeeds_quote (by decide)]
    exact (Nat.zero_add _).trans (congrArg (· + 0) htext)

namespace Options.OneLineNames

variable (hn : o.OneLineNames dm m)
include hn

theorem header : OneLine (tableHeader (o.tableName m)) := oneLine_tableHeader hn.table

theorem indexLines : ∀ line ∈ Table.indexLines m.indexes, OneLine line :=
  Table.oneLine_indexLines fun i hi => Index.oneLine_text (hn.keys i hi)

/-- Each row has the line feeds of the free texts of its field. -/
theorem rows (h : o.table dm m = .ok t) :
    List.Forall₂ (fun f r => o.row dm m f = .ok r ∧
      lineFeeds r.text = (f.freeTexts.map lineFeeds).sum) (o.shownFields m) t.rows := by
  have hrows := mapM_eq_ok_iff.mp (table_eq_ok_iff.mp h).2.1
  refine ((List.forall₂_and_left _ _).mpr ⟨hn.cells, hrows⟩).imp fun f r hr => ?_
  exact ⟨hr.2, lineFeeds_row hr.2 hr.1⟩

theorem sum_rows (h : o.table dm m = .ok t) :
    ((t.rows.map Row.text).map lineFeeds).sum =
      (((o.shownFields m).flatMap Field.freeTexts).map lineFeeds).sum := by
  have hrows := hn.rows h
  generalize o.shownFields m = fields, t.rows = rows at hrows
  induction hrows with
  | nil => rfl
  | cons hr _ ih =>
    simp only [List.map_cons, List.sum_cons, List.flatMap_cons, List.map_append, List.sum_append]
    rw [ih, hr.2]

/-- A table has the line feeds of its free texts, besides those between its lines. -/
theorem sum_lines (h : o.table dm m = .ok t) :
    (t.lines.map lineFeeds).sum = ((o.freeTexts m).map lineFeeds).sum := by
  obtain ⟨hname, -, hindexes, hnote⟩ := table_eq_ok_iff.mp h
  have hheader := lineFeeds_eq_zero_iff.mpr hn.header
  have hkeys := sum_lineFeeds_eq_zero_iff.mpr hn.indexLines
  have hnotes := Table.sum_noteLines (noteOf m.documentation)
  rw [lineFeeds_noteOf] at hnotes
  have hclosing : lineFeeds "\x7d" = 0 := lineFeeds_eq_zero_iff.mpr oneLine_closing
  simp only [Table.lines, Options.freeTexts, List.map_cons, List.sum_cons, List.map_append,
    List.sum_append, hname, hindexes, hnote, hheader, hkeys, hnotes, hn.sum_rows h]
  simp [hclosing]

end Options.OneLineNames

/-- Where a model has a table and its names are on one line: the table is a line for its header,
the lines of its rows in the order of the fields, those of its indexes and of its note after
an empty line each, and a closing line. A row takes a line and another one for each line feed in
the free texts of its field, and so does a note. So the table has a line for each of its rows,
and one for its note, iff no free text in it has a line feed. -/
theorem table_lines (h : o.table dm m = .ok t) (hn : o.OneLineNames dm m) :
    linesOf t.text = tableHeader (o.tableName m) ::
      (t.rows.flatMap (fun r => linesOf r.text) ++ Table.indexLines m.indexes ++
        (Table.noteLines (noteOf m.documentation)).flatMap linesOf ++ ["\x7d"]) ∧
    List.Forall₂ (fun f r => o.row dm m f = .ok r ∧
      (linesOf r.text).length = 1 + (f.freeTexts.map lineFeeds).sum) (o.shownFields m) t.rows ∧
    (linesOf t.text).length = 1 + (o.shownFields m).length +
      (if m.indexes = [] then 0 else 1 + (2 + m.indexes.length)) +
      (if noteOf m.documentation = none then 0 else 2) + 1 +
      ((o.freeTexts m).map lineFeeds).sum ∧
    (linesOf t.text = t.lines ↔ ∀ text ∈ o.freeTexts m, OneLine text) := by
  obtain ⟨hname, hrows, hindexes, hnote⟩ := table_eq_ok_iff.mp h
  have hlines : linesOf t.text = t.lines.flatMap linesOf := linesOf_intercalate_flatMap _ _
  refine ⟨?lines, ?rows, ?count, ?oneLine⟩
  case lines =>
    rw [hlines, Table.lines, hname, hindexes, hnote]
    simp only [List.flatMap_cons, List.flatMap_append, List.flatMap_map, List.flatMap_nil,
      linesOf_of_oneLine hn.header, linesOf_of_oneLine oneLine_closing,
      flatMap_linesOf hn.indexLines, List.singleton_append, List.append_nil]
  case rows =>
    refine (hn.rows h).imp fun f r hr => ⟨hr.1, ?_⟩
    rw [length_linesOf, hr.2, Nat.add_comm]
  case count =>
    have hcount := (mapM_eq_ok_iff.mp hrows).length_eq
    rw [hlines, length_flatMap_linesOf, hn.sum_lines h, Table.lines, List.length_cons,
      List.length_append, List.length_append, List.length_append, List.length_map, ← hcount,
      hindexes, hnote, Table.length_indexLines, Table.length_noteLines, List.length_singleton]
    omega
  case oneLine =>
    rw [hlines, flatMap_linesOf_iff, ← sum_lineFeeds_eq_zero_iff, hn.sum_lines h,
      sum_lineFeeds_eq_zero_iff]

/-! ## Free texts of several lines -/

namespace Profile

def id : Field := { name := "id", kind := .scalar, type := "Int", isId := true }

/-- Its default and its documentation are of two lines each. -/
def bio : Field :=
  { name := "bio", kind := .scalar, type := "String", default := some (.string "a\nb"),
    documentation := some "Free text,\nshown to everyone" }

def model : Model :=
  { name := "Profile", fields := [id, bio], documentation := some "One line\nand another" }

def dataModel : DataModel := { models := [model] }

def table : Table where
  name := "Profile"
  rows := [⟨"id", "Int", [.pk]⟩,
    ⟨"bio", "String", [.default "'a\nb'", .note "Free text,\nshown to everyone"]⟩]
  indexes := []
  note := some "One line\nand another"

def options : Options := {}

theorem table_eq : options.table dataModel model = .ok table := by
  with_unfolding_all rfl

theorem oneLineNames : options.OneLineNames dataModel model where
  table := by decide
  cells := by
    have hid : options.OneLineCells dataModel id := ⟨by decide, by decide, nofun⟩
    have hbio : options.OneLineCells dataModel bio := by
      refine ⟨by decide, by decide, ?_⟩
      rintro _ ⟨⟩ _ ⟨⟩
    exact List.forall_mem_cons.mpr ⟨hid, List.forall_mem_singleton.mpr hbio⟩
  keys := nofun

theorem lines_counted :
    options.table dataModel model = .ok table ∧ options.OneLineNames dataModel model ∧
    (linesOf table.text).length = 9 ∧ linesOf table.text ≠ table.lines := by
  obtain ⟨-, -, hcount, hiff⟩ := table_lines table_eq oneLineNames
  refine ⟨table_eq, oneLineNames, hcount, fun h => ?_⟩
  exact absurd (hiff.mp h) (by decide)

def brokenLines : List String :=
  ["Table Profile \x7b", "  id Int [pk]", "  bio String [default: 'a", "b', note: 'Free text,",
    "shown to everyone']", "", "  Note: 'One line", "and another'", "\x7d"]

/-- The row of the second field takes three lines, and the note two. -/
theorem lines_broken :
    options.OneLineNames dataModel model ∧ options.table dataModel model = .ok table ∧
    linesOf table.text = brokenLines ∧
    (linesOf table.text).length ≠ 1 + (options.shownFields model).length +
      (if model.indexes = [] then 0 else 1 + (2 + model.indexes.length)) +
      (if noteOf model.documentation = none then 0 else 2) + 1 := by
  have htext : table.text = "\n".intercalate brokenLines := by decide +kernel
  have hlines : linesOf table.text = brokenLines :=
    htext ▸ linesOf_intercalate nofun (by decide +kernel)
  refine ⟨oneLineNames, table_eq, hlines, ?_⟩
  rw [hlines]
  decide

end Profile

end Dbml

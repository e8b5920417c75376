import Dbml.Proofs.Document.Names
import Dbml.Proofs.Document.Settings
import Dbml.Proofs.Relation.Reordering
import Dbml.Proofs.Schema.UniqueKeys

/-!
# Keys that a table shows

A table marks a single column as a key in the settings of its row, and columns as a key by an
entry of its indexes (`Table.Marks`). What it marks is a unique key of the model, with one
exception (`marked_keys`): a primary key of a single column is an index of its own, but whether
that column is a unique key is for its field alone to say (`Model.UnmarkedKey`). A reference
from such a column has the sign of many rows (`Theatre`).
-/

namespace Dbml

/-- Whether a table marks columns, in whatever order, as a key. -/
inductive Table.Marks (t : Table) : List String → Prop
  | row {row : Row} : row ∈ t.rows → .pk ∈ row.settings ∨ .unique ∈ row.settings →
    t.Marks [row.name]
  | index {i : Index} {columns : List String} : i ∈ t.indexes → columns.Perm i.columns →
    t.Marks columns

/-- Whether a column is the primary key, and has a field that is not marked as a key itself. -/
def Model.UnmarkedKey (m : Model) (columns : List String) : Prop :=
  ∃ f ∈ m.fields, columns = [f.name] ∧ m.primaryKey = some columns ∧ (f.isUnique || f.isId) = false

variable {o : Options} {dm : DataModel} {m : Model} {f : Field} {columns : List String}

/-! ## What a table marks -/

/-- Neither a default nor a note marks a column. -/
theorem marked_iff_of_columnSettings {settings : List Setting}
    (h : columnSettings m f = .ok settings) :
    .pk ∈ settings ∨ .unique ∈ settings ↔ (f.isUnique || f.isId) = true := by
  obtain ⟨before, after, hd, rfl⟩ := columnSettings_eq_ok_iff.mp h
  have hdefault : (.pk ∉ before ∧ .unique ∉ before) ∧ .pk ∉ after ∧ .unique ∉ after := by
    generalize f.default = d at hd
    cases hd <;> simp
  cases hid : f.isId <;> cases hunique : f.isUnique <;> simp [settingIf, hdefault]

/-- The columns of the indexes: a primary key that is not empty, and unique keys of several
columns. -/
theorem exists_index_iff {p : List String → Prop} : (∃ i ∈ m.indexes, p i.columns) ↔
    ∃ key, p key ∧
      (m.primaryKey = some key ∧ key ≠ [] ∨ key ∈ m.uniqueFields ∧ 1 < key.length) := by
  simp only [Model.indexes, List.mem_append, Option.mem_toList, Option.map_eq_some_iff,
    Option.filter_eq_some_iff, List.mem_map, List.mem_filter, decide_eq_true_eq]
  constructor
  · rintro ⟨i, ⟨key, hk, rfl⟩ | ⟨key, hk, rfl⟩, hp⟩
    · exact ⟨key, hp, .inl hk⟩
    · exact ⟨key, hp, .inr hk⟩
  · rintro ⟨key, hp, hk | hk⟩
    · exact ⟨⟨key, .pk⟩, .inl ⟨key, hk, rfl⟩, hp⟩
    · exact ⟨⟨key, .unique⟩, .inr ⟨key, hk, rfl⟩, hp⟩

/-- The table of a model marks the fields with a row that are marked themselves, and the keys
that are declared, a unique one only if it has several columns. -/
theorem marks_iff {t : Table} (ht : o.table dm m = .ok t) :
    t.Marks columns ↔
      (∃ f ∈ o.shownFields m, columns = [f.name] ∧ (f.isUnique || f.isId) = true) ∨
      ∃ key, columns.Perm key ∧
        (m.primaryKey = some key ∧ key ≠ [] ∨ key ∈ m.uniqueFields ∧ 1 < key.length) := by
  obtain ⟨-, hrows, hindexes, -⟩ := table_eq_ok_iff.mp ht
  have hrows := mapM_eq_ok_iff.mp hrows
  rw [← exists_index_iff, ← hindexes]
  constructor
  · rintro (⟨hrow, hkey⟩ | ⟨hi, hp⟩)
    · obtain ⟨f, hf, hr⟩ := exists_of_mem_forall₂ hrows hrow
      obtain ⟨hname, -, hsettings⟩ := row_eq_ok_iff.mp hr
      exact .inl ⟨f, hf, by rw [hname], (marked_iff_of_columnSettings hsettings).mp hkey⟩
    · exact .inr ⟨_, hi, hp⟩
  · rintro (⟨f, hf, rfl, hkey⟩ | ⟨i, hi, hp⟩)
    · obtain ⟨row, hrow, hr⟩ := exists_mem_of_forall₂ hrows hf
      obtain ⟨hname, -, hsettings⟩ := row_eq_ok_iff.mp hr
      rw [← hname]
      exact .row hrow ((marked_iff_of_columnSettings hsettings).mpr hkey)
    · exact .index hi hp

/-! ## What is a unique key -/

namespace Model

/-- A column that has a field is a unique key iff this field says so. -/
theorem isUniqueKey_field (hn : (m.fields.map (·.name)).Nodup) (hf : f ∈ m.fields) :
    m.isUniqueKey [f.name] = (f.isUnique || f.isId) := by
  have hfield : m.field? f.name = some f := (field?_eq_some_iff hn).mpr ⟨hf, rfl⟩
  simp [isUniqueKey, hfield]

/-- A declared key is a unique key, unless it is a single column that has a field. -/
theorem isUniqueKey_of_declared (hc : columns.Nodup) {key : List String} (hk : key ∈ m.declaredKeys)
    (hp : columns.Perm key) (hsingle : ∀ f ∈ m.fields, columns ≠ [f.name]) :
    m.isUniqueKey columns = true := by
  have hdeclared : isUniqueKey.declared m columns = true :=
    declared_iff.mpr ⟨key, hk, (keyMatches_iff_perm hc).mpr hp⟩
  unfold isUniqueKey
  split
  · rename_i single
    split
    · rename_i f hf
      obtain ⟨hmem, rfl⟩ := mem_of_field? hf
      exact absurd rfl (hsingle f hmem)
    · exact hdeclared
  · exact hdeclared

theorem UnmarkedKey.isUniqueKey_eq (hn : (m.fields.map (·.name)).Nodup)
    (h : m.UnmarkedKey columns) : m.isUniqueKey columns = false := by
  obtain ⟨f, hf, rfl, -, hkey⟩ := h
  rw [isUniqueKey_field hn hf, hkey]

end Model

/-- Columns that a table marks are a unique key, but for a primary key that its only field does
not mark. -/
theorem Table.Marks.isUniqueKey_iff {t : Table} (h : t.Marks columns) (ht : o.table dm m = .ok t)
    (hn : (m.fields.map (·.name)).Nodup) (hc : columns.Nodup) :
    m.isUniqueKey columns = true ↔ ¬ m.UnmarkedKey columns := by
  constructor
  · intro hkey hexcept
    rw [hexcept.isUniqueKey_eq hn] at hkey
    cases hkey
  intro hexcept
  rcases (marks_iff ht).mp h with ⟨f, hf, rfl, hkey⟩ | ⟨key, hp, hkey⟩
  · rw [Model.isUniqueKey_field hn (mem_shownFields.mp hf).1, hkey]
  · have hdeclared : key ∈ m.declaredKeys :=
      Model.mem_declaredKeys.mpr (hkey.imp And.left And.left)
    by_cases hsingle : ∃ f ∈ m.fields, columns = [f.name]
    · obtain ⟨f, hf, rfl⟩ := hsingle
      obtain rfl := List.singleton_perm.mp hp
      rw [Model.isUniqueKey_field hn hf]
      -- of the keys of a single column only the primary one is an index
      rcases hkey with ⟨hprimary, -⟩ | ⟨-, hl⟩
      · exact eq_true_of_ne_false fun hkey => hexcept ⟨f, hf, rfl, hprimary, hkey⟩
      · exact absurd hl (Nat.lt_irrefl 1)
    · exact Model.isUniqueKey_of_declared hc hdeclared hp fun f hf he => hsingle ⟨f, hf, he⟩

/-! ## References -/

/-- A reference is to a single row iff its columns are a unique key of the model that owns them. -/
theorem exists_owner_of_reference {d : Document} (hd : o.document dm = .ok d) {ref : Reference}
    (href : ref ∈ d.references) :
    ∃ m t, d.TableOf o dm m t ∧ ref.fromTable = t.name ∧
      ref.toOne = m.isUniqueKey ref.fromColumns := by
  obtain ⟨rs, hrs, -, -, -, -, hrefs⟩ := document_eq_ok_iff.mp hd
  rw [hrefs] at href
  obtain ⟨r, hr, href⟩ := List.mem_filterMap.mp href
  obtain ⟨hpair, hkeyed⟩ := keyedPair_of_reference? hrs hr href
  obtain ⟨ha, -⟩ := DataModel.ends_of_mem_relations hrs hr
  obtain ⟨t, ht⟩ := exists_tableOf hd (List.mem_of_getElem? ha.relationField.owner)
  rw [hkeyed, reference?_keyed] at href
  obtain rfl := Option.some.inj href
  exact ⟨_, t, ht, ht.name_eq.symm, hpair.isUnique_eq.symm⟩

/-- Where the fields of a model have different names, distinct columns that its table marks as a
key are a unique key of the model. The exception is a single column that is the primary key and
has a field that is neither an identifier nor unique: that column is not a unique key. So of the
foreign keys that the table marks in which they start, those of the exception, and only those,
are references with the sign of many rows. -/
theorem marked_keys (o : Options) (dm : DataModel) :
    (∀ m t columns, o.table dm m = .ok t → (m.fields.map (·.name)).Nodup → columns.Nodup →
      t.Marks columns → (m.isUniqueKey columns = true ↔ ¬ m.UnmarkedKey columns)) ∧
    ∀ d, o.document dm = .ok d → ∀ ref ∈ d.references,
      ∃ m t, d.TableOf o dm m t ∧ ref.fromTable = t.name ∧
        ((m.fields.map (·.name)).Nodup → ref.fromColumns.Nodup → t.Marks ref.fromColumns →
          (ref.sign = " > " ↔ m.UnmarkedKey ref.fromColumns)) := by
  refine ⟨fun m t columns ht hn hc h => h.isUniqueKey_iff ht hn hc, fun d hd ref href => ?_⟩
  obtain ⟨m, t, ht, hfrom, hone⟩ := exists_owner_of_reference hd href
  refine ⟨m, t, ht, hfrom, fun hn hc h => ?_⟩
  have hiff := h.isUniqueKey_iff ht.table hn hc
  rw [← hone] at hiff
  rw [← not_iff_not, ← hiff, Reference.sign]
  cases ref.toOne <;> decide

/-! ## Foreign keys of a single column -/

namespace Theatre

def seatId : Field := { name := "seatId", kind := .scalar, type := "Int" }

def seat : Field where
  name := "seat"
  kind := .object
  type := "Seat"
  relation := some { fromFields := ["seatId"], toFields := ["id"] }

def seats : Model where
  name := "Seat"
  fields := [Blog.id, Blog.list "tickets" "Ticket",
    { name := "cover", kind := .object, type := "Cover" }]

/-- The column is the primary key, and its field is not marked. -/
def ticket : Model := { name := "Ticket", fields := [seatId, seat], primaryKey := some ["seatId"] }

/-- The field of the column is marked. -/
def cover : Model := { name := "Cover", fields := [{ seatId with isUnique := true }, seat] }

def dataModel : DataModel := { models := [seats, ticket, cover] }

def ticketTable : Table where
  name := "Ticket"
  rows := [⟨"seatId", "Int", []⟩, ⟨"seat", "Seat", []⟩]
  indexes := [⟨["seatId"], .pk⟩]
  note := none

def coverTable : Table where
  name := "Cover"
  rows := [⟨"seatId", "Int", [.unique]⟩, ⟨"seat", "Seat", []⟩]
  indexes := []
  note := none

def ofTicket : Reference := ⟨"Ticket", ["seatId"], false, "Seat", ["id"], none⟩

def document : Document where
  project := none
  tables :=
    [{ name := "Seat"
       rows := [⟨"id", "Int", [.pk]⟩, ⟨"tickets", "Ticket", []⟩, ⟨"cover", "Cover", []⟩]
       indexes := []
       note := none },
     ticketTable, coverTable]
  enums := []
  references := [ofTicket, ⟨"Cover", ["seatId"], true, "Seat", ["id"], none⟩]
  joinTables := []

theorem document_eq : ({} : Options).document dataModel = .ok document := by
  rw [Options.document, DataModel.relations_eq_insertionSort]
  with_unfolding_all rfl

theorem ticket_marks : ticketTable.Marks ["seatId"] := .index List.mem_cons_self (.refl _)

theorem cover_marks : coverTable.Marks ["seatId"] := by
  have hrow : ⟨"seatId", "Int", [.unique]⟩ ∈ coverTable.rows := List.mem_cons_self
  exact .row hrow (.inr List.mem_cons_self)

theorem marked_seatId :
    ({} : Options).document dataModel = .ok document ∧ cover.isUniqueKey ["seatId"] = true ∧
      ∃ m ∈ dataModel.models, m.UnmarkedKey ["seatId"] := by
  obtain ⟨hkeys, hrefs⟩ := marked_keys {} dataModel
  refine ⟨document_eq, ?cover, ?ticket⟩
  case cover =>
    refine (hkeys cover coverTable ["seatId"] rfl (by decide) (by decide) cover_marks).mpr ?_
    rintro ⟨-, -, -, hprimary, -⟩
    cases hprimary
  case ticket =>
    obtain ⟨m, t, ht, hfrom, hiff⟩ := hrefs document document_eq ofTicket List.mem_cons_self
    have hnames : ∀ m ∈ dataModel.models, (m.fields.map (·.name)).Nodup := by decide
    have htable : ∀ t ∈ document.tables, "Ticket" = t.name → t = ticketTable := by decide
    obtain rfl := htable t ht.mem hfrom
    exact ⟨m, ht.model, (hiff (hnames m ht.model) (by decide) ticket_marks).mp rfl⟩

/-- The table of tickets shows the column as its primary key, and the column is not a unique key;
the reference from it has the sign of many rows. -/
theorem ticket_not_unique :
    (ticket.fields.map (·.name)).Nodup ∧ ({} : Options).document dataModel = .ok document ∧
      ({} : Options).table dataModel ticket = .ok ticketTable ∧ ticketTable.Marks ["seatId"] ∧
      ticket.isUniqueKey ["seatId"] = false ∧
      ofTicket ∈ document.references ∧ ofTicket.fromTable = ticketTable.name ∧
      ofTicket.fromColumns = ["seatId"] ∧ ofTicket.sign = " > " :=
  ⟨by decide, document_eq, rfl, ticket_marks, by decide, List.mem_cons_self, rfl, rfl, rfl⟩

end Theatre

end Dbml

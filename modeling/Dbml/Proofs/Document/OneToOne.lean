import Dbml.Proofs.Document.Names
import Dbml.Proofs.Schema.Identification

/-!
# One-to-one relations and rows of data

A relation is one-to-one if the columns of its foreign key are a unique key. Where these are
distinct, no two rows of the table have one foreign key; where a column is repeated, this
is so iff some key of the model lies within the columns (`toOne_guarantees`). Two columns of one
name may pass for a declared key of two columns without lying over any key (`Grid`).
-/

namespace Dbml

variable {o : Options} {dm : DataModel} {d : Document} {rs : List Relation}

/-- The foreign key of a one-to-one relation is a unique key of its owner. -/
theorem isUniqueKey_of_oneToOne (h : dm.relations = .ok rs) {r : DirectRelation}
    (hr : .oneToOne r ∈ rs) : r.foreignKey.owner.isUniqueKey r.fromFields = true := by
  rcases DataModel.shape_of_mem h hr with ⟨hpair, hkeyed⟩ | ⟨-, m, hm⟩
  · rw [Relation.keyed] at hkeyed
    split at hkeyed
    · cases hkeyed
    · rename_i hsingle
      have hfrom := congrArg DirectRelation.fromFields (Relation.oneToOne.inj hkeyed)
      rw [hfrom]
      exact hpair.isUnique_eq.trans (by simpa using hsingle)
  · cases hm

/-- A reference with the sign of a single row is that of a one-to-one relation. -/
theorem oneToOne_of_sign (hd : o.document dm = .ok d) (h : dm.relations = .ok rs) {ref : Reference}
    (href : ref ∈ d.references) (hsign : ref.sign = " - ") :
    ∃ r, .oneToOne r ∈ rs ∧ ref = o.directReference true r := by
  rw [(document_of_relations hd h).2] at href
  obtain ⟨r, hr, hmade⟩ := List.mem_filterMap.mp href
  cases r with
  | oneToOne r => exact ⟨r, hr, (Option.some.inj hmade).symm⟩
  | oneToMany r =>
    obtain rfl := Option.some.inj hmade
    exact absurd hsign (show " > " ≠ " - " by decide)
  | manyToMany r => cases hmade

/-- What a unique key says of the rows of data that its model admits. If the columns are
distinct, they identify these rows; and in any case they do so iff they have all columns of one
of the keys of the model. The foreign key of a one-to-one relation is such a unique key of the
model that holds it, and only references of one-to-one relations have the sign of a single row. -/
theorem toOne_guarantees (m : Model) (columns : List String) (dm : DataModel) (o : Options) :
    (m.isUniqueKey columns = true →
      (columns.Nodup → m.Guarantees columns) ∧
      (m.Guarantees columns ↔ ∃ key ∈ m.keys, key ⊆ columns)) ∧
    ∀ rs, dm.relations = .ok rs →
      (∀ r, .oneToOne r ∈ rs → r.foreignKey.owner.isUniqueKey r.fromFields = true ∧
        (r.fromFields.Nodup → r.foreignKey.owner.Guarantees r.fromFields)) ∧
      ∀ d, o.document dm = .ok d → ∀ ref ∈ d.references, ref.sign = " - " →
        ∃ r, .oneToOne r ∈ rs ∧ ref.fromTable = o.tableName r.foreignKey.owner ∧
          ref.fromColumns = r.fromFields := by
  refine ⟨fun h => ⟨Model.guarantees_of_nodup h, Model.guarantees_iff⟩, fun rs h => ?_⟩
  refine ⟨fun r hr => ?_, fun d hd ref href hsign => ?_⟩
  · have hunique := isUniqueKey_of_oneToOne h hr
    exact ⟨hunique, Model.guarantees_of_nodup hunique⟩
  · obtain ⟨r, hr, rfl⟩ := oneToOne_of_sign hd h href hsign
    exact ⟨r, hr, rfl, rfl⟩

/-! ## A foreign key that repeats a column, and one that does not -/

namespace Grid

def index (name : String) : Field := { name, kind := .scalar, type := "Int" }

def key (name : String) (fromFields : List String) : Field where
  name := name
  kind := .object
  type := "Cell"
  relation := some { fromFields, toFields := ["row", "column"] }

def back (name type : String) : Field := { name, kind := .object, type }

/-- All cells of a row have the same cell on the diagonal. -/
def diagonal : Field := key "diagonal" ["row", "row"]

def place : Field := key "place" ["row", "column"]

def cell : Model where
  name := "Cell"
  fields := [index "row", index "column", diagonal, back "off" "Cell", back "label" "Label"]
  primaryKey := some ["row", "column"]

def label : Model where
  name := "Label"
  fields := [index "row", index "column", place]
  uniqueFields := [["column", "row"]]

def dataModel : DataModel := { models := [cell, label] }

def onDiagonal : DirectRelation where
  foreignKey := ⟨⟨⟨0, 2⟩, cell, diagonal⟩, cell⟩
  referenced := ⟨⟨⟨0, 3⟩, cell, back "off" "Cell"⟩, cell⟩
  fromFields := ["row", "row"]
  toFields := ["row", "column"]
  onDelete := none

def labelled : DirectRelation where
  foreignKey := ⟨⟨⟨1, 2⟩, label, place⟩, cell⟩
  referenced := ⟨⟨⟨0, 4⟩, cell, back "label" "Label"⟩, label⟩
  fromFields := ["row", "column"]
  toFields := ["row", "column"]
  onDelete := none

theorem relations_eq : dataModel.relations = .ok [.oneToOne onDiagonal, .oneToOne labelled] := by
  rw [DataModel.relations_eq_insertionSort]
  with_unfolding_all rfl

theorem guarantees_labelled :
    dataModel.relations = .ok [.oneToOne onDiagonal, .oneToOne labelled] ∧
      label.Guarantees labelled.fromFields ∧ ¬ cell.Guarantees onDiagonal.fromFields := by
  obtain ⟨hunique, hrelations⟩ := toOne_guarantees cell onDiagonal.fromFields dataModel {}
  obtain ⟨-, hiff⟩ := hunique (by decide)
  obtain ⟨hkeys, -⟩ := hrelations _ relations_eq
  have hlabelled := (hkeys labelled (List.mem_cons_of_mem _ List.mem_cons_self)).2 (by decide)
  exact ⟨relations_eq, hlabelled, fun h => absurd (hiff.mp h) (by decide)⟩

/-- Two cells of one row. -/
def cells : List (String → Nat) := [fun _ => 1, fun c => if c = "column" then 2 else 1]

/-- A foreign key that repeats a column passes for a primary key of two columns, and the relation
is one-to-one; but two rows that the model admits have the same foreign key. -/
theorem not_identified :
    dataModel.relations = .ok [.oneToOne onDiagonal, .oneToOne labelled] ∧
      onDiagonal.foreignKey.owner.isUniqueKey onDiagonal.fromFields = true ∧
      onDiagonal.foreignKey.owner.Admits cells ∧ ¬ Identifies onDiagonal.fromFields cells :=
  ⟨relations_eq, by decide, by decide, by decide⟩

end Grid

end Dbml

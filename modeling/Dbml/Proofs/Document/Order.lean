import Dbml.Proofs.Document.JoinTables
import Dbml.Proofs.Document.Layout

/-!
# The order of references and join tables

References come in the order in which the fields that hold their foreign keys are declared,
whichever of the two sides of a relation is declared first, and the columns of a join table in
the order of the lists that they are made for (`relations_ordered`).
-/

namespace Dbml

variable {o : Options} {dm : DataModel} {d : Document} {rs : List Relation}

/-- There is one reference for each field that holds a foreign key, in order. -/
theorem references_of_foreignKeyFields (hd : o.document dm = .ok d) (h : dm.relations = .ok rs) :
    List.Forall₂ (fun x ref => ∃ r ∈ rs, r.anchor.toRelationField = x ∧
        o.reference? r = some ref ∧ ref.fromTable = o.tableName x.owner ∧
        ref.fromColumns = x.field.fromFields)
      dm.foreignKeyFields d.references := by
  rw [(document_of_relations hd h).2, ← DataModel.map_anchor_direct h, List.forall₂_map_left_iff]
  have hmade := forall₂_filterMap (isSome_direct? o) rs
  refine ((List.forall₂_and_left _ _).mpr ⟨fun r hr => (List.mem_filter.mp hr).1, hmade⟩).imp ?_
  rintro r ref ⟨hr, hrr⟩
  have hk := hrr
  rw [(keyedPair_of_reference? h hr hrr).2, reference?_keyed] at hk
  obtain rfl := Option.some.inj hk
  exact ⟨r, hr, rfl, hrr, rfl, rfl⟩

/-- Each relation comes before the next by the place of its anchor, which is that of a field of the
data model, so no two have one anchor; and the first end of a relation between lists comes
before its second end. In any document the blocks that are references are then in the order
of the fields that hold the foreign keys, one for each of these; and the columns of each join
table are those of the two ends of a relation between lists, in their order, which is that of
their lines between the line that opens the block of the table and the one that closes it. -/
theorem relations_ordered (h : dm.relations = .ok rs) :
    rs.Pairwise (·.anchor.position.Before ·.anchor.position) ∧
    (rs.map (·.anchor.position)).Nodup ∧
    (∀ r ∈ rs, dm.HasRelationField r.anchor.toRelationField ∧
      dm.HasRelationField r.counterpart.toRelationField) ∧
    (∀ r, .manyToMany r ∈ rs → r.first.position.Before r.second.position) ∧
    ∀ (o : Options) (d : Document), o.document dm = .ok d →
      d.blocks.filter (Document.IsReference ·) = d.references.map (·.text) ∧
      List.Forall₂ (fun x ref => ∃ r ∈ rs, r.anchor.toRelationField = x ∧
          o.reference? r = some ref ∧ ref.fromTable = o.tableName x.owner ∧
          ref.fromColumns = x.field.fromFields)
        (dm.relationFields.filter (·.field.holdsForeignKey)) d.references ∧
      ∀ j ∈ d.joinTables, ∃ r, .manyToMany r ∈ rs ∧ j.name = r.name ∧
        o.joinColumn r.explicit r.first = .ok j.first ∧
        o.joinColumn r.explicit r.second = .ok j.second ∧ j.text ∈ d.blocks ∧
        ∃ id id', r.first.target.idField? = some id ∧ r.second.target.idField? = some id' ∧
          j.text = "\n".intercalate [tableHeader r.name, o.joinLine r.explicit r.first id,
            o.joinLine r.explicit r.second id', "\x7d"] := by
  have hbefore := DataModel.relations_before h
  refine ⟨hbefore, ?_, fun r hr => ?_, fun r hr => DataModel.first_before_second h hr,
    fun o d hd => ?_⟩
  · exact List.pairwise_map.mpr (hbefore.imp Position.Before.ne)
  · obtain ⟨ha, hc, -⟩ := DataModel.ends_of_mem_relations h hr
    exact ⟨ha.relationField, hc.relationField⟩
  · refine ⟨d.filter_isReference, references_of_foreignKeyFields hd h, fun j hj => ?_⟩
    obtain ⟨r, hr, hjr⟩ := exists_of_mem_joinTables (document_of_relations hd h).1 hj
    obtain ⟨hname, hfirst, hsecond⟩ := joinTable_eq_ok_iff.mp hjr
    exact ⟨r, hr, hname, hfirst, hsecond, Document.joinTable_mem_blocks hj, joinTable_text hjr⟩

/-! ## A data model whose relations are not in the order of their first fields -/

namespace Forum

def column (name : String) : Field := { name, kind := .scalar, type := "Int" }

def key (name type fromField : String) : Field where
  name := name
  kind := .object
  type := type
  relation := some { fromFields := [fromField], toFields := ["id"] }

def author : Field := key "author" "User" "authorId"

def home : Field := key "home" "Group" "homeId"

/-- The back-reference of `home` comes before that of `author`. -/
def group : Model where
  name := "Group"
  fields := [Blog.id, Blog.list "members" "User", Blog.list "posts" "Post"]

def user : Model where
  name := "User"
  fields := [Blog.id, Blog.list "posts" "Post", Blog.list "groups" "Group"]

def post : Model where
  name := "Post"
  fields := [Blog.id, column "authorId", author, column "homeId", home]

def dataModel : DataModel := { models := [group, user, post] }

def options : Options := { manyToMany := true }

def relations : List Relation :=
  [.manyToMany
      { name := "GroupToUser"
        explicit := false
        first := ⟨⟨⟨0, 1⟩, group, Blog.list "members" "User"⟩, user⟩
        second := ⟨⟨⟨1, 2⟩, user, Blog.list "groups" "Group"⟩, group⟩ },
    .oneToMany
      { foreignKey := ⟨⟨⟨2, 2⟩, post, author⟩, user⟩
        referenced := ⟨⟨⟨1, 1⟩, user, Blog.list "posts" "Post"⟩, post⟩
        fromFields := ["authorId"]
        toFields := ["id"]
        onDelete := none },
    .oneToMany
      { foreignKey := ⟨⟨⟨2, 4⟩, post, home⟩, group⟩
        referenced := ⟨⟨⟨0, 2⟩, group, Blog.list "posts" "Post"⟩, post⟩
        fromFields := ["homeId"]
        toFields := ["id"]
        onDelete := none }]

theorem relations_eq : dataModel.relations = .ok relations := by
  rw [DataModel.relations_eq_insertionSort]
  with_unfolding_all rfl

theorem exists_document : ∃ d, options.document dataModel = .ok d := by
  rw [Options.document, DataModel.relations_eq_insertionSort]
  exact ⟨_, by with_unfolding_all rfl⟩

theorem ordered_relations :
    dataModel.relations = .ok relations ∧
    relations.Pairwise (·.anchor.position.Before ·.anchor.position) ∧
    ∃ d, options.document dataModel = .ok d ∧
      d.references.map (·.fromColumns) = [["authorId"], ["homeId"]] ∧
      ∀ j ∈ d.joinTables, j.name = "GroupToUser" ∧
        j.text = "\n".intercalate ["Table GroupToUser \x7b", "  membersId Int [ref: > User.id]",
          "  groupsId Int [ref: > Group.id]", "\x7d"] := by
  obtain ⟨hbefore, -, -, -, hdocuments⟩ := relations_ordered relations_eq
  obtain ⟨d, hd⟩ := exists_document
  obtain ⟨-, hreferences, hjoins⟩ := hdocuments _ d hd
  refine ⟨relations_eq, hbefore, d, hd, ?_, fun j hj => ?_⟩
  · rw [map_eq_of_forall₂ (v := fun x => x.field.fromFields) hreferences]
    · decide
    · rintro x ref ⟨_, _, _, _, _, hfrom⟩
      exact hfrom
  · obtain ⟨r, hr, hname, -, -, -, id, id', hid, hid', htext⟩ := hjoins j hj
    simp only [relations, List.mem_cons, Relation.manyToMany.injEq, reduceCtorEq, List.not_mem_nil,
      or_false] at hr
    subst hr
    obtain rfl : Blog.id = id := Option.some.inj hid
    obtain rfl : Blog.id = id' := Option.some.inj hid'
    exact ⟨hname, htext⟩

end Forum

end Dbml

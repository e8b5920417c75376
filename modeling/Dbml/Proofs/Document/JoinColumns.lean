import Dbml.Proofs.Document.JoinNames

/-!
# Two columns of one name

The columns of a join table are named after the fields at the ends of a relation, and after
nothing else. So they have one name iff these fields have, in lower case where the relation has a
name of its own (`joinColumns_distinct`). Fields of one model have different names, but the ends
may be fields of two models, and in lower case two names may be one (`Network`).
-/

namespace Dbml

variable {o : Options} {dm : DataModel} {rs : List Relation} {r : ManyToMany} {j : JoinTable}

/-- Fields of one model that have one name are one field. -/
theorem DataModel.HasRelationField.position_eq {x y : RelationField} (hx : dm.HasRelationField x)
    (hy : dm.HasRelationField y) (hn : ∀ m ∈ dm.models, (m.fields.map (·.name)).Nodup)
    (hm : x.position.model = y.position.model) (hname : x.field.name = y.field.name) :
    x.position = y.position := by
  have howner : x.owner = y.owner := by
    have ho := hx.owner
    rw [hm, hy.owner] at ho
    exact (Option.some.inj ho).symm
  obtain ⟨hlt, -⟩ := List.getElem?_eq_some_iff.mp hx.field
  have hnames : (x.owner.fields.map (·.name))[x.position.field]? =
      (x.owner.fields.map (·.name))[y.position.field]? := by
    rw [List.getElem?_map, List.getElem?_map, hx.field, howner, hy.field]
    exact congrArg some hname
  have hfield := (List.getElem?_inj (by rwa [List.length_map])
    (hn x.owner (List.mem_of_getElem? hx.owner))).mp hnames
  rw [Position.mk.injEq]
  exact ⟨hm, hfield⟩

theorem joinColumnName_inj {a b : String} {explicit : Bool} :
    joinColumnName a explicit = joinColumnName b explicit ↔
      (if explicit then Text.lowercase a else a) = if explicit then Text.lowercase b else b :=
  String.append_left_inj "Id"

/-- The names of the columns of a join table are different iff the names of the two fields are, in
lower case if the relation has a name of its own and as they are if it has not. So under the
default name they are different if both fields are of one model. -/
theorem joinColumns_distinct (hn : ∀ m ∈ dm.models, (m.fields.map (·.name)).Nodup)
    (h : dm.relations = .ok rs) (hr : .manyToMany r ∈ rs) (hj : o.joinTable r = .ok j) :
    (r.explicit = true → (j.first.name ≠ j.second.name ↔
      Text.lowercase r.first.field.name ≠ Text.lowercase r.second.field.name)) ∧
    (r.explicit = false →
      (j.first.name ≠ j.second.name ↔ r.first.field.name ≠ r.second.field.name) ∧
      (r.first.position.model = r.second.position.model → j.first.name ≠ j.second.name)) := by
  obtain ⟨hfirst, hsecond, -, hpos⟩ := DataModel.ends_of_mem_relations h hr
  obtain ⟨-, hcfirst, hcsecond⟩ := joinTable_eq_ok_iff.mp hj
  rw [joinColumn_name hcfirst, joinColumn_name hcsecond, ne_eq, joinColumnName_inj]
  refine ⟨fun he => ?_, fun he => ?_⟩
  · rw [he]
    exact Iff.rfl
  · rw [he]
    exact ⟨Iff.rfl, fun hm hname =>
      hpos (hfirst.relationField.position_eq hsecond.relationField hn hm hname)⟩

/-! ## Relations of a model with itself, and with fields of one name at both ends -/

namespace Network

def person : Model where
  name := "Person"
  fields := [Blog.id, Wiki.named "Friends" "Person" "friendship",
    Wiki.named "friends" "Person" "friendship", Blog.list "follows" "Person",
    Blog.list "followedBy" "Person", Blog.list "links" "Site"]

def site : Model := { name := "Site", fields := [Blog.id, Blog.list "links" "Person"] }

def dataModel : DataModel := { models := [person, site] }

/-- The names of the fields differ by the case of a letter. -/
def friendship : ManyToMany where
  name := "friendship"
  explicit := true
  first := ⟨⟨⟨0, 1⟩, person, Wiki.named "Friends" "Person" "friendship"⟩, person⟩
  second := ⟨⟨⟨0, 2⟩, person, Wiki.named "friends" "Person" "friendship"⟩, person⟩

def follows : ManyToMany where
  name := "PersonToPerson"
  explicit := false
  first := ⟨⟨⟨0, 3⟩, person, Blog.list "follows" "Person"⟩, person⟩
  second := ⟨⟨⟨0, 4⟩, person, Blog.list "followedBy" "Person"⟩, person⟩

/-- The fields are of two models. -/
def links : ManyToMany where
  name := "PersonToSite"
  explicit := false
  first := ⟨⟨⟨0, 5⟩, person, Blog.list "links" "Site"⟩, site⟩
  second := ⟨⟨⟨1, 1⟩, site, Blog.list "links" "Person"⟩, person⟩

def relations : List Relation := [.manyToMany friendship, .manyToMany follows, .manyToMany links]

theorem relations_eq : dataModel.relations = .ok relations := by
  rw [DataModel.relations_eq_insertionSort]
  with_unfolding_all rfl

theorem names_nodup : ∀ m ∈ dataModel.models, (m.fields.map (·.name)).Nodup := by decide

def followsTable : JoinTable where
  name := "PersonToPerson"
  first := ⟨"followsId", "Int", "Person", "id"⟩
  second := ⟨"followedById", "Int", "Person", "id"⟩

theorem follows_distinct :
    dataModel.relations = .ok relations ∧ ({} : Options).joinTable follows = .ok followsTable ∧
      followsTable.first.name ≠ followsTable.second.name := by
  have hr : .manyToMany follows ∈ relations := List.mem_cons_of_mem _ List.mem_cons_self
  have hj : ({} : Options).joinTable follows = .ok followsTable := by rfl
  obtain ⟨-, hdefault⟩ := joinColumns_distinct names_nodup relations_eq hr hj
  exact ⟨relations_eq, hj, (hdefault rfl).2 rfl⟩

/-- No two fields of one model have one name, and yet two join tables have two columns of one
name. -/
theorem joinColumns_repeated :
    (∀ m ∈ dataModel.models, (m.fields.map (·.name)).Nodup) ∧
    dataModel.relations = .ok relations ∧
    (.manyToMany links ∈ relations ∧
      ∃ j, ({} : Options).joinTable links = .ok j ∧ j.first.name = j.second.name) ∧
    .manyToMany friendship ∈ relations ∧
      ∃ j, ({} : Options).joinTable friendship = .ok j ∧ j.first.name = j.second.name := by
  refine ⟨names_nodup, relations_eq, ⟨?_, _, rfl, rfl⟩, ?_, _, rfl, by decide⟩
  · simp [relations]
  · simp [relations]

end Network

end Dbml

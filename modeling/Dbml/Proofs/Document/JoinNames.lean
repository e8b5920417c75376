import Dbml.Proofs.Document.Names

/-!
# Names of join tables and of their columns

A relation between lists may be given its name at both ends, at one of them or at none, and an end
may be given the default name. Whether the relation has a name of its own is decided at the end
that is found first, and is the same at the other one (`manyToMany_explicit`): the two ends
have one key, and that tells the name of the relation and the default name. So the columns of a
join table are in lower case iff the table is not called by the default name.
-/

namespace Dbml

variable {dm : DataModel} {rs : List Relation} {r : ManyToMany}

/-- The key of either end tells the name of a relation between lists, and whether that is its own. -/
theorem key_of_manyToMany (h : dm.relations = .ok rs) (hr : .manyToMany r ∈ rs) {e : Endpoint}
    (he : e = r.first ∨ e = r.second) :
    r.name = e.key.name ∧ r.explicit = decide (e.key.name ≠ e.key.defaultName) := by
  obtain ⟨ends, -, hg⟩ := DataModel.group_of_manyToMany h hr
  obtain ⟨-, -, hkey, -⟩ := DataModel.ends_of_mem_relations h hr
  have hk : r.first.key = e.key := by
    rcases he with rfl | rfl
    · rfl
    · exact hkey
  rw [← hk]
  exact ⟨(congrArg RelationGroup.name hg).symm, (congrArg RelationGroup.explicit hg).symm⟩

theorem joinColumn_name {o : Options} {explicit : Bool} {e : Endpoint} {c : JoinColumn}
    (h : o.joinColumn explicit e = .ok c) : c.name = joinColumnName e.field.name explicit := by
  obtain ⟨id, -, rfl⟩ := joinColumn_eq_ok_iff.mp h
  rfl

/-- A relation between lists has the name that each of its ends has for it, whether that is given
there or is the default one, and it is marked as explicit iff this is not the default name of
the owner and the target of that end; it never is if one of the ends is given no name. Its join
table, if there is one, has this name. The names of both columns are those of the fields, in
lower case if the name of the table is not the default one and as they are if it is. -/
theorem manyToMany_explicit (h : dm.relations = .ok rs) (hr : .manyToMany r ∈ rs) {e : Endpoint}
    (he : e = r.first ∨ e = r.second) :
    r.name = effectiveName e.field.relationName e.owner.name e.field.type ∧
    (r.explicit = true ↔ r.name ≠ defaultRelationName e.owner.name e.target.name) ∧
    (e.field.relationName = none → r.explicit = false) ∧
    ∀ (o : Options) (j : JoinTable), o.joinTable r = .ok j →
      j.name = r.name ∧
      (j.name ≠ defaultRelationName e.owner.name e.target.name →
        j.first.name = Text.lowercase r.first.field.name ++ "Id" ∧
        j.second.name = Text.lowercase r.second.field.name ++ "Id") ∧
      (j.name = defaultRelationName e.owner.name e.target.name →
        j.first.name = r.first.field.name ++ "Id" ∧
        j.second.name = r.second.field.name ++ "Id") := by
  obtain ⟨hname, hexplicit⟩ := key_of_manyToMany h hr he
  have hdefault := e.key_defaultName
  have heffective : r.name = effectiveName e.field.relationName e.owner.name e.field.type :=
    hname.trans e.key_name
  have hiff : r.explicit = true ↔ r.name ≠ defaultRelationName e.owner.name e.target.name := by
    rw [hexplicit, hname, hdefault, decide_eq_true_iff]
  have htarget : e.target.name = e.field.type := by
    obtain ⟨ha, hc, -⟩ := DataModel.ends_of_mem_relations h hr
    rcases he with rfl | rfl
    · exact ha.target_name
    · exact hc.target_name
  refine ⟨heffective, hiff, fun hnone => ?unnamed, fun o j hj => ?columns⟩
  case unnamed =>
    rw [hnone, ← htarget] at heffective
    exact eq_false_of_ne_true fun hx => hiff.mp hx heffective
  case columns =>
    obtain ⟨hjname, hfirst, hsecond⟩ := joinTable_eq_ok_iff.mp hj
    rw [hjname, joinColumn_name hfirst, joinColumn_name hsecond]
    refine ⟨rfl, fun hown => ?_, fun hsame => ?_⟩
    · rw [hiff.mpr hown]
      exact ⟨rfl, rfl⟩
    · rw [eq_false_of_ne_true fun hx => hiff.mp hx hsame]
      exact ⟨rfl, rfl⟩

/-! ## A default name that one end is given, and a name of its own -/

namespace Wiki

/-- A list of models that is given the name of its relation. -/
def named (name type relation : String) : Field :=
  { Blog.list name type with relation := some { name := some relation } }

/-- `seeAlso` is given no name; the other end is given the default one. -/
def page : Model where
  name := "Page"
  fields := [Blog.id, Blog.list "seeAlso" "Topic", named "openFor" "Reader" "reads"]

def topic : Model := { name := "Topic", fields := [Blog.id, named "leadsTo" "Page" "PageToTopic"] }

def reader : Model := { name := "Reader", fields := [Blog.id, named "hasOpen" "Page" "reads"] }

def dataModel : DataModel := { models := [page, topic, reader] }

def seeAlso : ManyToMany where
  name := "PageToTopic"
  explicit := false
  first := ⟨⟨⟨0, 1⟩, page, Blog.list "seeAlso" "Topic"⟩, topic⟩
  second := ⟨⟨⟨1, 1⟩, topic, named "leadsTo" "Page" "PageToTopic"⟩, page⟩

def reads : ManyToMany where
  name := "reads"
  explicit := true
  first := ⟨⟨⟨0, 2⟩, page, named "openFor" "Reader" "reads"⟩, reader⟩
  second := ⟨⟨⟨2, 1⟩, reader, named "hasOpen" "Page" "reads"⟩, page⟩

def relations : List Relation := [.manyToMany seeAlso, .manyToMany reads]

theorem relations_eq : dataModel.relations = .ok relations := by
  rw [DataModel.relations_eq_insertionSort]
  with_unfolding_all rfl

def seeAlsoTable : JoinTable where
  name := "PageToTopic"
  first := ⟨"seeAlsoId", "Int", "Topic", "id"⟩
  second := ⟨"leadsToId", "Int", "Page", "id"⟩

theorem seeAlsoTable_eq : ({} : Options).joinTable seeAlso = .ok seeAlsoTable := by
  with_unfolding_all rfl

theorem explicit_relations :
    dataModel.relations = .ok relations ∧ seeAlso.second.field.relationName = some "PageToTopic" ∧
    seeAlso.explicit = false ∧ ({} : Options).joinTable seeAlso = .ok seeAlsoTable ∧
    seeAlsoTable.first.name = seeAlso.first.field.name ++ "Id" ∧
    reads.name ≠ defaultRelationName "Reader" "Page" := by
  have hfirst := manyToMany_explicit relations_eq (r := seeAlso) List.mem_cons_self (.inl rfl)
  have hsecond := manyToMany_explicit relations_eq (r := reads)
    (List.mem_cons_of_mem _ List.mem_cons_self) (.inr rfl)
  obtain ⟨-, -, hunnamed, hcolumns⟩ := hfirst
  obtain ⟨-, hiff, -⟩ := hsecond
  obtain ⟨-, -, hkept⟩ := hcolumns _ _ seeAlsoTable_eq
  exact ⟨relations_eq, rfl, hunnamed rfl, seeAlsoTable_eq, (hkept (by decide)).1, hiff.mp rfl⟩

end Wiki

end Dbml

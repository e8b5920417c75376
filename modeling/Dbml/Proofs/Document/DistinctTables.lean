import Dbml.Proofs.Document.Names
import Dbml.Proofs.Document.Blocks
import Dbml.Proofs.Relation.Order

/-!
# Names of tables

Tables of models are told apart by the names of their models, if these are distinct. A join
table has the name of its relation, and relations of one name are kept apart by the models
that they join. So a document has two tables of one name iff a relation between lists is
called like a model, or two of them that join different models are called alike
(`tableNames_nodup`). Default names never are, unless the name of a model has `To` in it.
-/

namespace Dbml

variable {o : Options} {dm : DataModel} {d : Document} {rs : List Relation}

/-! ## The names in a document -/

/-- The name of a block that is a table. -/
def Block.tableName? : Block → Option String
  | .table t => some t.name
  | .joinTable j => some j.name
  | .enumeration _ | .reference _ => none

/-- The names of the tables of models and of the join tables. -/
def Document.tableNames (d : Document) : List String := d.parts.filterMap Block.tableName?

theorem Document.tableNames_eq (d : Document) :
    d.tableNames = d.tables.map (·.name) ++ d.joinTables.map (·.name) := by
  have hnone {α : Type} (xs : List α) : xs.filterMap (fun _ => (none : Option String)) = [] :=
    List.filterMap_eq_nil_iff.mpr fun _ _ => rfl
  simp [tableNames, parts, List.filterMap_append, List.filterMap_map, Function.comp_def,
    Block.tableName?, hnone]

/-! ## Relations between lists -/

namespace DataModel

/-- A list that has a list for a partner. -/
structure HasList (dm : DataModel) (x : RelationField) : Prop where
  relationField : dm.HasRelationField x
  partner : ∃ y, dm.HasRelationField y ∧ x ≠ y ∧ x.Partners y ∧ ListPair x.field y.field

/-- The relations between lists, by one of their fields. -/
theorem hasList_of_manyToMany (h : dm.relations = .ok rs) {r : ManyToMany}
    (hr : .manyToMany r ∈ rs) :
    dm.HasList r.first.toRelationField ∧ r.first.relationName = r.name := by
  obtain ⟨hname, hlists⟩ := lists_of_manyToMany h hr
  obtain ⟨ha, hc, hk, hpos⟩ := ends_of_mem_relations h hr
  exact ⟨⟨ha.relationField, _, hc.relationField, fun he => hpos (congrArg (·.position) he),
    (ha.key_eq_iff hc).mp hk, hlists⟩, hname.symm⟩

theorem exists_manyToMany (h : dm.relations = .ok rs) {x : RelationField} (hx : dm.HasList x) :
    ∃ r : ManyToMany, .manyToMany r ∈ rs ∧ r.name = x.relationName ∧
      x.Partners r.first.toRelationField := by
  obtain ⟨y, hy, hne, hp, hl⟩ := hx.partner
  obtain ⟨r, hr, hname, -, -, hends⟩ := lists_mem_relations h hx.relationField hy hne hp hl
  refine ⟨r, hr, hname, ?_⟩
  rcases hends with ⟨hfirst, -⟩ | ⟨hfirst, -⟩ <;> rw [hfirst]
  · exact ⟨rfl, rfl⟩
  · exact hp

/-- Relations between lists have distinct names iff no two fields of such relations have one
name and join different models. -/
theorem nodup_names (h : dm.relations = .ok rs) :
    ((rs.filterMap Relation.manyToMany?).map (·.name)).Nodup ↔
      ∀ x y, dm.HasList x → dm.HasList y → x.relationName = y.relationName → x.Partners y := by
  have hmem (r : ManyToMany) : r ∈ rs.filterMap Relation.manyToMany? ↔ .manyToMany r ∈ rs := by
    simp [List.mem_filterMap, Relation.manyToMany?_eq_some_iff]
  have hdistinct : (rs.filterMap Relation.manyToMany?).Nodup := by
    refine List.pairwise_filterMap.mpr ((relations_before h).imp fun {r s} hrs => ?_)
    rintro a ha b hb rfl
    rw [Relation.manyToMany?_eq_some_iff] at ha hb
    subst ha hb
    exact hrs.ne rfl
  rw [List.nodup_map_iff_inj_on hdistinct]
  constructor
  · intro hinj x y hx hy hxy
    obtain ⟨r, hr, hrx, hpx⟩ := exists_manyToMany h hx
    obtain ⟨s, hs, hsy, hpy⟩ := exists_manyToMany h hy
    obtain rfl := hinj r ((hmem r).mpr hr) s ((hmem s).mpr hs) (by rw [hrx, hsy, hxy])
    exact ⟨hxy, hpx.2.trans hpy.2.symm⟩
  · intro hp r hr s hs hrs
    rw [hmem] at hr hs
    obtain ⟨hlr, hnr⟩ := hasList_of_manyToMany h hr
    obtain ⟨hls, hns⟩ := hasList_of_manyToMany h hs
    have hpartners := hp _ _ hlr hls (by rw [hnr, hns, hrs])
    have hkey := ((ends_of_mem_relations h hr).1.key_eq_iff (ends_of_mem_relations h hs).1).mpr
      hpartners
    exact Relation.manyToMany.inj (eq_of_key_eq h hr hs hkey)

end DataModel

/-! ## Default names -/

/-- Whether a name has `To` in it. -/
def HasTo (name : String) : Prop := ['T', 'o'] <:+: name.toList

instance (name : String) : Decidable (HasTo name) := inferInstanceAs (Decidable (_ <:+: _))

theorem hasTo_defaultRelationName (a b : String) : HasTo (defaultRelationName a b) := by
  unfold defaultRelationName HasTo
  split <;> rw [String.toList_append, String.toList_append]
  · exact ⟨a.toList, b.toList, rfl⟩
  · exact ⟨b.toList, a.toList, rfl⟩

/-- The first `To` is the only place to cut at. -/
theorem append_to_inj {a b a' b' : String} (ha : ¬ HasTo a) (ha' : ¬ HasTo a')
    (h : a ++ "To" ++ b = a' ++ "To" ++ b') : a = a' ∧ b = b' := by
  have hcut {xs ys c r s : List Char} (hys : ¬ ['T', 'o'] <:+: ys) (hc : ys = xs ++ c)
      (h : 'T' :: 'o' :: r = c ++ 'T' :: 'o' :: s) : c = [] := by
    rcases c with _ | ⟨c, _ | ⟨c', cs⟩⟩
    · rfl
    · simp at h
    · obtain ⟨rfl, rfl, -⟩ := by simpa using h
      exact absurd ⟨xs, cs, by simp [hc]⟩ hys
  replace h := congrArg String.toList h
  simp only [String.toList_append, List.append_assoc] at h
  have hstart : a.toList = a'.toList := by
    rcases List.append_eq_append_iff.mp h with ⟨c, hc, hr⟩ | ⟨c, hc, hr⟩
    · rw [hc, hcut ha' hc hr, List.append_nil]
    · rw [hc, hcut ha hc hr, List.append_nil]
  rw [hstart] at h
  have hrest := List.append_cancel_left (List.append_cancel_left h)
  exact ⟨String.toList_inj.mp hstart, String.toList_inj.mp hrest⟩

/-- Default names tell the two models. -/
theorem defaultRelationName_inj {a b a' b' : String} (ha : ¬ HasTo a) (hb : ¬ HasTo b)
    (ha' : ¬ HasTo a') (hb' : ¬ HasTo b')
    (h : defaultRelationName a b = defaultRelationName a' b') : s(a, b) = s(a', b') := by
  unfold defaultRelationName at h
  rw [Sym2.eq_iff]
  split at h <;> split at h
  · exact .inl (append_to_inj ha ha' h)
  · exact .inr (append_to_inj ha hb' h)
  · exact .inr (append_to_inj hb ha' h).symm
  · exact .inl (append_to_inj hb hb' h).symm

/-! ## Documents -/

/-- The names of the tables are those of the models, and then those of the relations. -/
theorem tableNames_of_document (hd : o.document dm = .ok d) (hm : o.manyToMany = true)
    (hs : o.mapToDbSchema = false) :
    ∃ rs, dm.relations = .ok rs ∧ d.tableNames =
      dm.models.map (·.name) ++ (rs.filterMap Relation.manyToMany?).map (·.name) := by
  obtain ⟨rs, hrs, htables, hjoins, -⟩ := document_eq_ok_iff.mp hd
  rw [Options.joinTables, if_pos hm] at hjoins
  refine ⟨rs, hrs, ?_⟩
  have hname (m : Model) : o.tableName m = m.name := by
    rw [Options.tableName, Model.outputName, hs]
    rfl
  have ht : d.tables.map (·.name) = dm.models.map (·.name) :=
    map_eq_of_forall₂ (mapM_eq_ok_iff.mp htables) fun m b hb =>
      (table_eq_ok_iff.mp hb).1.trans (hname m)
  have hj : d.joinTables.map (·.name) = (rs.filterMap Relation.manyToMany?).map (·.name) :=
    map_eq_of_forall₂ (mapM_eq_ok_iff.mp hjoins) fun r j hj => (joinTable_eq_ok_iff.mp hj).1
  rw [Document.tableNames_eq, ht, hj]

/-- Where a document has join tables and shows models under their own names, which are distinct,
its tables have distinct names iff no relation between lists is called like a model and no two
of them that join different models are called alike. So they have if these relations have
their default names and no model has `To` in its name. -/
theorem tableNames_nodup {t : String} (h : o.render dm = .ok t)
    (hnames : (dm.models.map (·.name)).Nodup) (hm : o.manyToMany = true)
    (hs : o.mapToDbSchema = false) :
    ∃ d, o.document dm = .ok d ∧ d.text = t ∧
      (d.tableNames.Nodup ↔
        (∀ x, dm.HasList x → ∀ m ∈ dm.models, m.name ≠ x.relationName) ∧
        ∀ x y, dm.HasList x → dm.HasList y → x.relationName = y.relationName → x.Partners y) ∧
      ((∀ x, dm.HasList x → x.relationName = defaultRelationName x.owner.name x.field.type) →
        (∀ m ∈ dm.models, ¬ HasTo m.name) → d.tableNames.Nodup) := by
  obtain ⟨d, hd, rfl⟩ := render_eq_ok_iff.mp h
  obtain ⟨rs, hrs, heq⟩ := tableNames_of_document hd hm hs
  have hiff : d.tableNames.Nodup ↔
      (∀ x, dm.HasList x → ∀ m ∈ dm.models, m.name ≠ x.relationName) ∧
      ∀ x y, dm.HasList x → dm.HasList y → x.relationName = y.relationName → x.Partners y := by
    rw [heq, List.nodup_append, DataModel.nodup_names hrs, and_iff_right hnames, and_comm]
    refine and_congr_left fun _ => ?_
    simp only [List.forall_mem_map, List.mem_filterMap, Relation.manyToMany?_eq_some_iff]
    constructor
    · intro hne x hx m hmem
      obtain ⟨r, hr, hname, -⟩ := DataModel.exists_manyToMany hrs hx
      exact hname ▸ hne m hmem r ⟨_, hr, rfl⟩
    · rintro hne m hmem r ⟨_, hr, rfl⟩
      obtain ⟨hl, hname⟩ := DataModel.hasList_of_manyToMany hrs hr
      exact hname ▸ hne _ hl m hmem
  refine ⟨d, hd, rfl, hiff, fun hdefault hto => hiff.mpr ⟨?models, ?relations⟩⟩
  case models =>
    intro x hx m hmem he
    rw [hdefault x hx] at he
    exact hto m hmem (he ▸ hasTo_defaultRelationName _ _)
  case relations =>
    intro x y hx hy hxy
    have hends {z : RelationField} (hz : dm.HasRelationField z) :
        ¬ HasTo z.owner.name ∧ ¬ HasTo z.field.type := by
      obtain ⟨m, hmem, hname⟩ := (DataModel.wellRelated_of_relations hrs).target z hz
      exact ⟨hto _ (List.mem_of_getElem? hz.owner), hname ▸ hto m hmem⟩
    obtain ⟨hxo, hxt⟩ := hends hx.relationField
    obtain ⟨hyo, hyt⟩ := hends hy.relationField
    rw [hdefault x hx, hdefault y hy] at hxy
    exact ⟨by rw [hdefault x hx, hdefault y hy, hxy], defaultRelationName_inj hxo hxt hyo hyt hxy⟩

/-! ## Two relations of one name -/

namespace Links

def options : Options := {}

/-- A list of models, with a name for its relation if one is given. -/
def list (given : Option String) (name type : String) : Field :=
  { Blog.list name type with relation := some { name := given } }

def dataModel (given : Option String) : DataModel where
  models :=
    [{ name := "Post", fields := [Blog.id, list given "tags" "Tag", list given "users" "User"] },
     { name := "Tag", fields := [Blog.id, list given "posts" "Post"] },
     { name := "User", fields := [Blog.id, list given "posts" "Post"] }]

/-- The document with these names for the two join tables. -/
def document (tags users : String) : Document where
  project := none
  tables :=
    [{ name := "Post"
       rows := [⟨"id", "Int", [.pk]⟩, ⟨"tags", "Tag", []⟩, ⟨"users", "User", []⟩]
       indexes := []
       note := none },
     { name := "Tag"
       rows := [⟨"id", "Int", [.pk]⟩, ⟨"posts", "Post", []⟩]
       indexes := []
       note := none },
     { name := "User"
       rows := [⟨"id", "Int", [.pk]⟩, ⟨"posts", "Post", []⟩]
       indexes := []
       note := none }]
  enums := []
  references := []
  joinTables :=
    [⟨tags, ⟨"tagsId", "Int", "Tag", "id"⟩, ⟨"postsId", "Int", "Post", "id"⟩⟩,
     ⟨users, ⟨"usersId", "Int", "User", "id"⟩, ⟨"postsId", "Int", "Post", "id"⟩⟩]

theorem document_default :
    options.document (dataModel none) = .ok (document "PostToTag" "PostToUser") := by
  rw [Options.document, DataModel.relations_eq_insertionSort]
  with_unfolding_all rfl

theorem document_given :
    options.document (dataModel (some "links")) = .ok (document "links" "links") := by
  rw [Options.document, DataModel.relations_eq_insertionSort]
  with_unfolding_all rfl

theorem names_distinct :
    options.render (dataModel none) = .ok (document "PostToTag" "PostToUser").text ∧
    (∀ m ∈ (dataModel none).models, ¬ HasTo m.name) ∧
    (document "PostToTag" "PostToUser").tableNames.Nodup := by
  have hrender : options.render (dataModel none) = .ok (document "PostToTag" "PostToUser").text :=
    render_eq_ok_iff.mpr ⟨_, document_default, rfl⟩
  have hto : ∀ m ∈ (dataModel none).models, ¬ HasTo m.name := by decide
  have hnone : ∀ m ∈ (dataModel none).models, ∀ f ∈ m.fields, f.relationName = none := by
    decide
  obtain ⟨d, hd, -, -, hdistinct⟩ := tableNames_nodup hrender (by decide) rfl rfl
  obtain rfl := Except.ok.inj (document_default.symm.trans hd)
  refine ⟨hrender, hto, hdistinct (fun x hx => ?_) hto⟩
  have howner := List.mem_of_getElem? hx.relationField.owner
  have hfield := List.mem_of_getElem? hx.relationField.field
  rw [RelationField.relationName, hnone _ howner _ hfield]
  rfl

/-- A name that is given to two relations is the name of two tables. -/
theorem names_repeated :
    options.manyToMany = true ∧ options.mapToDbSchema = false ∧
    ((dataModel (some "links")).models.map (·.name)).Nodup ∧
    options.render (dataModel (some "links")) = .ok (document "links" "links").text ∧
    ¬ (document "links" "links").tableNames.Nodup := by
  refine ⟨rfl, rfl, by decide, render_eq_ok_iff.mpr ⟨_, document_given, rfl⟩, ?_⟩
  rw [Document.tableNames_eq]
  decide

end Links

end Dbml

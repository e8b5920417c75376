import Dbml.Proofs.Relation.Coverage

/-!
# Which data models have relations

Two fields of kind `object` are partners if they have the same relation name
and join the same two models. A data model is well related
(`DataModel.WellRelated`) if each such field points at a model and has exactly
one partner besides itself, with which it has one of the two shapes of a
relation. The classification accepts the well related data models and no
others, and turns each pair of partners into the relation of its shape
(`relations_accept_wellRelated`).
-/

namespace Dbml

/-- Whether two fields have the same relation name and join the same two models. -/
def RelationField.Partners (x y : RelationField) : Prop :=
  x.relationName = y.relationName ∧ s(x.owner.name, x.field.type) = s(y.owner.name, y.field.type)

/-- Whether the relation of a field is given a name of its own there. -/
def RelationField.isExplicit (x : RelationField) : Bool :=
  isExplicitName x.field.relationName x.owner.name x.field.type

/-- Whether two fields have one of the shapes of a relation, in whatever order. -/
def RelationField.Shaped (x y : RelationField) : Prop :=
  KeyedPair x.owner.isUniqueKey x.field y.field ∨
    KeyedPair y.owner.isUniqueKey y.field x.field ∨ ListPair x.field y.field

theorem RelationField.Shaped.symm {x y : RelationField} (h : x.Shaped y) : y.Shaped x := by
  rcases h with hk | hk | hl
  · exact .inr (.inl hk)
  · exact .inl hk
  · exact .inr (.inr hl.symm)

namespace DataModel

/-- What the relations of a data model require of its fields of kind `object`. -/
structure WellRelated (dm : DataModel) : Prop where
  target (x : RelationField) : dm.HasRelationField x → ∃ m ∈ dm.models, m.name = x.field.type
  /-- A field and its partners are two fields. -/
  two (x : RelationField) : dm.HasRelationField x →
    ∃ a b, a ≠ b ∧ ∀ z, dm.HasRelationField z ∧ x.Partners z ↔ z = a ∨ z = b
  shape (x y : RelationField) : dm.HasRelationField x → dm.HasRelationField y → x ≠ y →
    x.Partners y → x.Shaped y

variable {dm : DataModel} {ends : List Endpoint}

theorem HasEnd.isExplicit_eq {e : Endpoint} (h : dm.HasEnd e) :
    e.isExplicit = e.toRelationField.isExplicit := by
  rw [Endpoint.isExplicit, h.target_name, RelationField.isExplicit]

theorem HasEnd.key_eq_iff {e e' : Endpoint} (h : dm.HasEnd e) (h' : dm.HasEnd e') :
    e.key = e'.key ↔ e.toRelationField.Partners e'.toRelationField := by
  rw [Endpoint.key_eq_iff, h.target_name, h'.target_name, RelationField.Partners]

/-- The group of an end holds the ends of its partners. -/
theorem mem_group_iff (he : dm.endpoints = .ok ends) {e : Endpoint} (hm : e ∈ ends)
    {z : RelationField} :
    dm.HasRelationField z ∧ e.toRelationField.Partners z ↔
      z ∈ (e.key.group ends).ends.map (·.toRelationField) := by
  have hends := (endpoints_eq_ok he).2
  simp only [List.mem_map, RelationKey.group, List.mem_filter, decide_eq_true_eq]
  constructor
  · rintro ⟨hz, hp⟩
    obtain ⟨e', hm', rfl⟩ := exists_end he hz
    exact ⟨e', ⟨hm', ((hends e hm).key_eq_iff (hends e' hm')).mpr hp |>.symm⟩, rfl⟩
  · rintro ⟨e', ⟨hm', hk⟩, rfl⟩
    exact ⟨(hends e' hm').relationField, ((hends e hm).key_eq_iff (hends e' hm')).mp hk.symm⟩

theorem group_before (he : dm.endpoints = .ok ends) (k : RelationKey) :
    (k.group ends).ends.Pairwise (·.position.Before ·.position) :=
  (endpoints_before he).filter _

theorem group_nodup (he : dm.endpoints = .ok ends) (k : RelationKey) :
    ((k.group ends).ends.map (·.toRelationField)).Nodup :=
  List.pairwise_map.mpr ((group_before he k).imp fun h hx => h.ne (congrArg (·.position) hx))

/-- Where there are relations, the group of an end is a pair that is one of them. -/
theorem group_eq_pair {rs : List Relation} (h : dm.relations = .ok rs)
    (he : dm.endpoints = .ok ends) {e : Endpoint} (hm : e ∈ ends) :
    ∃ a b, (e.key.group ends).ends = [a, b] ∧ ∃ r ∈ rs,
      Relation.ofPair e.relationName e.isExplicit a b = .ok r := by
  obtain ⟨ends', he', hall⟩ := exists_relations_iff.mp ⟨rs, h⟩
  obtain rfl : ends = ends' := Except.ok.inj (he.symm.trans he')
  have hk : e.key ∈ relationKeys ends := mem_relationKeys.mpr ⟨e, hm, rfl⟩
  obtain ⟨r, hr⟩ := hall e.key hk
  obtain ⟨a, b, hg, hp⟩ := RelationGroup.relation_eq_ok_iff.mp hr
  have hname : (e.key.group ends).name = e.relationName := e.key_name
  have hexplicit : (e.key.group ends).explicit = e.isExplicit :=
    (Endpoint.isExplicit_eq ((endpoints_eq_ok he).2 e hm).target_name).symm
  rw [hname, hexplicit] at hp
  exact ⟨a, b, hg, r, (mem_relations_iff h).mpr ⟨ends, he, e.key, hk, hr⟩, hp⟩

/-- Two partners are a pair of ends, in the order of their places. -/
theorem pair_of_partners {rs : List Relation} (h : dm.relations = .ok rs)
    {x y : RelationField} (hx : dm.HasRelationField x) (hy : dm.HasRelationField y) (hne : x ≠ y)
    (hp : x.Partners y) :
    ∃ a b, ∃ r ∈ rs, Relation.ofPair x.relationName x.isExplicit a b = .ok r ∧
      a.position.Before b.position ∧
      (a.toRelationField = x ∧ b.toRelationField = y ∨
        a.toRelationField = y ∧ b.toRelationField = x) := by
  obtain ⟨ends, -, he, -⟩ := relations_eq_ok_iff.mp h
  obtain ⟨e, hm, rfl⟩ := exists_end he hx
  obtain ⟨a, b, hg, r, hr, hab⟩ := group_eq_pair h he hm
  have hbefore := group_before he e.key
  rw [hg] at hbefore
  rw [((endpoints_eq_ok he).2 e hm).isExplicit_eq] at hab
  refine ⟨a, b, r, hr, hab, List.rel_of_pairwise_cons hbefore List.mem_cons_self, ?_⟩
  have hxm := (mem_group_iff he hm).mp ⟨hx, rfl, rfl⟩
  have hym := (mem_group_iff he hm).mp ⟨hy, hp⟩
  rw [hg, List.map_cons, List.map_singleton, List.mem_pair] at hxm hym
  rcases hxm with hxa | hxb <;> rcases hym with hya | hyb
  · exact absurd (hxa.trans hya.symm) hne
  · exact .inl ⟨hxa.symm, hyb.symm⟩
  · exact .inr ⟨hya.symm, hxb.symm⟩
  · exact absurd (hxb.trans hyb.symm) hne

theorem wellRelated_of_relations {rs : List Relation} (h : dm.relations = .ok rs) :
    dm.WellRelated := by
  obtain ⟨ends, -, he, -⟩ := relations_eq_ok_iff.mp h
  refine ⟨exists_endpoints_iff.mp ⟨ends, he⟩, fun x hx => ?_, fun x y hx hy hne hp => ?_⟩
  · obtain ⟨e, hm, rfl⟩ := exists_end he hx
    obtain ⟨a, b, hg, -⟩ := group_eq_pair h he hm
    have hn := group_nodup he e.key
    rw [hg] at hn
    refine ⟨a.toRelationField, b.toRelationField, by simpa using hn, fun z => ?_⟩
    rw [mem_group_iff he hm, hg]
    exact List.mem_pair
  · obtain ⟨a, b, r, -, hr, -, hxy⟩ := pair_of_partners h hx hy hne hp
    have hs : a.toRelationField.Shaped b.toRelationField :=
      (Relation.ofPair_eq_ok_iff.mp hr).imp And.left (.imp And.left And.left)
    rcases hxy with ⟨rfl, rfl⟩ | ⟨rfl, rfl⟩
    · exact hs
    · exact hs.symm

theorem exists_relations_of_wellRelated (h : dm.WellRelated) : ∃ rs, dm.relations = .ok rs := by
  rw [exists_relations_iff]
  obtain ⟨ends, he⟩ := exists_endpoints_iff.mpr h.target
  refine ⟨ends, he, fun k hk => ?_⟩
  obtain ⟨e, hm, rfl⟩ := mem_relationKeys.mp hk
  have hend := (endpoints_eq_ok he).2
  obtain ⟨a, b, hne, hab⟩ := h.two _ (hend e hm).relationField
  have hperm : ((e.key.group ends).ends.map (·.toRelationField)).Perm [a, b] := by
    refine (List.perm_ext_iff_of_nodup (group_nodup he _) (by simp [hne])).mpr fun z => ?_
    rw [← mem_group_iff he hm, hab, List.mem_pair]
  have hl : (e.key.group ends).ends.length = 2 := by simpa using hperm.length_eq
  obtain ⟨u, v, huv⟩ := List.length_eq_two.mp hl
  have hkey (w : Endpoint) (hw : w ∈ (e.key.group ends).ends) : dm.HasEnd w ∧ w.key = e.key := by
    obtain ⟨hw, hk⟩ := List.mem_filter.mp hw
    exact ⟨hend w hw, of_decide_eq_true hk⟩
  obtain ⟨hu, huk⟩ := hkey u (huv ▸ List.mem_cons_self)
  obtain ⟨hv, hvk⟩ := hkey v (huv ▸ List.mem_cons_of_mem u List.mem_cons_self)
  have hd := group_nodup he e.key
  rw [huv, List.map_cons, List.map_singleton, List.nodup_cons, List.mem_singleton] at hd
  have hs := h.shape _ _ hu.relationField hv.relationField hd.1
    ((hu.key_eq_iff hv).mp (huk.trans hvk.symm))
  simp only [RelationGroup.relation_eq_ok_iff, Relation.ofPair_eq_ok_iff]
  rcases hs with hs | hs | hs
  · exact ⟨_, u, v, huv, .inl ⟨hs, rfl⟩⟩
  · exact ⟨_, u, v, huv, .inr (.inl ⟨hs, rfl⟩)⟩
  · exact ⟨_, u, v, huv, .inr (.inr ⟨hs, rfl⟩)⟩

section

variable {rs : List Relation} (h : dm.relations = .ok rs) {x y : RelationField}
  (hx : dm.HasRelationField x) (hy : dm.HasRelationField y) (hne : x ≠ y) (hp : x.Partners y)
include h hx hy hne hp

/-- The partner that holds a foreign key is on the side of the foreign key. -/
theorem keyed_mem_relations (hk : KeyedPair x.owner.isUniqueKey x.field y.field) :
    ∃ a b : Endpoint, a.toRelationField = x ∧ b.toRelationField = y ∧ Relation.keyed a b ∈ rs := by
  obtain ⟨a, b, r, hr, hab, -, hxy⟩ := pair_of_partners h hx hy hne hp
  have hshape := Relation.ofPair_eq_ok_iff.mp hab
  rcases hxy with ⟨rfl, rfl⟩ | ⟨rfl, rfl⟩
  · rcases hshape with ⟨-, rfl⟩ | ⟨hk', -⟩ | ⟨hl, -⟩
    · exact ⟨a, b, rfl, rfl, hr⟩
    · exact absurd hk' hk.not_swap
    · exact absurd hl hk.not_listPair
  · rcases hshape with ⟨hk', -⟩ | ⟨-, rfl⟩ | ⟨hl, -⟩
    · exact absurd hk' hk.not_swap
    · exact ⟨b, a, rfl, rfl, hr⟩
    · exact absurd hl.symm hk.not_listPair

/-- Of two lists the earlier one is the first end. -/
theorem lists_mem_relations (hl : ListPair x.field y.field) :
    ∃ m : ManyToMany, .manyToMany m ∈ rs ∧
      m.name = x.relationName ∧ m.explicit = x.isExplicit ∧
      m.first.position.Before m.second.position ∧
      (m.first.toRelationField = x ∧ m.second.toRelationField = y ∨
        m.first.toRelationField = y ∧ m.second.toRelationField = x) := by
  obtain ⟨a, b, r, hr, hab, hbefore, hxy⟩ := pair_of_partners h hx hy hne hp
  have hl' : ListPair a.field b.field := by
    rcases hxy with ⟨rfl, rfl⟩ | ⟨rfl, rfl⟩
    · exact hl
    · exact hl.symm
  rcases Relation.ofPair_eq_ok_iff.mp hab with ⟨hk, -⟩ | ⟨hk, -⟩ | ⟨-, rfl⟩
  · exact absurd hl' hk.not_listPair
  · exact absurd hl'.symm hk.not_listPair
  · exact ⟨_, hr, rfl, rfl, hbefore, hxy⟩

end

/-- The data models that have relations are the well related ones. In the
relations, a pair of which `x` holds the foreign key is one-to-many or
one-to-one, as `y` is a list or not, with the columns and the action that `x`
names; a pair of lists is many-to-many under their common name, marked as explicit
if it is so for `x`, the earlier one first. -/
theorem relations_accept_wellRelated (dm : DataModel) :
    ((∃ rs, dm.relations = .ok rs) ↔ dm.WellRelated) ∧
    ∀ rs, dm.relations = .ok rs → ∀ x y, dm.HasRelationField x → dm.HasRelationField y → x ≠ y →
      x.Partners y →
      (KeyedPair x.owner.isUniqueKey x.field y.field → ∃ d : DirectRelation,
        d.foreignKey.toRelationField = x ∧ d.referenced.toRelationField = y ∧
        d.fromFields = x.field.fromFields ∧ d.toFields = x.field.toFields ∧
        d.onDelete = x.field.onDelete ∧
        (if y.field.isList then Relation.oneToMany d else .oneToOne d) ∈ rs) ∧
      (ListPair x.field y.field → ∃ m : ManyToMany, .manyToMany m ∈ rs ∧
        m.name = x.relationName ∧ m.explicit = x.isExplicit ∧
        m.first.position.Before m.second.position ∧
        (m.first.toRelationField = x ∧ m.second.toRelationField = y ∨
          m.first.toRelationField = y ∧ m.second.toRelationField = x)) := by
  refine ⟨⟨fun ⟨_, h⟩ => wellRelated_of_relations h, exists_relations_of_wellRelated⟩, ?_⟩
  intro rs h x y hx hy hne hp
  constructor
  · intro hk
    obtain ⟨a, b, rfl, rfl, hr⟩ := keyed_mem_relations h hx hy hne hp hk
    exact ⟨_, rfl, rfl, rfl, rfl, rfl, hr⟩
  · intro hl
    exact lists_mem_relations h hx hy hne hp hl

end DataModel

namespace Blog

theorem accepts_relations :
    dataModel.WellRelated ∧
    (∃ d : DirectRelation, .oneToMany d ∈ relations ∧ d.foreignKey.toRelationField =
      ⟨⟨1, 2⟩, post, author⟩ ∧ d.onDelete = some .cascade) ∧
    ∃ m : ManyToMany, .manyToMany m ∈ relations ∧ m.name = "PostToTag" ∧ m.explicit = false ∧
      m.first.position.Before m.second.position := by
  obtain ⟨hiff, hpairs⟩ := DataModel.relations_accept_wellRelated dataModel
  refine ⟨hiff.mp ⟨_, relations_eq⟩, ?_, ?_⟩
  · obtain ⟨d, hfk, -, -, -, hd, hm⟩ := (hpairs _ relations_eq ⟨⟨1, 2⟩, post, author⟩
      ⟨⟨0, 1⟩, user, list "posts" "Post"⟩ ⟨rfl, rfl, rfl⟩ ⟨rfl, rfl, rfl⟩ (by simp [post, user])
      ⟨by decide, by decide⟩).1 ⟨by decide, by decide, by decide, by decide, by decide⟩
    exact ⟨d, hm, hfk, hd⟩
  · obtain ⟨m, hm, hname, hexplicit, hbefore, -⟩ := (hpairs _ relations_eq
      ⟨⟨1, 3⟩, post, list "tags" "Tag"⟩ ⟨⟨2, 1⟩, tag, list "posts" "Post"⟩
      ⟨rfl, rfl, rfl⟩ ⟨rfl, rfl, rfl⟩ (by simp [post, tag])
      ⟨by decide, by decide⟩).2 ⟨by decide, by decide⟩
    exact ⟨m, hm, hname, hexplicit, hbefore⟩

end Blog

end Dbml

import Dbml.Proofs.Relation.Acceptance
import Dbml.Proofs.Schema.UniqueKeys
import Mathlib.Data.List.Permutation

/-!
# The order of declarations

Reordering models, and fields inside models, keeps which relations there are
(`relations_reordered`). What the classification sees of a field, its place
apart, is a view (`RelationField.view`): the key of an end is that of its view
(`HasEnd.key_view`), the relation of a group is described by the views of its
two ends, in whatever order (`describe_eq_some_iff`), and reordering permutes
the views of a data model (`views_perm`).
-/

namespace Dbml

/-- A relation with a foreign key, by the names of what it joins. -/
structure DirectSummary where
  toOne : Bool
  foreignModel : String
  foreignField : String
  referencedModel : String
  referencedField : String
  fromFields : List String
  toFields : List String
  onDelete : Option DeleteAction

/-- A relation between lists, by the names of what it joins. -/
structure ManyToManySummary where
  name : String
  explicit : Bool
  /-- The two ends as names of models and fields, in no order. -/
  ends : Sym2 (String × String)

/-- The names in a relation with a foreign key. -/
def DirectRelation.summary (toOne : Bool) (r : DirectRelation) : DirectSummary where
  toOne := toOne
  foreignModel := r.foreignKey.owner.name
  foreignField := r.foreignKey.field.name
  referencedModel := r.referenced.owner.name
  referencedField := r.referenced.field.name
  fromFields := r.fromFields
  toFields := r.toFields
  onDelete := r.onDelete

/-- The names in a relation between lists. -/
def ManyToMany.summary (r : ManyToMany) : ManyToManySummary where
  name := r.name
  explicit := r.explicit
  ends := s((r.first.owner.name, r.first.field.name), (r.second.owner.name, r.second.field.name))

namespace Relation

def summary : Relation → DirectSummary ⊕ ManyToManySummary
  | .oneToOne r => .inl (r.summary true)
  | .oneToMany r => .inl (r.summary false)
  | .manyToMany r => .inr r.summary

def directSummary? (r : Relation) : Option DirectSummary := r.summary.getLeft?

def manyToManySummary? (r : Relation) : Option ManyToManySummary := r.summary.getRight?

end Relation

/-- A model with its fields in another order. -/
def Model.Reordered (m m' : Model) : Prop :=
  m' = { m with fields := m'.fields } ∧ m.fields.Perm m'.fields

/-- A data model with its models, and their fields, in another order. -/
def DataModel.Reordered (dm dm' : DataModel) : Prop :=
  dm'.enums = dm.enums ∧
    ∃ models, List.Forall₂ Model.Reordered dm.models models ∧ models.Perm dm'.models

/-- What the classification sees of a field, its place apart. -/
structure FieldView where
  owner : String
  field : Field
  /-- Whether columns of the owner are unique. -/
  isUnique : List String → Bool

def RelationField.view (x : RelationField) : FieldView :=
  ⟨x.owner.name, x.field, x.owner.isUniqueKey⟩

def Endpoint.view (e : Endpoint) : FieldView := e.toRelationField.view

namespace FieldView

def key (v : FieldView) : RelationKey :=
  let name := effectiveName v.field.relationName v.owner v.field.type
  if v.owner ≤ v.field.type then ⟨name, v.owner, v.field.type⟩ else ⟨name, v.field.type, v.owner⟩

/-- The relation with a foreign key that the first field holds. -/
def keyed (a b : FieldView) : DirectSummary where
  toOne := !b.field.isList
  foreignModel := a.owner
  foreignField := a.field.name
  referencedModel := b.owner
  referencedField := b.field.name
  fromFields := a.field.fromFields
  toFields := a.field.toFields
  onDelete := a.field.onDelete

/-- The relation between two lists with a key. -/
def lists (k : RelationKey) (a b : FieldView) : ManyToManySummary where
  name := k.name
  explicit := k.name ≠ k.defaultName
  ends := s((a.owner, a.field.name), (b.owner, b.field.name))

/-- The two fields with a key, in whatever order, are a relation with the summary `s`. -/
def Describes (k : RelationKey) (views : List FieldView) (s : DirectSummary ⊕ ManyToManySummary) :
    Prop :=
  ∃ a b, views.Perm [a, b] ∧
    (KeyedPair a.isUnique a.field b.field ∧ s = .inl (keyed a b) ∨
      ListPair a.field b.field ∧ s = .inr (lists k a b))

end FieldView

theorem DataModel.HasEnd.key_view {dm : DataModel} {e : Endpoint} (h : dm.HasEnd e) :
    e.view.key = e.key := by
  rw [Endpoint.key, h.target_name]
  rfl

theorem Relation.summary_keyed (a b : Endpoint) :
    (keyed a b).summary = .inl (FieldView.keyed a.view b.view) := by
  rw [keyed]
  split
  · rename_i h
    simp only [summary, FieldView.keyed, DirectRelation.summary, Endpoint.view,
      RelationField.view, h, Bool.not_true]
  · rename_i h
    simp only [summary, FieldView.keyed, DirectRelation.summary, Endpoint.view,
      RelationField.view, h, Bool.not_false]

/-- What the relation of a key is, if it is one. -/
def describe (ends : List Endpoint) (k : RelationKey) :
    Option (DirectSummary ⊕ ManyToManySummary) :=
  (k.group ends).relation.toOption.map Relation.summary

theorem describe_eq_some_iff {ends : List Endpoint} {k : RelationKey}
    {s : DirectSummary ⊕ ManyToManySummary} :
    describe ends k = some s ↔ FieldView.Describes k ((k.group ends).ends.map Endpoint.view) s := by
  have ht : describe ends k = some s ↔ ∃ r, (k.group ends).relation = .ok r ∧ r.summary = s := by
    rw [describe]
    cases (k.group ends).relation <;> simp [Except.toOption]
  rw [ht]
  simp only [RelationGroup.relation_eq_ok_iff, Relation.ofPair_eq_ok_iff]
  constructor
  · rintro ⟨r, ⟨a, b, hg, ⟨hk, rfl⟩ | ⟨hk, rfl⟩ | ⟨hl, rfl⟩⟩, rfl⟩
    · exact ⟨a.view, b.view, hg ▸ .refl _, .inl ⟨hk, Relation.summary_keyed a b⟩⟩
    · exact ⟨b.view, a.view, hg ▸ .swap _ _ [], .inl ⟨hk, Relation.summary_keyed b a⟩⟩
    · exact ⟨a.view, b.view, hg ▸ .refl _, .inr ⟨hl, rfl⟩⟩
  · rintro ⟨va, vb, hp, h⟩
    have hl : (k.group ends).ends.length = 2 := by simpa using hp.length_eq
    obtain ⟨a, b, hg⟩ := List.length_eq_two.mp hl
    rw [hg, List.map_cons, List.map_singleton, List.perm_pair] at hp
    rcases hp with hp | hp <;> obtain ⟨rfl, rfl⟩ : a.view = _ ∧ b.view = _ := by simpa using hp
    · rcases h with ⟨hk, rfl⟩ | ⟨hl, rfl⟩
      · exact ⟨_, ⟨a, b, hg, .inl ⟨hk, rfl⟩⟩, Relation.summary_keyed a b⟩
      · exact ⟨_, ⟨a, b, hg, .inr (.inr ⟨hl, rfl⟩)⟩, rfl⟩
    · rcases h with ⟨hk, rfl⟩ | ⟨hl, rfl⟩
      · exact ⟨_, ⟨a, b, hg, .inr (.inl ⟨hk, rfl⟩)⟩, Relation.summary_keyed b a⟩
      · refine ⟨_, ⟨a, b, hg, .inr (.inr ⟨hl.symm, rfl⟩)⟩, ?_⟩
        simp only [Relation.summary, ManyToMany.summary, FieldView.lists, Sym2.eq_swap]
        rfl

/-! ## Views of a data model -/

namespace Model

variable {m m' : Model}

theorem field?_eq_some_iff (hn : (m.fields.map (·.name)).Nodup) {name : String} {f : Field} :
    m.field? name = some f ↔ f ∈ m.fields ∧ f.name = name := by
  constructor
  · exact mem_of_field?
  · rintro ⟨hf, hname⟩
    have hs : (m.field? name).isSome := List.find?_isSome.mpr ⟨f, hf, beq_iff_eq.mpr hname⟩
    obtain ⟨g, hg⟩ := Option.isSome_iff_exists.mp hs
    obtain ⟨hgm, hgn⟩ := mem_of_field? hg
    rw [hg, List.inj_on_of_nodup_map hn hgm hf (hgn.trans hname.symm)]

theorem Reordered.name_eq (h : m.Reordered m') : m'.name = m.name := by
  rw [h.1]

/-- Which columns are unique does not depend on the order of the fields. -/
theorem Reordered.isUniqueKey_eq (h : m.Reordered m') (hn : (m.fields.map (·.name)).Nodup) :
    m'.isUniqueKey = m.isUniqueKey := by
  obtain ⟨he, hp⟩ := h
  have hfield (name : String) : m'.field? name = m.field? name := by
    refine Option.ext fun f => ?_
    rw [field?_eq_some_iff hn, field?_eq_some_iff ((hp.map _).nodup_iff.mp hn), hp.mem_iff]
  have hdeclared (fields : List String) :
      isUniqueKey.declared m' fields = isUniqueKey.declared m fields := by
    rw [he]
    rfl
  funext fields
  unfold isUniqueKey
  simp only [hfield, hdeclared]

end Model

namespace DataModel

variable {dm dm' : DataModel}

/-- The views of the fields of kind `object`, model by model. -/
theorem map_view_relationFields (dm : DataModel) :
    dm.relationFields.map (·.view) = dm.models.flatMap fun m =>
      (m.fields.filter (·.isRelation)).map fun f => ⟨m.name, f, m.isUniqueKey⟩ :=
  dm.map_relationFields fun m f => (⟨m.name, f, m.isUniqueKey⟩ : FieldView)

/-- Reordering permutes the views. -/
theorem views_perm (h : dm.Reordered dm')
    (hn : ∀ m ∈ dm.models, (m.fields.map (·.name)).Nodup) :
    (dm.relationFields.map (·.view)).Perm (dm'.relationFields.map (·.view)) := by
  obtain ⟨-, models, hm, hp⟩ := h
  rw [map_view_relationFields, map_view_relationFields]
  refine .trans ?_ (hp.flatMap_right _)
  clear hp
  generalize dm.models = ms at hm hn
  induction hm with
  | nil => exact .nil
  | cons hr _ ih =>
    obtain ⟨hnm, hnms⟩ := List.forall_mem_cons.mp hn
    rw [List.flatMap_cons, List.flatMap_cons, hr.name_eq, hr.isUniqueKey_eq hnm]
    exact ((hr.2.filter _).map _).append (ih hnms)

theorem names_perm (h : dm.Reordered dm') :
    (dm.models.map (·.name)).Perm (dm'.models.map (·.name)) := by
  obtain ⟨-, models, hm, hp⟩ := h
  rw [← map_eq_of_forall₂ hm fun _ _ hr => hr.name_eq]
  exact hp.map _

/-- A data model has its ends if the fields of its views point at models of it. -/
theorem exists_endpoints_iff_view :
    (∃ ends, dm.endpoints = .ok ends) ↔
      ∀ v ∈ dm.relationFields.map (·.view), v.field.type ∈ dm.models.map (·.name) := by
  simp only [exists_endpoints_iff, List.mem_map, mem_relationFields]
  exact ⟨by rintro h _ ⟨x, hx, rfl⟩; exact h x hx, fun h x hx => h x.view ⟨x, hx, rfl⟩⟩

/-- The views of the ends in the group of a key. -/
theorem map_view_group {ends : List Endpoint} (he : dm.endpoints = .ok ends) (k : RelationKey) :
    (k.group ends).ends.map Endpoint.view =
      (dm.relationFields.map (·.view)).filter (·.key = k) := by
  obtain ⟨hm, hends⟩ := endpoints_eq_ok he
  rw [← hm, List.map_map, List.filter_map, RelationKey.group]
  congr 1
  refine List.filter_congr fun e hmem => ?_
  rw [← (hends e hmem).key_view]
  rfl

theorem mem_relationKeys_iff_view {ends : List Endpoint} (he : dm.endpoints = .ok ends)
    {k : RelationKey} :
    k ∈ relationKeys ends ↔ ∃ v ∈ dm.relationFields.map (·.view), v.key = k := by
  obtain ⟨hm, hends⟩ := endpoints_eq_ok he
  rw [mem_relationKeys, ← hm]
  simp only [List.mem_map]
  constructor
  · rintro ⟨e, hmem, rfl⟩
    exact ⟨_, ⟨_, ⟨e, hmem, rfl⟩, rfl⟩, (hends e hmem).key_view⟩
  · rintro ⟨_, ⟨_, ⟨e, hmem, rfl⟩, rfl⟩, rfl⟩
    exact ⟨e, hmem, (hends e hmem).key_view.symm⟩

/-- The summaries of the relations are the descriptions of their keys. -/
theorem map_summary_perm {rs : List Relation} (h : dm.relations = .ok rs) :
    ∃ ends, dm.endpoints = .ok ends ∧
      (rs.map fun r => some r.summary).Perm ((relationKeys ends).map (describe ends)) := by
  obtain ⟨ends, unsorted, he, hu, rfl⟩ := relations_eq_ok_iff.mp h
  refine ⟨ends, he, ((List.mergeSort_perm _ _).map _).trans ?_⟩
  rw [map_eq_of_forall₂ (v := describe ends) hu fun k r hr => by rw [describe, hr]; rfl]

theorem exists_relations_iff_describe :
    (∃ rs, dm.relations = .ok rs) ↔ ∃ ends, dm.endpoints = .ok ends ∧
      ∀ k ∈ relationKeys ends, ∃ s, describe ends k = some s := by
  rw [exists_relations_iff]
  refine exists_congr fun ends => and_congr_right fun _ => forall₂_congr fun k _ => ?_
  rw [describe]
  cases (k.group ends).relation <;> simp [Except.toOption]

section

variable {ends ends' : List Endpoint}
  (he : dm.endpoints = .ok ends) (he' : dm'.endpoints = .ok ends')
  (hv : (dm.relationFields.map (·.view)).Perm (dm'.relationFields.map (·.view)))
include he he' hv

theorem relationKeys_perm : (relationKeys ends).Perm (relationKeys ends') := by
  refine (List.perm_ext_iff_of_nodup (nodup_relationKeys _) (nodup_relationKeys _)).mpr fun k => ?_
  rw [mem_relationKeys_iff_view he, mem_relationKeys_iff_view he']
  simp only [hv.mem_iff]

theorem describe_eq (k : RelationKey) : describe ends k = describe ends' k := by
  refine Option.ext fun s => ?_
  rw [describe_eq_some_iff, describe_eq_some_iff, map_view_group he, map_view_group he']
  have hp := hv.filter (·.key = k)
  exact exists₂_congr fun a b => and_congr_left fun _ => ⟨hp.symm.trans, hp.trans⟩

end

/-- Two data models that differ in the order of declarations only have relations
both or not at all, and then the same ones. -/
theorem relations_reordered (h : dm.Reordered dm')
    (hn : ∀ m ∈ dm.models, (m.fields.map (·.name)).Nodup) :
    ((∃ rs, dm.relations = .ok rs) ↔ ∃ rs, dm'.relations = .ok rs) ∧
    ∀ rs rs', dm.relations = .ok rs → dm'.relations = .ok rs' →
      (rs.filterMap Relation.directSummary?).Perm (rs'.filterMap Relation.directSummary?) ∧
      (rs.filterMap Relation.manyToManySummary?).Perm
        (rs'.filterMap Relation.manyToManySummary?) := by
  have hv := views_perm h hn
  constructor
  · have hends : (∃ ends, dm.endpoints = .ok ends) ↔ ∃ ends, dm'.endpoints = .ok ends := by
      simp only [exists_endpoints_iff_view, hv.mem_iff, (names_perm h).mem_iff]
    simp only [exists_relations_iff_describe]
    constructor
    · rintro ⟨ends, he, hall⟩
      obtain ⟨ends', he'⟩ := hends.mp ⟨ends, he⟩
      refine ⟨ends', he', fun k hk => ?_⟩
      rw [← describe_eq he he' hv]
      exact hall k ((relationKeys_perm he he' hv).mem_iff.mpr hk)
    · rintro ⟨ends', he', hall⟩
      obtain ⟨ends, he⟩ := hends.mpr ⟨ends', he'⟩
      refine ⟨ends, he, fun k hk => ?_⟩
      rw [describe_eq he he' hv]
      exact hall k ((relationKeys_perm he he' hv).mem_iff.mp hk)
  · intro rs rs' hr hr'
    obtain ⟨ends, he, hs⟩ := map_summary_perm hr
    obtain ⟨ends', he', hs'⟩ := map_summary_perm hr'
    have hk : ((relationKeys ends).map (describe ends)).Perm
        ((relationKeys ends').map (describe ends')) := by
      rw [funext (describe_eq he he' hv)]
      exact (relationKeys_perm he he' hv).map _
    have hp := (hs.trans hk).trans hs'.symm
    have hd := hp.filterMap (·.bind Sum.getLeft?)
    have hm := hp.filterMap (·.bind Sum.getRight?)
    rw [List.filterMap_map, List.filterMap_map] at hd hm
    exact ⟨hd, hm⟩

end DataModel

namespace Blog

/-- The fields of `post` from the last to the first. -/
def reversedPost : Model := { post with fields := post.fields.reverse }

def reversed : DataModel := { models := [tag, reversedPost, user] }

theorem reordered_reversed : dataModel.Reordered reversed := by
  have hself (m : Model) : m.Reordered m := ⟨rfl, .refl _⟩
  have hpost : post.Reordered reversedPost := ⟨rfl, (List.reverse_perm _).symm⟩
  exact ⟨rfl, [user, reversedPost, tag], .cons (hself _) (.cons hpost (.cons (hself _) .nil)),
    (List.reverse_perm _).symm⟩

theorem reordered_relations :
    dataModel.Reordered reversed ∧ (∃ rs, reversed.relations = .ok rs) ∧
    ∀ rs, reversed.relations = .ok rs →
      (relations.filterMap Relation.directSummary?).Perm (rs.filterMap Relation.directSummary?) ∧
      (relations.filterMap Relation.manyToManySummary?).Perm
        (rs.filterMap Relation.manyToManySummary?) := by
  obtain ⟨hok, hsame⟩ := DataModel.relations_reordered reordered_reversed (by decide)
  exact ⟨reordered_reversed, hok.mp ⟨_, relations_eq⟩, fun rs h => hsame _ _ relations_eq h⟩

end Blog

end Dbml

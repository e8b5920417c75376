import Dbml.Proofs.Relation.Facing
import Dbml.Proofs.Relation.Order
import Dbml.Proofs.Relation.Renaming

/-!
# Parts of a data model that do not point at each other

A data model may have the models of one data model followed by those of another, so that no name
of a model is in both and neither points at the other (`DataModel.Parts`). Its ends are those
of the first part followed by those of the second, which come as many models later
(`Parts.endpoints`). No end of one part has a key of the other, so the groups of the parts stay
apart (`relationKeys_append`, `group_append_left`, `group_append_right`), and so do their faults
and their relations (`Parts.relations`).
-/

namespace Dbml

/-- The place that comes so many models later. -/
def Position.shift (n : Nat) (p : Position) : Position := { p with model := n + p.model }

def RelationField.shift (n : Nat) (x : RelationField) : RelationField :=
  { x with position := x.position.shift n }

/-- An end in a data model that has so many models before its own. -/
def Endpoint.shift (n : Nat) (e : Endpoint) : Endpoint := ⟨e.toRelationField.shift n, e.target⟩

namespace DataModel

/-- Whether every field of kind `object` points at a model of the data model itself. -/
def IsClosed (dm : DataModel) : Prop :=
  ∀ x, dm.HasRelationField x → ∃ m ∈ dm.models, m.name = x.field.type

/-- A data model that has the models of two others, one after the other, of which no name is in
both and neither points at the other. -/
structure Parts (dm dm₁ dm₂ : DataModel) : Prop where
  models : dm.models = dm₁.models ++ dm₂.models
  apart : ∀ m₁ ∈ dm₁.models, ∀ m₂ ∈ dm₂.models, m₁.name ≠ m₂.name
  closed₁ : dm₁.IsClosed
  closed₂ : dm₂.IsClosed

end DataModel

/-! ## Groups -/

section

variable {ends₁ ends₂ : List Endpoint} (h : ∀ e₁ ∈ ends₁, ∀ e₂ ∈ ends₂, e₁.key ≠ e₂.key)
include h

theorem relationKeys_append :
    relationKeys (ends₁ ++ ends₂) = relationKeys ends₁ ++ relationKeys ends₂ := by
  have hnew : (ends₂.map Endpoint.key).removeAll (ends₁.map Endpoint.key) =
      ends₂.map Endpoint.key := by
    refine List.filter_eq_self.mpr (List.forall_mem_map.mpr fun e₂ he₂ => ?_)
    have hnot : e₂.key ∉ ends₁.map Endpoint.key := fun hmem => by
      obtain ⟨e₁, he₁, hkey⟩ := List.mem_map.mp hmem
      exact h e₁ he₁ e₂ he₂ hkey
    simpa using hnot
  rw [relationKeys, List.map_append, List.eraseDups_append, hnew]
  rfl

theorem group_append_left {k : RelationKey} (hk : k ∈ relationKeys ends₁) :
    k.group (ends₁ ++ ends₂) = k.group ends₁ := by
  obtain ⟨e₁, he₁, rfl⟩ := mem_relationKeys.mp hk
  have hnone : ends₂.filter (·.key = e₁.key) = [] :=
    List.filter_eq_nil_iff.mpr fun e₂ he₂ => by simpa using (h e₁ he₁ e₂ he₂).symm
  rw [RelationKey.group, List.filter_append, hnone, List.append_nil]
  rfl

theorem group_append_right {k : RelationKey} (hk : k ∈ relationKeys ends₂) :
    k.group (ends₁ ++ ends₂) = k.group ends₂ := by
  obtain ⟨e₂, he₂, rfl⟩ := mem_relationKeys.mp hk
  have hnone : ends₁.filter (·.key = e₂.key) = [] :=
    List.filter_eq_nil_iff.mpr fun e₁ he₁ => by simpa using h e₁ he₁ e₂ he₂
  rw [RelationKey.group, List.filter_append, hnone, List.nil_append]
  rfl

end

/-! ## Ends that come later -/

section

variable (n : Nat) (ends : List Endpoint)

theorem relationKeys_shift : relationKeys (ends.map (Endpoint.shift n)) = relationKeys ends := by
  rw [relationKeys, List.map_map]
  rfl

theorem group_shift (k : RelationKey) :
    k.group (ends.map (Endpoint.shift n)) = (k.group ends).map (Endpoint.shift n) := by
  rw [RelationKey.group, List.filter_map]
  rfl

/-- A pair of ends is the same relation, or has the same fault, at whatever places. -/
theorem Relation.ofPair_shift (name : String) (explicit : Bool) (a b : Endpoint) :
    ofPair name explicit (a.shift n) (b.shift n) =
      map (Endpoint.shift n) <$> ofPair name explicit a b := by
  have hkey (a b : Endpoint) : ofForeignKey (a.shift n) (b.shift n) =
      map (Endpoint.shift n) <$> ofForeignKey a b := by
    have hfield (e : Endpoint) : (e.shift n).field = e.field := rfl
    have howner (e : Endpoint) : (e.shift n).owner = e.owner := rfl
    simp only [ofForeignKey, hfield, howner]
    repeat' split
    all_goals rfl
  have hholds (e : Endpoint) : (e.shift n).holdsForeignKey = e.holdsForeignKey := rfl
  have hfield (e : Endpoint) : (e.shift n).field = e.field := rfl
  simp only [ofPair, hholds, hfield]
  split
  · rfl
  · exact hkey a b
  · exact hkey b a
  · split <;> rfl

theorem RelationGroup.relation_shift (g : RelationGroup) :
    (g.map (Endpoint.shift n)).relation = Relation.map (Endpoint.shift n) <$> g.relation := by
  obtain ⟨name, explicit, ends⟩ := g
  match ends with
  | [] => rfl
  | [a] => rfl
  | [a, b] =>
    change (Relation.ofPair name explicit (a.shift n) (b.shift n)).mapError _ =
      _ <$> (Relation.ofPair name explicit a b).mapError _
    rw [Relation.ofPair_shift]
    cases Relation.ofPair name explicit a b <;> rfl
  | a :: b :: c :: rest =>
    have hlength : ((a :: b :: c :: rest).map (Endpoint.shift n)).length =
        (a :: b :: c :: rest).length := List.length_map _
    exact congrArg (fun count => Except.error (RenderError.unclassifiable name (.fieldCount count)))
      hlength

end

/-! ## Models, ends and relations of the parts -/

namespace DataModel

variable {dm dm₁ dm₂ : DataModel}

theorem HasEnd.owner_mem {e : Endpoint} (h : dm.HasEnd e) : e.owner ∈ dm.models :=
  List.mem_of_getElem? h.relationField.owner

theorem HasEnd.target_mem {e : Endpoint} (h : dm.HasEnd e) : e.target ∈ dm.models :=
  (mem_of_model? h.target).1

/-- Relations of a data model whose anchors come first, and those of one whose anchors come so
many models later, are sorted by themselves. -/
theorem relations_eq_append {rs₁ rs₂ us₁ us₂ : List Relation}
    (hrs₁ : dm₁.relations = .ok rs₁) (hrs₂ : dm₂.relations = .ok rs₂)
    (hp₁ : us₁.Perm rs₁) (hp₂ : us₂.Perm rs₂)
    (hrs : dm.relations =
      .ok ((us₁ ++ us₂.map (Relation.map (Endpoint.shift dm₁.models.length))).mergeSort
        Relation.le)) :
    dm.relations = .ok (rs₁ ++ rs₂.map (Relation.map (Endpoint.shift dm₁.models.length))) := by
  let n := dm₁.models.length
  have hperm : ((us₁ ++ us₂.map (Relation.map (Endpoint.shift n))).mergeSort Relation.le).Perm
      (rs₁ ++ rs₂.map (Relation.map (Endpoint.shift n))) :=
    (List.mergeSort_perm _ _).trans (hp₁.append (hp₂.map _))
  have hshift : (rs₂.map (Relation.map (Endpoint.shift n))).Pairwise
      (·.anchor.position.Before ·.anchor.position) := by
    rw [List.pairwise_map]
    refine (relations_before hrs₂).imp fun {r s} hrs => ?_
    rw [Relation.anchor_map, Relation.anchor_map]
    exact hrs.imp (fun hlt => Nat.add_lt_add_left hlt n)
      fun ⟨heq, hlt⟩ => ⟨congrArg (n + ·) heq, hlt⟩
  have hcross : ∀ r ∈ rs₁, ∀ s ∈ rs₂.map (Relation.map (Endpoint.shift n)),
      r.anchor.position.Before s.anchor.position := by
    intro r hr s hs
    obtain ⟨s, -, rfl⟩ := List.mem_map.mp hs
    obtain ⟨hend, -⟩ := ends_of_mem_relations hrs₁ hr
    have hlt : r.anchor.position.model < n :=
      (List.getElem?_eq_some_iff.mp hend.relationField.owner).1
    rw [Relation.anchor_map]
    exact .inl (Nat.lt_add_right _ hlt)
  -- Both lists come strictly in order, and they hold the same relations.
  rw [hrs]
  refine congrArg _ (hperm.eq_of_pairwise (fun r s _ _ hlt hgt => ?_) (relations_before hrs)
    (List.pairwise_append.mpr ⟨relations_before hrs₁, hshift, hcross⟩))
  exact absurd hgt hlt.asymm

namespace Parts

variable (h : dm.Parts dm₁ dm₂)
include h

theorem model?_left {name : String} {m : Model} (hm : dm₁.model? name = some m) :
    dm.model? name = some m := by
  rw [model?] at hm
  rw [model?, h.models, List.find?_append, hm]
  rfl

theorem model?_right {name : String} {m : Model} (hm : dm₂.model? name = some m) :
    dm.model? name = some m := by
  obtain ⟨hmem, hname⟩ := mem_of_model? hm
  have hnone : dm₁.models.find? (·.name == name) = none :=
    List.find?_eq_none.mpr fun m₁ hm₁ heq =>
      h.apart m₁ hm₁ m hmem ((eq_of_beq heq).trans hname.symm)
  rw [model?] at hm
  rw [model?, h.models, List.find?_append, hnone, hm]
  rfl

theorem relationFields : dm.relationFields =
    dm₁.relationFields ++ dm₂.relationFields.map (RelationField.shift dm₁.models.length) := by
  rw [DataModel.relationFields, h.models, List.zipIdx_append, List.flatMap_append, Nat.zero_add,
    List.zipIdx_eq_map_add (l := dm₂.models), List.flatMap_map]
  refine congrArg (dm₁.relationFields ++ ·) ?_
  rw [DataModel.relationFields, List.map_flatMap]
  refine List.flatMap_congr fun x _ => ?_
  rw [List.map_map]
  rfl

variable {ends₁ ends₂ : List Endpoint}
  (h₁ : dm₁.endpoints = .ok ends₁) (h₂ : dm₂.endpoints = .ok ends₂)
include h₁ h₂

theorem endpoints :
    dm.endpoints = .ok (ends₁ ++ ends₂.map (Endpoint.shift dm₁.models.length)) := by
  have hleft : List.Forall₂ (fun x e => dm.endpoint x = .ok e) dm₁.relationFields ends₁ :=
    (mapM_eq_ok_iff.mp h₁).imp fun x e he => by
      obtain ⟨rfl, ht⟩ := endpoint_eq_ok_iff.mp he
      exact endpoint_eq_ok_iff.mpr ⟨rfl, h.model?_left ht⟩
  have hright : List.Forall₂ (fun x e => dm.endpoint x = .ok e)
      (dm₂.relationFields.map (RelationField.shift dm₁.models.length))
      (ends₂.map (Endpoint.shift dm₁.models.length)) := by
    rw [List.forall₂_map_left_iff, List.forall₂_map_right_iff]
    refine (mapM_eq_ok_iff.mp h₂).imp fun x e he => ?_
    obtain ⟨rfl, ht⟩ := endpoint_eq_ok_iff.mp he
    exact endpoint_eq_ok_iff.mpr ⟨rfl, h.model?_right ht⟩
  rw [DataModel.endpoints, h.relationFields]
  exact mapM_eq_ok_iff.mpr (List.rel_append hleft hright)

/-- The two models of an end are in one part, so its key is not met in the other. -/
theorem key_ne : ∀ e₁ ∈ ends₁, ∀ e₂ ∈ ends₂.map (Endpoint.shift dm₁.models.length),
    e₁.key ≠ e₂.key := by
  intro e₁ he₁ e₂ he₂ hkey
  obtain ⟨e, he, rfl⟩ := List.mem_map.mp he₂
  have hend₁ := (endpoints_eq_ok h₁).2 e₁ he₁
  have hend₂ := (endpoints_eq_ok h₂).2 e he
  have howner : e₁.owner.name ≠ e.owner.name :=
    h.apart _ hend₁.owner_mem _ hend₂.owner_mem
  have htarget : e₁.owner.name ≠ e.target.name :=
    h.apart _ hend₁.owner_mem _ hend₂.target_mem
  rcases Sym2.eq_iff.mp (Endpoint.key_eq_iff.mp hkey).2 with ⟨heq, -⟩ | ⟨heq, -⟩
  · exact howner heq
  · exact htarget heq

omit h₁ h₂

/-- Where one of the parts has a fault, it is that of the whole, and otherwise the whole has the
relations of both. -/
theorem relations : dm.relations = do
    let rs₁ ← dm₁.relations
    let rs₂ ← dm₂.relations
    return rs₁ ++ rs₂.map (Relation.map (Endpoint.shift dm₁.models.length)) := by
  obtain ⟨ends₁, h₁⟩ := exists_endpoints_iff.mpr h.closed₁
  obtain ⟨ends₂, h₂⟩ := exists_endpoints_iff.mpr h.closed₂
  have hkeys := h.key_ne h₁ h₂
  let n := dm₁.models.length
  have hleft : ((relationKeys ends₁).mapM fun k =>
        (k.group (ends₁ ++ ends₂.map (Endpoint.shift n))).relation) =
      (relationKeys ends₁).mapM fun k => (k.group ends₁).relation :=
    mapM_congr fun k hk => by rw [group_append_left hkeys hk]
  have hright : ((relationKeys ends₂).mapM fun k =>
        (k.group (ends₁ ++ ends₂.map (Endpoint.shift n))).relation) =
      List.map (Relation.map (Endpoint.shift n)) <$>
        (relationKeys ends₂).mapM fun k => (k.group ends₂).relation := by
    rw [← mapM_map_eq]
    refine mapM_congr fun k hk => ?_
    rw [group_append_right hkeys (by rwa [relationKeys_shift]), group_shift,
      RelationGroup.relation_shift]
  have hwhole := relations_eq_mapM (h.endpoints h₁ h₂)
  rw [relationKeys_append hkeys, relationKeys_shift, List.mapM_append, hleft, hright] at hwhole
  have hpart₁ := relations_eq_mapM h₁
  have hpart₂ := relations_eq_mapM h₂
  cases hus₁ : (relationKeys ends₁).mapM fun k => (k.group ends₁).relation with
  | error e =>
    rw [hus₁] at hwhole hpart₁
    rw [hwhole, hpart₁]
    rfl
  | ok us₁ =>
    cases hus₂ : (relationKeys ends₂).mapM fun k => (k.group ends₂).relation with
    | error e =>
      rw [hus₁, hus₂] at hwhole
      rw [hus₁] at hpart₁
      rw [hus₂] at hpart₂
      rw [hwhole, hpart₁, hpart₂]
      rfl
    | ok us₂ =>
      rw [hus₁, hus₂] at hwhole
      rw [hus₁] at hpart₁
      rw [hus₂] at hpart₂
      have hp₁ := (List.mergeSort_perm us₁ Relation.le).symm
      have hp₂ := (List.mergeSort_perm us₂ Relation.le).symm
      rw [relations_eq_append hpart₁ hpart₂ hp₁ hp₂ hwhole, hpart₁, hpart₂]
      rfl

end Parts

end DataModel

end Dbml

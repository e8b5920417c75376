import Dbml.Proofs.Relation.Acceptance

/-!
# Why a data model has no relations

A field that points at no model is found before anything else. Where every field points at one,
a field and its partners have a fault unless they are two fields in one of the shapes of a
relation (`PartnersFault`), and of several faults that of the earliest field is reported
(`relations_fault`).
-/

namespace Dbml

/-- What is wrong with a field that holds a foreign key and its partner. Of several faults,
it is the first in this order. -/
inductive KeyFault (holder back : RelationField) : RelationFault → Prop
  | lengths : holder.field.toFields.length ≠ holder.field.fromFields.length →
      KeyFault holder back (.keyLengths holder.owner.name holder.field.name
        holder.field.fromFields.length holder.field.toFields.length)
  | list : holder.field.toFields.length = holder.field.fromFields.length →
      holder.field.isList = true →
      KeyFault holder back (.listForeignKey holder.owner.name holder.field.name)
  | unique : holder.field.toFields.length = holder.field.fromFields.length →
      holder.field.isList = false → back.field.isList = true →
      holder.owner.isUniqueKey holder.field.fromFields = true →
      KeyFault holder back .uniqueKeyOfList
  | shared : holder.field.toFields.length = holder.field.fromFields.length →
      holder.field.isList = false → back.field.isList = false →
      holder.owner.isUniqueKey holder.field.fromFields = false →
      KeyFault holder back .sharedKeyOfOne

/-- What is wrong with two partners. -/
inductive PairFault (x y : RelationField) : RelationFault → Prop
  | two : x.field.fromFields ≠ [] → y.field.fromFields ≠ [] → PairFault x y .twoForeignKeys
  | none : x.field.fromFields = [] → y.field.fromFields = [] →
      ¬ (x.field.isList = true ∧ y.field.isList = true) → PairFault x y .noForeignKey
  | first {fault : RelationFault} : x.field.fromFields ≠ [] → y.field.fromFields = [] →
      KeyFault x y fault → PairFault x y fault
  | second {fault : RelationFault} : x.field.fromFields = [] → y.field.fromFields ≠ [] →
      KeyFault y x fault → PairFault x y fault

/-- What is wrong with a field and its partners. -/
inductive PartnersFault : List RelationField → RelationFault → Prop
  | count {xs : List RelationField} : xs.length ≠ 2 → PartnersFault xs (.fieldCount xs.length)
  | pair {x y : RelationField} {fault : RelationFault} : PairFault x y fault →
      PartnersFault [x, y] fault

instance (x y : RelationField) : Decidable (x.Partners y) :=
  inferInstanceAs (Decidable (_ ∧ _))

/-- A field and its partners, in order. -/
def DataModel.partners (dm : DataModel) (x : RelationField) : List RelationField :=
  dm.relationFields.filter (x.Partners ·)

/-- Whether fields are two, in one of the shapes of a relation. -/
def IsRelation (xs : List RelationField) : Prop := ∃ x y, xs = [x, y] ∧ x.Shaped y

/-! ## Faults of pairs -/

namespace Relation

variable {a b : Endpoint} {fault : RelationFault}

theorem ofForeignKey_eq_error_iff (ha : a.field.fromFields ≠ []) :
    ofForeignKey a b = .error fault ↔ KeyFault a.toRelationField b.toRelationField fault := by
  obtain ⟨side, hs, hf, ht, -⟩ := Field.exists_side ha
  rw [ofForeignKey, hs]
  simp only [← hf, ← ht]
  constructor
  · intro h
    split at h
    · cases h
      exact .lengths ‹_›
    rename_i hlengths
    rw [Classical.not_not] at hlengths
    split at h
    · cases h
      exact .list hlengths ‹_›
    rename_i hsingle
    rw [Bool.not_eq_true] at hsingle
    split at h
    · cases h
    · cases h
    · cases h
      exact .unique hlengths hsingle ‹_› ‹_›
    · cases h
      exact .shared hlengths hsingle ‹_› ‹_›
  · rintro (h | ⟨h, hl⟩ | ⟨h, hl, hb, hu⟩ | ⟨h, hl, hb, hu⟩)
    · rw [if_pos h]
    · rw [if_neg (not_not.mpr h), if_pos hl]
    · rw [if_neg (not_not.mpr h), hl, hb, hu]
      rfl
    · rw [if_neg (not_not.mpr h), hl, hb, hu]
      rfl

theorem ofPair_eq_error_iff {name : String} {explicit : Bool} :
    ofPair name explicit a b = .error fault ↔
      PairFault a.toRelationField b.toRelationField fault := by
  rw [ofPair, Endpoint.holdsForeignKey, Endpoint.holdsForeignKey, Field.holdsForeignKey_eq,
    Field.holdsForeignKey_eq]
  by_cases ha : a.field.fromFields = [] <;> by_cases hb : b.field.fromFields = []
  · rw [ha, hb]
    change (if a.field.isList && b.field.isList then _ else _) = _ ↔ _
    constructor
    · intro h
      split at h
      · cases h
      · rename_i hl
        cases h
        exact .none ha hb (mt Bool.and_eq_true_iff.mpr hl)
    · rintro (⟨h, -⟩ | ⟨-, -, h⟩ | ⟨h, -⟩ | ⟨-, h, -⟩)
      · exact absurd ha h
      · rw [if_neg (mt Bool.and_eq_true_iff.mp h)]
      · exact absurd ha h
      · exact absurd hb h
  · rw [ha, List.isEmpty_eq_false_iff.mpr hb]
    refine (ofForeignKey_eq_error_iff hb).trans ⟨.second ha hb, ?_⟩
    rintro (⟨h, -⟩ | ⟨-, h, -⟩ | ⟨h, -⟩ | ⟨-, -, h⟩)
    · exact absurd ha h
    · exact absurd h hb
    · exact absurd ha h
    · exact h
  · rw [hb, List.isEmpty_eq_false_iff.mpr ha]
    refine (ofForeignKey_eq_error_iff ha).trans ⟨.first ha hb, ?_⟩
    rintro (⟨-, h⟩ | ⟨h, -⟩ | ⟨-, -, h⟩ | ⟨h, -⟩)
    · exact absurd hb h
    · exact absurd h ha
    · exact h
    · exact absurd h ha
  · rw [List.isEmpty_eq_false_iff.mpr ha, List.isEmpty_eq_false_iff.mpr hb]
    constructor
    · rintro ⟨⟩
      exact .two ha hb
    · rintro (- | ⟨h, -⟩ | ⟨-, h, -⟩ | ⟨h, -⟩)
      · rfl
      · exact absurd h ha
      · exact absurd h hb
      · exact absurd h ha

/-- Two ends have a shape, or else a fault. -/
theorem exists_pairFault_iff {x y : RelationField} :
    (∃ fault, PairFault x y fault) ↔ ¬ x.Shaped y := by
  have hshaped : x.Shaped y ↔ ∃ r, ofPair "" false ⟨x, x.owner⟩ ⟨y, y.owner⟩ = .ok r := by
    simp only [ofPair_eq_ok_iff, exists_or, exists_and_left, exists_eq, and_true]
    rfl
  rw [hshaped, exists_eq_ok_iff]
  simp only [ne_eq, ofPair_eq_error_iff, not_forall, not_not]

end Relation

theorem PairFault.ne_undescribed {x y : RelationField} {fault : RelationFault}
    (h : PairFault x y fault) : fault ≠ .undescribed := by
  rintro rfl
  rcases h with - | - | ⟨-, -, ⟨⟩⟩ | ⟨-, -, ⟨⟩⟩

theorem PartnersFault.ne_undescribed {xs : List RelationField} {fault : RelationFault}
    (h : PartnersFault xs fault) : fault ≠ .undescribed := by
  cases h with
  | count => exact nofun
  | pair h => exact h.ne_undescribed

theorem PartnersFault.length_eq {xs : List RelationField} {n : Nat}
    (h : PartnersFault xs (.fieldCount n)) : xs.length = n := by
  cases h with
  | count => rfl
  | pair h => rcases h with - | - | ⟨-, -, ⟨⟩⟩ | ⟨-, -, ⟨⟩⟩

/-- No other fault is told in the words of one that is never found. -/
theorem RelationFault.message_ne_undescribed {fault : RelationFault} (h : fault ≠ .undescribed) :
    fault.message ≠ undescribed.message := by
  -- Words with arguments have a character that these words lack.
  have hne {c : Char} (hc : c ∈ fault.message.toList) (hn : c ∉ undescribed.message.toList) :
      fault.message ≠ undescribed.message := fun heq => hn (heq ▸ hc)
  cases fault with
  | undescribed => exact absurd rfl h
  | twoForeignKeys | noForeignKey | uniqueKeyOfList | sharedKeyOfOne => decide
  | unknownModel | listForeignKey | keyLengths =>
    apply @hne 'f'
    · unfold message
      simp
    · decide
  | fieldCount =>
    apply @hne '2'
    · unfold message
      simp
    · decide

/-! ## Faults of groups -/

theorem partnersFault_pair_iff {x y : RelationField} {fault : RelationFault} :
    PartnersFault [x, y] fault ↔ PairFault x y fault := by
  constructor
  · rintro (h | h)
    · exact absurd rfl h
    · exact h
  · exact .pair

theorem partnersFault_of_length {xs : List RelationField} (h : xs.length ≠ 2)
    {fault : RelationFault} : PartnersFault xs fault ↔ fault = .fieldCount xs.length := by
  constructor
  · rintro (- | -)
    · rfl
    · exact absurd rfl h
  · rintro rfl
    exact .count h

theorem exists_partnersFault_iff {xs : List RelationField} :
    (∃ fault, PartnersFault xs fault) ↔ ¬ IsRelation xs := by
  by_cases h : xs.length = 2
  · obtain ⟨x, y, rfl⟩ := List.length_eq_two.mp h
    have hpair : IsRelation [x, y] ↔ x.Shaped y := by
      constructor
      · rintro ⟨_, _, ⟨⟩, hs⟩
        exact hs
      · exact fun hs => ⟨x, y, rfl, hs⟩
    simp only [partnersFault_pair_iff, Relation.exists_pairFault_iff, hpair]
  · refine iff_of_true ⟨_, .count h⟩ ?_
    rintro ⟨_, _, rfl, -⟩
    exact h rfl

theorem RelationGroup.relation_eq_error_iff {g : RelationGroup} {e : RenderError} :
    g.relation = .error e ↔ ∃ fault, PartnersFault (g.ends.map (·.toRelationField)) fault ∧
      e = .unclassifiable g.name fault := by
  unfold relation
  split
  · rename_i a b hg
    rw [mapError_eq_error_iff, hg]
    refine exists_congr fun fault => and_congr ?_ eq_comm
    exact Relation.ofPair_eq_error_iff.trans partnersFault_pair_iff.symm
  · rename_i hg
    have hl : (g.ends.map (·.toRelationField)).length ≠ 2 := by
      rw [List.length_map]
      intro h
      obtain ⟨a, b, hab⟩ := List.length_eq_two.mp h
      exact hg a b hab
    simp [partnersFault_of_length hl, eq_comm]

/-- The first key with a property is that of the first end with such a key. -/
theorem isFirst_relationKeys_iff {p : RelationKey → Prop} {ends : List Endpoint}
    {k : RelationKey} :
    IsFirst p (relationKeys ends) k ↔ ∃ e, IsFirst (fun e => p e.key) ends e ∧ e.key = k := by
  rw [← IsFirst.map_iff]
  induction ends using List.reverseRecOn with
  | nil => rfl
  | append_singleton ends e ih =>
    rw [relationKeys_concat, List.map_append, List.map_singleton, IsFirst.append_iff, ← ih]
    split
    · -- The last key was met before, so it is not the first with the property.
      rename_i hmem
      refine (or_iff_left ?_).symm
      rintro ⟨hnone, hlast⟩
      obtain ⟨e', hmem', hk⟩ := mem_relationKeys.mp hmem
      obtain ⟨heq, hp⟩ := hlast.mem
      rw [List.mem_singleton.mp heq] at hp
      exact hnone e.key (List.mem_map.mpr ⟨e', hmem', hk⟩) hp
    · rw [IsFirst.append_iff]
      have hkeys : (∀ k ∈ relationKeys ends, ¬ p k) ↔ ∀ k ∈ ends.map Endpoint.key, ¬ p k := by
        simp only [mem_relationKeys, List.mem_map]
      rw [hkeys]

namespace RelationField.Partners

variable {x y : RelationField}

theorem congr_left (h : x.Partners y) (z : RelationField) : x.Partners z ↔ y.Partners z := by
  rw [Partners, Partners, h.1, h.2]

theorem partners_eq (h : x.Partners y) (dm : DataModel) : dm.partners x = dm.partners y :=
  List.filter_congr fun z _ => by rw [decide_eq_decide, h.congr_left z]

/-- The first field of which something holds that holds of all partners alike is the first
of its partners. -/
theorem filter_eq_cons {p : RelationField → Prop} (hp : ∀ x y, x.Partners y → p y → p x)
    {xs : List RelationField} (h : IsFirst p xs x) :
    ∃ rest, xs.filter (x.Partners ·) = x :: rest := by
  induction h with
  | head => exact ⟨_, List.filter_cons_of_pos (decide_eq_true ⟨rfl, rfl⟩)⟩
  | @tail y x xs hy h ih =>
    have hnot : ¬ x.Partners y := fun hxy => hy (hp y x ⟨hxy.1.symm, hxy.2.symm⟩ h.mem.2)
    rw [List.filter_cons_of_neg (by simpa using hnot)]
    exact ih

end RelationField.Partners

/-- Whether no model has the name of the type of a field. -/
def RelationField.PointsNowhere (x : RelationField) (dm : DataModel) : Prop :=
  ∀ m ∈ dm.models, m.name ≠ x.field.type

namespace DataModel

variable {dm : DataModel} {ends : List Endpoint} {x : RelationField}

theorem endpoints_fail (dm : DataModel) :
    FailsAtFirst dm.endpoints (·.PointsNowhere dm) dm.relationFields fun x =>
      .unclassifiable x.relationName (.unknownModel x.owner.name x.field.name x.field.type) := by
  have hend (x : RelationField) : FailsAtFirst (dm.endpoint x) (·.PointsNowhere dm) [x] fun x =>
      .unclassifiable x.relationName
        (.unknownModel x.owner.name x.field.name x.field.type) := by
    refine .singleton fun e => ?_
    have hnone : x.PointsNowhere dm ↔ dm.model? x.field.type = none := by
      simp [RelationField.PointsNowhere, model?]
    rw [hnone, endpoint]
    rcases dm.model? x.field.type with _ | target <;> simp [eq_comm]
  have hall := FailsAtFirst.mapM hend dm.relationFields
  rwa [List.flatMap_singleton'] at hall

/-- A group of ends is a field and its partners. -/
theorem map_group_ends (he : dm.endpoints = .ok ends) {e : Endpoint} (hm : e ∈ ends) :
    (e.key.group ends).ends.map (·.toRelationField) = dm.partners e.toRelationField := by
  obtain ⟨hfields, hends⟩ := endpoints_eq_ok he
  rw [partners, ← hfields, List.filter_map, RelationKey.group]
  refine congrArg (List.map _) (List.filter_congr fun e' hm' => ?_)
  simp only [Function.comp_apply, decide_eq_decide, eq_comm (a := e'.key)]
  exact (hends e hm).key_eq_iff (hends e' hm')

theorem group_relation_eq_error_iff (he : dm.endpoints = .ok ends) {e : Endpoint} (hm : e ∈ ends)
    {err : RenderError} :
    (e.key.group ends).relation = .error err ↔
      ∃ fault, PartnersFault (dm.partners e.toRelationField) fault ∧
        err = .unclassifiable e.relationName fault := by
  rw [RelationGroup.relation_eq_error_iff, map_group_ends he hm]
  have hname : (e.key.group ends).name = e.relationName := e.key_name
  rw [hname]

theorem relations_eq_error_iff_of_endpoints (he : dm.endpoints = .ok ends) {err : RenderError} :
    dm.relations = .error err ↔
      ∃ x, IsFirst (fun x => ¬ IsRelation (dm.partners x)) dm.relationFields x ∧
        ∃ fault, PartnersFault (dm.partners x) fault ∧
          err = .unclassifiable x.relationName fault := by
  have hfirst (e : Endpoint) :
      IsFirst (fun e : Endpoint => ∃ err, (e.key.group ends).relation = .error err) ends e ↔
        IsFirst (fun e => ¬ IsRelation (dm.partners e.toRelationField)) ends e := by
    refine IsFirst.congr fun e hm => ?_
    simp only [group_relation_eq_error_iff he hm, ← exists_partnersFault_iff]
    constructor
    · rintro ⟨_, fault, h, rfl⟩
      exact ⟨fault, h⟩
    · rintro ⟨fault, h⟩
      exact ⟨_, fault, h, rfl⟩
  rw [relations_eq_mapM he, map_eq_error_iff, mapM_eq_error_iff, ← (endpoints_eq_ok he).1]
  simp only [isFirst_relationKeys_iff, IsFirst.map_iff, hfirst]
  constructor
  · rintro ⟨_, ⟨e, h, rfl⟩, herr⟩
    exact ⟨_, ⟨e, h, rfl⟩, (group_relation_eq_error_iff he h.mem.1).mp herr⟩
  · rintro ⟨_, ⟨e, h, rfl⟩, herr⟩
    exact ⟨_, ⟨e, h, rfl⟩, (group_relation_eq_error_iff he h.mem.1).mpr herr⟩

/-- Why there are no relations. Either some field of kind `object` points at no model, and the
first such field is reported under the name of its relation; or all of them point at one, and
the fault is that of a field and its partners that are not a relation: of all such fields `x` is
the first one, so it is also the first of its partners, and they are reported under their common
name. If these are not two, their number is the fault. No fault is told as that of a foreign key
without a description. -/
theorem relations_fault (dm : DataModel) :
    (∀ e, dm.relations = .error e ↔
      (∃ x, IsFirst (·.PointsNowhere dm) dm.relationFields x ∧
        e = .unclassifiable x.relationName
          (.unknownModel x.owner.name x.field.name x.field.type)) ∨
      (∀ x ∈ dm.relationFields, ¬ x.PointsNowhere dm) ∧
        ∃ x rest fault, IsFirst (fun x => ¬ IsRelation (dm.partners x)) dm.relationFields x ∧
          dm.partners x = x :: rest ∧ PartnersFault (x :: rest) fault ∧
          e = .unclassifiable x.relationName fault) ∧
    ∀ name fault, dm.relations = .error (.unclassifiable name fault) →
      fault.message ≠ RelationFault.undescribed.message := by
  constructor
  · intro e
    cases he : dm.endpoints with
    | error err =>
      have hrel : dm.relations = .error err := by
        rw [relations, he]
        rfl
      have hfault (e : RenderError) : err = e ↔ dm.endpoints = .error e := by
        rw [he, Except.error.injEq]
      rw [hrel, Except.error.injEq, hfault, endpoints_fail dm e]
      refine (or_iff_left ?_).symm
      obtain ⟨x, hx, -⟩ := (endpoints_fail dm err).mp he
      exact fun h => h.1 x hx.mem.1 hx.mem.2
    | ok ends =>
      have hall := (endpoints_fail dm).exists_ok_iff.mp ⟨ends, he⟩
      rw [relations_eq_error_iff_of_endpoints he, or_iff_right, and_iff_right hall]
      · constructor
        · rintro ⟨x, hx, fault, hf, rfl⟩
          obtain ⟨rest, hrest⟩ : ∃ rest, dm.partners x = x :: rest :=
            RelationField.Partners.filter_eq_cons
              (fun y z hyz h => hyz.partners_eq dm ▸ h) hx
          exact ⟨x, rest, fault, hx, hrest, hrest ▸ hf, rfl⟩
        · rintro ⟨x, rest, fault, hx, hrest, hf, rfl⟩
          exact ⟨x, hx, fault, hrest ▸ hf, rfl⟩
      · rintro ⟨x, hx, -⟩
        exact hall x hx.mem.1 hx.mem.2
  · intro name fault h
    apply RelationFault.message_ne_undescribed
    cases he : dm.endpoints with
    | error err =>
      rw [relations, he] at h
      obtain ⟨x, -, rfl⟩ := (endpoints_fail dm err).mp he
      cases h
      rintro ⟨⟩
    | ok ends =>
      obtain ⟨x, -, fault', hf, heq⟩ := (relations_eq_error_iff_of_endpoints he).mp h
      cases heq
      exact hf.ne_undescribed

end DataModel

namespace Blog

/-- `dataModel` with no list of posts in `tag`, so that `tags` has no partner. -/
def dangling : DataModel := { models := [user, post, { tag with fields := [id] }] }

theorem fault_relations :
    dangling.relations = .error (.unclassifiable "PostToTag" (.fieldCount 1)) ∧
    ∃ x, IsFirst (fun x => ¬ IsRelation (dangling.partners x)) dangling.relationFields x ∧
      x.relationName = "PostToTag" ∧ (dangling.partners x).length = 1 := by
  have hrel : dangling.relations = .error (.unclassifiable "PostToTag" (.fieldCount 1)) := by
    with_unfolding_all rfl
  refine ⟨hrel, ?_⟩
  rcases ((DataModel.relations_fault dangling).1 _).mp hrel with
    ⟨x, -, heq⟩ | ⟨-, x, rest, fault, hx, hrest, hfault, heq⟩
  · cases (RenderError.unclassifiable.inj heq).2
  · obtain ⟨hname, rfl⟩ := RenderError.unclassifiable.inj heq
    refine ⟨x, hx, hname.symm, ?_⟩
    rw [hrest]
    exact hfault.length_eq

end Blog

end Dbml

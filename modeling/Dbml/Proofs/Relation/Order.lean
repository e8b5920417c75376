import Dbml.Proofs.Relation.Acceptance

/-!
# The order of relations

Relations come in the order of their anchors, the ends that hold the foreign keys or, where
there is none, the first ends. No two anchors are at one place, so each relation comes
strictly before the next (`relations_before`). The anchors of relations with a foreign key are
the fields that hold one, in the order of their declaration (`map_anchor_direct`), and of two lists
the one that is declared first is the first end (`first_before_second`).
-/

namespace Dbml

namespace Position

variable {p q : Position}

theorem le_iff : p.le q = true ↔ p.Before q ∨ p = q := by
  cases p
  cases q
  simp only [le, Before, Bool.or_eq_true, Bool.and_eq_true, decide_eq_true_eq, beq_iff_eq, mk.injEq]
  omega

theorem Before.asymm (h : p.Before q) : ¬ q.Before p := by
  unfold Before at *
  omega

end Position

namespace DataModel

variable {dm : DataModel}

theorem relations_before {rs : List Relation} (h : dm.relations = .ok rs) :
    rs.Pairwise (·.anchor.position.Before ·.anchor.position) := by
  have hsorted : rs.Pairwise (·.le · = true) := by
    obtain ⟨_, unsorted, -, -, rfl⟩ := relations_eq_ok_iff.mp h
    exact List.pairwise_mergeSort Relation.le_trans Relation.le_total unsorted
  have hne : rs.Pairwise (·.anchor.position ≠ ·.anchor.position) := by
    refine (List.pairwise_flatMap.mp (relations_positions h)).2.imp fun {r s} hrs => ?_
    exact hrs _ List.mem_cons_self _ List.mem_cons_self
  exact (hsorted.and hne).imp fun ⟨hle, hn⟩ => (Position.le_iff.mp hle).resolve_right hn

theorem first_before_second {rs : List Relation} (h : dm.relations = .ok rs) {r : ManyToMany}
    (hr : .manyToMany r ∈ rs) : r.first.position.Before r.second.position := by
  obtain ⟨ends, he, hg⟩ := group_of_manyToMany h hr
  have hbefore := group_before he r.first.key
  rw [hg] at hbefore
  exact List.rel_of_pairwise_cons hbefore List.mem_cons_self

/-! ## The anchors of relations with a foreign key -/

/-- The fields that hold a foreign key, in order. -/
def foreignKeyFields (dm : DataModel) : List RelationField :=
  dm.relationFields.filter (·.field.holdsForeignKey)

/-- Fields that are in order are known by which fields they are. -/
theorem eq_of_before {xs ys : List RelationField}
    (hx : xs.Pairwise (·.position.Before ·.position))
    (hy : ys.Pairwise (·.position.Before ·.position)) (h : ∀ z, z ∈ xs ↔ z ∈ ys) : xs = ys := by
  have hnodup {zs : List RelationField} (hz : zs.Pairwise (·.position.Before ·.position)) :
      zs.Nodup := hz.imp fun hab he => hab.ne (congrArg (·.position) he)
  have hp : xs.Perm ys := (List.perm_ext_iff_of_nodup (hnodup hx) (hnodup hy)).mpr h
  exact hp.eq_of_pairwise (fun _ _ _ _ hab hba => absurd hba hab.asymm) hx hy

/-- The fields that hold a foreign key are the anchors of the relations with one. -/
theorem mem_foreignKeyFields {rs : List Relation} (h : dm.relations = .ok rs) {x : RelationField} :
    x ∈ dm.foreignKeyFields ↔ ∃ r ∈ rs, r.direct?.isSome ∧ r.anchor.toRelationField = x := by
  rw [foreignKeyFields, List.mem_filter, mem_relationFields, Field.holdsForeignKey_eq]
  obtain ⟨ends, he, hp⟩ := relations_ends_perm h
  constructor
  · rintro ⟨hx, hk⟩
    have hk : x.field.fromFields ≠ [] := by simpa using hk
    obtain ⟨e, hem, rfl⟩ := exists_end he hx
    obtain ⟨r, hr, hre⟩ := List.mem_flatMap.mp (hp.mem_iff.mpr hem)
    -- the end may be either side of its relation, but only an anchor holds a key
    rcases shape_of_mem h hr with ⟨hpair, hkeyed⟩ | ⟨hl, -⟩
    · refine ⟨r, hr, ?_, ?_⟩
      · rw [hkeyed, Relation.keyed]
        split <;> rfl
      · rcases List.mem_pair.mp hre with rfl | rfl
        · rfl
        · exact absurd hpair.keyless hk
    · rcases List.mem_pair.mp hre with rfl | rfl
      · exact absurd hl.keyless.1 hk
      · exact absurd hl.keyless.2 hk
  · rintro ⟨r, hr, hd, rfl⟩
    have hm : r.anchor ∈ ends := hp.mem_iff.mp (List.mem_flatMap.mpr ⟨r, hr, r.endIn_mem .anchor⟩)
    refine ⟨((endpoints_eq_ok he).2 _ hm).relationField, ?_⟩
    rcases shape_of_mem h hr with ⟨hpair, -⟩ | ⟨-, m, rfl⟩
    · simpa using hpair.holds
    · cases hd

/-- The anchors of the relations with a foreign key are the fields that hold one, in order. -/
theorem map_anchor_direct {rs : List Relation} (h : dm.relations = .ok rs) :
    (rs.filter (·.direct?.isSome)).map (·.anchor.toRelationField) = dm.foreignKeyFields := by
  refine eq_of_before ?anchors ?fields fun x => ?mem
  case anchors => exact List.pairwise_map.mpr ((relations_before h).filter _)
  case fields => exact (relationFields_before dm).filter _
  case mem =>
    rw [mem_foreignKeyFields h, List.mem_map]
    exact exists_congr fun r => by rw [List.mem_filter, and_assoc]

end DataModel

end Dbml

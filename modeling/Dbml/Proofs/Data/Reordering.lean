import Dbml.Data.Record
import Dbml.Proofs.Traversal
import Mathlib.Data.List.Pairwise

/-!
# Members in any order

A record is read from its members in whatever order they come, if its slots do not interfere with
each other (`Slot.Commutes`, `foldlM_readMember_perm`). More generally, what is read from members
is read from those that follow them (`MembersFollow`): they may be in another order, with values
that are read alike, and with further members that no slot has a name for.
-/

namespace Dbml.Data

variable {σ ε α β δ : Type}

/-- Whether what is read at a place is read at all places that are related to it. -/
def Respects (related : σ → σ → Prop) (read : σ → Except ε α) : Prop :=
  ∀ ⦃c c' a⦄, related c c' → read c = .ok a → read c' = .ok a

/-! ## Slots -/

/-- Whether a slot reads the same at related places. -/
def Slot.Respects (related : σ → σ → Prop) (slot : Slot σ (Except ε) δ) : Prop :=
  ∀ draft, Data.Respects related (slot.fill draft)

/-- Whether a slot is filled by what is read into it. -/
def Slot.FillsItself (slot : Slot σ (Except ε) δ) : Prop :=
  ∀ draft c draft', slot.fill draft c = .ok draft' → slot.filled draft' = true

/-- Whether it does not matter which of two slots is filled first. -/
structure Slot.Commutes (slot slot' : Slot σ (Except ε) δ) : Prop where
  filled : ∀ {draft c draft'}, slot.fill draft c = .ok draft' →
    slot'.filled draft' = slot'.filled draft
  filled' : ∀ {draft c draft'}, slot'.fill draft c = .ok draft' →
    slot.filled draft' = slot.filled draft
  fill : ∀ {draft c c' draft₁ draft₂}, slot.fill draft c = .ok draft₁ →
    slot'.fill draft₁ c' = .ok draft₂ →
      ∃ draft₁', slot'.fill draft c' = .ok draft₁' ∧ slot.fill draft₁' c = .ok draft₂
  fill' : ∀ {draft c c' draft₁ draft₂}, slot'.fill draft c = .ok draft₁ →
    slot.fill draft₁ c' = .ok draft₂ →
      ∃ draft₁', slot.fill draft c' = .ok draft₁' ∧ slot'.fill draft₁' c = .ok draft₂

instance : Std.Symm (Slot.Commutes (σ := σ) (ε := ε) (δ := δ)) :=
  ⟨fun _ _ h => ⟨h.filled', h.filled, h.fill', h.fill⟩⟩

/-- Whether the slots of a record are filled by what is read into them, and do not interfere. -/
structure Independent (slots : List (Slot σ (Except ε) δ)) : Prop where
  filled : ∀ slot ∈ slots, slot.FillsItself
  commutes : slots.Pairwise Slot.Commutes

@[simp]
theorem independent_nil : Independent ([] : List (Slot σ (Except ε) δ)) := ⟨nofun, .nil⟩

@[simp]
theorem independent_cons {slot : Slot σ (Except ε) δ} {slots : List (Slot σ (Except ε) δ)} :
    Independent (slot :: slots) ↔
      slot.FillsItself ∧ (∀ slot' ∈ slots, slot.Commutes slot') ∧ Independent slots := by
  constructor
  · rintro ⟨hfilled, hcommutes⟩
    obtain ⟨hslot, hfilled⟩ := List.forall_mem_cons.mp hfilled
    obtain ⟨hfirst, hcommutes⟩ := List.pairwise_cons.mp hcommutes
    exact ⟨hslot, hfirst, hfilled, hcommutes⟩
  · rintro ⟨hslot, hfirst, hfilled, hcommutes⟩
    exact ⟨List.forall_mem_cons.mpr ⟨hslot, hfilled⟩, List.pairwise_cons.mpr ⟨hfirst, hcommutes⟩⟩

section

variable {name name' : String} {req req' : Bool} {get : δ → Option α} {set : δ → α → δ}
  {get' : δ → Option β} {set' : δ → β → δ} {read : σ → Except ε α} {read' : σ → Except ε β}

theorem fill_ofLens_eq_ok_iff {draft draft' : δ} {c : σ} :
    (Slot.ofLens name req get set read).fill draft c = .ok draft' ↔
      ∃ a, read c = .ok a ∧ set draft a = draft' := by
  change (set draft <$> read c) = _ ↔ _
  cases read c with
  | ok a =>
    constructor
    · exact fun h => ⟨a, rfl, Except.ok.inj h⟩
    · rintro ⟨_, h, rfl⟩
      cases h
      rfl
  | error e => exact ⟨nofun, nofun⟩

@[simp]
theorem fillsItself_ofLens (h : ∀ draft a, get (set draft a) = some a) :
    (Slot.ofLens name req get set read).FillsItself := by
  intro draft c draft' hfill
  obtain ⟨a, -, rfl⟩ := fill_ofLens_eq_ok_iff.mp hfill
  exact Option.isSome_iff_exists.mpr ⟨a, h draft a⟩

/-- Slots commute that read and write different parts of a draft. -/
@[simp]
theorem commutes_ofLens (h : ∀ draft a, get' (set draft a) = get' draft)
    (h' : ∀ draft b, get (set' draft b) = get draft)
    (hset : ∀ draft a b, set' (set draft a) b = set (set' draft b) a) :
    (Slot.ofLens name req get set read).Commutes (.ofLens name' req' get' set' read') where
  filled hfill := by
    obtain ⟨a, -, rfl⟩ := fill_ofLens_eq_ok_iff.mp hfill
    exact congrArg Option.isSome (h _ a)
  filled' hfill := by
    obtain ⟨b, -, rfl⟩ := fill_ofLens_eq_ok_iff.mp hfill
    exact congrArg Option.isSome (h' _ b)
  fill hfill hfill' := by
    obtain ⟨a, ha, rfl⟩ := fill_ofLens_eq_ok_iff.mp hfill
    obtain ⟨b, hb, rfl⟩ := fill_ofLens_eq_ok_iff.mp hfill'
    exact ⟨_, fill_ofLens_eq_ok_iff.mpr ⟨b, hb, rfl⟩,
      fill_ofLens_eq_ok_iff.mpr ⟨a, ha, (hset _ a b).symm⟩⟩
  fill' hfill hfill' := by
    obtain ⟨b, hb, rfl⟩ := fill_ofLens_eq_ok_iff.mp hfill
    obtain ⟨a, ha, rfl⟩ := fill_ofLens_eq_ok_iff.mp hfill'
    exact ⟨_, fill_ofLens_eq_ok_iff.mpr ⟨a, ha, rfl⟩,
      fill_ofLens_eq_ok_iff.mpr ⟨b, hb, hset _ a b⟩⟩

theorem respects_ofLens {related : σ → σ → Prop} (h : Respects related read) :
    (Slot.ofLens name req get set read).Respects related := by
  intro draft c c' draft' hc hfill
  obtain ⟨a, ha, rfl⟩ := fill_ofLens_eq_ok_iff.mp hfill
  exact fill_ofLens_eq_ok_iff.mpr ⟨a, h hc ha, rfl⟩

end

variable {slots : List (Slot σ (Except ε) δ)} {draft draft' : δ}

theorem mem_of_slotOf {key : Datum} {slot : Slot σ (Except ε) δ}
    (h : slotOf slots key = .ok (some slot)) : slot ∈ slots := by
  unfold slotOf at h
  split at h
  · exact List.mem_of_find?_eq_some (Except.ok.inj h)
  · exact List.mem_of_getElem? (Except.ok.inj h)
  · cases h

/-! ## Members -/

variable [Source σ (Except ε)]

/-- A source whose faults are errors, with or without a place. -/
class FaultySource (σ : Type) (ε : outParam Type) [Source σ (Except ε)] : Prop where
  fail_ne {α : Type} (fault : Mismatch) (a : α) :
    (Source.fail (σ := σ) fault : Except ε α) ≠ .ok a
  place_eq {α : Type} (c : σ) (result : Except ε α) : Source.place c result = result

variable [FaultySource σ ε]

theorem unplaced_eq_ok_iff {result : Except Mismatch α} {a : α} :
    (unplaced (σ := σ) result : Except ε α) = .ok a ↔ result = .ok a := by
  cases result with
  | ok b =>
    change (Except.ok b : Except ε α) = .ok a ↔ _
    simp
  | error fault => exact ⟨fun h => absurd h (FaultySource.fail_ne fault a), nofun⟩

/-- What reading a member can do: pass over it, or fill an empty slot. -/
theorem readMember_eq_ok_iff {x : Except ε Datum × σ} :
    readMember slots draft x = .ok draft' ↔ ∃ key, x.1 = .ok key ∧
      (slotOf slots key = .ok none ∧ Source.pass x.2 = .ok () ∧ draft' = draft ∨
        ∃ slot, slotOf slots key = .ok (some slot) ∧ slot.filled draft = false ∧
          slot.fill draft x.2 = .ok draft') := by
  rw [readMember, bind_eq_ok_iff]
  refine exists_congr fun key => and_congr_right fun _ => ?_
  rw [bind_eq_ok_iff]
  constructor
  · rintro ⟨slot, hslot, hread⟩
    rw [unplaced_eq_ok_iff] at hslot
    cases slot with
    | none =>
      obtain ⟨u, hpass, hdraft⟩ := bind_eq_ok_iff.mp hread
      exact .inl ⟨hslot, hpass, (Except.ok.inj hdraft).symm⟩
    | some slot =>
      refine .inr ⟨slot, hslot, ?_⟩
      change (if slot.filled draft then _ else _) = _ at hread
      by_cases hfilled : slot.filled draft = true
      · rw [if_pos hfilled] at hread
        exact absurd hread (FaultySource.fail_ne _ _)
      · rw [if_neg hfilled] at hread
        exact ⟨Bool.eq_false_iff.mpr hfilled, hread⟩
  · rintro (⟨hslot, hpass, rfl⟩ | ⟨slot, hslot, hfilled, hfill⟩)
    · exact ⟨none, unplaced_eq_ok_iff.mpr hslot, bind_eq_ok_iff.mpr ⟨(), hpass, rfl⟩⟩
    · refine ⟨some slot, unplaced_eq_ok_iff.mpr hslot, ?_⟩
      exact (if_neg (Bool.eq_false_iff.mp hfilled)).trans hfill

/-- Two members that are read one after the other may change places. -/
theorem readMember_swap (hslots : Independent slots) {x y : Except ε Datum × σ} {draft₁ : δ}
    (hx : readMember slots draft x = .ok draft₁) (hy : readMember slots draft₁ y = .ok draft') :
    ∃ draft₁', readMember slots draft y = .ok draft₁' ∧
      readMember slots draft₁' x = .ok draft' := by
  obtain ⟨key, hkey, hx | ⟨slot, hslot, hempty, hfill⟩⟩ := readMember_eq_ok_iff.mp hx
  · obtain ⟨hslot, hpass, rfl⟩ := hx
    exact ⟨draft', hy, readMember_eq_ok_iff.mpr ⟨key, hkey, .inl ⟨hslot, hpass, rfl⟩⟩⟩
  obtain ⟨key', hkey', hy | ⟨slot', hslot', hempty', hfill'⟩⟩ := readMember_eq_ok_iff.mp hy
  · obtain ⟨hslot', hpass, rfl⟩ := hy
    exact ⟨draft, readMember_eq_ok_iff.mpr ⟨key', hkey', .inl ⟨hslot', hpass, rfl⟩⟩, hx⟩
  have hne : slot ≠ slot' := by
    rintro rfl
    have hfilled := hslots.filled slot (mem_of_slotOf hslot) _ _ _ hfill
    exact Bool.false_ne_true (hempty'.symm.trans hfilled)
  have hcommutes := hslots.commutes.forall (mem_of_slotOf hslot) (mem_of_slotOf hslot') hne
  obtain ⟨draft₁', hfirst, hsecond⟩ := hcommutes.fill hfill hfill'
  exact ⟨draft₁',
    readMember_eq_ok_iff.mpr ⟨key', hkey', .inr ⟨slot', hslot',
      (hcommutes.filled hfill).symm.trans hempty', hfirst⟩⟩,
    readMember_eq_ok_iff.mpr ⟨key, hkey, .inr ⟨slot, hslot,
      (hcommutes.filled' hfirst).trans hempty, hsecond⟩⟩⟩

/-- Members are read in any order. -/
theorem foldlM_readMember_perm (hslots : Independent slots) {xs ys : List (Except ε Datum × σ)}
    (h : xs.Perm ys) (hx : xs.foldlM (readMember slots) draft = .ok draft') :
    ys.foldlM (readMember slots) draft = .ok draft' := by
  induction h generalizing draft with
  | nil => exact hx
  | cons x _ ih =>
    rw [List.foldlM_cons, bind_eq_ok_iff] at hx ⊢
    obtain ⟨draft₁, hfirst, hrest⟩ := hx
    exact ⟨draft₁, hfirst, ih hrest⟩
  | swap x y xs =>
    simp only [List.foldlM_cons, bind_eq_ok_iff] at hx ⊢
    obtain ⟨draft₁, hy, draft₂, hx, hrest⟩ := hx
    obtain ⟨draft₁', hx', hy'⟩ := readMember_swap hslots hy hx
    exact ⟨draft₁', hx', draft₂, hy', hrest⟩
  | trans _ _ ih ih' => exact ih' (ih hx)

/-- Whether a member is read wherever another one is, with the same draft. -/
def MemberFollows (slots : List (Slot σ (Except ε) δ)) (x y : Except ε Datum × σ) : Prop :=
  ∀ draft draft', readMember slots draft x = .ok draft' → readMember slots draft y = .ok draft'

/-- A member with the same key follows if its value is read alike. -/
theorem memberFollows_of_key {key : Except ε Datum} {c c' : σ}
    (hpass : ∀ k, key = .ok k → slotOf slots k = .ok none → Source.pass c = .ok () →
      (Source.pass c' : Except ε Unit) = .ok ())
    (hfill : ∀ k slot draft draft', key = .ok k → slotOf slots k = .ok (some slot) →
      slot.fill draft c = .ok draft' → slot.fill draft c' = .ok draft') :
    MemberFollows slots (key, c) (key, c') := by
  intro draft draft' h
  obtain ⟨k, hk, ⟨hslot, hp, rfl⟩ | ⟨slot, hslot, hempty, hf⟩⟩ := readMember_eq_ok_iff.mp h
  · exact readMember_eq_ok_iff.mpr ⟨k, hk, .inl ⟨hslot, hpass k hk hslot hp, rfl⟩⟩
  · exact readMember_eq_ok_iff.mpr
      ⟨k, hk, .inr ⟨slot, hslot, hempty, hfill k slot draft draft' hk hslot hf⟩⟩

omit [FaultySource σ ε] in
theorem foldlM_of_follows {xs ys : List (Except ε Datum × σ)}
    (h : List.Forall₂ (MemberFollows slots) xs ys)
    (hx : xs.foldlM (readMember slots) draft = .ok draft') :
    ys.foldlM (readMember slots) draft = .ok draft' := by
  induction h generalizing draft with
  | nil => exact hx
  | cons hfollows _ ih =>
    rw [List.foldlM_cons, bind_eq_ok_iff] at hx ⊢
    obtain ⟨draft₁, hfirst, hrest⟩ := hx
    exact ⟨draft₁, hfollows _ _ hfirst, ih hrest⟩

/-- Whether places are filled into the slots of a list alike. -/
inductive PositionsFollow : List (Slot σ (Except ε) δ) → List σ → List σ → Prop
  | none {cs cs' : List σ} : PositionsFollow [] cs cs'
  | nil {slots : List (Slot σ (Except ε) δ)} : PositionsFollow slots [] []
  | cons {slot : Slot σ (Except ε) δ} {slots : List (Slot σ (Except ε) δ)} {c c' : σ}
    {cs cs' : List σ} :
    (∀ draft draft', slot.fill draft c = .ok draft' → slot.fill draft c' = .ok draft') →
      PositionsFollow slots cs cs' → PositionsFollow (slot :: slots) (c :: cs) (c' :: cs')

/-- Whether members are those of another record, with values that are read alike, in whatever
order, and further members that are passed over. -/
inductive MembersFollow (slots : List (Slot σ (Except ε) δ)) :
    Members σ (Except ε) → Members σ (Except ε) → Prop
  | named {xs kept added ys : List (Except ε Datum × σ)} {ending : Except ε Unit} :
    List.Forall₂ (MemberFollows slots) xs kept →
      (∀ x ∈ added, ∀ draft, readMember slots draft x = .ok draft) →
      (kept ++ added).Perm ys → MembersFollow slots (.named xs ending) (.named ys ending)
  | positional {items items' : Items σ (Except ε)} :
    PositionsFollow slots items.elements items'.elements → items'.beyond = items.beyond →
      items'.leftover = items.leftover → MembersFollow slots (.positional items) (.positional items')

omit [FaultySource σ ε] in
theorem readPositional_of_follows {e : Expected} {arity index : Nat} {beyond : Except ε Unit}
    {cs cs' : List σ} (h : PositionsFollow slots cs cs')
    (hread : readPositional e arity beyond slots index cs draft = .ok draft') :
    readPositional e arity beyond slots index cs' draft = .ok draft' := by
  induction h generalizing index draft with
  | none => exact hread
  | nil => exact hread
  | cons hfill _ ih =>
    rw [readPositional, bind_eq_ok_iff] at hread ⊢
    obtain ⟨draft₁, hfirst, hrest⟩ := hread
    exact ⟨draft₁, hfill _ _ hfirst, ih hrest⟩

/-- What is read from members is read from those that follow them. -/
theorem readMembers_of_follows (hslots : Independent slots) {e : Expected}
    {members members' : Members σ (Except ε)} (h : MembersFollow slots members members')
    (hread : readMembers e slots draft members = .ok draft') :
    readMembers e slots draft members' = .ok draft' := by
  cases h with
  | @named xs kept added ys ending hkept hadded hperm =>
    obtain ⟨draft₁, hfold, hending⟩ := bind_eq_ok_iff.mp hread
    have hskip (draft : δ) : added.foldlM (readMember slots) draft = .ok draft := by
      clear hperm
      induction added with
      | nil => rfl
      | cons x added ih =>
        obtain ⟨hx, hadded⟩ := List.forall_mem_cons.mp hadded
        rw [List.foldlM_cons, hx]
        exact ih hadded
    have hboth : (kept ++ added).foldlM (readMember slots) draft = .ok draft₁ := by
      rw [List.foldlM_append, foldlM_of_follows hkept hfold]
      exact hskip draft₁
    exact bind_eq_ok_iff.mpr ⟨draft₁, foldlM_readMember_perm hslots hperm hboth, hending⟩
  | positional hpositions hbeyond hleftover =>
    obtain ⟨draft₁, hfold, hending⟩ := bind_eq_ok_iff.mp hread
    rw [← hbeyond] at hfold
    rw [← hleftover] at hending
    exact bind_eq_ok_iff.mpr ⟨draft₁, readPositional_of_follows hpositions hfold, hending⟩

/-- A record is read where its members follow those that it is read from. -/
theorem readRecord_of_follows (hslots : Independent slots) {name : String}
    {finish : δ → Except Mismatch α} {c c' : σ} {a : α}
    (h : ∀ members, Source.members (.record name) c = .ok members →
      ∃ members', Source.members (.record name) c' = .ok members' ∧
        MembersFollow slots members members')
    (hread : readRecord name slots draft finish c = .ok a) :
    readRecord name slots draft finish c' = .ok a := by
  rw [readRecord, FaultySource.place_eq] at hread ⊢
  obtain ⟨members, hmembers, hread⟩ := bind_eq_ok_iff.mp hread
  obtain ⟨draft', hdraft, hfinish⟩ := bind_eq_ok_iff.mp hread
  obtain ⟨members', hmembers', hfollow⟩ := h members hmembers
  exact bind_eq_ok_iff.mpr ⟨members', hmembers', bind_eq_ok_iff.mpr
    ⟨draft', readMembers_of_follows hslots hfollow hdraft, hfinish⟩⟩

/-- A list is read where its items are read one by one. -/
theorem readList_of_follows {read : σ → Except ε α} {c c' : σ} {as : List α}
    (h : ∀ items, Source.items c = .ok items → ∃ items', Source.items c' = .ok items' ∧
      items'.beyond = items.beyond ∧
        List.Forall₂ (fun x y => ∀ a, read x = .ok a → read y = .ok a) items.elements
          items'.elements)
    (hread : readList read c = .ok as) : readList read c' = .ok as := by
  rw [readList, FaultySource.place_eq] at hread ⊢
  obtain ⟨items, hitems, hread⟩ := bind_eq_ok_iff.mp hread
  obtain ⟨values, hvalues, hbeyond⟩ := bind_eq_ok_iff.mp hread
  obtain ⟨items', hitems', hsame, hfollow⟩ := h items hitems
  refine bind_eq_ok_iff.mpr ⟨items', hitems', bind_eq_ok_iff.mpr ⟨values, ?_, ?_⟩⟩
  · clear hbeyond
    generalize items.elements = xs at hvalues hfollow
    generalize items'.elements = ys at hfollow
    rw [mapM_eq_ok_iff] at hvalues ⊢
    induction hfollow generalizing values with
    | nil => exact hvalues
    | cons hx _ ih =>
      cases hvalues with
      | cons hv hvs => exact .cons (hx _ hv) (ih _ hvs)
  · rw [hsame]
    exact hbeyond

end Dbml.Data

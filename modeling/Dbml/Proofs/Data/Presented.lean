import Dbml.Data.Record
import Dbml.Proofs.Json.Value
import Mathlib.Data.List.Forall2

/-!
# Values at places

A place of a document presents a value if it answers whatever it is asked as this value does
(`Presents`). A reader reads an element from a value (`Reads`) if it gets it from every place
that presents the value, whatever the format. A record is read as its members fill a draft,
one after the other (`Fills`, `reads_record`).
-/

namespace Dbml.Data

open Json (Value)

/-- A source whose monad is lawful, and which leaves results without a fault alone. -/
class LawfulSource (σ : Type) (m : outParam (Type → Type)) [Monad m] [Source σ m] : Prop
    extends LawfulMonad m where
  place_pure {α : Type} (c : σ) (a : α) : Source.place c (pure a : m α) = pure a

variable {σ : Type} {m : Type → Type} [Monad m] [Source σ m]

/-- Whether there is a value at a place that, untyped, is this datum. -/
def IsGiven (c : σ) (d : Datum) : Prop := Source.optional c = pure (some c) ∧ Source.datum c = pure d

mutual

/-- Whether a place answers as a value does. -/
def Presents (c : σ) : Value → Prop
  | .null => Source.optional c = pure none ∧ Source.datum c = pure Datum.null
  | .bool b => IsGiven c (.bool b) ∧ Source.bool c = pure b
  | .number n => IsGiven c (.number n)
  | .string s => IsGiven c (.text s) ∧ (∀ e, Source.text e c = pure s) ∧
      ∀ (α : Type) (recognise : String → Except Mismatch α) (a : α),
        recognise s = .ok a → Source.variant recognise c = pure a
  | .array items => IsGiven c (Datum.ofValue (.array items)) ∧
      ∃ places, Source.items c = pure places ∧ places.beyond = pure () ∧
        PresentsItems places.elements items
  | .object members => IsGiven c (Datum.ofValue (.object members)) ∧
      (∀ e, ∃ places, Source.members e c = pure (.named places (pure ())) ∧
        PresentsMembers places members) ∧
      ∀ tag e, ∃ places, Source.taggedMembers tag e c = pure (.named places (pure ())) ∧
        PresentsMembers places members

def PresentsItems : List σ → List Value → Prop
  | [], [] => True
  | c :: cs, item :: items => Presents c item ∧ PresentsItems cs items
  | _, _ => False

def PresentsMembers : List (m Datum × σ) → List (String × Value) → Prop
  | [], [] => True
  | (key, c) :: places, (name, value) :: members =>
    key = pure (Datum.text name) ∧ Presents c value ∧ PresentsMembers places members
  | _, _ => False

end

theorem presentsItems_iff {cs : List σ} {items : List Value} :
    PresentsItems cs items ↔ List.Forall₂ Presents cs items := by
  induction cs generalizing items with
  | nil => cases items <;> simp [PresentsItems]
  | cons c cs ih => cases items <;> simp [PresentsItems, ih]

theorem presentsMembers_iff {places : List (m Datum × σ)} {members : List (String × Value)} :
    PresentsMembers places members ↔
      List.Forall₂ (fun x y => x.1 = pure (.text y.1) ∧ Presents x.2 y.2) places members := by
  induction places generalizing members with
  | nil => cases members <;> simp [PresentsMembers]
  | cons x places ih => cases members <;> simp [PresentsMembers, ih, and_assoc]

/-- What is presented is there, or it is nothing. -/
theorem Presents.datum {c : σ} {v : Value} (h : Presents c v) :
    Source.datum c = pure (Datum.ofValue v) := by
  cases v with
  | null => exact h.2
  | bool | string | array | object => exact h.1.2
  | number => exact h.2

theorem Presents.optional {c : σ} {v : Value} (h : Presents c v) (hv : v ≠ .null) :
    Source.optional c = pure (some c) := by
  cases v with
  | null => exact absurd rfl hv
  | bool | string | array | object => exact h.1.1
  | number => exact h.1

/-! ## Readers -/

variable {α : Type}

/-- Whether a reader reads `a` wherever the value is presented. -/
def Reads (read : σ → m α) (v : Value) (a : α) : Prop := ∀ c, Presents c v → read c = pure a

theorem reads_text (s : String) : Reads (σ := σ) readText (.string s) s := fun _ h => h.2.1 _

theorem reads_bool (b : Bool) : Reads (σ := σ) readBool (.bool b) b := fun _ h => h.2

theorem reads_variant {recognise : String → Except Mismatch α} {s : String} {a : α}
    (h : recognise s = .ok a) : Reads (σ := σ) (Source.variant recognise) (.string s) a :=
  fun _ hc => hc.2.2 α recognise a h

variable [LawfulSource σ m] {read : σ → m α}

theorem Reads.optional {v : Value} {a : α} (h : Reads read v a) (hv : v ≠ .null) :
    Reads (readOptional read) v (some a) := by
  intro c hc
  rw [readOptional, hc.optional hv, pure_bind]
  change some <$> read c = _
  rw [h c hc, map_pure]

theorem mapM_of_reads {items : List Value} {as : List α} {cs : List σ}
    (h : List.Forall₂ (Reads read) items as) (hcs : List.Forall₂ Presents cs items) :
    cs.mapM read = pure as := by
  induction h generalizing cs with
  | nil =>
    rw [List.forall₂_nil_right_iff.mp hcs]
    rfl
  | cons hread _ ih =>
    obtain ⟨c, cs, hc, hrest, rfl⟩ := List.forall₂_cons_right_iff.mp hcs
    rw [List.mapM_cons, hread c hc, pure_bind, ih hrest, pure_bind]

/-- A list is read item by item. -/
theorem reads_list {items : List Value} {as : List α} (h : List.Forall₂ (Reads read) items as) :
    Reads (readList read) (.array items) as := by
  intro c hc
  obtain ⟨-, places, hplaces, hbeyond, helements⟩ := hc
  rw [readList, hplaces, pure_bind, mapM_of_reads h (presentsItems_iff.mp helements), pure_bind,
    hbeyond, pure_bind, LawfulSource.place_pure]

theorem reads_list_map {toValue : α → Value} {as : List α}
    (h : ∀ a ∈ as, Reads read (toValue a) a) :
    Reads (readList read) (.array (as.map toValue)) as := by
  refine reads_list (List.forall₂_map_left_iff.mpr ?_)
  exact List.forall₂_same.mpr h

/-! ## Records -/

variable {δ : Type} {slots : List (Slot σ m δ)}

/-- Whether members turn one draft into another wherever they are presented. -/
def Fills (slots : List (Slot σ m δ)) (draft : δ) (members : List (String × Value)) (draft' : δ) :
    Prop :=
  ∀ places, PresentsMembers places members → places.foldlM (readMember slots) draft = pure draft'

variable {draft draft' draft'' : δ} {members members' : List (String × Value)}

omit [LawfulSource σ m] in
theorem Fills.nil : Fills slots draft [] draft := by
  intro places h
  cases places with
  | nil => rfl
  | cons => exact h.elim

theorem Fills.append (h : Fills slots draft members draft')
    (h' : Fills slots draft' members' draft'') : Fills slots draft (members ++ members') draft'' := by
  intro places hp
  rw [presentsMembers_iff] at hp
  have htake := List.forall₂_take_append places members members' hp
  have hdrop := List.forall₂_drop_append places members members' hp
  rw [← List.take_append_drop members.length places, List.foldlM_append,
    h _ (presentsMembers_iff.mpr htake), pure_bind, h' _ (presentsMembers_iff.mpr hdrop)]

theorem Fills.cons {member : String × Value} (h : Fills slots draft [member] draft')
    (h' : Fills slots draft' members draft'') : Fills slots draft (member :: members) draft'' :=
  h.append h'

/-- A member is read into the empty slot of its name. -/
theorem Fills.member {name : String} {required : Bool} {get : δ → Option α} {set : δ → α → δ}
    {v : Value} {a : α} (hslot : slots.find? (·.name == name) =
      some (.ofLens name required get set read)) (hempty : get draft = none) (h : Reads read v a)
    (hset : set draft a = draft') : Fills slots draft [(name, v)] draft' := by
  subst hset
  intro places hp
  obtain ⟨⟨key, c⟩, rest, ⟨rfl, hc⟩, hrest, rfl⟩ :=
    List.forall₂_cons_right_iff.mp (presentsMembers_iff.mp hp)
  obtain rfl := List.forall₂_nil_right_iff.mp hrest
  have hkey : unplaced (σ := σ) (slotOf slots (.text name)) =
      pure (some (.ofLens name required get set read)) := by
    rw [slotOf, hslot]
    rfl
  have hfilled : (Slot.ofLens name required get set read).filled draft = false :=
    Option.isSome_eq_false_iff.mpr (Option.isNone_iff_eq_none.mpr hempty)
  rw [List.foldlM_cons, readMember, pure_bind, hkey, pure_bind]
  change ((if (Slot.ofLens name required get set read).filled draft then _ else
    set draft <$> read c) >>= _) = _
  rw [if_neg (Bool.eq_false_iff.mp hfilled), h c hc, map_pure, pure_bind]
  rfl

/-- A list, if it has items. -/
def nonempty (as : List α) : Option (List α) := if as.isEmpty then none else some as

theorem getD_nonempty (as : List α) : (nonempty as).getD [] = as := by cases as <;> rfl

/-- A list that is written only if it has items is read into the slot of its name. -/
theorem Fills.list (put : Option (List α) → δ) {name : String} {required : Bool}
    {get : δ → Option (List α)} {set : δ → List α → δ} {items : List Value} {as : List α}
    (hslot : slots.find? (·.name == name) =
      some (.ofLens name required get set (readList read))) (hempty : get (put none) = none)
    (hset : set (put none) as = put (some as)) (h : List.Forall₂ (Reads read) items as) :
    Fills slots (put none) (if as.isEmpty then [] else [(name, .array items)])
      (put (nonempty as)) := by
  rw [nonempty]
  split
  · exact Fills.nil
  · exact Fills.member hslot hempty (reads_list h) hset

/-- The members of an object are read as they fill a draft. -/
theorem Fills.readMembers (h : Fills slots draft members draft') {c : σ}
    (hc : Presents c (.object members)) (e : Expected) :
    (Source.members e c >>= Data.readMembers e slots draft) = pure draft' := by
  obtain ⟨-, hmembers, -⟩ := hc
  obtain ⟨places, hplaces, hp⟩ := hmembers e
  rw [hplaces, pure_bind, Data.readMembers, h places hp, pure_bind, pure_bind]

/-- A record is read if its members fill the draft that it is made of. -/
theorem reads_record {name : String} {finish : δ → Except Mismatch α} {a : α}
    (h : Fills slots draft members draft') (hfinish : finish draft' = .ok a) :
    Reads (readRecord name slots draft finish) (.object members) a := by
  intro c hc
  have hread := h.readMembers hc (.record name)
  rw [readRecord, ← bind_assoc, hread, pure_bind, hfinish]
  exact LawfulSource.place_pure c a

end Dbml.Data

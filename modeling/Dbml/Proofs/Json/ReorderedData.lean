import Dbml.Data.Untyped
import Dbml.Json.Source
import Dbml.Proofs.Data.Reordering
import Dbml.Proofs.Json.Reordering
import Mathlib.Data.List.Nodup

/-!
# Untyped data from members in any order

A tree that is reordered is still read untyped (`exists_datum_of_reordered`). The data of the two
differ in the order of entries only (`SameData`), so that whatever is read from the one as typed
data is read from the other; a JSON value, if the names of each object are distinct
(`readsValue_of_reordered`).
-/

namespace Dbml.Json

open Data (Datum Expected FaultySource Mismatch Respects)

theorem StringToken.value_eq_ok_iff {token : StringToken} {s : String} :
    token.value = .ok s ↔ token = .text s := by
  cases token <;> simp [value]

instance : FaultySource Datum Mismatch where
  fail_ne _ _ := nofun
  place_eq _ _ := rfl

namespace Tree

variable {items items' : List Tree} {members members' : List (StringToken × Tree)} {t t' : Tree}

/-! ## Untyped data -/

/-- Whether an entry is read from a member. -/
def IsEntry (depth : Nat) (m : StringToken × Tree) (x : Datum × Datum) : Prop :=
  ∃ name, m.1 = .text name ∧ x.1 = .text name ∧ m.2.datum depth = .ok x.2

theorem dataOf_eq_mapM (depth : Nat) (items : List Tree) :
    dataOf depth items = items.mapM (datum depth) := by
  induction items with
  | nil => rfl
  | cons t items ih => rw [dataOf, List.mapM_cons, ih]

theorem entriesOf_eq_ok_iff {depth : Nat} {entries : List (Datum × Datum)} :
    entriesOf depth members = .ok entries ↔ List.Forall₂ (IsEntry depth) members entries := by
  induction members generalizing entries with
  | nil =>
    rw [List.forall₂_nil_left_iff]
    exact ⟨fun h => (Except.ok.inj h).symm, fun h => h ▸ rfl⟩
  | cons m members ih =>
    simp only [entriesOf, List.forall₂_cons_left_iff, bind_eq_ok_iff, ih,
      StringToken.value_eq_ok_iff]
    constructor
    · rintro ⟨name, hname, first, hfirst, rest, hrest, h⟩
      exact ⟨(.text name, first), rest, ⟨name, hname, rfl, hfirst⟩, hrest,
        (Except.ok.inj h).symm⟩
    · rintro ⟨⟨_, first⟩, rest, ⟨name, hname, rfl, hfirst⟩, hrest, rfl⟩
      exact ⟨name, hname, first, hfirst, rest, hrest, rfl⟩

theorem datum_array_eq_ok_iff {e : ArrayEnd} {depth : Nat} {d : Datum} :
    (array items e).datum depth = .ok d ↔ ∃ inner data, enter depth = .ok inner ∧
      List.Forall₂ (fun t d => t.datum inner = .ok d) items data ∧ e.more = .ok () ∧
        d = .sequence data := by
  simp only [datum, bind_eq_ok_iff, dataOf_eq_mapM, mapM_eq_ok_iff]
  constructor
  · rintro ⟨inner, hinner, data, hdata, _, hend, h⟩
    exact ⟨inner, data, hinner, hdata, hend, (Except.ok.inj h).symm⟩
  · rintro ⟨inner, data, hinner, hdata, hend, rfl⟩
    exact ⟨inner, hinner, data, hdata, (), hend, rfl⟩

theorem datum_object_eq_ok_iff {e : ObjectEnd} {depth : Nat} {d : Datum} :
    (object members e).datum depth = .ok d ↔ ∃ inner entries, enter depth = .ok inner ∧
      List.Forall₂ (IsEntry inner) members entries ∧ e.more = .ok () ∧ d = .map entries := by
  simp only [datum, bind_eq_ok_iff, entriesOf_eq_ok_iff]
  constructor
  · rintro ⟨inner, hinner, entries, hentries, _, hend, h⟩
    exact ⟨inner, entries, hinner, hentries, hend, (Except.ok.inj h).symm⟩
  · rintro ⟨inner, entries, hinner, hentries, hend, rfl⟩
    exact ⟨inner, hinner, entries, hentries, (), hend, rfl⟩

/-- What is read untyped is read so in any order. -/
theorem exists_datum_of_reordered (ht : Reordered t t') {depth : Nat} {d : Datum}
    (h : t.datum depth = .ok d) : ∃ d', t'.datum depth = .ok d' := by
  induction t using Tree.induction generalizing t' depth d with
  | broken | null | bool | number | string =>
    have heq : t' = _ := ht
    exact ⟨d, heq ▸ h⟩
  | array items e ih =>
    obtain ⟨items', rfl, hitems⟩ := reordered_array.mp ht
    obtain ⟨inner, data, hinner, hdata, hend, -⟩ := datum_array_eq_ok_iff.mp h
    have hall : ∀ t' ∈ items', ∃ d', t'.datum inner = .ok d' := by
      intro t' ht'
      obtain ⟨t, ht, htt'⟩ := exists_of_mem_forall₂ hitems ht'
      obtain ⟨d, -, hd⟩ := exists_mem_of_forall₂ hdata ht
      exact ih t ht htt' hd
    obtain ⟨data', hdata'⟩ := exists_forall₂_iff.mpr hall
    exact ⟨_, datum_array_eq_ok_iff.mpr ⟨inner, data', hinner, hdata', hend, rfl⟩⟩
  | object members e ih =>
    obtain ⟨kept, members', rfl, hkept, hperm⟩ := reordered_object.mp ht
    obtain ⟨inner, entries, hinner, hentries, hend, -⟩ := datum_object_eq_ok_iff.mp h
    have hall : ∀ m' ∈ members', ∃ x, IsEntry inner m' x := by
      intro m' hm'
      obtain ⟨m, hm, hkey, hmm'⟩ := exists_of_mem_forall₂ hkept (hperm.mem_iff.mpr hm')
      obtain ⟨x, -, name, hname, -, hx⟩ := exists_mem_of_forall₂ hentries hm
      obtain ⟨d', hd'⟩ := ih m hm hmm' hx
      exact ⟨(.text name, d'), name, hkey.trans hname, rfl, hd'⟩
    obtain ⟨entries', hentries'⟩ := exists_forall₂_iff.mpr hall
    exact ⟨_, datum_object_eq_ok_iff.mpr ⟨inner, entries', hinner, hentries', hend, rfl⟩⟩

/-! ## JSON values -/

/-- Whether a tree, read untyped, is read as a JSON value. -/
def ReadsValue (depth : Nat) (t : Tree) (v : Value) : Prop :=
  ∃ d, t.datum depth = .ok d ∧ d.readValue = .ok v

/-- Whether a JSON value's member is read from an entry. -/
def IsMember (x : Datum × Datum) (y : String × Value) : Prop :=
  x.1 = .text y.1 ∧ x.2.readValue = .ok y.2

theorem readValues_eq_mapM (data : List Datum) :
    Datum.readValues data = data.mapM Datum.readValue := by
  induction data with
  | nil => rfl
  | cons d data ih => rw [Datum.readValues, List.mapM_cons, ih]

theorem readEntries_eq_ok_iff {first : Expected} {entries : List (Datum × Datum)}
    {ys : List (String × Value)} :
    Datum.readEntries first entries = .ok ys ↔ List.Forall₂ IsMember entries ys := by
  induction entries generalizing first ys with
  | nil =>
    rw [List.forall₂_nil_left_iff]
    exact ⟨fun h => (Except.ok.inj h).symm, fun h => h ▸ rfl⟩
  | cons x entries ih =>
    have hname {name : String} : x.1.readText first = .ok name ↔ x.1 = .text name := by
      cases x.1 <;> simp [Datum.readText, Datum.refuse]
    simp only [Datum.readEntries, List.forall₂_cons_left_iff, bind_eq_ok_iff, ih, hname]
    constructor
    · rintro ⟨name, hname, value, hvalue, rest, hrest, h⟩
      exact ⟨(name, value), rest, ⟨hname, hvalue⟩, hrest, (Except.ok.inj h).symm⟩
    · rintro ⟨⟨name, value⟩, rest, ⟨hname, hvalue⟩, hrest, rfl⟩
      exact ⟨name, hname, value, hvalue, rest, hrest, rfl⟩

theorem readsValue_array {e : ArrayEnd} {depth : Nat} {v : Value} :
    (array items e).ReadsValue depth v ↔ ∃ inner vs, enter depth = .ok inner ∧
      List.Forall₂ (ReadsValue inner) items vs ∧ e.more = .ok () ∧ v = .array vs := by
  have hitems (inner : Nat) (vs : List Value) : List.Forall₂ (ReadsValue inner) items vs ↔
      ∃ data, List.Forall₂ (fun t d => t.datum inner = .ok d) items data ∧
        List.Forall₂ (fun d v => d.readValue = .ok v) data vs := forall₂_comp_iff
  simp only [hitems, ReadsValue, datum_array_eq_ok_iff]
  constructor
  · rintro ⟨_, ⟨inner, data, hinner, hdata, hend, rfl⟩, hv⟩
    rw [Datum.readValue, readValues_eq_mapM, map_eq_ok_iff] at hv
    obtain ⟨vs, hvs, rfl⟩ := hv
    exact ⟨inner, vs, hinner, ⟨data, hdata, mapM_eq_ok_iff.mp hvs⟩, hend, rfl⟩
  · rintro ⟨inner, vs, hinner, ⟨data, hdata, hvs⟩, hend, rfl⟩
    refine ⟨_, ⟨inner, data, hinner, hdata, hend, rfl⟩, ?_⟩
    rw [Datum.readValue, readValues_eq_mapM, map_eq_ok_iff]
    exact ⟨vs, mapM_eq_ok_iff.mpr hvs, rfl⟩

/-- Whether a JSON value's member is read from a member. -/
def ReadsMember (depth : Nat) (m : StringToken × Tree) (y : String × Value) : Prop :=
  m.1 = .text y.1 ∧ m.2.ReadsValue depth y.2

theorem readsMember_iff {depth : Nat} {m : StringToken × Tree} {y : String × Value} :
    ReadsMember depth m y ↔ ∃ x, IsEntry depth m x ∧ IsMember x y := by
  constructor
  · rintro ⟨hm, d, hd, hv⟩
    exact ⟨(.text y.1, d), ⟨y.1, hm, rfl, hd⟩, rfl, hv⟩
  · rintro ⟨x, ⟨name, hm, hx, hd⟩, hkey, hv⟩
    obtain rfl : name = y.1 := Datum.text.inj (hx.symm.trans hkey)
    exact ⟨hm, x.2, hd, hv⟩

theorem readsValue_object {e : ObjectEnd} {depth : Nat} {v : Value} :
    (object members e).ReadsValue depth v ↔ ∃ inner ys, enter depth = .ok inner ∧
      List.Forall₂ (ReadsMember inner) members ys ∧ e.more = .ok () ∧
        v = .object (Value.sortMembers ys) := by
  have hmembers (inner : Nat) (ys : List (String × Value)) :
      List.Forall₂ (ReadsMember inner) members ys ↔ ∃ entries,
        List.Forall₂ (IsEntry inner) members entries ∧ List.Forall₂ IsMember entries ys := by
    rw [← forall₂_comp_iff]
    simp only [← readsMember_iff]
  simp only [hmembers, ReadsValue, datum_object_eq_ok_iff]
  constructor
  · rintro ⟨_, ⟨inner, entries, hinner, hentries, hend, rfl⟩, hv⟩
    rw [Datum.readValue, map_eq_ok_iff] at hv
    obtain ⟨ys, hys, rfl⟩ := hv
    exact ⟨inner, ys, hinner, ⟨entries, hentries, readEntries_eq_ok_iff.mp hys⟩, hend, rfl⟩
  · rintro ⟨inner, ys, hinner, ⟨entries, hentries, hys⟩, hend, rfl⟩
    refine ⟨_, ⟨inner, entries, hinner, hentries, hend, rfl⟩, ?_⟩
    rw [Datum.readValue, map_eq_ok_iff]
    exact ⟨ys, readEntries_eq_ok_iff.mpr hys, rfl⟩

theorem names_eq_of_readsMember {depth : Nat} {ys : List (String × Value)}
    (h : List.Forall₂ (ReadsMember depth) members ys) : names members = ys.map (·.1) := by
  induction h with
  | nil => rfl
  | cons hm _ ih => rw [names, List.filterMap_cons, hm.1, List.map_cons, ← ih]; rfl

/-- Members of different names may be put among others in either order. -/
theorem insertMember_comm {a b : String} (hne : a ≠ b) (v w : Value)
    (members : List (String × Value)) :
    Value.insertMember a v (Value.insertMember b w members) =
      Value.insertMember b w (Value.insertMember a v members) := by
  induction members with
  | nil => grind [Value.insertMember]
  | cons m members ih => grind [Value.insertMember]

theorem sortMembers_perm {ys ys' : List (String × Value)} (h : ys.Perm ys')
    (hnames : (ys.map (·.1)).Nodup) : Value.sortMembers ys = Value.sortMembers ys' := by
  refine h.foldl_eq' (fun x hx y hy sorted => ?_) []
  by_cases hxy : x = y
  · rw [hxy]
  · have hne : y.1 ≠ x.1 := fun heq => hxy (List.inj_on_of_nodup_map hnames hx hy heq.symm)
    exact insertMember_comm hne y.2 x.2 sorted

/-- A value is read alike from members in any order. -/
theorem readsValue_of_reordered (h : t.Distinct) (ht : Reordered t t') {depth : Nat} {v : Value}
    (hv : t.ReadsValue depth v) : t'.ReadsValue depth v := by
  induction t using Tree.induction generalizing t' depth v with
  | broken | null | bool | number | string =>
    have heq : t' = _ := ht
    exact heq ▸ hv
  | array items e ih =>
    obtain ⟨items', rfl, hitems⟩ := reordered_array.mp ht
    obtain ⟨inner, vs, hinner, hvs, hend, rfl⟩ := readsValue_array.mp hv
    have hread : List.Forall₂ (fun t t' => (∀ t' v, Reordered t t' → t.ReadsValue inner v →
        t'.ReadsValue inner v) ∧ Reordered t t') items items' :=
      (List.forall₂_and_left items items').mpr
        ⟨fun t hmem t' v htt' => ih t hmem (distinct_array.mp h t hmem) htt', hitems⟩
    refine readsValue_array.mpr ⟨inner, vs, hinner, ?_, hend, rfl⟩
    exact (forall₂_of_common hread.flip hvs.flip).imp
      fun t' v ⟨t, ⟨hsame, htt'⟩, hv⟩ => hsame t' v htt' hv
  | object members e ih =>
    obtain ⟨kept, members', rfl, hkept, hperm⟩ := reordered_object.mp ht
    obtain ⟨hnames, hvalues⟩ := distinct_object.mp h
    obtain ⟨inner, ys, hinner, hys, hend, rfl⟩ := readsValue_object.mp hv
    have hread : List.Forall₂ (fun m m' => (∀ t' v, Reordered m.2 t' → m.2.ReadsValue inner v →
        t'.ReadsValue inner v) ∧ ReorderedMember m m') members kept :=
      (List.forall₂_and_left members kept).mpr
        ⟨fun m hmem t' v hmm' => ih m hmem (hvalues m hmem) hmm', hkept⟩
    have hsame : List.Forall₂ (ReadsMember inner) kept ys :=
      (forall₂_of_common hread.flip hys.flip).imp
        fun m' y ⟨m, ⟨hsame, hkey, hmm'⟩, hm, hv⟩ => ⟨hkey.trans hm, hsame m'.2 y.2 hmm' hv⟩
    obtain ⟨ys', hys', hperm'⟩ := List.perm_comp_forall₂ hperm.symm hsame
    refine readsValue_object.mpr ⟨inner, ys', hinner, hys', hend, congrArg Value.object ?_⟩
    exact sortMembers_perm hperm'.symm (names_eq_of_readsMember hys ▸ hnames)

/-! ## Data that are the same but for order -/

/-- Whether data are read from trees of which one is the other reordered. -/
def SameData (d d' : Datum) : Prop :=
  ∃ t t' depth, Reordered t t' ∧ t.Distinct ∧ t.datum depth = .ok d ∧ t'.datum depth = .ok d'

variable {d d' : Datum}

/-- Data that are the same but for order are both lists, both maps, or equal. -/
theorem SameData.cases (h : SameData d d') : d' = d ∨
    (∃ data data', d = .sequence data ∧ d' = .sequence data' ∧
      List.Forall₂ SameData data data') ∨
    ∃ entries entries', d = .map entries ∧ d' = .map entries' := by
  obtain ⟨t, t', depth, ht, hdistinct, hd, hd'⟩ := h
  cases t with
  | broken | null | bool | number | string =>
    have heq : t' = _ := ht
    exact .inl (Except.ok.inj (hd'.symm.trans (heq ▸ hd)))
  | array items e =>
    obtain ⟨items', rfl, hitems⟩ := reordered_array.mp ht
    obtain ⟨inner, data, hinner, hdata, -, rfl⟩ := datum_array_eq_ok_iff.mp hd
    obtain ⟨inner', data', hinner', hdata', -, rfl⟩ := datum_array_eq_ok_iff.mp hd'
    obtain rfl : inner = inner' := Except.ok.inj (hinner.symm.trans hinner')
    have hread : List.Forall₂ (fun t t' => t.Distinct ∧ Reordered t t') items items' :=
      (List.forall₂_and_left items items').mpr ⟨distinct_array.mp hdistinct, hitems⟩
    have hmiddle := forall₂_comp_iff.mpr ⟨items', hread, hdata'⟩
    refine .inr (.inl ⟨data, data', rfl, rfl, (forall₂_of_common hdata.flip hmiddle.flip).imp ?_⟩)
    rintro d d' ⟨t, hd, t', ⟨hdistinct, htt'⟩, hd'⟩
    exact ⟨t, t', inner, htt', hdistinct, hd, hd'⟩
  | object members e =>
    obtain ⟨kept, members', rfl, -, -⟩ := reordered_object.mp ht
    obtain ⟨inner, entries, -, -, -, rfl⟩ := datum_object_eq_ok_iff.mp hd
    obtain ⟨inner', entries', -, -, -, rfl⟩ := datum_object_eq_ok_iff.mp hd'
    exact .inr (.inr ⟨entries, entries', rfl, rfl⟩)

/-- What refuses lists and maps reads the same from data that are the same but for order. -/
theorem respects_of_scalar {α : Type} {read : Datum → Except Mismatch α}
    (hsequence : ∀ data a, read (.sequence data) ≠ .ok a)
    (hmap : ∀ entries a, read (.map entries) ≠ .ok a) : Respects SameData read := by
  intro d d' a h hread
  obtain rfl | ⟨data, -, rfl, -, -⟩ | ⟨entries, -, rfl, -⟩ := h.cases
  · exact hread
  · exact absurd hread (hsequence data a)
  · exact absurd hread (hmap entries a)

theorem respects_readValue : Respects SameData Datum.readValue := by
  rintro d d' v ⟨t, t', depth, ht, hdistinct, hd, hd'⟩ hv
  obtain ⟨_, hd'', hv'⟩ := readsValue_of_reordered hdistinct ht ⟨d, hd, hv⟩
  obtain rfl := Except.ok.inj (hd'.symm.trans hd'')
  exact hv'

theorem respects_readText : Respects SameData (Data.readText (σ := Datum)) :=
  respects_of_scalar (fun _ _ => nofun) fun _ _ => nofun

theorem respects_readBool : Respects SameData (Data.readBool (σ := Datum)) :=
  respects_of_scalar (fun _ _ => nofun) fun _ _ => nofun

theorem respects_readNumber : Respects SameData Datum.readNumber :=
  respects_of_scalar (fun _ _ => nofun) fun _ _ => nofun

/-- A list of JSON values. -/
theorem respects_readArguments : Respects SameData (Data.readList Datum.readValue) := by
  intro d d' vs h hread
  refine Data.readList_of_follows (fun items hitems => ?_) hread
  obtain rfl | ⟨data, data', rfl, rfl, hdata⟩ | ⟨entries, entries', rfl, rfl⟩ := h.cases
  · exact ⟨items, hitems, rfl, List.forall₂_same.mpr fun _ _ _ h => h⟩
  · obtain rfl := Except.ok.inj hitems
    exact ⟨_, rfl, rfl, hdata.imp fun d d' hd v => respects_readValue hd⟩
  · cases hitems

end Tree

end Dbml.Json

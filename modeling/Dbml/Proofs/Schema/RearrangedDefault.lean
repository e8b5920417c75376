import Dbml.Proofs.Json.Rearranged
import Dbml.Schema.ColumnDefault

/-!
# Rearranged column defaults

The tag of a default may stand anywhere among its members. Reading the members collects what each
of them gives on its own, the tag or an untyped entry (`ReadsPart`), so that their order is the
order of what is collected (`foldlM_readTagged_eq_ok_iff`). Entries in another order, together
with further ones of names that no kind has, are read the same as a body (`readBody_of_sameBody`).
-/

namespace Dbml.ColumnDefault

open Data (Datum Expected FaultySource Members MemberFollows MembersFollow Mismatch PositionsFollow
  Respects Slot Source)
open Json (Place Rearrangement StringToken Tree)

/-! ## Members one by one -/

section

variable {σ ε : Type} [Source σ (Except ε)] [FaultySource σ ε]

/-- Whether reading a member on its own gives the tag, or an untyped entry. -/
inductive ReadsPart (x : Except ε Datum × σ) : Tagged → Prop
  | tag {kind : Kind} : x.1 = .ok (.text tagName) → readKind x.2 = .ok kind →
    ReadsPart x { kind := some kind }
  | entry {key d : Datum} : x.1 = .ok key → key ≠ .text tagName → Source.datum x.2 = .ok d →
    ReadsPart x { entries := [(key, d)] }

variable {x : Except ε Datum × σ} {tagged tagged' part : Tagged}

theorem readTagged_of_tag (h : x.1 = .ok (.text tagName)) :
    readTagged tagged x = .ok tagged' ↔ tagged.kind = none ∧ ∃ kind, readKind x.2 = .ok kind ∧
      { tagged with kind := some kind } = tagged' := by
  rw [readTagged, h]
  change (if tagged.kind.isSome then Source.fail (σ := σ) _ else readKind x.2 >>= _) = _ ↔ _
  cases hkind : tagged.kind with
  | none =>
    change readKind x.2 >>= _ = _ ↔ _
    rw [bind_eq_ok_iff, eq_self, true_and]
    exact exists_congr fun kind => and_congr_right fun _ => Except.ok.injEq _ _ |>.to_iff
  | some kind =>
    constructor
    · exact fun hread => absurd hread (FaultySource.fail_ne _ _)
    · rintro ⟨⟨⟩, -⟩

omit [FaultySource σ ε] in
theorem readTagged_of_ne {key : Datum} (h : x.1 = .ok key) (hne : key ≠ .text tagName) :
    readTagged tagged x = .ok tagged' ↔ ∃ d, Source.datum x.2 = .ok d ∧
      { tagged with entries := tagged.entries ++ [(key, d)] } = tagged' := by
  have hentry : readTagged tagged x = readTagged.readEntry tagged x key := by
    rw [readTagged, h]
    cases key with
    | text name => exact if_neg fun heq => hne (congrArg Datum.text heq)
    | null | bool | number | minusZero | special | sequence | map => rfl
  rw [hentry, readTagged.readEntry, bind_eq_ok_iff]
  exact exists_congr fun d => and_congr_right fun _ => Except.ok.injEq _ _ |>.to_iff

theorem tagged_eq_iff : tagged = tagged' ↔
    tagged.kind.toList = tagged'.kind.toList ∧ tagged.entries = tagged'.entries := by
  obtain ⟨kind, entries⟩ := tagged
  obtain ⟨kind', entries'⟩ := tagged'
  cases kind <;> cases kind' <;> simp

/-- An option holds one thing at most. -/
theorem eq_none_of_toList {α : Type} {o a : Option α} {k : α} {rest : List α}
    (h : o.toList = a.toList ++ k :: rest) : a = none := by
  cases a with
  | none => rfl
  | some => cases o <;> cases h

/-- Reading a member adds what it gives to what is there. -/
theorem readTagged_eq_ok_iff : readTagged tagged x = .ok tagged' ↔ ∃ part, ReadsPart x part ∧
    tagged'.kind.toList = tagged.kind.toList ++ part.kind.toList ∧
      tagged'.entries = tagged.entries ++ part.entries := by
  constructor
  · intro h
    obtain ⟨key, hkey, -⟩ := bind_eq_ok_iff.mp h
    by_cases htag : key = .text tagName
    · subst htag
      obtain ⟨hnone, kind, hkind, rfl⟩ := (readTagged_of_tag hkey).mp h
      refine ⟨_, .tag hkey hkind, ?_, (List.append_nil _).symm⟩
      rw [hnone]
      rfl
    · obtain ⟨d, hd, rfl⟩ := (readTagged_of_ne hkey htag).mp h
      exact ⟨_, .entry hkey htag hd, (List.append_nil _).symm, rfl⟩
  · rintro ⟨part, hpart, hkinds, hentries⟩
    cases hpart with
    | @tag kind hkey hkind =>
      have hnone : tagged.kind = none := eq_none_of_toList hkinds
      rw [hnone] at hkinds
      refine (readTagged_of_tag hkey).mpr ⟨hnone, kind, hkind, tagged_eq_iff.mpr ?_⟩
      exact ⟨hkinds.symm, (List.append_nil _).symm.trans hentries.symm⟩
    | @entry key d hkey hne hd =>
      refine (readTagged_of_ne hkey hne).mpr ⟨d, hd, tagged_eq_iff.mpr ?_⟩
      exact ⟨(List.append_nil _).symm.trans hkinds.symm, hentries.symm⟩

/-- Reading members collects what each of them gives. -/
theorem foldlM_readTagged_eq_ok_iff {xs : List (Except ε Datum × σ)} :
    xs.foldlM readTagged tagged = .ok tagged' ↔ ∃ parts, List.Forall₂ ReadsPart xs parts ∧
      tagged'.kind.toList = tagged.kind.toList ++ parts.flatMap (·.kind.toList) ∧
        tagged'.entries = tagged.entries ++ parts.flatMap (·.entries) := by
  induction xs generalizing tagged with
  | nil =>
    constructor
    · intro h
      obtain rfl := Except.ok.inj h
      exact ⟨[], .nil, (List.append_nil _).symm, (List.append_nil _).symm⟩
    · rintro ⟨parts, hparts, hkinds, hentries⟩
      obtain rfl := List.forall₂_nil_left_iff.mp hparts
      refine congrArg Except.ok (tagged_eq_iff.mpr ⟨?_, ?_⟩)
      · exact (List.append_nil _).symm.trans hkinds.symm
      · exact (List.append_nil _).symm.trans hentries.symm
  | cons x xs ih =>
    simp only [List.foldlM_cons, bind_eq_ok_iff, ih, readTagged_eq_ok_iff]
    constructor
    · rintro ⟨tagged₁, ⟨part, hpart, hkind, hentry⟩, parts, hparts, hkinds, hentries⟩
      refine ⟨part :: parts, .cons hpart hparts, ?_, ?_⟩
      · rw [hkinds, hkind, List.append_assoc, List.flatMap_cons]
      · rw [hentries, hentry, List.append_assoc, List.flatMap_cons]
    · rintro ⟨_, hparts, hkinds, hentries⟩
      obtain ⟨part, parts, hpart, hrest, rfl⟩ := List.forall₂_cons_left_iff.mp hparts
      rw [List.flatMap_cons, ← List.append_assoc] at hkinds hentries
      have hor : (tagged.kind.or part.kind).toList = tagged.kind.toList ++ part.kind.toList := by
        cases hkind : part.kind with
        | none => rw [Option.or_none, Option.toList_none, List.append_nil]
        | some =>
          rw [hkind, List.append_assoc] at hkinds
          rw [eq_none_of_toList hkinds]
          rfl
      refine ⟨⟨tagged.kind.or part.kind, tagged.entries ++ part.entries⟩,
        ⟨part, hpart, hor, rfl⟩, parts, hrest, ?_, hentries⟩
      rw [hkinds, hor]

end

/-! ## The body -/

/-- The names of the members that a default of some kind has. -/
def memberNames : List String := [tagName, "value", "name", "args"]

/-- Whether an entry is another one but for the order of members in its value. -/
def SameEntry (x x' : Datum × Datum) : Prop := x'.1 = x.1 ∧ Tree.SameData x.2 x'.2

/-- Whether an entry is a further one, of a name that no member has. -/
def IsFurther (x : Datum × Datum) : Prop := ∃ name, x.1 = .text name ∧ name ∉ memberNames

/-- Whether a body is another one but for order and further entries. -/
inductive SameBody : Datum → Datum → Prop
  | map {entries kept added entries' : List (Datum × Datum)} :
    List.Forall₂ SameEntry entries kept → (∀ x ∈ added, IsFurther x) →
      (kept ++ added).Perm entries' → SameBody (.map entries) (.map entries')
  | sequence {data data' : List Datum} :
    List.Forall₂ Tree.SameData data data' → SameBody (.sequence data) (.sequence data')

variable {δ : Type} {slots : List (Slot Datum (Except Mismatch) δ)} {body body' : Datum}

theorem positionsFollow_of_sameData {data data' : List Datum}
    (hslots : ∀ slot ∈ slots, slot.Respects Tree.SameData)
    (h : List.Forall₂ Tree.SameData data data') : PositionsFollow slots data data' := by
  induction h generalizing slots with
  | nil => cases slots <;> constructor
  | cons hd _ ih =>
    cases slots with
    | nil => exact .none
    | cons slot slots =>
      obtain ⟨hslot, hslots⟩ := List.forall_mem_cons.mp hslots
      exact .cons (fun draft draft' => hslot draft hd) (ih hslots)

/-- Where the members of a body are, there are those of the same body. -/
theorem exists_members_of_sameBody (hslots : ∀ slot ∈ slots, slot.Respects Tree.SameData)
    (hnames : ∀ slot ∈ slots, slot.name ∈ memberNames) (h : SameBody body body')
    {expected : Expected} {members : Members Datum (Except Mismatch)}
    (hmembers : Source.members expected body = .ok members) :
    ∃ members', Source.members expected body' = .ok members' ∧
      MembersFollow slots members members' := by
  cases h with
  | @map entries kept added entries' hkept hadded hperm =>
    obtain rfl := Except.ok.inj hmembers
    let asMember (x : Datum × Datum) : Except Mismatch Datum × Datum := (.ok x.1, x.2)
    have hfollow : List.Forall₂ (MemberFollows slots) (entries.map asMember)
        (kept.map asMember) := by
      refine List.forall₂_map_left_iff.mpr (List.forall₂_map_right_iff.mpr (hkept.imp ?_))
      rintro ⟨key, d⟩ ⟨_, d'⟩ ⟨rfl, hd⟩
      refine Data.memberFollows_of_key (fun _ _ _ h => h) ?_
      intro k slot draft draft' _ hslot
      exact hslots slot (Data.mem_of_slotOf hslot) draft hd
    have hskip : ∀ x ∈ added.map asMember, ∀ draft, Data.readMember slots draft x = .ok draft := by
      refine List.forall_mem_map.mpr fun x hx draft => ?_
      obtain ⟨name, hkey, hname⟩ := hadded x hx
      refine Data.readMember_eq_ok_iff.mpr ⟨x.1, rfl, .inl ⟨?_, rfl, rfl⟩⟩
      rw [hkey]
      refine congrArg Except.ok (List.find?_eq_none.mpr fun slot hslot heq => hname ?_)
      exact eq_of_beq heq ▸ hnames slot hslot
    have horder := hperm.map asMember
    rw [List.map_append] at horder
    exact ⟨_, rfl, .named hfollow hskip horder⟩
  | @sequence data data' hdata =>
    obtain rfl := Except.ok.inj hmembers
    refine ⟨_, rfl, .positional (positionsFollow_of_sameData hslots hdata) rfl ?_⟩
    funext n
    rw [Datum.itemsOf, Datum.itemsOf, hdata.length_eq]

/-- What is read from the members of a body is read from those of the same body. -/
theorem members_of_sameBody (hindependent : Data.Independent slots)
    (hslots : ∀ slot ∈ slots, slot.Respects Tree.SameData)
    (hnames : ∀ slot ∈ slots, slot.name ∈ memberNames) (h : SameBody body body')
    {expected : Expected} {draft draft' : δ}
    (hread : (Source.members expected body >>= Data.readMembers expected slots draft) = .ok draft') :
    (Source.members expected body' >>= Data.readMembers expected slots draft) = .ok draft' := by
  obtain ⟨members, hmembers, hread⟩ := bind_eq_ok_iff.mp hread
  obtain ⟨members', hmembers', hfollow⟩ := exists_members_of_sameBody hslots hnames h hmembers
  exact bind_eq_ok_iff.mpr
    ⟨members', hmembers', Data.readMembers_of_follows hindependent hfollow hread⟩

/-- A body of one member, the value, is read from the same body. -/
theorem readSingle_of_sameBody {α : Type} {name : String} {read : Datum → Except Mismatch α}
    (hread : Respects Tree.SameData read) (h : SameBody body body') {a : α}
    (ha : readSingle name read body = .ok a) : readSingle name read body' = .ok a := by
  have hindependent : Data.Independent
      [Slot.ofLens "value" true id (fun _ value => some value) read] := by simp
  rw [readSingle, ← bind_assoc] at ha ⊢
  obtain ⟨value, hvalue, hrequired⟩ := bind_eq_ok_iff.mp ha
  refine bind_eq_ok_iff.mpr ⟨value, members_of_sameBody hindependent ?_ ?_ h hvalue, hrequired⟩
  · exact List.forall_mem_singleton.mpr (Data.respects_ofLens hread)
  · exact List.forall_mem_singleton.mpr (show "value" ∈ memberNames by decide)

theorem independent_generatedSlots : Data.Independent generatedSlots := by simp [generatedSlots]

/-- An expression is read from the same body. -/
theorem readGenerated_of_sameBody (h : SameBody body body') {d : ColumnDefault}
    (hd : readGenerated body = .ok d) : readGenerated body' = .ok d := by
  rw [readGenerated, ← bind_assoc] at hd ⊢
  obtain ⟨draft, hdraft, hfinish⟩ := bind_eq_ok_iff.mp hd
  refine bind_eq_ok_iff.mpr
    ⟨draft, members_of_sameBody independent_generatedSlots ?_ ?_ h hdraft, hfinish⟩
  · exact List.forall_mem_cons.mpr ⟨Data.respects_ofLens Tree.respects_readText,
      List.forall_mem_singleton.mpr (Data.respects_ofLens Tree.respects_readArguments)⟩
  · exact List.forall_mem_cons.mpr ⟨show "name" ∈ memberNames by decide,
      List.forall_mem_singleton.mpr (show "args" ∈ memberNames by decide)⟩

/-- A body is read the same but for order and further entries, whatever the kind. -/
theorem readBody_of_sameBody (h : SameBody body body') {kind : Kind} {d : ColumnDefault}
    (hd : readBody kind body = .ok d) : readBody kind body' = .ok d := by
  have hsingle {α : Type} {name : String} {read : Datum → Except Mismatch α} {make : α → ColumnDefault}
      (hread : Respects Tree.SameData read) (hd : make <$> readSingle name read body = .ok d) :
      make <$> readSingle name read body' = .ok d := by
    obtain ⟨a, ha, hmake⟩ := map_eq_ok_iff.mp hd
    exact map_eq_ok_iff.mpr ⟨a, readSingle_of_sameBody hread h ha, hmake⟩
  cases kind with
  | string => exact hsingle Tree.respects_readText hd
  | number => exact hsingle Tree.respects_readNumber hd
  | boolean => exact hsingle Tree.respects_readBool hd
  | member => exact hsingle Tree.respects_readText hd
  | generated => exact readGenerated_of_sameBody h hd
  | other =>
    cases h with
    | map => exact hd
    | sequence hdata =>
      change ((Datum.itemsOf _).leftover 0 >>= _) = _ at hd ⊢
      rw [Datum.itemsOf] at hd ⊢
      rwa [← hdata.length_eq]

/-! ## Documents -/

/-- A default may be reordered and get further members. -/
def rearrangement : Rearrangement := .record (memberNames.map fun name => (name, .any))

theorem ofKey_rearrangement (key : StringToken) :
    Rearrangement.ofKey (memberNames.map fun name => (name, .any)) key = .any := by
  cases key with
  | unreadable | broken => rfl
  | text name =>
    simp only [Rearrangement.ofKey, memberNames, List.map_cons, List.map_nil, List.lookup_cons]
    repeat' split
    all_goals rfl

theorem forall₂_of_itemsHold (names : List String) {items items' : List Tree}
    (h : Rearrangement.ItemsHold (names.map fun _ => .any) items items') :
    List.Forall₂ Tree.Reordered items items' := by
  induction names generalizing items items' with
  | nil => exact h
  | cons name names ih =>
    cases items with
    | nil => exact h
    | cons t items =>
      obtain ⟨t', rest, rfl, ht, hrest⟩ := h
      exact .cons ht (ih hrest)

/-- Whether a part gives the same tag and entries that are the same but for order. -/
def SamePart (part part' : Tagged) : Prop :=
  part'.kind = part.kind ∧ List.Forall₂ SameEntry part.entries part'.entries

theorem respects_readKind : Respects (Place.Related .any) (readKind (σ := Place)) := by
  intro c c' kind hc h
  obtain ⟨name, hname, hkind⟩ := map_eq_ok_iff.mp h
  exact map_eq_ok_iff.mpr ⟨name, Place.respects_text .variantName hc hname, hkind⟩

/-- What a member gives, the member reordered gives but for order. -/
theorem exists_samePart {m m' : StringToken × Tree} (hm : Tree.ReorderedMember m m')
    (hdistinct : m.2.Distinct) {depth : Nat} {part : Tagged}
    (h : ReadsPart (Place.memberAt depth m) part) :
    ∃ part', ReadsPart (Place.memberAt depth m') part' ∧ SamePart part part' := by
  obtain ⟨key, t⟩ := m
  obtain ⟨_, t'⟩ := m'
  obtain ⟨rfl, ht⟩ := hm
  have hc : Place.Related .any ⟨t, depth⟩ ⟨t', depth⟩ := Place.related_mk hdistinct ht depth
  cases h with
  | tag hkey hkind => exact ⟨_, .tag hkey (respects_readKind hc hkind), rfl, .nil⟩
  | entry hkey hne hd =>
    obtain ⟨d', hd', hsame⟩ := Place.exists_datum_of_related hc hd
    exact ⟨_, .entry hkey hne hd', rfl, .cons ⟨rfl, hsame⟩ .nil⟩

theorem exists_datum_of_isPlain {t : Tree} (h : Rearrangement.IsPlain t) (depth : Nat) :
    ∃ d, t.datum depth = .ok d := by
  cases t with
  | null => exact ⟨_, rfl⟩
  | bool => exact ⟨_, rfl⟩
  | number literal =>
    obtain ⟨n, hn⟩ := h
    refine ⟨.number n, ?_⟩
    rw [Tree.datum, Json.Literal.value, hn]
    rfl
  | string token =>
    obtain ⟨s, rfl⟩ := h
    exact ⟨.text s, rfl⟩
  | broken | array | object => exact h.elim

/-- A further member gives a further entry. -/
theorem exists_part_of_isFurther {m : StringToken × Tree}
    (hm : Rearrangement.IsFurther (memberNames.map fun name => (name, .any)) m) (depth : Nat) :
    ∃ part, ReadsPart (Place.memberAt depth m) part ∧ part.kind = none ∧
      ∀ x ∈ part.entries, IsFurther x := by
  obtain ⟨name, hkey, hname, hplain⟩ := hm
  rw [List.map_map] at hname
  change name ∉ memberNames.map id at hname
  rw [List.map_id] at hname
  obtain ⟨d, hd⟩ := exists_datum_of_isPlain hplain depth
  refine ⟨_, .entry (Place.key_eq_ok_iff.mpr ⟨name, hkey, rfl⟩) ?_ (Place.lift_eq_ok_iff.mpr hd),
    rfl, List.forall_mem_singleton.mpr ⟨name, rfl, hname⟩⟩
  intro heq
  exact hname (Datum.text.inj heq ▸ List.mem_cons_self)

/-- What members give, they give in any order and together with further members. -/
theorem exists_parts {members kept added members' : List (StringToken × Tree)} {depth : Nat}
    {parts : List Tagged}
    (hparts : List.Forall₂ ReadsPart (members.map (Place.memberAt depth)) parts)
    (hdistinct : ∀ m ∈ members, m.2.Distinct)
    (hkept : List.Forall₂ Tree.ReorderedMember members kept)
    (hadded : ∀ m ∈ added, Rearrangement.IsFurther (memberNames.map fun name => (name, .any)) m)
    (hperm : (kept ++ added).Perm members') :
    ∃ same further parts', List.Forall₂ ReadsPart (members'.map (Place.memberAt depth)) parts' ∧
      (same ++ further).Perm parts' ∧ List.Forall₂ SamePart parts same ∧
        ∀ part ∈ further, part.kind = none ∧ ∀ x ∈ part.entries, IsFurther x := by
  have hboth := (List.forall₂_and_left members kept).mpr ⟨hdistinct, hkept⟩
  have hsame := forall₂_of_common hboth.flip (List.forall₂_map_left_iff.mp hparts).flip
  have hsame : List.Forall₂ (fun m' part => ∃ part', ReadsPart (Place.memberAt depth m') part' ∧
      SamePart part part') kept parts :=
    hsame.imp fun m' part ⟨m, ⟨hd, hm⟩, hpart⟩ => exists_samePart hm hd hpart
  obtain ⟨same, hkeptParts, hsame⟩ := forall₂_comp_iff.mp hsame
  obtain ⟨further, hfurther⟩ := exists_forall₂_iff.mpr fun m hm =>
    exists_part_of_isFurther (hadded m hm) depth
  have hall := List.rel_append hkeptParts (hfurther.imp fun _ _ h => h.1)
  obtain ⟨parts', hparts', horder⟩ := List.perm_comp_forall₂ hperm.symm hall
  refine ⟨same, further, parts', List.forall₂_map_left_iff.mpr hparts', horder.symm, hsame.flip, ?_⟩
  intro part hpart
  obtain ⟨m, -, -, h⟩ := exists_of_mem_forall₂ hfurther hpart
  exact h

theorem eq_toList_of_perm {α : Type} {o : Option α} {xs : List α} (h : o.toList.Perm xs) :
    o.toList = xs := by
  cases o with
  | none => exact (List.nil_perm.mp h).symm
  | some a => exact List.singleton_perm.mp h

/-- Members in another order and further ones give the same kind and the same body. -/
theorem exists_body_of_named {members kept added members' : List (StringToken × Tree)} {depth : Nat}
    {ending : Except Json.Error Unit} {kind : Kind} {body : Datum}
    (hread : readMembers (.named (members.map (Place.memberAt depth)) ending) = .ok (kind, body))
    (hdistinct : ∀ m ∈ members, m.2.Distinct)
    (hkept : List.Forall₂ Tree.ReorderedMember members kept)
    (hadded : ∀ m ∈ added, Rearrangement.IsFurther (memberNames.map fun name => (name, .any)) m)
    (hperm : (kept ++ added).Perm members') :
    ∃ body', readMembers (.named (members'.map (Place.memberAt depth)) ending) = .ok (kind, body') ∧
      SameBody body body' := by
  obtain ⟨tagged, hfold, hread⟩ := bind_eq_ok_iff.mp hread
  obtain ⟨u, hending, hread⟩ := bind_eq_ok_iff.mp hread
  obtain ⟨_, hkind, hread⟩ := bind_eq_ok_iff.mp hread
  obtain ⟨rfl, rfl⟩ := Prod.mk.inj (Except.ok.inj hread)
  obtain ⟨parts, hparts, hkinds, hentries⟩ := foldlM_readTagged_eq_ok_iff.mp hfold
  change tagged.kind.toList = parts.flatMap (·.kind.toList) at hkinds
  change tagged.entries = parts.flatMap (·.entries) at hentries
  obtain ⟨same, further, parts', hparts', horder, hsame, hfurther⟩ :=
    exists_parts hparts hdistinct hkept hadded hperm
  have hkinds' : tagged.kind.toList = parts'.flatMap (·.kind.toList) := by
    have hsameKinds : same.flatMap (·.kind.toList) = parts.flatMap (·.kind.toList) := by
      rw [List.flatMap, List.flatMap,
        map_eq_of_forall₂ hsame fun part part' h => congrArg Option.toList h.1]
    have hno : further.flatMap (·.kind.toList) = [] :=
      List.flatMap_eq_nil_iff.mpr fun part hpart => congrArg Option.toList (hfurther part hpart).1
    have hall := horder.flatMap_right (·.kind.toList)
    rw [List.flatMap_append, hno, List.append_nil, hsameKinds, ← hkinds] at hall
    exact eq_toList_of_perm hall
  have hfold' : (members'.map (Place.memberAt depth)).foldlM readTagged {} =
      .ok ⟨tagged.kind, parts'.flatMap (·.entries)⟩ :=
    foldlM_readTagged_eq_ok_iff.mpr ⟨parts', hparts', hkinds', rfl⟩
  refine ⟨.map (parts'.flatMap (·.entries)), bind_eq_ok_iff.mpr ⟨_, hfold', ?_⟩, ?_⟩
  · exact bind_eq_ok_iff.mpr ⟨u, hending, bind_eq_ok_iff.mpr ⟨_, hkind, rfl⟩⟩
  · have hsameEntries : List.Forall₂ SameEntry tagged.entries (same.flatMap (·.entries)) :=
      hentries ▸ List.rel_flatMap hsame fun _ _ h => h.2
    have hfurtherEntries : ∀ x ∈ further.flatMap (·.entries), IsFurther x := by
      intro x hx
      obtain ⟨part, hpart, hx⟩ := List.mem_flatMap.mp hx
      exact (hfurther part hpart).2 x hx
    have hall := horder.flatMap_right (·.entries)
    rw [List.flatMap_append] at hall
    exact .map hsameEntries hfurtherEntries hall

/-- Items that are reordered give the same kind and the same body. -/
theorem exists_body_of_positional {items items' : List Tree} {depth : Nat} {e : Json.ArrayEnd}
    {kind : Kind} {body : Datum}
    (hread : readMembers (.positional (Place.itemsAt depth items e)) = .ok (kind, body))
    (hdistinct : ∀ t ∈ items, t.Distinct) (hitems : List.Forall₂ Tree.Reordered items items') :
    ∃ body', readMembers (.positional (Place.itemsAt depth items' e)) = .ok (kind, body') ∧
      SameBody body body' := by
  cases hitems with
  | nil =>
    obtain ⟨_, -, hread⟩ := bind_eq_ok_iff.mp hread
    cases hread
  | @cons t t' rest rest' ht hrest =>
    obtain ⟨hdt, hdistinct⟩ := List.forall_mem_cons.mp hdistinct
    obtain ⟨k, hkind, hread⟩ := bind_eq_ok_iff.mp hread
    obtain ⟨data, hdata, hread⟩ := bind_eq_ok_iff.mp hread
    obtain ⟨u, hending, hread⟩ := bind_eq_ok_iff.mp hread
    obtain ⟨rfl, rfl⟩ := Prod.mk.inj (Except.ok.inj hread)
    have hfirst := respects_readKind (Place.related_mk hdt ht depth) hkind
    have hboth := (List.forall₂_and_left rest rest').mpr ⟨hdistinct, hrest⟩
    have hread := List.forall₂_map_left_iff.mp (mapM_eq_ok_iff.mp hdata)
    have hsame : List.Forall₂ (fun t' d => ∃ d', Source.datum (Place.mk t' depth) = .ok d' ∧
        Tree.SameData d d') rest' data := by
      refine (forall₂_of_common hboth.flip hread.flip).imp ?_
      rintro t' d ⟨t, ⟨hdt, ht⟩, hd⟩
      exact Place.exists_datum_of_related (Place.related_mk hdt ht depth) hd
    obtain ⟨data', hdata', hsame⟩ := forall₂_comp_iff.mp hsame
    have hwalk := mapM_eq_ok_iff.mpr (List.forall₂_map_left_iff.mpr hdata')
    refine ⟨.sequence data', bind_eq_ok_iff.mpr ⟨k, hfirst, ?_⟩,
      .sequence hsame.flip⟩
    exact bind_eq_ok_iff.mpr ⟨data', hwalk, bind_eq_ok_iff.mpr ⟨u, hending, rfl⟩⟩

/-- Where the kind and the body of a default are, there are those of the default rearranged. -/
theorem exists_body_of_related {c c' : Place} (hc : Place.Related rearrangement c c')
    {expected : Expected} {kind : Kind} {body : Datum}
    (hread : (Source.members expected c >>= readMembers) = .ok (kind, body)) :
    ∃ body', (Source.members expected c' >>= readMembers) = .ok (kind, body') ∧
      SameBody body body' := by
  obtain ⟨t, depth⟩ := c
  obtain ⟨t', _⟩ := c'
  obtain ⟨rfl, hdistinct, htree⟩ := hc
  obtain ⟨places, hplaces, hbody⟩ := bind_eq_ok_iff.mp hread
  obtain ⟨members, e, inner, rfl, hinner, rfl⟩ | ⟨items, e, inner, rfl, hinner, rfl⟩ :=
    Place.members_eq_ok_iff.mp hplaces
  · obtain ⟨kept, added, members', rfl, hkept, hadded, hperm⟩ := htree
    have hkept : List.Forall₂ Tree.ReorderedMember members kept := by
      refine hkept.imp fun m m' hm => ⟨hm.1, ?_⟩
      have hvalue := hm.2
      rwa [ofKey_rearrangement] at hvalue
    obtain ⟨body', hbody', hsame⟩ :=
      exists_body_of_named hbody (Tree.distinct_object.mp hdistinct).2 hkept hadded hperm
    exact ⟨body', bind_eq_ok_iff.mpr ⟨_, Place.members_eq_ok_iff.mpr
      (.inl ⟨members', e, inner, rfl, hinner, rfl⟩), hbody'⟩, hsame⟩
  · obtain ⟨items', rfl, hitems⟩ := htree
    have hreordered : List.Forall₂ Tree.Reordered items items' :=
      forall₂_of_itemsHold memberNames hitems
    obtain ⟨body', hbody', hsame⟩ :=
      exists_body_of_positional hbody (Tree.distinct_array.mp hdistinct) hreordered
    exact ⟨body', bind_eq_ok_iff.mpr ⟨_, Place.members_eq_ok_iff.mpr
      (.inr ⟨items', e, inner, rfl, hinner, rfl⟩), hbody'⟩, hsame⟩

/-- A default is read the same from its members in any order, together with further ones. -/
theorem respects_read : Respects (Place.Related rearrangement) (read (σ := Place)) := by
  intro c c' d hc hread
  obtain ⟨⟨kind, body⟩, hmembers, hbody⟩ := bind_eq_ok_iff.mp hread
  obtain ⟨body', hmembers', hsame⟩ := exists_body_of_related hc hmembers
  have hbody' := readBody_of_sameBody hsame (Data.unplaced_eq_ok_iff.mp hbody)
  exact bind_eq_ok_iff.mpr ⟨(kind, body'), hmembers', Data.unplaced_eq_ok_iff.mpr hbody'⟩

end Dbml.ColumnDefault

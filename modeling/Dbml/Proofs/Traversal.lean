import Mathlib.Data.List.Forall2

/-!
# Walks over lists that may fail

A walk succeeds iff each of its steps does (`exists_mapM_eq_ok_iff`), and its
result then holds the results of the steps at their places (`mapM_eq_ok_iff`).
A computation may fail at the first of some things that has a property
(`FailsAtFirst`); a walk made of such computations fails at the first of all these
things (`FailsAtFirst.mapM`).
-/

namespace Dbml

variable {ε α β γ : Type}

theorem bind_eq_ok_iff {x : Except ε α} {f : α → Except ε β} {b : β} :
    x >>= f = .ok b ↔ ∃ a, x = .ok a ∧ f a = .ok b := by
  cases x with
  | error e => exact ⟨nofun, nofun⟩
  | ok a => exact ⟨fun h => ⟨a, rfl, h⟩, fun ⟨_, h, hb⟩ => Except.ok.inj h ▸ hb⟩

/-- One computation after another that has nothing to tell. -/
theorem then_eq_ok_iff {x : Except ε Unit} {y : Except ε β} {b : β} :
    (x >>= fun _ => y) = .ok b ↔ x = .ok () ∧ y = .ok b := by
  rw [bind_eq_ok_iff]
  exact ⟨fun ⟨(), h⟩ => h, fun h => ⟨(), h⟩⟩

theorem map_eq_ok_iff {x : Except ε α} {f : α → β} {b : β} :
    f <$> x = .ok b ↔ ∃ a, x = .ok a ∧ f a = b := by
  cases x with
  | error e => exact ⟨nofun, nofun⟩
  | ok a => exact ⟨fun h => ⟨a, rfl, Except.ok.inj h⟩, fun ⟨_, h, hb⟩ => by cases h; exact hb ▸ rfl⟩

theorem map_eq_error_iff {x : Except ε α} {f : α → β} {e : ε} :
    f <$> x = .error e ↔ x = .error e := by
  cases x <;> simp

theorem bind_eq_error_iff {x : Except ε α} {f : α → Except ε β} {e : ε} :
    x >>= f = .error e ↔ x = .error e ∨ ∃ a, x = .ok a ∧ f a = .error e := by
  cases x with
  | error e' =>
    refine ⟨fun h => .inl (by cases h; rfl), ?_⟩
    rintro (h | ⟨_, ⟨⟩, _⟩)
    cases h
    rfl
  | ok a =>
    refine ⟨fun h => .inr ⟨a, rfl, h⟩, ?_⟩
    rintro (⟨⟨⟩⟩ | ⟨_, ⟨⟩, h⟩)
    exact h

theorem exists_eq_ok_iff {x : Except ε α} : (∃ a, x = .ok a) ↔ ∀ e, x ≠ .error e := by
  cases x <;> simp

theorem mapError_eq_ok_iff {x : Except ε α} {f : ε → γ} {a : α} :
    x.mapError f = .ok a ↔ x = .ok a := by
  cases x <;> simp [Except.mapError]

theorem mapError_eq_error_iff {x : Except ε α} {f : ε → γ} {e : γ} :
    x.mapError f = .error e ↔ ∃ e', x = .error e' ∧ f e' = e := by
  cases x <;> simp [Except.mapError]

theorem mapM_eq_ok_iff {f : α → Except ε β} {xs : List α} {ys : List β} :
    xs.mapM f = .ok ys ↔ List.Forall₂ (fun x y => f x = .ok y) xs ys := by
  induction xs generalizing ys with
  | nil =>
    rw [List.mapM_nil, List.forall₂_nil_left_iff]
    exact ⟨fun h => (Except.ok.inj h).symm, fun h => h ▸ rfl⟩
  | cons x xs ih =>
    simp only [List.mapM_cons, List.forall₂_cons_left_iff, bind_eq_ok_iff, ih]
    constructor
    · rintro ⟨y, hy, zs, hzs, h⟩
      exact ⟨y, zs, hy, hzs, (Except.ok.inj h).symm⟩
    · rintro ⟨y, zs, hy, hzs, rfl⟩
      exact ⟨y, hy, zs, hzs, rfl⟩

theorem mapM_congr {f g : α → Except ε β} {xs : List α} (h : ∀ x ∈ xs, f x = g x) :
    xs.mapM f = xs.mapM g := by
  induction xs with
  | nil => rfl
  | cons x xs ih =>
    obtain ⟨hx, hxs⟩ := List.forall_mem_cons.mp h
    rw [List.mapM_cons, List.mapM_cons, hx, ih hxs]

/-- What is done to each result may be done to the list of the results. -/
theorem mapM_map_eq (f : α → Except ε β) (g : β → γ) (xs : List α) :
    (xs.mapM fun x => g <$> f x) = List.map g <$> xs.mapM f := by
  induction xs with
  | nil => rfl
  | cons x xs ih =>
    rw [List.mapM_cons, List.mapM_cons, ih]
    cases f x with
    | error e => rfl
    | ok y => cases xs.mapM f <;> rfl

theorem exists_forall₂_iff {R : α → β → Prop} {xs : List α} :
    (∃ ys, List.Forall₂ R xs ys) ↔ ∀ x ∈ xs, ∃ y, R x y := by
  induction xs with
  | nil => simp
  | cons x xs ih =>
    rw [List.forall_mem_cons, ← ih]
    constructor
    · rintro ⟨_, h⟩
      obtain ⟨y, ys, hy, hys, -⟩ := List.forall₂_cons_left_iff.mp h
      exact ⟨⟨y, hy⟩, ys, hys⟩
    · rintro ⟨⟨y, hy⟩, ys, hys⟩
      exact ⟨y :: ys, .cons hy hys⟩

theorem exists_mapM_eq_ok_iff {f : α → Except ε β} {xs : List α} :
    (∃ ys, xs.mapM f = .ok ys) ↔ ∀ x ∈ xs, ∃ y, f x = .ok y := by
  simp only [mapM_eq_ok_iff, exists_forall₂_iff]

/-- Where each step on an image has the image of a result, so has a walk over images. -/
theorem mapM_map_eq_ok_iff {δ : Type} {f : α → Except ε β} {f' : γ → Except ε δ} {g : α → γ}
    {k : β → δ} {xs : List α} {ys' : List δ}
    (h : ∀ x ∈ xs, ∀ y', f' (g x) = .ok y' ↔ ∃ y, f x = .ok y ∧ y' = k y) :
    (xs.map g).mapM f' = .ok ys' ↔ ∃ ys, xs.mapM f = .ok ys ∧ ys' = ys.map k := by
  simp only [mapM_eq_ok_iff, List.forall₂_map_left_iff]
  induction xs generalizing ys' with
  | nil => simp [List.forall₂_nil_left_iff]
  | cons x xs ih =>
    obtain ⟨hx, hxs⟩ := List.forall_mem_cons.mp h
    simp only [List.forall₂_cons_left_iff, hx, ih hxs]
    constructor
    · rintro ⟨_, _, ⟨y, hy, rfl⟩, ⟨ys, hys, rfl⟩, rfl⟩
      exact ⟨y :: ys, ⟨y, ys, hy, hys, rfl⟩, rfl⟩
    · rintro ⟨_, ⟨y, ys, hy, hys, rfl⟩, rfl⟩
      exact ⟨_, _, ⟨y, hy, rfl⟩, ⟨ys, hys, rfl⟩, rfl⟩

theorem mapM_map_congr {f : α → Except ε β} {f' : γ → Except ε β} {g : α → γ} {xs : List α}
    {ys : List β} (h : ∀ x ∈ xs, ∀ y, f' (g x) = .ok y ↔ f x = .ok y) :
    (xs.map g).mapM f' = .ok ys ↔ xs.mapM f = .ok ys := by
  rw [mapM_map_eq_ok_iff (k := id) fun x hx y => by simpa using h x hx y]
  simp

/-- Where each step keeps a view, a walk keeps the list of the views. -/
theorem map_eq_of_forall₂ {R : α → β → Prop} {v : α → γ} {w : β → γ} {xs : List α} {ys : List β}
    (h : List.Forall₂ R xs ys) (hv : ∀ x y, R x y → w y = v x) : ys.map w = xs.map v := by
  induction h with
  | nil => rfl
  | cons hxy _ ih => rw [List.map_cons, List.map_cons, hv _ _ hxy, ih]

theorem exists_of_mem_forall₂ {R : α → β → Prop} {xs : List α} {ys : List β}
    (h : List.Forall₂ R xs ys) {y : β} (hy : y ∈ ys) : ∃ x ∈ xs, R x y := by
  obtain ⟨i, hi, rfl⟩ := List.getElem_of_mem hy
  have hi' : i < xs.length := h.length_eq ▸ hi
  exact ⟨xs[i], List.getElem_mem hi', h.get hi' hi⟩

theorem exists_mem_of_forall₂ {R : α → β → Prop} {xs : List α} {ys : List β}
    (h : List.Forall₂ R xs ys) {x : α} (hx : x ∈ xs) : ∃ y ∈ ys, R x y :=
  exists_of_mem_forall₂ h.flip hx

theorem forall₂_imp_of_mem {R S : α → β → Prop} {xs : List α} {ys : List β}
    (h : List.Forall₂ R xs ys) (hS : ∀ y ∈ ys, ∀ x, R x y → S x y) : List.Forall₂ S xs ys := by
  induction h with
  | nil => exact .nil
  | cons hxy _ ih =>
    obtain ⟨hy, hys⟩ := List.forall_mem_cons.mp hS
    exact .cons (hy _ hxy) (ih hys)

/-- What is kept by a filter, and what is made of it. -/
theorem forall₂_filterMap {f : α → Option β} {p : α → Bool} (h : ∀ x, p x = (f x).isSome)
    (xs : List α) : List.Forall₂ (fun x y => f x = some y) (xs.filter p) (xs.filterMap f) := by
  induction xs with
  | nil => exact .nil
  | cons x xs ih =>
    rw [List.filter_cons, List.filterMap_cons, h]
    cases hx : f x with
    | none => exact ih
    | some y => exact .cons hx ih

/-- Lists that are related to one list are related to each other. -/
theorem forall₂_of_common {R : α → γ → Prop} {S : β → γ → Prop} {xs : List α} {ys : List β}
    {zs : List γ} (hx : List.Forall₂ R xs zs) (hy : List.Forall₂ S ys zs) :
    List.Forall₂ (fun x y => ∃ z, R x z ∧ S y z) xs ys := by
  induction hx generalizing ys with
  | nil =>
    cases hy
    exact .nil
  | cons hxz _ ih =>
    cases hy with
    | cons hyz hy => exact .cons ⟨_, hxz, hyz⟩ (ih hy)

/-- Lists that are related by way of a third one. -/
theorem forall₂_comp_iff {R : α → β → Prop} {S : β → γ → Prop} {xs : List α} {zs : List γ} :
    List.Forall₂ (fun x z => ∃ y, R x y ∧ S y z) xs zs ↔
      ∃ ys, List.Forall₂ R xs ys ∧ List.Forall₂ S ys zs := by
  constructor
  · intro h
    induction h with
    | nil => exact ⟨[], .nil, .nil⟩
    | cons hxz _ ih =>
      obtain ⟨y, hxy, hyz⟩ := hxz
      obtain ⟨ys, hx, hz⟩ := ih
      exact ⟨y :: ys, .cons hxy hx, .cons hyz hz⟩
  · rintro ⟨ys, hx, hz⟩
    exact (forall₂_of_common hx hz.flip).imp fun _ _ h => h

/-- The first member of a list that has a property. -/
inductive IsFirst (p : α → Prop) : List α → α → Prop
  | head {x : α} {xs : List α} : p x → IsFirst p (x :: xs) x
  | tail {x y : α} {xs : List α} : ¬ p x → IsFirst p xs y → IsFirst p (x :: xs) y

namespace IsFirst

variable {p : α → Prop} {xs ys : List α} {x y : α}

theorem cons_iff : IsFirst p (x :: xs) y ↔ p x ∧ y = x ∨ ¬ p x ∧ IsFirst p xs y := by
  constructor
  · rintro (h | ⟨h, hy⟩)
    · exact .inl ⟨h, rfl⟩
    · exact .inr ⟨h, hy⟩
  · rintro (⟨h, rfl⟩ | ⟨h, hy⟩)
    · exact .head h
    · exact .tail h hy

theorem not_nil : ¬ IsFirst p [] y := nofun

theorem mem (h : IsFirst p xs y) : y ∈ xs ∧ p y := by
  induction h with
  | head hp => exact ⟨List.mem_cons_self, hp⟩
  | tail _ _ ih => exact ⟨List.mem_cons_of_mem _ ih.1, ih.2⟩

theorem exists_iff : (∃ y, IsFirst p xs y) ↔ ∃ y ∈ xs, p y := by
  induction xs with
  | nil => simp [not_nil]
  | cons x xs ih =>
    by_cases h : p x <;> simp [cons_iff, h, ih]

theorem append_iff :
    IsFirst p (xs ++ ys) y ↔ IsFirst p xs y ∨ (∀ x ∈ xs, ¬ p x) ∧ IsFirst p ys y := by
  induction xs with
  | nil => simp [not_nil]
  | cons x xs ih =>
    by_cases h : p x <;> simp [cons_iff, h, ih]

theorem map_iff {p : β → Prop} {f : α → β} {y : β} :
    IsFirst p (xs.map f) y ↔ ∃ x, IsFirst (fun x => p (f x)) xs x ∧ f x = y := by
  induction xs with
  | nil => simp [not_nil]
  | cons x xs ih =>
    by_cases h : p (f x) <;> simp [cons_iff, h, ih, eq_comm]

theorem congr {q : α → Prop} (h : ∀ x ∈ xs, p x ↔ q x) : IsFirst p xs y ↔ IsFirst q xs y := by
  induction xs with
  | nil => simp [not_nil]
  | cons x xs ih =>
    obtain ⟨hx, hxs⟩ := List.forall_mem_cons.mp h
    simp only [cons_iff, hx, ih hxs]

end IsFirst

/-- A walk fails as the first of its steps that does. -/
theorem mapM_eq_error_iff {f : α → Except ε β} {xs : List α} {e : ε} :
    xs.mapM f = .error e ↔ ∃ x, IsFirst (fun x => ∃ e, f x = .error e) xs x ∧ f x = .error e := by
  induction xs with
  | nil => exact ⟨nofun, fun ⟨_, h, _⟩ => absurd h IsFirst.not_nil⟩
  | cons x xs ih =>
    rw [List.mapM_cons]
    cases hx : f x with
    | error e' =>
      change Except.error e' = .error e ↔ _
      simp [IsFirst.cons_iff, hx, eq_comm]
    | ok y =>
      have hrest : (xs.mapM f >>= fun ys => pure (y :: ys)) = .error e ↔ xs.mapM f = .error e := by
        cases xs.mapM f with
        | error e' => rfl
        | ok ys => exact ⟨nofun, nofun⟩
      refine hrest.trans (ih.trans (exists_congr fun z => and_congr_left fun _ => ?_))
      simp [IsFirst.cons_iff, hx]

/-- `x` fails at the first member of `zs` with the property `p`, with the fault that `g`
makes of it, and succeeds if there is none. -/
def FailsAtFirst (x : Except ε β) (p : α → Prop) (zs : List α) (g : α → ε) : Prop :=
  ∀ e, x = .error e ↔ ∃ z, IsFirst p zs z ∧ e = g z

namespace FailsAtFirst

variable {p : α → Prop} {g : α → ε} {x : Except ε β} {zs ws : List α}

theorem exists_ok_iff (h : FailsAtFirst x p zs g) : (∃ b, x = .ok b) ↔ ∀ z ∈ zs, ¬ p z := by
  rw [exists_eq_ok_iff]
  constructor
  · intro hok z hz hp
    obtain ⟨y, hy⟩ := IsFirst.exists_iff.mpr ⟨z, hz, hp⟩
    exact hok _ ((h _).mpr ⟨y, hy, rfl⟩)
  · intro hall e he
    obtain ⟨y, hy, -⟩ := (h e).mp he
    obtain ⟨z, hz, hp⟩ := IsFirst.exists_iff.mp ⟨y, hy⟩
    exact hall z hz hp

protected theorem pure (b : β) : FailsAtFirst (pure b : Except ε β) p [] g := fun _ =>
  ⟨nofun, fun ⟨_, h, _⟩ => absurd h IsFirst.not_nil⟩

/-- A single thing to fail at. -/
theorem singleton {z : α} (h : ∀ e, x = .error e ↔ p z ∧ e = g z) : FailsAtFirst x p [z] g := by
  intro e
  rw [h]
  simp only [IsFirst.cons_iff, IsFirst.not_nil, and_false, or_false]
  constructor
  · rintro ⟨hp, rfl⟩
    exact ⟨z, ⟨hp, rfl⟩, rfl⟩
  · rintro ⟨_, ⟨hp, rfl⟩, rfl⟩
    exact ⟨hp, rfl⟩

/-- One computation after another fails at the first of both their things. -/
theorem bind {f : β → Except ε γ} (h : FailsAtFirst x p zs g)
    (hf : ∀ b, FailsAtFirst (f b) p ws g) : FailsAtFirst (x >>= f) p (zs ++ ws) g := by
  intro e
  simp only [bind_eq_error_iff, IsFirst.append_iff, ← h.exists_ok_iff, or_and_right, exists_or]
  refine or_congr (h e) ⟨?_, ?_⟩
  · rintro ⟨b, hb, he⟩
    obtain ⟨z, hz, rfl⟩ := (hf b e).mp he
    exact ⟨z, ⟨⟨b, hb⟩, hz⟩, rfl⟩
  · rintro ⟨z, ⟨⟨b, hb⟩, hz⟩, rfl⟩
    exact ⟨b, hb, (hf b _).mpr ⟨z, hz, rfl⟩⟩

theorem bind_pure (h : FailsAtFirst x p zs g) (f : β → γ) :
    FailsAtFirst (x >>= fun b => Pure.pure (f b)) p zs g := by
  have hb := h.bind fun b => FailsAtFirst.pure (f b)
  rwa [List.append_nil] at hb

theorem mapM {f : γ → Except ε β} {ys : γ → List α} (h : ∀ c, FailsAtFirst (f c) p (ys c) g)
    (cs : List γ) : FailsAtFirst (cs.mapM f) p (cs.flatMap ys) g := by
  induction cs with
  | nil => exact .pure []
  | cons c cs ih =>
    rw [List.mapM_cons, List.flatMap_cons]
    exact (h c).bind fun b => ih.bind_pure fun bs => b :: bs

end FailsAtFirst

end Dbml

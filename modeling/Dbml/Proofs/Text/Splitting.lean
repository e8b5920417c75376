import Mathlib.Data.List.Basic

/-!
# Taking texts apart

Two texts made in the same way, of parts that tell where they end, are equal only if
their parts are. A part may end where a character comes that is none of its own
(`append_inj_of_stop`); texts after separators end there too (`separated_inj`). Where
every part tells by itself where it ends, so does a row of them (`flatMap_inj`).
-/

namespace Dbml.Text

variable {α β : Type}

/-- Nothing is left, or what is left does not start with a `p`. -/
def Stops (p : α → Prop) (rest : List α) : Prop := ∀ a ∈ rest.head?, ¬ p a

@[simp] theorem stops_nil {p : α → Prop} : Stops p [] := nofun

@[simp] theorem stops_cons {p : α → Prop} {a : α} {rest : List α} :
    Stops p (a :: rest) ↔ ¬ p a := by
  simp [Stops]

theorem append_inj_of_stop {p : α → Prop} {xs ys r s : List α} (hx : ∀ a ∈ xs, p a)
    (hy : ∀ a ∈ ys, p a) (hr : Stops p r) (hs : Stops p s) (h : xs ++ r = ys ++ s) :
    xs = ys ∧ r = s := by
  induction xs generalizing ys with
  | nil =>
    cases ys with
    | nil => exact ⟨rfl, h⟩
    | cons y ys =>
      subst h
      exact absurd (hy y List.mem_cons_self) (stops_cons.mp hr)
  | cons x xs ih =>
    cases ys with
    | nil =>
      subst h
      exact absurd (hx x List.mem_cons_self) (stops_cons.mp hs)
    | cons y ys =>
      obtain ⟨rfl, htail⟩ := List.cons.inj h
      obtain ⟨rfl, rfl⟩ := ih (fun a ha => hx a (List.mem_cons_of_mem _ ha))
        (fun a ha => hy a (List.mem_cons_of_mem _ ha)) htail
      exact ⟨rfl, rfl⟩

/-- An ending that may be missing is told by its last character from what stands before it. -/
theorem append_ending_iff {c : α} {xs ys e e' : List α} (hx : xs.getLast? ≠ some c)
    (hy : ys.getLast? ≠ some c) (he : e ≠ [] → e.getLast? = some c)
    (he' : e' ≠ [] → e'.getLast? = some c) (h : xs ++ e = ys ++ e') : e = [] ↔ e' = [] := by
  have hmissing {zs ws f : List α} (hz : zs.getLast? ≠ some c) (hf : f ≠ [] → f.getLast? = some c)
      (h : zs = ws ++ f) : f = [] := by
    by_contra hne
    rw [h, List.getLast?_append, hf hne] at hz
    exact hz rfl
  constructor
  · rintro rfl
    exact hmissing hx he' (by rw [← h, List.append_nil])
  · rintro rfl
    exact hmissing hy he (by rw [h, List.append_nil])

theorem map_inj_of_mem {f : α → β} {xs ys : List α} (hf : ∀ x ∈ xs, ∀ y ∈ ys, f x = f y → x = y)
    (h : xs.map f = ys.map f) : xs = ys := by
  induction xs generalizing ys with
  | nil => exact (List.map_eq_nil_iff.mp h.symm).symm
  | cons x xs ih =>
    cases ys with
    | nil => cases h
    | cons y ys =>
      obtain ⟨hxy, h⟩ := List.cons.inj h
      rw [hf x List.mem_cons_self y List.mem_cons_self hxy, ih (fun a ha b hb =>
        hf a (List.mem_cons_of_mem _ ha) b (List.mem_cons_of_mem _ hb)) h]

/-- Parts that tell where they end, whatever follows them. -/
theorem flatMap_inj {f : α → List β} {xs ys : List α} (hne : ∀ x, f x ≠ [])
    (hf : ∀ x ∈ xs, ∀ y ∈ ys, ∀ r s, f x ++ r = f y ++ s → x = y)
    (h : xs.flatMap f = ys.flatMap f) : xs = ys := by
  induction xs generalizing ys with
  | nil =>
    cases ys with
    | nil => rfl
    | cons y ys => exact absurd (List.append_eq_nil_iff.mp h.symm).1 (hne y)
  | cons x xs ih =>
    cases ys with
    | nil => exact absurd (List.append_eq_nil_iff.mp h).1 (hne x)
    | cons y ys =>
      obtain rfl := hf x List.mem_cons_self y List.mem_cons_self _ _ h
      rw [ih (fun a ha b hb => hf a (List.mem_cons_of_mem _ ha) b (List.mem_cons_of_mem _ hb))
        (List.append_cancel_left h)]

/-! ## Separators -/

/-- Texts, each after a separator. -/
def separated (separator : List Char) (xs : List String) : List Char :=
  xs.flatMap fun x => separator ++ x.toList

@[simp] theorem separated_nil (separator : List Char) : separated separator [] = [] := rfl

@[simp] theorem separated_cons (separator : List Char) (x : String) (xs : List String) :
    separated separator (x :: xs) = separator ++ x.toList ++ separated separator xs := rfl

@[simp] theorem separated_append (separator : List Char) (xs ys : List String) :
    separated separator (xs ++ ys) = separated separator xs ++ separated separator ys :=
  List.flatMap_append

/-- The first of several texts stands before the first separator. -/
theorem toList_intercalate_cons (separator x : String) (xs : List String) :
    (separator.intercalate (x :: xs)).toList = x.toList ++ separated separator.toList xs := by
  rw [String.toList_intercalate]
  induction xs generalizing x with
  | nil => simp
  | cons y ys ih =>
    rw [List.map_cons, List.map_cons, List.intercalate_cons_cons, ← List.map_cons, ih y,
      separated_cons, List.append_assoc, List.append_assoc]

/-- Texts of `p`s end at a separator that starts with another character. -/
theorem separated_inj {p : Char → Prop} {c : Char} (hc : ¬ p c) {separator : List Char}
    {xs ys : List String} {r s : List Char} (hx : ∀ x ∈ xs, ∀ a ∈ x.toList, p a)
    (hy : ∀ y ∈ ys, ∀ a ∈ y.toList, p a) (hr : Stops (fun a => p a ∨ a = c) r)
    (hs : Stops (fun a => p a ∨ a = c) s)
    (h : separated (c :: separator) xs ++ r = separated (c :: separator) ys ++ s) :
    xs = ys ∧ r = s := by
  have hstop {t : List Char} (ht : Stops (fun a => p a ∨ a = c) t) (zs : List String) :
      Stops p (separated (c :: separator) zs ++ t) := by
    cases zs with
    | nil => exact fun a ha hp => ht a ha (.inl hp)
    | cons z zs => simpa using hc
  induction xs generalizing ys with
  | nil =>
    cases ys with
    | nil => exact ⟨rfl, h⟩
    | cons y ys =>
      subst h
      exact absurd (.inr rfl) (hr c rfl)
  | cons x xs ih =>
    cases ys with
    | nil =>
      subst h
      exact absurd (.inr rfl) (hs c rfl)
    | cons y ys =>
      simp only [separated_cons, List.append_assoc, List.append_cancel_left_eq] at h
      obtain ⟨hxy, h⟩ := append_inj_of_stop (hx x List.mem_cons_self) (hy y List.mem_cons_self)
        (hstop hr xs) (hstop hs ys) h
      obtain ⟨rfl, rfl⟩ := ih (fun a ha => hx a (List.mem_cons_of_mem _ ha))
        (fun a ha => hy a (List.mem_cons_of_mem _ ha)) h
      exact ⟨by rw [String.toList_inj.mp hxy], rfl⟩

end Dbml.Text

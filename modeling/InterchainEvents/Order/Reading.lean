import Mathlib.Tactic.Use

/-!
# Comparison by readings

Values that read as elements of an ordered type, if they read as anything, are compared by what
they read as: `Compares` says that a comparison does so and fails on values that read as nothing.
Such a comparison inherits the laws of the order.
-/

namespace Reading

variable {β α ε : Type} [Ord α]

/-- A comparison goes by the readings of the values compared, of which each has at most one. -/
structure Compares (reads : β → α → Prop) (cmp : β → β → Except ε Ordering) : Prop where
  unique : ∀ {a x y}, reads a x → reads a y → x = y
  ok_iff : ∀ {a b o}, cmp a b = .ok o ↔ ∃ x y, reads a x ∧ reads b y ∧ compare x y = o

variable {reads : β → α → Prop} {cmp : β → β → Except ε Ordering}

/-- The comparison of two values succeeds if and only if both read as something. -/
theorem Compares.isOk_iff (h : Compares reads cmp) (a b : β) :
  (∃ o, cmp a b = .ok o) ↔ (∃ x, reads a x) ∧ ∃ y, reads b y
  := by
  constructor
  · rintro ⟨o, ho⟩
    obtain ⟨x, y, hx, hy, -⟩ := h.ok_iff.mp ho
    exact ⟨⟨x, hx⟩, ⟨y, hy⟩⟩
  · rintro ⟨⟨x, hx⟩, ⟨y, hy⟩⟩
    use compare x y
    apply h.ok_iff.mpr ⟨x, y, hx, hy, rfl⟩

/-- The comparison of two values that read as something is that of the readings. -/
theorem Compares.eq_compare (h : Compares reads cmp) {a b : β} {x y : α} (hx : reads a x)
    (hy : reads b y) :
  cmp a b = .ok (compare x y)
  := h.ok_iff.mpr ⟨x, y, hx, hy, rfl⟩

/-- With the sides exchanged the result is reversed. -/
theorem Compares.swap [Std.OrientedOrd α] (h : Compares reads cmp) {a b : β} {o : Ordering}
    (ho : cmp a b = .ok o) :
  cmp b a = .ok o.swap
  := by
  obtain ⟨x, y, hx, hy, rfl⟩ := h.ok_iff.mp ho
  rw [h.eq_compare hy hx, ← Std.OrientedOrd.eq_swap]

/-- Of three values in order, the first and the last are in order, and the last is equal to the
first only if all three are equal. -/
theorem Compares.trans [Std.TransOrd α] (h : Compares reads cmp) {a b c : β} {o o' : Ordering}
    (ho : cmp a b = .ok o) (ho' : cmp b c = .ok o') (hle : o ≠ .gt) (hle' : o' ≠ .gt) :
  cmp a c = .ok (o.then o')
  := by
  obtain ⟨x, y, hx, hy, rfl⟩ := h.ok_iff.mp ho
  obtain ⟨y', z, hy', hz, rfl⟩ := h.ok_iff.mp ho'
  obtain rfl := h.unique hy hy'
  rw [h.eq_compare hx hz]
  cases hxy : compare x y with
  | lt =>
      have hyz : (compare y z).isLE := by
        rwa [← Ordering.ne_gt_iff_isLE]
      rw [Std.TransCmp.lt_of_lt_of_isLE hxy hyz]
      rfl
  | eq =>
      rw [Std.TransCmp.congr_left hxy]
      rfl
  | gt => contradiction

/-- No value is above one of two equal values and below the other. -/
theorem Compares.not_between [Std.TransOrd α] (h : Compares reads cmp) {a t t' : β}
    (hequal : cmp t t' = .ok .eq) :
  ¬ (cmp a t = .ok .gt ∧ cmp a t' = .ok .lt)
  := by
  rintro ⟨hgt, hlt⟩
  have hlt' := h.trans (h.swap hgt) hlt (by decide) (by decide)
  rw [hequal] at hlt'
  cases hlt'

end Reading

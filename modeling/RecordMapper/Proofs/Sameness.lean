import RecordMapper.Record.Basic
import RecordMapper.Schema.Tree

/-!
# Sameness of values

Doubles of both zeros are the same number, so atoms, scalars and entries are compared by `same`
and not by equality. On each of these types it is an equivalence; `same_refl` stands beside each
definition, symmetry and transitivity stand here.
-/

namespace RecordMapper.Proofs.Sameness

/-! ## Numbers -/

theorem double_same_iff (x y : Binary64) :
    x.same y = true ↔ x.magnitude = y.magnitude ∧ (x.negative = y.negative ∨ x.magnitude = 0) := by
  simp [Binary64.same]

theorem double_same_symm {x y : Binary64} (same : x.same y = true) : y.same x = true := by
  rw [double_same_iff] at same ⊢
  obtain ⟨magnitude, sign⟩ := same
  exact ⟨magnitude.symm, sign.imp Eq.symm fun zero => magnitude ▸ zero⟩

theorem double_same_trans {x y z : Binary64} (first : x.same y = true) (second : y.same z = true) :
    x.same z = true := by
  rw [double_same_iff] at first second ⊢
  refine ⟨first.1.trans second.1, ?_⟩
  rcases first.2 with sign | zero
  · rcases second.2 with sign' | zero
    · exact .inl (sign.trans sign')
    · exact .inr (first.1.trans zero)
  · exact .inr zero

theorem number_same_symm {m n : Number} (same : m.same n = true) : n.same m = true := by
  cases m with
  | int a =>
    cases n with
    | int b =>
      rw [Number.same, beq_iff_eq] at same ⊢
      exact same.symm
    | float y => simp [Number.same] at same
  | float x =>
    cases n with
    | int b => simp [Number.same] at same
    | float y => exact double_same_symm same

theorem number_same_trans {k m n : Number} (first : k.same m = true) (second : m.same n = true) :
    k.same n = true := by
  cases k <;> cases m <;> cases n <;> simp only [Number.same, Bool.false_eq_true] at first second ⊢
  · simp_all
  · exact double_same_trans first second

/-! ## Atoms, scalars and entries -/

theorem atom_same_symm {a b : Atom} (same : a.same b = true) : b.same a = true := by
  cases a <;> cases b <;> simp only [Atom.same, Bool.false_eq_true, beq_iff_eq] at same ⊢
  · exact same.symm
  · exact number_same_symm same
  · exact same.symm

theorem atom_same_trans {a b c : Atom} (first : a.same b = true) (second : b.same c = true) :
    a.same c = true := by
  cases a <;> cases b <;> cases c <;> simp only [Atom.same, Bool.false_eq_true, beq_iff_eq] at first second ⊢
  · exact first.trans second
  · exact number_same_trans first second
  · exact first.trans second

theorem scalar_same_refl (s : Scalar) : s.same s = true := by
  cases s with
  | null => rfl
  | atom a => exact a.same_refl

theorem scalar_same_symm {s t : Scalar} (same : s.same t = true) : t.same s = true := by
  cases s <;> cases t <;> simp only [Scalar.same, Bool.false_eq_true] at same ⊢
  exact atom_same_symm same

theorem scalar_same_trans {s t u : Scalar} (first : s.same t = true) (second : t.same u = true) :
    s.same u = true := by
  cases s <;> cases t <;> cases u <;> simp only [Scalar.same, Bool.false_eq_true] at first second ⊢
  exact atom_same_trans first second

theorem entry_same_iff (x y : Entry) : x.same y = true ↔ x.key = y.key ∧ x.value.same y.value = true := by
  simp [Entry.same]

theorem entry_same_symm {x y : Entry} (same : x.same y = true) : y.same x = true := by
  rw [entry_same_iff] at same ⊢
  exact ⟨same.1.symm, atom_same_symm same.2⟩

theorem entry_same_trans {x y z : Entry} (first : x.same y = true) (second : y.same z = true) :
    x.same z = true := by
  rw [entry_same_iff] at first second ⊢
  exact ⟨first.1.trans second.1, atom_same_trans first.2 second.2⟩

end RecordMapper.Proofs.Sameness

/-!
# Atoms

An atom is a type that is not a union of smaller ones: one of five built-in
atoms, or the nominal type of the objects of one declared class, known by the
symbol of the class name.

Atoms are ordered: the built-in ones come first, in the order of their
constructors, then the object atoms by symbol, which is the order in which their
names were first interned. `Atom.rank` puts this order into the natural numbers,
and `rank_injective` makes it a strict total order.
-/

namespace BoxedTypes

/-- The handle of an interned class name. -/
structure Symbol where
  index : UInt32
  deriving DecidableEq, Hashable, Repr

/-- An indivisible member of a union. -/
inductive Atom where
  | number
  | string
  | boolean
  | null
  | undefined
  | object (symbol : Symbol)
  deriving DecidableEq, Hashable, Repr

namespace Atom

/-- The place of an atom in the order of atoms. -/
def rank : Atom → Nat
  | .number => 0
  | .string => 1
  | .boolean => 2
  | .null => 3
  | .undefined => 4
  | .object s => 5 + s.index.toNat

theorem rank_injective {a b : Atom} (h : a.rank = b.rank) : a = b := by
  cases a <;> cases b <;> simp only [rank] at h <;> try omega
  all_goals try rfl
  rename_i s t
  cases s; cases t
  simp only [Nat.add_left_cancel_iff] at h
  rw [UInt32.toNat_inj.mp h]

instance : LT Atom := ⟨fun a b => a.rank < b.rank⟩

instance (a b : Atom) : Decidable (a < b) := inferInstanceAs (Decidable (a.rank < b.rank))

theorem lt_irrefl (a : Atom) : ¬ a < a := Nat.lt_irrefl _

theorem lt_trans {a b c : Atom} (hab : a < b) (hbc : b < c) : a < c := Nat.lt_trans hab hbc

theorem lt_asymm {a b : Atom} (hab : a < b) : ¬ b < a := Nat.lt_asymm hab

theorem eq_of_not_lt {a b : Atom} (hab : ¬ a < b) (hba : ¬ b < a) : a = b :=
  rank_injective (Nat.le_antisymm (Nat.not_lt.mp hba) (Nat.not_lt.mp hab))

end Atom

end BoxedTypes

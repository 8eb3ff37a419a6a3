import BoxedTypes.Proofs.FreezeShapes
import BoxedTypes.Proofs.OwnSymbols
import Mathlib.Data.Finset.Basic
import Mathlib.Data.Finset.Dedup

/-!
# The meaning of a type

Handles and symbols are numbers that depend on what was asked of a lattice
before. The meaning of a type has neither in it: the type is unknown, or it is a
set of atoms in which a class stands by its name. A type whose symbols all have
names has a meaning (`Named.exists_meaning`).

Meanings form a lattice of their own, with composites as the shapes have them,
and going from shapes to meanings respects all of it. Joins and composites go
over whatever the names are. The order needs more: two symbols must not have one
name, or a type could seem to be below another for the wrong class. That is what
coherent names give (`isBelow_iff_of_meaning`).
-/

namespace BoxedTypes

/-- An atom by its name. -/
inductive NamedAtom where
  | number
  | string
  | boolean
  | null
  | undefined
  | object (name : String)
  deriving DecidableEq, Repr

/-- The atom of a scalar kind. -/
def NamedAtom.ofScalar : Scalar → NamedAtom
  | .number => .number
  | .string => .string
  | .boolean => .boolean

/-- The atom with its name, if it has one. -/
def Atom.named? (names : Names) : Atom → Option NamedAtom
  | .number => some .number
  | .string => some .string
  | .boolean => some .boolean
  | .null => some .null
  | .undefined => some .undefined
  | .object symbol => (names.get? symbol.index).map .object

/-- What a type says of its values. -/
inductive Meaning where
  | unknown
  | union (atoms : Finset NamedAtom)
  deriving DecidableEq

namespace Meaning

/-- The least meaning above two meanings. -/
def join : Meaning → Meaning → Meaning
  | .union as, .union bs => .union (as ∪ bs)
  | _, _ => .unknown

/-- The values of the first type are values of the second. -/
def IsBelow : Meaning → Meaning → Prop
  | _, .unknown => True
  | .unknown, .union _ => False
  | .union as, .union bs => as ⊆ bs

instance (m n : Meaning) : Decidable (m.IsBelow n) :=
  match m, n with
  | .unknown, .unknown => isTrue trivial
  | .union _, .unknown => isTrue trivial
  | .unknown, .union _ => isFalse id
  | .union as, .union bs => inferInstanceAs (Decidable (as ⊆ bs))

/-- The scalars of a kind and the values of its boxed type. -/
def composite (k : Scalar) : Meaning → Meaning
  | .unknown => .union {.ofScalar k}
  | .union as => .union ({.ofScalar k} ∪ as)

end Meaning

/-- The atoms of a set that have names, by their names. -/
def AtomSet.named (names : Names) (as : AtomSet) : Finset NamedAtom :=
  (as.toList.filterMap (·.named? names)).toFinset

/-- The meaning of a shape, if each of its atoms has a name. -/
def Shape.meaning? (names : Names) : Shape → Option Meaning
  | .unknown => some .unknown
  | .union as =>
    if ∀ a ∈ as.toList, (a.named? names).isSome then some (.union (as.named names)) else none

variable {names : Names}

/-! ## Atoms -/

theorem Atom.isSome_named?_iff {a : Atom} :
    (a.named? names).isSome ↔ ∀ symbol, a = .object symbol → names.Knows symbol := by
  cases a with
  | number | string | boolean | null | undefined => exact iff_of_true rfl (nofun)
  | object symbol =>
      rw [named?, Option.isSome_map]
      constructor
      · intro h symbol' heq
        cases heq
        exact h
      · intro h
        exact h symbol rfl

/-- A name belongs to one atom. -/
theorem Atom.eq_of_named? (hnames : names.Coherent) {a b : Atom} {n : NamedAtom}
    (ha : a.named? names = some n) (hb : b.named? names = some n) : a = b := by
  cases a <;> cases b <;> simp only [named?, Option.map_eq_some_iff] at ha hb
  case object.object =>
    obtain ⟨name, ha, rfl⟩ := ha
    obtain ⟨_, hb, ⟨⟩⟩ := hb
    exact congrArg (object ⟨·⟩) (hnames.get?_inj ha hb)
  all_goals grind

theorem AtomSet.mem_named {as : AtomSet} {n : NamedAtom} :
    n ∈ as.named names ↔ ∃ a ∈ as, a.named? names = some n := by
  rw [named, List.mem_toFinset, List.mem_filterMap]
  rfl

theorem AtomSet.named_union (as bs : AtomSet) :
    (as ∪ bs).named names = as.named names ∪ bs.named names := by
  ext n
  simp only [Finset.mem_union, mem_named, mem_union, or_and_right, exists_or]

theorem AtomSet.named_ofScalar (k : Scalar) :
    ({Atom.ofScalar k} : AtomSet).named names = {NamedAtom.ofScalar k} := by
  ext n
  simp only [mem_named, mem_singleton, exists_eq_left, Finset.mem_singleton]
  cases k <;> simp [Atom.ofScalar, NamedAtom.ofScalar, Atom.named?, eq_comm]

/-! ## Shapes -/

namespace Shape

variable {s t : Shape} {m n : Meaning}

theorem meaning?_union {as : AtomSet} (h : ∀ a ∈ as, (a.named? names).isSome) :
    (union as).meaning? names = some (.union (as.named names)) := if_pos h

theorem isSome_named?_of_meaning? {as : AtomSet} (h : (union as).meaning? names = some m) :
    ∀ a ∈ as, (a.named? names).isSome := by
  rw [meaning?] at h
  split at h
  · next hall => exact hall
  · cases h

theorem exists_meaning (h : ∀ symbol, s.Mentions symbol → names.Knows symbol) :
    ∃ m, s.meaning? names = some m := by
  cases s with
  | unknown => exact ⟨_, rfl⟩
  | union as =>
      refine ⟨_, meaning?_union fun a ha => Atom.isSome_named?_iff.mpr fun symbol hsymbol => ?_⟩
      exact h symbol ⟨as, rfl, hsymbol ▸ ha⟩

theorem meaning?_join (hs : s.meaning? names = some m) (ht : t.meaning? names = some n) :
    (s.join t).meaning? names = some (m.join n) := by
  cases s with
  | unknown =>
      cases hs
      rw [unknown_join]
      rfl
  | union as =>
      have has := isSome_named?_of_meaning? hs
      cases (meaning?_union has).symm.trans hs
      cases t with
      | unknown =>
          cases ht
          rfl
      | union bs =>
          have hbs := isSome_named?_of_meaning? ht
          cases (meaning?_union hbs).symm.trans ht
          rw [join, meaning?_union fun a ha => (AtomSet.mem_union.mp ha).elim (has a) (hbs a),
            AtomSet.named_union]
          rfl

theorem meaning?_ofScalar (k : Scalar) :
    (atom (.ofScalar k)).meaning? names = some (.union {.ofScalar k}) := by
  rw [← @AtomSet.named_ofScalar names]
  refine meaning?_union fun a ha => ?_
  rw [AtomSet.mem_singleton.mp ha]
  cases k <;> rfl

theorem meaning?_composite (k : Scalar) (hs : s.meaning? names = some m) :
    (s.composite k).meaning? names = some (m.composite k) := by
  cases s with
  | unknown =>
      cases hs
      exact meaning?_ofScalar k
  | union as =>
      have hjoin := meaning?_join (meaning?_ofScalar k) hs
      cases (meaning?_union (isSome_named?_of_meaning? hs)).symm.trans hs
      exact hjoin

/-- With one symbol for each name, inclusion of atoms is inclusion of their
names. -/
theorem isBelow_iff_of_meaning (hnames : names.Coherent) (hs : s.meaning? names = some m)
    (ht : t.meaning? names = some n) : s.IsBelow t ↔ m.IsBelow n := by
  cases t with
  | unknown =>
      cases ht
      cases m <;> exact iff_of_true (isBelow_unknown s) trivial
  | union bs =>
      cases (meaning?_union (isSome_named?_of_meaning? ht)).symm.trans ht
      cases s with
      | unknown =>
          cases hs
          exact Iff.rfl
      | union as =>
          have has := isSome_named?_of_meaning? hs
          cases (meaning?_union has).symm.trans hs
          constructor
          · intro h x hx
            obtain ⟨a, ha, hax⟩ := AtomSet.mem_named.mp hx
            exact AtomSet.mem_named.mpr ⟨a, h a ha, hax⟩
          · intro h a ha
            obtain ⟨x, hax⟩ := Option.isSome_iff_exists.mp (has a ha)
            obtain ⟨b, hb, hbx⟩ := AtomSet.mem_named.mp (h (AtomSet.mem_named.mpr ⟨a, ha, hax⟩))
            exact Atom.eq_of_named? hnames hax hbx ▸ hb

end Shape

/-! ## Types of a lattice -/

namespace UnionTypes

/-- The meaning of a type of the lattice. -/
def meaning? (u : UnionTypes) (id : TypeId) : Option Meaning :=
  (u.shape? id).bind (·.meaning? u.names)

variable {u : UnionTypes} {a b : TypeId} {s : Shape} {m n : Meaning}

theorem meaning?_of_shape? (hs : u.shape? a = some s) : u.meaning? a = s.meaning? u.names := by
  rw [meaning?, hs, Option.bind_some]

theorem exists_shape_of_meaning? (h : u.meaning? a = some m) :
    ∃ s, u.shape? a = some s ∧ s.meaning? u.names = some m :=
  Option.bind_eq_some_iff.mp h

theorem Named.exists_meaning (hu : u.Named) (ha : u.Issued a) :
    ∃ m, u.meaning? a = some m := by
  obtain ⟨s, hs⟩ := issued_iff.mp ha
  rw [meaning?_of_shape? hs]
  exact Shape.exists_meaning fun symbol => hu.knows a s symbol hs

theorem Named.isBelow_eq_of_meaning (hu : u.Named) (ha : u.meaning? a = some m)
    (hb : u.meaning? b = some n) : u.isBelow a b = .ok (decide (m.IsBelow n)) := by
  obtain ⟨s, hs, hsm⟩ := exists_shape_of_meaning? ha
  obtain ⟨t, ht, htn⟩ := exists_shape_of_meaning? hb
  rw [isBelow_eq hs ht, decide_eq_decide.mpr (Shape.isBelow_iff_of_meaning hu.names hsm htn)]

/-- What a registry holds, by meaning: nothing but the meanings of the boxed
types enters into it. -/
structure Means (u : UnionTypes) (r : Registry TypeId) (meanings : PerScalar Meaning) :
    Prop where
  boxed : ∀ k, u.meaning? (r.boxed.get k) = some (meanings.get k)
  composites : ∀ k, u.meaning? (r.composites.get k) = some ((meanings.get k).composite k)
  numberOrString : u.meaning? r.numberOrString =
    some ((meanings.number.composite .number).join (meanings.string.composite .string))

theorem Named.exists_means (hu : u.Named) {r : Registry TypeId} {shapes : PerScalar Shape}
    (hr : u.Holds r shapes) : ∃ meanings, u.Means r meanings := by
  obtain ⟨meanings, hm⟩ := PerScalar.exists_get fun k =>
    Shape.exists_meaning fun symbol => hu.knows _ (shapes.get k) symbol (hr.boxed k)
  refine ⟨meanings, fun k => ?_, fun k => ?_, ?_⟩
  · rw [meaning?_of_shape? (hr.boxed k), hm k]
  · rw [meaning?_of_shape? (hr.composites k), Shape.meaning?_composite k (hm k)]
  · rw [meaning?_of_shape? hr.numberOrString]
    exact Shape.meaning?_join (Shape.meaning?_composite .number (hm .number))
      (Shape.meaning?_composite .string (hm .string))

end UnionTypes

end BoxedTypes

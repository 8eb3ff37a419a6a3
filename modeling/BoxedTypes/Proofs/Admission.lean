import BoxedTypes.Proofs.FreezeShapes

/-!
# What a frozen registry admits

A registry answers whether a type fits a kind by one comparison of handles in a
lattice that may have grown since the registry was frozen. What the answer means
can be said with atoms alone: the type is known, and each of its atoms is the
atom of the kind or an atom of the boxed type. For number-or-string each atom
may fit either kind, so a type that mixes the two is admitted.

The freeze itself goes through for any boxed types that the lattice has issued,
in any combination. The only thing it can run out of is handles.
-/

namespace BoxedTypes.UnionTypes

/-- The type is a union with this atom in it. The unknown type has no atom that
is known. -/
def HasAtom (u : UnionTypes) (id : TypeId) (a : Atom) : Prop :=
  ∃ as, u.shape? id = some (.union as) ∧ a ∈ as

/-- The atom is the one of the kind or an atom of the boxed type of the kind. -/
def FitsKind (u : UnionTypes) (boxed : PerScalar TypeId) (k : Scalar) (a : Atom) : Prop :=
  a = .ofScalar k ∨ u.HasAtom (boxed.get k) a

variable {u v : UnionTypes}

theorem hasAtom_iff {id : TypeId} {a : Atom} {as : AtomSet}
    (h : u.shape? id = some (.union as)) : u.HasAtom id a ↔ a ∈ as := by
  constructor
  · rintro ⟨bs, hbs, ha⟩
    cases h.symm.trans hbs
    exact ha
  · intro ha
    exact ⟨as, h, ha⟩

/-- The composite of a kind is the union of the atoms that fit the kind. -/
theorem fitsKind_iff_mem {boxed : PerScalar TypeId} {k : Scalar} {s : Shape}
    (hs : u.shape? (boxed.get k) = some s) :
    ∃ as, s.composite k = .union as ∧ ∀ a, a ∈ as ↔ u.FitsKind boxed k a := by
  cases s with
  | unknown =>
      refine ⟨{Atom.ofScalar k}, rfl, fun a => ?_⟩
      rw [AtomSet.mem_singleton, FitsKind]
      constructor
      · exact Or.inl
      · rintro (h | ⟨as, has, -⟩)
        · exact h
        · cases hs.symm.trans has
  | union bs =>
      refine ⟨{Atom.ofScalar k} ∪ bs, rfl, fun a => ?_⟩
      rw [AtomSet.mem_union, AtomSet.mem_singleton, FitsKind, hasAtom_iff hs]

/-- To be below a union is to be known and to have no other atoms. -/
theorem Coherent.isBelow_union_spec (hu : u.Coherent) {ty c : TypeId} {bs : AtomSet}
    {P : Atom → Prop} (hty : u.Issued ty) (hc : u.shape? c = some (.union bs))
    (hP : ∀ a, a ∈ bs ↔ P a) :
    ∃ x, u.isBelow ty c = .ok x ∧
      (x = true ↔ ty ≠ .unknown ∧ ∀ a, u.HasAtom ty a → P a) := by
  obtain ⟨s, hs⟩ := issued_iff.mp hty
  refine ⟨_, isBelow_eq hs hc, ?_⟩
  rw [decide_eq_true_iff, Ne, hu.eq_unknown_iff hs]
  cases s with
  | unknown =>
      constructor
      · intro h
        exact absurd h (Shape.not_unknown_isBelow_union bs)
      · rintro ⟨h, -⟩
        exact absurd rfl h
  | union as =>
      rw [Shape.union_isBelow_union]
      constructor
      · intro h
        refine ⟨nofun, fun a ha => (hP a).mp (h a ?_)⟩
        exact (hasAtom_iff hs).mp ha
      · rintro ⟨-, h⟩ a ha
        exact (hP a).mpr (h a ((hasAtom_iff hs).mpr ha))

theorem Coherent.not_unknown_isBelow_union (hu : u.Coherent) {c : TypeId} {bs : AtomSet}
    (hc : u.shape? c = some (.union bs)) : u.isBelow .unknown c = .ok false := by
  rw [isBelow_eq hu.shape?_unknown hc]
  exact congrArg Except.ok (decide_eq_false (Shape.not_unknown_isBelow_union bs))

/-- What the tests of a registry say about the types of a lattice. -/
structure Judges (u : UnionTypes) (r : Registry TypeId) : Prop where
  admits : ∀ k ty, u.Issued ty → ∃ x, r.admits u k ty = .ok x ∧
    (x = true ↔ ty ≠ .unknown ∧ ∀ a, u.HasAtom ty a → u.FitsKind r.boxed k a)
  admitsNumberOrString : ∀ ty, u.Issued ty → ∃ x, r.admitsNumberOrString u ty = .ok x ∧
    (x = true ↔ ty ≠ .unknown ∧ ∀ a, u.HasAtom ty a →
      u.FitsKind r.boxed .number a ∨ u.FitsKind r.boxed .string a)
  composite_ne_unknown : ∀ k, u.Issued (r.composites.get k) ∧ r.composites.get k ≠ .unknown
  numberOrString_ne_unknown : u.Issued r.numberOrString ∧ r.numberOrString ≠ .unknown
  not_admits_unknown : ∀ k, r.admits u k .unknown = .ok false
  not_admitsNumberOrString_unknown : r.admitsNumberOrString u .unknown = .ok false

theorem Coherent.judges (hu : u.Coherent) {r : Registry TypeId} {shapes : PerScalar Shape}
    (hr : u.Holds r shapes) : u.Judges r := by
  have hkind : ∀ k, ∃ as, u.shape? (r.composites.get k) = some (.union as) ∧
      ∀ a, a ∈ as ↔ u.FitsKind r.boxed k a := by
    intro k
    obtain ⟨as, has, hmem⟩ := fitsKind_iff_mem (hr.boxed k)
    exact ⟨as, by rw [hr.composites k, has], hmem⟩
  have hboth : ∃ as, u.shape? r.numberOrString = some (.union as) ∧
      ∀ a, a ∈ as ↔ u.FitsKind r.boxed .number a ∨ u.FitsKind r.boxed .string a := by
    obtain ⟨ns, hns, hn⟩ := fitsKind_iff_mem (hr.boxed .number)
    obtain ⟨ss, hss, hs⟩ := fitsKind_iff_mem (hr.boxed .string)
    refine ⟨ns ∪ ss, ?_, fun a => ?_⟩
    · change shapes.number.composite .number = _ at hns
      change shapes.string.composite .string = _ at hss
      rw [hr.numberOrString, hns, hss]
      rfl
    · rw [AtomSet.mem_union, hn, hs]
  have hknown : ∀ {c : TypeId} {as : AtomSet}, u.shape? c = some (.union as) →
      u.Issued c ∧ c ≠ .unknown := by
    intro c as hc
    refine ⟨issued_iff.mpr ⟨_, hc⟩, fun h => ?_⟩
    cases (hu.eq_unknown_iff hc).mp h
  obtain ⟨bs, hbs, hmem⟩ := hboth
  refine ⟨fun k ty hty => ?_, fun ty hty => hu.isBelow_union_spec hty hbs hmem, fun k => ?_,
    hknown hbs, fun k => ?_, hu.not_unknown_isBelow_union hbs⟩
  all_goals obtain ⟨as, has, hfits⟩ := hkind k
  · exact hu.isBelow_union_spec hty has hfits
  · exact hknown has
  · exact hu.not_unknown_isBelow_union has

/-- Every draft filled with issued types is frozen, after any history, and the
registry judges the types of every later lattice by their atoms. -/
theorem freeze_judges (calls : List Call) (d : Draft TypeId) (boxed : PerScalar TypeId)
    (hd : ∀ k, d.slots.get k = some (boxed.get k))
    (hissued : ∀ k, (after calls new).Issued (boxed.get k))
    (hfit : (leftBehind (d.freeze (after calls new))).typeCount ≤ UInt32.size) :
    ∃ r v, d.freeze (after calls new) = .ok r v ∧ r.boxed = boxed ∧
      ∀ later, (after later v).Judges r := by
  have hu := coherent_after calls
  obtain ⟨n, hn⟩ := issued_iff.mp (hissued .number)
  obtain ⟨s, hs⟩ := issued_iff.mp (hissued .string)
  obtain ⟨b, hb⟩ := issued_iff.mp (hissued .boolean)
  have hshapes : ∀ k, (after calls new).shape? (boxed.get k) =
      some ((⟨n, s, b⟩ : PerScalar Shape).get k) := by
    intro k
    cases k with
    | number => exact hn
    | string => exact hs
    | boolean => exact hb
  obtain ⟨r, v, hfreeze, hboxed, hgrows, hholds⟩ := hu.freeze_ok hd hshapes hfit
  refine ⟨r, v, hfreeze, hboxed, fun later => ?_⟩
  have hlater := grows_after later v
  exact (hlater.coherent (hgrows.coherent hu)).judges (hlater.holds hholds)

/-- Boxed types in a mixed state: one unknown, one that has the atom of another
kind, one with no atoms at all. -/
theorem freeze_judges_mixed :
    let calls : List Call := [.object "String", .join (.ofScalar .number) ⟨5⟩]
    let d : Draft TypeId := ⟨⟨some .unknown, some ⟨6⟩, some .bottom⟩⟩
    let boxed : PerScalar TypeId := ⟨.unknown, ⟨6⟩, .bottom⟩
    (∀ k, d.slots.get k = some (boxed.get k)) ∧
      (∀ k, (after calls new).Issued (boxed.get k)) ∧
      (leftBehind (d.freeze (after calls new))).typeCount ≤ UInt32.size ∧
      ∃ r v, d.freeze (after calls new) = .ok r v ∧ r.boxed = boxed ∧
        ∀ later, (after later v).Judges r := by
  intro calls d boxed
  have hd : ∀ k, d.slots.get k = some (boxed.get k) := by
    intro k
    cases k <;> rfl
  have hissued : ∀ k, (after calls new).Issued (boxed.get k) := by
    intro k
    cases k with
    | number => exact (coherent_after calls).issued_unknown
    | string => cbv
    | boolean => exact (coherent_after calls).issued_bottom
  have hfit : (leftBehind (d.freeze (after calls new))).typeCount ≤ UInt32.size := by cbv
  exact ⟨hd, hissued, hfit, freeze_judges calls d boxed hd hissued hfit⟩

end BoxedTypes.UnionTypes

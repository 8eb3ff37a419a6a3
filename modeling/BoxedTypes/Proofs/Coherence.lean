import BoxedTypes.Proofs.Growth

/-!
# Coherent lattices

Every lattice that was built up from `UnionTypes.new` has a coherent pool of
shapes that starts with the five built-in ones. That is `Coherent`, and since
lattices only grow it is enough to look at `new` (`coherent_new`) and at one
interning step (`Grows.coherent`).

Nothing is asked of the names. A symbol is part of a shape and is compared as
such, so the shapes stay apart whatever the symbols in them stand for.

The number of types appears in one place only. A shape that was just interned is
read back under its handle as long as there are at most `2 ^ 32` types
(`Coherent.shape?_intern`). A type that a handle reads needs no such bound.
-/

namespace BoxedTypes

/-! ## A pool filled from a list -/

namespace Pool

variable {α : Type} [BEq α] [Hashable α]

theorem grows_foldl_intern (p : Pool α) (as : List α) :
    p.Grows (as.foldl (fun p a => (p.intern a).2) p) := by
  induction as generalizing p with
  | nil => exact .refl
  | cons a as ih => exact (Grows.intern a .refl).trans (ih (p.intern a).2)

/-- The values that are new to a pool are put at its end, each at its first
occurrence. -/
theorem values_foldl_intern [LawfulBEq α] (p : Pool α) (as : List α) :
    (as.foldl (fun p a => (p.intern a).2) p).values.toList =
      p.values.toList ++ (as.filter fun a => (p.find? a).isNone).eraseDups := by
  induction as generalizing p with
  | nil => simp
  | cons a as ih =>
      rw [List.foldl_cons, ih]
      cases hf : p.find? a with
      | some h =>
          rw [intern_of_find?_eq_some hf, List.filter_cons_of_neg (by simp [hf])]
      | none =>
          have hvalues : (p.intern a).2.values.toList = p.values.toList ++ [a] := by
            rw [intern_of_fresh hf, Array.toList_push]
          have hfresh : ∀ b, ((p.intern a).2.find? b).isNone =
              ((!b == a) && (p.find? b).isNone) := by
            intro b
            rw [find?_intern_of_fresh hf, Bool.beq_comm]
            cases b == a <;> rfl
          rw [hvalues, List.filter_cons_of_pos (by simp [hf]), List.eraseDups_cons,
            List.filter_filter, List.append_assoc, List.singleton_append]
          simp only [hfresh]

/-- What is found after a list was interned is what was found before and what is
in the list. -/
theorem isSome_find?_foldl_intern [LawfulBEq α] (p : Pool α) (as : List α) (a : α) :
    ((as.foldl (fun p a => (p.intern a).2) p).find? a).isSome ↔
      (p.find? a).isSome ∨ a ∈ as := by
  induction as generalizing p with
  | nil => exact (or_iff_left List.not_mem_nil).symm
  | cons b as ih => rw [List.foldl_cons, ih, isSome_find?_intern, List.mem_cons, or_assoc]

theorem size_foldl_intern_of_fresh [LawfulBEq α] {p : Pool α} {as : List α} (hdistinct : as.Nodup)
    (hfresh : ∀ a ∈ as, p.find? a = none) :
    (as.foldl (fun p a => (p.intern a).2) p).size = p.size + as.length := by
  induction as generalizing p with
  | nil => rfl
  | cons a as ih =>
      rw [List.nodup_cons] at hdistinct
      obtain ⟨ha, has⟩ := List.forall_mem_cons.mp hfresh
      have hrest : ∀ b ∈ as, (p.intern a).2.find? b = none := by
        intro b hb
        have hne : ¬ (a == b) = true := by
          intro hab
          rw [eq_of_beq hab] at hdistinct
          exact hdistinct.1 hb
        rw [find?_intern_of_fresh ha, if_neg hne]
        exact has b hb
      rw [List.foldl_cons, ih hdistinct.2 hrest, size_intern_of_fresh ha, List.length_cons]
      omega

/-- Interned from nothing, the values are the distinct ones in the order of
their first occurrences. -/
theorem values_foldl_intern_empty [LawfulBEq α] (as : List α) :
    (as.foldl (fun p a => (p.intern a).2) empty).values.toList = as.eraseDups := by
  have hall : (as.filter fun a => ((empty : Pool α).find? a).isNone) = as :=
    List.filter_eq_self.mpr fun a _ => by simp [empty, find?]
  rw [values_foldl_intern, hall]
  rfl

end Pool

namespace UnionTypes

/-- The pool of shapes agrees with itself and starts with the built-in
shapes. -/
structure Coherent (u : UnionTypes) : Prop where
  shapes : u.shapes.Coherent
  starts : ∀ (i : Nat) s, builtins[i]? = some s → u.shapes.values[i]? = some s

/-- The lattice has a type under this handle. -/
def Issued (u : UnionTypes) (id : TypeId) : Prop := (u.shape? id).isSome

theorem issued_iff {u : UnionTypes} {id : TypeId} :
    u.Issued id ↔ ∃ s, u.shape? id = some s := Option.isSome_iff_exists

theorem issued_iff_lt {u : UnionTypes} {id : TypeId} :
    u.Issued id ↔ id.index.toNat < u.typeCount := Pool.isSome_get?_iff

/-- Within the limit the handles of the types are all the numbers below their
number. -/
theorem lt_typeCount_iff {u : UnionTypes} (hfit : u.typeCount ≤ UInt32.size) (i : Nat) :
    i < u.typeCount ↔ ∃ id : TypeId, id.index.toNat = i ∧ u.Issued id := by
  constructor
  · intro hi
    have hindex : (UInt32.ofNat i).toNat = i := UInt32.toNat_ofNat_of_lt' (by omega)
    exact ⟨⟨UInt32.ofNat i⟩, hindex, issued_iff_lt.mpr (by rw [hindex]; exact hi)⟩
  · rintro ⟨id, rfl, hid⟩
    exact issued_iff_lt.mp hid

theorem shapes_foldl_intern (ss : List Shape) (u : UnionTypes) :
    (ss.foldl (fun u s => (u.intern s).2) u).shapes =
      ss.foldl (fun p s => (p.intern s).2) u.shapes := by
  induction ss generalizing u with
  | nil => rfl
  | cons s ss ih => exact ih (u.intern s).2

theorem shapes_new : new.shapes = builtins.foldl (fun p s => (p.intern s).2) .empty :=
  shapes_foldl_intern builtins ⟨.empty, .empty⟩

/-- A new lattice has the built-in types and no others. -/
theorem values_shapes_new : new.shapes.values.toList = builtins := by
  rw [shapes_new, Pool.values_foldl_intern_empty]
  decide

theorem coherent_new : new.Coherent := by
  refine ⟨?_, fun i s hs => ?_⟩
  · rw [shapes_new]
    exact (Pool.grows_foldl_intern _ builtins).coherent Pool.coherent_empty
  · rw [← Array.getElem?_toList, values_shapes_new]
    exact hs

theorem Grows.coherent {u v : UnionTypes} (h : u.Grows v) (hu : u.Coherent) : v.Coherent :=
  ⟨h.shapes.coherent hu.shapes, fun i s hs => h.shapes.getElem? (hu.starts i s hs)⟩

theorem Grows.issued {u v : UnionTypes} (h : u.Grows v) {id : TypeId} (hid : u.Issued id) :
    v.Issued id := by
  obtain ⟨s, hs⟩ := issued_iff.mp hid
  exact issued_iff.mpr ⟨s, h.shape? hs⟩

namespace Coherent

variable {u : UnionTypes} {id id' : TypeId} {s : Shape}

/-! ## The built-in types -/

theorem shape?_unknown (hu : u.Coherent) : u.shape? .unknown = some .unknown :=
  hu.starts 0 _ rfl

theorem shape?_bottom (hu : u.Coherent) : u.shape? .bottom = some (.union ∅) :=
  hu.starts 1 _ rfl

theorem shape?_ofScalar (hu : u.Coherent) (k : Scalar) :
    u.shape? (.ofScalar k) = some (.atom (.ofScalar k)) := by
  cases k with
  | number => exact hu.starts 2 _ rfl
  | string => exact hu.starts 3 _ rfl
  | boolean => exact hu.starts 4 _ rfl

theorem issued_unknown (hu : u.Coherent) : u.Issued .unknown :=
  issued_iff.mpr ⟨_, hu.shape?_unknown⟩

theorem issued_bottom (hu : u.Coherent) : u.Issued .bottom :=
  issued_iff.mpr ⟨_, hu.shape?_bottom⟩

theorem issued_ofScalar (hu : u.Coherent) (k : Scalar) : u.Issued (.ofScalar k) :=
  issued_iff.mpr ⟨_, hu.shape?_ofScalar k⟩

theorem shape?_inj (hu : u.Coherent) (hs : u.shape? id = some s)
    (hs' : u.shape? id' = some s) : id = id' := by
  cases id
  cases id'
  exact congrArg TypeId.mk (hu.shapes.get?_inj hs hs')

theorem isBuiltin_iff (hu : u.Coherent) :
    id.isBuiltin = true ↔ ∃ s ∈ builtins, u.shape? id = some s := by
  have hlen : builtins.length = 5 := rfl
  have hle : id.isBuiltin = true ↔ id.index.toNat < builtins.length := by
    rw [TypeId.isBuiltin, decide_eq_true_iff, UInt32.le_iff_toNat_le, hlen]
    exact Nat.lt_succ_iff.symm
  rw [hle]
  constructor
  · intro hlt
    have hs := List.getElem?_eq_getElem hlt
    exact ⟨_, List.getElem_mem hlt, hu.starts _ _ hs⟩
  · rintro ⟨s, hs, hid⟩
    obtain ⟨i, hi, rfl⟩ := List.mem_iff_getElem.mp hs
    have hplace := hu.starts i _ (List.getElem?_eq_getElem hi)
    have heq : i = id.index.toNat := hu.shapes.distinct _ _ _ hplace hid
    omega

/-! ## Interning a shape -/

theorem intern_of_shape? (hu : u.Coherent) (hs : u.shape? id = some s) :
    u.intern s = (id, u) := by
  rw [UnionTypes.intern, hu.shapes.intern_of_get? hs]

theorem shape?_intern (hu : u.Coherent) (hfit : (u.intern s).2.typeCount ≤ UInt32.size) :
    (u.intern s).2.shape? (u.intern s).1 = some s :=
  hu.shapes.get?_intern hfit

theorem issued_intern (hu : u.Coherent) (hfit : (u.intern s).2.typeCount ≤ UInt32.size) :
    (u.intern s).2.Issued (u.intern s).1 :=
  issued_iff.mpr ⟨s, hu.shape?_intern hfit⟩

/-- The issued handles are those that interning answers with when it has nothing
to add. -/
theorem issued_iff_intern (hu : u.Coherent) (hfit : u.typeCount ≤ UInt32.size) :
    u.Issued id ↔ ∃ s, u.intern s = (id, u) := by
  constructor
  · intro hid
    obtain ⟨s, hs⟩ := issued_iff.mp hid
    exact ⟨s, hu.intern_of_shape? hs⟩
  · rintro ⟨s, hs⟩
    have hissued := hu.issued_intern (s := s)
    rw [hs] at hissued
    exact hissued hfit

theorem find?_eq_some_iff (hu : u.Coherent) (hfit : u.typeCount ≤ UInt32.size) :
    u.shapes.find? s = some id.index ↔ u.shape? id = some s :=
  hu.shapes.find?_eq_some_iff hfit

end Coherent

end UnionTypes

end BoxedTypes

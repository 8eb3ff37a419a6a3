import BoxedTypes.Proofs.DeclaredNames
import BoxedTypes.Proofs.OwnSymbols
import Mathlib.Data.List.Nodup

/-!
# Where the handles run out

A handle is a 32-bit word, and a pool that holds `2 ^ 32` values has given out
all of them. It goes on interning nevertheless. The next new value is put at the
end like any other, but the handle kept for it is its place cut down to 32 bits,
and under that handle an earlier value is read.

The limit is exact. Below it a new value is read back under its handle, and from
it on never (`Coherent.get?_intern_iff_of_fresh`). What suffers is the new value
alone: no place changes, so a handle that read a value before reads it still.
None of this needs a bound, because the agreement of the two containers speaks
of places and not of handles, and so it outlasts the limit.

Types and names are both interned in pools, and for both the statement is the
one about pools. The limit is within reach of either: there are more than
`2 ^ 32` shapes as well as names.
-/

namespace BoxedTypes

namespace Pool

variable {α : Type} [BEq α] [Hashable α] {p : Pool α} {a : α}

/-- In a full pool the handle of a new value is one that reads another value. -/
theorem Coherent.exists_get?_of_full (hp : p.Coherent) (hf : p.find? a = none)
    (hfull : UInt32.size ≤ p.size) : ∃ b, b ≠ a ∧ p.get? (p.intern a).1 = some b := by
  have hlt : (p.intern a).1.toNat < p.size := Nat.lt_of_lt_of_le (UInt32.toNat_lt_size _) hfull
  obtain ⟨b, hb⟩ := Option.isSome_iff_exists.mp (isSome_get?_iff.mpr hlt)
  refine ⟨b, ?_, hb⟩
  rintro rfl
  exact hp.not_mem_of_fresh hf _ hb

/-- A new value is read back exactly if there was a handle left for it. -/
theorem Coherent.get?_intern_iff_of_fresh [LawfulBEq α] (hp : p.Coherent)
    (hf : p.find? a = none) :
    (p.intern a).2.get? (p.intern a).1 = some a ↔ p.size < UInt32.size := by
  constructor
  · intro hget
    rw [← Nat.not_le]
    intro hfull
    obtain ⟨b, hne, hb⟩ := hp.exists_get?_of_full hf hfull
    rw [get?_intern_of_get?_eq_some hb] at hget
    exact hne (Option.some.inj hget)
  · intro hroom
    apply hp.get?_intern
    rw [size_intern_of_fresh hf]
    exact hroom

/-- The first handle given out twice is the first one of all. -/
theorem handle_intern_of_size_eq (hf : p.find? a = none) (hsize : p.size = UInt32.size) :
    (p.intern a).1 = 0 := by
  apply UInt32.toNat_inj.mp
  rw [handle_intern_of_fresh hf, hsize, Nat.mod_self]
  rfl

end Pool

namespace UnionTypes

open Names

/-! ## The limit -/

/-- The limit of the types of a lattice after any history, and the same of the
names after any run of declarations. A new shape, or name, is read back under
its handle exactly if there were fewer than `2 ^ 32` before it. If there were
not, the handle is their number cut down to 32 bits and reads another one, which
it read before as well; the first such handle is the one of the unknown type.
What any handle read at some time it reads ever after. -/
theorem handle_limit :
    (∀ (calls : List Call) (s : Shape),
      let u := after calls new
      let id := (u.intern s).1
      let v := (u.intern s).2
      s ∉ u.shapes.values →
      (v.shape? id = some s ↔ u.typeCount < UInt32.size) ∧
      (UInt32.size ≤ u.typeCount → id.index.toNat = u.typeCount % UInt32.size ∧
        ∃ t, t ≠ s ∧ u.shape? id = some t ∧ v.shape? id = some t) ∧
      (u.typeCount = UInt32.size → id = .unknown ∧ v.shape? id = some .unknown) ∧
      ∀ earlier later, calls = earlier ++ later →
        ∀ id t, (after earlier new).shape? id = some t →
        ∀ more, (after more v).shape? id = some t) ∧
    ∀ (declared : List String) (name : String),
      let names := declareAll declared .empty
      let symbol := (names.declare name).1
      let names' := (names.declare name).2
      name ∉ declared →
      (names'.resolve symbol = .ok name ↔ names.size < UInt32.size) ∧
      (UInt32.size ≤ names.size → symbol.index.toNat = names.size % UInt32.size ∧
        ∃ other, other ≠ name ∧ names.resolve symbol = .ok other ∧
          names'.resolve symbol = .ok other) ∧
      (names.size = UInt32.size → symbol = ⟨0⟩) ∧
      ∀ earlier later, declared = earlier ++ later →
        ∀ symbol other, (declareAll earlier .empty).resolve symbol = .ok other →
        ∀ more, (declareAll more names').resolve symbol = .ok other := by
  constructor
  · intro calls s u id v hs
    have hu : u.Coherent := coherent_after calls
    have hf : u.shapes.find? s = none := hu.shapes.find?_eq_none_iff.mpr hs
    have huv : u.Grows v := grows_intern u s
    refine ⟨hu.shapes.get?_intern_iff_of_fresh hf, fun hfull => ?_, fun hsize => ?_, ?_⟩
    · obtain ⟨t, hne, ht⟩ := hu.shapes.exists_get?_of_full hf hfull
      exact ⟨Pool.handle_intern_of_fresh hf, t, hne, ht, huv.shape? ht⟩
    · have hid : id = .unknown :=
        congrArg TypeId.mk (Pool.handle_intern_of_size_eq hf hsize)
      exact ⟨hid, hid ▸ huv.shape? hu.shape?_unknown⟩
    · intro earlier later hcalls id' t ht more
      have hu' : (after earlier new).Grows u := by
        rw [show u = after later (after earlier new) by rw [← after_append, ← hcalls]]
        exact grows_after later _
      exact ((hu'.trans huv).trans (grows_after more v)).shape? ht
  · intro declared name names symbol names' hname
    have hnames : names.Coherent := coherent_declareAll declared
    have hf : names.find? name = none := by
      rw [← Option.not_isSome_iff_eq_none, isSome_find?_declareAll_empty]
      exact hname
    refine ⟨?_, fun hfull => ?_, fun hsize => ?_, ?_⟩
    · rw [resolve_eq_ok_iff]
      exact hnames.get?_intern_iff_of_fresh hf
    · obtain ⟨other, hne, hother⟩ := hnames.exists_get?_of_full hf hfull
      have hresolve : names.resolve symbol = .ok other := resolve_eq_ok_iff.mpr hother
      exact ⟨Pool.handle_intern_of_fresh hf, other, hne, hresolve,
        resolve_declare_of_resolve_eq_ok name hresolve⟩
    · exact congrArg Symbol.mk (Pool.handle_intern_of_size_eq hf hsize)
    · intro earlier later hdeclared symbol' other hother more
      rw [resolve_eq_ok_iff] at hother ⊢
      have hgrows : Pool.Grows (declareAll earlier .empty) names := by
        rw [show names = declareAll later (declareAll earlier .empty) by
          rw [← declareAll_append, ← hdeclared]]
        exact grows_declareAll later _
      exact ((hgrows.trans (.intern name .refl)).trans (grows_declareAll more names')).get? hother

/-! ## At the limit -/

/-- The types of the objects of the first symbols. -/
def objectTypes (n : Nat) : List Shape :=
  (List.range n).map fun i => .atom (.object ⟨UInt32.ofNat i⟩)

/-- A name of each length below a number. -/
def namesUpTo (n : Nat) : List String :=
  (List.range n).map fun i => String.ofList (List.replicate i 'a')

theorem nodup_objectTypes {n : Nat} (hn : n ≤ UInt32.size) : (objectTypes n).Nodup := by
  refine List.Nodup.map_on ?_ List.nodup_range
  intro i hi j hj heq
  rw [List.mem_range] at hi hj
  have hindex : (UInt32.ofNat i).toNat = (UInt32.ofNat j).toNat := by
    injection Shape.atom_injective heq with hsymbol
    injection hsymbol with hindex
    rw [hindex]
  rwa [UInt32.toNat_ofNat_of_lt' (by omega), UInt32.toNat_ofNat_of_lt' (by omega)] at hindex

theorem nodup_namesUpTo (n : Nat) : (namesUpTo n).Nodup := by
  refine List.Nodup.map_on ?_ List.nodup_range
  intro i _ j _ heq
  have hlength := congrArg List.length (String.ofList_injective heq)
  rwa [List.length_replicate, List.length_replicate] at hlength

theorem shapes_after_intern (ss : List Shape) (u : UnionTypes) :
    (after (ss.map .intern) u).shapes = ss.foldl (fun p s => (p.intern s).2) u.shapes := by
  rw [after, List.foldl_map]
  exact shapes_foldl_intern ss u

theorem find?_shapes_new {s : Shape} (hs : s ∉ builtins) : new.shapes.find? s = none := by
  rw [coherent_new.shapes.find?_eq_none_iff, ← Array.mem_toList_iff, values_shapes_new]
  exact hs

theorem typeCount_after_objectTypes {n : Nat} (hn : n ≤ UInt32.size) :
    (after ((objectTypes n).map .intern) new).typeCount = 5 + n := by
  have hfresh : ∀ s ∈ objectTypes n, new.shapes.find? s = none := by
    intro s hs
    obtain ⟨i, -, rfl⟩ := List.mem_map.mp hs
    refine find?_shapes_new fun hmem => ?_
    exact not_mentions_of_mem_builtins hmem _ ⟨_, rfl, AtomSet.mem_singleton.mpr rfl⟩
  have hnew : new.shapes.size = 5 := by
    rw [Pool.size, ← Array.length_toList, values_shapes_new]
    rfl
  rw [typeCount, shapes_after_intern,
    Pool.size_foldl_intern_of_fresh (nodup_objectTypes hn) hfresh, hnew, objectTypes,
    List.length_map, List.length_range]

theorem null_not_mem_after_objectTypes (n : Nat) :
    Shape.atom .null ∉ (after ((objectTypes n).map .intern) new).shapes.values := by
  have hnew : new.shapes.find? (.atom .null) = none := find?_shapes_new (by decide)
  rw [← (coherent_after _).shapes.find?_eq_none_iff, ← Option.not_isSome_iff_eq_none,
    shapes_after_intern, Pool.isSome_find?_foldl_intern, hnew]
  rintro (h | h)
  · cases h
  · obtain ⟨i, -, heq⟩ := List.mem_map.mp h
    cases Shape.atom_injective heq

theorem size_namesUpTo (n : Nat) : (declareAll (namesUpTo n) .empty).size = n := by
  have hsize := Pool.size_foldl_intern_of_fresh (p := (.empty : Names)) (nodup_namesUpTo n)
    fun name _ => by simp [Pool.empty, Pool.find?]
  rw [namesUpTo, List.length_map, List.length_range] at hsize
  exact hsize.trans (Nat.zero_add n)

theorem not_mem_namesUpTo (n : Nat) : "b" ∉ namesUpTo n := by
  intro h
  obtain ⟨i, -, heq⟩ := List.mem_map.mp h
  have hb : 'b' ∈ List.replicate i 'a' := by
    rw [← String.toList_ofList (l := List.replicate i 'a'), heq]
    decide
  cases (List.mem_replicate.mp hb).2

/-- A lattice and names that are full. The null type gets the handle of the
unknown type, and the next name gets the symbol of the first. -/
theorem handle_limit_reached :
    let u := after ((objectTypes (UInt32.size - 5)).map .intern) new
    let names := declareAll (namesUpTo UInt32.size) .empty
    u.typeCount = UInt32.size ∧ (u.intern (.atom .null)).1 = .unknown ∧
    (u.intern (.atom .null)).2.shape? .unknown = some .unknown ∧
    names.size = UInt32.size ∧ (names.declare "b").1 = ⟨0⟩ ∧
    (names.declare "b").2.resolve ⟨0⟩ ≠ .ok "b" := by
  intro u names
  have hcount : u.typeCount = UInt32.size := typeCount_after_objectTypes (Nat.sub_le _ _)
  have hsize : names.size = UInt32.size := size_namesUpTo _
  obtain ⟨htypes, hnames⟩ := handle_limit
  obtain ⟨-, -, hfirst, -⟩ := htypes _ _ (null_not_mem_after_objectTypes _)
  obtain ⟨hread, -, hfirst', -⟩ := hnames _ "b" (not_mem_namesUpTo _)
  obtain ⟨hid, hshape⟩ := hfirst hcount
  have hsymbol := hfirst' hsize
  refine ⟨hcount, hid, hid ▸ hshape, hsize, hsymbol, fun hname => ?_⟩
  rw [← hsymbol] at hname
  exact absurd (hread.mp hname) (Nat.not_lt.mpr (Nat.le_of_eq hsize.symm))

end UnionTypes

end BoxedTypes

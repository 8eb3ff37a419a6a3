import Std.Data.HashMap

/-!
# Interning pools

A pool numbers the distinct values put into it. The first occurrence of a value
gets the next handle and every later occurrence gets that handle again, so
within one pool a handle can stand for its value: the two are in bijection as
long as there are no more values than handles.

Two containers carry this. `values` lists the values in the order of their first
occurrence and answers "which value has this handle"; `handles` goes back. A
pool only grows, and it grows in both containers at once, so a handle that was
ever given out keeps its value.

Handles are 32-bit words. The next handle is the number of values so far, taken
as such a word, and nothing stops a pool from growing beyond `2 ^ 32` values.
From there on a fresh value is given a handle that an earlier value already has:
`handle_intern_of_fresh` states the exact handle, with the remainder in it, so
that what happens past the limit is a fact about the pool and not left open.
-/

namespace BoxedTypes

/-- The distinct values interned so far, and the handle of each. -/
structure Pool (α : Type) [BEq α] [Hashable α] where
  values : Array α
  handles : Std.HashMap α UInt32

namespace Pool

variable {α : Type} [BEq α] [Hashable α]

/-- No value interned. -/
def empty : Pool α := ⟨#[], ∅⟩

instance : Inhabited (Pool α) := ⟨empty⟩

/-- How many values the pool holds. -/
def size (p : Pool α) : Nat := p.values.size

/-- Whether nothing was interned yet. -/
def isEmpty (p : Pool α) : Bool := p.size = 0

/-- The handle of a value, if it was interned. -/
def find? (p : Pool α) (a : α) : Option UInt32 := p.handles[a]?

/-- The value of a handle, if the pool reaches that far. -/
def get? (p : Pool α) (h : UInt32) : Option α := p.values[h.toNat]?

/-- The handle of a value, and the pool with the value in it. -/
def intern (p : Pool α) (a : α) : UInt32 × Pool α :=
  match p.find? a with
  | some h => (h, p)
  | none =>
    let h := UInt32.ofNat p.size
    (h, ⟨p.values.push a, p.handles.insert a h⟩)

/-- All handles with their values, in the order of first interning. -/
def toList (p : Pool α) : List (UInt32 × α) :=
  p.values.toList.zipIdx.map fun (a, i) => (UInt32.ofNat i, a)

/-! ## What interning does to the two containers -/

theorem intern_of_find?_eq_some {p : Pool α} {a : α} {h : UInt32} (hf : p.find? a = some h) :
    p.intern a = (h, p) := by
  simp [intern, hf]

theorem intern_of_fresh {p : Pool α} {a : α} (hf : p.find? a = none) :
    p.intern a =
      (UInt32.ofNat p.size, ⟨p.values.push a, p.handles.insert a (UInt32.ofNat p.size)⟩) := by
  simp [intern, hf]

theorem handle_intern_of_fresh {p : Pool α} {a : α} (hf : p.find? a = none) :
    (p.intern a).1.toNat = p.size % UInt32.size := by
  simp [intern_of_fresh hf]

theorem size_intern_of_fresh {p : Pool α} {a : α} (hf : p.find? a = none) :
    (p.intern a).2.size = p.size + 1 := by
  simp [intern_of_fresh hf, size]

theorem find?_intern_of_fresh [EquivBEq α] [LawfulHashable α] {p : Pool α} {a : α}
    (hf : p.find? a = none) (b : α) :
    (p.intern a).2.find? b = if a == b then some (UInt32.ofNat p.size) else p.find? b := by
  rw [intern_of_fresh hf]
  exact Std.HashMap.getElem?_insert

theorem size_le_size_intern (p : Pool α) (a : α) : p.size ≤ (p.intern a).2.size := by
  cases hf : p.find? a with
  | none =>
    have := size_intern_of_fresh hf
    omega
  | some h => exact Nat.le_of_eq (congrArg (·.2.size) (intern_of_find?_eq_some hf)).symm

/-- A handle that has a value keeps it, whatever is interned next. -/
theorem get?_intern_of_get?_eq_some {p : Pool α} {a b : α} {h : UInt32}
    (hb : p.get? h = some b) : (p.intern a).2.get? h = some b := by
  cases hf : p.find? a with
  | some _ => rw [intern_of_find?_eq_some hf]; exact hb
  | none =>
    obtain ⟨hlt, -⟩ := Array.getElem?_eq_some_iff.mp hb
    rw [intern_of_fresh hf, get?, Array.getElem?_push_lt hlt, ← hb, get?,
      Array.getElem?_eq_getElem hlt]

end Pool

end BoxedTypes

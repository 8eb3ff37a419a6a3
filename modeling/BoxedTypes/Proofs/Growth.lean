import BoxedTypes.Proofs.FreezeSteps
import BoxedTypes.Proofs.PoolCoherence
import BoxedTypes.UnionTypes

/-!
# A lattice only grows

Whatever is asked of a lattice, what happens to its two pools is interning and
nothing else. A join interns at most one shape, a union and a freeze intern one
after the other, and a call that breaks off in the middle leaves behind what it
interned up to there. `UnionTypes.Grows` is that relation between a lattice
before and a lattice after, and `OnlyGrows` says of an action that it relates
every lattice to the one left behind, success or not.

To only grow is to preserve having grown from any lattice before (`keeps`), so
the operations that are made of joins need no look at how they are made: it is
enough that a join only grows. What growth keeps is then kept by all of them:
the number of types, the shape under a handle, the coherence of the pools.
-/

namespace BoxedTypes

namespace UnionTypes

/-- The second lattice comes from the first by interning shapes and names. -/
structure Grows (u v : UnionTypes) : Prop where
  shapes : u.shapes.Grows v.shapes
  names : u.names.Grows v.names

namespace Grows

variable {u v w : UnionTypes}

theorem refl (u : UnionTypes) : u.Grows u := ⟨.refl, .refl⟩

theorem trans (huv : u.Grows v) (hvw : v.Grows w) : u.Grows w :=
  ⟨huv.shapes.trans hvw.shapes, huv.names.trans hvw.names⟩

theorem typeCount_le (h : u.Grows v) : u.typeCount ≤ v.typeCount := h.shapes.size_le

theorem shape? (h : u.Grows v) {id : TypeId} {s : Shape} (hs : u.shape? id = some s) :
    v.shape? id = some s := h.shapes.get? hs

end Grows

theorem grows_intern (u : UnionTypes) (s : Shape) : u.Grows (u.intern s).2 :=
  ⟨.intern s .refl, .refl⟩

theorem grows_object (u : UnionTypes) (name : String) : u.Grows (u.object name).2 :=
  ⟨.intern _ .refl, .intern name .refl⟩

/-- Whatever an action does to a lattice, it does by interning. -/
def OnlyGrows {ε α : Type} (x : EStateM ε UnionTypes α) : Prop :=
  ∀ u : UnionTypes, u.Grows (leftBehind (x u))

namespace OnlyGrows

variable {ε ε' α β : Type} {x : EStateM ε UnionTypes α}

theorem keeps (hx : OnlyGrows x) (u : UnionTypes) : Preserves u.Grows x :=
  fun v huv => huv.trans (hx v)

theorem of_keeps (hx : ∀ u : UnionTypes, Preserves u.Grows x) : OnlyGrows x :=
  fun u => hx u u (Grows.refl u)

theorem pure (a : α) : OnlyGrows (Pure.pure a : EStateM ε UnionTypes α) :=
  fun u => Grows.refl u

theorem bind {f : α → EStateM ε UnionTypes β} (hx : OnlyGrows x)
    (hf : ∀ a, OnlyGrows (f a)) : OnlyGrows (x >>= f) :=
  of_keeps fun u => (hx.keeps u).bind fun a => (hf a).keeps u

theorem foldlM {f : β → α → EStateM ε UnionTypes β} (hf : ∀ b a, OnlyGrows (f b a))
    (as : List α) (b : β) : OnlyGrows (as.foldlM f b) :=
  of_keeps fun u => Preserves.foldlM (fun b a => (hf b a).keeps u) as b

theorem mapM {f : α → EStateM ε UnionTypes β} (hf : ∀ a, OnlyGrows (f a)) (as : List α) :
    OnlyGrows (as.mapM f) :=
  of_keeps fun u => Preserves.mapM (fun a => (hf a).keeps u) as

theorem of_ok {u v : UnionTypes} {a : α} (hx : OnlyGrows x) (h : x u = .ok a v) :
    u.Grows v := by
  have hg := hx u
  rw [h] at hg
  exact hg

theorem map (hx : OnlyGrows x) (f : α → β) : OnlyGrows (f <$> x) :=
  of_keeps fun u => (hx.keeps u).map f

theorem adaptExcept (hx : OnlyGrows x) (f : ε → ε') :
    OnlyGrows (EStateM.adaptExcept f x) :=
  of_keeps fun u => (hx.keeps u).adaptExcept f

theorem reading (read : UnionTypes → Except ε α) :
    OnlyGrows (TypeSystem.reading read) :=
  of_keeps fun _ => Preserves.reading read

end OnlyGrows

theorem grows_leftBehind_bind {ε α β : Type} {x : EStateM ε UnionTypes α}
    {f : α → EStateM ε UnionTypes β} (hf : ∀ a, OnlyGrows (f a)) (u : UnionTypes) :
    (leftBehind (x u)).Grows (leftBehind ((x >>= f) u)) := by
  cases h : x u with
  | ok a v =>
      rw [bind_of_ok h]
      exact hf a v
  | error e v =>
      rw [bind_of_error h]
      exact Grows.refl v

/-- Where there is room for a sequence there is room for its first action. -/
theorem typeCount_le_of_bind {ε α β : Type} {x : EStateM ε UnionTypes α}
    {f : α → EStateM ε UnionTypes β} (hf : ∀ a, OnlyGrows (f a)) {u : UnionTypes} {n : Nat}
    (hfit : (leftBehind ((x >>= f) u)).typeCount ≤ n) : (leftBehind (x u)).typeCount ≤ n :=
  Nat.le_trans (grows_leftBehind_bind hf u).typeCount_le hfit

/-! ## The operations -/

theorem onlyGrows_join (a b : TypeId) : OnlyGrows (join a b) := by
  intro u
  unfold join
  split
  · exact Grows.refl u
  · split
    · exact Grows.refl u
    · exact Grows.refl u
    · next as bs _ _ => exact grows_intern u (.union (as ∪ bs))
    · exact Grows.refl u

theorem onlyGrows_union (members : List TypeId) : OnlyGrows (union members) :=
  OnlyGrows.foldlM onlyGrows_join members .bottom

theorem onlyGrows_composite (k : Scalar) (boxed : TypeId) :
    OnlyGrows (Registry.composite (σ := UnionTypes) k boxed) :=
  OnlyGrows.of_keeps fun u =>
    Registry.preserves_composite (fun a b => (onlyGrows_join a b).keeps u) k boxed

theorem onlyGrows_freeze (d : Draft TypeId) :
    OnlyGrows (d.freeze : EStateM FreezeError UnionTypes (Registry TypeId)) :=
  OnlyGrows.of_keeps fun u => d.preserves_freeze fun a b => (onlyGrows_join a b).keeps u

theorem onlyGrows_ofDeclarations (decls : Declarations TypeId) (c : Settings) :
    OnlyGrows (Registry.ofDeclarations decls c :
      EStateM FreezeError UnionTypes (Registry TypeId)) :=
  OnlyGrows.of_keeps fun u =>
    Registry.preserves_ofDeclarations (fun a b => (onlyGrows_join a b).keeps u) decls c

end UnionTypes

end BoxedTypes

import BoxedTypes.Proofs.Admission
import Mathlib.Data.Finset.Basic
import Mathlib.Data.Finset.Dedup

/-!
# Types can be joined in any order and grouping

Some types can be joined from the left, or two by two along a tree, in another
order, some of them twice. Each way interns other unions before it comes to its
answer. So the lattices that two ways leave behind differ, a way that comes
second finds other types there than it would have found alone, and the number
under which the answer is interned depends on which way came first. But it is
the same answer.

A description that does not mention the way carries this. The answer has the
least shape that is above the shapes of all the types (`IsJoin`), and there is
only one such shape, with one handle. The description speaks of the lattice in
which the types were given, not of the one in which they are joined, so nothing
that is interned in between can disturb it (`isJoin_iff_of_grows`).

Two ways to join types make a way to join what both do (`Joins.join`). A tree is
put together like that at each node and a union at each member, starting from
the bottom type, which is the join of nothing. There has to be room for all that
is interned: a handle that was cut down to an earlier one would stand for
another shape.
-/

namespace BoxedTypes.UnionTypes

/-- A way to join types two at a time, those on the left first. -/
inductive JoinTree where
  | leaf (id : TypeId)
  | node (left right : JoinTree)

namespace JoinTree

def leaves : JoinTree → List TypeId
  | leaf id => [id]
  | node left right => left.leaves ++ right.leaves

def run : JoinTree → EStateM Breach UnionTypes TypeId
  | leaf id => pure id
  | node left right => do
    let a ← left.run
    let b ← right.run
    join a b

end JoinTree

/-- A way to join some types. -/
inductive Joining where
  | union (members : List TypeId)
  | tree (t : JoinTree)

namespace Joining

def operands : Joining → List TypeId
  | union members => members
  | tree t => t.leaves

def run : Joining → EStateM Breach UnionTypes TypeId
  | union members => UnionTypes.union members
  | tree t => t.run

end Joining

variable {u v : UnionTypes} {ids ids' : List TypeId} {id : TypeId} {s t : Shape}

/-! ## The least shape above some types -/

/-- The shape is above the shapes of all these types, and below every shape that
is above them all. -/
def IsJoin (u : UnionTypes) (ids : List TypeId) (s : Shape) : Prop :=
  ∀ r, s.IsBelow r ↔ ∀ id ∈ ids, ∀ t, u.shape? id = some t → t.IsBelow r

theorem isJoin_nil (u : UnionTypes) : u.IsJoin [] (.union ∅) := fun r =>
  iff_of_true (Shape.bottom_isBelow r) fun _ h => absurd h List.not_mem_nil

theorem isJoin_singleton (hs : u.shape? id = some s) : u.IsJoin [id] s := by
  intro r
  rw [List.forall_mem_singleton]
  constructor
  · intro h t ht
    cases hs.symm.trans ht
    exact h
  · intro h
    exact h s hs

namespace IsJoin

theorem append (hs : u.IsJoin ids s) (ht : u.IsJoin ids' t) :
    u.IsJoin (ids ++ ids') (s.join t) := by
  intro r
  rw [Shape.join_isBelow_iff, hs r, ht r, List.forall_mem_append]

/-- Which types are joined matters, but not how often or in which order. -/
theorem congr (hs : u.IsJoin ids s) (h : ∀ id, id ∈ ids ↔ id ∈ ids') : u.IsJoin ids' s := by
  intro r
  rw [hs r]
  simp only [h]

theorem unique (hs : u.IsJoin ids s) (ht : u.IsJoin ids t) : s = t := by
  have hst : s.IsBelow t := (hs t).mpr ((ht t).mp (Shape.isBelow_refl t))
  have hts : t.IsBelow s := (ht s).mpr ((hs s).mp (Shape.isBelow_refl s))
  exact hst.antisymm hts

theorem eq_unknown (hs : u.IsJoin ids s) (hu : u.Coherent) (h : .unknown ∈ ids) :
    s = .unknown := by
  have hle := (hs s).mp (Shape.isBelow_refl s) .unknown h _ hu.shape?_unknown
  exact (Shape.isBelow_unknown s).antisymm hle

end IsJoin

/-- The types have the same join in every later lattice. -/
theorem isJoin_iff_of_grows (huv : u.Grows v) (hids : ∀ id ∈ ids, u.Issued id) :
    v.IsJoin ids s ↔ u.IsJoin ids s := by
  have hshape : ∀ id ∈ ids, v.shape? id = u.shape? id := by
    intro id hid
    obtain ⟨t, ht⟩ := issued_iff.mp (hids id hid)
    rw [huv.shape? ht, ht]
  refine forall_congr' fun r => iff_congr Iff.rfl (forall₂_congr fun id hid => ?_)
  rw [hshape id hid]

/-- The atoms of some types taken together. -/
theorem exists_mem_iff_hasAtom (u : UnionTypes) (ids : List TypeId) :
    ∃ as : AtomSet, ∀ a, a ∈ as ↔ ∃ id ∈ ids, u.HasAtom id a := by
  induction ids with
  | nil =>
      refine ⟨∅, fun a => iff_of_false (AtomSet.not_mem_empty a) ?_⟩
      rintro ⟨_, h, -⟩
      cases h
  | cons id ids ih =>
      obtain ⟨bs, hbs⟩ := ih
      have hfirst : ∃ as : AtomSet, ∀ a, a ∈ as ↔ u.HasAtom id a := by
        by_cases h : ∃ as, u.shape? id = some (.union as)
        · obtain ⟨as, has⟩ := h
          exact ⟨as, fun a => (hasAtom_iff has).symm⟩
        · refine ⟨∅, fun a => iff_of_false (AtomSet.not_mem_empty a) ?_⟩
          rintro ⟨as, has, -⟩
          exact h ⟨as, has⟩
      obtain ⟨as, has⟩ := hfirst
      exact ⟨as ∪ bs, fun a => by simp [AtomSet.mem_union, has, hbs]⟩

/-- Where all the types are known, their join has exactly their atoms. -/
theorem IsJoin.eq_union (hs : u.IsJoin ids s)
    (hids : ∀ id ∈ ids, ∃ as, u.shape? id = some (.union as)) :
    ∃ cs, s = .union cs ∧ ∀ a, a ∈ cs ↔ ∃ id ∈ ids, u.HasAtom id a := by
  obtain ⟨cs, hcs⟩ := exists_mem_iff_hasAtom u ids
  refine ⟨cs, hs.unique fun r => ?_, hcs⟩
  cases r with
  | unknown => exact iff_of_true (Shape.isBelow_unknown _) fun _ _ t _ => Shape.isBelow_unknown t
  | union bs =>
      rw [Shape.union_isBelow_union]
      constructor
      · intro h id hid t ht
        obtain ⟨as, has⟩ := hids id hid
        cases has.symm.trans ht
        exact fun a ha => h a ((hcs a).mpr ⟨id, hid, as, has, ha⟩)
      · intro h a ha
        obtain ⟨id, hid, as, has, hmem⟩ := (hcs a).mp ha
        exact h id hid _ has a hmem

/-! ## Ways to join types -/

/-- The action answers with the join of these types, on every lattice that has
them and has room for what the action interns. -/
structure Joins (x : EStateM Breach UnionTypes TypeId) (ids : List TypeId) : Prop where
  onlyGrows : OnlyGrows x
  ok : ∀ u : UnionTypes, u.Coherent → (∀ id ∈ ids, u.Issued id) →
    (leftBehind (x u)).typeCount ≤ UInt32.size →
    ∃ c v s, x u = .ok c v ∧ v.shape? c = some s ∧ u.IsJoin ids s

theorem joins_pure (id : TypeId) : Joins (pure id) [id] where
  onlyGrows := .pure id
  ok u _ hid _ := by
    obtain ⟨s, hs⟩ := issued_iff.mp (hid id List.mem_cons_self)
    exact ⟨id, u, s, rfl, hs, isJoin_singleton hs⟩

theorem joins_bottom : Joins (pure .bottom) [] where
  onlyGrows := .pure _
  ok u hu _ _ := ⟨.bottom, u, _, rfl, hu.shape?_bottom, isJoin_nil u⟩

namespace Joins

variable {x y : EStateM Breach UnionTypes TypeId}

/-- As the first part of a sequence for which there is room, the action
answers. -/
theorem ok_of_bind {α : Type} {f : TypeId → EStateM Breach UnionTypes α} (hx : Joins x ids)
    (hu : u.Coherent) (hids : ∀ id ∈ ids, u.Issued id) (hf : ∀ a, OnlyGrows (f a))
    (hfit : (leftBehind ((x >>= f) u)).typeCount ≤ UInt32.size) :
    ∃ a v s, (x >>= f) u = f a v ∧ u.Grows v ∧ v.shape? a = some s ∧ u.IsJoin ids s := by
  obtain ⟨a, v, s, hxu, ha, hs⟩ := hx.ok u hu hids (typeCount_le_of_bind hf hfit)
  exact ⟨a, v, s, bind_of_ok hxu, hx.onlyGrows.of_ok hxu, ha, hs⟩

/-- What the first action interns leaves the types of the second as they
were. -/
theorem join (hx : Joins x ids) (hy : Joins y ids') :
    Joins (do let a ← x; let b ← y; UnionTypes.join a b) (ids ++ ids') := by
  have hjoin : ∀ a, OnlyGrows (y >>= fun b => UnionTypes.join a b) := fun a =>
    hy.onlyGrows.bind (onlyGrows_join a)
  refine ⟨hx.onlyGrows.bind hjoin, fun u hu hids hfit => ?_⟩
  obtain ⟨hleft, hright⟩ := List.forall_mem_append.mp hids
  obtain ⟨a, v, s, hrunx, huv, ha, hs⟩ := hx.ok_of_bind hu hleft hjoin hfit
  have hv := huv.coherent hu
  have hright' : ∀ id ∈ ids', v.Issued id := fun id hid => huv.issued (hright id hid)
  rw [hrunx] at hfit ⊢
  obtain ⟨b, w, t, hruny, hvw, hb, ht⟩ := hy.ok_of_bind hv hright' (onlyGrows_join a) hfit
  rw [hruny] at hfit ⊢
  obtain ⟨c, w', hjoined, -, hc⟩ := (hvw.coherent hv).join_ok (hvw.shape? ha) hb
  rw [hjoined] at hfit
  -- `ht` speaks of the lattice between the two actions, but its types were
  -- there before.
  have ht' : u.IsJoin ids' t := (isJoin_iff_of_grows huv hright).mp ht
  exact ⟨c, w', _, hjoined, hc hfit, hs.append ht'⟩

/-- The induction goes along the members, with what has been joined so far as
one action. -/
theorem foldlM (hx : Joins x ids) (members : List TypeId) :
    Joins (x >>= fun a => members.foldlM UnionTypes.join a) (ids ++ members) := by
  induction members generalizing x ids with
  | nil =>
      rw [List.append_nil]
      change Joins (x >>= pure) ids
      rw [bind_pure]
      exact hx
  | cons m members ih =>
      have hrest := ih (hx.join (joins_pure m))
      simp only [bind_assoc, pure_bind, List.append_assoc, List.singleton_append] at hrest
      exact hrest

end Joins

theorem joins_union (members : List TypeId) : Joins (union members) members :=
  joins_bottom.foldlM members

theorem JoinTree.joins (t : JoinTree) : Joins t.run t.leaves := by
  induction t with
  | leaf id => exact joins_pure id
  | node left right hleft hright => exact hleft.join hright

theorem Joining.joins (g : Joining) : Joins g.run g.operands := by
  cases g with
  | union members => exact joins_union members
  | tree t => exact t.joins

theorem onlyGrows_mapM_joining (gs : List Joining) : OnlyGrows (gs.mapM Joining.run) :=
  OnlyGrows.mapM (fun g => g.joins.onlyGrows) gs

/-- One after the other, ways to join the same types answer with the same
join. -/
theorem Coherent.mapM_joining_ok (hu : u.Coherent) {gs : List Joining}
    (hids : ∀ id ∈ ids, u.Issued id) (hgs : ∀ g ∈ gs, ∀ id, id ∈ g.operands ↔ id ∈ ids)
    (hfit : (leftBehind (gs.mapM Joining.run u)).typeCount ≤ UInt32.size) :
    ∃ cs v, gs.mapM Joining.run u = .ok cs v ∧ cs.length = gs.length ∧
      ∀ c ∈ cs, ∃ s, v.shape? c = some s ∧ u.IsJoin ids s := by
  induction gs generalizing u with
  | nil => exact ⟨[], u, rfl, rfl, fun _ h => absurd h List.not_mem_nil⟩
  | cons g gs ih =>
      obtain ⟨hg, hgs⟩ := List.forall_mem_cons.mp hgs
      have hpure : ∀ c cs, OnlyGrows (pure (c :: cs) : EStateM Breach UnionTypes (List TypeId)) :=
        fun c cs => .pure (c :: cs)
      rw [List.mapM_cons] at hfit ⊢
      obtain ⟨c, v, s, hrung, huv, hc, hs⟩ :=
        g.joins.ok_of_bind hu (fun id hid => hids id ((hg id).mp hid))
          (fun c => (onlyGrows_mapM_joining gs).bind (hpure c)) hfit
      rw [hrung] at hfit ⊢
      obtain ⟨cs, w, hrungs, hlength, hcs⟩ :=
        ih (huv.coherent hu) (fun id hid => huv.issued (hids id hid)) hgs
          (typeCount_le_of_bind (hpure c) hfit)
      have hvw := (onlyGrows_mapM_joining gs).of_ok hrungs
      rw [bind_of_ok hrungs]
      refine ⟨c :: cs, w, rfl, congrArg Nat.succ hlength, List.forall_mem_cons.mpr ⟨?_, ?_⟩⟩
      · exact ⟨s, hvw.shape? hc, hs.congr hg⟩
      · intro d hd
        obtain ⟨t, ht, hjoin⟩ := hcs d hd
        exact ⟨t, ht, (isJoin_iff_of_grows huv hids).mp hjoin⟩

/-! ## How much a union interns -/

theorem typeCount_join_le (a b : TypeId) (u : UnionTypes) :
    (leftBehind (join a b u)).typeCount ≤ u.typeCount + 1 := by
  unfold join
  split
  · exact Nat.le_succ _
  · split
    · exact Nat.le_succ _
    · exact Nat.le_succ _
    · next as bs _ _ => exact Pool.size_intern_le u.shapes (.union (as ∪ bs))
    · exact Nat.le_succ _

theorem typeCount_foldlM_join_le (members : List TypeId) (a : TypeId) (u : UnionTypes) :
    (leftBehind (members.foldlM join a u)).typeCount ≤ u.typeCount + members.length := by
  induction members generalizing a u with
  | nil => exact Nat.le_refl _
  | cons m members ih =>
      have hfirst := typeCount_join_le a m u
      rw [List.foldlM_cons, List.length_cons]
      cases hjoin : join a m u with
      | ok b v =>
          rw [hjoin, leftBehind] at hfirst
          rw [bind_of_ok hjoin]
          have hrest := ih b v
          omega
      | error e v =>
          rw [hjoin, leftBehind] at hfirst
          rw [bind_of_error hjoin, leftBehind]
          omega

/-- To join a type to the bottom type interns nothing. -/
theorem Coherent.leftBehind_join_bottom (hu : u.Coherent) (id : TypeId) :
    leftBehind (join .bottom id u) = u := by
  cases hid : u.shape? id with
  | some s =>
      rw [hu.join_eq_intern hu.shape?_bottom hid,
        Shape.join_eq_right_iff.mpr (Shape.bottom_isBelow s), hu.intern_of_shape? hid, leftBehind]
  | none =>
      have hne : TypeId.bottom ≠ id := by
        rintro rfl
        cases hid.symm.trans hu.shape?_bottom
      rw [join_of_ne hne, (byShape_of_missing_right hu.shape?_bottom hid).1, leftBehind]

/-- A union interns at most one type for each of its members but the first, also
if it breaks off. -/
theorem Coherent.typeCount_union_le (hu : u.Coherent) (members : List TypeId) :
    (leftBehind (union members u)).typeCount ≤ u.typeCount + (members.length - 1) := by
  cases members with
  | nil => exact Nat.le_refl _
  | cons m members =>
      have hfirst := hu.leftBehind_join_bottom m
      rw [union, List.foldlM_cons, List.length_cons, Nat.add_sub_cancel]
      cases hjoin : join .bottom m u with
      | ok b v =>
          rw [hjoin, leftBehind] at hfirst
          rw [bind_of_ok hjoin, hfirst]
          exact typeCount_foldlM_join_le members b u
      | error e v =>
          rw [hjoin, leftBehind] at hfirst
          rw [bind_of_error hjoin, leftBehind, hfirst]
          exact Nat.le_add_right _ _

/-- All ways to join the types of one set answer with the same type, in whatever
order they are taken on a lattice that grows meanwhile, after any history. The
answer is the unknown type if that is in the set. Otherwise it has the atoms
that the types had and no others. A union interns less than one type for each
member. -/
theorem joinings_agree (calls : List Call) :
    let u := after calls new
    (∀ (S : Finset TypeId) (gs : List Joining), (∀ id ∈ S, u.Issued id) →
      (∀ g ∈ gs, ∀ id, id ∈ g.operands ↔ id ∈ S) →
      (leftBehind (gs.mapM Joining.run u)).typeCount ≤ UInt32.size →
      ∃ cs v, gs.mapM Joining.run u = .ok cs v ∧ cs.length = gs.length ∧
        (∀ c ∈ cs, ∀ d ∈ cs, c = d) ∧
        ∀ c ∈ cs, (S = ∅ → c = .bottom) ∧ (.unknown ∈ S → c = .unknown) ∧
          (.unknown ∉ S → ∃ as, v.shape? c = some (.union as) ∧
            ∀ a, a ∈ as ↔ ∃ id ∈ S, u.HasAtom id a)) ∧
    ∀ members, (leftBehind (union members u)).typeCount ≤ u.typeCount + (members.length - 1) := by
  intro u
  have hu : u.Coherent := coherent_after calls
  refine ⟨fun S gs hS hgs hfit => ?_, hu.typeCount_union_le⟩
  have hlist : ∀ id, id ∈ S.toList ↔ id ∈ S := fun id => Finset.mem_toList
  have hissued : ∀ id ∈ S.toList, u.Issued id := fun id hid => hS id ((hlist id).mp hid)
  obtain ⟨cs, v, hrun, hlength, hcs⟩ := hu.mapM_joining_ok hissued
    (fun g hg id => (hgs g hg id).trans (hlist id).symm) hfit
  have huv := (onlyGrows_mapM_joining gs).of_ok hrun
  have hv := huv.coherent hu
  refine ⟨cs, v, hrun, hlength, fun c hc d hd => ?_, fun c hc => ?_⟩
  · obtain ⟨s, hs, hjoin⟩ := hcs c hc
    obtain ⟨t, ht, hjoin'⟩ := hcs d hd
    cases hjoin.unique hjoin'
    exact hv.shape?_inj hs ht
  · obtain ⟨s, hs, hjoin⟩ := hcs c hc
    refine ⟨fun hempty => ?_, fun hunknown => ?_, fun hknown => ?_⟩
    · rw [hempty, Finset.toList_empty] at hjoin
      rw [hjoin.unique (isJoin_nil u)] at hs
      exact hv.shape?_inj hs hv.shape?_bottom
    · rw [hjoin.eq_unknown hu ((hlist _).mpr hunknown)] at hs
      exact hv.shape?_inj hs hv.shape?_unknown
    · have hunions : ∀ id ∈ S.toList, ∃ as, u.shape? id = some (.union as) := by
        intro id hid
        obtain ⟨t, ht⟩ := issued_iff.mp (hissued id hid)
        cases t with
        | union as => exact ⟨as, ht⟩
        | unknown =>
            cases hu.shape?_inj ht hu.shape?_unknown
            exact absurd ((hlist _).mp hid) hknown
      obtain ⟨as, rfl, has⟩ := hjoin.eq_union hunions
      exact ⟨as, hs, fun a => by simp only [has, hlist]⟩

/-- Three types are joined along a tree, from the left with one of them twice,
and along another tree. -/
theorem joinings_agree_in_three_ways :
    let calls : List Call := [.object "Number", .object "String"]
    let u := after calls new
    let S : Finset TypeId := {⟨2⟩, ⟨5⟩, ⟨6⟩}
    let gs : List Joining :=
      [.tree (.node (.leaf ⟨2⟩) (.node (.leaf ⟨5⟩) (.leaf ⟨6⟩))), .union [⟨6⟩, ⟨2⟩, ⟨6⟩, ⟨5⟩],
        .tree (.node (.node (.leaf ⟨6⟩) (.leaf ⟨2⟩)) (.node (.leaf ⟨5⟩) (.leaf ⟨2⟩)))]
    (∀ id ∈ S, u.Issued id) ∧ (∀ g ∈ gs, ∀ id, id ∈ g.operands ↔ id ∈ S) ∧
    (leftBehind (gs.mapM Joining.run u)).typeCount ≤ UInt32.size ∧
    ∃ cs v, gs.mapM Joining.run u = .ok cs v ∧ cs.length = 3 ∧ ∀ c ∈ cs, ∀ d ∈ cs, c = d := by
  intro calls u S gs
  have hissued : ∀ id ∈ S, (after calls new).Issued id := by
    intro id hid
    have hcount : (after calls new).typeCount = 7 := by cbv
    simp only [S, Finset.mem_insert, Finset.mem_singleton] at hid
    rw [issued_iff_lt, hcount]
    rcases hid with rfl | rfl | rfl <;> decide
  have hoperands : ∀ g ∈ gs, ∀ id, id ∈ g.operands ↔ id ∈ S := by
    simp only [gs, S, List.forall_mem_cons, Joining.operands, JoinTree.leaves]
    refine ⟨fun id => by simp, fun id => ?_, fun id => ?_, fun _ h => absurd h List.not_mem_nil⟩
    all_goals simp; grind
  have hfit : (leftBehind (gs.mapM Joining.run (after calls new))).typeCount ≤ UInt32.size := by
    simp only [gs, List.mapM_cons, List.mapM_nil]
    cbv
  obtain ⟨cs, v, hrun, hlength, hagree, -⟩ := (joinings_agree calls).1 S gs hissued hoperands hfit
  exact ⟨hissued, hoperands, hfit, cs, v, hrun, hlength, hagree⟩

end BoxedTypes.UnionTypes

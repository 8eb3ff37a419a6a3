import BoxedTypes.Proofs.DeclaredTypes
import BoxedTypes.Proofs.Groupings
import BoxedTypes.Proofs.JoinOutcome
import BoxedTypes.Proofs.Permanence

/-!
# When a missing handle is noticed

A union and a freeze make one join after the other, and each join looks its
handles up in the lattice as the joins before it have left it. That is the only
look-up that there is, so a handle is judged when its own join is reached and
not when the operation is called. A handle that has no type at the call can have
one by then, if it is the next handle and an earlier join has interned a type
under it, and then it is taken for that type (`unissued_handle_accepted`).

What does hold is said of the lattice that is reached. A union breaks off at the
first member that has no type there, and leaves the union of the members before
it behind (`union_eq_error_iff`). A freeze breaks off at the first slot whose
type is missing there (`Coherent.freeze_of_isFirst`); `reached` is the lattice,
given as the history of the joins that were made. Since a join interns one type
at most, a handle far enough beyond the types of the lattice is refused in any
case, and how far that is follows from its place.

A type that was joined to before is at hand in every case: it starts as the
bottom type or a scalar, and a join that succeeds answers with an issued handle.
That needs no room for handles, because past the limit it is some earlier handle
that a join answers with.
-/

namespace BoxedTypes.UnionTypes

variable {u v w : UnionTypes} {a b c : TypeId} {members before later : List TypeId}

theorem Coherent.issued_of_intern (hu : u.Coherent) (s : Shape) :
    (u.intern s).2.Issued (u.intern s).1 :=
  (hu.shapes.intern s).isSome_get?_of_find? (Pool.find?_intern u.shapes s)

theorem Coherent.join_of_issued (hu : u.Coherent) (ha : u.Issued a) (hb : u.Issued b) :
    ∃ c v, join a b u = .ok c v ∧ v.Issued c := by
  obtain ⟨s, hs⟩ := issued_iff.mp ha
  obtain ⟨t, ht⟩ := issued_iff.mp hb
  exact ⟨_, _, hu.join_eq_intern hs ht, hu.issued_of_intern _⟩

theorem join_of_missing (ha : u.Issued a) (hb : ¬ u.Issued b) :
    join a b u = .error (.missingType b) u := by
  have hne : a ≠ b := fun h => hb (h ▸ ha)
  obtain ⟨s, hs⟩ := issued_iff.mp ha
  rw [join_of_ne hne]
  exact (byShape_of_missing_right hs (shape?_of_not_issued hb)).1

/-! ## Unions -/

theorem foldlM_join_of_missing {m : TypeId} (h : before.foldlM join a u = .ok c v)
    (hc : v.Issued c) (hm : ¬ v.Issued m) :
    (before ++ m :: later).foldlM join a u = .error (.missingType m) v := by
  rw [foldlM_append_of_ok h, List.foldlM_cons]
  exact bind_of_error (join_of_missing hc hm)

/-- The induction goes along the members: what has been joined so far is issued,
so only the next member can be missing. -/
theorem Coherent.foldlM_join_cases (hu : u.Coherent) (ha : u.Issued a)
    (members : List TypeId) :
    (∃ c v, members.foldlM join a u = .ok c v ∧ v.Issued c) ∨
      ∃ before m later c v, members = before ++ m :: later ∧
        before.foldlM join a u = .ok c v ∧ v.Issued c ∧ ¬ v.Issued m := by
  induction members generalizing a u with
  | nil => exact .inl ⟨a, u, rfl, ha⟩
  | cons m members ih =>
      by_cases hm : u.Issued m
      · obtain ⟨b, w, hjoin, hb⟩ := hu.join_of_issued ha hm
        have hw := ((onlyGrows_join a m).of_ok hjoin).coherent hu
        have hstep : ∀ ms : List TypeId,
            (m :: ms).foldlM join a u = ms.foldlM join b w := fun ms => by
          rw [List.foldlM_cons, bind_of_ok hjoin]
        rcases ih hw hb with ⟨c, v, hrest, hc⟩ | ⟨before, m', later, c, v, rfl, hbefore, hc, hm'⟩
        · exact .inl ⟨c, v, (hstep members).trans hrest, hc⟩
        · exact .inr ⟨m :: before, m', later, c, v, rfl, (hstep before).trans hbefore, hc, hm'⟩
      · exact .inr ⟨[], m, members, a, u, rfl, rfl, ha, hm⟩

theorem Coherent.issued_of_union (hu : u.Coherent) (h : union members u = .ok c v) :
    v.Issued c := by
  rcases hu.foldlM_join_cases hu.issued_bottom members with
    ⟨c', v', hunion, hc⟩ | ⟨before, m, later, c', v', rfl, hbefore, hc, hm⟩
  · cases h.symm.trans hunion
    exact hc
  · cases h.symm.trans (foldlM_join_of_missing hbefore hc hm)

/-- A union fails at the first member that is missing when it is reached, and
leaves behind what the union of the members before it leaves. -/
theorem Coherent.union_eq_error_iff (hu : u.Coherent) {e : Breach} :
    union members u = .error e v ↔
      ∃ before m later c, members = before ++ m :: later ∧ union before u = .ok c v ∧
        ¬ v.Issued m ∧ e = .missingType m := by
  constructor
  · intro h
    rcases hu.foldlM_join_cases hu.issued_bottom members with
      ⟨c, v', hunion, -⟩ | ⟨before, m, later, c, v', rfl, hbefore, hc, hm⟩
    · cases h.symm.trans hunion
    · cases h.symm.trans (foldlM_join_of_missing hbefore hc hm)
      exact ⟨before, m, later, c, rfl, hbefore, hm, rfl⟩
  · rintro ⟨before, m, later, c, rfl, hbefore, hm, rfl⟩
    exact foldlM_join_of_missing hbefore (hu.issued_of_union hbefore) hm

/-- Where a union is refused, it is for a missing type. -/
theorem Coherent.union_cases (hu : u.Coherent) (members : List TypeId) :
    (∃ c v, union members u = .ok c v) ∨
      ∃ id v, union members u = .error (.missingType id) v := by
  cases h : union members u with
  | ok c v => exact .inl ⟨c, v, rfl⟩
  | error e v =>
      obtain ⟨before, m, later, c, -, -, -, rfl⟩ := hu.union_eq_error_iff.mp h
      exact .inr ⟨m, v, rfl⟩

/-- Each member of a union that succeeds is issued when it is reached. -/
theorem Coherent.reached_of_union (hu : u.Coherent) {m : TypeId}
    (h : union (before ++ m :: later) u = .ok c v) :
    ∃ b w, union before u = .ok b w ∧ w.Issued m ∧ w.Grows v := by
  rw [union, List.foldlM_append] at h
  obtain ⟨b, w, hbefore, hrest⟩ := bind_ok_cases h
  have hw := ((onlyGrows_union before).of_ok hbefore).coherent hu
  have hgrows := (OnlyGrows.foldlM onlyGrows_join (m :: later) b).of_ok hrest
  rw [List.foldlM_cons] at hrest
  obtain ⟨b', w', hjoin, -⟩ := bind_ok_cases hrest
  exact ⟨b, w, hbefore, hw.issued_right_of_join (hu.issued_of_union hbefore) hjoin, hgrows⟩

/-- Every member of a union that succeeds is issued by the end of it. -/
theorem Coherent.issued_of_mem_union (hu : u.Coherent) (h : union members u = .ok c v)
    {m : TypeId} (hm : m ∈ members) : v.Issued m := by
  obtain ⟨before, later, rfl⟩ := List.append_of_mem hm
  obtain ⟨b, w, -, hissued, hgrows⟩ := hu.reached_of_union h
  exact hgrows.issued hissued

/-- A member is refused for certain if the union cannot have interned that many
types before it. -/
theorem Coherent.union_of_far (hu : u.Coherent) {m : TypeId}
    (hm : u.typeCount + (before.length - 1) ≤ m.index.toNat) :
    ∃ id v, union (before ++ m :: later) u = .error (.missingType id) v := by
  rcases hu.union_cases before with ⟨c, v, hbefore⟩ | ⟨id, v, hbefore⟩
  · have hcount := hu.typeCount_union_le before
    rw [hbefore, leftBehind] at hcount
    have hmissing : ¬ v.Issued m := fun h => by
      have := issued_iff_lt.mp h
      omega
    exact ⟨m, v, foldlM_join_of_missing hbefore (hu.issued_of_union hbefore) hmissing⟩
  · refine ⟨id, v, ?_⟩
    rw [union, List.foldlM_append]
    exact bind_of_error hbefore

/-! ## Freezes -/

/-- The join that the composite of a kind takes, if it takes one. -/
def compositeJoin (boxed : PerScalar TypeId) (k : Scalar) : List Call :=
  if boxed.get k = .unknown then [] else [.join (.ofScalar k) (boxed.get k)]

/-- The lattice after the joins for the first slots of a freeze, so many of
them, and nothing else. -/
def reached (u : UnionTypes) (boxed : PerScalar TypeId) (slots : Nat) : UnionTypes :=
  after ((Scalar.all.take slots).flatMap (compositeJoin boxed)) u

variable {boxed boxed' : PerScalar TypeId} {d : Draft TypeId} {k : Scalar}

theorem reached_congr (h : ∀ l : Scalar, l.index < k.index → boxed'.get l = boxed.get l) :
    u.reached boxed' k.index = u.reached boxed k.index := by
  have hindex : ∀ l ∈ Scalar.all.take k.index, l.index < k.index := by cases k <;> decide
  have hjoins : (Scalar.all.take k.index).flatMap (compositeJoin boxed') =
      (Scalar.all.take k.index).flatMap (compositeJoin boxed) :=
    List.flatMap_congr fun l hl => by rw [compositeJoin, compositeJoin, h l (hindex l hl)]
  rw [reached, hjoins, reached]

/-- What the join for a slot does to the lattice, the composite of the kind
does. -/
theorem reached_succ (u : UnionTypes) (boxed : PerScalar TypeId) (k : Scalar) :
    u.reached boxed (k.index + 1) =
      leftBehind (Registry.composite k (boxed.get k) (u.reached boxed k.index)) := by
  have hall : Scalar.all.take (k.index + 1) = Scalar.all.take k.index ++ [k] := by
    cases k <;> rfl
  rw [reached, hall, List.flatMap_append, after_append, List.flatMap_singleton, compositeJoin,
    composite_eq]
  split
  · rfl
  · rw [after_cons, Call.run, leftBehind_adaptExcept, leftBehind_map]
    rfl

theorem grows_reached (u : UnionTypes) (boxed : PerScalar TypeId) {m n : Nat} (h : m ≤ n) :
    (u.reached boxed m).Grows (u.reached boxed n) := by
  obtain ⟨j, rfl⟩ := Nat.exists_eq_add_of_le h
  rw [reached, reached, List.take_add, List.flatMap_append, after_append]
  exact grows_after _ _

theorem coherent_reached (hu : u.Coherent) (boxed : PerScalar TypeId) (n : Nat) :
    (u.reached boxed n).Coherent :=
  (grows_after _ u).coherent hu

theorem typeCount_composite_le (k : Scalar) (id : TypeId) (u : UnionTypes) :
    (leftBehind (Registry.composite k id u)).typeCount ≤ u.typeCount + 1 := by
  rw [composite_eq]
  split
  · exact Nat.le_succ _
  · exact typeCount_join_le _ _ u

theorem typeCount_reached_le (u : UnionTypes) (boxed : PerScalar TypeId) (k : Scalar) :
    (u.reached boxed k.index).typeCount ≤ u.typeCount + k.index := by
  have hstep : ∀ l : Scalar, (u.reached boxed (l.index + 1)).typeCount ≤
      (u.reached boxed l.index).typeCount + 1 := by
    intro l
    rw [reached_succ]
    exact typeCount_composite_le l _ _
  cases k with
  | number => exact Nat.le_refl _
  | string => exact hstep .number
  | boolean => exact Nat.le_trans (hstep .string) (Nat.succ_le_succ (hstep .number))

/-- The lattice has no type for a slot when the join of the slot is reached. -/
def Lacks (u : UnionTypes) (boxed : PerScalar TypeId) (k : Scalar) : Prop :=
  ¬ (u.reached boxed k.index).Issued (boxed.get k)

theorem issued_of_not_lacks (h : ¬ u.Lacks boxed k) :
    (u.reached boxed k.index).Issued (boxed.get k) :=
  Classical.not_not.mp h

theorem Coherent.composite_of_not_lacks (hu : u.Coherent) (hk : ¬ u.Lacks boxed k) :
    ∃ c, Registry.composite k (boxed.get k) (u.reached boxed k.index) =
      .ok c (u.reached boxed (k.index + 1)) := by
  obtain ⟨s, hs⟩ := issued_iff.mp (issued_of_not_lacks hk)
  rw [reached_succ, (coherent_reached hu boxed k.index).composite_eq_intern k hs]
  exact ⟨_, rfl⟩

theorem Coherent.composite_of_missing (hu : u.Coherent) (k : Scalar) {id : TypeId}
    (hid : ¬ u.Issued id) : Registry.composite k id u = .error (.missingType id) u := by
  have hne : id ≠ .unknown := fun h => hid (h ▸ hu.issued_unknown)
  rw [composite_eq, if_neg hne]
  exact join_of_missing (hu.issued_ofScalar k) hid

theorem Coherent.derive_of_isFirst (hu : u.Coherent) (h : Scalar.IsFirst (u.Lacks boxed) k) :
    Registry.derive boxed u =
      .error (.missingType (boxed.get k)) (u.reached boxed k.index) := by
  have hstop := (coherent_reached hu boxed k.index).composite_of_missing k h.holds
  unfold Registry.derive
  cases k with
  | number => exact bind_of_error hstop
  | string =>
      obtain ⟨n, hn⟩ := hu.composite_of_not_lacks (h.before .number (by decide))
      exact (bind_of_ok hn).trans (bind_of_error hstop)
  | boolean =>
      obtain ⟨n, hn⟩ := hu.composite_of_not_lacks (h.before .number (by decide))
      obtain ⟨s, hs⟩ := hu.composite_of_not_lacks (h.before .string (by decide))
      exact (bind_of_ok hn).trans ((bind_of_ok hs).trans (bind_of_error hstop))

/-- Where the first composites have been derived already, deriving a registry
does what it would have done before that. -/
theorem Coherent.derive_reached (hu : u.Coherent) (slots : Nat)
    (h : ∀ l : Scalar, l.index < slots → ¬ u.Lacks boxed l) :
    Registry.derive boxed (u.reached boxed slots) = Registry.derive boxed u := by
  have hok : ∀ l : Scalar, l.index < slots →
      ∃ c, Registry.composite l (boxed.get l) (u.reached boxed l.index) =
        .ok c (u.reached boxed (l.index + 1)) := fun l hl => hu.composite_of_not_lacks (h l hl)
  -- The composites before the slot are settled, so the run from the later
  -- lattice takes them again, one by one, until it has caught up with the run
  -- from the earlier one.
  unfold Registry.derive
  match slots with
  | 0 => rfl
  | 1 =>
      obtain ⟨n, hn⟩ := hok .number (by decide)
      exact (settles_composite _ _).resume hu hn (Grows.refl _) rfl
  | 2 =>
      obtain ⟨n, hn⟩ := hok .number (by decide)
      obtain ⟨s, hs⟩ := hok .string (by decide)
      refine (settles_composite _ _).resume hu hn (grows_reached u boxed (by decide)) ?_
      exact (settles_composite _ _).resume (coherent_reached hu boxed 1) hs (Grows.refl _) rfl
  | m + 3 =>
      have hall : Scalar.all.take (m + 3) = Scalar.all :=
        List.take_of_length_le (Nat.le_add_left 3 m)
      have hreached : u.reached boxed (m + 3) = u.reached boxed 3 := by
        rw [reached, hall]
        rfl
      rw [hreached]
      obtain ⟨n, hn⟩ := hok .number (Nat.succ_pos _)
      obtain ⟨s, hs⟩ := hok .string (Nat.succ_lt_succ (Nat.succ_pos _))
      obtain ⟨b, hb⟩ := hok .boolean (Nat.le_add_left 3 m)
      refine (settles_composite _ _).resume hu hn (grows_reached u boxed (by decide)) ?_
      refine (settles_composite _ _).resume (coherent_reached hu boxed 1) hs
        (grows_reached u boxed (by decide)) ?_
      exact (settles_composite _ _).resume (coherent_reached hu boxed 2) hb (Grows.refl _) rfl

/-- A freeze fails at the first slot that the lattice lacks a type for when its
join is reached, and leaves behind what the joins before it leave. -/
theorem Coherent.freeze_of_isFirst (hu : u.Coherent)
    (hd : ∀ k, d.slots.get k = some (boxed.get k)) (h : Scalar.IsFirst (u.Lacks boxed) k) :
    d.freeze u = .error (.breach (.missingType (boxed.get k))) (u.reached boxed k.index) :=
  Draft.freeze_of_derive_error hd (hu.derive_of_isFirst h)

theorem Coherent.freeze_reached (hu : u.Coherent)
    (hd : ∀ k, d.slots.get k = some (boxed.get k)) (slots : Nat)
    (h : ∀ l : Scalar, l.index < slots → ¬ u.Lacks boxed l) :
    d.freeze (u.reached boxed slots) = d.freeze u :=
  Draft.freeze_of_derive_eq hd (hu.derive_reached slots h)

theorem issued_reached_of_not_lacks (h : ¬ u.Lacks boxed k) :
    (u.reached boxed Scalar.all.length).Issued (boxed.get k) :=
  (grows_reached u boxed (by cases k <;> decide)).issued (issued_of_not_lacks h)

/-- Nothing else can go wrong, as long as there is room. The composites are all
there once they were derived, so it is enough to look at a freeze after that. -/
theorem Coherent.freeze_of_not_lacks (hu : u.Coherent)
    (hd : ∀ k, d.slots.get k = some (boxed.get k)) (h : ∀ k, ¬ u.Lacks boxed k)
    (hfit : (leftBehind (d.freeze u)).typeCount ≤ UInt32.size) :
    ∃ r v, d.freeze u = .ok r v := by
  rw [← hu.freeze_reached hd Scalar.all.length fun l _ => h l] at hfit ⊢
  exact (coherent_reached hu boxed _).exists_freeze hd
    (fun k => issued_reached_of_not_lacks (h k)) hfit

/-- Every type that is frozen is issued by the end of the freeze. -/
theorem Coherent.issued_of_slot (hu : u.Coherent)
    (hd : ∀ k, d.slots.get k = some (boxed.get k)) {r : Registry TypeId}
    (h : d.freeze u = .ok r v) (k : Scalar) : v.Issued (boxed.get k) := by
  have hnone : ∀ l, ¬ u.Lacks boxed l := by
    intro l hl
    obtain ⟨m, hm⟩ := Scalar.exists_isFirst hl
    cases h.symm.trans (hu.freeze_of_isFirst hd hm)
  rw [← hu.freeze_reached hd Scalar.all.length fun l _ => hnone l] at h
  exact ((onlyGrows_freeze d).of_ok h).issued (issued_reached_of_not_lacks (hnone k))

/-- A slot is refused for certain if the freeze cannot have interned that many
types before it. -/
theorem Coherent.freeze_of_far (hu : u.Coherent)
    (hd : ∀ k, d.slots.get k = some (boxed.get k))
    (hk : u.typeCount + k.index ≤ (boxed.get k).index.toNat) :
    ∃ id v, d.freeze u = .error (.breach (.missingType id)) v := by
  have hlacks : u.Lacks boxed k := fun h => by
    have hlt := issued_iff_lt.mp h
    have hle := typeCount_reached_le u boxed k
    omega
  obtain ⟨l, hl⟩ := Scalar.exists_isFirst hlacks
  exact ⟨_, _, hu.freeze_of_isFirst hd hl⟩

/-- A union and a freeze refuse a handle exactly if it has no type when its own
join is reached, and they leave behind the joins made until then. So a handle
that had no type at the call is refused unless the call itself interns one under
it, and it is refused in any case if it is farther beyond the types of the
lattice than the call can have come by then. -/
theorem missing_handle_refused (calls : List Call) :
    let u := after calls new
    (∀ members e v, union members u = .error e v ↔
      ∃ before m later c, members = before ++ m :: later ∧ union before u = .ok c v ∧
        ¬ v.Issued m ∧ e = .missingType m) ∧
    (∀ before m later, u.typeCount + (before.length - 1) ≤ m.index.toNat →
      ∃ id v, union (before ++ m :: later) u = .error (.missingType id) v) ∧
    (∀ members c v, union members u = .ok c v → ∀ m ∈ members, v.Issued m) ∧
    ∀ (d : Draft TypeId) (boxed : PerScalar TypeId),
      (∀ k, d.slots.get k = some (boxed.get k)) →
      (∀ k, Scalar.IsFirst (u.Lacks boxed) k →
        d.freeze u =
          .error (.breach (.missingType (boxed.get k))) (u.reached boxed k.index)) ∧
      (∀ k, u.typeCount + k.index ≤ (boxed.get k).index.toNat →
        ∃ id v, d.freeze u = .error (.breach (.missingType id)) v) ∧
      ∀ r v, d.freeze u = .ok r v → ∀ k, v.Issued (boxed.get k) := by
  intro u
  have hu : u.Coherent := coherent_after calls
  refine ⟨fun members e v => hu.union_eq_error_iff, fun before m later hm => hu.union_of_far hm,
    fun members c v h m hm => hu.issued_of_mem_union h hm,
    fun d boxed hd => ⟨fun k hk => hu.freeze_of_isFirst hd hk, fun k hk => hu.freeze_of_far hd hk,
      fun r v h k => hu.issued_of_slot hd h k⟩⟩

/-- With six types, the handle 7 is one too far for the third member of a union
and for the second slot of a freeze. -/
theorem missing_handle_refused_one_too_far :
    let u := after [.object "Number"] new
    let d : Draft TypeId := ⟨⟨some ⟨5⟩, some ⟨7⟩, some .unknown⟩⟩
    u.typeCount = 6 ∧
    (∃ id v, union [.ofScalar .number, ⟨5⟩, ⟨7⟩] u = .error (.missingType id) v) ∧
    ∃ id v, d.freeze u = .error (.breach (.missingType id)) v := by
  intro u d
  have hcount : (after [.object "Number"] new).typeCount = 6 := by cbv
  have hmember : (after [.object "Number"] new).typeCount + 1 ≤ 7 := Nat.le_of_eq (by rw [hcount])
  obtain ⟨-, hunion, -, hfreeze⟩ := missing_handle_refused [.object "Number"]
  obtain ⟨-, hslot, -⟩ := hfreeze d ⟨⟨5⟩, ⟨7⟩, .unknown⟩ fun k => by cases k <;> rfl
  exact ⟨hcount, hunion [.ofScalar .number, ⟨5⟩] ⟨7⟩ [] hmember, hslot .string hmember⟩

/-- A handle that has no type at the call need not be refused. With six types,
the handle 6 is taken for the union of the first two members, and for the
composite of the slot before. -/
theorem unissued_handle_accepted :
    (¬ ∀ calls members, (∃ m ∈ members, (after calls new).typeCount ≤ m.index.toNat) →
      ∃ id v, union members (after calls new) = .error (.missingType id) v) ∧
    ¬ ∀ calls (d : Draft TypeId) (boxed : PerScalar TypeId),
      (∀ k, d.slots.get k = some (boxed.get k)) →
      (∃ k, (after calls new).typeCount ≤ (boxed.get k).index.toNat) →
      ∃ id v, d.freeze (after calls new) = .error (.breach (.missingType id)) v := by
  refine ⟨fun h => ?_, fun h => ?_⟩
  · have hok : union [.ofScalar .number, ⟨5⟩, ⟨6⟩] (after [.object "Number"] new) =
        .ok ⟨6⟩ (leftBehind (union [.ofScalar .number, ⟨5⟩, ⟨6⟩]
          (after [.object "Number"] new))) := by cbv
    obtain ⟨id, v, herror⟩ := h [.object "Number"] [.ofScalar .number, ⟨5⟩, ⟨6⟩]
      ⟨⟨6⟩, by simp, by cbv⟩
    cases hok.symm.trans herror
  · let d : Draft TypeId := ⟨⟨some ⟨5⟩, some ⟨6⟩, some .unknown⟩⟩
    have hok : d.freeze (after [.object "Number"] new) =
        .ok ⟨⟨⟨5⟩, ⟨6⟩, .unknown⟩, ⟨⟨6⟩, ⟨7⟩, .ofScalar .boolean⟩, ⟨7⟩⟩
          (leftBehind (d.freeze (after [.object "Number"] new))) := by cbv
    obtain ⟨id, v, herror⟩ := h [.object "Number"] d ⟨⟨5⟩, ⟨6⟩, .unknown⟩
      (fun k => by cases k <;> rfl) ⟨.string, by cbv⟩
    cases hok.symm.trans herror

end BoxedTypes.UnionTypes

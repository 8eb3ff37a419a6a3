import BoxedTypes.Proofs.MissingHandles

/-!
# What a union that breaks off leaves behind

A union is a run of joins, and where it meets a member that has no type, the
joins before that member have been made. It cannot take them back. But it has
done nothing else either: the lattice that it leaves behind is the one that the
union of the members before the missing one leaves, and to ask for that union
again gives the same answer and interns nothing.

So what there is to say about the lattice is said about unions that succeed.
Each of their joins adds one type or none, and a type that a join has added is
what the union of the members up to there answers with
(`Coherent.foldlM_join_added`). The atoms of that type are the atoms of those
members (`Coherent.union_added`). The members are read in the lattice at the end
and not at the call, since a member may be a type that the same union has added
before it.

None of this needs room for handles. A handle that reads a new type is below the
limit, and so were all that were given out before it.
-/

namespace BoxedTypes.UnionTypes

variable {u v w : UnionTypes} {a b c id : TypeId} {s : Shape} {members before later : List TypeId}

/-! ## The types that a union adds -/

theorem eq_of_intern_of_lt (h : u.intern s = (c, v)) (hlt : u.typeCount < v.typeCount) :
    c = ⟨UInt32.ofNat u.typeCount⟩ := by
  cases hf : u.shapes.find? s with
  | some k =>
      rw [intern, Pool.intern_of_find?_eq_some hf] at h
      cases h
      exact absurd hlt (Nat.lt_irrefl _)
  | none =>
      rw [intern, Pool.intern_of_fresh hf] at h
      cases h
      rfl

/-- A join that adds a type answers with its handle. -/
theorem Coherent.eq_of_join_of_lt (hu : u.Coherent) (h : join a b u = .ok c v)
    (hlt : u.typeCount < v.typeCount) : c = ⟨UInt32.ofNat u.typeCount⟩ := by
  rcases hu.join_ok_cases h with ⟨-, -, -, rfl⟩ | ⟨s, t, -, -, hint⟩
  · exact absurd hlt (Nat.lt_irrefl _)
  · exact eq_of_intern_of_lt hint hlt

/-- The induction goes along the members: a new type is added by the next join,
or it is still missing after that. -/
theorem Coherent.foldlM_join_added (hu : u.Coherent) (h : members.foldlM join a u = .ok c v)
    {i : Nat} (hi : u.typeCount ≤ i) (hiv : i < v.typeCount) :
    ∃ before later w, members = before ++ later ∧
      before.foldlM join a u = .ok ⟨UInt32.ofNat i⟩ w ∧ w.typeCount = i + 1 ∧ w.Grows v := by
  induction members generalizing a u with
  | nil =>
      cases h
      omega
  | cons m members ih =>
      rw [List.foldlM_cons] at h
      obtain ⟨b, w, hjoin, hrest⟩ := bind_ok_cases h
      have hstep : ∀ ms : List TypeId, (m :: ms).foldlM join a u = ms.foldlM join b w :=
        fun ms => by rw [List.foldlM_cons, bind_of_ok hjoin]
      have hcount := typeCount_join_le a m u
      rw [hjoin, leftBehind] at hcount
      rcases Nat.lt_or_ge i w.typeCount with hiw | hiw
      · have hb : b = ⟨UInt32.ofNat i⟩ := by
          rw [hu.eq_of_join_of_lt hjoin (by omega), show u.typeCount = i by omega]
        refine ⟨[m], members, w, rfl, ?_, by omega, ?_⟩
        · rw [hstep, ← hb]
          rfl
        · exact (OnlyGrows.foldlM onlyGrows_join members b).of_ok hrest
      · have hw := ((onlyGrows_join a m).of_ok hjoin).coherent hu
        obtain ⟨before, later, w', rfl, hbefore, hcount', hgrows⟩ := ih hw hrest hiw
        exact ⟨m :: before, later, w', rfl, (hstep before).trans hbefore, hcount', hgrows⟩

/-- A union that succeeds answers with the join of its members, each of which
has a type by then. -/
theorem Coherent.isJoin_of_union (hu : u.Coherent) (h : union members u = .ok c v)
    (hfit : v.typeCount ≤ UInt32.size) : ∃ s, v.shape? c = some s ∧ v.IsJoin members s := by
  have hv := ((onlyGrows_union members).of_ok h).coherent hu
  have hagain := (settles_union members).again hu h (Grows.refl v)
  obtain ⟨c', v', s, hrun, hs, hjoin⟩ := (joins_union members).ok v hv
    (fun m hm => hu.issued_of_mem_union h hm) (by rw [hagain]; exact hfit)
  cases hagain.symm.trans hrun
  exact ⟨s, hs, hjoin⟩

/-- A type that a union adds has the atoms of the members up to some member, and
the union of those answers with it. -/
theorem Coherent.union_added (hu : u.Coherent) (h : union members u = .ok c v)
    (hid : v.Issued id) (hnew : ¬ u.Issued id) :
    ∃ before later w as, members = before ++ later ∧ union before u = .ok id w ∧
      v.shape? id = some (.union as) ∧ ∀ x, x ∈ as ↔ ∃ m ∈ before, v.HasAtom m x := by
  have hle : u.typeCount ≤ id.index.toNat := Nat.not_lt.mp fun hlt => hnew (issued_iff_lt.mpr hlt)
  obtain ⟨before, later, w, rfl, hbefore, hcount, hgrows⟩ :=
    hu.foldlM_join_added h hle (issued_iff_lt.mp hid)
  rw [UInt32.ofNat_toNat] at hbefore
  have hw := ((onlyGrows_union before).of_ok hbefore).coherent hu
  have hfit : w.typeCount ≤ UInt32.size := by
    rw [hcount]
    exact id.index.toNat_lt
  obtain ⟨s, hs, hjoin⟩ := hu.isJoin_of_union hbefore hfit
  have hissued : ∀ m ∈ before, w.Issued m := fun m hm => hu.issued_of_mem_union hbefore hm
  -- The unknown type is there from the start, so the new one is another.
  have hknown : .unknown ∉ before := by
    intro hmem
    rw [hjoin.eq_unknown hw hmem] at hs
    obtain rfl : id = .unknown := hw.shape?_inj hs hw.shape?_unknown
    exact hnew hu.issued_unknown
  have hunions : ∀ m ∈ before, ∃ as, w.shape? m = some (.union as) := by
    intro m hm
    obtain ⟨t, ht⟩ := issued_iff.mp (hissued m hm)
    cases t with
    | union as => exact ⟨as, ht⟩
    | unknown =>
        cases hw.shape?_inj ht hw.shape?_unknown
        exact absurd hm hknown
  obtain ⟨as, rfl, -⟩ := hjoin.eq_union hunions
  have hjoin' := (isJoin_iff_of_grows hgrows hissued).mpr hjoin
  obtain ⟨as', heq, has⟩ := hjoin'.eq_union fun m hm =>
    (hunions m hm).imp fun _ hbs => hgrows.shape? hbs
  cases heq
  exact ⟨before, later, w, as, rfl, hbefore, hgrows.shape? hs, has⟩

/-! ## Unions that break off -/

/-- A union breaks off at the first member that has no type when it is reached,
whatever has been joined before it, also the unknown type, and names that
member. It leaves the lattice that the union of the members before it leaves.
All types from before the call are in it as they were. A new one is the union of
some first members, which are not all, and has their atoms. The union of all the
members before the missing one can be asked for again; it answers the same and
interns nothing. -/
theorem failed_union (calls : List Call) (members : List TypeId) :
    let u := after calls new
    (∀ before m later c v, members = before ++ m :: later → union before u = .ok c v →
      ¬ v.Issued m → union members u = .error (.missingType m) v) ∧
    ∀ e v, union members u = .error e v →
      ∃ before m later c, members = before ++ m :: later ∧
        union before u = .ok c v ∧ ¬ v.Issued m ∧
        (∀ first x rest, before = first ++ x :: rest →
          ∃ b w, union first u = .ok b w ∧ w.Issued x) ∧
        e.message = s!"UnionLattice: type id {m.index.toNat} not found " ++
          "(TypeIds are only valid for the lattice that issued them)" ∧
        (∀ id s, u.shape? id = some s → v.shape? id = some s) ∧
        (∀ id, v.Issued id → ¬ u.Issued id → ∃ first rest w as, before = first ++ rest ∧
          union first u = .ok id w ∧ v.shape? id = some (.union as) ∧
          ∀ x, x ∈ as ↔ ∃ y ∈ first, v.HasAtom y x) ∧
        (∀ i, u.typeCount ≤ i → i < v.typeCount → ∃ first rest w, before = first ++ rest ∧
          union first u = .ok ⟨UInt32.ofNat i⟩ w ∧ w.typeCount = i + 1) ∧
        union before v = .ok c v := by
  intro u
  have hu : u.Coherent := coherent_after calls
  refine ⟨fun before m later c v hmembers hbefore hm => ?_, fun e v h => ?_⟩
  · exact hu.union_eq_error_iff.mpr ⟨before, m, later, c, hmembers, hbefore, hm, rfl⟩
  · obtain ⟨before, m, later, c, hmembers, hbefore, hm, rfl⟩ := hu.union_eq_error_iff.mp h
    have hgrows := (onlyGrows_union before).of_ok hbefore
    refine ⟨before, m, later, c, hmembers, hbefore, hm, fun first x rest hsplit => ?_, rfl,
      fun id s hs => hgrows.shape? hs, fun id hid hnew => hu.union_added hbefore hid hnew,
      fun i hi hiv => ?_, (settles_union before).again hu hbefore (Grows.refl v)⟩
    · rw [hsplit] at hbefore
      obtain ⟨b, w, hfirst, hissued, -⟩ := hu.reached_of_union hbefore
      exact ⟨b, w, hfirst, hissued⟩
    · obtain ⟨first, rest, w, hsplit, hfirst, hcount, -⟩ := hu.foldlM_join_added hbefore hi hiv
      exact ⟨first, rest, w, hsplit, hfirst, hcount⟩

/-- Two types are joined, the unknown type absorbs them, and then a handle is
missing. The union of the first two stays. -/
theorem failed_union_after_unknown :
    let members : List TypeId := [.ofScalar .number, ⟨5⟩, .unknown, ⟨99⟩, .ofScalar .string]
    let u := after [.object "Number"] new
    ∃ v, union [.ofScalar .number, ⟨5⟩, .unknown] u = .ok .unknown v ∧ ¬ v.Issued ⟨99⟩ ∧
      union members u = .error (.missingType ⟨99⟩) v ∧ v.Issued ⟨6⟩ ∧ ¬ u.Issued ⟨6⟩ ∧
      ∃ before m later c first rest w, members = before ++ m :: later ∧
        union before v = .ok c v ∧ before = first ++ rest ∧ union first u = .ok ⟨6⟩ w := by
  intro members u
  have hcount : (after [.object "Number"] new).typeCount = 6 := by cbv
  have hbefore : union [.ofScalar .number, ⟨5⟩, .unknown] (after [.object "Number"] new) =
      .ok .unknown (leftBehind (union [.ofScalar .number, ⟨5⟩, .unknown]
        (after [.object "Number"] new))) := by cbv
  have hcount' : (leftBehind (union [.ofScalar .number, ⟨5⟩, .unknown]
      (after [.object "Number"] new))).typeCount = 7 := by cbv
  have hmissing : ¬ (leftBehind (union [.ofScalar .number, ⟨5⟩, .unknown]
      (after [.object "Number"] new))).Issued ⟨99⟩ := by
    rw [issued_iff_lt, hcount']
    decide
  have hadded : (leftBehind (union [.ofScalar .number, ⟨5⟩, .unknown]
      (after [.object "Number"] new))).Issued ⟨6⟩ := by
    rw [issued_iff_lt, hcount']
    decide
  have hnew : ¬ (after [.object "Number"] new).Issued ⟨6⟩ := by
    rw [issued_iff_lt, hcount]
    decide
  obtain ⟨hbreaks, hleaves⟩ := failed_union [.object "Number"] members
  have hfails := hbreaks _ ⟨99⟩ [.ofScalar .string] _ _ rfl hbefore hmissing
  obtain ⟨before, m, later, c, hmembers, -, -, -, -, -, htypes, -, hagain⟩ := hleaves _ _ hfails
  obtain ⟨first, rest, w, -, hsplit, hfirst, -⟩ := htypes ⟨6⟩ hadded hnew
  exact ⟨_, hbefore, hmissing, hfails, hadded, hnew, before, m, later, c, first, rest, w,
    hmembers, hagain, hsplit, hfirst⟩

end BoxedTypes.UnionTypes

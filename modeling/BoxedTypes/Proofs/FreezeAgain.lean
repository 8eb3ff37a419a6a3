import BoxedTypes.Proofs.MissingHandles

/-!
# Freezing again

A checker may freeze a registry, go on, and freeze one again from the same boxed
types. The second registry holds handles that were joined at another time, in a
lattice that has grown since, and still it is the first one
(`registry_determined_by_boxed`). Deriving the composites once more is asking
again for joins that were answered, and what was answered is answered alike with
nothing left to intern. So a registry can be thrown away and frozen anew, and
two of them can be told apart by their boxed types alone.

The limit of the handles has no part in this. Past it a composite may come out
as the wrong type, but it comes out as the same wrong type both times.

A freeze that broke off can be made again with other types in the slots that it
did not get through (`failed_freeze_harmless`). It has left composites behind
that a freeze from scratch would have interned, and it has interned nothing
else, so the second freeze meets them at the handles that they would have had
and goes on from there with the next one. For this alone it would not matter
what the other slots hold. That the second freeze succeeds takes types that are
issued, and room.
-/

namespace BoxedTypes

namespace UnionTypes

/-- Two freezes in one history hand out the same registry exactly if their
drafts hold the same types, and then the later one interns nothing. -/
theorem registry_determined_by_boxed (earlier between : List Call) {d d' : Draft TypeId}
    {r r' : Registry TypeId} {v v' : UnionTypes}
    (h : d.freeze (after earlier new) = .ok r v)
    (h' : d'.freeze (after (earlier ++ .freeze d :: between) new) = .ok r' v') :
    (r = r' ↔ ∀ k, d.slots.get k = d'.slots.get k) ∧
    ((∀ k, d.slots.get k = d'.slots.get k) →
      v' = after (earlier ++ .freeze d :: between) new) := by
  have hrun : (Call.freeze d).run (after earlier new) = .ok r.types v := map_of_ok h
  rw [after_of_run hrun] at h' ⊢
  have hagain : d.freeze (after between v) = .ok r (after between v) :=
    (settles_freeze d).again (coherent_after earlier) h (grows_after between v)
  have hsame : (∀ k, d.slots.get k = d'.slots.get k) → r = r' ∧ v' = after between v := by
    intro hslots
    obtain rfl := Draft.ext_slots hslots
    cases hagain.symm.trans h'
    exact ⟨rfl, rfl⟩
  refine ⟨⟨fun hr k => ?_, fun hslots => (hsame hslots).1⟩, fun hslots => (hsame hslots).2⟩
  rw [Registry.slots_of_freeze h, Registry.slots_of_freeze h', hr]

/-- Between the two freezes a class is declared, another freeze and a union
break off, and types are joined that the first composites are made of. -/
theorem registry_determined_by_boxed_after_failures :
    let d : Draft TypeId := ⟨⟨some ⟨5⟩, some ⟨6⟩, some .unknown⟩⟩
    let earlier : List Call := [.object "Number", .object "String"]
    let between : List Call :=
      [.freeze ⟨⟨some ⟨6⟩, some ⟨99⟩, some .unknown⟩⟩, .object "Date",
        .union [⟨6⟩, ⟨5⟩, ⟨99⟩], .join ⟨5⟩ (.ofScalar .string)]
    ∃ r v r' v', d.freeze (after earlier new) = .ok r v ∧
      d.freeze (after (earlier ++ .freeze d :: between) new) = .ok r' v' ∧
      r = r' ∧ v' = after (earlier ++ .freeze d :: between) new := by
  intro d earlier between
  have h : d.freeze (after earlier new) =
      .ok ⟨⟨⟨5⟩, ⟨6⟩, .unknown⟩, ⟨⟨7⟩, ⟨8⟩, .ofScalar .boolean⟩, ⟨9⟩⟩
        (leftBehind (d.freeze (after earlier new))) := by cbv
  have h' : d.freeze (after (earlier ++ .freeze d :: between) new) =
      .ok ⟨⟨⟨5⟩, ⟨6⟩, .unknown⟩, ⟨⟨7⟩, ⟨8⟩, .ofScalar .boolean⟩, ⟨9⟩⟩
        (leftBehind (d.freeze (after (earlier ++ .freeze d :: between) new))) := by cbv
  obtain ⟨hiff, hnothing⟩ := registry_determined_by_boxed earlier between h h'
  exact ⟨_, _, _, _, h, h', hiff.mpr fun _ => rfl, hnothing fun _ => rfl⟩

/-- A type that is issued before a freeze is there when its join is reached. -/
theorem not_lacks_of_issued {u : UnionTypes} {boxed : PerScalar TypeId} {k : Scalar}
    (h : u.Issued (boxed.get k)) : ¬ u.Lacks boxed k := fun hlacks =>
  hlacks ((grows_reached u boxed (Nat.zero_le k.index)).issued h)

/-- With room for its types, a freeze of a full draft can only fail for the
first slot whose type is missing when its join is reached, and then it leaves
the joins of the slots before it behind. Keeping these slots and giving the
others types of the first lattice, a draft is frozen to the same registry there
as before the failure, with the same lattice at the end. -/
theorem failed_freeze_harmless (calls : List Call) {d : Draft TypeId}
    {boxed : PerScalar TypeId} (hd : ∀ k, d.slots.get k = some (boxed.get k))
    {e : FreezeError} {v : UnionTypes} (h : d.freeze (after calls new) = .error e v)
    (hfit : v.typeCount ≤ UInt32.size) :
    let u := after calls new
    ∃ k, Scalar.IsFirst (fun l => ¬ (u.reached boxed l.index).Issued (boxed.get l)) k ∧
      e = .breach (.missingType (boxed.get k)) ∧ v = u.reached boxed k.index ∧
      ∀ (d' : Draft TypeId) (boxed' : PerScalar TypeId),
        (∀ l, d'.slots.get l = some (boxed'.get l)) →
        (∀ l, l.index < k.index → boxed'.get l = boxed.get l) →
        (∀ l, u.Issued (boxed'.get l)) →
        d'.freeze v = d'.freeze u ∧
        ((leftBehind (d'.freeze u)).typeCount ≤ UInt32.size →
          ∃ r w, d'.freeze u = .ok r w ∧ d'.freeze v = .ok r w) := by
  intro u
  have hu : u.Coherent := coherent_after calls
  have hlacks : ∃ l, u.Lacks boxed l := by
    refine Classical.not_forall_not.mp fun hnone => ?_
    obtain ⟨r, w, hok⟩ := hu.freeze_of_not_lacks hd hnone (by rw [h]; exact hfit)
    cases h.symm.trans hok
  obtain ⟨l, hl⟩ := hlacks
  obtain ⟨k, hk⟩ := Scalar.exists_isFirst hl
  cases h.symm.trans (hu.freeze_of_isFirst hd hk)
  refine ⟨k, hk, rfl, rfl, fun d' boxed' hd' hkept hissued => ?_⟩
  have hnone : ∀ l, ¬ u.Lacks boxed' l := fun l => not_lacks_of_issued (hissued l)
  have hsame : d'.freeze (u.reached boxed k.index) = d'.freeze u := by
    rw [← reached_congr hkept]
    exact hu.freeze_reached hd' k.index fun l _ => hnone l
  refine ⟨hsame, fun hroom => ?_⟩
  obtain ⟨r, w, hok⟩ := hu.freeze_of_not_lacks hd' hnone hroom
  exact ⟨r, w, hok, hsame.trans hok⟩

/-- The freeze comes through a declared class for numbers and unknown strings
and breaks off at the booleans. It is made again with a declared class in their
place. -/
theorem failed_freeze_harmless_at_booleans :
    let u := after [.object "Number", .object "Boolean"] new
    let boxed' : PerScalar TypeId := ⟨⟨5⟩, .unknown, ⟨6⟩⟩
    let d : Draft TypeId := ⟨⟨some ⟨5⟩, some .unknown, some ⟨99⟩⟩⟩
    let d' : Draft TypeId := ⟨⟨some ⟨5⟩, some .unknown, some ⟨6⟩⟩⟩
    let v := leftBehind (d.freeze u)
    d.freeze u = .error (.breach (.missingType ⟨99⟩)) v ∧ v.typeCount = 8 ∧
      (∀ k, u.Issued (boxed'.get k)) ∧ ∃ r w, d'.freeze u = .ok r w ∧ d'.freeze v = .ok r w := by
  let boxed : PerScalar TypeId := ⟨⟨5⟩, .unknown, ⟨99⟩⟩
  intro u boxed' d d' v
  have hd : ∀ k, d.slots.get k = some (boxed.get k) := fun k => by cases k <;> rfl
  have hd' : ∀ k, d'.slots.get k = some (boxed'.get k) := fun k => by cases k <;> rfl
  have hfail : d.freeze (after [.object "Number", .object "Boolean"] new) =
      .error (.breach (.missingType ⟨99⟩))
        (leftBehind (d.freeze (after [.object "Number", .object "Boolean"] new))) := by cbv
  have hcount : (leftBehind (d.freeze
      (after [.object "Number", .object "Boolean"] new))).typeCount = 8 := by cbv
  have hcount' : (leftBehind (d'.freeze
      (after [.object "Number", .object "Boolean"] new))).typeCount ≤ UInt32.size := by cbv
  have hissued : ∀ k, (after [.object "Number", .object "Boolean"] new).Issued (boxed'.get k) := by
    intro k
    cases k <;> cbv
  obtain ⟨k, -, hid, -, hretry⟩ :=
    failed_freeze_harmless [.object "Number", .object "Boolean"] hd hfail (by rw [hcount]; decide)
  obtain rfl : k = .boolean := by
    cases k with
    | number | string => cases hid
    | boolean => rfl
  have hkept : ∀ l : Scalar, l.index < Scalar.boolean.index → boxed'.get l = boxed.get l := by
    intro l hl
    cases l with
    | number | string => rfl
    | boolean => exact absurd hl (Nat.lt_irrefl _)
  exact ⟨hfail, hcount, hissued, (hretry d' boxed' hd' hkept hissued).2 hcount'⟩

end UnionTypes

end BoxedTypes

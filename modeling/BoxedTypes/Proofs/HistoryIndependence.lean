import BoxedTypes.Proofs.Meaning
import BoxedTypes.Proofs.Permanence

/-!
# A registry does not depend on history

Two checkers that come across the same classes in another order get other
handles and other symbols for them. Their registries must answer alike. What
they may differ in is numbering alone, and that is what meanings leave out, so
the statement is about meanings: if the boxed types of two registries mean the
same, the composites do, and types that mean the same are judged the same.

There is no relation between the two lattices to carry along. What a registry
holds is a function of the meanings of its boxed types (`Means`), and the order
of two types one of their two meanings, so each lattice is compared with that
function and not with the other lattice.

A freeze may succeed although a boxed type was not there when it began, namely
if its own joins interned it on the way. The shapes of the boxed types are
therefore read in the lattice that the freeze left behind, where asking for the
freeze again would give the same registry and intern nothing
(`Coherent.holds_of_freeze`).
-/

namespace BoxedTypes.UnionTypes

variable {u v : UnionTypes}

/-- A registry holds the composites of its boxed types in the lattice that its
freeze left behind. -/
theorem Coherent.holds_of_freeze (hu : u.Coherent) {d : Draft TypeId}
    {r : Registry TypeId} (h : d.freeze u = .ok r v) (hfit : v.typeCount ≤ UInt32.size) :
    ∃ shapes, v.Holds r shapes := by
  obtain ⟨boxed, hcomplete, hderive, -⟩ := Draft.freeze_eq_ok_iff.mp h
  have hissued := hu.issued_of_freeze h hfit
  have hshapes : ∀ k, ∃ s, v.shape? (boxed.get k) = some s := by
    intro k
    rw [← Registry.boxed_of_derive hderive]
    exact issued_iff.mp (hissued _ (r.boxed_mem_types k))
  obtain ⟨shapes, hshapes⟩ := PerScalar.exists_get hshapes
  have hagain : d.freeze v = .ok r v := (settles_freeze d).again hu h (Grows.refl v)
  have hv := ((onlyGrows_freeze d).of_ok h).coherent hu
  have hfit' : (leftBehind (d.freeze v)).typeCount ≤ UInt32.size := by
    rw [hagain]
    exact hfit
  obtain ⟨r', v', hfreeze, -, -, hholds⟩ :=
    hv.freeze_ok (Draft.slots_of_complete hcomplete) hshapes hfit'
  cases hagain.symm.trans hfreeze
  exact ⟨shapes, hholds⟩

/-- A history in which a registry was frozen, with room for the types that it
had by then and with no symbols but its own. -/
structure FrozenRun where
  earlier : List Call
  draft : Draft TypeId
  later : List Call
  registry : Registry TypeId
  frozen : UnionTypes
  freeze_eq : draft.freeze (after earlier new) = .ok registry frozen
  fits : frozen.typeCount ≤ UInt32.size
  own : OwnSymbols (earlier ++ .freeze draft :: later) new

namespace FrozenRun

variable (f : FrozenRun)

/-- The lattice at the end of the history. -/
def final : UnionTypes := after f.later f.frozen

theorem final_eq : f.final = after (f.earlier ++ .freeze f.draft :: f.later) new := by
  have hrun : (Call.freeze f.draft).run (after f.earlier new) =
      .ok f.registry.types f.frozen := map_of_ok f.freeze_eq
  rw [after_of_run hrun, final]

theorem named : f.final.Named := by
  rw [final_eq]
  exact named_new.after f.own

theorem exists_means : ∃ meanings, f.final.Means f.registry meanings := by
  obtain ⟨shapes, hholds⟩ := (coherent_after f.earlier).holds_of_freeze f.freeze_eq f.fits
  exact f.named.exists_means ((grows_after f.later f.frozen).holds hholds)

/-- Two registries whose boxed types mean the same have composites that mean the
same and judge types that mean the same alike, whatever the two histories were.
Every type that a history has come to has a meaning. -/
theorem registry_determined_by_meaning (f g : FrozenRun)
    (hboxed : ∀ k, f.final.meaning? (f.registry.boxed.get k) =
      g.final.meaning? (g.registry.boxed.get k)) :
    (∀ id, f.final.Issued id → ∃ m, f.final.meaning? id = some m) ∧
    (∀ k, ∃ m, f.final.meaning? (f.registry.composites.get k) = some m ∧
      g.final.meaning? (g.registry.composites.get k) = some m) ∧
    (∃ m, f.final.meaning? f.registry.numberOrString = some m ∧
      g.final.meaning? g.registry.numberOrString = some m) ∧
    ∀ t₁ t₂, f.final.Issued t₁ → g.final.Issued t₂ →
      f.final.meaning? t₁ = g.final.meaning? t₂ →
      (∀ k, ∃ x, f.registry.admits f.final k t₁ = .ok x ∧
        g.registry.admits g.final k t₂ = .ok x) ∧
      ∃ x, f.registry.admitsNumberOrString f.final t₁ = .ok x ∧
        g.registry.admitsNumberOrString g.final t₂ = .ok x := by
  obtain ⟨ms, hf⟩ := f.exists_means
  obtain ⟨ms', hg⟩ := g.exists_means
  have hms : ms = ms' := PerScalar.ext_get fun k =>
    Option.some.inj ((hf.boxed k).symm.trans ((hboxed k).trans (hg.boxed k)))
  subst hms
  refine ⟨fun id => f.named.exists_meaning, fun k => ⟨_, hf.composites k, hg.composites k⟩,
    ⟨_, hf.numberOrString, hg.numberOrString⟩, fun t₁ t₂ ht₁ _ hmeaning => ?_⟩
  obtain ⟨m, hm₁⟩ := f.named.exists_meaning ht₁
  have hm₂ := hmeaning.symm.trans hm₁
  exact ⟨fun k => ⟨_, f.named.isBelow_eq_of_meaning hm₁ (hf.composites k),
      g.named.isBelow_eq_of_meaning hm₂ (hg.composites k)⟩,
    _, f.named.isBelow_eq_of_meaning hm₁ hf.numberOrString,
    g.named.isBelow_eq_of_meaning hm₂ hg.numberOrString⟩

/-- Two classes declared one after the other. -/
def inOrder : FrozenRun where
  earlier := [.object "Number", .object "String"]
  draft := ⟨⟨some ⟨5⟩, some ⟨6⟩, some .unknown⟩⟩
  later := [.atom (.object ⟨1⟩), .join ⟨6⟩ (.ofScalar .number)]
  registry := ⟨⟨⟨5⟩, ⟨6⟩, .unknown⟩, ⟨⟨7⟩, ⟨8⟩, .ofScalar .boolean⟩, ⟨9⟩⟩
  frozen := leftBehind (Draft.freeze ⟨⟨some ⟨5⟩, some ⟨6⟩, some .unknown⟩⟩
    (after [.object "Number", .object "String"] new))
  freeze_eq := by cbv
  fits := by cbv
  own := by
    refine ⟨nofun, nofun, nofun, fun symbol h => ?_, nofun, trivial⟩
    cases h
    cbv

/-- The same two the other way round, with another class between them and a
union that broke off. -/
def outOfOrder : FrozenRun where
  earlier := [.object "String", .object "Date", .object "Number", .union [⟨6⟩, ⟨5⟩, ⟨99⟩]]
  draft := ⟨⟨some ⟨7⟩, some ⟨5⟩, some .unknown⟩⟩
  later := [.join (.ofScalar .number) ⟨5⟩]
  registry := ⟨⟨⟨7⟩, ⟨5⟩, .unknown⟩, ⟨⟨9⟩, ⟨10⟩, .ofScalar .boolean⟩, ⟨11⟩⟩
  frozen := leftBehind (Draft.freeze ⟨⟨some ⟨7⟩, some ⟨5⟩, some .unknown⟩⟩
    (after [.object "String", .object "Date", .object "Number", .union [⟨6⟩, ⟨5⟩, ⟨99⟩]] new))
  freeze_eq := by cbv
  fits := by cbv
  own := ⟨nofun, nofun, nofun, nofun, nofun, nofun, trivial⟩

/-- The type of bare numbers and boxed strings has another handle in each of the
two, and is judged the same. -/
theorem registry_determined_by_meaning_in_two_orders :
    (∀ k, inOrder.final.meaning? (inOrder.registry.boxed.get k) =
      outOfOrder.final.meaning? (outOfOrder.registry.boxed.get k)) ∧
    inOrder.final.Issued ⟨10⟩ ∧ outOfOrder.final.Issued ⟨12⟩ ∧
    inOrder.final.meaning? ⟨10⟩ = outOfOrder.final.meaning? ⟨12⟩ ∧
    ∃ x, inOrder.registry.admitsNumberOrString inOrder.final ⟨10⟩ = .ok x ∧
      outOfOrder.registry.admitsNumberOrString outOfOrder.final ⟨12⟩ = .ok x := by
  have hboxed : ∀ k, inOrder.final.meaning? (inOrder.registry.boxed.get k) =
      outOfOrder.final.meaning? (outOfOrder.registry.boxed.get k) := by
    intro k
    cases k <;> cbv
  have h₁ : inOrder.final.Issued ⟨10⟩ := by cbv
  have h₂ : outOfOrder.final.Issued ⟨12⟩ := by cbv
  have hmeaning : inOrder.final.meaning? ⟨10⟩ = outOfOrder.final.meaning? ⟨12⟩ := by cbv
  have hjudged := (registry_determined_by_meaning inOrder outOfOrder hboxed).2.2.2
  exact ⟨hboxed, h₁, h₂, hmeaning, (hjudged _ _ h₁ h₂ hmeaning).2⟩

end FrozenRun

end BoxedTypes.UnionTypes

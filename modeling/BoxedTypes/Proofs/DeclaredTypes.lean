import BoxedTypes.LatticeTable
import BoxedTypes.Proofs.SetOnce

/-!
# Registries of declarations

A registry of declarations is a freeze of the draft that the declarations fill,
and this file says which draft that is and when there is none. Everything goes
by what there is to offer to each slot: the declared type of the configured
name, or else the unknown type or nothing, as the policy has it.

Offers are made in slot order and the first refusal is the last offer. The loop
is taken in two steps. Offers to empty slots all succeed (`forM_set_ok`), and so
the kinds before the first one that is refused fill their slots, and the rest of
the slots stay as they were (`seed_of_isFirst`). On a new draft a refusal can
only mean that nothing was offered. A draft that was offered something before
can also refuse because the slot is filled, and the two refusals have to be told
apart by the slot as it was before (`seed_outcome`).

Nothing is said of the lattice, and nothing is asked of it before the freeze. A
lattice that keeps a record of its joins is a lattice like any other, so that
the lattice is left as it was says also that none was made.
-/

namespace BoxedTypes

namespace Scalar

/-- The kind has the property, and no kind before it in slot order does. -/
structure IsFirst (P : Scalar → Prop) (k : Scalar) : Prop where
  holds : P k
  before : ∀ l : Scalar, l.index < k.index → ¬ P l

variable {P Q : Scalar → Prop} {k : Scalar}

theorem exists_isFirst (h : P k) : ∃ l, IsFirst P l := by
  induction hn : k.index using Nat.strongRecOn generalizing k with
  | ind n ih =>
      by_cases hbefore : ∃ l : Scalar, l.index < k.index ∧ P l
      · obtain ⟨l, hl, hP⟩ := hbefore
        exact ih l.index (hn ▸ hl) hP rfl
      · exact ⟨k, h, fun l hl hP => hbefore ⟨l, hl, hP⟩⟩

theorem IsFirst.congr (hk : IsFirst P k) (h : ∀ l, P l ↔ Q l) : IsFirst Q k :=
  ⟨(h k).mp hk.holds, fun l hl hQ => hk.before l hl ((h l).mpr hQ)⟩

theorem nodup_all : all.Nodup := by decide

/-- The kinds before one in slot order, the kind, and the kinds after it. -/
theorem all_eq_append (k : Scalar) :
    ∃ before later, all = before ++ k :: later ∧ ∀ l : Scalar, l ∈ before ↔ l.index < k.index := by
  cases k with
  | number => exact ⟨[], [.string, .boolean], rfl, fun l => by cases l <;> decide⟩
  | string => exact ⟨[.number], [.boolean], rfl, fun l => by cases l <;> decide⟩
  | boolean => exact ⟨[.number, .string], [], rfl, fun l => by cases l <;> decide⟩

end Scalar

namespace Draft

variable {σ τ : Type} {d : Draft τ} {k : Scalar} {offer : Scalar → Option τ}

/-- Offers to different slots that are all empty succeed if each brings a type,
and the other slots are not touched. -/
theorem forM_set_ok {ks : List Scalar} (hks : ks.Nodup) (hunset : ∀ k ∈ ks, d.isSet k = false)
    (hoffer : ∀ k ∈ ks, offer k ≠ none) :
    ∃ d', (ks.forM fun k => set k (offer k)) d = .ok () d' ∧
      ∀ l, d'.slots.get l = if l ∈ ks then offer l else d.slots.get l := by
  induction ks generalizing d with
  | nil => exact ⟨d, rfl, fun l => (if_neg List.not_mem_nil).symm⟩
  | cons k ks ih =>
      obtain ⟨hk, hks⟩ := List.nodup_cons.mp hks
      obtain ⟨hunsetk, hunset⟩ := List.forall_mem_cons.mp hunset
      obtain ⟨hofferk, hoffer⟩ := List.forall_mem_cons.mp hoffer
      obtain ⟨ty, hty⟩ := Option.ne_none_iff_exists'.mp hofferk
      have hset : set k (offer k) d = .ok () ⟨d.slots.set k (some ty)⟩ := by
        rw [hty]
        exact set_present hunsetk ty
      have hne : ∀ l ∈ ks, l ≠ k := fun l hl h => hk (h ▸ hl)
      obtain ⟨d', hrest, hslots⟩ := ih (d := ⟨d.slots.set k (some ty)⟩) hks
        (fun l hl => by rw [isSet, PerScalar.get_set, if_neg (hne l hl)]; exact hunset l hl) hoffer
      refine ⟨d', (bind_of_ok (f := fun _ => ks.forM fun k => set k (offer k)) hset).trans hrest,
        fun l => ?_⟩
      rw [hslots, PerScalar.get_set]
      by_cases hlk : l = k
      · rw [hlk, if_neg hk, if_pos rfl, if_pos List.mem_cons_self, hty]
      · rw [if_neg hlk]
        simp only [List.mem_cons, hlk, false_or]

variable [TypeSystem σ τ] {s : σ} {decls : Declarations τ} {c : Settings}

theorem seed_of_open (hunset : ∀ k, d.isSet k = false) (hoffer : ∀ k, c.offer s decls k ≠ none) :
    ∃ d', seed s decls c d = .ok () d' ∧ ∀ k, d'.slots.get k = c.offer s decls k := by
  obtain ⟨d', hseed, hslots⟩ :=
    forM_set_ok Scalar.nodup_all (fun k _ => hunset k) (fun k _ => hoffer k)
  exact ⟨d', hseed, fun k => by rw [hslots, if_pos k.mem_all]⟩

/-- Seeding stops at the first kind whose slot is filled or for which there is
nothing to offer. The slots before it are filled. -/
theorem seed_of_isFirst
    (h : Scalar.IsFirst (fun l => d.isSet l = true ∨ c.offer s decls l = none) k) :
    ∃ d', seed s decls c d =
        .error (if d.isSet k = true then .alreadySet k else .absentInstance k) d' ∧
      ∀ l, d'.slots.get l =
        if l.index < k.index then c.offer s decls l else d.slots.get l := by
  obtain ⟨before, later, hall, hbefore⟩ := k.all_eq_append
  have hopen : ∀ l ∈ before, d.isSet l = false ∧ c.offer s decls l ≠ none := by
    intro l hl
    obtain ⟨hset, hoffer⟩ := not_or.mp (h.before l ((hbefore l).mp hl))
    exact ⟨Bool.eq_false_iff.mpr hset, hoffer⟩
  have hnodup : before.Nodup := by
    have := Scalar.nodup_all
    rw [hall] at this
    exact (List.nodup_append.mp this).1
  obtain ⟨d', hseed, hslots⟩ :=
    forM_set_ok hnodup (fun l hl => (hopen l hl).1) (fun l hl => (hopen l hl).2)
  -- Which of the two refusals it is depends on the slot before all offers.
  have hk : d'.isSet k = d.isSet k := by
    rw [isSet, hslots, if_neg fun hmem => Nat.lt_irrefl _ ((hbefore k).mp hmem), isSet]
  have hstop : set k (c.offer s decls k) d' =
      .error (if d.isSet k = true then .alreadySet k else .absentInstance k) d' := by
    by_cases hset : d.isSet k = true
    · rw [if_pos hset]
      exact set_of_isSet (hk.trans hset)
    · rw [if_neg hset, h.holds.resolve_left hset]
      exact set_absent (hk.trans (Bool.eq_false_iff.mpr hset))
  refine ⟨d', ?_, fun l => by rw [hslots]; simp only [hbefore]⟩
  rw [seed, hall, forM_append_of_ok hseed]
  exact bind_of_error (f := fun _ => later.forM fun k => set k (c.offer s decls k)) hstop

end Draft

/-! ## What the declarations offer -/

section

variable {σ τ : Type} [TypeSystem σ τ] {s v : σ} {decls decls' : Declarations τ}
  {c : Settings} {k : Scalar}

theorem Declarations.mem_of_find? {name : String} {ty : τ} (h : decls.find? name = some ty) :
    ty ∈ decls.entries.map Prod.snd := by
  obtain ⟨e, he, rfl⟩ := Option.map_eq_some_iff.mp h
  exact List.mem_map_of_mem (List.mem_of_find?_eq_some he)

namespace Settings

theorem offer_cases {ty : τ} (h : c.offer s decls k = some ty) :
    ty ∈ decls.entries.map Prod.snd ∨ ty = TypeSystem.unknown s := by
  unfold offer at h
  split at h
  · next hfind =>
      cases h
      exact .inl (Declarations.mem_of_find? hfind)
  · cases h
    exact .inr rfl
  · cases h

theorem offer_of_find? {ty : τ} (h : decls.find? (c.wrappers.get k) = some ty) :
    c.offer s decls k = some ty := by
  rw [offer, h]

theorem offer_eq_none_iff :
    c.offer s decls k = none ↔
      c.missingWrapper = .reject ∧ decls.find? (c.wrappers.get k) = none := by
  cases hfind : decls.find? (c.wrappers.get k) with
  | some ty => simp [offer_of_find? hfind]
  | none => cases hpolicy : c.missingWrapper <;> simp [offer, hfind, hpolicy]

theorem offer_of_ne_none (h : c.offer s decls k ≠ none) :
    c.offer s decls k =
      some ((decls.find? (c.wrappers.get k)).getD (TypeSystem.unknown s)) := by
  cases hfind : decls.find? (c.wrappers.get k) with
  | some ty => exact offer_of_find? hfind
  | none =>
      cases hpolicy : c.missingWrapper with
      | unknown => simp [offer, hfind, hpolicy]
      | reject => exact absurd (offer_eq_none_iff.mpr ⟨hpolicy, hfind⟩) h

theorem offer_of_lenient (hpolicy : c.missingWrapper = .unknown) :
    c.offer s decls k =
      some ((decls.find? (c.wrappers.get k)).getD (TypeSystem.unknown s)) := by
  refine offer_of_ne_none fun h => ?_
  cases hpolicy.symm.trans (offer_eq_none_iff.mp h).1

/-- Where missing names stand for the unknown type, a name can as well be
declared as that. -/
theorem offer_declare_unknown (hpolicy : c.missingWrapper = .unknown) {name : String}
    (hname : decls.find? name = none) :
    c.offer s (decls.declare name (TypeSystem.unknown s)) k = c.offer s decls k := by
  rw [offer_of_lenient hpolicy, offer_of_lenient hpolicy, Declarations.find?_declare]
  by_cases h : name = c.wrappers.get k
  · rw [if_pos h, ← h, hname]
    rfl
  · rw [if_neg h]

end Settings

/-! ## Seeding a draft that is not new -/

namespace Draft

variable {d : Draft τ}

/-- Seeding fills all slots or stops at some kind. -/
theorem seed_cases (d : Draft τ) (s : σ) (decls : Declarations τ) (c : Settings) :
    ((∀ k, ¬ (d.isSet k = true ∨ c.offer s decls k = none)) ∧
      ∃ d', seed s decls c d = .ok () d' ∧ ∀ k, d'.slots.get k = c.offer s decls k) ∨
    ∃ k d', Scalar.IsFirst (fun l => d.isSet l = true ∨ c.offer s decls l = none) k ∧
      seed s decls c d =
        .error (if d.isSet k = true then .alreadySet k else .absentInstance k) d' ∧
      ∀ l, d'.slots.get l = if l.index < k.index then c.offer s decls l else d.slots.get l := by
  by_cases hopen : ∀ k, ¬ (d.isSet k = true ∨ c.offer s decls k = none)
  · obtain ⟨d', hseed, hslots⟩ := seed_of_open
      (fun k => Bool.eq_false_iff.mpr fun h => hopen k (.inl h)) fun k h => hopen k (.inr h)
    exact .inl ⟨hopen, d', hseed, hslots⟩
  · obtain ⟨l, hl⟩ := Classical.not_forall_not.mp hopen
    obtain ⟨k, hk⟩ := Scalar.exists_isFirst
      (P := fun l => d.isSet l = true ∨ c.offer s decls l = none) hl
    obtain ⟨d', hseed, hslots⟩ := seed_of_isFirst hk
    exact .inr ⟨k, d', hk, hseed, hslots⟩

/-- A seeding that filled any slot filled the first one. -/
theorem isSet_number_of_seed {l : Scalar} (hunset : d.isSet l = false)
    (hset : (leftBehind (seed s decls c d)).isSet l = true) :
    (leftBehind (seed s decls c d)).isSet .number = true := by
  rcases seed_cases d s decls c with ⟨hopen, d', hseed, hslots⟩ | ⟨k, d', hk, hseed, hslots⟩
  · rw [hseed, leftBehind, isSet, hslots]
    exact Option.isSome_iff_ne_none.mpr fun h => hopen .number (.inr h)
  · rw [hseed, leftBehind] at hset ⊢
    have hlk : l.index < k.index := by
      refine Decidable.not_not.mp fun hkl => ?_
      rw [isSet, hslots, if_neg hkl, ← isSet, hunset] at hset
      cases hset
    have hnumber : Scalar.number.index < k.index := Nat.lt_of_le_of_lt (Nat.zero_le _) hlk
    rw [isSet, hslots, if_pos hnumber]
    exact Option.isSome_iff_ne_none.mpr fun h => hk.before .number hnumber (.inr h)

/-- A draft with its first slot filled refuses every seeding at once. -/
theorem seed_of_isSet_number (h : d.isSet .number = true) :
    seed s decls c d = .error (.alreadySet .number) d := by
  have hfirst : Scalar.IsFirst (fun l => d.isSet l = true ∨ c.offer s decls l = none) .number :=
    ⟨.inl h, fun l hl => absurd hl (Nat.not_lt_zero _)⟩
  obtain ⟨d', hseed, hslots⟩ := seed_of_isFirst hfirst
  have hd : d' = d := ext_slots fun l => (hslots l).trans (if_neg (Nat.not_lt_zero _))
  rw [hseed, if_pos h, hd]

/-- Seeding any draft either fills all slots, or stops at the first one that is
filled or has nothing to be filled with. Then the slots before it are filled,
and it and the later ones are as they were. Once a seeding has filled a slot,
and whatever is offered to the draft after that, every further seeding is
refused at the first slot and changes nothing, be it from the same declarations
or from others over another lattice. -/
theorem seed_outcome (d : Draft τ) (s : σ) (decls : Declarations τ) (c : Settings) :
    let Stops := fun k => d.isSet k = true ∨
      c.missingWrapper = .reject ∧ decls.find? (c.wrappers.get k) = none
    let seeded := fun k => some ((decls.find? (c.wrappers.get k)).getD (TypeSystem.unknown s))
    (((∀ k, ¬ Stops k) ∧
        ∃ d', seed s decls c d = .ok () d' ∧ ∀ k, d'.slots.get k = seeded k) ∨
      ∃ k d', Scalar.IsFirst Stops k ∧
        seed s decls c d =
          .error (if d.isSet k = true then .alreadySet k else .absentInstance k) d' ∧
        (∀ l, l.index < k.index → d'.slots.get l = seeded l) ∧
        ∀ l, k.index ≤ l.index → d'.slots.get l = d.slots.get l) ∧
    ∀ l, d.isSet l = false → (leftBehind (seed s decls c d)).isSet l = true →
      ∀ (more : List (SetCall τ)) {ρ : Type} [TypeSystem ρ τ] (s' : ρ)
        (decls' : Declarations τ) (c' : Settings),
        let d' := after more (leftBehind (seed s decls c d))
        seed s' decls' c' d' = .error (.alreadySet .number) d' := by
  intro Stops seeded
  have hstops : ∀ k, (d.isSet k = true ∨ c.offer s decls k = none) ↔ Stops k :=
    fun k => or_congr_right Settings.offer_eq_none_iff
  have hseeded : ∀ k, ¬ Stops k → c.offer s decls k = seeded k := fun k hk =>
    Settings.offer_of_ne_none fun h => hk ((hstops k).mp (.inr h))
  refine ⟨?_, fun l hunset hset more ρ _ s' decls' c' => seed_of_isSet_number ?_⟩
  · rcases seed_cases d s decls c with ⟨hopen, d', hseed, hslots⟩ | ⟨k, d', hk, hseed, hslots⟩
    · have hnone : ∀ k, ¬ Stops k := fun k => mt (hstops k).mpr (hopen k)
      exact .inl ⟨hnone, d', hseed, fun k => (hslots k).trans (hseeded k (hnone k))⟩
    · have hfirst := hk.congr hstops
      refine .inr ⟨k, d', hfirst, hseed, fun l hl => ?_, fun l hl => ?_⟩
      · rw [hslots, if_pos hl, hseeded l (hfirst.before l hl)]
      · rw [hslots, if_neg (Nat.not_lt.mpr hl)]
  · have hnumber := isSet_number_of_seed hunset hset
    rw [isSet, get_slots_after_of_isSet hnumber]
    exact hnumber

/-- The booleans were offered a type before, so the seeding stops there although
their name is not declared, with the first two slots filled, the second one for
want of a declaration with the unknown type. An offer to the strings comes too
late, and so does a strict seeding from declarations that have all names. -/
theorem seed_outcome_preset :
    let t : LatticeTable Nat :=
      ⟨fun k => k.index + 2, 0, (· == 0), fun a b => a + b, (· ≤ ·), toString⟩
    let d : Draft Nat := ⟨⟨none, none, some 8⟩⟩
    let decls : Declarations Nat := .ofList [("Num", 9)]
    let c : Settings := ⟨⟨"Num", "Str", "Bool"⟩, .unknown⟩
    let decls' : Declarations Nat := .ofList [("Bool", 7), ("Str", 6), ("Num", 5)]
    let c' : Settings := c.withMissingWrapper .reject
    let s := Consulted.new t
    let d₁ : Draft Nat := ⟨⟨some 9, some 0, some 8⟩⟩
    seed s decls c d = .error (.alreadySet .boolean) d₁ ∧
    d.isSet .string = false ∧ (leftBehind (seed s decls c d)).isSet .string = true ∧
      seed s decls' c' (after [.setString 3] d₁) =
        .error (.alreadySet .number) (after [.setString 3] d₁) := by
  intro t d decls c decls' c' s d₁
  have hseed : seed s decls c d = .error (.alreadySet .boolean) d₁ := rfl
  have hset : (leftBehind (seed s decls c d)).isSet .string = true := by
    rw [hseed]
    rfl
  obtain ⟨-, hagain⟩ := seed_outcome d s decls c
  have hrefused := hagain .string rfl hset [.setString 3] s decls' c'
  rw [hseed] at hrefused
  exact ⟨hseed, rfl, hset, hrefused⟩

end Draft

namespace Registry

theorem ofDeclarations_congr (h : ∀ k, c.offer s decls' k = c.offer s decls k) :
    ofDeclarations decls' c s = ofDeclarations decls c s := by
  have hseed : Draft.seed s decls' c = Draft.seed s decls c := by
    simp only [Draft.seed, h]
  rw [ofDeclarations, hseed, ofDeclarations]

theorem ofDeclarations_of_offers (h : ∀ k, c.offer s decls k ≠ none) :
    ∃ d : Draft τ, (∀ k, d.slots.get k = c.offer s decls k) ∧
      ofDeclarations decls c s = d.freeze s := by
  obtain ⟨d, hseed, hslots⟩ := Draft.seed_of_open (d := .new) (fun k => by cases k <;> rfl) h
  exact ⟨d, hslots, by rw [ofDeclarations, hseed]⟩

theorem ofDeclarations_of_isFirst (h : Scalar.IsFirst (fun l => c.offer s decls l = none) k) :
    ofDeclarations decls c s = .error (.slot (.absentInstance k)) s := by
  have hnew : ∀ l, (Draft.new : Draft τ).isSet l = false := fun l => by cases l <;> rfl
  obtain ⟨d, hseed, -⟩ := Draft.seed_of_isFirst (d := .new)
    (h.congr fun l => (or_iff_right (by simp [hnew])).symm)
  rw [ofDeclarations, hseed, hnew]
  rfl

/-- The only slot that declarations can be refused for is the first one that
they have nothing for, and then the lattice is not touched. -/
theorem ofDeclarations_eq_slot_error_iff {e : SlotError} :
    ofDeclarations decls c s = .error (.slot e) v ↔
      ∃ k, Scalar.IsFirst (fun l => c.offer s decls l = none) k ∧
        e = .absentInstance k ∧ v = s := by
  constructor
  · intro h
    by_cases hnone : ∃ k, c.offer s decls k = none
    · obtain ⟨l, hl⟩ := hnone
      obtain ⟨k, hk⟩ := Scalar.exists_isFirst (P := fun l => c.offer s decls l = none) hl
      cases (ofDeclarations_of_isFirst hk).symm.trans h
      exact ⟨k, hk, rfl, rfl⟩
    · obtain ⟨d, hslots, hfreeze⟩ := ofDeclarations_of_offers (not_exists.mp hnone)
      have hfilled : ∀ k, ∃ ty, d.slots.get k = some ty := fun k => by
        rw [hslots]
        exact Option.ne_none_iff_exists'.mp (not_exists.mp hnone k)
      obtain ⟨b, hb⟩ := Draft.freeze_error_cases hfilled (hfreeze.symm.trans h)
      cases hb
  · rintro ⟨k, hk, rfl, rfl⟩
    exact ofDeclarations_of_isFirst hk

/-- Declarations are refused exactly if the policy is strict and some name is
missing, for the first kind whose name is, and the lattice is left as it was. In
every other case they do what the freeze does of the draft that holds the
declared types, and the unknown type where there is none. What is declared under
other names has no part in this, and under the lenient policy a missing name
might as well be declared as the unknown type. -/
theorem ofDeclarations_outcome (s : σ) (decls : Declarations τ) (c : Settings) :
    let Missing := fun k => decls.find? (c.wrappers.get k) = none
    (∀ k v, ofDeclarations decls c s ≠ .error (.slot (.alreadySet k)) v ∧
      ofDeclarations decls c s ≠ .error (.slot (.unset k)) v) ∧
    (∀ k v, ofDeclarations decls c s = .error (.slot (.absentInstance k)) v ↔
      c.missingWrapper = .reject ∧ Scalar.IsFirst Missing k ∧ v = s) ∧
    (¬ (c.missingWrapper = .reject ∧ ∃ k, Missing k) →
      ∃ d : Draft τ,
        (∀ k, d.slots.get k =
          some ((decls.find? (c.wrappers.get k)).getD (TypeSystem.unknown s))) ∧
        ofDeclarations decls c s = d.freeze s) ∧
    (∀ decls', (∀ k, decls'.find? (c.wrappers.get k) = decls.find? (c.wrappers.get k)) →
      ofDeclarations decls' c s = ofDeclarations decls c s) ∧
    (c.missingWrapper = .unknown → ∀ name, decls.find? name = none →
      ofDeclarations (decls.declare name (TypeSystem.unknown s)) c s =
        ofDeclarations decls c s) := by
  intro Missing
  have hnone : ∀ k, c.missingWrapper = .reject → (c.offer s decls k = none ↔ Missing k) :=
    fun k hpolicy => Settings.offer_eq_none_iff.trans (and_iff_right hpolicy)
  refine ⟨fun k v => ⟨fun h => ?_, fun h => ?_⟩, fun k v => ⟨fun h => ?_, ?_⟩, fun h => ?_,
    fun decls' h => ?_, fun hpolicy name hname => ?_⟩
  · obtain ⟨l, -, he, -⟩ := ofDeclarations_eq_slot_error_iff.mp h
    cases he
  · obtain ⟨l, -, he, -⟩ := ofDeclarations_eq_slot_error_iff.mp h
    cases he
  · obtain ⟨l, hl, he, hv⟩ := ofDeclarations_eq_slot_error_iff.mp h
    cases he
    have hpolicy := (Settings.offer_eq_none_iff.mp hl.holds).1
    exact ⟨hpolicy, hl.congr fun l => hnone l hpolicy, hv⟩
  · rintro ⟨hpolicy, hk, rfl⟩
    exact ofDeclarations_of_isFirst (hk.congr fun l => (hnone l hpolicy).symm)
  · have hoffer : ∀ k, c.offer s decls k ≠ none := by
      intro k hk
      obtain ⟨hpolicy, hmissing⟩ := Settings.offer_eq_none_iff.mp hk
      exact h ⟨hpolicy, k, hmissing⟩
    obtain ⟨d, hslots, hfreeze⟩ := ofDeclarations_of_offers hoffer
    exact ⟨d, fun k => (hslots k).trans (Settings.offer_of_ne_none (hoffer k)), hfreeze⟩
  · refine ofDeclarations_congr fun k => ?_
    rw [Settings.offer, Settings.offer, h k]
  · exact ofDeclarations_congr fun k => Settings.offer_declare_unknown hpolicy hname

/-- Strings and booleans share a name, the empty one, and it is not declared. It
is refused under one policy; under the other it can be declared as the unknown
type, and the declarations can come in another order. -/
theorem ofDeclarations_outcome_shared_name :
    let t : LatticeTable Nat :=
      ⟨fun k => k.index + 2, 0, (· == 0), fun a b => a + b, (· ≤ ·), toString⟩
    let strict : Settings := ⟨⟨"Num", "", ""⟩, .reject⟩
    let lenient : Settings := ⟨⟨"Num", "", ""⟩, .unknown⟩
    let decls : Declarations Nat := .ofList [("Num", 9), ("Str", 3)]
    let decls' : Declarations Nat := .ofList [("Str", 3), ("Num", 9)]
    let s := Consulted.new t
    Scalar.IsFirst (fun k => decls.find? (strict.wrappers.get k) = none) .string ∧
    ofDeclarations decls strict s = .error (.slot (.absentInstance .string)) s ∧
    (∀ k, decls'.find? (strict.wrappers.get k) = decls.find? (strict.wrappers.get k)) ∧
    ofDeclarations decls' strict s = ofDeclarations decls strict s ∧
    decls.find? "" = none ∧
    ofDeclarations (decls.declare "" 0) lenient s = ofDeclarations decls lenient s ∧
    ∃ d : Draft Nat, d.slots.get .string = some 0 ∧
      ofDeclarations decls lenient s = d.freeze s := by
  intro t strict lenient decls decls' s
  have hfirst : Scalar.IsFirst (fun k => decls.find? (strict.wrappers.get k) = none) .string :=
    ⟨by decide, fun l hl => by cases l <;> revert hl <;> decide⟩
  have hagree : ∀ k, decls'.find? (strict.wrappers.get k) =
      decls.find? (strict.wrappers.get k) := by
    intro k
    cases k <;> decide
  have hname : decls.find? "" = none := by decide
  obtain ⟨-, hrefused, -, hsame, -⟩ := ofDeclarations_outcome s decls strict
  obtain ⟨-, -, hfrozen, -, hunknown⟩ := ofDeclarations_outcome s decls lenient
  obtain ⟨d, hslots, hfreeze⟩ := hfrozen fun h => by cases h.1
  exact ⟨hfirst, (hrefused .string s).mpr ⟨rfl, hfirst, rfl⟩, hagree, hsame decls' hagree,
    hname, hunknown rfl "" hname, d, (hslots .string).trans (by decide), hfreeze⟩

end Registry

end

end BoxedTypes

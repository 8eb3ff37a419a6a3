import Mathlib.Data.List.Forall2

/-!
# Results of readings

A reading ends in an answer or in an error and changes nothing. The lemmas here
say when a reading that is made of others ends in an answer, and which one;
where it ends in an error instead, `mapM_error_cases` finds the part that is to
blame.
-/

namespace BoxedTypes

variable {ε α β : Type} {x : Except ε α}

theorem map_eq_ok_iff {f : α → β} {b : β} : x.map f = .ok b ↔ ∃ a, x = .ok a ∧ f a = b := by
  cases x with
  | error e => exact ⟨nofun, nofun⟩
  | ok a => simp [Except.map]

theorem bind_eq_ok_iff {f : α → Except ε β} {b : β} :
    x >>= f = .ok b ↔ ∃ a, x = .ok a ∧ f a = .ok b := by
  cases x with
  | error e => exact ⟨nofun, nofun⟩
  | ok a => exact ⟨fun h => ⟨a, rfl, h⟩, fun ⟨_, ha, h⟩ => by cases ha; exact h⟩

theorem seq_eq_ok_iff {x : Except ε Unit} {y : Except ε α} {a : α} :
    (x >>= fun _ => y) = .ok a ↔ x = .ok () ∧ y = .ok a := by
  cases x with
  | ok _ => exact (and_iff_right rfl).symm
  | error e => exact ⟨nofun, fun h => nomatch h.1⟩

theorem forM_eq_ok_iff {f : α → Except ε Unit} {as : List α} :
    as.forM f = .ok () ↔ ∀ a ∈ as, f a = .ok () := by
  induction as with
  | nil => exact iff_of_true rfl nofun
  | cons a as ih =>
      rw [List.forall_mem_cons, ← ih]
      exact seq_eq_ok_iff

/-! ## One reading for each element of a list -/

section MapM

variable {f : α → Except ε β} {as : List α}

theorem mapM_eq_ok_iff {bs : List β} :
    as.mapM f = .ok bs ↔ List.Forall₂ (fun a b => f a = .ok b) as bs := by
  induction as generalizing bs with
  | nil =>
      constructor
      · intro h
        cases h
        exact .nil
      · intro h
        cases h
        rfl
  | cons a as ih =>
      rw [List.mapM_cons, bind_eq_ok_iff]
      constructor
      · rintro ⟨b, hb, h⟩
        obtain ⟨bs', hbs, h⟩ := bind_eq_ok_iff.mp h
        cases h
        exact .cons hb (ih.mp hbs)
      · intro h
        cases h with
        | cons hb hbs => exact ⟨_, hb, bind_eq_ok_iff.mpr ⟨_, ih.mpr hbs, rfl⟩⟩

theorem exists_mapM_iff : (∃ bs, as.mapM f = .ok bs) ↔ ∀ a ∈ as, ∃ b, f a = .ok b := by
  induction as with
  | nil => exact iff_of_true ⟨[], rfl⟩ nofun
  | cons a as ih =>
      rw [List.forall_mem_cons, ← ih, List.mapM_cons]
      constructor
      · rintro ⟨bs, h⟩
        obtain ⟨b, hb, h⟩ := bind_eq_ok_iff.mp h
        obtain ⟨bs', hbs, -⟩ := bind_eq_ok_iff.mp h
        exact ⟨⟨b, hb⟩, bs', hbs⟩
      · rintro ⟨⟨b, hb⟩, bs, hbs⟩
        exact ⟨b :: bs, bind_eq_ok_iff.mpr ⟨b, hb, bind_eq_ok_iff.mpr ⟨bs, hbs, rfl⟩⟩⟩

/-- Every answer of a list of readings is the answer of one of them. -/
theorem exists_of_mem_mapM {bs : List β} {b : β} (h : as.mapM f = .ok bs) (hb : b ∈ bs) :
    ∃ a ∈ as, f a = .ok b := by
  rw [mapM_eq_ok_iff] at h
  induction h with
  | nil => cases hb
  | cons hfirst _ ih =>
      rcases List.mem_cons.mp hb with rfl | hb
      · exact ⟨_, List.mem_cons_self, hfirst⟩
      · obtain ⟨a, ha, hab⟩ := ih hb
        exact ⟨a, List.mem_cons_of_mem _ ha, hab⟩

/-- If no two elements have one answer, no two lists of elements have. -/
theorem mapM_inj (hf : ∀ a a' b, f a = .ok b → f a' = .ok b → a = a') {as' : List α}
    {bs : List β} (h : as.mapM f = .ok bs) (h' : as'.mapM f = .ok bs) : as = as' := by
  have hunique : Relator.LeftUnique fun a b => f a = .ok b := fun a a' b => hf a a' b
  exact List.left_unique_forall₂' hunique (mapM_eq_ok_iff.mp h) (mapM_eq_ok_iff.mp h')

theorem mapM_map_fst {entries : List (α × β)} (h : ∀ e ∈ entries, f e.1 = .ok e.2) :
    (entries.map Prod.fst).mapM f = .ok (entries.map Prod.snd) := by
  rw [mapM_eq_ok_iff, List.forall₂_map_left_iff, List.forall₂_map_right_iff, List.forall₂_same]
  exact h

/-- If the readings end in an error, one of them does, and those before it
answer. -/
theorem mapM_error_cases {e : ε} (h : as.mapM f = .error e) :
    ∃ before a later, as = before ++ a :: later ∧ (∀ b ∈ before, ∃ x, f b = .ok x) ∧
      f a = .error e := by
  induction as with
  | nil => cases h
  | cons a as ih =>
      rw [List.mapM_cons] at h
      cases ha : f a with
      | error e' =>
          rw [ha] at h
          cases h
          exact ⟨[], a, as, rfl, fun _ hb => absurd hb List.not_mem_nil, ha⟩
      | ok x =>
          rw [ha] at h
          cases hrest : as.mapM f with
          | ok xs =>
              rw [hrest] at h
              cases h
          | error e' =>
              rw [hrest] at h
              cases h
              obtain ⟨before, b, later, rfl, hbefore, hb⟩ := ih hrest
              exact ⟨a :: before, b, later, rfl, List.forall_mem_cons.mpr ⟨⟨x, ha⟩, hbefore⟩, hb⟩

end MapM

end BoxedTypes

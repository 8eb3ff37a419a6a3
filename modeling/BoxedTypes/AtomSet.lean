import BoxedTypes.Atom

/-!
# Sets of atoms

An `AtomSet` is a finite set of atoms kept as its members in ascending order.
The order is part of the type, so each set has one representation: equality of
sets is equality of their lists (`AtomSet.ext_mem`). That is what lets sets be
interned, and a set shown member by member is shown in one order however it was
put together.

Union is a merge of the two ascending lists. Its members and its order are the
two facts about it that everything else uses (`mem_merge`, `sorted_merge`).
-/

namespace BoxedTypes

namespace AtomSet

/-- The members of two ascending lists in one ascending list, a common member
once. -/
def merge : List Atom → List Atom → List Atom
  | [], bs => bs
  | a :: as, [] => a :: as
  | a :: as, b :: bs =>
    if a < b then a :: merge as (b :: bs)
    else if b < a then b :: merge (a :: as) bs
    else a :: merge as bs
termination_by as bs => as.length + bs.length

theorem mem_merge {c : Atom} (as bs : List Atom) : c ∈ merge as bs ↔ c ∈ as ∨ c ∈ bs := by
  fun_induction merge as bs with
  | case1 bs => simp
  | case2 a as => simp
  | case3 a as b bs _ ih => simp [ih, or_assoc]
  | case4 a as b bs _ _ ih =>
    simp only [List.mem_cons, ih]
    grind
  | case5 a as b bs hab hba ih =>
    have := Atom.eq_of_not_lt hab hba
    subst this
    simp only [List.mem_cons, ih]
    grind

theorem sorted_merge {as bs : List Atom} (ha : as.Pairwise (· < ·)) (hb : bs.Pairwise (· < ·)) :
    (merge as bs).Pairwise (· < ·) := by
  fun_induction merge as bs with
  | case1 bs => exact hb
  | case2 a as => exact ha
  | case3 a as b bs hab ih =>
    refine List.pairwise_cons.mpr ⟨fun c hc => ?_, ih (List.pairwise_cons.mp ha).2 hb⟩
    rcases (mem_merge _ _).mp hc with hc | hc
    · exact (List.pairwise_cons.mp ha).1 c hc
    · rcases List.mem_cons.mp hc with rfl | hc
      · exact hab
      · exact Atom.lt_trans hab ((List.pairwise_cons.mp hb).1 c hc)
  | case4 a as b bs hab hba ih =>
    refine List.pairwise_cons.mpr ⟨fun c hc => ?_, ih ha (List.pairwise_cons.mp hb).2⟩
    rcases (mem_merge _ _).mp hc with hc | hc
    · rcases List.mem_cons.mp hc with rfl | hc
      · exact hba
      · exact Atom.lt_trans hba ((List.pairwise_cons.mp ha).1 c hc)
    · exact (List.pairwise_cons.mp hb).1 c hc
  | case5 a as b bs hab hba ih =>
    have := Atom.eq_of_not_lt hab hba
    subst this
    refine List.pairwise_cons.mpr
      ⟨fun c hc => ?_, ih (List.pairwise_cons.mp ha).2 (List.pairwise_cons.mp hb).2⟩
    rcases (mem_merge _ _).mp hc with hc | hc
    · exact (List.pairwise_cons.mp ha).1 c hc
    · exact (List.pairwise_cons.mp hb).1 c hc

/-- Two ascending lists with the same members are the same list: the heads are
the least members. -/
theorem eq_of_sorted_of_mem_iff {as bs : List Atom} (ha : as.Pairwise (· < ·))
    (hb : bs.Pairwise (· < ·)) (h : ∀ c, c ∈ as ↔ c ∈ bs) : as = bs := by
  induction as generalizing bs with
  | nil => exact (List.eq_nil_iff_forall_not_mem.mpr fun c hc => by simpa using (h c).mpr hc).symm
  | cons a as ih =>
    obtain _ | ⟨b, bs⟩ := bs
    · exact absurd ((h a).mp List.mem_cons_self) (by simp)
    obtain ⟨hal, has⟩ := List.pairwise_cons.mp ha
    obtain ⟨hbl, hbs⟩ := List.pairwise_cons.mp hb
    have hab : a = b := by
      rcases List.mem_cons.mp ((h a).mp List.mem_cons_self) with hab | hab
      · exact hab
      rcases List.mem_cons.mp ((h b).mpr List.mem_cons_self) with hba | hba
      · exact hba.symm
      · exact absurd (hbl a hab) (Atom.lt_asymm (hal b hba))
    subst hab
    congr 1
    refine ih has hbs fun c => ?_
    have hc := h c
    simp only [List.mem_cons] at hc
    constructor
    · intro hm
      rcases hc.mp (.inr hm) with rfl | hm'
      · exact absurd (hal c hm) (Atom.lt_irrefl c)
      · exact hm'
    · intro hm
      rcases hc.mpr (.inr hm) with rfl | hm'
      · exact absurd (hbl c hm) (Atom.lt_irrefl c)
      · exact hm'

end AtomSet

/-- A finite set of atoms, as its members in ascending order. -/
structure AtomSet where
  toList : List Atom
  sorted : toList.Pairwise (· < ·)
  deriving DecidableEq

namespace AtomSet

instance : Hashable AtomSet := ⟨fun s => hash s.toList⟩

instance : Membership Atom AtomSet := ⟨fun s a => a ∈ s.toList⟩

theorem mem_def {a : Atom} {s : AtomSet} : a ∈ s ↔ a ∈ s.toList := Iff.rfl

instance (a : Atom) (s : AtomSet) : Decidable (a ∈ s) := inferInstanceAs (Decidable (a ∈ s.toList))

instance : EmptyCollection AtomSet := ⟨⟨[], .nil⟩⟩

instance : Singleton Atom AtomSet := ⟨fun a => ⟨[a], by simp⟩⟩

instance : Union AtomSet := ⟨fun s t => ⟨merge s.toList t.toList, sorted_merge s.sorted t.sorted⟩⟩

instance : HasSubset AtomSet := ⟨fun s t => ∀ a ∈ s.toList, a ∈ t⟩

instance (s t : AtomSet) : Decidable (s ⊆ t) :=
  inferInstanceAs (Decidable (∀ a ∈ s.toList, a ∈ t))

/-- The set of the atoms of a list, in any order and with any repetitions. -/
def ofList (as : List Atom) : AtomSet := as.foldr (fun a s => {a} ∪ s) ∅

theorem ext_mem {s t : AtomSet} (h : ∀ a, a ∈ s ↔ a ∈ t) : s = t := by
  cases s; cases t
  congr 1
  exact eq_of_sorted_of_mem_iff ‹_› ‹_› h

@[simp] theorem not_mem_empty (a : Atom) : ¬ a ∈ (∅ : AtomSet) := by
  simp [mem_def, EmptyCollection.emptyCollection]

@[simp] theorem mem_singleton {a b : Atom} : a ∈ ({b} : AtomSet) ↔ a = b := by
  simp [mem_def, Singleton.singleton]

@[simp] theorem mem_union {a : Atom} {s t : AtomSet} : a ∈ s ∪ t ↔ a ∈ s ∨ a ∈ t :=
  mem_merge s.toList t.toList

@[simp] theorem mem_ofList {a : Atom} {as : List Atom} : a ∈ ofList as ↔ a ∈ as := by
  induction as with
  | nil => simp [ofList]
  | cons b as ih =>
    simp only [ofList, List.foldr_cons, mem_union, mem_singleton, List.mem_cons]
    exact or_congr_right ih

end AtomSet

end BoxedTypes

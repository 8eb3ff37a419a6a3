import BoxedTypes.LatticeTable
import BoxedTypes.Proofs.Actions
import BoxedTypes.Proofs.FreezeSteps

/-!
# Freezing over any table

A lattice given by tables promises nothing: its join may be no upper bound and
its order no order. Over such a lattice a freeze is specified by what it asks.
`LatticeTable.asked` are the joins, in order, and `LatticeTable.comparisons` the
comparisons, each with the text for its failure. The joins come first and are
made in any case; then the first comparison that the table denies decides the
outcome, and if it denies none the freeze succeeds.

`Reports` ties a check to the comparisons it makes. It goes through sequencing
and through lists, so the checks of a registry are read off their definition one
by one, without a case for every combination of answers.
-/

namespace BoxedTypes

/-- A comparison that a registry relies on, and the text that reports its
failure. -/
structure Comparison (τ : Type) where
  lower : τ
  upper : τ
  text : String

namespace LatticeTable

variable {τ : Type} (t : LatticeTable τ) (boxed : PerScalar τ)

/-- The composite of a kind by the table. -/
def composite (k : Scalar) : τ :=
  if t.isUnknown (boxed.get k) then t.scalar k else t.join (t.scalar k) (boxed.get k)

/-- The registry that a freeze derives. -/
def registry : Registry τ :=
  ⟨boxed, ⟨t.composite boxed .number, t.composite boxed .string, t.composite boxed .boolean⟩,
    t.join (t.composite boxed .number) (t.composite boxed .string)⟩

/-- A join with its answer by the table. -/
def ask (a b : τ) : JoinRecord τ := ⟨a, b, t.join a b⟩

/-- The join that the composite of a kind takes, if it takes one. -/
def askedFor (k : Scalar) : List (JoinRecord τ) :=
  if t.isUnknown (boxed.get k) then [] else [t.ask (t.scalar k) (boxed.get k)]

/-- All joins of a freeze, in order. -/
def asked : List (JoinRecord τ) :=
  Scalar.all.flatMap (t.askedFor boxed) ++
    [t.ask (t.composite boxed .number) (t.composite boxed .string)]

def scalarComparison (k : Scalar) : Comparison τ :=
  let composite := t.display (t.composite boxed k)
  ⟨t.scalar k, t.composite boxed k,
    s!"CanonicalTypes: {k.name} scalar is not below its composite {composite}"⟩

def boxedComparison (k : Scalar) : Comparison τ :=
  let shown := t.display (boxed.get k)
  let composite := t.display (t.composite boxed k)
  ⟨boxed.get k, t.composite boxed k,
    s!"CanonicalTypes: {k.name} instance {shown} is not below its composite {composite}"⟩

def unionComparison (k : Scalar) : Comparison τ :=
  let composite := t.display (t.composite boxed k)
  let bound := t.display (t.registry boxed).numberOrString
  ⟨t.composite boxed k, (t.registry boxed).numberOrString,
    s!"CanonicalTypes: {k.name} composite {composite} is not below {bound}"⟩

/-- The comparisons for one kind. -/
def kindComparisons (k : Scalar) : List (Comparison τ) :=
  t.scalarComparison boxed k ::
    if t.isUnknown (boxed.get k) then [] else [t.boxedComparison boxed k]

/-- All comparisons of a freeze, in order. -/
def comparisons : List (Comparison τ) :=
  Scalar.all.flatMap (t.kindComparisons boxed) ++
    [t.unionComparison boxed .number, t.unionComparison boxed .string]

/-- The table denies a comparison. -/
def denies (c : Comparison τ) : Bool := !t.isBelow c.lower c.upper

/-! ## Checks and their comparisons -/

variable {t boxed}

/-- The check fails with the text of the first comparison that the table denies,
and passes if it denies none. -/
def Reports (t : LatticeTable τ) (cs : List (Comparison τ)) (x : Except Breach Unit) : Prop :=
  match cs.find? t.denies with
  | none => x = .ok ()
  | some c => ∃ b : Breach, x = .error b ∧ b.message = c.text

theorem reports_nil : t.Reports [] (.ok ()) := rfl

theorem Reports.append {cs ds : List (Comparison τ)} {x y : Except Breach Unit}
    (hx : t.Reports cs x) (hy : t.Reports ds y) : t.Reports (cs ++ ds) (x >>= fun _ => y) := by
  unfold Reports at hx hy ⊢
  rw [List.find?_append]
  cases hc : cs.find? t.denies with
  | none =>
      rw [hc] at hx
      rw [hx]
      exact hy
  | some c =>
      rw [hc] at hx
      obtain ⟨b, hb, htext⟩ := hx
      exact ⟨b, by rw [hb]; rfl, htext⟩

theorem reports_forM {α : Type} {f : α → Except Breach Unit} {cs : α → List (Comparison τ)}
    (h : ∀ a, t.Reports (cs a) (f a)) (as : List α) :
    t.Reports (as.flatMap cs) (as.forM f) := by
  induction as with
  | nil => exact reports_nil
  | cons a as ih =>
      rw [List.flatMap_cons]
      exact (h a).append ih

theorem reports_check (c : Consulted τ) (cmp : Comparison τ) {b : Breach}
    (htext : b.message = cmp.text) :
    c.table.Reports [cmp] (Registry.check c cmp.lower cmp.upper (.ok b)) := by
  have hcheck : Registry.check c cmp.lower cmp.upper (.ok b) =
      if c.table.isBelow cmp.lower cmp.upper = true then .ok () else .error b := rfl
  unfold Reports
  rw [hcheck, List.find?_singleton, denies]
  cases c.table.isBelow cmp.lower cmp.upper with
  | true => rfl
  | false => exact ⟨b, rfl, htext⟩

theorem get_composites (t : LatticeTable τ) (boxed : PerScalar τ) (k : Scalar) :
    (t.registry boxed).composites.get k = t.composite boxed k := by
  cases k <;> rfl

theorem reports_checkKind (c : Consulted τ) (boxed : PerScalar τ) (k : Scalar) :
    c.table.Reports (c.table.kindComparisons boxed k)
      ((c.table.registry boxed).checkKind c k) := by
  let composite := c.table.display (c.table.composite boxed k)
  have hscalar := reports_check c (c.table.scalarComparison boxed k)
    (show (Breach.scalarNotBelow k composite).message = _ from rfl)
  have hboxed := reports_check c (c.table.boxedComparison boxed k)
    (show (Breach.boxedNotBelow k (c.table.display (boxed.get k)) composite).message = _ from rfl)
  unfold Registry.checkKind
  rw [get_composites]
  refine hscalar.append ?_
  show c.table.Reports
    (if c.table.isUnknown (boxed.get k) = true then [] else [c.table.boxedComparison boxed k])
    (if c.table.isUnknown (boxed.get k) = true then .ok ()
      else Registry.check c (boxed.get k) (c.table.composite boxed k) (.ok _))
  split
  · exact reports_nil
  · exact hboxed

theorem reports_checkNumberOrString (c : Consulted τ) (boxed : PerScalar τ) (k : Scalar) :
    c.table.Reports [c.table.unionComparison boxed k]
      ((c.table.registry boxed).checkNumberOrString c k) := by
  let composite := c.table.display (c.table.composite boxed k)
  let bound := c.table.display (c.table.registry boxed).numberOrString
  unfold Registry.checkNumberOrString
  rw [get_composites]
  exact reports_check c (c.table.unionComparison boxed k)
    (show (Breach.compositeNotBelow k composite bound).message = _ from rfl)

theorem reports_checkLaws (c : Consulted τ) (boxed : PerScalar τ) :
    c.table.Reports (c.table.comparisons boxed) ((c.table.registry boxed).checkLaws c) :=
  (reports_forM (reports_checkKind c boxed) Scalar.all).append
    (reports_forM (reports_checkNumberOrString c boxed) [.number, .string])

/-- No comparison is denied exactly if every scalar and every known boxed type
is below its composite and the first two composites are below their union. -/
theorem find?_comparisons_eq_none_iff :
    (t.comparisons boxed).find? t.denies = none ↔
      (∀ k, t.isBelow (t.scalar k) (t.composite boxed k) = true) ∧
      (∀ k, t.isUnknown (boxed.get k) = false →
        t.isBelow (boxed.get k) (t.composite boxed k) = true) ∧
      ∀ k ∈ [Scalar.number, .string],
        t.isBelow (t.composite boxed k) (t.registry boxed).numberOrString = true := by
  have hdenies : ∀ c : Comparison τ, ¬ t.denies c = true ↔ t.isBelow c.lower c.upper = true := by
    intro c
    rw [denies, Bool.not_eq_true, Bool.not_eq_false']
  have hkind : ∀ k, (∀ c ∈ t.kindComparisons boxed k, t.isBelow c.lower c.upper = true) ↔
      t.isBelow (t.scalar k) (t.composite boxed k) = true ∧
        (t.isUnknown (boxed.get k) = false →
          t.isBelow (boxed.get k) (t.composite boxed k) = true) := by
    intro k
    rw [kindComparisons, List.forall_mem_cons]
    refine and_congr Iff.rfl ?_
    cases t.isUnknown (boxed.get k) with
    | true => simp
    | false => simp [boxedComparison]
  rw [List.find?_eq_none]
  simp only [hdenies, comparisons, List.forall_mem_append, List.forall_mem_flatMap, hkind]
  constructor
  · rintro ⟨hkinds, hunion⟩
    exact ⟨fun k => (hkinds k k.mem_all).1, fun k => (hkinds k k.mem_all).2,
      by simpa [unionComparison] using hunion⟩
  · rintro ⟨hscalar, hboxed, hunion⟩
    exact ⟨fun k _ => ⟨hscalar k, hboxed k⟩, by simpa [unionComparison] using hunion⟩

end LatticeTable

/-! ## The joins -/

namespace Consulted

variable {τ : Type} {c : Consulted τ} {boxed : PerScalar τ}

/-- The table with some more joins on record. -/
def recording (c : Consulted τ) (joins : List (JoinRecord τ)) : Consulted τ :=
  { c with joins := c.joins ++ joins }

theorem recording_nil (c : Consulted τ) : c.recording [] = c := by
  rw [recording, List.append_nil]

theorem recording_recording (c : Consulted τ) (js ks : List (JoinRecord τ)) :
    (c.recording js).recording ks = c.recording (js ++ ks) := by
  rw [recording, recording, recording, List.append_assoc]

theorem composite_eq (c : Consulted τ) (boxed : PerScalar τ) (k : Scalar) :
    Registry.composite k (boxed.get k) c =
      .ok (c.table.composite boxed k) (c.recording (c.table.askedFor boxed k)) := by
  unfold Registry.composite LatticeTable.composite LatticeTable.askedFor
  show (if c.table.isUnknown (boxed.get k) = true then _ else _) = _
  split
  · rw [recording_nil]
    rfl
  · rfl

theorem composite_recording (c : Consulted τ) (joins : List (JoinRecord τ))
    (boxed : PerScalar τ) (k : Scalar) :
    Registry.composite k (boxed.get k) (c.recording joins) =
      .ok (c.table.composite boxed k) (c.recording (joins ++ c.table.askedFor boxed k)) := by
  rw [composite_eq, recording_recording]
  rfl

/-- The registry of three boxed types is the one of the table, whatever the
table answers, and the joins on the way are recorded. -/
theorem derive_eq (c : Consulted τ) (boxed : PerScalar τ) :
    Registry.derive boxed c =
      .ok (c.table.registry boxed) (c.recording (c.table.asked boxed)) := by
  have h₁ : Registry.composite .number boxed.number c = _ := composite_eq c boxed .number
  have h₂ : Registry.composite .string boxed.string _ = _ :=
    composite_recording c (c.table.askedFor boxed .number) boxed .string
  have h₃ : Registry.composite .boolean boxed.boolean _ = _ :=
    composite_recording c (c.table.askedFor boxed .number ++ c.table.askedFor boxed .string)
      boxed .boolean
  unfold Registry.derive
  rw [bind_of_ok h₁, bind_of_ok h₂, bind_of_ok h₃]
  refine congrArg (EStateM.Result.ok _) (Eq.trans (recording_recording c _ _) ?_)
  rw [LatticeTable.asked, Scalar.all]
  simp only [List.flatMap_cons, List.flatMap_nil, List.append_nil, List.append_assoc]
  rfl

theorem freeze_of_checkLaws {d : Draft τ} (hd : ∀ k, d.slots.get k = some (boxed.get k))
    {x : Except Breach Unit}
    (hx : (c.table.registry boxed).checkLaws (c.recording (c.table.asked boxed)) = x) :
    d.freeze c =
      match x with
      | .ok () => .ok (c.table.registry boxed) (c.recording (c.table.asked boxed))
      | .error b => .error (.breach b) (c.recording (c.table.asked boxed)) := by
  rw [Draft.freeze_of_slots hd]
  cases x with
  | ok _ =>
      refine adaptExcept_of_ok ?_
      rw [bind_of_ok (derive_eq c boxed), bind_of_ok (reading_of_ok hx)]
      rfl
  | error b =>
      refine adaptExcept_of_error ?_
      rw [bind_of_ok (derive_eq c boxed), bind_of_error (reading_of_error hx)]

/-- An empty slot ends a freeze before any join. Otherwise the joins are those
of the table, and the freeze succeeds if no comparison is denied and else fails
with the text of the first one that is. -/
theorem freeze_spec (c : Consulted τ) (d : Draft τ) :
    (∀ k, d.slots.get k = none → (∀ l : Scalar, l.index < k.index → d.slots.get l ≠ none) →
      d.freeze c = .error (.slot (.unset k)) c) ∧
    ∀ boxed : PerScalar τ, (∀ k, d.slots.get k = some (boxed.get k)) →
      let t := c.table
      let joined := c.recording (t.asked boxed)
      ((t.comparisons boxed).find? t.denies = none → d.freeze c = .ok (t.registry boxed) joined) ∧
      (∀ denied, (t.comparisons boxed).find? t.denies = some denied →
        ∃ e, d.freeze c = .error e joined ∧ e.message = denied.text) ∧
      ((∃ r v, d.freeze c = .ok r v) ↔
        (∀ k, t.isBelow (t.scalar k) (t.composite boxed k) = true) ∧
        (∀ k, t.isUnknown (boxed.get k) = false →
          t.isBelow (boxed.get k) (t.composite boxed k) = true) ∧
        ∀ k ∈ [Scalar.number, .string],
          t.isBelow (t.composite boxed k) (t.registry boxed).numberOrString = true) := by
  refine ⟨fun k hk hbefore => Draft.freeze_of_pending (Draft.head?_pending hk hbefore),
    fun boxed hd => ?_⟩
  intro t joined
  have hreports : t.Reports (t.comparisons boxed) ((t.registry boxed).checkLaws joined) :=
    LatticeTable.reports_checkLaws joined boxed
  unfold LatticeTable.Reports at hreports
  have hok : (t.comparisons boxed).find? t.denies = none →
      d.freeze c = .ok (t.registry boxed) joined := by
    intro h
    rw [h] at hreports
    exact freeze_of_checkLaws hd hreports
  have herror : ∀ denied, (t.comparisons boxed).find? t.denies = some denied →
      ∃ e, d.freeze c = .error e joined ∧ e.message = denied.text := by
    intro denied h
    rw [h] at hreports
    obtain ⟨b, hb, htext⟩ := hreports
    exact ⟨.breach b, freeze_of_checkLaws hd hb, htext⟩
  refine ⟨hok, herror, ?_⟩
  rw [← LatticeTable.find?_comparisons_eq_none_iff]
  constructor
  · rintro ⟨r, v, hfreeze⟩
    cases h : (t.comparisons boxed).find? t.denies with
    | none => rfl
    | some denied =>
        obtain ⟨e, he, -⟩ := herror denied h
        cases he.symm.trans hfreeze
  · intro h
    exact ⟨_, _, hok h⟩

/-- Where a join answers with its left operand, the known boxed type of the
strings is the first to be missing from its composite. -/
theorem freeze_spec_left_join :
    let t : LatticeTable Nat :=
      ⟨fun k => k.index + 2, 0, (· == 0), fun a _ => a, (· ≤ ·), toString⟩
    let d : Draft Nat := ⟨⟨some 0, some 7, some 1⟩⟩
    (∀ k, d.slots.get k = some ((⟨0, 7, 1⟩ : PerScalar Nat).get k)) ∧
    ∃ e, d.freeze (new t) = .error e ⟨t, [⟨3, 7, 3⟩, ⟨4, 1, 4⟩, ⟨2, 3, 2⟩]⟩ ∧
      e.message = "CanonicalTypes: string instance 7 is not below its composite 3" := by
  intro t d
  have hd : ∀ k, d.slots.get k = some ((⟨0, 7, 1⟩ : PerScalar Nat).get k) := by
    intro k
    cases k <;> rfl
  obtain ⟨e, hfreeze, htext⟩ := ((freeze_spec (new t) d).2 ⟨0, 7, 1⟩ hd).2.1 _ rfl
  exact ⟨hd, e, hfreeze, htext.trans (by cbv)⟩

end Consulted

end BoxedTypes

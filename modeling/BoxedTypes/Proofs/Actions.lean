import BoxedTypes.TypeSystem

/-!
# Results of actions

An action on a state ends in an answer or in an error, and leaves a state behind
in both cases. The lemmas here say what that does to a sequence of actions, in
two forms. The first computes: once the first action is known to end in a given
way, the sequence is the rest of it, or that error. The second goes back: a
sequence that ended in an answer had one at every step.

`leftBehind` forgets how an action ended. It is what the next action on the same
state starts from. `Preserves` says of an action that a property of the state
before it is one of the state left behind; it goes through sequences, so what
the smallest actions preserve is preserved by all that is made of them.
-/

namespace BoxedTypes

variable {ε ε' σ α β : Type} {x : EStateM ε σ α} {s s' : σ}

/-- The state that an action leaves behind, whether it succeeded or not. -/
def leftBehind : EStateM.Result ε σ α → σ
  | .ok _ s => s
  | .error _ s => s

theorem bind_of_ok {f : α → EStateM ε σ β} {a : α} (h : x s = .ok a s') :
    (x >>= f) s = f a s' := by
  show EStateM.bind x f s = f a s'
  rw [EStateM.bind, h]

theorem bind_of_error {f : α → EStateM ε σ β} {e : ε} (h : x s = .error e s') :
    (x >>= f) s = .error e s' := by
  show EStateM.bind x f s = .error e s'
  rw [EStateM.bind, h]

theorem bind_eq_of_eq {f : α → EStateM ε σ β} (h : x s = x s') : (x >>= f) s = (x >>= f) s' := by
  show EStateM.bind x f s = EStateM.bind x f s'
  rw [EStateM.bind, EStateM.bind, h]

theorem bind_ok_cases {f : α → EStateM ε σ β} {b : β} (h : (x >>= f) s = .ok b s') :
    ∃ a t, x s = .ok a t ∧ f a t = .ok b s' := by
  cases hx : x s with
  | ok a t =>
      rw [bind_of_ok hx] at h
      exact ⟨a, t, rfl, h⟩
  | error e t =>
      rw [bind_of_error hx] at h
      cases h

theorem adaptExcept_of_ok {f : ε → ε'} {a : α} (h : x s = .ok a s') :
    EStateM.adaptExcept f x s = .ok a s' := by
  rw [EStateM.adaptExcept, h]

theorem adaptExcept_of_error {f : ε → ε'} {e : ε} (h : x s = .error e s') :
    EStateM.adaptExcept f x s = .error (f e) s' := by
  rw [EStateM.adaptExcept, h]

theorem adaptExcept_eq_of_eq {f : ε → ε'} (h : x s = x s') :
    EStateM.adaptExcept f x s = EStateM.adaptExcept f x s' := by
  rw [EStateM.adaptExcept, EStateM.adaptExcept, h]

theorem adaptExcept_ok_cases {f : ε → ε'} {a : α}
    (h : EStateM.adaptExcept f x s = .ok a s') : x s = .ok a s' := by
  cases hx : x s with
  | ok b t =>
      rw [adaptExcept_of_ok hx] at h
      cases h
      rfl
  | error e t =>
      rw [adaptExcept_of_error hx] at h
      cases h

theorem adaptExcept_error_cases {f : ε → ε'} {e : ε'}
    (h : EStateM.adaptExcept f x s = .error e s') : ∃ e', x s = .error e' s' ∧ f e' = e := by
  cases hx : x s with
  | ok a t =>
      rw [adaptExcept_of_ok hx] at h
      cases h
  | error e' t =>
      rw [adaptExcept_of_error hx] at h
      cases h
      exact ⟨e', rfl, rfl⟩

theorem map_of_ok {f : α → β} {a : α} (h : x s = .ok a s') :
    (f <$> x) s = .ok (f a) s' := by
  show EStateM.map f x s = .ok (f a) s'
  rw [EStateM.map, h]

theorem map_of_error {f : α → β} {e : ε} (h : x s = .error e s') :
    (f <$> x) s = .error e s' := by
  show EStateM.map f x s = .error e s'
  rw [EStateM.map, h]

theorem map_ok_cases {f : α → β} {b : β} (h : (f <$> x) s = .ok b s') :
    ∃ a, x s = .ok a s' ∧ f a = b := by
  change EStateM.map f x s = .ok b s' at h
  unfold EStateM.map at h
  split at h
  · next a t hx =>
      cases h
      exact ⟨a, hx, rfl⟩
  · cases h

theorem forM_append_of_ok {f : α → EStateM ε σ Unit} {as : List α}
    (h : as.forM f s = .ok () s') (bs : List α) : (as ++ bs).forM f s = bs.forM f s' := by
  have happend : (as ++ bs).forM f = (as.forM f >>= fun _ => bs.forM f) := List.forM_append
  rw [happend, bind_of_ok h]

theorem foldlM_append_of_ok {f : β → α → EStateM ε σ β} {as : List α} {b c : β}
    (h : as.foldlM f b s = .ok c s') (bs : List α) :
    (as ++ bs).foldlM f b s = bs.foldlM f c s' := by
  rw [List.foldlM_append, bind_of_ok h]

theorem reading_of_ok {read : σ → Except ε α} {a : α} (h : read s = .ok a) :
    TypeSystem.reading read s = .ok a s := by
  rw [TypeSystem.reading, h]

theorem reading_of_error {read : σ → Except ε α} {e : ε} (h : read s = .error e) :
    TypeSystem.reading read s = .error e s := by
  rw [TypeSystem.reading, h]

theorem reading_ok_cases {read : σ → Except ε α} {a : α}
    (h : TypeSystem.reading read s = .ok a s') : read s = .ok a ∧ s' = s := by
  unfold TypeSystem.reading at h
  split at h
  · next b hb =>
      cases h
      exact ⟨hb, rfl⟩
  · cases h

@[simp] theorem leftBehind_adaptExcept (f : ε → ε') (x : EStateM ε σ α) (s : σ) :
    leftBehind (EStateM.adaptExcept f x s) = leftBehind (x s) := by
  cases h : x s with
  | ok a s' => rw [adaptExcept_of_ok h]; rfl
  | error e s' => rw [adaptExcept_of_error h]; rfl

@[simp] theorem leftBehind_map (f : α → β) (x : EStateM ε σ α) (s : σ) :
    leftBehind ((f <$> x) s) = leftBehind (x s) := by
  show leftBehind (EStateM.map f x s) = leftBehind (x s)
  unfold EStateM.map
  cases x s <;> rfl

@[simp] theorem leftBehind_reading (read : σ → Except ε α) (s : σ) :
    leftBehind (TypeSystem.reading read s) = s := by
  unfold TypeSystem.reading
  cases read s <;> rfl

/-! ## What an action preserves -/

/-- Where the property holds, it holds of what the action leaves behind. -/
def Preserves (P : σ → Prop) (x : EStateM ε σ α) : Prop :=
  ∀ s, P s → P (leftBehind (x s))

namespace Preserves

variable {P : σ → Prop}

theorem pure (a : α) : Preserves P (Pure.pure a : EStateM ε σ α) := fun _ hs => hs

theorem throw (e : ε) : Preserves P (throw e : EStateM ε σ α) := fun _ hs => hs

theorem bind {f : α → EStateM ε σ β} (hx : Preserves P x) (hf : ∀ a, Preserves P (f a)) :
    Preserves P (x >>= f) := by
  intro s hs
  have ht := hx s hs
  cases h : x s with
  | ok a t =>
      rw [bind_of_ok h]
      rw [h] at ht
      exact hf a t ht
  | error e t =>
      rw [bind_of_error h]
      rw [h] at ht
      exact ht

theorem foldlM {f : β → α → EStateM ε σ β} (hf : ∀ b a, Preserves P (f b a)) (as : List α)
    (b : β) : Preserves P (as.foldlM f b) := by
  induction as generalizing b with
  | nil => exact pure b
  | cons a as ih =>
      rw [List.foldlM_cons]
      exact (hf b a).bind ih

theorem mapM {f : α → EStateM ε σ β} (hf : ∀ a, Preserves P (f a)) (as : List α) :
    Preserves P (as.mapM f) := by
  induction as with
  | nil => exact pure []
  | cons a as ih =>
      rw [List.mapM_cons]
      exact (hf a).bind fun b => ih.bind fun bs => pure (b :: bs)

theorem map (hx : Preserves P x) (f : α → β) : Preserves P (f <$> x) := by
  intro s hs
  rw [leftBehind_map]
  exact hx s hs

theorem adaptExcept (hx : Preserves P x) (f : ε → ε') :
    Preserves P (EStateM.adaptExcept f x) := by
  intro s hs
  rw [leftBehind_adaptExcept]
  exact hx s hs

theorem reading (read : σ → Except ε α) : Preserves P (TypeSystem.reading read) := by
  intro s hs
  rw [leftBehind_reading]
  exact hs

end Preserves

end BoxedTypes

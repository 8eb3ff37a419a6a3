import BoxedTypes.Proofs.History
import BoxedTypes.Proofs.Readings

/-!
# The text of a registry

Seven types are in a registry, and its text is made of their seven texts and of
fixed words. So the text of a registry is described in two steps.
`Registry.ShownBy` says of a record of texts that each is the text of the type
in its place, and asks the lattice; `Registry.layout` puts such a record into
lines, and no lattice is in it.
-/

namespace BoxedTypes

namespace Registry

variable {τ : Type}

/-- A registry is known by the types in it. -/
theorem ext_get {r r' : Registry τ} (hboxed : ∀ k, r.boxed.get k = r'.boxed.get k)
    (hcomposites : ∀ k, r.composites.get k = r'.composites.get k)
    (hnumberOrString : r.numberOrString = r'.numberOrString) : r = r' := by
  cases r
  cases r'
  cases PerScalar.ext_get hboxed
  cases PerScalar.ext_get hcomposites
  cases hnumberOrString
  rfl

/-! ## Lines of words -/

/-- The words of the lines for a registry, given the texts of its types. -/
def page (x : Registry String) : List (List String) :=
  (Scalar.all.map fun k => [k.name ++ ":", x.boxed.get k, "=>", x.composites.get k]) ++
    [["num_or_str:", x.numberOrString]]

/-- The text for a registry, given the texts of its types. -/
def layout (x : Registry String) : String :=
  String.join (x.page.map fun line => " ".intercalate line ++ "\n")

variable {σ : Type} [TypeSystem σ τ]

/-- Each text is that of the type in its place. -/
structure ShownBy (r : Registry τ) (s : σ) (x : Registry String) : Prop where
  boxed : ∀ k, TypeSystem.display s (r.boxed.get k) = .ok (x.boxed.get k)
  composite : ∀ k, TypeSystem.display s (r.composites.get k) = .ok (x.composites.get k)
  numberOrString : TypeSystem.display s r.numberOrString = .ok x.numberOrString

variable {r : Registry τ} {s : σ} {x : Registry String}

theorem exists_shownBy (h : ∀ ty ∈ r.types, ∃ text, TypeSystem.display s ty = .ok text) :
    ∃ x, r.ShownBy s x := by
  obtain ⟨boxed, hboxed⟩ := PerScalar.exists_get fun k => h _ (r.boxed_mem_types k)
  obtain ⟨composites, hcomposites⟩ := PerScalar.exists_get fun k => h _ (r.composite_mem_types k)
  obtain ⟨numberOrString, hnumberOrString⟩ := h _ r.numberOrString_mem_types
  exact ⟨⟨boxed, composites, numberOrString⟩, hboxed, hcomposites, hnumberOrString⟩

theorem ShownBy.exists_display_of_mem (h : r.ShownBy s x) {text : String}
    (htext : text ∈ x.types) : ∃ ty, TypeSystem.display s ty = .ok text := by
  rw [types, List.mem_append, List.mem_append] at htext
  rcases htext with (hboxed | hcomposite) | hnumberOrString
  · obtain ⟨k, -, rfl⟩ := List.mem_map.mp hboxed
    exact ⟨_, h.boxed k⟩
  · obtain ⟨k, -, rfl⟩ := List.mem_map.mp hcomposite
    exact ⟨_, h.composite k⟩
  · cases List.mem_singleton.mp hnumberOrString
    exact ⟨_, h.numberOrString⟩

theorem ShownBy.dumpKind (h : r.ShownBy s x) (k : Scalar) :
    r.dumpKind s k =
      .ok (" ".intercalate [k.name ++ ":", x.boxed.get k, "=>", x.composites.get k] ++ "\n") := by
  refine bind_eq_ok_iff.mpr ⟨_, h.boxed k, bind_eq_ok_iff.mpr ⟨_, h.composite k, ?_⟩⟩
  exact congrArg Except.ok (by simp [← String.toList_inj, toString])

theorem ShownBy.dump (h : r.ShownBy s x) : r.dump s = .ok x.layout := by
  have hkinds : Scalar.all.mapM (r.dumpKind s) = .ok (Scalar.all.map fun k =>
      " ".intercalate [k.name ++ ":", x.boxed.get k, "=>", x.composites.get k] ++ "\n") := by
    rw [mapM_eq_ok_iff, List.forall₂_map_right_iff, List.forall₂_same]
    exact fun k _ => h.dumpKind k
  refine bind_eq_ok_iff.mpr ⟨_, hkinds, bind_eq_ok_iff.mpr ⟨_, h.numberOrString, ?_⟩⟩
  refine congrArg Except.ok ?_
  rw [layout, page, List.map_append, List.map_map, String.join_append]
  exact congrArg₂ (· ++ ·) rfl (by simp [toString])

end Registry

end BoxedTypes

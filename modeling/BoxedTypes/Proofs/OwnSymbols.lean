import BoxedTypes.Proofs.History

/-!
# Histories that use their own symbols

Shapes are interned as they are given, and nothing looks at the symbols in them.
A caller can put a symbol into a lattice that the lattice has not named, and
then a type is there that cannot be shown. A history uses its own symbols if it
does not do that: whatever symbol it writes into a shape or an atom has a name
by then.

In such a history every symbol in every type has a name (`Named`). A class that
is declared brings its name along, and a join has no symbol that was not in one
of its operands, so by `Preserves` no union and no freeze has one either. There
is no bound on the number of names in this. A symbol handed out past the limit
is an earlier one, and that has a name too. Names are all that showing a type
can fail for, so in such a history every type can be shown
(`Named.exists_display`).
-/

namespace BoxedTypes

/-- The symbol is one of those that the names were given. -/
def Names.Knows (names : Names) (symbol : Symbol) : Prop := (names.get? symbol.index).isSome

/-- The symbol occurs in the shape. -/
def Shape.Mentions (s : Shape) (symbol : Symbol) : Prop :=
  ∃ as, s = .union as ∧ .object symbol ∈ as

namespace Pool

variable {α : Type} [BEq α] [Hashable α] {p : Pool α} {a b : α} {h : UInt32}

theorem get?_intern_cases (hb : (p.intern a).2.get? h = some b) :
    p.get? h = some b ∨ b = a := by
  cases hf : p.find? a with
  | some k =>
      rw [intern_of_find?_eq_some hf] at hb
      exact .inl hb
  | none =>
      rw [get?_eq_some_iff, getElem?_intern_of_fresh hf] at hb
      split at hb
      · exact .inr (Option.some.inj hb).symm
      · exact .inl hb

/-- A handle that is kept for a value reads some value, also where it had to be
cut down to a word. -/
theorem Coherent.isSome_get?_of_find? (hp : p.Coherent) (hf : p.find? a = some h) :
    (p.get? h).isSome := by
  obtain ⟨i, hi, rfl⟩ := (hp.find?_iff a h).mp hf
  have hlt := lt_size_of_getElem? hi
  have hle : (UInt32.ofNat i).toNat ≤ i := by
    rw [UInt32.toNat_ofNat']
    exact Nat.mod_le _ _
  exact isSome_get?_iff.mpr (by omega)

end Pool

theorem Names.knows_of_size {names : Names} (h : UInt32.size ≤ names.size) (symbol : Symbol) :
    names.Knows symbol :=
  Pool.isSome_get?_iff.mpr (Nat.lt_of_lt_of_le symbol.index.toNat_lt h)

theorem Names.Knows.of_grows {names later : Names} {symbol : Symbol} (hk : names.Knows symbol)
    (h : names.Grows later) : later.Knows symbol := by
  obtain ⟨name, hname⟩ := Option.isSome_iff_exists.mp hk
  exact Option.isSome_iff_exists.mpr ⟨name, h.get? hname⟩

namespace UnionTypes

/-- The symbol is written into the call. -/
def Call.Mentions : Call → Symbol → Prop
  | .intern s, symbol => s.Mentions symbol
  | .atom a, symbol => a = .object symbol
  | _, _ => False

/-- Each symbol that the calls mention is known by the time of the call. -/
def OwnSymbols : List Call → UnionTypes → Prop
  | [], _ => True
  | c :: calls, u =>
    (∀ symbol, c.Mentions symbol → u.names.Knows symbol) ∧
      OwnSymbols calls (leftBehind (c.run u))

/-- Every symbol in a type of the lattice has a name. -/
structure Named (u : UnionTypes) : Prop where
  names : u.names.Coherent
  knows : ∀ id s symbol, u.shape? id = some s → s.Mentions symbol → u.names.Knows symbol

variable {u v : UnionTypes}

theorem Named.intern (hu : u.Named) {s : Shape}
    (hs : ∀ symbol, s.Mentions symbol → u.names.Knows symbol) : (u.intern s).2.Named := by
  refine ⟨hu.names, fun id t symbol ht hsymbol => ?_⟩
  rcases Pool.get?_intern_cases ht with ht | rfl
  · exact hu.knows id t symbol ht hsymbol
  · exact hs symbol hsymbol

theorem Named.declare (hu : u.Named) (name : String) :
    UnionTypes.Named { u with names := (u.names.declare name).2 } := by
  refine ⟨hu.names.intern name, fun id s symbol hs hsymbol => ?_⟩
  exact (hu.knows id s symbol hs hsymbol).of_grows (.intern name .refl)

theorem atom_mentions {a : Atom} {symbol : Symbol} (h : (Shape.atom a).Mentions symbol) :
    a = .object symbol := by
  obtain ⟨as, has, hmem⟩ := h
  cases has
  exact (AtomSet.mem_singleton.mp hmem).symm

theorem Named.object (hu : u.Named) (name : String) : (u.object name).2.Named := by
  refine (hu.declare name).intern fun symbol hsymbol => ?_
  cases atom_mentions hsymbol
  exact (hu.names.intern name).isSome_get?_of_find? (Pool.find?_intern u.names name)

theorem preserves_named_join (a b : TypeId) : Preserves Named (join a b) := by
  intro u hu
  unfold join
  split
  · exact hu
  · split
    · exact hu
    · exact hu
    · next as bs hs ht =>
        refine hu.intern fun symbol hsymbol => ?_
        obtain ⟨cs, hcs, hmem⟩ := hsymbol
        cases hcs
        rcases AtomSet.mem_union.mp hmem with ha | hb
        · exact hu.knows a _ symbol (shape_eq_ok_iff.mp hs) ⟨as, rfl, ha⟩
        · exact hu.knows b _ symbol (shape_eq_ok_iff.mp ht) ⟨bs, rfl, hb⟩
    · exact hu

theorem Named.run (hu : u.Named) {c : Call}
    (hc : ∀ symbol, c.Mentions symbol → u.names.Knows symbol) :
    (leftBehind (c.run u)).Named := by
  cases c with
  | intern s => exact hu.intern hc
  | atom a => exact hu.intern fun symbol h => hc symbol (atom_mentions h)
  | null => exact hu.intern fun symbol h => by cases atom_mentions h
  | undefined => exact hu.intern fun symbol h => by cases atom_mentions h
  | object name => exact hu.object name
  | join a b => exact ((preserves_named_join a b).map _).adaptExcept _ u hu
  | union members =>
      exact ((Preserves.foldlM preserves_named_join members _).map _).adaptExcept _ u hu
  | freeze d => exact (d.preserves_freeze preserves_named_join).map _ u hu
  | ofDeclarations decls c =>
      exact (Registry.preserves_ofDeclarations preserves_named_join decls c).map _ u hu

theorem not_mentions_of_mem_builtins {s : Shape} (hs : s ∈ builtins) (symbol : Symbol) :
    ¬ s.Mentions symbol := by
  simp only [builtins, Scalar.all, List.map_cons, List.map_nil, List.mem_cons,
    List.not_mem_nil, or_false] at hs
  rcases hs with rfl | rfl | rfl | rfl | rfl
  · rintro ⟨as, has, -⟩
    cases has
  · rintro ⟨as, has, hmem⟩
    cases has
    exact AtomSet.not_mem_empty _ hmem
  all_goals exact fun h => by cases atom_mentions h

theorem Named.foldl_intern (hu : u.Named) {ss : List Shape}
    (hss : ∀ s ∈ ss, ∀ symbol, ¬ s.Mentions symbol) :
    (ss.foldl (fun u s => (u.intern s).2) u).Named := by
  induction ss generalizing u with
  | nil => exact hu
  | cons s ss ih =>
      have hs := hss s List.mem_cons_self
      refine ih (hu.intern fun symbol h => absurd h (hs symbol)) fun t ht => ?_
      exact hss t (List.mem_cons_of_mem s ht)

theorem named_new : new.Named := by
  have hempty : UnionTypes.Named ⟨.empty, .empty⟩ :=
    ⟨Pool.coherent_empty, fun id s symbol hs => by cases hs⟩
  exact hempty.foldl_intern fun s hs => not_mentions_of_mem_builtins hs

theorem Named.after (hu : u.Named) {calls : List Call} (hown : OwnSymbols calls u) :
    (UnionTypes.after calls u).Named := by
  induction calls generalizing u with
  | nil => exact hu
  | cons c calls ih =>
      rw [after_cons]
      exact ih (hu.run hown.1) hown.2

/-! ## Showing types -/

theorem exists_atomName {a : Atom} (h : ∀ symbol, a = .object symbol → u.names.Knows symbol) :
    ∃ name, u.atomName a = .ok name := by
  cases a with
  | number | string | boolean | null | undefined => exact ⟨_, rfl⟩
  | object symbol =>
      obtain ⟨name, hname⟩ := Option.isSome_iff_exists.mp (h symbol rfl)
      exact ⟨name, Names.resolve_eq_ok_iff.mpr hname⟩

theorem display_of_shape? {id : TypeId} {s : Shape} (hs : u.shape? id = some s) :
    u.display id = u.showShape s := by
  rw [display, shape_of_shape? hs]
  rfl

/-- A type can be shown if its symbols have names. -/
theorem exists_display_of_knows {id : TypeId} {s : Shape} (hs : u.shape? id = some s)
    (h : ∀ symbol, s.Mentions symbol → u.names.Knows symbol) :
    ∃ text, u.display id = .ok text := by
  rw [display_of_shape? hs]
  cases s with
  | unknown => exact ⟨_, rfl⟩
  | union as =>
      rw [showShape]
      split
      · exact ⟨_, rfl⟩
      · have hnames : ∀ a ∈ as.toList, ∃ name, u.atomName a = .ok name := fun a ha =>
          exists_atomName fun symbol hsymbol => h symbol ⟨as, rfl, hsymbol ▸ ha⟩
        obtain ⟨names, hall⟩ := exists_mapM_iff.mpr hnames
        exact ⟨_, by rw [hall]; rfl⟩

theorem Named.exists_display (hu : u.Named) {id : TypeId} (hid : u.Issued id) :
    ∃ text, u.display id = .ok text := by
  obtain ⟨s, hs⟩ := issued_iff.mp hid
  exact exists_display_of_knows hs fun symbol => hu.knows id s symbol hs

end UnionTypes

end BoxedTypes

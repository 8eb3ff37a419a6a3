import BoxedTypes.Proofs.DeclaredClasses
import BoxedTypes.Proofs.JoinOutcome

/-!
# How types are shown

A type is shown by the words of its atoms. Whether an atom has a word depends on
how many names the lattice has, and with names the atoms that have a word are a
list that the history alone determines: the built-in atoms first and then the
declared classes, in the order of their first declarations (`glossary`). As long
as there are no more names than symbols this is the order of the atoms.

A set of atoms is kept in that order too. So the atoms of a type are the entries
of the glossary that are in it, one after the other, and nothing is left of the
order in which the type was put together (`showShape_of_named`).

An atom without a word is one whose symbol reaches beyond the names, and the
walk over the atoms stops at the first such atom. The order makes that the one
with the smallest symbol (`Shape.FirstUnnamed`), though it need not be the first
that was put in.
-/

namespace BoxedTypes

/-- The symbol is the smallest one in the shape that reaches beyond so many
names. -/
structure Shape.FirstUnnamed (s : Shape) (names : Nat) (symbol : Symbol) : Prop where
  mentions : s.Mentions symbol
  unnamed : names ≤ symbol.index.toNat
  least : ∀ other, s.Mentions other → names ≤ other.index.toNat →
    symbol.index.toNat ≤ other.index.toNat

theorem Shape.FirstUnnamed.unique {s : Shape} {names : Nat} {symbol other : Symbol}
    (h : s.FirstUnnamed names symbol) (h' : s.FirstUnnamed names other) : symbol = other := by
  have hle := h.least other h'.mentions h'.unnamed
  have hge := h'.least symbol h.mentions h.unnamed
  exact congrArg Symbol.mk (UInt32.toNat_inj.mp (Nat.le_antisymm hle hge))

theorem Names.not_knows_iff {names : Names} {symbol : Symbol} :
    ¬ names.Knows symbol ↔ names.size ≤ symbol.index.toNat := by
  rw [Knows, Pool.isSome_get?_iff, Nat.not_lt]

namespace UnionTypes

/-- The built-in atoms with their words, in the order of the atoms. -/
def builtinWords : List (Atom × String) :=
  [(.number, "number"), (.string, "string"), (.boolean, "boolean"), (.null, "null"),
    (.undefined, "undefined")]

/-- The atoms that have a word where these classes were declared, in this
order. -/
def glossary (classes : List String) : List (Atom × String) :=
  builtinWords ++ classes.zipIdx.map fun (name, i) => (.object ⟨UInt32.ofNat i⟩, name)

variable {u : UnionTypes} {id : TypeId} {s : Shape} {as : AtomSet} {a : Atom} {symbol : Symbol}

/-! ## The glossary -/

theorem atomName_object_eq_ok_iff {name : String} :
    u.atomName (.object symbol) = .ok name ↔ u.names.get? symbol.index = some name :=
  Names.resolve_eq_ok_iff

/-- The glossary of the names has each atom that has a word, with its word. -/
theorem mem_glossary_iff (hfit : u.names.size ≤ UInt32.size) {word : String} :
    (a, word) ∈ glossary u.names.values.toList ↔ u.atomName a = .ok word := by
  rw [glossary, List.mem_append]
  cases a with
  | number | string | boolean | null | undefined =>
      simp [builtinWords, atomName, eq_comm]
  | object symbol =>
      rw [atomName_object_eq_ok_iff, Pool.get?_eq_some_iff]
      have hbuiltin : (Atom.object symbol, word) ∉ builtinWords := by simp [builtinWords]
      rw [or_iff_right hbuiltin, List.mem_map]
      constructor
      · rintro ⟨⟨name, i⟩, hmem, heq⟩
        rw [List.mem_zipIdx_iff_getElem?, Array.getElem?_toList] at hmem
        cases heq
        have hlt := Pool.lt_size_of_getElem? hmem
        rw [UInt32.toNat_ofNat_of_lt' (by omega)]
        exact hmem
      · intro h
        have hmem : (word, symbol.index.toNat) ∈ u.names.values.toList.zipIdx := by
          rw [List.mem_zipIdx_iff_getElem?, Array.getElem?_toList]
          exact h
        refine ⟨_, hmem, ?_⟩
        show (Atom.object ⟨UInt32.ofNat symbol.index.toNat⟩, word) = (.object symbol, word)
        rw [UInt32.ofNat_toNat]

theorem sorted_glossary (classes : List String) (hfit : classes.length ≤ UInt32.size) :
    ((glossary classes).map Prod.fst).Pairwise (· < ·) := by
  have hobjects : (classes.zipIdx.map fun (name, i) =>
      ((.object ⟨UInt32.ofNat i⟩, name) : Atom × String)).map Prod.fst =
      (List.range' 0 classes.length).map fun i => .object ⟨UInt32.ofNat i⟩ := by
    rw [← List.zipIdx_map_snd, List.map_map, List.map_map]
    rfl
  rw [glossary, List.map_append, hobjects, List.pairwise_append]
  refine ⟨by decide, ?_, ?_⟩
  · refine List.pairwise_map.mpr (List.Pairwise.imp_of_mem ?_ List.pairwise_lt_range')
    intro i j hi hj hij
    rw [List.mem_range'_1] at hi hj
    show 5 + (UInt32.ofNat i).toNat < 5 + (UInt32.ofNat j).toNat
    rw [UInt32.toNat_ofNat_of_lt' (by omega), UInt32.toNat_ofNat_of_lt' (by omega)]
    omega
  · intro a ha b hb
    obtain ⟨i, -, rfl⟩ := List.mem_map.mp hb
    have hrank : ∀ a ∈ builtinWords.map Prod.fst, a.rank < 5 := by decide
    exact Nat.lt_of_lt_of_le (hrank a ha) (Nat.le_add_right 5 _)

/-! ## The walk over the atoms -/

theorem atomName_error_cases {e : Breach} (h : u.atomName a = .error e) :
    ∃ symbol, a = .object symbol ∧ u.names.size ≤ symbol.index.toNat ∧
      e = .unnamedSymbol symbol u.names.size := by
  cases a with
  | number | string | boolean | null | undefined => cases h
  | object symbol =>
      rw [atomName, objectName, Names.resolve] at h
      cases hname : u.names.get? symbol.index with
      | some name =>
          rw [hname] at h
          cases h
      | none =>
          rw [hname] at h
          cases h
          refine ⟨symbol, rfl, Names.not_knows_iff.mp ?_, rfl⟩
          rw [Names.Knows, hname]
          exact Bool.false_ne_true

theorem union_mentions_iff : (Shape.union as).Mentions symbol ↔ .object symbol ∈ as := by
  constructor
  · rintro ⟨_, heq, hmem⟩
    cases heq
    exact hmem
  · intro hmem
    exact ⟨as, rfl, hmem⟩

/-- The walk over the atoms stops at the smallest symbol without a name. -/
theorem firstUnnamed_of_mapM {e : Breach} (h : as.toList.mapM u.atomName = .error e) :
    ∃ symbol, (Shape.union as).FirstUnnamed u.names.size symbol ∧
      e = .unnamedSymbol symbol u.names.size := by
  obtain ⟨before, a, later, hsplit, hbefore, ha⟩ := mapM_error_cases h
  obtain ⟨symbol, rfl, hunnamed, rfl⟩ := atomName_error_cases ha
  have hsorted := as.sorted
  rw [hsplit, List.pairwise_append, List.pairwise_cons] at hsorted
  have hmem : .object symbol ∈ as.toList := by simp [hsplit]
  refine ⟨symbol, ⟨union_mentions_iff.mpr hmem, hunnamed, fun other hother hbeyond => ?_⟩, rfl⟩
  rw [union_mentions_iff, AtomSet.mem_def, hsplit, List.mem_append, List.mem_cons] at hother
  rcases hother with hearlier | hsame | hlater
  · obtain ⟨name, hname⟩ := hbefore _ hearlier
    have hknown : u.names.Knows other :=
      Option.isSome_of_eq_some (atomName_object_eq_ok_iff.mp hname)
    exact absurd hknown (Names.not_knows_iff.mpr hbeyond)
  · cases hsame
    exact Nat.le_refl _
  · have hlt : 5 + symbol.index.toNat < 5 + other.index.toNat := hsorted.2.1.1 _ hlater
    omega

/-- The atoms of a set that all have words are the entries of the glossary that
are among them, in whatever order they are given. -/
theorem toList_eq_of_named (hfit : u.names.size ≤ UInt32.size) {members : List Atom}
    (hmembers : ∀ a, a ∈ members ↔ a ∈ as) (h : ∀ a ∈ as, ∃ word, u.atomName a = .ok word) :
    as.toList =
      ((glossary u.names.values.toList).filter fun (a, _) => a ∈ members).map Prod.fst := by
  have hsorted := sorted_glossary u.names.values.toList hfit
  refine AtomSet.eq_of_sorted_of_mem_iff as.sorted
    (hsorted.sublist (List.filter_sublist.map Prod.fst)) fun a => ?_
  rw [List.mem_map]
  constructor
  · intro ha
    obtain ⟨word, hword⟩ := h a ha
    have hentry := (mem_glossary_iff hfit).mpr hword
    exact ⟨_, List.mem_filter.mpr ⟨hentry, decide_eq_true ((hmembers a).mpr ha)⟩, rfl⟩
  · rintro ⟨⟨_, word⟩, hmem, rfl⟩
    exact (hmembers _).mp (of_decide_eq_true (List.mem_filter.mp hmem).2)

/-! ## What is shown -/

/-- The text of a set of atoms that all have words. -/
theorem showShape_of_named (hfit : u.names.size ≤ UInt32.size) {members : List Atom}
    (hmembers : ∀ a, a ∈ members ↔ a ∈ as) (hne : members ≠ [])
    (h : ∀ a ∈ as, ∃ word, u.atomName a = .ok word) :
    u.showShape (.union as) = .ok ("|".intercalate
      (((glossary u.names.values.toList).filter fun (a, _) => a ∈ members).map Prod.snd)) := by
  have hwords : as.toList.mapM u.atomName = .ok
      (((glossary u.names.values.toList).filter fun (a, _) => a ∈ members).map Prod.snd) := by
    rw [toList_eq_of_named hfit hmembers h]
    exact mapM_map_fst fun e he => (mem_glossary_iff hfit).mp (List.mem_filter.mp he).1
  rw [showShape]
  split
  · next hnil =>
      obtain ⟨a, ha⟩ := List.exists_mem_of_ne_nil members hne
      have hmem : a ∈ as.toList := (hmembers a).mp ha
      rw [hnil] at hmem
      cases hmem
  · rw [hwords]
    rfl

theorem display_of_not_issued (hid : ¬ u.Issued id) :
    u.display id = .error (.missingType id) := by
  rw [display, shape_of_missing (shape?_of_not_issued hid)]
  rfl

/-- Every symbol of a shape that is shown has a name. -/
theorem knows_of_showShape {text : String} (h : u.showShape s = .ok text)
    (hsymbol : s.Mentions symbol) : u.names.Knows symbol := by
  obtain ⟨as, rfl, hmem⟩ := hsymbol
  rw [showShape] at h
  split at h
  · next hnil =>
      rw [AtomSet.mem_def, hnil] at hmem
      cases hmem
  · obtain ⟨words, hwords, -⟩ := map_eq_ok_iff.mp h
    obtain ⟨name, hname⟩ := exists_mapM_iff.mp ⟨words, hwords⟩ _ hmem
    exact Option.isSome_of_eq_some (atomName_object_eq_ok_iff.mp hname)

theorem firstUnnamed_of_showShape {e : Breach} (h : u.showShape s = .error e) :
    ∃ symbol, s.FirstUnnamed u.names.size symbol ∧ e = .unnamedSymbol symbol u.names.size := by
  cases s with
  | unknown => cases h
  | union as =>
      rw [showShape] at h
      split at h
      · cases h
      · cases hwords : as.toList.mapM u.atomName with
        | ok words =>
            rw [hwords] at h
            cases h
        | error e' =>
            rw [hwords] at h
            cases h
            exact firstUnnamed_of_mapM hwords

/-- A type cannot be shown if it has a symbol without a name, and it is the
smallest one that is reported. -/
theorem display_eq_error_iff {e : Breach} (hs : u.shape? id = some s) :
    u.display id = .error e ↔
      ∃ symbol, s.FirstUnnamed u.names.size symbol ∧ e = .unnamedSymbol symbol u.names.size := by
  rw [display_of_shape? hs]
  constructor
  · exact firstUnnamed_of_showShape
  · rintro ⟨symbol, hsymbol, rfl⟩
    cases h : u.showShape s with
    | ok text =>
        have hknown := knows_of_showShape h hsymbol.mentions
        exact absurd hknown (Names.not_knows_iff.mpr hsymbol.unnamed)
    | error e =>
        obtain ⟨other, hother, rfl⟩ := firstUnnamed_of_showShape h
        rw [hsymbol.unique hother]

/-! ## The wording of the errors -/

theorem mapError_eq_error_iff {ε ε' α : Type} {x : Except ε α} {f : ε → ε'} {e' : ε'} :
    x.mapError f = .error e' ↔ ∃ e, x = .error e ∧ f e = e' := by
  cases x with
  | ok a => exact iff_of_false nofun nofun
  | error e => simp [Except.mapError]

theorem message_missingType (id : TypeId) :
    (Breach.missingType id).message =
      s!"UnionLattice: type id {id.index.toNat} not found " ++
        "(TypeIds are only valid for the lattice that issued them)" := rfl

theorem message_unnamedSymbol (symbol : Symbol) (names : Nat) :
    (Breach.unnamedSymbol symbol names).message =
      s!"index out of bounds: the len is {names} but the index is {symbol.index.toNat}" := rfl

theorem message_missingType_ne (id : TypeId) (names i : Nat) :
    (Breach.missingType id).message ≠
      s!"index out of bounds: the len is {names} but the index is {i}" := by
  intro h
  have hfirst : 'U' = 'i' := by
    rw [message_missingType] at h
    simpa [ToString.toString] using congrArg (·.toList.head?) h
  exact absurd hfirst (by decide)

theorem message_unnamedSymbol_eq_iff {names i : Nat} :
    (Breach.unnamedSymbol symbol names).message =
        s!"index out of bounds: the len is {names} but the index is {i}" ↔
      symbol.index.toNat = i := by
  rw [message_unnamedSymbol, String.append_right_inj]
  constructor
  · intro h
    simpa using congrArg (fun digits => Nat.ofDigitChars 10 digits.toList 0) h
  · rintro rfl
    rfl

/-! ## Every state and every handle -/

/-- After any history that leaves room for the names, the text of any handle. A
handle that is not issued is reported. Otherwise, if the type has symbols beyond
the names, the smallest of them is reported with the number of the names.
Otherwise the text is that of the unknown type or of the bottom type, or the
words of the members with bars between them: those of the built-in atoms first
and then the class names, in the order of their first declarations, whatever the
order is in which the members are given. -/
theorem display_outcome (calls : List Call)
    (hnames : (after calls new).names.size ≤ UInt32.size) (id : TypeId) :
    let u := after calls new
    let shown := (u.display id).mapError Breach.message
    let unnamed := fun i : Nat =>
      s!"index out of bounds: the len is {u.names.size} but the index is {i}"
    (shown = .error (s!"UnionLattice: type id {id.index.toNat} not found " ++
        "(TypeIds are only valid for the lattice that issued them)") ↔ ¬ u.Issued id) ∧
    ∀ s, u.shape? id = some s →
      (∀ i, shown = .error (unnamed i) ↔
        ∃ symbol, s.FirstUnnamed u.names.size symbol ∧ symbol.index.toNat = i) ∧
      ((∃ i, shown = .error (unnamed i)) ↔
        ∃ symbol, s.Mentions symbol ∧ u.names.size ≤ symbol.index.toNat) ∧
      ((∀ symbol, s.Mentions symbol → symbol.index.toNat < u.names.size) →
        (s = .unknown → shown = .ok "?") ∧
        (s = .union ∅ → shown = .ok "bottom") ∧
        ∀ as members, s = .union as → (∀ a, a ∈ members ↔ a ∈ as) → members ≠ [] →
          shown = .ok ("|".intercalate
            (((glossary (classes calls)).filter fun (a, _) => a ∈ members).map Prod.snd))) := by
  intro u shown unnamed
  have hunnamed : ∀ s, u.shape? id = some s → ∀ i, shown = .error (unnamed i) ↔
      ∃ symbol, s.FirstUnnamed u.names.size symbol ∧ symbol.index.toNat = i := by
    intro s hs i
    simp only [shown, mapError_eq_error_iff, display_eq_error_iff hs]
    constructor
    · rintro ⟨_, ⟨symbol, hsymbol, rfl⟩, hmessage⟩
      exact ⟨symbol, hsymbol, message_unnamedSymbol_eq_iff.mp hmessage⟩
    · rintro ⟨symbol, hsymbol, hindex⟩
      exact ⟨_, ⟨symbol, hsymbol, rfl⟩, message_unnamedSymbol_eq_iff.mpr hindex⟩
  refine ⟨⟨fun h hissued => ?_, fun hid => ?_⟩, fun s hs => ⟨hunnamed s hs, ⟨?_, ?_⟩, fun h => ?_⟩⟩
  · obtain ⟨s, hs⟩ := issued_iff.mp hissued
    obtain ⟨e, he, hmessage⟩ := mapError_eq_error_iff.mp h
    obtain ⟨symbol, -, rfl⟩ := (display_eq_error_iff hs).mp he
    exact message_missingType_ne id _ _ hmessage.symm
  · exact mapError_eq_error_iff.mpr ⟨_, display_of_not_issued hid, rfl⟩
  · rintro ⟨i, hi⟩
    obtain ⟨symbol, hsymbol, -⟩ := (hunnamed s hs i).mp hi
    exact ⟨symbol, hsymbol.mentions, hsymbol.unnamed⟩
  · rintro ⟨symbol, hsymbol, hbeyond⟩
    cases hshow : u.showShape s with
    | ok text =>
        exact absurd (knows_of_showShape hshow hsymbol) (Names.not_knows_iff.mpr hbeyond)
    | error e =>
        obtain ⟨first, hfirst, -⟩ := firstUnnamed_of_showShape hshow
        exact ⟨_, (hunnamed s hs _).mpr ⟨first, hfirst, rfl⟩⟩
  · have hshown : ∀ {text}, u.showShape s = .ok text → shown = .ok text := by
      intro text htext
      simp only [shown, display_of_shape? hs, htext]
      rfl
    refine ⟨?_, ?_, fun as members has hmembers hne => ?_⟩
    · rintro rfl
      exact hshown rfl
    · rintro rfl
      exact hshown rfl
    · subst has
      rw [← values_names_after_new]
      refine hshown (showShape_of_named hnames hmembers hne fun a ha => ?_)
      refine exists_atomName fun symbol hsymbol => ?_
      exact Pool.isSome_get?_iff.mpr (h symbol (union_mentions_iff.mpr (hsymbol ▸ ha)))

/-- A type is put together of members in another order than that of the atoms,
one of them twice. Another type has two symbols without names. -/
theorem display_outcome_mixed :
    let members : List Atom := [.object ⟨1⟩, .null, .object ⟨0⟩, .number, .null]
    let calls : List Call := [.object "String", .object "Number",
      .intern (.union (.ofList members)), .intern (.union (.ofList [.object ⟨9⟩, .object ⟨7⟩]))]
    let u := after calls new
    u.names.size ≤ UInt32.size ∧
    u.shape? ⟨7⟩ = some (.union (.ofList members)) ∧
    (u.display ⟨7⟩).mapError Breach.message = .ok "number|null|String|Number" ∧
    u.shape? ⟨8⟩ = some (.union (.ofList [.object ⟨9⟩, .object ⟨7⟩])) ∧
    (u.display ⟨8⟩).mapError Breach.message =
      .error "index out of bounds: the len is 2 but the index is 7" := by
  intro members calls
  have hcount : (after calls new).names.size = 2 := by cbv
  have hnames : (after calls new).names.size ≤ UInt32.size := by
    rw [hcount]
    decide
  have hnamed : (after calls new).shape? ⟨7⟩ = some (.union (.ofList members)) := by cbv
  have hbeyond : (after calls new).shape? ⟨8⟩ =
      some (.union (.ofList [.object ⟨9⟩, .object ⟨7⟩])) := by cbv
  refine ⟨hnames, hnamed, ?_, hbeyond, ?_⟩
  · obtain ⟨-, -, htexts⟩ := (display_outcome calls hnames ⟨7⟩).2 _ hnamed
    obtain ⟨-, -, hwords⟩ := htexts fun symbol hsymbol => by
      rw [union_mentions_iff, AtomSet.mem_ofList] at hsymbol
      simp only [members, List.mem_cons, Atom.object.injEq, reduceCtorEq, List.not_mem_nil,
        false_or, or_false] at hsymbol
      rw [hcount]
      rcases hsymbol with rfl | rfl <;> decide
    have htext : "|".intercalate (((glossary (classes calls)).filter
        fun (a, _) => a ∈ members).map Prod.snd) = "number|null|String|Number" := by decide
    rw [hwords _ members rfl (fun a => AtomSet.mem_ofList.symm) (List.cons_ne_nil _ _), htext]
  · obtain ⟨hunnamed, -, -⟩ := (display_outcome calls hnames ⟨8⟩).2 _ hbeyond
    rw [hcount] at hunnamed
    refine (hunnamed 7).mpr ⟨⟨7⟩, ⟨?_, by decide, fun other hother _ => ?_⟩, rfl⟩
    · rw [union_mentions_iff, AtomSet.mem_ofList]
      exact List.mem_cons_of_mem _ List.mem_cons_self
    · rw [union_mentions_iff, AtomSet.mem_ofList] at hother
      simp only [List.mem_cons, Atom.object.injEq, List.not_mem_nil, or_false] at hother
      rcases hother with rfl | rfl <;> decide

end UnionTypes

end BoxedTypes

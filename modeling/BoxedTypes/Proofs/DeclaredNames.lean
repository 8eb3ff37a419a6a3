import BoxedTypes.Names
import BoxedTypes.Proofs.Coherence
import Mathlib.Data.List.Basic

/-!
# Symbols count the names declared before

Class names are declared one after the other, some more than once, and the names
can be read at any time. Reading gives no names back, so what a run leaves is
settled by its declarations alone, and whatever is read at some time is read off
the names that the declarations up to then have left. That is why a run is a
list of declarations here.

Every name has one place, at the end of what was there when it was declared
first (`getElem?_declareAll`), and keeps it. Its symbol is that place as long as
there are no more names than symbols. All else follows from the places: what a
name is found under, what a symbol resolves to, the list of all names, and the
order of the symbols, which is the order of the first declarations.
-/

namespace BoxedTypes.Names

/-- The names after some were declared one after the other. -/
def declareAll (declared : List String) (names : Names) : Names :=
  declared.foldl (fun names name => (names.declare name).2) names

variable {declared earlier later : List String} {name : String} {symbol : Symbol}

theorem declareAll_append (earlier later : List String) (names : Names) :
    declareAll (earlier ++ later) names = declareAll later (declareAll earlier names) :=
  List.foldl_append

theorem grows_declareAll (declared : List String) (names : Names) :
    Pool.Grows names (declareAll declared names) := Pool.grows_foldl_intern names declared

theorem coherent_declareAll (declared : List String) : (declareAll declared .empty).Coherent :=
  (grows_declareAll declared .empty).coherent Pool.coherent_empty

/-- The names are the distinct ones in the order of their first declarations. -/
theorem values_declareAll (declared : List String) :
    (declareAll declared .empty).values.toList = declared.eraseDups :=
  Pool.values_foldl_intern_empty declared

theorem size_declareAll (declared : List String) :
    (declareAll declared .empty).size = declared.eraseDups.length := by
  rw [← values_declareAll, Array.length_toList, Pool.size]

/-- The names that declarations add are those that they declare. -/
theorem isSome_find?_declareAll (declared : List String) (names : Names) (name : String) :
    ((declareAll declared names).find? name).isSome ↔
      (names.find? name).isSome ∨ name ∈ declared :=
  Pool.isSome_find?_foldl_intern names declared name

theorem isSome_find?_declareAll_empty :
    ((declareAll declared .empty).find? name).isSome ↔ name ∈ declared := by
  rw [isSome_find?_declareAll]
  exact or_iff_right (by simp [Pool.empty, Pool.find?])

/-- Only a declared name is behind a symbol. -/
theorem mem_of_resolve (h : (declareAll declared .empty).resolve symbol = .ok name) :
    name ∈ declared := by
  have hfind := (coherent_declareAll declared).find?_of_get? (resolve_eq_ok_iff.mp h)
  exact isSome_find?_declareAll_empty.mp (Option.isSome_of_eq_some hfind)

/-! ## The places of the names -/

/-- A name that was not declared earlier gets the next place and keeps it. -/
theorem getElem?_declareAll (hfirst : name ∉ earlier) (later : List String) :
    (declareAll (earlier ++ name :: later) .empty).values[earlier.eraseDups.length]? =
      some name := by
  have hfresh : (declareAll earlier .empty).find? name = none := by
    rw [← Option.not_isSome_iff_eq_none, isSome_find?_declareAll_empty]
    exact hfirst
  rw [declareAll_append, ← size_declareAll]
  refine (grows_declareAll later _).getElem? ?_
  exact (Pool.getElem?_intern_of_fresh hfresh _).trans (if_pos rfl)

/-- Only there is the name. -/
theorem eq_of_getElem?_declareAll (hfirst : name ∉ earlier)
    {i : Nat} (hi : (declareAll (earlier ++ name :: later) .empty).values[i]? = some name) :
    i = earlier.eraseDups.length :=
  (coherent_declareAll _).distinct _ _ _ hi (getElem?_declareAll hfirst later)

/-- A declared name is found under the symbol that its declaration answered
with. -/
theorem find?_of_declare (earlier : List String) (name : String) (later : List String) :
    (declareAll (earlier ++ name :: later) .empty).find? name =
      some ((declareAll earlier .empty).declare name).1.index := by
  rw [declareAll_append]
  exact (grows_declareAll later _).find? (Pool.find?_intern _ name)

theorem index_of_resolve (hfirst : name ∉ earlier)
    (h : (declareAll (earlier ++ name :: later) .empty).resolve symbol = .ok name) :
    symbol.index.toNat = earlier.eraseDups.length :=
  eq_of_getElem?_declareAll hfirst (resolve_eq_ok_iff.mp h)

/-- Within the limit the symbol of a name is its place. -/
theorem index_of_find? (hfirst : name ∉ earlier)
    (hfit : (earlier ++ name :: later).eraseDups.length ≤ UInt32.size) {h : UInt32}
    (hfind : (declareAll (earlier ++ name :: later) .empty).find? name = some h) :
    h.toNat = earlier.eraseDups.length := by
  obtain ⟨i, hi, rfl⟩ := ((coherent_declareAll _).find?_iff _ _).mp hfind
  have hlt := Pool.lt_size_of_getElem? hi
  rw [size_declareAll] at hlt
  rw [UInt32.toNat_ofNat_of_lt' (by omega), eq_of_getElem?_declareAll hfirst hi]

/-! ## First declarations -/

theorem takeWhile_of_first (hfirst : name ∉ earlier) (later : List String) :
    (earlier ++ name :: later).takeWhile (· ≠ name) = earlier := by
  rw [List.takeWhile_append_of_pos, List.takeWhile_cons_of_neg (by simp), List.append_nil]
  intro other hmem
  exact decide_eq_true fun heq => hfirst (heq ▸ hmem)

theorem idxOf_of_first (hfirst : name ∉ earlier) (later : List String) :
    (earlier ++ name :: later).idxOf name = earlier.length := by
  rw [List.idxOf_append_of_notMem hfirst, List.idxOf_cons_self, Nat.add_zero]

/-- Between the first declarations of two names the names have grown. -/
theorem length_eraseDups_lt_of_first {before after : List String} {other : String}
    (hfirst : name ∉ earlier) (heq : earlier ++ name :: later = before ++ other :: after)
    (hlt : earlier.length < before.length) :
    earlier.eraseDups.length < before.eraseDups.length := by
  have hshort : earlier ++ [name] <+: earlier ++ name :: later := ⟨later, by simp⟩
  have hlong : before <+: earlier ++ name :: later := ⟨other :: after, heq.symm⟩
  obtain ⟨between, rfl⟩ : earlier ++ [name] <+: before := by
    apply List.prefix_of_prefix_length_le hshort hlong
    rw [List.length_append]
    exact hlt
  have hplace := getElem?_declareAll hfirst between
  have hlength := Pool.lt_size_of_getElem? hplace
  rw [size_declareAll] at hlength
  simpa using hlength

theorem lt_iff_of_resolve {symbol' : Symbol} {name' : String}
    (h : (declareAll declared .empty).resolve symbol = .ok name)
    (h' : (declareAll declared .empty).resolve symbol' = .ok name') :
    symbol.index < symbol'.index ↔ declared.idxOf name < declared.idxOf name' := by
  obtain ⟨earlier, later, heq, hfirst⟩ := List.eq_append_cons_of_mem (mem_of_resolve h)
  obtain ⟨before, after, heq', hfirst'⟩ := List.eq_append_cons_of_mem (mem_of_resolve h')
  have hindex : symbol.index.toNat = earlier.eraseDups.length := by
    rw [heq] at h
    exact index_of_resolve hfirst h
  have hindex' : symbol'.index.toNat = before.eraseDups.length := by
    rw [heq'] at h'
    exact index_of_resolve hfirst' h'
  have hidx : declared.idxOf name = earlier.length := by rw [heq, idxOf_of_first hfirst]
  have hidx' : declared.idxOf name' = before.length := by rw [heq', idxOf_of_first hfirst']
  have hboth := heq.symm.trans heq'
  rw [UInt32.lt_iff_toNat_lt, hindex, hindex', hidx, hidx']
  rcases Nat.lt_trichotomy earlier.length before.length with hlt | hlen | hgt
  · exact iff_of_true (length_eraseDups_lt_of_first hfirst hboth hlt) hlt
  · rw [(List.append_inj hboth hlen).1]
    exact iff_of_false (Nat.lt_irrefl _) (Nat.lt_irrefl _)
  · have hless := length_eraseDups_lt_of_first hfirst' hboth.symm hgt
    omega

/-! ## Symbols and names -/

theorem symbol?_eq_some_iff {names : Names} :
    names.symbol? name = some symbol ↔ names.find? name = some symbol.index := by
  obtain ⟨index⟩ := symbol
  simp [symbol?]

theorem resolve_eq_error_iff {names : Names} {b : Breach} :
    names.resolve symbol = .error b ↔
      names.size ≤ symbol.index.toNat ∧ b = .unnamedSymbol symbol names.size := by
  unfold resolve
  cases h : names.get? symbol.index with
  | none =>
      have hsize : names.size ≤ symbol.index.toNat := by
        rw [← Nat.not_lt, ← Pool.isSome_get?_iff, h]
        decide
      simp [hsize, eq_comm]
  | some name =>
      have hsize : symbol.index.toNat < names.size := by
        rw [← Pool.isSome_get?_iff, h]
        rfl
      simp [Nat.not_le.mpr hsize]

/-- As long as there are no more names than symbols, the symbols of all names
are the numbers below their number. -/
theorem map_toList_eq_range {names : Names} (hfit : names.size ≤ UInt32.size) :
    names.toList.map (·.1.toNat) = List.range names.size := by
  have hplaces : names.toList.map (·.1.toNat) =
      (names.values.toList.zipIdx.map Prod.snd).map fun i => (UInt32.ofNat i).toNat := by
    rw [Pool.toList, List.map_map, List.map_map]
    rfl
  rw [hplaces, List.zipIdx_map_snd, Array.length_toList, ← List.range_eq_range', ← Pool.size]
  refine (List.map_congr_left fun i hi => ?_).trans (List.map_id _)
  have hlt := List.mem_range.mp hi
  exact UInt32.toNat_ofNat_of_lt' (by omega)

theorem map_snd_toList (names : Names) : names.toList.map (·.2) = names.values.toList := by
  rw [Pool.toList, List.map_map]
  exact List.zipIdx_map_fst 0 _

/-- After any run with no more different names than symbols: each declaration
has answered with the number of different names that stand before the first
declaration of its name. A name is found exactly if it was declared, under the
symbol that resolves to it. The list of all names has them in the order of their
first declarations, with the symbols from zero on. One symbol is less than
another exactly if its name was declared first earlier. A symbol resolves to
nothing exactly if its number is not below the number of names, and what it
resolves to once it does ever after. -/
theorem numbered_by_first_declaration (declared : List String)
    (hfit : declared.eraseDups.length ≤ UInt32.size) :
    let names := declareAll declared .empty
    (∀ earlier name later, declared = earlier ++ name :: later →
      ((declareAll earlier .empty).declare name).1.index.toNat =
        (declared.takeWhile (· ≠ name)).eraseDups.length) ∧
    (∀ name, (∃ symbol, names.symbol? name = some symbol) ↔ name ∈ declared) ∧
    (∀ name symbol, names.symbol? name = some symbol ↔
      name ∈ declared ∧ names.resolve symbol = .ok name) ∧
    (names.toList.map (·.2) = declared.eraseDups ∧
      names.toList.map (·.1.toNat) = List.range names.size) ∧
    (∀ symbol symbol' name name', names.resolve symbol = .ok name →
      names.resolve symbol' = .ok name' →
      (symbol.index < symbol'.index ↔ declared.idxOf name < declared.idxOf name')) ∧
    (∀ symbol b, names.resolve symbol = .error b ↔
      names.size ≤ symbol.index.toNat ∧ b = .unnamedSymbol symbol names.size) ∧
    ∀ more symbol name, names.resolve symbol = .ok name →
      (declareAll more names).resolve symbol = .ok name := by
  intro names
  have hsize : names.size ≤ UInt32.size := by
    rw [size_declareAll]
    exact hfit
  refine ⟨fun earlier name later hdeclared => ?_, fun name => ?_, fun name symbol => ?_,
    ⟨?_, map_toList_eq_range hsize⟩, fun symbol symbol' name name' => lt_iff_of_resolve,
    fun symbol b => resolve_eq_error_iff, fun more symbol name hname => ?_⟩
  · -- The declaration may be a later one. The name is found under its symbol
    -- all the same, and that is the place where it was declared first.
    have hfind := find?_of_declare earlier name later
    rw [← hdeclared] at hfind
    have hmem : name ∈ declared := by
      rw [hdeclared]
      exact List.mem_append_right _ List.mem_cons_self
    obtain ⟨before, after, heq, hfirst⟩ := List.eq_append_cons_of_mem hmem
    rw [heq] at hfind hfit ⊢
    rw [takeWhile_of_first hfirst, index_of_find? hfirst hfit hfind]
  · rw [← isSome_find?_declareAll_empty, symbol?, ← Option.isSome_iff_exists, Option.isSome_map]
  · rw [symbol?_eq_some_iff, (coherent_declareAll declared).find?_eq_some_iff hsize,
      ← resolve_eq_ok_iff]
    exact (and_iff_right_of_imp mem_of_resolve).symm
  · rw [map_snd_toList, values_declareAll]
  · rw [resolve_eq_ok_iff] at hname ⊢
    exact (grows_declareAll more names).get? hname

/-- The empty name is declared twice, and the second time other names have been
declared since. -/
theorem numbered_by_first_declaration_repeated :
    let declared := ["b", "", "b", "a", ""]
    let names := declareAll declared .empty
    declared.eraseDups.length ≤ UInt32.size ∧
    ((declareAll ["b", "", "b", "a"] .empty).declare "").1.index.toNat = 1 ∧
    names.toList.map (·.2) = ["b", "", "a"] ∧ (∃ symbol, names.symbol? "a" = some symbol) ∧
    names.resolve ⟨3⟩ = .error (.unnamedSymbol ⟨3⟩ 3) := by
  intro declared names
  have hfit : declared.eraseDups.length ≤ UInt32.size := by decide
  have hsize : names.size = 3 := size_declareAll declared
  obtain ⟨hanswer, hfound, -, ⟨hlist, -⟩, -, herror, -⟩ :=
    numbered_by_first_declaration declared hfit
  refine ⟨hfit, hanswer ["b", "", "b", "a"] "" [] rfl, hlist, (hfound "a").mpr (by decide), ?_⟩
  exact (herror ⟨3⟩ _).mpr ⟨Nat.le_of_eq hsize, congrArg _ hsize.symm⟩

end BoxedTypes.Names

import BoxedTypes.Proofs.ShownTypes

/-!
# Types can be told apart by their texts

The text of a type is some words with bars between them. The unknown type and
the bottom type have one word each that no atom has, so all types are put on the
same footing: each is shown by a list of words that is not empty (`words`,
`showShape_eq`).

From such a text the words can be read back if none of them has a bar in it
(`intercalate_inj`), and from its word an atom can be read back if no class is
called like a built-in type (`atomName_inj`). Both are asked of the declared
names and of nothing else. A name may be empty. Then there are texts that begin
or end with a bar, and the text of one type is empty, but a list of words is
not, so nothing is confused.

That different symbols have different names is no assumption. It holds of the
names of every lattice, also of one that has run out of symbols.
-/

namespace BoxedTypes

/-! ## Words with a separator between them -/

section Separated

variable {c d : Char} {ws vs : List String}

theorem splitOn_intercalate (hne : ws ≠ []) (hws : ∀ w ∈ ws, c ∉ w.toList) :
    ((String.singleton c).intercalate ws).toList.splitOn c = ws.map String.toList := by
  rw [String.toList_intercalate, String.toList_singleton]
  exact List.splitOn_intercalate c (by simpa using hws) (by simpa using hne)

/-- Words can be read back from a text if the separator is in none of them. -/
theorem intercalate_inj (hne : ws ≠ []) (hws : ∀ w ∈ ws, c ∉ w.toList)
    (hne' : vs ≠ []) (hvs : ∀ w ∈ vs, c ∉ w.toList)
    (h : (String.singleton c).intercalate ws = (String.singleton c).intercalate vs) :
    ws = vs := by
  have hlists : ws.map String.toList = vs.map String.toList := by
    rw [← splitOn_intercalate hne hws, h, splitOn_intercalate hne' hvs]
  exact List.map_injective_iff.mpr (fun _ _ => String.toList_inj.mp) hlists

/-- The characters of a text are the separator and those of the words. -/
theorem mem_intercalate (h : d ∈ ((String.singleton c).intercalate ws).toList) :
    d = c ∨ ∃ w ∈ ws, d ∈ w.toList := by
  induction ws with
  | nil => simp at h
  | cons w ws ih =>
      cases ws with
      | nil =>
          rw [String.intercalate_singleton] at h
          exact .inr ⟨w, List.mem_cons_self, h⟩
      | cons v ws =>
          rw [String.intercalate_cons_cons, String.toList_append, String.toList_append,
            String.toList_singleton, List.mem_append, List.mem_append, List.mem_singleton] at h
          rcases h with (hw | hc) | hrest
          · exact .inr ⟨w, List.mem_cons_self, hw⟩
          · exact .inl hc
          · refine (ih hrest).imp_right ?_
            rintro ⟨x, hx, hd⟩
            exact ⟨x, List.mem_cons_of_mem w hx, hd⟩

end Separated

namespace UnionTypes

/-! ## The words of a type -/

/-- The words that are not class names. -/
def reserved : List String :=
  ["number", "string", "boolean", "null", "undefined", "bottom", "?"]

/-- The name can be told from the reserved words and has no separator in it. -/
structure PlainName (separators : List Char) (name : String) : Prop where
  free : ∀ c ∈ separators, c ∉ name.toList
  other : name ∉ reserved

theorem PlainName.of_subset {separators separators' : List Char} {name : String}
    (h : PlainName separators name) (hsub : separators' ⊆ separators) :
    PlainName separators' name :=
  ⟨fun c hc => h.free c (hsub hc), h.other⟩

/-- The words that a shape is shown by. -/
def words (u : UnionTypes) : Shape → Except Breach (List String)
  | .unknown => .ok ["?"]
  | .union as =>
    match as.toList with
    | [] => .ok ["bottom"]
    | atoms => atoms.mapM u.atomName

variable {u : UnionTypes} {a b : Atom} {s t : Shape} {ws : List String} {word text : String}
  {separators : List Char} {id id' : TypeId}

theorem showShape_eq (s : Shape) : u.showShape s = (u.words s).map ("|".intercalate ·) := by
  cases s with
  | unknown => rfl
  | union as =>
      obtain ⟨atoms, -⟩ := as
      cases atoms with
      | nil => rfl
      | cons a atoms => rfl

/-- A type is shown by its words with bars between them. -/
theorem display_eq_ok_iff :
    u.display id = .ok text ↔
      ∃ s ws, u.shape? id = some s ∧ u.words s = .ok ws ∧ "|".intercalate ws = text := by
  rw [display, bind_eq_ok_iff]
  constructor
  · rintro ⟨s, hs, htext⟩
    rw [showShape_eq] at htext
    obtain ⟨ws, hws, rfl⟩ := map_eq_ok_iff.mp htext
    exact ⟨s, ws, shape_eq_ok_iff.mp hs, hws, rfl⟩
  · rintro ⟨s, ws, hs, hws, rfl⟩
    refine ⟨s, shape_eq_ok_iff.mpr hs, ?_⟩
    rw [showShape_eq]
    exact map_eq_ok_iff.mpr ⟨ws, hws, rfl⟩

theorem words_cases (h : u.words s = .ok ws) :
    (s = .unknown ∧ ws = ["?"]) ∨ (s = .union ∅ ∧ ws = ["bottom"]) ∨
      ∃ as, s = .union as ∧ as.toList ≠ [] ∧ as.toList.mapM u.atomName = .ok ws := by
  cases s with
  | unknown =>
      cases h
      exact .inl ⟨rfl, rfl⟩
  | union as =>
      rw [words] at h
      split at h
      · next hnil =>
          cases h
          have hempty : as = ∅ := AtomSet.ext_mem fun a => by
            rw [AtomSet.mem_def, hnil]
            exact iff_of_false List.not_mem_nil (AtomSet.not_mem_empty a)
          exact .inr (.inl ⟨congrArg Shape.union hempty, rfl⟩)
      · next hne => exact .inr (.inr ⟨as, rfl, hne, h⟩)

theorem words_ne_nil (h : u.words s = .ok ws) : ws ≠ [] := by
  rcases words_cases h with ⟨-, rfl⟩ | ⟨-, rfl⟩ | ⟨as, -, hne, hwords⟩
  · exact List.cons_ne_nil _ _
  · exact List.cons_ne_nil _ _
  · rintro rfl
    exact hne (List.forall₂_nil_right_iff.mp (mapM_eq_ok_iff.mp hwords))

/-- An atom that has a word is built in or a class. -/
theorem atomName_ok_cases (h : u.atomName a = .ok word) :
    (∃ symbol, a = .object symbol ∧ u.objectName symbol = .ok word) ∨
      (a, word) ∈ builtinWords := by
  cases a with
  | object symbol => exact .inl ⟨symbol, rfl, h⟩
  | number | string | boolean | null | undefined =>
      cases h
      exact .inr (by decide)

theorem mem_reserved_of_mem_builtinWords (h : (a, word) ∈ builtinWords) : word ∈ reserved := by
  have hall : ∀ e ∈ builtinWords, e.2 ∈ reserved := by decide
  exact hall _ h

/-- A character is in none of the words if it is in no name and in no reserved
word. -/
theorem free_of_words {c : Char} (hreserved : ∀ w ∈ reserved, c ∉ w.toList)
    (hnames : ∀ symbol name, u.objectName symbol = .ok name → c ∉ name.toList)
    (h : u.words s = .ok ws) : ∀ w ∈ ws, c ∉ w.toList := by
  intro w hw
  rcases words_cases h with ⟨-, rfl⟩ | ⟨-, rfl⟩ | ⟨as, -, -, hwords⟩
  · cases List.mem_singleton.mp hw
    exact hreserved _ (by decide)
  · cases List.mem_singleton.mp hw
    exact hreserved _ (by decide)
  · obtain ⟨a, -, ha⟩ := exists_of_mem_mapM hwords hw
    rcases atomName_ok_cases ha with ⟨symbol, -, hname⟩ | hbuiltin
    · exact hnames symbol w hname
    · exact hreserved w (mem_reserved_of_mem_builtinWords hbuiltin)

section Plain

variable (hnames : u.names.Coherent)
  (hplain : ∀ symbol name, u.objectName symbol = .ok name → PlainName separators name)

include hplain

/-- No atom has the word of the bottom type or that of the unknown type. -/
theorem not_mem_of_mapM_atomName {as : List Atom} (h : as.mapM u.atomName = .ok ws)
    (hword : word = "bottom" ∨ word = "?") : word ∉ ws := by
  intro hmem
  obtain ⟨a, -, ha⟩ := exists_of_mem_mapM h hmem
  rcases atomName_ok_cases ha with ⟨symbol, -, hname⟩ | hbuiltin
  · refine (hplain symbol word hname).other ?_
    rcases hword with rfl | rfl <;> decide
  · have hall : ∀ e ∈ builtinWords, ¬ (e.2 = "bottom" ∨ e.2 = "?") := by decide
    exact hall _ hbuiltin hword

include hnames

/-- An atom can be told by its word. -/
theorem atomName_inj (ha : u.atomName a = .ok word) (hb : u.atomName b = .ok word) : a = b := by
  rcases atomName_ok_cases ha with ⟨symbol, rfl, hsymbol⟩ | habuiltin
  · rcases atomName_ok_cases hb with ⟨symbol', rfl, hsymbol'⟩ | hbbuiltin
    · exact congrArg (Atom.object ⟨·⟩) (hnames.get?_inj (Names.resolve_eq_ok_iff.mp hsymbol)
        (Names.resolve_eq_ok_iff.mp hsymbol'))
    · exact absurd (mem_reserved_of_mem_builtinWords hbbuiltin) (hplain symbol word hsymbol).other
  · rcases atomName_ok_cases hb with ⟨symbol', rfl, hsymbol'⟩ | hbbuiltin
    · exact absurd (mem_reserved_of_mem_builtinWords habuiltin) (hplain symbol' word hsymbol').other
    · have hall : ∀ e ∈ builtinWords, ∀ e' ∈ builtinWords, e.2 = e'.2 → e.1 = e'.1 := by decide
      exact hall _ habuiltin _ hbbuiltin rfl

/-- A shape can be told by its words. -/
theorem words_inj (hs : u.words s = .ok ws) (ht : u.words t = .ok ws) : s = t := by
  rcases words_cases hs with ⟨rfl, rfl⟩ | ⟨rfl, rfl⟩ | ⟨as, rfl, -, has⟩
  · rcases words_cases ht with ⟨rfl, -⟩ | ⟨-, hwords⟩ | ⟨bs, -, -, hbs⟩
    · rfl
    · exact absurd hwords (by decide)
    · exact absurd List.mem_cons_self (not_mem_of_mapM_atomName hplain hbs (.inr rfl))
  · rcases words_cases ht with ⟨-, hwords⟩ | ⟨rfl, -⟩ | ⟨bs, -, -, hbs⟩
    · exact absurd hwords (by decide)
    · rfl
    · exact absurd List.mem_cons_self (not_mem_of_mapM_atomName hplain hbs (.inl rfl))
  · rcases words_cases ht with ⟨-, rfl⟩ | ⟨-, rfl⟩ | ⟨bs, rfl, -, hbs⟩
    · exact absurd List.mem_cons_self (not_mem_of_mapM_atomName hplain has (.inr rfl))
    · exact absurd List.mem_cons_self (not_mem_of_mapM_atomName hplain has (.inl rfl))
    · have hatoms : as.toList = bs.toList :=
        mapM_inj (fun _ _ _ => atomName_inj hnames hplain) has hbs
      exact congrArg Shape.union (AtomSet.ext_mem fun a => by
        rw [AtomSet.mem_def, AtomSet.mem_def, hatoms])

end Plain

/-- A type can be told by its text. -/
theorem display_inj (hu : u.Coherent) (hnames : u.names.Coherent)
    (hplain : ∀ symbol name, u.objectName symbol = .ok name → PlainName ['|'] name)
    (hid : u.display id = .ok text) (hid' : u.display id' = .ok text) : id = id' := by
  obtain ⟨s, ws, hs, hws, hjoin⟩ := display_eq_ok_iff.mp hid
  obtain ⟨t, vs, ht, hvs, hjoin'⟩ := display_eq_ok_iff.mp hid'
  have hfree : ∀ {s ws}, u.words s = .ok ws → ∀ w ∈ ws, '|' ∉ w.toList := fun hws =>
    free_of_words (by decide)
      (fun symbol name hname => (hplain symbol name hname).free '|' List.mem_cons_self) hws
  have hbar : "|" = String.singleton '|' := rfl
  rw [hbar] at hjoin hjoin'
  have hwords : ws = vs := intercalate_inj (words_ne_nil hws) (hfree hws) (words_ne_nil hvs)
    (hfree hvs) (hjoin.trans hjoin'.symm)
  subst hwords
  cases words_inj hnames hplain hws hvs
  exact hu.shape?_inj hs ht

/-- In a history that uses its own symbols, and whose class names have no bar in
them and are no reserved words, each type has a text and no two types have the
same. -/
theorem display_faithful (calls : List Call) (hown : OwnSymbols calls new)
    (hplain : ∀ name, .object name ∈ calls → PlainName ['|'] name) (a b : TypeId)
    (ha : (after calls new).Issued a) (hb : (after calls new).Issued b) :
    let u := after calls new
    ∃ text text', u.display a = .ok text ∧ u.display b = .ok text' ∧ (text = text' ↔ a = b) := by
  intro u
  have hnamed := named_new.after hown
  obtain ⟨text, htext⟩ := hnamed.exists_display ha
  obtain ⟨text', htext'⟩ := hnamed.exists_display hb
  refine ⟨text, text', htext, htext', fun heq => ?_, fun heq => ?_⟩
  · subst heq
    exact display_inj (coherent_after calls) (coherent_names_after calls)
      (fun symbol name hname => hplain name (mem_of_objectName hname)) htext htext'
  · subst heq
    exact Except.ok.inj (htext.symm.trans htext')

/-- A class without a name, and its union with another class. -/
theorem display_faithful_empty_name :
    let calls : List Call := [.object "", .object "Number", .join ⟨5⟩ ⟨6⟩]
    let u := after calls new
    OwnSymbols calls new ∧ (∀ name, .object name ∈ calls → PlainName ['|'] name) ∧
    u.Issued ⟨6⟩ ∧ u.Issued ⟨7⟩ ∧ u.display ⟨6⟩ = .ok "Number" ∧
    ∃ text, u.display ⟨7⟩ = .ok text ∧ text ≠ "Number" := by
  intro calls u
  have hown : OwnSymbols calls new :=
    ⟨fun _ h => h.elim, fun _ h => h.elim, fun _ h => h.elim, trivial⟩
  have hplain : ∀ name, .object name ∈ calls → PlainName ['|'] name := by
    intro name hname
    simp only [calls, List.mem_cons, Call.object.injEq, reduceCtorEq, List.not_mem_nil,
      or_false] at hname
    rcases hname with rfl | rfl
    · exact ⟨by simp, by decide⟩
    · exact ⟨by simp, by decide⟩
  have hclass : (after calls new).Issued ⟨6⟩ := by cbv
  have hunion : (after calls new).Issued ⟨7⟩ := by cbv
  have hshown : (after calls new).display ⟨6⟩ = .ok "Number" := by cbv
  obtain ⟨text, text', htext, htext', heq⟩ :=
    display_faithful calls hown hplain ⟨6⟩ ⟨7⟩ hclass hunion
  obtain rfl := Except.ok.inj (htext.symm.trans hshown)
  refine ⟨hown, hplain, hclass, hunion, hshown, text', htext', fun h => ?_⟩
  cases heq.mp h.symm

end UnionTypes

end BoxedTypes

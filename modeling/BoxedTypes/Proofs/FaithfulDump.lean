import BoxedTypes.Proofs.FaithfulDisplay
import BoxedTypes.Proofs.RegistryText

/-!
# Registries can be told apart by their texts

The text of a registry is read back in three steps: the lines from the text, the
words from each line, and the types from the words. Line breaks, blanks and bars
separate at the three levels. A class name with none of them in it leaves each
level readable (`layout_inj` for the first two, `display_inj` for the third).

Nothing is asked of the moments at which two registries were frozen. What a type
is shown as does not change, so both are read in one later lattice, and there a
type of one registry has the text of a type of the other only if it is that
type.
-/

namespace BoxedTypes

/-! ## Lines -/

section Lines

variable {c : Char} {lines lines' : List String} {page page' : List (List String)}

/-- Lines that each end in a line break are lines with line breaks between them,
the last one empty. -/
theorem join_map_append_singleton (c : Char) (lines : List String) :
    String.join (lines.map (· ++ String.singleton c)) =
      (String.singleton c).intercalate (lines ++ [""]) := by
  induction lines with
  | nil => rfl
  | cons line lines ih =>
      rw [List.map_cons, String.join_cons, ih, List.cons_append,
        String.intercalate_cons_of_ne_nil (List.append_ne_nil_of_right_ne_nil _ (by simp))]

theorem join_lines_inj (hlines : ∀ line ∈ lines, c ∉ line.toList)
    (hlines' : ∀ line ∈ lines', c ∉ line.toList)
    (h : String.join (lines.map (· ++ String.singleton c)) =
      String.join (lines'.map (· ++ String.singleton c))) : lines = lines' := by
  have hends : ∀ {lines : List String}, (∀ line ∈ lines, c ∉ line.toList) →
      ∀ line ∈ lines ++ [""], c ∉ line.toList := fun hfree =>
    List.forall_mem_append.mpr ⟨hfree, List.forall_mem_singleton.mpr List.not_mem_nil⟩
  rw [join_map_append_singleton, join_map_append_singleton] at h
  exact List.append_cancel_right (intercalate_inj (by simp) (hends hlines) (by simp)
    (hends hlines') h)

/-- The words of many lines can be read back from the lines. -/
theorem map_intercalate_inj (hpage : ∀ ws ∈ page, ws ≠ [] ∧ ∀ w ∈ ws, c ∉ w.toList)
    (hpage' : ∀ ws ∈ page', ws ≠ [] ∧ ∀ w ∈ ws, c ∉ w.toList)
    (h : page.map ((String.singleton c).intercalate ·) =
      page'.map ((String.singleton c).intercalate ·)) : page = page' := by
  have hread : ∀ {page : List (List String)},
      (∀ ws ∈ page, ws ≠ [] ∧ ∀ w ∈ ws, c ∉ w.toList) →
      (page.map ((String.singleton c).intercalate ·)).map (fun line => line.toList.splitOn c) =
        page.map (List.map String.toList) := by
    intro page hpage
    rw [List.map_map]
    exact List.map_congr_left fun ws hws => splitOn_intercalate (hpage ws hws).1 (hpage ws hws).2
  have hlists : page.map (List.map String.toList) = page'.map (List.map String.toList) := by
    rw [← hread hpage, h, hread hpage']
  have htext : Function.Injective String.toList := fun _ _ => String.toList_inj.mp
  exact List.map_injective_iff.mpr (List.map_injective_iff.mpr htext) hlists

end Lines

namespace Registry

variable {x y : Registry String} {c : Char} {ws : List String} {w : String}

/-- The words in the text of a registry that are not the texts of types. -/
def labels : List String := (Scalar.all.map (·.name ++ ":")) ++ ["=>", "num_or_str:"]

theorem mem_types_or_labels_of_mem_page (hws : ws ∈ x.page) (hw : w ∈ ws) :
    w ∈ x.types ∨ w ∈ labels := by
  rcases List.mem_append.mp hws with hkind | hlast
  · obtain ⟨k, hk, rfl⟩ := List.mem_map.mp hkind
    simp only [List.mem_cons, List.not_mem_nil, or_false] at hw
    rcases hw with rfl | rfl | rfl | rfl
    · exact .inr (List.mem_append_left _ (List.mem_map_of_mem hk))
    · exact .inl (x.boxed_mem_types k)
    · exact .inr (by decide)
    · exact .inl (x.composite_mem_types k)
  · cases List.mem_singleton.mp hlast
    simp only [List.mem_cons, List.not_mem_nil, or_false] at hw
    rcases hw with rfl | rfl
    · exact .inr (by decide)
    · exact .inl x.numberOrString_mem_types

theorem ne_nil_of_mem_page (hws : ws ∈ x.page) : ws ≠ [] := by
  rcases List.mem_append.mp hws with hkind | hlast
  · obtain ⟨k, -, rfl⟩ := List.mem_map.mp hkind
    exact List.cons_ne_nil _ _
  · cases List.mem_singleton.mp hlast
    exact List.cons_ne_nil _ _

theorem free_of_page (hlabels : ∀ w ∈ labels, c ∉ w.toList) (hx : ∀ w ∈ x.types, c ∉ w.toList)
    (hws : ws ∈ x.page) : ∀ w ∈ ws, c ∉ w.toList := fun w hw =>
  (mem_types_or_labels_of_mem_page hws hw).elim (hx w) (hlabels w)

theorem page_inj (h : x.page = y.page) : x = y := by
  obtain ⟨hkinds, hlast⟩ := List.append_inj' h rfl
  have hkind : ∀ k, x.boxed.get k = y.boxed.get k ∧ x.composites.get k = y.composites.get k := by
    intro k
    simpa using List.map_inj_left.mp hkinds k k.mem_all
  exact ext_get (fun k => (hkind k).1) (fun k => (hkind k).2) (by simpa using hlast)

theorem layout_eq (x : Registry String) :
    x.layout = String.join ((x.page.map ((String.singleton ' ').intercalate ·)).map
      (· ++ String.singleton '\n')) := by
  rw [List.map_map]
  rfl

/-- Each text is a single word. -/
structure OfWords (x : Registry String) : Prop where
  noBlank : ∀ w ∈ x.types, ' ' ∉ w.toList
  noBreak : ∀ w ∈ x.types, '\n' ∉ w.toList

theorem OfWords.page (hx : x.OfWords) : ∀ ws ∈ x.page, ws ≠ [] ∧ ∀ w ∈ ws, ' ' ∉ w.toList :=
  fun _ hws => ⟨ne_nil_of_mem_page hws, free_of_page (by decide) hx.noBlank hws⟩

theorem OfWords.lines (hx : x.OfWords) :
    ∀ line ∈ x.page.map ((String.singleton ' ').intercalate ·), '\n' ∉ line.toList := by
  intro line hline hmem
  obtain ⟨ws, hws, rfl⟩ := List.mem_map.mp hline
  rcases mem_intercalate hmem with hblank | ⟨w, hw, hbreak⟩
  · exact absurd hblank (by decide)
  · exact free_of_page (by decide) hx.noBreak hws w hw hbreak

/-- The texts of the types can be read back from the text of the registry. -/
theorem layout_inj (hx : x.OfWords) (hy : y.OfWords) (h : x.layout = y.layout) : x = y := by
  rw [layout_eq, layout_eq] at h
  have hlines := join_lines_inj hx.lines hy.lines h
  exact page_inj (map_intercalate_inj hx.page hy.page hlines)

end Registry

namespace UnionTypes

/-- The registry was frozen at some moment of the history, from a draft or from
declarations. -/
inductive FrozenIn (calls : List Call) (r : Registry TypeId) : Prop
  | freeze {earlier later : List Call} {d : Draft TypeId} {v : UnionTypes} :
    calls = earlier ++ .freeze d :: later → d.freeze (after earlier new) = .ok r v →
    FrozenIn calls r
  | ofDeclarations {earlier later : List Call} {decls : Declarations TypeId} {c : Settings}
    {v : UnionTypes} :
    calls = earlier ++ .ofDeclarations decls c :: later →
    Registry.ofDeclarations decls c (after earlier new) = .ok r v → FrozenIn calls r

variable {u : UnionTypes} {calls : List Call} {c : Char} {id : TypeId}
  {text : String} {r r' : Registry TypeId} {x : Registry String}

theorem FrozenIn.exists_freeze (h : FrozenIn calls r) :
    ∃ (earlier : List Call) (d : Draft TypeId) (v : UnionTypes),
      d.freeze (after earlier new) = .ok r v ∧ v.Grows (after calls new) := by
  cases h with
  | freeze hcalls hfreeze =>
      exact ⟨_, _, _, hfreeze, grows_of_run hcalls (map_of_ok hfreeze)⟩
  | ofDeclarations hcalls hok =>
      obtain ⟨d, hfreeze⟩ := ofDeclarations_ok_cases hok
      exact ⟨_, d, _, hfreeze, grows_of_run hcalls (map_of_ok hok)⟩

theorem FrozenIn.issued (h : FrozenIn calls r)
    (hfit : (after calls new).typeCount ≤ UInt32.size) :
    ∀ id ∈ r.types, (after calls new).Issued id := by
  obtain ⟨earlier, d, v, hfreeze, hgrows⟩ := h.exists_freeze
  intro id hid
  exact hgrows.issued ((coherent_after earlier).issued_of_freeze hfreeze
    (Nat.le_trans hgrows.typeCount_le hfit) id hid)

theorem FrozenIn.exists_shownBy (h : FrozenIn calls r) (hown : OwnSymbols calls new)
    (hfit : (after calls new).typeCount ≤ UInt32.size) :
    ∃ x, r.ShownBy (after calls new) x :=
  Registry.exists_shownBy fun id hid =>
    (named_new.after hown).exists_display (h.issued hfit id hid)

/-- A character is in no text of a type if it is in no name and in no reserved
word and is not the bar. -/
theorem free_of_display (hreserved : ∀ w ∈ reserved, c ∉ w.toList)
    (hnames : ∀ symbol name, u.objectName symbol = .ok name → c ∉ name.toList)
    (hbar : c ≠ '|') (h : u.display id = .ok text) : c ∉ text.toList := by
  obtain ⟨s, ws, -, hws, rfl⟩ := display_eq_ok_iff.mp h
  have hsingleton : "|" = String.singleton '|' := rfl
  rw [hsingleton]
  intro hmem
  rcases mem_intercalate hmem with heq | ⟨w, hw, hcw⟩
  · exact hbar heq
  · exact free_of_words hreserved hnames hws w hw hcw

theorem ofWords_of_shownBy
    (hplain : ∀ symbol name, u.objectName symbol = .ok name → PlainName ['|', ' ', '\n'] name)
    (h : r.ShownBy u x) : x.OfWords := by
  constructor
  · intro w hw
    obtain ⟨id, htext⟩ := h.exists_display_of_mem hw
    exact free_of_display (by decide)
      (fun symbol name hname => (hplain symbol name hname).free ' ' (by simp)) (by decide) htext
  · intro w hw
    obtain ⟨id, htext⟩ := h.exists_display_of_mem hw
    exact free_of_display (by decide)
      (fun symbol name hname => (hplain symbol name hname).free '\n' (by simp)) (by decide) htext

/-- Registries whose types have the same texts are the same. -/
theorem shownBy_inj (hu : u.Coherent) (hnames : u.names.Coherent)
    (hplain : ∀ symbol name, u.objectName symbol = .ok name → PlainName ['|', ' ', '\n'] name)
    (h : r.ShownBy u x) (h' : r'.ShownBy u x) : r = r' := by
  have hbar : ∀ symbol name, u.objectName symbol = .ok name → PlainName ['|'] name :=
    fun symbol name hname => (hplain symbol name hname).of_subset (by simp)
  exact Registry.ext_get (fun k => display_inj hu hnames hbar (h.boxed k) (h'.boxed k))
    (fun k => display_inj hu hnames hbar (h.composite k) (h'.composite k))
    (display_inj hu hnames hbar h.numberOrString h'.numberOrString)

/-- In a history that uses its own symbols, and whose class names have none of
the separators in them and are no reserved words, any two registries that were
frozen on the way have texts at the end, and these are the same only if the
registries are. -/
theorem dump_faithful (calls : List Call) (hown : OwnSymbols calls new)
    (hfit : (after calls new).typeCount ≤ UInt32.size)
    (hplain : ∀ name, .object name ∈ calls → PlainName ['|', ' ', '\n'] name)
    (r r' : Registry TypeId) (hr : FrozenIn calls r) (hr' : FrozenIn calls r') :
    let u := after calls new
    ∃ text text', r.dump u = .ok text ∧ r'.dump u = .ok text' ∧ (text = text' ↔ r = r') := by
  intro u
  have hnames : ∀ symbol name, u.objectName symbol = .ok name → PlainName ['|', ' ', '\n'] name :=
    fun symbol name hname => hplain name (mem_of_objectName hname)
  obtain ⟨x, hx⟩ := hr.exists_shownBy hown hfit
  obtain ⟨y, hy⟩ := hr'.exists_shownBy hown hfit
  refine ⟨x.layout, y.layout, hx.dump, hy.dump, fun heq => ?_, fun heq => ?_⟩
  · cases Registry.layout_inj (ofWords_of_shownBy hnames hx) (ofWords_of_shownBy hnames hy) heq
    exact shownBy_inj (coherent_after calls) (coherent_names_after calls) hnames hx hy
  · subst heq
    exact Except.ok.inj (hx.dump.symm.trans hy.dump)

/-- Two drafts that differ in one slot, frozen one after the other. Of the
derived types only one differs. -/
theorem dump_faithful_two_drafts :
    let d : Draft TypeId := ⟨⟨some ⟨5⟩, some .unknown, some .unknown⟩⟩
    let d' : Draft TypeId := ⟨⟨some ⟨5⟩, some ⟨5⟩, some .unknown⟩⟩
    let calls : List Call := [.object "Number", .freeze d, .freeze d']
    let u := after calls new
    OwnSymbols calls new ∧ u.typeCount ≤ UInt32.size ∧
    (∀ name, .object name ∈ calls → PlainName ['|', ' ', '\n'] name) ∧
    ∃ r r', FrozenIn calls r ∧ FrozenIn calls r' ∧
      ∃ text text', r.dump u = .ok text ∧ r'.dump u = .ok text' ∧ text ≠ text' := by
  intro d d' calls u
  have hown : OwnSymbols calls new :=
    ⟨fun _ h => h.elim, fun _ h => h.elim, fun _ h => h.elim, trivial⟩
  have hfit : (after calls new).typeCount ≤ UInt32.size := by cbv
  have hplain : ∀ name, .object name ∈ calls → PlainName ['|', ' ', '\n'] name := by
    intro name hname
    simp only [calls, List.mem_cons, Call.object.injEq, reduceCtorEq, List.not_mem_nil,
      or_false] at hname
    cases hname
    exact ⟨by simp, by decide⟩
  have hfreeze : d.freeze (after [.object "Number"] new) =
      .ok ⟨⟨⟨5⟩, .unknown, .unknown⟩, ⟨⟨6⟩, .ofScalar .string, .ofScalar .boolean⟩, ⟨7⟩⟩
        (leftBehind (d.freeze (after [.object "Number"] new))) := by
    cbv
  have hfreeze' : d'.freeze (after [.object "Number", .freeze d] new) =
      .ok ⟨⟨⟨5⟩, ⟨5⟩, .unknown⟩, ⟨⟨6⟩, ⟨8⟩, .ofScalar .boolean⟩, ⟨7⟩⟩
        (leftBehind (d'.freeze (after [.object "Number", .freeze d] new))) := by
    cbv
  have hr : FrozenIn calls ⟨⟨⟨5⟩, .unknown, .unknown⟩,
      ⟨⟨6⟩, .ofScalar .string, .ofScalar .boolean⟩, ⟨7⟩⟩ :=
    .freeze (show calls = [.object "Number"] ++ .freeze d :: [.freeze d'] from rfl) hfreeze
  have hr' : FrozenIn calls ⟨⟨⟨5⟩, ⟨5⟩, .unknown⟩, ⟨⟨6⟩, ⟨8⟩, .ofScalar .boolean⟩, ⟨7⟩⟩ :=
    .freeze (show calls = [.object "Number", .freeze d] ++ .freeze d' :: [] from rfl) hfreeze'
  obtain ⟨text, text', htext, htext', heq⟩ := dump_faithful calls hown hfit hplain _ _ hr hr'
  refine ⟨hown, hfit, hplain, _, _, hr, hr', text, text', htext, htext', fun h => ?_⟩
  cases heq.mp h

end UnionTypes

end BoxedTypes

import BoxedTypes.Json.Record
import BoxedTypes.Proofs.ValueSpelling

/-!
# How records are spelled

What a record is written with is a list of entries, each a value for one of its
fields. As an object it has them as members in any order, and no field has two.
As an array it has the values alone, so they have to be those of the leading
fields in the order of their declaration. Either way they are items with commas
between them, and `Items` is written once for both.

`RecordForm` is all that has to be said of a record for this: the names of its
fields, and the ways to write the value of an entry. A record `Fits` a form if
the reader of each field takes the values that the form has for it. Then the
reader of the record takes the texts of the form, and what it makes of a text is
the default with the entries given to it one after the other.
-/

namespace BoxedTypes.Json

/-- How a record is written, with the entries of a type: the names of its fields
in order, the field that an entry is for, and the ways to write its value. -/
structure RecordForm (κ : Type) where
  names : List String
  name : κ → String
  Value : κ → List Char → Prop

/-- What stands in front of an item. -/
inductive Separator : Bool → List Char → Prop
  | first {blanks : List Char} : Blanks blanks → Separator true blanks
  | comma {blanks blanks' : List Char} :
    Blanks blanks → Blanks blanks' → Separator false (blanks ++ ',' :: blanks')

section

variable {κ : Type}

/-- Items with commas between them up to the closing sign. Whether the list
begins here or goes on behind other items is the flag. -/
inductive Items (close : Char) (Item : κ → List Char → Prop) : Bool → List κ → List Char → Prop
  | close {first : Bool} {blanks : List Char} :
    Blanks blanks → Items close Item first [] (blanks ++ [close])
  | item {first : Bool} {separator text rest : List Char} {e : κ} {es : List κ} :
    Separator first separator → Item e text → Items close Item false es rest →
    Items close Item first (e :: es) (separator ++ (text ++ rest))

namespace RecordForm

/-- The ways to write an entry with its name. -/
inductive Member (f : RecordForm κ) : κ → List Char → Prop
  | colon {e : κ} {key blanks value : List Char} :
    Quoted (f.name e) key → Blanks blanks → Spaced f.Value e value →
    f.Member e (key ++ (blanks ++ ':' :: value))

/-- The ways to write a record by its entries. -/
inductive Form (f : RecordForm κ) : List κ → List Char → Prop
  | object {es : List κ} {items : List Char} :
    (es.map f.name).Nodup → (∀ e ∈ es, f.name e ∈ f.names) → Items '\x7d' f.Member true es items →
    f.Form es ('\x7b' :: items)
  | array {es : List κ} {items : List Char} :
    es.map f.name <+: f.names → Items ']' f.Value true es items → f.Form es ('[' :: items)

end RecordForm

end

/-! ## Separators -/

theorem Separator.append {first : Bool} {separator blanks : List Char}
    (h : Separator first separator) (hblanks : Blanks blanks) :
    Separator first (separator ++ blanks) := by
  have happend : ∀ {bs : List Char}, Blanks bs → Blanks (bs ++ blanks) :=
    fun hbs c hc => (List.mem_append.mp hc).elim (hbs c) (hblanks c)
  cases h with
  | first hbs => exact .first (happend hbs)
  | comma hbs hbs' =>
    rw [List.append_assoc, List.cons_append]
    exact .comma hbs (happend hbs')

theorem nextKey_close_iff {first : Bool} {text rest : List Char} :
    nextKey first text = .ok (.close rest) ↔
      ∃ blanks, Blanks blanks ∧ text = blanks ++ '\x7d' :: rest := by
  constructor
  · intro h
    unfold nextKey at h
    split at h
    case h_2 hskip =>
      cases h
      exact (skipBlanks_eq_cons_iff.mp hskip).2
    case h_5 => split at h <;> cases h
    all_goals cases h
  · rintro ⟨blanks, hblanks, rfl⟩
    simp only [nextKey, skipBlanks_behind hblanks (rfl : isBlank '\x7d' = false)]

theorem nextKey_item_iff {first : Bool} {text rest : List Char} :
    nextKey first text = .ok (.item rest) ↔
      ∃ separator, Separator first separator ∧ text = separator ++ '"' :: rest := by
  constructor
  · intro h
    unfold nextKey at h
    split at h
    case h_3 hskip =>
      cases h
      obtain ⟨-, blanks, hblanks, rfl⟩ := skipBlanks_eq_cons_iff.mp hskip
      exact ⟨blanks, .first hblanks, rfl⟩
    case h_5 hskip =>
      obtain ⟨-, blanks, hblanks, rfl⟩ := skipBlanks_eq_cons_iff.mp hskip
      split at h
      · next hskip' =>
          cases h
          obtain ⟨-, blanks', hblanks', rfl⟩ := skipBlanks_eq_cons_iff.mp hskip'
          exact ⟨_, .comma hblanks hblanks', by simp⟩
      all_goals cases h
    all_goals cases h
  · rintro ⟨_, hseparator, rfl⟩
    cases hseparator with
    | first hblanks => simp only [nextKey, skipBlanks_behind hblanks (rfl : isBlank '"' = false)]
    | comma hblanks hblanks' =>
      rw [List.append_assoc, List.cons_append]
      simp only [nextKey, skipBlanks_behind hblanks (rfl : isBlank ',' = false),
        skipBlanks_behind hblanks' (rfl : isBlank '"' = false)]

theorem nextElement_close_iff {first : Bool} {text rest : List Char} :
    nextElement first text = .ok (.close rest) ↔
      ∃ blanks, Blanks blanks ∧ text = blanks ++ ']' :: rest := by
  constructor
  · intro h
    unfold nextElement at h
    split at h
    case h_2 hskip =>
      cases h
      exact (skipBlanks_eq_cons_iff.mp hskip).2
    case h_4 => split at h <;> cases h
    all_goals cases h
  · rintro ⟨blanks, hblanks, rfl⟩
    simp only [nextElement, skipBlanks_behind hblanks (rfl : isBlank ']' = false)]

theorem separator_of_nextElement {first : Bool} {text rest : List Char}
    (h : nextElement first text = .ok (.item rest)) :
    ∃ separator, Separator first separator ∧ text = separator ++ rest := by
  unfold nextElement at h
  split at h
  case h_3 =>
    cases h
    obtain ⟨blanks, hblanks, htext⟩ := exists_blanks text
    exact ⟨blanks, .first hblanks, htext⟩
  case h_4 text' hskip =>
    obtain ⟨-, blanks, hblanks, rfl⟩ := skipBlanks_eq_cons_iff.mp hskip
    split at h
    case h_3 =>
      cases h
      obtain ⟨blanks', hblanks', htext⟩ := exists_blanks text'
      exact ⟨_, .comma hblanks hblanks', by simp [← htext]⟩
    all_goals cases h
  all_goals cases h

theorem nextElement_of_separator {first : Bool} {separator rest : List Char} {c : Char}
    (h : Separator first separator) (hc : isBlank c = false) (hclose : c ≠ ']') :
    nextElement first (separator ++ c :: rest) = .ok (.item (c :: rest)) := by
  cases h with
  | first hblanks =>
    unfold nextElement
    rw [skipBlanks_behind hblanks hc]
    split
    case h_2 heq => exact absurd (List.cons.inj heq).1 hclose
    case h_3 => rfl
    all_goals simp_all
  | comma hblanks hblanks' =>
    rw [List.append_assoc, List.cons_append]
    simp only [nextElement, skipBlanks_behind hblanks (rfl : isBlank ',' = false),
      skipBlanks_behind hblanks' hc]
    split
    case h_2 heq => exact absurd (List.cons.inj heq).1 hclose
    case h_3 => rfl
    all_goals simp_all

theorem readArrayEnd_eq_ok_iff {text rest : List Char} :
    readArrayEnd text = .ok rest ↔ ∃ blanks, Blanks blanks ∧ text = blanks ++ ']' :: rest := by
  constructor
  · intro h
    unfold readArrayEnd at h
    split at h
    case h_2 hskip =>
      cases h
      exact (skipBlanks_eq_cons_iff.mp hskip).2
    case h_3 => split at h <;> cases h
    all_goals cases h
  · rintro ⟨blanks, hblanks, rfl⟩
    simp only [readArrayEnd, skipBlanks_behind hblanks (rfl : isBlank ']' = false)]

/-! ## Arrays -/

section

variable {ρ κ : Type} {f : RecordForm κ} {give : κ → ρ → ρ}

/-- The reader of a field takes the values that the form has for it and gives
the entry to the record. -/
def Reads (f : RecordForm κ) (give : κ → ρ → ρ) (field : Field ρ) : Prop :=
  ∀ value, Takes (field.read value) fun value' text =>
    ∃ e, f.name e = field.name ∧ Spaced f.Value e text ∧ value' = give e value

/-- The record with entries given to it one after the other. -/
def giveAll (give : κ → ρ → ρ) (value : ρ) (es : List κ) : ρ :=
  es.foldl (fun value e => give e value) value

theorem Reads.value {field : Field ρ} (h : Reads f give field) {e : κ}
    (hname : f.name e = field.name) {text : List Char} (he : Spaced f.Value e text) (value : ρ)
    (rest : List Char) : field.read value (text ++ rest) = .ok (give e value, rest) :=
  (h value).reads ⟨e, hname, he, rfl⟩ rest

theorem items_of_readElements {pending : List (Field ρ)}
    (hreads : ∀ field ∈ pending, Reads f give field) {first : Bool} {value value' : ρ}
    {text rest : List Char}
    (h : Record.readElements pending first value text = .ok (value', rest)) :
    ∃ es items, es.map f.name <+: pending.map (·.name) ∧ Items ']' f.Value first es items ∧
      value' = giveAll give value es ∧ text = items ++ rest := by
  induction pending generalizing first value text with
  | nil =>
      obtain ⟨rest', hend, h⟩ := map_eq_ok_iff.mp h
      cases h
      obtain ⟨blanks, hblanks, rfl⟩ := readArrayEnd_eq_ok_iff.mp hend
      exact ⟨[], _, List.nil_prefix, .close hblanks, rfl, by simp⟩
  | cons field pending ih =>
      unfold Record.readElements at h
      split at h
      · cases h
      · next hclose =>
          cases h
          obtain ⟨blanks, hblanks, rfl⟩ := nextElement_close_iff.mp hclose
          exact ⟨[], _, List.nil_prefix, .close hblanks, rfl, by simp⟩
      · next hitem =>
          obtain ⟨separator, hseparator, rfl⟩ := separator_of_nextElement hitem
          split at h
          · cases h
          · next hread =>
              -- The blanks that the value may have in front count to the
              -- separator.
              obtain ⟨_, ⟨e, hname, ⟨blanks, core, hblanks, hcore, rfl⟩, rfl⟩, rfl⟩ :=
                (hreads field List.mem_cons_self value).of_ok hread
              obtain ⟨es, items, hes, hitems, rfl, rfl⟩ :=
                ih (fun field' hmem => hreads field' (List.mem_cons_of_mem _ hmem)) h
              exact ⟨e :: es, _, by simpa [hname] using hes,
                .item (hseparator.append hblanks) hcore hitems, rfl, by simp⟩

theorem readElements_of_items (hstarts : Starts f.Value) {pending : List (Field ρ)}
    (hreads : ∀ field ∈ pending, Reads f give field) {first : Bool} {es : List κ}
    {items : List Char} (hes : es.map f.name <+: pending.map (·.name))
    (hitems : Items ']' f.Value first es items) (value : ρ) (rest : List Char) :
    Record.readElements pending first value (items ++ rest) =
      .ok (giveAll give value es, rest) := by
  induction pending generalizing first es items value with
  | nil =>
      cases hitems with
      | close hblanks =>
        rw [List.append_assoc]
        exact map_eq_ok_iff.mpr ⟨rest, readArrayEnd_eq_ok_iff.mpr ⟨_, hblanks, rfl⟩, rfl⟩
      | item => cases List.eq_nil_of_prefix_nil hes
  | cons field pending ih =>
      cases hitems with
      | close hblanks =>
        simp only [List.append_assoc, List.cons_append, List.nil_append, Record.readElements,
          nextElement_close_iff.mpr ⟨_, hblanks, rfl⟩]
        rfl
      | @item _ separator text items e es hseparator hvalue hitems =>
        obtain ⟨hname, hes⟩ := List.cons_prefix_cons.mp hes
        have hread := (hreads field List.mem_cons_self).value hname (.none hvalue) value
          (items ++ rest)
        have hrest := ih (fun field' hmem => hreads field' (List.mem_cons_of_mem _ hmem)) hes
          hitems (give e value)
        obtain ⟨c, text', hc, hclose, rfl⟩ := hstarts.exists_head hvalue
        rw [List.cons_append] at hread
        simp only [List.append_assoc, List.cons_append, Record.readElements,
          nextElement_of_separator hseparator hc hclose, hread, hrest]
        rfl

/-! ## Objects -/

variable {r : Record ρ} {pending : List (Field ρ)}

theorem map_name_eraseP (pending : List (Field ρ)) (key : String) :
    (pending.eraseP (·.name == key)).map (·.name) = (pending.map (·.name)).erase key := by
  rw [List.erase_eq_eraseP, List.eraseP_map]
  congr
  funext field
  exact Bool.beq_comm

theorem length_eraseP_lt {p : Field ρ → Bool} {field : Field ρ}
    (h : pending.find? p = some field) : (pending.eraseP p).length < pending.length := by
  have hmem := List.mem_of_find?_eq_some h
  rw [List.length_eraseP_of_mem hmem (List.find?_some h)]
  exact Nat.sub_lt (List.length_pos_of_mem hmem) Nat.one_pos

theorem name_of_find? {key : String} {field : Field ρ}
    (h : pending.find? (·.name == key) = some field) : field.name = key := by
  simpa using List.find?_some h

theorem exists_find? {key : String} (h : key ∈ pending.map (·.name)) :
    ∃ field, pending.find? (·.name == key) = some field := by
  obtain ⟨field, hmem, hname⟩ := List.mem_map.mp h
  rw [← Option.isSome_iff_exists, List.find?_isSome]
  exact ⟨field, hmem, beq_iff_eq.mpr hname⟩

/-- What becomes of a key that is read. Its field has to be pending, and then
the value of the field comes next. -/
theorem readMembers_of_key {first : Bool} {separator quoted : List Char} {key : String}
    (hseparator : Separator first separator) (hquoted : Quoted key quoted) (value : ρ)
    (rest : List Char) :
    r.readMembers pending first value (separator ++ (quoted ++ rest)) =
      match pending.find? (·.name == key) with
      | none => .error (faultBefore (r.refusal key) (Record.afterRefused rest))
      | some field => (do
        let rest ← readColon rest
        let (value, rest) ← field.read value rest
        r.readMembers (pending.eraseP (·.name == key)) false value rest) := by
  obtain ⟨text, rfl⟩ := exists_mark hquoted
  have hnext : nextKey first (separator ++ '"' :: (text ++ rest)) = .ok (.item (text ++ rest)) :=
    nextKey_item_iff.mpr ⟨separator, hseparator, rfl⟩
  have hkey : readBody (text ++ rest) = .ok (key.toList, rest) := readBody_of_quoted hquoted rfl
  rw [List.cons_append, Record.readMembers, hnext]
  dsimp only
  rw [hkey]
  dsimp only
  simp only [String.ofList_toList]
  split
  · next h =>
      rw [String.ofList_toList] at h
      rw [h]
  · next field h =>
      rw [String.ofList_toList] at h
      rw [h]
      cases hcolon : readColon rest with
      | error f => rfl
      | ok rest' => cases hread : field.read value rest' <;> simp [hread, bind, Except.bind]

/-- A member is read, and with it its field is no longer pending. -/
theorem readMembers_of_member (hreads : ∀ field ∈ pending, Reads f give field) {first : Bool}
    {separator member : List Char} {e : κ} (hseparator : Separator first separator)
    (hmember : f.Member e member) (hpending : f.name e ∈ pending.map (·.name)) (value : ρ)
    (rest : List Char) :
    r.readMembers pending first value (separator ++ (member ++ rest)) =
      r.readMembers (pending.eraseP (·.name == f.name e)) false (give e value) rest := by
  obtain ⟨field, hfind⟩ := exists_find? hpending
  cases hmember with
  | @colon quoted blanks text hquoted hblanks hvalue =>
    have hcolon : readColon (blanks ++ ':' :: (text ++ rest)) = .ok (text ++ rest) :=
      readColon_eq_ok_iff.mpr ⟨blanks, hblanks, rfl⟩
    have hread := (hreads field (List.mem_of_find?_eq_some hfind)).value
      (name_of_find? hfind).symm hvalue value rest
    rw [List.append_assoc, readMembers_of_key hseparator hquoted, hfind, List.append_assoc,
      List.cons_append]
    simp only [hcolon, hread, bind, Except.bind]

/-- Members are read when the object ends, or else when a member for a pending
field comes first and the others behind it are read. -/
theorem readMembers_ok_cases (hreads : ∀ field ∈ pending, Reads f give field) {first : Bool}
    {value value' : ρ} {text rest : List Char}
    (h : r.readMembers pending first value text = .ok (value', rest)) :
    (value' = value ∧ ∃ blanks, Blanks blanks ∧ text = blanks ++ '\x7d' :: rest) ∨
    ∃ separator e member rest', Separator first separator ∧ f.Member e member ∧
      f.name e ∈ pending.map (·.name) ∧ text = separator ++ (member ++ rest') ∧
      r.readMembers (pending.eraseP (·.name == f.name e)) false (give e value) rest' =
        .ok (value', rest) := by
  rw [Record.readMembers] at h
  split at h
  · cases h
  · next hclose =>
      cases h
      exact .inl ⟨rfl, nextKey_close_iff.mp hclose⟩
  · next hnext =>
      obtain ⟨separator, hseparator, rfl⟩ := nextKey_item_iff.mp hnext
      split at h
      · cases h
      · next hkey =>
          obtain ⟨quoted, hquoted, htext⟩ := quoted_of_readBody hkey
          dsimp only at h
          split at h
          · cases h
          · next field hfind =>
              have hmem := List.mem_of_find?_eq_some hfind
              split at h
              · cases h
              · next hcolon =>
                  obtain ⟨blanks, hblanks, rfl⟩ := readColon_eq_ok_iff.mp hcolon
                  split at h
                  · cases h
                  · next hread =>
                      obtain ⟨_, ⟨e, he, hvalue, rfl⟩, rfl⟩ := (hreads field hmem _).of_ok hread
                      rw [← name_of_find? hfind, ← he] at hquoted h
                      exact .inr ⟨separator, e, _, _, hseparator, .colon hquoted hblanks hvalue,
                        he ▸ List.mem_map_of_mem hmem, by simp [htext], h⟩

theorem nodup_erased (h : (pending.map (·.name)).Nodup) (key : String) :
    ((pending.eraseP (·.name == key)).map (·.name)).Nodup := by
  rw [map_name_eraseP]
  exact h.erase key

/-- When the field of one entry is used up, those of other entries are still
pending. -/
theorem mem_erased_of_nodup (hnodup : (pending.map (·.name)).Nodup) {e : κ} {es : List κ}
    (hes : f.name e ∉ es.map f.name) (hmems : ∀ e' ∈ es, f.name e' ∈ pending.map (·.name)) :
    ∀ e' ∈ es, f.name e' ∈ (pending.eraseP (·.name == f.name e)).map (·.name) := by
  intro e' he'
  rw [map_name_eraseP, hnodup.mem_erase_iff]
  exact ⟨fun heq => hes (heq ▸ List.mem_map_of_mem he'), hmems e' he'⟩

theorem items_of_readMembers {pending : List (Field ρ)}
    (hreads : ∀ field ∈ pending, Reads f give field) (hnodup : (pending.map (·.name)).Nodup)
    {first : Bool} {value value' : ρ} {text rest : List Char}
    (h : r.readMembers pending first value text = .ok (value', rest)) :
    ∃ es items, (es.map f.name).Nodup ∧ (∀ e ∈ es, f.name e ∈ pending.map (·.name)) ∧
      Items '\x7d' f.Member first es items ∧ value' = giveAll give value es ∧
      text = items ++ rest := by
  rcases readMembers_ok_cases hreads h with ⟨rfl, blanks, hblanks, rfl⟩ |
    ⟨separator, e, member, rest', hseparator, hmember, hpending, rfl, hrest⟩
  · exact ⟨[], _, .nil, nofun, .close hblanks, rfl, by simp⟩
  · -- A member uses up a field, which is what the recursion here goes down on
    -- as well.
    have hlt : (pending.eraseP (·.name == f.name e)).length < pending.length :=
      (exists_find? hpending).elim fun _ => length_eraseP_lt
    obtain ⟨es, items, hes, hmems, hitems, rfl, rfl⟩ := items_of_readMembers
      (fun field hmem => hreads field (List.mem_of_mem_eraseP hmem)) (nodup_erased hnodup _) hrest
    have hother : ∀ e' ∈ es, f.name e' ≠ f.name e ∧ f.name e' ∈ pending.map (·.name) := by
      intro e' he'
      rw [← hnodup.mem_erase_iff, ← map_name_eraseP]
      exact hmems e' he'
    refine ⟨e :: es, _, ?_, ?_, .item hseparator hmember hitems, rfl, by simp⟩
    · rw [List.map_cons, List.nodup_cons, List.mem_map]
      exact ⟨fun ⟨e', he', heq⟩ => (hother e' he').1 heq, hes⟩
    · exact List.forall_mem_cons.mpr ⟨hpending, fun e' he' => (hother e' he').2⟩
termination_by pending.length

theorem readMembers_of_items
    (hreads : ∀ field ∈ pending, Reads f give field) (hnodup : (pending.map (·.name)).Nodup)
    {first : Bool} {es : List κ} {items : List Char} (hes : (es.map f.name).Nodup)
    (hmems : ∀ e ∈ es, f.name e ∈ pending.map (·.name))
    (hitems : Items '\x7d' f.Member first es items) (value : ρ) (rest : List Char) :
    r.readMembers pending first value (items ++ rest) = .ok (giveAll give value es, rest) := by
  induction hitems generalizing pending value with
  | @close first blanks hblanks =>
    have hclose : nextKey first (blanks ++ '\x7d' :: rest) = .ok (.close rest) :=
      nextKey_close_iff.mpr ⟨blanks, hblanks, rfl⟩
    rw [List.append_assoc, List.singleton_append, Record.readMembers, hclose]
    rfl
  | @item first separator member items e es hseparator hmember hitems ih =>
    rw [List.map_cons, List.nodup_cons] at hes
    obtain ⟨hpending, hmems⟩ := List.forall_mem_cons.mp hmems
    rw [List.append_assoc, List.append_assoc,
      readMembers_of_member hreads hseparator hmember hpending,
      ih (fun field hmem => hreads field (List.mem_of_mem_eraseP hmem)) (nodup_erased hnodup _)
        hes.2 (mem_erased_of_nodup hnodup hes.1 hmems)]
    rfl

/-! ## Both forms -/

/-- The record can be read in the form: its fields have the names of the form,
no two the same, and their readers take the values of the form. -/
structure Fits (r : Record ρ) (f : RecordForm κ) (give : κ → ρ → ρ) : Prop where
  names : r.fields.map (·.name) = f.names
  nodup : f.names.Nodup
  reads : ∀ field ∈ r.fields, Reads f give field
  starts : Starts f.Value

theorem starts_form : Starts f.Form := by
  intro es text h
  cases h with
  | object => exact ⟨'\x7b', _, by decide, rfl⟩
  | array => exact ⟨'[', _, by decide, rfl⟩

/-- The reader of a record takes the texts of its form, and nothing else, and
what it makes of a text is the default with the entries given to it. -/
theorem Fits.takes_read (h : Fits r f give) :
    Takes r.read (Spaced fun value text =>
      ∃ es, f.Form es text ∧ value = giveAll give r.default es) := by
  have hnodup : (r.fields.map (·.name)).Nodup := h.names ▸ h.nodup
  refine takes_spaced (fun _ text ⟨es, hform, _⟩ => starts_form es text hform)
    fun text value rest => ?_
  constructor
  · intro hr
    unfold Record.read at hr
    split at hr
    · cases hr
    · next hskip =>
        obtain ⟨es, items, hes, hmems, hitems, rfl, rfl⟩ := items_of_readMembers h.reads hnodup hr
        exact ⟨_, ⟨es, .object hes (h.names ▸ hmems) hitems, rfl⟩, hskip⟩
    · next hskip =>
        obtain ⟨es, items, hes, hitems, rfl, rfl⟩ := items_of_readElements h.reads hr
        exact ⟨_, ⟨es, .array (h.names ▸ hes) hitems, rfl⟩, hskip⟩
    · cases hr
  · rintro ⟨_, ⟨es, hform, rfl⟩, hskip⟩
    cases hform with
    | object hes hmems hitems =>
      have hread : r.readMembers r.fields true r.default _ = _ :=
        readMembers_of_items h.reads hnodup hes (h.names ▸ hmems) hitems r.default rest
      simp only [Record.read, hskip, List.cons_append, hread]
    | array hes hitems =>
      have hread := readElements_of_items h.starts h.reads (h.names ▸ hes) hitems r.default rest
      simp only [Record.read, hskip, List.cons_append, hread]

/-! ## What the entries of a text give -/

theorem Items.exists_text {close : Char} {Item : κ → List Char → Prop} {first : Bool}
    {es : List κ} {items : List Char} (h : Items close Item first es items) {e : κ}
    (he : e ∈ es) : ∃ text, Item e text := by
  induction h with
  | close => cases he
  | item _ hitem _ ih =>
    cases he with
    | head => exact ⟨_, hitem⟩
    | tail _ he => exact ih he

theorem exists_items (close : Char) {Item : κ → List Char → Prop} {es : List κ}
    (h : ∀ e ∈ es, ∃ text, Item e text) (first : Bool) :
    ∃ items, Items close Item first es items := by
  induction es generalizing first with
  | nil => exact ⟨_, .close .nil⟩
  | cons e es ih =>
      obtain ⟨⟨text, he⟩, hes⟩ := List.forall_mem_cons.mp h
      obtain ⟨items, hitems⟩ := ih hes false
      cases first with
      | true => exact ⟨_, .item (.first .nil) he hitems⟩
      | false => exact ⟨_, .item (.comma .nil .nil) he hitems⟩

/-- Entries for different fields can be written if their values can. -/
theorem RecordForm.exists_form {es : List κ} (hnodup : (es.map f.name).Nodup)
    (hmems : ∀ e ∈ es, f.name e ∈ f.names) (hvalue : ∀ e ∈ es, ∃ value, f.Value e value) :
    ∃ text, f.Form es text := by
  have hmember : ∀ e ∈ es, ∃ text, f.Member e text := by
    intro e he
    obtain ⟨key, hkey⟩ := exists_quoted (f.name e)
    obtain ⟨value, hvalue⟩ := hvalue e he
    exact ⟨_, .colon hkey .nil (.none hvalue)⟩
  obtain ⟨items, hitems⟩ := exists_items '\x7d' hmember true
  exact ⟨_, .object hnodup hmems hitems⟩

/-- No field has two entries. -/
theorem RecordForm.Form.nodup {es : List κ} {text : List Char} (h : f.Form es text)
    (hnames : f.names.Nodup) : (es.map f.name).Nodup := by
  cases h with
  | object hes => exact hes
  | array hes => exact hnames.sublist hes.sublist

theorem RecordForm.Form.exists_value {es : List κ} {text : List Char} (h : f.Form es text) {e : κ}
    (he : e ∈ es) : ∃ value, f.Value e value := by
  cases h with
  | object _ _ hitems =>
    obtain ⟨_, ⟨_, _, ⟨_, value, _, hvalue, _⟩⟩⟩ := hitems.exists_text he
    exact ⟨value, hvalue⟩
  | array _ hitems => exact hitems.exists_text he

/-- What no entry changes stays as it is. -/
theorem giveAll_of_not_mem {α : Type} (get : ρ → α) {es : List κ}
    (hkeep : ∀ e ∈ es, ∀ value, get (give e value) = get value) (value : ρ) :
    get (giveAll give value es) = get value := by
  induction es generalizing value with
  | nil => rfl
  | cons e es ih =>
      exact (ih (fun e' he' => hkeep e' (List.mem_cons_of_mem _ he')) (give e value)).trans
        (hkeep e List.mem_cons_self value)

/-- What one entry sets and entries for other fields leave alone is as that
entry sets it. -/
theorem giveAll_of_mem {α : Type} (get : ρ → α) {es : List κ} {e : κ} {a : α}
    (hnodup : (es.map f.name).Nodup) (he : e ∈ es) (hset : ∀ value, get (give e value) = a)
    (hkeep : ∀ e', f.name e' ≠ f.name e → ∀ value, get (give e' value) = get value) (value : ρ) :
    get (giveAll give value es) = a := by
  induction es generalizing value with
  | nil => cases he
  | cons e' es ih =>
      rw [List.map_cons, List.nodup_cons] at hnodup
      cases he with
      | head =>
        have hother : ∀ e' ∈ es, ∀ value, get (give e' value) = get value := fun e' he' =>
          hkeep e' fun heq => hnodup.1 (heq ▸ List.mem_map_of_mem he')
        exact (giveAll_of_not_mem get hother (give e value)).trans (hset value)
      | tail _ he => exact ih hnodup.2 he (give e' value)

end

end BoxedTypes.Json

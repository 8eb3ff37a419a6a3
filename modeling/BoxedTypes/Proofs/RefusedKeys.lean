import BoxedTypes.Proofs.SettingsSpelling

/-!
# Keys that are refused

A key that is no field, or whose field was given before, is refused as soon as
it is read. What the document goes on with is then still unread, so it cannot
mask the refusal: it may be well formed, or not, or missing. Nor can the
spelling of the key, because it is the decoded key that is compared.

The statement therefore asks nothing of a document but its beginning. `Opened`
are the beginnings of an object, some members complete, up to a place where a
key is read. Reading them uses up the fields that they give and has no other
effect on what is read next (`Fits.read_opened`), which leaves one key to look
at. The object of the wrapper names lies inside a document of the settings.
There the settings have been read up to the value of a field, and a fault in
that value is the fault of the whole (`Fits.read_of_value_error`).
-/

namespace BoxedTypes.Json

variable {ρ κ : Type}

/-- Complete items with commas between them, up to where the next one begins. -/
inductive Begun (Item : κ → List Char → Prop) : Bool → List κ → List Char → Prop
  | next {first : Bool} {separator : List Char} :
    Separator first separator → Begun Item first [] separator
  | item {first : Bool} {separator text rest : List Char} {e : κ} {es : List κ} :
    Separator first separator → Item e text → Begun Item false es rest →
    Begun Item first (e :: es) (separator ++ (text ++ rest))

/-- The ways to begin a record as an object, with members for some entries
complete, up to where a key is read. -/
inductive RecordForm.Opened (f : RecordForm κ) : List κ → List Char → Prop
  | object {es : List κ} {text : List Char} :
    (es.map f.name).Nodup → (∀ e ∈ es, f.name e ∈ f.names) → Begun f.Member true es text →
    f.Opened es ('\x7b' :: text)

variable {r : Record ρ} {f : RecordForm κ} {give : κ → ρ → ρ}

/-! ## The fields that are left -/

theorem eraseP_name_eq_filter {pending : List (Field ρ)} (h : (pending.map (·.name)).Nodup)
    (key : String) :
    pending.eraseP (·.name == key) = pending.filter (·.name ≠ key) := by
  induction pending with
  | nil => rfl
  | cons field pending ih =>
      rw [List.map_cons, List.nodup_cons] at h
      by_cases hname : field.name = key
      · have hothers : ∀ other ∈ pending, other.name ≠ key := by
          intro other hmem heq
          rw [hname, ← heq] at h
          exact h.1 (List.mem_map_of_mem hmem)
        rw [List.eraseP_cons_of_pos (by simp [hname]), List.filter_cons_of_neg (by simp [hname])]
        exact (List.filter_eq_self.mpr fun other hmem => decide_eq_true (hothers other hmem)).symm
      · rw [List.eraseP_cons_of_neg (by simp [hname]), List.filter_cons_of_pos (by simp [hname]),
          ih h.2]

/-- The complete members are read, and what is left to read is the same object
without their fields. -/
theorem readMembers_of_begun {first : Bool} {es : List κ} {text : List Char}
    (hbegun : Begun f.Member first es text) {pending : List (Field ρ)}
    (hreads : ∀ field ∈ pending, Reads f give field) (hnodup : (pending.map (·.name)).Nodup)
    (hes : (es.map f.name).Nodup) (hmems : ∀ e ∈ es, f.name e ∈ pending.map (·.name))
    (value : ρ) :
    ∃ first' separator, Separator first' separator ∧ ∀ rest,
      r.readMembers pending first value (text ++ rest) =
        r.readMembers (pending.filter (·.name ∉ es.map f.name)) first' (giveAll give value es)
          (separator ++ rest) := by
  induction hbegun generalizing pending value with
  | @next first separator hseparator =>
      refine ⟨first, separator, hseparator, fun rest => ?_⟩
      simp only [List.map_nil, List.not_mem_nil, not_false_eq_true, decide_true, List.filter_true]
      rfl
  | @item first separator member text e es hseparator hmember hbegun ih =>
      rw [List.map_cons, List.nodup_cons] at hes
      obtain ⟨hpending, hmems⟩ := List.forall_mem_cons.mp hmems
      obtain ⟨first', separator', hseparator', hrest⟩ :=
        ih (fun field hmem => hreads field (List.mem_of_mem_eraseP hmem)) (nodup_erased hnodup _)
          hes.2 (mem_erased_of_nodup hnodup hes.1 hmems) (give e value)
      refine ⟨first', separator', hseparator', fun rest => ?_⟩
      rw [List.append_assoc, List.append_assoc,
        readMembers_of_member hreads hseparator hmember hpending, hrest,
        eraseP_name_eq_filter hnodup, List.filter_filter]
      simp only [List.map_cons, List.mem_cons, not_or, Bool.decide_and, Bool.and_comm, ne_eq]
      rfl

/-! ## What is read behind the beginning of an object -/

namespace Fits

variable {es : List κ} {text quoted : List Char} {key : String}

theorem read_opened (h : Fits r f give) (hopened : Spaced f.Opened es text) :
    ∃ first separator, Separator first separator ∧ ∀ rest, r.read (text ++ rest) =
      r.readMembers (r.fields.filter (·.name ∉ es.map f.name)) first (giveAll give r.default es)
        (separator ++ rest) := by
  obtain ⟨blanks, _, hblanks, ⟨hes, hmems, hbegun⟩, rfl⟩ := hopened
  have hnodup : (r.fields.map (·.name)).Nodup := h.names ▸ h.nodup
  obtain ⟨first, separator, hseparator, hrest⟩ :=
    readMembers_of_begun (r := r) hbegun h.reads hnodup hes (h.names ▸ hmems) r.default
  refine ⟨first, separator, hseparator, fun rest => ?_⟩
  rw [← hrest, List.append_assoc, List.cons_append]
  simp only [Record.read, skipBlanks_behind hblanks (rfl : isBlank '\x7b' = false)]

/-- The fault of a key that cannot be given any more. -/
theorem read_of_refused (h : Fits r f give) (hopened : Spaced f.Opened es text)
    (hkey : Quoted key quoted) (hrefused : key ∈ f.names → key ∈ es.map f.name)
    (rest : List Char) :
    r.read (text ++ (quoted ++ rest)) =
      .error (faultBefore (r.refusal key) (Record.afterRefused rest)) := by
  obtain ⟨first, separator, hseparator, hrest⟩ := h.read_opened hopened
  have hnone : (r.fields.filter (·.name ∉ es.map f.name)).find? (·.name == key) = none := by
    rw [List.find?_eq_none]
    intro field hmem heq
    obtain ⟨hfield, hleft⟩ := List.mem_filter.mp hmem
    rw [beq_iff_eq] at heq
    rw [decide_eq_true_eq, heq] at hleft
    exact hleft (hrefused (h.names ▸ heq ▸ List.mem_map_of_mem hfield))
  rw [hrest, readMembers_of_key hseparator hkey, hnone]

/-- A fault in the value of a field that can be given is the fault of the
record. -/
theorem read_of_value_error (h : Fits r f give) (hopened : Spaced f.Opened es text)
    (hkey : Quoted key quoted) (hname : key ∈ f.names) (hleft : key ∉ es.map f.name)
    {blanks rest : List Char} (hblanks : Blanks blanks) {fault : Fault}
    (hvalue : ∀ field ∈ r.fields, field.name = key → ∀ value,
      field.read value rest = .error fault) :
    r.read (text ++ (quoted ++ (blanks ++ ':' :: rest))) = .error fault := by
  obtain ⟨first, separator, hseparator, hrest⟩ := h.read_opened hopened
  obtain ⟨field, hmem, rfl⟩ := List.mem_map.mp (h.names ▸ hname)
  have hpending : field.name ∈
      (r.fields.filter (·.name ∉ es.map f.name)).map (·.name) :=
    List.mem_map_of_mem (List.mem_filter.mpr ⟨hmem, decide_eq_true hleft⟩)
  obtain ⟨found, hfind⟩ := exists_find? hpending
  have hfound := (List.mem_filter.mp (List.mem_of_find?_eq_some hfind)).1
  have hcolon : readColon (blanks ++ ':' :: rest) = .ok rest :=
    readColon_eq_ok_iff.mpr ⟨blanks, hblanks, rfl⟩
  rw [hrest, readMembers_of_key hseparator hkey, hfind]
  simp only [hcolon, hvalue found hfound (name_of_find? hfind), bind, Except.bind]

end Fits

/-- A fault in the first element of an array is the fault of the record. -/
theorem Record.read_of_element_error {field : Field ρ} {fields : List (Field ρ)}
    (hfields : r.fields = field :: fields) {blanks blanks' rest : List Char} {c : Char}
    (hblanks : Blanks blanks) (hblanks' : Blanks blanks') (hc : isBlank c = false)
    (hclose : c ≠ ']') {fault : Fault} (hvalue : field.read r.default (c :: rest) = .error fault) :
    r.read (blanks ++ '[' :: (blanks' ++ c :: rest)) = .error fault := by
  have hskip : skipBlanks (blanks ++ '[' :: (blanks' ++ c :: rest)) =
      '[' :: (blanks' ++ c :: rest) := skipBlanks_behind hblanks rfl _
  have hnext : nextElement true (blanks' ++ c :: rest) = .ok (.item (c :: rest)) :=
    nextElement_of_separator (.first hblanks') hc hclose
  simp only [Record.read, hskip, hfields, Record.readElements, hnext, hvalue]

end BoxedTypes.Json

/-! ## Settings -/

namespace BoxedTypes.Settings

open Json

/-- A document of settings is well formed up to a place where a key is read. The
key is one of an object with these fields, and these of them were given in that
object before. -/
inductive UpToKey : List String → List String → List Char → Prop
  | settings {es : List Entry} {text : List Char} :
    Spaced form.Opened es text → UpToKey form.names (es.map form.name) text
  | wrappers {es : List Entry} {names : List (Scalar × String)}
    {text key blanks text' : List Char} :
    Spaced form.Opened es text → "wrappers" ∉ es.map form.name → Quoted "wrappers" key →
    Blanks blanks → Spaced wrapperForm.Opened names text' →
    UpToKey wrapperForm.names (names.map wrapperForm.name)
      (text ++ (key ++ (blanks ++ ':' :: text')))
  | element {names : List (Scalar × String)} {blanks text : List Char} :
    Blanks blanks → Spaced wrapperForm.Opened names text →
    UpToKey wrapperForm.names (names.map wrapperForm.name) (blanks ++ '[' :: text)

variable {fields given : List String} {begun quoted : List Char} {key : String}

/-- Only a field can have been given. -/
theorem UpToKey.subset (h : UpToKey fields given begun) (hgiven : key ∈ given) : key ∈ fields := by
  have hentries : ∀ {κ : Type} {f : RecordForm κ} {es : List κ} {text : List Char},
      Spaced f.Opened es text → key ∈ es.map f.name → key ∈ f.names := by
    intro κ f es text hopened hmem
    obtain ⟨_, _, _, ⟨_, hmems, _⟩, _⟩ := hopened
    obtain ⟨e, he, rfl⟩ := List.mem_map.mp hmem
    exact hmems e he
  cases h with
  | settings hopened => exact hentries hopened hgiven
  | wrappers _ _ _ _ hopened => exact hentries hopened hgiven
  | element _ hopened => exact hentries hopened hgiven

/-- A fault in the wrapper names is a fault in the value of their field. -/
theorem read_of_wrappers_error {text : List Char} {fault : Fault}
    (h : wrapperRecord.read text = .error fault) :
    ∀ field ∈ record.fields, field.name = "wrappers" → ∀ c,
      field.read c text = .error fault := by
  intro field hmem hname c
  rcases List.mem_cons.mp hmem with rfl | hmem
  · show (wrapperRecord.read text).map _ = .error fault
    rw [h]
    rfl
  · rw [List.mem_singleton.mp hmem] at hname
    simp [missingWrapperField] at hname

/-- The fault of a key that cannot be given any more is the fault of the
settings, whichever of the two objects it is a key of. -/
theorem UpToKey.read_of_refused (h : UpToKey fields given begun) (hkey : Quoted key quoted)
    (hrefused : key ∈ fields → key ∈ given) (rest : List Char) :
    record.read (begun ++ (quoted ++ rest)) =
      .error (faultBefore (if key ∈ fields then .duplicateField key else .unknownField key fields)
        (Record.afterRefused rest)) := by
  cases h with
  | settings hopened => exact fits_record.read_of_refused hopened hkey hrefused rest
  | wrappers hopened hleft hwrappers hblanks hinner =>
      have hread := fits_wrapperRecord.read_of_refused hinner hkey hrefused rest
      have hfault := fits_record.read_of_value_error hopened hwrappers (by decide) hleft hblanks
        (read_of_wrappers_error hread)
      rw [List.append_assoc, List.append_assoc, List.append_assoc, List.cons_append]
      exact hfault
  | element hblanks hinner =>
      obtain ⟨blanks', _, hblanks', ⟨hes, hmems, hbegun⟩, rfl⟩ := hinner
      have hread := fits_wrapperRecord.read_of_refused (.none (.object hes hmems hbegun)) hkey
        hrefused rest
      have hfault := Record.read_of_element_error (r := record) rfl hblanks hblanks' rfl (by decide)
        (read_of_wrappers_error hread wrappersField List.mem_cons_self rfl default)
      rw [List.append_assoc, List.cons_append, List.append_assoc]
      exact hfault

/-- A key that is no field of its object, or one that was given in it before, is
refused whatever the document goes on with. -/
theorem refused_on_sight (h : UpToKey fields given begun) (hkey : Quoted key quoted)
    (rest : List Char) {document : String}
    (hdocument : document.toList = begun ++ (quoted ++ rest)) :
    (key ∉ fields → ofJson document =
      .error (faultBefore (.unknownField key fields) (Record.afterRefused rest))) ∧
    (key ∈ given → ofJson document =
      .error (faultBefore (.duplicateField key) (Record.afterRefused rest))) := by
  constructor
  · intro hunknown
    have hread := h.read_of_refused hkey (fun hfield => absurd hfield hunknown) rest
    rw [if_neg hunknown] at hread
    rw [ofJson, readDocument, hdocument, hread]
  · intro hgiven
    have hread := h.read_of_refused hkey (fun _ => hgiven) rest
    rw [if_pos (h.subset hgiven)] at hread
    rw [ofJson, readDocument, hdocument, hread]

/-- Two keys of the names, which have one name already and an escape in their
own key. The one that is no field looks like one but for the case of a letter
and has a stray bracket behind it. The one that was given is spelled otherwise
this time, and nothing follows. -/
theorem refused_on_sight_inside_names :
    let begun := " \x7b\"missing_wrapper\":\"reject\", \"wr\\u0061ppers\":\x7b\"number\":\"N\","
    UpToKey ["number", "string", "boolean"] ["number"] begun.toList ∧
    ofJson (begun ++ "\"\\u004eumber\" ]") =
      .error ⟨.unknownField "Number" ["number", "string", "boolean"], 1⟩ ∧
    ofJson (begun ++ "\"n\\u0075mber\"") = .error ⟨.duplicateField "number", 0⟩ := by
  intro begun
  have hspace : Blanks [' '] := by decide
  have hwrappers : Quoted "wrappers" _ :=
    have hunit : HexUnit 'a'.toNat ['0', '0', '6', '1'] := hexUnit?_eq_some_iff.mp (by decide)
    .unit ['w', 'r'] 'a' ['p', 'p', 'e', 'r', 's'] (by decide) (by simp [Plain])
      (by simp [Plain]) hunit
  have hpolicy : form.Member (.missingWrapper .reject) _ :=
    have hkey : Quoted "missing_wrapper" _ := .raw (by simp [Plain])
    have hword : Quoted "reject" _ := .raw (by simp [Plain])
    .colon hkey .nil (.none (.string hword))
  have hname : wrapperForm.Member (.number, "N") _ :=
    have hkey : Quoted "number" _ := .raw (by simp [Plain])
    have hvalue : Quoted "N" _ := .raw (by simp [Plain])
    .colon hkey .nil (.none hvalue)
  have houter : Spaced form.Opened [.missingWrapper .reject] _ :=
    ⟨[' '], _, hspace, .object (by decide) (by decide)
      (.item (.first .nil) hpolicy (.next (.comma .nil hspace))), rfl⟩
  have hinner : Spaced wrapperForm.Opened [(.number, "N")] _ :=
    .none (.object (by decide) (by decide)
      (.item (.first .nil) hname (.next (.comma .nil .nil))))
  have hnames : UpToKey ["number", "string", "boolean"] ["number"] _ :=
    .wrappers houter (by decide) hwrappers .nil hinner
  have hbegun : UpToKey ["number", "string", "boolean"] ["number"] begun.toList :=
    (congrArg (UpToKey _ _) (by decide)).mp hnames
  have hunknown : Quoted "Number" _ :=
    have hunit : HexUnit 'N'.toNat ['0', '0', '4', 'e'] := hexUnit?_eq_some_iff.mp (by decide)
    .unit [] 'N' ['u', 'm', 'b', 'e', 'r'] (by decide) (by simp) (by simp [Plain]) hunit
  have hgiven : Quoted "number" _ :=
    have hunit : HexUnit 'u'.toNat ['0', '0', '7', '5'] := hexUnit?_eq_some_iff.mp (by decide)
    .unit ['n'] 'u' ['m', 'b', 'e', 'r'] (by decide) (by simp [Plain]) (by simp [Plain]) hunit
  exact ⟨hbegun,
    (refused_on_sight hbegun hunknown [' ', ']'] (by decide)).1 (by decide),
    (refused_on_sight hbegun hgiven [] (by decide)).2 (by decide)⟩

end BoxedTypes.Settings

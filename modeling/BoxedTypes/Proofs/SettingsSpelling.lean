import BoxedTypes.Proofs.RecordSpelling
import BoxedTypes.Proofs.WordSpelling
import BoxedTypes.Settings.Document
import Mathlib

/-!
# How settings are spelled

A document gives some of the names and a policy or none, and `Given` is what it
gives. `Given.Written` are the documents that write it: the settings as a record
of at most two entries, the wrapper names as a record again, the policy as a
word, and nothing but blanks around the whole.

Reading undoes writing. Every document written for what is given is read as the
settings with that and the defaults (`ofJson_of_written`), and every document
that is read at all is one of them (`exists_given_of_ofJson`). Anything can be
given, since every string can be written (`exists_written`).
-/

namespace BoxedTypes.Settings

open Json

/-! ## The forms -/

/-- The form of the wrapper names: an entry is a kind with a name. -/
def wrapperForm : RecordForm (Scalar × String) where
  names := ["number", "string", "boolean"]
  name e := e.1.name
  Value e := Quoted e.2

/-- An entry of the settings. -/
inductive Entry where
  | wrappers (names : List (Scalar × String))
  | missingWrapper (policy : MissingWrapper)

/-- The form of the settings. -/
def form : RecordForm Entry where
  names := ["wrappers", "missing_wrapper"]
  name
    | .wrappers _ => "wrappers"
    | .missingWrapper _ => "missing_wrapper"
  Value
    | .wrappers names => wrapperForm.Form names
    | .missingWrapper policy => MissingWrapper.vocabulary.Form policy

/-- What a document gives. -/
structure Given where
  wrappers : PerScalar (Option String)
  missingWrapper : Option MissingWrapper

namespace Given

/-- The settings with what is given and the defaults for the rest. -/
def settings (g : Given) : Settings where
  wrappers :=
    ⟨g.wrappers.number.getD "Number", g.wrappers.string.getD "String",
      g.wrappers.boolean.getD "Boolean"⟩
  missingWrapper := g.missingWrapper.getD .unknown

/-- What is given is what stands in the entries. -/
structure Of (g : Given) (es : List Entry) : Prop where
  wrappers : ∀ k name, g.wrappers.get k = some name ↔
    ∃ names, .wrappers names ∈ es ∧ (k, name) ∈ names
  missingWrapper : ∀ policy, g.missingWrapper = some policy ↔ .missingWrapper policy ∈ es

/-- The document writes what is given. -/
def Written (g : Given) (document : String) : Prop :=
  ∃ es text blanks, g.Of es ∧ Spaced form.Form es text ∧ Blanks blanks ∧
    document.toList = text ++ blanks

end Given

/-! ## The readers -/

def giveName (e : Scalar × String) (names : PerScalar String) : PerScalar String :=
  names.set e.1 e.2

def give : Entry → Settings → Settings
  | .wrappers names, c => { c with wrappers := giveAll giveName default.wrappers names }
  | .missingWrapper missingWrapper, c => { c with missingWrapper }

theorem reads_wrapperField (k : Scalar) : Reads wrapperForm giveName (wrapperField k) := by
  intro names
  refine ((takes_readString "a string").map fun name => names.set k name).congr
    fun names' text => ?_
  constructor
  · rintro ⟨name, hname, rfl⟩
    exact ⟨(k, name), rfl, hname, rfl⟩
  · rintro ⟨⟨k', name⟩, hk, hname, rfl⟩
    cases Scalar.name_injective hk
    exact ⟨name, hname, rfl⟩

theorem fits_wrapperRecord : Fits wrapperRecord wrapperForm giveName where
  names := rfl
  nodup := by decide
  reads field hfield := by
    obtain ⟨k, -, rfl⟩ := List.mem_map.mp hfield
    exact reads_wrapperField k
  starts _ _ h := starts_quoted _ _ h

theorem reads_wrappersField : Reads form give wrappersField := by
  intro c
  refine (fits_wrapperRecord.takes_read.map fun wrappers => { c with wrappers }).congr
    fun c' text => ?_
  constructor
  · rintro ⟨_, ⟨blanks, core, hblanks, ⟨names, hform, rfl⟩, rfl⟩, rfl⟩
    exact ⟨.wrappers names, rfl, ⟨blanks, core, hblanks, hform, rfl⟩, rfl⟩
  · rintro ⟨e, hname, ⟨blanks, core, hblanks, hform, rfl⟩, rfl⟩
    cases e with
    | wrappers names => exact ⟨_, ⟨blanks, core, hblanks, ⟨names, hform, rfl⟩, rfl⟩, rfl⟩
    | missingWrapper policy => simp [form, wrappersField] at hname

theorem reads_missingWrapperField : Reads form give missingWrapperField := by
  intro c
  refine ((Vocabulary.takes_read MissingWrapper.find?_vocabulary_name).map
    fun missingWrapper => { c with missingWrapper }).congr fun c' text => ?_
  constructor
  · rintro ⟨policy, hform, rfl⟩
    exact ⟨.missingWrapper policy, rfl, hform, rfl⟩
  · rintro ⟨e, hname, hform, rfl⟩
    cases e with
    | wrappers names => simp [form, missingWrapperField] at hname
    | missingWrapper policy => exact ⟨policy, hform, rfl⟩

theorem fits_record : Fits record form give where
  names := rfl
  nodup := by decide
  reads field hfield := by
    simp only [record, List.mem_cons, List.not_mem_nil, or_false] at hfield
    rcases hfield with rfl | rfl
    · exact reads_wrappersField
    · exact reads_missingWrapperField
  starts e text h := by
    cases e with
    | wrappers names => exact starts_form _ _ h
    | missingWrapper policy => exact Vocabulary.starts_form _ _ h

/-! ## What is given -/

theorem get_giveAll_of_mem {es : List (Scalar × String)} {k : Scalar} {name : String}
    (hnodup : (es.map wrapperForm.name).Nodup) (he : (k, name) ∈ es) (names : PerScalar String) :
    (giveAll giveName names es).get k = name := by
  refine giveAll_of_mem (fun names => names.get k) hnodup he (fun names => ?_)
    (fun e hne names => ?_) names
  · exact (names.get_set k k name).trans (if_pos rfl)
  · exact (names.get_set e.1 k e.2).trans (if_neg fun heq => hne (congrArg Scalar.name heq.symm))

theorem get_giveAll_of_not_mem {es : List (Scalar × String)} {k : Scalar}
    (h : ∀ name, (k, name) ∉ es) (names : PerScalar String) :
    (giveAll giveName names es).get k = names.get k := by
  refine giveAll_of_not_mem (fun names => names.get k) (fun e he names => ?_) names
  exact (names.get_set e.1 k e.2).trans (if_neg fun heq : k = e.1 => h e.2 (heq ▸ he))

/-- An option can be what at most one thing is. -/
theorem exists_option {α : Type} {P : α → Prop} (h : ∀ a b, P a → P b → a = b) :
    ∃ o : Option α, ∀ a, o = some a ↔ P a := by
  by_cases hp : ∃ a, P a
  · obtain ⟨a, ha⟩ := hp
    refine ⟨some a, fun b => ⟨fun hb => ?_, fun hb => congrArg some (h a b ha hb)⟩⟩
    cases hb
    exact ha
  · exact ⟨none, fun a => ⟨nofun, fun ha => absurd ⟨a, ha⟩ hp⟩⟩

theorem nodup_of_wrappers_mem {es : List Entry} {text : List Char} (h : form.Form es text)
    {names : List (Scalar × String)} (he : .wrappers names ∈ es) :
    (names.map wrapperForm.name).Nodup := by
  obtain ⟨value, hvalue⟩ := h.exists_value he
  exact RecordForm.Form.nodup (f := wrapperForm) hvalue (by decide)

namespace Given

/-- The entries of a text give something. -/
theorem exists_of {es : List Entry} {text : List Char} (h : form.Form es text) :
    ∃ g : Given, g.Of es := by
  have hnodup := h.nodup (by decide)
  have hname : ∀ k, ∃ o : Option String, ∀ name, o = some name ↔
      ∃ names, .wrappers names ∈ es ∧ (k, name) ∈ names := by
    refine fun k => exists_option fun name name' hname hname' => ?_
    obtain ⟨names, he, hmem⟩ := hname
    obtain ⟨names', he', hmem'⟩ := hname'
    cases List.inj_on_of_nodup_map hnodup he he' rfl
    cases List.inj_on_of_nodup_map (nodup_of_wrappers_mem h he) hmem hmem' rfl
    rfl
  have hpolicy : ∃ o : Option MissingWrapper, ∀ policy, o = some policy ↔
      .missingWrapper policy ∈ es := by
    refine exists_option fun policy policy' he he' => ?_
    cases List.inj_on_of_nodup_map hnodup he he' rfl
    rfl
  obtain ⟨wrappers, hwrappers⟩ := PerScalar.exists_get hname
  obtain ⟨missingWrapper, hmissing⟩ := hpolicy
  exact ⟨⟨wrappers, missingWrapper⟩, hwrappers, hmissing⟩

theorem get_wrappers_settings (g : Given) (k : Scalar) :
    g.settings.wrappers.get k = (g.wrappers.get k).getD (default.wrappers.get k) := by
  cases k <;> rfl

variable {g : Given} {es : List Entry} {text : List Char}

theorem Of.get_wrappers (hg : g.Of es) (h : form.Form es text) (k : Scalar) :
    (giveAll give default es).wrappers.get k =
      (g.wrappers.get k).getD (default.wrappers.get k) := by
  have hnodup := h.nodup (by decide)
  by_cases hw : ∃ names, .wrappers names ∈ es
  · obtain ⟨names, he⟩ := hw
    have hset : ∀ c, (give (.wrappers names) c).wrappers.get k =
        (g.wrappers.get k).getD (default.wrappers.get k) := by
      intro c
      cases hk : g.wrappers.get k with
      | none =>
          refine get_giveAll_of_not_mem (fun name hmem => ?_) _
          have hsome := (hg.wrappers k name).mpr ⟨names, he, hmem⟩
          rw [hk] at hsome
          cases hsome
      | some name =>
          obtain ⟨names', he', hmem⟩ := (hg.wrappers k name).mp hk
          cases List.inj_on_of_nodup_map hnodup he he' rfl
          exact get_giveAll_of_mem (nodup_of_wrappers_mem h he) hmem _
    refine giveAll_of_mem (fun c => c.wrappers.get k) hnodup he hset (fun e hne c => ?_) default
    cases e with
    | wrappers names' => exact absurd rfl hne
    | missingWrapper policy => rfl
  · have hk : g.wrappers.get k = none := by
      rw [Option.eq_none_iff_forall_ne_some]
      intro name hsome
      obtain ⟨names, he, -⟩ := (hg.wrappers k name).mp hsome
      exact hw ⟨names, he⟩
    rw [hk]
    refine giveAll_of_not_mem (fun c => c.wrappers.get k) (fun e he c => ?_) default
    cases e with
    | wrappers names => exact absurd ⟨names, he⟩ hw
    | missingWrapper policy => rfl

theorem Of.missingWrapper_eq (hg : g.Of es) (h : form.Form es text) :
    (giveAll give default es).missingWrapper = g.settings.missingWrapper := by
  have hnodup := h.nodup (by decide)
  cases hp : g.missingWrapper with
  | none =>
      have hkeep : ∀ e ∈ es, ∀ c, (give e c).missingWrapper = c.missingWrapper := by
        intro e he c
        cases e with
        | wrappers names => rfl
        | missingWrapper policy =>
            have hsome := (hg.missingWrapper policy).mpr he
            rw [hp] at hsome
            cases hsome
      rw [giveAll_of_not_mem Settings.missingWrapper hkeep, settings, hp]
      rfl
  | some policy =>
      have he := (hg.missingWrapper policy).mp hp
      have hset : ∀ c, (give (.missingWrapper policy) c).missingWrapper = policy := fun _ => rfl
      have hkeep : ∀ e, form.name e ≠ form.name (.missingWrapper policy) →
          ∀ c, (give e c).missingWrapper = c.missingWrapper := by
        intro e hne c
        cases e with
        | wrappers names => rfl
        | missingWrapper policy' => exact absurd rfl hne
      rw [giveAll_of_mem Settings.missingWrapper hnodup he hset hkeep, settings, hp]
      rfl

/-- Giving the entries of a text to the default makes the settings. -/
theorem Of.giveAll_eq (hg : g.Of es) (h : form.Form es text) :
    giveAll give default es = g.settings := by
  have hwrappers : (giveAll give default es).wrappers = g.settings.wrappers :=
    PerScalar.ext_get fun k => (hg.get_wrappers h k).trans (g.get_wrappers_settings k).symm
  exact congrArg₂ Settings.mk hwrappers (hg.missingWrapper_eq h)

end Given

/-! ## Reading and writing -/

/-- Reading undoes every way of writing. -/
theorem Given.ofJson_of_written {g : Given} {document : String} (h : g.Written document) :
    ofJson document = .ok g.settings := by
  obtain ⟨es, _, blanks', hg, ⟨blanks, core, hblanks, hform, rfl⟩, hblanks', htext⟩ := h
  have hvalue : ∃ es, form.Form es core ∧ g.settings = giveAll give record.default es :=
    ⟨es, hform, (hg.giveAll_eq hform).symm⟩
  exact fits_record.takes_read.readDocument_eq_ok_iff.mpr
    ⟨blanks ++ core, blanks', ⟨blanks, core, hblanks, hvalue, rfl⟩, hblanks', htext⟩

/-- The key of the names has an escape, and they come as an array of two, one
spelled with both kinds of escapes and one with a pair. The policy is an
object. -/
theorem Given.ofJson_of_written_escaped :
    let document := " \x7b\"missing_wrapper\" : \x7b\"reject\":null\x7d,\t" ++
      "\"wr\\u0061ppers\":[\"a\\n\\u00e9\", \"\\uD83d\\uDE00\"]\x7d\n"
    let g : Given := ⟨⟨some "a\né", some "😀", none⟩, some .reject⟩
    g.Written document ∧ ofJson document = .ok g.settings := by
  intro document g
  have hspace : Blanks [' '] := by decide
  have htab : Blanks ['\t'] := by decide
  have hkey : Quoted "wrappers" _ :=
    have hunit : HexUnit 'a'.toNat ['0', '0', '6', '1'] := hexUnit?_eq_some_iff.mp (by decide)
    have hbefore : Spelled ['w', 'r'] _ := .raw (by simp [Plain])
    have hbehind : Spelled ['p', 'p', 'e', 'r', 's'] _ := .raw (by simp [Plain])
    .marks (hbefore.append (.cons (.unit hunit) hbehind))
  have hname : Quoted "a\né" _ :=
    have hunit : HexUnit 'é'.toNat ['0', '0', 'e', '9'] := hexUnit?_eq_some_iff.mp (by decide)
    have hbefore : Spelled ['a'] _ := .raw (by simp [Plain])
    have hsign : ('n', '\n') ∈ shortEscapes := by decide
    .marks (hbefore.append (.cons (.short hsign) (.cons (.unit hunit) .nil)))
  have hname' : Quoted "😀" _ :=
    have hhigh : HexUnit 0xD83D ['D', '8', '3', 'd'] := hexUnit?_eq_some_iff.mp (by decide)
    have hlow : HexUnit 0xDE00 ['D', 'E', '0', '0'] := hexUnit?_eq_some_iff.mp (by decide)
    have hpair : Spelling '😀' _ :=
      .pair hhigh hlow (by decide) (by decide) (by decide) (by decide) (by decide)
    .marks (.cons hpair .nil)
  let names := [(Scalar.number, "a\né"), (Scalar.string, "😀")]
  have hnames : wrapperForm.Form names _ :=
    have hitems : Items ']' wrapperForm.Value true names _ :=
      .item (.first .nil) hname (.item (.comma .nil hspace) hname' (.close .nil))
    .array (by decide) hitems
  have hpolicy : MissingWrapper.vocabulary.Form .reject _ :=
    have hword : Quoted "reject" _ := .raw (by simp [Plain])
    .member (.none hword) .nil (.none .word) .nil
  let es := [Entry.missingWrapper .reject, Entry.wrappers names]
  have hform : form.Form es _ :=
    have hkey' : Quoted "missing_wrapper" _ := .raw (by simp [Plain])
    .object (by decide) (by decide)
      (.item (.first .nil) (.colon hkey' hspace ⟨[' '], _, hspace, hpolicy, rfl⟩)
        (.item (.comma .nil htab) (.colon hkey .nil (.none hnames)) (.close .nil)))
  have hgives : g.Of es := by
    constructor
    · intro k name
      cases k <;> simp [g, es, names, PerScalar.get, eq_comm]
    · intro policy
      simp [g, es, eq_comm]
  have hwritten : g.Written document :=
    ⟨es, _, ['\n'], hgives, ⟨[' '], _, hspace, hform, rfl⟩, by decide, by decide⟩
  exact ⟨hwritten, ofJson_of_written hwritten⟩

/-- The names that are given, in slot order. -/
def Given.names (g : Given) : List (Scalar × String) :=
  Scalar.all.filterMap fun k => (g.wrappers.get k).map (k, ·)

/-- Entries for what is given. -/
def Given.entries (g : Given) : List Entry :=
  .wrappers g.names :: g.missingWrapper.toList.map .missingWrapper

theorem Given.of_entries (g : Given) : g.Of g.entries where
  wrappers k name := by simp [entries, names, Scalar.mem_all]
  missingWrapper policy := by simp [entries]

theorem Given.exists_form_names (g : Given) : ∃ text, wrapperForm.Form g.names text := by
  have hnames : wrapperForm.names = Scalar.all.map Scalar.name := rfl
  refine RecordForm.exists_form ?_ (fun e _ => ?_) fun e _ => exists_quoted e.2
  rotate_left
  · rw [hnames]
    exact List.mem_map_of_mem (Scalar.mem_all e.1)
  obtain ⟨⟨number, string, boolean⟩, _⟩ := g
  cases number <;> cases string <;> cases boolean <;>
    simp [names, wrapperForm, Scalar.all, Scalar.name, PerScalar.get]

/-- Whatever can be given can be written. -/
theorem Given.exists_written (g : Given) : ∃ document, g.Written document := by
  have hform : ∃ text, form.Form g.entries text := by
    refine RecordForm.exists_form ?_ (fun e _ => ?_) fun e he => ?_
    · unfold entries
      cases g.missingWrapper <;> simp [form]
    · cases e <;> simp [form]
    · cases e with
      | wrappers names =>
          have hnames : names = g.names := by simpa [entries] using he
          exact hnames ▸ g.exists_form_names
      | missingWrapper policy =>
          obtain ⟨text, hword⟩ := exists_quoted policy.name
          exact ⟨text, .string hword⟩
  obtain ⟨text, hform⟩ := hform
  exact ⟨String.ofList text, g.entries, text, [], g.of_entries, .none hform, .nil, by simp⟩

/-- Nothing else is read. -/
theorem exists_given_of_ofJson {document : String} {c : Settings} (h : ofJson document = .ok c) :
    ∃ g : Given, g.Written document ∧ c = g.settings := by
  obtain ⟨_, blanks', ⟨blanks, core, hblanks, ⟨es, hform, rfl⟩, rfl⟩, hblanks', htext⟩ :=
    fits_record.takes_read.readDocument_eq_ok_iff.mp h
  obtain ⟨g, hg⟩ := Given.exists_of hform
  exact ⟨g, ⟨es, _, blanks', hg, ⟨blanks, core, hblanks, hform, rfl⟩, hblanks', htext⟩,
    hg.giveAll_eq hform⟩

theorem exists_given_of_ofJson_array :
    let document := "[[\"N\\u0062\"],\"reject\"] "
    let c : Settings := ⟨⟨"Nb", "String", "Boolean"⟩, .reject⟩
    ofJson document = .ok c ∧ ∃ g : Given, g.Written document ∧ c = g.settings :=
  have h : ofJson "[[\"N\\u0062\"],\"reject\"] " =
      .ok ⟨⟨"Nb", "String", "Boolean"⟩, .reject⟩ := by cbv
  ⟨h, exists_given_of_ofJson h⟩

end BoxedTypes.Settings

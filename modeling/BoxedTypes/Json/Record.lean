import BoxedTypes.Json.Value

/-!
# Records in documents

A record has named fields, each with a default. A document writes it in one of
two forms: as an object whose members are some of the fields, in any order, or
as an array of the values of the first few fields, in the order of their
declaration. Fields that are not written keep their defaults.

An object may give a field once, and no member may have a name that is not a
field. Such a name is refused as soon as it is read, before anything behind it
is looked at; what comes next decides only where the refusal is placed. So each
member that is read uses up one field, and an object is read in at most as many
steps as the record has fields.
-/

namespace BoxedTypes.Json

/-- A field of a record `ρ`: its name, and how to read its value into the
record. -/
structure Field (ρ : Type) where
  name : String
  read : ρ → Reader ρ

/-- A record: what to call it in a refusal, its fields in order, and its value
when nothing is written. -/
structure Record (ρ : Type) where
  title : String
  fields : List (Field ρ)
  default : ρ

/-- What comes next in a list of members or elements, and the text behind its
separator. -/
inductive Next where
  | close (rest : List Char)
  | item (rest : List Char)

/-- Finds the next key of an object, up to behind its opening mark. Keys after
the first one have a comma in front. -/
def nextKey (first : Bool) (text : List Char) : Except Fault Next :=
  match skipBlanks text, first with
  | [], _ => .error (faultAtEnd .endInObject)
  | '\x7d' :: rest, _ => .ok (.close rest)
  | '"' :: rest, true => .ok (.item rest)
  | rest, true => .error (faultWithin .keyMustBeString rest)
  | ',' :: rest, false =>
    match skipBlanks rest with
    | '"' :: rest => .ok (.item rest)
    | [] => .error (faultAtEnd .endInValue)
    | '\x7d' :: rest => .error (faultWithin .trailingComma ('\x7d' :: rest))
    | rest => .error (faultWithin .keyMustBeString rest)
  | rest, false => .error (faultWithin .expectedCommaOrBrace rest)

/-- Finds the next element of an array. Elements after the first one have a
comma in front. -/
def nextElement (first : Bool) (text : List Char) : Except Fault Next :=
  match skipBlanks text, first with
  | [], _ => .error (faultAtEnd .endInList)
  | ']' :: rest, _ => .ok (.close rest)
  | rest, true => .ok (.item rest)
  | ',' :: rest, false =>
    match skipBlanks rest with
    | [] => .error (faultAtEnd .endInValue)
    | ']' :: rest => .error (faultWithin .trailingComma (']' :: rest))
    | rest => .ok (.item rest)
  | rest, false => .error (faultWithin .expectedCommaOrBracket rest)

/-- Reads the end of an array that has a value for every field. -/
def readArrayEnd (text : List Char) : Except Fault (List Char) :=
  match skipBlanks text with
  | [] => .error (faultAtEnd .endInList)
  | ']' :: rest => .ok rest
  | ',' :: rest =>
    match skipBlanks rest with
    | ']' :: rest => .error (faultWithin .trailingComma (']' :: rest))
    | rest => .error (faultWithin .trailingCharacters rest)
  | rest => .error (faultWithin .trailingCharacters rest)

namespace Record

variable {ρ : Type}

/-- The reason to refuse a key that is no field still to be given. -/
def refusal (r : Record ρ) (key : String) : Reason :=
  let names := r.fields.map (·.name)
  if key ∈ names then .duplicateField key else .unknownField key names

/-- A refused key is placed behind the brace that follows it, or behind the key
itself if none does. -/
def afterRefused (text : List Char) : List Char :=
  match skipBlanks text with
  | '\x7d' :: rest => rest
  | rest => rest

/-- Reads the members of an object and its closing brace; `pending` are the
fields not given so far. -/
def readMembers (r : Record ρ) (pending : List (Field ρ)) (first : Bool) (value : ρ) : Reader ρ :=
  fun text =>
    match nextKey first text with
    | .error f => .error f
    | .ok (.close rest) => .ok (value, rest)
    | .ok (.item rest) =>
      match readBody rest with
      | .error f => .error f
      | .ok (key, rest) =>
        let key := String.ofList key
        match h : pending.find? (·.name == key) with
        | none => .error (faultBefore (r.refusal key) (afterRefused rest))
        | some field =>
          match readColon rest with
          | .error f => .error f
          | .ok rest =>
            match field.read value rest with
            | .error f => .error f
            | .ok (value, rest) =>
              have : (pending.eraseP (·.name == key)).length < pending.length := by
                have hm := List.mem_of_find?_eq_some h
                rw [List.length_eraseP_of_mem hm (List.find?_some h)]
                exact Nat.sub_lt (List.length_pos_of_mem hm) Nat.one_pos
              readMembers r (pending.eraseP (·.name == key)) false value rest
termination_by pending.length

/-- Reads the elements of an array and its closing bracket; `pending` are the
fields not given so far. -/
def readElements : List (Field ρ) → Bool → ρ → Reader ρ
  | [], _, value => fun text => (readArrayEnd text).map (value, ·)
  | field :: pending, first, value => fun text =>
    match nextElement first text with
    | .error f => .error f
    | .ok (.close rest) => .ok (value, rest)
    | .ok (.item rest) =>
      match field.read value rest with
      | .error f => .error f
      | .ok (value, rest) => readElements pending false value rest

/-- Reads a record in either of its forms. -/
def read (r : Record ρ) : Reader ρ := fun text =>
  match skipBlanks text with
  | [] => .error (faultAtEnd .endInValue)
  | '\x7b' :: rest => r.readMembers r.fields true r.default rest
  | '[' :: rest => readElements r.fields true r.default rest
  | rest => .error (wrongType r.title rest)

end Record

end BoxedTypes.Json

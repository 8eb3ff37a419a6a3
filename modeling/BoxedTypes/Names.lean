import BoxedTypes.Breach
import BoxedTypes.Pool

/-!
# Class names

The names of the declared classes are interned, and an atom carries the symbol
of a name in place of the name. Symbols are handed out in the order of first
declaration, so their order is that order and not the alphabet.

A symbol means something only together with the names that it was taken from.
`resolve` is for symbols that the caller promises to have got there, and reports
a symbol that reaches beyond them as a breach.
-/

namespace BoxedTypes

/-- The class names interned so far. -/
abbrev Names := Pool String

namespace Names

/-- The symbol of a name, and the names with that one among them. -/
def declare (names : Names) (name : String) : Symbol × Names :=
  let (h, names) := names.intern name
  (⟨h⟩, names)

/-- The symbol of a name, if it was declared. -/
def symbol? (names : Names) (name : String) : Option Symbol := (names.find? name).map Symbol.mk

/-- The name of a symbol. -/
def resolve (names : Names) (symbol : Symbol) : Except Breach String :=
  match names.get? symbol.index with
  | some name => .ok name
  | none => .error (.unnamedSymbol symbol names.size)

theorem resolve_eq_ok_iff {names : Names} {symbol : Symbol} {name : String} :
    names.resolve symbol = .ok name ↔ names.get? symbol.index = some name := by
  unfold resolve
  cases h : names.get? symbol.index with
  | none => simp
  | some _ => simp

/-- A name once resolved is resolved to the same name whatever is declared
later. -/
theorem resolve_declare_of_resolve_eq_ok {names : Names} {symbol : Symbol} {name : String}
    (other : String) (h : names.resolve symbol = .ok name) :
    (names.declare other).2.resolve symbol = .ok name := by
  rw [resolve_eq_ok_iff] at h ⊢
  exact Pool.get?_intern_of_get?_eq_some h

end Names

end BoxedTypes

import BoxedTypes.Proofs.OwnSymbols
import Mathlib.Data.Fintype.EquivFin

/-!
# Answers are permanent

A registry holds bare handles into a lattice that goes on growing, and so does
every caller. What makes that safe is that an answer, once given, is given for
good. A reading looks at shapes, at names and at the handles of both, and all
three are only ever added to; `Kept` is what that does to a reading, which may
start to answer but never changes its answer or stops.

Operations that intern are no readings, but asked again they behave like one:
all that they would intern is there already. `Settles` says so of an action, and
it goes through the ways in which actions are put together, so a union, which is
a run of joins, and a freeze are settled because a join is. Neither fact needs
room for handles. A lattice that has outgrown them gives out handles of other
types, but it gives the same ones every time.

A lattice is a value. To go on from a copy of it is to go on from it, with
another list of calls.
-/

namespace BoxedTypes

/-- The second result answers whenever the first one does, in the same way. -/
def Kept {ε α : Type} (x y : Except ε α) : Prop := ∀ a, x = .ok a → y = .ok a

namespace Kept

variable {ε α β : Type} {x y : Except ε α}

theorem refl (x : Except ε α) : Kept x x := fun _ h => h

theorem bind {f g : α → Except ε β} (hxy : Kept x y) (hfg : ∀ a, Kept (f a) (g a)) :
    Kept (x >>= f) (y >>= g) := by
  intro b h
  cases x with
  | error e => cases h
  | ok a =>
      rw [hxy a rfl]
      exact hfg a b h

theorem map (hxy : Kept x y) (f : α → β) : Kept (x.map f) (y.map f) := by
  intro b h
  cases x with
  | error e => cases h
  | ok a =>
      rw [hxy a rfl]
      exact h

theorem mapM {f g : α → Except ε β} (hfg : ∀ a, Kept (f a) (g a)) (as : List α) :
    Kept (as.mapM f) (as.mapM g) := by
  induction as with
  | nil => exact refl _
  | cons a as ih =>
      rw [List.mapM_cons, List.mapM_cons]
      exact (hfg a).bind fun b => ih.bind fun bs => refl _

theorem forM {f g : α → Except ε Unit} (hfg : ∀ a, Kept (f a) (g a)) (as : List α) :
    Kept (as.forM f) (as.forM g) := by
  induction as with
  | nil => exact refl _
  | cons a as ih => exact (hfg a).bind fun _ => ih

end Kept

namespace UnionTypes

variable {u v w : UnionTypes}

/-- Every reading that the first lattice answers has the same answer in the
second. -/
structure KeepsAnswers (u v : UnionTypes) : Prop where
  shape? : ∀ id s, u.shape? id = some s → v.shape? id = some s
  lookup : ∀ name id, u.lookup name = some id → v.lookup name = some id
  objectName : ∀ symbol, Kept (u.objectName symbol) (v.objectName symbol)
  display : ∀ id, Kept (u.display id) (v.display id)
  isBelow : ∀ a b, Kept (u.isBelow a b) (v.isBelow a b)
  admits : ∀ (r : Registry TypeId) k ty, Kept (r.admits u k ty) (r.admits v k ty)
  admitsNumberOrString : ∀ (r : Registry TypeId) ty,
    Kept (r.admitsNumberOrString u ty) (r.admitsNumberOrString v ty)
  dump : ∀ r : Registry TypeId, Kept (r.dump u) (r.dump v)

/-! ## Readings -/

namespace Grows

theorem shape (h : u.Grows v) (id : TypeId) : Kept (u.shape id) (v.shape id) := by
  intro s hs
  rw [shape_eq_ok_iff] at hs ⊢
  exact h.shape? hs

theorem objectName (h : u.Grows v) (symbol : Symbol) :
    Kept (u.objectName symbol) (v.objectName symbol) := by
  intro name hname
  rw [UnionTypes.objectName, Names.resolve_eq_ok_iff] at hname ⊢
  exact h.names.get? hname

theorem lookup (h : u.Grows v) {name : String} {id : TypeId}
    (hid : u.lookup name = some id) : v.lookup name = some id := by
  simp only [UnionTypes.lookup, Names.symbol?, Option.bind_eq_bind,
    Option.bind_eq_some_iff, Option.map_eq_some_iff] at hid ⊢
  obtain ⟨symbol, ⟨n, hn, hsymbol⟩, i, hi, hid⟩ := hid
  exact ⟨symbol, ⟨n, h.names.find? hn, hsymbol⟩, i, h.shapes.find? hi, hid⟩

theorem isBelow (h : u.Grows v) (a b : TypeId) : Kept (u.isBelow a b) (v.isBelow a b) := by
  intro x hx
  by_cases hab : a = b
  · rw [UnionTypes.isBelow, if_pos hab] at hx ⊢
    exact hx
  · rw [UnionTypes.isBelow, if_neg hab] at hx
    cases hs : u.shape a with
    | error e =>
        rw [hs] at hx
        cases hx
    | ok s =>
        cases ht : u.shape b with
        | error e =>
            rw [hs, ht] at hx
            cases hx
        | ok t =>
            rw [hs, ht] at hx
            rw [UnionTypes.isBelow, if_neg hab, h.shape a s hs, h.shape b t ht]
            exact hx

theorem atomName (h : u.Grows v) (a : Atom) : Kept (u.atomName a) (v.atomName a) := by
  cases a with
  | number | string | boolean | null | undefined => exact Kept.refl _
  | object symbol => exact h.objectName symbol

theorem showShape (h : u.Grows v) (s : Shape) : Kept (u.showShape s) (v.showShape s) := by
  cases s with
  | unknown => exact Kept.refl _
  | union as =>
      rw [UnionTypes.showShape, UnionTypes.showShape]
      split
      · exact Kept.refl _
      · exact (Kept.mapM h.atomName _).map _

theorem display (h : u.Grows v) (id : TypeId) : Kept (u.display id) (v.display id) :=
  (h.shape id).bind h.showShape

theorem dump (h : u.Grows v) (r : Registry TypeId) : Kept (r.dump u) (r.dump v) := by
  refine Kept.bind (Kept.mapM (fun k => ?_) _) fun lines => ?_
  · refine (h.display _).bind fun boxed => ?_
    exact (h.display _).bind fun composite => Kept.refl _
  · exact (h.display _).bind fun numberOrString => Kept.refl _

theorem check (h : u.Grows v) (lower upper : TypeId) (x y : Except Breach Breach) :
    Kept (Registry.check u lower upper x) (Registry.check v lower upper y) := by
  intro _ hx
  exact Registry.check_eq_ok_iff.mpr (h.isBelow lower upper true (Registry.check_eq_ok_iff.mp hx))

theorem checkKind (h : u.Grows v) (r : Registry TypeId) (k : Scalar) :
    Kept (r.checkKind u k) (r.checkKind v k) := by
  refine (h.check _ _ _ _).bind fun _ => ?_
  show Kept (if TypeSystem.isUnknown u (r.boxed.get k) = true then _ else _)
    (if TypeSystem.isUnknown u (r.boxed.get k) = true then _ else _)
  split
  · exact Kept.refl _
  · exact h.check _ _ _ _

theorem checkLaws (h : u.Grows v) (r : Registry TypeId) :
    Kept (r.checkLaws u) (r.checkLaws v) :=
  (Kept.forM (h.checkKind r) _).bind fun _ => Kept.forM (fun _ => h.check _ _ _ _) _

theorem keepsAnswers (h : u.Grows v) : u.KeepsAnswers v where
  shape? _ _ := h.shape?
  lookup _ _ := h.lookup
  objectName := h.objectName
  display := h.display
  isBelow := h.isBelow
  admits r k ty := h.isBelow ty (r.composites.get k)
  admitsNumberOrString r ty := h.isBelow ty r.numberOrString
  dump := h.dump

end Grows

/-! ## Actions asked again -/

/-- Where the action has succeeded, it succeeds ever after, with the same answer
and with nothing left to intern. -/
structure Settles {ε α : Type} (x : EStateM ε UnionTypes α) : Prop where
  onlyGrows : OnlyGrows x
  again : ∀ {u v w : UnionTypes} {a : α},
    u.Coherent → x u = .ok a v → v.Grows w → x w = .ok a w

namespace Settles

variable {ε ε' α β : Type} {x : EStateM ε UnionTypes α}

theorem pure (a : α) : Settles (Pure.pure a : EStateM ε UnionTypes α) := by
  refine ⟨OnlyGrows.pure a, fun _ h _ => ?_⟩
  cases h
  rfl

theorem bind {f : α → EStateM ε UnionTypes β} (hx : Settles x) (hf : ∀ a, Settles (f a)) :
    Settles (x >>= f) := by
  refine ⟨hx.onlyGrows.bind fun a => (hf a).onlyGrows, fun hu h hvw => ?_⟩
  obtain ⟨a, t, hxu, hft⟩ := bind_ok_cases h
  -- The first action is asked again later than in the lattice it left behind.
  have htv := (hf a).onlyGrows.of_ok hft
  rw [bind_of_ok (hx.again hu hxu (htv.trans hvw))]
  exact (hf a).again ((hx.onlyGrows.of_ok hxu).coherent hu) hft hvw

/-- A sequence taken up again, after its first action and on a lattice where the
rest of it does the same, does what it did from the start. -/
theorem resume {f : α → EStateM ε UnionTypes β} {a : α} (hx : Settles x) (hu : u.Coherent)
    (h : x u = .ok a v) (hvw : v.Grows w) (hrest : f a w = f a v) : (x >>= f) w = (x >>= f) u := by
  rw [bind_of_ok (hx.again hu h hvw), bind_of_ok h]
  exact hrest

theorem foldlM {f : β → α → EStateM ε UnionTypes β} (hf : ∀ b a, Settles (f b a))
    (as : List α) (b : β) : Settles (as.foldlM f b) := by
  induction as generalizing b with
  | nil => exact pure b
  | cons a as ih =>
      rw [List.foldlM_cons]
      exact (hf b a).bind ih

theorem map (hx : Settles x) (f : α → β) : Settles (f <$> x) := by
  refine ⟨hx.onlyGrows.map f, fun hu h hvw => ?_⟩
  obtain ⟨a, hxu, rfl⟩ := map_ok_cases h
  exact map_of_ok (hx.again hu hxu hvw)

theorem adaptExcept (hx : Settles x) (f : ε → ε') :
    Settles (EStateM.adaptExcept f x) := by
  refine ⟨hx.onlyGrows.adaptExcept f, fun hu h hvw => ?_⟩
  exact adaptExcept_of_ok (hx.again hu (adaptExcept_ok_cases h) hvw)

theorem reading {read : UnionTypes → Except ε α}
    (hread : ∀ {u v : UnionTypes}, u.Grows v → Kept (read u) (read v)) :
    Settles (TypeSystem.reading read) := by
  refine ⟨OnlyGrows.reading read, fun _ h hvw => ?_⟩
  obtain ⟨hu, rfl⟩ := reading_ok_cases h
  exact reading_of_ok (hread hvw _ hu)

end Settles

theorem intern_of_grows {s : Shape} (h : (u.intern s).2.Grows w) :
    w.intern s = ((u.intern s).1, w) := by
  have hfind : w.shapes.find? s = some (u.shapes.intern s).1 :=
    h.shapes.find? (Pool.find?_intern u.shapes s)
  rw [intern, Pool.intern_of_find?_eq_some hfind]
  rfl

theorem object_of_grows {name : String} (h : (u.object name).2.Grows w) :
    w.object name = ((u.object name).1, w) := by
  have hfind : w.names.find? name = some (u.names.intern name).1 :=
    h.names.find? (Pool.find?_intern u.names name)
  have hintern := intern_of_grows (u := { u with names := (u.names.intern name).2 }) h
  rw [object, Names.declare, Pool.intern_of_find?_eq_some hfind]
  exact hintern

theorem settles_answering {f : UnionTypes → TypeId × UnionTypes}
    (hf : ∀ u : UnionTypes, u.Grows (f u).2)
    (hagain : ∀ {u w : UnionTypes}, (f u).2.Grows w → f w = ((f u).1, w)) :
    Settles (answering f) := by
  refine ⟨onlyGrows_answering hf, fun _ h hvw => ?_⟩
  cases h
  rw [answering, hagain hvw]

theorem settles_join (a b : TypeId) : Settles (join a b) := by
  refine ⟨onlyGrows_join a b, fun {u v w c} hu h hvw => ?_⟩
  have huv := (onlyGrows_join a b).of_ok h
  have huw := huv.trans hvw
  rcases hu.join_ok_cases h with ⟨hab, -, hc, -⟩ | ⟨s, t, hs, ht, hint⟩
  · rw [join, if_pos hab, hc]
  · have hgrows : (u.intern (s.join t)).2.Grows w := by rw [hint]; exact hvw
    rw [(huw.coherent hu).join_eq_intern (huw.shape? hs) (huw.shape? ht),
      intern_of_grows hgrows, hint]

theorem settles_union (members : List TypeId) : Settles (union members) :=
  Settles.foldlM settles_join members .bottom

theorem settles_composite (k : Scalar) (boxed : TypeId) :
    Settles (Registry.composite (σ := UnionTypes) k boxed) := by
  refine ⟨onlyGrows_composite k boxed, fun hu h hvw => ?_⟩
  unfold Registry.composite at h
  split at h
  · next hunknown =>
      cases h
      exact if_pos hunknown
  · next hunknown =>
      exact (if_neg hunknown).trans ((settles_join (.ofScalar k) boxed).again hu h hvw)

theorem settles_derive (boxed : PerScalar TypeId) :
    Settles (Registry.derive (σ := UnionTypes) boxed) := by
  refine (settles_composite _ _).bind fun number => ?_
  refine (settles_composite _ _).bind fun string => ?_
  refine (settles_composite _ _).bind fun boolean => ?_
  exact (settles_join number string).bind fun _ => Settles.pure _

theorem settles_freeze (d : Draft TypeId) :
    Settles (d.freeze : EStateM FreezeError UnionTypes (Registry TypeId)) := by
  unfold Draft.freeze
  split
  · exact ⟨fun u => Grows.refl u, fun _ h _ => by cases h⟩
  · next boxed _ =>
      refine Settles.adaptExcept (Settles.bind (settles_derive boxed) fun r => ?_) _
      exact (Settles.reading fun h => h.checkLaws r).bind fun _ => Settles.pure r

theorem settles_ofDeclarations (decls : Declarations TypeId) (c : Settings) :
    Settles (Registry.ofDeclarations decls c :
      EStateM FreezeError UnionTypes (Registry TypeId)) := by
  refine ⟨onlyGrows_ofDeclarations decls c, fun {u v w r} hu h hvw => ?_⟩
  -- What is offered for a missing name is the same handle in every lattice.
  have hseed : Draft.seed w decls c .new = Draft.seed u decls c .new := rfl
  unfold Registry.ofDeclarations at h ⊢
  rw [hseed]
  split at h
  · cases h
  · next d _ => exact (settles_freeze d).again hu h hvw

theorem settles_run (c : Call) : Settles c.run := by
  cases c with
  | intern s => exact settles_answering (fun u => grows_intern u s) intern_of_grows
  | atom a => exact settles_answering (fun u => grows_intern u _) intern_of_grows
  | null => exact settles_answering (fun u => grows_intern u _) intern_of_grows
  | undefined => exact settles_answering (fun u => grows_intern u _) intern_of_grows
  | object name => exact settles_answering (fun u => grows_object u name) object_of_grows
  | join a b => exact ((settles_join a b).map _).adaptExcept _
  | union members => exact ((settles_union members).map _).adaptExcept _
  | freeze d => exact (settles_freeze d).map _
  | ofDeclarations decls c => exact (settles_ofDeclarations decls c).map _

/-! ## A symbol that has no name yet

A symbol can reach beyond the names of its lattice, and then no type with it can
be shown. It can once there are names enough, and there always may be. -/

theorem exists_undeclared (names : Names) : ∃ name, names.find? name = none := by
  obtain ⟨name, hname⟩ := Infinite.exists_notMem_finset names.handles.keys.toFinset
  refine ⟨name, Std.HashMap.getElem?_eq_none fun hmem => hname ?_⟩
  rw [List.mem_toFinset]
  exact Std.HashMap.mem_keys.mpr hmem

theorem exists_more_names (u : UnionTypes) (n : Nat) :
    ∃ more : List Call, n ≤ (after more u).names.size := by
  induction n with
  | zero => exact ⟨[], Nat.zero_le _⟩
  | succ n ih =>
      obtain ⟨more, hmore⟩ := ih
      obtain ⟨name, hname⟩ := exists_undeclared (after more u).names
      refine ⟨more ++ [.object name], ?_⟩
      rw [after_append]
      show n + 1 ≤ ((after more u).names.intern name).2.size
      rw [Pool.size_intern_of_fresh hname]
      omega

theorem exists_display {id : TypeId} (hid : u.Issued id)
    (hnames : UInt32.size ≤ u.names.size) : ∃ text, u.display id = .ok text := by
  obtain ⟨s, hs⟩ := issued_iff.mp hid
  exact exists_display_of_knows hs fun symbol _ => Names.knows_of_size hnames symbol

theorem issued_of_unnamed {id : TypeId} {symbol : Symbol} {n : Nat}
    (h : u.display id = .error (.unnamedSymbol symbol n)) : u.Issued id := by
  cases hs : u.shape? id with
  | some s => exact issued_iff.mpr ⟨s, hs⟩
  | none =>
      rw [display, shape, hs] at h
      cases h

/-- What a lattice has answered it goes on answering in the same way, whatever
is asked of it later. The calls that succeeded on the way to it would succeed
again, with the same handles and with nothing interned, shape or name. And a
type that cannot be shown for want of a name can be shown after some further
calls. -/
theorem answers_permanent (calls more : List Call) :
    let u := after calls new
    let v := after more u
    u.KeepsAnswers v ∧
    (∀ earlier call later ids w, calls = earlier ++ call :: later →
      call.run (after earlier new) = .ok ids w → call.run v = .ok ids v) ∧
    ∀ id symbol n, u.display id = .error (.unnamedSymbol symbol n) →
      ∃ more' text, (after more' u).display id = .ok text := by
  intro u v
  refine ⟨(grows_after more u).keepsAnswers, ?_, ?_⟩
  · intro earlier call later ids w hcalls hrun
    have hu : u = after later w := by
      show after calls new = _
      rw [hcalls, after_append, after_cons, hrun, leftBehind]
    have hwv : w.Grows v := by
      refine (grows_after later w).trans ?_
      rw [← hu]
      exact grows_after more u
    exact (settles_run call).again (coherent_after earlier) hrun hwv
  · intro id symbol n h
    obtain ⟨more', hmore'⟩ := exists_more_names u UInt32.size
    have hid := (grows_after more' u).issued (issued_of_unnamed h)
    obtain ⟨text, htext⟩ := exists_display hid hmore'
    exact ⟨more', text, htext⟩

/-- A union that broke off has left a type behind and another type holds a
symbol with no name. The one is shown as before, the other can be shown later,
and the class is declared again for nothing. -/
theorem answers_permanent_after_failed_union :
    let calls : List Call :=
      [.object "Number", .atom (.object ⟨7⟩), .union [.ofScalar .number, ⟨5⟩, ⟨99⟩]]
    let more : List Call := [.object "String", .join ⟨6⟩ ⟨7⟩]
    let u := after calls new
    let v := after more u
    (u.display ⟨7⟩ = .ok "number|Number" ∧ v.display ⟨7⟩ = .ok "number|Number") ∧
    (Call.run (.object "Number") new = .ok [(new.object "Number").1] (new.object "Number").2 ∧
      Call.run (.object "Number") v = .ok [(new.object "Number").1] v) ∧
    u.display ⟨6⟩ = .error (.unnamedSymbol ⟨7⟩ 1) ∧
      ∃ more' text, (after more' u).display ⟨6⟩ = .ok text :=
  have ⟨hkeeps, hagain, hlater⟩ := answers_permanent
    [.object "Number", .atom (.object ⟨7⟩), .union [.ofScalar .number, ⟨5⟩, ⟨99⟩]]
    [.object "String", .join ⟨6⟩ ⟨7⟩]
  ⟨⟨by cbv, hkeeps.display ⟨7⟩ _ (by cbv)⟩,
    ⟨rfl, hagain [] (.object "Number") _ _ (new.object "Number").2 rfl rfl⟩,
    by cbv, hlater ⟨6⟩ ⟨7⟩ 1 (by cbv)⟩

end UnionTypes

end BoxedTypes

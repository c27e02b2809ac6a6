import Mathlib
import Parley.Proofs.Compound

/-
Defaults that fit the other side.

In lenient mode a name that nothing defines stands for a value of the type it meets: false,
zero or the empty text.  So an ordering of such a name never fails, and an addition to it
leaves a value equal to what was added; further additions of texts, or of integers and truth
values, then leave their sum (`defaultsFit`).

The right side may be a call, which others can interrupt.  So a condition and an assignment
are described as their right side and what follows at once when it has a value, in the
session as the right side left it.

An addition also writes what it adds for the log, and that fails for an integer of more
digits than the limit.  A plain assignment would have stored the same integer; with an
addition the name stays undefined (`mutate_vault`).

That a float is what its parts are packed to is a fact of Batteries which no single module of
Mathlib brings with it.  This is why Mathlib is imported as a whole.
-/

namespace Parley

/-! ## Zero and a float -/

namespace Number

open Float.Model

theorem pack_unpack (m : Float.Model) : Float.Model.pack m.unpack = m := by
  cases m with
  | mk bits valid =>
    cases bits
    simp only [Float.Model.pack, Float.Model.unpack, Float.Model.mk.injEq, UInt64.ofBitVec.injEq]
    exact UnpackedFloat.pack_unpack_of_valid valid

theorem compare_self {u : UnpackedFloat} (h : u ≠ .notANumber) : u.compare u = some .eq := by
  cases u with
  | notANumber => exact absurd rfl h
  | infinity s => cases s <;> rfl
  | zero s => rfl
  | finite s m e hm =>
    have he : compare e e = .eq := compare_eq_iff_eq.mpr rfl
    have hme : compare m m = .eq := compare_eq_iff_eq.mpr rfl
    cases s <;> simp only [UnpackedFloat.compare, he, hme] <;> rfl

/-- Floats compare as what they stand for. -/
theorem compare?_of_unpack {x y : Float}
    (hxy : x.toModel.unpack.compare y.toModel.unpack = some .eq)
    (hyx : y.toModel.unpack.compare x.toModel.unpack = some .eq) :
    Numeric.compare? (.float x) (.float y) = some .eq := by
  have hlt : ¬ x < y := fun h => by
    have hless : (x.toModel.unpack.compare y.toModel.unpack == some .lt) = true :=
      of_decide_eq_true h
    rw [hxy] at hless
    cases hless
  have hgt : ¬ y < x := fun h => by
    have hless : (y.toModel.unpack.compare x.toModel.unpack == some .lt) = true :=
      of_decide_eq_true h
    rw [hyx] at hless
    cases hless
  have heq : (x == y) = true := by
    show (x.toModel.unpack.compare y.toModel.unpack == some .eq) = true
    rw [hxy]
    rfl
  rw [Numeric.compare?, if_neg hlt, if_neg hgt, if_pos heq]

/-- The float that the integer zero is rounded to. -/
def zero : Float := ofRatio false 0 1

theorem ofInt?_zero : ofInt? 0 = some zero := by
  have hinf : zero.isInf = false := by decide +kernel
  show (if zero.isInf then none else some zero) = _
  rw [hinf]
  rfl

theorem zero_add_eq (x : Float) : zero + x =
    .ofModel (.pack (UnpackedFloat.add .binary64 (.zero .positive) x.toModel.unpack)) := rfl

/-- Zero and a float make a float equal to it.  They need not make the float itself: a
negative zero becomes positive. -/
theorem compare?_zero_add {x : Float} (h : x.isNaN = false) : (zero + x).isNaN = false ∧
    Numeric.compare? (.float (zero + x)) (.float x) = some .eq := by
  by_cases hzero : ∃ s, x.toModel.unpack = .zero s
  · obtain ⟨s, hs⟩ := hzero
    have hsum : (zero + x).toModel.unpack = .zero .positive := by
      rw [zero_add_eq, hs]
      cases s <;> rfl
    refine ⟨?_, compare?_of_unpack ?_ ?_⟩
    · show (zero + x).toModel.unpack.isNaN = false
      rw [hsum]
      rfl
    · rw [hsum, hs]
      rfl
    · rw [hsum, hs]
      rfl
  · have hadd : UnpackedFloat.add .binary64 (.zero .positive) x.toModel.unpack =
        x.toModel.unpack := by
      cases hu : x.toModel.unpack with
      | zero s => exact absurd ⟨s, hu⟩ hzero
      | _ => rfl
    have hsum : zero + x = x := by
      rw [zero_add_eq, hadd, pack_unpack]
    have hx : x.toModel.unpack ≠ .notANumber := by
      intro hnan
      have hnot : x.toModel.unpack.isNaN = false := h
      rw [hnan] at hnot
      cases hnot
    rw [hsum]
    exact ⟨h, compare?_of_unpack (compare_self hx) (compare_self hx)⟩

end Number

/-! ## Sums of integers and of texts -/

namespace Value

theorem eq_of_whole {v : Value} {n : Int} (hv : v.numeric? = some (.int n)) :
    (int n).eq v = true := by
  have hself : Numeric.compare? (.int n) (.int n) = some .eq :=
    congrArg some (compare_eq_iff_eq.mpr rfl)
  rw [eq_eq_alike (a := .int n) nofun, alike, numericEq, hv]
  show (Numeric.compare? (.int n) (.int n) == some .eq) = true
  rw [hself]
  rfl

theorem eq_self_text (s : String) : (text s).eq (text s) = true := by
  rw [eq_eq_alike (a := .text s) nofun, alike_text]
  exact beq_self_eq_true s

/-- Truth values and integers are added as integers. -/
theorem plus_of_whole {v w : Value} {m n : Int} (hv : v.numeric? = some (.int m))
    (hw : w.numeric? = some (.int n)) : plus v w = .ok (.int (m + n)) := by
  have hwhole {u : Value} {k : Int} (hu : u.numeric? = some (.int k)) :
      (∃ c, u = .bool c) ∨ u = .int k := by
    cases u with
    | bool c => exact .inl ⟨c, rfl⟩
    | int k' =>
      cases hu
      exact .inr rfl
    | _ => cases hu
  have harith : arith .add v w = .ok (.int (m + n)) := by
    rw [arith, hv, hw]
    rfl
  rcases hwhole hv with ⟨c, rfl⟩ | rfl <;> rcases hwhole hw with ⟨d, rfl⟩ | rfl <;>
    exact harith

end Value

/-! ## Neutral values -/

/-- The neutral value of the type of an ordinary value: a truth value, an integer, a float
that is a number, or a text. -/
inductive Value.NeutralFor : Value → Value → Prop
  | bool (c : Bool) : NeutralFor (.bool false) (.bool c)
  | int (n : Int) : NeutralFor (.int 0) (.int n)
  | float {x : Float} : x.isNaN = false → NeutralFor (.int 0) (.float x)
  | text (s : String) : NeutralFor (.text "") (.text s)

namespace Value.NeutralFor

variable {z r : Value}

theorem default_eq (h : z.NeutralFor r) {x : String} (hx : '.' ∉ x.toList) :
    (Hint.ofValue r).default x = z := by
  cases h with
  | bool c => rfl
  | int n | float hnan =>
    show (if x.contains '.' = true then Value.float 0.0 else .int 0) = _
    rw [String.contains_char_eq, decide_eq_false hx]
    rfl
  | text s => rfl

/-- Every ordering of the two is decided. -/
theorem exists_order (h : z.NeutralFor r) (rel : Relation) :
    ∃ holds, Value.order rel z r = .ok holds := by
  have hnumeric {a b : Value} {m n : Numeric} (ha : a.numeric? = some m)
      (hb : b.numeric? = some n) : ∃ holds, Value.numericOrder rel a b = .ok holds := by
    simp only [Value.numericOrder, ha, hb]
    cases m.compare? n with
    | none => exact ⟨false, rfl⟩
    | some o => exact ⟨_, rfl⟩
  cases h with
  | bool c | int n | float hnan =>
    rw [Value.order]
    exact hnumeric rfl rfl
  | text s => exact ⟨_, rfl⟩

end Value.NeutralFor

/-- Values whose sums are followed further than one step. -/
inductive Addend where
  | text
  | whole

namespace Addend

/-- Texts, or truth values and integers. -/
def Has : Addend → Value → Prop
  | text, r => ∃ s, r = .text s
  | whole, r => (∃ c, r = .bool c) ∨ ∃ n, r = .int n

/-- A sum as it is stored against the same sum of the values themselves.  They differ for a
single truth value, which is stored as an integer. -/
inductive Stores : Addend → Value → Value → Prop
  | text (s : String) : Stores text (.text s) (.text s)
  | whole {w : Value} {n : Int} : w.numeric? = some (.int n) → Stores whole (.int n) w

variable {k : Addend} {r v w : Value}

theorem exists_int_of_has (h : whole.Has r) : ∃ n, r.numeric? = some (.int n) := by
  rcases h with ⟨c, rfl⟩ | ⟨n, rfl⟩
  · exact ⟨_, rfl⟩
  · exact ⟨n, rfl⟩

theorem Stores.ne_float (h : k.Stores v w) (x : Float) : v ≠ .float x := by
  cases h <;> nofun

theorem Stores.eq (h : k.Stores v w) : v.eq w = true := by
  cases h with
  | text s => exact Value.eq_self_text s
  | whole hw => exact Value.eq_of_whole hw

/-- A value is first added to the neutral one of its type. -/
theorem exists_first (h : k.Has r) :
    ∃ z v, z.NeutralFor r ∧ Value.plus z r = .ok v ∧ k.Stores v r := by
  cases k with
  | text =>
    obtain ⟨s, rfl⟩ := h
    refine ⟨_, .text ("" ++ s), .text s, rfl, ?_⟩
    rw [String.empty_append]
    exact .text s
  | whole =>
    obtain ⟨n, hn⟩ := exists_int_of_has h
    obtain ⟨z, hz, hzero⟩ : ∃ z : Value, z.NeutralFor r ∧ z.numeric? = some (.int 0) := by
      rcases h with ⟨c, rfl⟩ | ⟨n, rfl⟩
      · exact ⟨_, .bool c, rfl⟩
      · exact ⟨_, .int n, rfl⟩
    refine ⟨z, .int (0 + n), hz, Value.plus_of_whole hzero hn, ?_⟩
    rw [Int.zero_add]
    exact .whole hn

/-- A further value can be added on both sides. -/
theorem Stores.plus (h : k.Stores v w) (hr : k.Has r) :
    ∃ v' w', Value.plus v r = .ok v' ∧ Value.plus w r = .ok w' ∧ k.Stores v' w' := by
  cases h with
  | text s =>
    obtain ⟨s', rfl⟩ := hr
    exact ⟨_, _, rfl, rfl, .text (s ++ s')⟩
  | whole hw =>
    obtain ⟨n, hn⟩ := exists_int_of_has hr
    exact ⟨_, _, Value.plus_of_whole rfl hn, Value.plus_of_whole hw hn, .whole rfl⟩

end Addend

namespace Value.NeutralFor

variable {z z' r : Value}

theorem unique (h : z.NeutralFor r) (h' : z'.NeutralFor r) : z' = z := by
  cases h <;> cases h' <;> rfl

/-- What the two add up to equals the ordinary one, and is a number if it is a float. -/
theorem exists_plus (h : z.NeutralFor r) : ∃ v, Value.plus z r = .ok v ∧ v.eq r = true ∧
    ∀ x, v = .float x → x.isNaN = false := by
  have hstored {k : Addend} (hr : k.Has r) : ∃ v, Value.plus z r = .ok v ∧ v.eq r = true ∧
      ∀ x, v = .float x → x.isNaN = false := by
    obtain ⟨z', v, hz', hv, hstores⟩ := Addend.exists_first hr
    obtain rfl := h.unique hz'
    exact ⟨v, hv, hstores.eq, fun x hx => absurd hx (hstores.ne_float x)⟩
  cases h with
  | bool c => exact hstored (k := .whole) (.inl ⟨c, rfl⟩)
  | int n => exact hstored (k := .whole) (.inr ⟨n, rfl⟩)
  | text s => exact hstored (k := .text) ⟨s, rfl⟩
  | @float x hnan =>
    obtain ⟨hsum, heq⟩ := Number.compare?_zero_add hnan
    refine ⟨.float (Number.zero + x), ?_, ?_, fun _ h => by cases h; exact hsum⟩
    · show ((Numeric.int 0).toFloat >>= fun a => .ok (.float (a + x))).map ofNumeric = _
      rw [Numeric.toFloat, Number.ofInt?_zero]
      rfl
    · have hmark (a : Mark) : Value.float (Number.zero + x) ≠ .nan a := by
        rintro ⟨⟩
      rw [eq_eq_alike hmark, alike, numericEq]
      show (Numeric.compare? (.float (Number.zero + x)) (.float x) == some .eq) = true
      rw [heq]
      rfl

end Value.NeutralFor

/-! ## Names that nothing defines -/

/-- A name that is read as one, and whose defaults are no floats. -/
structure PlainName (x : String) : Prop where
  not_literal : Literal.read? x = none
  no_point : '.' ∉ x.toList

namespace Bindings

/-- A name that no state defines, and that is written to the shadow. -/
structure Unowned (b : Bindings) (x : String) : Prop where
  lenient : b.strict = false
  owner : b.owner? (.text x) = .ok none

/-- A name that the shadow does not hold either. -/
structure Undefined (b : Bindings) (x : String) : Prop extends b.Unowned x where
  absent : b.shadow.find? (.text x) = none

variable {b : Bindings} {x : String} {r z : Value}

theorem Unowned.valueOf_eq (h : b.Unowned x) (hx : PlainName x) (hint : Hint) :
    b.valueOf hint (.text x) = .ok ((b.shadow.find? (.text x)).getD (hint.default x)) := by
  simp only [valueOf, hx.not_literal]
  rw [lookup_of_unowned h.owner, h.lenient]
  rfl

theorem Undefined.valueOf_eq (h : b.Undefined x) (hx : PlainName x) (hz : z.NeutralFor r) :
    b.valueOf (Hint.ofValue r) (.text x) = .ok z := by
  rw [h.toUnowned.valueOf_eq hx, h.absent, Option.getD_none, hz.default_eq hx.no_point]

end Bindings

/-- The session with a value stored in the shadow. -/
def Session.shadowing (s : Session) (x : String) (v : Value) : Session :=
  { s with bindings := { s.bindings with shadow := s.bindings.shadow.insert (.text x) v } }

theorem Session.unowned_shadowing {s : Session} {x : String} (h : s.bindings.Unowned x)
    (v : Value) : (s.shadowing x v).bindings.Unowned x := ⟨h.lenient, h.owner⟩

theorem Session.find?_shadowing (s : Session) (x : String) (v : Value) :
    (s.shadowing x v).bindings.shadow.find? (.text x) = some v :=
  Table.find?_insert_self _ x v

/-- A condition that orders a name against its right side. -/
structure Expression.OrdersName (e : Expression) (rel : Relation) (x : String) : Prop where
  kind : e.lhsKind = .scalar
  lhs : e.lhs = .text x
  operator : e.operator = some rel.symbol

/-- An assignment that adds its right side to a name. -/
structure Expression.AddsTo (e : Expression) (x : String) : Prop where
  kind : e.lhsKind = .scalar
  lhs : e.lhs = .text x
  operator : e.operator = some "+="

namespace Play

variable {ask : Ask} {e : Expression} {rel : Relation} {x : String} {s u : Session}
  {c r v z : Value}

/-! ## Conditions -/

/-- What a condition that orders a scalar does with the value of its right side. -/
def ordering (rel : Relation) (e : Expression) (rhs : Value) : Play Bool := do
  let lhs ← reading fun b => b.resolve (Hint.ofValue rhs) e.lhs
  Act.ofExcept (Value.order rel lhs rhs)

theorem check_of_ordersName (ask : Ask) (h : e.OrdersName rel x) :
    check ask (some e) = rightSide ask e "condition" >>= ordering rel e := by
  have hcomparison : e.comparison? = some (.ordered rel) := by
    rw [Expression.comparison?, h.operator]
    cases rel <;> rfl
  show checkExpression ask e = _
  rw [checkExpression, h.kind, hcomparison]
  rfl

theorem ordering_of_undefined (h : e.OrdersName rel x) (hx : PlainName x)
    (hz : z.NeutralFor r) (hu : u.bindings.Undefined x) :
    ∃ holds, Value.order rel z r = .ok holds ∧ ordering rel e r u = .done holds u := by
  obtain ⟨holds, hholds⟩ := hz.exists_order rel
  have hlhs : u.bindings.resolve (Hint.ofValue r) e.lhs = .ok z := by
    rw [h.lhs]
    exact hu.valueOf_eq hx hz
  refine ⟨holds, hholds, ?_⟩
  rw [ordering, Act.bind_of_done (reading_of_ok hlhs), hholds]
  rfl

/-! ## Additions -/

theorem mutate_of_addsTo (ask : Ask) (h : e.AddsTo x) :
    mutate ask (some e) = rightSide ask e "mutation" >>= assigning ask e := by
  have hoperator : e.hasOperator = true := by
    rw [Expression.hasOperator, h.operator]
    rfl
  show mutateExpression ask e = _
  rw [mutateExpression, h.kind]
  exact assign_of_operator hoperator ask

theorem assigning_of_addsTo (ask : Ask) (h : e.AddsTo x) :
    assigning ask e = update ask .add (.text x) := by
  funext rhs
  rw [assigning, h.operator, ← h.lhs]
  rfl

/-- What is added is written for the log first. -/
theorem assigning_of_overlong (ask : Ask) (h : e.AddsTo x) (hr : r.Overlong) (u : Session) :
    assigning ask e r u = .failed (.tooManyDigits none) u := by
  rw [assigning_of_addsTo ask h, update_of_overlong ((r.tooLongIff_written _).mpr ⟨rfl, hr⟩)]
  rfl

theorem assigning_of_plus (ask : Ask) (h : e.AddsTo x) (hu : u.bindings.Unowned x)
    (hr : ¬ r.Overlong) (hc : u.bindings.valueOf (Hint.ofValue r) (.text x) = .ok c)
    (hv : Value.plus c r = .ok v) (hkeep : ∀ y, v = .float y → y.isNaN = false) :
    assigning ask e r u = .done () (u.shadowing x v) := by
  have hkept : keep v u = .done v u := by
    cases v with
    | float y => rw [keep_float, hkeep y rfl, if_neg Bool.false_ne_true]
    | _ => rfl
  obtain ⟨text, htext⟩ : ∃ text, r.written = .ok text := by
    cases hwritten : r.written with
    | ok text => exact ⟨text, rfl⟩
    | error f => exact absurd ((r.tooLongIff_written f).mp hwritten).2 hr
  have hsum : Operator.applied .add (u.bindings.valueOf (Hint.ofValue r) (.text x)) (.ok r) =
      .ok v := by
    rw [hc]
    exact hv
  rw [assigning_of_addsTo ask h, update_of_written htext,
    Act.bind_of_done (reading_of_ok hsum), assignTo, Act.bind_of_done hkept,
    set_of_unowned hu.owner, hu.lenient]
  rfl

/-- An addition to an undefined name stores a value equal to what is added. -/
theorem assigning_of_undefined (ask : Ask) (h : e.AddsTo x) (hx : PlainName x)
    (hz : z.NeutralFor r) (hu : u.bindings.Undefined x) (hr : ¬ r.Overlong) :
    ∃ v, v.eq r = true ∧ assigning ask e r u = .done () (u.shadowing x v) := by
  obtain ⟨v, hv, heq, hnan⟩ := hz.exists_plus
  exact ⟨v, heq, assigning_of_plus ask h hu.toUnowned hr (hu.valueOf_eq hx hz) hv hnan⟩

/-- An addition to a name whose sum the shadow holds stores the next sum. -/
theorem assigning_of_stores (ask : Ask) {k : Addend} {w : Value} (h : e.AddsTo x)
    (hx : PlainName x) (hu : u.bindings.Unowned x)
    (hfound : u.bindings.shadow.find? (.text x) = some v) (hv : k.Stores v w) (hr : k.Has r)
    (hshort : ¬ r.Overlong) : ∃ v' w', Value.plus w r = .ok w' ∧ k.Stores v' w' ∧
      assigning ask e r u = .done () (u.shadowing x v') := by
  obtain ⟨v', w', hv', hw', hstores⟩ := hv.plus hr
  have hread : u.bindings.valueOf (Hint.ofValue r) (.text x) = .ok v := by
    rw [hu.valueOf_eq hx, hfound, Option.getD_some]
  exact ⟨v', w', hw', hstores, assigning_of_plus ask h hu hshort hread hv'
    fun y hy => absurd hy (hstores.ne_float y)⟩

/-! ## Additions one after another -/

/-- Assignments one after another, with the values of their right sides, whose runs relate
the sessions before and after them. -/
inductive Course (ask : Ask) (P : Session → Session → Prop) :
    List Expression → Session → List Value → Session → Prop
  | nil {s : Session} : Course ask P [] s [] s
  | cons {e : Expression} {es : List Expression} {r : Value} {rs : List Value}
    {s u v t : Session} : (rightSide ask e "mutation" s).MayEnd (.ok r) u → P s u →
    (assigning ask e r u).MayEnd (.ok ()) v → Course ask P es v rs t →
      Course ask P (e :: es) s (r :: rs) t

theorem Course.cons_of_done {P : Session → Session → Prop} {es : List Expression}
    {rs : List Value} {t t' : Session} (hr : (rightSide ask e "mutation" s).MayEnd (.ok r) u)
    (hu : P s u) (hdone : assigning ask e r u = .done () t) (h : Course ask P es t rs t') :
    Course ask P (e :: es) s (r :: rs) t' :=
  .cons hr hu (by rw [hdone]; exact .done _ _) h

theorem Course.mono {P Q : Session → Session → Prop} {es : List Expression} {rs : List Value}
    {t : Session} (hPQ : ∀ s u, P s u → Q s u) (h : Course ask P es s rs t) :
    Course ask Q es s rs t := by
  induction h with
  | nil => exact .nil
  | cons hr hu hv _ ih => exact .cons hr (hPQ _ _ hu) hv ih

/-- A right side leaves a name undefined by the states, and what the shadow holds for it. -/
structure Spares (x : String) (s u : Session) : Prop where
  unowned : u.bindings.Unowned x
  shadow : u.bindings.shadow.find? (.text x) = s.bindings.shadow.find? (.text x)

theorem mayEnd_iff_course {es : List Expression} (h : ∀ e ∈ es, e.AddsTo x) {s t : Session} :
    ((es.forM fun e => mutate ask (some e)) s).MayEnd (.ok ()) t ↔
      ∃ rs, Course ask (fun _ _ => True) es s rs t := by
  induction es generalizing s with
  | nil =>
    refine Act.mayEnd_pure.trans ⟨?_, ?_⟩
    · rintro ⟨-, rfl⟩
      exact ⟨[], .nil⟩
    · rintro ⟨rs, hcourse⟩
      cases hcourse
      exact ⟨rfl, rfl⟩
  | cons e es ih =>
    show ((mutate ask (some e) >>= fun _ => es.forM fun e => mutate ask (some e)) s).MayEnd
      _ _ ↔ _
    rw [mutate_of_addsTo ask (h e List.mem_cons_self), bind_assoc]
    simp only [Act.mayEnd_bind_ok, ih fun e he => h e (List.mem_cons_of_mem _ he)]
    constructor
    · rintro ⟨r, u, hr, _, v, hv, rs, hcourse⟩
      exact ⟨r :: rs, .cons hr trivial hv hcourse⟩
    · rintro ⟨rs, hcourse⟩
      cases hcourse with
      | cons hr _ hv hcourse => exact ⟨_, _, hr, (), _, hv, _, hcourse⟩

/-- An addition that has come to an end has added a value that can be written. -/
theorem not_overlong_of_mayEnd (h : e.AddsTo x) {t : Session}
    (ht : (assigning ask e r u).MayEnd (.ok ()) t) : ¬ r.Overlong := by
  intro hr
  rw [assigning_of_overlong ask h hr] at ht
  cases ht

/-- From a stored sum on, the values are added to it from left to right. -/
theorem stores_of_course {k : Addend} {es : List Expression} {rs : List Value} {w : Value}
    {t : Session} (hcourse : Course ask (Spares x) es s rs t) (hes : ∀ e ∈ es, e.AddsTo x)
    (hx : PlainName x) (hfound : s.bindings.shadow.find? (.text x) = some v)
    (hv : k.Stores v w) (hrs : ∀ r ∈ rs, k.Has r) :
    ∃ v' w', t.bindings.shadow.find? (.text x) = some v' ∧
      rs.foldlM Value.plus w = .ok w' ∧ k.Stores v' w' := by
  induction hcourse generalizing v w with
  | nil => exact ⟨v, w, hfound, rfl, hv⟩
  | @cons e es r rs s u t₁ t hr hspares hassigning hcourse ih =>
    have he : e.AddsTo x := hes e List.mem_cons_self
    obtain ⟨v', w', hw', hstores, hdone⟩ := assigning_of_stores ask he hx hspares.unowned
      (hspares.shadow.trans hfound) hv (hrs r List.mem_cons_self)
      (not_overlong_of_mayEnd he hassigning)
    rw [hdone] at hassigning
    cases hassigning
    obtain ⟨v'', w'', hfound'', hw'', hstores''⟩ :=
      ih (fun e he => hes e (List.mem_cons_of_mem _ he)) (u.find?_shadowing x v') hstores
        fun r hr => hrs r (List.mem_cons_of_mem _ hr)
    refine ⟨v'', w'', hfound'', ?_, hstores''⟩
    rw [List.foldlM_cons, hw']
    exact hw''

/-- What additions to an undefined name have stored. -/
theorem stores_of_undefined {k : Addend} {es : List Expression} {rs : List Value} {t : Session}
    (hx : PlainName x) (hes : ∀ e ∈ es, e.AddsTo x) (hs : s.bindings.Undefined x)
    (hcourse : Course ask (Spares x) es s (r :: rs) t) (hrs : ∀ q ∈ r :: rs, k.Has q) :
    ∃ v w, t.bindings.shadow.find? (.text x) = some v ∧ rs.foldlM Value.plus r = .ok w ∧
      k.Stores v w := by
  cases hcourse with
  | @cons e es _ _ _ u t₁ _ hr hspares hassigning hcourse =>
    have he : e.AddsTo x := hes e List.mem_cons_self
    have hu : u.bindings.Undefined x :=
      { hspares.unowned with absent := hspares.shadow.trans hs.absent }
    obtain ⟨z, v, hz, hv, hstores⟩ := Addend.exists_first (hrs r List.mem_cons_self)
    have hdone : assigning ask e r u = .done () (u.shadowing x v) :=
      assigning_of_plus ask he hu.toUnowned (not_overlong_of_mayEnd he hassigning)
        (hu.valueOf_eq hx hz) hv fun y hy => absurd hy (hstores.ne_float y)
    rw [hdone] at hassigning
    cases hassigning
    exact stores_of_course hcourse (fun e he => hes e (List.mem_cons_of_mem _ he)) hx
      (u.find?_shadowing x v) hstores fun q hq => hrs q (List.mem_cons_of_mem _ hq)

/-! ## Every type has its default -/

/-- What comes of a name that nothing defines where a right side has an ordinary value. -/
structure DefaultsFit (ask : Ask) (x : String) : Prop where
  /-- A condition that orders the name is its right side, and with a value of that decides
  at once what the neutral value of its type would. -/
  orders : ∀ {e : Expression} {rel : Relation}, e.OrdersName rel x →
    check ask (some e) = rightSide ask e "condition" >>= ordering rel e ∧
    ∀ {z r : Value} {u : Session}, z.NeutralFor r → u.bindings.Undefined x →
      ∃ holds, Value.order rel z r = .ok holds ∧ ordering rel e r u = .done holds u
  /-- An addition is its right side, and with a value of that stores an equal one at once,
  unless the value cannot be written for the log. -/
  adds : ∀ {e : Expression}, e.AddsTo x →
    mutate ask (some e) = rightSide ask e "mutation" >>= assigning ask e ∧
    ∀ {z r : Value} {u : Session}, z.NeutralFor r → u.bindings.Undefined x →
      (¬ r.Overlong → ∃ v, v.eq r = true ∧ assigning ask e r u = .done () (u.shadowing x v)) ∧
      (r.Overlong → assigning ask e r u = .failed (.tooManyDigits none) u)
  /-- Additions that come to an end one after another are a course. -/
  courses : ∀ {es : List Expression} {s t : Session}, (∀ e ∈ es, e.AddsTo x) →
    (((es.forM fun e => mutate ask (some e)) s).MayEnd (.ok ()) t ↔
      ∃ rs, Course ask (fun _ _ => True) es s rs t)
  /-- After a course of texts, or of truth values and integers, the name holds a value equal
  to their sum from left to right. -/
  sums : ∀ {k : Addend} {es : List Expression} {s t : Session} {r : Value} {rs : List Value},
    (∀ e ∈ es, e.AddsTo x) → s.bindings.Undefined x → Course ask (Spares x) es s (r :: rs) t →
      (∀ q ∈ r :: rs, k.Has q) → ∃ v w, t.bindings.shadow.find? (.text x) = some v ∧
        rs.foldlM Value.plus r = .ok w ∧ v.eq w = true
  /-- And the next addition of such a value comes to an end as well, unless the value cannot
  be written for the log. -/
  goesOn : ∀ {k : Addend} {es : List Expression} {s t : Session} {r : Value} {rs : List Value},
    (∀ e ∈ es, e.AddsTo x) → s.bindings.Undefined x → Course ask (Spares x) es s (r :: rs) t →
      (∀ q ∈ r :: rs, k.Has q) → ∀ {e : Expression} {q : Value} {u : Session}, e.AddsTo x →
        Spares x t u → k.Has q → (¬ q.Overlong → ∃ v, assigning ask e q u =
          .done () (u.shadowing x v)) ∧
        (q.Overlong → assigning ask e q u = .failed (.tooManyDigits none) u)

/-- In lenient mode, a name that is no literal and has no point in it gets a default that
fits whatever it is ordered against and whatever is added to it. -/
theorem defaultsFit (ask : Ask) (hx : PlainName x) : DefaultsFit ask x where
  orders he := ⟨check_of_ordersName ask he, fun hz hu => ordering_of_undefined he hx hz hu⟩
  adds he := ⟨mutate_of_addsTo ask he, fun hz hu =>
    ⟨assigning_of_undefined ask he hx hz hu, fun hr => assigning_of_overlong ask he hr _⟩⟩
  courses hes := mayEnd_iff_course hes
  sums hes hs hcourse hrs := by
    obtain ⟨v, w, hfound, hw, hstores⟩ := stores_of_undefined hx hes hs hcourse hrs
    exact ⟨v, w, hfound, hw, hstores.eq⟩
  goesOn hes hs hcourse hrs := by
    intro e q u he hspares hq
    obtain ⟨v, w, hfound, -, hstores⟩ := stores_of_undefined hx hes hs hcourse hrs
    refine ⟨fun hshort => ?_, fun hlong => assigning_of_overlong ask he hlong u⟩
    obtain ⟨v', -, -, -, hdone⟩ := assigning_of_stores ask he hx hspares.unowned
      (hspares.shadow.trans hfound) hstores hq hshort
    exact ⟨v', hdone⟩

/-- A condition that orders a name against a scalar. -/
def comparing (rel : Relation) (name : String) (rhs : Value) : Expression where
  lhs := .text name
  operator := some rel.symbol
  rhs := rhs

theorem addsTo_updating (name : String) (rhs : Value) : (updating .add name rhs).AddsTo name :=
  ⟨rfl, rfl, rfl⟩

/-- A scalar right side comes to its value and leaves the session as it was. -/
theorem rightSide_of_resolve {part : String} (h : e.rhsKind = none ∨ e.rhsKind = some .scalar)
    (hr : s.bindings.resolve .boolean e.rhs = .ok r) : rightSide ask e part s = .done r s := by
  rw [rightSide_of_scalar ask h]
  exact reading_of_ok hr

/-- A written text on the right side comes to the text. -/
theorem mayEnd_rightSide_quote (name s : String) (u : Session) :
    (rightSide refused (updating .add name (Value.text s).quote) "mutation" u).MayEnd
      (.ok (.text s)) u := by
  have hdone : rightSide refused (updating .add name (Value.text s).quote) "mutation" u =
      .done (.text s) u :=
    rightSide_of_resolve (.inr rfl) (u.bindings.valueOf_quote .boolean (.text s))
  rw [hdone]
  exact .done _ _

/-- A lenient session without states. -/
def blank : Session := { bindings := { strict := false } }

theorem unowned_blank (x : String) : blank.bindings.Unowned x := ⟨rfl, rfl⟩

/-- Two texts added to a name. -/
def luckier : List Expression :=
  ["well", " met"].map fun s => updating .add "luck" (Value.text s).quote

theorem defaultsFit_luck : PlainName "luck" ∧
    check refused (some (comparing .lt "luck" (.int 3))) blank = .done true blank ∧
    ∃ (t : Session) (v : Value),
      ((luckier.forM fun e => mutate refused (some e)) blank).MayEnd (.ok ()) t ∧
      t.bindings.shadow.find? (.text "luck") = some v ∧ v.eq (.text "well met") = true := by
  have hx : PlainName "luck" := ⟨by decide +kernel, by decide⟩
  have h : DefaultsFit refused "luck" := defaultsFit refused hx
  have hblank : blank.bindings.Undefined "luck" := { unowned_blank "luck" with absent := rfl }
  refine ⟨hx, ?_, ?_⟩
  · have he : (comparing .lt "luck" (.int 3)).OrdersName .lt "luck" := ⟨rfl, rfl, rfl⟩
    obtain ⟨hcheck, hdecide⟩ := h.orders he
    obtain ⟨holds, hholds, hrun⟩ := hdecide (.int 3) hblank
    obtain rfl : true = holds := Except.ok.inj hholds
    rw [hcheck, Act.bind_of_done (rightSide_of_resolve (r := .int 3) (.inl rfl) rfl), hrun]
  · have hadds (s : String) : (updating .add "luck" (Value.text s).quote).AddsTo "luck" :=
      addsTo_updating _ _
    have hes : ∀ e ∈ luckier, e.AddsTo "luck" := by simp [luckier, hadds]
    have htexts : ∀ q ∈ [Value.text "well", .text " met"], Addend.text.Has q := by
      simp [Addend.Has]
    have hspares {u : Session} (hu : u.bindings.Unowned "luck") : Spares "luck" u u := ⟨hu, rfl⟩
    obtain ⟨v, -, hfirst⟩ := ((h.adds (hadds "well")).2 (.text "well") hblank).1 nofun
    have hone : Course refused (Spares "luck") [updating .add "luck" (Value.text "well").quote]
        blank [.text "well"] (blank.shadowing "luck" v) :=
      .cons_of_done (mayEnd_rightSide_quote _ _ _) (hspares hblank.toUnowned) hfirst .nil
    have hunowned := Session.unowned_shadowing hblank.toUnowned v
    obtain ⟨w, hsecond⟩ := (h.goesOn (k := .text) (q := .text " met") (by simp [hadds]) hblank
      hone (by simp [Addend.Has]) (hadds " met") (hspares hunowned) ⟨" met", rfl⟩).1 nofun
    have hboth : Course refused (Spares "luck") luckier blank [.text "well", .text " met"]
        ((blank.shadowing "luck" v).shadowing "luck" w) :=
      .cons_of_done (mayEnd_rightSide_quote _ _ _) (hspares hblank.toUnowned) hfirst
        (.cons_of_done (mayEnd_rightSide_quote _ _ _) (hspares hunowned) hsecond .nil)
    obtain ⟨v', w', hfound, hsum, heq⟩ := h.sums hes hblank hboth htexts
    obtain rfl : .text "well met" = w' := Except.ok.inj hsum
    exact ⟨_, v', (h.courses hes).mpr ⟨_, hboth.mono fun _ _ _ => trivial⟩, hfound, heq⟩

/-- A lenient session with a state that knows a large number. -/
def vault : Session where
  bindings :=
    { hosts := [{ values := [(.text "a", .int (Nat.pow 10 2150 : Nat))] }],
      active := [0], strict := false }

theorem exists_int_of_any {x : Except Fault Value} {p : Int → Bool}
    (h : (x.toOption.bind Value.int?).any p = true) : ∃ n, x = .ok (.int n) ∧ p n = true := by
  cases x with
  | error f => cases h
  | ok v =>
    cases v with
    | int n => exact ⟨n, rfl, h⟩
    | _ => cases h

theorem resolve_vault : ∃ n : Int, vault.bindings.resolve .boolean riches = .ok (.int n) ∧
    (Value.int n).Overlong := by
  have hlong : (((vault.bindings.resolve .boolean riches).toOption.bind Value.int?).any
      fun n => Nat.pow 10 digitLimit ≤ n.natAbs) = true := by
    decide +kernel
  obtain ⟨n, hn, hdigits⟩ := exists_int_of_any hlong
  exact ⟨n, hn, .int (of_decide_eq_true hdigits)⟩

theorem mutate_vault : ¬ ∀ (ask : Ask) (x : String) (e : Expression) (z r : Value)
    (s u : Session), PlainName x → e.AddsTo x → z.NeutralFor r → u.bindings.Undefined x →
      (rightSide ask e "mutation" s).MayEnd (.ok r) u →
        ∃ v t, (mutate ask (some e) s).MayEnd (.ok ()) t ∧
          t.bindings.shadow.find? (.text x) = some v ∧ v.eq r = true := by
  intro h
  obtain ⟨n, hr, hlong⟩ := resolve_vault
  have hx : PlainName "x" := ⟨by decide +kernel, by decide⟩
  have he : (updating .add "x" riches).AddsTo "x" := addsTo_updating "x" riches
  have hvault : vault.bindings.Undefined "x" := ⟨⟨rfl, rfl⟩, rfl⟩
  have hright : rightSide refused (updating .add "x" riches) "mutation" vault =
      .done (.int n) vault := rightSide_of_resolve (.inr rfl) hr
  obtain ⟨v, t, hrun, -⟩ := h refused "x" _ _ _ vault vault hx he (.int n) hvault
    (by rw [hright]; exact .done _ _)
  rw [mutate_of_addsTo refused he, Act.bind_of_done hright,
    assigning_of_overlong refused he hlong] at hrun
  cases hrun

end Play
end Parley

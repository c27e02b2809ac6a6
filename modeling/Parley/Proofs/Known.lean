import Parley.Expression.Mutate
import Parley.Interpolate

/-
Faults that are not for want of a name.

Only looking up a name can fail because no state has it.  Whatever is computed from
values alone fails for other reasons, if at all: this is shown here for each function
of the evaluator that takes values and no states.
-/

namespace Parley

/-- Whether a fault says that no state has a name. -/
def Fault.isUnknownName : Fault → Bool
  | .unknownProperty _ | .unknownMethod _ => true
  | _ => false

/-- What fails, if at all, otherwise than for want of a name. -/
def Known {α : Type} (x : Except Fault α) : Prop := ∀ f, x = .error f → f.isUnknownName = false

namespace Known

variable {α β : Type}

theorem ok (a : α) : Known (.ok a) := fun _ h => nomatch h

theorem error {f : Fault} (h : f.isUnknownName = false) : Known (.error f : Except Fault α) := by
  intro f' hf
  cases hf
  exact h

theorem bind {x : Except Fault α} {f : α → Except Fault β} (hx : Known x)
    (hf : ∀ a, Known (f a)) : Known (x >>= f) := by
  cases x with
  | ok a => exact hf a
  | error e => exact error (hx e rfl)

theorem map {x : Except Fault α} (hx : Known x) (f : α → β) : Known (x.map f) := by
  cases x with
  | ok a => exact ok (f a)
  | error e => exact error (hx e rfl)

end Known

open Known

/-! ## Texts -/

theorem known_intText (n : Int) : Known (intText n) := by
  unfold intText
  split
  · exact ok _
  · exact error rfl

namespace Value

mutual

theorem known_written : ∀ v : Value, Known v.written
  | .null | .bool _ | .float _ | .nan _ | .text _ | .callable _ | .line _ => ok _
  | .int n => known_intText n
  | .list xs | .tuple xs | .set xs => (known_writtenList xs).map _
  | .dict es => (known_writtenEntries es).map _

theorem known_writtenList : ∀ xs : List Value, Known (writtenList xs)
  | [] => ok _
  | x :: xs => (known_written x).bind fun _ => (known_writtenList xs).bind fun _ => ok _

theorem known_writtenEntries : ∀ es : List (Value × Value), Known (writtenEntries es)
  | [] => ok _
  | (k, v) :: es =>
    (known_written k).bind fun _ => (known_written v).bind fun _ =>
      (known_writtenEntries es).bind fun _ => ok _

end

theorem known_plain (v : Value) : Known v.plain := by
  unfold plain
  split
  · exact ok _
  · exact ok _
  · exact known_written v

theorem known_display (v : Value) : Known v.display := by
  unfold display
  split
  · exact ok _
  · exact ok _
  · split
    · exact known_intText _
    · exact ok _
  · exact known_plain v

/-! ## Keys and membership -/

mutual

theorem known_checkKey : ∀ v : Value, Known v.checkKey
  | .list _ | .set _ | .dict _ | .line _ => error rfl
  | .tuple xs => known_checkKeys xs
  | .null | .bool _ | .int _ | .float _ | .nan _ | .text _ | .callable _ => ok _

theorem known_checkKeys : ∀ xs : List Value, Known (checkKeys xs)
  | [] => ok _
  | x :: xs => by
    unfold checkKeys
    split
    · exact known_checkKeys xs
    · next f hf => exact error (known_checkKey x f hf)

end

theorem known_isIn (x container : Value) : Known (x.isIn container) := by
  unfold isIn
  split
  · exact (known_checkKey x).map _
  · exact (known_plain x).map _
  · exact ok _
  · exact ok _
  · unfold inSet
    split
    · exact ok _
    · exact (known_checkKey x).map _
  · exact ok _

/-! ## Order -/

theorem known_numericOrder (r : Relation) (a b : Value) : Known (numericOrder r a b) := by
  unfold numericOrder
  split
  · split
    · exact ok _
    · exact ok _
  · exact error rfl

mutual

theorem known_order (r : Relation) : ∀ a b : Value, Known (order r a b)
  | .list as, b => by
    cases b <;> first | exact known_orderList r as _ | exact error rfl
  | .tuple as, b => by
    cases b <;> first | exact known_orderList r as _ | exact error rfl
  | .text _, b | .set _, b => by cases b <;> first | exact ok _ | exact error rfl
  | .bool _, b | .int _, b | .float _, b | .nan _, b => known_numericOrder r _ b
  | .null, b | .dict _, b | .callable _, b | .line _, b => error rfl

theorem known_orderList (r : Relation) : ∀ as bs : List Value, Known (orderList r as bs)
  | [], [] | [], _ :: _ | _ :: _, [] => ok _
  | a :: as, b :: bs => by
    unfold orderList
    split
    · exact known_orderList r as bs
    · exact known_order r a b

end

end Value

theorem Comparison.known_test (c : Comparison) (a b : Value) : Known (c.test a b) := by
  cases c with
  | equal => exact ok _
  | unequal => exact ok _
  | ordered r => exact Value.known_order r a b
  | member => exact Value.known_isIn a b

/-! ## Arithmetic -/

namespace Numeric

theorem known_toFloat (x : Numeric) : Known x.toFloat := by
  cases x with
  | float x => exact ok x
  | int n =>
    simp only [toFloat]
    split
    · exact ok _
    · exact error rfl

theorem known_combine (onInt : Int → Int → Int) (onFloat : Float → Float → Float)
    (a b : Numeric) : Known (combine onInt onFloat a b) := by
  unfold combine
  split
  · exact ok _
  · exact (known_toFloat _).bind fun _ => (known_toFloat _).bind fun _ => ok _

theorem known_div (a b : Numeric) : Known (div a b) := by
  unfold div
  split
  · split
    · exact error rfl
    · split
      · exact ok _
      · exact error rfl
  · refine (known_toFloat _).bind fun x => (known_toFloat _).bind fun y => ?_
    split
    · exact error rfl
    · exact ok _

end Numeric

namespace Value

theorem known_repeated (s count : Value) : Known (repeated s count) := by
  unfold repeated
  split
  · exact error rfl
  · split
    · exact error rfl
    · exact ok _

theorem known_combineOthers (op : Operator) (a b : Value) : Known (combineOthers op a b) := by
  unfold combineOthers
  split
  · exact ok _
  · exact ok _
  · exact ok _
  · exact ok _
  · split
    · exact error rfl
    · exact error rfl
  · split
    · exact known_repeated a b
    · split
      · exact known_repeated b a
      · exact error rfl
  · exact error rfl

theorem known_arith (op : Operator) (a b : Value) : Known (arith op a b) := by
  unfold arith
  split
  · next x y _ _ =>
    refine Known.map ?_ _
    cases op with
    | div => exact Numeric.known_div x y
    | _ => exact Numeric.known_combine _ _ x y
  · exact known_combineOthers op a b

theorem known_apply (op : Operator) (a b : Value) : Known (apply op a b) := by
  have hplus : Known (plus a b) := by
    unfold plus
    split
    · exact (known_plain _).bind fun _ => (known_plain _).bind fun _ => ok _
    · exact (known_plain _).bind fun _ => (known_plain _).bind fun _ => ok _
    · exact known_arith .add a b
  cases op with
  | add => exact hplus
  | _ => exact known_arith _ a b

end Value

/-! ## Tokens, arguments and literals -/

theorem Token.known_fold {combine : Operator → Value → Value → Except Fault Value}
    (hc : ∀ op l r, Known (combine op l r)) (ops : List Operator) (out ts : List Token) :
    Known (fold combine ops out ts) := by
  fun_induction fold combine ops out ts with
  | case1 out => exact ok _
  | case2 out t ts hop ih => exact ih
  | case3 => exact error rfl
  | case4 t op hop l out r ts hno v hv ih => exact ih
  | case5 t op hop l out r ts hno f hf => exact error (hc op l.raw r.raw f hf)
  | case6 => exact error rfl

theorem known_milliseconds (v : Value) : Known (Play.milliseconds v) := by
  unfold Play.milliseconds
  split
  · split
    · exact ok _
    · exact error rfl
  · split
    · exact Numeric.known_toFloat _
    · exact error rfl

theorem known_labelled (args values : List Value) : Known (Play.labelled args values) := by
  induction args generalizing values with
  | nil =>
    cases values <;> exact ok _
  | cons a args ih =>
    cases values with
    | nil => exact ok _
    | cons v values =>
      exact (Value.known_plain a).bind fun _ => (ih values).bind fun _ => ok _

theorem known_integer {cs : List Char} {n : Except Fault Int}
    (h : Literal.integer? cs = some n) : Known n := by
  unfold Literal.integer? at h
  simp only at h
  split at h
  · cases h
  · cases h
    split
    · exact ok _
    · exact error rfl

theorem known_literal {s : String} {r : Except Fault Value} (h : Literal.read? s = some r) :
    Known r := by
  unfold Literal.read? at h
  simp only at h
  split at h
  · cases h
    exact ok _
  · split at h
    · cases h
      exact ok _
    · split at h
      · next n hn =>
        cases h
        exact (known_integer hn).map _
      · obtain ⟨x, -, rfl⟩ := Option.map_eq_some_iff.mp h
        exact ok _

end Parley

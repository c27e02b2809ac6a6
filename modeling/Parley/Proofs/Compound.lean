import Parley.Proofs.Assignment
import Parley.Proofs.Scalar

/-
Compound assignments.

An operator with an assignment mark after it reads a name, applies the operator to what it
finds and to the value of the right side, and writes the result back.  Spelled out, that is
a plain assignment of the name, the operator and the right side as a group
(`mutate_updates`): the same run, with the same fault if it fails, though the one works on
values and the other quotes them, folds them twice and reads them again.

The two differ in one thing.  A compound assignment also writes out the value of its right
side for the log, and there is no text for an integer of more digits than the limit; the
plain assignment of the same value has no such step (`mutate_riches`).
-/

namespace Parley

/-! ## Values without a text -/

/-- Values that hold an integer of too many digits to be written. -/
inductive Value.Overlong : Value → Prop
  | int {n : Int} : Nat.pow 10 digitLimit ≤ n.natAbs → Overlong (.int n)
  | list {xs : List Value} {x : Value} : x ∈ xs → Overlong x → Overlong (.list xs)
  | tuple {xs : List Value} {x : Value} : x ∈ xs → Overlong x → Overlong (.tuple xs)
  | set {xs : List Value} {x : Value} : x ∈ xs → Overlong x → Overlong (.set xs)
  | key {es : Table} {k v : Value} : (k, v) ∈ es → Overlong k → Overlong (.dict es)
  | entry {es : Table} {k v : Value} : (k, v) ∈ es → Overlong v → Overlong (.dict es)

/-- A result that fails exactly if something has too many digits, and then says so. -/
def TooLongIff {α : Type} (x : Except Fault α) (overlong : Prop) : Prop :=
  ∀ f, x = .error f ↔ f = .tooManyDigits none ∧ overlong

namespace TooLongIff

variable {α β : Type} {x : Except Fault α} {p q : Prop}

theorem congr (h : TooLongIff x p) (hpq : p ↔ q) : TooLongIff x q :=
  fun f => (h f).trans (and_congr_right fun _ => hpq)

theorem ok (a : α) : TooLongIff (.ok a) False := fun _ => ⟨nofun, fun h => nomatch h.2⟩

theorem map (h : TooLongIff x p) (f : α → β) : TooLongIff (x.map f) p := by
  intro e
  rw [← h e]
  cases x with
  | ok a => exact ⟨nofun, nofun⟩
  | error e' => exact ⟨fun h => by cases h; rfl, fun h => by cases h; rfl⟩

theorem bind {f : α → Except Fault β} (hx : TooLongIff x p) (hf : ∀ a, TooLongIff (f a) q) :
    TooLongIff (x >>= f) (p ∨ q) := by
  intro e
  rw [bind_eq_error]
  constructor
  · rintro (h | ⟨a, -, h⟩)
    · exact ((hx e).mp h).imp_right .inl
    · exact ((hf a e).mp h).imp_right .inr
  · rintro ⟨rfl, h⟩
    cases hx' : x with
    | ok a =>
      have hp : ¬ p := fun hp => nomatch ((hx _).mpr ⟨rfl, hp⟩).symm.trans hx'
      exact .inr ⟨a, rfl, (hf a _).mpr ⟨rfl, h.resolve_left hp⟩⟩
    | error e' => exact .inl (by rw [((hx e').mp hx').1])

end TooLongIff

namespace Value

theorem tooLongIff_intText (n : Int) : TooLongIff (intText n) (Value.int n).Overlong := by
  unfold intText
  split
  · next h => exact (TooLongIff.ok _).congr ⟨nofun, fun | .int hn => absurd h (Nat.not_lt.mpr hn)⟩
  · next h =>
    intro f
    constructor
    · intro hf
      cases hf
      exact ⟨rfl, .int (Nat.not_lt.mp h)⟩
    · rintro ⟨rfl, -⟩
      rfl

mutual

theorem tooLongIff_written : ∀ v : Value, TooLongIff v.written v.Overlong
  | .int n => tooLongIff_intText n
  | .list xs => ((tooLongIff_writtenList xs).map _).congr
    ⟨fun ⟨_, hx, h⟩ => .list hx h, fun | .list hx h => ⟨_, hx, h⟩⟩
  | .tuple xs => ((tooLongIff_writtenList xs).map _).congr
    ⟨fun ⟨_, hx, h⟩ => .tuple hx h, fun | .tuple hx h => ⟨_, hx, h⟩⟩
  | .set xs => ((tooLongIff_writtenList xs).map _).congr
    ⟨fun ⟨_, hx, h⟩ => .set hx h, fun | .set hx h => ⟨_, hx, h⟩⟩
  | .dict es => ((tooLongIff_writtenEntries es).map _).congr
    ⟨fun ⟨_, he, h⟩ => h.elim (.key he) (.entry he),
      fun | .key he h => ⟨_, he, .inl h⟩ | .entry he h => ⟨_, he, .inr h⟩⟩
  | .null | .bool _ | .float _ | .nan _ | .text _ | .callable _ | .line _ =>
    (TooLongIff.ok _).congr ⟨nofun, nofun⟩

theorem tooLongIff_writtenList : ∀ xs : List Value,
    TooLongIff (writtenList xs) (∃ x ∈ xs, x.Overlong)
  | [] => (TooLongIff.ok _).congr (by simp)
  | x :: xs => ((tooLongIff_written x).bind fun _ =>
      (tooLongIff_writtenList xs).bind fun _ => .ok _).congr (by simp)

theorem tooLongIff_writtenEntries : ∀ es : List (Value × Value),
    TooLongIff (writtenEntries es) (∃ e ∈ es, e.1.Overlong ∨ e.2.Overlong)
  | [] => (TooLongIff.ok _).congr (by simp)
  | (k, v) :: es => ((tooLongIff_written k).bind fun _ => (tooLongIff_written v).bind fun _ =>
      (tooLongIff_writtenEntries es).bind fun _ => .ok _).congr (by simp [or_assoc])

end

end Value

/-! ## An operator between two operands -/

namespace Token

/-- An operator between something yet to be read and a value. -/
def spelled (raw : Value) (op : Operator) (y : Value) : List Token :=
  [.operand raw, .ofOperator op, .operand y.quote]

variable {b : Bindings} {ops : List Operator} {op : Operator}

/-- A level that knows the operator folds the three tokens to one. -/
theorem fold_spelled (hop : op ∈ ops) (hint : Hint) (raw y : Value) :
    fold (b.combine hint) ops [] (spelled raw op y) =
      (op.applied (b.valueOf hint raw) (.ok y)).map fun z => [.operand z.quote] := by
  have hknown : (ofOperator op).operatorIn? ops = some op := by
    rw [operatorIn?_ofOperator, if_pos hop]
  have hoperand (v : Value) : (operand v).isOperator = false := isOperator_of_kind
  have hcombine : b.combine hint op (operand raw).raw (operand y.quote).raw =
      (op.applied (b.valueOf hint raw) (.ok y)).map Value.quote := by
    rw [Bindings.combine_eq]
    show (op.applied (b.valueOf hint raw) (b.valueOf hint y.quote)).map Value.quote = _
    rw [b.valueOf_quote hint]
  rw [spelled, fold, operatorIn?_of_not_operator (hoperand raw)]
  show fold (b.combine hint) ops [operand raw] [ofOperator op, operand y.quote] = _
  rw [fold_of_operator hknown (hoperand raw) (hoperand _), hcombine]
  cases op.applied (b.valueOf hint raw) (.ok y) <;> rfl

/-- A level that does not know it leaves them. -/
theorem fold_spelled_of_unknown (hop : op ∉ ops) (hint : Hint) (raw y : Value) :
    fold (b.combine hint) ops [] (spelled raw op y) = .ok (spelled raw op y) := by
  have hunknown : (ofOperator op).operatorIn? ops = none := by
    rw [operatorIn?_ofOperator, if_neg hop]
  have hoperand (v : Value) : (operand v).operatorIn? ops = none :=
    operatorIn?_of_not_operator isOperator_of_kind ops
  exact ((becomes_self (hoperand raw)).append
    ((becomes_self hunknown).append (becomes_self (hoperand y.quote)))).fold_eq

end Token

namespace Bindings

variable {b : Bindings} {op : Operator} {raw : Value}

theorem total_spelled (hint : Hint) (raw : Value) (op : Operator) (y : Value) :
    b.total hint (Token.spelled raw op y) = op.applied (b.valueOf hint raw) (.ok y) := by
  have hrest (z : Value) :
      Token.fold (b.combine hint) Operator.additive [] [.operand z.quote] =
        .ok [.operand z.quote] :=
    (Token.becomes_self
      (Token.operatorIn?_of_not_operator Token.isOperator_of_kind Operator.additive)).fold_eq
  have hread (z : Value) : b.remaining hint [.operand z.quote] = .ok z := b.valueOf_quote hint z
  by_cases hmul : op ∈ Operator.multiplicative
  · have hfirst := Token.fold_spelled (b := b) hmul hint raw y
    cases hz : op.applied (b.valueOf hint raw) (.ok y) with
    | error f =>
      rw [hz] at hfirst
      exact total_of_fault hfirst
    | ok z =>
      rw [hz] at hfirst
      exact (total_of_folds hfirst (hrest z)).trans (hread z)
  · have hadd : op ∈ Operator.additive := op.mem_multiplicative_or_additive.resolve_left hmul
    have hfirst := Token.fold_spelled_of_unknown (b := b) hmul hint raw y
    have hlast := Token.fold_spelled (b := b) hadd hint raw y
    cases hz : op.applied (b.valueOf hint raw) (.ok y) with
    | error f =>
      rw [hz] at hlast
      exact total_of_fault_in_sum hfirst hlast
    | ok z =>
      rw [hz] at hlast
      exact (total_of_folds hfirst hlast).trans (hread z)

/-- What holds a token of something to read, an operator and a group evaluates the group
first, then reads, and applies the operator. -/
theorem resolve_spelled {tokens l o g held : Value} (htokens : tokens.elements? = some [l, o, g])
    (hl : l.IsToken "value" raw) (ho : o.IsOperatorToken op) (hg : g.IsToken "group" held)
    (hint : Hint) : b.resolve hint tokens = (do
      let y ← b.resolve hint held
      op.applied (b.valueOf hint raw) (.ok y)) := by
  have hread : b.reduce hint l = .ok (.operand raw) := reduce_of_not_group hl (by decide)
  have hjoin := b.reduceAll_join hint [l] [g] ho
  rw [reduceAll_singleton, reduceAll_singleton, hread, reduce_of_group hg] at hjoin
  rw [resolve_of_elements htokens, resolveTokens_eq]
  show b.reduceAll hint ([l] ++ o :: [g]) >>= b.total hint = _
  rw [hjoin]
  cases b.resolve hint held with
  | error f => rfl
  | ok y => exact total_spelled hint raw op y

end Bindings

/-! ## Assignments -/

/-- An assignment that applies an operator to a name and a scalar, and writes the name. -/
structure Expression.Updates (e : Expression) (op : Operator) (name : String) : Prop where
  kind : e.lhsKind = .scalar
  lhs : e.lhs = .text name
  operator : e.operator = some (op.symbol ++ "=")
  rhs : e.rhsKind = none ∨ e.rhsKind = some .scalar

/-- A plain assignment to a name, of a list that holds the name, an operator and the right
side of another assignment as a group. -/
structure Expression.SpellsOut (e' e : Expression) (op : Operator) (name : String) : Prop where
  kind : e'.lhsKind = .scalar
  lhs : e'.lhs = .text name
  operator : e'.operator = some "="
  rhs : e'.rhsKind = some .scalar
  tokens : ∃ l o g, e'.rhs.elements? = some [l, o, g] ∧ l.IsToken "value" (.text name) ∧
    o.IsOperatorToken op ∧ g.IsToken "group" e.rhs

namespace Play

variable {ask : Ask} {s : Session} {e e' : Expression} {op : Operator} {name : String}

theorem mutate_of_updates (h : e.Updates op name) : mutate ask (some e) =
    reading (fun b => b.resolve .boolean e.rhs) >>= update ask op (.text name) := by
  have hassigning : assigning ask e = update ask op (.text name) := by
    funext rhs
    rw [assigning, h.operator, ← h.lhs]
    cases op <;> rfl
  have hoperator : e.hasOperator = true := by
    rw [Expression.hasOperator, h.operator]
    cases op <;> rfl
  show mutateExpression ask e = _
  rw [mutateExpression, h.kind]
  show assign ask e = _
  rw [assign_of_operator hoperator, hassigning, rightSide_of_scalar ask h.rhs]

theorem mutate_of_spellsOut (h : e'.SpellsOut e op name) : mutate ask (some e') =
    reading (fun b => do
      let y ← b.resolve .boolean e.rhs
      op.applied (b.valueOf .boolean (.text name)) (.ok y)) >>= assignTo ask (.text name) := by
  obtain ⟨l, o, g, htokens, hl, ho, hg⟩ := h.tokens
  have hassigning : assigning ask e' = assignTo ask (.text name) := by
    funext rhs
    rw [assigning, h.operator, ← h.lhs]
    rfl
  have hoperator : e'.hasOperator = true := by
    rw [Expression.hasOperator, h.operator]
    rfl
  show mutateExpression ask e' = _
  rw [mutateExpression, h.kind]
  show assign ask e' = _
  rw [assign_of_operator hoperator, hassigning, rightSide_of_scalar ask (.inr h.rhs)]
  simp only [Bindings.resolve_spelled htokens hl ho hg]

/-- With a text for the log, an update reads the name, applies the operator and assigns. -/
theorem update_of_written {y : Value} {text : String} (hy : y.written = .ok text) :
    update ask op (.text name) y =
      reading (fun b => op.applied (b.valueOf (Hint.ofValue y) (.text name)) (.ok y)) >>=
        assignTo ask (.text name) := by
  rw [update, hy]
  show (reading (fun b => b.valueOf (Hint.ofValue y) (.text name)) >>= fun x =>
    reading (fun _ => Value.apply op x y) >>= assignTo ask (.text name)) = _
  rw [← bind_assoc, reading_bind]
  rfl

theorem update_of_overlong {y : Value} {f : Fault} (hy : y.written = .error f) :
    update ask op (.text name) y = Act.fail f := by
  rw [update, hy]
  rfl

/-- The same run, unless the value of the right side cannot be written for the log: then the
compound assignment alone fails for that, and leaves the session as it was. -/
theorem mutate_updates (ask : Ask) (hupdates : e.Updates op name)
    (hspells : e'.SpellsOut e op name)
    (hname : s.bindings.strict = true ∨ s.bindings.Defines name) :
    ((∀ y, s.bindings.resolve .boolean e.rhs = .ok y → ¬ y.Overlong) →
      mutate ask (some e) s = mutate ask (some e') s) ∧
    ∀ y, s.bindings.resolve .boolean e.rhs = .ok y → y.Overlong →
      mutate ask (some e) s = .failed (.tooManyDigits none) s := by
  rw [mutate_of_updates hupdates, mutate_of_spellsOut hspells]
  constructor
  · intro hshort
    have hread (hint : Hint) : s.bindings.valueOf hint (.text name) =
        s.bindings.valueOf .boolean (.text name) := s.bindings.sure_of_defines hname hint .boolean
    cases hy : s.bindings.resolve .boolean e.rhs with
    | error f =>
      rw [Act.bind_of_failed (reading_of_error hy), Act.bind_of_failed (reading_of_error ?_)]
      rw [hy]
      rfl
    | ok y =>
      rw [Act.bind_of_done (reading_of_ok hy)]
      cases hwritten : y.written with
      | error f => exact absurd ((y.tooLongIff_written f).mp hwritten).2 (hshort y hy)
      | ok text =>
        rw [update_of_written hwritten, Act.bind_apply, Act.bind_apply]
        refine congrArg (Progress.bind _) (reading_congr ?_)
        rw [hread, hy]
        rfl
  · intro y hy hlong
    have hwritten : y.written = .error (.tooManyDigits none) :=
      (y.tooLongIff_written _).mpr ⟨rfl, hlong⟩
    rw [Act.bind_of_done (reading_of_ok hy), update_of_overlong hwritten]
    rfl

def succeeds {α : Type} (p : Progress Session Fault α) : Option Bool :=
  p.finish.map fun r => r.1.toBool

def updating (op : Operator) (name : String) (rhs : Value) : Expression where
  lhs := .text name
  operator := some (op.symbol ++ "=")
  rhsKind := some .scalar
  rhs := rhs

/-- The same assignment, spelled out. -/
def spellingOut (op : Operator) (name : String) (rhs : Value) : Expression where
  lhs := .text name
  operator := some "="
  rhsKind := some .scalar
  rhs := tokens [("value", .text name), ("operator", .text op.symbol), ("group", rhs)]

theorem updates_updating (op : Operator) (name : String) (rhs : Value) :
    (updating op name rhs).Updates op name := ⟨rfl, rfl, rfl, .inr rfl⟩

theorem spellsOut_spellingOut (op : Operator) (name : String) (rhs : Value) :
    (spellingOut op name rhs).SpellsOut (updating op name rhs) op name :=
  ⟨rfl, rfl, rfl, rfl, _, _, _, rfl, isToken_token _ _, isToken_token _ _, isToken_token _ _⟩

/-- A text and what a name stands for. -/
def praise : Value :=
  tokens [("value", .text "\", o \""), ("operator", .text "+"), ("value", .text "name")]

theorem mutate_updates_praise :
    mutate refused (some (updating .add "name" praise)) lenientPurse =
      mutate refused (some (spellingOut .add "name" praise)) lenientPurse ∧
    succeeds (mutate refused (some (updating .add "name" praise)) lenientPurse) = some true := by
  have hname : lenientPurse.bindings.Defines "name" := .inl ⟨_, List.mem_singleton_self _, rfl⟩
  have hvalue : lenientPurse.bindings.resolve .boolean praise = .ok (.text ", o gold") :=
    eq_of_text? (by decide +kernel)
  refine ⟨(mutate_updates refused (updates_updating .add "name" praise)
    (spellsOut_spellingOut .add "name" praise) (.inr hname)).1 ?_, by decide +kernel⟩
  intro y hy
  obtain rfl : .text ", o gold" = y := Except.ok.inj (hvalue.symm.trans hy)
  exact nofun

/-- A state with a large number and a small one. -/
def hoard : Session where
  bindings :=
    { hosts := [{ values := [(.text "a", .int (Nat.pow 10 2150 : Nat)), (.text "x", .int 0)] }],
      active := [0] }

/-- The large number squared. -/
def riches : Value :=
  tokens [("value", .text "a"), ("operator", .text "*"), ("value", .text "a")]

theorem mutate_riches : ¬ ∀ (ask : Ask) (s : Session) (e e' : Expression) (op : Operator)
    (name : String), e.Updates op name → e'.SpellsOut e op name →
      (s.bindings.strict = true ∨ s.bindings.Defines name) →
        ∀ r t, (mutate ask (some e) s).finish = some (r, t) →
          ∃ t', (mutate ask (some e') s).finish = some (r, t') ∧ t'.bindings = t.bindings := by
  have hfails : succeeds (mutate refused (some (updating .mul "x" riches)) hoard) =
      some false := by decide +kernel
  have hsucceeds : succeeds (mutate refused (some (spellingOut .mul "x" riches)) hoard) =
      some true := by decide +kernel
  intro h
  obtain ⟨⟨r, t⟩, hr, hfalse⟩ := Option.map_eq_some_iff.mp hfails
  obtain ⟨t', ht', -⟩ := h refused hoard _ _ .mul "x" (updates_updating .mul "x" riches)
    (spellsOut_spellingOut .mul "x" riches) (.inl rfl) r t hr
  rw [succeeds, ht', Option.map_some, hfalse] at hsucceeds
  cases hsucceeds

end Play
end Parley

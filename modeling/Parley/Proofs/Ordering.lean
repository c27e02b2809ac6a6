import Parley.Proofs.Guard
import Parley.Proofs.Scalar

/-
Conditions that order two scalars.

Such a condition evaluates its right side first, so that a name on the left that nothing
defines can take a default that suits the value on the right.  Where no default is taken on
the left, neither the order nor the hint shows in what the condition decides: it holds
exactly when the sides, evaluated from left to right as everywhere else, have values for
which the comparison holds, and it fails exactly when a side or the comparison fails
(`check_ordering`).

All that the order decides is which of two faults is raised.  If the right side fails, it is
its own, whatever the left one does (`check_of_fault`).
-/

namespace Parley

/-- Two results that do not depend on each other agree in either order. -/
theorem Agrees.swap {α β γ : Type} (x : Except Fault α) (y : Except Fault β)
    (f : α → β → Except Fault γ) :
    Agrees (do let b ← y; let a ← x; f a b) (do let a ← x; let b ← y; f a b) := by
  cases x with
  | ok a => exact .refl _
  | error e =>
    cases y with
    | ok b => exact .refl _
    | error e' => exact .of_faults ⟨e', rfl⟩ ⟨e, rfl⟩

/-- A condition that orders a scalar against another. -/
structure Expression.Orders (e : Expression) (r : Relation) : Prop where
  lhs : e.lhsKind = .scalar
  operator : e.operator = some r.symbol
  rhs : e.rhsKind = none ∨ e.rhsKind = some .scalar

theorem Expression.Orders.comparison?_eq {e : Expression} {r : Relation} (h : e.Orders r) :
    e.comparison? = some (.ordered r) := by
  rw [Expression.comparison?, h.operator]
  cases r <;> rfl

namespace Bindings

/-- Two scalars evaluated from left to right, and compared. -/
def compared (b : Bindings) (r : Relation) (lhs rhs : Value) : Except Fault Bool := do
  let x ← b.resolve .boolean lhs
  let y ← b.resolve .boolean rhs
  Value.order r x y

/-- Two scalars evaluated from right to left, and compared.  A default on the left suits the
value on the right. -/
def ordered (b : Bindings) (r : Relation) (lhs rhs : Value) : Except Fault Bool := do
  let y ← b.resolve .boolean rhs
  let x ← b.resolve (Hint.ofValue y) lhs
  Value.order r x y

theorem compared_eq_ok {b : Bindings} {r : Relation} {lhs rhs : Value} {holds : Bool} :
    b.compared r lhs rhs = .ok holds ↔ ∃ x y, b.resolve .boolean lhs = .ok x ∧
      b.resolve .boolean rhs = .ok y ∧ Value.order r x y = .ok holds := by
  simp only [compared, bind_eq_ok, exists_and_left]

theorem compared_eq_error {b : Bindings} {r : Relation} {lhs rhs : Value} :
    (∃ f, b.compared r lhs rhs = .error f) ↔ (∃ f, b.resolve .boolean lhs = .error f) ∨
      (∃ f, b.resolve .boolean rhs = .error f) ∨
        ∃ x y, b.resolve .boolean lhs = .ok x ∧ b.resolve .boolean rhs = .ok y ∧
          ∃ f, Value.order r x y = .error f := by
  unfold compared
  cases b.resolve .boolean lhs with
  | error e => exact ⟨fun _ => .inl ⟨e, rfl⟩, fun _ => ⟨e, rfl⟩⟩
  | ok x =>
    show (∃ f, (b.resolve .boolean rhs >>= Value.order r x) = .error f) ↔ _
    simp [bind_eq_error, exists_or, exists_comm]

theorem agrees_ordered {b : Bindings} {lhs : Value} (h : b.Covers lhs) (r : Relation)
    (rhs : Value) : Agrees (b.ordered r lhs rhs) (b.compared r lhs rhs) := by
  have hhint (y : Value) : b.resolve (Hint.ofValue y) lhs = b.resolve .boolean lhs :=
    b.resolve_eq_of_covers h _ _
  simp only [ordered, hhint]
  exact .swap _ _ _

end Bindings

namespace Play

variable {e : Expression} {r : Relation}

theorem check_of_orders (ask : Ask) (h : e.Orders r) :
    check ask (some e) = reading fun b => b.ordered r e.lhs e.rhs := by
  show checkExpression ask e = _
  rw [checkExpression, h.lhs, h.comparison?_eq]
  show (rightSide ask e "condition" >>= fun y =>
    reading (fun b => b.resolve (Hint.ofValue y) e.lhs) >>= fun x =>
      reading fun _ => Value.order r x y) = _
  rw [rightSide_of_scalar ask h.rhs]
  simp only [reading_bind]
  rfl

theorem check_of_fault (ask : Ask) {s : Session} {f : Fault} (h : e.Orders r)
    (hf : s.bindings.resolve .boolean e.rhs = .error f) : check ask (some e) s = .failed f s := by
  rw [check_of_orders ask h]
  refine reading_of_error ?_
  rw [Bindings.ordered, hf]
  rfl

/-- An ordering of two scalars, where no default is taken on the left, decides what
evaluating its sides from left to right with the usual hint decides, and raises a fault
exactly when that does.  The session is left as it was. -/
theorem check_ordering (ask : Ask) {s : Session} (h : e.Orders r)
    (hcovers : s.bindings.Covers e.lhs) :
    (∀ holds t, check ask (some e) s = .done holds t ↔ t = s ∧
      ∃ x y, s.bindings.resolve .boolean e.lhs = .ok x ∧
        s.bindings.resolve .boolean e.rhs = .ok y ∧ Value.order r x y = .ok holds) ∧
    ((∃ f t, check ask (some e) s = .failed f t) ↔
      (∃ f, s.bindings.resolve .boolean e.lhs = .error f) ∨
        (∃ f, s.bindings.resolve .boolean e.rhs = .error f) ∨
          ∃ x y, s.bindings.resolve .boolean e.lhs = .ok x ∧
            s.bindings.resolve .boolean e.rhs = .ok y ∧ ∃ f, Value.order r x y = .error f) := by
  have hagrees : Agrees (s.bindings.ordered r e.lhs e.rhs) (s.bindings.compared r e.lhs e.rhs) :=
    Bindings.agrees_ordered hcovers r e.rhs
  constructor
  · intro holds t
    rw [check_of_orders ask h, reading_eq_done, hagrees holds, Bindings.compared_eq_ok, and_comm]
  · rw [check_of_orders ask h, ← Bindings.compared_eq_error, ← hagrees.fails_iff]
    constructor
    · rintro ⟨f, t, hf⟩
      exact ⟨f, (reading_eq_failed.mp hf).1⟩
    · rintro ⟨f, hf⟩
      exact ⟨f, s, reading_of_error hf⟩

/-- A name in a list of tokens is the text of one of them, which is no operator unless it
stands alone, or a name in a group. -/
theorem names_tokens {ts : List (String × Value)} {name : String} (h : (tokens ts).Names name) :
    ∃ t ∈ ts, (t.2 = .text name ∧ (t.1 = "operator" → ts.length = 1)) ∨
      t.1 = "group" ∧ t.2.Names name := by
  have hentries (kind : String) (held : Value) :
      Token.ofEntries [(.text "type", .text kind), (.text "value", held)] =
        { kind := .text kind, value := some held } := by
    simp [Token.ofEntries, Table.find?, Value.alike_text]
  have hkinds (s t : String) : (Value.text s).eq (.text t) = (s == t) :=
    (Value.eq_eq_alike (fun _ h => by cases h) _).trans (Value.alike_text s t)
  cases h with
  | operand htokens ht hgroup hop hvalue =>
    cases htokens
    obtain ⟨t, hmem, ht⟩ := List.mem_map.mp ht
    cases ht
    rw [hentries] at hop hvalue
    refine ⟨t, hmem, .inl ⟨Option.some.inj hvalue, fun hkind => ?_⟩⟩
    rw [Token.isOperator, hkinds, hkind] at hop
    cases hop
  | lone htokens hop hvalue hunknown =>
    have hlen : (ts.map fun t => token t.1 t.2).length = 1 := by
      rw [Option.some.inj htokens]
      rfl
    obtain ⟨t, rfl⟩ := List.length_eq_one_iff.mp ((List.length_map _).symm.trans hlen)
    cases htokens
    rw [hentries] at hvalue
    exact ⟨t, List.mem_singleton_self t, .inl ⟨Option.some.inj hvalue, fun _ => rfl⟩⟩
  | group htokens ht hgroup hvalue hname =>
    cases htokens
    obtain ⟨t, hmem, ht⟩ := List.mem_map.mp ht
    cases ht
    rw [hentries] at hgroup hvalue
    cases hvalue
    rw [Token.isGroup, hkinds] at hgroup
    exact ⟨t, hmem, .inr ⟨eq_of_beq hgroup, hname⟩⟩

/-- A boast about something against the name of that thing. -/
def boastful : Expression where
  lhs := tokens [("group", tokens [("value", .text "name")]), ("operator", .text "+"),
    ("value", .text "2"), ("operator", .text "*"), ("value", .int 3)]
  operator := some ">"
  rhsKind := some .scalar
  rhs := .text "name"

theorem covers_boastful : lenientPurse.bindings.Covers boastful.lhs := by
  refine .inr fun name hname hliteral => ?_
  have hheld (h : (tokens [("value", .text "name")]).Names name) : name = "name" := by
    simpa [eq_comm] using names_tokens h
  have hnames : name = "name" ∨ name = "2" := by
    obtain ⟨t, ht, h⟩ := names_tokens hname
    simp only [List.mem_cons, List.not_mem_nil, or_false] at ht
    rcases ht with rfl | rfl | rfl | rfl | rfl
    · rcases h with ⟨h, -⟩ | ⟨-, h⟩
      · cases h
      · exact .inl (hheld h)
    all_goals simp_all
  rcases hnames with rfl | rfl
  · exact .inl ⟨_, List.mem_singleton_self _, rfl⟩
  · exact absurd hliteral (by decide +kernel)

theorem check_ordering_boastful : check refused (some boastful) lenientPurse =
    .done true lenientPurse := by
  have h : boastful.Orders .gt := ⟨rfl, rfl, .inr rfl⟩
  have hlhs : lenientPurse.bindings.resolve .boolean boastful.lhs = .ok (.text "gold6") :=
    eq_of_text? (by decide +kernel)
  have hrhs : lenientPurse.bindings.resolve .boolean boastful.rhs = .ok (.text "gold") :=
    eq_of_text? (by decide +kernel)
  exact ((check_ordering refused h covers_boastful).1 true _).mpr
    ⟨rfl, .text "gold6", .text "gold", hlhs, hrhs, by decide +kernel⟩

end Play
end Parley

import Parley.Expression.Resolve

/-
Token lists as arithmetic.

A well-formed list, operands with an operator between every two, is a sum of products of
operands, and a group is an operand that holds such a list again.  Resolving the list
gives the value of that formula, where every operand is read once and the operators are
applied to what was read (`resolve_of_wellFormed`).

Between the two folds a value is kept as a token, and a text among the values as a quoted
one.  So what the proof follows through a fold is a token that denotes a value: reading
it gives the value and asks no state for it.
-/

namespace Parley

/-! ## Results that agree -/

section

variable {α β : Type} {x : Except Fault α} {f : α → Except Fault β}

theorem bind_eq_ok {b : β} : (x >>= f) = .ok b ↔ ∃ a, x = .ok a ∧ f a = .ok b := by
  cases x with
  | ok a => simp [bind, Except.bind]
  | error e => simp [bind, Except.bind]

theorem bind_eq_error {e : Fault} :
    (x >>= f) = .error e ↔ x = .error e ∨ ∃ a, x = .ok a ∧ f a = .error e := by
  cases x with
  | ok a => simp [bind, Except.bind]
  | error e' => simp [bind, Except.bind]

end

/-- Two results that are the same value, or both faults. -/
def Agrees {α : Type} (x y : Except Fault α) : Prop := ∀ a, x = .ok a ↔ y = .ok a

namespace Agrees

variable {α β : Type} {x y : Except Fault α}

theorem refl (x : Except Fault α) : Agrees x x := fun _ => Iff.rfl

theorem fails_iff (h : Agrees x y) : (∃ e, x = .error e) ↔ ∃ e, y = .error e := by
  cases x with
  | ok a =>
    have hy : y = .ok a := (h a).mp rfl
    simp [hy]
  | error e =>
    cases y with
    | ok a => exact nomatch (h a).mpr rfl
    | error e' => simp

theorem of_faults (hx : ∃ e, x = .error e) (hy : ∃ e, y = .error e) : Agrees x y := by
  obtain ⟨e, rfl⟩ := hx
  obtain ⟨e', rfl⟩ := hy
  exact fun a => ⟨fun h => (nomatch h), fun h => (nomatch h)⟩

theorem bind {f g : α → Except Fault β} (h : Agrees x y) (hf : ∀ a, Agrees (f a) (g a)) :
    Agrees (x >>= f) (y >>= g) := by
  cases hx : x with
  | ok a =>
    obtain rfl : y = .ok a := (h a).mp hx
    exact hf a
  | error e =>
    obtain ⟨e', rfl⟩ := h.fails_iff.mp ⟨e, hx⟩
    exact .of_faults ⟨e, rfl⟩ ⟨e', rfl⟩

end Agrees

/-! ## The grammar -/

/-- A mapping that has a type and holds something. -/
def Value.IsToken (t : Value) (kind : String) (held : Value) : Prop :=
  ∃ es, t = .dict es ∧ Table.find? es (.text "type") = some (.text kind) ∧
    Table.find? es (.text "value") = some held

def Value.IsOperatorToken (t : Value) (op : Operator) : Prop :=
  t.IsToken "operator" (.text op.symbol)

/-- Operands with an operator between every two.  A group is an operand if it holds such
a list again, or one of the `extra` lists. -/
inductive Formed (extra : List Value → Prop) : List Value → Prop
  | value {t raw : Value} : t.IsToken "value" raw → Formed extra [t]
  | group {t held : Value} {ts : List Value} :
    t.IsToken "group" held → held.elements? = some ts → Formed extra ts → Formed extra [t]
  | extra {t held : Value} {ts : List Value} :
    t.IsToken "group" held → held.elements? = some ts → extra ts → Formed extra [t]
  | cons {t o : Value} {op : Operator} {ts : List Value} :
    Formed extra [t] → o.IsOperatorToken op → Formed extra ts → Formed extra (t :: o :: ts)

/-- Well-formed lists of tokens. -/
abbrev WellFormed : List Value → Prop := Formed fun _ => False

/-- What arithmetic makes of operands. -/
inductive Formula where
  | operand (raw : Value)
  | apply (op : Operator) (l r : Formula)

/-- The value of a formula: operands are read, and operators applied to what was read. -/
def Formula.value (b : Bindings) (hint : Hint) : Formula → Except Fault Value
  | .operand raw => b.valueOf hint raw
  | .apply op l r => do
    let x ← l.value b hint
    let y ← r.value b hint
    Value.apply op x y

/-- How tightly the operators of a formula bind. -/
inductive Precedence where
  | operand
  | product
  | sum

/-- The formula that a list of tokens spells.  Products bind tighter than sums, both
associate to the left, and a group spells what it holds. -/
inductive Spells : Precedence → List Value → Formula → Prop
  | value {t raw : Value} : t.IsToken "value" raw → Spells .operand [t] (.operand raw)
  | group {t held : Value} {ts : List Value} {f : Formula} :
    t.IsToken "group" held → held.elements? = some ts → Spells .sum ts f →
      Spells .operand [t] f
  | factor {ts : List Value} {f : Formula} : Spells .operand ts f → Spells .product ts f
  | product {ts us : List Value} {o : Value} {op : Operator} {f g : Formula} :
    Spells .product ts f → op ∈ Operator.multiplicative → o.IsOperatorToken op →
      Spells .operand us g → Spells .product (ts ++ o :: us) (.apply op f g)
  | term {ts : List Value} {f : Formula} : Spells .product ts f → Spells .sum ts f
  | sum {ts us : List Value} {o : Value} {op : Operator} {f g : Formula} :
    Spells .sum ts f → op ∈ Operator.additive → o.IsOperatorToken op →
      Spells .product us g → Spells .sum (ts ++ o :: us) (.apply op f g)

/-! ## Every well-formed list spells a formula -/

namespace Operator

theorem mem_multiplicative_or_additive (op : Operator) :
    op ∈ multiplicative ∨ op ∈ additive := by
  cases op <;> decide

end Operator

namespace Spells

variable {ts us : List Value} {o : Value} {op : Operator} {f g : Formula}

/-- A factor joins the last product of a sum. -/
theorem join_factor (hts : Spells .sum ts f) (hop : op ∈ Operator.multiplicative)
    (ho : o.IsOperatorToken op) (hus : Spells .operand us g) :
    ∃ h, Spells .sum (ts ++ o :: us) h := by
  cases hts with
  | term hts => exact ⟨_, .term (.product hts hop ho hus)⟩
  | sum hts hop' ho' hlast =>
    rw [List.append_assoc, List.cons_append]
    exact ⟨_, .sum hts hop' ho' (.product hlast hop ho hus)⟩

theorem join_product (hts : Spells .sum ts f) (ho : o.IsOperatorToken op)
    (hus : Spells .product us g) : ∃ h, Spells .sum (ts ++ o :: us) h := by
  generalize hp : Precedence.product = p at hus
  induction hus generalizing ts f with
  | factor hus =>
    rcases op.mem_multiplicative_or_additive with hop | hop
    · exact hts.join_factor hop ho hus
    · exact ⟨_, .sum hts hop ho (.factor hus)⟩
  | product hfirst hop' ho' hlast ih =>
    obtain ⟨h, hh⟩ := ih hts hp
    rw [← List.cons_append, ← List.append_assoc]
    exact hh.join_factor hop' ho' hlast
  | _ => cases hp

theorem join_sum (hts : Spells .sum ts f) (ho : o.IsOperatorToken op)
    (hus : Spells .sum us g) : ∃ h, Spells .sum (ts ++ o :: us) h := by
  generalize hp : Precedence.sum = p at hus
  induction hus generalizing ts f with
  | term hus => exact hts.join_product ho hus
  | sum hfirst hop' ho' hlast ih =>
    obtain ⟨h, hh⟩ := ih hts hp
    rw [← List.cons_append, ← List.append_assoc]
    exact ⟨_, .sum hh hop' ho' hlast⟩
  | _ => cases hp

end Spells

theorem WellFormed.exists_spells {ts : List Value} (h : WellFormed ts) :
    ∃ f, Spells .sum ts f := by
  induction h with
  | value ht => exact ⟨_, .term (.factor (.value ht))⟩
  | group ht hheld _ ih =>
    obtain ⟨f, hf⟩ := ih
    exact ⟨f, .term (.factor (.group ht hheld hf))⟩
  | extra _ _ hfalse => exact hfalse.elim
  | cons _ ho _ ihfirst ihrest =>
    obtain ⟨f, hf⟩ := ihfirst
    obtain ⟨g, hg⟩ := ihrest
    exact hf.join_sum ho hg

/-! ## Tokens that denote values -/

namespace Token

theorem isOperator_of_kind {s : String} {v : Option Value} :
    isOperator { kind := .text s, value := v } = (s == "operator") :=
  Value.alike_text s "operator"

theorem isGroup_of_kind {s : String} {v : Option Value} :
    isGroup { kind := .text s, value := v } = (s == "group") :=
  Value.alike_text s "group"

theorem operatorIn?_of_not_operator {t : Token} (h : t.isOperator = false)
    (ops : List Operator) : t.operatorIn? ops = none := by
  rw [operatorIn?, h]
  rfl

def ofOperator (op : Operator) : Token :=
  { kind := .text "operator", value := some (.text op.symbol) }

/-- A level knows the tokens of its own operators. -/
theorem operatorIn?_ofOperator (op : Operator) (ops : List Operator) :
    (ofOperator op).operatorIn? ops = if op ∈ ops then some op else none := by
  have hsymbol (op' : Operator) : (Value.text op.symbol).eq (.text op'.symbol) = (op == op') := by
    refine (Value.alike_text _ _).trans ?_
    cases op <;> cases op' <;> decide
  have hfind : (ops.find? fun op' => op == op') = if op ∈ ops then some op else none := by
    induction ops with
    | nil => rfl
    | cons op' ops ih =>
      by_cases h : op = op'
      · simp [h]
      · simp [beq_false_of_ne h, ih, h]
  simp only [operatorIn?, ofOperator, isOperator_of_kind, raw, Option.getD_some, hsymbol, hfind]
  rfl

end Token

namespace Bindings

variable (b : Bindings) (hint : Hint)

theorem valueOf_quote (v : Value) : b.valueOf hint v.quote = .ok v := by
  cases v with
  | text s => exact valueOf_of_literal (Literal.read?_quote s) b hint
  | _ => rfl

/-- What a group gives is the value of what it holds. -/
theorem resolveEntry_eq (es : List (Value × Value)) : b.resolveEntry hint es =
    match Table.find? es (.text "value") with
    | some v => b.resolve hint v
    | none => b.valueOf hint .null := by
  induction es with
  | nil => rfl
  | cons e rest ih =>
    obtain ⟨k, v⟩ := e
    rw [resolveEntry, Token.isKey]
    by_cases hk : (Value.text "value").alike k = true
    · simp [Table.find?, hk]
    · simpa [Table.find?, hk] using ih

variable {b hint} {t held : Value} {kind : String}

theorem reduce_of_not_group (ht : t.IsToken kind held) (hkind : kind ≠ "group") :
    b.reduce hint t = .ok { kind := .text kind, value := some held } := by
  obtain ⟨es, rfl, htype, hvalue⟩ := ht
  have htoken : Token.ofEntries es = { kind := .text kind, value := some held } := by
    simp [Token.ofEntries, htype, hvalue]
  have hgroup : (Token.ofEntries es).isGroup = false := by
    rw [htoken, Token.isGroup_of_kind]
    exact beq_false_of_ne hkind
  rw [reduce, if_neg (by rw [hgroup]; exact Bool.false_ne_true), htoken]

theorem reduce_of_group (ht : t.IsToken "group" held) :
    b.reduce hint t = (b.resolve hint held).map fun v => .operand v.quote := by
  obtain ⟨es, rfl, htype, hvalue⟩ := ht
  have hgroup : (Token.ofEntries es).isGroup = true := by
    simp only [Token.ofEntries, htype, hvalue]
    exact Token.isGroup_of_kind
  simp only [reduce, hgroup, if_true, resolveEntry_eq, hvalue]
  cases b.resolve hint held <;> rfl

theorem resolve_of_elements {ts : List Value} (h : held.elements? = some ts) :
    b.resolve hint held = b.resolveTokens hint ts := by
  cases held with
  | list ts' =>
    cases h
    rfl
  | tuple ts' =>
    cases h
    rfl
  | _ => cases h

theorem reduceAll_append (ts us : List Value) : b.reduceAll hint (ts ++ us) = (do
    let first ← b.reduceAll hint ts
    let rest ← b.reduceAll hint us
    return first ++ rest) := by
  induction ts with
  | nil => exact (bind_pure (b.reduceAll hint us)).symm
  | cons t ts ih =>
    rw [List.cons_append, reduceAll, reduceAll, ih]
    simp

end Bindings

/-! ## Folding a level -/

namespace Token

section

variable (combine : Operator → Value → Value → Except Fault Value) (ops : List Operator)

/-- Folding turns the one run of tokens into the other, wherever it stands. -/
def Becomes (us ms : List Token) : Prop :=
  ∀ out rest, fold combine ops out (us ++ rest) = fold combine ops (ms.reverse ++ out) rest

/-- Folding fails at a run of tokens, wherever it stands. -/
def Breaks (us : List Token) : Prop :=
  ∀ out rest, ∃ e, fold combine ops out (us ++ rest) = .error e

end

variable {combine : Operator → Value → Value → Except Fault Value} {ops : List Operator}
  {us us' ms ms' : List Token}

theorem becomes_self {t : Token} (h : t.operatorIn? ops = none) : Becomes combine ops [t] [t] := by
  intro out rest
  rw [List.cons_append, List.nil_append, fold, h]
  rfl

theorem Becomes.append (h : Becomes combine ops us ms) (h' : Becomes combine ops us' ms') :
    Becomes combine ops (us ++ us') (ms ++ ms') := by
  intro out rest
  rw [List.append_assoc, h, h', List.reverse_append, List.append_assoc]

theorem Breaks.append_right (h : Breaks combine ops us) (us' : List Token) :
    Breaks combine ops (us ++ us') := by
  intro out rest
  rw [List.append_assoc]
  exact h out _

theorem Becomes.append_breaks (h : Becomes combine ops us ms) (h' : Breaks combine ops us') :
    Breaks combine ops (us ++ us') := by
  intro out rest
  rw [List.append_assoc, h]
  exact h' _ _

/-- An operator between two operands. -/
theorem fold_of_operator {t l r : Token} {op : Operator} (ht : t.operatorIn? ops = some op)
    (hl : l.isOperator = false) (hr : r.isOperator = false) (out rest : List Token) :
    fold combine ops (l :: out) (t :: r :: rest) =
      match combine op l.raw r.raw with
      | .ok v => fold combine ops (operand v :: out) rest
      | .error f => .error f := by
  cases hc : combine op l.raw r.raw <;> simp [fold, ht, hl, hr, hc]

theorem Becomes.fold_eq (h : Becomes combine ops us ms) : fold combine ops [] us = .ok ms := by
  have hfold := h [] []
  rwa [List.append_nil, List.append_nil, fold, List.reverse_reverse] at hfold

theorem Breaks.exists_error (h : Breaks combine ops us) :
    ∃ e, fold combine ops [] us = .error e := by
  obtain ⟨e, he⟩ := h [] []
  exact ⟨e, by rwa [List.append_nil] at he⟩

end Token

/-- What an operator makes of two results. -/
def Operator.applied (op : Operator) (x y : Except Fault Value) : Except Fault Value := do
  let a ← x
  let b ← y
  Value.apply op a b

namespace Operator

variable {op : Operator} {x x' y y' : Except Fault Value}

theorem agrees_applied (hx : Agrees x x') (hy : Agrees y y') :
    Agrees (op.applied x y) (op.applied x' y') :=
  hx.bind fun _ => hy.bind fun _ => .refl _

theorem applied_of_left (hx : ∃ e, x = .error e) : ∃ e, op.applied x y = .error e := by
  obtain ⟨e, rfl⟩ := hx
  exact ⟨e, rfl⟩

theorem applied_of_right (hy : ∃ e, y = .error e) : ∃ e, op.applied x y = .error e := by
  obtain ⟨e, rfl⟩ := hy
  cases x with
  | ok a => exact ⟨e, rfl⟩
  | error e' => exact ⟨e', rfl⟩

end Operator

namespace Bindings

variable (b : Bindings) (hint : Hint)

theorem combine_eq (op : Operator) (l r : Value) : b.combine hint op l r =
    (op.applied (b.valueOf hint l) (b.valueOf hint r)).map Value.quote := by
  simp only [combine, Operator.applied]
  cases b.valueOf hint l with
  | error e => rfl
  | ok x =>
    cases b.valueOf hint r with
    | error e => rfl
    | ok y => cases Value.apply op x y <;> rfl

/-- An operand that reads as a result says. -/
structure Denotes (t : Token) (x : Except Fault Value) : Prop where
  operand : t.isOperator = false
  held : ∃ raw, t.value = some raw ∧ Agrees (b.valueOf hint raw) x

/-- A run of tokens that a level folds to one operand, which denotes a result; or a fault
on both sides. -/
inductive Folds (ops : List Operator) (us : List Token) (x : Except Fault Value) : Prop
  | operand (t : Token) : b.Denotes hint t x → Token.Becomes (b.combine hint) ops us [t] →
    Folds ops us x
  | fault : (∃ e, x = .error e) → Token.Breaks (b.combine hint) ops us → Folds ops us x

/-- The same for both levels, one after the other. -/
inductive Sums (us : List Token) (x : Except Fault Value) : Prop
  | products (ms : List Token) : b.Folds hint Operator.additive ms x →
    Token.Becomes (b.combine hint) Operator.multiplicative us ms → Sums us x
  | fault : (∃ e, x = .error e) →
    Token.Breaks (b.combine hint) Operator.multiplicative us → Sums us x

variable {b hint} {ops : List Operator} {op : Operator} {t o : Token} {us ws : List Token}
  {x y : Except Fault Value}

theorem denotes_operand (v : Value) : b.Denotes hint (.operand v.quote) (.ok v) where
  operand := Token.isOperator_of_kind
  held := ⟨_, rfl, by rw [valueOf_quote]; exact .refl _⟩

theorem Denotes.congr (h : b.Denotes hint t x) (hxy : Agrees x y) : b.Denotes hint t y := by
  obtain ⟨raw, hraw, hx⟩ := h.held
  exact ⟨h.operand, raw, hraw, fun v => (hx v).trans (hxy v)⟩

theorem Denotes.folds (h : b.Denotes hint t x) (ops : List Operator) : b.Folds hint ops [t] x :=
  .operand t h (Token.becomes_self (Token.operatorIn?_of_not_operator h.operand ops))

/-- One more operand of the level. -/
theorem Folds.join (hus : b.Folds hint ops us x) (ho : o.operatorIn? ops = some op)
    (ht : b.Denotes hint t y) : b.Folds hint ops (us ++ [o, t]) (op.applied x y) := by
  cases hus with
  | fault hx hbreaks => exact .fault (Operator.applied_of_left hx) (hbreaks.append_right _)
  | operand l hl hbecomes =>
    obtain ⟨rawl, hrawl, hx⟩ := hl.held
    obtain ⟨rawt, hrawt, hy⟩ := ht.held
    have hagrees : Agrees (op.applied (b.valueOf hint rawl) (b.valueOf hint rawt))
        (op.applied x y) := Operator.agrees_applied hx hy
    have hfold (out rest : List Token) :
        Token.fold (b.combine hint) ops out (us ++ [o, t] ++ rest) =
        match (op.applied (b.valueOf hint rawl) (b.valueOf hint rawt)).map Value.quote with
        | .ok v => Token.fold (b.combine hint) ops (.operand v :: out) rest
        | .error f => .error f := by
      rw [List.append_assoc, hbecomes]
      refine (Token.fold_of_operator ho hl.operand ht.operand out rest).trans ?_
      rw [Token.raw, Token.raw, hrawl, hrawt, Option.getD_some, Option.getD_some, combine_eq]
    cases hz : op.applied (b.valueOf hint rawl) (b.valueOf hint rawt) with
    | ok z =>
      have hz' : b.Denotes hint (.operand z.quote) (op.applied x y) :=
        (denotes_operand z).congr (hz ▸ hagrees)
      refine .operand (.operand z.quote) hz' fun out rest => ?_
      rw [hfold, hz]
      rfl
    | error e =>
      refine .fault (hagrees.fails_iff.mp ⟨e, hz⟩) fun out rest => ⟨e, ?_⟩
      rw [hfold, hz]
      rfl

/-- A product is a sum of one. -/
theorem Folds.sums (h : b.Folds hint Operator.multiplicative us x) : b.Sums hint us x := by
  cases h with
  | operand t ht hbecomes => exact .products [t] (ht.folds _) hbecomes
  | fault hx hbreaks => exact .fault hx hbreaks

/-- One more product. -/
theorem Sums.join (hus : b.Sums hint us x) (ho : o.operatorIn? Operator.additive = some op)
    (ho' : o.operatorIn? Operator.multiplicative = none)
    (hws : b.Folds hint Operator.multiplicative ws y) :
    b.Sums hint (us ++ o :: ws) (op.applied x y) := by
  cases hus with
  | fault hx hbreaks => exact .fault (Operator.applied_of_left hx) (hbreaks.append_right _)
  | products ms hms hus =>
    have hfirst : Token.Becomes (b.combine hint) Operator.multiplicative (us ++ [o]) (ms ++ [o]) :=
      hus.append (Token.becomes_self ho')
    rw [List.append_cons]
    cases hws with
    | operand t ht hbecomes =>
      have hall := hfirst.append hbecomes
      rw [List.append_assoc ms] at hall
      exact .products (ms ++ [o, t]) (hms.join ho ht) hall
    | fault hy hbreaks =>
      exact .fault (Operator.applied_of_right hy) (hfirst.append_breaks hbreaks)

/-- The value of what both levels leave, which must be one operand. -/
def remaining (b : Bindings) (hint : Hint) : List Token → Except Fault Value
  | [t] =>
    match t.value with
    | some v => b.valueOf hint v
    | none => .error (.missingKey (Text.quoted "value"))
  | _ => .error (.notExported "expression")

section

variable {ms left : List Token} {e : Fault}

theorem total_eq (b : Bindings) (hint : Hint) (us : List Token) : b.total hint us = (do
    let ms ← Token.fold (b.combine hint) Operator.multiplicative [] us
    let left ← Token.fold (b.combine hint) Operator.additive [] ms
    b.remaining hint left) := rfl

theorem total_of_folds
    (h : Token.fold (b.combine hint) Operator.multiplicative [] us = .ok ms)
    (h' : Token.fold (b.combine hint) Operator.additive [] ms = .ok left) :
    b.total hint us = b.remaining hint left := by
  rw [total_eq, h]
  show (Token.fold (b.combine hint) Operator.additive [] ms >>= _) = _
  rw [h']
  rfl

theorem total_of_fault
    (h : Token.fold (b.combine hint) Operator.multiplicative [] us = .error e) :
    b.total hint us = .error e := by
  rw [total_eq, h]
  rfl

theorem total_of_fault_in_sum
    (h : Token.fold (b.combine hint) Operator.multiplicative [] us = .ok ms)
    (h' : Token.fold (b.combine hint) Operator.additive [] ms = .error e) :
    b.total hint us = .error e := by
  rw [total_eq, h]
  show (Token.fold (b.combine hint) Operator.additive [] ms >>= _) = _
  rw [h']
  rfl

end

/-- Both levels together give what a run stands for. -/
theorem Sums.total (h : b.Sums hint us x) : Agrees (b.total hint us) x := by
  cases h with
  | fault hx hbreaks =>
    obtain ⟨e, he⟩ := hbreaks.exists_error
    rw [total_of_fault he]
    exact .of_faults ⟨e, rfl⟩ hx
  | products ms hms hus =>
    cases hms with
    | fault hx hbreaks =>
      obtain ⟨e, he⟩ := hbreaks.exists_error
      rw [total_of_fault_in_sum hus.fold_eq he]
      exact .of_faults ⟨e, rfl⟩ hx
    | operand t ht hms =>
      obtain ⟨raw, hraw, hx⟩ := ht.held
      rw [total_of_folds hus.fold_eq hms.fold_eq, remaining, hraw]
      exact hx

/-! ## Resolving a list -/

/-- What resolving the groups of a list leaves to be folded, for a list that spells a formula
at a precedence. -/
def Stage (b : Bindings) (hint : Hint) (us : List Token) (x : Except Fault Value) :
    Precedence → Prop
  | .operand => ∃ u, us = [u] ∧ b.Denotes hint u x
  | .product => b.Folds hint Operator.multiplicative us x
  | .sum => b.Sums hint us x

/-- Resolving the groups of a list gives tokens that stand for its formula, or a fault on
both sides. -/
def Reduces (b : Bindings) (hint : Hint) (p : Precedence) (ts : List Value) (f : Formula) : Prop :=
  (∃ us, b.reduceAll hint ts = .ok us ∧ b.Stage hint us (f.value b hint) p) ∨
    (∃ e, b.reduceAll hint ts = .error e) ∧ ∃ e, f.value b hint = .error e

variable {ts vs : List Value} {o' : Value} {f g : Formula} {p q r : Precedence}

theorem reduceAll_singleton (b : Bindings) (hint : Hint) (t : Value) :
    b.reduceAll hint [t] = (b.reduce hint t).map fun u => [u] := by
  rw [reduceAll, reduceAll]
  cases b.reduce hint t <;> rfl

theorem reduceAll_join (b : Bindings) (hint : Hint) (ts vs : List Value) {o : Value}
    (ho : o.IsOperatorToken op) : b.reduceAll hint (ts ++ o :: vs) = (do
      let first ← b.reduceAll hint ts
      let rest ← b.reduceAll hint vs
      return first ++ .ofOperator op :: rest) := by
  have hreduce : b.reduce hint o = .ok (.ofOperator op) := reduce_of_not_group ho (by decide)
  rw [reduceAll_append, reduceAll, hreduce]
  cases b.reduceAll hint ts with
  | error e => rfl
  | ok us => cases b.reduceAll hint vs <;> rfl

theorem resolveTokens_eq (b : Bindings) (hint : Hint) (ts : List Value) :
    b.resolveTokens hint ts = b.reduceAll hint ts >>= b.total hint := by
  cases ts with
  | nil => rfl
  | cons t ts =>
    rw [resolveTokens, reduceAll]
    simp

theorem Reduces.join (hts : b.Reduces hint p ts f) (hvs : b.Reduces hint q vs g)
    (ho : o'.IsOperatorToken op)
    (hstage : ∀ us ws, b.Stage hint us (f.value b hint) p → b.Stage hint ws (g.value b hint) q →
      b.Stage hint (us ++ .ofOperator op :: ws)
        (op.applied (f.value b hint) (g.value b hint)) r) :
    b.Reduces hint r (ts ++ o' :: vs) (.apply op f g) := by
  have hjoin := reduceAll_join b hint ts vs ho
  rcases hts with ⟨us, hus, hfirst⟩ | ⟨⟨e, he⟩, hf⟩
  · rw [hus] at hjoin
    rcases hvs with ⟨ws, hws, hlast⟩ | ⟨⟨e, he⟩, hg⟩
    · rw [hws] at hjoin
      exact .inl ⟨_, hjoin, hstage us ws hfirst hlast⟩
    · rw [he] at hjoin
      exact .inr ⟨⟨e, hjoin⟩, Operator.applied_of_right hg⟩
  · rw [he] at hjoin
    exact .inr ⟨⟨e, hjoin⟩, Operator.applied_of_left hf⟩

theorem Reduces.resolveTokens (h : b.Reduces hint .sum ts f) :
    Agrees (b.resolveTokens hint ts) (f.value b hint) := by
  rw [resolveTokens_eq]
  rcases h with ⟨us, hus, hsums⟩ | ⟨⟨e, he⟩, hf⟩
  · rw [hus]
    exact hsums.total
  · rw [he]
    exact .of_faults ⟨e, rfl⟩ hf

end Bindings

open Bindings in
theorem Spells.reduces {p : Precedence} {ts : List Value} {f : Formula} (h : Spells p ts f)
    (b : Bindings) (hint : Hint) : b.Reduces hint p ts f := by
  induction h with
  | @value t raw ht =>
    have hreduce : b.reduceAll hint [t] = .ok [{ kind := .text "value", value := some raw }] := by
      rw [reduceAll_singleton, reduce_of_not_group ht (by decide)]
      rfl
    exact .inl ⟨_, hreduce, _, rfl, Token.isOperator_of_kind, raw, rfl, .refl _⟩
  | @group t held ts f ht hheld hts ih =>
    have hagrees : Agrees (b.resolveTokens hint ts) (f.value b hint) := ih.resolveTokens
    have hreduce := reduceAll_singleton b hint t
    rw [reduce_of_group ht, resolve_of_elements hheld] at hreduce
    cases hv : b.resolveTokens hint ts with
    | ok v =>
      rw [hv] at hreduce hagrees
      exact .inl ⟨_, hreduce, _, rfl, (denotes_operand v).congr hagrees⟩
    | error e =>
      rw [hv] at hreduce hagrees
      exact .inr ⟨⟨e, hreduce⟩, hagrees.fails_iff.mp ⟨e, rfl⟩⟩
  | factor _ ih =>
    rcases ih with ⟨_, hus, u, rfl, hu⟩ | hfault
    · exact .inl ⟨_, hus, hu.folds _⟩
    · exact .inr hfault
  | @product _ _ _ op _ _ _ hop ho _ ihfirst ihlast =>
    refine ihfirst.join ihlast ho fun us ws hus hws => ?_
    obtain ⟨w, rfl, hw⟩ := hws
    have hknown := Token.operatorIn?_ofOperator op Operator.multiplicative
    rw [if_pos hop] at hknown
    exact Folds.join hus hknown hw
  | term _ ih =>
    rcases ih with ⟨us, hus, hfolds⟩ | hfault
    · exact .inl ⟨us, hus, Folds.sums hfolds⟩
    · exact .inr hfault
  | @sum _ _ _ op _ _ _ hop ho _ ihfirst ihlast =>
    refine ihfirst.join ihlast ho fun us ws hus hws => ?_
    have hother : op ∉ Operator.multiplicative := by
      revert hop
      cases op <;> decide
    have hknown := Token.operatorIn?_ofOperator op Operator.additive
    have hunknown := Token.operatorIn?_ofOperator op Operator.multiplicative
    rw [if_pos hop] at hknown
    rw [if_neg hother] at hunknown
    exact Sums.join hus hknown hunknown hws

/-- A well-formed list spells a formula, and resolving it gives the value of the formula, or
a fault if some operand cannot be read or some operator cannot be applied. -/
theorem resolve_of_wellFormed {ts : List Value} (h : WellFormed ts) :
    (∃ f, Spells .sum ts f) ∧
      ∀ f, Spells .sum ts f → ∀ (tokens : Value), tokens.elements? = some ts →
        ∀ (b : Bindings) (hint : Hint),
          (∀ v, b.resolve hint tokens = .ok v ↔ f.value b hint = .ok v) ∧
          ((∃ e, b.resolve hint tokens = .error e) ↔ ∃ e, f.value b hint = .error e) := by
  refine ⟨h.exists_spells, fun f hf tokens htokens b hint => ?_⟩
  have hagrees : Agrees (b.resolve hint tokens) (f.value b hint) := by
    rw [Bindings.resolve_of_elements htokens]
    exact (hf.reduces b hint).resolveTokens
  exact ⟨hagrees, hagrees.fails_iff⟩

def token (kind : String) (held : Value) : Value :=
  .dict [(.text "type", .text kind), (.text "value", held)]

theorem isToken_token (kind : String) (held : Value) : (token kind held).IsToken kind held :=
  ⟨_, rfl, by simp [Table.find?, Value.alike_text], by simp [Table.find?, Value.alike_text]⟩

def tokens (ts : List (String × Value)) : Value := .list (ts.map fun t => token t.1 t.2)

/-- A state where the value of one name spells another. -/
def purse : Bindings where
  hosts := [{ values := [(.text "name", .text "gold"), (.text "gold", .int 10)] }]
  active := [0]

/-- A name in a group, and a product, joined by `+`. -/
def boast : List Value :=
  [token "group" (.list [token "value" (.text "name")]), token "operator" (.text "+"),
    token "value" (.text "2"), token "operator" (.text "*"), token "value" (.int 3)]

def text? : Except Fault Value → Option String
  | .ok (.text s) => some s
  | _ => none

theorem eq_of_text? {x : Except Fault Value} {s : String} (h : text? x = some s) :
    x = .ok (.text s) := by
  unfold text? at h
  split at h
  · cases h
    rfl
  · cases h

theorem resolve_of_wellFormed_boast : WellFormed boast ∧
    purse.resolve .boolean (.list boast) = .ok (.text "gold6") := by
  have hplus : (token "operator" (.text "+")).IsOperatorToken .add := isToken_token _ _
  have htimes : (token "operator" (.text "*")).IsOperatorToken .mul := isToken_token _ _
  have hgroup := isToken_token "group" (.list [token "value" (.text "name")])
  have hvalue (raw : Value) := isToken_token "value" raw
  have hformed : WellFormed boast :=
    .cons (.group hgroup rfl (.value (hvalue _))) hplus
      (.cons (.value (hvalue _)) htimes (.value (hvalue _)))
  have hname : Spells .sum [token "value" (.text "name")] (.operand (.text "name")) :=
    .term (.factor (.value (hvalue _)))
  have hproduct : Spells .product ([token "value" (.text "2")] ++
      token "operator" (.text "*") :: [token "value" (.int 3)])
      (.apply .mul (.operand (.text "2")) (.operand (.int 3))) :=
    .product (.factor (.value (hvalue _))) (by decide) htimes (.value (hvalue _))
  have hspells : Spells .sum boast (.apply .add (.operand (.text "name"))
      (.apply .mul (.operand (.text "2")) (.operand (.int 3)))) :=
    .sum (.term (.factor (.group hgroup rfl hname))) (by decide) hplus hproduct
  refine ⟨hformed, ?_⟩
  refine (((resolve_of_wellFormed hformed).2 _ hspells (.list boast) rfl purse .boolean).1 _).mpr ?_
  exact eq_of_text? (by decide +kernel)

end Parley

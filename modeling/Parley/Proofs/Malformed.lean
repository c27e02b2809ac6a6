import Mathlib.Data.List.Forall2
import Parley.Proofs.Formula

/-
Lists of tokens that are no formula.

Resolving a list gives a value only if the list is well-formed, with one exception: a list
whose only token is an operator that no level knows is read as if it were an operand, and
so is a group that holds such a list (`formed_of_resolve`).  Every other list is refused as
badly compiled, unless something that was tried on the way failed before.  What is tried,
reading an operand or applying an operator, is told by `Tries` in the order of evaluation:
each rule asks for what must have succeeded before.
-/

namespace Parley

/-- A list of tokens of the three types, in which every group holds such a list. -/
inductive Tokens : List Value → Prop
  | nil : Tokens []
  | value {t raw : Value} {ts : List Value} :
    t.IsToken "value" raw → Tokens ts → Tokens (t :: ts)
  | operator {t raw : Value} {ts : List Value} :
    t.IsToken "operator" raw → Tokens ts → Tokens (t :: ts)
  | group {t held : Value} {us ts : List Value} :
    t.IsToken "group" held → held.elements? = some us → Tokens us → Tokens ts →
      Tokens (t :: ts)

/-- An operator that no level knows, and nothing else. -/
def Stray (ts : List Value) : Prop :=
  ∃ t raw, ts = [t] ∧ t.IsToken "operator" raw ∧ ∀ op : Operator, raw ≠ .text op.symbol

/-! ## What is tried on the way -/

/-- Reading a raw token, or applying an operator to two values. -/
inductive Attempt where
  | read (raw : Value)
  | apply (op : Operator) (x y : Value)

def Attempt.result (b : Bindings) (hint : Hint) : Attempt → Except Fault Value
  | .read raw => b.valueOf hint raw
  | .apply op x y => Value.apply op x y

namespace Bindings

variable (b : Bindings) (hint : Hint)

/-- What is tried to combine two operands. -/
inductive CombineTries (op : Operator) (l r : Value) : Attempt → Prop
  | left : CombineTries op l r (.read l)
  | right {x : Value} : b.valueOf hint l = .ok x → CombineTries op l r (.read r)
  | apply {x y : Value} : b.valueOf hint l = .ok x → b.valueOf hint r = .ok y →
    CombineTries op l r (.apply op x y)

/-- What is tried to fold a level. -/
inductive FoldTries (ops : List Operator) : List Token → List Token → Attempt → Prop
  | pass {out ts : List Token} {t : Token} {a : Attempt} :
    t.operatorIn? ops = none → FoldTries ops (t :: out) ts a → FoldTries ops out (t :: ts) a
  | here {out ts : List Token} {l t r : Token} {op : Operator} {a : Attempt} :
    t.operatorIn? ops = some op → (l.isOperator || r.isOperator) = false →
      b.CombineTries hint op l.raw r.raw a → FoldTries ops (l :: out) (t :: r :: ts) a
  | later {out ts : List Token} {l t r : Token} {op : Operator} {v : Value} {a : Attempt} :
    t.operatorIn? ops = some op → (l.isOperator || r.isOperator) = false →
      b.combine hint op l.raw r.raw = .ok v → FoldTries ops (.operand v :: out) ts a →
        FoldTries ops (l :: out) (t :: r :: ts) a

/-- What is tried to find the value of a list whose groups are resolved. -/
inductive TotalTries (us : List Token) : Attempt → Prop
  | products {a : Attempt} : b.FoldTries hint Operator.multiplicative [] us a → TotalTries us a
  | sums {ms : List Token} {a : Attempt} :
    Token.fold (b.combine hint) Operator.multiplicative [] us = .ok ms →
      b.FoldTries hint Operator.additive [] ms a → TotalTries us a
  | last {ms : List Token} {t : Token} {raw : Value} :
    Token.fold (b.combine hint) Operator.multiplicative [] us = .ok ms →
      Token.fold (b.combine hint) Operator.additive [] ms = .ok [t] → t.value = some raw →
        TotalTries us (.read raw)

/-- What is tried to resolve a list: groups first, from left to right. -/
inductive Tries : List Value → Attempt → Prop
  | group {before after us : List Value} {bs : List Token} {t held : Value} {a : Attempt} :
    b.reduceAll hint before = .ok bs → t.IsToken "group" held → held.elements? = some us →
      Tries us a → Tries (before ++ t :: after) a
  | total {ts : List Value} {us : List Token} {a : Attempt} :
    b.reduceAll hint ts = .ok us → b.TotalTries hint us a → Tries ts a

/-! ## Faults -/

/-- A fault that says that the list was compiled badly, or comes from something tried. -/
def Explains (e : Fault) (tries : Attempt → Prop) : Prop :=
  e = .notExported "expression" ∨ ∃ a, tries a ∧ a.result b hint = .error e

variable {b hint} {e : Fault} {op : Operator} {ops : List Operator}

theorem Explains.mono {tries tries' : Attempt → Prop} (h : b.Explains hint e tries)
    (himp : ∀ a, tries a → tries' a) : b.Explains hint e tries' := by
  rcases h with he | ⟨a, ha, he⟩
  · exact .inl he
  · exact .inr ⟨a, himp a ha, he⟩

theorem exists_try_of_combine {l r : Value} (h : b.combine hint op l r = .error e) :
    ∃ a, b.CombineTries hint op l r a ∧ a.result b hint = .error e := by
  rw [combine_eq] at h
  cases hl : b.valueOf hint l with
  | error f =>
    rw [hl] at h
    cases h
    exact ⟨_, .left, hl⟩
  | ok x =>
    cases hr : b.valueOf hint r with
    | error f =>
      rw [hl, hr] at h
      cases h
      exact ⟨_, .right hl, hr⟩
    | ok y =>
      have happlied : op.applied (.ok x) (.ok y) = Value.apply op x y := rfl
      rw [hl, hr, happlied] at h
      cases hz : Value.apply op x y with
      | error f =>
        rw [hz] at h
        cases h
        exact ⟨_, .apply hl hr, hz⟩
      | ok z =>
        rw [hz] at h
        cases h

theorem explains_fold {out ts : List Token}
    (h : Token.fold (b.combine hint) ops out ts = .error e) :
    b.Explains hint e (b.FoldTries hint ops out ts) := by
  fun_induction Token.fold (b.combine hint) ops out ts with
  | case1 => cases h
  | case2 out t ts hop ih => exact (ih h).mono fun a => .pass hop
  | case3 | case6 =>
    cases h
    exact .inl rfl
  | case4 t op hop l out r ts hno v hv ih =>
    exact (ih h).mono fun a => .later hop (Bool.eq_false_iff.mpr hno) hv
  | case5 t op hop l out r ts hno f hf =>
    cases h
    obtain ⟨a, ha, he⟩ := exists_try_of_combine hf
    exact .inr ⟨a, .here hop (Bool.eq_false_iff.mpr hno) ha, he⟩

/-! The first attempt that fails decides: so nothing is tried after it. -/

theorem combine_of_tried {l r : Value} {a : Attempt} (h : b.CombineTries hint op l r a)
    (he : a.result b hint = .error e) : b.combine hint op l r = .error e := by
  have hmap {x : Except Fault Value} (hx : x = .error e) : x.map Value.quote = .error e := by
    rw [hx]
    rfl
  rw [combine_eq]
  refine hmap ?_
  cases h with
  | left =>
    have hl : b.valueOf hint l = .error e := he
    rw [hl]
    rfl
  | right hl =>
    have hr : b.valueOf hint r = .error e := he
    rw [hl, hr]
    rfl
  | apply hl hr =>
    rw [hl, hr]
    exact he

theorem fold_of_tried {out ts : List Token} {a : Attempt} (h : b.FoldTries hint ops out ts a)
    (he : a.result b hint = .error e) :
    Token.fold (b.combine hint) ops out ts = .error e := by
  have hsides {l r : Token} (h : (l.isOperator || r.isOperator) = false) :
      l.isOperator = false ∧ r.isOperator = false := by simpa using h
  induction h with
  | pass hop _ ih =>
    rw [Token.fold, hop]
    exact ih he
  | here hop hlr ha =>
    rw [Token.fold_of_operator hop (hsides hlr).1 (hsides hlr).2, combine_of_tried ha he]
  | later hop hlr hv _ ih =>
    rw [Token.fold_of_operator hop (hsides hlr).1 (hsides hlr).2, hv]
    exact ih he

theorem total_of_tried {us : List Token} {a : Attempt} (h : b.TotalTries hint us a)
    (he : a.result b hint = .error e) : b.total hint us = .error e := by
  cases h with
  | products ha => exact total_of_fault (fold_of_tried ha he)
  | sums hms ha => exact total_of_fault_in_sum hms (fold_of_tried ha he)
  | last hms hts hraw =>
    rw [total_of_folds hms hts, remaining, hraw]
    exact he

theorem resolveTokens_of_tried {ts : List Value} {a : Attempt} (h : b.Tries hint ts a)
    (he : a.result b hint = .error e) : b.resolveTokens hint ts = .error e := by
  induction h with
  | @group before after us bs t held a hbefore ht hheld _ ih =>
    have hreduce : b.reduce hint t = .error e := by
      rw [reduce_of_group ht, resolve_of_elements hheld, ih he]
      rfl
    rw [resolveTokens_eq, reduceAll_append, hbefore, reduceAll, hreduce]
    rfl
  | total hus ha =>
    rw [resolveTokens_eq, hus]
    exact total_of_tried ha he

end Bindings

/-! ## Shapes of folded lists -/

namespace Token

variable {combine : Operator → Value → Value → Except Fault Value} {ops : List Operator}
  {op : Operator} {t : Token} {out ts us : List Token}

theorem of_operatorIn? (h : t.operatorIn? ops = some op) :
    t.isOperator = true ∧ t.raw = .text op.symbol := by
  unfold operatorIn? at h
  split at h
  · next hoperator =>
    have hraw := List.find?_some h
    exact ⟨hoperator, Value.eq_text hraw⟩
  · cases h

/-- Operands with an operator between every two. -/
inductive Chain : List Token → Prop
  | operand {t : Token} : t.isOperator = false → Chain [t]
  | cons {t o : Token} {op : Operator} {ts : List Token} :
    t.isOperator = false → o.isOperator = true → o.raw = .text op.symbol → Chain ts →
      Chain (t :: o :: ts)

/-- Where an operand stands, two with an operator between them may stand. -/
theorem Chain.expand {l o r x : Token} (hl : l.isOperator = false) (ho : o.isOperator = true)
    (hop : o.raw = .text op.symbol) (hr : r.isOperator = false) (hx : x.isOperator = false)
    {before after : List Token} (h : Chain (before ++ x :: after)) :
    Chain (before ++ l :: o :: r :: after) := by
  generalize hts : before ++ x :: after = ts at h
  induction h generalizing before with
  | operand ht =>
    obtain ⟨rfl, rfl, rfl⟩ : before = [] ∧ x = _ ∧ after = [] := by
      simpa [List.append_eq_singleton_iff] using hts
    exact .cons hl ho hop (.operand hr)
  | cons ht ho' hop' hrest ih =>
    rcases before with _ | ⟨t', _ | ⟨o'', before⟩⟩ <;>
      simp only [List.nil_append, List.cons_append, List.cons.injEq] at hts ⊢
    · obtain ⟨rfl, rfl⟩ := hts
      exact .cons hl ho hop (.cons hr ho' hop' hrest)
    · -- an operator of the chain is no operand
      obtain ⟨-, rfl, -⟩ := hts
      exact absurd (ho'.symm.trans hx) (by decide)
    · obtain ⟨rfl, rfl, hts⟩ := hts
      exact .cons ht ho' hop' (ih hts)

theorem chain_of_fold (h : fold combine ops out ts = .ok us) (hus : Chain us) :
    Chain (out.reverse ++ ts) := by
  fun_induction fold combine ops out ts with
  | case1 out =>
    cases h
    rwa [List.append_nil]
  | case2 out t ts hop ih => simpa using ih h
  | case4 t op hop l out r ts hno v hv ih =>
    obtain ⟨ho, hsymbol⟩ := of_operatorIn? hop
    have hsides : l.isOperator = false ∧ r.isOperator = false := by simpa using hno
    have hcontracted : Chain (out.reverse ++ operand v :: ts) := by simpa using ih h
    simpa using hcontracted.expand hsides.1 ho hsymbol hsides.2 isOperator_of_kind
  | _ => cases h

/-- A fold that leaves nothing but operators has changed nothing. -/
theorem eq_of_fold_of_operators (h : fold combine ops out ts = .ok us)
    (hus : ∀ u ∈ us, u.isOperator = true) : us = out.reverse ++ ts := by
  fun_induction fold combine ops out ts with
  | case1 out =>
    cases h
    exact (List.append_nil _).symm
  | case2 out t ts hop ih => simpa using ih h
  | case4 t op hop l out r ts hno v hv ih =>
    have hmem : operand v ∈ us := by simp [ih h]
    exact absurd ((hus _ hmem).symm.trans isOperator_of_kind) (by decide)
  | _ => cases h

theorem fold_lone (hop : op ∈ ops) :
    fold combine ops [] [ofOperator op] = .error (.notExported "expression") := by
  rw [fold, operatorIn?_ofOperator, if_pos hop]

end Token

/-! ## Lists that are accepted -/

/-- What a token is and becomes once the groups of its list are resolved. -/
inductive Reduced (t : Value) (u : Token) : Prop
  | operand : Formed Stray [t] → u.isOperator = false → u.value.isSome → Reduced t u
  | operator {raw : Value} :
    t.IsToken "operator" raw → u = { kind := .text "operator", value := some raw } → Reduced t u

namespace Reduced

variable {t : Value} {u : Token}

theorem isSome_value (h : Reduced t u) : u.value.isSome := by
  cases h with
  | operand _ _ hvalue => exact hvalue
  | operator _ hu => rw [hu]; rfl

theorem formed (h : Reduced t u) (hu : u.isOperator = false) : Formed Stray [t] := by
  cases h with
  | operand hformed _ _ => exact hformed
  | operator _ hoperator =>
    rw [hoperator, Token.isOperator_of_kind] at hu
    exact absurd hu (by decide)

theorem isToken (h : Reduced t u) (hu : u.isOperator = true) : t.IsToken "operator" u.raw := by
  cases h with
  | operand _ hoperand _ => exact absurd (hu.symm.trans hoperand) (by decide)
  | operator ht hoperator => rwa [hoperator]

theorem eq_ofOperator {op : Operator} (h : Reduced t u) (hu : u.isOperator = true)
    (hop : u.raw = .text op.symbol) : u = .ofOperator op := by
  cases h with
  | operand _ hoperand _ => exact absurd (hu.symm.trans hoperand) (by decide)
  | operator _ hoperator =>
    subst hoperator
    rw [Token.ofOperator, ← hop]
    rfl

end Reduced

theorem isSome_value_of_reduced {ts : List Value} {us : List Token}
    (h : List.Forall₂ Reduced ts us) : ∀ u ∈ us, u.value.isSome := by
  induction h with
  | nil => simp
  | cons ht _ ih => exact List.forall_mem_cons.mpr ⟨ht.isSome_value, ih⟩

theorem formed_of_chain {ts : List Value} {us : List Token} (hts : List.Forall₂ Reduced ts us)
    (h : Token.Chain us) : Formed Stray ts := by
  induction h generalizing ts with
  | operand hu =>
    cases hts with
    | cons ht hnil =>
      cases hnil
      exact ht.formed hu
  | cons hu ho hop _ ih =>
    cases hts with
    | cons ht hts =>
      cases hts with
      | cons hto hts =>
        have htoken := hto.isToken ho
        rw [hop] at htoken
        exact .cons (ht.formed hu) htoken (ih hts)

namespace Bindings

variable {b : Bindings} {hint : Hint} {ts : List Value} {us : List Token} {v : Value}

theorem exists_folds_of_total (h : b.total hint us = .ok v) :
    ∃ ms t, Token.fold (b.combine hint) Operator.multiplicative [] us = .ok ms ∧
      Token.fold (b.combine hint) Operator.additive [] ms = .ok [t] := by
  cases hms : Token.fold (b.combine hint) Operator.multiplicative [] us with
  | error e => exact nomatch (total_of_fault hms).symm.trans h
  | ok ms =>
    cases hts : Token.fold (b.combine hint) Operator.additive [] ms with
    | error e => exact nomatch (total_of_fault_in_sum hms hts).symm.trans h
    | ok left =>
      rw [total_of_folds hms hts] at h
      unfold remaining at h
      split at h
      · exact ⟨ms, _, rfl, hts⟩
      · cases h

/-- A list whose folds leave one token is well-formed, but for strays. -/
theorem formed_of_total (hts : List.Forall₂ Reduced ts us) (h : b.total hint us = .ok v) :
    Formed Stray ts ∨ Stray ts := by
  obtain ⟨ms, u, hms, hu⟩ := exists_folds_of_total h
  cases hoperator : u.isOperator with
  | false =>
    have hchain : Token.Chain ms := Token.chain_of_fold hu (.operand hoperator)
    exact .inl (formed_of_chain hts (Token.chain_of_fold hms hchain))
  | true =>
    have honly : ∀ u' ∈ [u], u'.isOperator = true := by simpa using hoperator
    obtain rfl : [u] = ms := Token.eq_of_fold_of_operators hu honly
    obtain rfl : [u] = us := Token.eq_of_fold_of_operators hms honly
    cases hts with
    | @cons t _ _ _ ht hnil =>
      cases hnil
      have htoken := ht.isToken hoperator
      refine .inr ⟨t, u.raw, rfl, htoken, fun op hop => ?_⟩
      -- the level of a known operator refuses it here
      obtain rfl : u = .ofOperator op := ht.eq_ofOperator hoperator hop
      rcases op.mem_multiplicative_or_additive with hlevel | hlevel
      · exact nomatch (Token.fold_lone hlevel).symm.trans hms
      · exact nomatch (Token.fold_lone hlevel).symm.trans hu

theorem exists_of_resolveTokens (h : b.resolveTokens hint ts = .ok v) :
    ∃ us, b.reduceAll hint ts = .ok us ∧ b.total hint us = .ok v := by
  rw [resolveTokens_eq] at h
  cases hus : b.reduceAll hint ts with
  | error e =>
    rw [hus] at h
    cases h
  | ok us =>
    rw [hus] at h
    exact ⟨us, rfl, h⟩

theorem reduceAll_cons {t : Value} {u : Token} (h : b.reduce hint t = .ok u) (ts : List Value) :
    b.reduceAll hint (t :: ts) = (b.reduceAll hint ts).map (u :: ·) := by
  rw [reduceAll, h]
  cases b.reduceAll hint ts <;> rfl

theorem forall₂_cons_of_reduceAll {t : Value} {u : Token} (hu : b.reduce hint t = .ok u)
    (ht : Reduced t u) (ih : ∀ us, b.reduceAll hint ts = .ok us → List.Forall₂ Reduced ts us)
    (h : b.reduceAll hint (t :: ts) = .ok us) : List.Forall₂ Reduced (t :: ts) us := by
  rw [reduceAll_cons hu] at h
  cases hrest : b.reduceAll hint ts with
  | error e =>
    rw [hrest] at h
    cases h
  | ok us' =>
    rw [hrest] at h
    cases h
    exact .cons ht (ih us' hrest)

theorem reduced_of_tokens (hts : Tokens ts) :
    ∀ us, b.reduceAll hint ts = .ok us → List.Forall₂ Reduced ts us := by
  induction hts with
  | nil =>
    intro us h
    cases h
    exact .nil
  | value ht _ ih =>
    intro us h
    have hu : b.reduce hint _ = .ok _ := reduce_of_not_group ht (by decide)
    exact forall₂_cons_of_reduceAll hu (.operand (.value ht) Token.isOperator_of_kind rfl) ih h
  | operator ht _ ih =>
    intro us h
    have hu : b.reduce hint _ = .ok _ := reduce_of_not_group ht (by decide)
    exact forall₂_cons_of_reduceAll hu (.operator ht rfl) ih h
  | @group t held inner ts ht hheld _ _ ihinner ih =>
    intro us h
    cases hv : b.resolve hint held with
    | error e =>
      have hreduce : b.reduce hint t = .error e := by rw [reduce_of_group ht, hv]; rfl
      rw [reduceAll, hreduce] at h
      cases h
    | ok v =>
      have hreduce : b.reduce hint t = .ok (.operand v.quote) := by
        rw [reduce_of_group ht, hv]
        rfl
      rw [resolve_of_elements hheld] at hv
      obtain ⟨us', hus', htotal⟩ := exists_of_resolveTokens hv
      have hformed : Formed Stray [t] := by
        rcases formed_of_total (ihinner us' hus') htotal with hinner | hstray
        · exact .group ht hheld hinner
        · exact .extra ht hheld hstray
      exact forall₂_cons_of_reduceAll hreduce (.operand hformed Token.isOperator_of_kind rfl) ih h

/-! ## Lists that are refused -/

theorem explains_total (hus : ∀ u ∈ us, u.value.isSome) {e : Fault}
    (h : b.total hint us = .error e) : b.Explains hint e (b.TotalTries hint us) := by
  cases hms : Token.fold (b.combine hint) Operator.multiplicative [] us with
  | error f =>
    cases (total_of_fault hms).symm.trans h
    exact (explains_fold hms).mono fun a => .products
  | ok ms =>
    cases hleft : Token.fold (b.combine hint) Operator.additive [] ms with
    | error f =>
      cases (total_of_fault_in_sum hms hleft).symm.trans h
      exact (explains_fold hleft).mono fun a => .sums hms
    | ok left =>
      have hempty : ∀ u ∈ ([] : List Token), u.value.isSome := by simp
      have hvalues : ∀ u ∈ left, u.value.isSome :=
        Token.isSome_value_of_fold hleft hempty (Token.isSome_value_of_fold hms hempty hus)
      rw [total_of_folds hms hleft] at h
      unfold remaining at h
      split at h
      · next t =>
        have hvalue : t.value.isSome := hvalues t (List.mem_singleton_self t)
        obtain ⟨raw, hraw⟩ := Option.isSome_iff_exists.mp hvalue
        rw [hraw] at h
        exact .inr ⟨_, .last hms hleft hraw, h⟩
      · cases h
        exact .inl rfl

theorem explains_resolveTokens (hts : Tokens ts) {e : Fault}
    (hreduceAll : b.reduceAll hint ts = .error e → b.Explains hint e (b.Tries hint ts))
    (h : b.resolveTokens hint ts = .error e) : b.Explains hint e (b.Tries hint ts) := by
  rw [resolveTokens_eq] at h
  cases hus : b.reduceAll hint ts with
  | error f =>
    rw [hus] at h
    cases h
    exact hreduceAll hus
  | ok us =>
    rw [hus] at h
    have hvalues := isSome_value_of_reduced (reduced_of_tokens hts us hus)
    exact (explains_total hvalues h).mono fun a => .total hus

/-- What makes a group fail is tried within the list that holds it. -/
theorem explains_of_group {before after inner : List Value} {bs : List Token} {t held : Value}
    {e : Fault} (hbefore : b.reduceAll hint before = .ok bs) (ht : t.IsToken "group" held)
    (hheld : held.elements? = some inner) (hinner : Tokens inner)
    (hnested : b.reduceAll hint inner = .error e → b.Explains hint e (b.Tries hint inner))
    (h : b.reduce hint t = .error e) : b.Explains hint e (b.Tries hint (before ++ t :: after)) := by
  rw [reduce_of_group ht, resolve_of_elements hheld] at h
  cases hv : b.resolveTokens hint inner with
  | ok v =>
    rw [hv] at h
    cases h
  | error f =>
    rw [hv] at h
    cases h
    exact (explains_resolveTokens hinner hnested hv).mono fun a => .group hbefore ht hheld

/-- One more token that was reduced. -/
theorem reduceAll_snoc {before : List Value} {bs : List Token} {t : Value} {u : Token}
    (hbefore : b.reduceAll hint before = .ok bs) (hu : b.reduce hint t = .ok u) :
    b.reduceAll hint (before ++ [t]) = .ok (bs ++ [u]) := by
  rw [reduceAll_append, hbefore, reduceAll_singleton, hu]
  rfl

/-- Only groups can fail before the folds, and the first of them that fails tells why. -/
theorem explains_reduceAll {e : Fault} (hts : Tokens ts) :
    ∀ (before : List Value) (bs : List Token), b.reduceAll hint before = .ok bs →
      b.reduceAll hint ts = .error e → b.Explains hint e (b.Tries hint (before ++ ts)) := by
  -- a token that is reduced joins those before it
  have hskip {t : Value} {u : Token} {ts before : List Value} {bs : List Token}
      (hu : b.reduce hint t = .ok u) (hbefore : b.reduceAll hint before = .ok bs)
      (ih : ∀ (before : List Value) (bs : List Token), b.reduceAll hint before = .ok bs →
        b.reduceAll hint ts = .error e → b.Explains hint e (b.Tries hint (before ++ ts)))
      (h : b.reduceAll hint (t :: ts) = .error e) :
      b.Explains hint e (b.Tries hint (before ++ t :: ts)) := by
    rw [reduceAll_cons hu] at h
    cases hrest : b.reduceAll hint ts with
    | ok us =>
      rw [hrest] at h
      cases h
    | error f =>
      rw [hrest] at h
      cases h
      rw [List.append_cons]
      exact ih _ _ (reduceAll_snoc hbefore hu) hrest
  induction hts with
  | nil =>
    intro before bs _ h
    cases h
  | value ht _ ih | operator ht _ ih =>
    intro before bs hbefore h
    exact hskip (reduce_of_not_group ht (by decide)) hbefore ih h
  | @group t held inner ts ht hheld hinner _ ihinner ih =>
    intro before bs hbefore h
    cases hreduce : b.reduce hint t with
    | ok u => exact hskip hreduce hbefore ih h
    | error f =>
      rw [reduceAll, hreduce] at h
      cases h
      exact explains_of_group hbefore ht hheld hinner (ihinner [] [] rfl) hreduce

/-- A stray is read as if it were an operand. -/
theorem resolveTokens_stray {t raw : Value} (ht : t.IsToken "operator" raw)
    (hraw : ∀ op : Operator, raw ≠ .text op.symbol) :
    b.resolveTokens hint [t] = b.valueOf hint raw := by
  have hreduce : b.reduceAll hint [t] = .ok [{ kind := .text "operator", value := some raw }] := by
    rw [reduceAll_singleton, reduce_of_not_group ht (by decide)]
    rfl
  have hunknown (ops : List Operator) :
      Token.operatorIn? ops { kind := .text "operator", value := some raw } = none := by
    rw [Option.eq_none_iff_forall_ne_some]
    exact fun op hop => hraw op (Token.of_operatorIn? hop).2
  have hfold (ops : List Operator) := by
    have hbecomes : Token.Becomes (b.combine hint) ops _ _ := Token.becomes_self (hunknown ops)
    exact hbecomes.fold_eq
  rw [resolveTokens_eq, hreduce]
  exact total_of_folds (hfold _) (hfold _)

end Bindings

/-- Resolving a list of tokens gives a value only for a formula, for a stray, or for a formula
with strays in groups.  Any other list is refused as badly compiled, unless something that was
tried on the way failed. -/
theorem formed_of_resolve {ts : List Value} (hts : Tokens ts) (tokens : Value)
    (htokens : tokens.elements? = some ts) (b : Bindings) (hint : Hint) :
    (∀ v, b.resolve hint tokens = .ok v → Formed Stray ts ∨ Stray ts) ∧
    (∀ t raw, ts = [t] → t.IsToken "operator" raw → (∀ op : Operator, raw ≠ .text op.symbol) →
      b.resolve hint tokens = b.valueOf hint raw) ∧
    (∀ a e, b.Tries hint ts a → a.result b hint = .error e → b.resolve hint tokens = .error e) ∧
    (¬ Formed Stray ts → ¬ Stray ts → ∃ e, b.resolve hint tokens = .error e ∧
      ((∀ a, b.Tries hint ts a → ∃ v, a.result b hint = .ok v) →
        e = .notExported "expression")) := by
  rw [Bindings.resolve_of_elements htokens]
  have haccepted (v : Value) (hv : b.resolveTokens hint ts = .ok v) :
      Formed Stray ts ∨ Stray ts := by
    obtain ⟨us, hus, htotal⟩ := Bindings.exists_of_resolveTokens hv
    exact Bindings.formed_of_total (Bindings.reduced_of_tokens hts us hus) htotal
  refine ⟨haccepted, ?_, fun a e => Bindings.resolveTokens_of_tried, fun hformed hstray => ?_⟩
  · rintro t raw rfl ht hraw
    exact Bindings.resolveTokens_stray ht hraw
  · cases he : b.resolveTokens hint ts with
    | ok v => exact ((haccepted v he).elim hformed hstray).elim
    | error e =>
      refine ⟨e, rfl, fun hsucceed => ?_⟩
      have hexplains := Bindings.explains_resolveTokens hts
        (Bindings.explains_reduceAll hts [] [] rfl) he
      rcases hexplains with he' | ⟨a, ha, hfault⟩
      · exact he'
      · obtain ⟨v, hv⟩ := hsucceed a ha
        exact nomatch hv.symm.trans hfault

/-! Two operands side by side are refused. -/

theorem Value.IsToken.kind_eq {t held held' : Value} {kind kind' : String}
    (h : t.IsToken kind held) (h' : t.IsToken kind' held') : kind = kind' := by
  obtain ⟨es, rfl, hkind, -⟩ := h
  obtain ⟨es', hes, hkind', -⟩ := h'
  cases hes
  cases hkind.symm.trans hkind'
  rfl

def pair : List Value := [token "value" (.int 2), token "value" (.int 3)]

def paired : List Token :=
  [{ kind := .text "value", value := some (.int 2) },
    { kind := .text "value", value := some (.int 3) }]

theorem tokens_pair : Tokens pair :=
  .value (isToken_token _ _) (.value (isToken_token _ _) .nil)

theorem reduceAll_pair (b : Bindings) (hint : Hint) : b.reduceAll hint pair = .ok paired := by
  have hvalue (raw : Value) : b.reduce hint (token "value" raw) =
      .ok { kind := .text "value", value := some raw } :=
    Bindings.reduce_of_not_group (isToken_token _ _) (by decide)
  rw [pair, Bindings.reduceAll_cons (hvalue _), Bindings.reduceAll_singleton, hvalue]
  rfl

theorem not_isOperator_paired : ∀ t ∈ paired, t.isOperator = false := by
  simp only [paired, List.forall_mem_cons, Token.isOperator_of_kind]
  decide

/-- Nothing is applied where no operator is. -/
theorem not_foldTries {b : Bindings} {hint : Hint} {ops : List Operator} {out ts : List Token}
    (hts : ∀ t ∈ ts, t.isOperator = false) (a : Attempt) : ¬ b.FoldTries hint ops out ts a := by
  intro h
  induction h with
  | pass _ _ ih => exact ih fun t ht => hts t (List.mem_cons_of_mem _ ht)
  | here hop | later hop =>
    have hoperator := hts _ List.mem_cons_self
    exact absurd ((Token.of_operatorIn? hop).1.symm.trans hoperator) (by decide)

theorem fold_paired (combine : Operator → Value → Value → Except Fault Value)
    (ops : List Operator) : Token.fold combine ops [] paired = .ok paired := by
  have hpass (t : Token) (ht : t ∈ paired) : Token.Becomes combine ops [t] [t] :=
    Token.becomes_self (Token.operatorIn?_of_not_operator (not_isOperator_paired t ht) ops)
  exact ((hpass _ List.mem_cons_self).append
    (hpass _ (List.mem_cons_of_mem _ List.mem_cons_self))).fold_eq

theorem not_tries_pair (b : Bindings) (hint : Hint) (a : Attempt) : ¬ b.Tries hint pair a := by
  intro h
  generalize hts : pair = ts at h
  cases h with
  | @group before after _ _ t _ _ _ ht _ _ =>
    have hmem : t ∈ pair := by simp [hts]
    simp only [pair, List.mem_cons, List.not_mem_nil, or_false] at hmem
    rcases hmem with rfl | rfl <;>
      exact absurd (Value.IsToken.kind_eq (isToken_token _ _) ht) (by decide)
  | @total _ us _ hus ha =>
    subst hts
    cases hus.symm.trans (reduceAll_pair b hint)
    cases ha with
    | products ha => exact not_foldTries not_isOperator_paired a ha
    | sums hms ha =>
      cases hms.symm.trans (fold_paired _ _)
      exact not_foldTries not_isOperator_paired a ha
    | last hms hts =>
      cases hms.symm.trans (fold_paired _ _)
      cases hts.symm.trans (fold_paired _ _)

theorem formed_of_resolve_pair : Tokens pair ∧ (Value.list pair).elements? = some pair ∧
    purse.resolve .boolean (.list pair) = .error (.notExported "expression") := by
  have hformed : ¬ Formed Stray pair := by
    intro h
    cases h with
    | cons _ ho _ => exact absurd (Value.IsToken.kind_eq (isToken_token _ _) ho) (by decide)
  have hstray : ¬ Stray pair := by
    rintro ⟨t, raw, hpair, -⟩
    cases hpair
  refine ⟨tokens_pair, rfl, ?_⟩
  obtain ⟨e, he, hwhy⟩ :=
    (formed_of_resolve tokens_pair (.list pair) rfl purse .boolean).2.2.2 hformed hstray
  rw [he, hwhy fun a ha => (not_tries_pair _ _ a ha).elim]

/-! An operator that no level knows stands for a name. -/

def lonely : Value := token "operator" (.text "%")

theorem resolve_lonely : ¬ ∀ (ts : List Value), Tokens ts → ∀ (b : Bindings) (hint : Hint)
    (v : Value), b.resolve hint (.list ts) = .ok v → WellFormed ts := by
  have hlonely : lonely.IsToken "operator" (.text "%") := isToken_token _ _
  have hunknown (op : Operator) : Value.text "%" ≠ .text op.symbol := by
    intro hop
    have hsymbol : "%" = op.symbol := Value.text.inj hop
    revert hsymbol
    cases op <;> decide
  have hread : ({ strict := false } : Bindings).resolve .boolean (.list [lonely]) =
      .ok (.bool false) := by
    have hliteral : Literal.read? "%" = none := by decide +kernel
    rw [Bindings.resolve_of_elements rfl, Bindings.resolveTokens_stray hlonely hunknown,
      Bindings.valueOf, hliteral]
    rfl
  intro h
  cases h [lonely] (.operator hlonely .nil) _ _ _ hread with
  | value ht => exact absurd (ht.kind_eq hlonely) (by decide)
  | group ht | extra ht => exact absurd (ht.kind_eq hlonely) (by decide)

end Parley

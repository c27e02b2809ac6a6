import Parley.Proofs.Malformed
import Parley.Proofs.Plain

/-
Scalars and the names in them.

The hint with which a scalar is evaluated picks a default, and a default is taken only for
a name that lenient mode finds nowhere.  So while every variable of a scalar is defined by
a state or the shadow, all hints give the same value or the same fault
(`resolve_eq_of_covers`).

The variables are the texts of operands, at any depth, that are no literals.  Between two
folds a text is quoted, so a result never adds a name to them; and an operator that no
level knows counts as a variable where it stands alone, since it is read as one there.
-/

namespace Parley

/-- Texts that stand where evaluating a scalar reads a name or a literal. -/
inductive Value.Names : Value → String → Prop
  | bare (name : String) : Names (.text name) name
  | operand {tokens : Value} {ts : List Value} {es : Table} {name : String} :
    tokens.elements? = some ts → .dict es ∈ ts → (Token.ofEntries es).isGroup = false →
    (Token.ofEntries es).isOperator = false → (Token.ofEntries es).value = some (.text name) →
      Names tokens name
  | lone {tokens : Value} {es : Table} {name : String} : tokens.elements? = some [.dict es] →
    (Token.ofEntries es).isOperator = true → (Token.ofEntries es).value = some (.text name) →
    (∀ op : Operator, name ≠ op.symbol) → Names tokens name
  | group {tokens held : Value} {ts : List Value} {es : Table} {name : String} :
    tokens.elements? = some ts → .dict es ∈ ts → (Token.ofEntries es).isGroup = true →
    (Token.ofEntries es).value = some held → Names held name → Names tokens name

namespace Bindings

/-- Some state that is asked has the name, or the shadow holds it. -/
def Defines (b : Bindings) (name : String) : Prop :=
  (∃ p ∈ b.providers, p.2.hasProperty p.1 (.text name) = .ok true) ∨
    (b.shadow.find? (.text name)).isSome

/-- No default is taken in evaluating a scalar: the mode is strict, or all its variables
are defined. -/
def Covers (b : Bindings) (v : Value) : Prop :=
  b.strict = true ∨ ∀ name, v.Names name → Literal.read? name = none → b.Defines name

/-- The hint plays no part in reading a raw token. -/
def Sure (b : Bindings) (raw : Value) : Prop :=
  ∀ hint hint', b.valueOf hint raw = b.valueOf hint' raw

variable {b : Bindings} {hint hint' : Hint}

/-! ## Reading a name -/

theorem firstM_ne_none {test : Nat → Host → Except Fault Bool} {l : List (Nat × Host)}
    (h : ∃ p ∈ l, test p.1 p.2 = .ok true) : firstM test l ≠ .ok none := by
  obtain ⟨p, hp, hpass⟩ := h
  induction l with
  | nil => exact nomatch hp
  | cons q rest ih =>
    obtain ⟨i, k⟩ := q
    intro hnone
    simp only [firstM] at hnone
    rcases List.mem_cons.mp hp with rfl | hrest
    · simp only [hpass] at hnone
      cases hnone
    · split at hnone
      · cases hnone
      · cases hnone
      · exact ih hrest hnone

theorem sure_of_literal {name : String} {r : Except Fault Value}
    (h : Literal.read? name = some r) : b.Sure (.text name) := by
  intro hint hint'
  rw [valueOf_of_literal h, valueOf_of_literal h]

theorem sure_of_defines {name : String} (h : b.strict = true ∨ b.Defines name) :
    b.Sure (.text name) := by
  intro hint hint'
  have hlookup : b.lookup hint name = b.lookup hint' name := by
    unfold lookup
    cases ho : b.owner? (.text name) with
    | error f => rfl
    | ok found =>
      cases found with
      | some i => rfl
      | none =>
        rcases h with hstrict | hstate | hshadow
        · rw [if_pos hstrict, if_pos hstrict]
        · exact absurd ho (firstM_ne_none hstate)
        · obtain ⟨v, hv⟩ := Option.isSome_iff_exists.mp hshadow
          simp only [hv]
  simp only [valueOf, hlookup]

theorem Covers.sure {v : Value} (h : b.Covers v) {name : String} (hname : v.Names name) :
    b.Sure (.text name) := by
  cases hlit : Literal.read? name with
  | some r => exact sure_of_literal hlit
  | none => exact sure_of_defines (h.imp_right fun hdefined => hdefined name hname hlit)

end Bindings

/-! ## Folding -/

/-- An operand that no hint reads differently. -/
def Token.Sure (b : Bindings) (t : Token) : Prop := t.isOperator = false → b.Sure t.raw

namespace Token

variable {b : Bindings} {hint hint' : Hint} {ops : List Operator} {out ts us : List Token}

theorem sure_operand_quote (b : Bindings) (v : Value) : Token.Sure b (.operand v.quote) := by
  intro _ hint hint'
  show b.valueOf hint v.quote = b.valueOf hint' v.quote
  rw [b.valueOf_quote, b.valueOf_quote]

theorem combine_eq_of_sure {l r : Value} (hl : b.Sure l) (hr : b.Sure r) (op : Operator) :
    b.combine hint op l r = b.combine hint' op l r := by
  rw [Bindings.combine_eq, Bindings.combine_eq, hl hint hint', hr hint hint']

theorem exists_quote_of_combine {op : Operator} {l r v : Value}
    (h : b.combine hint op l r = .ok v) : ∃ z : Value, v = z.quote := by
  rw [Bindings.combine_eq] at h
  cases hz : op.applied (b.valueOf hint l) (b.valueOf hint r) with
  | error e =>
    rw [hz] at h
    cases h
  | ok z =>
    rw [hz] at h
    cases h
    exact ⟨z, rfl⟩

/-- The sides of an operator that folding applies. -/
theorem sure_of_sides {l r : Token} {b : Bindings} (hno : ¬ (l.isOperator || r.isOperator) = true)
    (hl : Token.Sure b l) (hr : Token.Sure b r) : b.Sure l.raw ∧ b.Sure r.raw := by
  have hsides : l.isOperator = false ∧ r.isOperator = false := by simpa using hno
  exact ⟨hl hsides.1, hr hsides.2⟩

/-- No hint folds operands differently that none reads differently, and the same holds of
what is left of them. -/
theorem fold_of_sure (hint hint' : Hint) (ops : List Operator) (hout : ∀ u ∈ out, Token.Sure b u)
    (hts : ∀ u ∈ ts, Token.Sure b u) :
    fold (b.combine hint) ops out ts = fold (b.combine hint') ops out ts ∧
      ∀ us, fold (b.combine hint) ops out ts = .ok us → ∀ u ∈ us, Token.Sure b u := by
  fun_induction fold (b.combine hint) ops out ts with
  | case1 out =>
    refine ⟨by rw [fold], fun us hus u hu => ?_⟩
    cases hus
    exact hout u (List.mem_reverse.mp hu)
  | case2 out t ts hop ih =>
    rw [List.forall_mem_cons] at hts
    have hrest := ih (List.forall_mem_cons.mpr ⟨hts.1, hout⟩) hts.2
    refine ⟨?_, hrest.2⟩
    rw [hrest.1, fold, hop]
  | case3 t op hop l out r ts hsides =>
    refine ⟨?_, fun us hus => by cases hus⟩
    rw [fold]
    simp only [hop, hsides, if_true]
  | case4 t op hop l out r ts hno v hv ih =>
    rw [List.forall_mem_cons] at hout
    rw [List.forall_mem_cons, List.forall_mem_cons] at hts
    obtain ⟨hl, hr⟩ := sure_of_sides hno hout.1 hts.2.1
    have hv' : b.combine hint' op l.raw r.raw = .ok v := by
      rw [← combine_eq_of_sure hl hr op, hv]
    obtain ⟨z, rfl⟩ := exists_quote_of_combine hv
    have hrest := ih (List.forall_mem_cons.mpr ⟨sure_operand_quote b z, hout.2⟩) hts.2.2
    refine ⟨?_, hrest.2⟩
    rw [hrest.1, fold]
    simp only [hop, hno, hv', Bool.false_eq_true, if_false]
  | case5 t op hop l out r ts hno f hf =>
    rw [List.forall_mem_cons] at hout
    rw [List.forall_mem_cons, List.forall_mem_cons] at hts
    obtain ⟨hl, hr⟩ := sure_of_sides hno hout.1 hts.2.1
    have hf' : b.combine hint' op l.raw r.raw = .error f := by
      rw [← combine_eq_of_sure hl hr op, hf]
    refine ⟨?_, fun us hus => by cases hus⟩
    rw [fold]
    simp only [hop, hno, hf', Bool.false_eq_true, if_false]
  | case6 out t ts op hop hshape =>
    refine ⟨?_, fun us hus => by cases hus⟩
    rw [fold]
    simp only [hop]

/-- A fold that leaves a lone operator has had nothing else, and does not know it. -/
theorem lone_of_fold {combine : Operator → Value → Value → Except Fault Value} {t : Token}
    (ht : t.isOperator = true) (h : fold combine ops [] us = .ok [t]) :
    us = [t] ∧ t.operatorIn? ops = none := by
  have hsame : us = [t] := by
    have hall : ∀ u ∈ [t], u.isOperator = true := by simpa using ht
    simpa using (eq_of_fold_of_operators h hall).symm
  refine ⟨hsame, ?_⟩
  subst hsame
  cases hop : t.operatorIn? ops with
  | none => rfl
  | some op =>
    rw [fold, hop] at h
    cases h

theorem ne_symbol_of_unknown {t : Token} {name : String} (ht : t.isOperator = true)
    (hraw : t.raw = .text name) {op : Operator} (hop : op ∈ ops) (h : t.operatorIn? ops = none) :
    name ≠ op.symbol := by
  rintro rfl
  rw [operatorIn?, if_pos ht] at h
  have hne := List.find?_eq_none.mp h op hop
  rw [hraw] at hne
  exact hne ((Value.alike_text _ _).trans (beq_self_eq_true _))

end Token

/-! ## Resolving -/

namespace Bindings

variable {b : Bindings} {hint hint' : Hint} {us : List Token}

/-- Tokens that are read without a default: operands, and an operator alone that no level
knows. -/
def SureTokens (b : Bindings) (us : List Token) : Prop :=
  (∀ u ∈ us, Token.Sure b u) ∧
    ∀ u, us = [u] → u.isOperator = true → u.operatorIn? Operator.multiplicative = none →
      u.operatorIn? Operator.additive = none → b.Sure u.raw

theorem total_eq_of_sure (h : b.SureTokens us) : b.total hint us = b.total hint' us := by
  obtain ⟨hproducts, hms⟩ := Token.fold_of_sure hint hint' Operator.multiplicative
    (List.forall_mem_nil _) h.1
  cases hfirst : Token.fold (b.combine hint) Operator.multiplicative [] us with
  | error e => rw [total_of_fault hfirst, total_of_fault (hproducts ▸ hfirst)]
  | ok ms =>
    obtain ⟨hsums, hleft⟩ := Token.fold_of_sure hint hint' Operator.additive
      (List.forall_mem_nil _) (hms ms hfirst)
    cases hlast : Token.fold (b.combine hint) Operator.additive [] ms with
    | error e =>
      rw [total_of_fault_in_sum hfirst hlast,
        total_of_fault_in_sum (hproducts ▸ hfirst) (hsums ▸ hlast)]
    | ok left =>
      rw [total_of_folds hfirst hlast, total_of_folds (hproducts ▸ hfirst) (hsums ▸ hlast)]
      match left with
      | [] => rfl
      | _ :: _ :: _ => rfl
      | [t] =>
        have hread : b.Sure t.raw := by
          by_cases ht : t.isOperator = true
          · obtain ⟨rfl, hadd⟩ := Token.lone_of_fold ht hlast
            obtain ⟨rfl, hmul⟩ := Token.lone_of_fold ht hfirst
            exact h.2 t rfl ht hmul hadd
          · exact hleft [t] hlast t List.mem_cons_self (Bool.eq_false_iff.mpr ht)
        cases hv : t.value with
        | none => simp only [remaining, hv]
        | some v =>
          have hraw : t.raw = v := by rw [Token.raw, hv, Option.getD_some]
          simp only [remaining, hv]
          rw [← hraw]
          exact hread hint hint'

/-- A token is read from a mapping, and holds a quoted value if it was a group. -/
theorem token_of_reduce {t : Value} {u : Token} (h : b.reduce hint t = .ok u) :
    ∃ es, t = .dict es ∧ (((Token.ofEntries es).isGroup = false ∧ u = Token.ofEntries es) ∨
      ∃ v : Value, u = .operand v.quote) := by
  cases t with
  | dict es =>
    refine ⟨es, rfl, ?_⟩
    rw [reduce] at h
    split at h
    · split at h
      · next v hv =>
        cases h
        exact .inr ⟨v, rfl⟩
      · cases h
    · next hgroup =>
      cases h
      exact .inl ⟨Bool.eq_false_iff.mpr hgroup, rfl⟩
  | _ => cases h

theorem reduce_of_mem_reduceAll {ts : List Value} (h : b.reduceAll hint ts = .ok us) :
    us.length = ts.length ∧ ∀ u ∈ us, ∃ t ∈ ts, b.reduce hint t = .ok u := by
  induction ts generalizing us with
  | nil =>
    cases h
    exact ⟨rfl, List.forall_mem_nil _⟩
  | cons t ts ih =>
    cases hu : b.reduce hint t with
    | error e =>
      rw [reduceAll, hu] at h
      cases h
    | ok u =>
      rw [reduceAll_cons hu] at h
      cases hrest : b.reduceAll hint ts with
      | error e =>
        rw [hrest] at h
        cases h
      | ok us' =>
        rw [hrest] at h
        cases h
        obtain ⟨hlen, hmem⟩ := ih hrest
        refine ⟨by rw [List.length_cons, List.length_cons, hlen], ?_⟩
        refine List.forall_mem_cons.mpr ⟨⟨t, List.mem_cons_self, hu⟩, fun w hw => ?_⟩
        obtain ⟨t', ht', hreduce⟩ := hmem w hw
        exact ⟨t', List.mem_cons_of_mem t ht', hreduce⟩

theorem sure_of_not_text {raw : Value} (h : ∀ s, raw ≠ .text s) : b.Sure raw := by
  intro hint hint'
  cases raw with
  | text s => exact absurd rfl (h s)
  | _ => rfl

/-- What a token holds is read alike if the name is that it may hold. -/
theorem sure_raw {t : Token} (h : ∀ name, t.value = some (.text name) → b.Sure (.text name)) :
    b.Sure t.raw := by
  unfold Token.raw
  cases hv : t.value with
  | none => exact sure_of_not_text nofun
  | some v =>
    cases v with
    | text name => exact h name hv
    | _ => exact sure_of_not_text nofun

theorem sureTokens_of_reduceAll {tokens : Value} {ts : List Value}
    (htokens : tokens.elements? = some ts)
    (h : ∀ name, tokens.Names name → b.Sure (.text name)) (hus : b.reduceAll hint ts = .ok us) :
    b.SureTokens us := by
  obtain ⟨hlen, hall⟩ := reduce_of_mem_reduceAll hus
  constructor
  · intro u hu
    obtain ⟨t, ht, hreduce⟩ := hall u hu
    obtain ⟨es, rfl, ⟨hgroup, rfl⟩ | ⟨v, rfl⟩⟩ := token_of_reduce hreduce
    · intro hoperand
      exact sure_raw fun name hname => h name (.operand htokens ht hgroup hoperand hname)
    · exact Token.sure_operand_quote b v
  · rintro u rfl hop hmul hadd
    obtain ⟨t, rfl⟩ := List.length_eq_one_iff.mp hlen.symm
    obtain ⟨t', ht, hreduce⟩ := hall u List.mem_cons_self
    obtain rfl := List.mem_singleton.mp ht
    obtain ⟨es, rfl, ⟨hgroup, rfl⟩ | ⟨v, rfl⟩⟩ := token_of_reduce hreduce
    · refine sure_raw fun name hname => h name (.lone htokens hop hname fun op => ?_)
      have hraw : (Token.ofEntries es).raw = .text name := by
        rw [Token.raw, hname, Option.getD_some]
      rcases op.mem_multiplicative_or_additive with hlevel | hlevel
      · exact Token.ne_symbol_of_unknown hop hraw hlevel hmul
      · exact Token.ne_symbol_of_unknown hop hraw hlevel hadd
    · exact absurd (hop.symm.trans Token.isOperator_of_kind) (by decide)

theorem resolveTokens_eq_of_sure {ts : List Value}
    (hreduce : b.reduceAll hint ts = b.reduceAll hint' ts)
    (h : ∀ us, b.reduceAll hint ts = .ok us → b.SureTokens us) :
    b.resolveTokens hint ts = b.resolveTokens hint' ts := by
  rw [resolveTokens_eq, resolveTokens_eq, ← hreduce]
  cases hus : b.reduceAll hint ts with
  | error e => rfl
  | ok us => exact total_eq_of_sure (h us hus)

/-- The names in the groups of a list are read alike. -/
def SureGroups (b : Bindings) (ts : List Value) : Prop :=
  ∀ es held name, .dict es ∈ ts → (Token.ofEntries es).isGroup = true →
    (Token.ofEntries es).value = some held → held.Names name → b.Sure (.text name)

section

variable (hint hint' : Hint)

mutual

/-- While the names in a scalar are read alike, it has one value or one fault. -/
theorem resolve_eq_of_sure (v : Value) : (∀ name, v.Names name → b.Sure (.text name)) →
    b.resolve hint v = b.resolve hint' v := by
  intro h
  cases v with
  | list ts =>
    have hreduce := reduceAll_eq_of_sure ts fun es held name hes hgroup hheld hname =>
      h name (.group rfl hes hgroup hheld hname)
    exact resolveTokens_eq_of_sure hreduce fun us => sureTokens_of_reduceAll rfl h
  | tuple ts =>
    have hreduce := reduceAll_eq_of_sure ts fun es held name hes hgroup hheld hname =>
      h name (.group rfl hes hgroup hheld hname)
    exact resolveTokens_eq_of_sure hreduce fun us => sureTokens_of_reduceAll rfl h
  | text s => exact h s (.bare s) hint hint'
  | _ => rfl
  termination_by structural v

theorem reduceAll_eq_of_sure (ts : List Value) : b.SureGroups ts →
    b.reduceAll hint ts = b.reduceAll hint' ts := by
  intro h
  cases ts with
  | nil => rfl
  | cons t ts =>
    have hfirst := reduce_eq_of_sure t fun es held name ht hgroup hheld hname =>
      h es held name (ht ▸ List.mem_cons_self) hgroup hheld hname
    have hrest := reduceAll_eq_of_sure ts fun es held name hes hgroup hheld hname =>
      h es held name (List.mem_cons_of_mem t hes) hgroup hheld hname
    rw [reduceAll, reduceAll, hfirst, hrest]
  termination_by structural ts

theorem reduce_eq_of_sure (t : Value) : (∀ es held name, t = .dict es →
    (Token.ofEntries es).isGroup = true → (Token.ofEntries es).value = some held →
      held.Names name → b.Sure (.text name)) → b.reduce hint t = b.reduce hint' t := by
  intro h
  cases t with
  | dict es =>
    by_cases hgroup : (Token.ofEntries es).isGroup = true
    · have hheld := resolveEntry_eq_of_sure es fun held name hheld hname =>
        h es held name rfl hgroup hheld hname
      simp only [reduce, if_pos hgroup, hheld]
    · simp only [reduce, if_neg hgroup]
  | _ => rfl
  termination_by structural t

theorem resolveEntry_eq_of_sure (es : List (Value × Value)) :
    (∀ held name, Table.find? es (.text "value") = some held → held.Names name →
      b.Sure (.text name)) → b.resolveEntry hint es = b.resolveEntry hint' es := by
  intro h
  cases es with
  | nil => rfl
  | cons e rest =>
    obtain ⟨k, v⟩ := e
    have hkey : (Value.text "value").alike k = Token.isKey "value" k := rfl
    simp only [resolveEntry]
    cases hk : Token.isKey "value" k with
    | true =>
      have hfound : Table.find? ((k, v) :: rest) (.text "value") = some v := by
        simp [Table.find?, hkey, hk]
      exact resolve_eq_of_sure v fun name => h v name hfound
    | false =>
      have hskip : Table.find? ((k, v) :: rest) (.text "value") =
          Table.find? rest (.text "value") := by
        simp [Table.find?, hkey, hk]
      exact resolveEntry_eq_of_sure rest fun held name hheld =>
        h held name (hskip.trans hheld)
  termination_by structural es

end

end

/-- While no default is taken in evaluating a scalar, the hint plays no part. -/
theorem resolve_eq_of_covers {v : Value} (h : b.Covers v) (hint hint' : Hint) :
    b.resolve hint v = b.resolve hint' v :=
  resolve_eq_of_sure hint hint' v fun _ => h.sure

end Bindings

/-- A lenient session with names that stand for texts and numbers. -/
def lenientPurse : Session := { bindings := { purse with strict := false } }

end Parley

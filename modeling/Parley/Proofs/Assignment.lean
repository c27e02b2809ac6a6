import Parley.Proofs.Environment

/-
Assignments.

An assignment evaluates its right side and then writes once, under the name on its left
side.  Whatever the right side has done to the states, the name is read and written in the
states as the right side left them; and an assignment that fails after that leaves them so
(`writesOnce_of_obliging`).

Host objects are taken at their word (`Obliging`): a setter stores what it is given, does
nothing to the states, or raises without effect.  The right side may call whatever it likes,
and others may change the states while it waits, so all that is said is said of every way
in which it may end.
-/

namespace Parley

/-- A value and what is kept of it: a not-a-number that arithmetic has just made gets a
mark. -/
inductive Value.KeptAs : Value → Value → Prop
  | self (v : Value) : KeptAs v v
  | marked {x : Float} (m : Mark) : x.isNaN = true → KeptAs (.float x) (.nan m)

namespace Bindings

/-- Host objects whose setters store what they are given, do nothing to the states, or raise
without effect. -/
def Obliging (ask : Ask) (b : Bindings) : Prop :=
  ∀ (i : Nat) (h : Host) (c : Callable) (code : Code) (name value : Value) (s : Session),
    (i, h) ∈ b.providers → h.setter? i = .ok (some c) → b.code? c = some code → s.bindings = b →
      (∃ v t, Play.routine ask c.owner (code [name, value]) s = .done v t ∧
        (b.writeAt i name value = .ok t.bindings ∨ t.bindings = b)) ∨
      ∃ f t, Play.routine ask c.owner (code [name, value]) s = .failed f t ∧ t.bindings = b

/-- One entry is written: in the first state that has the name, or in the shadow if none has
it and the mode is lenient.  Nothing else is different, and the entry reads back. -/
inductive Enters (b : Bindings) (name value : Value) : Bindings → Prop
  | host {i : Nat} {h h' : Host} : b.owner? name = .ok (some i) → b.hosts[i]? = some h →
    h' = { h with values := h.values.insert name value } →
    (∀ n, name = .text n → h'.property i name = .ok value) →
      Enters b name value { b with hosts := b.hosts.set i h' }
  | shadow {shadow : Table} : b.owner? name = .ok none → b.strict = false →
    shadow = b.shadow.insert name value →
    (∀ n, name = .text n → shadow.find? name = some value) →
      Enters b name value { b with shadow }

/-- What a write may come to.  A write that fails has changed nothing. -/
inductive Put (b : Bindings) (name value : Value) : Except Fault Unit → Bindings → Prop
  | stored {b' : Bindings} : b.Enters name value b' → Put b name value (.ok ()) b'
  /-- The setter of the first state that has the name did nothing. -/
  | ignored {i : Nat} {h : Host} {c : Callable} : b.owner? name = .ok (some i) →
    b.hosts[i]? = some h → h.setter? i = .ok (some c) → Put b name value (.ok ()) b
  /-- Some state could not tell whether it has the name. -/
  | unsure {f : Fault} : b.owner? name = .error f → Put b name value (.error f) b
  | unknown {f : Fault} : b.owner? name = .ok none → b.strict = true →
    (∀ n, name = .text n → f = .unknownProperty n) → Put b name value (.error f) b
  | noKey {f : Fault} : b.owner? name = .ok none → b.strict = false →
    name.checkKey = .error f → Put b name value (.error f) b
  | unwritable {i : Nat} {h : Host} {f : Fault} : b.owner? name = .ok (some i) →
    b.hosts[i]? = some h → h.setter? i = .ok none → h.write name value = .error f →
      Put b name value (.error f) b
  /-- The setter of the state raised, or could not be found out. -/
  | raised {i : Nat} {h : Host} {f : Fault} : b.owner? name = .ok (some i) →
    b.hosts[i]? = some h → h.setter? i ≠ .ok none → Put b name value (.error f) b

/-- What an operator writes: the value of the right side, or what an operation makes of the
present value of the name and the value of the right side. -/
inductive Writes (b : Bindings) (name rhs : Value) : String → Value → Prop
  | plain : Writes b name rhs "=" rhs
  | update {op : Operator} {current v : Value} :
    b.valueOf (Hint.ofValue rhs) name = .ok current → Value.apply op current rhs = .ok v →
      Writes b name rhs (op.symbol ++ "=") v

/-- What an assignment may come to once its right side has a value.  An update that fails
before its write has changed nothing. -/
inductive Assigns (b : Bindings) (e : Expression) (rhs : Value) :
    Except Fault Unit → Bindings → Prop
  | put {o : String} {v w : Value} {r : Except Fault Unit} {b' : Bindings} :
    e.operator = some o → b.Writes e.lhs rhs o v → v.KeptAs w → b.Put e.lhs w r b' →
      Assigns b e rhs r b'
  | unknown {o : String} : e.operator = some o → o ≠ "=" →
    (∀ op : Operator, o ≠ op.symbol ++ "=") → Assigns b e rhs (.ok ()) b
  /-- The name or the value of the right side has no text. -/
  | untold {op : Operator} {f : Fault} : e.operator = some (op.symbol ++ "=") →
    e.lhs.plain = .error f ∨ rhs.written = .error f → Assigns b e rhs (.error f) b
  | unread {op : Operator} {f : Fault} : e.operator = some (op.symbol ++ "=") →
    b.valueOf (Hint.ofValue rhs) e.lhs = .error f → Assigns b e rhs (.error f) b
  | inapplicable {op : Operator} {current : Value} {f : Fault} :
    e.operator = some (op.symbol ++ "=") → b.valueOf (Hint.ofValue rhs) e.lhs = .ok current →
      Value.apply op current rhs = .error f → Assigns b e rhs (.error f) b

variable {b b' : Bindings} {i : Nat} {h : Host} {name value : Value}

theorem enters_of_writeAt (ho : b.owner? name = .ok (some i)) (hi : b.hosts[i]? = some h)
    (hw : b.writeAt i name value = .ok b') : b.Enters name value b' := by
  obtain ⟨h', hput, rfl⟩ := exists_write_of_writeAt hi hw
  refine .host ho hi (Host.eq_of_write hput) ?_
  rintro n rfl
  exact Host.property_of_write hput

theorem write_of_writeAt {f : Fault} (hi : b.hosts[i]? = some h)
    (hw : b.writeAt i name value = .error f) : h.write name value = .error f := by
  unfold writeAt at hw
  rw [hi] at hw
  cases hput : h.write name value with
  | error f' =>
    simp only [hput] at hw
    cases hw
    rfl
  | ok h' =>
    simp only [hput] at hw
    cases hw

theorem checkKey_of_writeShadow {f : Fault} (hw : b.writeShadow name value = .error f) :
    name.checkKey = .error f := by
  unfold writeShadow at hw
  cases hkey : name.checkKey with
  | error f' =>
    rw [hkey] at hw
    cases hw
    rfl
  | ok _ =>
    rw [hkey] at hw
    cases hw

theorem enters_of_writeShadow (ho : b.owner? name = .ok none) (hstrict : b.strict = false)
    (hw : b.writeShadow name value = .ok b') : b.Enters name value b' := by
  unfold writeShadow at hw
  cases hkey : name.checkKey with
  | error f =>
    rw [hkey] at hw
    cases hw
  | ok _ =>
    rw [hkey] at hw
    cases hw
    refine .shadow ho hstrict rfl ?_
    rintro n rfl
    exact Table.find?_insert_self _ n value

end Bindings

namespace Play

/-! ## Runs that end at once -/

/-- A run ends at once, with a result and states that are so related. -/
def EndsIn (x : Play Unit) (s : Session) (P : Except Fault Unit → Bindings → Prop) : Prop :=
  ∃ r t, x s = .ended r t ∧ P r t.bindings

section

variable {x : Play Unit} {s : Session} {P : Except Fault Unit → Bindings → Prop}

/-- A look at the states comes first, which may fail. -/
theorem EndsIn.read_bind {α : Type} {look : Session → Except Fault α} {f : α → Play Unit}
    (hfail : ∀ e, look s = .error e → P (.error e) s.bindings)
    (h : ∀ a, look s = .ok a → EndsIn (f a) s P) : EndsIn (Act.read look >>= f) s P := by
  cases hlook : look s with
  | error e => exact ⟨.error e, s, Act.bind_of_failed (Act.read_of_error hlook) f, hfail e hlook⟩
  | ok a =>
    obtain ⟨r, t, hrun, ht⟩ := h a hlook
    exact ⟨r, t, (Act.bind_of_done (Act.read_of_ok hlook) f).trans hrun, ht⟩

theorem endsIn_writing {f : Bindings → Except Fault Bindings}
    (hfail : ∀ e, f s.bindings = .error e → P (.error e) s.bindings)
    (h : ∀ b, f s.bindings = .ok b → P (.ok ()) b) : EndsIn (writing f) s P := by
  rcases writing_cases f s with ⟨b, hb, hrun⟩ | ⟨e, he, hrun⟩
  · exact ⟨.ok (), _, hrun, h b hb⟩
  · exact ⟨.error e, s, hrun, hfail e he⟩

end

/-! ## One write -/

variable {ask : Ask} {s : Session} {i : Nat} {name : Value}

theorem endsIn_setAt_of_setter {h : Host} {c : Callable} (hb : s.bindings.Obliging ask)
    (ho : s.bindings.owner? name = .ok (some i)) (hprovider : (i, h) ∈ s.bindings.providers)
    (hsetter : h.setter? i = .ok (some c)) (value : Value) :
    EndsIn (setAt ask i name value) s (s.bindings.Put name value) := by
  have hi : s.bindings.hosts[i]? = some h := (Bindings.mem_providers.mp hprovider).2
  have hraised (f : Fault) : s.bindings.Put name value (.error f) s.bindings :=
    .raised ho hi (by rw [hsetter]; nofun)
  have hrun := setAt_of_setter hi hsetter ask name value
  cases hc : s.bindings.code? c with
  | none =>
    rw [hc] at hrun
    exact ⟨.error _, s, hrun, hraised _⟩
  | some code =>
    rw [hc] at hrun
    rcases hb i h c code name value s hprovider hsetter hc rfl with
      ⟨v, t, hdone, hw | hsame⟩ | ⟨f, t, hfailed, hsame⟩
    · exact ⟨.ok (), t, hrun.trans (Act.bind_of_done hdone _),
        .stored (Bindings.enters_of_writeAt ho hi hw)⟩
    · exact ⟨.ok (), t, hrun.trans (Act.bind_of_done hdone _),
        by rw [hsame]; exact .ignored ho hi hsetter⟩
    · exact ⟨.error f, t, hrun.trans (Act.bind_of_failed hfailed _),
        by rw [hsame]; exact hraised f⟩

theorem endsIn_setAt (hb : s.bindings.Obliging ask) (ho : s.bindings.owner? name = .ok (some i))
    (value : Value) : EndsIn (setAt ask i name value) s (s.bindings.Put name value) := by
  obtain ⟨h, hprovider, -⟩ := Bindings.exists_of_firstM ho
  have hi : s.bindings.hosts[i]? = some h := (Bindings.mem_providers.mp hprovider).2
  cases hsetter : h.setter? i with
  | error f =>
    have hrun : setAt ask i name value s = .failed f s :=
      Act.bind_of_failed (reading_of_error (by simp only [hi, hsetter])) _
    exact ⟨.error f, s, hrun, .raised ho hi (by rw [hsetter]; nofun)⟩
  | ok setter =>
    cases setter with
    | none =>
      obtain ⟨r, t, hrun, ht⟩ := endsIn_writing (P := s.bindings.Put name value)
        (f := fun b => b.writeAt i name value)
        (fun f hw => .unwritable ho hi hsetter (Bindings.write_of_writeAt hi hw))
        (fun b hw => .stored (Bindings.enters_of_writeAt ho hi hw))
      exact ⟨r, t, (setAt_of_plain hi hsetter ask name value).trans hrun, ht⟩
    | some c => exact endsIn_setAt_of_setter hb ho hprovider hsetter value

theorem endsIn_setUnknown (ho : s.bindings.owner? name = .ok none) (value : Value) :
    EndsIn (setUnknown name value) s (s.bindings.Put name value) := by
  refine EndsIn.read_bind (fun f hf => nomatch hf) fun strict hstrict => ?_
  have hs : s.bindings.strict = strict := Except.ok.inj hstrict
  cases strict with
  | true =>
    refine EndsIn.read_bind (P := s.bindings.Put name value) (fun f hf => ?_) fun text htext => ?_
    · refine .unknown ho hs ?_
      rintro n rfl
      cases hf
    · refine ⟨.error (.unknownProperty text), s, rfl, .unknown ho hs ?_⟩
      rintro n rfl
      cases htext
      rfl
  | false =>
    exact endsIn_writing (P := s.bindings.Put name value)
      (f := fun b => b.writeShadow name value)
      (fun f hw => .noKey ho hs (Bindings.checkKey_of_writeShadow hw))
      (fun b hw => .stored (Bindings.enters_of_writeShadow ho hs hw))

theorem endsIn_set (hb : s.bindings.Obliging ask) (name value : Value) :
    EndsIn (set ask name value) s (s.bindings.Put name value) := by
  refine EndsIn.read_bind (fun f hf => .unsure hf) fun owner ho => ?_
  cases owner with
  | some i => exact endsIn_setAt hb ho value
  | none => exact endsIn_setUnknown ho value

theorem keptAs_keep (v : Value) (s : Session) :
    ∃ w n, keep v s = .done w { s with marks := n } ∧ v.KeptAs w := by
  cases v with
  | float x =>
    rw [keep_float]
    split
    · next hnan => exact ⟨_, _, rfl, .marked _ hnan⟩
    · exact ⟨_, s.marks, rfl, .self _⟩
  | _ => exact ⟨_, s.marks, rfl, .self _⟩

/-! ## One assignment -/

variable {e : Expression} {rhs : Value}

theorem endsIn_assignTo (hb : s.bindings.Obliging ask) {o : String} {v : Value}
    (ho : e.operator = some o) (hv : s.bindings.Writes e.lhs rhs o v) :
    EndsIn (assignTo ask e.lhs v) s (s.bindings.Assigns e rhs) := by
  obtain ⟨w, n, hkeep, hw⟩ := keptAs_keep v s
  obtain ⟨r, t, hset, ht⟩ := endsIn_set (s := { s with marks := n }) hb e.lhs w
  exact ⟨r, t, (Act.bind_of_done hkeep _).trans hset, .put ho hv hw ht⟩

theorem endsIn_update (hb : s.bindings.Obliging ask) {op : Operator}
    (ho : e.operator = some (op.symbol ++ "=")) :
    EndsIn (update ask op e.lhs rhs) s (s.bindings.Assigns e rhs) := by
  refine .read_bind (fun f hf => .untold ho (.inl hf)) fun _ _ => ?_
  refine .read_bind (fun f hf => .untold ho (.inr hf)) fun _ _ => ?_
  refine .read_bind (fun f hf => .unread ho hf) fun current hcurrent => ?_
  refine .read_bind (fun f hf => .inapplicable ho hcurrent hf) fun v hv => ?_
  exact endsIn_assignTo hb ho (.update hcurrent hv)

end Play

namespace Operator

theorem of_ofAssignment? {o : String} {op : Operator} (h : ofAssignment? o = some op) :
    o = op.symbol ++ "=" := by
  have hfound := List.find?_some h
  exact (beq_iff_eq.mp hfound).symm

theorem ne_of_ofAssignment? {o : String} (h : ofAssignment? o = none) (op : Operator) :
    o ≠ op.symbol ++ "=" := by
  have hall : op ∈ all := by cases op <;> decide
  have hne := List.find?_eq_none.mp h op hall
  exact fun ho => hne (beq_iff_eq.mpr ho.symm)

end Operator

namespace Play

variable {ask : Ask} {e : Expression} {s : Session}

/-- What an assignment does with the value of its right side. -/
def assigning (ask : Ask) (e : Expression) (rhs : Value) : Play Unit :=
  match e.operator with
  | some "=" => assignTo ask e.lhs rhs
  | some o =>
    match Operator.ofAssignment? o with
    | some op => update ask op e.lhs rhs
    | none => pure ()
  | none => pure ()

theorem assign_of_operator (h : e.hasOperator = true) (ask : Ask) :
    assign ask e = rightSide ask e "mutation" >>= assigning ask e := by
  rw [assign, if_pos h]
  rfl

theorem endsIn_assigning (h : e.hasOperator = true) (hb : s.bindings.Obliging ask) (rhs : Value) :
    EndsIn (assigning ask e rhs) s (s.bindings.Assigns e rhs) := by
  unfold assigning
  split
  · next ho => exact endsIn_assignTo hb ho .plain
  · next o hne ho =>
    split
    · next op hop =>
      obtain rfl := Operator.of_ofAssignment? hop
      exact endsIn_update hb ho
    · next hunknown =>
      refine ⟨.ok (), s, rfl, .unknown ho ?_ (Operator.ne_of_ofAssignment? hunknown)⟩
      rintro rfl
      exact hne rfl
  · next hnone =>
    rw [Expression.hasOperator, hnone] at h
    exact absurd h (by decide)

/-! ## The right side -/

theorem rightSide_of_not_function (h : e.rhsKind ≠ some .function) (ask : Ask) (part : String)
    (s : Session) : ∃ r, rightSide ask e part s = .ended r s := by
  have hscalar : ∃ r, reading (fun b => b.resolve .boolean e.rhs) s = .ended r s := by
    cases hv : s.bindings.resolve .boolean e.rhs with
    | ok v => exact ⟨.ok v, reading_of_ok hv⟩
    | error f => exact ⟨.error f, reading_of_error hv⟩
  unfold rightSide
  cases hk : e.rhsKind with
  | none => exact hscalar
  | some k =>
    cases k with
    | function => exact absurd hk h
    | error => exact ⟨.error _, rfl⟩
    | scalar => exact hscalar

theorem rightSide_of_unread {f : Fault} (h : e.rhsKind = some .function)
    (hargs : s.bindings.valuesOf e.rhsArgs = .error f) (ask : Ask) (part : String) :
    rightSide ask e part s = .failed f s := by
  unfold rightSide
  rw [h]
  exact Act.bind_of_failed (reading_of_error (f := fun b => b.valuesOf e.rhsArgs) hargs) _

/-- What an assignment may come to, from how its right side ended: a fault of the right
side is all that happens, and else at most one entry is written. -/
def Concludes (e : Expression) (b : Bindings) :
    Except Fault Value → Except Fault Unit → Bindings → Prop
  | .ok rhs, o, b' => b.Assigns e rhs o b'
  | .error f, o, b' => o = .error f ∧ b' = b

/-- An assignment writes at most once, in the states its right side has left. -/
structure WritesOnce (ask : Ask) (e : Expression) (s : Session) : Prop where
  /-- Without an operator nothing is evaluated. -/
  idle : e.hasOperator = false → mutate ask (some e) s = .done () s
  /-- Only a call may change anything before the write, -/
  still : e.rhsKind ≠ some .function → ∀ r u, (rightSide ask e "mutation" s).MayEnd r u → u = s
  /-- and only if its arguments can be read. -/
  unread : e.rhsKind = some .function → ∀ f, s.bindings.valuesOf e.rhsArgs = .error f →
    ∀ r u, (rightSide ask e "mutation" s).MayEnd r u → r = .error f ∧ u = s
  /-- Every end follows from one of the right side, -/
  sound : e.hasOperator = true → ∀ o t, (mutate ask (some e) s).MayEnd o t →
    ∃ r u, (rightSide ask e "mutation" s).MayEnd r u ∧ Concludes e u.bindings r o t.bindings
  /-- and every end of the right side is followed by one. -/
  complete : e.hasOperator = true → ∀ r u, (rightSide ask e "mutation" s).MayEnd r u →
    ∃ o t, (mutate ask (some e) s).MayEnd o t ∧ Concludes e u.bindings r o t.bindings

/-- An assignment is one write, based on the states as its right side has left them, and one
that fails leaves them so. -/
theorem writesOnce_of_obliging (he : e.lhsKind = .scalar)
    (hb : ∀ rhs u, (rightSide ask e "mutation" s).MayEnd (.ok rhs) u →
      u.bindings.Obliging ask) : WritesOnce ask e s := by
  have hmutate : mutate ask (some e) = assign ask e := by
    simp only [mutate, mutateExpression, he]
  refine ⟨fun hop => ?_, fun hk r u hu => ?_, fun hk f hargs r u hu => ?_, fun hop o t ht => ?_,
    fun hop r u hu => ?_⟩
  · rw [hmutate, assign, if_neg (by rw [hop]; exact Bool.false_ne_true)]
    rfl
  · obtain ⟨r', hrun⟩ := rightSide_of_not_function hk ask "mutation" s
    rw [hrun] at hu
    exact (Progress.mayEnd_ended.mp hu).2
  · rw [rightSide_of_unread hk hargs] at hu
    exact Progress.mayEnd_ended (r := .error f) |>.mp hu
  · rw [hmutate, assign_of_operator hop] at ht
    rcases Act.mayEnd_bind.mp ht with ⟨rhs, u, hu, hrest⟩ | ⟨f, hf, rfl⟩
    · obtain ⟨r, t', hrun, hassigns⟩ := endsIn_assigning hop (hb _ u hu) rhs
      rw [hrun] at hrest
      obtain ⟨rfl, rfl⟩ := Progress.mayEnd_ended.mp hrest
      exact ⟨.ok rhs, u, hu, hassigns⟩
    · exact ⟨.error f, t, hf, rfl, rfl⟩
  · rw [hmutate, assign_of_operator hop]
    cases r with
    | ok rhs =>
      obtain ⟨o, t, hrun, hassigns⟩ := endsIn_assigning hop (hb _ u hu) rhs
      have hend : (assigning ask e rhs u).MayEnd o t := by
        rw [hrun]
        exact Progress.mayEnd_ended.mpr ⟨rfl, rfl⟩
      exact ⟨o, t, Act.mayEnd_bind.mpr (.inl ⟨rhs, u, hu, hend⟩), hassigns⟩
    | error f => exact ⟨.error f, u, Act.mayEnd_bind.mpr (.inr ⟨f, hu, rfl⟩), rfl, rfl⟩

/-! Gold that a call has just earned is counted. -/

/-- An object with a setter, and a method that earns one piece of gold. -/
def miner (gold : Int) : Host where
  style := .object "Miner" []
  values := [(.text "gold", .int gold)]
  methods := [("set", .routine (Stock.setter .store "Miner")),
    ("earn", .routine (Stock.incr "gold"))]

def mine (gold : Int) : Session := { bindings := { hosts := [miner gold], active := [0] } }

def earning : Expression :=
  { lhs := .text "gold", operator := some "+=", rhsKind := some .function,
    rhsFunction := some "earn" }

theorem obliging_mine (gold : Int) (ask : Ask) : (mine gold).bindings.Obliging ask := by
  intro i h c code name value s hi hset hcode hs
  have hmem : (i, h) ∈ [(0, miner gold)] := hi
  obtain ⟨rfl, rfl⟩ : i = 0 ∧ h = miner gold := by simpa using hmem
  cases hset
  cases hcode
  rcases Stock.settles_setter .store nofun ask 0 "Miner" name value s with
    ⟨v, t, hrun, hw⟩ | ⟨f, t, hrun, hsame⟩
  · exact .inl ⟨v, t, hrun, .inl (hs ▸ hw)⟩
  · exact .inr ⟨f, t, hrun, hsame.trans hs⟩

theorem rightSide_earning : rightSide refused earning "mutation" (mine 1) =
    .done (.int 2) (mine 2) := by
  have hmethod : (miner 1).hasMethod 0 (.text "earn") = .ok true := by
    have hpublic : Host.isPublic "earn" = true := by decide +kernel
    simp only [Host.hasMethod, miner, Host.probePublic, hpublic, if_true]
    rfl
  have howner : (mine 1).bindings.methodOwner? (.text "earn") = .ok (some 0) := by
    show Bindings.firstM _ [(0, miner 1)] = _
    rw [Bindings.firstM, hmethod]
  have hcall : callAt refused 0 (.text "earn") [] (mine 1) = .done (.int 2) (mine 2) := rfl
  show function refused (.text "earn") [] (mine 1) = _
  rw [function, Act.bind_of_done (reading_of_ok (f := fun b => b.valuesOf []) rfl),
    Act.bind_of_done (reading_of_ok (f := fun b => b.methodOwner? (.text "earn")) howner)]
  exact hcall

theorem writesOnce_of_obliging_mine : earning.lhsKind = .scalar ∧ earning.hasOperator = true ∧
    WritesOnce refused earning (mine 1) := by
  refine ⟨rfl, by decide, writesOnce_of_obliging rfl fun rhs u hu => ?_⟩
  rw [rightSide_earning] at hu
  cases hu
  exact obliging_mine 2 refused

end Play
end Parley

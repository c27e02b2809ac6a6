import Parley.Proofs.Known
import Parley.Walk

/-
Relations between runs that scripts cannot break.

Whatever a script does in a session is put together from a few steps: it reads
the bound states, writes to one of them, leaves a trace, pauses, and marks a
value.  A relation that pairs each step with itself, and pairs two sequences
whose parts it pairs, therefore pairs whole calls, conditions, changes, texts and
visits.  The two sides may answer the requests of host methods in different ways,
as long as the relation pairs these answers too.

Scripts reach the bound states only through the value of a token, a call and an
assignment, so a relation that keeps these three, with the rest of the steps, is
enough for that (`Scripted`).  A relation may keep them although it does not keep
every read and write they are made of, nor every fault: apart from these three a
script never fails for want of a name (`Known`).

A property of one run is such a relation that ignores its second run (`First`).
-/

namespace Parley

/-- An entry that is neither a signal nor left by someone who heard one. -/
def Entry.Silent : Entry → Prop
  | .announced _ | .listener _ _ | .handler _ _ => False
  | _ => True

theorem Remark.silent_entry (r : Remark) : r.entry.Silent := by
  cases r <;> trivial

namespace Play

/-- A relation that the steps of scripts keep. -/
structure Congruence (R : ∀ ⦃α : Type⦄, Play α → Play α → Prop) : Prop where
  bind {α β : Type} {x x' : Play α} {f f' : α → Play β} :
    R x x' → (∀ a, R (f a) (f' a)) → R (x >>= f) (x' >>= f')
  read {α : Type} (f : Bindings → Except Fault α) : R (reading f) (reading f)
  writeAt (i : Nat) (name value : Value) :
    R (writing fun b => b.writeAt i name value) (writing fun b => b.writeAt i name value)
  setUnknown (name value : Value) : R (setUnknown name value) (setUnknown name value)
  note {e : Entry} : e.Silent → R (note e) (note e)
  pause : R Act.pause Act.pause
  keep (v : Value) : R (keep v) (keep v)

/-- A write under an unknown name reads the mode, and then it fails or writes to the
shadow. -/
theorem setUnknown_of_parts {R : ∀ ⦃α : Type⦄, Play α → Play α → Prop} {name value : Value}
    (hbind : ∀ {α β : Type} {x x' : Play α} {f f' : α → Play β},
      R x x' → (∀ a, R (f a) (f' a)) → R (x >>= f) (x' >>= f'))
    (hread : ∀ {α : Type} (f : Bindings → Except Fault α), R (reading f) (reading f))
    (hwrite : R (writing fun b => b.writeShadow name value)
      (writing fun b => b.writeShadow name value)) :
    R (setUnknown name value) (setUnknown name value) := by
  refine hbind (hread _) fun strict => ?_
  cases strict with
  | true => exact hbind (hread fun _ => name.plain) fun _ => hread fun _ => .error _
  | false => exact hwrite

/-- A relation that scripts keep when the requests of host methods are answered in
the one way on its left and in the other on its right. -/
structure Scripted (R : ∀ ⦃α : Type⦄, Play α → Play α → Prop) (ask ask' : Ask) : Prop where
  bind {α β : Type} {x x' : Play α} {f f' : α → Play β} :
    R x x' → (∀ a, R (f a) (f' a)) → R (x >>= f) (x' >>= f')
  ofExcept {α : Type} {x : Except Fault α} : Known x → R (Act.ofExcept x) (Act.ofExcept x)
  note {e : Entry} : e.Silent → R (note e) (note e)
  pause : R Act.pause Act.pause
  keep (v : Value) : R (keep v) (keep v)
  valueOf (hint : Hint) (v : Value) :
    R (reading fun b => b.valueOf hint v) (reading fun b => b.valueOf hint v)
  valuesOf (args : List Value) :
    R (reading fun b => b.valuesOf args) (reading fun b => b.valuesOf args)
  resolve (hint : Hint) (v : Value) :
    R (reading fun b => b.resolve hint v) (reading fun b => b.resolve hint v)
  function (name : Value) (args : List Value) :
    R (function ask name args) (function ask' name args)
  set (name value : Value) : R (set ask name value) (set ask' name value)

/-- A property of one run, as a relation that ignores its second run. -/
def First (P : ∀ ⦃α : Type⦄, Play α → Prop) ⦃α : Type⦄ (x _ : Play α) : Prop := P x

namespace Scripted

variable {R : ∀ ⦃α : Type⦄, Play α → Play α → Prop} {ask ask' : Ask} (h : Scripted R ask ask')
include h

theorem pure {α : Type} (a : α) : R (Pure.pure a) (Pure.pure a) := h.ofExcept (Known.ok a)

theorem fail {α : Type} {f : Fault} (hf : f.isUnknownName = false) :
    R (Act.fail f : Play α) (Act.fail f) := h.ofExcept (Known.error hf)

/-! ## Conditions -/

theorem rightSide (e : Expression) (part : String) :
    R (Play.rightSide ask e part) (Play.rightSide ask' e part) := by
  unfold Play.rightSide
  split
  · exact h.function _ _
  · exact h.fail rfl
  · exact h.resolve _ _

theorem checkAgainst (e : Expression) (lhs : Value) :
    R (Play.checkAgainst ask e lhs) (Play.checkAgainst ask' e lhs) := by
  unfold Play.checkAgainst
  split
  · refine h.bind (h.rightSide e _) fun rhs => ?_
    split
    · next c _ => exact h.ofExcept (c.known_test lhs rhs)
    · exact h.pure false
  · exact h.pure _

theorem checkExpression (e : Expression) :
    R (Play.checkExpression ask e) (Play.checkExpression ask' e) := by
  unfold Play.checkExpression
  split
  · exact h.bind (h.function _ _) fun lhs => h.checkAgainst e lhs
  · exact h.bind (h.rightSide e _) fun rhs =>
      h.bind (h.resolve _ _) fun lhs => h.ofExcept (Value.known_order _ lhs rhs)
  · exact h.bind (h.resolve _ _) fun lhs => h.checkAgainst e lhs
  · exact h.fail rfl

theorem check (e : Option Expression) : R (Play.check ask e) (Play.check ask' e) := by
  cases e with
  | none => exact h.pure true
  | some e => exact h.checkExpression e

/-! ## Changes -/

theorem wait (args : List Value) : R (Play.wait args) (Play.wait args) := by
  refine h.bind (h.valuesOf args) fun values => h.bind (h.ofExcept ?_) fun _ =>
    h.bind (h.note trivial) fun _ => h.pause
  cases values with
  | nil => exact Known.ok _
  | cons v _ => exact known_milliseconds v

theorem debug (args : List Value) : R (Play.debug args) (Play.debug args) :=
  h.bind (h.valuesOf args) fun _ => h.bind (h.ofExcept (known_labelled _ _)) fun _ =>
    h.bind (h.ofExcept (Value.known_written _)) fun _ => h.note trivial

theorem command (name : Option String) (args : List Value) :
    R (Play.command ask name args) (Play.command ask' name args) := by
  unfold Play.command
  split
  · exact h.wait args
  · exact h.debug args
  · exact h.bind (h.function _ _) fun _ => h.pure ()

theorem assignTo (name value : Value) :
    R (Play.assignTo ask name value) (Play.assignTo ask' name value) :=
  h.bind (h.keep value) fun v => h.set name v

theorem update (op : Operator) (name rhs : Value) :
    R (Play.update ask op name rhs) (Play.update ask' op name rhs) :=
  h.bind (h.ofExcept (Value.known_plain name)) fun _ =>
    h.bind (h.ofExcept (Value.known_written rhs)) fun _ =>
      h.bind (h.valueOf _ name) fun current =>
        h.bind (h.ofExcept (Value.known_apply op current rhs)) fun v => h.assignTo name v

theorem assign (e : Expression) : R (Play.assign ask e) (Play.assign ask' e) := by
  unfold Play.assign
  split
  · refine h.bind (h.rightSide e _) fun rhs => ?_
    split
    · exact h.assignTo e.lhs rhs
    · split
      · exact h.update _ e.lhs rhs
      · exact h.pure ()
    · exact h.pure ()
  · exact h.pure ()

theorem mutate (e : Option Expression) : R (Play.mutate ask e) (Play.mutate ask' e) := by
  cases e with
  | none => exact h.pure ()
  | some e =>
    show R (Play.mutateExpression ask e) (Play.mutateExpression ask' e)
    unfold mutateExpression
    split
    · exact h.command _ _
    · exact h.fail rfl
    · exact h.assign e

/-! ## Texts, responses and visits -/

theorem replacementValue (r : Replacement) :
    R (Play.replacementValue ask r) (Play.replacementValue ask' r) := by
  unfold Play.replacementValue
  split
  · exact h.function _ _
  · exact h.resolve _ _
  · exact h.pure _

theorem interpolate (rs : List Replacement) (text : List Char) :
    R (Play.interpolate ask rs text) (Play.interpolate ask' rs text) := by
  induction rs generalizing text with
  | nil => exact h.pure text
  | cons r rs ih =>
    unfold Play.interpolate
    split
    · exact ih text
    · exact h.bind (h.replacementValue r) fun v =>
        h.bind (h.ofExcept (Value.known_display v)) fun new => ih _

theorem gather {α β : Type} {f f' : α → Play (Option β)} (hf : ∀ a, R (f a) (f' a))
    (as : List α) : R (Act.gather f as) (Act.gather f' as) := by
  induction as with
  | nil => exact h.pure []
  | cons a as ih => exact h.bind (hf a) fun _ => h.bind ih fun _ => h.pure _

theorem iterate {κ α : Type} {step step' : κ → Play (κ ⊕ α)} (hstep : ∀ k, R (step k) (step' k))
    (hexhausted : R (fun _ => .exhausted : Play α) fun _ => .exhausted) (fuel : Nat) (k : κ) :
    R (Act.iterate step fuel k) (Act.iterate step' fuel k) := by
  induction fuel generalizing k with
  | zero => exact hexhausted
  | succ fuel ih =>
    refine h.bind (hstep k) fun v => ?_
    cases v with
    | inl k => exact ih k
    | inr a => exact h.pure a

theorem responses (r : Resource) (keys : List String) :
    R (Play.responses ask r keys) (Play.responses ask' r keys) := by
  refine h.gather (fun key => ?_) keys
  split
  · exact h.bind (h.note trivial) fun _ => h.pure none
  · refine h.bind (h.check _) fun holds => ?_
    cases holds with
    | true => exact h.pure _
    | false => exact h.pure none

theorem responsesUnder (r : Resource) (key : String) :
    R (Play.responsesUnder ask r key) (Play.responsesUnder ask' r key) := by
  unfold Play.responsesUnder
  split
  · exact h.pure none
  · split
    · exact h.bind (h.responses r _) fun _ => h.pure _
    · exact h.pure none

theorem lineText (n : Node) (l : Line) : R (Play.lineText ask n l) (Play.lineText ask' n l) := by
  unfold Play.lineText
  split
  · exact h.bind (h.interpolate _ _) fun _ => h.pure _
  · exact h.pure l

theorem build (r : Resource) (n : Node) : R (Play.build ask r n) (Play.build ask' r n) := by
  unfold Play.build
  split
  · exact h.bind (h.responses r _) fun _ => h.pure _
  · exact h.bind (h.lineText n _) fun l =>
      h.bind (h.responsesUnder r _) fun _ => h.pure _

theorem visit (r : Resource) (key : String) : R (Play.visit ask r key) (Play.visit ask' r key) := by
  unfold Play.visit
  split
  · exact h.pure _
  · split
    · refine h.bind (h.check _) fun holds => ?_
      cases holds with
      | true => exact h.pure _
      | false => exact h.pure _
    · exact h.pure _
    · exact h.bind (h.build r _) fun _ => h.pure _

/-! ## Walks

Apart from visits and changes, a walk moves the running signal. -/

section

variable (hrunning : ∀ value, R (Play.setRunning value) (Play.setRunning value))
include hrunning

theorem step (r : Resource) (key : String) : R (Play.step ask r key) (Play.step ask' r key) := by
  have hend : R (do return .inr (← finishDialogue) : Play (String ⊕ Option Line))
      (do return .inr (← finishDialogue)) :=
    h.bind (h.bind (hrunning true) fun _ => h.bind (hrunning false) fun _ => h.pure none)
      fun _ => h.pure _
  refine h.bind (h.visit r key) fun v => ?_
  cases v with
  | inl key => exact h.pure _
  | inr l =>
    show R (proceed ask l) (proceed ask' l)
    unfold proceed
    split
    · exact hend
    · split
      · exact hend
      · split
        · exact h.bind (hrunning true) fun _ => h.pure _
        · refine h.bind (h.mutate _) fun _ => ?_
          unfold goOn
          split
          · exact hend
          · exact h.pure _

theorem walk (hexhausted : R (fun _ => .exhausted : Play (Option Line)) fun _ => .exhausted)
    (r : Resource) (fuel : Nat) (key : String) :
    R (Play.walk ask r fuel key) (Play.walk ask' r fuel key) :=
  h.iterate (h.step hrunning r) hexhausted fuel key

end

end Scripted

namespace Congruence

variable {R : ∀ ⦃α : Type⦄, Play α → Play α → Prop} (h : Congruence R)
include h

theorem pure {α : Type} (a : α) : R (Pure.pure a) (Pure.pure a) := h.read fun _ => .ok a

theorem fail {α : Type} (f : Fault) : R (Act.fail f : Play α) (Act.fail f) :=
  h.read fun _ => .error f

theorem ofExcept {α : Type} (x : Except Fault α) : R (Act.ofExcept x) (Act.ofExcept x) :=
  h.read fun _ => x

theorem failNaming {α : Type} (fault : String → Fault) (name : Value) :
    R (Play.failNaming fault name : Play α) (Play.failNaming fault name) :=
  h.bind (h.ofExcept _) fun _ => h.fail _

/-! ## Code of host methods -/

/-- The code of a host method is paired with itself when the answers to its
requests are. -/
theorem routine {ask ask' : Ask}
    (hask : ∀ d key, R (Act.attempt (ask d key)) (Act.attempt (ask' d key)))
    (owner : Nat) (r : Routine) : R (Play.routine ask owner r) (Play.routine ask' owner r) := by
  induction r with
  | give v => exact h.pure v
  | fail f => exact h.fail f
  | note r next ih => exact h.bind (h.note r.silent_entry) fun _ => ih
  | read name next ih => exact h.bind (h.read _) fun v => ih v
  | write name value next ih => exact h.bind (h.writeAt owner _ _) fun _ => ih
  | keep value next ih => exact h.bind (h.keep value) fun v => ih v
  | pause next ih => exact h.bind h.pause fun _ => ih
  | request document key next ih => exact h.bind (hask document key) fun answer => ih answer

theorem invoke {ask ask' : Ask}
    (hask : ∀ d key, R (Act.attempt (ask d key)) (Act.attempt (ask' d key)))
    (c : Callable) (args : List Value) : R (Play.invoke ask c args) (Play.invoke ask' c args) := by
  refine h.bind (h.read _) fun code => ?_
  cases code with
  | some code => exact h.routine hask c.owner (code args)
  | none => exact h.fail _

/-! ## Calls and assignments

From here on it is enough that calls of host methods are paired. -/

variable {ask ask' : Ask} (hcall : ∀ c args, R (Play.invoke ask c args) (Play.invoke ask' c args))
include hcall

theorem callAt (i : Nat) (name : Value) (args : List Value) :
    R (Play.callAt ask i name args) (Play.callAt ask' i name args) :=
  h.bind (h.read _) fun c => hcall c args

omit hcall in
theorem callUnknown (name : Value) : R (Play.callUnknown name) (Play.callUnknown name) := by
  refine h.bind (h.read _) fun strict => ?_
  cases strict with
  | true => exact h.failNaming _ name
  | false => exact h.pure _

theorem function (name : Value) (args : List Value) :
    R (Play.function ask name args) (Play.function ask' name args) := by
  refine h.bind (h.read _) fun values => h.bind (h.read _) fun owner => ?_
  cases owner with
  | some i => exact h.callAt hcall i name values
  | none => exact h.callUnknown name

theorem setAt (i : Nat) (name value : Value) :
    R (Play.setAt ask i name value) (Play.setAt ask' i name value) := by
  refine h.bind (h.read _) fun setter => ?_
  cases setter with
  | some c => exact h.bind (hcall c _) fun _ => h.pure ()
  | none => exact h.writeAt i name value

theorem set (name value : Value) : R (Play.set ask name value) (Play.set ask' name value) := by
  refine h.bind (h.read _) fun owner => ?_
  cases owner with
  | some i => exact h.setAt hcall i name value
  | none => exact h.setUnknown name value

/-! ## Scripts -/

/-- What keeps the single steps of scripts and the calls of host methods keeps scripts. -/
theorem scripted : Scripted R ask ask' where
  bind := h.bind
  ofExcept _ := h.ofExcept _
  note := h.note
  pause := h.pause
  keep := h.keep
  valueOf _ _ := h.read _
  valuesOf _ := h.read _
  resolve _ _ := h.read _
  function := h.function hcall
  set := h.set hcall

theorem mutate (e : Option Expression) : R (Play.mutate ask e) (Play.mutate ask' e) :=
  (h.scripted hcall).mutate e

theorem responsesUnder (r : Resource) (key : String) :
    R (Play.responsesUnder ask r key) (Play.responsesUnder ask' r key) :=
  (h.scripted hcall).responsesUnder r key

theorem visit (r : Resource) (key : String) : R (Play.visit ask r key) (Play.visit ask' r key) :=
  (h.scripted hcall).visit r key

end Congruence
end Play
end Parley

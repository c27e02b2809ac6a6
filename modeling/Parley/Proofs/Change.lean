import Parley.Proofs.Confined
import Parley.Proofs.Walk

/-
Changes on the way to a line.

A change node leads to another key, and a walk that comes to it should make the
change and go on from there.  But a visit looks ahead: when the change leads to a
response node, the conditions of its responses are checked before the change is
made, and if a single response remains the walk goes on from that response instead
of showing it (`walk_of_change`).  Unless the look-ahead shows, a request that
begins at a change node is the change followed by a request (`next_of_change`).
-/

namespace Parley

/-- Where a node leads, given the responses found under its own key for what follows. -/
def Node.successor (n : Node) : Option (List Response) → String
  | some [x] => x.nextId
  | _ => n.nextId

namespace Play

variable {r : Resource} {n : Node} {m : Expression} {key : String}

theorem attach_of_change (hkind : n.kind = .mutation) (hm : n.mutation = some m)
    (rs : Option (List Response)) :
    ((Line.ofNode n).attach rs).kind = .mutation ∧
      ((Line.ofNode n).attach rs).mutation = some m ∧
        ((Line.ofNode n).attach rs).nextId = n.successor rs := by
  have hline : Line.ofNode n = { kind := .mutation, nextId := n.nextId, mutation := some m } := by
    rw [Line.ofNode, hkind, hm]
  rw [hline]
  match rs with
  | none => exact ⟨rfl, rfl, rfl⟩
  | some [] => exact ⟨rfl, rfl, rfl⟩
  | some [x] => exact ⟨rfl, rfl, rfl⟩
  | some (x :: y :: rs) => exact ⟨rfl, rfl, rfl⟩

/-- A visit of a change node looks ahead to the responses that follow it. -/
theorem visit_of_change (ask : Ask) (hnode : r.node? (r.resolveKey key) = some n)
    (hkind : n.kind = .mutation) (hm : n.mutation = some m) :
    visit ask r key = responsesUnder ask r n.nextId >>= fun rs =>
      pure (.inr (some ((Line.ofNode n).attach rs))) := by
  have hnext : (Line.ofNode n).nextId = n.nextId := (attach_of_change hkind hm none).2.2
  have htext : lineText ask n (Line.ofNode n) = pure (Line.ofNode n) := by
    rw [lineText, hkind]
    rfl
  have hbuild : build ask r n =
      responsesUnder ask r n.nextId >>= fun rs => pure ((Line.ofNode n).attach rs) := by
    rw [build, hkind, htext, pure_bind, hnext]
    rfl
  simp only [visit, hnode, hkind, hbuild, bind_assoc, pure_bind]

/-- What a walk does at a change node, exactly: first the look-ahead, then the change,
and then the walk from where the look-ahead says. -/
theorem walk_of_change (ask : Ask) (fuel : Nat) (hnode : r.node? (r.resolveKey key) = some n)
    (hkind : n.kind = .mutation) (hm : n.mutation = some m) :
    walk ask r (fuel + 1) key = (do
      let rs ← responsesUnder ask r n.nextId
      mutate ask (some m)
      resume ask r fuel (n.successor rs)) := by
  rw [walk_succ, visit_of_change ask hnode hkind hm, bind_assoc]
  refine congrArg (responsesUnder ask r n.nextId >>= ·) (funext fun rs => ?_)
  obtain ⟨hk, hmut, hnext⟩ := attach_of_change hkind hm rs
  have hvalid : ((Line.ofNode n).attach rs).isValid = true := by
    rw [Line.isValid, hk, hmut]
    rfl
  rw [pure_bind, Sum.elim_inr, arrive_of_change ask r fuel hvalid hk, hmut, hnext]

/-! ## Requests that begin at a change -/

/-- Nothing shows of the look-ahead at a node: it does not fail, leaves the session as
it was, and does not lead elsewhere. -/
def Unseen (r : Resource) (n : Node) (s : Session) : Prop :=
  ∃ rs, (responsesUnder refused r n.nextId s).finish = some (.ok rs, s) ∧
    n.successor rs = n.nextId

theorem unseen_of_not_response (h : ∀ q, r.node? n.nextId = some q → q.kind ≠ .response)
    (s : Session) : Unseen r n s := by
  refine ⟨none, ?_, rfl⟩
  rw [responsesUnder_of_not_response refused h]
  rfl

variable {fuel nesting : Nat} {doc : Option Resource} {s : Session}

theorem finish_next_of_free (hfree : s.pending = false) (hdoc : (doc <|> s.default) = some r) :
    (next fuel (nesting + 1) doc key s).finish = (guarded (walk refused r fuel key) s).finish := by
  rw [finish_next, seek, Act.bind_of_done (admitted_of_free hfree hdoc)]

theorem finish_guarded_of_unseen {β : Type} {f : Option (List Response) → Play β}
    {rs : Option (List Response)}
    (hlook : (responsesUnder refused r n.nextId s).finish = some (.ok rs, s)) :
    (guarded (responsesUnder refused r n.nextId >>= f) s).finish = (guarded (f rs) s).finish := by
  have hconf : Confined (responsesUnder refused r n.nextId) :=
    congruence_confined.responsesUnder confined_invoke r n.nextId
  obtain ⟨c, hc, hs⟩ := hconf.exists_core hlook
  have hheld : { s with pending := true }.after c = { s with pending := true } := by
    show { s.after c with pending := true } = _
    rw [← hs]
  have hlook' := hconf.finish_of_core (u := { s with pending := true }) hc rfl
  rw [hheld] at hlook'
  rw [finish_guarded, finish_guarded, Act.finish_bind, hlook']

theorem finish_change_bind (hdoc : (doc <|> s.default) = some r) (hnext : n.nextId ≠ "") :
    (guarded (mutate refused (some m) >>= fun _ => resume refused r fuel n.nextId) s).finish =
      ((guarded (mutate (answer fuel nesting) (some m)) >>= fun _ =>
        next fuel (nesting + 1) doc n.nextId) s).finish := by
  refine Locked.finish_guarded_bind
    (congruence_heldCalm.mutate (heldCalm_invoke fuel nesting) (some m) _ rfl) fun _ u hu hd => ?_
  rw [resume_of_ne refused r fuel hnext, finish_next_of_free hu (by rw [hd, hdoc])]

/-- What a request does that begins at a change node.  Exactly, it looks ahead, makes
the change and goes on as the look-ahead says.  When the look-ahead does not show,
this is the change, made while requests of host methods are refused, followed by a
request for what comes after it; and the change can be made without the guard if its
host methods' requests make no difference. -/
theorem next_of_change (hfree : s.pending = false) (hdoc : (doc <|> s.default) = some r)
    (hnode : r.node? (r.resolveKey key) = some n) (hkind : n.kind = .mutation)
    (hm : n.mutation = some m) (hnext : n.nextId ≠ "") :
    (next (fuel + 1) (nesting + 1) doc key s).finish =
        (guarded (do
          let rs ← responsesUnder refused r n.nextId
          mutate refused (some m)
          resume refused r fuel (n.successor rs)) s).finish ∧
      (Unseen r n s →
        (next (fuel + 1) (nesting + 1) doc key s).finish =
            ((do
              guarded (mutate (answer fuel nesting) (some m))
              next fuel (nesting + 1) doc n.nextId) s).finish ∧
          ((mutate (answer fuel nesting) (some m) s).finish =
              (mutate refused (some m) s).finish →
            (next (fuel + 1) (nesting + 1) doc key s).finish =
              ((do
                mutate (answer fuel nesting) (some m)
                next fuel (nesting + 1) doc n.nextId) s).finish)) := by
  have hexact : (next (fuel + 1) (nesting + 1) doc key s).finish =
      (guarded (responsesUnder refused r n.nextId >>= fun rs =>
        mutate refused (some m) >>= fun _ => resume refused r fuel (n.successor rs)) s).finish := by
    rw [finish_next_of_free hfree hdoc, walk_of_change refused fuel hnode hkind hm]
  refine ⟨hexact, fun ⟨rs, hlook, hsucc⟩ => ?_⟩
  have hguarded : (next (fuel + 1) (nesting + 1) doc key s).finish =
      ((guarded (mutate (answer fuel nesting) (some m)) >>= fun _ =>
        next fuel (nesting + 1) doc n.nextId) s).finish := by
    rw [hexact, finish_guarded_of_unseen hlook, hsucc]
    exact finish_change_bind hdoc hnext
  refine ⟨hguarded, fun hquiet => ?_⟩
  have hfree' : (guarded (mutate (answer fuel nesting) (some m)) s).finish =
      (mutate (answer fuel nesting) (some m) s).finish := by
    rw [Locked.finish_guarded (congruence_heldCalm.mutate (heldCalm_invoke fuel nesting) (some m)
      _ rfl), (confined_mutate (some m)).finish_guarded hfree, hquiet]
  rw [hguarded, Act.finish_bind, Act.finish_bind, hfree']

def meeting : Expression := { lhs := .text "met", operator := some "=", rhs := .bool true }

/-- A host that has met nobody. -/
def stranger : Session :=
  { bindings := { hosts := [{ values := [(.text "met", .bool false)] }], active := [0] } }

def acquaintance : Session :=
  { bindings := { hosts := [{ values := [(.text "met", .bool true)] }], active := [0] } }

def meetingNode : Node := { kind := .mutation, nextId := "2", mutation := some meeting }

def introduction : Resource :=
  { lines := [("1", meetingNode), ("2", { kind := .dialogue, text := "Nice to meet you." })] }

theorem next_of_change_introduction :
    (next 3 1 (some introduction) "1" stranger).finish =
      ((do
        mutate (answer 2 0) (some meeting)
        next 2 1 (some introduction) "2") stranger).finish := by
  have hplain : ∀ q, introduction.node? meetingNode.nextId = some q → q.kind ≠ .response := by
    intro q hq
    obtain rfl := Option.some.inj hq
    decide
  have hmet : (mutate (answer 2 0) (some meeting) stranger).finish =
      some (.ok (), acquaintance) := rfl
  have hmet' : (mutate refused (some meeting) stranger).finish =
      some (.ok (), acquaintance) := rfl
  exact ((next_of_change (r := introduction) (n := meetingNode) (m := meeting) rfl rfl rfl rfl rfl
    (by decide)).2 (unseen_of_not_response hplain stranger)).2 (hmet.trans hmet'.symm)

/-- A meeting after which there are two responses, while there is one before it. -/
def replies : Resource :=
  { lines :=
      [("1", meetingNode), ("2", { kind := .response, responses := ["3", "4"] }),
       ("3", { kind := .response, text := "Hi!", nextId := "5" }),
       ("4", { kind := .response, text := "You again?", nextId := "5",
               condition := some { lhs := .text "met" } }),
       ("5", { kind := .dialogue, text := "Bye." })] }

def shown? (o : Option (Except Fault (Option Line) × Session)) : Option Shown := do
  let (.ok (some l), _) ← o | none
  return l.toShown

theorem exists_of_shown? {o : Option (Except Fault (Option Line) × Session)} {l : Shown}
    (h : shown? o = some l) : ∃ line t, o = some (.ok (some line), t) ∧ line.toShown = l := by
  obtain _ | ⟨e | _ | line, t⟩ := o
  · cases h
  · cases h
  · cases h
  · exact ⟨line, t, rfl, Option.some.inj h⟩

/-- The look-ahead finds a single response before the change and passes over it, where
the change followed by a request shows both. -/
theorem next_ne_of_replies :
    replies.node? (replies.resolveKey "1") = some meetingNode ∧
      meetingNode.kind = .mutation ∧ meetingNode.mutation = some meeting ∧
      shown? (next 4 1 (some replies) "1" stranger).finish =
        some { dialogue := some "Bye.", character := some "" } ∧
      shown? ((do
        mutate (answer 4 0) (some meeting)
        next 4 1 (some replies) "2") stranger).finish =
          some { kind := .response,
                 responses := [{ prompt := "Hi!", nextId := "5" },
                   { prompt := "You again?", nextId := "5" }] } ∧
      (next 4 1 (some replies) "1" stranger).finish ≠
        ((do
          mutate (answer 4 0) (some meeting)
          next 4 1 (some replies) "2") stranger).finish := by
  have hcode : shown? (next 4 1 (some replies) "1" stranger).finish =
      some { dialogue := some "Bye.", character := some "" } := by
    decide +kernel
  have hclaim : shown? ((do
      mutate (answer 4 0) (some meeting)
      next 4 1 (some replies) "2") stranger).finish =
        some { kind := .response,
               responses := [{ prompt := "Hi!", nextId := "5" },
                 { prompt := "You again?", nextId := "5" }] } := by
    decide +kernel
  refine ⟨rfl, rfl, rfl, hcode, hclaim, fun h => ?_⟩
  rw [h, hclaim] at hcode
  revert hcode
  decide

end Play
end Parley

import Parley.Walk

/-
A walk by its visits.

One visit decides what a walk does next: it goes on from another key, or it arrives at
a line and deals with it.  The equations here say so without the loop that carries
the walk, and say where the line comes from.
-/

namespace Parley
namespace Play

/-- Goes on from a key, or ends the dialogue without one. -/
def resume (ask : Ask) (r : Resource) (fuel : Nat) (key : String) : Play (Option Line) :=
  if key = "" then finishDialogue else walk ask r fuel key

/-- What a walk does once a visit gave a line. -/
def arrive (ask : Ask) (r : Resource) (fuel : Nat) : Option Line → Play (Option Line)
  | none => finishDialogue
  | some l =>
    if !l.isValid then finishDialogue
    else if l.kind != .mutation then do
      setRunning true
      return some l
    else do
      mutate ask l.mutation
      resume ask r fuel l.nextId

section

variable (ask : Ask) (r : Resource) (fuel : Nat)

theorem resume_of_ne {key : String} (h : key ≠ "") :
    resume ask r fuel key = walk ask r fuel key := if_neg h

theorem arrive_of_invalid {l : Line} (h : l.isValid = false) :
    arrive ask r fuel (some l) = finishDialogue := by
  simp [arrive, h]

theorem arrive_of_shown {l : Line} (h : l.isValid = true) (hk : l.kind ≠ .mutation) :
    arrive ask r fuel (some l) = (do setRunning true; return some l) := by
  simp [arrive, h, hk]

theorem arrive_of_change {l : Line} (h : l.isValid = true) (hk : l.kind = .mutation) :
    arrive ask r fuel (some l) =
      (do mutate ask l.mutation; resume ask r fuel l.nextId) := by
  simp [arrive, h, hk]

theorem goOn_bind (key : String) :
    goOn key >>= Sum.elim (walk ask r fuel) pure = resume ask r fuel key := by
  by_cases h : key = ""
  · subst h
    rw [goOn_empty, resume, if_pos rfl]
    simp
  · rw [goOn_of_ne h, resume_of_ne ask r fuel h, pure_bind]
    rfl

theorem proceed_bind (l : Option Line) :
    proceed ask l >>= Sum.elim (walk ask r fuel) pure = arrive ask r fuel l := by
  cases l with
  | none => simp [proceed, arrive]
  | some l =>
    cases hv : l.isValid with
    | false =>
      rw [proceed_of_invalid hv, arrive_of_invalid ask r fuel hv]
      simp
    | true =>
      by_cases hk : l.kind = .mutation
      · rw [proceed_of_change hv hk, arrive_of_change ask r fuel hv hk, bind_assoc]
        exact congrArg (mutate ask l.mutation >>= ·) (funext fun _ => goOn_bind ask r fuel _)
      · rw [proceed_of_shown hv hk, arrive_of_shown ask r fuel hv hk]
        simp

/-- A walk is a visit and what it leads to. -/
theorem walk_succ (key : String) : walk ask r (fuel + 1) key =
    visit ask r key >>= Sum.elim (walk ask r fuel) (arrive ask r fuel) := by
  have hstep : walk ask r (fuel + 1) key =
      step ask r key >>= Sum.elim (walk ask r fuel) pure := by
    refine congrArg (step ask r key >>= ·) (funext fun v => ?_)
    cases v with
    | inl key => rfl
    | inr l => rfl
  rw [hstep, step, bind_assoc]
  refine congrArg (visit ask r key >>= ·) (funext fun v => ?_)
  cases v with
  | inl key => rfl
  | inr l => exact proceed_bind ask r fuel l

end

/-! ## Lines -/

theorem responsesUnder_of_not_response (ask : Ask) {r : Resource} {key : String}
    (h : ∀ q, r.node? key = some q → q.kind ≠ .response) :
    responsesUnder ask r key = pure none := by
  unfold responsesUnder
  cases hq : r.node? key with
  | none => rfl
  | some q =>
    have hkind : (q.kind == .response) = false := beq_false_of_ne (h q hq)
    simp only [hkind]
    rfl

theorem responsesUnder_of_response (ask : Ask) {r : Resource} {key : String} {q : Node}
    (hq : r.node? key = some q) (h : q.kind = .response) :
    responsesUnder ask r key = some <$> responses ask r q.responses := by
  rw [responsesUnder, hq, map_eq_pure_bind]
  simp only [h]
  rfl

theorem build_of_response (ask : Ask) (r : Resource) {n : Node} (h : n.kind = .response) :
    build ask r n = (do
      let rs ← responses ask r n.responses
      pure { Line.ofNode n with responses := rs }) := if_pos (beq_iff_eq.mpr h)

theorem build_of_not_response (ask : Ask) (r : Resource) {n : Node} (h : n.kind ≠ .response) :
    build ask r n = (do
      let base ← lineText ask n (.ofNode n)
      let found ← responsesUnder ask r base.nextId
      pure (base.attach found)) := if_neg (by simpa using h)

/-- Whatever a run gives has a property. -/
def Gives {α : Type} (P : α → Prop) (x : Play α) : Prop :=
  ∀ s a t, (x s).finish = some (.ok a, t) → P a

theorem gives_pure {α : Type} {P : α → Prop} {a : α} (h : P a) : Gives P (pure a : Play α) := by
  intro s b t hx
  cases hx
  exact h

theorem Gives.bind_of {α β : Type} {P : α → Prop} {Q : β → Prop} {x : Play α} {f : α → Play β}
    (hx : Gives P x) (hf : ∀ a, P a → Gives Q (f a)) : Gives Q (x >>= f) := by
  intro s b t h
  rcases Act.finish_bind_eq_some h with ⟨a, u, hu, ht⟩ | ⟨e, -, he⟩
  · exact hf a (hx s a u hu) u b t ht
  · cases he

theorem Gives.bind {α β : Type} {P : β → Prop} {x : Play α} {f : α → Play β}
    (hf : ∀ a, Gives P (f a)) : Gives P (x >>= f) :=
  Gives.bind_of (P := fun _ => True) (fun _ _ _ _ => trivial) fun a _ => hf a

theorem mutation_attach (l : Line) (rs : Option (List Response)) :
    (l.attach rs).mutation = l.mutation := by
  match rs with
  | none => rfl
  | some [] => rfl
  | some [_] => rfl
  | some (_ :: _ :: _) => rfl

theorem gives_build (ask : Ask) (r : Resource) (n : Node) :
    Gives (fun l => l.mutation = (Line.ofNode n).mutation) (build ask r n) := by
  have htext (l : Line) : Gives (fun l' => l'.mutation = l.mutation) (lineText ask n l) := by
    unfold lineText
    split
    · exact Gives.bind fun _ => gives_pure rfl
    · exact gives_pure rfl
  unfold build
  split
  · exact Gives.bind fun _ => gives_pure rfl
  · refine Gives.bind_of (htext _) fun l hl => Gives.bind fun rs => gives_pure ?_
    rw [mutation_attach, hl]

/-- A line that a visit gives carries the change of the node it was built from. -/
theorem gives_visit (ask : Ask) (r : Resource) (key : String) :
    Gives (fun v => ∀ l, v = .inr (some l) → ∃ n, r.node? (r.resolveKey key) = some n ∧
      l.mutation = (Line.ofNode n).mutation) (visit ask r key) := by
  unfold visit
  split
  · exact gives_pure fun l hl => by cases hl
  · next n hn =>
    split
    · refine Gives.bind fun holds => ?_
      cases holds with
      | true => exact gives_pure fun l hl => by cases hl
      | false => exact gives_pure fun l hl => by cases hl
    · exact gives_pure fun l hl => by cases hl
    · refine Gives.bind_of (gives_build ask r n) fun l hl => gives_pure fun l' hl' => ?_
      cases hl'
      exact ⟨n, hn, hl⟩

theorem nextId_ofNode (n : Node) : (Line.ofNode n).nextId = n.nextId := by
  unfold Line.ofNode
  split <;> rfl

theorem responses_ofNode (n : Node) : (Line.ofNode n).responses = [] := by
  unfold Line.ofNode
  split <;> rfl

theorem mutation_of_isValid {l : Line} (hv : l.isValid = true) (hk : l.kind = .mutation) :
    ∃ m, l.mutation = some m := by
  rw [Line.isValid, hk] at hv
  exact Option.isSome_iff_exists.mp hv

/-- Only change nodes give lines that carry a change, and it is their own. -/
theorem mutation_ofNode {n : Node} {m : Expression} (h : (Line.ofNode n).mutation = some m) :
    n.kind = .mutation ∧ n.mutation = some m := by
  unfold Line.ofNode at h
  split at h
  · cases h
  · next hkind => exact ⟨hkind, h⟩
  · cases h

end Play
end Parley

import Parley.Walk

/-
Scripts without calls.

A condition, a replacement or a response filter that calls no host method only looks
at a session: it may fail and it may log, but whatever it decides, it leaves
everything except the trace as it was.  So does the visit of a node that has no
calls (`looks_visit`).

What it decides, it tells from the bound states (`Reads`, `Reports`), however the
requests of host methods would be answered.
-/

namespace Parley

/-- A condition without calls. -/
def Expression.Plain (e : Expression) : Prop :=
  e.lhsKind ≠ .function ∧ e.rhsKind ≠ some .function

/-- A change without calls of host methods.  The right side of a built-in is not read. -/
def Expression.PlainChange (e : Expression) : Prop :=
  match e.lhsKind with
  | .function => e.lhsFunction = some "wait" ∨ e.lhsFunction = some "debug"
  | .scalar => e.rhsKind ≠ some .function
  | .error => True

structure Node.Plain (n : Node) : Prop where
  condition : ∀ e, n.condition = some e → e.Plain
  mutation : ∀ e, n.mutation = some e → e.PlainChange
  replacements : ∀ r ∈ n.replacements, r.kind ≠ .function

def Resource.Plain (r : Resource) : Prop := ∀ key n, r.node? key = some n → n.Plain

/-- The nodes under some keys have conditions without calls. -/
def Resource.PlainAt (r : Resource) (keys : List String) : Prop :=
  ∀ key ∈ keys, ∀ n, r.node? key = some n → ∀ e, n.condition = some e → e.Plain

namespace Play

/-- A run that tells its result from the bound states and leaves everything as it was. -/
def Reads {α : Type} (x : Play α) : Prop :=
  ∀ s : Session, ∃ r, ∀ u : Session, u.bindings = s.bindings → x u = .ended r u

/-- A run that tells from the bound states what it gives and what it logs, and leaves
everything except the trace as it was. -/
def Reports {α : Type} (x : Play α) : Prop :=
  ∀ s : Session, ∃ r es, ∀ u : Session, u.bindings = s.bindings →
    x u = .ended r { u with trace := u.trace ++ es }

/-- A run that leaves everything except the trace as it was. -/
def Looks {α : Type} (x : Play α) : Prop :=
  ∀ s r t, (x s).finish = some (r, t) → ∃ es, t = { s with trace := s.trace ++ es }

section

variable {α β : Type} {x : Play α} {f : α → Play β}

theorem reads_reading (f : Bindings → Except Fault α) : Reads (reading f) := by
  intro s
  refine ⟨f s.bindings, fun u hu => ?_⟩
  cases hf : f s.bindings with
  | ok a => exact reading_of_ok (by rw [hu, hf])
  | error e => exact reading_of_error (by rw [hu, hf])

theorem reads_pure (a : α) : Reads (pure a : Play α) := reads_reading fun _ => .ok a

theorem reads_fail (e : Fault) : Reads (Act.fail e : Play α) := reads_reading fun _ => .error e

theorem reads_ofExcept (r : Except Fault α) : Reads (Act.ofExcept r : Play α) :=
  reads_reading fun _ => r

theorem Reads.bind (hx : Reads x) (hf : ∀ a, Reads (f a)) : Reads (x >>= f) := by
  intro s
  obtain ⟨r, hr⟩ := hx s
  cases r with
  | ok a =>
    obtain ⟨r', hr'⟩ := hf a s
    refine ⟨r', fun u hu => ?_⟩
    rw [Act.bind_of_done (hr u hu), hr' u hu]
  | error e => exact ⟨.error e, fun u hu => Act.bind_of_failed (hr u hu) f⟩

theorem Reads.reports (hx : Reads x) : Reports x := by
  intro s
  obtain ⟨r, hr⟩ := hx s
  refine ⟨r, [], fun u hu => ?_⟩
  rw [hr u hu, List.append_nil]

theorem reports_note (e : Entry) : Reports (note e) := fun _ => ⟨.ok (), [e], fun _ _ => rfl⟩

theorem Reports.bind (hx : Reports x) (hf : ∀ a, Reports (f a)) : Reports (x >>= f) := by
  intro s
  obtain ⟨r, es, hr⟩ := hx s
  cases r with
  | ok a =>
    obtain ⟨r', fs, hr'⟩ := hf a s
    refine ⟨r', es ++ fs, fun u hu => ?_⟩
    rw [Act.bind_of_done (hr u hu), hr' { u with trace := u.trace ++ es } hu, List.append_assoc]
  | error e => exact ⟨.error e, es, fun u hu => Act.bind_of_failed (hr u hu) f⟩

theorem Looks.bind (hx : Looks x) (hf : ∀ a, Looks (f a)) : Looks (x >>= f) := by
  intro s r t h
  rcases Act.finish_bind_eq_some h with ⟨a, u, hu, ht⟩ | ⟨e, he, rfl⟩
  · obtain ⟨es, rfl⟩ := hx s _ u hu
    obtain ⟨fs, rfl⟩ := hf a _ r t ht
    exact ⟨es ++ fs, by rw [List.append_assoc]⟩
  · exact hx s _ t he

theorem gather_congr {f g : α → Play (Option β)} {as : List α} (h : ∀ a ∈ as, f a = g a) :
    Act.gather f as = Act.gather g as := by
  induction as with
  | nil => rfl
  | cons a as ih =>
    rw [Act.gather, Act.gather, h a List.mem_cons_self,
      ih fun a' ha' => h a' (List.mem_cons_of_mem a ha')]

theorem reports_gather {f : α → Play (Option β)} {as : List α} (hf : ∀ a ∈ as, Reports (f a)) :
    Reports (Act.gather f as) := by
  induction as with
  | nil => exact (reads_pure []).reports
  | cons a as ih =>
    have hrest : Reports (Act.gather f as) := ih fun a' ha' => hf a' (List.mem_cons_of_mem a ha')
    exact (hf a List.mem_cons_self).bind fun _ => hrest.bind fun _ => (reads_pure _).reports

end

/-! ## Expressions -/

variable (ask : Ask)

theorem rightSide_of_scalar {e : Expression} (h : e.rhsKind = none ∨ e.rhsKind = some .scalar)
    (part : String) : rightSide ask e part = reading fun b => b.resolve .boolean e.rhs := by
  rcases h with h | h
  · rw [rightSide, h]
  · rw [rightSide, h]

theorem reads_rightSide {e : Expression} (h : e.rhsKind ≠ some .function) (part : String) :
    Reads (rightSide ask e part) := by
  unfold rightSide
  split
  · next hk => exact absurd hk h
  · exact reads_fail _
  · exact reads_reading _

theorem reads_checkAgainst {e : Expression} (h : e.rhsKind ≠ some .function) (lhs : Value) :
    Reads (checkAgainst ask e lhs) := by
  unfold checkAgainst
  split
  · refine (reads_rightSide ask h _).bind fun rhs => ?_
    split
    · exact reads_ofExcept _
    · exact reads_pure false
  · exact reads_pure _

theorem reads_check {c : Option Expression} (h : ∀ e, c = some e → e.Plain) :
    Reads (check ask c) := by
  cases c with
  | none => exact reads_pure true
  | some e =>
    obtain ⟨hl, hr⟩ := h e rfl
    show Reads (checkExpression ask e)
    unfold checkExpression
    split
    · next hk => exact absurd hk hl
    · exact (reads_rightSide ask hr _).bind fun _ =>
        (reads_reading _).bind fun _ => reads_ofExcept _
    · exact (reads_reading _).bind fun lhs => reads_checkAgainst ask hr lhs
    · exact reads_fail _

theorem reads_interpolate {rs : List Replacement} (h : ∀ r ∈ rs, r.kind ≠ .function)
    (text : List Char) : Reads (interpolate ask rs text) := by
  induction rs generalizing text with
  | nil => exact reads_pure text
  | cons r rs ih =>
    have hrest := ih fun r' hr' => h r' (List.mem_cons_of_mem r hr')
    have hvalue : Reads (replacementValue ask r) := by
      unfold replacementValue
      split
      · next hk => exact absurd hk (h r List.mem_cons_self)
      · exact reads_reading _
      · exact reads_pure _
    unfold interpolate
    split
    · exact hrest text
    · exact hvalue.bind fun _ => (reads_ofExcept _).bind fun _ => hrest _

theorem reads_lineText {n : Node} (h : ∀ r ∈ n.replacements, r.kind ≠ .function) (l : Line) :
    Reads (lineText ask n l) := by
  unfold lineText
  split
  · exact (reads_interpolate ask h _).bind fun _ => reads_pure _
  · exact reads_pure l

/-- Without calls it does not matter how the requests of host methods are answered. -/
theorem rightSide_eq_of_plain {e : Expression} (h : e.rhsKind ≠ some .function) (ask ask' : Ask)
    (part : String) : rightSide ask e part = rightSide ask' e part := by
  unfold rightSide
  split
  · next hk => exact absurd hk h
  · rfl
  · rfl

theorem check_eq_of_plain {c : Option Expression} (h : ∀ e, c = some e → e.Plain)
    (ask ask' : Ask) : check ask c = check ask' c := by
  cases c with
  | none => rfl
  | some e =>
    obtain ⟨hl, hr⟩ := h e rfl
    have hright := rightSide_eq_of_plain hr ask ask' "condition"
    show checkExpression ask e = checkExpression ask' e
    cases hkind : e.lhsKind with
    | function => exact absurd hkind hl
    | error => simp only [checkExpression, hkind]
    | scalar =>
      unfold checkExpression checkAgainst
      rw [hkind, hright]
      cases e.comparison? with
      | none => rfl
      | some c => cases c <;> rfl

/-! ## Nodes -/

variable {r : Resource}

theorem responses_eq_of_plain {keys : List String} (h : r.PlainAt keys) (ask ask' : Ask) :
    responses ask r keys = responses ask' r keys := by
  refine gather_congr fun key hkey => ?_
  cases hn : r.node? key with
  | none => rfl
  | some n => simp only [check_eq_of_plain (h key hkey n hn) ask ask']

theorem reports_responses {keys : List String} (h : r.PlainAt keys) :
    Reports (responses ask r keys) := by
  refine reports_gather fun key hkey => ?_
  split
  · exact (reports_note _).bind fun _ => (reads_pure none).reports
  · next n hn =>
    refine ((reads_check ask (h key hkey n hn)).bind fun holds => ?_).reports
    cases holds with
    | true => exact reads_pure _
    | false => exact reads_pure none

variable (hr : r.Plain)
include hr

end Play
end Parley

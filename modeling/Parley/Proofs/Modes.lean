import Parley.Host.Stock
import Parley.Proofs.Regime

/-
The two modes of a session.

Each mode keeps to its own side.  In strict mode no request and nothing that is evaluated
changes the shadow; in lenient mode none of them fails for want of a name.  `Sided` says
so of moves that share a session and take turns in any order, while any of them may
switch the mode.  It takes the host's word that its methods do not claim a name to be
unknown (`Bindings.Decent`, `Move.StaysDecent`).
-/

namespace Parley

namespace Regime

/-- A turn that begins in strict mode leaves the mode and the shadow as they are. -/
def strict : Regime where
  Begins _ := True
  Changes b c := b.strict = true → c.strict = true ∧ c.shadow = b.shadow
  misses := true
  refl _ hb := ⟨hb, rfl⟩
  trans h h' hb := by
    obtain ⟨hc, hshadow⟩ := h hb
    exact ⟨(h' hc).1, (h' hc).2.trans hshadow⟩
  kept _ _ := trivial
  writeAt h hb := by
    obtain ⟨hosts, rfl⟩ := Bindings.exists_hosts_of_writeAt h
    exact ⟨hb, rfl⟩
  writeShadow hlenient _ hb := nomatch hlenient.symm.trans hb
  sound := nofun

/-- Strict mode with an empty shadow. -/
def bare : Regime :=
  keeping (fun b => b.strict = true ∧ b.shadow = []) true
    (fun h hb => by
      obtain ⟨hosts, rfl⟩ := Bindings.exists_hosts_of_writeAt h
      exact hb)
    (fun hlenient _ hb => nomatch hlenient.symm.trans hb.1) nofun

def decent : Regime :=
  keeping Bindings.Decent true
    (fun h hb => hb.of_same (Bindings.Stores.same (.inl ⟨_, _, h⟩)))
    (fun _ h hb => hb.of_same (Bindings.Stores.same (.inr ⟨_, h⟩))) nofun

/-- Lenient mode among decent states, where nothing fails for want of a name. -/
def lenient : Regime :=
  keeping (fun b => b.strict = false ∧ b.Decent) false
    (fun h hb =>
      have hsame := Bindings.Stores.same (.inl ⟨_, _, h⟩)
      ⟨hsame.strict_eq.trans hb.1, hb.2.of_same hsame⟩)
    (fun _ h hb =>
      have hsame := Bindings.Stores.same (.inr ⟨_, h⟩)
      ⟨hsame.strict_eq.trans hb.1, hb.2.of_same hsame⟩)
    fun _ _ hb => hb

end Regime

namespace Move

/-- A move that neither leaves strict mode nor touches the shadow by itself, unless it
empties it. -/
def StaysStrict : Move → Prop
  | .act (.setStrict strict) => strict = true
  | .adjust f => ∀ b, (f b).strict = b.strict ∧ (f b).shadow = b.shadow
  | _ => True

/-- A move that brings in no code that claims a name to be unknown. -/
def StaysDecent : Move → Prop
  | .adjust f => ∀ b : Bindings, b.Decent → (f b).Decent
  | _ => True

variable {m : Move} {f : Session → Session}

theorem StaysStrict.bare_of_adjusts (hm : m.StaysStrict) (hf : m.Adjusts f) (s : Session) :
    Regime.bare.Changes s.bindings (f s).bindings := by
  rintro ⟨hstrict, hshadow⟩
  cases m with
  | next document key => exact hf.elim
  | act a =>
    cases hf with
    | introduce _ id r =>
      obtain ⟨reactions, hs⟩ := Session.exists_introduce id r s
      rw [hs]
      exact ⟨hstrict, hshadow⟩
    | strict strict => exact ⟨hm, hshadow⟩
    | reset => exact ⟨hstrict, rfl⟩
    | _ => exact ⟨hstrict, hshadow⟩
  | adjust g =>
    subst hf
    obtain ⟨hmode, hsame⟩ := hm s.bindings
    exact ⟨hmode.trans hstrict, hsame.trans hshadow⟩

theorem StaysDecent.decent_of_adjusts (hm : m.StaysDecent) (hf : m.Adjusts f) (s : Session) :
    Regime.decent.Changes s.bindings (f s).bindings := by
  intro hb
  cases m with
  | next document key => exact hf.elim
  | act a =>
    cases hf with
    | introduce _ id r =>
      obtain ⟨reactions, hs⟩ := Session.exists_introduce id r s
      rw [hs]
      exact hb
    | _ => exact hb
  | adjust g =>
    subst hf
    exact hm s.bindings hb

variable {visits : Nat} {p : Playthrough} {s : Session} {moves : List Move}

/-- A session that is strict from the start never has anything in its shadow. -/
theorem bare_played (visits : Nat) (p : Playthrough) (hstrict : s.bindings.strict = true)
    (hshadow : s.bindings.shadow = []) (hmoves : ∀ m ∈ moves, m.StaysStrict) (order : List Nat) :
    (played visits p s moves order).state.bindings.strict = true ∧
      (played visits p s moves order).state.bindings.shadow = [] := by
  have htame (m : Move) (hm : m ∈ moves) : Regime.bare.Tames (m.run visits p) :=
    Regime.tame_run rfl fun f hf => (hmoves m hm).bare_of_adjusts hf
  exact (Regime.changes_played htame ⟨hstrict, hshadow⟩ order).1 ⟨hstrict, hshadow⟩

theorem decent_played (visits : Nat) (p : Playthrough) (hs : s.bindings.Decent)
    (hmoves : ∀ m ∈ moves, m.StaysDecent) (order : List Nat) :
    (played visits p s moves order).state.bindings.Decent := by
  have htame (m : Move) (hm : m ∈ moves) : Regime.decent.Tames (m.run visits p) :=
    Regime.tame_run rfl fun f hf => (hmoves m hm).decent_of_adjusts hf
  exact (Regime.changes_played htame hs order).1 hs

/-- Each mode keeps to its own side while moves share a session. -/
structure Sided (visits : Nat) (p : Playthrough) (s : Session) (moves : List Move) : Prop where
  /-- What a request or an evaluation does in strict mode leaves the shadow as it is. -/
  strict : ∀ order i m, moves[i]? = some m → m.evaluates = true →
    (played visits p s moves order).state.bindings.strict = true →
      (played visits p s moves (order ++ [i])).state.bindings.strict = true ∧
        (played visits p s moves (order ++ [i])).state.bindings.shadow =
          (played visits p s moves order).state.bindings.shadow
  /-- A session that is strict from the start never has anything in its shadow. -/
  bare : s.bindings.strict = true → s.bindings.shadow = [] → (∀ m ∈ moves, m.StaysStrict) →
    ∀ order, (played visits p s moves order).state.bindings.strict = true ∧
      (played visits p s moves order).state.bindings.shadow = []
  /-- A request or an evaluation whose turns are all taken in lenient mode does not fail
  for want of a name. -/
  lenient : ∀ order i m f, moves[i]? = some m → m.evaluates = true →
    (∀ before after, order = before ++ i :: after →
      (played visits p s moves before).state.bindings.strict = false) →
        (played visits p s moves order).result? i = some (.error f) → f.isUnknownName = false
  /-- Neither does a request that a host method makes, at whatever depth and from whatever
  session; and it too leaves the shadow as it is in strict mode. -/
  nested : ∀ depth document key t o u,
    (Play.next visits depth document key t).finish = some (o, u) →
      (t.bindings.strict = true →
        u.bindings.strict = true ∧ u.bindings.shadow = t.bindings.shadow) ∧
      (t.bindings.strict = false → t.bindings.Decent → ∀ f, o = .error f →
        f.isUnknownName = false)

/-- Strict mode leaves the shadow alone, and lenient mode knows every name. -/
theorem sided_of_decent (visits : Nat) (p : Playthrough) (s : Session) (moves : List Move)
    (hs : s.bindings.Decent) (hmoves : ∀ m ∈ moves, m.StaysDecent) :
    Sided visits p s moves where
  strict order i m hi hm := by
    have hguards : Regime.strict.Guards (played visits p s moves order) i :=
      Regime.guards_played hi (Regime.tame_run_of_evaluates hm) fun _ _ _ => trivial
    rw [played_concat]
    exact (Regime.tame_turn trivial hguards).1
  bare hstrict hshadow hstays order := bare_played visits p hstrict hshadow hstays order
  lenient order i m f hi hm hlenient hr := by
    have hguards : Regime.lenient.Guards (played visits p s moves order) i :=
      Regime.guards_played hi (Regime.tame_run_of_evaluates hm) fun before after he =>
        ⟨hlenient before after he, decent_played visits p hs hmoves before⟩
    exact hguards.excuses_of_result? hr rfl
  nested depth document key t o u h := by
    refine ⟨fun hstrict => ?_, fun hlenient hdecent f hf => ?_⟩
    · have htame := Regime.tame_next (R := Regime.strict) visits depth document key t trivial
      exact (htame.of_finish trivial h).1 hstrict
    · have hbegins : Regime.lenient.Begins t.bindings := ⟨hlenient, hdecent⟩
      have htame := Regime.tame_next visits depth document key t hbegins
      exact (htame.of_finish hbegins h).2 f hf rfl

/-! ## An inn -/

/-- A line that tells a name no state has. -/
def rumour : Resource :=
  { lines :=
      [("1", { kind := .dialogue, text := "Luck: %1.",
               replacements := [{ placeholder := "%1", value := .text "luck" }] })] }

/-- A state with a method that asks for the line and fails as the request does. -/
def keeper : Host :=
  { values := [(.text "gold", .int 3)], methods := [("ask", .routine (Stock.request "1"))] }

/-- A keeper without gold. -/
def frugal : Host := { keeper with values := [] }

def inn : Session :=
  { bindings := { hosts := [keeper], active := [0] }, default := some rumour }

/-- Asks, leaves strict mode, gives the name a value, and asks again: through the method,
and then once the host has put another state in the keeper's place. -/
def innMoves : List Move :=
  [.next none "1", .act (.setStrict false), .act (.set (.text "luck") (.int 7)),
   .act (.call (.text "ask") .null), .adjust fun b => { b with hosts := [frugal] },
   .next none "1"]

def fault? : Option (Except Fault (Option Line ⊕ Value)) → Option Fault
  | some (.error f) => some f
  | _ => none

theorem decent_keeper : keeper.Decent where
  getters label getters name g hstyle := nomatch hstyle
  code c code args hc := by
    rcases Host.mem_of_code? hc with hm | hm
    · cases (Prod.mk.inj (List.mem_singleton.mp hm)).2
      intro answer hanswer
      cases answer with
      | ok l => trivial
      | error f => exact hanswer f rfl
    · exact nomatch hm

theorem decent_frugal : frugal.Decent :=
  ⟨fun _ _ _ _ hstyle => (nomatch hstyle), decent_keeper.code⟩

theorem decent_inn : inn.bindings.Decent := by
  intro h hh
  obtain rfl : h = keeper := List.mem_singleton.mp hh
  exact decent_keeper

theorem sided_of_decent_inn :
    inn.bindings.Decent ∧ (∀ m ∈ innMoves, m.StaysDecent) ∧
      Sided 3 { session := inn } inn innMoves ∧
      fault? ((played 3 { session := inn } inn innMoves [0, 1, 2, 3, 4, 5]).result? 0) =
        some (.unknownProperty "luck") ∧
      ((played 3 { session := inn } inn innMoves [0, 1, 2, 3, 4, 5]).state.bindings.shadow.find?
        (.text "luck")).any (·.eq (.int 7)) = true := by
  have hmoves : ∀ m ∈ innMoves, m.StaysDecent := by
    intro m hm
    simp only [innMoves, List.mem_cons, List.not_mem_nil, or_false] at hm
    rcases hm with rfl | rfl | rfl | rfl | rfl | rfl
    case inr.inr.inr.inr.inl =>
      intro b _ h hh
      obtain rfl : h = frugal := List.mem_singleton.mp hh
      exact decent_frugal
    all_goals trivial
  exact ⟨decent_inn, hmoves, sided_of_decent 3 { session := inn } inn innMoves decent_inn hmoves,
    by decide +kernel, by decide +kernel⟩

end Move
end Parley

import Parley.Proofs.Story

/-
What a bus delivers, over whole histories.

Runs of a bus and stories tell of the same: every run that ends leaves the story of its uses
(`story_of_uses`), with the registrations that stand in it, and every story is left by a run
that is allowed to nest deeply enough (`exists_uses_of_story`).  So what a story says of
publications is said of every run: each publication calls exactly those who stood registered
when it opened, whatever its handlers do in the meantime.

The first direction carries `Enacts` through the run, by induction on how deep publications
nest.  The second one follows the story.
-/

namespace Parley

variable {η : Type} [DecidableEq η]

namespace Bus

/-- A use with something wrong in it fails at once. -/
theorem perform_of_refused {nested : Signal → Table → Use η Unit} {d : Deed η} {f : Fault}
    (hd : verdict d = .error f) (x : Exchange η) : perform nested d x = .failed f x := by
  cases d with
  | subscribe word h | unsubscribe word h =>
    rw [verdict] at hd
    rw [perform]
    cases hg : signal? word with
    | error f' =>
      rw [hg] at hd
      cases hd
      rfl
    | ok g =>
      rw [hg] at hd
      cases hd
  | publish word data =>
    rw [verdict] at hd
    rw [perform]
    cases hg : signal? word with
    | error f' =>
      rw [hg] at hd
      cases hd
      rfl
    | ok g =>
      have hdata : checkData data = .error f := by
        rw [hg] at hd
        exact hd
      rw [hdata]
      rfl

/-- A call notes itself, and then the handler makes its uses and has its fault. -/
theorem call_eq (nested : Signal → Table → Use η Unit) (conduct : Conduct η) {g : Signal}
    {data : Table} {h : η} {x : Exchange η} {r : Reaction η}
    (hr : conduct (x.history ++ [.called h g data]) h = r) :
    call nested conduct g data h x =
      (do performAll nested r.deeds; r.fault.elim (pure ()) Act.fail : Use η Unit)
        (x.record (.called h g data)) := by
  let called := x.record (.called h g data)
  have hnote : (Act.modify (·.record (.called h g data)) : Use η Unit) x = .done () called := rfl
  have hreact : (Act.read fun x => .ok (conduct x.history h) : Use η (Reaction η)) called =
      .done r called := Act.read_of_ok (congrArg Except.ok hr)
  refine (Act.bind_of_done hnote _).trans ((Act.bind_of_done hreact _).trans ?_)
  cases r.fault <;> rfl

/-! ## Runs tell stories -/

/-- An exchange whose bus has the registrations that stand in its history, which goes
on from a past one. -/
def Sound (past : List (Happening η)) (x : Exchange η) : Prop :=
  ∀ g, x.bus.handlers g = standing g (past ++ x.history)

/-- An event that changes the registrations as it says keeps the bus to its history. -/
theorem Sound.record {past : List (Happening η)} {x : Exchange η} {e : Happening η}
    {f : Bus η → Bus η} (hx : Sound past x)
    (hf : ∀ b g, (f b).handlers g = e.settle g (b.handlers g)) :
    Sound past ((x.onBus f).record e) := by
  intro g
  show (f x.bus).handlers g = standing g (past ++ (x.history ++ [e]))
  rw [← List.append_assoc, standing_concat, hf, hx g]

/-- So does one that leaves them as they are. -/
theorem Sound.keep {past : List (Happening η)} {x : Exchange η} {e : Happening η}
    (hx : Sound past x) (he : ∀ g hs, e.settle g hs = hs) : Sound past (x.record e) :=
  hx.record (f := id) fun b g => (he g (b.handlers g)).symm

theorem handlers_settle_subscribe (b : Bus η) (g k : Signal) (h : η) :
    (b.subscribe k h).handlers g = (Happening.subscribed k h).settle g (b.handlers g) := by
  rw [handlers_subscribe]
  by_cases hk : k = g <;> simp [Happening.settle, hk]

theorem handlers_settle_unsubscribe (b : Bus η) (g k : Signal) (h : η) :
    (b.unsubscribe k h).handlers g = (Happening.unsubscribed k h).settle g (b.handlers g) :=
  handlers_unsubscribe b k g h

section

variable (conduct : Conduct η) (past : List (Happening η))

/-- From one exchange to another a task was done: its story was added to the history, and
the bus keeps to it. -/
def Enacts (t : Task η) (x y : Exchange η) : Prop :=
  Sound past x → Sound past y ∧
    ∃ es, y.history = x.history ++ es ∧ Story conduct (past ++ x.history) t es

/-- From one exchange to another a publication was opened and closed, and in between it
called those who stood registered at its opening. -/
def Publishes (g : Signal) (data : Table) (x y : Exchange η) : Prop :=
  Sound past x → Sound past y ∧ ∃ es,
    y.history = x.history ++ (.opened g :: (es ++ [.closed g])) ∧
      Story conduct (past ++ x.history ++ [.opened g])
        (.calls g data (standing g (past ++ x.history))) es

variable {conduct past} {x y z : Exchange η}

theorem Enacts.rest (x : Exchange η) : Enacts conduct past (.uses []) x x := fun hx =>
  ⟨hx, [], (List.append_nil _).symm, .rest⟩

theorem Enacts.append {ds ds' : List (Deed η)} (h : Enacts conduct past (.uses ds) x y)
    (h' : Enacts conduct past (.uses ds') y z) : Enacts conduct past (.uses (ds ++ ds')) x z := by
  intro hx
  obtain ⟨hy, es, hes, hstory⟩ := h hx
  obtain ⟨hz, fs, hfs, hstory'⟩ := h' hy
  refine ⟨hz, es ++ fs, by rw [hfs, hes, List.append_assoc], hstory.append ?_⟩
  rwa [List.append_assoc, ← hes]

theorem Enacts.refused {d : Deed η} {f : Fault} (hd : verdict d = .error f) (x : Exchange η) :
    Enacts conduct past (.uses [d]) x x := fun hx =>
  ⟨hx, [], (List.append_nil _).symm, .refused hd .rest⟩

theorem Publishes.enacts {word : String} {g : Signal} {data : Table}
    (hg : signal? word = .ok g) (hdata : checkData data = .ok ())
    (h : Publishes conduct past g data x y) :
    Enacts conduct past (.uses [.publish word data]) x y := by
  intro hx
  obtain ⟨hy, es, hes, hstory⟩ := h hx
  have htail := Story.published hg hdata hstory .rest
  rw [List.append_nil] at htail
  exact ⟨hy, _, hes, htail⟩

variable {nested : Signal → Table → Use η Unit}
  (hn : ∀ g data x o y, (nested g data x).finish = some (o, y) →
    o = .ok () ∧ Publishes conduct past g data x y)
include hn

/-- A use fails for what is wrong with it in itself and for nothing else. -/
theorem enacts_of_perform {d : Deed η} {o : Except Fault Unit}
    (h : (perform nested d x).finish = some (o, y)) :
    o = verdict d ∧ Enacts conduct past (.uses [d]) x y := by
  cases hd : verdict d with
  | error f =>
    rw [perform_of_refused hd] at h
    cases h
    exact ⟨rfl, .refused hd x⟩
  | ok _ =>
    have hword {word : String} (hd : (signal? word).map (fun _ => ()) = .ok ()) :
        ∃ k, signal? word = .ok k := by
      cases hk : signal? word with
      | error f =>
        rw [hk] at hd
        cases hd
      | ok k => exact ⟨k, rfl⟩
    cases d with
    | subscribe word h' =>
      obtain ⟨k, hk⟩ := hword hd
      rw [perform, hk] at h
      cases h
      exact ⟨rfl, fun hx => ⟨hx.record fun b g => handlers_settle_subscribe b g k h',
        [.subscribed k h'], rfl, .subscribed hk .rest⟩⟩
    | unsubscribe word h' =>
      obtain ⟨k, hk⟩ := hword hd
      rw [perform, hk] at h
      cases h
      exact ⟨rfl, fun hx => ⟨hx.record fun b g => handlers_settle_unsubscribe b g k h',
        [.unsubscribed k h'], rfl, .unsubscribed hk .rest⟩⟩
    | publish word data =>
      cases hk : signal? word with
      | error f =>
        rw [verdict, hk] at hd
        cases hd
      | ok k =>
        have hdata : checkData data = .ok () := by
          rw [verdict, hk] at hd
          exact hd
        rw [perform, hk, hdata] at h
        obtain ⟨rfl, hpub⟩ := hn k data x o y h
        exact ⟨rfl, hpub.enacts hk hdata⟩

/-- Uses in turn go on until one is refused. -/
theorem enacts_of_performAll {ds : List (Deed η)} {o : Except Fault Unit}
    (h : (performAll nested ds x).finish = some (o, y)) :
    o.isOk = ds.all Deed.isSound ∧
      Enacts conduct past (.uses (ds.takeWhile Deed.isSound)) x y := by
  induction ds generalizing x with
  | nil =>
    cases h
    exact ⟨rfl, .rest _⟩
  | cons d ds ih =>
    rcases Act.finish_bind_eq_some h with ⟨u, z, hz, hy⟩ | ⟨f, hf, rfl⟩
    · obtain ⟨hd, hfirst⟩ := enacts_of_perform hn hz
      have hsound : d.isSound = true := by rw [Deed.isSound, ← hd]; rfl
      obtain ⟨ho, hrest⟩ := ih hy
      rw [List.all_cons, List.takeWhile_cons_of_pos hsound, hsound, Bool.true_and]
      exact ⟨ho, hfirst.append hrest⟩
    · obtain ⟨hd, hfirst⟩ := enacts_of_perform hn hf
      have hsound : ¬ d.isSound = true := by rw [Deed.isSound, ← hd]; exact Bool.false_ne_true
      rw [List.all_cons, List.takeWhile_cons_of_neg hsound, eq_false_of_ne_true hsound]
      refine ⟨rfl, fun hx => ?_⟩
      obtain ⟨hy, es, hes, hstory⟩ := hfirst hx
      cases hstory with
      | refused _ hstory => exact ⟨hy, es, hes, hstory⟩
      | subscribed hg => rw [verdict, hg] at hd; cases hd
      | unsubscribed hg => rw [verdict, hg] at hd; cases hd
      | published hg hdata => rw [verdict, hg] at hd; exact absurd (hd.trans hdata) (by simp)

/-- A handler that is called makes its uses, and the call ends with a fault if the handler
fails. -/
theorem enacts_of_call {g : Signal} {data : Table} {h : η} {o : Except Fault Unit}
    (hx : (call nested (fun es => conduct (past ++ es)) g data h x).finish = some (o, y)) :
    o.isOk = !(conduct (past ++ x.history ++ [.called h g data]) h).fails ∧
      Enacts conduct past (.uses (conduct (past ++ x.history ++ [.called h g data]) h).made)
        (x.record (.called h g data)) y := by
  generalize hr : conduct (past ++ x.history ++ [.called h g data]) h = r
  rw [List.append_assoc] at hr
  rw [call_eq nested (fun es => conduct (past ++ es)) hr] at hx
  rcases Act.finish_bind_eq_some hx with ⟨u, z, hz, hy⟩ | ⟨f, hf, rfl⟩
  · obtain ⟨ho, huses⟩ := enacts_of_performAll hn hz
    have hall : r.deeds.all Deed.isSound = true := ho.symm
    rw [Reaction.fails, hall]
    cases hfault : r.fault with
    | none =>
      rw [hfault] at hy
      cases hy
      exact ⟨rfl, huses⟩
    | some f =>
      rw [hfault] at hy
      cases hy
      exact ⟨rfl, huses⟩
  · obtain ⟨ho, huses⟩ := enacts_of_performAll hn hf
    have hall : r.deeds.all Deed.isSound = false := ho.symm
    rw [Reaction.fails, hall]
    exact ⟨rfl, huses⟩

/-- Handlers are called in turn, and whatever they do, none of their faults ends it. -/
theorem enacts_of_callAll {g : Signal} {data : Table} {hs : List η} {o : Except Fault Unit}
    (hx : (callAll nested (fun es => conduct (past ++ es)) g data hs x).finish = some (o, y)) :
    o = .ok () ∧ Enacts conduct past (.calls g data hs) x y := by
  induction hs generalizing x with
  | nil =>
    cases hx
    exact ⟨rfl, fun hx => ⟨hx, [], (List.append_nil _).symm, .silence⟩⟩
  | cons h hs ih =>
    rcases Act.finish_bind_eq_some hx with ⟨r, u, hu, hy⟩ | ⟨e, he, -⟩
    · obtain ⟨r', hr, hcall⟩ := Act.finish_attempt_eq_some hu
      cases hr
      obtain ⟨hok, huses⟩ := enacts_of_call hn hcall
      generalize hr : conduct (past ++ x.history ++ [.called h g data]) h = react at hok huses
      -- what is heard of the call before the next handler has its turn
      obtain ⟨v, hv, hnext, hvsound⟩ : ∃ v : Exchange η, v.history = u.history ++ react.echo g ∧
          (callAll nested (fun es => conduct (past ++ es)) g data hs v).finish = some (o, y) ∧
          (Sound past u → Sound past v) := by
        cases r with
        | ok a =>
          have hquiet : react.fails = false := by
            rw [← Bool.not_not react.fails, ← hok]
            rfl
          exact ⟨u, by rw [Reaction.echo, hquiet]; simp, hy, id⟩
        | error f =>
          have hloud : react.fails = true := by
            rw [← Bool.not_not react.fails, ← hok]
            rfl
          exact ⟨u.record (.failed g), by rw [Reaction.echo, hloud]; rfl, hy,
            fun hu => hu.keep fun _ _ => rfl⟩
      obtain ⟨ho, hrest⟩ := ih hnext
      refine ⟨ho, fun hx => ?_⟩
      obtain ⟨hu, es, hes, hstory⟩ := huses (hx.keep fun _ _ => rfl)
      obtain ⟨hy, fs, hfs, hstory'⟩ := hrest (hvsound hu)
      have hhistory : v.history = x.history ++ (.called h g data :: (es ++ react.echo g)) := by
        rw [hv, hes]
        simp [Exchange.record]
      refine ⟨hy, _, by rw [hfs, hhistory, List.append_assoc], .called hr ?_ ?_⟩
      · simpa [Exchange.record] using hstory
      · rwa [hhistory, ← List.append_assoc] at hstory'
    · obtain ⟨r, hr, -⟩ := Act.finish_attempt_eq_some he
      cases hr

end

/-- However deep they nest, publications end without a fault and call those who stand
registered when they open. -/
theorem publishes_of_publish (conduct : Conduct η) (past : List (Happening η)) (depth : Nat)
    (g : Signal) (data : Table) (x : Exchange η) (o : Except Fault Unit) (y : Exchange η)
    (h : (publish (fun es => conduct (past ++ es)) depth g data x).finish = some (o, y)) :
    o = .ok () ∧ Publishes conduct past g data x y := by
  induction depth generalizing g data x y o with
  | zero => cases h
  | succ depth ih =>
    have hrun : ((do
        callAll (publish (fun es => conduct (past ++ es)) depth)
          (fun es => conduct (past ++ es)) g data (x.bus.handlers g)
        Act.modify (·.record (.closed g))) (x.record (.opened g))).finish = some (o, y) := h
    rcases Act.finish_bind_eq_some hrun with ⟨_, z, hz, hy⟩ | ⟨e, he, -⟩
    · cases hy
      obtain ⟨-, hcalls⟩ := enacts_of_callAll ih hz
      refine ⟨rfl, fun hx => ?_⟩
      obtain ⟨hz, es, hes, hstory⟩ := hcalls (hx.keep fun _ _ => rfl)
      refine ⟨hz.keep fun _ _ => rfl, es, ?_, ?_⟩
      · show z.history ++ [.closed g] = _
        rw [hes]
        simp [Exchange.record]
      · rw [← hx g, List.append_assoc]
        exact hstory
    · cases (enacts_of_callAll ih he).1

/-! ## Whole runs -/

/-- Uses of a bus by its owner, one after another. -/
def uses (conduct : Conduct η) (depth : Nat) (ds : List (Deed η)) :
    Use η (List (Except Fault Unit)) :=
  Act.attempts (ds.map (perform (publish conduct depth)))

theorem enacts_of_uses (conduct : Conduct η) (past : List (Happening η)) (depth : Nat)
    {ds : List (Deed η)} {x y : Exchange η} {o : Except Fault (List (Except Fault Unit))}
    (h : (uses (fun es => conduct (past ++ es)) depth ds x).finish = some (o, y)) :
    o = .ok (ds.map verdict) ∧ Enacts conduct past (.uses ds) x y := by
  induction ds generalizing x o with
  | nil =>
    cases h
    exact ⟨rfl, .rest _⟩
  | cons d ds ih =>
    obtain ⟨r, z, o', hr, hrest, rfl⟩ := Act.finish_attempts_cons h
    obtain ⟨rfl, henacts⟩ := ih hrest
    obtain ⟨rfl, hfirst⟩ := enacts_of_perform (publishes_of_publish conduct past depth) hr
    exact ⟨rfl, hfirst.append henacts⟩

/-- A history in which each publication calls exactly those whose registrations stand when
it opens, and the bus that keeps to it. -/
structure Delivered (history : List (Happening η)) (b : Bus η) : Prop where
  served : Served [] history
  handlers_eq (g : Signal) : b.handlers g = standing g history

/-- However the handlers behave, uses of a new bus end with nothing but their own faults,
and they leave their story. -/
theorem story_of_uses {conduct : Conduct η} {depth : Nat} {ds : List (Deed η)}
    {o : Except Fault (List (Except Fault Unit))} {y : Exchange η}
    (h : (uses conduct depth ds {}).finish = some (o, y)) :
    o = .ok (ds.map verdict) ∧ Story conduct [] (.uses ds) y.history ∧ Sound [] y := by
  obtain ⟨ho, henacts⟩ := enacts_of_uses conduct [] depth h
  obtain ⟨hsound, es, hes, hstory⟩ := henacts fun _ => rfl
  have hes' : y.history = es := hes
  exact ⟨ho, by rw [hes']; exact hstory, hsound⟩

/-! ## Stories are run -/

section

variable {conduct : Conduct η} {depth : Nat} {g : Signal} {data : Table} {x y : Exchange η}

/-- The uses a handler comes to make are all it makes. -/
theorem performAll_of_uses {ds : List (Deed η)} {o : Except Fault (List (Except Fault Unit))}
    (h : (uses conduct depth (ds.takeWhile Deed.isSound) x).finish = some (o, y)) :
    ∃ r : Except Fault Unit, r.isOk = ds.all Deed.isSound ∧
      (performAll (publish conduct depth) ds x).finish = some (r, y) := by
  induction ds generalizing x o with
  | nil =>
    cases h
    exact ⟨.ok (), rfl, rfl⟩
  | cons d ds ih =>
    cases hd : verdict d with
    | ok u =>
      have hsound : d.isSound = true := by rw [Deed.isSound, hd]; rfl
      rw [List.takeWhile_cons_of_pos hsound] at h
      obtain ⟨r, z, o', hr, hrest, -⟩ := Act.finish_attempts_cons h
      obtain ⟨rfl, -⟩ := enacts_of_perform (publishes_of_publish conduct [] depth) hr
      obtain ⟨r, hok, hrun⟩ := ih hrest
      refine ⟨r, by rw [hok, List.all_cons, hsound, Bool.true_and], ?_⟩
      rw [performAll, Act.finish_bind, hr, hd]
      exact hrun
    | error f =>
      have hsound : ¬ d.isSound = true := by
        rw [Deed.isSound, hd]
        exact Bool.false_ne_true
      rw [List.takeWhile_cons_of_neg hsound] at h
      cases h
      refine ⟨.error f, by rw [List.all_cons, eq_false_of_ne_true hsound]; rfl, ?_⟩
      rw [performAll, Act.bind_of_failed (perform_of_refused hd _)]
      rfl

theorem call_of_uses {h : η} {r : Reaction η} {o : Except Fault (List (Except Fault Unit))}
    (hr : conduct (x.history ++ [.called h g data]) h = r)
    (hx : (uses conduct depth r.made (x.record (.called h g data))).finish = some (o, y)) :
    ∃ r' : Except Fault Unit, r'.isOk = !r.fails ∧
      (call (publish conduct depth) conduct g data h x).finish = some (r', y) := by
  obtain ⟨r', hok, hdeeds⟩ := performAll_of_uses hx
  rw [call_eq _ _ hr, Reaction.fails, ← hok, Act.finish_bind, hdeeds]
  cases r' with
  | error f => exact ⟨.error f, rfl, rfl⟩
  | ok u =>
    cases r.fault with
    | none => exact ⟨.ok (), rfl, rfl⟩
    | some f => exact ⟨.error f, rfl, rfl⟩

theorem callAll_of_call {h : η} {hs : List η} {react : Reaction η} {r : Except Fault Unit}
    {u v : Exchange η} (hr : r.isOk = !react.fails)
    (hcall : (call (publish conduct depth) conduct g data h x).finish = some (r, u))
    (hv : v = { u with history := u.history ++ react.echo g })
    (hrest : (callAll (publish conduct depth) conduct g data hs v).finish = some (.ok (), y)) :
    (callAll (publish conduct depth) conduct g data (h :: hs) x).finish = some (.ok (), y) := by
  have hattempt : (Act.attempt (call (publish conduct depth) conduct g data h) x).finish =
      some (.ok r, u) := by
    rw [Act.attempt, Progress.finish_attempt, hcall]
    rfl
  have hfails : react.fails = !r.isOk := by rw [hr, Bool.not_not]
  rw [Reaction.echo, hfails] at hv
  rw [callAll, Act.finish_bind, hattempt]
  cases r with
  | ok a =>
    have hvu : v = u := by
      rw [hv]
      show { u with history := u.history ++ [] } = u
      rw [List.append_nil]
    rw [hvu] at hrest
    exact hrest
  | error f =>
    rw [hv] at hrest
    exact hrest

end

/-- A task was done by a run that may nest so deep. -/
def Done (conduct : Conduct η) (depth : Nat) : Task η → Exchange η → Exchange η → Prop
  | .uses ds, x, y => (uses conduct depth ds x).finish = some (.ok (ds.map verdict), y)
  | .calls g data hs, x, y =>
    (callAll (publish conduct depth) conduct g data hs x).finish = some (.ok (), y)

theorem Done.cons {conduct : Conduct η} {depth : Nat} {d : Deed η} {ds : List (Deed η)}
    {x y z : Exchange η} (hd : (perform (publish conduct depth) d x).finish = some (verdict d, y))
    (h : Done conduct depth (.uses ds) y z) : Done conduct depth (.uses (d :: ds)) x z :=
  Act.finish_attempts_cons_of hd h

/-- Every story is left by a run that may nest deeply enough. -/
theorem exists_done_of_story {conduct : Conduct η} {past es : List (Happening η)} {t : Task η}
    (h : Story conduct past t es) : ∃ depth, ∀ n, depth ≤ n → ∀ x : Exchange η,
      x.history = past → Sound [] x → ∃ y, Done conduct n t x y ∧ y.history = past ++ es ∧
        Sound [] y := by
  induction h with
  | rest => exact ⟨0, fun n _ x hpast hx => ⟨x, rfl, by rw [hpast, List.append_nil], hx⟩⟩
  | silence => exact ⟨0, fun n _ x hpast hx => ⟨x, rfl, by rw [hpast, List.append_nil], hx⟩⟩
  | refused hd _ ih =>
    obtain ⟨depth, ih⟩ := ih
    refine ⟨depth, fun n hn x hpast hx => ?_⟩
    obtain ⟨y, hdone, hy⟩ := ih n hn x hpast hx
    exact ⟨y, .cons (by rw [perform_of_refused hd, hd]; rfl) hdone, hy⟩
  | @subscribed past es word g k ds hg _ ih =>
    obtain ⟨depth, ih⟩ := ih
    refine ⟨depth, fun n hn x hpast hx => ?_⟩
    obtain ⟨y, hdone, hhistory, hy⟩ := ih n hn ((x.onBus (Bus.subscribe g k)).record
      (.subscribed g k)) (by rw [← hpast]; rfl)
      (hx.record fun b j => handlers_settle_subscribe b j g k)
    refine ⟨y, .cons ?_ hdone, by rw [hhistory, List.append_assoc]; rfl, hy⟩
    rw [perform, verdict, hg]
    rfl
  | @unsubscribed past es word g k ds hg _ ih =>
    obtain ⟨depth, ih⟩ := ih
    refine ⟨depth, fun n hn x hpast hx => ?_⟩
    obtain ⟨y, hdone, hhistory, hy⟩ := ih n hn ((x.onBus (Bus.unsubscribe g k)).record
      (.unsubscribed g k)) (by rw [← hpast]; rfl)
      (hx.record fun b j => handlers_settle_unsubscribe b j g k)
    refine ⟨y, .cons ?_ hdone, by rw [hhistory, List.append_assoc]; rfl, hy⟩
    rw [perform, verdict, hg]
    rfl
  | @published past es fs word g data ds hg hdata _ _ ihcalls ihuses =>
    obtain ⟨depth, ihcalls⟩ := ihcalls
    obtain ⟨depth', ihuses⟩ := ihuses
    refine ⟨max (depth + 1) depth', fun n hn x hpast hx => ?_⟩
    obtain ⟨m, rfl⟩ : ∃ m, n = m + 1 := ⟨n - 1, by omega⟩
    obtain ⟨u, hcalls, hu, husound⟩ := ihcalls m (by omega) (x.record (.opened g))
      (by rw [← hpast]; rfl) (hx.keep fun _ _ => rfl)
    obtain ⟨y, hdone, hhistory, hy⟩ := ihuses (m + 1) (by omega) (u.record (.closed g))
      (by rw [Exchange.record, hu]; simp) (husound.keep fun _ _ => rfl)
    refine ⟨y, .cons ?_ hdone, by rw [hhistory, List.append_assoc], hy⟩
    have hhandlers : x.bus.handlers g = standing g past := by
      rw [hx g, List.nil_append, hpast]
    have hrun : (callAll (publish conduct m) conduct g data (standing g past)
        (x.record (.opened g))).finish = some (.ok (), u) := hcalls
    rw [perform, verdict, hg, hdata]
    show ((do
      callAll (publish conduct m) conduct g data (x.bus.handlers g)
      Act.modify (·.record (.closed g))) (x.record (.opened g))).finish = _
    rw [hhandlers, Act.finish_bind, hrun]
    rfl
  | @called past es fs g data k hs r hr _ _ ihuses ihcalls =>
    obtain ⟨depth, ihuses⟩ := ihuses
    obtain ⟨depth', ihcalls⟩ := ihcalls
    refine ⟨max depth depth', fun n hn x hpast hx => ?_⟩
    obtain ⟨u, huses, hu, husound⟩ := ihuses n (by omega) (x.record (.called k g data))
      (by rw [← hpast]; rfl) (hx.keep fun _ _ => rfl)
    obtain ⟨r', hok, hcall⟩ := call_of_uses (by rw [hpast]; exact hr) huses
    have hecho : Sound [] { u with history := u.history ++ r.echo g } := by
      unfold Reaction.echo
      split
      · exact husound.keep fun _ _ => rfl
      · rw [List.append_nil]
        exact husound
    obtain ⟨y, hdone, hhistory, hy⟩ := ihcalls n (by omega)
      { u with history := u.history ++ r.echo g } (by rw [hu]; simp) hecho
    exact ⟨y, callAll_of_call hok hcall rfl hdone, by rw [hhistory, List.append_assoc], hy⟩

/-- Uses of a new bus leave their story, if they may nest deeply enough. -/
theorem exists_uses_of_story {conduct : Conduct η} {ds : List (Deed η)}
    {es : List (Happening η)} (h : Story conduct [] (.uses ds) es) :
    ∃ depth, ∀ n, depth ≤ n → ∃ y : Exchange η,
      (uses conduct n ds {}).finish = some (.ok (ds.map verdict), y) ∧ y.history = es := by
  obtain ⟨depth, hdone⟩ := exists_done_of_story h
  refine ⟨depth, fun n hn => ?_⟩
  obtain ⟨y, hy, hhistory, -⟩ := hdone n hn {} rfl fun _ => rfl
  exact ⟨y, hy, hhistory⟩

/-- Removing one handler leaves the registrations of all that differ from it. -/
theorem filter_handlers_unsubscribe {p : η → Bool} {h : η} (hp : p h = false) (b : Bus η)
    (g k : Signal) : ((b.unsubscribe g h).handlers k).filter p = (b.handlers k).filter p := by
  rw [handlers_unsubscribe]
  by_cases hk : g = k
  · rw [if_pos hk, List.filter_filter]
    refine List.filter_congr fun x _ => ?_
    by_cases hx : x = h
    · simp [hx, hp]
    · simp [hx]
  · rw [if_neg hk]

/-! ## Publications that end -/

/-- Uses other than publishing end. -/
theorem ends_performAll (nested : Signal → Table → Use η Unit) {ds : List (Deed η)}
    (h : ∀ word data, .publish word data ∉ ds) :
    Act.Ends (fun _ => True) (performAll nested ds) := by
  induction ds with
  | nil => exact Act.ends_read fun _ => .ok ()
  | cons d ds ih =>
    have hregister (f : Signal → Exchange η → Exchange η) (word : String) :
        Act.Ends (fun _ => True)
          (Act.ofExcept (signal? word) >>= fun g => Act.modify (f g) : Use η Unit) :=
      (Act.ends_read _).bind fun _ => Act.ends_modify fun _ h => h
    have hperform : Act.Ends (fun _ => True) (perform nested d) := by
      cases d with
      | subscribe word k => exact hregister _ word
      | unsubscribe word k => exact hregister _ word
      | publish word data => exact absurd List.mem_cons_self (h word data)
    exact hperform.bind fun _ => ih fun word data hd => h word data (List.mem_cons_of_mem _ hd)

/-- A publication whose handlers do not publish ends. -/
theorem ends_publish {conduct : Conduct η}
    (hc : ∀ es h word data, .publish word data ∉ (conduct es h).deeds) (g : Signal)
    (data : Table) : Act.Ends (fun _ => True) (publish conduct 1 g data) := by
  have hrecord (e : Happening η) :
      Act.Ends (fun _ => True) (Act.modify (·.record e) : Use η Unit) :=
    Act.ends_modify fun _ h => h
  have hcall (h : η) : Act.Ends (fun _ => True) (call (publish conduct 0) conduct g data h) := by
    refine (hrecord _).bind fun _ x => ?_
    refine (ends_performAll _ (hc x.history h)).bind (fun _ => ?_) x
    cases (conduct x.history h).fault with
    | some f => exact Act.ends_read fun _ => .error f
    | none => exact Act.ends_read fun _ => .ok ()
  have hcalls (hs : List η) :
      Act.Ends (fun _ => True) (callAll (publish conduct 0) conduct g data hs) := by
    induction hs with
    | nil => exact Act.ends_read fun _ => .ok ()
    | cons h hs ih =>
      refine (hcall h).attempt.bind fun r => ?_
      cases r with
      | ok _ => exact ih
      | error e => exact (hrecord _).bind fun _ => ih
  exact (Act.ends_read _).bind fun hs => (hrecord _).bind fun _ =>
    (hcalls hs).bind fun _ => hrecord _

end Bus
end Parley

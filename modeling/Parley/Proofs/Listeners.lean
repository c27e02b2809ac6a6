import Parley.Proofs.Confined
import Parley.Proofs.Delivery
import Parley.Session.Listen

/-
Who listens to a session, over its whole history.

A session keeps one bus.  Listeners come and go by name, handlers are subscribed to the
bus itself, and requests for lines announce the signals.  `Hears` carries the story of these
uses from one session to the next: each makes happen on the bus what it would make happen on
any other, and the trace tells of the announcements and of who heard them.

A request is known by how it ends: the signals it announces are those of `heralds`, so the
uses it makes of the bus are these and no others (`announces_next`, `hears_of_next`).
-/

namespace Parley

open Bus (Story Served standing)

/-! ## What a session hears -/

/-- A signal that went out, or someone it was delivered to. -/
def Entry.heard? : Entry → Option (Signal ⊕ Hearer)
  | .announced g => some (.inl g)
  | .listener id _ => some (.inr (.listener id))
  | .handler id _ => some (.inr (.handler id))
  | _ => none

def Happening.heard? : Happening Hearer → Option (Signal ⊕ Hearer)
  | .opened g => some (.inl g)
  | .called h _ _ => some (.inr h)
  | _ => none

theorem Entry.heard?_of_silent {e : Entry} (h : e.Silent) : e.heard? = none := by
  cases e <;> first | rfl | exact absurd h id

theorem Play.filterMap_heard (running : Bool) (es : List (Happening Hearer)) :
    (es.flatMap (heard running)).filterMap Entry.heard? = es.filterMap Happening.heard? := by
  induction es with
  | nil => rfl
  | cons e es ih =>
    rw [List.flatMap_cons, List.filterMap_append, ih, List.filterMap_cons]
    cases e with
    | called h g data => cases h <;> rfl
    | _ => rfl

theorem Session.react_congr {s t : Session} (h : t.reactions = s.reactions) :
    t.react = s.react := by
  funext k
  cases k with
  | listener id => rw [react, react, h]
  | handler id => rfl

/-- From one session to another the bus was put to these uses, and these things happened on
it: they are the story of the uses, by what the listeners do, the bus keeps to them, and the
trace tells who heard what. -/
structure Session.Hears (s : Session) (ds : List (Deed Hearer)) (es : List (Happening Hearer))
    (t : Session) : Prop where
  story (past : List (Happening Hearer)) : (∀ g, s.bus.handlers g = standing g past) →
    Story (fun _ => t.react) past (.uses ds) es ∧ ∀ g, t.bus.handlers g = standing g (past ++ es)
  trace : t.trace.filterMap Entry.heard? =
    s.trace.filterMap Entry.heard? ++ es.filterMap Happening.heard?

namespace Session

theorem hears_of_silent {s t : Session} {es : List Entry} (hbus : t.bus = s.bus)
    (ht : t.trace = s.trace ++ es) (hes : ∀ e ∈ es, e.Silent) : s.Hears [] [] t where
  story past hs := by
    refine ⟨.rest, fun g => ?_⟩
    rw [hbus, List.append_nil]
    exact hs g
  trace := by
    rw [ht, List.filterMap_append,
      List.filterMap_eq_nil_iff.mpr fun e he => Entry.heard?_of_silent (hes e he)]
    rfl

theorem Hears.trans {s t u : Session} {ds ds' : List (Deed Hearer)}
    {es fs : List (Happening Hearer)} (h : s.Hears ds es t) (h' : t.Hears ds' fs u)
    (hr : u.react = t.react) : s.Hears (ds ++ ds') (es ++ fs) u where
  story past hs := by
    obtain ⟨hes, ht⟩ := h.story past hs
    obtain ⟨hfs, hu⟩ := h'.story (past ++ es) ht
    rw [← hr] at hes
    exact ⟨hes.append hfs, fun g => by rw [hu, List.append_assoc]⟩
  trace := by rw [h'.trace, h.trace, List.filterMap_append, List.append_assoc]

end Session

namespace Play

/-- The use of the bus that announces a signal. -/
def announcing (g : Signal) : Deed Hearer := .publish g.word []

/-- From one session to another these signals were announced, and nothing else was done to
the bus. -/
structure Announced (gs : List Signal) (s t : Session) : Prop where
  hears : ∃ es, s.Hears (gs.map announcing) es t
  reactions : t.reactions = s.reactions
  signals : ∃ es, t.trace = s.trace ++ es ∧ signals es = gs

/-- A run that uses the bus to announce signals, if at all. -/
def Announces ⦃α : Type⦄ (x : Play α) : Prop :=
  ∀ s o t, (x s).finish = some (o, t) → ∃ gs, Announced gs s t

theorem Announced.trans {gs ks : List Signal} {s t u : Session} (h : Announced gs s t)
    (h' : Announced ks t u) : Announced (gs ++ ks) s u where
  hears := by
    obtain ⟨es, hes⟩ := h.hears
    obtain ⟨fs, hfs⟩ := h'.hears
    rw [List.map_append]
    exact ⟨es ++ fs, hes.trans hfs (Session.react_congr h'.reactions)⟩
  reactions := h'.reactions.trans h.reactions
  signals := by
    obtain ⟨es, ht, hes⟩ := h.signals
    obtain ⟨fs, hu, hfs⟩ := h'.signals
    exact ⟨es ++ fs, by rw [hu, ht, List.append_assoc], by rw [signals_append, hes, hfs]⟩

theorem announced_of_silent {s t : Session} {es : List Entry} (hes : ∀ e ∈ es, e.Silent)
    (hbus : t.bus = s.bus) (hreactions : t.reactions = s.reactions)
    (ht : t.trace = s.trace ++ es) : Announced [] s t where
  hears := ⟨[], Session.hears_of_silent hbus ht hes⟩
  reactions := hreactions
  signals := ⟨es, ht, signals_eq_nil fun e he => Entry.signal?_of_silent (hes e he)⟩

theorem announced_of_same {s t : Session} (hbus : t.bus = s.bus)
    (hreactions : t.reactions = s.reactions) (ht : t.trace = s.trace) : Announced [] s t :=
  announced_of_silent (List.forall_mem_nil _) hbus hreactions (by rw [ht, List.append_nil])

theorem Announces.bind {α β : Type} {x : Play α} {f : α → Play β} (hx : Announces x)
    (hf : ∀ a, Announces (f a)) : Announces (x >>= f) := by
  intro s o u h
  rcases Act.finish_bind_eq_some h with ⟨a, t, ht, hu⟩ | ⟨e, he, -⟩
  · obtain ⟨gs, hgs⟩ := hx s _ t ht
    obtain ⟨ks, hks⟩ := hf a t o u hu
    exact ⟨gs ++ ks, hgs.trans hks⟩
  · exact hx s _ u he

theorem announces_read {α : Type} (f : Session → Except Fault α) : Announces (Act.read f) := by
  intro s o t h
  rw [Act.finish_read] at h
  cases h
  exact ⟨[], announced_of_same rfl rfl rfl⟩

theorem announces_writing (f : Bindings → Except Fault Bindings) : Announces (writing f) := by
  intro s o t h
  rcases writing_cases f s with ⟨b, -, hrun⟩ | ⟨e, -, hrun⟩
  · rw [hrun] at h
    cases h
    exact ⟨[], announced_of_same rfl rfl rfl⟩
  · rw [hrun] at h
    cases h
    exact ⟨[], announced_of_same rfl rfl rfl⟩

theorem congruence_announces : Congruence (First Announces) where
  bind := Announces.bind
  read _ := announces_read _
  writeAt i name value := announces_writing _
  setUnknown _ _ :=
    setUnknown_of_parts (R := First Announces) Announces.bind (fun _ => announces_read _)
      (announces_writing _)
  note {e} he := fun s o t h => by
    cases h
    have hsilent : ∀ e' ∈ [e], e'.Silent := fun e' he' => List.mem_singleton.mp he' ▸ he
    exact ⟨[], announced_of_silent hsilent rfl rfl rfl⟩
  pause := fun s o t h => by
    cases h
    exact ⟨[], announced_of_same rfl rfl rfl⟩
  keep v := fun s o t h => by
    obtain ⟨v', n, hkeep⟩ := exists_keep v s
    rw [hkeep] at h
    cases h
    exact ⟨[], announced_of_same rfl rfl rfl⟩

/-! ## Announcements -/

/-- An announcement is one publication, by what the listeners do. -/
theorem hears_of_announce {g : Signal} {s t : Session} {o : Except Fault Unit}
    (h : (announce g s).finish = some (o, t)) :
    (∃ es, s.Hears [announcing g] es t) ∧ t.reactions = s.reactions := by
  unfold announce at h
  split at h
  · next r x hx =>
    cases h
    refine ⟨⟨x.history, fun past hs => ?_, ?_⟩, rfl⟩
    · obtain ⟨-, hpublishes⟩ :=
        Bus.publishes_of_publish (fun _ => s.react) past 1 g [] { bus := s.bus } r x hx
      have hword : Bus.signal? g.word = .ok g := by
        rw [Bus.signal?, Signal.ofWord?_word]
      obtain ⟨hsound, es, hes, hstory⟩ := (hpublishes.enacts hword rfl) fun k => by
        rw [List.append_nil]
        exact hs k
      have hes' : es = x.history := hes.symm
      rw [List.append_nil, hes'] at hstory
      exact ⟨hstory, hsound⟩
    · show (s.trace ++ x.history.flatMap (heard s.running)).filterMap Entry.heard? = _
      rw [List.filterMap_append, filterMap_heard]
  · cases h

/-- Moving the running signal announces what `told` says. -/
theorem announces_setRunning (value : Bool) : Announces (setRunning value) := by
  intro s o t h
  refine ⟨told s.running value, ?_⟩
  have hsignals : ∃ es, t.trace = s.trace ++ es ∧ signals es = told s.running value := by
    rcases setRunning_cases value s with hout | ⟨bus, es, hrun, hes, -⟩
    · rw [hout] at h
      cases h
    · rw [hrun] at h
      cases h
      exact ⟨es, rfl, hes⟩
  by_cases hv : s.running = value
  · rw [setRunning_of_eq hv] at h
    cases h
    rw [told, if_pos hv]
    exact announced_of_same rfl rfl rfl
  · rw [setRunning_of_ne hv] at h
    obtain ⟨⟨es, hes⟩, hreactions⟩ := hears_of_announce h
    refine ⟨⟨es, ?_⟩, hreactions, hsignals⟩
    rw [told, if_neg hv]
    exact ⟨hes.story, hes.trace⟩

theorem announces_guarded {α : Type} {x : Play α} (hx : Announces x) : Announces (guarded x) := by
  intro s o t h
  rw [finish_guarded, Option.map_eq_some_iff] at h
  obtain ⟨⟨o', u⟩, hu, he⟩ := h
  cases he
  obtain ⟨gs, ⟨es, hes⟩, hreactions, hsignals⟩ := hx { s with pending := true } o' u hu
  exact ⟨gs, ⟨es, hes.story, hes.trace⟩, hreactions, hsignals⟩

/-- A request uses the bus to announce signals and for nothing else. -/
theorem announces_next (fuel nesting : Nat) (document : Option Resource) (key : String) :
    Announces (next fuel nesting document key) := by
  induction nesting generalizing document key with
  | zero => exact (announces_read _).bind fun _ _ _ _ h => by cases h
  | succ nesting ih =>
    have hask (d : Option Resource) (key : String) :
        Announces (Act.attempt (answer fuel nesting d key)) := by
      intro s o t h
      obtain ⟨r, -, hr⟩ := Act.finish_attempt_eq_some h
      exact ((ih d key).bind fun l => announces_read fun _ => .ok _) s r t hr
    have hscript : Scripted (First Announces) (answer fuel nesting) (answer fuel nesting) :=
      congruence_announces.scripted (congruence_announces.invoke hask)
    exact (announces_read _).bind fun r => announces_guarded
      (hscript.walk announces_setRunning (fun _ _ _ h => by cases h) r fuel key)

/-- The signals a request announces are those that tell how it ended. -/
theorem hears_of_next {fuel nesting : Nat} {document : Option Resource} {key : String}
    {s t : Session} {o : Except Fault (Option Line)}
    (h : (next fuel nesting document key s).finish = some (o, t)) :
    ∃ es, s.Hears ((heralds s.running o).map announcing) es t := by
  obtain ⟨gs, hears, -, es, ht, rfl⟩ := announces_next fuel nesting document key s o t h
  obtain ⟨fs, ht', hfs, -⟩ := closes_of_finish h
  have hes : es = fs := List.append_cancel_left (ht.symm.trans ht')
  rwa [hes, hfs] at hears

/-! ## Whole sessions -/

/-- What a host does with those who listen to a session, and the requests that make the
session announce its signals. -/
inductive Errand where
  | add (word id : String) (r : Reaction Hearer)
  | remove (word id : String)
  | subscribe (word id : String)
  | unsubscribe (word id : String)
  | next (document : Option Resource) (key : String)

namespace Errand

def run (fuel nesting : Nat) : Errand → Play (Option Line)
  | add word id r => do
    addListener word id r
    pure none
  | remove word id => do
    removeListener word id
    pure none
  | subscribe word id => do
    Play.subscribe word id
    pure none
  | unsubscribe word id => do
    onBus word fun g => Bus.unsubscribe g (.handler id)
    pure none
  | next document key => Play.next fuel nesting document key

/-- The uses of the bus that an errand makes: it registers or removes one hearer, or it
announces the signals of a request, by where the running signal stood and how it ended. -/
def uses (running : Bool) (o : Except Fault (Option Line)) : Errand → List (Deed Hearer)
  | add word id _ => [.subscribe word (.listener id)]
  | remove word id => [.unsubscribe word (.listener id)]
  | subscribe word id => [.subscribe word (.handler id)]
  | unsubscribe word id => [.unsubscribe word (.handler id)]
  | next _ _ => (heralds running o).map announcing

/-- Errands run one after another, after a past: what each makes happen on the bus is the
story of its uses. -/
inductive Tale (fuel nesting : Nat) :
    Session → List (Happening Hearer) → List Errand → List (Happening Hearer) → Session → Prop
  | nil {s : Session} {past : List (Happening Hearer)} : Tale fuel nesting s past [] [] s
  | cons {e : Errand} {errands : List Errand} {s t u : Session}
    {past es fs : List (Happening Hearer)} {o : Except Fault (Option Line)} :
    (e.run fuel nesting s).finish = some (o, t) →
      Story (fun _ => t.react) past (.uses (e.uses s.running o)) es →
      Tale fuel nesting t (past ++ es) errands fs u →
        Tale fuel nesting s past (e :: errands) (es ++ fs) u

variable {fuel nesting : Nat}

theorem Tale.served {s t : Session} {past es : List (Happening Hearer)} {errands : List Errand}
    (h : Tale fuel nesting s past errands es t) : Served past es := by
  induction h with
  | nil => exact Bus.served_of_not_opened (by simp)
  | cons _ hstory _ ih => exact hstory.served.1.append ih

/-- A registration is one use of the bus. -/
theorem hears_onBus {word : String} {d : Deed Hearer} {e : Signal → Happening Hearer}
    {f : Signal → Bus Hearer → Bus Hearer}
    (hd : Bus.verdict d = (Bus.signal? word).map fun _ => ())
    (hf : ∀ k b g, (f k b).handlers g = (e k).settle g (b.handlers g))
    (hstory : ∀ k, Bus.signal? word = .ok k → ∀ (react : Conduct Hearer) past,
      Story react past (.uses [d]) [e k])
    (hquiet : ∀ k, (e k).heard? = none) {s t : Session} {o : Except Fault (Option Line)}
    (h : ((do onBus word f; pure none : Play (Option Line)) s).finish = some (o, t)) :
    ∃ es, s.Hears [d] es t := by
  unfold onBus at h
  cases hg : Bus.signal? word with
  | error fault =>
    rw [hg] at h hd
    cases h
    exact ⟨[], fun past hs => ⟨.refused hd .rest, fun g => by rw [hs, List.append_nil]⟩,
      (List.append_nil _).symm⟩
  | ok g =>
    rw [hg] at h
    cases h
    refine ⟨[e g], fun past hs => ⟨hstory g hg _ _, fun k => ?_⟩, ?_⟩
    · rw [Bus.standing_concat, ← hs k]
      exact hf g s.bus k
    · rw [List.filterMap_cons_none (hquiet g)]
      exact (List.append_nil _).symm

theorem hears_subscribe {word : String} {k : Hearer} {s t : Session}
    {o : Except Fault (Option Line)}
    (h : ((do onBus word fun g => Bus.subscribe g k; pure none : Play (Option Line)) s).finish =
      some (o, t)) : ∃ es, s.Hears [.subscribe word k] es t :=
  hears_onBus rfl (fun g b i => Bus.handlers_settle_subscribe b i g k)
    (fun _ hg _ _ => .subscribed hg .rest) (fun _ => rfl) h

theorem hears_unsubscribe {word : String} {k : Hearer} {s t : Session}
    {o : Except Fault (Option Line)}
    (h : ((do onBus word fun g => Bus.unsubscribe g k; pure none : Play (Option Line)) s).finish =
      some (o, t)) : ∃ es, s.Hears [.unsubscribe word k] es t :=
  hears_onBus rfl (fun g b i => Bus.handlers_settle_unsubscribe b i g k)
    (fun _ hg _ _ => .unsubscribed hg .rest) (fun _ => rfl) h

/-- What a listener does is no concern of the bus. -/
theorem hears_of_introduce {ds : List (Deed Hearer)} {es : List (Happening Hearer)}
    {id : String} {r : Reaction Hearer} {s t : Session} (h : (s.introduce id r).Hears ds es t) :
    s.Hears ds es t := by
  obtain ⟨reactions, hs⟩ := Session.exists_introduce id r s
  rw [hs] at h
  exact ⟨h.story, h.trace⟩

theorem hears_of_run {e : Errand} {s t : Session} {o : Except Fault (Option Line)}
    (h : (e.run fuel nesting s).finish = some (o, t)) :
    ∃ es, s.Hears (e.uses s.running o) es t := by
  cases e with
  | add word id r =>
    obtain ⟨es, hes⟩ := hears_subscribe (s := s.introduce id r) (o := o) h
    exact ⟨es, hears_of_introduce hes⟩
  | remove word id =>
    obtain ⟨es, hes⟩ := hears_unsubscribe (s := s.introduce id {}) (o := o) h
    exact ⟨es, hears_of_introduce hes⟩
  | subscribe word id => exact hears_subscribe h
  | unsubscribe word id => exact hears_unsubscribe h
  | next document key => exact hears_of_next h

/-- Errands that run to their end tell their tale, and the bus keeps to it. -/
theorem tale_of_finish {errands : List Errand} {s t : Session}
    {o : Except Fault (List (Except Fault (Option Line)))} {past : List (Happening Hearer)}
    (hs : ∀ g, s.bus.handlers g = standing g past)
    (h : (Act.attempts (errands.map (run fuel nesting)) s).finish = some (o, t)) :
    ∃ es, Tale fuel nesting s past errands es t ∧
      (∀ g, t.bus.handlers g = standing g (past ++ es)) ∧
      t.trace.filterMap Entry.heard? =
        s.trace.filterMap Entry.heard? ++ es.filterMap Happening.heard? := by
  induction errands generalizing s o past with
  | nil =>
    cases h
    refine ⟨[], .nil, fun g => ?_, (List.append_nil _).symm⟩
    rw [hs, List.append_nil]
  | cons e errands ih =>
    obtain ⟨r, u, o', hr, hrest, -⟩ := Act.finish_attempts_cons h
    obtain ⟨es, hes⟩ := hears_of_run hr
    obtain ⟨hstory, hu⟩ := hes.story past hs
    obtain ⟨fs, htale, ht, htrace⟩ := ih hu hrest
    refine ⟨es ++ fs, .cons hr hstory htale, fun g => ?_, ?_⟩
    · rw [ht, List.append_assoc]
    · rw [htrace, hes.trace, List.filterMap_append, List.append_assoc]

end Errand

end Play

def Hearer.isListener : Hearer → Bool
  | .listener _ => true
  | .handler _ => false

/-- Events are delivered over whole histories, whatever those who hear them do, on any bus
and on the one of a session, where listeners and handlers never take each other away. -/
structure DeliversFaithfully (fuel nesting depth : Nat) : Prop where
  /-- Uses of a new bus fail for what is wrong with them and nothing else, and what they
  leave is their story. -/
  bus {η : Type} [DecidableEq η] (conduct : Conduct η) (ds : List (Deed η))
    (o : Except Fault (List (Except Fault Unit))) (y : Exchange η) :
    (Bus.uses conduct depth ds {}).finish = some (o, y) →
      o = .ok (ds.map Bus.verdict) ∧ Story conduct [] (.uses ds) y.history ∧
        Bus.Delivered y.history y.bus
  /-- Uses that have a story come to their end, if they may nest deeply enough. -/
  ends {η : Type} [DecidableEq η] (conduct : Conduct η) (ds : List (Deed η))
    (es : List (Happening η)) : Story conduct [] (.uses ds) es →
      ∃ least, ∀ n, least ≤ n → ∃ y : Exchange η,
        (Bus.uses conduct n ds {}).finish = some (.ok (ds.map Bus.verdict), y) ∧ y.history = es
  /-- A publication, wherever it is made, calls those who stand registered at its opening,
  with what is published and in their order, and nobody else. -/
  publication {η : Type} [DecidableEq η] (conduct : Conduct η) (g : Signal) (data : Table)
    (x y : Exchange η) (o : Except Fault Unit) : (∀ k, x.bus.handlers k = standing k x.history) →
    (Bus.publish conduct depth g data x).finish = some (o, y) →
      (∀ k, y.bus.handlers k = standing k y.history) ∧
      ∃ es, y.history = x.history ++ (.opened g :: (es ++ [.closed g])) ∧
        Story conduct (x.history ++ [.opened g]) (.calls g data (standing g x.history)) es ∧
        ∀ rest, Bus.ownCalls 0 (es ++ .closed g :: rest) =
          (standing g x.history).map (·, g, data)
  /-- No fault of a handler leaves a publication, wherever it is made. -/
  contained {η : Type} [DecidableEq η] (conduct : Conduct η) (g : Signal) (data : Table)
    (x y : Exchange η) (o : Except Fault Unit) :
    (Bus.publish conduct depth g data x).finish = some (o, y) → o = .ok ()
  /-- Whatever a host does with a new session, each errand makes happen on its bus what the
  uses it makes of it tell, and the trace tells who heard what. -/
  session (errands : List Play.Errand) (o : Except Fault (List (Except Fault (Option Line))))
    (s t : Session) : s.bus = {} →
    (Act.attempts (errands.map (Play.Errand.run fuel nesting)) s).finish = some (o, t) →
      ∃ es, Play.Errand.Tale fuel nesting s [] errands es t ∧ Bus.Delivered es t.bus ∧
        t.trace.filterMap Entry.heard? =
          s.trace.filterMap Entry.heard? ++ es.filterMap Happening.heard?
  handlers_stay (b : Bus Hearer) (g k : Signal) (id : String) :
    ((b.unsubscribe g (.listener id)).handlers k).filter (!·.isListener) =
      (b.handlers k).filter (!·.isListener)
  listeners_stay (b : Bus Hearer) (g k : Signal) (id : String) :
    ((b.unsubscribe g (.handler id)).handlers k).filter (·.isListener) =
      (b.handlers k).filter (·.isListener)

theorem deliversFaithfully (fuel nesting depth : Nat) : DeliversFaithfully fuel nesting depth where
  bus conduct ds o y h := by
    obtain ⟨ho, hstory, hsound⟩ := Bus.story_of_uses h
    exact ⟨ho, hstory, hstory.served.1, hsound⟩
  ends _ _ _ h := Bus.exists_uses_of_story h
  publication conduct g data x y o hx h := by
    obtain ⟨-, hpublishes⟩ := Bus.publishes_of_publish conduct [] depth g data x o y h
    obtain ⟨hy, es, hes, hstory⟩ := hpublishes hx
    exact ⟨hy, es, hes, hstory, hstory.served.2.ownCalls_closed g⟩
  contained conduct g data x y o h := (Bus.publishes_of_publish conduct [] depth g data x o y h).1
  session errands o s t hs h := by
    have hnew (g : Signal) : s.bus.handlers g = standing g [] := by
      rw [hs]
      rfl
    obtain ⟨es, htale, hbus, htrace⟩ := Play.Errand.tale_of_finish hnew h
    exact ⟨es, htale, ⟨htale.served, hbus⟩, htrace⟩
  handlers_stay b g k id := Bus.filter_handlers_unsubscribe rfl b g k
  listeners_stay b g k id := Bus.filter_handlers_unsubscribe rfl b g k

/-- Handlers that use the bus when they are called: the first takes itself away, registers a
newcomer and publishes in turn, the next one fails. -/
def busy : Conduct String := fun _ h =>
  if h = "once" then
    { deeds := [.unsubscribe "started" "once", .subscribe "started" "late",
                .publish "finished" []] }
  else if h = "broken" then { fault := some (.wrongArguments "broken") }
  else {}

def busyUses : List (Deed String) :=
  [.subscribe "started" "once", .subscribe "started" "broken", .subscribe "finished" "other",
   .publish "started" [], .publish "started" []]

def Happening.callee? {η : Type} : Happening η → Option (η × Signal)
  | .called h g _ => some (h, g)
  | _ => none

theorem deliversFaithfully_busy : ∃ o y,
    (Bus.uses busy 2 busyUses {}).finish = some (o, y) ∧
      (o = .ok (busyUses.map Bus.verdict) ∧ Story busy [] (.uses busyUses) y.history ∧
        Bus.Delivered y.history y.bus) ∧
      y.history.filterMap Happening.callee? =
        [("once", .started), ("other", .finished), ("broken", .started),
         ("broken", .started), ("late", .started)] := by
  have hcalls : (Bus.uses busy 2 busyUses {}).finish.map
      (fun r => r.2.history.filterMap Happening.callee?) =
        some [("once", .started), ("other", .finished), ("broken", .started),
          ("broken", .started), ("late", .started)] := by
    decide +kernel
  obtain ⟨⟨o, y⟩, hrun, hcalls⟩ := Option.map_eq_some_iff.mp hcalls
  exact ⟨o, y, hrun, (deliversFaithfully 1 1 2).bus busy busyUses o y hrun, hcalls⟩

end Parley

import Parley.Bus

/-
What happens on a bus, told without the bus.

`standing` reads from a history who is registered.  A `Story` tells what uses of a bus make
happen after a given past: a publication calls those who stand registered at its opening, in
turn, and each of them makes its own uses, among which are publications within.  It asks the
past and what the handlers do, and no list of registrations that is changed on the way.

`ownCalls` reads whom an open publication calls itself, apart from the publications within
it.  In a story these are exactly those who stood registered when it opened (`Story.served`).
-/

namespace Parley

variable {η : Type}

/-! ## Who is registered -/

namespace Happening

variable [DecidableEq η]

/-- Whether an event takes the registrations of a handler for a signal away. -/
def removes (g : Signal) (h : η) : Happening η → Bool
  | .unsubscribed k h' => k == g && h' == h
  | _ => false

/-- The handlers of a signal after an event. -/
def settle (g : Signal) : Happening η → List η → List η
  | .subscribed k h, hs => if k = g then hs ++ [h] else hs
  | .unsubscribed k h, hs => if k = g then hs.filter (· != h) else hs
  | _, hs => hs

end Happening

namespace Bus

/-- The handlers of the registrations for a signal that nothing has removed since, in
the order in which they were made. -/
def standing [DecidableEq η] (g : Signal) : List (Happening η) → List η
  | [] => []
  | .subscribed k h :: es =>
    (if k = g ∧ es.any (·.removes g h) = false then [h] else []) ++ standing g es
  | _ :: es => standing g es

/-- One more event settles who stands registered. -/
theorem standing_concat [DecidableEq η] (g : Signal) (es : List (Happening η))
    (e : Happening η) : standing g (es ++ [e]) = e.settle g (standing g es) := by
  induction es with
  | nil => cases e <;> simp [standing, Happening.settle]
  | cons e' es ih =>
    cases e' with
    | subscribed k h =>
      simp only [List.cons_append, standing, ih, List.any_append, List.any_cons, List.any_nil,
        Bool.or_false, Bool.or_eq_false_iff]
      generalize es.any (·.removes g h) = gone
      cases e with
      | subscribed k' h' =>
        simp only [Happening.settle, Happening.removes, and_true]
        by_cases hk : k' = g
        · rw [if_pos hk, if_pos hk, List.append_assoc]
        · rw [if_neg hk, if_neg hk]
      | unsubscribed k' h' =>
        simp only [Happening.settle, Happening.removes]
        by_cases hk : k' = g
        · rw [if_pos hk, if_pos hk, List.filter_append]
          by_cases hh : h' = h
          · simp [hk, hh, apply_ite]
          · simp [hk, hh, Ne.symm hh, apply_ite]
        · simp [hk]
      | _ => simp only [Happening.settle, Happening.removes, and_true]
    | _ => exact ih

/-- What is wrong with a use in itself, if anything. -/
def verdict : Deed η → Except Fault Unit
  | .subscribe word _ => (signal? word).map fun _ => ()
  | .unsubscribe word _ => (signal? word).map fun _ => ()
  | .publish word data => do
    let _ ← signal? word
    checkData data

end Bus

/-! ## Stories -/

def Deed.isSound (d : Deed η) : Bool := (Bus.verdict d).isOk

namespace Reaction

/-- The uses a handler comes to make: one that is refused keeps it from the rest. -/
def made (r : Reaction η) : List (Deed η) := r.deeds.takeWhile Deed.isSound

/-- Whether a call of the handler ends with a fault, a refused use's or its own. -/
def fails (r : Reaction η) : Bool := !r.deeds.all Deed.isSound || r.fault.isSome

/-- What is heard of the fault of a call. -/
def echo (g : Signal) (r : Reaction η) : List (Happening η) := if r.fails then [.failed g] else []

end Reaction

/-- What is to happen on a bus: uses one after another, or the calls of an open
publication. -/
inductive Task (η : Type) where
  | uses (ds : List (Deed η))
  | calls (g : Signal) (data : Table) (hs : List η)

/-- The calls of a task that belong to the publication that is open. -/
def Task.own : Task η → List (η × Signal × Table)
  | .uses _ => []
  | .calls g data hs => hs.map (·, g, data)

namespace Bus

variable [DecidableEq η]

/-- What happens after a past when a task is done, by handlers of the given conduct. -/
inductive Story (conduct : Conduct η) :
    List (Happening η) → Task η → List (Happening η) → Prop
  | rest {past : List (Happening η)} : Story conduct past (.uses []) []
  /-- A use with something wrong in it makes nothing happen. -/
  | refused {past es : List (Happening η)} {d : Deed η} {ds : List (Deed η)} {f : Fault} :
    verdict d = .error f → Story conduct past (.uses ds) es →
      Story conduct past (.uses (d :: ds)) es
  | subscribed {past es : List (Happening η)} {word : String} {g : Signal} {h : η}
    {ds : List (Deed η)} : signal? word = .ok g →
      Story conduct (past ++ [.subscribed g h]) (.uses ds) es →
        Story conduct past (.uses (.subscribe word h :: ds)) (.subscribed g h :: es)
  | unsubscribed {past es : List (Happening η)} {word : String} {g : Signal} {h : η}
    {ds : List (Deed η)} : signal? word = .ok g →
      Story conduct (past ++ [.unsubscribed g h]) (.uses ds) es →
        Story conduct past (.uses (.unsubscribe word h :: ds)) (.unsubscribed g h :: es)
  /-- A publication calls those who stand registered when it opens. -/
  | published {past es fs : List (Happening η)} {word : String} {g : Signal} {data : Table}
    {ds : List (Deed η)} : signal? word = .ok g → checkData data = .ok () →
      Story conduct (past ++ [.opened g]) (.calls g data (standing g past)) es →
      Story conduct (past ++ (.opened g :: (es ++ [.closed g]))) (.uses ds) fs →
        Story conduct past (.uses (.publish word data :: ds))
          (.opened g :: (es ++ [.closed g]) ++ fs)
  | silence {past : List (Happening η)} {g : Signal} {data : Table} :
    Story conduct past (.calls g data []) []
  /-- A handler is called, makes its uses, and the next one has its turn. -/
  | called {past es fs : List (Happening η)} {g : Signal} {data : Table} {h : η} {hs : List η}
    {r : Reaction η} : conduct (past ++ [.called h g data]) h = r →
      Story conduct (past ++ [.called h g data]) (.uses r.made) es →
      Story conduct (past ++ (.called h g data :: (es ++ r.echo g))) (.calls g data hs) fs →
        Story conduct past (.calls g data (h :: hs))
          (.called h g data :: (es ++ r.echo g) ++ fs)

section

variable {conduct : Conduct η} {past es fs : List (Happening η)}

/-- Uses one after another. -/
theorem Story.append {ds ds' : List (Deed η)} (h : Story conduct past (.uses ds) es)
    (h' : Story conduct (past ++ es) (.uses ds') fs) :
    Story conduct past (.uses (ds ++ ds')) (es ++ fs) := by
  generalize ht : Task.uses ds = t at h
  induction h generalizing ds with
  | rest =>
    cases ht
    simpa using h'
  | refused hd _ ih =>
    cases ht
    exact .refused hd (ih h' rfl)
  | subscribed hg _ ih =>
    cases ht
    exact .subscribed hg (ih (by simpa using h') rfl)
  | unsubscribed hg _ ih =>
    cases ht
    exact .unsubscribed hg (ih (by simpa using h') rfl)
  | published hg hdata hcalls _ _ ih =>
    cases ht
    rw [List.append_assoc]
    exact .published hg hdata hcalls (ih (by simpa using h') rfl)
  | silence => cases ht
  | called => cases ht

/-! ## Whom a publication calls -/

omit [DecidableEq η] in
/-- The calls of a publication, read from what happened once it had opened, while so
many others are open within it. -/
def ownCalls : Nat → List (Happening η) → List (η × Signal × Table)
  | _, [] => []
  | depth, .opened _ :: es => ownCalls (depth + 1) es
  | 0, .closed _ :: _ => []
  | depth + 1, .closed _ :: es => ownCalls depth es
  | 0, .called h g data :: es => (h, g, data) :: ownCalls 0 es
  | depth, _ :: es => ownCalls depth es

omit [DecidableEq η] in
/-- Events among which an open publication makes the given calls itself, and no other
event ends a publication that it did not begin. -/
structure Owns (es : List (Happening η)) (own : List (η × Signal × Table)) : Prop where
  own (rest : List (Happening η)) : ownCalls 0 (es ++ rest) = own ++ ownCalls 0 rest
  nested (depth : Nat) (rest : List (Happening η)) :
    ownCalls (depth + 1) (es ++ rest) = ownCalls (depth + 1) rest

/-- Among these events, after the ones before, each publication calls exactly those who
stood registered when it opened, whatever follows. -/
def Served (before es : List (Happening η)) : Prop :=
  ∀ es₁ g es₂, es = es₁ ++ .opened g :: es₂ → ∃ data, ∀ rest,
    ownCalls 0 (es₂ ++ rest) = (standing g (before ++ es₁)).map (·, g, data)

omit [DecidableEq η] in
theorem owns_nil : Owns ([] : List (Happening η)) [] := ⟨fun _ => rfl, fun _ _ => rfl⟩

omit [DecidableEq η] in
theorem Owns.append {own own' : List (η × Signal × Table)} (h : Owns es own)
    (h' : Owns fs own') : Owns (es ++ fs) (own ++ own') where
  own rest := by rw [List.append_assoc, h.own, h'.own, List.append_assoc]
  nested depth rest := by rw [List.append_assoc, h.nested, h'.nested]

omit [DecidableEq η] in
/-- A publication within another makes no call of that one. -/
theorem Owns.publication {own : List (η × Signal × Table)} (h : Owns es own) (g : Signal) :
    Owns (.opened g :: (es ++ [.closed g])) [] where
  own rest := by
    simp only [List.cons_append, List.append_assoc, List.nil_append, ownCalls]
    rw [h.nested, ownCalls]
  nested depth rest := by
    simp only [List.cons_append, List.append_assoc, List.nil_append, ownCalls]
    rw [h.nested, ownCalls]

omit [DecidableEq η] in
/-- The own calls of a publication end where it closes. -/
theorem Owns.ownCalls_closed {own : List (η × Signal × Table)} (h : Owns es own) (g : Signal)
    (rest : List (Happening η)) : ownCalls 0 (es ++ .closed g :: rest) = own := by
  rw [h.own]
  exact List.append_nil own

theorem served_of_not_opened (h : ∀ g, .opened g ∉ es) : Served past es := by
  rintro es₁ g es₂ rfl
  exact absurd (by simp) (h g)

theorem Served.append (h : Served past es) (h' : Served (past ++ es) fs) :
    Served past (es ++ fs) := by
  intro es₁ g es₂ heq
  rcases List.append_eq_append_iff.mp heq with ⟨ms, rfl, hfs⟩ | ⟨ms, rfl, hms⟩
  · obtain ⟨data, hdata⟩ := h' ms g es₂ hfs
    exact ⟨data, fun rest => by rw [hdata, List.append_assoc]⟩
  · cases ms with
    | nil =>
      obtain ⟨data, hdata⟩ := h' [] g es₂ hms.symm
      exact ⟨data, fun rest => by rw [hdata]; simp⟩
    | cons m ms =>
      rw [List.cons_append] at hms
      obtain ⟨rfl, rfl⟩ := List.cons.inj hms
      obtain ⟨data, hdata⟩ := h es₁ g ms rfl
      exact ⟨data, fun rest => by rw [List.append_assoc, hdata]⟩

/-- A publication that calls those who stand registered is served. -/
theorem Served.publication {g : Signal} {data : Table} (h : Served (past ++ [.opened g]) es)
    (hown : Owns es ((standing g past).map (·, g, data))) :
    Served past (.opened g :: (es ++ [.closed g])) := by
  have hrest : Served (past ++ [.opened g]) (es ++ [.closed g]) :=
    h.append (served_of_not_opened fun k hk => by simp at hk)
  intro es₁ k es₂ heq
  cases es₁ with
  | nil =>
    obtain ⟨hg, rfl⟩ := List.cons.inj heq
    cases hg
    refine ⟨data, fun rest => ?_⟩
    rw [List.append_assoc, List.append_nil]
    exact hown.ownCalls_closed g rest
  | cons e es₁ =>
    rw [List.cons_append] at heq
    obtain ⟨rfl, hes⟩ := List.cons.inj heq
    obtain ⟨data, hdata⟩ := hrest es₁ k es₂ hes
    exact ⟨data, fun rest => by rw [hdata]; simp⟩

omit [DecidableEq η] in
theorem owns_singleton {e : Happening η} {own : List (η × Signal × Table)}
    (h : ∀ rest, ownCalls 0 (e :: rest) = own ++ ownCalls 0 rest)
    (h' : ∀ depth rest, ownCalls (depth + 1) (e :: rest) = ownCalls (depth + 1) rest) :
    Owns [e] own := ⟨h, h'⟩

/-- An event that opens nothing, and what is served after it. -/
theorem served_cons {e : Happening η} (he : ∀ g, e ≠ .opened g)
    (h : Served (past ++ [e]) es) : Served past (e :: es) := by
  have hfirst : Served past [e] :=
    served_of_not_opened fun g hg => he g (List.mem_singleton.mp hg).symm
  exact hfirst.append h

theorem served_echo (past : List (Happening η)) (g : Signal) (r : Reaction η) :
    Served past (r.echo g) := by
  refine served_of_not_opened fun k hk => ?_
  unfold Reaction.echo at hk
  split at hk <;> simp at hk

omit [DecidableEq η] in
theorem owns_echo (g : Signal) (r : Reaction η) : Owns (r.echo g) [] := by
  unfold Reaction.echo
  split
  · exact owns_singleton (fun _ => rfl) fun _ _ => rfl
  · exact owns_nil

/-- In a story every publication is served, and the open one makes the calls of the task
and no others. -/
theorem Story.served {t : Task η} (h : Story conduct past t es) :
    Served past es ∧ Owns es t.own := by
  induction h with
  | rest => exact ⟨served_of_not_opened (by simp), owns_nil⟩
  | refused _ _ ih => exact ih
  | @subscribed _ _ _ g h _ _ _ ih =>
    have hown : Owns [Happening.subscribed g h] [] :=
      owns_singleton (fun _ => rfl) fun _ _ => rfl
    exact ⟨served_cons (by simp) ih.1, hown.append ih.2⟩
  | @unsubscribed _ _ _ g h _ _ _ ih =>
    have hown : Owns [Happening.unsubscribed g h] [] :=
      owns_singleton (fun _ => rfl) fun _ _ => rfl
    exact ⟨served_cons (by simp) ih.1, hown.append ih.2⟩
  | published _ _ _ _ hcalls hrest =>
    exact ⟨(hcalls.1.publication hcalls.2).append hrest.1, (hcalls.2.publication _).append hrest.2⟩
  | silence => exact ⟨served_of_not_opened (by simp), owns_nil⟩
  | @called _ _ _ g data h _ r _ _ _ huses hrest =>
    have hown : Owns [Happening.called h g data] [(h, g, data)] :=
      owns_singleton (fun _ => rfl) fun _ _ => rfl
    exact ⟨(served_cons (by simp) (huses.1.append (served_echo _ g r))).append hrest.1,
      (hown.append (huses.2.append (owns_echo g r))).append hrest.2⟩

end

end Bus
end Parley

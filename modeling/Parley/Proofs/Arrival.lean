import Parley.Proofs.Change

/-
What reaches the host.

A request that gives a line has come to a node of the document by steps of the walk, and
the line presents that node (`presents_of_next`): it shows a dialogue or a set of
responses and never a change, a condition or a jump; its responses are those of the
listing whose conditions held, one after another, as the line was built; and a dialogue
with a single response leads where that response does.

Conditions call host methods, which may change the state and may pause.  So a listing is
sifted through the states in between, and whatever else happens in a pause is left open.
-/

namespace Parley

/-- The keys a node's line takes its responses from: those the node lists itself, or
those listed by the response node it leads to. -/
def Resource.listing (r : Resource) (n : Node) : List String :=
  if n.kind = .response then n.responses
  else match r.node? n.nextId with
    | some q => if q.kind = .response then q.responses else []
    | none => []

theorem Resource.listing_of_response {n : Node} (h : n.kind = .response) (r : Resource) :
    r.listing n = n.responses := if_pos h

theorem Resource.listing_of_not_response {n : Node} (h : n.kind ≠ .response) (r : Resource) :
    r.listing n = match r.node? n.nextId with
      | some q => if q.kind = .response then q.responses else []
      | none => [] := if_neg h

theorem Line.kind_ofNode (n : Node) : (Line.ofNode n).kind = n.kind := by
  unfold Line.ofNode
  split <;> rfl

namespace Play

variable {ask : Ask} {r : Resource} {n : Node} {l : Line} {key : String} {s t : Session}

/-- A listing, key by key: what it gives and the state it leaves.  A key without a node is
logged and passed over, and the condition of a node is checked in the state that the keys
before it left. -/
inductive Sifted (ask : Ask) (r : Resource) :
    List String → Session → List Response → Session → Prop
  | nil (s : Session) : Sifted ask r [] s [] s
  | absent {key : String} {keys : List String} {s t : Session} {rs : List Response} :
    r.node? key = none →
    Sifted ask r keys (s.record (.log .warning ("Response line not found: " ++ key))) rs t →
    Sifted ask r (key :: keys) s rs t
  | shown {key : String} {keys : List String} {n : Node} {s u t : Session}
    {rs : List Response} :
    r.node? key = some n → (check ask n.condition s).MayEnd (.ok true) u →
    Sifted ask r keys u rs t → Sifted ask r (key :: keys) s (.ofNode n :: rs) t
  | hidden {key : String} {keys : List String} {n : Node} {s u t : Session}
    {rs : List Response} :
    r.node? key = some n → (check ask n.condition s).MayEnd (.ok false) u →
    Sifted ask r keys u rs t → Sifted ask r (key :: keys) s rs t

/-- The response under a key, absent without a node or if its condition does not hold. -/
def candidate (ask : Ask) (r : Resource) (key : String) : Play (Option Response) :=
  match r.node? key with
  | none => do
    logMissing key
    pure none
  | some n => do
    if ← check ask n.condition then pure (some (Response.ofNode n)) else pure none

theorem responses_cons (ask : Ask) (r : Resource) (key : String) (keys : List String) :
    responses ask r (key :: keys) = (do
      let first ← candidate ask r key
      let rest ← responses ask r keys
      pure (first.toList ++ rest)) := rfl

theorem candidate_of_none (ask : Ask) (h : r.node? key = none) :
    candidate ask r key = (do logMissing key; pure none) := by
  rw [candidate, h]

theorem candidate_of_node (ask : Ask) (h : r.node? key = some n) :
    candidate ask r key = (do
      if ← check ask n.condition then pure (some (Response.ofNode n)) else pure none) := by
  rw [candidate, h]

/-- The responses under a listing are what is left of it. -/
theorem sifted_of_responses {keys : List String} {rs : List Response}
    (h : (responses ask r keys s).MayEnd (.ok rs) t) : Sifted ask r keys s rs t := by
  induction keys generalizing s rs with
  | nil =>
    obtain ⟨hrs, rfl⟩ := Act.mayEnd_pure.mp h
    cases hrs
    exact .nil t
  | cons key keys ih =>
    rw [responses_cons] at h
    obtain ⟨first, u, hfirst, h⟩ := Act.mayEnd_bind_ok.mp h
    obtain ⟨rest, v, hrest, h⟩ := Act.mayEnd_bind_ok.mp h
    obtain ⟨hrs, rfl⟩ := Act.mayEnd_pure.mp h
    cases hrs
    cases hnode : r.node? key with
    | none =>
      rw [candidate_of_none ask hnode] at hfirst
      cases hfirst
      exact .absent hnode (ih hrest)
    | some n =>
      rw [candidate_of_node ask hnode] at hfirst
      obtain ⟨holds, w, hcheck, hfirst⟩ := Act.mayEnd_bind_ok.mp hfirst
      cases holds with
      | true =>
        cases hfirst
        exact .shown hnode hcheck (ih hrest)
      | false =>
        cases hfirst
        exact .hidden hnode hcheck (ih hrest)

/-- What the look-ahead from a node that is no response node finds. -/
theorem sifted_of_responsesUnder (hkind : n.kind ≠ .response) {found : Option (List Response)}
    (h : (responsesUnder ask r n.nextId s).MayEnd (.ok found) t) :
    Sifted ask r (r.listing n) s (found.getD []) t := by
  rw [Resource.listing_of_not_response hkind]
  unfold responsesUnder at h
  cases hnode : r.node? n.nextId with
  | none =>
    simp only [hnode] at h
    cases h
    exact .nil s
  | some q =>
    simp only [hnode] at h
    by_cases hq : q.kind = .response
    · simp only [hq, beq_self_eq_true, if_true] at h ⊢
      obtain ⟨rs, u, hrs, h⟩ := Act.mayEnd_bind_ok.mp h
      cases h
      exact sifted_of_responses hrs
    · simp only [beq_false_of_ne hq, if_neg hq] at h ⊢
      cases h
      exact .nil s

/-! ## The line of a node -/

/-- A line shows what a node has to show: the speaker and some text of a dialogue, or at
least one response. -/
def Shows (n : Node) (l : Line) : Prop :=
  (n.kind = .dialogue ∧ l.character = some n.character ∧ ∃ text ≠ "", l.dialogue = some text) ∨
    (n.kind = .response ∧ l.character = none ∧ l.dialogue = none ∧ l.responses ≠ [])

/-- A line presents a node, built from one state to another. -/
structure Presents (ask : Ask) (r : Resource) (n : Node) (l : Line) (s t : Session) :
    Prop where
  kind : l.kind = n.kind
  shows : Shows n l
  mutation : l.mutation = none
  /-- The text is made first, and then the listing is sifted. -/
  built : ∃ text u, (lineText ask n (.ofNode n) s).MayEnd (.ok text) u ∧
    l.dialogue = text.dialogue ∧ Sifted ask r (r.listing n) u l.responses t
  nextId_of_single : ∀ p, n.kind = .dialogue → l.responses = [p] → l.nextId = p.nextId
  nextId : (n.kind = .dialogue → ∀ p, l.responses ≠ [p]) → l.nextId = n.nextId

/-- Only the text of a line is changed by making it. -/
theorem exists_dialogue_of_lineText {base : Line}
    (h : (lineText ask n l s).MayEnd (.ok base) t) :
    ∃ text, base = { l with dialogue := text } := by
  unfold lineText at h
  split at h
  · obtain ⟨text, u, -, h⟩ := Act.mayEnd_bind_ok.mp h
    cases h
    exact ⟨some (String.ofList text), rfl⟩
  · cases h
    exact ⟨l.dialogue, rfl⟩

theorem presents_of_build_response (hkind : n.kind = .response)
    (h : (build ask r n s).MayEnd (.ok l) t) (hvalid : l.isValid = true) :
    Presents ask r n l s t := by
  have hbase : Line.ofNode n = { kind := .response, nextId := n.nextId } := by
    rw [Line.ofNode, hkind]
  rw [build_of_response ask r hkind] at h
  obtain ⟨rs, u, hrs, h⟩ := Act.mayEnd_bind_ok.mp h
  obtain ⟨hl, rfl⟩ := Act.mayEnd_pure.mp h
  cases hl
  have htext : lineText ask n (Line.ofNode n) = pure (Line.ofNode n) := by
    rw [lineText, hkind]
    rfl
  have hne : rs ≠ [] := by
    rintro rfl
    rw [hbase] at hvalid
    cases hvalid
  refine
    { kind := Line.kind_ofNode n
      shows := .inr ⟨hkind, by rw [hbase], by rw [hbase], hne⟩
      mutation := by rw [hbase]
      built := ⟨Line.ofNode n, s, by rw [htext]; exact .done _ _, rfl, ?_⟩
      nextId_of_single := fun p hd => absurd (hkind.symm.trans hd) (by decide)
      nextId := fun _ => nextId_ofNode n }
  rw [Resource.listing_of_response hkind]
  exact sifted_of_responses hrs

theorem nextId_attach (l : Line) (found : Option (List Response)) :
    (l.attach found).nextId = match found with
      | some [p] => p.nextId
      | _ => l.nextId := by
  match found with
  | none => rfl
  | some [] => rfl
  | some [_] => rfl
  | some (_ :: _ :: _) => rfl

/-- Attaching responses changes nothing but them and where the line leads. -/
theorem attach_eq {l : Line} (h : l.responses = []) (found : Option (List Response)) :
    l.attach found =
      { l with responses := found.getD [], nextId := (l.attach found).nextId } := by
  match found with
  | none => rw [Option.getD_none, ← h]; rfl
  | some [] => rfl
  | some [_] => rfl
  | some (_ :: _ :: _) => rfl

theorem presents_of_build_dialogue (hkind : n.kind = .dialogue)
    (h : (build ask r n s).MayEnd (.ok l) t) (hvalid : l.isValid = true) :
    Presents ask r n l s t := by
  have hresponse : n.kind ≠ .response := by rw [hkind]; decide
  rw [build_of_not_response ask r hresponse] at h
  obtain ⟨base, u, htext, h⟩ := Act.mayEnd_bind_ok.mp h
  obtain ⟨found, v, hfound, h⟩ := Act.mayEnd_bind_ok.mp h
  obtain ⟨hl, rfl⟩ := Act.mayEnd_pure.mp h
  obtain ⟨text, hbase⟩ := exists_dialogue_of_lineText htext
  have hnext : base.nextId = n.nextId := by rw [hbase]; exact nextId_ofNode n
  have hempty : base.responses = [] := by rw [hbase]; exact responses_ofNode n
  have hattach := attach_eq hempty found
  rw [nextId_attach, hnext] at hattach
  rw [hattach] at hl
  injection hl with hl
  have hof : Line.ofNode n =
      { kind := .dialogue, nextId := n.nextId, character := some n.character,
        dialogue := some n.text } := by
    rw [Line.ofNode, hkind]
  have hlkind : l.kind = n.kind := by rw [hl, hbase]; exact Line.kind_ofNode n
  have hfinal : l.responses = found.getD [] := by rw [hl]
  refine
    { kind := hlkind
      shows := .inl ⟨hkind, by rw [hl, hbase, hof], ?_⟩
      mutation := by rw [hl, hbase, hof]
      built := ⟨base, u, htext, by rw [hl], ?_⟩
      nextId_of_single := fun p _ hp => ?_
      nextId := fun hp => ?_ }
  · rw [Line.isValid, hlkind, hkind] at hvalid
    cases hd : l.dialogue with
    | none => simp [hd] at hvalid
    | some text => exact ⟨text, by simpa [hd] using hvalid, rfl⟩
  · rw [hfinal]
    exact sifted_of_responsesUnder hresponse (hnext ▸ hfound)
  · rcases found with _ | found
    · cases hfinal.symm.trans hp
    · obtain rfl : found = [p] := hfinal.symm.trans hp
      rw [hl]
  · rcases found with _ | _ | ⟨p, _ | ⟨q, rest⟩⟩
    · rw [hl]
    · rw [hl]
    · exact absurd hfinal (hp hkind p)
    · rw [hl]

theorem kind_of_build (h : (build ask r n s).MayEnd (.ok l) t) : l.kind = n.kind := by
  unfold build at h
  split at h
  · obtain ⟨rs, u, -, h⟩ := Act.mayEnd_bind_ok.mp h
    cases h
    exact Line.kind_ofNode n
  · obtain ⟨base, u, htext, h⟩ := Act.mayEnd_bind_ok.mp h
    obtain ⟨found, v, -, h⟩ := Act.mayEnd_bind_ok.mp h
    obtain ⟨hl, -⟩ := Act.mayEnd_pure.mp h
    obtain ⟨text, hbase⟩ := exists_dialogue_of_lineText htext
    have hempty : base.responses = [] := by rw [hbase]; exact responses_ofNode n
    rw [attach_eq hempty, hbase] at hl
    cases hl
    exact Line.kind_ofNode n

/-! ## The way to a line -/

/-- Where a walk comes to: step by step, each from the state that the one before it left. -/
inductive Comes (ask : Ask) (r : Resource) : String → Session → String → Session → Prop
  | here (key : String) (s : Session) : Comes ask r key s key s
  | on {key key' key'' : String} {s t u : Session} :
    (step ask r key s).MayEnd (.ok (.inl key')) t → Comes ask r key' t key'' u →
    Comes ask r key s key'' u

theorem ne_some_of_finishDialogue (h : (finishDialogue s).MayEnd (.ok (some l)) t) : False := by
  obtain ⟨_, u, -, h⟩ := Act.mayEnd_bind_ok.mp h
  obtain ⟨_, v, -, h⟩ := Act.mayEnd_bind_ok.mp h
  cases h

/-- A step that ends a walk with a line has been given that line to show. -/
theorem shown_of_proceed {o : Option Line}
    (h : (proceed ask o s).MayEnd (.ok (.inr (some l))) t) :
    o = some l ∧ l.isValid = true ∧ l.kind ≠ .mutation ∧
      (setRunning true s).MayEnd (.ok ()) t := by
  have hend (h : ((do return .inr (← finishDialogue) : Play (String ⊕ Option Line)) s).MayEnd
      (.ok (.inr (some l))) t) : False := by
    obtain ⟨o, u, hfinish, h⟩ := Act.mayEnd_bind_ok.mp h
    cases h
    exact ne_some_of_finishDialogue hfinish
  cases o with
  | none => exact (hend h).elim
  | some l' =>
    cases hvalid : l'.isValid with
    | false =>
      rw [proceed_of_invalid hvalid] at h
      exact (hend h).elim
    | true =>
      by_cases hk : l'.kind = .mutation
      · rw [proceed_of_change hvalid hk] at h
        obtain ⟨_, u, -, h⟩ := Act.mayEnd_bind_ok.mp h
        by_cases hkey : l'.nextId = ""
        · rw [hkey, goOn_empty] at h
          obtain ⟨o, v, hfinish, h⟩ := Act.mayEnd_bind_ok.mp h
          cases h
          exact (ne_some_of_finishDialogue hfinish).elim
        · rw [goOn_of_ne hkey] at h
          cases h
      · rw [proceed_of_shown hvalid hk] at h
        obtain ⟨_, u, hrun, h⟩ := Act.mayEnd_bind_ok.mp h
        cases h
        exact ⟨rfl, hvalid, hk, hrun⟩

theorem build_of_visit (h : (visit ask r key s).MayEnd (.ok (.inr (some l))) t) :
    ∃ n, r.node? (r.resolveKey key) = some n ∧ n.kind ≠ .condition ∧ n.kind ≠ .goto ∧
      (build ask r n s).MayEnd (.ok l) t := by
  cases hnode : r.node? (r.resolveKey key) with
  | none =>
    simp only [visit, hnode] at h
    cases h
  | some n =>
    cases hkind : n.kind with
    | condition =>
      simp only [visit, hnode, hkind] at h
      obtain ⟨holds, u, -, h⟩ := Act.mayEnd_bind_ok.mp h
      cases holds <;> cases h
    | goto =>
      simp only [visit, hnode, hkind] at h
      cases h
    | _ =>
      simp only [visit, hnode, hkind] at h
      obtain ⟨l', u, hbuild, h⟩ := Act.mayEnd_bind_ok.mp h
      cases h
      exact ⟨n, rfl, by rw [hkind]; decide, by rw [hkind]; decide, hbuild⟩

theorem presents_of_step (h : (step ask r key s).MayEnd (.ok (.inr (some l))) t) :
    ∃ n u, r.node? (r.resolveKey key) = some n ∧ Presents ask r n l s u ∧
      (setRunning true u).MayEnd (.ok ()) t := by
  obtain ⟨v, u, hvisit, h⟩ := Act.mayEnd_bind_ok.mp h
  cases v with
  | inl key' => cases h
  | inr o =>
    obtain ⟨rfl, hvalid, hchange, hrun⟩ := shown_of_proceed h
    obtain ⟨n, hnode, hcond, hgoto, hbuild⟩ := build_of_visit hvisit
    refine ⟨n, u, hnode, ?_, hrun⟩
    cases hkind : n.kind with
    | dialogue => exact presents_of_build_dialogue hkind hbuild hvalid
    | response => exact presents_of_build_response hkind hbuild hvalid
    | condition => exact absurd hkind hcond
    | goto => exact absurd hkind hgoto
    | mutation => exact absurd ((kind_of_build hbuild).trans hkind) hchange

theorem presents_of_walk {fuel : Nat} (h : (walk ask r fuel key s).MayEnd (.ok (some l)) t) :
    ∃ k n u v, Comes ask r key s k u ∧ r.node? (r.resolveKey k) = some n ∧
      Presents ask r n l u v ∧ (setRunning true v).MayEnd (.ok ()) t := by
  induction fuel generalizing key s with
  | zero => cases h
  | succ fuel ih =>
    rw [walk, Act.iterate_succ] at h
    obtain ⟨v, u, hstep, h⟩ := Act.mayEnd_bind_ok.mp h
    cases v with
    | inl key' =>
      obtain ⟨k, n, v, w, hcomes, hrest⟩ := ih h
      exact ⟨k, n, v, w, .on hstep hcomes, hrest⟩
    | inr o =>
      cases h
      obtain ⟨n, v, hnode, hpresents, hrun⟩ := presents_of_step hstep
      exact ⟨key, n, s, v, .here key s, hnode, hpresents, hrun⟩

theorem mayEnd_admitted {doc : Option Resource}
    (h : (admitted doc s).MayEnd (.ok r) t) : (doc <|> s.default) = some r ∧ t = s := by
  unfold admitted Act.read at h
  cases hdoc : (doc <|> s.default) with
  | none =>
    simp only [hdoc] at h
    cases h
  | some r' =>
    cases hp : s.pending with
    | true =>
      simp only [hdoc, hp, if_true] at h
      cases h
    | false =>
      simp only [hdoc, hp, Bool.false_eq_true, if_false] at h
      cases h
      exact ⟨rfl, rfl⟩

theorem mayEnd_of_guarded {α : Type} {x : Play α} {result : Except Fault α}
    (h : (guarded x s).MayEnd result t) :
    ∃ u, (x { s with pending := true }).MayEnd result u ∧ t = { u with pending := false } :=
  Progress.MayEnd.of_ensure (p := x { s with pending := true }) h

/-- A line that a request gives presents a node of the document, which the walk has come
to from the key.  All that happens after the line is built is that dialogue is taken to
be running, and that the guard is released. -/
theorem presents_of_next {fuel nesting : Nat} {doc : Option Resource}
    (h : (next fuel (nesting + 1) doc key s).MayEnd (.ok (some l)) t) :
    ∃ r k n u v w, (doc <|> s.default) = some r ∧
      Comes (answer fuel nesting) r key { s with pending := true } k u ∧
      r.node? (r.resolveKey k) = some n ∧ Presents (answer fuel nesting) r n l u v ∧
      (setRunning true v).MayEnd (.ok ()) w ∧ t = { w with pending := false } := by
  rw [next_succ, seek] at h
  obtain ⟨r, s', hadmitted, hguarded⟩ := Act.mayEnd_bind_ok.mp h
  obtain ⟨hdoc, rfl⟩ := mayEnd_admitted hadmitted
  obtain ⟨w, hwalk, rfl⟩ := mayEnd_of_guarded hguarded
  obtain ⟨k, n, u, v, hcomes, hnode, hpresents, hrun⟩ := presents_of_walk hwalk
  exact ⟨r, k, n, u, v, w, hdoc, hcomes, hnode, hpresents, hrun, rfl⟩

/-- A word whose listing names a key twice, a key without a node, and two nodes of which
one does not show. -/
def tavern : Resource :=
  { lines :=
      [("1", { kind := .dialogue, nextId := "2", character := "Ada", text := "Well met." }),
       ("2", { kind := .response, responses := ["3", "", "4", "5", "3"] }),
       ("3", { kind := .response, text := "Hi!", nextId := "6" }),
       ("5", { kind := .response, text := "You again?", nextId := "6",
               condition := some { lhs := .text "met" } })] }

theorem presents_of_next_tavern :
    ∃ l t, (next 2 1 (some tavern) "1" stranger).MayEnd (.ok (some l)) t ∧
      l.toShown =
        { nextId := "2", character := some "Ada", dialogue := some "Well met.",
          responses :=
            [{ prompt := "Hi!", nextId := "6" }, { prompt := "Hi!", nextId := "6" }] } ∧
      ∃ r k n u v w, (some tavern <|> stranger.default) = some r ∧
        Comes (answer 2 0) r "1" { stranger with pending := true } k u ∧
        r.node? (r.resolveKey k) = some n ∧ Presents (answer 2 0) r n l u v ∧
        (setRunning true v).MayEnd (.ok ()) w ∧ t = { w with pending := false } := by
  have hshown : shown? (next 2 1 (some tavern) "1" stranger).finish =
      some { nextId := "2", character := some "Ada", dialogue := some "Well met.",
             responses :=
               [{ prompt := "Hi!", nextId := "6" }, { prompt := "Hi!", nextId := "6" }] } := by
    decide +kernel
  obtain ⟨l, t, hfinish, hl⟩ := exists_of_shown? hshown
  have hend := Progress.mayEnd_of_finish hfinish
  exact ⟨l, t, hend, hl, presents_of_next hend⟩

end Play
end Parley

import Parley.Proofs.Change

/-
Titles as aliases.

A document whose nodes name their targets by titles should act as one that names them
by their keys.  A visit resolves a title wherever it goes on, but not where it looks
ahead: a line that leads to a response node has its responses only if it names that
node by its own key (`next_ne_of_asking`).  And a title may be empty, while a change
that leads to the empty key ends the dialogue.

Where neither shows, renaming targets renames the keys in what a request gives and
changes nothing else (`next_renamed`).  A change that leads to a title of the empty key
takes one visit more to end the dialogue than one that leads to the empty key, so a walk
of the renamed document stands between two walks of the other (`Between`).
-/

namespace Parley

def Node.renamed (f : String → String) (n : Node) : Node :=
  { n with nextId := f n.nextId, nextConditionalId := f n.nextConditionalId }

def Response.renamed (f : String → String) (p : Response) : Response :=
  { p with nextId := f p.nextId }

def Shown.renamed (f : String → String) (l : Shown) : Shown :=
  { l with nextId := f l.nextId, responses := l.responses.map (Response.renamed f) }

def Line.renamed (f : String → String) (l : Line) : Line :=
  { l with toShown := l.toShown.renamed f }

section

variable (f : String → String) (n : Node)

@[simp] theorem Node.kind_renamed : (n.renamed f).kind = n.kind := rfl

@[simp] theorem Node.condition_renamed : (n.renamed f).condition = n.condition := rfl

@[simp] theorem Node.responses_renamed : (n.renamed f).responses = n.responses := rfl

theorem Line.ofNode_renamed : Line.ofNode (n.renamed f) = (Line.ofNode n).renamed f := by
  cases hkind : n.kind <;>
    simp [Line.ofNode, Node.renamed, Line.renamed, Shown.renamed, hkind]

theorem Line.attach_renamed (l : Line) (rs : Option (List Response)) :
    (l.renamed f).attach (rs.map (List.map (Response.renamed f))) = (l.attach rs).renamed f := by
  match rs with
  | none => rfl
  | some [] => rfl
  | some [_] => rfl
  | some (_ :: _ :: _) => rfl

theorem Line.isValid_renamed (l : Line) : (l.renamed f).isValid = l.isValid := by
  cases hkind : l.kind <;> simp [Line.isValid, Line.renamed, Shown.renamed, hkind]

end

namespace Resource

/-- The document with the targets of its nodes renamed. -/
def renamed (f : String → String) (r : Resource) : Resource :=
  { r with lines := r.lines.map fun kn => (kn.1, kn.2.renamed f) }

/-- No title is the key of a node or what a title stands for. -/
structure Apart (r : Resource) : Prop where
  node : ∀ name target, r.titles.lookup name = some target → r.node? name = none
  target : ∀ name target, r.titles.lookup name = some target → r.titles.lookup target = none

/-- A renaming of titles, some or all, to what they stand for.  It brings no response node
into sight of a line or a change that leads there, and leaves the empty key alone in a
document with changes. -/
structure Renames (r : Resource) (f : String → String) : Prop where
  moves : ∀ key, f key = key ∨ f key = r.resolveKey key
  ahead : ∀ key n q, r.node? key = some n → n.kind = .dialogue ∨ n.kind = .mutation →
    f n.nextId ≠ n.nextId → r.node? (f n.nextId) = some q → q.kind ≠ .response
  onward : ∀ key n, r.node? key = some n → n.kind = .mutation → f "" = ""

variable {r : Resource} {f : String → String}

theorem resolveKey_renamed (f : String → String) (r : Resource) (key : String) :
    (r.renamed f).resolveKey key = r.resolveKey key := rfl

theorem node?_renamed (f : String → String) (r : Resource) (key : String) :
    (r.renamed f).node? key = (r.node? key).map (Node.renamed f) := by
  unfold node?
  split
  · rfl
  · exact lookup_map (Node.renamed f) r.lines key

theorem apart_of_forall_mem
    (h : ∀ p ∈ r.titles, (r.node? p.1).isNone ∧ r.titles.lookup p.2 = none) : r.Apart where
  node _ _ ht := Option.isNone_iff_eq_none.mp (h _ (mem_of_lookup ht)).1
  target _ _ ht := (h _ (mem_of_lookup ht)).2

/-- All titles can be renamed if the empty key is none and no line or change leads to a
title of a response node. -/
theorem renames_resolveKey
    (hahead : ∀ p ∈ r.lines, p.2.kind = .dialogue ∨ p.2.kind = .mutation →
      r.resolveKey p.2.nextId ≠ p.2.nextId →
        ∀ q ∈ r.node? (r.resolveKey p.2.nextId), q.kind ≠ .response)
    (hempty : r.titles.lookup "" = none) : r.Renames r.resolveKey where
  moves _ := .inr rfl
  ahead key n q hn hkind hmoved hq := hahead (key, n) (mem_lines_of_node hn) hkind hmoved q hq
  onward _ _ _ _ := resolveKey_of_not_title hempty

theorem Apart.resolveKey_resolveKey (h : r.Apart) (key : String) :
    r.resolveKey (r.resolveKey key) = r.resolveKey key := by
  cases ht : r.titles.lookup key with
  | none => rw [resolveKey_of_not_title ht, resolveKey_of_not_title ht]
  | some target =>
    have hkey : r.resolveKey key = target := by rw [resolveKey, ht, Option.getD_some]
    rw [hkey, resolveKey_of_not_title (h.target key target ht)]

theorem Renames.resolveKey_eq (hf : r.Renames f) (h : r.Apart) (key : String) :
    r.resolveKey (f key) = r.resolveKey key := by
  rcases hf.moves key with hsame | hmoved
  · rw [hsame]
  · rw [hmoved, h.resolveKey_resolveKey]

/-- Only titles are renamed, so a key that is renamed has no node. -/
theorem Renames.node?_eq_none (hf : r.Renames f) (h : r.Apart) {key : String}
    (hkey : f key ≠ key) : r.node? key = none := by
  cases ht : r.titles.lookup key with
  | none =>
    rcases hf.moves key with hsame | hmoved
    · exact absurd hsame hkey
    · exact absurd (hmoved.trans (resolveKey_of_not_title ht)) hkey
  | some target => exact h.node key target ht

end Resource

namespace Play

variable {r : Resource} {f : String → String}

/-! ## Visits -/

theorem gather_map {α β γ : Type} (g : β → γ) (h : α → Play (Option β)) (as : List α) :
    Act.gather (fun a => Option.map g <$> h a) as = List.map g <$> Act.gather h as := by
  induction as with
  | nil => rfl
  | cons a as ih =>
    simp only [Act.gather, ih, map_bind, bind_map_left, map_pure, List.map_append]
    refine congrArg (h a >>= ·) (funext fun b => ?_)
    cases b <;> rfl

theorem responses_renamed (ask : Ask) (r : Resource) (f : String → String) (keys : List String) :
    responses ask (r.renamed f) keys = List.map (Response.renamed f) <$> responses ask r keys := by
  unfold responses
  rw [← gather_map]
  refine congrArg (Act.gather · keys) (funext fun key => ?_)
  rw [Resource.node?_renamed]
  cases r.node? key with
  | none => simp
  | some n =>
    simp only [Option.map_some, Node.condition_renamed, map_bind]
    refine congrArg (check ask n.condition >>= ·) (funext fun holds => ?_)
    cases holds <;> rfl

theorem responsesUnder_renamed (ask : Ask) (r : Resource) (f : String → String) (key : String) :
    responsesUnder ask (r.renamed f) key =
      Option.map (List.map (Response.renamed f)) <$> responsesUnder ask r key := by
  unfold responsesUnder
  rw [Resource.node?_renamed]
  cases r.node? key with
  | none => rfl
  | some n =>
    simp only [Option.map_some, Node.kind_renamed, Node.responses_renamed, responses_renamed]
    split
    · simp
    · rfl

section

variable (hapart : r.Apart) (hf : r.Renames f) (ask : Ask)
include hapart hf

/-- A look ahead from a line or a change sees the same, whatever its target is called. -/
theorem lookAhead_renamed {key : String} {n : Node} (hn : r.node? key = some n)
    (hkind : n.kind = .dialogue ∨ n.kind = .mutation) :
    responsesUnder ask (r.renamed f) (f n.nextId) =
      Option.map (List.map (Response.renamed f)) <$> responsesUnder ask r n.nextId := by
  rw [responsesUnder_renamed]
  by_cases hmoved : f n.nextId = n.nextId
  · rw [hmoved]
  · have htitle : responsesUnder ask r n.nextId = pure none :=
      responsesUnder_of_not_response ask fun q hq => by
        rw [hf.node?_eq_none hapart hmoved] at hq
        cases hq
    have htarget : responsesUnder ask r (f n.nextId) = pure none :=
      responsesUnder_of_not_response ask fun q => hf.ahead key n q hn hkind hmoved
    rw [htitle, htarget]

theorem build_renamed {key : String} {n : Node} (hn : r.node? key = some n)
    (hkind : n.kind = .dialogue ∨ n.kind = .mutation ∨ n.kind = .response) :
    build ask (r.renamed f) (n.renamed f) = Line.renamed f <$> build ask r n := by
  unfold build
  rw [Line.ofNode_renamed, Node.kind_renamed, Node.responses_renamed, responses_renamed]
  split
  · simp [Line.renamed, Shown.renamed]
  · next hresponse =>
    have hahead : n.kind = .dialogue ∨ n.kind = .mutation := by
      have hne : n.kind ≠ .response := by simpa using hresponse
      rcases hkind with h | h | h
      · exact .inl h
      · exact .inr h
      · exact absurd h hne
    have hlook := lookAhead_renamed hapart hf ask hn hahead
    -- Neither branch of the text touches where the line leads.
    have hattach (l : Line) (hl : l.nextId = n.nextId) :
        (do
          let following ← responsesUnder ask (r.renamed f) (f l.nextId)
          pure ((l.renamed f).attach following)) =
        Line.renamed f <$> (do
          let following ← responsesUnder ask r l.nextId
          pure (l.attach following)) := by
      rw [hl, hlook]
      simp [Line.attach_renamed]
    unfold lineText
    show ((if n.kind == .dialogue && !n.replacements.isEmpty then _ else _) >>= _) = _ <$>
      ((if n.kind == .dialogue && !n.replacements.isEmpty then _ else _) >>= _)
    split
    · rw [bind_assoc, bind_assoc, map_bind]
      refine congrArg (interpolate ask n.replacements n.text.toList >>= ·) (funext fun text => ?_)
      rw [pure_bind, pure_bind]
      exact hattach { Line.ofNode n with dialogue := some (String.ofList text) } (nextId_ofNode n)
    · rw [pure_bind, pure_bind]
      exact hattach (Line.ofNode n) (nextId_ofNode n)

/-- Renaming targets renames what a visit gives, under whatever name the visit begins. -/
theorem visit_renamed {key key' : String} (hkey : r.resolveKey key' = r.resolveKey key) :
    visit ask (r.renamed f) key' =
      Sum.map f (Option.map (Line.renamed f)) <$> visit ask r key := by
  unfold visit
  rw [Resource.resolveKey_renamed, hkey, Resource.node?_renamed]
  cases hn : r.node? (r.resolveKey key) with
  | none => rfl
  | some n =>
    have hbuild (h : n.kind = .dialogue ∨ n.kind = .mutation ∨ n.kind = .response) :
        (do
          let l ← build ask (r.renamed f) (n.renamed f)
          pure (.inr (some l)) : Play (String ⊕ Option Line)) =
        Sum.map f (Option.map (Line.renamed f)) <$> (do
          let l ← build ask r n
          pure (.inr (some l))) := by
      rw [build_renamed hapart hf ask hn h]
      simp
    simp only [Option.map_some, Node.kind_renamed, Node.condition_renamed]
    cases hkind : n.kind with
    | condition =>
      simp only [map_bind]
      refine congrArg (check ask n.condition >>= ·) (funext fun holds => ?_)
      cases holds <;> rfl
    | goto => rfl
    | dialogue => exact hbuild (.inl hkind)
    | mutation => exact hbuild (.inr (.inl hkind))
    | response => exact hbuild (.inr (.inr hkind))

end

/-! ## Walks -/

/-- A run between two others: it ends as the first one does if that ends, and the last
one ends as it does. -/
structure Between {α : Type} (x y z : Play α) : Prop where
  lower : ∀ s o t, (x s).finish = some (o, t) → (y s).finish = some (o, t)
  upper : ∀ s o t, (y s).finish = some (o, t) → (z s).finish = some (o, t)

section

variable {α β : Type}

theorem Between.refl (x : Play α) : Between x x x := ⟨fun _ _ _ h => h, fun _ _ _ h => h⟩

theorem finish_bind_of_imp {P : α → Prop} {x : Play α} {f g : α → Play β} (hx : Gives P x)
    (hfg : ∀ a, P a → ∀ s o t, (f a s).finish = some (o, t) → (g a s).finish = some (o, t))
    {s t : Session} {o : Except Fault β} (h : ((x >>= f) s).finish = some (o, t)) :
    ((x >>= g) s).finish = some (o, t) := by
  rw [Act.finish_bind]
  rcases Act.finish_bind_eq_some h with ⟨a, u, hu, ht⟩ | ⟨e, he, rfl⟩
  · rw [hu]
    exact hfg a (hx s a u hu) u o t ht
  · rw [he]

/-- What goes on after the same run may use what that run gives. -/
theorem Between.bind_of {P : α → Prop} {x : Play α} {f g h : α → Play β} (hx : Gives P x)
    (hfgh : ∀ a, P a → Between (f a) (g a) (h a)) :
    Between (x >>= f) (x >>= g) (x >>= h) where
  lower _ _ _ := finish_bind_of_imp hx fun a ha => (hfgh a ha).lower
  upper _ _ _ := finish_bind_of_imp hx fun a ha => (hfgh a ha).upper

theorem Between.guarded {x y z : Play α} (h : Between x y z) :
    Between (guarded x) (guarded y) (guarded z) where
  lower s o t hx := by
    rw [finish_guarded, Option.map_eq_some_iff] at hx ⊢
    obtain ⟨⟨r, u⟩, hu, he⟩ := hx
    exact ⟨(r, u), h.lower _ r u hu, he⟩
  upper s o t hy := by
    rw [finish_guarded, Option.map_eq_some_iff] at hy ⊢
    obtain ⟨⟨r, u⟩, hu, he⟩ := hy
    exact ⟨(r, u), h.upper _ r u hu, he⟩

end

theorem map_finishDialogue (f : String → String) :
    Option.map (Line.renamed f) <$> finishDialogue = finishDialogue := by
  simp [finishDialogue]

section

variable (hf : r.Renames f) (ask : Ask)
include hf

/-- A walk from a title of the empty key ends at once. -/
theorem walk_of_renamed_empty {key : String} (hkey : key ≠ "") (hempty : f key = "")
    (fuel : Nat) : walk ask r (fuel + 1) key = finishDialogue := by
  have hresolve : r.resolveKey key = "" := by
    rcases hf.moves key with hsame | hmoved
    · exact absurd (hsame.symm.trans hempty) hkey
    · exact hmoved.symm.trans hempty
  rw [walk_succ, visit, hresolve, Resource.node?_empty]
  rfl

theorem between_resume {fuel : Nat} {key : String} (hempty : key = "" → f key = "")
    (hwalk : Between (Option.map (Line.renamed f) <$> walk ask r fuel key)
      (walk ask (r.renamed f) fuel (f key))
      (Option.map (Line.renamed f) <$> walk ask r (fuel + 1) key)) :
    Between (Option.map (Line.renamed f) <$> resume ask r fuel key)
      (resume ask (r.renamed f) fuel (f key))
      (Option.map (Line.renamed f) <$> resume ask r (fuel + 1) key) := by
  unfold resume
  by_cases hkey : key = ""
  · rw [if_pos hkey, if_pos hkey, if_pos (hempty hkey), map_finishDialogue]
    exact Between.refl _
  · rw [if_neg hkey, if_neg hkey]
    by_cases hkey' : f key = ""
    · rw [if_pos hkey', walk_of_renamed_empty hf ask hkey hkey', map_finishDialogue]
      cases fuel with
      | zero =>
        refine ⟨fun _ _ _ h => ?_, fun _ _ _ h => h⟩
        cases h
      | succ fuel =>
        rw [walk_of_renamed_empty hf ask hkey hkey', map_finishDialogue]
        exact Between.refl _
    · rw [if_neg hkey']
      exact hwalk

theorem between_arrive {fuel : Nat} {l : Option Line}
    (hempty : ∀ l' m, l = some l' → l'.mutation = some m → f "" = "")
    (hwalk : ∀ key, Between (Option.map (Line.renamed f) <$> walk ask r fuel key)
      (walk ask (r.renamed f) fuel (f key))
      (Option.map (Line.renamed f) <$> walk ask r (fuel + 1) key)) :
    Between (Option.map (Line.renamed f) <$> arrive ask r fuel l)
      (arrive ask (r.renamed f) fuel (l.map (Line.renamed f)))
      (Option.map (Line.renamed f) <$> arrive ask r (fuel + 1) l) := by
  cases l with
  | none =>
    show Between (_ <$> finishDialogue) finishDialogue (_ <$> finishDialogue)
    rw [map_finishDialogue]
    exact Between.refl _
  | some l =>
    rw [Option.map_some]
    have hvalid' := Line.isValid_renamed f l
    cases hvalid : l.isValid with
    | false =>
      rw [arrive_of_invalid _ _ _ hvalid, arrive_of_invalid _ _ _ hvalid,
        arrive_of_invalid _ _ _ (hvalid'.trans hvalid), map_finishDialogue]
      exact Between.refl _
    | true =>
      by_cases hkind : l.kind = .mutation
      · rw [arrive_of_change _ _ _ hvalid hkind, arrive_of_change _ _ _ hvalid hkind,
          arrive_of_change _ _ _ (hvalid'.trans hvalid) hkind, map_bind, map_bind]
        obtain ⟨m, hm⟩ := mutation_of_isValid hvalid hkind
        refine Between.bind_of (P := fun _ => True) (fun _ _ _ _ => trivial) fun _ _ =>
          between_resume hf ask (fun hnext => ?_) (hwalk l.nextId)
        rw [hnext, hempty l m rfl hm]
      · rw [arrive_of_shown _ _ _ hvalid hkind, arrive_of_shown _ _ _ hvalid hkind,
          arrive_of_shown _ _ _ (hvalid'.trans hvalid) hkind]
        simpa using Between.refl _

/-- The walk of the renamed document, from whatever name, ends as the walk of the other
does, up to the names of the keys that lead on. -/
theorem between_walk (hapart : r.Apart) (fuel : Nat) {key key' : String}
    (hkey : r.resolveKey key' = r.resolveKey key) :
    Between (Option.map (Line.renamed f) <$> walk ask r fuel key)
      (walk ask (r.renamed f) fuel key')
      (Option.map (Line.renamed f) <$> walk ask r (fuel + 1) key) := by
  induction fuel generalizing key key' with
  | zero =>
    refine ⟨fun _ _ _ h => ?_, fun _ _ _ h => ?_⟩
    · cases h
    · cases h
  | succ fuel ih =>
    have hwalk (key : String) := ih (hf.resolveKey_eq hapart key)
    rw [walk_succ, walk_succ, walk_succ, visit_renamed hapart hf ask hkey, map_bind, map_bind,
      bind_map_left]
    refine Between.bind_of (gives_visit ask r key) fun v hv => ?_
    cases v with
    | inl next => exact hwalk next
    | inr l =>
      refine between_arrive hf ask (fun l' m hl hm => ?_) hwalk
      obtain ⟨n, hn, hline⟩ := hv l' (congrArg Sum.inr hl)
      exact hf.onward _ n hn (mutation_ofNode (hline.symm.trans hm)).1

end

/-! ## Requests -/

/-- How a request ended, with the keys that lead on renamed. -/
def outcomeRenamed (f : String → String) (o : Except Fault (Option Line)) :
    Except Fault (Option Line) :=
  o.map (Option.map (Line.renamed f))

theorem finish_guarded_renamed (f : String → String) (x : Play (Option Line)) (s : Session) :
    (guarded (Option.map (Line.renamed f) <$> x) s).finish =
      (guarded x s).finish.map fun r => (outcomeRenamed f r.1, r.2) := by
  have hmap (s : Session) : ((Option.map (Line.renamed f) <$> x) s).finish =
      (x s).finish.map fun r => (outcomeRenamed f r.1, r.2) := by
    rw [← bind_pure_comp, Act.finish_bind]
    cases (x s).finish with
    | none => rfl
    | some r =>
      obtain ⟨_ | _, _⟩ := r <;> rfl
  rw [finish_guarded, finish_guarded, hmap, Option.map_map, Option.map_map]
  rfl

/-- Titles are aliases.  A request on a document with targets renamed, from the same
entry under whatever name, ends as the request on the other document does: with the same
fault, with nothing, or with the same line up to the names of the keys that lead on, and
in the same session.  Each of the two ends if the other does. -/
theorem next_renamed (hapart : r.Apart) (hf : r.Renames f) {doc doc' : Option Resource}
    {key key' : String} {s : Session} (hdoc : (doc <|> s.default) = some r)
    (hdoc' : (doc' <|> s.default) = some (r.renamed f))
    (hkey : r.resolveKey key' = r.resolveKey key) (fuel nesting : Nat) :
    (∀ o t, (next fuel (nesting + 1) doc key s).finish = some (o, t) →
      (next fuel (nesting + 1) doc' key' s).finish = some (outcomeRenamed f o, t)) ∧
    ∀ o' t, (next fuel (nesting + 1) doc' key' s).finish = some (o', t) →
      ∃ o, (next (fuel + 1) (nesting + 1) doc key s).finish = some (o, t) ∧
        o' = outcomeRenamed f o := by
  cases hs : s.pending with
  | true =>
    have hrefusal : refusal doc' s = refusal doc s := by simp only [refusal, hdoc, hdoc']
    simp only [next_of_pending hs, hrefusal]
    refine ⟨fun o t h => ?_, fun o' t h => ?_⟩
    · cases h
      rfl
    · cases h
      exact ⟨_, rfl, rfl⟩
  | false =>
    have hbetween := (between_walk hf refused hapart fuel hkey).guarded
    simp only [finish_next_of_free hs hdoc, finish_next_of_free hs hdoc']
    refine ⟨fun o t h => hbetween.lower s _ t ?_, fun o' t h => ?_⟩
    · rw [finish_guarded_renamed, h]
      rfl
    · have hupper := hbetween.upper s o' t h
      rw [finish_guarded_renamed, Option.map_eq_some_iff] at hupper
      obtain ⟨⟨o, u⟩, hu, he⟩ := hupper
      cases he
      exact ⟨o, hu, rfl⟩

theorem shown?_renamed (f : String → String)
    (o : Option (Except Fault (Option Line) × Session)) :
    shown? (o.map fun r => (outcomeRenamed f r.1, r.2)) = (shown? o).map (Shown.renamed f) := by
  obtain _ | ⟨_ | _ | _, _⟩ := o <;> rfl

/-- A meeting that leads back to where it began, by titles all the way. -/
def tour : Resource :=
  { titles := [("start", "1"), ("hall", "2"), ("hello", "3")],
    lines :=
      [("1", { kind := .goto, nextId := "hall" }),
       ("2", { kind := .mutation, nextId := "hello", mutation := some meeting }),
       ("3", { kind := .dialogue, text := "Nice to meet you.", nextId := "4" }),
       ("4", { kind := .response, responses := ["5"] }),
       ("5", { kind := .response, text := "And again?", nextId := "hall" })] }

theorem next_renamed_tour :
    tour.Apart ∧ tour.Renames tour.resolveKey ∧
      shown? (next 4 1 (some tour) "start" stranger).finish =
        some { dialogue := some "Nice to meet you.", character := some "", nextId := "hall",
               responses := [{ prompt := "And again?", nextId := "hall" }] } ∧
      shown? (next 4 1 (some (tour.renamed tour.resolveKey)) "1" stranger).finish =
        some { dialogue := some "Nice to meet you.", character := some "", nextId := "2",
               responses := [{ prompt := "And again?", nextId := "2" }] } := by
  have hapart : tour.Apart := Resource.apart_of_forall_mem (by decide)
  have hrenames : tour.Renames tour.resolveKey :=
    Resource.renames_resolveKey (by decide) (by decide)
  have hshown : shown? (next 4 1 (some tour) "start" stranger).finish =
      some { dialogue := some "Nice to meet you.", character := some "", nextId := "hall",
             responses := [{ prompt := "And again?", nextId := "hall" }] } := by
    decide +kernel
  obtain ⟨l, t, hend, hl⟩ := exists_of_shown? hshown
  have hentry : tour.resolveKey "1" = tour.resolveKey "start" := by decide
  have hend' : (next 4 1 (some (tour.renamed tour.resolveKey)) "1" stranger).finish =
      some (.ok (some (l.renamed tour.resolveKey)), t) :=
    (next_renamed hapart hrenames rfl rfl hentry 4 0).1 _ t hend
  refine ⟨hapart, hrenames, hshown, ?_⟩
  rw [hend']
  show some (l.toShown.renamed tour.resolveKey) = _
  rw [hl]
  decide

/-- A question that names its answers by a title. -/
def asking : Resource :=
  { titles := [("answers", "2")],
    lines :=
      [("1", { kind := .dialogue, text := "Well?", nextId := "answers" }),
       ("2", { kind := .response, responses := ["3", "4"] }),
       ("3", { kind := .response, text := "Yes.", nextId := "5" }),
       ("4", { kind := .response, text := "No.", nextId := "5" }),
       ("5", { kind := .dialogue, text := "I see." })] }

/-- A line has the responses that follow it under their key, but not under a title. -/
theorem next_ne_of_asking :
    asking.Apart ∧
      shown? (next 4 1 (some asking) "1" {}).finish =
        some { dialogue := some "Well?", character := some "", nextId := "answers" } ∧
      shown? (next 4 1 (some (asking.renamed asking.resolveKey)) "1" {}).finish =
        some { dialogue := some "Well?", character := some "", nextId := "2",
               responses := [{ prompt := "Yes.", nextId := "5" },
                 { prompt := "No.", nextId := "5" }] } ∧
      (next 4 1 (some (asking.renamed asking.resolveKey)) "1" {}).finish ≠
        (next 4 1 (some asking) "1" {}).finish.map fun r =>
          (outcomeRenamed asking.resolveKey r.1, r.2) := by
  have hcode : shown? (next 4 1 (some asking) "1" {}).finish =
      some { dialogue := some "Well?", character := some "", nextId := "answers" } := by
    decide +kernel
  have hclaim : shown? (next 4 1 (some (asking.renamed asking.resolveKey)) "1" {}).finish =
      some { dialogue := some "Well?", character := some "", nextId := "2",
             responses := [{ prompt := "Yes.", nextId := "5" },
               { prompt := "No.", nextId := "5" }] } := by
    decide +kernel
  refine ⟨Resource.apart_of_forall_mem (by decide), hcode, hclaim, fun h => ?_⟩
  rw [h, shown?_renamed, hcode] at hclaim
  revert hclaim
  decide

/-- A meeting where the empty key is a title. -/
def opening : Resource :=
  { titles := [("", "2")],
    lines :=
      [("1", { kind := .mutation, mutation := some meeting }),
       ("2", { kind := .dialogue, text := "Nice to meet you." })] }

example :
    shown? (next 4 1 (some opening) "1" stranger).finish = none ∧
      shown? (next 4 1 (some (opening.renamed opening.resolveKey)) "1" stranger).finish =
        some { dialogue := some "Nice to meet you.", character := some "", nextId := "2" } := by
  decide +kernel

end Play
end Parley

import Mathlib.Data.List.Perm.Subperm
import Mathlib.Data.Nat.Basic
import Parley.Proofs.Confined
import Parley.Proofs.Delivery
import Parley.Proofs.Prefix

/-
Documents without circles.

Where a rank falls along every reference of a document, no walk comes back to a node.
So it visits at most as many nodes as there are and makes each change at most once, and
a host that keeps asking for what the last line offers reaches the end.

Two steps of a walk are not references by themselves: a condition or a jump goes through
a title, and a line with a single response leads where that response leads.  `Leads`
covers both, and the rank falls along it (`Ranked.lt_of_leads`).
-/

namespace Parley

/-- The keys a host may ask for next. -/
def Line.Offers (l : Line) (key : String) : Prop :=
  key = l.nextId ∨ ∃ p ∈ l.responses, key = p.nextId

namespace Resource

/-- The references of a node: where it leads, where a condition leads otherwise, and
where the responses of a response node lead. -/
inductive Refers (r : Resource) (k : String) : String → Prop
  | next {n : Node} : r.node? k = some n → Refers r k n.nextId
  | otherwise {n : Node} : r.node? k = some n → n.kind = .condition →
    Refers r k n.nextConditionalId
  | reply {n m : Node} {x : String} : r.node? k = some n → n.kind = .response →
    x ∈ n.responses → r.node? x = some m → Refers r k m.nextId

/-- A rank of line keys that falls along every reference to a line, in a document where
no title is a line key. -/
structure Ranked {ρ : Type} [Preorder ρ] (r : Resource) (rank : String → ρ) : Prop where
  apart : ∀ name key, r.titles.lookup name = some key → r.node? name = none
  falls : ∀ k key, r.Refers k key → (r.node? (r.resolveKey key)).isSome →
    rank (r.resolveKey key) < rank k

/-- Where a walk or its line leads from a node: along a reference, or along one of the
response node that the node refers to. -/
def Leads (r : Resource) (k key : String) : Prop :=
  r.Refers k key ∨ ∃ m, r.Refers k m ∧ (r.node? m).isSome ∧ r.Refers m key

variable {ρ : Type} [Preorder ρ] {r : Resource} {rank : String → ρ}

theorem Ranked.resolveKey_of_node (hr : r.Ranked rank) {m : String} (h : (r.node? m).isSome) :
    r.resolveKey m = m := by
  cases ht : r.titles.lookup m with
  | none => exact resolveKey_of_not_title ht
  | some key => simp [hr.apart m key ht] at h

theorem Ranked.lt_of_leads (hr : r.Ranked rank) {k key : String} (h : r.Leads k key)
    (hkey : (r.node? (r.resolveKey key)).isSome) : rank (r.resolveKey key) < rank k := by
  rcases h with h | ⟨m, hm, hnode, h⟩
  · exact hr.falls k key h hkey
  · have hstep := hr.falls k m hm
    rw [hr.resolveKey_of_node hnode] at hstep
    exact lt_trans (hr.falls m key h hkey) (hstep hnode)

/-- Keys of nodes on which the rank falls are all different, so there are no more of them
than lines. -/
theorem length_le_of_falls {keys : List String}
    (hfalls : keys.Pairwise fun k k' => rank k' < rank k)
    (hnode : ∀ k ∈ keys, (r.node? k).isSome) : keys.Nodup ∧ keys.length ≤ r.lines.length := by
  have hnodup : keys.Nodup := hfalls.imp fun hlt heq => by
    subst heq
    exact lt_irrefl _ hlt
  have hsub : keys ⊆ r.lines.map (·.1) := by
    intro k hk
    obtain ⟨n, hn⟩ := Option.isSome_iff_exists.mp (hnode k hk)
    exact List.mem_map_of_mem (mem_lines_of_node hn)
  refine ⟨hnodup, ?_⟩
  have hlen := (List.subperm_of_subset hnodup hsub).length_le
  rwa [List.length_map] at hlen

end Resource

namespace Play

/-! ## Where a visit leads -/

theorem offers_attach {l : Line} {rs : Option (List Response)} {key : String}
    (h : (l.attach rs).Offers key) :
    l.Offers key ∨ ∃ ps, rs = some ps ∧ ∃ p ∈ ps, key = p.nextId := by
  match rs with
  | none => exact .inl h
  | some [] => exact .inl (.inl (by simpa [Line.attach, Line.Offers] using h))
  | some [p] =>
    refine .inr ⟨[p], rfl, p, List.mem_singleton_self p, ?_⟩
    simpa [Line.attach, Line.Offers] using h
  | some (p :: q :: ps) =>
    rcases h with h | h
    · exact .inl (.inl h)
    · exact .inr ⟨p :: q :: ps, rfl, h⟩

theorem gives_gather {α β : Type} {P : β → Prop} {f : α → Play (Option β)} {as : List α}
    (hf : ∀ a ∈ as, Gives (fun b => ∀ x, b = some x → P x) (f a)) :
    Gives (fun bs => ∀ b ∈ bs, P b) (Act.gather f as) := by
  induction as with
  | nil => exact gives_pure nofun
  | cons a as ih =>
    refine Gives.bind_of (hf a List.mem_cons_self) fun b hb =>
      Gives.bind_of (ih fun a' ha' => hf a' (List.mem_cons_of_mem a ha')) fun bs hbs =>
        gives_pure fun x hx => ?_
    rcases List.mem_append.mp hx with hx | hx
    · exact hb x (Option.mem_toList.mp hx)
    · exact hbs x hx

variable (ask : Ask) (r : Resource)

theorem gives_responses (keys : List String) :
    Gives (fun rs => ∀ p ∈ rs, ∃ x ∈ keys, ∃ m, r.node? x = some m ∧ p = Response.ofNode m)
      (responses ask r keys) := by
  refine gives_gather fun key hkey => ?_
  split
  · exact Gives.bind fun _ => gives_pure nofun
  · next m hm =>
    refine Gives.bind fun holds => ?_
    cases holds with
    | true =>
      refine gives_pure fun p hp => ⟨key, hkey, m, hm, ?_⟩
      exact (Option.some.inj hp).symm
    | false => exact gives_pure nofun

theorem refers_of_response {k : String} {n : Node} (hn : r.node? k = some n)
    (hk : n.kind = .response) {rs : List Response}
    (h : ∀ p ∈ rs, ∃ x ∈ n.responses, ∃ m, r.node? x = some m ∧ p = Response.ofNode m) :
    ∀ p ∈ rs, r.Refers k p.nextId := by
  intro p hp
  obtain ⟨x, hx, m, hm, rfl⟩ := h p hp
  exact .reply hn hk hx hm

theorem gives_responsesUnder (key : String) :
    Gives (fun o => ∀ rs, o = some rs → (r.node? key).isSome ∧ ∀ p ∈ rs, r.Refers key p.nextId)
      (responsesUnder ask r key) := by
  unfold responsesUnder
  split
  · exact gives_pure nofun
  · next n hn =>
    split
    · next hk =>
      refine Gives.bind_of (gives_responses ask r n.responses) fun rs hrs => gives_pure ?_
      intro ps hps
      cases hps
      exact ⟨by rw [hn]; rfl, refers_of_response r hn (by simpa using hk) hrs⟩
    · exact gives_pure nofun

theorem leads_of_build {k : String} {n : Node} (hn : r.node? k = some n) :
    Gives (fun l => ∀ key, l.Offers key → r.Leads k key) (build ask r n) := by
  have hown (l : Line) (hl : l.nextId = n.nextId ∧ l.responses = []) (key : String)
      (h : l.Offers key) : r.Leads k key := by
    rcases h with rfl | ⟨p, hp, -⟩
    · rw [hl.1]
      exact .inl (.next hn)
    · rw [hl.2] at hp
      cases hp
  have htext : Gives (fun l => l.nextId = n.nextId ∧ l.responses = [])
      (lineText ask n (Line.ofNode n)) := by
    unfold lineText
    split
    · exact Gives.bind fun _ => gives_pure ⟨nextId_ofNode n, responses_ofNode n⟩
    · exact gives_pure ⟨nextId_ofNode n, responses_ofNode n⟩
  unfold build
  split
  · next hk =>
    refine Gives.bind_of (gives_responses ask r n.responses) fun rs hrs => gives_pure ?_
    rintro key (rfl | ⟨p, hp, rfl⟩)
    · show r.Leads k (Line.ofNode n).nextId
      rw [nextId_ofNode]
      exact .inl (.next hn)
    · exact .inl (refers_of_response r hn (by simpa using hk) hrs p hp)
  · refine Gives.bind_of htext fun l hl =>
      Gives.bind_of (gives_responsesUnder ask r l.nextId) fun rs hrs => gives_pure ?_
    intro key hkey
    rcases offers_attach hkey with hkey | ⟨ps, hps, p, hp, rfl⟩
    · exact hown l hl key hkey
    · obtain ⟨hnode, href⟩ := hrs ps hps
      rw [hl.1] at hnode href
      exact .inr ⟨n.nextId, .next hn, hnode, href p hp⟩

/-- Where the next step leads from a node, or where the line leads at which a walk ends. -/
def LeadsOn (r : Resource) (k : String) : String ⊕ Option Line → Prop
  | .inl key => (r.node? k).isSome ∧ r.Leads k key
  | .inr none => True
  | .inr (some l) => (r.node? k).isSome ∧ ∀ key, l.Offers key → r.Leads k key

theorem leadsOn_of_visit (key : String) :
    Gives (LeadsOn r (r.resolveKey key)) (visit ask r key) := by
  unfold visit
  split
  · exact gives_pure trivial
  · next n hn =>
    have hsome : (r.node? (r.resolveKey key)).isSome := by rw [hn]; rfl
    split
    · next hk =>
      refine Gives.bind fun holds => ?_
      cases holds with
      | true => exact gives_pure ⟨hsome, .inl (.next hn)⟩
      | false => exact gives_pure ⟨hsome, .inl (.otherwise hn hk)⟩
    · exact gives_pure ⟨hsome, .inl (.next hn)⟩
    · exact Gives.bind_of (leads_of_build ask r hn) fun l hl => gives_pure ⟨hsome, hl⟩

theorem leadsOn_of_step (key : String) :
    Gives (LeadsOn r (r.resolveKey key)) (step ask r key) := by
  have hfinish : Gives (fun l => l = none) finishDialogue :=
    Gives.bind fun _ => Gives.bind fun _ => gives_pure rfl
  have hend : Gives (LeadsOn r (r.resolveKey key))
      (do return .inr (← finishDialogue) : Play (String ⊕ Option Line)) :=
    Gives.bind_of hfinish fun l hl => gives_pure (by rw [hl]; trivial)
  refine Gives.bind_of (leadsOn_of_visit ask r key) fun v hv => ?_
  match v, hv with
  | .inl key', hv => exact gives_pure hv
  | .inr none, _ => exact hend
  | .inr (some l), hv =>
    show Gives _ (proceed ask (some l))
    cases hvalid : l.isValid with
    | false =>
      rw [proceed_of_invalid hvalid]
      exact hend
    | true =>
      by_cases hk : l.kind = .mutation
      · rw [proceed_of_change hvalid hk]
        refine Gives.bind fun _ => ?_
        by_cases hkey : l.nextId = ""
        · rw [hkey, goOn_empty]
          exact hend
        · rw [goOn_of_ne hkey]
          exact gives_pure ⟨hv.1, hv.2 _ (.inl rfl)⟩
      · rw [proceed_of_shown hvalid hk]
        exact Gives.bind fun _ => gives_pure hv

/-! ## The course of a walk -/

/-- A node that a walk visits, and the change it makes there. -/
structure Stop where
  key : String
  change : Option Expression

/-- The change that a walk makes at a key. -/
def changeAt (ask : Ask) (r : Resource) (key : String) (s : Session) : Option Expression :=
  match (visit ask r key s).finish with
  | some (.ok (.inr (some l)), _) => if l.isValid && l.kind == .mutation then l.mutation else none
  | _ => none

/-- The nodes that a walk visits, in order. -/
def course (ask : Ask) (r : Resource) : Nat → String → Session → List Stop
  | 0, _, _ => []
  | fuel + 1, key, s =>
    match r.node? (r.resolveKey key) with
    | none => []
    | some _ =>
      { key := r.resolveKey key, change := changeAt ask r key s } ::
        match (step ask r key s).finish with
        | some (.ok (.inl key), t) => course ask r fuel key t
        | _ => []

/-- A change that is made at a key is the one of the change node there. -/
theorem node_of_changeAt {key : String} {s : Session} {m : Expression}
    (h : changeAt ask r key s = some m) :
    ∃ n, r.node? (r.resolveKey key) = some n ∧ n.kind = .mutation ∧ n.mutation = some m := by
  unfold changeAt at h
  split at h
  · next l t hv =>
    obtain ⟨n, hn, hl⟩ := gives_visit ask r key s _ t hv l rfl
    split at h
    · exact ⟨n, hn, mutation_ofNode (hl.symm.trans h)⟩
    · cases h
  · cases h

section

variable {ask r}

/-- The stop of a walk at a key. -/
def stopAt (ask : Ask) (r : Resource) (key : String) (s : Session) : Stop :=
  { key := r.resolveKey key, change := changeAt ask r key s }

theorem course_of_jump {fuel : Nat} {key key' : String} {s t : Session}
    (hstep : (step ask r key s).finish = some (.ok (.inl key'), t)) :
    course ask r (fuel + 1) key s = stopAt ask r key s :: course ask r fuel key' t := by
  obtain ⟨hnode, -⟩ := leadsOn_of_step ask r key s _ t hstep
  obtain ⟨n, hn⟩ := Option.isSome_iff_exists.mp hnode
  simp only [course, hn, hstep, stopAt]

/-- What holds of no stops, of one at a node, and of one more before others that the step
there leads to, holds of every course. -/
theorem course_induction {P : String → Session → List Stop → Prop}
    (nil : ∀ key s, P key s [])
    (last : ∀ key s, (r.node? (r.resolveKey key)).isSome → P key s [stopAt ask r key s])
    (jump : ∀ key s key' t stops, (step ask r key s).finish = some (.ok (.inl key'), t) →
      P key' t stops → P key s (stopAt ask r key s :: stops))
    (fuel : Nat) (key : String) (s : Session) : P key s (course ask r fuel key s) := by
  induction fuel generalizing key s with
  | zero => exact nil key s
  | succ fuel ih =>
    unfold course
    split
    · exact nil key s
    · next n hn =>
      split
      · next key' t hstep => exact jump key s key' t _ hstep (ih key' t)
      · exact last key s (by rw [hn]; rfl)

theorem node_of_stopAt {key : String} {s : Session}
    (hnode : (r.node? (r.resolveKey key)).isSome) : ∃ n,
      r.node? (stopAt ask r key s).key = some n ∧
        ∀ m, (stopAt ask r key s).change = some m → n.kind = .mutation ∧ n.mutation = some m := by
  obtain ⟨n, hn⟩ := Option.isSome_iff_exists.mp hnode
  refine ⟨n, hn, fun m hm => ?_⟩
  obtain ⟨n', hn', hk⟩ := node_of_changeAt ask r hm
  cases hn.symm.trans hn'
  exact hk

/-- Each node of a course is there, and the change made at it is its own. -/
theorem node_of_mem_course (fuel : Nat) (key : String) (s : Session) :
    ∀ stop ∈ course ask r fuel key s, ∃ n, r.node? stop.key = some n ∧
      ∀ m, stop.change = some m → n.kind = .mutation ∧ n.mutation = some m := by
  refine course_induction (P := fun _ _ stops => ∀ stop ∈ stops, ∃ n, r.node? stop.key = some n ∧
    ∀ m, stop.change = some m → n.kind = .mutation ∧ n.mutation = some m) ?_ ?_ ?_ fuel key s
  · exact fun _ _ => nofun
  · intro key s hnode stop hstop
    rw [List.mem_singleton.mp hstop]
    exact node_of_stopAt hnode
  · intro key s key' t stops hstep ih stop hstop
    rcases List.mem_cons.mp hstop with rfl | hstop
    · exact node_of_stopAt (leadsOn_of_step ask r key s _ t hstep).1
    · exact ih stop hstop

variable {ρ : Type} [Preorder ρ] {rank : String → ρ} (hr : r.Ranked rank)
include hr

/-- The rank falls along a course, which begins at the node of its key. -/
theorem falls_course (fuel : Nat) (key : String) (s : Session) :
    (∀ stop ∈ course ask r fuel key s, (r.node? (r.resolveKey key)).isSome ∧
      rank stop.key ≤ rank (r.resolveKey key)) ∧
    ((course ask r fuel key s).map Stop.key).Pairwise fun k k' => rank k' < rank k := by
  refine course_induction (P := fun key _ stops =>
    (∀ stop ∈ stops, (r.node? (r.resolveKey key)).isSome ∧
      rank stop.key ≤ rank (r.resolveKey key)) ∧
    (stops.map Stop.key).Pairwise fun k k' => rank k' < rank k) ?_ ?_ ?_ fuel key s
  · exact fun _ _ => ⟨nofun, .nil⟩
  · intro key s hnode
    refine ⟨fun stop hstop => ?_, List.pairwise_singleton _ _⟩
    rw [List.mem_singleton.mp hstop]
    exact ⟨hnode, le_refl _⟩
  · intro key s key' t stops hstep ⟨hbelow, hfalls⟩
    obtain ⟨hnode, hleads⟩ := leadsOn_of_step ask r key s _ t hstep
    have hlt : ∀ stop ∈ stops, rank stop.key < rank (r.resolveKey key) := fun stop hstop =>
      lt_of_le_of_lt (hbelow stop hstop).2 (hr.lt_of_leads hleads (hbelow stop hstop).1)
    refine ⟨fun stop hstop => ⟨hnode, ?_⟩, ?_⟩
    · rcases List.mem_cons.mp hstop with rfl | hstop
      · exact le_refl _
      · exact le_of_lt (hlt stop hstop)
    · refine List.pairwise_cons.mpr ⟨fun k hk => ?_, hfalls⟩
      obtain ⟨stop, hstop, rfl⟩ := List.mem_map.mp hk
      exact hlt stop hstop

theorem course_bounded (fuel : Nat) (key : String) (s : Session) :
    ((course ask r fuel key s).map Stop.key).Nodup ∧
      (course ask r fuel key s).length ≤ r.lines.length := by
  have hnode : ∀ k ∈ (course ask r fuel key s).map Stop.key, (r.node? k).isSome := by
    intro k hk
    obtain ⟨stop, hstop, rfl⟩ := List.mem_map.mp hk
    obtain ⟨n, hn, -⟩ := node_of_mem_course fuel key s stop hstop
    rw [hn]
    rfl
  obtain ⟨hnodup, hlen⟩ := Resource.length_le_of_falls (falls_course hr fuel key s).2 hnode
  rw [List.length_map] at hlen
  exact ⟨hnodup, hlen⟩

end

/-! ## The changes of a course -/

section

variable {ask : Ask} {r : Resource} {key : String} {s t : Session} {l : Line}

theorem course_of_node (hnode : (r.node? (r.resolveKey key)).isSome) (fuel : Nat) :
    ∃ stops, course ask r (fuel + 1) key s = stopAt ask r key s :: stops := by
  obtain ⟨n, hn⟩ := Option.isSome_iff_exists.mp hnode
  simp only [course, hn]
  exact ⟨_, rfl⟩

theorem changeAt_of_change (hv : (visit ask r key s).finish = some (.ok (.inr (some l)), t))
    (hvalid : l.isValid = true) (hk : l.kind = .mutation) :
    changeAt ask r key s = l.mutation := by
  simp [changeAt, hv, hvalid, hk]

theorem step_of_jump {key' : String}
    (hv : (visit ask r key s).finish = some (.ok (.inl key'), t)) :
    (step ask r key s).finish = some (.ok (.inl key'), t) := by
  rw [step, Act.finish_bind, hv]
  rfl

theorem step_of_line {l : Option Line}
    (hv : (visit ask r key s).finish = some (.ok (.inr l), t)) :
    (step ask r key s).finish = (proceed ask l t).finish := by
  rw [step, Act.finish_bind, hv]

/-- A change that a walk completes is the first one of its course, and what it completes
then follows. -/
theorem passed_prefix_of_change {fuel : Nat}
    (hv : (visit ask r key s).finish = some (.ok (.inr (some l)), t))
    (hvalid : l.isValid = true) (hk : l.kind = .mutation)
    (ih : ∀ key s, passed ask r fuel key s <+: (course ask r fuel key s).filterMap Stop.change) :
    passed ask r (fuel + 1) key s <+:
      (course ask r (fuel + 1) key s).filterMap Stop.change := by
  obtain ⟨m, hm⟩ := mutation_of_isValid hvalid hk
  have hchange : (stopAt ask r key s).change = some m := by
    rw [← hm]
    exact changeAt_of_change hv hvalid hk
  cases hu : (mutate ask (some m) t).finish with
  | none => simp [passed, hv, hvalid, hk, hm, hu]
  | some ou =>
    obtain ⟨o, u⟩ := ou
    cases o with
    | error e =>
      rw [passed_of_failed_change hv hvalid hk hm hu]
      exact List.nil_prefix
    | ok _ =>
      rw [passed_of_change hv hvalid hk hm hu]
      by_cases hkey : l.nextId = ""
      · rw [if_pos hkey]
        have hnode : (r.node? (r.resolveKey key)).isSome :=
          (leadsOn_of_visit ask r key s _ t hv).1
        obtain ⟨stops, hstops⟩ :
            ∃ stops, course ask r (fuel + 1) key s = stopAt ask r key s :: stops :=
          course_of_node hnode fuel
        rw [hstops, List.filterMap_cons_some hchange]
        exact List.cons_prefix_cons.mpr ⟨rfl, List.nil_prefix⟩
      · have hstep : (step ask r key s).finish = some (.ok (.inl l.nextId), u) := by
          rw [step_of_line hv, proceed_of_change hvalid hk, hm, Act.finish_bind, hu,
            goOn_of_ne hkey]
          rfl
        rw [if_neg hkey, course_of_jump hstep, List.filterMap_cons_some hchange]
        exact List.cons_prefix_cons.mpr ⟨rfl, ih _ _⟩

/-- The changes that a walk completes are the first ones of its course. -/
theorem passed_prefix_course (ask : Ask) (r : Resource) (fuel : Nat) (key : String)
    (s : Session) :
    passed ask r fuel key s <+: (course ask r fuel key s).filterMap Stop.change := by
  induction fuel generalizing key s with
  | zero => exact List.nil_prefix
  | succ fuel ih =>
    cases hv : (visit ask r key s).finish with
    | none => simp only [passed, hv, List.nil_prefix]
    | some vt =>
      rcases vt with ⟨e | key' | l, t⟩
      · rw [passed_of_fault hv]
        exact List.nil_prefix
      · have hnone : (stopAt ask r key s).change = none := by simp [stopAt, changeAt, hv]
        rw [passed_of_jump hv, course_of_jump (step_of_jump hv), List.filterMap_cons_none hnone]
        exact ih key' t
      · by_cases hl : ∃ l', l = some l' ∧ l'.isValid = true ∧ l'.kind = .mutation
        · obtain ⟨l', rfl, hvalid, hk⟩ := hl
          exact passed_prefix_of_change hv hvalid hk ih
        · rw [passed_of_unchanged hv fun l' hl' hvalid hk => hl ⟨l', hl', hvalid, hk⟩]
          exact List.nil_prefix

end

/-! ## Walks end -/

end Play

/-- However its bus stands, a signal that the session announces is heard out. -/
def Session.ListenersEnd (s : Session) : Prop :=
  ∀ g bus, ∃ r, (Bus.publish (fun _ => s.react) 1 g [] { bus := bus }).finish = some r

/-- Listeners that only add and remove registrations end. -/
theorem Session.listenersEnd_of_reactions {s : Session}
    (h : ∀ id r, (id, r) ∈ s.reactions → ∀ word data, .publish word data ∉ r.deeds) :
    s.ListenersEnd := by
  intro g bus
  have hreact (h' : Hearer) (word : String) (data : Table) :
      .publish word data ∉ (s.react h').deeds := by
    cases h' with
    | handler id => exact List.not_mem_nil
    | listener id =>
      show .publish word data ∉ ((s.reactions.lookup id).getD {}).deeds
      cases hl : s.reactions.lookup id with
      | none => exact List.not_mem_nil
      | some r => exact h id r (mem_of_lookup hl) word data
  obtain ⟨r, t, ht, -⟩ := Bus.ends_publish (fun _ => hreact) g [] { bus := bus } trivial
  exact ⟨_, ht⟩

/-- A session whose guard is held and whose listeners end. -/
structure Session.Busy (s : Session) : Prop where
  pending : s.pending = true
  listeners : s.ListenersEnd

namespace Play

theorem ends_writing (f : Bindings → Except Fault Bindings) :
    Act.Ends Session.Busy (writing f) := by
  intro s hs
  unfold writing
  cases f s.bindings with
  | ok b => exact ⟨_, _, rfl, hs.pending, hs.listeners⟩
  | error e => exact ⟨_, _, rfl, hs⟩

theorem congruence_ends : Congruence (First fun _ => Act.Ends Session.Busy) where
  bind := Act.Ends.bind
  read _ := Act.ends_read _
  writeAt i name value := ends_writing _
  setUnknown _ _ :=
    setUnknown_of_parts (R := First fun _ => Act.Ends Session.Busy) Act.Ends.bind
      (fun _ => Act.ends_read _) (ends_writing _)
  note _ := Act.ends_modify fun s hs => ⟨hs.pending, hs.listeners⟩
  pause s hs := ⟨_, s, rfl, hs⟩
  keep v s hs := by
    obtain ⟨v', n, hkeep⟩ := exists_keep v s
    rw [hkeep]
    exact ⟨_, _, rfl, hs.pending, hs.listeners⟩

/-- While the guard is held, the requests of host methods end: they are refused. -/
theorem ends_answer (fuel nesting : Nat) (document : Option Resource) (key : String) :
    Act.Ends Session.Busy (Act.attempt (answer fuel nesting document key)) := by
  refine Act.Ends.attempt fun s hs => ?_
  rw [answer_of_pending hs.pending]
  exact ⟨_, s, rfl, hs⟩

theorem scripted_ends (fuel nesting : Nat) :
    Scripted (First fun _ => Act.Ends Session.Busy) (answer fuel nesting)
      (answer fuel nesting) :=
  congruence_ends.scripted (congruence_ends.invoke (ends_answer fuel nesting))

theorem ends_announce (g : Signal) : Act.Ends Session.Busy (announce g) := by
  intro s hs
  obtain ⟨⟨r, x⟩, hx⟩ := hs.listeners g s.bus
  unfold announce
  rw [hx]
  exact ⟨_, _, rfl, hs.pending, hs.listeners⟩

theorem ends_setRunning (value : Bool) : Act.Ends Session.Busy (setRunning value) := by
  intro s hs
  unfold setRunning
  split
  · exact ⟨_, s, rfl, hs⟩
  · exact ends_announce _ _ ⟨hs.pending, hs.listeners⟩

theorem ends_step (fuel nesting : Nat) (r : Resource) (key : String) :
    Act.Ends Session.Busy (step (answer fuel nesting) r key) :=
  (scripted_ends fuel nesting).step ends_setRunning r key

/-- A walk that spends all its fuel has visited a node with each unit of it. -/
theorem length_course_of_exhausted {ask : Ask} {r : Resource}
    (hstep : ∀ key, Act.Ends Session.Busy (step ask r key)) {fuel : Nat} {key : String}
    {s : Session} (hs : s.Busy) (h : (walk ask r fuel key s).finish = none) :
    (course ask r fuel key s).length = fuel := by
  induction fuel generalizing key s with
  | zero => rfl
  | succ fuel ih =>
    obtain ⟨o, t, ho, ht⟩ := hstep key s hs
    rw [walk, Act.iterate_succ, Act.finish_bind, ho] at h
    cases o with
    | error e => cases h
    | ok v =>
      cases v with
      | inr l => cases h
      | inl key' => rw [course_of_jump ho, List.length_cons, ih ht h]

section

variable {ρ : Type} [Preorder ρ] {r : Resource} {rank : String → ρ} (hr : r.Ranked rank)
include hr

theorem ends_walk {fuel : Nat} (hfuel : r.lines.length < fuel) (visits nesting : Nat)
    (key : String) {s : Session} (hs : s.Busy) :
    ∃ o t, (walk (answer visits nesting) r fuel key s).finish = some (o, t) := by
  cases hw : (walk (answer visits nesting) r fuel key s).finish with
  | some ot => exact ⟨ot.1, ot.2, rfl⟩
  | none =>
    have hlen := length_course_of_exhausted (ends_step visits nesting r) hs hw
    have hbound : (course (answer visits nesting) r fuel key s).length ≤ r.lines.length :=
      (course_bounded hr fuel key s).2
    omega

/-- A request ends once it has more fuel than the document has lines. -/
theorem ends_next {fuel : Nat} (hfuel : r.lines.length < fuel) (nesting : Nat)
    {document : Option Resource} (key : String) {s : Session} (hs : s.ListenersEnd)
    (hdoc : (document <|> s.default) = some r) :
    ∃ o t, (next fuel (nesting + 1) document key s).finish = some (o, t) := by
  cases hp : s.pending with
  | true => exact ⟨_, s, by rw [next_of_pending hp]; rfl⟩
  | false =>
    obtain ⟨o, t, ht⟩ := ends_walk hr hfuel fuel nesting key (s := { s with pending := true })
      ⟨rfl, hs⟩
    refine ⟨o, { t with pending := false }, ?_⟩
    rw [next_succ, seek, Act.bind_of_done (admitted_of_free hp hdoc), finish_guarded, ht]
    rfl

/-! ## Play-throughs -/

/-- A line comes from a node that is there, below the key it was asked for. -/
theorem gives_walk (ask : Ask) (fuel : Nat) (key : String) :
    Gives (fun o => ∀ l, o = some l → (r.node? (r.resolveKey key)).isSome ∧
      ∃ k, (r.node? k).isSome ∧ rank k ≤ rank (r.resolveKey key) ∧
        ∀ key', l.Offers key' → r.Leads k key') (walk ask r fuel key) := by
  induction fuel generalizing key with
  | zero => exact fun _ _ _ h => by cases h
  | succ fuel ih =>
    rw [walk, Act.iterate_succ]
    refine Gives.bind_of (leadsOn_of_step ask r key) fun v hv => ?_
    match v, hv with
    | .inl key', ⟨hnode, hleads⟩ =>
      intro s o t h l hl
      obtain ⟨hnode', k, hk, hrank, hoffers⟩ := ih key' s o t h l hl
      exact ⟨hnode, k, hk, le_trans hrank (le_of_lt (hr.lt_of_leads hleads hnode')), hoffers⟩
    | .inr none, _ =>
      refine gives_pure fun l' hl => ?_
      cases hl
    | .inr (some l), ⟨hnode, hoffers⟩ =>
      refine gives_pure fun l' hl => ?_
      cases hl
      exact ⟨hnode, _, hnode, le_refl _, hoffers⟩

theorem line_of_next {fuel nesting : Nat} {document : Option Resource} {key : String}
    {s t : Session} {l : Line} (hdoc : (document <|> s.default) = some r)
    (h : (next fuel nesting document key s).finish = some (.ok (some l), t)) :
    (r.node? (r.resolveKey key)).isSome ∧
      ∃ k, (r.node? k).isSome ∧ rank k ≤ rank (r.resolveKey key) ∧
        ∀ key', l.Offers key' → r.Leads k key' := by
  obtain ⟨deeper, u, -, -, hwalk⟩ := exists_walk_of_next hdoc h
  exact gives_walk hr _ fuel key _ _ u hwalk l rfl

end

/-- Requests for lines of one document, each for something that the line before offers if
there is one.  In between the host may do anything to the session. -/
structure Journey (r : Resource) where
  fuel : Nat → Nat
  nesting : Nat → Nat
  document : Nat → Option Resource
  key : Nat → String
  before : Nat → Session
  outcome : Nat → Except Fault (Option Line)
  after : Nat → Session
  finish_eq : ∀ i, (next (fuel i) (nesting i) (document i) (key i) (before i)).finish =
    some (outcome i, after i)
  document_eq : ∀ i, (document i <|> (before i).default) = some r
  offers : ∀ i l, outcome i = .ok (some l) → l.Offers (key (i + 1))

/-- The nodes that lines in a row come from are there, and the rank falls along them. -/
theorem Journey.exists_keys {ρ : Type} [Preorder ρ] {r : Resource} {rank : String → ρ}
    (hr : r.Ranked rank) (j : Journey r) (n start : Nat)
    (h : ∀ i, i < n → ∃ l, j.outcome (start + i) = .ok (some l)) :
    ∃ keys : List String, keys.length = n ∧ (∀ k ∈ keys, (r.node? k).isSome) ∧
      keys.Pairwise (fun k k' => rank k' < rank k) ∧
      ∀ k ∈ keys, (r.node? (r.resolveKey (j.key start))).isSome ∧
        rank k ≤ rank (r.resolveKey (j.key start)) := by
  induction n generalizing start with
  | zero => exact ⟨[], rfl, nofun, .nil, nofun⟩
  | succ n ih =>
    obtain ⟨l, hl⟩ : ∃ l, j.outcome start = .ok (some l) := h 0 (Nat.succ_pos n)
    have hfinish := j.finish_eq start
    rw [hl] at hfinish
    obtain ⟨hthere, k, hk, hrank, hoffers⟩ := line_of_next hr (j.document_eq start) hfinish
    obtain ⟨keys, hlen, hnodes, hfalls, hbelow⟩ := ih (start + 1) fun i hi => by
      rw [Nat.add_assoc, Nat.add_comm 1]
      exact h (i + 1) (Nat.succ_lt_succ hi)
    have hleads := hoffers _ (j.offers start l hl)
    have hlt : ∀ k' ∈ keys, rank k' < rank k := fun k' hk' =>
      lt_of_le_of_lt (hbelow k' hk').2 (hr.lt_of_leads hleads (hbelow k' hk').1)
    refine ⟨k :: keys, by rw [List.length_cons, hlen], ?_, List.pairwise_cons.mpr ⟨hlt, hfalls⟩,
      fun k' hk' => ⟨hthere, ?_⟩⟩
    · intro k' hk'
      rcases List.mem_cons.mp hk' with rfl | hk'
      · exact hk
      · exact hnodes k' hk'
    · rcases List.mem_cons.mp hk' with rfl | hk'
      · exact hrank
      · exact le_trans (le_of_lt (hlt k' hk')) hrank

/-- What an end of all walks and all play-throughs means for a document. -/
structure Terminating (r : Resource) : Prop where
  /-- A request ends once it has more fuel than the document has lines. -/
  ends (fuel nesting : Nat) (document : Option Resource) (key : String) (s : Session) :
    r.lines.length < fuel → s.ListenersEnd → (document <|> s.default) = some r →
      ∃ o t, (next fuel (nesting + 1) document key s).finish = some (o, t)
  /-- A walk visits each node once at most, and the changes it makes are those of the nodes
  it visits. -/
  course (ask : Ask) (fuel : Nat) (key : String) (s : Session) :
    ((course ask r fuel key s).map Stop.key).Nodup ∧
      (course ask r fuel key s).length ≤ r.lines.length ∧
      (∀ stop ∈ course ask r fuel key s, ∃ n, r.node? stop.key = some n ∧
        ∀ m, stop.change = some m → n.kind = .mutation ∧ n.mutation = some m) ∧
      passed ask r fuel key s <+: (course ask r fuel key s).filterMap Stop.change
  /-- One of the first requests in a row, at most one more than there are lines, gives none. -/
  journey (j : Journey r) : ∃ i ≤ r.lines.length, ∀ l, j.outcome i ≠ .ok (some l)

theorem terminating_of_ranked {ρ : Type} [Preorder ρ] {r : Resource} {rank : String → ρ}
    (hr : r.Ranked rank) : Terminating r where
  ends _ nesting _ key _ hfuel hs hdoc := ends_next hr hfuel nesting key hs hdoc
  course _ fuel key s :=
    ⟨(course_bounded hr fuel key s).1, (course_bounded hr fuel key s).2,
      node_of_mem_course fuel key s, passed_prefix_course _ r fuel key s⟩
  journey j := by
    by_contra hnone
    have hline (i : Nat) (hi : i < r.lines.length + 1) : ∃ l, j.outcome (0 + i) = .ok (some l) := by
      rw [Nat.zero_add]
      by_contra hno
      exact hnone ⟨i, Nat.lt_succ_iff.mp hi, fun l hl => hno ⟨l, hl⟩⟩
    obtain ⟨keys, hlen, hnode, hfalls, -⟩ := j.exists_keys hr (r.lines.length + 1) 0 hline
    have hbound := (Resource.length_le_of_falls hfalls hnode).2
    omega

def laneWait : Expression := { lhsKind := .function, lhsFunction := some "wait" }

/-- A jump through a title to a change, after which a single response leads to the end. -/
def lane : Resource :=
  { titles := [("start", "1"), ("change", "2")],
    lines :=
      [("1", { kind := .goto, nextId := "change" }),
       ("2", { kind := .mutation, nextId := "3", mutation := some laneWait }),
       ("3", { kind := .response, responses := ["4"] }),
       ("4", { kind := .response, text := "Bye.", nextId := "5" }),
       ("5", { kind := .dialogue, text := "Bye!" })] }

def laneRank (k : String) : Nat :=
  if k = "1" then 4 else if k = "2" then 3 else if k = "3" then 2 else if k = "4" then 1 else 0

theorem lane_node {k : String} {n : Node} (h : lane.node? k = some n) :
    (k = "1" ∧ n = { kind := .goto, nextId := "change" }) ∨
      (k = "2" ∧ n = { kind := .mutation, nextId := "3", mutation := some laneWait }) ∨
      (k = "3" ∧ n = { kind := .response, responses := ["4"] }) ∨
      (k = "4" ∧ n = { kind := .response, text := "Bye.", nextId := "5" }) ∨
      (k = "5" ∧ n = { kind := .dialogue, text := "Bye!" }) := by
  simpa [lane] using Resource.mem_lines_of_node h

theorem ranked_lane : lane.Ranked laneRank where
  apart name key h := by
    have hmem : (name, key) ∈ lane.titles := mem_of_lookup h
    simp only [lane, List.mem_cons, List.not_mem_nil, or_false, Prod.mk.injEq] at hmem
    rcases hmem with ⟨rfl, -⟩ | ⟨rfl, -⟩ <;> decide
  falls k key h := by
    cases h with
    | next hn =>
      rcases lane_node hn with ⟨rfl, rfl⟩ | ⟨rfl, rfl⟩ | ⟨rfl, rfl⟩ | ⟨rfl, rfl⟩ | ⟨rfl, rfl⟩ <;>
        decide
    | otherwise hn hk =>
      rcases lane_node hn with ⟨-, rfl⟩ | ⟨-, rfl⟩ | ⟨-, rfl⟩ | ⟨-, rfl⟩ | ⟨-, rfl⟩ <;> cases hk
    | reply hn hk hx hm =>
      rcases lane_node hn with ⟨-, rfl⟩ | ⟨-, rfl⟩ | ⟨rfl, rfl⟩ | ⟨-, rfl⟩ | ⟨-, rfl⟩
      · cases hk
      · cases hk
      · obtain rfl := List.mem_singleton.mp hx
        cases hm
        decide
      · cases hx
      · cases hk

/-! A play-through of the lane: its start, and then the empty key. -/

def laneSession : Session := { default := some lane }

def laneKey : Nat → String
  | 0 => "start"
  | _ + 1 => ""

/-- What the host is shown. -/
def laneShown : Nat → Option Shown
  | 0 => some { kind := .dialogue, character := some "", dialogue := some "Bye!" }
  | _ + 1 => none

theorem finish_lane (i : Nat) : ∃ o t,
    (next 6 1 none (laneKey i) laneSession).finish = some (o, t) ∧
      o.toOption.map (·.map Line.toShown) = some (laneShown i) := by
  have hrun : (next 6 1 none (laneKey i) laneSession).finish.map
      (fun r => r.1.toOption.map (·.map Line.toShown)) = some (some (laneShown i)) := by
    cases i with
    | zero => decide +kernel
    | succ i =>
      show (next 6 1 none "" laneSession).finish.map
        (fun r => r.1.toOption.map (·.map Line.toShown)) = some (some none)
      decide +kernel
  obtain ⟨⟨o, t⟩, hfinish, hshown⟩ := Option.map_eq_some_iff.mp hrun
  exact ⟨o, t, hfinish, hshown⟩

theorem exists_journey_lane : ∃ j : Journey lane, j.key = laneKey ∧
    ∀ i, (j.outcome i).toOption.map (·.map Line.toShown) = some (laneShown i) := by
  choose o t hfinish hshown using finish_lane
  refine ⟨{ fuel := fun _ => 6, nesting := fun _ => 1, document := fun _ => none, key := laneKey,
            before := fun _ => laneSession, outcome := o, after := t, finish_eq := hfinish,
            document_eq := fun _ => rfl, offers := fun i l hl => ?_ }, rfl, hshown⟩
  have hi := hshown i
  rw [hl] at hi
  cases i with
  | zero =>
    have hline : l.toShown = { kind := .dialogue, character := some "", dialogue := some "Bye!" } :=
      Option.some.inj (Option.some.inj hi)
    exact .inl (by rw [hline]; rfl)
  | succ i => cases hi

theorem terminating_lane : lane.Ranked laneRank ∧ Terminating lane ∧
    (course refused lane 6 "start" {}).map Stop.key = ["1", "2", "5"] ∧
    ∃ j : Journey lane, j.key 0 = "start" ∧ j.key 1 = "" ∧
      (∃ l, j.outcome 0 = .ok (some l) ∧ l.dialogue = some "Bye!") ∧
      j.outcome 1 = .ok none ∧ ∃ i ≤ lane.lines.length, ∀ l, j.outcome i ≠ .ok (some l) := by
  obtain ⟨j, hkey, hshown⟩ := exists_journey_lane
  refine ⟨ranked_lane, terminating_of_ranked ranked_lane, by decide +kernel, j, by rw [hkey]; rfl,
    by rw [hkey]; rfl, ?_, ?_, (terminating_of_ranked ranked_lane).journey j⟩
  · have hfirst := hshown 0
    cases ho : j.outcome 0 with
    | error f =>
      rw [ho] at hfirst
      cases hfirst
    | ok l =>
      rw [ho] at hfirst
      obtain ⟨l, rfl, hline⟩ := Option.map_eq_some_iff.mp (Option.some.inj hfirst)
      exact ⟨l, rfl, by rw [hline]⟩
  · have hsecond := hshown 1
    cases ho : j.outcome 1 with
    | error f =>
      rw [ho] at hsecond
      cases hsecond
    | ok l =>
      rw [ho] at hsecond
      rw [Option.map_eq_none_iff.mp (Option.some.inj hsecond)]

end Play
end Parley

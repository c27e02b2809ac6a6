import Parley.Proofs.Acyclic
import Parley.Proofs.Arrival
import Parley.Proofs.Hops

/-
Responses seen ahead.

A dialogue that leads to a response node shows its responses already, and a request for that
node shows them again.  The one looks the node up as it stands in the dialogue, the other
resolves it first and walks there; while the key is no title and nothing on either way calls
a host method, both list the same responses (`seesAhead_of_dialogue`).

Without calls, what a listing gives is told from the bound states.  So it is the same in
every session with those states, whoever asks and whatever has been logged in between.
-/

namespace Parley
namespace Play

/-- The line of a response node with some responses. -/
def listed (q : Node) (rs : List Response) : Line := { Line.ofNode q with responses := rs }

section

variable {n : Node}

theorem kind_listed (h : n.kind = .response) (rs : List Response) :
    (listed n rs).kind = .response := (Line.kind_ofNode n).trans h

theorem isValid_listed (h : n.kind = .response) (rs : List Response) :
    (listed n rs).isValid = !rs.isEmpty := by
  rw [Line.isValid, kind_listed h]
  rfl

end

/-! ## A request that comes to a response node -/

section

variable {s : Session}

theorem exists_setRunning (hs : s.Busy) (value : Bool) :
    ∃ t, setRunning value s = .done () t ∧ t.Busy := by
  obtain ⟨o, t, ht, hbusy⟩ := ends_setRunning value s hs
  rcases setRunning_cases value s with h | ⟨bus, es, h, -, -⟩
  · rw [h] at ht
    cases ht
  · rw [h] at ht
    cases ht
    exact ⟨_, h, hbusy⟩

theorem exists_finishDialogue (hs : s.Busy) : ∃ t, finishDialogue s = .done none t := by
  obtain ⟨t, ht, hbusy⟩ := exists_setRunning hs true
  obtain ⟨u, hu, -⟩ := exists_setRunning hbusy false
  refine ⟨u, ?_⟩
  rw [finishDialogue, Act.bind_of_done ht, Act.bind_of_done hu]
  rfl

/-- A request for a response node gives its line, or none if no response is left. -/
theorem next_of_listed {r : Resource} {key : String} {q : Node} {rs : List Response}
    {es : List Entry} {fuel nesting : Nat} {doc : Option Resource}
    (hq : r.node? (r.resolveKey key) = some q) (hkind : q.kind = .response)
    (hrs : ∀ u : Session, u.bindings = s.bindings →
      responses refused r q.responses u = .done rs { u with trace := u.trace ++ es })
    (hfree : s.pending = false) (hdoc : (doc <|> s.default) = some r) (hs : s.ListenersEnd) :
    ∃ t, (next (fuel + 1) (nesting + 1) doc key s).finish =
      some (.ok (if rs = [] then none else some (listed q rs)), t) := by
  let u : Session := { s with pending := true, trace := s.trace ++ es }
  have hbusy : u.Busy := ⟨rfl, hs⟩
  have hvisit : visit refused r key { s with pending := true } =
      .done (.inr (some (listed q rs))) u := by
    have hgiven : responses refused r q.responses { s with pending := true } = .done rs u :=
      hrs { s with pending := true } rfl
    have hbuild : build refused r q { s with pending := true } = .done (listed q rs) u := by
      rw [build_of_response refused r hkind, Act.bind_of_done hgiven]
      rfl
    rw [visit, hq]
    simp only [hkind]
    rw [Act.bind_of_done hbuild]
    rfl
  have harrive : ∃ t, arrive refused r fuel (some (listed q rs)) u =
      .done (if rs = [] then none else some (listed q rs)) t := by
    by_cases hempty : rs = []
    · subst hempty
      rw [arrive_of_invalid refused r fuel (isValid_listed hkind []), if_pos rfl]
      exact exists_finishDialogue hbusy
    · have hvalid : (listed q rs).isValid = true := by
        rw [isValid_listed hkind]
        simpa using hempty
      have hshown : (listed q rs).kind ≠ .mutation := by
        rw [kind_listed hkind]
        decide
      obtain ⟨t, ht, -⟩ := exists_setRunning hbusy true
      refine ⟨t, ?_⟩
      rw [arrive_of_shown refused r fuel hvalid hshown, Act.bind_of_done ht, if_neg hempty]
      rfl
  obtain ⟨t, ht⟩ := harrive
  refine ⟨{ t with pending := false }, ?_⟩
  rw [finish_next_of_free hfree hdoc, finish_guarded, walk_succ, Act.bind_of_done hvisit,
    Sum.elim_inr, ht]
  rfl

end

/-! ## The look-ahead -/

variable {ask : Ask} {r : Resource} {key : String} {d q : Node} {s t : Session} {L : Line}
  {fuel : Nat}

/-- What a line of a dialogue is made of: its text, and what is found under the key that the
node leads to. -/
theorem exists_base_of_lineAt {o : Option Line} (hn : r.node? (r.resolveKey key) = some d)
    (hd : d.kind = .dialogue) (h : (lineAt ask r fuel key s).MayEnd (.ok o) t) :
    ∃ base u found, (lineText ask d (.ofNode d) s).MayEnd (.ok base) u ∧
      (responsesUnder ask r d.nextId u).MayEnd (.ok found) t ∧ base.responses = [] ∧
        base.nextId = d.nextId ∧ o = some (base.attach found) := by
  have hresponse : d.kind ≠ .response := by rw [hd]; decide
  have hcondition : d.kind ≠ .condition := by rw [hd]; decide
  have hgoto : d.kind ≠ .goto := by rw [hd]; decide
  cases fuel with
  | zero => cases h
  | succ fuel =>
    rw [lineAt_of_node hn hcondition hgoto, map_eq_pure_bind,
      build_of_not_response ask r hresponse] at h
    obtain ⟨l, v, hbuild, hl⟩ := Act.mayEnd_bind_ok.mp h
    obtain ⟨base, u, htext, hrest⟩ := Act.mayEnd_bind_ok.mp hbuild
    obtain ⟨found, w, hfound, hattach⟩ := Act.mayEnd_bind_ok.mp hrest
    cases hattach
    cases hl
    obtain ⟨text, hbase⟩ := exists_dialogue_of_lineText htext
    have hnext : base.nextId = d.nextId := by rw [hbase]; exact nextId_ofNode d
    have hempty : base.responses = [] := by rw [hbase]; exact responses_ofNode d
    exact ⟨base, u, found, htext, hnext ▸ hfound, hempty, hnext, rfl⟩

/-- Before a response node, nothing on the way being a call, the responses of a line are those
that the listing gives in every session with the same states. -/
theorem exists_listing (hn : r.node? (r.resolveKey key) = some d) (hd : d.kind = .dialogue)
    (hreplacements : ∀ x ∈ d.replacements, x.kind ≠ .function)
    (hq : r.node? d.nextId = some q) (hkind : q.kind = .response) (hplain : r.PlainAt q.responses)
    (hL : (lineAt ask r fuel key s).MayEnd (.ok (some L)) t) :
    t.bindings = s.bindings ∧ ∃ es, ∀ (ask' : Ask) (u : Session), u.bindings = s.bindings →
      responses ask' r q.responses u = .done L.responses { u with trace := u.trace ++ es } := by
  obtain ⟨base, u, found, htext, hfound, hempty, -, hline⟩ := exists_base_of_lineAt hn hd hL
  obtain ⟨res, htold⟩ := reads_lineText ask hreplacements (Line.ofNode d) s
  rw [htold s rfl] at htext
  obtain ⟨-, rfl⟩ := Progress.mayEnd_ended.mp htext
  rw [responsesUnder_of_response ask hq hkind, map_eq_pure_bind] at hfound
  obtain ⟨rs, v, hrs, hsome⟩ := Act.mayEnd_bind_ok.mp hfound
  cases hsome
  obtain ⟨res', es, hreport⟩ := reports_responses ask hplain u
  rw [hreport u rfl] at hrs
  obtain ⟨rfl, rfl⟩ := Progress.mayEnd_ended.mp hrs
  have hlist : L.responses = rs := by
    rw [Option.some.inj hline, attach_eq hempty]
    rfl
  refine ⟨rfl, es, fun ask' w hw => ?_⟩
  rw [responses_eq_of_plain hplain ask' ask, hreport w hw, hlist]
  rfl

/-- What a dialogue shows of the responses after it. -/
structure SeesAhead (ask : Ask) (r : Resource) (key : String) (d : Node) : Prop where
  /-- Before a response node, nothing on the way being a call and the key no title, a dialogue
  shows the responses that a request for that node shows. -/
  same : ∀ q s fuel L t, r.node? d.nextId = some q → q.kind = .response →
    r.titles.lookup d.nextId = none → (∀ x ∈ d.replacements, x.kind ≠ .function) →
    r.PlainAt q.responses → (lineAt ask r fuel key s).MayEnd (.ok (some L)) t →
      t.bindings = s.bindings ∧ ∃ R : Line, R.kind = .response ∧ L.responses = R.responses ∧
        ∀ u, u.bindings = s.bindings →
          (∀ ask' fuel', 0 < fuel' →
            ∃ v, (lineAt ask' r fuel' d.nextId u).finish = some (.ok (some R), v)) ∧
          ∀ doc fuel' nesting, 0 < fuel' → u.pending = false → (doc <|> u.default) = some r →
            u.ListenersEnd → ∃ v, (next fuel' (nesting + 1) doc d.nextId u).finish =
              some (.ok (if R.responses = [] then none else some R), v)
  /-- Before anything else it shows none, and leads where the node does. -/
  bare : (∀ q, r.node? d.nextId = some q → q.kind ≠ .response) →
    ∀ s fuel o t, (lineAt ask r fuel key s).MayEnd (.ok o) t →
      ∃ L, o = some L ∧ L.responses = [] ∧ L.nextId = d.nextId

theorem seesAhead_of_dialogue (ask : Ask) (hn : r.node? (r.resolveKey key) = some d)
    (hd : d.kind = .dialogue) : SeesAhead ask r key d where
  same q s fuel L t hq hkind htitle hreplacements hplain hL := by
    obtain ⟨ht, es, hlisting⟩ := exists_listing hn hd hreplacements hq hkind hplain hL
    have hq' : r.node? (r.resolveKey d.nextId) = some q := by
      rw [Resource.resolveKey_of_not_title htitle, hq]
    refine ⟨ht, listed q L.responses, kind_listed hkind _, rfl, fun u hu => ⟨?_, ?_⟩⟩
    · intro ask' fuel' hfuel'
      obtain ⟨fuel', rfl⟩ := Nat.exists_eq_add_one.mpr hfuel'
      refine ⟨{ u with trace := u.trace ++ es }, ?_⟩
      rw [lineAt_of_node hq' (by rw [hkind]; decide) (by rw [hkind]; decide), map_eq_pure_bind,
        build_of_response ask' r hkind, bind_assoc, Act.bind_of_done (hlisting ask' u hu)]
      rfl
    · intro doc fuel' nesting hfuel' hfree hdoc hlisteners
      obtain ⟨fuel', rfl⟩ := Nat.exists_eq_add_one.mpr hfuel'
      exact next_of_listed hq' hkind (fun w hw => hlisting refused w (hw.trans hu)) hfree hdoc
        hlisteners
  bare hnone s fuel o t h := by
    obtain ⟨base, u, found, -, hfound, hempty, hnext, rfl⟩ := exists_base_of_lineAt hn hd h
    rw [responsesUnder_of_not_response ask hnone] at hfound
    obtain ⟨hfound, -⟩ := Act.mayEnd_pure.mp hfound
    cases hfound
    exact ⟨base, rfl, hempty, hnext⟩

/-- An offer with a name in it, and two answers of which one is not open to strangers. -/
def offer : Resource where
  titles := [("Offer", "1")]
  lines := [
    ("1", { kind := .dialogue, text := "Some \x7b\x7bdrink\x7d\x7d?", nextId := "2",
            replacements := [{ value := .text "drink",
                               placeholder := "\x7b\x7bdrink\x7d\x7d" }] }),
    ("2", { kind := .response, responses := ["3", "4"] }),
    ("3", { kind := .response, text := "Yes.", nextId := "5" }),
    ("4", { kind := .response, text := "The usual.", nextId := "5",
            condition := some { lhs := .text "met" } })]

def offered : Session where
  bindings :=
    { hosts := [{ values := [(.text "met", .bool false), (.text "drink", .text "tea")] }],
      active := [0] }

theorem seesAhead_of_dialogue_offer :
    ∃ L t R u v, (lineAt refused offer 1 "Offer" offered).finish = some (.ok (some L), t) ∧
      L.toShown = { nextId := "5", character := some "", dialogue := some "Some tea?",
                    responses := [{ prompt := "Yes.", nextId := "5" }] } ∧
      L.responses = R.responses ∧
      (lineAt refused offer 1 "2" offered).finish = some (.ok (some R), u) ∧
      (next 1 1 (some offer) "2" offered).finish = some (.ok (some R), v) := by
  have hshown : shown? (lineAt refused offer 1 "Offer" offered).finish =
      some { nextId := "5", character := some "", dialogue := some "Some tea?",
             responses := [{ prompt := "Yes.", nextId := "5" }] } := by
    decide +kernel
  obtain ⟨L, t, hfinish, hL⟩ := exists_of_shown? hshown
  have hplain : offer.PlainAt ["3", "4"] := by
    intro key hkey n hn e he
    simp only [List.mem_cons, List.not_mem_nil, or_false] at hkey
    rcases hkey with rfl | rfl
    · cases hn
      cases he
    · cases hn
      cases he
      exact ⟨nofun, nofun⟩
  have hlisteners : offered.ListenersEnd := Session.listenersEnd_of_reactions nofun
  have hahead : SeesAhead refused offer "Offer" _ := seesAhead_of_dialogue refused rfl rfl
  obtain ⟨-, R, -, hresponses, hR⟩ := hahead.same _ offered 1 L t rfl rfl rfl (by simp) hplain
    (Progress.mayEnd_of_finish hfinish)
  have hne : R.responses ≠ [] := by
    rw [← hresponses, show L.responses = L.toShown.responses from rfl, hL]
    exact nofun
  obtain ⟨u, hu⟩ := (hR offered rfl).1 refused 1 Nat.one_pos
  obtain ⟨v, hv⟩ := (hR offered rfl).2 (some offer) 1 0 Nat.one_pos rfl rfl hlisteners
  rw [if_neg hne] at hv
  exact ⟨L, t, R, u, v, hfinish, hL, hresponses, hu, hv⟩

end Play
end Parley

import Mathlib.Data.List.ReduceOption
import Parley.Proofs.Guard
import Parley.Proofs.Plain
import Parley.Proofs.Walk

/-
Hops to a line.

From a key to the line that is found there lead hops: a jump leads on, and so does a
condition, to one key or another as its check decides.  Titles are resolved at every hop.
Where the chain of hops from a key ends, looking for the line under that key comes to this
and nothing else (`follows_of_hops`): the conditions on the chain are checked, each once and
in order, every check in the session that the one before left; and then the line of the node
where the chain ends is built.

Checks may call host methods, so what a later condition sees can depend on an earlier one,
and a chain can pass one node several times.  That is why a chain is stated with the sessions
in between (`Hops`), and the induction is on the chain.  A chain is finite, and a search that
ends has one (`exists_hops`).
-/

namespace Parley

/-- The document with other changes in its nodes. -/
def Node.rechanged (g : Expression → Expression) (n : Node) : Node :=
  { n with mutation := n.mutation.map g }

def Resource.rechanged (g : Expression → Expression) (r : Resource) : Resource :=
  { r with lines := r.lines.map fun kn => (kn.1, kn.2.rechanged g) }

def Line.rechanged (g : Expression → Expression) (l : Line) : Line :=
  { l with mutation := l.mutation.map g }

/-- Where a chain of hops ends. -/
inductive Landing where
  /-- The key is empty or has no node. -/
  | nowhere
  /-- A node under a key, no condition and no jump. -/
  | node (key : String) (n : Node)
  /-- A check that failed. -/
  | fault (f : Fault)

/-- How checking the conditions on a chain ends. -/
def Landing.verdict : Landing → Except Fault Unit
  | .fault f => .error f
  | _ => .ok ()

/-- What is left to do where a chain ends. -/
def Landing.outcome (ask : Ask) (r : Resource) (t : Session) :
    Landing → Option (Except Fault (Option Line) × Session)
  | .nowhere => some (.ok none, t)
  | .node _ n => ((some <$> Play.build ask r n) t).finish
  | .fault f => some (.error f, t)

section

variable (g : Expression → Expression)

@[simp] theorem Node.kind_rechanged (n : Node) : (n.rechanged g).kind = n.kind := rfl

@[simp] theorem Node.condition_rechanged (n : Node) :
    (n.rechanged g).condition = n.condition := rfl

theorem Resource.node?_rechanged (r : Resource) (key : String) :
    (r.rechanged g).node? key = (r.node? key).map (Node.rechanged g) := by
  unfold node?
  split
  · rfl
  · exact lookup_map (Node.rechanged g) r.lines key

theorem Line.ofNode_rechanged (n : Node) :
    Line.ofNode (n.rechanged g) = (Line.ofNode n).rechanged g := by
  cases hkind : n.kind <;> simp [Line.ofNode, Node.rechanged, Line.rechanged, hkind]

theorem Line.attach_rechanged (l : Line) (rs : Option (List Response)) :
    (l.rechanged g).attach rs = (l.attach rs).rechanged g := by
  match rs with
  | none => rfl
  | some [] => rfl
  | some [_] => rfl
  | some (_ :: _ :: _) => rfl

end

namespace Play

/-- A chain of hops from a key, with the sessions in which it begins and ends.  The list holds
the condition of every hop, if it has one. -/
inductive Hops (ask : Ask) (r : Resource) :
    String → Session → List (Option Expression) → Landing → Session → Prop
  | nowhere {key : String} {s : Session} :
    r.node? (r.resolveKey key) = none → Hops ask r key s [] .nowhere s
  | node {key : String} {n : Node} {s : Session} :
    r.node? (r.resolveKey key) = some n → n.kind ≠ .condition → n.kind ≠ .goto →
      Hops ask r key s [] (.node (r.resolveKey key) n) s
  | jump {key : String} {n : Node} {s t : Session} {hops : List (Option Expression)}
      {landing : Landing} : r.node? (r.resolveKey key) = some n →
    n.kind = .goto ∨ n.kind = .condition ∧ n.condition = none →
      Hops ask r n.nextId s hops landing t → Hops ask r key s (none :: hops) landing t
  | branch {key : String} {n : Node} {e : Expression} {holds : Bool} {s u t : Session}
      {hops : List (Option Expression)} {landing : Landing} :
    r.node? (r.resolveKey key) = some n → n.kind = .condition → n.condition = some e →
      (check ask (some e) s).finish = some (.ok holds, u) →
        Hops ask r (if holds then n.nextId else n.nextConditionalId) u hops landing t →
          Hops ask r key s (some e :: hops) landing t
  | fault {key : String} {n : Node} {e : Expression} {f : Fault} {s t : Session} :
    r.node? (r.resolveKey key) = some n → n.kind = .condition → n.condition = some e →
      (check ask (some e) s).finish = some (.error f, t) →
        Hops ask r key s [some e] (.fault f) t

/-- Checks conditions one after another. -/
def checks (ask : Ask) : List Expression → Play Unit
  | [] => pure ()
  | e :: es => do
    let _ ← check ask (some e)
    checks ask es

section

variable {ask : Ask} {r : Resource} {key : String} {n : Node}

theorem lineAt_succ (ask : Ask) (r : Resource) (fuel : Nat) (key : String) :
    lineAt ask r (fuel + 1) key = visit ask r key >>= Sum.elim (lineAt ask r fuel) pure := by
  refine congrArg (visit ask r key >>= ·) (funext fun v => ?_)
  cases v with
  | inl key => rfl
  | inr l => rfl

theorem lineAt_of_none (hn : r.node? (r.resolveKey key) = none) (fuel : Nat) :
    lineAt ask r (fuel + 1) key = pure none := by
  rw [lineAt_succ, visit, hn]
  rfl

theorem lineAt_of_node (hn : r.node? (r.resolveKey key) = some n) (hc : n.kind ≠ .condition)
    (hg : n.kind ≠ .goto) (fuel : Nat) :
    lineAt ask r (fuel + 1) key = some <$> build ask r n := by
  rw [lineAt_succ, visit, hn]
  cases hkind : n.kind with
  | condition => exact absurd hkind hc
  | goto => exact absurd hkind hg
  | _ => simp

theorem lineAt_of_jump (hn : r.node? (r.resolveKey key) = some n)
    (hjump : n.kind = .goto ∨ n.kind = .condition ∧ n.condition = none) (fuel : Nat) :
    lineAt ask r (fuel + 1) key = lineAt ask r fuel n.nextId := by
  rw [lineAt_succ, visit, hn]
  rcases hjump with hkind | ⟨hkind, hcondition⟩
  · simp [hkind]
  · simp [hkind, hcondition, check]

theorem lineAt_of_branch {e : Expression} (hn : r.node? (r.resolveKey key) = some n)
    (hkind : n.kind = .condition) (he : n.condition = some e) (fuel : Nat) :
    lineAt ask r (fuel + 1) key = check ask (some e) >>= fun holds =>
      lineAt ask r fuel (if holds then n.nextId else n.nextConditionalId) := by
  rw [lineAt_succ, visit, hn]
  simp only [hkind, he, bind_assoc]
  refine congrArg (check ask (some e) >>= ·) (funext fun holds => ?_)
  cases holds <;> rfl

end

variable {ask : Ask} {r : Resource} {key : String} {s t t' : Session}
  {hops hops' : List (Option Expression)} {landing landing' : Landing}

/-- There is one chain from a key in a session. -/
theorem Hops.unique (h : Hops ask r key s hops landing t)
    (h' : Hops ask r key s hops' landing' t') : hops' = hops ∧ landing' = landing ∧ t' = t := by
  induction h generalizing hops' landing' t' with
  | nowhere hn =>
    cases h' with
    | nowhere => exact ⟨rfl, rfl, rfl⟩
    | _ => simp_all
  | node hn hc hg =>
    cases h' with
    | node hn' =>
      cases hn.symm.trans hn'
      exact ⟨rfl, rfl, rfl⟩
    | _ => simp_all
  | jump hn hjump hrest ih =>
    cases h' with
    | jump hn' hjump' hrest' =>
      cases hn.symm.trans hn'
      obtain ⟨rfl, rfl, rfl⟩ := ih hrest'
      exact ⟨rfl, rfl, rfl⟩
    | _ => simp_all
  | branch hn hkind he hcheck hrest ih =>
    cases h' with
    | branch hn' hkind' he' hcheck' hrest' =>
      cases hn.symm.trans hn'
      cases he.symm.trans he'
      cases hcheck.symm.trans hcheck'
      obtain ⟨rfl, rfl, rfl⟩ := ih hrest'
      exact ⟨rfl, rfl, rfl⟩
    | _ => simp_all
  | fault hn hkind he hcheck =>
    cases h' with
    | fault hn' hkind' he' hcheck' =>
      cases hn.symm.trans hn'
      cases he.symm.trans he'
      cases hcheck.symm.trans hcheck'
      exact ⟨rfl, rfl, rfl⟩
    | _ => simp_all

/-- The conditions on the chain, checked in order, end as the chain does. -/
theorem Hops.finish_checks (h : Hops ask r key s hops landing t) :
    (checks ask hops.reduceOption s).finish = some (landing.verdict, t) := by
  induction h with
  | nowhere => rfl
  | node => rfl
  | jump _ _ _ ih => exact ih
  | @branch key n e holds s u t hops landing hn hkind he hcheck hrest ih =>
    show ((check ask (some e) >>= fun _ => checks ask hops.reduceOption) s).finish = _
    rw [Act.finish_bind, hcheck]
    exact ih
  | @fault key n e f s t hn hkind he hcheck =>
    show ((check ask (some e) >>= fun _ => checks ask []) s).finish = _
    rw [Act.finish_bind, hcheck]
    rfl

/-- Looking for a line does what is left to do where the chain ends. -/
theorem Hops.finish_lineAt (h : Hops ask r key s hops landing t) {fuel : Nat}
    (hfuel : hops.length < fuel) :
    (lineAt ask r fuel key s).finish = landing.outcome ask r t := by
  induction h generalizing fuel with
  | nowhere hn =>
    obtain ⟨fuel, rfl⟩ := Nat.exists_eq_add_one.mpr hfuel
    rw [lineAt_of_none hn]
    rfl
  | node hn hc hg =>
    obtain ⟨fuel, rfl⟩ := Nat.exists_eq_add_one.mpr hfuel
    rw [lineAt_of_node hn hc hg]
    rfl
  | jump hn hjump hrest ih =>
    obtain ⟨fuel, rfl⟩ := Nat.exists_eq_add_one.mpr (Nat.zero_lt_of_lt hfuel)
    rw [lineAt_of_jump hn hjump]
    exact ih (Nat.lt_of_succ_lt_succ hfuel)
  | branch hn hkind he hcheck hrest ih =>
    obtain ⟨fuel, rfl⟩ := Nat.exists_eq_add_one.mpr (Nat.zero_lt_of_lt hfuel)
    rw [lineAt_of_branch hn hkind he, Act.finish_bind, hcheck]
    exact ih (Nat.lt_of_succ_lt_succ hfuel)
  | fault hn hkind he hcheck =>
    obtain ⟨fuel, rfl⟩ := Nat.exists_eq_add_one.mpr (Nat.zero_lt_of_lt hfuel)
    rw [lineAt_of_branch hn hkind he, Act.finish_bind, hcheck]
    rfl

/-- Whenever looking for a line ends, there is a chain of hops that says how. -/
theorem exists_hops {fuel : Nat} {res : Except Fault (Option Line)} {w : Session}
    (h : (lineAt ask r fuel key s).finish = some (res, w)) :
    ∃ hops landing t, Hops ask r key s hops landing t ∧
      landing.outcome ask r t = some (res, w) := by
  induction fuel generalizing key s with
  | zero => cases h
  | succ fuel ih =>
    cases hn : r.node? (r.resolveKey key) with
    | none =>
      rw [lineAt_of_none hn] at h
      exact ⟨[], .nowhere, s, .nowhere hn, h⟩
    | some n =>
      by_cases hjump : n.kind = .goto ∨ n.kind = .condition ∧ n.condition = none
      · rw [lineAt_of_jump hn hjump] at h
        obtain ⟨hops, landing, t, hhops, hout⟩ := ih h
        exact ⟨none :: hops, landing, t, .jump hn hjump hhops, hout⟩
      · rw [not_or, not_and] at hjump
        by_cases hkind : n.kind = .condition
        · obtain ⟨e, he⟩ := Option.ne_none_iff_exists'.mp (hjump.2 hkind)
          rw [lineAt_of_branch hn hkind he] at h
          rcases Act.finish_bind_eq_some h with ⟨holds, u, hcheck, hrest⟩ | ⟨f, hcheck, rfl⟩
          · obtain ⟨hops, landing, t, hhops, hout⟩ := ih hrest
            exact ⟨some e :: hops, landing, t, .branch hn hkind he hcheck hhops, hout⟩
          · exact ⟨[some e], .fault f, w, .fault hn hkind he hcheck, rfl⟩
        · rw [lineAt_of_node hn hkind hjump.1] at h
          exact ⟨[], .node _ n, s, .node hn hkind hjump.1, h⟩

/-! ## Changes on the way -/

section

variable (ask : Ask) (r : Resource) (g : Expression → Expression)

theorem responses_rechanged (keys : List String) :
    responses ask (r.rechanged g) keys = responses ask r keys := by
  unfold responses
  refine congrArg (Act.gather · keys) (funext fun key => ?_)
  rw [Resource.node?_rechanged]
  cases r.node? key <;> rfl

theorem responsesUnder_rechanged (key : String) :
    responsesUnder ask (r.rechanged g) key = responsesUnder ask r key := by
  unfold responsesUnder
  rw [Resource.node?_rechanged]
  cases r.node? key with
  | none => rfl
  | some n =>
    simp only [Option.map_some, Node.kind_rechanged]
    rw [← responses_rechanged ask r g n.responses]
    rfl

theorem lineText_rechanged (n : Node) (l : Line) :
    lineText ask (n.rechanged g) (l.rechanged g) = Line.rechanged g <$> lineText ask n l := by
  unfold lineText
  show (if n.kind == .dialogue && !n.replacements.isEmpty then _ else _) = _ <$>
    (if n.kind == .dialogue && !n.replacements.isEmpty then _ else _)
  split
  · rw [map_bind]
    refine congrArg (interpolate ask n.replacements n.text.toList >>= ·) (funext fun text => ?_)
    rw [map_pure]
    rfl
  · rw [map_pure]

theorem build_rechanged (n : Node) :
    build ask (r.rechanged g) (n.rechanged g) = Line.rechanged g <$> build ask r n := by
  unfold build
  rw [Node.kind_rechanged, Line.ofNode_rechanged, lineText_rechanged]
  split
  · show (responses ask (r.rechanged g) n.responses >>= _) = _
    rw [responses_rechanged, map_bind]
    refine congrArg (responses ask r n.responses >>= ·) (funext fun rs => ?_)
    rw [map_pure]
    rfl
  · rw [bind_map_left, map_bind]
    refine congrArg (lineText ask n (Line.ofNode n) >>= ·) (funext fun l => ?_)
    show (responsesUnder ask (r.rechanged g) l.nextId >>= _) = _
    rw [responsesUnder_rechanged, map_bind]
    refine congrArg (responsesUnder ask r l.nextId >>= ·) (funext fun following => ?_)
    rw [map_pure, Line.attach_rechanged]

theorem visit_rechanged (key : String) : visit ask (r.rechanged g) key =
    Sum.map id (Option.map (Line.rechanged g)) <$> visit ask r key := by
  have hkey : (r.rechanged g).resolveKey key = r.resolveKey key := rfl
  unfold visit
  rw [Resource.node?_rechanged, hkey]
  cases hn : r.node? (r.resolveKey key) with
  | none => rfl
  | some n =>
    simp only [Option.map_some, Node.kind_rechanged, Node.condition_rechanged]
    cases hkind : n.kind with
    | condition =>
      simp only [map_bind]
      refine congrArg (check ask n.condition >>= ·) (funext fun holds => ?_)
      cases holds <;> rfl
    | goto => rfl
    | _ => simp [build_rechanged]

/-- No change is made in looking for a line: with any other changes in the nodes the same run
gives the same line, but for the change in it. -/
theorem lineAt_rechanged (fuel : Nat) (key : String) : lineAt ask (r.rechanged g) fuel key =
    Option.map (Line.rechanged g) <$> lineAt ask r fuel key := by
  induction fuel generalizing key with
  | zero => rfl
  | succ fuel ih =>
    rw [lineAt_succ, lineAt_succ, visit_rechanged, bind_map_left, map_bind]
    refine congrArg (visit ask r key >>= ·) (funext fun v => ?_)
    cases v with
    | inl key => exact ih key
    | inr l => rw [Sum.map_inr, Sum.elim_inr, Sum.elim_inr, map_pure]

end

/-! ## The line under a key -/

/-- Conditions without calls leave no trace of the chain: it ends in the session in which it
begins. -/
theorem Hops.eq_of_plain (h : Hops ask r key s hops landing t)
    (hplain : ∀ e ∈ hops.reduceOption, e.Plain) : t = s := by
  have hleaves {e : Expression} {s u : Session} {o : Except Fault Bool} (he : e.Plain)
      (hcheck : (check ask (some e) s).finish = some (o, u)) : u = s := by
    obtain ⟨res, hres⟩ := reads_check ask (c := some e) (fun _ he' => Option.some.inj he' ▸ he) s
    rw [hres s rfl] at hcheck
    cases res <;> cases hcheck <;> rfl
  induction h with
  | nowhere => rfl
  | node => rfl
  | jump _ _ _ ih => exact ih hplain
  | branch hn hkind he hcheck hrest ih =>
    rw [List.reduceOption_cons_of_some, List.forall_mem_cons] at hplain
    rw [ih hplain.2, hleaves hplain.1 hcheck]
  | fault hn hkind he hcheck => exact hleaves (hplain _ List.mem_cons_self) hcheck

theorem Hops.node?_of_node {last : String} {n : Node} (h : Hops ask r key s hops (.node last n) t) :
    r.node? last = some n ∧ n.kind ≠ .condition ∧ n.kind ≠ .goto := by
  generalize hlanding : Landing.node last n = landing at h
  induction h with
  | nowhere => cases hlanding
  | node hn hc hg =>
    cases hlanding
    exact ⟨hn, hc, hg⟩
  | jump _ _ _ ih => exact ih hlanding
  | branch _ _ _ _ _ ih => exact ih hlanding
  | fault => cases hlanding

/-- Looking for a line follows the hops on a chain and does no more. -/
structure Follows (ask : Ask) (r : Resource) (key : String) (s : Session)
    (hops : List (Option Expression)) (landing : Landing) (t : Session) : Prop where
  only : ∀ hops' landing' t', Hops ask r key s hops' landing' t' →
    hops' = hops ∧ landing' = landing ∧ t' = t
  /-- The session in which the line is built, and the first fault, are those of checking the
  conditions on the chain, each once and in order. -/
  checked : (checks ask hops.reduceOption s).finish = some (landing.verdict, t)
  nowhere : ∀ fuel, hops.length < fuel →
    ((∃ w, (lineAt ask r fuel key s).finish = some (.ok none, w)) ↔ landing = .nowhere)
  ended : landing = .nowhere → ∀ fuel, hops.length < fuel →
    (lineAt ask r fuel key s).finish = some (.ok none, t)
  fault : ∀ f, landing = .fault f → ∀ fuel, hops.length < fuel →
    (lineAt ask r fuel key s).finish = some (.error f, t)
  /-- Otherwise it is the same as to look under the key of the node where the chain ends, in the
  session that the checks left. -/
  reached : ∀ last n, landing = .node last n → r.titles.lookup last = none →
    ∀ fuel fuel', hops.length < fuel → 0 < fuel' →
      (lineAt ask r fuel key s).finish = (lineAt ask r fuel' last t).finish
  /-- No change is made: all others in their place would give the same run. -/
  unchanged : ∀ g fuel, lineAt ask (r.rechanged g) fuel key =
    Option.map (Line.rechanged g) <$> lineAt ask r fuel key
  /-- Chains without calls that end at one node give the same. -/
  alike : ∀ last n key' hops' last' t', landing = .node last n →
    Hops ask r key' s hops' (.node last' n) t' →
      (∀ e ∈ hops.reduceOption, e.Plain) → (∀ e ∈ hops'.reduceOption, e.Plain) →
        ∀ fuel fuel', hops.length < fuel → hops'.length < fuel' →
          (lineAt ask r fuel key s).finish = (lineAt ask r fuel' key' s).finish

theorem follows_of_hops (h : Hops ask r key s hops landing t) :
    Follows ask r key s hops landing t where
  only _ _ _ := h.unique
  checked := h.finish_checks
  nowhere fuel hfuel := by
    rw [h.finish_lineAt hfuel]
    cases landing with
    | nowhere => simp [Landing.outcome]
    | fault f => simp [Landing.outcome]
    | node last n =>
      refine ⟨fun ⟨w, hw⟩ => ?_, nofun⟩
      rw [Landing.outcome, map_eq_pure_bind] at hw
      rcases Act.finish_bind_eq_some hw with ⟨l, u, -, hsome⟩ | ⟨f, -, hf⟩
      · cases hsome
      · cases hf
  ended hlanding fuel hfuel := by
    rw [h.finish_lineAt hfuel, hlanding]
    rfl
  fault f hlanding fuel hfuel := by
    rw [h.finish_lineAt hfuel, hlanding]
    rfl
  reached last n hlanding htitle fuel fuel' hfuel hfuel' := by
    subst hlanding
    obtain ⟨hn, hc, hg⟩ := h.node?_of_node
    rw [← Resource.resolveKey_of_not_title htitle] at hn
    obtain ⟨fuel', rfl⟩ := Nat.exists_eq_add_one.mpr hfuel'
    rw [h.finish_lineAt hfuel, lineAt_of_node hn hc hg]
    rfl
  unchanged g fuel := lineAt_rechanged ask r g fuel key
  alike last n key' hops' last' t' hlanding h' hplain hplain' fuel fuel' hfuel hfuel' := by
    obtain rfl := h.eq_of_plain hplain
    obtain rfl := h'.eq_of_plain hplain'
    rw [h.finish_lineAt hfuel, h'.finish_lineAt hfuel', hlanding]
    rfl

/-- Tells whether there was a knock before. -/
def knock : Code := fun _ =>
  .read "knocked" fun v => .write (.text "knocked") (.bool true) (.give v)

def door (knocked : Bool) : Session where
  bindings :=
    { hosts := [{ values := [(.text "knocked", .bool knocked)],
                  methods := [("knock", .routine knock)] }],
      active := [0] }

def knocking : Expression where
  lhsKind := .function
  lhsFunction := some "knock"

def welcome : Node := { kind := .dialogue, text := "Come in." }

/-- A door where one knocks until it opens. -/
def doorstep : Resource where
  titles := [("Door", "knock")]
  lines := [("knock", { kind := .goto, nextId := "opens" }),
    ("opens", { kind := .condition, condition := some knocking, nextId := "welcome",
                nextConditionalId := "Door" }),
    ("welcome", welcome)]

theorem follows_of_hops_doorstep : Follows refused doorstep "Door" (door false)
    [none, some knocking, none, some knocking] (.node "welcome" welcome) (door true) := by
  have hclosed : (check refused (some knocking) (door false)).finish =
      some (.ok false, door true) := rfl
  have hopen : (check refused (some knocking) (door true)).finish =
      some (.ok true, door true) := rfl
  have hwelcome : Hops refused doorstep "welcome" (door true) [] (.node "welcome" welcome)
      (door true) := .node rfl nofun nofun
  have hagain : Hops refused doorstep "Door" (door true) [none, some knocking]
      (.node "welcome" welcome) (door true) :=
    .jump rfl (.inl rfl) (.branch rfl rfl rfl hopen hwelcome)
  exact follows_of_hops (.jump rfl (.inl rfl) (.branch rfl rfl rfl hclosed hagain))

end Play
end Parley

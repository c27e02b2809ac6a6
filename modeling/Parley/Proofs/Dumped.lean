import Parley.Document.Reading
import Parley.Document.Writing

/-
What a dump makes of the values in a document.

Most fields of a document hold texts, words and records of their own.  The tokens of an
expression and of a replacement are values of any kind, and a host may have left a line in
one.  A dump writes such a line out as its fields (`Value.dumped`), so what is read from a
dump is the dumped document.

Dumping twice is dumping once (`Value.dumped_dumped`), and a dumped document reads as what a
dump makes of the document it was (`Resource.commutes_check`).  A value without lines is its
own dump, and so is what is read from it.
-/

namespace Parley

/-! ## Dumping twice -/

namespace Value

theorem dumpedAll_eq (xs : List Value) : dumpedAll xs = xs.map dumped := by
  induction xs with
  | nil => rfl
  | cons x xs ih => rw [dumpedAll, ih, List.map_cons]

theorem dumpedEntries_eq (es : Table) : dumpedEntries es = es.map fun e => (e.1, e.2.dumped) := by
  induction es with
  | nil => rfl
  | cons e es ih => rw [dumpedEntries, ih, List.map_cons]

theorem dumped_record (fields : List (String × Value)) :
    (record fields).dumped = .record (fields.map fun f => (f.1, f.2.dumped)) := by
  rw [record, dumped, dumpedEntries_eq, record, List.map_map, List.map_map]
  rfl

theorem dumped_ofOption (o : Option String) : (ofOption o).dumped = ofOption o := by
  cases o <;> rfl

end Value

/-- What is shown of a line is texts, of which a dump makes nothing else. -/
theorem Shown.dumped_toValue (l : Shown) : l.toValue.dumped = l.toValue := by
  have hresponses : Value.dumpedAll (l.responses.map Response.toValue) =
      l.responses.map Response.toValue := by
    rw [Value.dumpedAll_eq, List.map_map]
    rfl
  rw [toValue, record, Value.dumped_record]
  simp only [List.map_cons, List.map_nil, Value.dumped, Value.dumped_ofOption, hresponses]

namespace Value

mutual

@[simp] theorem dumped_dumped : (v : Value) → v.dumped.dumped = v.dumped
  | .line l => l.dumped_toValue
  | .list xs => congrArg Value.list (dumpedAll_dumpedAll xs)
  | .tuple xs => congrArg Value.tuple (dumpedAll_dumpedAll xs)
  | .set xs => congrArg Value.set (dumpedAll_dumpedAll xs)
  | .dict es => congrArg Value.dict (dumpedEntries_dumpedEntries es)
  | .null | .bool _ | .int _ | .float _ | .nan _ | .text _ | .callable _ => rfl

@[simp] theorem dumpedAll_dumpedAll : (xs : List Value) →
    dumpedAll (dumpedAll xs) = dumpedAll xs
  | [] => rfl
  | x :: xs => by
    rw [dumpedAll, dumpedAll, dumped_dumped x, dumpedAll_dumpedAll xs]

theorem dumpedEntries_dumpedEntries : (es : List (Value × Value)) →
    dumpedEntries (dumpedEntries es) = dumpedEntries es
  | [] => rfl
  | (k, v) :: es => by
    rw [dumpedEntries, dumpedEntries, dumped_dumped v, dumpedEntries_dumpedEntries es]

end

theorem dumped_eq_null {v : Value} (h : v.dumped = .null) : v = .null := by
  cases v with
  | null => rfl
  | _ => cases h

end Value

theorem Table.find?_dumpedEntries (t : Table) (k : Value) :
    Table.find? (Value.dumpedEntries t) k = (t.find? k).map Value.dumped := by
  rw [Value.dumpedEntries_eq]
  induction t with
  | nil => rfl
  | cons e t ih =>
    simp only [Table.find?, List.map_cons, List.find?_cons] at ih ⊢
    cases k.alike e.1 with
    | true => rfl
    | false => exact ih

/-! ## What dumps of documents hold -/

def Expression.dumped (e : Expression) : Expression :=
  { e with
    lhsArgs := Value.dumpedAll e.lhsArgs
    lhs := e.lhs.dumped
    rhsArgs := Value.dumpedAll e.rhsArgs
    rhs := e.rhs.dumped }

def Replacement.dumped (r : Replacement) : Replacement :=
  { r with value := r.value.dumped, args := Value.dumpedAll r.args }

def Node.dumped (n : Node) : Node :=
  { n with
    condition := n.condition.map Expression.dumped
    mutation := n.mutation.map Expression.dumped
    replacements := n.replacements.map Replacement.dumped }

def Resource.dumped (r : Resource) : Resource :=
  { r with lines := r.lines.map fun l => (l.1, l.2.dumped) }

def Line.dumped (l : Line) : Line := { l with mutation := l.mutation.map Expression.dumped }

theorem Expression.toValue_dumped (e : Expression) : e.dumped.toValue = e.toValue := by
  simp only [toValue, dumped, Value.dumped_dumped, Value.dumpedAll_dumpedAll]

theorem Expression.optionToValue_dumped (e : Option Expression) :
    optionToValue (e.map dumped) = optionToValue e := by
  cases e with
  | none => rfl
  | some e => exact e.toValue_dumped

theorem Replacement.toValue_dumped (r : Replacement) : r.dumped.toValue = r.toValue := by
  simp only [toValue, dumped, Value.dumped_dumped, Value.dumpedAll_dumpedAll]

theorem Node.toValue_dumped (n : Node) : n.dumped.toValue = n.toValue := by
  have hreplacements : (n.replacements.map Replacement.dumped).map Replacement.toValue =
      n.replacements.map Replacement.toValue := by
    rw [List.map_map]
    exact List.map_congr_left fun r _ => r.toValue_dumped
  simp only [toValue, dumped, Expression.optionToValue_dumped, hreplacements]

theorem Resource.toValue_dumped (r : Resource) : r.dumped.toValue = r.toValue := by
  have hlines : (r.lines.map fun l => (l.1, l.2.dumped)).map (fun l => (l.1, l.2.toValue)) =
      r.lines.map fun l => (l.1, l.2.toValue) := by
    rw [List.map_map]
    exact List.map_congr_left fun l _ => congrArg (l.1, ·) l.2.toValue_dumped
  simp only [toValue, dumped, hlines]

theorem Line.toValue_dumped (l : Line) : l.dumped.toValue = l.toValue := by
  simp only [toValue, dumped, Expression.optionToValue_dumped]

/-! ## Reading what was dumped -/

namespace Checked

variable {α β : Type}

theorem ap_eq_ok {f : Checked (α → β)} {x : Checked α} {b : β} (h : f.ap x = ok b) :
    ∃ g a, f = ok g ∧ x = ok a ∧ g a = b := by
  cases f with
  | error e => cases x <;> cases h
  | ok g =>
    cases x with
    | error e => cases h
    | ok a =>
      cases h
      exact ⟨g, a, rfl, rfl, rfl⟩

theorem map_eq_ok {f : α → β} {x : Checked α} {b : β} (h : x.map f = ok b) :
    ∃ a, x = ok a ∧ f a = b := by
  cases x with
  | error e => cases h
  | ok a =>
    cases h
    exact ⟨a, rfl, rfl⟩

theorem under_eq_ok {step : PathStep} {x : Checked α} {a : α} (h : x.under step = ok a) :
    x = ok a := by
  cases x with
  | error e => cases h
  | ok a' => exact h

@[simp] theorem ap_ok (f : α → β) (a : α) : (ok f).ap (ok a) = ok (f a) := rfl

@[simp] theorem map_ok (f : α → β) (a : α) : (ok a).map f = ok (f a) := rfl

@[simp] theorem under_ok (step : PathStep) (a : α) : (ok a).under step = ok a := rfl

/-- If the one is accepted so is the other, with a result that is related. -/
def Follows (related : α → α → Prop) (x x' : Checked α) : Prop :=
  ∀ a, x = ok a → ∃ a', x' = ok a' ∧ related a a'

theorem follows_ok {related : α → α → Prop} {a a' : α} (h : related a a') :
    Follows related (ok a) (ok a') := by
  intro b hb
  cases hb
  exact ⟨a', rfl, h⟩

/-- One more field: what is built of the others takes it as it is, or dumped. -/
theorem Follows.ap {f f' : Checked (α → β)} {x x' : Checked α} {dump : α → α}
    {related : β → β → Prop}
    (hf : Follows (fun g g' => ∀ a, related (g a) (g' (dump a))) f f')
    (hx : ∀ a, x = ok a → x' = ok (dump a)) : Follows related (f.ap x) (f'.ap x') := by
  intro b hb
  obtain ⟨g, a, hg, ha, rfl⟩ := ap_eq_ok hb
  obtain ⟨g', hg', hrelated⟩ := hf g hg
  exact ⟨g' (dump a), by rw [hg', hx a ha, ap_ok], hrelated a⟩

end Checked

namespace Reader

variable {α : Type} {read : Reader α} {dump : α → α} {default : α} {t : Table} {name : String}

/-- What is read from a dumped value is what a dump makes of what was read. -/
def Commutes (read : Reader α) (dump : α → α) : Prop :=
  ∀ v a, read v = Checked.ok a → read v.dumped = Checked.ok (dump a)

theorem commutes_any : Commutes any Value.dumped := by
  intro v a h
  cases h
  rfl

theorem commutes_text : Commutes text id := by
  intro v a h
  cases v with
  | text s => exact h
  | _ => cases h

theorem commutes_word (ofWord? : String → Option α) : Commutes (word ofWord?) id := by
  intro v a h
  cases v with
  | text s => exact h
  | _ => cases h

theorem optional_of_ne {v : Value} (hv : v ≠ .null) : optional read v = (read v).map some := by
  cases v with
  | null => exact absurd rfl hv
  | _ => rfl

theorem orElse_of_ne {v : Value} (hv : v ≠ .null) : orElse default read v = read v := by
  cases v with
  | null => exact absurd rfl hv
  | _ => rfl

theorem Commutes.optional (h : Commutes read dump) :
    Commutes (optional read) (Option.map dump) := by
  intro v a hv
  by_cases hnull : v = .null
  · subst hnull
    cases hv
    rfl
  · rw [optional_of_ne hnull] at hv
    obtain ⟨b, hb, rfl⟩ := Checked.map_eq_ok hv
    rw [optional_of_ne (mt Value.dumped_eq_null hnull), h v b hb]
    rfl

theorem Commutes.orElse (h : Commutes read dump) (hdefault : dump default = default) :
    Commutes (orElse default read) dump := by
  intro v a hv
  by_cases hnull : v = .null
  · subst hnull
    cases hv
    exact congrArg Checked.ok hdefault.symm
  · rw [orElse_of_ne hnull] at hv
    rw [orElse_of_ne (mt Value.dumped_eq_null hnull), h v a hv]

theorem Commutes.each (h : Commutes read dump) {i : Nat} {vs : List Value} {as : List α}
    (hvs : Checked.each read i vs = Checked.ok as) :
    Checked.each read i (Value.dumpedAll vs) = Checked.ok (as.map dump) := by
  induction vs generalizing i as with
  | nil =>
    cases hvs
    rfl
  | cons v vs ih =>
    obtain ⟨_, bs, hv, hbs, rfl⟩ := Checked.ap_eq_ok hvs
    obtain ⟨b, hb, rfl⟩ := Checked.map_eq_ok hv
    rw [Value.dumpedAll, Checked.each, h v b (Checked.under_eq_ok hb), ih hbs]
    rfl

theorem Commutes.list (h : Commutes read dump) : Commutes (list read) (List.map dump) := by
  intro v as hv
  cases v with
  | list xs | tuple xs | set xs => exact h.each hv
  | _ => cases hv

theorem Commutes.dict (h : Commutes read dump) :
    Commutes (dict read) (List.map fun e => (e.1, dump e.2)) := by
  intro v es hv
  cases v with
  | dict entries =>
    have hentries : Reader.entries read entries = Checked.ok es := hv
    show Reader.entries read (Value.dumpedEntries entries) = _
    clear hv
    induction entries generalizing es with
    | nil =>
      cases hentries
      rfl
    | cons e entries ih =>
      obtain ⟨_, rest, hfirst, hrest, rfl⟩ := Checked.ap_eq_ok hentries
      obtain ⟨_, hpair, rfl⟩ := Checked.map_eq_ok hfirst
      obtain ⟨_, a, hkey, ha, rfl⟩ := Checked.ap_eq_ok hpair
      obtain ⟨k, hk, rfl⟩ := Checked.map_eq_ok hkey
      rw [Value.dumpedEntries, Reader.entries, ih _ hrest, hk, h _ a (Checked.under_eq_ok ha)]
      rfl
  | _ => cases hv

/-- A record is read from a dumped mapping if its fields are. -/
theorem commutes_model {read : Table → Checked α}
    (h : ∀ t, Checked.Follows (fun a a' => a' = dump a) (read t) (read (Value.dumpedEntries t))) :
    Commutes (model read) dump := by
  intro v a hv
  cases v with
  | dict t =>
    obtain ⟨_, hdumped, rfl⟩ := h t a hv
    exact hdumped
  | _ => cases hv

theorem Commutes.field (h : Commutes read dump) {a : α}
    (ha : field t name read = Checked.ok a) :
    field (Value.dumpedEntries t) name read = Checked.ok (dump a) := by
  unfold Reader.field at ha ⊢
  rw [Table.find?_dumpedEntries]
  cases hv : t.find? (.text name) with
  | none =>
    rw [hv] at ha
    cases ha
  | some v =>
    rw [hv] at ha
    simp only [Option.map_some, h v a (Checked.under_eq_ok ha), Checked.under_ok]

theorem Commutes.fieldOr (h : Commutes read dump) (hdefault : dump default = default) {a : α}
    (ha : fieldOr t name default read = Checked.ok a) :
    fieldOr (Value.dumpedEntries t) name default read = Checked.ok (dump a) := by
  unfold Reader.fieldOr at ha ⊢
  rw [Table.find?_dumpedEntries]
  cases hv : t.find? (.text name) with
  | none =>
    rw [hv] at ha
    cases ha
    exact congrArg Checked.ok hdefault.symm
  | some v =>
    rw [hv] at ha
    simp only [Option.map_some, h v a (Checked.under_eq_ok ha), Checked.under_ok]

end Reader

open Reader

theorem Expression.commutes_check : Commutes Expression.check Expression.dumped := by
  refine commutes_model fun t => ?_
  -- the fields, from the one that is read last
  refine .ap ?_ fun _ => commutes_any.fieldOr rfl
  refine .ap ?_ fun _ => commutes_any.list.fieldOr rfl
  refine .ap ?_ fun _ => commutes_text.optional.fieldOr rfl
  refine .ap ?_ fun _ => (commutes_word _).optional.fieldOr rfl
  refine .ap ?_ fun _ => commutes_text.optional.fieldOr rfl
  refine .ap ?_ fun _ => commutes_any.fieldOr rfl
  refine .ap ?_ fun _ => commutes_any.list.fieldOr rfl
  refine .ap ?_ fun _ => commutes_text.optional.fieldOr rfl
  refine .ap ?_ fun _ => (commutes_word _).fieldOr rfl
  refine Checked.follows_ok ?_
  intros
  simp [dumped, Value.dumpedAll_eq]

theorem Replacement.commutes_check : Commutes Replacement.check Replacement.dumped := by
  refine commutes_model fun t => ?_
  refine .ap ?_ fun _ => commutes_any.list.fieldOr rfl
  refine .ap ?_ fun _ => commutes_text.optional.fieldOr rfl
  refine .ap ?_ fun _ => commutes_text.fieldOr rfl
  refine .ap ?_ fun _ => commutes_any.fieldOr rfl
  refine .ap ?_ fun _ => (commutes_word _).fieldOr rfl
  refine Checked.follows_ok ?_
  intros
  simp [dumped, Value.dumpedAll_eq]

theorem Node.commutes_check : Commutes Node.check Node.dumped := by
  have htext : Commutes (orElse "" Reader.text) id := commutes_text.orElse rfl
  have hexpression : Commutes (optional (model Expression.read)) (Option.map Expression.dumped) :=
    Expression.commutes_check.optional
  have hreplacements : Commutes (orElse [] (list (model Replacement.read)))
      (List.map Replacement.dumped) := Replacement.commutes_check.list.orElse rfl
  have hresponses : Commutes (orElse [] (list Reader.text)) (List.map id) :=
    commutes_text.list.orElse rfl
  refine commutes_model fun t => ?_
  refine .ap ?_ fun _ => hresponses.fieldOr rfl
  refine .ap ?_ fun _ => hreplacements.fieldOr rfl
  refine .ap ?_ fun _ => hexpression.fieldOr rfl
  refine .ap ?_ fun _ => hexpression.fieldOr rfl
  refine .ap ?_ fun _ => htext.fieldOr rfl
  refine .ap ?_ fun _ => htext.fieldOr rfl
  refine .ap ?_ fun _ => htext.fieldOr rfl
  refine .ap ?_ fun _ => htext.fieldOr rfl
  refine .ap ?_ fun _ => htext.fieldOr rfl
  refine .ap ?_ fun _ => (commutes_word _).field
  refine Checked.follows_ok ?_
  intros
  simp [dumped]

/-- A dumped document is accepted if the document is, as the dumped resource. -/
theorem Resource.commutes_check : Commutes Resource.check Resource.dumped := by
  have hlines : Commutes (dict (model Node.read)) (List.map fun l => (l.1, l.2.dumped)) :=
    Node.commutes_check.dict
  refine commutes_model fun t => ?_
  refine .ap ?_ fun _ => hlines.fieldOr rfl
  refine .ap ?_ fun _ => commutes_text.dict.fieldOr rfl
  refine Checked.follows_ok ?_
  intros
  simp [dumped]

end Parley

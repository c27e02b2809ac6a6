import Parley.Proofs.Canonical

/-
Lines and responses through any run of assignments.

A line or a response that was written out builds one with the same dump, and this goes for
every one there is.  So it does not matter how one was built, from fields under either name
of the next key or from a node, nor what has been assigned to it since.  What is built is
the unit itself, unless the tokens of its change hold lines, which the dump has written out.

What can be assigned is not only what can be written down.  A host also gives kinds of
lines, changes and responses that are instances already, alone or in lists.  So assignment
is described over values of any sort, with a reader for each field that accepts a value or
finds it flawed.  Setting a field from a plain value is the case in which the readers are
those of the documents (`Line.put_eq`, `Response.put_eq`), and a unit that is built from a
node is assigned a change as it stands there (`Line.ofNode_eq_after`).
-/

namespace Parley

open Reader

/-- A record as the fields that can be set and are shown. -/
structure Fields (ρ : Type) where
  Field : Type
  Data : Field → Type
  all : List Field
  /-- The name a field is set by. -/
  name : Field → String
  /-- The key a field is shown under. -/
  key : Field → String
  get : (f : Field) → ρ → Data f
  set : (f : Field) → Data f → ρ → ρ
  write : (f : Field) → Data f → Value
  /-- The title of the record in messages. -/
  title : String
  /-- Attributes that are computed from the fields. -/
  computed : List String
  mem_all : ∀ f, f ∈ all
  name_injective : name.Injective
  key_injective : key.Injective
  get_set : ∀ f x r, get f (set f x r) = x
  get_set_of_ne : ∀ f g x r, g ≠ f → get g (set f x r) = get g r

namespace Fields

variable {ρ κ : Type} (F : Fields ρ)

/-- What each field makes of a value that is assigned to it. -/
abbrev Readers (κ : Type) : Type := (f : F.Field) → κ → Checked (F.Data f)

def find? (name : String) : Option F.Field := F.all.find? (F.name · == name)

/-- Sets an attribute.  A private name is accepted and changes no field. -/
def put (read : F.Readers κ) (r : ρ) (name : String) (v : κ) : Except Fault ρ :=
  if F.computed.contains name then .error (.readOnly F.title name)
  else (Checked.under (.name name) <|
    match F.find? name with
    | some f => (read f v).map fun x => F.set f x r
    | none =>
      if name.startsWith "_" then Checked.ok r
      else Checked.flaw .noSuchField).mapError .invalid

/-- The record after an assignment, which leaves it as it is if it fails. -/
def attempt (read : F.Readers κ) (r : ρ) (assignment : String × κ) : ρ :=
  match F.put read r assignment.1 assignment.2 with
  | .ok r' => r'
  | .error _ => r

/-- The record after some assignments, of which any may fail. -/
def after (read : F.Readers κ) (r : ρ) (assignments : List (String × κ)) : ρ :=
  assignments.foldl (F.attempt read) r

def entries (r : ρ) : List (String × Value) :=
  F.all.map fun f => (F.key f, F.write f (F.get f r))

/-- The record written out, by the keys the fields are shown under. -/
def dump (r : ρ) : Value := .record (F.entries r)

/-- What a successful assignment changes. -/
inductive Changed (read : F.Readers κ) (name : String) (v : κ) (r r' : ρ) : Prop
  /-- One field, which is now what the value was read as. -/
  | field (f : F.Field) (x : F.Data f) : F.name f = name → read f v = Checked.ok x →
    (F.entries r').lookup (F.key f) = some (F.write f x) →
    (∀ k, k ≠ F.key f → (F.entries r').lookup k = (F.entries r).lookup k) →
    Changed read name v r r'
  /-- Nothing, under a private name. -/
  | aside : name.startsWith "_" = true → r' = r → Changed read name v r r'

variable {F}

theorem lookup_entries_eq (r : ρ) (k : String) : (F.entries r).lookup k =
    (F.all.find? (F.key · == k)).map fun f => F.write f (F.get f r) := by
  unfold entries
  induction F.all with
  | nil => rfl
  | cons f rest ih =>
    rw [List.map_cons, List.lookup_cons, List.find?_cons, ih, BEq.comm]
    cases F.key f == k <;> rfl

/-- Distinct labels tell the fields apart. -/
theorem find?_label {label : F.Field → String} (hlabel : label.Injective) (f : F.Field) :
    F.all.find? (label · == label f) = some f := by
  cases h : F.all.find? (label · == label f) with
  | none => exact absurd (beq_self_eq_true _) (List.find?_eq_none.mp h f (F.mem_all f))
  | some g =>
    have hg : label g = label f := by simpa using List.find?_some h
    rw [hlabel hg]

/-- A field that was set is shown as what it was set to, and every other one as before. -/
theorem lookup_entries_set (f : F.Field) (x : F.Data f) (r : ρ) :
    (F.entries (F.set f x r)).lookup (F.key f) = some (F.write f x) ∧
    ∀ k, k ≠ F.key f → (F.entries (F.set f x r)).lookup k = (F.entries r).lookup k := by
  constructor
  · rw [lookup_entries_eq, find?_label F.key_injective, Option.map_some, F.get_set]
  · intro k hk
    rw [lookup_entries_eq, lookup_entries_eq]
    refine Option.map_congr fun g hg => ?_
    have hkey : F.key g = k := by simpa using List.find?_some hg
    have hne : g ≠ f := by
      rintro rfl
      exact hk hkey.symm
    rw [F.get_set_of_ne f g x r hne]

/-- A value that is accepted becomes what the field holds. -/
theorem attempt_of_read {read : F.Readers κ} {f : F.Field} {v : κ} {x : F.Data f}
    (hf : F.name f ∉ F.computed) (hx : read f v = Checked.ok x) (r : ρ) :
    F.attempt read r (F.name f, v) = F.set f x r := by
  have hput : F.put read r (F.name f) v = .ok (F.set f x r) := by
    rw [put, find?, find?_label F.name_injective, if_neg (by simpa using hf)]
    simp only [hx]
    rfl
  rw [attempt, hput]

theorem changed_of_put {read : F.Readers κ} {r r' : ρ} {name : String} {v : κ}
    (h : F.put read r name v = .ok r') : F.Changed read name v r r' := by
  unfold put at h
  split at h
  · cases h
  · split at h
    · next f hf =>
      have hname : F.name f = name := by simpa [find?] using List.find?_some hf
      cases hx : read f v with
      | error e =>
        rw [hx] at h
        cases h
      | ok x =>
        rw [hx] at h
        cases h
        obtain ⟨hset, hother⟩ := lookup_entries_set f x r
        exact .field f x hname hx hset hother
    · split at h
      · next hname =>
        cases h
        exact .aside hname rfl
      · cases h

end Fields

/-! ## Responses -/

inductive Response.Field where
  | prompt
  | nextId

def Response.fields : Fields Response where
  Field := Response.Field
  Data := fun _ => String
  all := [.prompt, .nextId]
  name := fun
    | .prompt => "prompt"
    | .nextId => "next_id"
  key := fun
    | .prompt => "prompt"
    | .nextId => "nextId"
  get := fun
    | .prompt, r => r.prompt
    | .nextId, r => r.nextId
  set := fun
    | .prompt, s, r => { r with prompt := s }
    | .nextId, s, r => { r with nextId := s }
  write := fun _ s => .text s
  title := "DialogueResponse"
  computed := []
  mem_all := by rintro (_ | _) <;> simp
  name_injective := by rintro (_ | _) (_ | _) <;> simp
  key_injective := by rintro (_ | _) (_ | _) <;> simp
  get_set := by rintro (_ | _) _ _ <;> rfl
  get_set_of_ne := by rintro (_ | _) (_ | _) _ _ h <;> first | rfl | exact absurd rfl h

/-- The fields as they are read from plain values. -/
def Response.readers : Response.fields.Readers Value := fun _ => Reader.text

theorem Response.put_eq (r : Response) (name : String) (v : Value) :
    r.put name v = Response.fields.put Response.readers r name v := by
  unfold Response.put Response.assign
  split
  · rfl
  · rfl
  · next hprompt hnext =>
    have hnone : Response.fields.find? name = none := by
      refine List.find?_eq_none.mpr fun f _ => ?_
      cases f with
      | prompt => exact fun h => hprompt (beq_iff_eq.mp h).symm
      | nextId => exact fun h => hnext (beq_iff_eq.mp h).symm
    rw [Fields.put, hnone]
    rfl

theorem Response.check_toValue (r : Response) : Response.check r.toValue = Checked.ok r := by
  rw [Response.check, toValue, Value.record, model, Response.read]
  simp only [fieldOr, aliasedOr, Table.find?_record]
  simp [List.lookup_cons, text_eq, only]

/-! ## Lines -/

inductive Line.Field where
  | kind
  | nextId
  | character
  | dialogue
  | mutation
  | responses

namespace Line.Field

def Data : Line.Field → Type
  | kind => NodeKind
  | nextId => String
  | character | dialogue => Option String
  | mutation => Option Expression
  | responses => List Response

def name : Line.Field → String
  | kind => "type"
  | nextId => "next_id"
  | character => "character"
  | dialogue => "dialogue"
  | mutation => "mutation"
  | responses => "responses"

def key : Line.Field → String
  | nextId => "nextId"
  | f => f.name

def get : (f : Line.Field) → Line → f.Data
  | kind, l => l.kind
  | nextId, l => l.nextId
  | character, l => l.character
  | dialogue, l => l.dialogue
  | mutation, l => l.mutation
  | responses, l => l.responses

def set : (f : Line.Field) → f.Data → Line → Line
  | kind, k, l => { l with kind := k }
  | nextId, s, l => { l with nextId := s }
  | character, s, l => { l with character := s }
  | dialogue, s, l => { l with dialogue := s }
  | mutation, m, l => { l with mutation := m }
  | responses, rs, l => { l with responses := rs }

def write : (f : Line.Field) → f.Data → Value
  | kind, k => .text k.word
  | nextId, s => .text s
  | character, s | dialogue, s => .ofOption s
  | mutation, m => Expression.optionToValue m
  | responses, rs => .list (rs.map Response.toValue)

end Line.Field

def Line.fields : Fields Line where
  Field := Line.Field
  Data := Line.Field.Data
  all := [.kind, .nextId, .character, .dialogue, .mutation, .responses]
  name := Line.Field.name
  key := Line.Field.key
  get := Line.Field.get
  set := Line.Field.set
  write := Line.Field.write
  title := "DialogueLine"
  computed := Line.computed
  mem_all := by rintro (_ | _) <;> simp
  name_injective := by rintro (_ | _) (_ | _) <;> simp [Line.Field.name]
  key_injective := by rintro (_ | _) (_ | _) <;> simp [Line.Field.key, Line.Field.name]
  get_set := by rintro (_ | _) _ _ <;> rfl
  get_set_of_ne := by rintro (_ | _) (_ | _) _ _ h <;> first | rfl | exact absurd rfl h

def Line.readers : Line.fields.Readers Value
  | .kind => word NodeKind.ofWord?
  | .nextId => Reader.text
  | .character | .dialogue => optional Reader.text
  | .mutation => optional Expression.check
  | .responses => list Response.check

theorem Line.put_eq (l : Line) (name : String) (v : Value) :
    l.put name v = Line.fields.put Line.readers l name v := by
  unfold Line.put Fields.put
  refine ite_congr rfl (fun _ => rfl) fun _ => ?_
  unfold Line.assign
  split
  · rfl
  · rfl
  · rfl
  · rfl
  · rfl
  · rfl
  · next hkind hnext hcharacter hdialogue hmutation hresponses =>
    have hnone : Line.fields.find? name = none := by
      refine List.find?_eq_none.mpr fun f _ => ?_
      cases f with
      | kind => exact fun h => hkind (beq_iff_eq.mp h).symm
      | nextId => exact fun h => hnext (beq_iff_eq.mp h).symm
      | character => exact fun h => hcharacter (beq_iff_eq.mp h).symm
      | dialogue => exact fun h => hdialogue (beq_iff_eq.mp h).symm
      | mutation => exact fun h => hmutation (beq_iff_eq.mp h).symm
      | responses => exact fun h => hresponses (beq_iff_eq.mp h).symm
    rw [hnone]

theorem Line.check_toValue (l : Line) : Line.check l.toValue = Checked.ok l.dumped := by
  have hkind : word NodeKind.ofWord? (.text l.kind.word) = Checked.ok l.kind :=
    word_spelled NodeKind.ofWord?_word l.kind
  have hresponses : list Response.check (.list (l.responses.map Response.toValue)) =
      Checked.ok (l.responses.map id) := list_map Response.check_toValue l.responses
  rw [Line.check, toValue, Shown.record, Value.record, model, Line.read]
  simp only [fieldOr, aliasedOr, Table.find?_record]
  simp [-List.map_map, List.lookup_cons, text_eq, only, optional_ofOption,
    Expression.optional_toValue, hkind, hresponses, dumped]

/-! ## Units from nodes -/

/-- The fields as they are read from plain values, and from a change that is there already. -/
def Line.givenReaders : Line.fields.Readers (Value ⊕ Expression)
  | f, .inl v => Line.readers f v
  | .kind, .inr _ => Checked.flaw .notWord
  | .nextId, .inr _ | .character, .inr _ | .dialogue, .inr _ => Checked.flaw .notText
  | .mutation, .inr e => Checked.ok (some e)
  | .responses, .inr _ => Checked.flaw .notList

/-- What is assigned to a line that is built from a node. -/
def Node.copied (n : Node) : List (String × (Value ⊕ Expression)) :=
  match n.kind with
  | .dialogue =>
    [("character", .inl (.text n.character)), ("dialogue", .inl (.text n.text))]
  | .mutation => [("mutation", (n.mutation.map .inr).getD (.inl .null))]
  | _ => []

/-- A line from a node is one that is built from two fields and assigned the others. -/
theorem Line.ofNode_eq_after (n : Node) : ∃ l,
    Line.check (.record [("type", .text n.kind.word), ("next_id", .text n.nextId)]) =
      Checked.ok l ∧
    Line.ofNode n = Line.fields.after Line.givenReaders l n.copied := by
  have hkind : word NodeKind.ofWord? (.text n.kind.word) = Checked.ok n.kind :=
    word_spelled NodeKind.ofWord?_word n.kind
  refine ⟨{ kind := n.kind, nextId := n.nextId }, ?_, ?_⟩
  · rw [Line.check, Value.record, model, Line.read]
    simp only [fieldOr, aliasedOr, Table.find?_record]
    simp [List.lookup_cons, text_eq, only, hkind]
  · have hcharacter (l : Line) :
        Line.fields.attempt Line.givenReaders l ("character", .inl (.text n.character)) =
          { l with character := some n.character } :=
      Fields.attempt_of_read (F := Line.fields) (f := Line.Field.character) (by decide) rfl l
    have hdialogue (l : Line) :
        Line.fields.attempt Line.givenReaders l ("dialogue", .inl (.text n.text)) =
          { l with dialogue := some n.text } :=
      Fields.attempt_of_read (F := Line.fields) (f := Line.Field.dialogue) (by decide) rfl l
    have hmutation (l : Line) :
        Line.fields.attempt Line.givenReaders l
            ("mutation", (n.mutation.map .inr).getD (.inl .null)) =
          { l with mutation := n.mutation } := by
      cases n.mutation <;>
        exact Fields.attempt_of_read (F := Line.fields) (f := Line.Field.mutation) (by decide) rfl l
    unfold Line.ofNode Node.copied Fields.after
    cases n.kind with
    | dialogue => simp only [List.foldl_cons, List.foldl_nil, hcharacter, hdialogue]
    | mutation => simp only [List.foldl_cons, List.foldl_nil, hmutation]
    | _ => rfl

/-- A response from a node is built from two fields. -/
theorem Response.check_ofNode (n : Node) :
    Response.check (.record [("prompt", .text n.text), ("next_id", .text n.nextId)]) =
      Checked.ok (Response.ofNode n) := by
  rw [Response.check, Value.record, model, Response.read]
  simp only [fieldOr, aliasedOr, Table.find?_record]
  simp [List.lookup_cons, text_eq, only, Response.ofNode]

/-! ## Runs of assignments -/

/-- Units of a kind stay well-formed, whatever is assigned to them. -/
structure Fields.StaysFormed {ρ : Type} (F : Fields ρ) (check : Reader ρ)
    (toValue : ρ → Value) (dumped : ρ → ρ) (put : ρ → String → Value → Except Fault ρ) :
    Prop where
  /-- A unit is shown field by field. -/
  shown : toValue = F.dump
  /-- What a program sets from plain values is set as from values of any sort. -/
  plain : ∃ read : F.Readers Value, put = F.put read
  /-- The dump of any unit builds one with the same dump, however the unit was built. -/
  reads : ∀ r, check (toValue r) = Checked.ok (dumped r) ∧ toValue (dumped r) = toValue r
  /-- So it does after each of any assignments, whether they failed or not. -/
  along : ∀ {κ : Type} (read : F.Readers κ) (r : ρ) (assignments : List (String × κ)),
    ∃ r', check (toValue (F.after read r assignments)) = Checked.ok r' ∧
      toValue r' = toValue (F.after read r assignments)
  /-- An assignment that fails leaves the dump as it is. -/
  fails : ∀ {κ : Type} (read : F.Readers κ) (r : ρ) (name : String) (v : κ) (e : Fault),
    F.put read r name v = .error e → toValue (F.attempt read r (name, v)) = toValue r
  /-- One that succeeds changes the field of that name and no other. -/
  succeeds : ∀ {κ : Type} (read : F.Readers κ) (r r' : ρ) (name : String) (v : κ),
    F.put read r name v = .ok r' →
      F.attempt read r (name, v) = r' ∧ F.Changed read name v r r'

theorem Fields.StaysFormed.of_reads {ρ : Type} {F : Fields ρ} {check : Reader ρ}
    {toValue : ρ → Value} {dumped : ρ → ρ} {put : ρ → String → Value → Except Fault ρ}
    (hshown : toValue = F.dump) (hplain : ∃ read : F.Readers Value, put = F.put read)
    (h : ∀ r, check (toValue r) = Checked.ok (dumped r))
    (hd : ∀ r, toValue (dumped r) = toValue r) :
    F.StaysFormed check toValue dumped put where
  shown := hshown
  plain := hplain
  reads r := ⟨h r, hd r⟩
  along read r assignments := ⟨_, h _, hd _⟩
  fails read r name v e he := by rw [attempt, he]
  succeeds read r r' name v hr' := ⟨by rw [attempt, hr'], changed_of_put hr'⟩

/-- Lines and responses stay well-formed, those that are built from nodes among them. -/
structure UnitsStayFormed : Prop where
  line : Line.fields.StaysFormed Line.check Line.toValue Line.dumped Line.put
  response : Response.fields.StaysFormed Response.check Response.toValue id Response.put
  /-- A line from a node is built from two of its fields, and assigned those that its kind
  uses as they stand in the node. -/
  line_ofNode : ∀ n : Node, ∃ l,
    Line.check (.record [("type", .text n.kind.word), ("next_id", .text n.nextId)]) =
      Checked.ok l ∧
    Line.ofNode n = Line.fields.after Line.givenReaders l n.copied
  response_ofNode : ∀ n : Node,
    Response.check (.record [("prompt", .text n.text), ("next_id", .text n.nextId)]) =
      Checked.ok (Response.ofNode n)

theorem staysFormed : UnitsStayFormed where
  line :=
    .of_reads rfl ⟨Line.readers, funext fun l => funext fun name => funext (l.put_eq name)⟩
      Line.check_toValue Line.toValue_dumped
  response :=
    .of_reads rfl
      ⟨Response.readers, funext fun r => funext fun name => funext (r.put_eq name)⟩
      Response.check_toValue fun _ => rfl
  line_ofNode := Line.ofNode_eq_after
  response_ofNode := Response.check_ofNode

end Parley

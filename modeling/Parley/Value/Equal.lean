import Parley.Value.Numeric

/-
When two values are equal, which values can be keys, and look-up by key.

Numbers are equal by exact value whatever their kind.  Sequences are equal
element by element, mappings and sets regardless of order.  Elements and keys are
held against each other by `alike`, which is equality except that it knows a
not-a-number by its mark.
-/

namespace Parley
namespace Value

def numericEq (a b : Value) : Bool :=
  match a.numeric?, b.numeric? with
  | some x, some y => x.compare? y == some .eq
  | _, _ => false

mutual

/-- Whether a container takes two values for one. -/
def alike : Value → Value → Bool
  | .null, .null => true
  | .bool a, b => numericEq (.bool a) b
  | .int a, b => numericEq (.int a) b
  | .float a, b => numericEq (.float a) b
  | .nan a, .nan b => a == b
  | .text a, .text b => a == b
  | .list a, .list b => alikeLists a b
  | .tuple a, .tuple b => alikeLists a b
  | .set a, .set b => a.length == b.length && allAmong a b
  | .dict a, .dict b => a.length == b.length && allEntriesAmong a b
  | .callable a, .callable b => a == b
  | .line a, .line b => a == b
  | _, _ => false
  termination_by structural a => a

def alikeLists : List Value → List Value → Bool
  | [], [] => true
  | a :: as, b :: bs => alike a b && alikeLists as bs
  | _, _ => false
  termination_by structural a => a

def allAmong : List Value → List Value → Bool
  | [], _ => true
  | a :: as, bs => bs.any (fun b => alike a b) && allAmong as bs
  termination_by structural a => a

def allEntriesAmong : List (Value × Value) → List (Value × Value) → Bool
  | [], _ => true
  | (k, v) :: rest, es => es.any (fun e => alike k e.1 && alike v e.2) && allEntriesAmong rest es
  termination_by structural a => a

end

/-- Equality as conditions test it: a not-a-number is not even equal to itself. -/
def eq : Value → Value → Bool
  | .nan _, .nan _ => false
  | a, b => alike a b

def among (x : Value) (xs : List Value) : Bool := xs.any fun y => alike x y

mutual

/-- Checks that a value can be a key or a set element: lists, sets, mappings and
lines cannot, and a tuple can if all its elements can. -/
def checkKey : Value → Except Fault Unit
  | .list _ => .error (.unhashable .list)
  | .set _ => .error (.unhashable .set)
  | .dict _ => .error (.unhashable .dict)
  | .line _ => .error (.unhashable .line)
  | .tuple xs => checkKeys xs
  | _ => .ok ()
  termination_by structural v => v

def checkKeys : List Value → Except Fault Unit
  | [] => .ok ()
  | x :: xs =>
    match checkKey x with
    | .ok _ => checkKeys xs
    | .error f => .error f
  termination_by structural xs => xs

end

theorem alike_text (s t : String) : (text s).alike (text t) = (s == t) := by
  rw [alike]

theorem text_alike {s : String} {v : Value} (h : (text s).alike v = true) : v = text s := by
  cases v <;> simp_all [alike]

theorem eq_text {v : Value} {s : String} (h : v.eq (text s) = true) : v = text s := by
  cases v <;> simp_all [eq, alike, numericEq, numeric?]

/-- Off the not-a-numbers, equality is what containers go by. -/
theorem eq_eq_alike {a : Value} (h : ∀ m, a ≠ nan m) (b : Value) : a.eq b = a.alike b := by
  unfold eq
  split
  · exact absurd rfl (h _)
  · rfl

theorem checkKey_text (s : String) : (text s).checkKey = .ok () := rfl

/-- Keeps the first of elements that are alike. -/
def distinct (xs : List Value) : List Value :=
  xs.foldl (fun seen x => if x.among seen then seen else seen ++ [x]) []

/-- A set with the given elements.  Integers stand in ascending order. -/
def ofElements (xs : List Value) : Value :=
  let xs := distinct xs
  .set <| match xs.mapM int? with
    | some ns => (ns.mergeSort fun m n => m ≤ n).map .int
    | none => xs

end Value

/-- A mapping from values to values in insertion order. -/
abbrev Table := List (Value × Value)

namespace Table

def find? (t : Table) (key : Value) : Option Value :=
  (List.find? (fun e => key.alike e.1) t).map (·.2)

/-- Puts a value under a key.  A present key keeps its place and its spelling, a
new one goes to the end. -/
def insert (key value : Value) : Table → Table
  | [] => [(key, value)]
  | (k, v) :: rest =>
    if key.alike k then (k, value) :: rest else (k, v) :: insert key value rest

theorem find?_insert_self (t : Table) (s : String) (v : Value) :
    (t.insert (.text s) v).find? (.text s) = some v := by
  induction t with
  | nil => simp [insert, find?, Value.alike_text]
  | cons e rest ih =>
    obtain ⟨k, w⟩ := e
    by_cases h : (Value.text s).alike k = true
    · simp [insert, find?, h]
    · simp only [find?, Option.map_eq_some_iff] at ih ⊢
      simpa [insert, h] using ih

def ofList (entries : List (Value × Value)) : Table :=
  entries.foldl (fun t e => t.insert e.1 e.2) []

/-- Whether a key is present; a value that cannot be a key is a fault. -/
def contains (t : Table) (key : Value) : Except Fault Bool :=
  key.checkKey.map fun _ => (t.find? key).isSome

end Table
end Parley

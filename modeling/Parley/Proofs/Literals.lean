import Parley.Interpolate
import Parley.Proofs.Formula

/-
Written literals read back.

A quoted text, the decimal digits of an integer and the word of a truth value each stand
for the value they were written from (`readsBack`).  They do so among any states and any
shadow, also where one of these holds an entry of the same spelling, because none of them
is asked.

That nobody is asked cannot be seen from the value that is read.  So reading is taken
apart from the look-up of names (`valueOf_eq_readBy`): a literal is read to its value
whatever a look-up does, be it one that fails, counts its calls or changes something.
-/

namespace Parley

/-! ## The digits of an integer -/

namespace Literal

/-- The scripts' digits begin with the decimal ones, which have no other spelling. -/
theorem plain_of_isDigit {c : Char} (h : c.isDigit = true) :
    Text.isDigit c = true ∧ Text.plainDigit c = c ∧ c.toLower = c := by
  have hall : ∀ n, n < 58 → (Char.ofNat n).isDigit = true →
      Text.isDigit (Char.ofNat n) = true ∧ Text.plainDigit (Char.ofNat n) = Char.ofNat n ∧
        (Char.ofNat n).toLower = Char.ofNat n := by
    decide +kernel
  have hc : c.toNat < 58 := by
    simp only [Char.isDigit, Bool.and_eq_true, decide_eq_true_eq, UInt32.le_iff_toNat_le] at h
    exact Nat.lt_succ_of_le h.2
  have hn := hall c.toNat hc
  rw [Char.ofNat_toNat] at hn
  exact hn h

theorem isDigit_of_mem {k : Nat} {c : Char} (h : c ∈ Nat.toDigits 10 k) : c.isDigit = true :=
  Nat.isDigit_of_mem_toDigits (by omega) (by omega) h

theorem exists_toDigits (k : Nat) :
    ∃ c ds, Nat.toDigits 10 k = c :: ds ∧ c.isDigit = true := by
  cases hk : Nat.toDigits 10 k with
  | nil => exact absurd hk Nat.toDigits_ne_nil
  | cons c ds => exact ⟨c, ds, rfl, isDigit_of_mem (hk ▸ List.mem_cons_self)⟩

theorem toList_toString (n : Int) :
    (toString n).toList = (if n < 0 then ['-'] else []) ++ Nat.toDigits 10 n.natAbs := by
  cases n with
  | ofNat k =>
    have hk : ¬ Int.ofNat k < 0 := Int.not_lt.mpr (Int.natCast_nonneg k)
    show (Nat.repr k).toList = _
    rw [Nat.toList_repr, if_neg hk]
    rfl
  | negSucc k =>
    show ("-" ++ Nat.repr (k + 1)).toList = _
    rw [String.toList_append, Nat.toList_repr, if_pos (by omega)]
    rfl

theorem spanMinus_toString (n : Int) :
    spanMinus (toString n).toList = (decide (n < 0), Nat.toDigits 10 n.natAbs) := by
  rw [toList_toString]
  by_cases hn : n < 0
  · rw [if_pos hn, decide_eq_true hn]
    rfl
  · rw [if_neg hn, decide_eq_false hn]
    obtain ⟨c, ds, hds, hc⟩ := exists_toDigits n.natAbs
    rw [hds, List.nil_append, spanMinus]
    rintro cs ⟨⟩
    cases hc

/-- An integer with no more digits than are read is read from its decimal text. -/
theorem integer?_toString {n : Int} (h : (Nat.toDigits 10 n.natAbs).length ≤ digitLimit) :
    integer? (toString n).toList = some (.ok n) := by
  have hempty : (Nat.toDigits 10 n.natAbs).isEmpty = false :=
    List.isEmpty_eq_false_iff.mpr Nat.toDigits_ne_nil
  have hall : (Nat.toDigits 10 n.natAbs).all Text.isDigit = true :=
    List.all_eq_true.mpr fun c hc => (plain_of_isDigit (isDigit_of_mem hc)).1
  have hplain : (Nat.toDigits 10 n.natAbs).map Text.plainDigit = Nat.toDigits 10 n.natAbs := by
    rw [List.map_congr_left fun c hc => (plain_of_isDigit (isDigit_of_mem hc)).2.1, List.map_id']
  have hvalue : Number.ofDigits (Nat.toDigits 10 n.natAbs) = n.natAbs :=
    Nat.ofDigitChars_ten_toDigits
  have hsigned : Number.Exact.signed (decide (n < 0)) n.natAbs = n := by
    simp only [Number.Exact.signed, decide_eq_true_eq]
    split <;> omega
  simp only [integer?, spanMinus_toString, hempty, hall, hplain, hvalue, hsigned, if_pos h,
    Bool.not_true, Bool.or_self, Bool.false_eq_true, if_false]

/-! ## No other class claims it -/

/-- No letter of a truth value's word is a digit. -/
theorem truthWord?_of_digit {s : String} {c : Char} (hc : c ∈ s.toList) (h : c.isDigit = true) :
    truthWord? s = none := by
  have hmem : c ∈ s.toLower.toList := by
    show c ∈ (s.map Char.toLower).toList
    rw [String.toList_map]
    exact List.mem_map.mpr ⟨c, hc, (plain_of_isDigit h).2.2⟩
  have hword (w : String) (hw : s.toLower = w) : ¬ w.toList.all fun c => !c.isDigit := by
    intro hnone
    have hno := List.all_eq_true.mp hnone c (hw ▸ hmem)
    rw [h] at hno
    cases hno
  unfold truthWord?
  split
  case h_5 => rfl
  all_goals
    next hw => exact absurd (by decide) (hword _ hw)

theorem unquote?_toString (n : Int) : unquote? (toString n).toList = none := by
  rw [toList_toString]
  split
  · rfl
  · obtain ⟨c, ds, hds, hc⟩ := exists_toDigits n.natAbs
    rw [hds, List.nil_append, unquote?]
    rintro cs ⟨⟩
    cases hc

/-- The word a truth value is shown as stands for it again. -/
theorem read?_word (c : Bool) : read? (if c then "true" else "false") = some (.ok (.bool c)) := by
  have hquote : unquote? (if c then "true" else "false").toList = none := by
    revert c
    decide +kernel
  have hword : truthWord? (if c then "true" else "false") = some c := by
    revert c
    decide +kernel
  simp only [read?, hquote, hword]

theorem read?_toString {n : Int} (h : (Nat.toDigits 10 n.natAbs).length ≤ digitLimit) :
    read? (toString n) = some (.ok (.int n)) := by
  obtain ⟨c, ds, hds, hc⟩ := exists_toDigits n.natAbs
  have hmem : c ∈ (toString n).toList := by
    rw [toList_toString, hds]
    exact List.mem_append_right _ List.mem_cons_self
  simp only [read?, unquote?_toString, truthWord?_of_digit hmem hc, integer?_toString h]
  rfl

end Literal

theorem lt_pow_of_length {n k : Nat} (hk : 0 < k) (h : (Nat.toDigits 10 n).length ≤ k) :
    n < Nat.pow 10 k :=
  (Nat.length_toDigits_le_iff (by omega) hk).mp h

/-- Such an integer is also shown by its decimal text. -/
theorem Value.display_of_length {n : Int}
    (h : (Nat.toDigits 10 n.natAbs).length ≤ digitLimit) :
    (Value.int n).display = .ok (toString n) := by
  rw [display, plain, written, intText, if_pos (lt_pow_of_length (by decide) h)]
  all_goals nofun

/-! ## Reading apart from the look-up -/

/-- What a raw token stands for if `look` tells what a name stands for. -/
def Value.readBy {m : Type → Type} [Monad m] [MonadExcept Fault m] (look : String → m Value) :
    Value → m Value
  | .text s =>
    match Literal.read? s with
    | some (.ok v) => pure v
    | some (.error f) => throw f
    | none => look s
  | v => pure v

/-- States and shadow have a part in a value only through the look-up of a name. -/
theorem Bindings.valueOf_eq_readBy (b : Bindings) (hint : Hint) (t : Value) :
    b.valueOf hint t = t.readBy (b.lookup hint) := by
  cases t with
  | text s =>
    rw [valueOf, Value.readBy]
    cases Literal.read? s with
    | none => rfl
    | some r => cases r <;> rfl
  | _ => rfl

namespace Value

/-- A token that stands for a value by itself. -/
structure StandsFor (t v : Value) : Prop where
  /-- It has that value in every place, whatever the states and the shadow hold. -/
  reads : ∀ (b : Bindings) (hint : Hint), b.valueOf hint t = .ok v
  /-- No look-up is made for it. -/
  unasked : ∀ {m : Type → Type} [Monad m] [MonadExcept Fault m] (look : String → m Value),
    t.readBy look = pure v

theorem StandsFor.of_unasked {t v : Value}
    (h : ∀ {m : Type → Type} [Monad m] [MonadExcept Fault m] (look : String → m Value),
      t.readBy look = pure v) : t.StandsFor v where
  reads b hint := by
    rw [b.valueOf_eq_readBy]
    exact h _
  unasked := h

theorem standsFor_of_literal {s : String} {v : Value} (h : Literal.read? s = some (.ok v)) :
    (Value.text s).StandsFor v :=
  .of_unasked fun look => by rw [readBy, h]

theorem standsFor_self {v : Value} (h : ∀ s, v ≠ .text s) : v.StandsFor v :=
  .of_unasked fun look => by
    cases v with
    | text s => exact absurd rfl (h s)
    | _ => rfl

end Value

/-- What is written as a literal is read as what was written. -/
structure ReadsBack : Prop where
  /-- Only the look-up of a name asks a state or the shadow. -/
  apart : ∀ (b : Bindings) (hint : Hint) (t : Value),
    b.valueOf hint t = t.readBy (b.lookup hint)
  /-- A text between quotes, whatever it looks like without them. -/
  text : ∀ s, (Value.text s).quote.StandsFor (.text s)
  /-- Any other value is its own quoted form. -/
  other : ∀ v : Value, (∀ s, v ≠ .text s) → v.quote = v ∧ v.quote.StandsFor v
  /-- The decimal text of an integer with no more digits than are read. -/
  integer : ∀ n : Int, (Nat.toDigits 10 n.natAbs).length ≤ digitLimit →
    (Value.int n).display = .ok (toString n) ∧ (Value.text (toString n)).StandsFor (.int n)
  /-- The word a truth value is shown as. -/
  truth : ∀ c : Bool, ∃ t, (Value.bool c).display = .ok t ∧ (Value.text t).StandsFor (.bool c)

theorem readsBack : ReadsBack where
  apart := Bindings.valueOf_eq_readBy
  text s := Value.standsFor_of_literal (Literal.read?_quote s)
  other v hv := by
    have hquote : v.quote = v := by
      cases v with
      | text s => exact absurd rfl (hv s)
      | _ => rfl
    rw [hquote]
    exact ⟨rfl, Value.standsFor_self hv⟩
  integer n hn :=
    ⟨Value.display_of_length hn, Value.standsFor_of_literal (Literal.read?_toString hn)⟩
  truth c := ⟨_, rfl, Value.standsFor_of_literal (Literal.read?_word c)⟩

end Parley

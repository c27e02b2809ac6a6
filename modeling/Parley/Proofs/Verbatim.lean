import Parley.Proofs.Guard

/-
Values in dialogue text.

A text with placeholders in double braces is swapped one placeholder after the other, and
each swap looks for the first occurrence in what the swaps before have made of the text.  A
placeholder never overlaps itself, so the first occurrence is the one in its own place unless
the text before that place, with its values put in, holds one already.  As long as that does
not happen (`Template.Clear`), every value stands in the text as it is
(`interpolate_verbatim`); values without an opening brace never make it happen.
-/

namespace Parley

def leftBrace : Char := '\x7b'

def rightBrace : Char := '\x7d'

def BraceFree (cs : List Char) : Prop := leftBrace ∉ cs ∧ rightBrace ∉ cs

instance (cs : List Char) : Decidable (BraceFree cs) :=
  inferInstanceAs (Decidable (leftBrace ∉ cs ∧ rightBrace ∉ cs))

/-- A placeholder, as it stands in the text. -/
def braced (inner : List Char) : List Char :=
  leftBrace :: leftBrace :: (inner ++ [rightBrace, rightBrace])

/-! ## First occurrences -/

section

variable {inner before : List Char}

/-- A placeholder does not overlap itself. -/
theorem eq_nil_of_border (hinner : BraceFree inner) {x y : List Char} (hxy : braced inner = x ++ y)
    (hx : x ≠ []) (hy : y <+: braced inner) : y = [] := by
  have htail : leftBrace ∉ inner ++ [rightBrace, rightBrace] := by
    simpa [hinner.1] using (by decide : leftBrace ≠ rightBrace)
  -- a prefix that is not empty starts with a brace, of which the tail has none
  rcases y with _ | ⟨c, ys⟩
  · rfl
  exfalso
  obtain ⟨rfl, hys⟩ : c = leftBrace ∧ ys <+: leftBrace :: (inner ++ [rightBrace, rightBrace]) :=
    List.cons_prefix_cons.mp hy
  rcases x with _ | ⟨a, _ | ⟨b, x⟩⟩
  · exact hx rfl
  · obtain ⟨-, rfl⟩ : leftBrace = a ∧ inner ++ [rightBrace, rightBrace] = ys := by
      simpa [braced] using hxy
    have hmem : leftBrace ∈ inner ++ [rightBrace, rightBrace] := by
      cases inner with
      | nil => exact absurd (List.cons_prefix_cons.mp hys).1 (by decide)
      | cons d _ => exact (List.cons_prefix_cons.mp hys).1 ▸ List.mem_cons_self
    exact htail hmem
  · have hrest : inner ++ [rightBrace, rightBrace] = x ++ leftBrace :: ys := by
      simp only [braced, List.cons_append, List.cons.injEq] at hxy
      exact hxy.2.2
    exact htail (hrest ▸ List.mem_append_right x List.mem_cons_self)

theorem not_prefix_of_not_infix (hinner : BraceFree inner) (hne : before ≠ [])
    (h : ¬ braced inner <:+: before) (rest : List Char) :
    ¬ braced inner <+: before ++ (braced inner ++ rest) := by
  intro hprefix
  rcases List.prefix_or_prefix_of_prefix hprefix (List.prefix_append before _) with hin | ⟨y, hy⟩
  · exact h hin.isInfix
  · rw [← hy, List.prefix_append_right_inj, hy] at hprefix
    have hle : y.length ≤ (braced inner).length := by
      rw [← hy, List.length_append]
      exact Nat.le_add_left _ _
    have hborder : y <+: braced inner :=
      List.prefix_of_prefix_length_le hprefix (List.prefix_append _ rest) hle
    obtain rfl := eq_nil_of_border hinner hy.symm hne hborder
    rw [List.append_nil] at hy
    exact h (hy ▸ List.infix_rfl)

/-- The first occurrence of a placeholder is the one in its place, if there is none before. -/
theorem replaceFirst_braced (hinner : BraceFree inner) (h : ¬ braced inner <:+: before)
    (new rest : List Char) :
    replaceFirst (braced inner) new (before ++ (braced inner ++ rest)) =
      before ++ (new ++ rest) := by
  induction before with
  | nil => exact replaceFirst_append_self (List.cons_ne_nil _ _) new rest
  | cons c cs ih =>
    have hfirst : (braced inner).isPrefixOf (c :: (cs ++ (braced inner ++ rest))) = false := by
      have hnot := not_prefix_of_not_infix hinner (List.cons_ne_nil c cs) h rest
      rwa [← List.isPrefixOf_iff_prefix, Bool.not_eq_true] at hnot
    have hcs : ¬ braced inner <:+: cs := fun hin => h (hin.trans (List.suffix_cons c cs).isInfix)
    rw [List.cons_append, replaceFirst_cons new hfirst, ih hcs]
    rfl

end

/-! ## Texts with placeholders -/

/-- A placeholder with what is put in its place, and the text after it. -/
structure Slot where
  replacement : Replacement
  inner : List Char
  after : List Char
  placeholder_eq : replacement.placeholder.toList = braced inner
  inner_plain : BraceFree inner
  after_plain : BraceFree after

/-- A text with placeholders, and no braces elsewhere. -/
structure Template where
  before : List Char
  slots : List Slot
  before_plain : BraceFree before

namespace Slot

/-- The text of slots, after some other text. -/
def spelled : List Char → List Slot → List Char
  | before, [] => before
  | before, slot :: slots => before ++ (braced slot.inner ++ spelled slot.after slots)

/-- The same with texts in the first places. -/
def filled : List Char → List Slot → List String → List Char
  | before, slot :: slots, text :: texts => before ++ (text.toList ++ filled slot.after slots texts)
  | before, slots, _ => spelled before slots

/-- No placeholder occurs before its own place once the places before it are filled. -/
def Clear : List Char → List Slot → List String → Prop
  | before, slot :: slots, text :: texts =>
    ¬ braced slot.inner <:+: before ∧ Clear (before ++ (text.toList ++ slot.after)) slots texts
  | _, _, _ => True

/-- What swapping the placeholders one after the other makes of a text. -/
def swapped : List Char → List Slot → List String → List Char
  | text, slot :: slots, new :: texts =>
    swapped (replaceFirst (braced slot.inner) new.toList text) slots texts
  | text, _, _ => text

theorem append_spelled (pre before : List Char) (slots : List Slot) :
    pre ++ spelled before slots = spelled (pre ++ before) slots := by
  cases slots <;> simp [spelled]

theorem append_filled (pre before : List Char) (slots : List Slot) (texts : List String) :
    pre ++ filled before slots texts = filled (pre ++ before) slots texts := by
  cases slots <;> cases texts <;> simp [filled, append_spelled]

theorem swapped_of_clear {before : List Char} {slots : List Slot} {texts : List String}
    (h : Clear before slots texts) :
    swapped (spelled before slots) slots texts = filled before slots texts := by
  induction slots generalizing before texts with
  | nil => cases texts <;> rfl
  | cons slot slots ih =>
    cases texts with
    | nil => rfl
    | cons text texts =>
      have hfill (cs : List Char) : before ++ (text.toList ++ cs) = before ++ text.toList ++ cs :=
        (List.append_assoc _ _ _).symm
      rw [swapped, spelled, replaceFirst_braced slot.inner_plain h.1, filled, hfill, hfill,
        append_spelled, append_filled]
      have hclear := h.2
      rw [hfill] at hclear
      exact ih hclear

theorem clear_of_not_mem {before : List Char} {slots : List Slot} {texts : List String}
    (hbefore : leftBrace ∉ before) (htexts : ∀ text ∈ texts, leftBrace ∉ text.toList) :
    Clear before slots texts := by
  induction slots generalizing before texts with
  | nil => cases texts <;> trivial
  | cons slot slots ih =>
    cases texts with
    | nil => trivial
    | cons text texts =>
      rw [List.forall_mem_cons] at htexts
      refine ⟨fun hin => hbefore (hin.subset List.mem_cons_self), ih ?_ htexts.2⟩
      simp [hbefore, htexts.1, slot.after_plain.1]

end Slot

namespace Template

def text (t : Template) : List Char := Slot.spelled t.before t.slots

def replacements (t : Template) : List Replacement := t.slots.map Slot.replacement

def filled (t : Template) (texts : List String) : List Char := Slot.filled t.before t.slots texts

def Clear (t : Template) (texts : List String) : Prop := Slot.Clear t.before t.slots texts

end Template

/-! ## Swapping -/

namespace Play

/-- Replacements yield texts, one after another.  Others may change the states while a call
waits. -/
inductive Yields (ask : Ask) : List Replacement → Session → List String → Session → Prop
  | nil {s : Session} : Yields ask [] s [] s
  | cons {r : Replacement} {rs : List Replacement} {v : Value} {text : String}
    {texts : List String} {s u t : Session} : (replacementValue ask r s).MayEnd (.ok v) u →
    v.display = .ok text → Yields ask rs u texts t → Yields ask (r :: rs) s (text :: texts) t

variable {ask : Ask} {s t : Session} {out : List Char}

theorem mayEnd_ofExcept {α : Type} {x : Except Fault α} {a : α} :
    (Act.ofExcept x s).MayEnd (.ok a) t ↔ x = .ok a ∧ t = s := by
  have hrun : Act.ofExcept x s = .ended x s := by cases x <;> rfl
  rw [hrun, Progress.mayEnd_ended, eq_comm]

/-- The ends of an interpolation are those of its values, and the text is swapped once for
each. -/
theorem mayEnd_interpolate {slots : List Slot} {text : List Char} :
    (interpolate ask (slots.map Slot.replacement) text s).MayEnd (.ok out) t ↔
      ∃ texts, Yields ask (slots.map Slot.replacement) s texts t ∧
        out = Slot.swapped text slots texts := by
  induction slots generalizing text s with
  | nil =>
    refine Act.mayEnd_pure.trans ⟨?_, ?_⟩
    · rintro ⟨hout, rfl⟩
      cases hout
      exact ⟨[], .nil, rfl⟩
    · rintro ⟨texts, hyields, rfl⟩
      cases hyields
      exact ⟨rfl, rfl⟩
  | cons slot slots ih =>
    have hplaceholder : (slot.replacement.placeholder == "") = false := by
      refine beq_false_of_ne fun hempty => ?_
      have hnil := slot.placeholder_eq
      rw [hempty] at hnil
      cases hnil
    rw [List.map_cons, interpolate, if_neg (by rw [hplaceholder]; exact Bool.false_ne_true),
      slot.placeholder_eq]
    simp only [Act.mayEnd_bind_ok, mayEnd_ofExcept, ih]
    constructor
    · rintro ⟨v, u, hv, new, _, ⟨hnew, rfl⟩, texts, hyields, rfl⟩
      exact ⟨new :: texts, .cons hv hnew hyields, rfl⟩
    · rintro ⟨texts, hyields, rfl⟩
      cases hyields with
      | @cons _ _ v new texts _ u _ hv hnew hyields =>
        exact ⟨v, u, hv, new, u, ⟨hnew, rfl⟩, texts, hyields, rfl⟩

/-- Every value stands in the text as it is, in the place of its placeholder, as long as no
placeholder occurs before its own place once the places before it are filled; and none does
where no value holds an opening brace. -/
theorem interpolate_verbatim (ask : Ask) (template : Template) (s : Session) :
    (∀ out t, (interpolate ask template.replacements template.text s).MayEnd (.ok out) t →
      ∃ texts, Yields ask template.replacements s texts t ∧
        (template.Clear texts → out = template.filled texts)) ∧
    (∀ texts t, Yields ask template.replacements s texts t → template.Clear texts →
      (interpolate ask template.replacements template.text s).MayEnd
        (.ok (template.filled texts)) t) ∧
    (∀ texts, (∀ text ∈ texts, leftBrace ∉ text.toList) → template.Clear texts) := by
  refine ⟨fun out t hout => ?_, fun texts t hyields hclear => ?_, fun texts htexts => ?_⟩
  · obtain ⟨texts, hyields, rfl⟩ := mayEnd_interpolate.mp hout
    exact ⟨texts, hyields, Slot.swapped_of_clear⟩
  · exact mayEnd_interpolate.mpr ⟨texts, hyields, (Slot.swapped_of_clear hclear).symm⟩
  · exact Slot.clear_of_not_mem template.before_plain.1 htexts

end Play

/-! ## Two names in one text -/

/-- A place for the value of a name. -/
def Slot.ofName (name : String) (after : List Char) (hname : BraceFree name.toList)
    (hafter : BraceFree after) : Slot where
  replacement := { value := .text name, placeholder := "\x7b\x7b" ++ name ++ "\x7d\x7d" }
  inner := name.toList
  after := after
  placeholder_eq := by simp [braced, leftBrace, rightBrace]
  inner_plain := hname
  after_plain := hafter

namespace Play

theorem Yields.cons_name {ask : Ask} {s t : Session} {slot : Slot} {name text : String}
    {texts : List String} (slots : List Slot) (hkind : slot.replacement.kind = .scalar)
    (hvalue : slot.replacement.value = .text name)
    (hname : s.bindings.valueOf .boolean (.text name) = .ok (.text text))
    (h : Yields ask (slots.map Slot.replacement) s texts t) :
    Yields ask ((slot :: slots).map Slot.replacement) s (text :: texts) t := by
  have hrun : replacementValue ask slot.replacement s = .done (.text text) s := by
    rw [replacementValue, hkind]
    exact reading_of_ok (by rw [hvalue]; exact hname)
  exact .cons (by rw [hrun]; exact .done _ _) rfl h

/-- A state whose names all stand for texts. -/
def naming (names : List (String × String)) : Session :=
  { bindings :=
      { hosts := [{ values := names.map fun n => (.text n.1, .text n.2) }], active := [0] } }

theorem valueOf_naming {names : List (String × String)} {name text : String}
    (hliteral : Literal.read? name = none)
    (hlookup : (naming names).bindings.lookup .boolean name = .ok (.text text)) :
    (naming names).bindings.valueOf .boolean (.text name) = .ok (.text text) := by
  rw [Bindings.valueOf, hliteral]
  exact hlookup

/-- One name twice. -/
def echo : Template where
  before := []
  slots :=
    [.ofName "a" [',', ' '] (by decide) (by decide), .ofName "a" ['!'] (by decide) (by decide)]
  before_plain := by decide

theorem interpolate_verbatim_echo :
    (interpolate refused echo.replacements echo.text (naming [("a", "\x7bb\x7d")])).MayEnd
      (.ok "\x7bb\x7d, \x7bb\x7d!".toList) (naming [("a", "\x7bb\x7d")]) := by
  let s := naming [("a", "\x7bb\x7d")]
  have hname : s.bindings.valueOf .boolean (.text "a") = .ok (.text "\x7bb\x7d") :=
    valueOf_naming (by decide +kernel) rfl
  have hyields : Yields refused echo.replacements s ["\x7bb\x7d", "\x7bb\x7d"] s :=
    .cons_name [_] rfl rfl hname (.cons_name [] rfl rfl hname .nil)
  have hclear : echo.Clear ["\x7bb\x7d", "\x7bb\x7d"] := ⟨by decide, by decide, trivial⟩
  exact (interpolate_verbatim refused echo s).2.1 _ _ hyields hclear

/-- Two names, the value of the first of which spells the place of the second. -/
def shuffle : Template where
  before := []
  slots := [.ofName "a" [' '] (by decide) (by decide), .ofName "b" [] (by decide) (by decide)]
  before_plain := by decide

theorem interpolate_shuffle : ¬ ∀ (ask : Ask) (template : Template) (s t : Session)
    (texts : List String) (out : List Char), Yields ask template.replacements s texts t →
      (interpolate ask template.replacements template.text s).MayEnd (.ok out) t →
        out = template.filled texts := by
  let s := naming [("a", "\x7b\x7bb\x7d\x7d"), ("b", "one")]
  have ha : s.bindings.valueOf .boolean (.text "a") = .ok (.text "\x7b\x7bb\x7d\x7d") :=
    valueOf_naming (by decide +kernel) rfl
  have hb : s.bindings.valueOf .boolean (.text "b") = .ok (.text "one") :=
    valueOf_naming (by decide +kernel) rfl
  have hyields : Yields refused shuffle.replacements s ["\x7b\x7bb\x7d\x7d", "one"] s :=
    .cons_name [_] rfl rfl ha (.cons_name [] rfl rfl hb .nil)
  have hout : (interpolate refused shuffle.replacements shuffle.text s).MayEnd
      (.ok "one \x7b\x7bb\x7d\x7d".toList) s :=
    mayEnd_interpolate.mpr ⟨_, hyields, by decide⟩
  intro h
  exact absurd (h refused shuffle s s _ _ hyields hout) (by decide)

end Play
end Parley

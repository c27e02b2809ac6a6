import Parley.Interpolate

/-
What interpolation does beside the text.

The text that is given takes no part in the evaluation: a replacement is evaluated and
shown whether its placeholder stands in the text or not, and the swaps come from what was
shown alone (`interpolate_eq`).  So two texts make a session do the same, entry by entry
(`oblivious`).

Both sides are compared as runs and not by how they end.  Runs that are equal call the same
methods with the same arguments, pause in the same places and go on in the same way from
whatever state others leave behind in a pause.
-/

namespace Parley

/-! ## Runs without their results -/

namespace Act

variable {σ ε α β : Type}

/-- A run of which nothing but its effect is left. -/
def effect (x : Act σ ε α) : Act σ ε Unit := (fun _ => ()) <$> x

theorem effect_map (f : α → β) (x : Act σ ε α) : (f <$> x).effect = x.effect := by
  rw [effect, Functor.map_map, effect]

theorem effect_bind (x : Act σ ε α) (f : α → Act σ ε β) :
    (x >>= f).effect = x >>= fun a => (f a).effect := by
  rw [effect, map_bind]
  rfl

theorem effect_bind_const (x : Act σ ε α) (y : Act σ ε β) :
    (x >>= fun _ => y).effect = x.effect >>= fun _ => y.effect := by
  rw [effect_bind]
  exact (bind_map_left (fun _ => ()) x fun _ => y.effect).symm

/-- The effect of a run has the ends of the run. -/
theorem mayEnd_effect {x : Act σ ε α} {r : Except ε Unit} {s t : σ} :
    (x.effect s).MayEnd r t ↔ ∃ r', (x s).MayEnd r' t ∧ r = r'.map fun _ => () := by
  rw [effect, map_eq_pure_bind, mayEnd_bind]
  constructor
  · rintro (⟨a, u, ha, hr⟩ | ⟨e, he, rfl⟩)
    · obtain ⟨rfl, rfl⟩ := mayEnd_pure.mp hr
      exact ⟨.ok a, ha, rfl⟩
    · exact ⟨.error e, he, rfl⟩
  · rintro ⟨r', hr', rfl⟩
    cases r' with
    | ok a => exact .inl ⟨a, t, hr', mayEnd_pure.mpr ⟨rfl, rfl⟩⟩
    | error e => exact .inr ⟨e, hr', rfl⟩

/-- Runs of one effect come to the same states, and fail in them with the same fault. -/
theorem mayEnd_of_effect_eq {x : Act σ ε α} {y : Act σ ε β} {r : Except ε α} {s t : σ}
    (h : x.effect = y.effect) (hr : (x s).MayEnd r t) :
    ∃ r', (y s).MayEnd r' t ∧ (r.map fun _ => ()) = r'.map fun _ => () := by
  have heffect : (x.effect s).MayEnd (r.map fun _ => ()) t := mayEnd_effect.mpr ⟨r, hr, rfl⟩
  rw [h] at heffect
  exact mayEnd_effect.mp heffect

end Act

/-! ## Values first, swaps afterwards -/

/-- Swaps texts that were computed for replacements, one after another. -/
def swapAll (text : List Char) : List (Replacement × String) → List Char
  | [] => text
  | (r, new) :: rest => swapAll (replaceFirst r.placeholder.toList new.toList text) rest

namespace Play

/-- The text of the value that a replacement puts in. -/
def shown (ask : Ask) (r : Replacement) : Play String := do
  let v ← replacementValue ask r
  Act.ofExcept v.display

/-- The replacements that are evaluated, with what each of them is shown as. -/
def shownAll (ask : Ask) : List Replacement → Play (List (Replacement × String))
  | [] => pure []
  | r :: rs =>
    if r.placeholder == "" then shownAll ask rs
    else do
      let new ← shown ask r
      let rest ← shownAll ask rs
      pure ((r, new) :: rest)

variable {ask : Ask}

theorem interpolate_cons {r : Replacement} (h : r.placeholder ≠ "") (rs : List Replacement)
    (text : List Char) : interpolate ask (r :: rs) text = shown ask r >>= fun new =>
      interpolate ask rs (replaceFirst r.placeholder.toList new.toList text) := by
  rw [interpolate, if_neg (by simpa using h), shown, bind_assoc]

theorem interpolate_cons_empty {r : Replacement} (h : r.placeholder = "") (rs : List Replacement)
    (text : List Char) : interpolate ask (r :: rs) text = interpolate ask rs text := by
  rw [interpolate, if_pos (by simpa using h)]

theorem shownAll_cons {r : Replacement} (h : r.placeholder ≠ "") (rs : List Replacement) :
    shownAll ask (r :: rs) = shown ask r >>= fun new =>
      (fun rest => (r, new) :: rest) <$> shownAll ask rs := by
  rw [shownAll, if_neg (by simpa using h)]
  simp only [map_eq_pure_bind]

theorem shownAll_cons_empty {r : Replacement} (h : r.placeholder = "") (rs : List Replacement) :
    shownAll ask (r :: rs) = shownAll ask rs := by
  rw [shownAll, if_pos (by simpa using h)]

/-- The text comes in after everything has been evaluated. -/
theorem interpolate_eq (ask : Ask) (rs : List Replacement) (text : List Char) :
    interpolate ask rs text = swapAll text <$> shownAll ask rs := by
  induction rs generalizing text with
  | nil => rfl
  | cons r rs ih =>
    by_cases h : r.placeholder = ""
    · rw [interpolate_cons_empty h, shownAll_cons_empty h, ih]
    · rw [interpolate_cons h, shownAll_cons h, map_bind]
      refine congrArg (shown ask r >>= ·) (funext fun new => ?_)
      rw [ih, Functor.map_map]
      rfl

theorem effect_interpolate (ask : Ask) (rs : List Replacement) (text : List Char) :
    (interpolate ask rs text).effect = (shownAll ask rs).effect := by
  rw [interpolate_eq, Act.effect_map]

theorem effect_shownAll_cons {r : Replacement} (h : r.placeholder ≠ "") (rs : List Replacement) :
    (shownAll ask (r :: rs)).effect =
      (shown ask r).effect >>= fun _ => (shownAll ask rs).effect := by
  rw [shownAll_cons h, ← Act.effect_bind_const, Act.effect_bind, Act.effect_bind]
  simp only [Act.effect_map]

theorem effect_shownAll_append (before after : List Replacement) :
    (shownAll ask (before ++ after)).effect =
      (shownAll ask before).effect >>= fun _ => (shownAll ask after).effect := by
  induction before with
  | nil => rfl
  | cons r rs ih =>
    by_cases h : r.placeholder = ""
    · rw [List.cons_append, shownAll_cons_empty h, shownAll_cons_empty h, ih]
    · rw [List.cons_append, effect_shownAll_cons h, effect_shownAll_cons h, ih, bind_assoc]

/-! ## No text is asked -/

/-- What interpolation with some replacements does beside the text. -/
structure Oblivious (ask : Ask) (rs : List Replacement) : Prop where
  /-- It is the same run for any two texts: the same calls and pauses in the same order,
  whatever others do in a pause. -/
  same : ∀ text text', (interpolate ask rs text).effect = (interpolate ask rs text').effect
  /-- It may fail for one text as it may for the other, and leaves the same session. -/
  fails : ∀ text text' s t f, (interpolate ask rs text s).MayEnd (.error f) t →
    (interpolate ask rs text' s).MayEnd (.error f) t
  /-- It may come to a text for one as it may for the other, and leaves the same session. -/
  ends : ∀ text text' s t out, (interpolate ask rs text s).MayEnd (.ok out) t →
    ∃ out', (interpolate ask rs text' s).MayEnd (.ok out') t
  /-- A replacement is evaluated once, after the earlier ones and before the later ones,
  also where the text does not hold its placeholder. -/
  once : ∀ before r after, rs = before ++ r :: after → r.placeholder ≠ "" → ∀ text,
    (interpolate ask rs text).effect = do
      (interpolate ask before text).effect
      (shown ask r).effect
      (interpolate ask after text).effect
  /-- One without a placeholder might as well not be there. -/
  never : ∀ before r after, rs = before ++ r :: after → r.placeholder = "" → ∀ text,
    interpolate ask rs text = interpolate ask (before ++ after) text

theorem interpolate_append_empty {r : Replacement} (h : r.placeholder = "")
    (before after : List Replacement) (text : List Char) :
    interpolate ask (before ++ r :: after) text = interpolate ask (before ++ after) text := by
  induction before generalizing text with
  | nil => exact interpolate_cons_empty h after text
  | cons q before ih =>
    by_cases hq : q.placeholder = ""
    · rw [List.cons_append, List.cons_append, interpolate_cons_empty hq,
        interpolate_cons_empty hq, ih]
    · rw [List.cons_append, List.cons_append, interpolate_cons hq, interpolate_cons hq]
      exact congrArg (shown ask q >>= ·) (funext fun new => ih _)

theorem oblivious (ask : Ask) (rs : List Replacement) : Oblivious ask rs := by
  have hsame (text text' : List Char) :
      (interpolate ask rs text).effect = (interpolate ask rs text').effect := by
    rw [effect_interpolate, effect_interpolate]
  constructor
  case same => exact hsame
  case fails =>
    intro text text' s t f hf
    obtain ⟨r, hr, hmap⟩ := Act.mayEnd_of_effect_eq (hsame text text') hf
    cases r <;> cases hmap
    exact hr
  case ends =>
    intro text text' s t out hout
    obtain ⟨r, hr, hmap⟩ := Act.mayEnd_of_effect_eq (hsame text text') hout
    cases r <;> cases hmap
    exact ⟨_, hr⟩
  case once =>
    rintro before r after rfl hr text
    simp only [effect_interpolate]
    rw [effect_shownAll_append, effect_shownAll_cons hr]
  case never =>
    rintro before r after rfl hr text
    exact interpolate_append_empty hr before after text

end Play
end Parley

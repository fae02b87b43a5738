import JassOutline.Proofs.LineEnd.Document

/-!
# What a look-up by position finds

Of the declarations around a position, a look-up gives the first one that crosses the fewest line
ends and then starts first. Where regions cross equally many line ends, this is not the innermost
declaration but the one that starts first. So a declaration inside of the one that is given may be
missed, but only one that starts on the same line and ends on the same line.

## Key results

- `Region.sharesLines_of_noWider`: where a region inside of another one is no narrower
- `narrowest?_eq_some`: which declaration is taken, and where it stands among those that tie with it
- `isNarrowest_of_around?`: the declaration that is found around a position
- `functionAt_narrowest`: the look-ups of functions and methods, `functionAt_not_isInnermost`: where
  they miss one
-/

namespace JassOutline

/-! ### Narrow regions -/

namespace Program

variable {a b c : Region}

theorem noWider_iff :
    noWider a b = true ↔
      a.lineCount < b.lineCount ∨ a.lineCount = b.lineCount ∧ a.start ≤ b.start := by
  simp [noWider]

theorem noWider_total (a b : Region) : noWider a b = true ∨ noWider b a = true := by
  rw [noWider_iff, noWider_iff]
  rcases Nat.lt_trichotomy a.lineCount b.lineCount with hlt | heq | hgt
  · exact .inl (.inl hlt)
  · exact (Position.le_total a.start b.start).imp (fun h => .inr ⟨heq, h⟩)
      fun h => .inr ⟨heq.symm, h⟩
  · exact .inr (.inl hgt)

theorem noWider_refl (a : Region) : noWider a a = true :=
  (noWider_total a a).elim id id

theorem noWider_trans (hab : noWider a b = true) (hbc : noWider b c = true) :
    noWider a c = true := by
  rw [noWider_iff] at *
  rcases hab with hab | ⟨hab, hstart⟩ <;> rcases hbc with hbc | ⟨hbc, hstart'⟩
  · exact .inl (Nat.lt_trans hab hbc)
  · exact .inl (hbc ▸ hab)
  · exact .inl (hab ▸ hbc)
  · exact .inr ⟨hab.trans hbc, Position.le_trans hstart hstart'⟩

end Program

namespace Region

/-- The region lies in the other one and is not the whole of it. -/
def StrictlyInside (inner outer : Region) : Prop :=
  outer.start ≤ inner.start ∧ inner.stop ≤ outer.stop ∧ inner ≠ outer

/-- Both regions start on the same line and end on the same line. -/
def SharesLines (a b : Region) : Prop :=
  a.start.line = b.start.line ∧ a.stop.line = b.stop.line

instance (inner outer : Region) : Decidable (inner.StrictlyInside outer) :=
  inferInstanceAs (Decidable (outer.start ≤ inner.start ∧ inner.stop ≤ outer.stop ∧ inner ≠ outer))

/-- A region around a position that lies in another one, which is no wider, has the lines of that
region. -/
theorem sharesLines_of_noWider {inner outer : Region} {p : Position}
    (h : Program.noWider outer inner = true) (hinside : inner.StrictlyInside outer)
    (hp : inner.contains p = true) : inner.SharesLines outer := by
  obtain ⟨hstart, hstop, -⟩ := hinside
  obtain ⟨hbefore, hbehind⟩ := contains_iff.1 hp
  have hlines : outer.lineCount ≤ inner.lineCount := by
    rcases Program.noWider_iff.1 h with hlt | ⟨heq, -⟩
    · exact Nat.le_of_lt hlt
    · exact Nat.le_of_eq heq
  rw [Position.le_iff] at hstart hstop hbefore hbehind
  rw [lineCount, lineCount] at hlines
  constructor <;> omega

end Region

namespace Program

/-! ### The narrowest declaration -/

variable {α : Type} {heading : α → Heading} {p : Position} {declarations : List α} {found : α}

theorem narrowest?_eq_none : narrowest? heading declarations = none ↔ declarations = [] := by
  rw [← Option.isNone_iff_eq_none, ← Option.not_isSome, narrowest?_isSome]
  simp

/-- No declaration is narrower than one that all in front of it are wider than, and that is no wider
than all behind it. -/
theorem noWider_of_mem {front back : List α} {other : α}
    (hfront : ∀ other ∈ front, noWider (heading other).region (heading found).region = false)
    (hback : ∀ other ∈ back, noWider (heading found).region (heading other).region = true)
    (h : other ∈ front ++ found :: back) :
    noWider (heading found).region (heading other).region = true := by
  rcases List.mem_append.1 h with hmem | hmem
  · exact (noWider_total ..).resolve_left (by simp [hfront other hmem])
  · rcases List.mem_cons.1 hmem with rfl | hmem
    · exact noWider_refl _
    · exact hback other hmem

/-- What stands in front of the narrowest declaration is wider, and what stands behind it is no
narrower. -/
theorem narrowest?_eq_some (h : narrowest? heading declarations = some found) :
    ∃ front back, declarations = front ++ found :: back ∧
      (∀ other ∈ front, noWider (heading other).region (heading found).region = false) ∧
      ∀ other ∈ back, noWider (heading found).region (heading other).region = true := by
  induction declarations generalizing found with
  | nil => cases h
  | cons first rest ih =>
    rw [narrowest?] at h
    split at h
    · next hnone =>
      obtain rfl := narrowest?_eq_none.1 hnone
      obtain rfl := Option.some.inj h
      exact ⟨[], [], rfl, by simp, by simp⟩
    · next best hbest =>
      obtain ⟨front, back, hrest, hfront, hback⟩ := ih hbest
      split at h
      · next hfirst =>
        -- The first one is no wider than the best of the rest, and so than all of them
        obtain rfl := Option.some.inj h
        refine ⟨[], rest, rfl, by simp, fun other hother => noWider_trans hfirst ?_⟩
        exact noWider_of_mem hfront hback (hrest ▸ hother)
      · next hfirst =>
        obtain rfl := Option.some.inj h
        refine ⟨first :: front, back, by rw [hrest]; rfl, ?_, hback⟩
        exact List.forall_mem_cons.2 ⟨by simpa using hfirst, hfront⟩

/-! ### Declarations around a position -/

/-- No declaration around the position lies strictly inside of the given one. -/
def IsInnermost (heading : α → Heading) (p : Position) (declarations : List α) (found : α) :
    Prop :=
  ∀ other ∈ declarations, (heading other).region.contains p = true →
    ¬(heading other).region.StrictlyInside (heading found).region

instance (heading : α → Heading) (p : Position) (declarations : List α) (found : α) :
    Decidable (IsInnermost heading p declarations found) :=
  inferInstanceAs (Decidable (∀ other ∈ declarations, (heading other).region.contains p = true →
    ¬(heading other).region.StrictlyInside (heading found).region))

/-- The declaration is the first one around the position that crosses the fewest line ends and then
starts first. It is the innermost one, unless one inside of it shares its lines. -/
structure IsNarrowest (heading : α → Heading) (p : Position) (declarations : List α) (found : α) :
    Prop where
  mem : found ∈ declarations
  contains : (heading found).region.contains p = true
  first : ∃ front back,
    (declarations.filter fun other => (heading other).region.contains p) = front ++ found :: back ∧
    (∀ other ∈ front, noWider (heading other).region (heading found).region = false) ∧
    ∀ other ∈ back, noWider (heading found).region (heading other).region = true
  isInnermost_iff : IsInnermost heading p declarations found ↔
    ∀ other ∈ declarations, (heading other).region.contains p = true →
      (heading other).region.SharesLines (heading found).region →
      ¬(heading other).region.StrictlyInside (heading found).region

theorem around?_eq_none : around? heading p declarations = none ↔
    ∀ other ∈ declarations, (heading other).region.contains p = false := by
  simp [around?, narrowest?_eq_none]

theorem isNarrowest_of_around? (h : around? heading p declarations = some found) :
    IsNarrowest heading p declarations found := by
  obtain ⟨front, back, hfilter, hfront, hback⟩ := narrowest?_eq_some h
  have hmem : found ∈ declarations ∧ (heading found).region.contains p = true := by
    rw [← List.mem_filter (p := fun other => (heading other).region.contains p), hfilter]
    exact List.mem_append_right _ List.mem_cons_self
  refine ⟨hmem.1, hmem.2, ⟨front, back, hfilter, hfront, hback⟩, ?_⟩
  refine ⟨fun h other hother hp _ => h other hother hp, fun h other hother hp hinside => ?_⟩
  -- Whatever lies around the position is no narrower than what was found
  have hall : other ∈ front ++ found :: back := hfilter ▸ List.mem_filter.2 ⟨hother, hp⟩
  have hlines := Region.sharesLines_of_noWider (noWider_of_mem hfront hback hall) hinside hp
  exact h other hother hp hlines hinside

/-- A look-up by position gives nothing if and only if nothing lies around the position. Otherwise
it gives the first of the functions, or methods, around the position that cross the fewest line
ends and then start first. No other one around the position lies strictly inside of it, unless that
one starts on the same line and ends on the same line. -/
theorem functionAt_narrowest (program : Program) (p : Position) :
    (program.functionAt p = none ↔
      ∀ function ∈ program.allFunctions, function.region.contains p = false) ∧
    (∀ function ∈ program.functionAt p,
      IsNarrowest Function.toHeading p program.allFunctions function) ∧
    (program.methodAt p = none ↔
      ∀ method ∈ program.allMethods, method.region.contains p = false) ∧
    ∀ method ∈ program.methodAt p, IsNarrowest Method.toHeading p program.allMethods method :=
  ⟨around?_eq_none, fun _ => isNarrowest_of_around?, around?_eq_none,
    fun _ => isNarrowest_of_around?⟩

/-- A macro that is invoked twice puts two functions on the line of its body. -/
def twiceInvokedText : List Char :=
  ("//! textmacro F(indent, name)\n$indent$function $name$() \x7b\x7d\n//! endtextmacro\n" ++
    "//! zinc\n//! runtextmacro F(\"\", \"outer\")\n//! runtextmacro F(\" \", \"f\")\n" ++
    "//! endzinc\n").toList

/-- A function on the line of the macro. -/
def functionOfMacro (name : String) (start stop : Nat) : Function :=
  { name := some name, comments := [], region := .onLine 1 start stop, visibility := .unmarked
    isConstant := false, parameters := [], returns := none, locals := [], globals := [] }

/-- The program of the zinc block. -/
def twiceInvokedProgram : Program :=
  { Program.empty 0 with functions := [functionOfMacro "outer" 0 19, functionOfMacro "f" 1 16] }

/-- The function that is found is not the innermost one around the position. -/
theorem functionAt_not_isInnermost :
    (Document.read 0 none twiceInvokedText).zincProgram = .ok twiceInvokedProgram ∧
    twiceInvokedProgram.functionAt ⟨1, 3⟩ = some (functionOfMacro "outer" 0 19) ∧
    ¬IsInnermost Function.toHeading ⟨1, 3⟩ twiceInvokedProgram.allFunctions
      (functionOfMacro "outer" 0 19) := by
  have hhalts : ((Expansion.Machine.start
      (Document.extraction 0 twiceInvokedText).remaining).after
        (Document.context 0 none twiceInvokedText) 8).step
          (Document.context 0 none twiceInvokedText) = none := by
    decide +kernel
  refine ⟨?_, by decide, by decide⟩
  rw [Document.zincProgram, Document.zincTokens_of_halts hhalts]
  decide +kernel

end Program

end JassOutline

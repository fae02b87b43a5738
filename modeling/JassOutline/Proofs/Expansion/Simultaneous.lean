import JassOutline.Proofs.Expansion.Marker
import Mathlib.Data.List.Nodup

/-!
# Parameters replaced all at once

To replace parameters one after the other differs from replacing them all at once where an argument
brings a marker with it, or where two dollar signs of different markers come to enclose the name of
a parameter. Where neither can happen, the order of the parameters does not matter.

## Key results

- `findsOwn_of_enclosesNoName`: parameters find their own markers if no dollar signs enclose a name
  by accident
- `IsClear.substitute_perm`: parameters in another order
- `instantiate_simultaneous`: the same for whole definitions
-/

namespace JassOutline.TextMacro

open Text

/-! ### Names between dollar signs -/

/-- Whether the line starts with the name and a dollar sign, where the given texts may stand in
place of the markers in front of that sign. -/
def isAhead (value : String → List Char) (name : List Char) : List Part → Bool
  | [] => false
  | .char c :: rest =>
    if c = '$' then name.isEmpty else (dropLeading? [c] name).any (isAhead value · rest)
  | .marker parameter :: rest =>
    name.isEmpty || (dropLeading? (value parameter) name).any (isAhead value · rest)

/-- Whether the part is a dollar sign or ends with one. -/
def Part.endsInDollar : Part → Bool
  | char c => c == '$'
  | marker _ => true

/-- Whether no two dollar signs enclose one of the names, other than those of one marker. The
markers between the two may have given way to the given texts. -/
def enclosesNoName (value : String → List Char) (names : List String) : List Part → Bool
  | [] => true
  | part :: rest =>
    (!part.endsInDollar || names.all fun name => !isAhead value name.toList rest) &&
      enclosesNoName value names rest

section

variable {value : String → List Char} {names : List String} {parameter : String}
  {argument : List Char}

theorem isAhead_append (h : '$' ∉ argument) (name : List Char) (rest : List Part) :
    isAhead value name (argument.map .char ++ rest) =
      (dropLeading? argument name).any (isAhead value · rest) := by
  induction argument generalizing name with
  | nil => simp [dropLeading?]
  | cons c argument ih =>
    obtain ⟨hc, hargument⟩ := not_or.1 (mt List.mem_cons.2 h)
    rw [List.map_cons, List.cons_append, isAhead, if_neg (Ne.symm hc)]
    cases name with
    | nil => rfl
    | cons d name =>
      simp only [dropLeading?]
      split
      · simpa [dropLeading?] using ih hargument name
      · rfl

theorem enclosesNoName_append (h : '$' ∉ argument) (rest : List Part) :
    enclosesNoName value names (argument.map .char ++ rest) = enclosesNoName value names rest := by
  induction argument with
  | nil => rfl
  | cons c argument ih =>
    obtain ⟨hc, hargument⟩ := not_or.1 (mt List.mem_cons.2 h)
    have hends : (Part.char c).endsInDollar = false := by simpa [Part.endsInDollar] using Ne.symm hc
    rw [List.map_cons, List.cons_append, enclosesNoName, hends, ih hargument]
    rfl

/-- What can be read off a line with its markers in place is ahead in it. -/
theorem isAhead_of_fill {line : List Part} {name behind : List Char} (hname : '$' ∉ name)
    (h : fill placeholder line = name ++ '$' :: behind) : isAhead value name line = true := by
  induction line generalizing name with
  | nil => simp [fill] at h
  | cons part rest ih =>
    cases part with
    | char c =>
      have htext : c :: fill placeholder rest = name ++ '$' :: behind := h
      rw [isAhead]
      cases name with
      | nil =>
        rw [if_pos (List.cons_eq_cons.1 htext).1]
        rfl
      | cons d name =>
        obtain ⟨hd, hnames⟩ := not_or.1 (mt List.mem_cons.2 hname)
        obtain ⟨rfl, hrest⟩ := List.cons_eq_cons.1 htext
        rw [if_neg (Ne.symm hd)]
        simpa [dropLeading?] using ih hnames hrest
    | marker other =>
      -- The marker starts with a dollar sign, so nothing stands in front of it
      have htext : '$' :: (other.toList ++ ['$'] ++ fill placeholder rest) =
          name ++ '$' :: behind := h
      rw [isAhead]
      cases name with
      | nil => rfl
      | cons d name =>
        obtain ⟨rfl, -⟩ := List.cons_eq_cons.1 htext
        exact absurd List.mem_cons_self hname

/-- A marker that gives way to its text brings nothing ahead. -/
theorem isAhead_of_replace (hargument : '$' ∉ argument) {line : List Part}
    (hvalue : .marker parameter ∈ line → value parameter = argument) {name : List Char}
    (h : isAhead value name (line.flatMap (Part.replace parameter argument)) = true) :
    isAhead value name line = true := by
  induction line generalizing name with
  | nil => exact h
  | cons part rest ih =>
    have ih' := fun name => @ih (fun hmem => hvalue (List.mem_cons_of_mem _ hmem)) name
    -- What is ahead in the rest is ahead in it as it was
    have hany : ∀ left : Option (List Char),
        left.any (isAhead value · (rest.flatMap (Part.replace parameter argument))) = true →
          left.any (isAhead value · rest) = true := by
      intro left hleft
      cases left with
      | none => exact hleft
      | some name => exact ih' name hleft
    rw [List.flatMap_cons] at h
    cases part with
    | char c =>
      change isAhead value name (.char c :: _) = true at h
      rw [isAhead] at h ⊢
      by_cases hc : c = '$'
      · rwa [if_pos hc] at h ⊢
      · rw [if_neg hc] at h ⊢
        exact hany _ h
    | marker other =>
      rw [isAhead, Bool.or_eq_true]
      rw [Part.replace] at h
      split at h
      · next hsame =>
        subst hsame
        rw [isAhead_append hargument] at h
        rw [hvalue List.mem_cons_self]
        exact .inr (hany _ h)
      · rw [List.singleton_append, isAhead, Bool.or_eq_true] at h
        exact h.imp_right (hany _)

theorem enclosesNoName_replace (hargument : '$' ∉ argument) {line : List Part}
    (hvalue : .marker parameter ∈ line → value parameter = argument)
    (h : enclosesNoName value names line = true) :
    enclosesNoName value names (line.flatMap (Part.replace parameter argument)) = true := by
  induction line with
  | nil => rfl
  | cons part rest ih =>
    have hrest := fun hmem => hvalue (List.mem_cons_of_mem _ hmem)
    rw [enclosesNoName, Bool.and_eq_true] at h
    rw [List.flatMap_cons]
    -- A part that stays is followed by no name that it was not followed by before
    have hstays : enclosesNoName value names
        (part :: rest.flatMap (Part.replace parameter argument)) = true := by
      rw [enclosesNoName, Bool.and_eq_true]
      refine ⟨?_, ih hrest h.2⟩
      have hpart := h.1
      simp only [Bool.or_eq_true, List.all_eq_true, Bool.not_eq_true'] at hpart ⊢
      refine hpart.imp_right fun hnames name hname => ?_
      have hold := hnames name hname
      rw [← Bool.not_eq_true] at hold ⊢
      exact mt (isAhead_of_replace hargument hrest) hold
    cases part with
    | char c => exact hstays
    | marker other =>
      rw [Part.replace]
      split
      · rw [enclosesNoName_append hargument]
        exact ih hrest h.2
      · exact hstays

theorem enclosesNoName_of_subset {others : List String} (hsubset : others ⊆ names)
    {line : List Part} (h : enclosesNoName value names line = true) :
    enclosesNoName value others line = true := by
  induction line with
  | nil => rfl
  | cons part rest ih =>
    rw [enclosesNoName, Bool.and_eq_true] at h ⊢
    refine ⟨?_, ih h.2⟩
    have hpart := h.1
    simp only [Bool.or_eq_true, List.all_eq_true] at hpart ⊢
    exact hpart.imp_right fun hnames name hname => hnames name (hsubset hname)

/-! ### Clear lines -/

/-- Up to the first dollar sign, two texts are the same. -/
theorem eq_of_append_dollar {a b rest behind : List Char} (ha : '$' ∉ a) (hb : '$' ∉ b)
    (h : a ++ '$' :: rest = b ++ '$' :: behind) : a = b := by
  -- If one of the two were longer, it would have the dollar sign behind the other
  rcases List.append_eq_append_iff.1 h with ⟨later, rfl, hlater⟩ | ⟨later, rfl, hlater⟩
  · cases later with
    | nil => exact (List.append_nil a).symm
    | cons c later =>
      obtain ⟨rfl, -⟩ := List.cons_eq_cons.1 hlater
      exact absurd (by simp) hb
  · cases later with
    | nil => exact List.append_nil b
    | cons c later =>
      obtain ⟨rfl, -⟩ := List.cons_eq_cons.1 hlater
      exact absurd (by simp) ha

/-- At most one marker starts at a place, if no name has a dollar sign. -/
theorem eq_of_startsWith {other : String} {text : List Char} (hparameter : '$' ∉ parameter.toList)
    (hother : '$' ∉ other.toList) (h : startsWith (placeholder parameter) text = true)
    (h' : startsWith (placeholder other) text = true) : parameter = other := by
  obtain ⟨rest, rfl⟩ := startsWith_iff.1 h
  obtain ⟨behind, hbehind⟩ := startsWith_iff.1 h'
  simp only [placeholder, List.cons_append, List.append_assoc, List.nil_append,
    List.cons.injEq, true_and] at hbehind
  exact String.toList_injective (eq_of_append_dollar hparameter hother hbehind)

/-- No marker starts at a dollar sign if the name of the parameter is not ahead. -/
theorem markerAt?_dollar (hparameter : '$' ∉ parameter.toList) {line : List Part}
    (h : isAhead value parameter.toList line = false) :
    markerAt? [parameter] ('$' :: fill placeholder line) = none := by
  rw [markerAt?_singleton, if_neg]
  intro hstart
  obtain ⟨behind, hbehind⟩ := startsWith_iff.1 hstart
  simp only [placeholder, List.cons_append, List.append_assoc, List.nil_append,
    List.cons.injEq, true_and] at hbehind
  rw [isAhead_of_fill hparameter hbehind] at h
  cases h

/-- In a clear line, a parameter finds its own markers and nothing else. -/
theorem parts_of_enclosesNoName (hnames : ∀ name ∈ names, '$' ∉ name.toList)
    (hmem : parameter ∈ names) {line : List Part}
    (hline : ∀ other, .marker other ∈ line → other ∈ names)
    (h : enclosesNoName value names line = true) :
    parts [parameter] (fill placeholder line) = line.flatMap (Part.only parameter) := by
  have hparameter := hnames parameter hmem
  induction line with
  | nil => exact parts_nil
  | cons part rest ih =>
    rw [enclosesNoName, Bool.and_eq_true] at h
    have hrest := ih (fun other hother => hline other (List.mem_cons_of_mem _ hother)) h.2
    -- Behind a dollar sign, the name is not ahead
    have hdollar : part.endsInDollar = true →
        markerAt? [parameter] ('$' :: fill placeholder rest) = none := fun hends => by
      have hpart := h.1
      rw [hends] at hpart
      simp only [Bool.not_true, Bool.false_or, List.all_eq_true, Bool.not_eq_true'] at hpart
      exact markerAt?_dollar hparameter (hpart parameter hmem)
    rw [List.flatMap_cons]
    cases part with
    | char c =>
      have hnone : markerAt? [parameter] (c :: fill placeholder rest) = none := by
        by_cases hc : c = '$'
        · subst hc
          exact hdollar rfl
        · exact markerAt?_of_ne hc _
      exact (parts_char hnone).trans (congrArg (.char c :: ·) hrest)
    | marker other =>
      have hother := hnames other (hline other List.mem_cons_self)
      change parts [parameter] (placeholder other ++ fill placeholder rest) = _
      have hstart : startsWith (placeholder other)
          (placeholder other ++ fill placeholder rest) = true := startsWith_iff.2 ⟨_, rfl⟩
      rw [Part.only]
      split
      · next hsame =>
        subst hsame
        rw [parts_marker (by rw [markerAt?_singleton, if_pos hstart]), hrest]
        rfl
      · next hne =>
        -- The marker is read as text: its first dollar sign, its name and its second dollar sign
        have hfirst :
            markerAt? [parameter] (placeholder other ++ fill placeholder rest) = none := by
          rw [markerAt?_singleton, if_neg fun hstart' =>
            hne (eq_of_startsWith hother hparameter hstart hstart')]
        rw [placeholder, List.cons_append, List.cons_append, List.append_assoc] at hfirst ⊢
        rw [parts_char hfirst, parts_append hother, List.singleton_append,
          parts_char (hdollar rfl), hrest]
        simp

/-- In a clear line, parameters find their own markers, one after the other. -/
theorem findsOwn_of_enclosesNoName (hnames : ∀ name ∈ names, '$' ∉ name.toList)
    {parameters arguments : List String} (hsubset : parameters ⊆ names)
    (harguments : ∀ argument ∈ arguments, '$' ∉ argument.toList) {line : List Part}
    (hline : ∀ other, .marker other ∈ line →
      other ∈ names ∧ argumentOf parameters arguments other = value other)
    (h : enclosesNoName value names line = true) : findsOwn parameters arguments line = true := by
  induction parameters generalizing arguments line with
  | nil => rfl
  | cons parameter parameters ih =>
    have hargument : '$' ∉ (arguments.headD "").toList := by
      cases arguments with
      | nil => simp
      | cons argument arguments => exact harguments argument List.mem_cons_self
    have hvalue : .marker parameter ∈ line → value parameter = (arguments.headD "").toList :=
      fun hmem => by rw [← (hline parameter hmem).2, argumentOf, if_pos rfl]
    rw [findsOwn, Bool.and_eq_true, beq_iff_eq]
    refine ⟨parts_of_enclosesNoName hnames (hsubset List.mem_cons_self)
      (fun other hother => (hline other hother).1) h, ?_⟩
    refine ih (List.subset_of_cons_subset hsubset)
      (fun argument hmem => harguments argument (List.mem_of_mem_tail hmem)) ?_
      (enclosesNoName_replace hargument hvalue h)
    -- A marker that is left is one of another parameter
    intro other hother
    obtain ⟨part, hpart, hother⟩ := List.mem_flatMap.1 hother
    cases part with
    | char c => simp [Part.replace] at hother
    | marker found =>
      rw [Part.replace] at hother
      split at hother
      · simp at hother
      · next hne =>
        cases List.mem_singleton.1 hother
        have hold := hline other hpart
        rw [argumentOf, if_neg hne] at hold
        exact hold

end

/-! ### Parameters in another order -/

section

variable {parameters others : List String}

theorem markerAt?_eq_some_iff (hdollar : ∀ parameter ∈ parameters, '$' ∉ parameter.toList)
    {text : List Char} {parameter : String} :
    markerAt? parameters text = some parameter ↔
      parameter ∈ parameters ∧ startsWith (placeholder parameter) text = true := by
  refine ⟨startsWith_of_markerAt?, fun ⟨hmem, hstart⟩ => ?_⟩
  cases hfound : markerAt? parameters text with
  | none => exact absurd hstart (by simpa using List.find?_eq_none.1 hfound parameter hmem)
  | some found =>
    obtain ⟨hmem', hstart'⟩ := startsWith_of_markerAt? hfound
    rw [eq_of_startsWith (hdollar found hmem') (hdollar parameter hmem) hstart' hstart]

theorem parts_congr (hdollar : ∀ parameter ∈ parameters, '$' ∉ parameter.toList)
    (hsame : ∀ parameter, parameter ∈ parameters ↔ parameter ∈ others) (text : List Char) :
    parts parameters text = parts others text := by
  have hdollar' : ∀ parameter ∈ others, '$' ∉ parameter.toList := fun parameter hmem =>
    hdollar parameter ((hsame parameter).2 hmem)
  have hmarker : ∀ text, markerAt? parameters text = markerAt? others text := fun text => by
    ext parameter
    rw [markerAt?_eq_some_iff hdollar, markerAt?_eq_some_iff hdollar', hsame]
  fun_induction parts parameters text with
  | case1 => exact parts_nil.symm
  | case2 c rest parameter hfound ih => rw [parts, ← hmarker, hfound, ih]
  | case3 c rest hfound ih => rw [parts, ← hmarker, hfound, ih]

theorem argumentOf_of_not_mem {arguments : List String} {name : String} (h : name ∉ parameters) :
    argumentOf parameters arguments name = placeholder name := by
  induction parameters generalizing arguments with
  | nil => rfl
  | cons parameter parameters ih =>
    obtain ⟨hne, hrest⟩ := not_or.1 (mt List.mem_cons.2 h)
    rw [argumentOf, if_neg hne, ih hrest]

variable {pairs pairs' : List (String × String)}

theorem argumentOf_of_mem (hnodup : (pairs.map Prod.fst).Nodup) {name argument : String}
    (h : (name, argument) ∈ pairs) :
    argumentOf (pairs.map Prod.fst) (pairs.map Prod.snd) name = argument.toList := by
  induction pairs with
  | nil => cases h
  | cons pair pairs ih =>
    obtain ⟨hfresh, hnodup⟩ := List.nodup_cons.1 hnodup
    rw [List.map_cons, List.map_cons, argumentOf]
    rcases List.mem_cons.1 h with rfl | h
    · rw [if_pos rfl, List.headD_cons]
    · have hne : name ≠ pair.1 := fun heq =>
        hfresh (heq ▸ List.mem_map_of_mem (f := Prod.fst) h)
      rw [if_neg hne]
      exact ih hnodup h

theorem argumentOf_perm (hperm : pairs.Perm pairs') (hnodup : (pairs.map Prod.fst).Nodup) :
    argumentOf (pairs.map Prod.fst) (pairs.map Prod.snd) =
      argumentOf (pairs'.map Prod.fst) (pairs'.map Prod.snd) := by
  have hnames := hperm.map Prod.fst
  funext name
  by_cases hname : name ∈ pairs.map Prod.fst
  · -- The name has one argument, wherever the pair stands
    obtain ⟨⟨_, argument⟩, hpair, rfl⟩ := List.mem_map.1 hname
    rw [argumentOf_of_mem hnodup hpair,
      argumentOf_of_mem (hnames.nodup_iff.1 hnodup) (hperm.mem_iff.1 hpair)]
  · rw [argumentOf_of_not_mem hname, argumentOf_of_not_mem (mt hnames.mem_iff.2 hname)]

end

/-! ### Clear lines in any order -/

/-- No parameter and no argument has a dollar sign, and no two dollar signs of the text enclose the
name of a parameter, other than those of a marker. -/
structure IsClear (parameters arguments : List String) (text : List Char) : Prop where
  plainParameters : ∀ parameter ∈ parameters, '$' ∉ parameter.toList
  plainArguments : ∀ argument ∈ arguments, '$' ∉ argument.toList
  clear : enclosesNoName (argumentOf parameters arguments) parameters (parts parameters text) = true

namespace IsClear

theorem findsOwn {parameters arguments : List String} {text : List Char}
    (h : IsClear parameters arguments text) :
    TextMacro.findsOwn parameters arguments (parts parameters text) = true :=
  findsOwn_of_enclosesNoName h.plainParameters (List.Subset.refl _) h.plainArguments
    (fun _ hother => ⟨mem_of_mem_parts hother, rfl⟩) h.clear

variable {pairs pairs' : List (String × String)} {text : List Char}
  (h : IsClear (pairs.map Prod.fst) (pairs.map Prod.snd) text) (hperm : pairs.Perm pairs')
  (hnodup : (pairs.map Prod.fst).Nodup)

include h hperm hnodup

theorem perm : IsClear (pairs'.map Prod.fst) (pairs'.map Prod.snd) text := by
  have hnames := hperm.map Prod.fst
  have hclear := h.clear
  rw [argumentOf_perm hperm hnodup, parts_congr h.plainParameters fun _ => hnames.mem_iff] at hclear
  exact ⟨fun parameter hmem => h.plainParameters parameter (hnames.mem_iff.2 hmem),
    fun argument hmem => h.plainArguments argument ((hperm.map Prod.snd).mem_iff.2 hmem),
    enclosesNoName_of_subset hnames.symm.subset hclear⟩

/-- Parameters with their arguments may be replaced in any order. -/
theorem substitute_perm :
    substitute (pairs.map Prod.fst) (pairs.map Prod.snd) text =
      substitute (pairs'.map Prod.fst) (pairs'.map Prod.snd) text := by
  rw [substitute_of_findsOwn h.findsOwn, substitute_of_findsOwn (h.perm hperm hnodup).findsOwn,
    simultaneous, simultaneous, argumentOf_perm hperm hnodup,
    parts_congr h.plainParameters fun _ => (hperm.map Prod.fst).mem_iff]

end IsClear

/-! ### Definitions -/

/-- The body lines with all parameters replaced at once. Each keeps its place. -/
def instantiateAtOnce (definition : TextMacro) (arguments : List String) : List SourceLine :=
  definition.body.map fun record =>
    record.withText (simultaneous definition.parameters arguments record.text.toList)

/-- The definition with other parameters. -/
def withParameters (definition : TextMacro) (parameters : List String) : TextMacro :=
  { definition with parameters }

theorem instantiate_of_findsOwn {definition : TextMacro} {arguments : List String}
    (h : ∀ record ∈ definition.body, findsOwn definition.parameters arguments
      (parts definition.parameters record.text.toList) = true) :
    definition.instantiate arguments = definition.instantiateAtOnce arguments :=
  List.map_congr_left fun record hrecord => by rw [substitute_of_findsOwn (h record hrecord)]

/-- To replace the parameters one after the other is to replace them all at once, if there is only
one of them, or if each finds its own markers and nothing else when its turn comes. The latter is so
wherever no parameter and no argument has a dollar sign and no line has the name of a parameter
between two dollar signs by accident. Then the lines do not depend on the order of the parameters
either. -/
theorem instantiate_simultaneous (definition : TextMacro) (arguments : List String) :
    (∀ parameter, definition.parameters = [parameter] →
      definition.instantiate arguments = definition.instantiateAtOnce arguments) ∧
    ((∀ record ∈ definition.body, findsOwn definition.parameters arguments
        (parts definition.parameters record.text.toList) = true) →
      definition.instantiate arguments = definition.instantiateAtOnce arguments) ∧
    ((∀ record ∈ definition.body, IsClear definition.parameters arguments record.text.toList) →
      definition.instantiate arguments = definition.instantiateAtOnce arguments) ∧
    ∀ pairs pairs' : List (String × String), pairs.Perm pairs' → (pairs.map Prod.fst).Nodup →
      (∀ record ∈ definition.body,
        IsClear (pairs.map Prod.fst) (pairs.map Prod.snd) record.text.toList) →
      (definition.withParameters (pairs.map Prod.fst)).instantiate (pairs.map Prod.snd) =
        (definition.withParameters (pairs'.map Prod.fst)).instantiate (pairs'.map Prod.snd) := by
  refine ⟨fun parameter hparameter => ?_, instantiate_of_findsOwn,
    fun h => instantiate_of_findsOwn fun record hrecord => (h record hrecord).findsOwn,
    fun pairs pairs' hperm hnodup h => ?_⟩
  · refine instantiate_of_findsOwn fun record _ => ?_
    rw [hparameter]
    exact findsOwn_singleton parameter arguments _
  · exact List.map_congr_left fun record hrecord =>
      congrArg record.withText ((h record hrecord).substitute_perm hperm hnodup)

/-! ### A getter and a careless line -/

/-- A definition with one line in its body. -/
def lineMacro (parameters : List String) (line : String) : TextMacro where
  name := "M"
  parameters
  body := [.ofChars line.toList 1 0]
  region := .onLine 0 0 0

/-- The line of a getter. -/
def getterLine : String := "function Get$NAME$ takes nothing returns $TYPE$\n"

theorem instantiate_simultaneous_getter :
    (lineMacro ["NAME"] getterLine).instantiate ["$NAME$"] =
      (lineMacro ["NAME"] getterLine).instantiateAtOnce ["$NAME$"] ∧
    ((∀ record ∈ (lineMacro ["NAME", "TYPE"] getterLine).body,
        findsOwn ["NAME", "TYPE"] ["Life", "$NAME$"]
          (parts ["NAME", "TYPE"] record.text.toList) = true) ∧
      (lineMacro ["NAME", "TYPE"] getterLine).instantiate ["Life", "$NAME$"] =
        (lineMacro ["NAME", "TYPE"] getterLine).instantiateAtOnce ["Life", "$NAME$"]) ∧
    ((∀ record ∈ (lineMacro ["NAME", "TYPE"] getterLine).body,
        IsClear ["NAME", "TYPE"] ["Life", "real"] record.text.toList) ∧
      (lineMacro ["NAME", "TYPE"] getterLine).instantiate ["Life", "real"] =
        (lineMacro ["NAME", "TYPE"] getterLine).instantiateAtOnce ["Life", "real"]) ∧
    (lineMacro ["NAME", "TYPE"] getterLine).instantiate ["Life", "real"] =
      (lineMacro ["TYPE", "NAME"] getterLine).instantiate ["real", "Life"] := by
  have hown : ∀ record ∈ (lineMacro ["NAME", "TYPE"] getterLine).body,
      findsOwn ["NAME", "TYPE"] ["Life", "$NAME$"]
        (parts ["NAME", "TYPE"] record.text.toList) = true := by decide +kernel
  have hclear : ∀ record ∈ (lineMacro ["NAME", "TYPE"] getterLine).body,
      IsClear ["NAME", "TYPE"] ["Life", "real"] record.text.toList := fun record hrecord =>
    ⟨by decide, by decide, by
      revert record
      decide +kernel⟩
  obtain ⟨-, -, hatOnce, hperm⟩ :=
    instantiate_simultaneous (lineMacro ["NAME", "TYPE"] getterLine) ["Life", "real"]
  exact ⟨(instantiate_simultaneous _ _).1 "NAME" rfl,
    ⟨hown, (instantiate_simultaneous _ ["Life", "$NAME$"]).2.1 hown⟩, ⟨hclear, hatOnce hclear⟩,
    hperm [("NAME", "Life"), ("TYPE", "real")] [("TYPE", "real"), ("NAME", "Life")]
      (.swap _ _ _) (by decide) hclear⟩

/-- An argument that brings a marker with it has that replaced in turn, but only for a parameter
that comes later. Where two markers share a dollar sign, the parameter that comes first decides. -/
theorem instantiate_rescans :
    ((lineMacro ["a", "b"] "x = $a$\n").instantiate ["$b$", "1"]).map SourceLine.text =
        ["x = 1\n"] ∧
      ((lineMacro ["a", "b"] "x = $a$\n").instantiateAtOnce ["$b$", "1"]).map SourceLine.text =
        ["x = $b$\n"] ∧
      ((lineMacro ["b", "a"] "x = $a$\n").instantiate ["1", "$b$"]).map SourceLine.text =
        ["x = $b$\n"] ∧
    ((lineMacro ["b", "a"] "$a$b$\n").instantiate ["1", "2"]).map SourceLine.text = ["$a1\n"] ∧
      ((lineMacro ["b", "a"] "$a$b$\n").instantiateAtOnce ["1", "2"]).map SourceLine.text =
        ["2b$\n"] := by
  decide +kernel

end JassOutline.TextMacro

import JassOutline.TextMacro
import Mathlib.Data.List.Basic

/-!
# Lines with markers

The parameters of a text macro are replaced one after the other, and each one is looked for in what
the ones before it have left. To replace them all at once is to cut the line into characters and
markers first. The two agree if each parameter finds its own markers and nothing else.

## Key results

- `fill_parts`: the parts of a text make up the text
- `substitute_of_findsOwn`: one parameter after the other as all at once
- `findsOwn_singleton`: a single parameter finds its own markers, whatever its argument is
-/

namespace JassOutline.TextMacro

open Text

/-! ### Lines with markers -/

/-- A part of a body line. -/
inductive Part where
  | char (c : Char)
  /-- A parameter between dollar signs. -/
  | marker (parameter : String)
  deriving DecidableEq, Repr

/-- The text of a part, with the given texts in place of the markers. -/
def Part.text (value : String → List Char) : Part → List Char
  | char c => [c]
  | marker parameter => value parameter

/-- The text with the given texts in place of the markers. -/
def fill (value : String → List Char) (line : List Part) : List Char :=
  line.flatMap (Part.text value)

/-- The first of the parameters whose marker stands at the start of the text. -/
def markerAt? (parameters : List String) (text : List Char) : Option String :=
  parameters.find? fun parameter => startsWith (placeholder parameter) text

/-- The characters and markers of a text, found from left to right. -/
def parts (parameters : List String) (text : List Char) : List Part :=
  match text with
  | [] => []
  | c :: rest =>
    match markerAt? parameters (c :: rest) with
    | some parameter =>
      .marker parameter :: parts parameters (rest.drop ((placeholder parameter).length - 1))
    | none => .char c :: parts parameters rest
termination_by text.length
decreasing_by
  · simp only [List.length_drop, List.length_cons]; omega
  · simp

/-- The argument of the first parameter with the name. A parameter without an argument stands for
nothing, and what is no parameter for its marker. -/
def argumentOf : List String → List String → String → List Char
  | [], _, name => placeholder name
  | parameter :: parameters, arguments, name =>
    if name = parameter then (arguments.headD "").toList
    else argumentOf parameters arguments.tail name

/-- The text with all markers replaced at once. What an argument brings with it stays as it is. -/
def simultaneous (parameters arguments : List String) (text : List Char) : List Char :=
  fill (argumentOf parameters arguments) (parts parameters text)

/-! ### One parameter at a time -/

/-- The part with only the markers of the given parameter as such. -/
def Part.only (parameter : String) : Part → List Part
  | char c => [.char c]
  | marker other =>
    if other = parameter then [.marker other] else (placeholder other).map .char

/-- The part with the argument in place of the markers of the parameter. -/
def Part.replace (parameter : String) (argument : List Char) : Part → List Part
  | char c => [.char c]
  | marker other => if other = parameter then argument.map .char else [.marker other]

/-- Whether each parameter, when its turn comes, finds the markers that are its own in the line and
nothing else. -/
def findsOwn : List String → List String → List Part → Bool
  | [], _, _ => true
  | parameter :: parameters, arguments, line =>
    parts [parameter] (fill placeholder line) == line.flatMap (Part.only parameter) &&
      findsOwn parameters arguments.tail
        (line.flatMap (Part.replace parameter (arguments.headD "").toList))

/-! ### Cutting a text into parts -/

section

variable {parameters : List String} {parameter : String}

theorem startsWith_of_markerAt? {text : List Char}
    (h : markerAt? parameters text = some parameter) :
    parameter ∈ parameters ∧ startsWith (placeholder parameter) text = true := by
  have hstart := List.find?_some h
  exact ⟨List.mem_of_find?_eq_some h, hstart⟩

theorem markerAt?_singleton (parameter : String) (text : List Char) :
    markerAt? [parameter] text =
      if startsWith (placeholder parameter) text then some parameter else none := by
  rw [markerAt?, List.find?_cons]
  split <;> simp_all

theorem drop_of_startsWith {c : Char} {rest : List Char}
    (h : startsWith (placeholder parameter) (c :: rest) = true) :
    c :: rest =
      placeholder parameter ++ rest.drop ((placeholder parameter).length - 1) := by
  obtain ⟨behind, hbehind⟩ := startsWith_iff.1 h
  obtain ⟨rfl, rfl⟩ := List.cons_eq_cons.1 hbehind
  simp [placeholder]

theorem parts_nil : parts parameters [] = [] := by
  rw [parts]

theorem parts_char {c : Char} {rest : List Char} (h : markerAt? parameters (c :: rest) = none) :
    parts parameters (c :: rest) = .char c :: parts parameters rest := by
  rw [parts, h]

theorem parts_marker {rest : List Char}
    (h : markerAt? parameters (placeholder parameter ++ rest) = some parameter) :
    parts parameters (placeholder parameter ++ rest) =
      .marker parameter :: parts parameters rest := by
  rw [placeholder, List.cons_append, List.cons_append] at h ⊢
  rw [parts, h]
  simp [placeholder]

theorem markerAt?_of_ne {c : Char} (h : c ≠ '$') (rest : List Char) :
    markerAt? parameters (c :: rest) = none := by
  rw [markerAt?, List.find?_eq_none]
  intro parameter _ hstart
  obtain ⟨behind, hbehind⟩ := startsWith_iff.1 hstart
  exact h (List.cons_eq_cons.1 hbehind).1

/-- No marker starts in front of a dollar sign. -/
theorem parts_append {front : List Char} (h : '$' ∉ front) (rest : List Char) :
    parts parameters (front ++ rest) = front.map .char ++ parts parameters rest := by
  induction front with
  | nil => rfl
  | cons c front ih =>
    obtain ⟨hc, hfront⟩ := not_or.1 (mt List.mem_cons.2 h)
    rw [List.cons_append, parts_char (markerAt?_of_ne (Ne.symm hc) _), ih hfront]
    rfl

theorem fill_parts (parameters : List String) (text : List Char) :
    fill placeholder (parts parameters text) = text := by
  fun_induction parts parameters text with
  | case1 => rfl
  | case2 c rest parameter hmarker ih =>
    -- The characters of a marker are put back as they stood
    rw [drop_of_startsWith (startsWith_of_markerAt? hmarker).2]
    exact congrArg (placeholder parameter ++ ·) ih
  | case3 c rest hmarker ih => exact congrArg (c :: ·) ih

theorem mem_of_mem_parts {text : List Char} (h : .marker parameter ∈ parts parameters text) :
    parameter ∈ parameters := by
  fun_induction parts parameters text with
  | case1 => cases h
  | case2 c rest found hmarker ih =>
    -- A marker names one of the parameters
    rcases List.mem_cons.1 h with heq | h
    · cases heq
      exact (startsWith_of_markerAt? hmarker).1
    · exact ih h
  | case3 c rest hmarker ih =>
    rcases List.mem_cons.1 h with heq | h
    · cases heq
    · exact ih h

theorem replaceAll_eq_fill (parameter : String) (argument text : List Char) :
    replaceAll (placeholder parameter) argument text =
      fill (fun _ => argument) (parts [parameter] text) := by
  fun_induction replaceAll (placeholder parameter) argument text with
  | case1 =>
    rw [parts_nil]
    rfl
  | case2 c rest hstart ih =>
    -- Where the placeholder starts there is a marker of its only parameter, and nowhere else
    rw [drop_of_startsWith hstart, parts_marker (by
      rw [← drop_of_startsWith hstart, markerAt?_singleton, if_pos hstart]), ih]
    rfl
  | case3 c rest hstart ih =>
    rw [parts_char (by rw [markerAt?_singleton, if_neg hstart]), ih]
    rfl

end

/-! ### One after the other as all at once -/

section

variable {parameter : String} {argument : List Char}

theorem fill_only (line : List Part) :
    fill (fun _ => argument) (line.flatMap (Part.only parameter)) =
      fill placeholder (line.flatMap (Part.replace parameter argument)) := by
  rw [fill, fill, List.flatMap_assoc, List.flatMap_assoc]
  congr 1
  funext part
  cases part with
  | char c => rfl
  | marker other =>
    rw [Part.only, Part.replace]
    split <;> simp [Part.text, List.flatMap_map]

/-- The argument of a parameter may be put in first. -/
theorem fill_replace (parameters arguments : List String) (parameter : String)
    (line : List Part) :
    fill (argumentOf (parameter :: parameters) arguments) line =
      fill (argumentOf parameters arguments.tail)
        (line.flatMap (Part.replace parameter (arguments.headD "").toList)) := by
  rw [fill, fill, List.flatMap_assoc]
  congr 1
  funext part
  cases part with
  | char c => rfl
  | marker other =>
    rw [Part.replace, Part.text, argumentOf]
    split <;> simp [Part.text, List.flatMap_map]

theorem substitute_fill {parameters arguments : List String} {line : List Part}
    (h : findsOwn parameters arguments line = true) :
    substitute parameters arguments (fill placeholder line) =
      fill (argumentOf parameters arguments) line := by
  induction parameters generalizing arguments line with
  | nil => rfl
  | cons parameter parameters ih =>
    -- What the parameter finds are its markers, so its turn puts its argument in their place
    rw [findsOwn, Bool.and_eq_true, beq_iff_eq] at h
    rw [substitute, replaceAll_eq_fill, h.1, fill_only, ih h.2, fill_replace]

/-- The parameters may be replaced all at once if each finds its own markers. -/
theorem substitute_of_findsOwn {parameters arguments : List String} {text : List Char}
    (h : findsOwn parameters arguments (parts parameters text) = true) :
    substitute parameters arguments text = simultaneous parameters arguments text := by
  have hfill := substitute_fill h
  rwa [fill_parts] at hfill

/-- A single parameter finds its own markers, whatever its argument is. -/
theorem findsOwn_singleton (parameter : String) (arguments : List String) (text : List Char) :
    findsOwn [parameter] arguments (parts [parameter] text) = true := by
  have hown : ∀ part ∈ parts [parameter] text, part.only parameter = [part] := by
    intro part hpart
    cases part with
    | char c => rfl
    | marker other => rw [Part.only, if_pos (List.mem_singleton.1 (mem_of_mem_parts hpart))]
  rw [findsOwn, fill_parts, List.flatMap_congr hown, List.flatMap_singleton']
  simp [findsOwn]

end

end JassOutline.TextMacro

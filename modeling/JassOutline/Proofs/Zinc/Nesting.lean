import JassOutline.Proofs.Layout.Document
import JassOutline.Proofs.Zinc.Declares.Grammar
import JassOutline.Proofs.Zinc.Incremental

/-!
# How the regions of a zinc program nest

A declaration of the zinc dialect reaches from the start of one token to the end of another. Where
the tokens stand in order, so do the declarations: what a container declares lies within it, and
functions and methods stand one behind the other.

## Key results

- `Declares.isWithin`: what is declared inside of a container lies within it
- `Declares.lies`: where declarations start and end, and functions and methods in a row
- `liesIn_of_parse`: the regions of a program
-/

namespace JassOutline

/-- One region ends in front of the other, or where it starts. -/
def Region.Beside (a b : Region) : Prop :=
  a.stop ≤ b.start ∨ b.stop ≤ a.start

/-- The region reaches from the start of one of the tokens to the end of one, and does not end
before it starts. -/
structure Region.IsOf (region : Region) (tokens : List Token) : Prop where
  starts : ∃ first ∈ tokens, region.start = first.start
  stops : ∃ last ∈ tokens, region.stop = last.stop
  ordered : region.start ≤ region.stop

/-- The tokens stand in order: each of them starts before it ends, and ends before the next one
starts. -/
structure Token.InOrder (tokens : List Token) : Prop where
  start_le_stop : ∀ token ∈ tokens, token.start ≤ token.stop
  stop_le_start : tokens.IsChain fun token next => token.stop ≤ next.start

/-- The regions of a program nest among the tokens. Every declaration and every parameter reaches
from a token to a token, the parts of a declaration lie within it, and functions and methods stand
one beside the other. -/
structure Program.LiesIn (program : Program) (tokens : List Token) : Prop where
  headings : ∀ heading ∈ program.headings, heading.region.IsOf tokens
  takes : ∀ parameter ∈ program.allFunctions.flatMap Function.parameters ++
    program.allMethods.flatMap Method.parameters, parameter.region.IsOf tokens
  functions : ∀ function ∈ program.allFunctions, function.region.Holds function.parts
  methods : ∀ method ∈ program.allMethods, method.region.Holds method.parts
  structs : ∀ struct ∈ program.allStructs, struct.region.Holds struct.parts
  libraries : ∀ library ∈ program.libraries, library.region.Holds library.parts
  routines : (program.allFunctions.map (·.region) ++
    program.allMethods.map (·.region)).Pairwise Region.Beside

namespace Token

variable {tokens : List Token}

theorem InOrder.pairwise (h : InOrder tokens) :
    tokens.Pairwise fun token next => token.stop ≤ next.start := by
  induction tokens with
  | nil => exact .nil
  | cons first rest ih =>
    cases rest with
    | nil => exact List.pairwise_singleton _ _
    | cons second later =>
      obtain ⟨hfirst, hchain⟩ := List.isChain_cons_cons.1 h.stop_le_start
      obtain ⟨-, hordered⟩ := List.forall_mem_cons.1 h.start_le_stop
      have hrest := ih ⟨hordered, hchain⟩
      refine List.pairwise_cons.2 ⟨List.forall_mem_cons.2 ⟨hfirst, fun token htoken => ?_⟩, hrest⟩
      have hsecond := (List.pairwise_cons.1 hrest).1 token htoken
      exact Position.le_trans hfirst
        (Position.le_trans (hordered second List.mem_cons_self) hsecond)

/-- There is a region that all tokens stand in. -/
theorem InOrder.exists_row (h : InOrder tokens) : ∃ region, Row region tokens := by
  have hbound : ∃ stop, ∀ token ∈ tokens, token.stop ≤ stop := by
    clear h
    induction tokens with
    | nil => exact ⟨.origin, by simp⟩
    | cons first rest ih =>
      obtain ⟨stop, hstop⟩ := ih
      rcases Position.le_total first.stop stop with hle | hle
      · exact ⟨stop, List.forall_mem_cons.2 ⟨hle, hstop⟩⟩
      · exact ⟨first.stop, List.forall_mem_cons.2 ⟨Position.le_refl _, fun token htoken =>
          Position.le_trans (hstop token htoken) hle⟩⟩
  obtain ⟨stop, hstop⟩ := hbound
  refine ⟨⟨.origin, stop⟩, fun token htoken => ⟨?_, h.start_le_stop token htoken,
    hstop token htoken⟩, h.pairwise⟩
  rw [Position.le_iff]
  simp only [Position.origin]
  omega

/-- Between two tokens of a row stand the tokens between them. -/
theorem Row.between {outer : Region} {front inside behind : List Token} {first last : Token}
    (h : Row outer (front ++ first :: (inside ++ last :: behind))) :
    Row ⟨first.start, last.stop⟩ inside := by
  obtain ⟨-, hfirst, -⟩ := List.pairwise_append.1 h.pairwise
  obtain ⟨hbehind, hrest⟩ := List.pairwise_cons.1 hfirst
  obtain ⟨hinside, -, hlast⟩ := List.pairwise_append.1 hrest
  refine ⟨fun token htoken => ?_, hinside⟩
  have hstart := (h.within first (by simp)).ordered
  have hordered := (h.within token (by simp [htoken])).ordered
  have hstop := (h.within last (by simp)).ordered
  exact ⟨Position.le_trans hstart (hbehind token (by simp [htoken])), hordered,
    Position.le_trans (hlast token htoken last (by simp)) hstop⟩

end Token

namespace Region

variable {region outer : Region} {tokens others : List Token}

theorem IsOf.mono (h : region.IsOf tokens) (htokens : tokens ⊆ others) : region.IsOf others where
  starts := by
    obtain ⟨first, hfirst, hstart⟩ := h.starts
    exact ⟨first, htokens hfirst, hstart⟩
  stops := by
    obtain ⟨last, hlast, hstop⟩ := h.stops
    exact ⟨last, htokens hlast, hstop⟩
  ordered := h.ordered

theorem IsOf.within (h : region.IsOf tokens) (hrow : Token.Row outer tokens) :
    region.Within outer where
  start_le := by
    obtain ⟨first, hfirst, hstart⟩ := h.starts
    exact hstart ▸ (hrow.within first hfirst).start_le
  ordered := h.ordered
  le_stop := by
    obtain ⟨last, hlast, hstop⟩ := h.stops
    exact hstop ▸ (hrow.within last hlast).le_stop

/-- From a token of a row to one behind it. -/
theorem isOf_row {first last : Token} {behind : List Token}
    (h : Token.Row outer (first :: behind)) (hlast : last ∈ behind)
    (hsubset : first :: behind ⊆ tokens) (hstart : region.start = first.start)
    (hstop : region.stop = last.stop) : region.IsOf tokens where
  starts := ⟨first, hsubset List.mem_cons_self, hstart⟩
  stops := ⟨last, hsubset (List.mem_cons_of_mem _ hlast), hstop⟩
  ordered := by
    rw [hstart, hstop]
    exact Position.le_trans (h.within first List.mem_cons_self).ordered
      (Position.le_trans ((List.pairwise_cons.1 h.pairwise).1 last hlast)
        (h.within last (List.mem_cons_of_mem _ hlast)).ordered)

end Region

namespace Zinc

variable {lexemes header : List Lexeme} {outer : Region} {headings : List Heading}
  {declared own inner : Declarations}

theorem IsParameter.isOf {parameter : Parameter} (h : IsParameter header parameter)
    (hrow : Token.Row outer (header.map Lexeme.token)) :
    parameter.region.IsOf (header.map Lexeme.token) := by
  obtain ⟨type, name, hpair, hregion⟩ := h
  have hsublist := (hpair.map Lexeme.token).sublist
  exact Region.isOf_row (hrow.sublist hsublist) (List.mem_singleton_self name.token)
    hsublist.subset (by rw [hregion]) (by rw [hregion])

theorem holds_parameters {parameters : List Parameter}
    (h : ∀ parameter ∈ parameters, IsParameter header parameter)
    (hrow : Token.Row outer (header.map Lexeme.token)) :
    outer.Holds (parameters.map Parameter.region) :=
  List.forall_mem_map.2 fun parameter hparameter =>
    ((h parameter hparameter).isOf hrow).within hrow

/-- The variables of one declaration reach from its anchor to a token behind it. -/
theorem Starts.isOf {words later : List Lexeme} {anchor : Lexeme} (h : Starts words anchor headings)
    (hlast : ∀ heading ∈ headings, ∃ last ∈ later, heading.region.stop = last.token.stop)
    (hrow : Token.Row outer ((words ++ anchor :: later).map Lexeme.token)) :
    ∀ heading ∈ headings,
      heading.region.IsOf ((words ++ anchor :: later).map Lexeme.token) := by
  intro heading hheading
  obtain ⟨last, hmem, hstop⟩ := hlast heading hheading
  have hsublist : (anchor.token :: later.map Lexeme.token).Sublist
      ((words ++ anchor :: later).map Lexeme.token) := by
    rw [List.map_append, List.map_cons]
    exact List.sublist_append_right ..
  exact Region.isOf_row (hrow.sublist hsublist) (List.mem_map_of_mem hmem) hsublist.subset
    (h.start_eq heading hheading) hstop

theorem Variables.isWithin (h : Variables headings own)
    (hheadings : ∀ heading ∈ headings, heading.region.Within outer) : own.IsWithin outer := by
  cases h with
  | globals globals =>
    exact { Declarations.isWithin_none with globals := List.forall_mem_map.1 hheadings }
  | members members =>
    exact { Declarations.isWithin_none with members := List.forall_mem_map.1 hheadings }
  | locals locals =>
    exact { Declarations.isWithin_none with locals := List.forall_mem_map.1 hheadings }

/-- A container holds its parameters and what is declared inside of it. -/
theorem Encloses.isWithin {keyword : Token} {heading : Heading}
    (h : Encloses keyword header heading inner own) (hregion : heading.region.Within outer)
    (hheader : Token.Row heading.region (header.map Lexeme.token))
    (hinner : inner.IsWithin heading.region) : own.IsWithin outer := by
  -- What is declared inside goes into the parts of the container that are listed in it
  cases h with
  | @function function _ hglobals hparameters =>
    have hlocals : function.region.Holds (function.locals.map (·.region)) :=
      List.forall_mem_map.2 hinner.locals
    have htakes : function.region.Holds (function.parameters.map Parameter.region) :=
      holds_parameters hparameters hheader
    refine { Declarations.isWithin_none with
      functions := List.forall_mem_singleton.2 ⟨hregion, (htakes.append hlocals).append ?_⟩ }
    simp [hglobals, Region.Holds]
  | @method method _ hglobals hparameters =>
    have hlocals : method.region.Holds (method.locals.map (·.region)) :=
      List.forall_mem_map.2 hinner.locals
    have htakes : method.region.Holds (method.parameters.map Parameter.region) :=
      holds_parameters hparameters hheader
    refine { Declarations.isWithin_none with
      methods := List.forall_mem_singleton.2 ⟨hregion, (htakes.append hlocals).append ?_⟩ }
    simp [hglobals, Region.Holds]
  | @struct struct _ =>
    have hmembers : struct.region.Holds (struct.members.map (·.region)) :=
      List.forall_mem_map.2 hinner.members
    have hmethods : struct.region.Holds (struct.methods.map (·.region)) :=
      List.forall_mem_map.2 fun method hmethod => (hinner.methods method hmethod).1
    exact { Declarations.isWithin_none with
      structs := List.forall_mem_singleton.2 ⟨hregion, hmembers.append hmethods,
        fun method hmethod => (hinner.methods method hmethod).2⟩ }
  | @library library _ =>
    have hglobals : library.region.Holds (library.globals.map (·.region)) :=
      List.forall_mem_map.2 hinner.globals
    have hfunctions : library.region.Holds (library.functions.map (·.region)) :=
      List.forall_mem_map.2 fun function hfunction => (hinner.functions function hfunction).1
    have hstructs : library.region.Holds (library.structs.map (·.region)) :=
      List.forall_mem_map.2 fun struct hstruct => (hinner.structs struct hstruct).1
    exact { Declarations.isWithin_none with
      libraries := List.forall_mem_singleton.2 ⟨(hglobals.append hfunctions).append hstructs,
        fun function hfunction => (hinner.functions function hfunction).2,
        fun struct hstruct => (hinner.structs struct hstruct).2⟩ }

/-- What lexemes declare lies where their tokens stand, and containers hold what is declared inside
of them. -/
theorem Declares.isWithin {atStart : Bool} (h : Declares atStart lexemes declared)
    (hrow : Token.Row outer (lexemes.map Lexeme.token)) : declared.IsWithin outer := by
  induction h generalizing outer with
  | nil => exact Declarations.isWithin_none
  | idle _ ih => exact ih (hrow.sublist (List.sublist_cons_self ..))
  | @names words later rest anchor headings own declared hstarts hown hlast _ ih =>
    rw [← List.cons_append, ← List.append_assoc, List.map_append] at hrow
    have hfront := hrow.sublist (List.sublist_append_left ..)
    have hheadings := hstarts.isOf hlast hfront
    exact (hown.isWithin fun heading hheading => (hheadings heading hheading).within hfront).append
      (ih (hrow.sublist (List.sublist_append_right ..)))
  | @container words header inside rest anchor close heading inner own declared hstarts hencloses
      hstop _ _ ihInside ih =>
    have hlexemes : words ++ anchor :: (header ++ (inside ++ close :: rest)) =
        (words ++ anchor :: (header ++ (inside ++ [close]))) ++ rest := by simp
    rw [hlexemes, List.map_append] at hrow
    have hfront := hrow.sublist (List.sublist_append_left ..)
    have hheading := hstarts.isOf
      (List.forall_mem_singleton.2 ⟨close, by simp, hstop⟩) hfront heading List.mem_cons_self
    have hregion : heading.region = ⟨anchor.token.start, close.token.stop⟩ := by
      rw [← hstarts.start_eq heading List.mem_cons_self, ← hstop]
    -- The region reaches from the keyword to the closing brace, and the parts stand between them
    have hparts : Token.Row heading.region ((header ++ inside).map Lexeme.token) := by
      have htokens : Token.Row outer (words.map Lexeme.token ++ anchor.token ::
          ((header ++ inside).map Lexeme.token ++ close.token :: [])) := by simpa using hfront
      exact hregion ▸ htokens.between
    rw [List.map_append] at hparts
    have hown := hencloses.isWithin (hheading.within hfront)
      (hparts.sublist (List.sublist_append_left ..))
      (ihInside (hparts.sublist (List.sublist_append_right ..)))
    exact hown.append (ih (hrow.sublist (List.sublist_append_right ..)))

/-! ### Everything that is declared -/

/-- The regions of all parameters, at any depth. -/
def takes (declared : Declarations) : List Region :=
  ((declared.functions ++ declared.libraries.flatMap Library.functions).flatMap
      Function.parameters ++
    ((declared.structs ++ declared.libraries.flatMap Library.structs).flatMap Struct.methods ++
      declared.methods).flatMap Method.parameters).map Parameter.region

/-- Every declaration and every parameter reaches from a token to a token, and functions and methods
stand one beside the other. -/
structure Lies (declared : Declarations) (tokens : List Token) : Prop where
  headings : ∀ heading ∈ declared.headings, heading.region.IsOf tokens
  takes : ∀ take ∈ takes declared, take.IsOf tokens
  routines : declared.routines.Pairwise Region.Beside

theorem mem_takes_append {a b : Declarations} {take : Region} :
    take ∈ takes (a ++ b) ↔ take ∈ takes a ∨ take ∈ takes b := by
  change take ∈ takes (.append a b) ↔ _
  simp only [takes, Declarations.append, List.map_append, List.flatMap_append, List.mem_append]
  grind

/-- Functions and methods are declarations. -/
theorem exists_heading_of_routines {region : Region} (h : region ∈ declared.routines) :
    ∃ heading ∈ declared.headings, heading.region = region := by
  simp only [Declarations.routines, List.mem_append, List.mem_map, List.mem_flatMap] at h
  simp only [Declarations.headings, Library.headings, Struct.headings, Function.headings,
    Method.headings, List.mem_append, List.mem_flatMap, List.mem_cons]
  grind

theorem Lies.append {a b : Declarations} {front behind : List Token} (ha : Lies a front)
    (hb : Lies b behind) (hrow : Token.Row outer (front ++ behind)) :
    Lies (a ++ b) (front ++ behind) where
  headings := fun heading hheading => by
    rcases Declarations.mem_headings_append.1 hheading with hmem | hmem
    · exact (ha.headings heading hmem).mono (List.subset_append_left ..)
    · exact (hb.headings heading hmem).mono (List.subset_append_right ..)
  takes := fun take htake => by
    rcases mem_takes_append.1 htake with hmem | hmem
    · exact (ha.takes take hmem).mono (List.subset_append_left ..)
    · exact (hb.takes take hmem).mono (List.subset_append_right ..)
  routines := by
    -- The sum lists functions before methods, but to stand beside is symmetric
    refine ((Declarations.routines_append_perm a b).pairwise_iff Or.symm).2 ?_
    refine List.pairwise_append.2 ⟨ha.routines, hb.routines, fun x hx y hy => .inl ?_⟩
    obtain ⟨upper, hupper, rfl⟩ := exists_heading_of_routines hx
    obtain ⟨lower, hlower, rfl⟩ := exists_heading_of_routines hy
    obtain ⟨last, hlast, hstop⟩ := (ha.headings upper hupper).stops
    obtain ⟨first, hfirst, hstart⟩ := (hb.headings lower hlower).starts
    rw [hstop, hstart]
    exact (List.pairwise_append.1 hrow.pairwise).2.2 last hlast first hfirst

theorem Lies.mono {tokens others : List Token} (h : Lies declared tokens)
    (htokens : tokens ⊆ others) : Lies declared others where
  headings := fun heading hheading => (h.headings heading hheading).mono htokens
  takes := fun take htake => (h.takes take htake).mono htokens
  routines := h.routines

theorem lies_none (tokens : List Token) : Lies .none tokens where
  headings := by simp [Declarations.headings, Declarations.none]
  takes := by simp [Zinc.takes, Declarations.none]
  routines := .nil

theorem Variables.lies {tokens : List Token} (h : Variables headings own)
    (hheadings : ∀ heading ∈ headings, heading.region.IsOf tokens) : Lies own tokens where
  headings := by rwa [h.headings_eq]
  takes := by cases h <;> simp [Zinc.takes, Declarations.none]
  routines := by cases h <;> simp [Declarations.routines, Declarations.none]

/-- A container has its own parameters, and those inside of it. -/
theorem Encloses.mem_takes {keyword : Token} {heading : Heading} {take : Region}
    (h : Encloses keyword header heading inner own) (htake : take ∈ takes own) :
    (∃ parameter, IsParameter header parameter ∧ take = parameter.region) ∨ take ∈ takes inner := by
  cases h with
  | @function function _ _ hparameters =>
    obtain ⟨parameter, hparameter, rfl⟩ :
        ∃ parameter ∈ function.parameters, parameter.region = take := by
      simpa [takes, Declarations.none] using htake
    exact .inl ⟨parameter, hparameters parameter hparameter, rfl⟩
  | @method method _ _ hparameters =>
    obtain ⟨parameter, hparameter, rfl⟩ :
        ∃ parameter ∈ method.parameters, parameter.region = take := by
      simpa [takes, Declarations.none] using htake
    exact .inl ⟨parameter, hparameters parameter hparameter, rfl⟩
  | struct => exact .inr (by simpa [takes, Declarations.none] using htake)
  | library => exact .inr (by simpa [takes, Declarations.none] using htake)

/-- A container is a function or a method itself, or it holds those inside of it. -/
theorem Encloses.routines_eq {keyword : Token} {heading : Heading}
    (h : Encloses keyword header heading inner own) :
    own.routines = [heading.region] ∨ own.routines = inner.routines := by
  cases h with
  | function => exact .inl rfl
  | method => exact .inl rfl
  | struct => exact .inr (by simp [Declarations.routines, Declarations.none])
  | library => exact .inr (by simp [Declarations.routines, Declarations.none])

/-- Where the tokens stand in a row, what lexemes declare lies among them. -/
theorem Declares.lies {atStart : Bool} (h : Declares atStart lexemes declared)
    (hrow : Token.Row outer (lexemes.map Lexeme.token)) :
    Lies declared (lexemes.map Lexeme.token) := by
  induction h with
  | nil => exact lies_none _
  | idle _ ih =>
    exact (ih (hrow.sublist (List.sublist_cons_self ..))).mono (List.subset_cons_self ..)
  | @names words later rest anchor headings own declared hstarts hown hlast _ ih =>
    rw [← List.cons_append, ← List.append_assoc, List.map_append] at hrow ⊢
    have hheadings := hstarts.isOf hlast (hrow.sublist (List.sublist_append_left ..))
    exact (hown.lies hheadings).append (ih (hrow.sublist (List.sublist_append_right ..))) hrow
  | @container words header inside rest anchor close heading inner own declared hstarts hencloses
      hstop _ _ ihInside ih =>
    have hlexemes : words ++ anchor :: (header ++ (inside ++ close :: rest)) =
        (words ++ anchor :: (header ++ (inside ++ [close]))) ++ rest := by simp
    rw [hlexemes, List.map_append] at hrow ⊢
    have hfront := hrow.sublist (List.sublist_append_left ..)
    have hheading := hstarts.isOf
      (List.forall_mem_singleton.2 ⟨close, by simp, hstop⟩) hfront heading List.mem_cons_self
    -- What is declared inside lies among the tokens inside, which are tokens of the container too
    have hheader : header <:+: words ++ anchor :: (header ++ (inside ++ [close])) :=
      ⟨words ++ [anchor], inside ++ [close], by simp⟩
    have hinside : inside <:+: words ++ anchor :: (header ++ (inside ++ [close])) :=
      ⟨words ++ anchor :: header, [close], by simp⟩
    have hparameters := hfront.sublist (hheader.map Lexeme.token).sublist
    have hinner := (ihInside (hfront.sublist (hinside.map Lexeme.token).sublist)).mono
      (hinside.map Lexeme.token).subset
    have hown : Lies own
        ((words ++ anchor :: (header ++ (inside ++ [close]))).map Lexeme.token) := {
      headings := by
        rw [hencloses.headings_eq]
        exact List.forall_mem_cons.2 ⟨hheading, hinner.headings⟩
      takes := fun take htake => by
        obtain ⟨parameter, hparameter, rfl⟩ | hmem := hencloses.mem_takes htake
        · exact (hparameter.isOf hparameters).mono (hheader.map Lexeme.token).subset
        · exact hinner.takes take hmem
      routines := by
        obtain hself | hothers := hencloses.routines_eq
        · exact hself ▸ List.pairwise_singleton ..
        · exact hothers ▸ hinner.routines }
    exact hown.append (ih (hrow.sublist (List.sublist_append_right ..))) hrow

/-- The regions of a program whose tokens stand in order: every declaration and every parameter
reaches from the start of a token to the end of one, the parts of a declaration lie within it, and
functions and methods do not overlap. -/
theorem liesIn_of_parse {tokens : List Token} {program : Program} (horder : Token.InOrder tokens)
    (h : parse tokens = .ok program) : program.LiesIn tokens := by
  obtain ⟨declared, hread, rfl⟩ := declarations_of_parse h
  obtain ⟨hdeclares, hholds⟩ := declares_declarations hread
  obtain ⟨outer, hrow⟩ := horder.exists_row
  -- The lexemes have the tokens between the comments, in the same order
  have hsublist : ((Lexeme.ofTokens tokens).map Lexeme.token).Sublist tokens := by
    rw [Lexeme.token_ofTokens]
    exact List.filter_sublist
  have hlexemes := hrow.sublist hsublist
  have hwithin := hdeclares.isWithin hlexemes
  have hlies := (hdeclares.lies hlexemes).mono hsublist.subset
  have htakes : ∀ parameter ∈ (Program.ofDeclarations 0 declared).allFunctions.flatMap
      Function.parameters ++ (Program.ofDeclarations 0 declared).allMethods.flatMap
      Method.parameters, parameter.region ∈ takes declared := fun parameter hparameter => by
    refine List.mem_map_of_mem ?_
    rcases List.mem_append.1 hparameter with hmem | hmem
    · exact List.mem_append_left _ hmem
    · rw [List.flatMap_append (f := Method.parameters)]
      exact List.mem_append_right _ (List.mem_append_left _ hmem)
  -- A program finds the methods of its structs, those read outside of them come in addition
  have hroutines : declared.routines =
      (Program.ofDeclarations 0 declared).allFunctions.map (·.region) ++
        (Program.ofDeclarations 0 declared).allMethods.map (·.region) ++
        declared.methods.map (·.region) := by
    simp [Declarations.routines, Program.allFunctions, Program.allMethods, Program.allStructs,
      Program.ofDeclarations]
  exact {
    headings := (hholds.headings_eq 0).symm ▸ hlies.headings
    takes := fun parameter hparameter => hlies.takes _ (htakes parameter hparameter)
    functions := Program.functions_of_isWithin 0 hwithin
    methods := Program.methods_of_isWithin 0 hwithin
    structs := fun struct hstruct => (Program.structs_of_isWithin 0 hwithin struct hstruct).1
    libraries := fun library hlibrary => (hwithin.libraries library hlibrary).1
    routines := (hroutines ▸ hlies.routines).sublist (List.sublist_append_left ..) }

/-- A struct with a method, a function behind it, and a local variable inside of braces. -/
def nestedTokens : List Token :=
  Token.tokenize 0 ("struct s \x7b real x; method m(real y) \x7b\x7d \x7d " ++
    "function f(unit u) -> unit \x7b if (b) \x7b integer n; \x7d \x7d").toList

theorem liesIn_of_parse_nestedTokens :
    Token.InOrder nestedTokens ∧
    parse nestedTokens = .ok ((parse nestedTokens).toOption.getD (.empty 0)) ∧
    ((parse nestedTokens).toOption.getD (.empty 0)).headings.map (fun heading =>
        (heading.name, heading.region)) =
      [(some "f", .onLine 0 41 93), (some "n", .onLine 0 79 88), (some "s", .onLine 0 0 40),
        (some "x", .onLine 0 11 17), (some "m", .onLine 0 19 38)] ∧
    ((parse nestedTokens).toOption.getD (.empty 0)).LiesIn nestedTokens := by
  have horder : Token.InOrder nestedTokens := ⟨by decide +kernel, by decide +kernel⟩
  have hread : parse nestedTokens = .ok ((parse nestedTokens).toOption.getD (.empty 0)) := by
    decide +kernel
  exact ⟨horder, hread, by decide +kernel, liesIn_of_parse horder hread⟩

end Zinc

end JassOutline

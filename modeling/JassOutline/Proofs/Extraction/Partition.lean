import JassOutline.Proofs.Extraction.Pass
import JassOutline.Proofs.List
import Mathlib.Data.List.Perm.Basic

/-!
# What is a definition and what is not

The lines that open and close definitions of macros are boundaries. A definition reaches from a
boundary that opens it up to the next boundary, whichever that is, and every line that lies in none
remains. So a stream falls into its boundaries, the bodies of its definitions, of which only those
with a name are kept, and the lines that remain.

## Key results

- `remaining_extractFrom`, `macros_extractFrom`: where the lines go
- `perm_extractFrom`: no line is lost or doubled
- `warnings_extractFrom_eq_nil`: when nothing is wrong
- `extract_partitions`: all of it
-/

namespace JassOutline.MacroTable

/-! ### The parts of a stream -/

/-- Whether the line opens a definition. -/
def isHeader (record : SourceLine) : Bool :=
  Directive.ofLine? record == some .macroStart

/-- Whether what follows the lines lies in a definition: the last boundary among them opens it. -/
def endsInside (before : List SourceLine) : Bool :=
  (before.filter isBoundary).getLast?.any isHeader

/-- The lines that lie in no definition, each seen with the lines in front of it. -/
def outside (lines : List SourceLine) : List SourceLine :=
  ((lines.inits.zip lines).filter fun (before, record) =>
    !isBoundary record && !endsInside before).map Prod.snd

/-- The lines up to the next boundary. -/
def bodyOf (rest : List SourceLine) : List SourceLine :=
  rest.takeWhile (!isBoundary ·)

/-- Where the definition ends whose header the lines follow. -/
def stopOf (header : SourceLine) (rest : List SourceLine) : Position :=
  match rest.dropWhile (!isBoundary ·) with
  | [] => lastStop header (bodyOf rest)
  | closer :: _ =>
    if Directive.ofLine? closer = some .macroEnd then closer.region.stop
    else lastStop header (bodyOf rest)

/-- The definition that the first line opens, if it does and gives a name. -/
def definitionAt? : List SourceLine → Option TextMacro
  | [] => none
  | header :: rest =>
    if isHeader header then definition? header (bodyOf rest) (stopOf header rest) else none

/-- The body behind a header without a name. -/
def namelessBody : List SourceLine → List SourceLine
  | [] => []
  | header :: rest =>
    if isHeader header && (TextMacro.signature? header).isNone then bodyOf rest else []

/-- The definitions of a stream, one for each header with a name. -/
def definitionsIn (lines : List SourceLine) : List TextMacro :=
  lines.tails.filterMap definitionAt?

/-- The bodies that belong to no definition with a name. -/
def namelessBodies (lines : List SourceLine) : List SourceLine :=
  lines.tails.flatMap namelessBody

/-- Boundaries that open a definition and boundaries that close one take turns, from one that opens
to one that closes. -/
structure TakeTurns (boundaries : List SourceLine) : Prop where
  alternate : boundaries.IsChain fun record next => isHeader record ≠ isHeader next
  first : boundaries.head?.all isHeader = true
  last : boundaries.getLast?.any isHeader = false

/-! ### Headers and bodies -/

variable {source : Nat} {record header closer : SourceLine} {rest later lines : List SourceLine}

theorem isHeader_iff : isHeader record = true ↔ Directive.ofLine? record = some .macroStart := by
  simp [isHeader]

theorem isBoundary_of_isHeader (h : isHeader record = true) : isBoundary record = true :=
  isBoundary_iff.2 (.inl (isHeader_iff.1 h))

theorem isHeader_of_isBoundary (h : isBoundary record = false) : isHeader record = false :=
  Bool.eq_false_iff.2 fun hheader => by simp [isBoundary_of_isHeader hheader] at h

theorem isHeader_of_end (h : Directive.ofLine? record = some .macroEnd) :
    isHeader record = false := by
  simp [isHeader, h]

theorem isBoundary_of_mem_bodyOf (h : record ∈ bodyOf rest) : isBoundary record = false := by
  simpa using List.mem_takeWhile_imp h

theorem bodyOf_append_dropWhile (rest : List SourceLine) :
    bodyOf rest ++ rest.dropWhile (!isBoundary ·) = rest :=
  List.takeWhile_append_dropWhile

/-! ### Lines that are no boundaries -/

theorem definitionsIn_cons (record : SourceLine) (rest : List SourceLine) :
    definitionsIn (record :: rest) =
      (definitionAt? (record :: rest)).toList ++ definitionsIn rest := by
  rw [definitionsIn, List.tails_cons, List.filterMap_cons]
  cases definitionAt? (record :: rest) <;> rfl

theorem definitionsIn_of_not_isHeader (h : isHeader record = false) (rest : List SourceLine) :
    definitionsIn (record :: rest) = definitionsIn rest := by
  rw [definitionsIn_cons, definitionAt?, h]
  rfl

theorem namelessBodies_of_not_isHeader (h : isHeader record = false) (rest : List SourceLine) :
    namelessBodies (record :: rest) = namelessBodies rest := by
  rw [namelessBodies, List.tails_cons, List.flatMap_cons, namelessBody, h]
  rfl

/-- In a body no definition starts. -/
theorem definitionsIn_dropWhile (rest : List SourceLine) :
    definitionsIn (rest.dropWhile (!isBoundary ·)) = definitionsIn rest := by
  induction rest with
  | nil => rfl
  | cons record rest ih =>
    by_cases hboundary : isBoundary record = true
    · rw [List.dropWhile_cons_of_neg (by simp [hboundary])]
    · rw [Bool.not_eq_true] at hboundary
      rw [List.dropWhile_cons_of_pos (by simp [hboundary]), ih,
        definitionsIn_of_not_isHeader (isHeader_of_isBoundary hboundary)]

theorem namelessBodies_dropWhile (rest : List SourceLine) :
    namelessBodies (rest.dropWhile (!isBoundary ·)) = namelessBodies rest := by
  induction rest with
  | nil => rfl
  | cons record rest ih =>
    by_cases hboundary : isBoundary record = true
    · rw [List.dropWhile_cons_of_neg (by simp [hboundary])]
    · rw [Bool.not_eq_true] at hboundary
      rw [List.dropWhile_cons_of_pos (by simp [hboundary]), ih,
        namelessBodies_of_not_isHeader (isHeader_of_isBoundary hboundary)]

/-! ### Lines outside of all definitions -/

/-- The lines that lie in no definition, if the first of them may lie in one. -/
def outsideFrom : Bool → List SourceLine → List SourceLine
  | _, [] => []
  | inside, record :: rest =>
    if isBoundary record then outsideFrom (isHeader record) rest
    else if inside then outsideFrom inside rest
    else record :: outsideFrom inside rest

theorem endsInside_concat (before : List SourceLine) (record : SourceLine) :
    endsInside (before ++ [record]) =
      if isBoundary record then isHeader record else endsInside before := by
  rw [endsInside, endsInside, List.filter_append]
  by_cases hboundary : isBoundary record = true
  · rw [if_pos hboundary, List.filter_singleton, hboundary]
    simp
  · rw [if_neg hboundary, List.filter_singleton, Bool.eq_false_iff.2 hboundary]
    simp

/-- What lies in front of each line tells whether a definition is open there. -/
theorem outside_append (before lines : List SourceLine) :
    ((lines.inits.zip lines).filter fun (later, record) =>
      !isBoundary record && !endsInside (before ++ later)).map Prod.snd =
      outsideFrom (endsInside before) lines := by
  induction lines generalizing before with
  | nil => rfl
  | cons record rest ih =>
    -- The lines in front of a later line start with this one
    have hrest := ih (before ++ [record])
    simp only [List.append_assoc, List.singleton_append, endsInside_concat] at hrest
    rw [zip_inits_cons, List.filter_cons, List.filter_map, outsideFrom]
    by_cases hboundary : isBoundary record = true
    · simpa [hboundary, Function.comp_def] using hrest
    · cases hinside : endsInside before
      · simpa [hboundary, hinside, Function.comp_def] using hrest
      · simpa [hboundary, hinside, Function.comp_def] using hrest

theorem outside_eq (lines : List SourceLine) : outside lines = outsideFrom false lines :=
  outside_append [] lines

theorem outsideFrom_boundary (h : isBoundary record = true) (inside : Bool)
    (rest : List SourceLine) :
    outsideFrom inside (record :: rest) = outsideFrom (isHeader record) rest := by
  rw [outsideFrom, if_pos h]

/-- Of a definition that is open, nothing remains up to the next boundary. -/
theorem outsideFrom_dropWhile (rest : List SourceLine) :
    outsideFrom true (rest.dropWhile (!isBoundary ·)) = outsideFrom true rest := by
  induction rest with
  | nil => rfl
  | cons record rest ih =>
    by_cases hboundary : isBoundary record = true
    · rw [List.dropWhile_cons_of_neg (by simp [hboundary])]
    · rw [List.dropWhile_cons_of_pos (by simp [hboundary]), ih, outsideFrom, if_neg hboundary,
        if_pos rfl]

/-! ### What `extract` finds -/

theorem remaining_extractFrom (known : List String) (lines : List SourceLine) :
    (extractFrom source known lines).remaining = outsideFrom false lines := by
  fun_induction extractFrom source known lines with
  | case1 => rfl
  | case2 known record rest hstart body hstop definition =>
    -- Nothing ends the definition, and no line is outside it
    have hheader := isHeader_iff.2 hstart
    rw [outsideFrom_boundary (isBoundary_of_isHeader hheader), hheader, ← outsideFrom_dropWhile,
      hstop]
    rfl
  | case3 known record rest hstart body closer later hstop hend definition next ih =>
    -- Behind the closing line the stream is outside again
    have hheader := isHeader_iff.2 hstart
    rw [outsideFrom_boundary (isBoundary_of_isHeader hheader), hheader, ← outsideFrom_dropWhile,
      hstop, outsideFrom_boundary (isBoundary_of_dropWhile hstop), isHeader_of_end hend]
    exact ih
  | case4 known record rest hstart body closer later hstop hend definition next ih =>
    -- The next header is a boundary that leaves the stream inside
    have hheader := isHeader_iff.2 hstart
    rw [outsideFrom_boundary (isBoundary_of_isHeader hheader), hheader, ← outsideFrom_dropWhile,
      hstop, outsideFrom_boundary (isBoundary_of_dropWhile hstop)]
    rw [outsideFrom_boundary (isBoundary_of_dropWhile hstop)] at ih
    exact ih
  | case5 known record rest hend next ih =>
    rw [outsideFrom_boundary (isBoundary_iff.2 (.inr hend)), isHeader_of_end hend]
    exact ih
  | case6 known record rest next hstart hend ih =>
    have hboundary : ¬isBoundary record = true := fun h => (isBoundary_iff.1 h).elim hstart hend
    rw [outsideFrom, if_neg hboundary, if_neg Bool.false_ne_true, ← ih]

/-- The definition of a header, if the next boundary closes it. -/
theorem definitionsIn_closed (hheader : isHeader header = true)
    (hstop : rest.dropWhile (!isBoundary ·) = closer :: later)
    (hend : Directive.ofLine? closer = some .macroEnd) :
    definitionsIn (header :: rest) =
      (definition? header (bodyOf rest) closer.region.stop).toList ++ definitionsIn later := by
  rw [definitionsIn_cons, definitionAt?, if_pos hheader, stopOf, hstop, ← definitionsIn_dropWhile,
    hstop, definitionsIn_of_not_isHeader (isHeader_of_end hend)]
  dsimp only
  rw [if_pos hend]

theorem macros_extractFrom (known : List String) (lines : List SourceLine) :
    (extractFrom source known lines).table.macros = definitionsIn lines := by
  fun_induction extractFrom source known lines with
  | case1 => rfl
  | case2 known record rest hstart body hstop definition =>
    -- Without a boundary behind it the header still defines its macro
    rw [definitionsIn_cons, definitionAt?, if_pos (isHeader_iff.2 hstart), stopOf, hstop,
      ← definitionsIn_dropWhile, hstop]
    exact (List.append_nil _).symm
  | case3 known record rest hstart body closer later hstop hend definition next ih =>
    rw [definitionsIn_closed (isHeader_iff.2 hstart) hstop hend, ← ih]
    rfl
  | case4 known record rest hstart body closer later hstop hend definition next ih =>
    -- The next header is not used up: it defines a macro of its own
    rw [definitionsIn_cons, definitionAt?, if_pos (isHeader_iff.2 hstart), stopOf, hstop,
      ← definitionsIn_dropWhile, hstop, ← ih]
    dsimp only
    rw [if_neg hend]
    rfl
  | case5 known record rest hend next ih =>
    rw [definitionsIn_of_not_isHeader (isHeader_of_end hend)]
    exact ih
  | case6 known record rest next hstart hend ih =>
    have hheader : isHeader record = false := Bool.eq_false_iff.2 (mt isHeader_iff.1 hstart)
    rw [definitionsIn_of_not_isHeader hheader]
    exact ih

/-! ### No line is lost -/

/-- A stream is read definition by definition, and line by line in between. -/
@[elab_as_elim]
theorem streamInduction {motive : List SourceLine → Prop} (nil : motive [])
    (header : ∀ header rest, isHeader header = true →
      motive (rest.dropWhile (!isBoundary ·)) → motive (header :: rest))
    (line : ∀ record rest, isHeader record = false → motive rest → motive (record :: rest))
    (lines : List SourceLine) : motive lines := by
  induction hlength : lines.length using Nat.strongRecOn generalizing lines with
  | _ n ih =>
    cases lines with
    | nil => exact nil
    | cons record rest =>
      rw [List.length_cons] at hlength
      by_cases hheader : isHeader record = true
      · have hle := (List.dropWhile_suffix (!isBoundary ·) (l := rest)).length_le
        exact header record rest hheader (ih _ (by omega) _ rfl)
      · exact line record rest (Bool.eq_false_iff.2 hheader) (ih rest.length (by omega) rest rfl)

/-- A body behind a header belongs to a definition, or the header gives no name. -/
theorem body_definitionAt?_append (hheader : isHeader header = true) (rest : List SourceLine) :
    (definitionAt? (header :: rest)).toList.flatMap TextMacro.body ++
      namelessBody (header :: rest) = bodyOf rest := by
  rw [definitionAt?, definition?, namelessBody, hheader]
  cases TextMacro.signature? header <;> simp

theorem namelessBodies_cons (record : SourceLine) (rest : List SourceLine) :
    namelessBodies (record :: rest) = namelessBody (record :: rest) ++ namelessBodies rest := by
  rw [namelessBodies, List.tails_cons, List.flatMap_cons]
  rfl

/-- A class of boundaries has no line of a body. -/
theorem filter_dropWhile {p : SourceLine → Bool}
    (hp : ∀ record, isBoundary record = false → p record = false) (rest : List SourceLine) :
    (rest.dropWhile (!isBoundary ·)).filter p = rest.filter p := by
  induction rest with
  | nil => rfl
  | cons record rest ih =>
    by_cases h : isBoundary record = true
    · rw [List.dropWhile_cons_of_neg (by simp [h])]
    · rw [Bool.not_eq_true] at h
      rw [List.dropWhile_cons_of_pos (by simp [h]), ih, List.filter_cons_of_neg (by simp [hp _ h])]

/-- The first boundary ends any body. -/
theorem outsideFrom_dropWhile_eq (inside : Bool) (rest : List SourceLine) :
    outsideFrom inside (rest.dropWhile (!isBoundary ·)) = outsideFrom true rest := by
  rw [← outsideFrom_dropWhile]
  cases hrest : rest.dropWhile (!isBoundary ·) with
  | nil => rfl
  | cons closer later =>
    rw [outsideFrom_boundary (isBoundary_of_dropWhile hrest),
      outsideFrom_boundary (isBoundary_of_dropWhile hrest)]

/-- The parts of a stream make up the stream. -/
theorem perm_parts (lines : List SourceLine) :
    lines.Perm (lines.filter isBoundary ++ outsideFrom false lines ++
      (definitionsIn lines).flatMap TextMacro.body ++ namelessBodies lines) := by
  rw [List.perm_iff_count]
  intro wanted
  induction lines using streamInduction with
  | nil => rfl
  | header header rest hheader ih =>
    -- The header is a boundary, its body is in its definition or among the nameless ones, and the
    -- rest starts with the next boundary
    have hboundary := isBoundary_of_isHeader hheader
    have hbody := congrArg (List.count wanted) (body_definitionAt?_append hheader rest)
    have hrest := congrArg (List.count wanted) (bodyOf_append_dropWhile rest)
    rw [filter_dropWhile (fun _ h => h), outsideFrom_dropWhile_eq, definitionsIn_dropWhile,
      namelessBodies_dropWhile] at ih
    rw [List.filter_cons_of_pos hboundary, outsideFrom_boundary hboundary, hheader,
      definitionsIn_cons, List.flatMap_append, namelessBodies_cons]
    simp only [List.count_append, List.count_cons] at *
    omega
  | line record rest hheader ih =>
    rw [definitionsIn_of_not_isHeader hheader, namelessBodies_of_not_isHeader hheader]
    by_cases hboundary : isBoundary record = true
    · rw [List.filter_cons_of_pos hboundary, outsideFrom_boundary hboundary, hheader]
      -- A closing line is a boundary and in no other part
      simp only [List.count_append, List.count_cons] at *
      omega
    · -- Any other line is outside every definition
      rw [List.filter_cons_of_neg hboundary, outsideFrom, if_neg hboundary,
        if_neg Bool.false_ne_true]
      simp only [List.count_append, List.count_cons] at *
      omega

theorem isBoundary_of_mem_outsideFrom {inside : Bool} (h : record ∈ outsideFrom inside lines) :
    isBoundary record = false := by
  induction lines generalizing inside with
  | nil => cases h
  | cons first rest ih =>
    rw [outsideFrom] at h
    split at h
    · exact ih h
    · next hboundary =>
      split at h
      · exact ih h
      · obtain rfl | hmem := List.mem_cons.1 h
        · exact Bool.eq_false_iff.2 hboundary
        · exact ih hmem

/-- A definition holds no boundary. -/
theorem isBoundary_of_mem_body {definition : TextMacro} (h : definition ∈ definitionsIn lines)
    (hmem : record ∈ definition.body) : isBoundary record = false := by
  obtain ⟨suffix, -, hdefinition⟩ := List.mem_filterMap.1 h
  cases suffix with
  | nil => cases hdefinition
  | cons header rest =>
    rw [definitionAt?] at hdefinition
    split at hdefinition
    · obtain ⟨signature, -, rfl⟩ := Option.map_eq_some_iff.1 hdefinition
      exact isBoundary_of_mem_bodyOf hmem
    · cases hdefinition

/-- There is one definition for each header that gives a name, with the parameters it gives. -/
theorem signatures_definitionsIn (lines : List SourceLine) :
    (definitionsIn lines).map (fun definition => (definition.name, definition.parameters)) =
      (lines.filter isHeader).filterMap TextMacro.signature? := by
  induction lines with
  | nil => rfl
  | cons record rest ih =>
    by_cases hheader : isHeader record = true
    · rw [definitionsIn_cons, List.map_append, ih, List.filter_cons_of_pos hheader,
        List.filterMap_cons, definitionAt?, if_pos hheader, definition?]
      cases TextMacro.signature? record <;> rfl
    · rw [List.filter_cons_of_neg hheader, definitionsIn_of_not_isHeader (by simpa using hheader),
        ih]

/-! ### Warnings -/

theorem takeTurns_nil : TakeTurns [] := ⟨.nil, rfl, rfl⟩

/-- A definition that is closed in its turn. -/
theorem takeTurns_cons_cons (hheader : isHeader header = true) (hcloser : isHeader closer = false)
    (boundaries : List SourceLine) :
    TakeTurns (header :: closer :: boundaries) ↔ TakeTurns boundaries := by
  cases boundaries with
  | nil =>
    refine ⟨fun _ => takeTurns_nil, fun _ => ⟨?_, hheader, hcloser⟩⟩
    simp [hheader, hcloser]
  | cons next later =>
    constructor
    · intro h
      obtain ⟨-, hnext⟩ := List.isChain_cons_cons.1 h.alternate
      obtain ⟨hne, hlater⟩ := List.isChain_cons_cons.1 hnext
      refine ⟨hlater, ?_, by simpa using h.last⟩
      rw [hcloser, ne_comm, Bool.ne_false_iff] at hne
      exact hne
    · intro h
      have hnext : isHeader next = true := h.first
      refine ⟨?_, hheader, by simpa using h.last⟩
      refine .cons_cons ?_ (.cons_cons ?_ h.alternate)
      · simp [hheader, hcloser]
      · simp [hcloser, hnext]

theorem not_takeTurns_singleton (hheader : isHeader header = true) : ¬TakeTurns [header] :=
  fun h => by simpa [hheader] using h.last

theorem not_takeTurns_headers (hheader : isHeader header = true) (hnext : isHeader closer = true)
    (boundaries : List SourceLine) : ¬TakeTurns (header :: closer :: boundaries) := fun h =>
  (List.isChain_cons_cons.1 h.alternate).1 (hheader.trans hnext.symm)

theorem not_takeTurns_closer (hcloser : isHeader closer = false) (boundaries : List SourceLine) :
    ¬TakeTurns (closer :: boundaries) := fun h => by
  simpa [hcloser] using h.first

/-- The boundaries behind a header. -/
theorem filter_header (hheader : isHeader header = true) (rest : List SourceLine) :
    (header :: rest).filter isBoundary =
      header :: (rest.dropWhile (!isBoundary ·)).filter isBoundary := by
  rw [List.filter_cons_of_pos (isBoundary_of_isHeader hheader), filter_dropWhile fun _ h => h]

/-- A definition without warnings has a name that is not taken. -/
theorem warnings_definition?_eq_nil (known : List String) (body : List SourceLine)
    (stop : Position) :
    namelessWarnings source header (definition? header body stop) ++
        duplicateWarnings source header known (definition? header body stop) = [] ↔
      (TextMacro.signature? header).isSome = true ∧
        ∀ definition ∈ definition? header body stop, definition.name ∉ known := by
  rw [List.append_eq_nil_iff, definition?]
  cases TextMacro.signature? header with
  | none => simp [namelessWarnings]
  | some signature => simp [namelessWarnings, duplicateWarnings]

/-- Nothing is wrong in a stream exactly if its boundaries take turns, its headers give names, and
these are new. -/
theorem warnings_extractFrom_eq_nil (known : List String) (lines : List SourceLine) :
    (extractFrom source known lines).warnings = [] ↔
      TakeTurns (lines.filter isBoundary) ∧
      (∀ header ∈ lines.filter isHeader, (TextMacro.signature? header).isSome = true) ∧
      ((definitionsIn lines).map TextMacro.name).Nodup ∧
      ∀ definition ∈ definitionsIn lines, definition.name ∉ known := by
  fun_induction extractFrom source known lines with
  | case1 => simp [takeTurns_nil, show definitionsIn [] = [] from rfl]
  | case2 known record rest hstart body hstop definition =>
    -- A header alone does not take turns
    have hheader := isHeader_iff.2 hstart
    have hturns := not_takeTurns_singleton hheader
    rw [filter_header hheader, hstop]
    simp [hturns]
  | case3 known record rest hstart body closer later hstop hend definition next ih =>
    -- Header and closing line are one turn; what is left is said about the lines behind them, with
    -- one more name that is taken
    have hheader := isHeader_iff.2 hstart
    have hcloser := isHeader_of_end hend
    have hheaders : (record :: rest).filter isHeader = record :: later.filter isHeader := by
      rw [List.filter_cons_of_pos hheader, ← filter_dropWhile fun _ => isHeader_of_isBoundary,
        hstop, List.filter_cons_of_neg (by simp [hcloser])]
    rw [List.append_eq_nil_iff, warnings_definition?_eq_nil, ih, filter_header hheader, hstop,
      List.filter_cons_of_pos (isBoundary_of_dropWhile hstop), takeTurns_cons_cons hheader hcloser,
      hheaders, definitionsIn_closed hheader hstop hend]
    -- Only a header with a name adds one to those that are taken
    cases hsignature : TextMacro.signature? record with
    | none => simp [hsignature]
    | some signature =>
      simp only [definition, definition?, hsignature, Option.isSome_some, Option.map_some,
        Option.mem_def, Option.some.injEq, forall_eq', true_and, List.mem_filter, and_imp,
        Option.toList_some, List.mem_append, List.mem_cons, List.not_mem_nil, or_false, not_or,
        forall_and, forall_eq_or_imp, List.cons_append, List.nil_append, List.map_cons,
        List.nodup_cons, List.mem_map, not_exists, not_and]
      tauto
  | case4 known record rest hstart body closer later hstop hend definition next ih =>
    -- Two headers follow each other
    have hheader := isHeader_iff.2 hstart
    have hcloser := isBoundary_of_dropWhile hstop
    have hagain := isHeader_iff.2 ((isBoundary_iff.1 hcloser).resolve_right hend)
    have hturns := not_takeTurns_headers hheader hagain (later.filter isBoundary)
    rw [filter_header hheader, hstop, List.filter_cons_of_pos hcloser]
    simp [hturns]
  | case5 known record rest hend next ih =>
    -- A closing line comes first
    have hturns := not_takeTurns_closer (isHeader_of_end hend) (rest.filter isBoundary)
    rw [List.filter_cons_of_pos (isBoundary_iff.2 (.inr hend))]
    simp [hturns]
  | case6 known record rest next hstart hend ih =>
    -- A line that is no boundary changes none of the three conditions
    have hboundary : ¬isBoundary record = true := fun h => (isBoundary_iff.1 h).elim hstart hend
    have hheader : ¬isHeader record = true := mt isHeader_iff.1 hstart
    rw [List.filter_cons_of_neg hboundary, List.filter_cons_of_neg hheader,
      definitionsIn_of_not_isHeader (by simpa using hheader)]
    exact ih

/-! ### Look-ups and the whole -/

/-- A look-up finds the first definition of the name. -/
theorem find?_eq_some_iff {table : MacroTable} {name : String} {definition : TextMacro} :
    table.find? name = some definition ↔ definition.name = name ∧
      ∃ before behind, table.macros = before ++ definition :: behind ∧
        ∀ other ∈ before, other.name ≠ name := by
  rw [find?, List.find?_eq_some_iff_append]
  simp

theorem find?_eq_none_iff {table : MacroTable} {name : String} :
    table.find? name = none ↔ ∀ definition ∈ table.macros, definition.name ≠ name := by
  rw [find?, List.find?_eq_none]
  simp

/-- A stream is parted exactly, and line by line in one pass. What remains is what lies outside of
all definitions; there is one definition for each header that gives a name, with the lines up to the
next boundary as its body; nothing but boundaries and bodies without a name is lost, and no boundary
is kept; a name stands for its first definition. Nothing is wrong exactly if headers and closing
lines take turns, each header gives a name, and no two give the same one. -/
theorem extract_partitions (source : Nat) (lines : List SourceLine) :
    Pass.run source lines = extract source lines ∧
    (extract source lines).remaining = outside lines ∧
    (extract source lines).table.macros = definitionsIn lines ∧
    ((definitionsIn lines).map fun definition => (definition.name, definition.parameters)) =
      (lines.filter isHeader).filterMap TextMacro.signature? ∧
    lines.Perm (lines.filter isBoundary ++ (extract source lines).remaining ++
      (extract source lines).table.macros.flatMap TextMacro.body ++ namelessBodies lines) ∧
    (∀ record ∈ (extract source lines).remaining ++
      (extract source lines).table.macros.flatMap TextMacro.body, isBoundary record = false) ∧
    (∀ name definition, (extract source lines).table.find? name = some definition ↔
      definition.name = name ∧ ∃ before behind,
        definitionsIn lines = before ++ definition :: behind ∧
          ∀ other ∈ before, other.name ≠ name) ∧
    (∀ name, (extract source lines).table.find? name = none ↔
      ∀ definition ∈ definitionsIn lines, definition.name ≠ name) ∧
    ((extract source lines).warnings = [] ↔
      TakeTurns (lines.filter isBoundary) ∧
      (∀ header ∈ lines.filter isHeader, (TextMacro.signature? header).isSome = true) ∧
      ((definitionsIn lines).map TextMacro.name).Nodup) := by
  have hremaining : (extract source lines).remaining = outsideFrom false lines :=
    remaining_extractFrom [] lines
  have hmacros : (extract source lines).table.macros = definitionsIn lines :=
    macros_extractFrom [] lines
  refine ⟨Pass.run_eq source lines, hremaining.trans (outside_eq lines).symm, hmacros,
    signatures_definitionsIn lines, ?_, ?_, ?_, ?_, ?_⟩
  · rw [hremaining, hmacros]
    exact perm_parts lines
  · rw [hremaining, hmacros, List.forall_mem_append]
    refine ⟨fun record => isBoundary_of_mem_outsideFrom, fun record hmem => ?_⟩
    obtain ⟨definition, hdefinition, hbody⟩ := List.mem_flatMap.1 hmem
    exact isBoundary_of_mem_body hdefinition hbody
  · intro name definition
    rw [find?_eq_some_iff, hmacros]
  · intro name
    rw [find?_eq_none_iff, hmacros]
  · rw [extract, warnings_extractFrom_eq_nil]
    simp

end JassOutline.MacroTable

import JassOutline.Proofs.Expansion.Composition
import JassOutline.Proofs.Extraction.Partition
import JassOutline.Proofs.LineEnd.Expansion
import JassOutline.Proofs.Place.Attachment

/-!
# What lies in zinc blocks and what does not

The directives `zinc` and `endzinc` are the sentinels of a stream. A line lies in a zinc block if
the last sentinel in front of it opens one. So a stream falls into its sentinels, the lines inside
and the lines outside. The outline and the program that it declares are made of the lines outside
alone: they are the same for two streams that differ only in lines inside.

## Key results

- `remaining_extract`, `lines_extract`, `isClosed_extract`: what `extract` finds
- `outside_frame`: the lines outside do not depend on those inside
- `frame_expand_edited`: an edit between sentinels that macros produce is one inside
- `extract_isolates`: all of it
-/

namespace JassOutline.ZincBlock

/-! ### The parts of a stream -/

/-- Whether the line opens or closes a zinc block. -/
def isSentinel (record : SourceLine) : Bool :=
  isDirective .zincStart record || isDirective .zincEnd record

/-- Whether what follows the lines lies in a zinc block: the last sentinel among them opens it. -/
def endsInside (before : List SourceLine) : Bool :=
  (before.filter isSentinel).getLast?.any (isDirective .zincStart)

/-- The lines that are selected, knowing of each whether it follows lines that end inside. -/
def select (keep : Bool → SourceLine → Bool) (lines : List SourceLine) : List SourceLine :=
  ((lines.inits.zip lines).filter fun (before, record) =>
    keep (endsInside before) record).map Prod.snd

/-- Selects what lies in zinc blocks. -/
def keepsInside (isInside : Bool) (record : SourceLine) : Bool :=
  isInside && !isSentinel record

/-- Selects what lies in no zinc block. -/
def keepsOutside (isInside : Bool) (record : SourceLine) : Bool :=
  !isInside && !isSentinel record

/-- Selects the sentinels and what lies in no zinc block. -/
def keepsFrame (isInside : Bool) (record : SourceLine) : Bool :=
  !isInside || isSentinel record

/-- The lines in zinc blocks. -/
def inside : List SourceLine → List SourceLine := select keepsInside

/-- The lines in no zinc block. -/
def outside : List SourceLine → List SourceLine := select keepsOutside

/-- The stream without the lines in zinc blocks. -/
def frame : List SourceLine → List SourceLine := select keepsFrame

/-! ### Line by line -/

variable {source : Nat} {record : SourceLine} {lines body : List SourceLine}

/-- Whether what follows a line lies in a zinc block, given whether the line does. -/
def isInsideAfter (isInside : Bool) (record : SourceLine) : Bool :=
  if isSentinel record then isDirective .zincStart record else isInside

/-- The selected lines, if the first line may lie in a zinc block. -/
def selectFrom (keep : Bool → SourceLine → Bool) : Bool → List SourceLine → List SourceLine
  | _, [] => []
  | isInside, record :: rest =>
    if keep isInside record then record :: selectFrom keep (isInsideAfter isInside record) rest
    else selectFrom keep (isInsideAfter isInside record) rest

theorem endsInside_concat (before : List SourceLine) (record : SourceLine) :
    endsInside (before ++ [record]) = isInsideAfter (endsInside before) record := by
  rw [endsInside, endsInside, isInsideAfter, List.filter_append]
  by_cases hsentinel : isSentinel record = true
  · rw [if_pos hsentinel, List.filter_singleton, hsentinel]
    simp
  · rw [if_neg hsentinel, List.filter_singleton, Bool.eq_false_iff.2 hsentinel]
    simp

theorem endsInside_append (before lines : List SourceLine) :
    endsInside (before ++ lines) = lines.foldl isInsideAfter (endsInside before) := by
  induction lines generalizing before with
  | nil => rw [List.append_nil, List.foldl_nil]
  | cons record rest ih =>
    have hrest := ih (before ++ [record])
    rwa [List.append_assoc, endsInside_concat] at hrest

/-- What lies in front of each line tells whether a zinc block is open there. -/
theorem select_append (keep : Bool → SourceLine → Bool) (before lines : List SourceLine) :
    ((lines.inits.zip lines).filter fun (later, record) =>
      keep (endsInside (before ++ later)) record).map Prod.snd =
      selectFrom keep (endsInside before) lines := by
  induction lines generalizing before with
  | nil => rfl
  | cons record rest ih =>
    -- The lines in front of a later line start with this one
    have hrest := ih (before ++ [record])
    simp only [List.append_assoc, List.singleton_append, endsInside_concat] at hrest
    rw [zip_inits_cons, List.filter_cons, List.filter_map, selectFrom]
    by_cases hkeep : keep (endsInside before) record = true
    · simpa [hkeep, Function.comp_def] using hrest
    · simpa [hkeep, Function.comp_def] using hrest

theorem select_eq (keep : Bool → SourceLine → Bool) (lines : List SourceLine) :
    select keep lines = selectFrom keep false lines :=
  select_append keep [] lines

theorem selectFrom_append (keep : Bool → SourceLine → Bool) (isInside : Bool)
    (front back : List SourceLine) :
    selectFrom keep isInside (front ++ back) =
      selectFrom keep isInside front ++
        selectFrom keep (front.foldl isInsideAfter isInside) back := by
  induction front generalizing isInside with
  | nil => rfl
  | cons record rest ih =>
    rw [List.cons_append, selectFrom, selectFrom, ih, List.foldl_cons]
    split
    · rfl
    · rfl

/-! ### Lines inside -/

/-- Nothing but a line that closes the block ends it. -/
theorem foldl_isInsideAfter (h : ∀ record ∈ body, isDirective .zincEnd record = false) :
    body.foldl isInsideAfter true = true := by
  induction body with
  | nil => rfl
  | cons record rest ih =>
    obtain ⟨hrecord, hrest⟩ := List.forall_mem_cons.1 h
    have hafter : isInsideAfter true record = true := by
      simp [isInsideAfter, isSentinel, hrecord]
    rw [List.foldl_cons, hafter, ih hrest]

theorem selectFrom_body (keep : Bool → SourceLine → Bool)
    (h : ∀ record ∈ body, isDirective .zincEnd record = false) :
    selectFrom keep true body = body.filter (keep true) := by
  induction body with
  | nil => rfl
  | cons record rest ih =>
    obtain ⟨hrecord, hrest⟩ := List.forall_mem_cons.1 h
    have hafter : isInsideAfter true record = true := by
      simp [isInsideAfter, isSentinel, hrecord]
    rw [selectFrom, hafter, ih hrest, List.filter_cons]

/-! ### Sentinels -/

theorem isSentinel_of_start (h : Directive.ofLine? record = some .zincStart) :
    isSentinel record = true := by
  simp [isSentinel, isDirective, h]

theorem isSentinel_of_end (h : Directive.ofLine? record = some .zincEnd) :
    isSentinel record = true := by
  simp [isSentinel, isDirective, h]

theorem isSentinel_eq_false (hstart : Directive.ofLine? record ≠ some .zincStart)
    (hend : Directive.ofLine? record ≠ some .zincEnd) : isSentinel record = false := by
  simp [isSentinel, isDirective, hstart, hend]

theorem isInsideAfter_start (h : Directive.ofLine? record = some .zincStart) (isInside : Bool) :
    isInsideAfter isInside record = true := by
  rw [isInsideAfter, if_pos (isSentinel_of_start h)]
  simp [isDirective, h]

theorem isInsideAfter_end (h : Directive.ofLine? record = some .zincEnd) (isInside : Bool) :
    isInsideAfter isInside record = false := by
  rw [isInsideAfter, if_pos (isSentinel_of_end h)]
  simp [isDirective, h]

theorem isInsideAfter_line (h : isSentinel record = false) (isInside : Bool) :
    isInsideAfter isInside record = isInside := by
  simp [isInsideAfter, h]

/-- A line that is not selected. -/
theorem selectFrom_skip {keep : Bool → SourceLine → Bool} {isInside : Bool}
    (h : keep isInside record = false) (rest : List SourceLine) :
    selectFrom keep isInside (record :: rest) =
      selectFrom keep (isInsideAfter isInside record) rest := by
  simp [selectFrom, h]

/-! ### What `extract` finds -/

/-- Where nothing closes a block, all further lines are its content. -/
theorem forall_of_dropWhile_eq_nil {rest : List SourceLine}
    (h : rest.dropWhile (!isDirective .zincEnd ·) = []) :
    ∀ record ∈ rest, isDirective .zincEnd record = false := by
  simpa using h

theorem forall_mem_inside {rest : List SourceLine} :
    ∀ record ∈ rest.takeWhile (!isDirective .zincEnd ·), isDirective .zincEnd record = false :=
  fun record h => by simpa using List.mem_takeWhile_imp h

/-- The line at which the content of a block stops closes the block. -/
theorem ofLine?_of_dropWhile {rest later : List SourceLine} {closer : SourceLine}
    (h : rest.dropWhile (!isDirective .zincEnd ·) = closer :: later) :
    Directive.ofLine? closer = some .zincEnd := by
  have hhead := List.head?_dropWhile_not (!isDirective .zincEnd ·) rest
  rw [h] at hhead
  simpa [isDirective] using hhead

theorem takeWhile_append_of_dropWhile {rest later : List SourceLine} {closer : SourceLine}
    (h : rest.dropWhile (!isDirective .zincEnd ·) = closer :: later) :
    rest = rest.takeWhile (!isDirective .zincEnd ·) ++ closer :: later := by
  rw [← h, List.takeWhile_append_dropWhile]

theorem filter_keepsOutside (body : List SourceLine) : body.filter (keepsOutside true) = [] := by
  simp [keepsOutside]

/-- Of the content of a block, the lines that would open another one are left out. -/
theorem filter_keepsInside (h : ∀ record ∈ body, isDirective .zincEnd record = false) :
    body.filter (keepsInside true) = body.filter (!isDirective .zincStart ·) := by
  apply List.filter_congr
  intro record hrecord
  simp [keepsInside, isSentinel, h record hrecord]

section

variable {keep : Bool → SourceLine → Bool} {opener : SourceLine} {rest later : List SourceLine}
  (hkeep : ∀ isInside record, isSentinel record = true → keep isInside record = false)
include hkeep

/-- Without the sentinels, what is selected of a block that nothing closes is part of its
content. -/
theorem selectFrom_unclosed (hstart : Directive.ofLine? opener = some .zincStart)
    (hstop : rest.dropWhile (!isDirective .zincEnd ·) = []) (isInside : Bool) :
    selectFrom keep isInside (opener :: rest) = rest.filter (keep true) := by
  rw [selectFrom_skip (hkeep _ _ (isSentinel_of_start hstart)), isInsideAfter_start hstart,
    selectFrom_body keep (forall_of_dropWhile_eq_nil hstop)]

/-- Without the sentinels, part of the content of a block is selected, and then what is selected
behind the line that closes it. -/
theorem selectFrom_closed {closer : SourceLine}
    (hstart : Directive.ofLine? opener = some .zincStart)
    (hstop : rest.dropWhile (!isDirective .zincEnd ·) = closer :: later) (isInside : Bool) :
    selectFrom keep isInside (opener :: rest) =
      (rest.takeWhile (!isDirective .zincEnd ·)).filter (keep true) ++
        selectFrom keep false later := by
  have hcloser := ofLine?_of_dropWhile hstop
  have hopener := hkeep isInside _ (isSentinel_of_start hstart)
  rw [selectFrom_skip hopener, isInsideAfter_start hstart, takeWhile_append_of_dropWhile hstop,
    selectFrom_append, selectFrom_body keep forall_mem_inside,
    foldl_isInsideAfter forall_mem_inside, selectFrom_skip (hkeep _ _ (isSentinel_of_end hcloser)),
    isInsideAfter_end hcloser, ← takeWhile_append_of_dropWhile hstop]

/-- A line that would close a block is left out. -/
theorem selectFrom_end (hend : Directive.ofLine? opener = some .zincEnd) (isInside : Bool) :
    selectFrom keep isInside (opener :: rest) = selectFrom keep false rest := by
  rw [selectFrom_skip (hkeep _ _ (isSentinel_of_end hend)), isInsideAfter_end hend]

end

theorem keepsInside_sentinel (isInside : Bool) (record : SourceLine)
    (h : isSentinel record = true) : keepsInside isInside record = false := by
  simp [keepsInside, h]

theorem keepsOutside_sentinel (isInside : Bool) (record : SourceLine)
    (h : isSentinel record = true) : keepsOutside isInside record = false := by
  simp [keepsOutside, h]

theorem remaining_extract (source : Nat) (lines : List SourceLine) :
    (extract source lines).remaining = outside lines := by
  rw [outside, select_eq]
  fun_induction extract source lines with
  | case1 => rfl
  | case2 record rest hstart body hstop =>
    -- Nothing closes the block, and nothing is outside any more
    rw [selectFrom_unclosed keepsOutside_sentinel hstart hstop, filter_keepsOutside]
  | case3 record rest hstart body closer later hstop next ih =>
    -- Behind the closing line the stream is outside again
    rw [selectFrom_closed keepsOutside_sentinel hstart hstop, filter_keepsOutside]
    exact ih
  | case4 record rest hend next ih =>
    rw [selectFrom_end keepsOutside_sentinel hend]
    exact ih
  | case5 record rest next hstart hend ih =>
    have hline := isSentinel_eq_false hstart hend
    have hkeep : keepsOutside false record = true := by simp [keepsOutside, hline]
    rw [selectFrom, if_pos hkeep, isInsideAfter_line hline, ← ih]

theorem lines_extract (source : Nat) (lines : List SourceLine) :
    (extract source lines).blocks.flatMap ZincBlock.lines = inside lines := by
  rw [inside, select_eq]
  fun_induction extract source lines with
  | case1 => rfl
  | case2 record rest hstart body hstop =>
    -- Nothing closes the block, and all further lines lie in it
    have hbody := forall_of_dropWhile_eq_nil hstop
    have hall : body = rest := List.takeWhile_eq_self_iff.2 (by simpa using hbody)
    rw [selectFrom_unclosed keepsInside_sentinel hstart hstop, filter_keepsInside hbody, hall]
    simp [ofInside]
  | case3 record rest hstart body closer later hstop next ih =>
    rw [selectFrom_closed keepsInside_sentinel hstart hstop, filter_keepsInside forall_mem_inside,
      ← ih]
    rfl
  | case4 record rest hend next ih =>
    rw [selectFrom_end keepsInside_sentinel hend]
    exact ih
  | case5 record rest next hstart hend ih =>
    -- An ordinary line outside every block is in none
    have hkeep : keepsInside false record = false := by simp [keepsInside]
    rw [selectFrom_skip hkeep, isInsideAfter_line (isSentinel_eq_false hstart hend)]
    exact ih

/-- All blocks are closed, but for a last one that the stream ends in. -/
theorem isClosed_extract (source : Nat) (lines : List SourceLine) :
    ∃ closed : Nat, (extract source lines).blocks.map ZincBlock.isClosed =
      List.replicate closed true ++ if endsInside lines then [false] else [] := by
  have hends : endsInside lines = lines.foldl isInsideAfter false := endsInside_append [] lines
  rw [hends]
  fun_induction extract source lines with
  | case1 => exact ⟨0, rfl⟩
  | case2 record rest hstart body hstop =>
    -- The last block is open at the end
    rw [List.foldl_cons, isInsideAfter_start hstart,
      foldl_isInsideAfter (forall_of_dropWhile_eq_nil hstop)]
    exact ⟨0, rfl⟩
  | case3 record rest hstart body closer later hstop next ih =>
    -- One more closed block in front of those behind it
    obtain ⟨closed, hclosed⟩ := ih (endsInside_append [] later)
    refine ⟨closed + 1, ?_⟩
    rw [takeWhile_append_of_dropWhile hstop, List.foldl_cons, isInsideAfter_start hstart,
      List.foldl_append, foldl_isInsideAfter forall_mem_inside, List.foldl_cons,
      isInsideAfter_end (ofLine?_of_dropWhile hstop), List.map_cons, hclosed]
    rfl
  | case4 record rest hend next ih =>
    rw [List.foldl_cons, isInsideAfter_end hend]
    exact ih (endsInside_append [] rest)
  | case5 record rest next hstart hend ih =>
    rw [List.foldl_cons, isInsideAfter_line (isSentinel_eq_false hstart hend)]
    exact ih (endsInside_append [] rest)

/-- No line is lost or doubled. -/
theorem perm_select (lines : List SourceLine) :
    lines.Perm (lines.filter isSentinel ++ outside lines ++ inside lines) := by
  rw [outside, inside, select_eq, select_eq]
  generalize false = isInside
  induction lines generalizing isInside with
  | nil => exact .nil
  | cons record rest ih =>
    have hrest := ih (isInsideAfter isInside record)
    rw [List.perm_iff_count] at hrest ⊢
    intro other
    have hcount := hrest other
    rw [selectFrom, selectFrom, List.filter_cons]
    simp only [List.count_append] at hcount ⊢
    -- The line is a sentinel, lies inside, or lies outside
    cases hsentinel : isSentinel record <;> cases isInside <;>
      simp [keepsInside, keepsOutside, hsentinel, List.count_cons] at hcount ⊢ <;> omega

theorem isSentinel_of_mem_selectFrom {keep : Bool → SourceLine → Bool}
    (hkeep : ∀ isInside record, keep isInside record = true → isSentinel record = false)
    {isInside : Bool} (h : record ∈ selectFrom keep isInside lines) :
    isSentinel record = false := by
  induction lines generalizing isInside with
  | nil => cases h
  | cons first rest ih =>
    rw [selectFrom] at h
    split at h
    · next hfirst =>
      obtain rfl | h := List.mem_cons.1 h
      · exact hkeep _ _ hfirst
      · exact ih h
    · exact ih h

theorem isSentinel_of_mem_outside (h : record ∈ outside lines) : isSentinel record = false := by
  rw [outside, select_eq] at h
  exact isSentinel_of_mem_selectFrom (by simp [keepsOutside]) h

theorem isSentinel_of_mem_inside (h : record ∈ inside lines) : isSentinel record = false := by
  rw [inside, select_eq] at h
  exact isSentinel_of_mem_selectFrom (by simp [keepsInside]) h

/-! ### Streams that differ inside -/

/-- The lines outside do not depend on those inside. -/
theorem outside_frame (lines : List SourceLine) : outside (frame lines) = outside lines := by
  rw [outside, frame, select_eq, select_eq, select_eq]
  generalize false = isInside
  induction lines generalizing isInside with
  | nil => rfl
  | cons record rest ih =>
    by_cases hframe : keepsFrame isInside record = true
    · -- The line is in both streams, and what follows it stands inside or outside in both
      rw [selectFrom, if_pos hframe, selectFrom, selectFrom, ih]
    · -- A line that is left out lies inside, and does not change where the next one lies
      obtain ⟨rfl, hline⟩ : isInside = true ∧ isSentinel record = false := by
        simpa [keepsFrame] using hframe
      rw [selectFrom, if_neg hframe, selectFrom_skip (by simp [keepsOutside]),
        isInsideAfter_line hline, ih]

/-- Lines inside may be replaced by other lines that are no sentinels. -/
theorem frame_edited {front edit edit' : List SourceLine} (hfront : endsInside front = true)
    (hedit : ∀ record ∈ edit ++ edit', isSentinel record = false) (back : List SourceLine) :
    frame (front ++ edit' ++ back) = frame (front ++ edit ++ back) := by
  -- Of lines inside that are no sentinels the frame keeps nothing, and the next line lies inside
  have hplain : ∀ body : List SourceLine, (∀ record ∈ body, isSentinel record = false) →
      frame (front ++ body ++ back) = selectFrom keepsFrame false front ++
        selectFrom keepsFrame true back := by
    intro body hbody
    have hopen : ∀ record ∈ body, isDirective .zincEnd record = false := fun record hrecord => by
      have hnone := hbody record hrecord
      rw [isSentinel, Bool.or_eq_false_iff] at hnone
      exact hnone.2
    have hnothing : body.filter (keepsFrame true) = [] := by
      simpa [keepsFrame] using hbody
    have hinside : front.foldl isInsideAfter false = true :=
      (endsInside_append [] front).symm.trans hfront
    rw [frame, select_eq, selectFrom_append, selectFrom_append, List.foldl_append, hinside,
      selectFrom_body _ hopen, hnothing, foldl_isInsideAfter hopen, List.append_nil]
  obtain ⟨hbefore, hafter⟩ := List.forall_mem_append.1 hedit
  rw [hplain edit hbefore, hplain edit' hafter]

/-- The same holds where macros produce the sentinels, if the lines are replaced before. -/
theorem frame_expand_edited (context : Expansion.Context) {front edit edit' : List SourceLine}
    (hfront : endsInside (Expansion.expand context front).lines = true)
    (hedit : ∀ record ∈ edit ++ edit',
      isSentinel record = false ∧ Directive.ofLine? record ≠ some .macroRun)
    (back : List SourceLine) :
    frame (Expansion.expand context (front ++ edit' ++ back)).lines =
      frame (Expansion.expand context (front ++ edit ++ back)).lines := by
  -- Lines that invoke nothing pass, and count for no limit
  have hpasses : ∀ body : List SourceLine,
      (∀ record ∈ body, Directive.ofLine? record ≠ some .macroRun) →
      (Expansion.expand context (front ++ body ++ back)).lines =
        (Expansion.expand context front).lines ++ body ++
          (Expansion.expandFrom context (Expansion.expand context front).progress back).lines := by
    intro body hbody
    rw [Expansion.expand, Expansion.expandFrom_append, Expansion.expandFrom_append,
      Expansion.expandFrom_of_plain hbody]
    rfl
  obtain ⟨hbefore, hafter⟩ := List.forall_mem_append.1 hedit
  rw [hpasses edit fun record hrecord => (hbefore record hrecord).2,
    hpasses edit' fun record hrecord => (hafter record hrecord).2]
  exact frame_edited hfront (fun record hrecord => (hedit record hrecord).1) _

/-! ### The whole -/

/-- The tokens of the blocks are those of the lines inside. -/
theorem tokens_extract (source : Nat) (lines : List SourceLine) :
    tokens (extract source lines).blocks = (inside lines).flatMap SourceLine.tokens := by
  rw [tokens, ← lines_extract source, List.flatMap_assoc]

/-- Documents whose streams differ inside only have the same outline, and the warnings about it
come last in both. -/
theorem read_eq_of_frame (source : Nat) (limit? : Option Nat) {text text' : List Char}
    (h : frame (Document.read source limit? text').expanded =
      frame (Document.read source limit? text).expanded) :
    (Document.read source limit? text').outline = (Document.read source limit? text).outline ∧
    ∃ earlier earlier', (Document.read source limit? text).warnings =
        earlier ++ (Outline.build source (Document.read source limit? text).outlined).2 ∧
      (Document.read source limit? text').warnings =
        earlier' ++ (Outline.build source (Document.read source limit? text).outlined).2 := by
  have houtlined : (Document.read source limit? text').outlined =
      (Document.read source limit? text).outlined := by
    rw [Document.outlined, Document.outlined, remaining_extract, remaining_extract,
      ← outside_frame, h, outside_frame]
  have hbuild : ∀ text : List Char, (Document.read source limit? text).outline =
        (Outline.build source (Document.read source limit? text).outlined).1 ∧
      ∃ earlier, (Document.read source limit? text).warnings =
        earlier ++ (Outline.build source (Document.read source limit? text).outlined).2 :=
    fun text => ⟨rfl, _, rfl⟩
  obtain ⟨houtline, earlier, hwarnings⟩ := hbuild text
  obtain ⟨houtline', earlier', hwarnings'⟩ := hbuild text'
  rw [houtlined] at houtline' hwarnings'
  exact ⟨houtline'.trans houtline.symm, earlier, earlier', hwarnings, hwarnings'⟩

/-- A stream is parted exactly. What remains is what lies outside of all zinc blocks and the blocks
hold what lies inside, each in the order of the stream; sentinels go nowhere, and no other line is
lost. All blocks are closed, but for a last one exactly if the last sentinel of the stream opens
it, and the tokens of the blocks are those of the lines inside.

What remains does not depend on the lines inside: streams that differ there only have the same
outline, with the same warnings, and declare the same program, and so do texts whose expanded
streams differ there only. Such a difference may be made before the expansion, in front of and
behind sentinels that macros produce. -/
theorem extract_isolates (source : Nat) :
    (∀ lines : List SourceLine,
      (extract source lines).remaining = outside lines ∧
      (extract source lines).blocks.flatMap ZincBlock.lines = inside lines ∧
      (∀ record ∈ outside lines ++ inside lines, isSentinel record = false) ∧
      lines.Perm (lines.filter isSentinel ++ outside lines ++ inside lines) ∧
      (∃ closed : Nat, (extract source lines).blocks.map ZincBlock.isClosed =
        List.replicate closed true ++ if endsInside lines then [false] else []) ∧
      tokens (extract source lines).blocks = (inside lines).flatMap SourceLine.tokens) ∧
    (∀ lines lines' : List SourceLine, frame lines' = frame lines →
      Outline.build source (extract source lines').remaining =
        Outline.build source (extract source lines).remaining ∧
      Program.ofOutline source (Outline.build source (extract source lines').remaining).1 =
        Program.ofOutline source (Outline.build source (extract source lines).remaining).1) ∧
    (∀ (limit? : Option Nat) (text text' : List Char),
      frame (Document.read source limit? text').expanded =
        frame (Document.read source limit? text).expanded →
      (Document.read source limit? text').outline = (Document.read source limit? text).outline ∧
      (Document.read source limit? text').program = (Document.read source limit? text).program ∧
      ∃ earlier earlier', (Document.read source limit? text).warnings =
          earlier ++ (Outline.build source (Document.read source limit? text).outlined).2 ∧
        (Document.read source limit? text').warnings =
          earlier' ++ (Outline.build source (Document.read source limit? text).outlined).2) ∧
    ∀ (context : Expansion.Context) (front edit edit' back : List SourceLine),
      endsInside (Expansion.expand context front).lines = true →
      (∀ record ∈ edit ++ edit',
        isSentinel record = false ∧ Directive.ofLine? record ≠ some .macroRun) →
      frame (Expansion.expand context (front ++ edit' ++ back)).lines =
        frame (Expansion.expand context (front ++ edit ++ back)).lines := by
  refine ⟨fun lines => ⟨remaining_extract source lines, lines_extract source lines, ?_,
    perm_select lines, isClosed_extract source lines, tokens_extract source lines⟩, ?_, ?_, ?_⟩
  · exact List.forall_mem_append.2
      ⟨fun _ => isSentinel_of_mem_outside, fun _ => isSentinel_of_mem_inside⟩
  · intro lines lines' hframe
    -- What remains is what the frame has outside
    have hremaining : (extract source lines').remaining = (extract source lines).remaining := by
      rw [remaining_extract, remaining_extract, ← outside_frame, hframe, outside_frame]
    rw [hremaining]
    exact ⟨rfl, rfl⟩
  · intro limit? text text' hframe
    obtain ⟨houtline, hwarnings⟩ := read_eq_of_frame source limit? hframe
    exact ⟨houtline, congrArg (Program.ofOutline source) houtline, hwarnings⟩
  · intro context front edit edit' back hfront hedit
    exact frame_expand_edited context hfront hedit back

/-- A macro that opens a zinc block. -/
def openingContext : Expansion.Context where
  table := ⟨[⟨"Open", [], [.ofChars "//! zinc\n".toList 1 21], .onLine 0 0 21⟩]⟩
  limit? := none
  source := 0

/-- The line that invokes the macro. -/
def openingLines : List SourceLine := [.ofChars "//! runtextmacro Open()\n".toList 3 50]

/-- What stands in the block. -/
def contentLines (content : String) : List SourceLine := [.ofChars content.toList 4 74]

/-- The end of the block and a function behind it. -/
def closingLines : List SourceLine :=
  [.ofChars "//! endzinc\n".toList 5 87,
    .ofChars "function f takes nothing returns nothing\n".toList 6 99]

/-- A library or a stray closing line stands in a block that a macro opens, and in one that the text
itself opens and does not close. -/
theorem extract_isolates_replayed :
    endsInside (Expansion.expand openingContext openingLines).lines = true ∧
    (∀ record ∈ contentLines "library A {}\n" ++ contentLines "endfunction;\n",
      isSentinel record = false ∧ Directive.ofLine? record ≠ some .macroRun) ∧
    Outline.build 0 (extract 0 (Expansion.expand openingContext
        (openingLines ++ contentLines "endfunction;\n" ++ closingLines)).lines).remaining =
      Outline.build 0 (extract 0 (Expansion.expand openingContext
        (openingLines ++ contentLines "library A {}\n" ++ closingLines)).lines).remaining ∧
    frame (Document.read 0 none "//! zinc\nendfunction\n".toList).expanded =
      frame (Document.read 0 none "//! zinc\nstruct s {}\n".toList).expanded ∧
    (Document.read 0 none "//! zinc\nendfunction\n".toList).program =
      (Document.read 0 none "//! zinc\nstruct s {}\n".toList).program := by
  have hfront : endsInside (Expansion.expand openingContext openingLines).lines = true := by
    rw [← @Expansion.Machine.output_after openingContext 3 openingLines (by decide +kernel)]
    decide +kernel
  have hedit : ∀ record ∈ contentLines "library A {}\n" ++ contentLines "endfunction;\n",
      isSentinel record = false ∧ Directive.ofLine? record ≠ some .macroRun := by
    decide +kernel
  have hframe := (extract_isolates 0).2.2.2 openingContext openingLines _ _ closingLines hfront
    hedit
  have htexts : frame (Document.read 0 none "//! zinc\nendfunction\n".toList).expanded =
      frame (Document.read 0 none "//! zinc\nstruct s {}\n".toList).expanded := by
    decide +kernel
  exact ⟨hfront, hedit, ((extract_isolates 0).2.1 _ _ hframe).1, htexts,
    ((extract_isolates 0).2.2.1 none _ _ htexts).2.1⟩

end JassOutline.ZincBlock

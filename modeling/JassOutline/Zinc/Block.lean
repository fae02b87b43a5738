import JassOutline.Directive
import JassOutline.Token.Lexer
import JassOutline.Warning

/-!
# Zinc blocks

The directives `zinc` and `endzinc` enclose text of another dialect. `ZincBlock.extract` parts a
stream of lines into the blocks of that dialect and the lines that remain. The directives belong
to neither. `ZincBlock.tokens` is what the grammar of the dialect reads.
-/

namespace JassOutline

/-- The lines between a `zinc` directive and the `endzinc` after it. -/
structure ZincBlock where
  /-- From the directive that opens the block to the one that closes it, or to the last line. -/
  region : Region
  isClosed : Bool
  lines : List SourceLine
  deriving DecidableEq, Repr

namespace ZincBlock

/-- A stream of lines parted into its zinc blocks and what remains. -/
structure Extraction where
  blocks : List ZincBlock
  remaining : List SourceLine
  warnings : List Warning
  deriving DecidableEq, Repr

/-- Whether the line is the given directive. -/
def isDirective (directive : Directive) (record : SourceLine) : Bool :=
  Directive.ofLine? record == some directive

/-- The warnings for directives that open a block inside an open block. -/
def nestedWarnings (source : Nat) (inside : List SourceLine) : List Warning :=
  (inside.filter (isDirective .zincStart)).map fun record => .onLine .zincNested record source

/-- The block with the given lines inside, which ends at a position. -/
def ofInside (opener : SourceLine) (inside : List SourceLine) (isClosed : Bool)
    (stop : Position) : ZincBlock where
  region := opener.region.withStop stop
  isClosed
  lines := inside.filter (!isDirective .zincStart ·)

/-- Parts the stream into its zinc blocks and the lines that remain. -/
def extract (source : Nat) (lines : List SourceLine) : Extraction :=
  match lines with
  | [] => ⟨[], [], []⟩
  | record :: rest =>
    match Directive.ofLine? record with
    | some .zincStart =>
      let inside := rest.takeWhile (!isDirective .zincEnd ·)
      match _hstop : rest.dropWhile (!isDirective .zincEnd ·) with
      | [] =>
        ⟨[ofInside record inside false (inside.getLastD record).region.stop], [],
          nestedWarnings source inside ++ [.onLine .zincNeverClosed record source]⟩
      | closer :: later =>
        let next := extract source later
        ⟨ofInside record inside true closer.region.stop :: next.blocks, next.remaining,
          nestedWarnings source inside ++ next.warnings⟩
    | some .zincEnd =>
      let next := extract source rest
      { next with warnings := .onLine .zincEndUnmatched record source :: next.warnings }
    | _ =>
      let next := extract source rest
      { next with remaining := record :: next.remaining }
termination_by lines.length
decreasing_by
  all_goals
    first
    | simp only [List.length_cons]; omega
    | have hle := (List.dropWhile_suffix (!isDirective .zincEnd ·) (l := rest)).length_le
      rw [_hstop] at hle
      simp only [List.length_cons] at *
      omega

/-- The tokens of all blocks in the order of the text. -/
def tokens (blocks : List ZincBlock) : List Token :=
  blocks.flatMap fun b => b.lines.flatMap SourceLine.tokens

end ZincBlock

end JassOutline
